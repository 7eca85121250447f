/-
When the server stops itself for the timeouts of Motr.

It is to stop at the first timeout that is the last of `N` in a row within `W` seconds
(`Burst`).  What it counts is something else.  The window starts anew with every timeout, so the
counter is the number of timeouts in a row that came less than `W` seconds each after the one
before (`recent`), however long they took together.

A burst is counted in any case, and so the server never stops too late.  It stops too early exactly
when the first `N` timeouts that are close to each other are no burst.
-/
import CortxS3.Server.MotrRwCommon

namespace CortxS3

open List

namespace MotrRwCommon

/-! ### Timeouts -/

/-- The times of the timeouts, the last one first. -/
def timeouts (cs : List (Int × Completion)) : List Int :=
  (cs.filterMap fun c => if c.2 = .failed (-etimedout) then some c.1 else none).reverse

/-- The last `n` timeouts came within `w` seconds. -/
def Burst (w n : Nat) (ts : List Int) : Prop :=
  ∃ last first, ts[0]? = some last ∧ ts[n - 1]? = some first ∧ last - first < w

/-- The operation `i` is the first to complete a burst. -/
def CompletesFirstBurst (w n : Nat) (cs : List (Int × Completion)) (i : Nat) : Prop :=
  Burst w n (timeouts (cs.take (i + 1))) ∧ ∀ j ≤ i, ¬ Burst w n (timeouts (cs.take j))

/-- How many timeouts there are in a row, each less than `w` seconds after the one before. -/
def recent (w : Nat) : List Int → Nat
  | [] => 0
  | [_] => 1
  | last :: before :: ts => if last - before ≥ w then 1 else recent w (before :: ts) + 1

/-- **The first `n` timeouts in a row that are close to each other are a burst**, if there are so
many. -/
def FirstCloseIsBurst (w n : Nat) (cs : List (Int × Completion)) : Prop :=
  ∀ i, n ≤ recent w (timeouts (cs.take i)) → (∀ j < i, recent w (timeouts (cs.take j)) < n) →
    Burst w n (timeouts (cs.take i))

/-- The counter and the window, before the server stops itself. -/
structure Counts (w n : Nat) (ts : List Int) (g : Globals) : Prop where
  cnt : g.gsTimeoutCnt = recent w ts
  windowStart : ∀ last, ts[0]? = some last → g.gsTimeoutWindowStart = last
  running : g.gsTimeoutShutdownInProgress = false
  below : recent w ts < n

section Watchdog

variable {opt : S3Option}

variable {g : Globals} {ts : List Int}

theorem recent_cons {w n : Nat} (h : Counts w n ts g) (curtime : Int) :
    recent w (curtime :: ts) =
      (if curtime - g.gsTimeoutWindowStart ≥ w then 0 else g.gsTimeoutCnt) + 1 := by
  cases ts with
  | nil =>
    have hcnt : g.gsTimeoutCnt = 0 := h.cnt
    rw [hcnt, ite_self]
    rfl
  | cons before ts =>
    rw [h.windowStart before rfl, h.cnt]
    show (if curtime - before ≥ w then 1 else recent w (before :: ts) + 1) = _
    split
    · rfl
    · rfl

variable {c : Completion} {curtime : Int}

theorem done_of_ne (h : c ≠ .failed (-etimedout)) :
    motrOpDoneOnMainThread opt g curtime c = (g, false) := by
  cases c with
  | successful => rfl
  | failed errorCode =>
    have hcond : ¬ (errorCode = -etimedout ∧ ¬ g.gsTimeoutShutdownInProgress = true) :=
      fun hc => h (hc.1 ▸ rfl)
    exact if_neg hcond

theorem done_of_inProgress (h : g.gsTimeoutShutdownInProgress = true) :
    motrOpDoneOnMainThread opt g curtime c = (g, false) := by
  cases c with
  | successful => rfl
  | failed errorCode =>
    have hcond : ¬ (errorCode = -etimedout ∧ ¬ g.gsTimeoutShutdownInProgress = true) :=
      fun hc => hc.2 h
    exact if_neg hcond

theorem shutdowns_of_inProgress (h : g.gsTimeoutShutdownInProgress = true) :
    ∀ cs : List (Int × Completion), ∀ b ∈ shutdowns opt g cs, b = false := by
  intro cs
  induction cs with
  | nil =>
    intro b hb
    cases hb
  | cons c rest ih =>
    intro b hb
    unfold shutdowns at hb
    rw [done_of_inProgress h] at hb
    rcases mem_cons.mp hb with rfl | hb
    · rfl
    · exact ih b hb

/-- A timeout is counted, and the server stops itself when the counter comes to the threshold. -/
theorem done_of_timeout (h : Counts opt.motrEtimedoutWindowSec opt.motrEtimedoutMaxThreshold ts g)
    (curtime : Int) :
    ∃ g', motrOpDoneOnMainThread opt g curtime (.failed (-etimedout)) =
        (g', decide (opt.motrEtimedoutMaxThreshold ≤
          recent opt.motrEtimedoutWindowSec (curtime :: ts))) ∧
      (opt.motrEtimedoutMaxThreshold ≤ recent opt.motrEtimedoutWindowSec (curtime :: ts) →
        g'.gsTimeoutShutdownInProgress = true) ∧
      (recent opt.motrEtimedoutWindowSec (curtime :: ts) < opt.motrEtimedoutMaxThreshold →
        Counts opt.motrEtimedoutWindowSec opt.motrEtimedoutMaxThreshold (curtime :: ts) g') := by
  have hrecent := recent_cons h curtime
  have hcond : -etimedout = -etimedout ∧ ¬ g.gsTimeoutShutdownInProgress = true := by
    simp [h.running]
  obtain ⟨counted, hcounted⟩ : ∃ counted : Globals, counted =
      { g with
        gsTimeoutCnt := recent opt.motrEtimedoutWindowSec (curtime :: ts)
        gsTimeoutWindowStart := curtime } := ⟨_, rfl⟩
  have hdone : motrOpDoneOnMainThread opt g curtime (.failed (-etimedout)) =
      if opt.motrEtimedoutMaxThreshold ≤ recent opt.motrEtimedoutWindowSec (curtime :: ts) then
        ({ counted with gsTimeoutShutdownInProgress := true }, true)
      else (counted, false) := by
    rw [hcounted, hrecent]
    exact if_pos hcond
  rw [hdone]
  by_cases hle : opt.motrEtimedoutMaxThreshold ≤ recent opt.motrEtimedoutWindowSec (curtime :: ts)
  · rw [if_pos hle, decide_eq_true hle]
    refine ⟨_, rfl, fun _ => rfl, ?_⟩
    intro hlt
    omega
  · rw [if_neg hle, decide_eq_false hle]
    refine ⟨_, rfl, fun hc => absurd hc hle, ?_⟩
    intro hlt
    subst hcounted
    refine ⟨rfl, ?_, h.running, hlt⟩
    intro last hlast
    exact Option.some.inj hlast

theorem timeouts_append (cs : List (Int × Completion)) (c : Int × Completion) :
    timeouts (cs ++ [c]) =
      if c.2 = .failed (-etimedout) then c.1 :: timeouts cs else timeouts cs := by
  unfold timeouts
  rw [filterMap_append, reverse_append]
  by_cases h : c.2 = .failed (-etimedout)
  · simp [h]
  · simp [h]

/-- **The server stops itself at the first operation at which so many timeouts in a row are close to
each other.** -/
theorem shutdowns_iff :
    ∀ (cs before : List (Int × Completion)) (g : Globals),
      Counts opt.motrEtimedoutWindowSec opt.motrEtimedoutMaxThreshold (timeouts before) g →
      ∀ i < cs.length,
        ((shutdowns opt g cs)[i]? = some true ↔
          opt.motrEtimedoutMaxThreshold ≤
              recent opt.motrEtimedoutWindowSec (timeouts (before ++ cs.take (i + 1))) ∧
            ∀ j ≤ i, recent opt.motrEtimedoutWindowSec (timeouts (before ++ cs.take j)) <
              opt.motrEtimedoutMaxThreshold) := by
  intro cs
  induction cs with
  | nil =>
    intro before g _ i hi
    exact absurd hi (Nat.not_lt_zero i)
  | cons c rest ih =>
    intro before g h i hi
    obtain ⟨curtime, completion⟩ := c
    have happend : ∀ l : List (Int × Completion), before ++ (curtime, completion) :: l =
        (before ++ [(curtime, completion)]) ++ l := by
      intro l
      rw [append_assoc]
      rfl
    -- what is asked of the completions before, when the first one is moved behind
    have hshift : (∀ j ≤ i - 1, recent opt.motrEtimedoutWindowSec
          (timeouts (before ++ [(curtime, completion)] ++ rest.take j)) <
            opt.motrEtimedoutMaxThreshold) ↔
        ∀ j ≤ i - 1 + 1, recent opt.motrEtimedoutWindowSec
          (timeouts (before ++ ((curtime, completion) :: rest).take j)) <
            opt.motrEtimedoutMaxThreshold := by
      constructor
      · intro hall j hj
        cases j with
        | zero =>
          rw [take_zero, append_nil]
          exact h.below
        | succ j =>
          rw [take_succ_cons, happend]
          exact hall j (by omega)
      · intro hall j hj
        have := hall (j + 1) (by omega)
        rw [take_succ_cons, happend] at this
        exact this
    by_cases hc : completion = .failed (-etimedout)
    · subst hc
      obtain ⟨g', hdone, hstop, hgo⟩ := done_of_timeout h curtime
      have hts : timeouts (before ++ [(curtime, .failed (-etimedout))]) =
          curtime :: timeouts before := by
        rw [timeouts_append, if_pos rfl]
      cases i with
      | zero =>
        unfold shutdowns
        rw [hdone, List.getElem?_cons_zero, Option.some.injEq, decide_eq_true_iff,
          take_succ_cons, take_zero, hts]
        constructor
        · intro hle
          refine ⟨hle, ?_⟩
          intro j hj
          obtain rfl := Nat.le_zero.mp hj
          rw [take_zero, append_nil]
          exact h.below
        · exact fun hle => hle.1
      | succ i =>
        unfold shutdowns
        rw [hdone, List.getElem?_cons_succ, take_succ_cons, happend]
        by_cases hle : opt.motrEtimedoutMaxThreshold ≤
            recent opt.motrEtimedoutWindowSec (curtime :: timeouts before)
        · constructor
          · intro htrue
            have := shutdowns_of_inProgress (hstop hle) rest true
              (mem_of_getElem? htrue)
            cases this
          · intro hall
            have := hall.2 1 (by omega)
            rw [take_succ_cons, take_zero, hts] at this
            omega
        · rw [ih _ g' (by rw [hts]; exact hgo (by omega)) i (by simpa using hi)]
          exact and_congr_right fun _ => hshift
    · have hts : timeouts (before ++ [(curtime, completion)]) = timeouts before := by
        rw [timeouts_append, if_neg hc]
      have hrest := ih (before ++ [(curtime, completion)]) g (by rw [hts]; exact h)
      cases i with
      | zero =>
        unfold shutdowns
        rw [done_of_ne hc, List.getElem?_cons_zero, take_succ_cons, take_zero, hts]
        constructor
        · intro hfalse
          cases hfalse
        · intro hall
          have := h.below
          omega
      | succ i =>
        unfold shutdowns
        rw [done_of_ne hc, List.getElem?_cons_succ, take_succ_cons, happend,
          hrest i (by simpa using hi)]
        exact and_congr_right fun _ => hshift

end Watchdog

/-! ### Bursts -/

/-- **A burst is a row of timeouts that are close to each other.** -/
theorem le_recent_of_burst {w n : Nat} {ts : List Int} (hsorted : ts.Pairwise (· ≥ ·)) (hn : 1 ≤ n)
    (h : Burst w n ts) : n ≤ recent w ts := by
  obtain ⟨last, first, hlast, hfirst, hlt⟩ := h
  obtain ⟨m, rfl⟩ := Nat.exists_eq_add_of_le' hn
  rw [Nat.add_sub_cancel] at hfirst
  induction ts generalizing m last with
  | nil => cases hlast
  | cons t ts ih =>
    have ht : t = last := Option.some.inj hlast
    subst ht
    cases ts with
    | nil =>
      cases m with
      | zero => exact Nat.le_refl 1
      | succ m => cases hfirst
    | cons before ts =>
      have hpair := pairwise_cons.mp hsorted
      have hbefore : t ≥ before := hpair.1 before (mem_cons_self ..)
      cases m with
      | zero =>
        unfold recent
        split
        · exact Nat.le_refl 1
        · exact Nat.le_add_left 1 _
      | succ m =>
        rw [List.getElem?_cons_succ] at hfirst
        have hle : first ≤ before := by
          rcases mem_cons.mp (mem_of_getElem? hfirst) with rfl | hmem
          · exact le_refl _
          · exact (pairwise_cons.mp hpair.2).1 first hmem
        have hclose : ¬ t - before ≥ (w : Int) := by omega
        have hrest := ih hpair.2 before rfl (by omega) m (Nat.le_add_left 1 m) hfirst
        unfold recent
        rw [if_neg hclose]
        omega

theorem timeouts_take_sublist (cs : List (Int × Completion)) (i : Nat) :
    (timeouts (cs.take i)).Sublist (timeouts cs) :=
  ((take_sublist i cs).filterMap _).reverse

theorem exists_first {P : Nat → Prop} {i : Nat} (h : P i) : ∃ k ≤ i, P k ∧ ∀ j < k, ¬ P j := by
  classical
  exact ⟨Nat.find ⟨i, h⟩, Nat.find_min' _ h, Nat.find_spec ⟨i, h⟩, fun j hj => Nat.find_min _ hj⟩

/-- The server stops itself at the first operation that completes a burst, and at no other. -/
def StopsAtFirstBurst (opt : S3Option) (start : Int) (cs : List (Int × Completion)) : Prop :=
  ∀ i < cs.length,
    ((shutdowns opt { gsTimeoutWindowStart := start } cs)[i]? = some true ↔
      CompletesFirstBurst opt.motrEtimedoutWindowSec opt.motrEtimedoutMaxThreshold cs i)

/-- **The server stops itself at the first burst exactly when the first so many timeouts that are
close to each other are one.** -/
theorem stopsAtFirstBurst_iff (opt : S3Option) (start : Int) (cs : List (Int × Completion))
    (hsorted : (timeouts cs).Pairwise (· ≥ ·)) (hn : 1 ≤ opt.motrEtimedoutMaxThreshold) :
    StopsAtFirstBurst opt start cs ↔
      FirstCloseIsBurst opt.motrEtimedoutWindowSec opt.motrEtimedoutMaxThreshold cs := by
  have hstart : Counts opt.motrEtimedoutWindowSec opt.motrEtimedoutMaxThreshold (timeouts [])
      { gsTimeoutWindowStart := start } :=
    ⟨rfl, fun last hlast => (nomatch hlast), rfl, hn⟩
  have hstops : ∀ i < cs.length,
      ((shutdowns opt { gsTimeoutWindowStart := start } cs)[i]? = some true ↔
        opt.motrEtimedoutMaxThreshold ≤
            recent opt.motrEtimedoutWindowSec (timeouts (cs.take (i + 1))) ∧
          ∀ j ≤ i, recent opt.motrEtimedoutWindowSec (timeouts (cs.take j)) <
            opt.motrEtimedoutMaxThreshold) :=
    fun i hi => shutdowns_iff cs [] _ hstart i hi
  have hburst : ∀ i, Burst opt.motrEtimedoutWindowSec opt.motrEtimedoutMaxThreshold
      (timeouts (cs.take i)) → opt.motrEtimedoutMaxThreshold ≤
        recent opt.motrEtimedoutWindowSec (timeouts (cs.take i)) :=
    fun i h => le_recent_of_burst (hsorted.sublist (timeouts_take_sublist cs i)) hn h
  constructor
  · intro h i hle hfirst
    -- the operation before position `i` is the one that stops the server
    cases i with
    | zero =>
      have hzero : recent opt.motrEtimedoutWindowSec (timeouts (cs.take 0)) = 0 := rfl
      omega
    | succ i =>
      by_cases hi : i < cs.length
      · have htrue := (hstops i hi).mpr ⟨hle, fun j hj => hfirst j (Nat.lt_succ_of_le hj)⟩
        exact ((h i hi).mp htrue).1
      · have htake : cs.take (i + 1) = cs.take i := by
          rw [take_of_length_le (by omega), take_of_length_le (by omega)]
        have := hfirst i (Nat.lt_succ_self i)
        rw [htake] at hle
        omega
  · intro h i hi
    rw [hstops i hi]
    constructor
    · intro hfires
      refine ⟨h (i + 1) hfires.1 fun j hj => hfires.2 j (Nat.le_of_lt_succ hj), ?_⟩
      intro j hj hb
      have := hburst j hb
      have := hfires.2 j hj
      omega
    · intro hfirst
      refine ⟨hburst _ hfirst.1, ?_⟩
      intro j hj
      by_contra hge
      obtain ⟨k, hk, hcount, hleast⟩ := exists_first (P := fun k => opt.motrEtimedoutMaxThreshold ≤
        recent opt.motrEtimedoutWindowSec (timeouts (cs.take k))) (Nat.le_of_not_lt hge)
      exact hfirst.2 k (by omega) (h k hcount fun j hj => Nat.lt_of_not_le (hleast j hj))

/-- Three timeouts within five seconds. -/
def threeInFive : S3Option := { motrEtimedoutMaxThreshold := 3, motrEtimedoutWindowSec := 5 }

/-- A timeout at a time. -/
def timeoutAt (t : Int) : Int × Completion := (t, .failed (-etimedout))

/-- Three timeouts, with a success in between. -/
theorem stopsAtFirstBurst_iff_threeTimeouts :
    shutdowns threeInFive { gsTimeoutWindowStart := 0 }
        [timeoutAt 7, timeoutAt 9, (9, .successful), timeoutAt 11] = [false, false, false, true] ∧
      StopsAtFirstBurst threeInFive 0
        [timeoutAt 7, timeoutAt 9, (9, .successful), timeoutAt 11] := by
  refine ⟨by decide,
    (stopsAtFirstBurst_iff threeInFive 0 _ (by decide) (by decide)).mpr fun i hle hfirst => ?_⟩
  have hlast : i ≤ 4 := Nat.le_of_not_lt fun hlt => absurd (hfirst 4 hlt) (by decide)
  interval_cases i
  · exact absurd hle (by decide)
  · exact absurd hle (by decide)
  · exact absurd hle (by decide)
  · exact absurd hle (by decide)
  · exact ⟨11, 7, rfl, rfl, by decide⟩

/-- Three timeouts in eight seconds. -/
theorem not_stopsAtFirstBurst_eightSeconds :
    ¬ ∀ (opt : S3Option) (start : Int) (cs : List (Int × Completion)),
      (timeouts cs).Pairwise (· ≥ ·) → 1 ≤ opt.motrEtimedoutWindowSec →
        1 ≤ opt.motrEtimedoutMaxThreshold → StopsAtFirstBurst opt start cs := by
  intro h
  have hstops := h threeInFive 0 [timeoutAt 0, timeoutAt 4, timeoutAt 8] (by decide) (by decide)
    (by decide) 2 (by decide)
  obtain ⟨⟨last, first, hlast, hfirst, hlt⟩, -⟩ := hstops.mp (by decide)
  cases hlast
  cases hfirst
  exact absurd hlt (by decide)

end MotrRwCommon

end CortxS3

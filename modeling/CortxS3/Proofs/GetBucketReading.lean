/-
A listing that reads one key at a time.

What `S3GetBucketAction` lists does not have to depend on how many keys come in one batch.  `read`
is one step of a listing that takes the keys of the index one by one: a key is passed over, listed
by itself or rolled up, and a key that is rolled up for the first time is followed by a jump behind
all that begins with the common prefix.  `reading` is where such a listing stands and what it has
found so far, and `Answer` is what it comes to.

A listing in batches comes to the same, but for three things that `Steady` names: the key that is
the prefix itself, a page that is full before the index is read, and keys that contain a common
prefix without beginning with it.
-/
import CortxS3.Lib.Until
import CortxS3.Proofs.GetBucketDelimiter

namespace CortxS3

open List

namespace S3GetBucketAction

open Until

/-- What a listing is asked for, and the index it reads. -/
structure Listing where
  index : List KeyValue
  fromJson : Bytes → Option Bytes
  pfx : Bytes
  delimiter : Bytes
  marker : Bytes
  maxKeys : Nat

/-- What becomes of a key. -/
inductive Role where
  /-- Not listed: in front of the prefix, or its value does not parse. -/
  | idle
  /-- Behind the keys with the prefix. -/
  | past
  | listed (name : Bytes)
  | rolled (commonPrefix : Bytes)
deriving DecidableEq

/-- Where a listing stands: the keys in front of it and what it has found. -/
structure Reading where
  rem : List KeyValue
  found : S3ObjectListResponse
deriving DecidableEq

namespace Listing

variable (q : Listing)

/-- The common prefix of a key, if it has one. -/
def rolledTo (key : Bytes) : Option Bytes :=
  if q.delimiter = [] then none else cut q.pfx q.delimiter key

def role (kv : KeyValue) : Role :=
  if q.pfx.isPrefixOf kv.1 then
    match q.rolledTo kv.1 with
    | some c => .rolled c
    | none =>
      match q.fromJson kv.2 with
      | some name => .listed name
      | none => .idle
  else if q.pfx < kv.1 then .past
  else .idle

/-- What is found with a new common prefix. -/
def roll (found : S3ObjectListResponse) (c : Bytes) : S3ObjectListResponse :=
  if c = q.marker then found else found.addCommonPrefix c

/-- The response, when nothing more is listed. -/
def finished (found : S3ObjectListResponse) : S3ObjectListResponse :=
  { found with keyCount := found.resultCount }

/-- Some key behind a full page may be listed. -/
def anyLeft (rem : List KeyValue) : Bool :=
  match rem with
  | [] => false
  | kv :: _ => !(q.pfx ≠ [] ∧ find q.pfx kv.1 = none)

/-- The response, when a common prefix has filled the page. -/
def filled (c : Bytes) (found : S3ObjectListResponse) : S3ObjectListResponse :=
  if q.anyLeft (OrderedIndex.after q.index (c ++ [0xff])) then
    { finished found with responseIsTruncated := true, nextMarkerKey := c }
  else finished found

/-- One key. -/
def read (s : Reading) : Until.Outcome Reading S3ObjectListResponse :=
  match s.rem with
  | [] => .done (finished s.found)
  | kv :: rest =>
    match q.role kv with
    | .idle => .next ⟨rest, s.found⟩
    | .past => .done (finished s.found)
    | .listed name =>
      if (s.found.addObject name).resultCount = q.maxKeys then
        .done (finished (s.found.addObject name))
      else .next ⟨rest, s.found.addObject name⟩
    | .rolled c =>
      if s.found.commonPrefixes.elem c then .next ⟨rest, s.found⟩
      else if (q.roll s.found c).resultCount = q.maxKeys then .done (q.filled c (q.roll s.found c))
      else .next ⟨OrderedIndex.after q.index (c ++ [0xff]), q.roll s.found c⟩

/-- A listing begins behind the marker, or else behind the prefix. -/
def begins : Reading :=
  ⟨OrderedIndex.after q.index (if q.marker = [] then q.pfx else q.marker), {}⟩

/-- Where a listing comes to from some place on. -/
abbrev Comes (s₀ s : Reading) : Prop := Reaches q.read s₀ s

/-- What a listing comes to from some place on. -/
abbrev Answer (s : Reading) (response : S3ObjectListResponse) : Prop := Ends q.read s response

/-! ### When the batches do not matter -/

/-- A key adds something to what was found. -/
def Adds (found : S3ObjectListResponse) (kv : KeyValue) : Bool :=
  match q.role kv with
  | .idle | .past => false
  | .listed _ => true
  | .rolled c => !found.commonPrefixes.contains c

/-- Batches of up to `n` keys do not change what a listing comes to from some place on. -/
structure Steady (s₀ : Reading) (n : Nat) : Prop where
  /-- The key that is the prefix is not listed. -/
  first : 1 < n → q.pfx ≠ [] → q.marker = [] →
    ∀ kv ∈ q.index, kv.1 = q.pfx → q.fromJson kv.2 = none
  /-- A page that is full with a key listed by itself is full at the end of the index. -/
  ends : 1 < n → ∀ kv rest found name, q.Comes s₀ ⟨kv :: rest, found⟩ → q.role kv = .listed name →
    (found.addObject name).resultCount = q.maxKeys → rest = []
  /-- Behind a key that goes on with 0xff where its common prefix ends, the keys of a batch that
  contain this common prefix add nothing, or all that they add is that of the key behind them. -/
  skips : ∀ kv rest found c, q.Comes s₀ ⟨kv :: rest, found⟩ → q.role kv = .rolled c →
    c ∈ found.commonPrefixes → ∀ k < n, (∀ x ∈ rest.take k, find c x.1 ≠ none) →
      ∀ x, (rest.take k).find? (q.Adds found) = some x →
        ∃ c' y, q.role x = .rolled c' ∧ (rest.drop k).head? = some y ∧ q.role y = .rolled c'

end Listing

/-! ### Keys that are passed over -/

/-- Where the loop over the batches may stand: where a listing comes to that reads one key at a
time, or one unlisted key in front of it, or at another key of the common prefix that is next, or
behind the keys with the prefix. -/
inductive At (q : Listing) (s₀ : Reading) : Reading → Prop where
  | comes {s : Reading} (h : q.Comes s₀ s) : At q s₀ s
  | ahead {kv : KeyValue} {rest : List KeyValue} {found : S3ObjectListResponse}
      (hrole : q.role kv = .idle) (h : q.Comes s₀ ⟨rest, found⟩) : At q s₀ ⟨kv :: rest, found⟩
  | beside {kv kv' : KeyValue} {rest rest' : List KeyValue} {found : S3ObjectListResponse}
      {c : Bytes} (hrole : q.role kv = .rolled c) (hnew : c ∉ found.commonPrefixes)
      (hrole' : q.role kv' = .rolled c) (h : q.Comes s₀ ⟨kv' :: rest', found⟩) :
      At q s₀ ⟨kv :: rest, found⟩
  | beyond {s : Reading} (h : ∀ kv ∈ s.rem, q.role kv = .past) : At q s₀ s

section

variable {q : Listing} {kv kv' : KeyValue} {rest xs ys : List KeyValue}
  {found : S3ObjectListResponse} {s₀ s' : Reading} {c : Bytes}

theorem answer_of_done {s : Reading} {w : S3ObjectListResponse} (h : q.read s = .done w) :
    q.Answer s w :=
  (ends_iff_of_done h w).mpr rfl

theorem read_idle (hrole : q.role kv = .idle) : q.read ⟨kv :: rest, found⟩ = .next ⟨rest, found⟩ := by
  unfold Listing.read
  dsimp only
  rw [hrole]

theorem read_past (hrole : q.role kv = .past) :
    q.read ⟨kv :: rest, found⟩ = .done (Listing.finished found) := by
  unfold Listing.read
  dsimp only
  rw [hrole]

theorem read_listed {name : Bytes} (hrole : q.role kv = .listed name) :
    q.read ⟨kv :: rest, found⟩ =
      if (found.addObject name).resultCount = q.maxKeys then
        .done (Listing.finished (found.addObject name))
      else .next ⟨rest, found.addObject name⟩ := by
  unfold Listing.read
  dsimp only
  rw [hrole]

theorem read_known (hrole : q.role kv = .rolled c) (hknown : c ∈ found.commonPrefixes) :
    q.read ⟨kv :: rest, found⟩ = .next ⟨rest, found⟩ := by
  unfold Listing.read
  dsimp only
  rw [hrole]
  exact if_pos (elem_iff.mpr hknown)

theorem read_new (hrole : q.role kv = .rolled c) (hnew : c ∉ found.commonPrefixes) :
    q.read ⟨kv :: rest, found⟩ =
      if (q.roll found c).resultCount = q.maxKeys then .done (q.filled c (q.roll found c))
      else .next ⟨OrderedIndex.after q.index (c ++ [0xff]), q.roll found c⟩ := by
  unfold Listing.read
  dsimp only
  rw [hrole]
  exact if_neg fun h => hnew (elem_iff.mp h)

section

variable (h : At q s₀ ⟨kv :: rest, found⟩)

include h

theorem At.next (hnext : q.read ⟨kv :: rest, found⟩ = .next s') :
    q.Comes s₀ s' := by
  cases h with
  | comes h => exact h.step hnext
  | ahead hrole h =>
    rw [read_idle hrole] at hnext
    cases hnext
    exact h
  | beside hrole hnew hrole' h =>
    refine h.step ?_
    rw [read_new hrole hnew] at hnext
    rw [read_new hrole' hnew]
    exact hnext
  | beyond h =>
    rw [read_past (h kv mem_cons_self)] at hnext
    cases hnext

/-- The key is one that a listing comes to, unless it starts with nothing new. -/
theorem At.comes_of_known (hrole : q.role kv = .rolled c)
    (hknown : c ∈ found.commonPrefixes) : q.Comes s₀ ⟨kv :: rest, found⟩ := by
  cases h with
  | comes h => exact h
  | ahead hidle _ =>
    rw [hrole] at hidle
    cases hidle
  | beside hrole' hnew _ _ =>
    rw [hrole] at hrole'
    cases hrole'
    exact absurd hknown hnew
  | beyond h =>
    have hpast := h kv mem_cons_self
    rw [hrole] at hpast
    cases hpast

theorem At.comes_of_listed {name : Bytes}
    (hrole : q.role kv = .listed name) : q.Comes s₀ ⟨kv :: rest, found⟩ := by
  cases h with
  | comes h => exact h
  | ahead hidle _ =>
    rw [hrole] at hidle
    cases hidle
  | beside hrole' _ _ _ =>
    rw [hrole] at hrole'
    cases hrole'
  | beyond h =>
    have hpast := h kv mem_cons_self
    rw [hrole] at hpast
    cases hpast

end

theorem of_role_idle (hrole : q.role kv = .idle) :
    (q.pfx.isPrefixOf kv.1 = true ∧ q.rolledTo kv.1 = none ∧ q.fromJson kv.2 = none) ∨
      (¬ q.pfx.isPrefixOf kv.1 = true ∧ ¬ q.pfx < kv.1) := by
  unfold Listing.role at hrole
  split at hrole
  · rename_i hm
    split at hrole
    · cases hrole
    · rename_i hnone
      split at hrole
      · cases hrole
      · rename_i hparse
        exact Or.inl ⟨hm, hnone, hparse⟩
  · rename_i hm
    split at hrole
    · cases hrole
    · rename_i hlt
      exact Or.inr ⟨hm, hlt⟩

theorem of_role_past (hrole : q.role kv = .past) :
    ¬ q.pfx.isPrefixOf kv.1 = true ∧ q.pfx < kv.1 := by
  unfold Listing.role at hrole
  split at hrole
  · split at hrole
    · cases hrole
    · split at hrole <;> cases hrole
  · rename_i hm
    split at hrole
    · rename_i hlt
      exact ⟨hm, hlt⟩
    · cases hrole

theorem of_role_listed {name : Bytes} (hrole : q.role kv = .listed name) :
    q.pfx.isPrefixOf kv.1 = true ∧ q.rolledTo kv.1 = none ∧ q.fromJson kv.2 = some name := by
  unfold Listing.role at hrole
  split at hrole
  · rename_i hm
    split at hrole
    · cases hrole
    · rename_i hnone
      split at hrole
      · rename_i hparse
        cases hrole
        exact ⟨hm, hnone, hparse⟩
      · cases hrole
  · split at hrole <;> cases hrole

theorem of_role_rolled (hrole : q.role kv = .rolled c) :
    q.pfx.isPrefixOf kv.1 = true ∧ q.rolledTo kv.1 = some c := by
  unfold Listing.role at hrole
  split at hrole
  · rename_i hm
    split at hrole
    · rename_i hsome
      cases hrole
      exact ⟨hm, hsome⟩
    · split at hrole <;> cases hrole
  · split at hrole <;> cases hrole

theorem prefix_of_rolled (hrole : q.role kv = .rolled c) : q.pfx <+: kv.1 :=
  isPrefixOf_iff_prefix.mp (of_role_rolled hrole).1

theorem past_of_past (hrole : q.role kv = .past) (hlt : kv.1 < kv'.1) : q.role kv' = .past := by
  obtain ⟨hm, hpast⟩ := of_role_past hrole
  unfold Listing.role
  rw [if_neg, if_pos (hpast.trans hlt)]
  intro hm'
  apply hm
  rw [List.isPrefixOf_iff_prefix] at hm' ⊢
  exact OrderedIndex.prefix_of_between hpast.le hlt.le hm'

/-- **What adds nothing can be left out.** -/
theorem same_of_idle (hs : OrderedIndex.Sorted (xs ++ ys)) (hidle : ∀ x ∈ xs, q.Adds found x = false) :
    (∀ w, q.Answer ⟨ys, found⟩ w → q.Answer ⟨xs ++ ys, found⟩ w) ∧
      ∀ m w, run q.read m ⟨xs ++ ys, found⟩ = some w →
        ∃ m' ≤ m, run q.read m' ⟨ys, found⟩ = some w := by
  induction xs with
  | nil => exact ⟨fun w hw => hw, fun m w hm => ⟨m, Nat.le_refl m, hm⟩⟩
  | cons x xs ih =>
    rw [cons_append] at hs
    obtain ⟨hfirst, hrest⟩ := pairwise_cons.mp hs
    obtain ⟨hback, hforth⟩ := ih hrest fun y hy => hidle y (mem_cons_of_mem _ hy)
    have hx := hidle x mem_cons_self
    -- a key that is passed over
    have hpass : q.read ⟨x :: (xs ++ ys), found⟩ = .next ⟨xs ++ ys, found⟩ →
        (∀ w, q.Answer ⟨ys, found⟩ w → q.Answer ⟨x :: (xs ++ ys), found⟩ w) ∧
          ∀ m w, run q.read m ⟨x :: (xs ++ ys), found⟩ = some w →
            ∃ m' ≤ m, run q.read m' ⟨ys, found⟩ = some w := by
      intro hnext
      refine ⟨fun w hw => (ends_iff_of_next hnext w).mpr (hback w hw), ?_⟩
      intro m w hm
      cases m with
      | zero => cases hm
      | succ m =>
        rw [run, hnext] at hm
        obtain ⟨m', hle, h'⟩ := hforth m w hm
        exact ⟨m', by omega, h'⟩
    rw [cons_append]
    unfold Listing.Adds at hx
    split at hx
    · rename_i hrole
      exact hpass (read_idle hrole)
    · rename_i hrole
      -- the listing ends here, and it ends with what is left as well
      have hdone : q.read ⟨ys, found⟩ = .done (Listing.finished found) := by
        cases ys with
        | nil => rfl
        | cons y ys =>
          exact read_past (past_of_past hrole (hfirst y (mem_append_right _ mem_cons_self)))
      have hdone' : q.read ⟨x :: (xs ++ ys), found⟩ = .done (Listing.finished found) :=
        read_past hrole
      constructor
      · intro w hw
        rw [Listing.Answer, ends_iff_of_done hdone] at hw
        exact (ends_iff_of_done hdone' w).mpr hw
      · intro m w hm
        cases m with
        | zero => cases hm
        | succ m =>
          rw [run, hdone'] at hm
          refine ⟨1, by omega, ?_⟩
          rw [run, hdone]
          exact hm
    · cases hx
    · rename_i hrole
      exact hpass (read_known hrole (by simpa using hx))

theorem read_eq_of_rolled (hrole : q.role kv = .rolled c) (hrole' : q.role kv' = .rolled c)
    (hnew : c ∉ found.commonPrefixes) (rest' : List KeyValue) :
    q.read ⟨kv :: rest, found⟩ = q.read ⟨kv' :: rest', found⟩ := by
  rw [read_new hrole hnew, read_new hrole' hnew]

/-- What is left out behind a key that goes on with 0xff. -/
def Skippable (q : Listing) (found : S3ObjectListResponse) (xs ys : List KeyValue) : Prop :=
  ∀ x, xs.find? (q.Adds found) = some x →
    ∃ c' y, q.role x = .rolled c' ∧ ys.head? = some y ∧ q.role y = .rolled c'

/-- **What is left out does not change the answer.** -/
theorem same_of_skippable (hs : OrderedIndex.Sorted (xs ++ ys)) (h : Skippable q found xs ys) :
    (∀ w, q.Answer ⟨ys, found⟩ w → q.Answer ⟨xs ++ ys, found⟩ w) ∧
      ∀ m w, run q.read m ⟨xs ++ ys, found⟩ = some w →
        ∃ m' ≤ m, run q.read m' ⟨ys, found⟩ = some w := by
  cases hfind : xs.find? (q.Adds found) with
  | none =>
    apply same_of_idle hs
    intro x hx
    exact Bool.eq_false_iff.mpr (List.find?_eq_none.mp hfind x hx)
  | some x =>
    obtain ⟨c', y, hrole, hhead, hrole'⟩ := h x hfind
    obtain ⟨hadds, pre, post, rfl, hpre⟩ := List.find?_eq_some_iff_append.mp hfind
    obtain ⟨ys, rfl⟩ : ∃ ys', ys = y :: ys' := by
      cases ys with
      | nil => cases hhead
      | cons z ys =>
        cases hhead
        exact ⟨ys, rfl⟩
    have hnew : c' ∉ found.commonPrefixes := by
      unfold Listing.Adds at hadds
      rw [hrole] at hadds
      simpa using hadds
    rw [append_assoc, cons_append] at hs ⊢
    have hpre' : ∀ z ∈ pre, q.Adds found z = false := fun z hz => by simpa using hpre z hz
    obtain ⟨hback, hforth⟩ := same_of_idle hs hpre'
    have hread : q.read ⟨x :: (post ++ y :: ys), found⟩ = q.read ⟨y :: ys, found⟩ :=
      read_eq_of_rolled hrole hrole' hnew ys
    constructor
    · intro w hw
      apply hback
      rw [Listing.Answer, ends_iff] at hw ⊢
      rw [hread]
      exact hw
    · intro m w hm
      obtain ⟨m', hle, h'⟩ := hforth m w hm
      refine ⟨m', hle, ?_⟩
      cases m' with
      | zero => cases h'
      | succ m' =>
        rw [run] at h' ⊢
        rw [hread] at h'
        exact h'

theorem comes_of_idle (hs : OrderedIndex.Sorted (xs ++ ys)) (hcomes : q.Comes s₀ ⟨xs ++ ys, found⟩)
    (hidle : ∀ x ∈ xs, q.Adds found x = false) :
    q.Comes s₀ ⟨ys, found⟩ ∨ ∀ y ∈ ys, q.role y = .past := by
  induction xs with
  | nil => exact Or.inl hcomes
  | cons x xs ih =>
    rw [cons_append] at hs hcomes
    obtain ⟨hfirst, hrest⟩ := pairwise_cons.mp hs
    have hx := hidle x mem_cons_self
    have hpass : q.read ⟨x :: (xs ++ ys), found⟩ = .next ⟨xs ++ ys, found⟩ →
        q.Comes s₀ ⟨ys, found⟩ ∨ ∀ y ∈ ys, q.role y = .past := fun hnext =>
      ih hrest (hcomes.step hnext) fun y hy => hidle y (mem_cons_of_mem _ hy)
    unfold Listing.Adds at hx
    split at hx
    · rename_i hrole
      exact hpass (read_idle hrole)
    · rename_i hrole
      exact Or.inr fun y hy => past_of_past hrole (hfirst y (mem_append_right _ hy))
    · cases hx
    · rename_i hrole
      exact hpass (read_known hrole (by simpa using hx))

theorem at_of_skippable (hs : OrderedIndex.Sorted (xs ++ ys)) (hcomes : q.Comes s₀ ⟨xs ++ ys, found⟩)
    (h : Skippable q found xs ys) : At q s₀ ⟨ys, found⟩ := by
  cases hfind : xs.find? (q.Adds found) with
  | none =>
    have hidle : ∀ x ∈ xs, q.Adds found x = false := fun x hx =>
      Bool.eq_false_iff.mpr (List.find?_eq_none.mp hfind x hx)
    rcases comes_of_idle hs hcomes hidle with hc | hpast
    · exact At.comes hc
    · exact At.beyond hpast
  | some x =>
    obtain ⟨c', y, hrole, hhead, hrole'⟩ := h x hfind
    obtain ⟨hadds, pre, post, rfl, hpre⟩ := List.find?_eq_some_iff_append.mp hfind
    have hnew : c' ∉ found.commonPrefixes := by
      unfold Listing.Adds at hadds
      rw [hrole] at hadds
      simpa using hadds
    rw [append_assoc, cons_append] at hs hcomes
    rcases comes_of_idle hs hcomes (fun z hz => by simpa using hpre z hz) with hc | hpast
    · cases ys with
      | nil => cases hhead
      | cons z ys =>
        cases hhead
        exact At.beside hrole' hnew hrole hc
    · have hpast' := hpast x mem_cons_self
      rw [hrole] at hpast'
      cases hpast'

end

end S3GetBucketAction

end CortxS3

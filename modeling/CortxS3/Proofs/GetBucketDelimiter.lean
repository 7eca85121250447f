/-
Listing with a delimiter of several bytes.

A key that contains the delimiter behind the prefix is rolled up.  The source cuts it one byte
behind the place where the delimiter begins (`cut`), and `get_xml` takes that byte off again and
puts the whole delimiter in its place, so what the client sees is cut behind the delimiter
(`whole_eq`).  The common prefixes are the right ones, then, in the order of the shorter cuts.

But the scan goes on behind the shorter cut as well.  After `a//x` with the delimiter `//` it
leaves out all that begins with `a/`, and `a/b` with it.  `scanned` are the keys the scan comes
to, and the listing is what they give (`listObjects_scans`); so it is right exactly when nothing
that is left out would have added anything (`Kept`), and the order is right (`InOrder`).

When the second byte of the delimiter is 0xff, the scan goes back to keys it has already seen.
Nothing is proved about that but when there is nothing to roll up.
-/
import CortxS3.Proofs.GetBucketAction

namespace CortxS3

open Option (map_eq_some_iff map_some mem_some_iff some_inj)
open List hiding after next

open OrderedIndex S3ObjectListResponse

/-! ### Where a string first occurs -/

theorem find_eq_some_iff {pat : Bytes} :
    ∀ {s : Bytes} {pos : Nat}, find pat s = some pos ↔
      pat <+: s.drop pos ∧ pos ≤ s.length ∧ ∀ i < pos, ¬ pat <+: s.drop i := by
  intro s
  induction s with
  | nil =>
    intro pos
    cases pat with
    | nil =>
      constructor
      · intro h
        cases h
        exact ⟨List.nil_prefix, Nat.le_refl _, by simp⟩
      · rintro ⟨-, hle, -⟩
        rw [Nat.le_zero.mp hle]
        rfl
    | cons c pat => simp [find]
  | cons c s ih =>
    intro pos
    unfold find
    by_cases h : pat.isPrefixOf (c :: s) = true
    · rw [if_pos h]
      rw [List.isPrefixOf_iff_prefix] at h
      constructor
      · intro hpos
        cases hpos
        exact ⟨h, Nat.zero_le _, by simp⟩
      · rintro ⟨-, -, hfirst⟩
        have hpos : pos = 0 := by
          by_contra hne
          exact hfirst 0 (Nat.pos_of_ne_zero hne) h
        rw [hpos]
    · rw [if_neg h]
      rw [List.isPrefixOf_iff_prefix] at h
      constructor
      · intro hpos
        obtain ⟨i, hi, rfl⟩ := map_eq_some_iff.mp hpos
        obtain ⟨hpre, hle, hfirst⟩ := ih.mp hi
        refine ⟨hpre, by simpa using hle, ?_⟩
        intro j hj
        cases j with
        | zero => exact h
        | succ j => exact hfirst j (by omega)
      · rintro ⟨hpre, hle, hfirst⟩
        cases pos with
        | zero => exact absurd hpre h
        | succ pos =>
          refine map_eq_some_iff.mpr ⟨pos, ih.mpr ⟨hpre, ?_, ?_⟩, rfl⟩
          · simpa using hle
          · intro j hj
            exact hfirst (j + 1) (by omega)

theorem findFrom_eq_some_iff {pat s : Bytes} {start pos : Nat} :
    findFrom pat s start = some pos ↔
      start ≤ pos ∧ pos ≤ s.length ∧ pat <+: s.drop pos ∧
        ∀ i, start ≤ i → i < pos → ¬ pat <+: s.drop i := by
  unfold findFrom
  constructor
  · intro h
    split at h
    · obtain ⟨i, hi, rfl⟩ := map_eq_some_iff.mp h
      obtain ⟨hpre, hle, hfirst⟩ := find_eq_some_iff.mp hi
      rw [length_drop] at hle
      rw [drop_drop] at hpre
      refine ⟨by omega, by omega, by rwa [Nat.add_comm], ?_⟩
      intro j hstart hj
      have hnot := hfirst (j - start) (by omega)
      rw [drop_drop, show start + (j - start) = j by omega] at hnot
      exact hnot
    · cases h
  · rintro ⟨hstart, hle, hpre, hfirst⟩
    rw [if_pos (by omega)]
    refine map_eq_some_iff.mpr ⟨pos - start, find_eq_some_iff.mpr ⟨?_, ?_, ?_⟩, by omega⟩
    · rw [drop_drop, show start + (pos - start) = pos by omega]
      exact hpre
    · rw [length_drop]
      omega
    · intro i hi
      rw [drop_drop]
      exact hfirst _ (by omega) (by omega)

/-- **What a string begins with decides where it first has a delimiter.** -/
theorem findFrom_of_begins {d k k' : Bytes} {start pos : Nat} (h : findFrom d k start = some pos)
    (hpre : k.take (pos + d.length) <+: k') : findFrom d k' start = some pos := by
  obtain ⟨hstart, hle, hd, hfirst⟩ := findFrom_eq_some_iff.mp h
  have hlen : pos + d.length ≤ k.length := by
    have := hd.length_le
    rw [length_drop] at this
    omega
  have htake : k'.take (pos + d.length) = k.take (pos + d.length) := by
    rw [prefix_iff_eq_take.mp hpre, length_take, Nat.min_eq_left hlen]
  have hlen' : pos + d.length ≤ k'.length := by
    have := hpre.length_le
    rw [length_take] at this
    omega
  -- an occurrence that ends in the common part is in both strings
  have hsame : ∀ i ≤ pos, (d <+: k'.drop i ↔ d <+: k.drop i) := by
    intro i hi
    have heq : (k'.drop i).take d.length = (k.drop i).take d.length := by
      have h1 : ∀ s : Bytes, (s.drop i).take d.length =
          ((s.take (pos + d.length)).drop i).take d.length := by
        intro s
        rw [drop_take, take_take, Nat.min_eq_left (by omega)]
      rw [h1 k', h1 k, htake]
    rw [prefix_iff_eq_take, prefix_iff_eq_take, heq]
  refine findFrom_eq_some_iff.mpr ⟨hstart, by omega, (hsame pos (Nat.le_refl _)).mpr hd, ?_⟩
  intro i hstart' hi hpre'
  exact hfirst i hstart' hi ((hsame i (by omega)).mp hpre')

namespace S3GetBucketAction

/-! ### Keys that are rolled up -/

/-- Where a key with the prefix has the delimiter. -/
def delimiterAt (pfx d key : Bytes) : Option Nat := findFrom d key pfx.length

/-- The common prefix of the source, one byte behind the place where the delimiter begins. -/
def cut (pfx d key : Bytes) : Option Bytes :=
  (delimiterAt pfx d key).map fun pos => key.take (pos + 1)

/-- The common prefix that is cut behind the whole delimiter. -/
def whole (pfx d key : Bytes) : Option Bytes :=
  (delimiterAt pfx d key).map fun pos => key.take (pos + d.length)

/-- The keys to list by themselves. -/
def listedKeys (pfx d : Bytes) (index : List KeyValue) : List Bytes :=
  (keysWithPrefix pfx index).filter fun k => whole pfx d k = none

/-- The common prefixes to list, each once and in order. -/
def rolledPrefixes (pfx d : Bytes) (index : List KeyValue) : List Bytes :=
  ((keysWithPrefix pfx index).filterMap (whole pfx d)).dedup

/-- The listing that a client gets is the one he should get. -/
def Shows (n : Nat) (fromJson : Bytes → Option Bytes) (index : List KeyValue) (pfx d : Bytes)
    (maxKeys : Nat) : Prop :=
  ∃ enough, ∀ fuel ≥ enough, ∃ r,
    listObjects n fromJson (fun _ => nextKeyval index) fuel pfx d [] maxKeys = some r ∧
      r.objectList = listedKeys pfx d index ∧ r.xmlCommonPrefixes d = rolledPrefixes pfx d index

/-- A key behind a rolled-up one that is left out, up to the cut and 0xff, is rolled up too:
with the same prefix, or with that of a key the scan still comes to. -/
def Kept (index : List KeyValue) (pfx d : Bytes) : Prop :=
  ∀ k ∈ keysWithPrefix pfx index, ∀ c ∈ cut pfx d k, ∀ k' ∈ keysWithPrefix pfx index,
    k < k' → k' ≤ c ++ [0xff] → ∃ w ∈ whole pfx d k',
      whole pfx d k = some w ∨ ∃ k₂ ∈ keysWithPrefix pfx index, c ++ [0xff] < k₂ ∧
        whole pfx d k₂ = some w
deriving Decidable

/-- The order of the cuts is that of the common prefixes. -/
def InOrder (index : List KeyValue) (pfx d : Bytes) : Prop :=
  ∀ k ∈ keysWithPrefix pfx index, ∀ k' ∈ keysWithPrefix pfx index, ∀ c ∈ cut pfx d k,
    ∀ c' ∈ cut pfx d k', c < c' → ∀ w ∈ whole pfx d k, ∀ w' ∈ whole pfx d k', w < w'
deriving Decidable

/-- The scan never goes back. -/
def Forward (index : List KeyValue) (pfx d : Bytes) : Prop :=
  d[1]? ≠ some 0xff ∨ ∀ k ∈ keysWithPrefix pfx index, cut pfx d k = none

section

variable {pfx d k k' c w : Bytes}

theorem cut_eq_some (h : cut pfx d k = some c) :
    ∃ pos, delimiterAt pfx d k = some pos ∧ c = k.take (pos + 1) := by
  obtain ⟨pos, hpos, rfl⟩ := map_eq_some_iff.mp h
  exact ⟨pos, hpos, rfl⟩

theorem whole_eq_none : whole pfx d k = none ↔ cut pfx d k = none := by
  simp [whole, cut]

/-- **What `get_xml` makes of a cut.** -/
theorem whole_eq (hd : d ≠ []) (h : cut pfx d k = some c) :
    whole pfx d k = some (c.dropLast ++ d) := by
  obtain ⟨pos, hpos, rfl⟩ := cut_eq_some h
  obtain ⟨-, hle, hpre, -⟩ := findFrom_eq_some_iff.mp hpos
  obtain ⟨t, ht⟩ := hpre
  have hk : k = k.take pos ++ (d ++ t) := by rw [ht, take_append_drop]
  have hlen : (k.take pos).length = pos := by rw [length_take, Nat.min_eq_left hle]
  have hlt : pos + 1 ≤ k.length := by
    have hlength := congrArg List.length hk
    have hpos := length_pos_of_ne_nil hd
    simp only [length_append, hlen] at hlength
    omega
  have hcut : (k.take (pos + 1)).dropLast = k.take pos := by
    rw [dropLast_eq_take, length_take, Nat.min_eq_left hlt, take_take,
      Nat.min_eq_left (by omega)]
    rfl
  have hwhole : k.take (pos + d.length) = k.take pos ++ d := by
    conv => lhs; rw [hk, ← append_assoc]
    rw [take_left']
    rw [length_append, hlen]
  unfold whole
  rw [hpos, map_some, hwhole, hcut]

theorem whole_begins (h : whole pfx d k = some w) : w <+: k := by
  obtain ⟨pos, -, rfl⟩ := map_eq_some_iff.mp h
  exact take_prefix _ _

/-- **The keys of a common prefix are those that begin with it.** -/
theorem whole_of_begins (h : whole pfx d k = some w) (hw : w <+: k') : whole pfx d k' = some w := by
  obtain ⟨pos, hpos, rfl⟩ := map_eq_some_iff.mp h
  have hlen : pos + d.length ≤ k.length := by
    obtain ⟨-, hle, hd, -⟩ := findFrom_eq_some_iff.mp hpos
    have hlength := hd.length_le
    rw [length_drop] at hlength
    omega
  have htake := prefix_iff_eq_take.mp hw
  rw [length_take, Nat.min_eq_left hlen] at htake
  unfold whole delimiterAt
  rw [findFrom_of_begins hpos hw, map_some, ← htake]

theorem cut_eq_of_whole (hd : d ≠ []) (hw : whole pfx d k = some w)
    (hw' : whole pfx d k' = some w) : cut pfx d k' = cut pfx d k := by
  have hlen : 1 ≤ d.length := length_pos_of_ne_nil hd
  obtain ⟨pos, hpos, rfl⟩ := map_eq_some_iff.mp hw
  have hpos' : delimiterAt pfx d k' = some pos := findFrom_of_begins hpos (whole_begins hw')
  have htake : k'.take (pos + d.length) = k.take (pos + d.length) := by
    simpa [whole, hpos'] using hw'
  have hcut : ∀ s : Bytes, s.take (pos + 1) = (s.take (pos + d.length)).take (pos + 1) := by
    intro s
    rw [take_take, Nat.min_eq_left (by omega)]
  unfold cut
  rw [hpos, hpos', map_some, map_some, hcut k', htake, ← hcut k]

/-- **The keys of two common prefixes do not mix.** -/
theorem whole_lt (hlt : k < k') {w' : Bytes} (hw : whole pfx d k = some w)
    (hw' : whole pfx d k' = some w') (hne : w ≠ w') : w < w' := by
  have hle : w ≤ k := le_of_prefix (whole_begins hw)
  by_contra hnot
  -- else the second prefix would begin the first key too
  have hpre : w' <+: w := prefix_of_between (le_of_not_gt hnot)
    (hle.trans hlt.le) (whole_begins hw')
  have hsame := whole_of_begins hw' (hpre.trans (whole_begins hw))
  rw [hw, some_inj] at hsame
  exact hne hsame

theorem whole_of_between {k₁ k₂ : Bytes} (h₁ : whole pfx d k₁ = some w)
    (h₂ : whole pfx d k₂ = some w) (hle : k₁ ≤ k) (hle' : k ≤ k₂) : whole pfx d k = some w :=
  whole_of_begins h₁ (prefix_of_between
    (( le_of_prefix (whole_begins h₁)).trans hle) hle' (whole_begins h₂))

/-- The scan goes on behind a rolled-up key, unless the second byte of the delimiter is 0xff. -/
theorem lt_of_cut (hd : 2 ≤ d.length) (hff : d[1]? ≠ some 0xff) (h : cut pfx d k = some c) :
    k < c ++ [0xff] := by
  have hprefix : c.dropLast ++ d <+: k :=
    whole_begins (whole_eq (ne_nil_of_length_pos (by omega)) h)
  obtain ⟨pos, hpos, rfl⟩ := cut_eq_some h
  obtain ⟨-, hle, ⟨t, ht⟩, -⟩ := findFrom_eq_some_iff.mp hpos
  match d, hd, hff with
  | x :: y :: d, _, hff =>
    have hk : k = k.take pos ++ x :: y :: (d ++ t) := by
      conv => lhs; rw [← take_append_drop pos k, ← ht]
      simp
    have hcut : k.take (pos + 1) = k.take pos ++ [x] := by
      conv => lhs; rw [hk]
      rw [take_append, length_take, Nat.min_eq_left hle]
      simp
    have hy : y < 0xff := by
      have hne : y ≠ 0xff := by simpa using hff
      rw [UInt8.lt_iff_toNat_lt]
      have hlt := y.toNat_lt
      have hnat : y.toNat ≠ 255 := fun h => hne (UInt8.toNat_inj.mp h)
      show y.toNat < 255
      omega
    conv => lhs; rw [hk]
    rw [hcut, append_assoc]
    refine append_lt_append ?_ _
    exact cons_lt_cons_iff.mpr (Or.inr ⟨rfl, cons_lt_cons_iff.mpr (Or.inl hy)⟩)

end

/-! ### The keys the scan comes to -/

/-- Where the scan goes on after a cut. -/
def behind (c : Bytes) (ks : List Bytes) : List Bytes := ks.filter (c ++ [0xff] < ·)

variable {c : Bytes} {ks : List Bytes}

theorem mem_behind {k : Bytes} : k ∈ behind c ks ↔ k ∈ ks ∧ c ++ [0xff] < k := by
  simp [behind]

theorem behind_sublist (c : Bytes) (ks : List Bytes) : (behind c ks).Sublist ks :=
  filter_sublist

/-- The keys the scan comes to. -/
def scanned (pfx d : Bytes) : List Bytes → List Bytes
  | [] => []
  | k :: rest =>
    match cut pfx d k with
    | none => k :: scanned pfx d rest
    | some c => k :: scanned pfx d (behind c rest)
  termination_by ks => ks.length
  decreasing_by
    · simp
    · simp only [length_cons]
      exact Nat.lt_succ_of_le (behind_sublist c rest).length_le

section

variable {pfx d k c : Bytes}

variable {rest : List Bytes}

theorem scanned_cons_listed (h : cut pfx d k = none) :
    scanned pfx d (k :: rest) = k :: scanned pfx d rest := by
  rw [scanned]
  simp [h]

theorem scanned_cons_cut (h : cut pfx d k = some c) :
    scanned pfx d (k :: rest) = k :: scanned pfx d (behind c rest) := by
  rw [scanned]
  simp [h]

theorem scanned_append_listed :
    ∀ {front : List Bytes}, (∀ k ∈ front, cut pfx d k = none) →
      scanned pfx d (front ++ rest) = front ++ scanned pfx d rest := by
  intro front
  induction front with
  | nil =>
    intro _
    rfl
  | cons k front ih =>
    intro h
    rw [cons_append, scanned_cons_listed (h k (by simp)), ih fun x hx => h x (by simp [hx]),
      cons_append]

variable (pfx d) in
theorem scanned_sublist : ∀ ks : List Bytes, (scanned pfx d ks).Sublist ks := by
  intro ks
  induction ks using scanned.induct pfx d with
  | case1 => rw [scanned]
  | case2 k rest hc ih =>
    rw [scanned_cons_listed hc]
    exact ih.cons_cons k
  | case3 k rest c hc ih =>
    rw [scanned_cons_cut hc]
    exact (ih.trans (behind_sublist c rest)).cons_cons k

/-- **The scan leaves out what lies behind a cut**, up to the cut and 0xff. -/
theorem lt_of_scanned {ks : List Bytes} (hs : ks.Pairwise (· < ·)) :
    ∀ k ∈ scanned pfx d ks, ∀ c ∈ cut pfx d k, ∀ k' ∈ scanned pfx d ks, k < k' →
      c ++ [0xff] < k' := by
  induction ks using scanned.induct pfx d with
  | case1 =>
    intro k hk
    rw [scanned] at hk
    cases hk
  | case2 x rest hc ih =>
    obtain ⟨hfirst, hrest⟩ := pairwise_cons.mp hs
    rw [scanned_cons_listed hc]
    intro k hk c hkc k' hk' hlt
    rcases mem_cons.mp hk with hkx | hk₁
    · rw [hkx, hc] at hkc
      cases hkc
    · rcases mem_cons.mp hk' with hkx' | hk₁'
      · rw [hkx'] at hlt
        exact absurd hlt (hfirst k ((scanned_sublist pfx d rest).subset hk₁)).asymm
      · exact ih hrest k hk₁ c hkc k' hk₁' hlt
  | case3 x rest cx hc ih =>
    obtain ⟨hfirst, hrest⟩ := pairwise_cons.mp hs
    rw [scanned_cons_cut hc]
    intro k hk c hkc k' hk' hlt
    have hmem : ∀ y ∈ scanned pfx d (behind cx rest), y ∈ rest ∧ cx ++ [0xff] < y :=
      fun y hy => mem_behind.mp ((scanned_sublist pfx d _).subset hy)
    rcases mem_cons.mp hk with hkx | hk₁
    · rw [hkx, hc, mem_some_iff] at hkc
      rcases mem_cons.mp hk' with hkx' | hk₁'
      · rw [hkx, hkx'] at hlt
        exact absurd hlt (lt_irrefl _)
      · rw [← hkc]
        exact (hmem k' hk₁').2
    · rcases mem_cons.mp hk' with hkx' | hk₁'
      · rw [hkx'] at hlt
        exact absurd hlt (hfirst k (hmem k hk₁).1).asymm
      · exact ih (hrest.sublist (behind_sublist cx rest)) k hk₁ c hkc k' hk₁' hlt

/-- **What the scan does not come to lies behind a cut it comes to.** -/
theorem left_out {ks : List Bytes} (hs : ks.Pairwise (· < ·)) :
    ∀ k' ∈ ks, k' ∉ scanned pfx d ks →
      ∃ k ∈ scanned pfx d ks, ∃ c ∈ cut pfx d k, k < k' ∧ k' ≤ c ++ [0xff] := by
  induction ks using scanned.induct pfx d with
  | case1 =>
    intro k' hk'
    cases hk'
  | case2 x rest hc ih =>
    rw [scanned_cons_listed hc]
    intro k' hk' hnot
    rw [mem_cons, not_or] at hnot
    rcases mem_cons.mp hk' with hkx | hk₁
    · exact absurd hkx hnot.1
    · obtain ⟨k, hk, hcut⟩ := ih (pairwise_cons.mp hs).2 k' hk₁ hnot.2
      exact ⟨k, mem_cons_of_mem _ hk, hcut⟩
  | case3 x rest cx hc ih =>
    obtain ⟨hfirst, hrest⟩ := pairwise_cons.mp hs
    rw [scanned_cons_cut hc]
    intro k' hk' hnot
    rw [mem_cons, not_or] at hnot
    rcases mem_cons.mp hk' with hkx | hk₁
    · exact absurd hkx hnot.1
    · by_cases hlt : cx ++ [0xff] < k'
      · obtain ⟨k, hk, hcut⟩ := ih (hrest.sublist (behind_sublist cx rest)) k'
          (mem_behind.mpr ⟨hk₁, hlt⟩) hnot.2
        exact ⟨k, mem_cons_of_mem _ hk, hcut⟩
      · exact ⟨x, mem_cons_self, cx, hc, hfirst k' hk₁, le_of_not_gt hlt⟩

end

/-! ### One batch -/

section

variable {n : Nat} {fromJson : Bytes → Option Bytes} {a : S3GetBucketAction} {b : Batch}
  {kv : KeyValue} {c : Bytes}

/-- A batch before its first cut. -/
structure Batch.Fresh (b : Batch) : Prop where
  notRolled : b.lastKeyInCommonPrefix = false
  notSkipped : b.skipRemainingCommonPrefixes = false
  notPast : b.skipNoFurtherPrefixMatch = false

theorem filterKey_of_matches (hd : a.requestDelimiter ≠ []) (hkv : Matches a kv) :
    filterKey fromJson a b kv =
      ((delimiterAt a.requestPrefix a.requestDelimiter kv.1).map (rollUp a b kv.1)).getD
        (listKey fromJson b kv.2) := by
  unfold filterKey delimiterAt
  by_cases hp : a.requestPrefix = []
  · have hfind : find a.requestDelimiter kv.1 = findFrom a.requestDelimiter kv.1 0 := by
      simp [findFrom]
    rw [if_neg (by simp [hd]), if_neg (by simp [hp]), if_pos ⟨hp, hd⟩, hp, length_nil, hfind]
    cases findFrom a.requestDelimiter kv.1 0 <;> rfl
  · rw [if_neg (by simp [hp]), if_neg (by simp [hd]), if_neg (by simp [hp]),
      if_pos ((find_eq_zero_iff _ _).mpr hkv)]
    cases findFrom a.requestDelimiter kv.1 a.requestPrefix.length <;> rfl

theorem visit_listed (hd : a.requestDelimiter ≠ []) (hb : b.Fresh) (hkv : Matches a kv)
    (hparse : fromJson kv.2 = some kv.1)
    (hcut : cut a.requestPrefix a.requestDelimiter kv.1 = none) :
    visit fromJson a b kv = countKey a (b.list [kv]) kv.1 := by
  have hnone : delimiterAt a.requestPrefix a.requestDelimiter kv.1 = none := by
    simpa [cut] using hcut
  have hfilter : filterKey fromJson a b kv = .fall (b.list [kv]) := by
    rw [filterKey_of_matches hd hkv, hnone]
    simp [listKey, hparse, Batch.list, addObject]
  simp [visit, checkLastCommonPrefix, hb.notRolled, hfilter]

/-- A batch that ends with a cut. -/
def Batch.rolled (b : Batch) (c : Bytes) : Batch :=
  { b with
    objectList := b.objectList.addCommonPrefix c
    lastKey := c ++ [0xff]
    lastCommonPrefix := c
    lastKeyInCommonPrefix := true
    skipRemainingCommonPrefixes := true }

theorem visit_cut (hd : a.requestDelimiter ≠ []) (hmarker : a.requestMarkerKey = [])
    (hb : b.Fresh) (hkv : Matches a kv)
    (hcut : cut a.requestPrefix a.requestDelimiter kv.1 = some c)
    (hnew : c ∉ b.objectList.commonPrefixes) : visit fromJson a b kv = .leave (b.rolled c) := by
  obtain ⟨pos, hpos, hc⟩ := cut_eq_some hcut
  have hne : c ≠ [] := by
    intro hnil
    obtain ⟨-, hle, hpre, -⟩ := findFrom_eq_some_iff.mp hpos
    have hlen := hpre.length_le
    have hpos' := length_pos_of_ne_nil hd
    have hclen := congrArg List.length hc
    rw [hnil, length_nil, length_take] at hclen
    rw [length_drop] at hlen
    omega
  have hfilter : filterKey fromJson a b kv = .leave (b.rolled c) := by
    rw [filterKey_of_matches hd hkv, hpos, map_some, Option.getD_some]
    simp [rollUp, ← hc, hmarker, hne, hnew, isPrefixInCommonPrefix, Batch.rolled]
  simp [visit, checkLastCommonPrefix, hb.notRolled, hfilter]

theorem visit_past (hd : a.requestDelimiter ≠ []) (hb : b.Fresh) (hle : a.requestPrefix ≤ kv.1)
    (hkv : ¬ Matches a kv) :
    visit fromJson a b kv =
      .leave { b with skipNoFurtherPrefixMatch := true, length := 0 } := by
  have hp : a.requestPrefix ≠ [] := by
    intro hp
    exact hkv (by rw [Matches, hp]; rfl)
  have hlt : a.requestPrefix < kv.1 := by
    refine lt_of_le_of_ne hle ?_
    intro heq
    exact hkv (List.isPrefixOf_iff_prefix.mpr (heq ▸ prefix_refl _))
  have hfind : find a.requestPrefix kv.1 ≠ some 0 := fun h => hkv ((find_eq_zero_iff _ _).mp h)
  simp [visit, checkLastCommonPrefix, hb.notRolled, filterKey, hp, hd, hfind, noPrefixMatch, hlt]

theorem countKey_fresh {key : Bytes} {k : Nat} (hb : b.Fresh) (hk : b.length = k + 1) :
    countKey a b key =
      if k = 0 ∨ b.objectList.resultCount = a.maxKeys then
        .leave { b with lastKey := key, length := k }
      else .skip { b with length := k } := by
  simp [countKey, hb.notRolled, hk]

/-- How the loop over a batch can end, in a listing with a delimiter. -/
inductive Scanned (a : S3GetBucketAction) (b : Batch) (kvps : List KeyValue) : Batch → Prop where
  /-- The batch is read to its end, or the page is full. -/
  | listed (front : List KeyValue) (kv : KeyValue) (rest : List KeyValue)
      (hsplit : kvps = front ++ kv :: rest)
      (hall : ∀ x ∈ front ++ [kv], Matches a x ∧
        cut a.requestPrefix a.requestDelimiter x.1 = none)
      (hend : rest = [] ∨ (b.list (front ++ [kv])).objectList.resultCount = a.maxKeys) :
      Scanned a b kvps { b.list (front ++ [kv]) with lastKey := kv.1, length := rest.length }
  /-- The keys behind the prefix begin. -/
  | past (front : List KeyValue) (kv : KeyValue) (rest : List KeyValue)
      (hsplit : kvps = front ++ kv :: rest)
      (hall : ∀ x ∈ front, Matches a x ∧ cut a.requestPrefix a.requestDelimiter x.1 = none)
      (hkv : ¬ Matches a kv) :
      Scanned a b kvps { b.list front with skipNoFurtherPrefixMatch := true, length := 0 }
  /-- A key is rolled up. -/
  | rolled (front : List KeyValue) (kv : KeyValue) (rest : List KeyValue) (c : Bytes)
      (hsplit : kvps = front ++ kv :: rest)
      (hall : ∀ x ∈ front, Matches a x ∧ cut a.requestPrefix a.requestDelimiter x.1 = none)
      (hkv : Matches a kv) (hcut : cut a.requestPrefix a.requestDelimiter kv.1 = some c) :
      Scanned a b kvps { (b.list front).rolled c with length := rest.length + 1 }

theorem Scanned.cons {b' : Batch} {rest : List KeyValue} (hkv : Matches a kv)
    (hcut : cut a.requestPrefix a.requestDelimiter kv.1 = none) {k : Nat}
    (h : Scanned a { b.list [kv] with length := k } rest b') : Scanned a b (kv :: rest) b' := by
  have hall' : ∀ {xs : List KeyValue}, (∀ x ∈ xs, Matches a x ∧
      cut a.requestPrefix a.requestDelimiter x.1 = none) → ∀ x ∈ kv :: xs, Matches a x ∧
        cut a.requestPrefix a.requestDelimiter x.1 = none := by
    intro xs hall x hx
    rcases mem_cons.mp hx with hx | hx
    · rw [hx]
      exact ⟨hkv, hcut⟩
    · exact hall x hx
  cases h with
  | listed front x tail hsplit hall hend =>
    have hv : Scanned a b (kv :: rest) _ := .listed (kv :: front) x tail
      (by rw [hsplit, cons_append]) (hall' hall) (by simpa [Batch.list] using hend)
    simpa [Batch.list] using hv
  | past front x tail hsplit hall hx =>
    have hv : Scanned a b (kv :: rest) _ := .past (kv :: front) x tail
      (by rw [hsplit, cons_append]) (hall' hall) hx
    simpa [Batch.list] using hv
  | rolled front x tail c hsplit hall hx hc =>
    have hv : Scanned a b (kv :: rest) _ := .rolled (kv :: front) x tail c
      (by rw [hsplit, cons_append]) (hall' hall) hx hc
    simpa [Batch.list, Batch.rolled] using hv

variable (fromJson) in
/-- **The loop over a batch ends in one of three ways.** -/
theorem visitAll_scanned (hd : a.requestDelimiter ≠ []) (hmarker : a.requestMarkerKey = []) :
    ∀ (kvps : List KeyValue) (b : Batch), kvps ≠ [] → b.Fresh → b.length = kvps.length →
      (∀ kv ∈ kvps, Readable fromJson a.requestPrefix kv) →
      (∀ kv ∈ kvps, ∀ c ∈ cut a.requestPrefix a.requestDelimiter kv.1,
        c ∉ b.objectList.commonPrefixes) →
      Scanned a b kvps (visitAll fromJson a b kvps) := by
  intro kvps
  induction kvps with
  | nil => intro b hne; exact absurd rfl hne
  | cons kv rest ih =>
    intro b _ hb hlen hread hnew
    have hr := hread kv (by simp)
    unfold visitAll
    by_cases hkv : Matches a kv
    · cases hcut : cut a.requestPrefix a.requestDelimiter kv.1 with
      | some c =>
        rw [visit_cut hd hmarker hb hkv hcut (hnew kv (by simp) c hcut)]
        have hv : Scanned a b (kv :: rest) _ := .rolled [] kv rest c rfl (by simp) hkv hcut
        rw [Batch.list_nil, show rest.length + 1 = b.length from hlen.symm] at hv
        exact hv
      | none =>
        rw [visit_listed hd hb hkv hr.parses hcut]
        have hfresh : (b.list [kv]).Fresh := ⟨hb.notRolled, hb.notSkipped, hb.notPast⟩
        rw [countKey_fresh hfresh hlen]
        by_cases hend : rest.length = 0 ∨ (b.list [kv]).objectList.resultCount = a.maxKeys
        · rw [if_pos hend]
          have hv : Scanned a b (kv :: rest) _ := .listed [] kv rest rfl
            (by
              intro x hx
              rw [mem_singleton.mp hx]
              exact ⟨hkv, hcut⟩) (by simpa using hend)
          exact hv
        · rw [if_neg hend]
          rw [not_or] at hend
          refine Scanned.cons hkv hcut (k := rest.length)
            (ih { b.list [kv] with length := rest.length }
              (ne_nil_of_length_pos (Nat.pos_of_ne_zero hend.1)) ?_ rfl ?_ ?_)
          · exact ⟨hb.notRolled, hb.notSkipped, hb.notPast⟩
          · exact fun x hx => hread x (by simp [hx])
          · exact fun x hx => hnew x (by simp [hx])
    · rw [visit_past hd hb hr.behind hkv]
      have hv : Scanned a b (kv :: rest) _ := .past [] kv rest rfl (by simp) hkv
      simpa [Batch.list_nil] using hv

end

/-! ### A whole listing -/

variable {r : S3ObjectListResponse}

theorem mem_addCommonPrefix {c' : Bytes} :
    c' ∈ (r.addCommonPrefix c).commonPrefixes ↔ c' = c ∨ c' ∈ r.commonPrefixes := by
  unfold addCommonPrefix
  split
  · next h =>
      constructor
      · exact Or.inr
      · rintro (rfl | h')
        · exact h
        · exact h'
  · have hsplit := takeWhile_append_dropWhile (p := fun x => decide (x < c))
      (l := r.commonPrefixes)
    conv => rhs; rw [← hsplit]
    simp only [mem_append, mem_cons]
    tauto

theorem length_addCommonPrefix (h : c ∉ r.commonPrefixes) :
    (r.addCommonPrefix c).commonPrefixes.length = r.commonPrefixes.length + 1 := by
  have hlen := congrArg List.length (takeWhile_append_dropWhile
    (p := fun x => decide (x < c)) (l := r.commonPrefixes))
  rw [length_append] at hlen
  simp only [addCommonPrefix, if_neg h, length_append, length_cons]
  omega

theorem le_of_mem_dropWhile :
    ∀ {l : List Bytes}, l.Pairwise (· < ·) → ∀ x ∈ l.dropWhile (· < c), c ≤ x := by
  intro l
  induction l with
  | nil =>
    intro _ x hx
    cases hx
  | cons y l ih =>
    intro h x hx
    obtain ⟨hfirst, hrest⟩ := pairwise_cons.mp h
    by_cases hy : y < c
    · rw [dropWhile_cons_of_pos (by simpa using hy)] at hx
      exact ih hrest x hx
    · rw [dropWhile_cons_of_neg (by simpa using hy)] at hx
      rcases mem_cons.mp hx with rfl | hx
      · exact le_of_not_gt hy
      · exact (le_of_not_gt hy).trans (hfirst x hx).le

theorem ascending_addCommonPrefix (h : r.commonPrefixes.Pairwise (· < ·)) :
    (r.addCommonPrefix c).commonPrefixes.Pairwise (· < ·) := by
  unfold addCommonPrefix
  split
  · exact h
  · next hc =>
      have hmem : ∀ x ∈ r.commonPrefixes.dropWhile (· < c), c < x := by
        intro x hx
        refine lt_of_le_of_ne (le_of_mem_dropWhile h x hx) ?_
        rintro rfl
        exact hc ((dropWhile_sublist _).subset hx)
      refine pairwise_append.mpr ⟨h.sublist (takeWhile_sublist _),
        pairwise_cons.mpr ⟨hmem, h.sublist (dropWhile_sublist _)⟩, ?_⟩
      intro x hx y hy
      have hxc : x < c := by simpa using mem_takeWhile_imp hx
      rcases mem_cons.mp hy with rfl | hy
      · exact hxc
      · exact hxc.trans (hmem y hy)

theorem resultCount_le (r : S3ObjectListResponse) :
    r.resultCount ≤ r.objectList.length + r.commonPrefixes.length := by
  unfold resultCount size
    commonPrefixesSize toUInt
  have h₁ := Nat.mod_le r.objectList.length (2 ^ 32)
  have h₂ := Nat.mod_le r.commonPrefixes.length (2 ^ 32)
  exact (Nat.mod_le _ _).trans (Nat.add_le_add h₁ h₂)

/-- A response gives what the scan of `ks` adds to what was there. -/
structure Lists (pfx d : Bytes) (objects prefixes ks : List Bytes) (r : S3ObjectListResponse) :
    Prop where
  objects : r.objectList = objects ++ (scanned pfx d ks).filter fun k => cut pfx d k = none
  ascending : r.commonPrefixes.Pairwise (· < ·)
  prefixes : ∀ c, c ∈ r.commonPrefixes ↔
    c ∈ prefixes ∨ ∃ k ∈ scanned pfx d ks, cut pfx d k = some c

variable {d pfx : Bytes} {objects prefixes : List Bytes}

theorem Lists.nothing (h : scanned pfx d ks = []) (hobjects : r.objectList = objects)
    (hprefixes : r.commonPrefixes = prefixes) (hs : prefixes.Pairwise (· < ·)) :
    Lists pfx d objects prefixes ks r := by
  refine ⟨by rw [h, hobjects]; simp, by rw [hprefixes]; exact hs, ?_⟩
  intro c
  rw [h, hprefixes]
  simp

theorem Lists.listed {front : List Bytes} (hall : ∀ k ∈ front, cut pfx d k = none)
    (h : Lists pfx d (objects ++ front) prefixes ks r) :
    Lists pfx d objects prefixes (front ++ ks) r := by
  have hscan : scanned pfx d (front ++ ks) = front ++ scanned pfx d ks :=
    scanned_append_listed hall
  have hfront : (front.filter fun k => decide (cut pfx d k = none)) = front := by
    rw [filter_eq_self]
    intro k hk
    simpa using hall k hk
  refine ⟨?_, h.ascending, ?_⟩
  · rw [h.objects, hscan, filter_append, hfront, append_assoc]
  · intro c
    rw [h.prefixes, hscan]
    constructor
    · rintro (hc | ⟨k, hk, hc⟩)
      · exact Or.inl hc
      · exact Or.inr ⟨k, mem_append_right _ hk, hc⟩
    · rintro (hc | ⟨k, hk, hc⟩)
      · exact Or.inl hc
      · rcases mem_append.mp hk with hk | hk
        · rw [hall k hk] at hc
          cases hc
        · exact Or.inr ⟨k, hk, hc⟩

theorem Lists.rolled {k : Bytes} {prefixes' : List Bytes} (hcut : cut pfx d k = some c)
    (hadd : ∀ c', c' ∈ prefixes' ↔ c' = c ∨ c' ∈ prefixes)
    (h : Lists pfx d objects prefixes' (behind c ks) r) :
    Lists pfx d objects prefixes (k :: ks) r := by
  have hscan : scanned pfx d (k :: ks) = k :: scanned pfx d (behind c ks) := scanned_cons_cut hcut
  refine ⟨?_, h.ascending, ?_⟩
  · rw [h.objects, hscan, filter_cons_of_neg (by simp [hcut])]
  · intro c'
    rw [h.prefixes, hadd, hscan]
    constructor
    · rintro ((rfl | hc) | ⟨k', hk', hc⟩)
      · exact Or.inr ⟨k, mem_cons_self, hcut⟩
      · exact Or.inl hc
      · exact Or.inr ⟨k', mem_cons_of_mem _ hk', hc⟩
    · rintro (hc | ⟨k', hk', hc⟩)
      · exact Or.inl (Or.inr hc)
      · rcases mem_cons.mp hk' with rfl | hk'
        · rw [hcut, some_inj] at hc
          exact Or.inl (Or.inl hc.symm)
        · exact Or.inr ⟨k', hk', hc⟩

/-! ### One NEXT after another -/

section

variable {n : Nat} {fromJson : Bytes → Option Bytes} {a : S3GetBucketAction}

/-- The action while it waits for a NEXT, in a listing with a delimiter from its beginning. -/
structure Rolling (n : Nat) (a : S3GetBucketAction) : Prop where
  delimiter : 2 ≤ a.requestDelimiter.length
  marker : a.requestMarkerKey = []
  positive : a.maxKeys ≠ 0
  index : a.noIndex = false
  listing : a.stateStartCheckAnyMoreKeys = false
  count : a.maxRecordCount = n
  launched : ¬ (a.requestPrefix ≠ [] ∧ a.requestMarkerKey = [] ∧ a.firstNextKeyvalCall = true)

theorem Rolling.delimiter_ne (h : a.Rolling n) : a.requestDelimiter ≠ [] :=
  ne_nil_of_length_pos (by have := h.delimiter; omega)

theorem Rolling.entered (h : a.Rolling n) (kvps : List KeyValue) : (a.entered kvps).Rolling n :=
  ⟨h.delimiter, h.marker, h.positive, h.index, h.listing, h.count, h.launched⟩

theorem getNextObjects_behind (hpositive : a.maxKeys ≠ 0) (hindex : a.noIndex = false)
    (he2big : a.readerE2big = false)
    (hlaunched : ¬ (a.requestPrefix ≠ [] ∧ a.requestMarkerKey = [] ∧
      a.firstNextKeyvalCall = true)) :
    getNextObjects n a = .launch { a with maxRecordCount := n }
      { key := a.lastKey, count := n, inclusive := false } := by
  unfold getNextObjects
  simp only [he2big, Bool.false_eq_true, if_false]
  rw [if_neg (by simp [hpositive, hindex]), if_neg hlaunched]

theorem getNextObjectsSuccessful_rolling (ha : a.Rolling n) (kvps : List KeyValue) :
    getNextObjectsSuccessful n fromJson a kvps =
      finishBatch n (a.entered kvps) kvps
        (visitAll fromJson (a.entered kvps) ((a.entered kvps).firstBatch kvps) kvps) := by
  simp [getNextObjectsSuccessful, ha.listing, S3GetBucketAction.entered, firstBatch]

/-- The response holds the same objects and prefixes. -/
structure SameLists (r r' : S3ObjectListResponse) : Prop where
  objects : r'.objectList = r.objectList
  prefixes : r'.commonPrefixes = r.commonPrefixes

theorem SameLists.lists {pfx d : Bytes} {objects prefixes ks : List Bytes}
    {r r' : S3ObjectListResponse} (h : SameLists r r') (hl : Lists pfx d objects prefixes ks r) :
    Lists pfx d objects prefixes ks r' :=
  ⟨by rw [h.objects, hl.objects], by rw [h.prefixes]; exact hl.ascending,
    by rw [h.prefixes]; exact hl.prefixes⟩

theorem serve_anyMoreKeys (index : List KeyValue) {fuel k : Nat} (req : NextRequest)
    (ha : a.stateStartCheckAnyMoreKeys = true) :
    ∃ a', serve n fromJson (fun _ => nextKeyval index) (fuel + 1) k (.launch a req) = some a' ∧
      SameLists a.objectList a'.objectList := by
  have hnext : nextKeyval index req = .missing ∨ ∃ kvps, nextKeyval index req = .present kvps := by
    unfold nextKeyval
    split
    · exact Or.inl rfl
    · exact Or.inr ⟨_, rfl⟩
  rcases hnext with hnext | ⟨kvps, hnext⟩
  · refine ⟨{ a with
        readerE2big := false
        stateStartCheckAnyMoreKeys := false
        fetchSuccessful := true
        objectList := { a.objectList with keyCount := a.keyCount } },
      by simp [serve, hnext, onNextKeyval, getNextObjectsFailed], ⟨rfl, rfl⟩⟩
  · simp only [serve, hnext, onNextKeyval, getNextObjectsSuccessful, ha, if_true]
    refine ⟨_, rfl, ?_⟩
    unfold answerAnyMoreKeys
    cases kvps with
    | nil => exact ⟨rfl, rfl⟩
    | cons kv rest =>
      dsimp only
      split <;> exact ⟨rfl, rfl⟩

variable {b : Batch}

theorem finishBatch_full_lists (kvps : List KeyValue)
    (hskip : b.skipRemainingCommonPrefixes = false) (hfull : b.objectList.resultCount = a.maxKeys) :
    ∃ a', finishBatch n a kvps b = .respond a' ∧ SameLists b.objectList a'.objectList := by
  unfold finishBatch
  simp only [hfull, true_or, if_true, true_and, hskip, Bool.false_eq_true, if_false]
  split <;> exact ⟨_, rfl, rfl, rfl⟩

theorem finishBatch_ended (kvps : List KeyValue) (hlength : b.length = 0)
    (hend : b.skipNoFurtherPrefixMatch = true ∨
      b.skipRemainingCommonPrefixes = false ∧ kvps.length < a.maxRecordCount) :
    ∃ a', finishBatch n a kvps b = .respond a' ∧ SameLists b.objectList a'.objectList := by
  unfold finishBatch
  simp only
  rw [if_pos, if_neg (by simp [hlength])]
  · exact ⟨_, rfl, rfl, rfl⟩
  · rcases hend with hpast | ⟨hskip, hshort⟩
    · exact Or.inr (Or.inr hpast)
    · exact Or.inr (Or.inl ⟨by simp [hskip], hshort⟩)

theorem finishBatch_next (ha : a.Rolling n) (he : a.readerE2big = false) (kvps : List KeyValue)
    (hcount : b.objectList.resultCount ≠ a.maxKeys) (hpast : b.skipNoFurtherPrefixMatch = false)
    (hmore : b.skipRemainingCommonPrefixes = true ∨ a.maxRecordCount ≤ kvps.length) :
    ∃ a', finishBatch n a kvps b =
        .launch a' { key := b.lastKey, count := n, inclusive := false } ∧ a'.Rolling n ∧
      a'.requestPrefix = a.requestPrefix ∧ a'.requestDelimiter = a.requestDelimiter ∧
      a'.maxKeys = a.maxKeys ∧ a'.objectList = b.objectList := by
  unfold finishBatch
  simp only [hcount, false_or, hpast, Bool.false_eq_true, or_false]
  rw [if_neg]
  · rw [getNextObjects_behind]
    · refine ⟨_, rfl, ?_, rfl, rfl, rfl, rfl⟩
      exact ⟨ha.delimiter, ha.marker, ha.positive, ha.index, ha.listing, rfl, ha.launched⟩
    · exact ha.positive
    · exact ha.index
    · exact he
    · exact ha.launched
  · rintro ⟨hskip, hshort⟩
    rcases hmore with hskip' | hlong
    · rw [hskip'] at hskip
      cases hskip
    · omega

variable (fromJson) in
/-- A page that a common prefix has filled asks whether there are more keys first. -/
theorem serve_full_rolled (index : List KeyValue) (ha : a.Rolling n) (he : a.readerE2big = false)
    {kvps : List KeyValue} (hskip : b.skipRemainingCommonPrefixes = true) (hlength : b.length ≠ 0)
    (hfull : b.objectList.resultCount = a.maxKeys) (fuel k : Nat) :
    ∃ a', serve n fromJson (fun _ => nextKeyval index) (fuel + 1) k (finishBatch n a kvps b) =
        some a' ∧ SameLists b.objectList a'.objectList := by
  unfold finishBatch
  simp only [hfull, true_or, if_true, true_and]
  rw [if_pos hlength, if_pos hskip, getNextObjects_behind]
  · exact serve_anyMoreKeys index _ rfl
  · exact ha.positive
  · exact ha.index
  · exact he
  · exact ha.launched

end

/-! ### The scan -/

section

variable {n : Nat} {fromJson : Bytes → Option Bytes} {pfx d : Bytes}

theorem keysWithPrefix_append (front rest : List KeyValue) :
    keysWithPrefix pfx (front ++ rest) = keysWithPrefix pfx front ++ keysWithPrefix pfx rest := by
  simp [keysWithPrefix]

theorem keysWithPrefix_of_all {front : List KeyValue}
    (hall : ∀ x ∈ front, pfx.isPrefixOf x.1 = true) :
    keysWithPrefix pfx front = front.map Prod.fst := by
  unfold keysWithPrefix
  rw [filter_eq_self.mpr hall]

theorem keysWithPrefix_past {kv : KeyValue} {rest : List KeyValue}
    (hs : Sorted (kv :: rest)) (hle : pfx ≤ kv.1)
    (hkv : ¬ pfx.isPrefixOf kv.1 = true) : keysWithPrefix pfx (kv :: rest) = [] := by
  unfold keysWithPrefix
  rw [map_eq_nil_iff, filter_eq_nil_iff]
  intro x hx hpx
  rcases mem_cons.mp hx with rfl | hx
  · exact hkv hpx
  · have hlt := (pairwise_cons.mp hs).1 x hx
    exact hkv (List.isPrefixOf_iff_prefix.mpr (prefix_of_between hle hlt.le
      (List.isPrefixOf_iff_prefix.mp hpx)))

variable {index : List KeyValue}

/-- What lies behind a string that is not less than a key lies behind that key. -/
theorem after_of_le {rest : List KeyValue} (front : List KeyValue) {kv : KeyValue}
    (hs : Sorted index) (hsuffix : (front ++ kv :: rest) <:+ index) {c : Bytes}
    (hle : kv.1 ≤ c) : after index c = rest.filter fun x => c < x.1 := by
  rw [← after_of_split front hs hsuffix]
  unfold after
  rw [filter_filter]
  refine filter_congr ?_
  intro x _
  by_cases hc : c < x.1
  · simp [hc, hle.trans_lt hc]
  · simp [hc]

theorem keysWithPrefix_behind (c : Bytes) (rest : List KeyValue) :
    keysWithPrefix pfx (rest.filter fun x => c ++ [0xff] < x.1) =
      behind c (keysWithPrefix pfx rest) := by
  unfold keysWithPrefix behind
  rw [filter_map, filter_filter, filter_filter]
  congr 1
  refine filter_congr ?_
  intro x _
  simp [Bool.and_comm]

/-- The action waits for a NEXT, and `rem` lies before it. -/
structure Scanning (n : Nat) (fromJson : Bytes → Option Bytes) (index : List KeyValue)
    (pfx d : Bytes) (a : S3GetBucketAction) (req : NextRequest) (rem : List KeyValue) : Prop where
  rolling : a.Rolling n
  requestPrefix : a.requestPrefix = pfx
  requestDelimiter : a.requestDelimiter = d
  suffix : rem <:+ index
  next : OrderedIndex.next index req.key req.count req.inclusive = rem.take n
  readable : ∀ kv ∈ rem, Readable fromJson pfx kv
  /-- No key that is left has a common prefix of those that are listed. -/
  new : ∀ kv ∈ rem, ∀ c ∈ cut pfx d kv.1, c ∉ a.objectList.commonPrefixes
  ascending : a.objectList.commonPrefixes.Pairwise (· < ·)
  room : a.objectList.objectList.length + a.objectList.commonPrefixes.length +
    (scanned pfx d (keysWithPrefix pfx rem)).length ≤ a.maxKeys

/-- What is answered, or what lies before the next NEXT. -/
inductive Continues (n : Nat) (fromJson : Bytes → Option Bytes) (index : List KeyValue)
    (pfx d : Bytes) (a : S3GetBucketAction) (rem : List KeyValue) (fuel k : Nat) :
    Outcome → Prop where
  | answers (o : Outcome) (a' : S3GetBucketAction)
      (hserve : serve n fromJson (fun _ => nextKeyval index) fuel k o = some a')
      (hlists : Lists pfx d a.objectList.objectList a.objectList.commonPrefixes
        (keysWithPrefix pfx rem) a'.objectList) : Continues n fromJson index pfx d a rem fuel k o
  | launches (a' : S3GetBucketAction) (req : NextRequest) (rem' : List KeyValue)
      (hlength : rem'.length < rem.length)
      (hscanning : Scanning n fromJson index pfx d a' req rem')
      (hlists : ∀ r, Lists pfx d a'.objectList.objectList a'.objectList.commonPrefixes
        (keysWithPrefix pfx rem') r → Lists pfx d a.objectList.objectList
          a.objectList.commonPrefixes (keysWithPrefix pfx rem) r) :
      Continues n fromJson index pfx d a rem fuel k (.launch a' req)

section

variable {index kvps later front rest : List KeyValue} {kv : KeyValue} {a : S3GetBucketAction}
  {req : NextRequest} {rem : List KeyValue} {fuel k : Nat}

/-- A batch of keys that are listed by themselves. -/
theorem listed_continues (hs : Sorted index)
    (h : Scanning n fromJson index pfx d a req rem) (hsplit : rem = kvps ++ later)
    (hw : Whole n kvps later) (hks : kvps = front ++ kv :: rest)
    (hall : ∀ x ∈ front ++ [kv], pfx.isPrefixOf x.1 = true ∧ cut pfx d x.1 = none)
    (hend : rest = [] ∨ (((a.entered kvps).firstBatch kvps).list
      (front ++ [kv])).objectList.resultCount = a.maxKeys) :
    Continues n fromJson index pfx d a rem fuel k (finishBatch n (a.entered kvps) kvps
      { ((a.entered kvps).firstBatch kvps).list (front ++ [kv]) with
        lastKey := kv.1, length := rest.length }) := by
  have hrem : rem = (front ++ [kv]) ++ (rest ++ later) := by
    rw [hsplit, hks]
    simp
  have hkeys : keysWithPrefix pfx rem =
      (front ++ [kv]).map Prod.fst ++ keysWithPrefix pfx (rest ++ later) := by
    rw [hrem, keysWithPrefix_append, keysWithPrefix_of_all fun x hx => (hall x hx).1]
  have hlisted : ∀ k ∈ (front ++ [kv]).map Prod.fst, cut pfx d k = none := by
    intro k hk
    obtain ⟨x, hx, rfl⟩ := mem_map.mp hk
    exact (hall x hx).2
  have hroom := h.room
  rw [hkeys, scanned_append_listed hlisted, length_append, length_map] at hroom
  obtain ⟨b, hb⟩ : ∃ b, b = { ((a.entered kvps).firstBatch kvps).list (front ++ [kv]) with
    lastKey := kv.1, length := rest.length } := ⟨_, rfl⟩
  have hobjects : b.objectList.objectList =
      a.objectList.objectList ++ (front ++ [kv]).map Prod.fst := by rw [hb]; rfl
  have hprefixes : b.objectList.commonPrefixes = a.objectList.commonPrefixes := by rw [hb]; rfl
  have hskip : b.skipRemainingCommonPrefixes = false := by rw [hb]; rfl
  rw [← hb]
  by_cases hfull : b.objectList.resultCount = a.maxKeys
  · obtain ⟨a', hfin, hsame⟩ := finishBatch_full_lists (n := n) (a := a.entered kvps)
      kvps hskip hfull
    rw [hfin]
    refine .answers _ a' (by simp [serve]) ?_
    rw [hkeys]
    refine .listed hlisted (hsame.lists (.nothing ?_ hobjects hprefixes h.ascending))
    have hle := resultCount_le b.objectList
    rw [hfull, hobjects, hprefixes, length_append, length_map] at hle
    exact length_eq_zero_iff.mp (by omega)
  · have hrest : rest = [] := by
      rcases hend with hrest | hfull'
      · exact hrest
      · exact absurd (by rw [hb]; exact hfull') hfull
    subst hrest
    by_cases hshort : kvps.length < n
    · obtain ⟨a', hfin, hsame⟩ := finishBatch_ended (n := n) (a := a.entered kvps)
        kvps (b := b) (by rw [hb]; rfl)
        (Or.inr ⟨hskip, by rw [(h.rolling.entered kvps).count]; exact hshort⟩)
      rw [hfin]
      refine .answers _ a' (by simp [serve]) ?_
      rw [hkeys, hw.short hshort]
      refine .listed hlisted (hsame.lists (.nothing ?_ hobjects hprefixes h.ascending))
      simp [keysWithPrefix, scanned]
    · obtain ⟨a', hfin, ha', hp', hd', hm', hlist'⟩ := finishBatch_next (n := n)
        (a := a.entered kvps) (b := b) (h.rolling.entered kvps) rfl kvps hfull
        (by rw [hb]; rfl)
        (Or.inr (by rw [(h.rolling.entered kvps).count]; exact Nat.le_of_not_lt hshort))
      have hlater : later <:+ index := by
        refine List.IsSuffix.trans ?_ h.suffix
        rw [hsplit]
        exact suffix_append _ _
      rw [hfin]
      refine .launches a' _ later ?_ ?_ ?_
      · rw [hrem]
        simp
        omega
      · refine ⟨ha', hp'.trans h.requestPrefix, hd'.trans h.requestDelimiter, hlater, ?_, ?_, ?_,
          ?_, ?_⟩
        · simp only [next, Bool.false_eq_true, if_false]
          rw [show b.lastKey = kv.1 by rw [hb], after_of_split front hs]
          rw [hrem] at h
          simpa using h.suffix
        · exact fun x hx => h.readable x (by rw [hsplit]; exact mem_append_right _ hx)
        · intro x hx
          rw [hlist', hprefixes]
          exact h.new x (by rw [hsplit]; exact mem_append_right _ hx)
        · rw [hlist', hprefixes]
          exact h.ascending
        · rw [hlist', hobjects, hprefixes, length_append, length_map, hm']
          rw [nil_append] at hroom
          refine (le_of_eq ?_).trans hroom
          omega
      · intro r hr
        rw [hkeys, nil_append]
        rw [hlist', hobjects, hprefixes] at hr
        exact .listed hlisted hr

/-- A batch that runs behind the keys with the prefix. -/
theorem past_continues (hs : Sorted index)
    (h : Scanning n fromJson index pfx d a req rem) (hsplit : rem = kvps ++ later)
    (hks : kvps = front ++ kv :: rest)
    (hall : ∀ x ∈ front, pfx.isPrefixOf x.1 = true ∧ cut pfx d x.1 = none)
    (hkv : ¬ pfx.isPrefixOf kv.1 = true) :
    Continues n fromJson index pfx d a rem fuel k (finishBatch n (a.entered kvps) kvps
      { ((a.entered kvps).firstBatch kvps).list front with
        skipNoFurtherPrefixMatch := true, length := 0 }) := by
  have hrem : rem = front ++ kv :: (rest ++ later) := by
    rw [hsplit, hks]
    simp
  have hkvmem : kv ∈ rem := by
    rw [hrem]
    simp
  have hsorted : Sorted (kv :: (rest ++ later)) := by
    refine hs.sublist (List.Sublist.trans ?_ h.suffix.sublist)
    rw [hrem]
    exact sublist_append_right _ _
  have hkeys : keysWithPrefix pfx rem = front.map Prod.fst ++ [] := by
    rw [hrem, keysWithPrefix_append, keysWithPrefix_of_all fun x hx => (hall x hx).1,
      keysWithPrefix_past hsorted (h.readable kv hkvmem).behind hkv]
  have hlisted : ∀ k ∈ front.map Prod.fst, cut pfx d k = none := by
    intro k hk
    obtain ⟨x, hx, rfl⟩ := mem_map.mp hk
    exact (hall x hx).2
  obtain ⟨a', hfin, hsame⟩ := finishBatch_ended (n := n) (a := a.entered kvps) kvps
    (b := { ((a.entered kvps).firstBatch kvps).list front with
      skipNoFurtherPrefixMatch := true, length := 0 }) rfl (Or.inl rfl)
  rw [hfin]
  refine .answers _ a' (by simp [serve]) ?_
  rw [hkeys]
  exact .listed hlisted (hsame.lists (.nothing (by rw [scanned]) rfl rfl h.ascending))

/-- A batch that ends with a key that is rolled up. -/
theorem rolled_continues (hs : Sorted index)
    (hff : d[1]? ≠ some 0xff)
    (h : Scanning n fromJson index pfx d a req rem) (hsplit : rem = kvps ++ later)
    (hks : kvps = front ++ kv :: rest)
    (hall : ∀ x ∈ front, pfx.isPrefixOf x.1 = true ∧ cut pfx d x.1 = none)
    (hkv : pfx.isPrefixOf kv.1 = true) {c : Bytes} (hcut : cut pfx d kv.1 = some c) :
    Continues n fromJson index pfx d a rem (fuel + 1) k (finishBatch n (a.entered kvps) kvps
      { (((a.entered kvps).firstBatch kvps).list front).rolled c with
        length := rest.length + 1 }) := by
  have hlength : 2 ≤ d.length := h.requestDelimiter ▸ h.rolling.delimiter
  have hrem : rem = front ++ kv :: (rest ++ later) := by
    rw [hsplit, hks]
    simp
  have hkvmem : kv ∈ rem := by
    rw [hrem]
    simp
  have hkeys : keysWithPrefix pfx rem =
      front.map Prod.fst ++ kv.1 :: keysWithPrefix pfx (rest ++ later) := by
    rw [hrem, keysWithPrefix_append, keysWithPrefix_of_all fun x hx => (hall x hx).1]
    congr 1
    simp [keysWithPrefix, hkv]
  have hlisted : ∀ k ∈ front.map Prod.fst, cut pfx d k = none := by
    intro k hk
    obtain ⟨x, hx, rfl⟩ := mem_map.mp hk
    exact (hall x hx).2
  have hroom := h.room
  rw [hkeys, scanned_append_listed hlisted, scanned_cons_cut hcut, length_append,
    length_map, length_cons] at hroom
  obtain ⟨b, hb⟩ : ∃ b, b = { (((a.entered kvps).firstBatch kvps).list front).rolled c with
    length := rest.length + 1 } := ⟨_, rfl⟩
  obtain ⟨listed, hlistedEq⟩ : ∃ listed,
    listed = (((a.entered kvps).firstBatch kvps).list front).objectList := ⟨_, rfl⟩
  have hlistedPrefixes : listed.commonPrefixes = a.objectList.commonPrefixes := by
    rw [hlistedEq]; rfl
  have hadd : b.objectList = listed.addCommonPrefix c := by rw [hb, hlistedEq]; rfl
  have hnew : c ∉ listed.commonPrefixes := by
    rw [hlistedPrefixes]
    exact h.new kv hkvmem c hcut
  have hobjects : b.objectList.objectList = a.objectList.objectList ++ front.map Prod.fst := by
    rw [hadd]
    unfold addCommonPrefix
    rw [if_neg hnew, hlistedEq]
    rfl
  have hprefixes : ∀ c', c' ∈ b.objectList.commonPrefixes ↔
      c' = c ∨ c' ∈ a.objectList.commonPrefixes := by
    intro c'
    rw [hadd, mem_addCommonPrefix, hlistedPrefixes]
  have hcount : b.objectList.commonPrefixes.length = a.objectList.commonPrefixes.length + 1 := by
    rw [hadd, length_addCommonPrefix hnew, hlistedPrefixes]
  have hascending : b.objectList.commonPrefixes.Pairwise (· < ·) := by
    rw [hadd]
    refine ascending_addCommonPrefix ?_
    rw [hlistedPrefixes]
    exact h.ascending
  have hskip : b.skipRemainingCommonPrefixes = true := by rw [hb]; rfl
  rw [← hb]
  by_cases hfull : b.objectList.resultCount = a.maxKeys
  · obtain ⟨a', hserve, hsame⟩ := serve_full_rolled fromJson index
      (h.rolling.entered kvps) rfl hskip (by rw [hb]; simp) hfull fuel k
    refine .answers _ a' hserve ?_
    rw [hkeys]
    refine .listed hlisted (.rolled hcut hprefixes
      (hsame.lists (.nothing ?_ hobjects rfl hascending)))
    have hle := resultCount_le b.objectList
    rw [hfull, hobjects, hcount, length_append, length_map] at hle
    exact length_eq_zero_iff.mp (by omega)
  · obtain ⟨a', hfin, ha', hp', hd', hm', hlist'⟩ := finishBatch_next (n := n)
      (a := a.entered kvps) (b := b) (h.rolling.entered kvps) rfl kvps hfull
      (by rw [hb]; rfl) (Or.inl hskip)
    have hkvlt : kv.1 < c ++ [0xff] := lt_of_cut hlength hff hcut
    have hafter : after index (c ++ [0xff]) =
        (rest ++ later).filter fun x => c ++ [0xff] < x.1 :=
      after_of_le front hs (hrem ▸ h.suffix) hkvlt.le
    have hmem : ∀ x ∈ after index (c ++ [0xff]), x ∈ rem ∧ c ++ [0xff] < x.1 := by
      intro x hx
      rw [hafter, mem_filter] at hx
      refine ⟨?_, by simpa using hx.2⟩
      rw [hrem]
      exact mem_append_right _ (mem_cons_of_mem _ hx.1)
    have hbehind : keysWithPrefix pfx (after index (c ++ [0xff])) =
        behind c (keysWithPrefix pfx (rest ++ later)) := by
      rw [hafter, keysWithPrefix_behind]
    rw [hfin]
    refine .launches a' _ (after index (c ++ [0xff])) ?_ ?_ ?_
    · have hle := length_filter_le (fun x : KeyValue => decide (c ++ [0xff] < x.1))
        (rest ++ later)
      rw [hafter, hrem, length_append, length_cons]
      omega
    · refine ⟨ha', hp'.trans h.requestPrefix, hd'.trans h.requestDelimiter,
        after_suffix hs _, ?_, ?_, ?_, ?_, ?_⟩
      · simp only [next, Bool.false_eq_true, if_false]
        rw [hb]
        rfl
      · exact fun x hx => h.readable x (hmem x hx).1
      · intro x hx c' hc' hmem'
        rw [hlist', hprefixes] at hmem'
        rcases hmem' with rfl | hold
        · exact absurd (hmem x hx).2 (lt_of_cut hlength hff hc').asymm
        · exact h.new x (hmem x hx).1 c' hc' hold
      · rw [hlist']
        exact hascending
      · rw [hlist', hobjects, hcount, hbehind, length_append, length_map, hm']
        refine (le_of_eq ?_).trans hroom
        omega
    · intro r hr
      rw [hkeys]
      rw [hlist', hobjects, hbehind] at hr
      exact .listed hlisted (.rolled hcut hprefixes hr)

end

/-- **A listing gives what the scan comes to.** -/
theorem serve_scans (hs : Sorted index) (hn : 0 < n) (hsafe : Forward index pfx d) :
    ∀ (fuel : Nat) (a : S3GetBucketAction) (req : NextRequest) (rem : List KeyValue) (k : Nat),
      rem.length + 1 < fuel → Scanning n fromJson index pfx d a req rem →
      ∃ a', serve n fromJson (fun _ => nextKeyval index) fuel k (.launch a req) = some a' ∧
        Lists pfx d a.objectList.objectList a.objectList.commonPrefixes
          (keysWithPrefix pfx rem) a'.objectList := by
  intro fuel
  induction fuel with
  | zero => intro a req rem k hfuel; omega
  | succ fuel ih =>
    intro a req rem k hfuel h
    by_cases hrem : rem = []
    · subst hrem
      have hmissing := nextKeyval_missing (h.next.trans take_nil)
      refine ⟨{ a with
          readerE2big := false
          stateStartCheckAnyMoreKeys := false
          fetchSuccessful := true
          objectList := { a.objectList with keyCount := a.keyCount } },
        by simp [serve, hmissing, onNextKeyval, getNextObjectsFailed], ?_⟩
      exact .nothing (by simp [keysWithPrefix, scanned]) rfl rfl h.ascending
    obtain ⟨kvps, later, hsplit, hw, hne, hpresent⟩ := nextKeyval_batch hn h.next hrem
    have hmem : ∀ kv ∈ kvps, kv ∈ rem := fun kv hkv => hsplit ▸ mem_append_left _ hkv
    have hmatches : ∀ {x : KeyValue}, Matches (a.entered kvps) x ↔ pfx.isPrefixOf x.1 = true := by
      intro x
      rw [← h.requestPrefix]
      rfl
    have hcuts : ∀ x : Bytes, cut (a.entered kvps).requestPrefix
        (a.entered kvps).requestDelimiter x = cut pfx d x := by
      intro x
      rw [← h.requestPrefix, ← h.requestDelimiter]
      rfl
    have hvisited := visitAll_scanned fromJson
      (h.rolling.entered kvps).delimiter_ne (h.rolling.entered kvps).marker kvps
      ((a.entered kvps).firstBatch kvps) hne ⟨rfl, rfl, rfl⟩ rfl
      (fun kv hkv => h.requestPrefix.symm ▸ h.readable kv (hmem kv hkv))
      (fun kv hkv c hc => h.new kv (hmem kv hkv) c (by rw [← hcuts]; exact hc))
    obtain ⟨b, hb⟩ : ∃ b, b = visitAll fromJson (a.entered kvps)
      ((a.entered kvps).firstBatch kvps) kvps := ⟨_, rfl⟩
    rw [← hb] at hvisited
    obtain ⟨fuel', hfuel'⟩ : ∃ fuel', fuel = fuel' + 1 := ⟨fuel - 1, by omega⟩
    have hfront : ∀ {xs : List KeyValue}, (∀ x ∈ xs, Matches (a.entered kvps) x ∧
        cut (a.entered kvps).requestPrefix (a.entered kvps).requestDelimiter x.1 = none) →
          ∀ x ∈ xs, pfx.isPrefixOf x.1 = true ∧ cut pfx d x.1 = none :=
      fun hall x hx => ⟨hmatches.mp (hall x hx).1, hcuts x.1 ▸ (hall x hx).2⟩
    have hcontinues : Continues n fromJson index pfx d a rem fuel (k + 1)
        (finishBatch n (a.entered kvps) kvps b) := by
      rw [hfuel']
      cases hvisited with
      | listed front kv rest hks hall hend =>
        exact listed_continues hs h hsplit hw hks (hfront hall) hend
      | past front kv rest hks hall hkv =>
        exact past_continues hs h hsplit hks (hfront hall) fun hx => hkv (hmatches.mpr hx)
      | rolled front kv rest c hks hall hkv hcut =>
        rw [hcuts] at hcut
        have hkvmem : kv ∈ index := h.suffix.subset (hmem kv (by rw [hks]; simp))
        have hff : d[1]? ≠ some 0xff := by
          refine hsafe.resolve_right fun hnone => ?_
          have hcut' := hnone kv.1 (mem_map_of_mem
            (mem_filter.mpr ⟨hkvmem, hmatches.mp hkv⟩))
          rw [hcut] at hcut'
          cases hcut'
        exact rolled_continues hs hff h hsplit hks (hfront hall) (hmatches.mp hkv) hcut
    simp only [serve, hpresent, onNextKeyval]
    rw [getNextObjectsSuccessful_rolling h.rolling, ← hb]
    generalize finishBatch n (a.entered kvps) kvps b = o at hcontinues
    cases hcontinues with
    | answers _ a' hserve hlists => exact ⟨a', hserve, hlists⟩
    | launches a'' req' rem' hlength hscanning hlists =>
      obtain ⟨a', hserve, hl⟩ := ih a'' req' rem' (k + 1) (by omega) hscanning
      exact ⟨a', hserve, hlists _ hl⟩

theorem keysWithPrefix_start (hnamed : ∀ kv ∈ index, kv.1 ≠ []) :
    keysWithPrefix pfx (start index pfx []) = keysWithPrefix pfx index := by
  unfold start
  by_cases hp : pfx = []
  · rw [if_neg (by simp [hp]), after_nil_eq_self hnamed]
  · rw [if_pos ⟨hp, rfl⟩]
    unfold keysWithPrefix atOrAfter
    rw [filter_filter]
    congr 1
    refine filter_congr ?_
    intro x _
    by_cases hx : pfx.isPrefixOf x.1 = true
    · simp [hx, le_of_prefix (List.isPrefixOf_iff_prefix.mp hx)]
    · simp [hx]

/-- **A request without a marker is answered with what the scan comes to.** -/
theorem listObjects_scans (hs : Sorted index) (hn : 0 < n)
    (hnamed : ∀ kv ∈ index, kv.1 ≠ []) (hparse : ∀ kv ∈ index, fromJson kv.2 = some kv.1)
    (hd : 2 ≤ d.length) (hsafe : Forward index pfx d) {maxKeys : Nat}
    (hroom : (scanned pfx d (keysWithPrefix pfx index)).length ≤ maxKeys) (fuel : Nat)
    (hfuel : index.length + 1 < fuel) :
    ∃ r, listObjects n fromJson (fun _ => nextKeyval index) fuel pfx d [] maxKeys = some r ∧
      Lists pfx d [] [] (keysWithPrefix pfx index) r := by
  by_cases hm : maxKeys = 0
  · have hnothing : scanned pfx d (keysWithPrefix pfx index) = [] := by
      rw [hm] at hroom
      exact length_eq_zero_iff.mp (Nat.le_zero.mp hroom)
    refine ⟨{}, ?_, .nothing hnothing rfl rfl List.Pairwise.nil⟩
    simp [listObjects, getNextObjects, validateRequest, hm, serve]
  have hsuffix := start_suffix hs pfx []
  obtain ⟨a, req, hlaunch, ha, hp, hd', hk, hempty, hprefixes, hnext⟩ :
      ∃ a req, getNextObjects n (validateRequest pfx d [] maxKeys) = .launch a req ∧
        a.Rolling n ∧ a.requestPrefix = pfx ∧ a.requestDelimiter = d ∧ a.maxKeys = maxKeys ∧
        a.objectList.objectList = [] ∧ a.objectList.commonPrefixes = [] ∧
        next index req.key req.count req.inclusive = (start index pfx []).take n := by
    unfold getNextObjects
    by_cases hp : pfx = []
    · refine ⟨{ validateRequest pfx d [] maxKeys with maxRecordCount := n },
        { key := [], count := n, inclusive := false }, by simp [validateRequest, hm, hp],
        ⟨hd, rfl, hm, rfl, rfl, rfl, fun h => h.1 hp⟩, rfl, rfl, rfl, rfl, rfl, ?_⟩
      simp [next, start, hp]
    · refine ⟨{ validateRequest pfx d [] maxKeys with
          maxRecordCount := n, firstNextKeyvalCall := false, lastKey := pfx },
        { key := pfx, count := n, inclusive := true }, by simp [validateRequest, hm, hp],
        ⟨hd, rfl, hm, rfl, rfl, rfl, by simp⟩, rfl, rfl, rfl, rfl, rfl, ?_⟩
      simp [next, start, hp]
  have hscanning : Scanning n fromJson index pfx d a req (start index pfx []) := by
    refine ⟨ha, hp, hd', hsuffix, hnext, ?_, ?_, ?_, ?_⟩
    · exact fun kv hkv => ⟨start_behind (Or.inl rfl) kv hkv, hparse kv (hsuffix.subset hkv)⟩
    · intro kv _ c _
      rw [hprefixes]
      exact not_mem_nil
    · rw [hprefixes]
      exact List.Pairwise.nil
    · rw [hempty, hprefixes, hk, keysWithPrefix_start hnamed]
      simpa using hroom
  obtain ⟨a', hserve, hlists⟩ := serve_scans hs hn hsafe fuel a req (start index pfx []) 0
    (by have := hsuffix.length_le; omega) hscanning
  rw [hempty, hprefixes, keysWithPrefix_start hnamed] at hlists
  refine ⟨a'.objectList, ?_, hlists⟩
  unfold listObjects
  rw [hlaunch, hserve]
  rfl

end

/-! ### When the listing is right -/

section

variable {n : Nat} {fromJson : Bytes → Option Bytes} {pfx d k k' c w : Bytes}
  {index : List KeyValue} {r : S3ObjectListResponse}

theorem eq_of_ascending {l l' : List Bytes} (h : l.Pairwise (· < ·)) (h' : l'.Pairwise (· < ·))
    (hmem : ∀ x, x ∈ l ↔ x ∈ l') : l = l' := by
  have hnodup : ∀ {l : List Bytes}, l.Pairwise (· < ·) → l.Nodup :=
    fun h => h.imp fun hlt => hlt.ne
  have hperm : l.Perm l' := (perm_ext_iff_of_nodup (hnodup h) (hnodup h')).mpr hmem
  refine List.Perm.eq_of_pairwise ?_ h h' hperm
  intro x y _ _ hxy hyx
  exact absurd hyx hxy.asymm

theorem lt_of_ascending {f : Bytes → Bytes} :
    ∀ {l : List Bytes}, l.Pairwise (· < ·) → (l.Pairwise fun x y => f x < f y) →
      ∀ x ∈ l, ∀ y ∈ l, x < y → f x < f y := by
  intro l
  induction l with
  | nil =>
    intro _ _ x hx
    cases hx
  | cons z l ih =>
    intro h hf x hx y hy hlt
    obtain ⟨hfirst, hrest⟩ := pairwise_cons.mp h
    obtain ⟨hffirst, hfrest⟩ := pairwise_cons.mp hf
    rcases mem_cons.mp hx with hxz | hx'
    · rcases mem_cons.mp hy with hyz | hy'
      · exact absurd hlt (by rw [hxz, hyz]; exact lt_irrefl z)
      · rw [hxz]
        exact hffirst y hy'
    · rcases mem_cons.mp hy with hyz | hy'
      · exact absurd hlt (by rw [hyz]; exact (hfirst x hx').asymm)
      · exact ih hrest hfrest x hx' y hy' hlt

variable (pfx) in
theorem ascending_keysWithPrefix (hs : Sorted index) :
    (keysWithPrefix pfx index).Pairwise (· < ·) :=
  pairwise_map.mpr (hs.sublist filter_sublist)

theorem mem_rolledPrefixes :
    w ∈ rolledPrefixes pfx d index ↔ ∃ k ∈ keysWithPrefix pfx index, whole pfx d k = some w := by
  rw [rolledPrefixes, mem_dedup, mem_filterMap]

theorem mem_listedKeys :
    k ∈ listedKeys pfx d index ↔ k ∈ keysWithPrefix pfx index ∧ whole pfx d k = none := by
  simp [listedKeys]

theorem ascending_rolledPrefixes (hs : Sorted index) :
    (rolledPrefixes pfx d index).Pairwise (· < ·) := by
  have hle : ((keysWithPrefix pfx index).filterMap (whole pfx d)).Pairwise (· ≤ ·) := by
    refine pairwise_filterMap.mpr ((ascending_keysWithPrefix pfx hs).imp ?_)
    intro k k' hlt w hw w' hw'
    by_cases hne : w = w'
    · exact hne.le
    · exact (whole_lt hlt hw hw' hne).le
  refine ((hle.sublist (dedup_sublist _)).and (nodup_dedup _)).imp ?_
  intro w w' h
  exact lt_of_le_of_ne h.1 h.2

theorem nodup_scanned_whole (hs : Sorted index) (hd : 2 ≤ d.length)
    (hforward : Forward index pfx d) :
    ((scanned pfx d (keysWithPrefix pfx index)).filterMap (whole pfx d)).Nodup := by
  have hsub := scanned_sublist pfx d (keysWithPrefix pfx index)
  have hsorted := ascending_keysWithPrefix pfx hs
  refine pairwise_filterMap.mpr ((hsorted.sublist hsub).imp_of_mem ?_)
  rintro k k' hk hk' hlt w hw w' hw' rfl
  obtain ⟨c, hc⟩ : ∃ c, cut pfx d k = some c := by
    rw [← Option.ne_none_iff_exists', Ne, ← whole_eq_none, hw]
    simp
  have hne : d ≠ [] := ne_nil_of_length_pos (by omega)
  have hc' : cut pfx d k' = some c := (cut_eq_of_whole hne hw hw').trans hc
  have hff : d[1]? ≠ some 0xff := by
    refine hforward.resolve_right fun hnone => ?_
    rw [hnone k (hsub.subset hk)] at hc
    cases hc
  exact absurd (lt_of_scanned hsorted k hk c hc k' hk' hlt) (lt_of_cut hd hff hc').asymm

theorem length_scanned_le (hs : Sorted index) (hd : 2 ≤ d.length) (hforward : Forward index pfx d) :
    (scanned pfx d (keysWithPrefix pfx index)).length ≤
      (listedKeys pfx d index).length + (rolledPrefixes pfx d index).length := by
  have hsub := scanned_sublist pfx d (keysWithPrefix pfx index)
  have hsplit : ∀ l : List Bytes, l.length =
      (l.filter fun k => whole pfx d k = none).length + (l.filterMap (whole pfx d)).length := by
    intro l
    induction l with
    | nil => rfl
    | cons k l ih =>
      cases hw : whole pfx d k with
      | none =>
        rw [filter_cons_of_pos (by simp [hw]), filterMap_cons_none hw,
          length_cons, length_cons]
        omega
      | some w =>
        rw [filter_cons_of_neg (by simp [hw]), filterMap_cons_some hw,
          length_cons, length_cons]
        omega
  rw [hsplit]
  refine Nat.add_le_add (hsub.filter _).length_le ?_
  refine (subperm_of_subset (nodup_scanned_whole hs hd hforward) ?_).length_le
  intro w hw
  obtain ⟨k, hk, hkw⟩ := mem_filterMap.mp hw
  exact mem_rolledPrefixes.mpr ⟨k, hsub.subset hk, hkw⟩

theorem mem_xmlCommonPrefixes (hd : d ≠ []) (hl : Lists pfx d [] [] (keysWithPrefix pfx index) r) :
    w ∈ r.xmlCommonPrefixes d ↔
      ∃ k ∈ scanned pfx d (keysWithPrefix pfx index), whole pfx d k = some w := by
  unfold xmlCommonPrefixes
  rw [mem_map]
  constructor
  · rintro ⟨c, hc, rfl⟩
    rcases (hl.prefixes c).mp hc with hnil | ⟨k, hk, hcut⟩
    · cases hnil
    · exact ⟨k, hk, whole_eq hd hcut⟩
  · rintro ⟨k, hk, hw⟩
    obtain ⟨c, hcut⟩ : ∃ c, cut pfx d k = some c := by
      rw [← Option.ne_none_iff_exists', Ne, ← whole_eq_none, hw]
      simp
    refine ⟨c, (hl.prefixes c).mpr (Or.inr ⟨k, hk, hcut⟩), ?_⟩
    rw [whole_eq hd hcut, some_inj] at hw
    exact hw

theorem kept_of_found (hs : Sorted index) (hd : d ≠ [])
    (hlisted : ∀ k ∈ keysWithPrefix pfx index, whole pfx d k = none →
      k ∈ scanned pfx d (keysWithPrefix pfx index))
    (hrolled : ∀ k ∈ keysWithPrefix pfx index, ∀ w ∈ whole pfx d k,
      ∃ k₂ ∈ scanned pfx d (keysWithPrefix pfx index), whole pfx d k₂ = some w) :
    Kept index pfx d := by
  intro k hk c hc k' hk' hlt hle
  have hsorted := ascending_keysWithPrefix pfx hs
  have hw := whole_eq hd hc
  obtain ⟨w, hwdef⟩ : ∃ w, w = c.dropLast ++ d := ⟨_, rfl⟩
  rw [← hwdef] at hw
  obtain ⟨k₁, hk₁, hw₁⟩ := hrolled k hk w hw
  have hc₁ : cut pfx d k₁ = some c := (cut_eq_of_whole hd hw hw₁).trans hc
  -- another key that is left out lies behind all keys of the common prefix
  have hbehind : whole pfx d k' ≠ some w → k₁ < k' := by
    intro hne
    rcases lt_trichotomy k₁ k' with hlt₁ | heq | hgt
    · exact hlt₁
    · exact absurd (heq ▸ hw₁) hne
    · exact absurd (whole_of_between hw hw₁ hlt.le hgt.le) hne
  cases hw' : whole pfx d k' with
  | none =>
    have hscan := lt_of_scanned hsorted k₁ hk₁ c hc₁ k' (hlisted k' hk' hw')
      (hbehind (by rw [hw']; simp))
    exact absurd hscan (not_lt_of_ge hle)
  | some w' =>
    refine ⟨w', rfl, ?_⟩
    by_cases hsame : w = w'
    · exact Or.inl (hsame ▸ hw)
    · have hlt₁ := hbehind (by rw [hw']; simpa using Ne.symm hsame)
      obtain ⟨k₂, hk₂, hw₂⟩ := hrolled k' hk' w' hw'
      refine Or.inr ⟨k₂, (scanned_sublist pfx d _).subset hk₂, ?_, hw₂⟩
      refine lt_of_scanned hsorted k₁ hk₁ c hc₁ k₂ hk₂ ?_
      rcases lt_trichotomy k₁ k₂ with hlt₂ | heq | hgt
      · exact hlt₂
      · rw [heq, hw₂, some_inj] at hw₁
        exact absurd hw₁.symm hsame
      · have hbetween := whole_of_between hw₂ hw' hgt.le hlt₁.le
        rw [hw₁, some_inj] at hbetween
        exact absurd hbetween hsame

theorem Kept.listed (h : Kept index pfx d) (hs : Sorted index) :
    ∀ k ∈ keysWithPrefix pfx index, whole pfx d k = none →
      k ∈ scanned pfx d (keysWithPrefix pfx index) := by
  intro k hk hw
  by_contra hnot
  obtain ⟨k₁, hk₁, c, hc, hlt, hle⟩ := left_out (ascending_keysWithPrefix pfx hs) k hk hnot
  obtain ⟨w, hw', -⟩ := h k₁ ((scanned_sublist pfx d _).subset hk₁) c hc k hk hlt hle
  rw [hw] at hw'
  cases hw'

/-- It comes to a key of each common prefix: to the last one, if it has not come to another. -/
theorem Kept.rolled (h : Kept index pfx d) (hs : Sorted index) :
    ∀ k ∈ keysWithPrefix pfx index, ∀ w ∈ whole pfx d k,
      ∃ k₂ ∈ scanned pfx d (keysWithPrefix pfx index), whole pfx d k₂ = some w := by
  intro k hk w hw
  obtain ⟨l, hl, hlast⟩ := ((keysWithPrefix pfx index).filter
    fun x => whole pfx d x = some w).toFinset.exists_max_image id
      ⟨k, by simpa using ⟨hk, hw⟩⟩
  simp only [mem_toFinset, mem_filter, decide_eq_true_eq, id_eq] at hl hlast
  by_contra hnot
  have hscan : l ∉ scanned pfx d (keysWithPrefix pfx index) := fun hl' => hnot ⟨l, hl', hl.2⟩
  obtain ⟨k₁, hk₁, c, hc, hlt, hle⟩ := left_out (ascending_keysWithPrefix pfx hs) l hl.1 hscan
  obtain ⟨w', hw', hsame⟩ := h k₁ ((scanned_sublist pfx d _).subset hk₁) c hc l hl.1 hlt hle
  rw [hl.2, mem_some_iff] at hw'
  rw [← hw'] at hsame
  rcases hsame with hsame | ⟨k₂, hk₂, hlt₂, hw₂⟩
  · exact hnot ⟨k₁, hk₁, hsame⟩
  · exact absurd (hle.trans_lt hlt₂) (not_lt_of_ge (hlast k₂ ⟨hk₂, hw₂⟩))

/-- **The scan shows the listing exactly when what it leaves out adds nothing**, and the cuts are
in order. -/
theorem shown_iff (hs : Sorted index) (hd : d ≠ [])
    (hl : Lists pfx d [] [] (keysWithPrefix pfx index) r) :
    (r.objectList = listedKeys pfx d index ∧
      r.xmlCommonPrefixes d = rolledPrefixes pfx d index) ↔
        Kept index pfx d ∧ InOrder index pfx d := by
  have hsub := scanned_sublist pfx d (keysWithPrefix pfx index)
  have hobjects : r.objectList = (scanned pfx d (keysWithPrefix pfx index)).filter
      fun k => whole pfx d k = none := by
    rw [hl.objects, nil_append]
    simp only [whole_eq_none]
  have hfunction : ∀ k c w, cut pfx d k = some c → whole pfx d k = some w →
      w = c.dropLast ++ d := by
    intro k c w hc hw
    rw [whole_eq hd hc, some_inj] at hw
    exact hw.symm
  constructor
  · rintro ⟨hlisted, hrolled⟩
    have hfound : ∀ k ∈ keysWithPrefix pfx index, ∀ w ∈ whole pfx d k,
        ∃ k₂ ∈ scanned pfx d (keysWithPrefix pfx index), whole pfx d k₂ = some w := by
      intro k hk w hw
      rw [← mem_xmlCommonPrefixes hd hl, hrolled]
      exact mem_rolledPrefixes.mpr ⟨k, hk, hw⟩
    refine ⟨kept_of_found hs hd ?_ hfound, ?_⟩
    · intro k hk hw
      have hmem : k ∈ r.objectList := by
        rw [hlisted]
        exact mem_listedKeys.mpr ⟨hk, hw⟩
      rw [hobjects] at hmem
      exact (mem_filter.mp hmem).1
    · intro k hk k' hk' c hc c' hc' hlt w hw w' hw'
      -- both cuts are among those that were found, which `get_xml` keeps in their order
      have hmem : ∀ {k : Bytes}, k ∈ keysWithPrefix pfx index → ∀ {c w : Bytes},
          cut pfx d k = some c → whole pfx d k = some w → c ∈ r.commonPrefixes := by
        intro k hk c w hc hw
        obtain ⟨k₂, hk₂, hw₂⟩ := hfound k hk w hw
        exact (hl.prefixes c).mpr (Or.inr ⟨k₂, hk₂, (cut_eq_of_whole hd hw hw₂).trans hc⟩)
      have hmapped : r.commonPrefixes.Pairwise fun x y => x.dropLast ++ d < y.dropLast ++ d := by
        rw [← pairwise_map (f := fun x : Bytes => x.dropLast ++ d)]
        show (r.xmlCommonPrefixes d).Pairwise (· < ·)
        rw [hrolled]
        exact ascending_rolledPrefixes hs
      rw [hfunction k c w hc hw, hfunction k' c' w' hc' hw']
      exact lt_of_ascending hl.ascending hmapped c (hmem hk hc hw) c' (hmem hk' hc' hw') hlt
  · rintro ⟨hkept, horder⟩
    refine ⟨?_, eq_of_ascending ?_ (ascending_rolledPrefixes hs) ?_⟩
    · rw [hobjects]
      refine (hsub.filter _).eq_of_length_le ?_
      refine (subperm_of_subset ?_ ?_).length_le
      · exact ((ascending_keysWithPrefix pfx hs).imp fun h => h.ne).filter _
      · intro k hk
        rw [mem_filter] at hk ⊢
        exact ⟨hkept.listed hs k hk.1 (by simpa using hk.2), hk.2⟩
    · refine pairwise_map.mpr (hl.ascending.imp_of_mem ?_)
      intro c c' hc hc' hlt
      rcases (hl.prefixes c).mp hc with hnil | ⟨k, hk, hcut⟩
      · cases hnil
      rcases (hl.prefixes c').mp hc' with hnil | ⟨k', hk', hcut'⟩
      · cases hnil
      exact horder k (hsub.subset hk) k' (hsub.subset hk') c hcut c' hcut' hlt _
        (whole_eq hd hcut) _ (whole_eq hd hcut')
    · intro w
      rw [mem_xmlCommonPrefixes hd hl, mem_rolledPrefixes]
      constructor
      · rintro ⟨k, hk, hw⟩
        exact ⟨k, hsub.subset hk, hw⟩
      · rintro ⟨k, hk, hw⟩
        exact hkept.rolled hs k hk w hw

theorem kept_of_shows (hs : Sorted index)
    (hnamed : ∀ kv ∈ index, kv.1 ≠ []) (hparse : ∀ kv ∈ index, fromJson kv.2 = some kv.1)
    (hd : 2 ≤ d.length) (hn : 0 < n) {maxKeys : Nat}
    (hmax : (listedKeys pfx d index).length + (rolledPrefixes pfx d index).length ≤ maxKeys)
    (hforward : Forward index pfx d) (hshows : Shows n fromJson index pfx d maxKeys) :
    Kept index pfx d ∧ InOrder index pfx d := by
  obtain ⟨enough, henough⟩ := hshows
  obtain ⟨r, hr, hl⟩ := listObjects_scans hs hn hnamed hparse hd hforward
    ((length_scanned_le hs hd hforward).trans hmax) (max enough (index.length + 2))
    (Nat.lt_of_succ_le (Nat.le_max_right _ _))
  obtain ⟨r', hr', hshown⟩ := henough (max enough (index.length + 2)) (Nat.le_max_left _ _)
  rw [hr, some_inj] at hr'
  rw [← hr'] at hshown
  exact (shown_iff hs (ne_nil_of_length_pos (by omega)) hl).mp hshown

/-- **A delimiter of several bytes works when the scan leaves out nothing of its own**, and only
then, unless the scan goes back. -/
theorem shows_iff {index : List KeyValue} (hs : OrderedIndex.Sorted index)
    (hnamed : ∀ kv ∈ index, kv.1 ≠ []) (hparse : ∀ kv ∈ index, fromJson kv.2 = some kv.1)
    (pfx : Bytes) {d : Bytes} (hd : 2 ≤ d.length) (hn : 1 ≤ n) {maxKeys : Nat}
    (hmax : (listedKeys pfx d index).length + (rolledPrefixes pfx d index).length ≤ maxKeys) :
    (Kept index pfx d ∧ InOrder index pfx d ∧ Forward index pfx d →
      Shows n fromJson index pfx d maxKeys) ∧
    (Forward index pfx d → Shows n fromJson index pfx d maxKeys →
      Kept index pfx d ∧ InOrder index pfx d) := by
  constructor
  · rintro ⟨hkept, horder, hforward⟩
    refine ⟨index.length + 2, fun fuel hfuel => ?_⟩
    obtain ⟨r, hr, hl⟩ := listObjects_scans hs hn hnamed hparse hd hforward
      ((length_scanned_le hs hd hforward).trans hmax) fuel (by omega)
    exact ⟨r, hr, (shown_iff hs (ne_nil_of_length_pos (by omega)) hl).mpr ⟨hkept, horder⟩⟩
  · exact kept_of_shows hs hnamed hparse hd hn hmax

end

/-- An index whose values are the keys again. -/
def indexOf (keys : List String) : List KeyValue := keys.map fun k => (ascii k, ascii k)

/-- The keys `a//x`, `a//y` and `b` with the delimiter `//`. -/
theorem shows_iff_twoSlashes :
    (1 ≤ 2 ∧ Kept (indexOf ["a//x", "a//y", "b"]) [] (ascii "//")) ∧
      Shows 2 some (indexOf ["a//x", "a//y", "b"]) [] (ascii "//") 10 := by
  have hkept : Kept (indexOf ["a//x", "a//y", "b"]) [] (ascii "//") := by decide
  exact ⟨⟨by decide, hkept⟩, (shows_iff (by decide) (by decide)
    (by decide) [] (by decide) (by decide) (by decide)).1
    ⟨hkept, by decide, Or.inl (by decide)⟩⟩

/-- With the delimiter `//` the key `a/b` is lost behind `a//x`. -/
theorem not_shows_singleSlash : ¬ Shows 2 some (indexOf ["a//x", "a/b"]) [] (ascii "//") 10 := by
  intro h
  have hkept := (kept_of_shows (by decide) (by decide) (by decide)
    (by decide) (by decide) (by decide) (Or.inl (by decide)) h).1
  exact absurd hkept (by decide)

end S3GetBucketAction

end CortxS3

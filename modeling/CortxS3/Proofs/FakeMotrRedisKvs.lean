/-
The index in Redis against the ordered map it stands for.

An operation on a key is a range of elements, and what the range selects are the entries of all
keys that begin with it (`selected_eq`).  So the index in Redis is a map as well, but one whose
operations each work on all keys that a key begins (`rangeStep`), and a run on it is a run on that
map (`step_stored`).  Asking for the next keys is not affected by it: the NUL behind a key comes
before all that a longer key has there.

What is left is to compare two maps.  They agree on an operation exactly when no stored key begins
with a key of it in a way that shows (`Apart`), and over a run exactly when they agree on each
operation of it (`behaves_iff`).
-/
import CortxS3.Server.FakeMotrRedisKvs
import CortxS3.Lib.SortedMap

namespace CortxS3.S3FakeMotrRedisKvs

open List hiding after next set_set cons_le_cons_iff

open OrderedIndex Redis

open OrderedIndex (Sorted)

/-! ### The ordered map -/

abbrev Entries := List (Key × Value)

/-- The answer of a map to a lookup. -/
def lookup (m : Entries) (k : Key) : Slot :=
  (SortedMap.get k m).elim .missing fun v => { rc := 0, value := some v.bytes }

/-- The answer of a map to a deletion. -/
def named (m : Entries) (k : Key) : Slot :=
  { rc := if k ∈ m.map Prod.fst then 0 else -ENOENT }

/-- The first `cnt` of some entries, each in its place. -/
def page (cnt : Nat) (kvs : Entries) : List Slot :=
  ((kvs.take cnt).map fun kv =>
    { rc := 0, key := some kv.1.bytes, value := some kv.2.bytes }) ++
      List.replicate (cnt - kvs.length) .missing

/-- What an ordered map does. -/
def mapStep (m : Entries) : Op → Entries × List Slot
  | .read keys _ => (m, keys.map (lookup m))
  | .write entries _ =>
    (entries.foldl (fun m kv => SortedMap.set kv.1 kv.2 m) m, entries.map fun _ => { rc := 0 })
  | .del keys _ => (m.filter fun kv => kv.1 ∉ keys, keys.map (named m))
  | .next (some k) cnt => (m, page cnt (OrderedIndex.after m k))
  | .next none cnt => (m, page cnt m)

def mapRun (m : Entries) : List Op → List (Entries × List Slot)
  | [] => []
  | op :: ops => mapStep m op :: mapRun (mapStep m op).1 ops

/-- The element of an entry. -/
def pack (kv : Key × Value) : Bytes := prepareRkey kv.1.bytes kv.2.bytes

/-- The sorted set of a map. -/
def stored (m : Entries) : List Bytes := m.map pack

/-- Behind each operation the index is that of the map, and so is the answer. -/
def BehavesAsMap (ops : List Op) : Prop :=
  run [] ops = some ((mapRun [] ops).map fun r => (stored r.1, r.2))
deriving Decidable

/-- A key that another one begins with. -/
def Begins (k x : Key) : Prop := k.bytes <+: x.bytes
deriving Decidable

/-- No key that begins another one gets in the way of an operation.

A key that is read is stored, or begins no stored key.  A key that is written or deleted begins no
stored key that is not; of the keys written none begins one that is written before it, and of the
keys deleted none begins a stored one that is deleted after it. -/
def Apart (m : Entries) : Op → Prop
  | .read keys _ => ∀ k ∈ keys, k ∈ m.map Prod.fst ∨ ∀ x ∈ m, ¬ Begins k x.1
  | .write entries _ =>
    (∀ x ∈ m, x.1 ∉ entries.map Prod.fst → ∀ e ∈ entries, ¬ Begins e.1 x.1) ∧
      entries.Pairwise fun a b => ¬ Begins b.1 a.1
  | .del keys _ =>
    (∀ x ∈ m, x.1 ∉ keys → ∀ k ∈ keys, ¬ Begins k x.1) ∧
      keys.Pairwise fun a b => Begins a b → b ∉ m.map Prod.fst
  | .next _ _ => True

/-- The same at each operation of a run. -/
def ApartOver (m : Entries) : List Op → Prop
  | [] => True
  | op :: ops => Apart m op ∧ ApartOver (mapStep m op).1 ops

/-! ### Packed entries in their order -/

section

variable {k x y s t : Bytes}

theorem zero_lt {c : UInt8} (h : c ≠ 0) : 0 < c := by
  rw [UInt8.lt_iff_toNat_lt]
  have hne : c.toNat ≠ 0 := fun h0 => h (UInt8.toNat_inj.mp h0)
  exact Nat.pos_of_ne_zero hne

theorem lt_ff {c : UInt8} (h : c ≠ 0xff) : c < 0xff := by
  rw [UInt8.lt_iff_toNat_lt]
  have hlt := c.toNat_lt
  have hne : c.toNat ≠ 255 := fun hc => h (UInt8.toNat_inj.mp hc)
  show c.toNat < 255
  omega

theorem lt_append_nul_iff (hk : NulFree k) : k < x ++ 0 :: s ↔ k ≤ x := by
  induction k generalizing x with
  | nil =>
    constructor
    · intro _
      exact nil_le x
    · intro _
      cases x <;> exact nil_lt_cons _ _
  | cons a k ih =>
    have hak : a ≠ 0 ∧ NulFree k := by
      constructor
      · rintro rfl
        exact hk mem_cons_self
      · exact fun h => hk (mem_cons_of_mem _ h)
    cases x with
    | nil =>
      rw [nil_append, cons_lt_cons_iff]
      constructor
      · rintro (hlt | ⟨heq, -⟩)
        · exact absurd hlt (zero_lt hak.1).asymm
        · exact absurd heq hak.1
      · intro hle
        exact absurd (nil_lt_cons a k) (not_lt_of_ge hle)
    | cons b x =>
      rw [cons_append, cons_lt_cons_iff, cons_le_cons_iff, ih hak.2]

/-- **Entries stand in the order of their keys.** -/
theorem append_nul_lt_append_nul (hy : NulFree y) (h : x < y) : x ++ 0 :: s < y ++ 0 :: t := by
  induction x generalizing y with
  | nil =>
    cases y with
    | nil => exact absurd h (lt_irrefl _)
    | cons b y =>
      have hb : b ≠ 0 := by
        rintro rfl
        exact hy mem_cons_self
      exact cons_lt_cons_iff.mpr (Or.inl (zero_lt hb))
  | cons a x ih =>
    cases y with
    | nil => exact absurd h (not_lt_nil _)
    | cons b y =>
      rw [cons_append, cons_append, cons_lt_cons_iff]
      rcases cons_lt_cons_iff.mp h with hlt | ⟨heq, hlt⟩
      · exact Or.inl hlt
      · exact Or.inr ⟨heq, ih (fun h => hy (mem_cons_of_mem _ h)) hlt⟩

/-- A string without a NUL that begins a string with one ends before it. -/
theorem prefix_of_prefix_append_nul (hk : NulFree k) (h : k <+: x ++ 0 :: s) : k <+: x := by
  rcases prefix_or_prefix_of_prefix h (prefix_append x (0 :: s)) with hkx | ⟨t, rfl⟩
  · exact hkx
  · have ht : t <+: 0 :: s := (prefix_append_right_inj x).mp h
    cases t with
    | nil => rw [append_nil]
    | cons c t =>
      rw [(cons_prefix_cons.mp ht).1] at hk
      exact absurd (by simp) hk

/-- **Between a key and the key with 0xff behind it lie the entries of the keys it begins.** -/
theorem between_iff (hk : NulFree k) (hx : 0xff ∉ x) :
    (k ≤ x ++ 0 :: s ∧ x ++ 0 :: s < k ++ [0xff]) ↔ k <+: x := by
  constructor
  · rintro ⟨hle, hlt⟩
    exact prefix_of_prefix_append_nul hk
      (prefix_of_between hle hlt.le (prefix_append k [0xff]))
  · rintro ⟨t, rfl⟩
    rw [append_assoc]
    refine ⟨ le_of_prefix (prefix_append k _), append_lt_append ?_ k⟩
    cases t with
    | nil => exact cons_lt_cons_iff.mpr (Or.inl (by decide))
    | cons c t =>
      have hc : c ≠ 0xff := by
        rintro rfl
        exact hx (by simp)
      exact cons_lt_cons_iff.mpr (Or.inl (lt_ff hc))

theorem cStr_append_nul (hk : NulFree k) : cStr (k ++ 0 :: s) = k := by
  unfold cStr
  rw [takeWhile_append_of_pos, takeWhile_cons_of_neg (by simp), append_nil]
  intro c hc
  rw [bne_iff_ne]
  rintro rfl
  exact hk hc

end

section

variable {m : Entries} {k : Key} {kv : Key × Value}

theorem parseKey_pack : parseKey (pack kv) = kv.1.bytes := cStr_append_nul kv.1.nulFree

theorem parseVal_pack : parseVal (pack kv) = some (kv.2.bytes ++ [0]) := by
  unfold parseVal pack prepareRkey
  rw [cStr_append_nul kv.1.nulFree, if_pos (by simp)]
  simp

theorem pack_lt_pack {kv' : Key × Value} (h : kv.1 < kv'.1) : pack kv < pack kv' :=
  append_nul_lt_append_nul kv'.1.nulFree h

theorem pack_injective : Function.Injective pack := by
  intro kv kv' h
  have hkey : kv.1 = kv'.1 := by
    apply Key.bytes_injective
    rw [← parseKey_pack, ← parseKey_pack, h]
  have hval : kv.2 = kv'.2 := by
    have hparse : parseVal (pack kv) = some (kv.2.bytes ++ [0]) := parseVal_pack
    rw [h, parseVal_pack, Option.some_inj, append_left_inj] at hparse
    cases hv : kv.2
    cases hv' : kv'.2
    rw [hv, hv'] at hparse
    congr 1
    exact hparse.symm
  exact Prod.ext hkey hval

theorem stored_injective : Function.Injective stored := map_injective_iff.mpr pack_injective

theorem fromMin_border (str e : Bytes) (incl : Bool) :
    fromMin (prepareBorder str incl false) e = true ↔
      if incl then str ≤ e else str < e := by
  cases incl <;> simp [prepareBorder, fromMin]

theorem toMax_border (str e : Bytes) :
    toMax (prepareBorder str false true) e = true ↔ e < str ++ [0xff] := by
  simp [prepareBorder, toMax]

theorem selected_eq (k : Key) (kv : Key × Value) :
    (fromMin (prepareBorder k.bytes true false) (pack kv) &&
      toMax (prepareBorder k.bytes false true) (pack kv)) = decide (Begins k kv.1) := by
  rw [Bool.eq_iff_iff, Bool.and_eq_true, fromMin_border, toMax_border, if_pos rfl,
    decide_eq_true_iff]
  exact between_iff k.nulFree kv.1.utf8

theorem selected_behind (k : Key) (kv : Key × Value) :
    (fromMin (prepareBorder k.bytes false false) (pack kv) && toMax [43] (pack kv)) =
      decide (k ≤ kv.1) := by
  have hplus : toMax [43] (pack kv) = true := rfl
  rw [Bool.eq_iff_iff, Bool.and_eq_true, fromMin_border, if_neg (by simp), decide_eq_true_iff,
    and_iff_left hplus]
  exact lt_append_nul_iff k.nulFree

end

/-! ### The index as a map -/

section

variable {m : Entries} {k : Key}

theorem stored_filter {p : Bytes → Bool} {q : Key × Value → Bool}
    (h : ∀ kv, p (pack kv) = q kv) (m : Entries) : (stored m).filter p = stored (m.filter q) := by
  unfold stored
  rw [filter_map]
  congr 1
  exact filter_congr fun kv _ => h kv

/-- The range of a key in a sorted set. -/
def inRange (k : Key) (e : Bytes) : Bool :=
  Redis.fromMin (prepareBorder k.bytes true false) e &&
    Redis.toMax (prepareBorder k.bytes false true) e

/-- What the deletion of a key leaves. -/
def spared (k : Key) (m : Entries) : Entries := m.filter fun kv => ¬ Begins k kv.1

/-- What the read of a key finds. -/
def begun (k : Key) (m : Entries) : Entries := m.filter fun kv => Begins k kv.1

theorem filter_inRange (k : Key) (m : Entries) :
    (stored m).filter (inRange k) = stored (begun k m) :=
  stored_filter (selected_eq k) m

theorem deleteKey_stored (k : Key) (m : Entries) :
    deleteKey (stored m) k = (stored (spared k m), (begun k m).length) := by
  have hspared : (stored m).filter (fun e => !inRange k e) = stored (spared k m) := by
    refine stored_filter (fun kv => ?_) m
    rw [decide_not]
    exact congrArg not (selected_eq k kv)
  show ((stored m).filter (fun e => !inRange k e), ((stored m).filter (inRange k)).length) = _
  rw [hspared, filter_inRange]
  unfold stored
  rw [length_map]

theorem orderedInsert_stored {v : Value} (h : ∀ x ∈ m, x.1 ≠ k) :
    (stored m).orderedInsert (· ≤ ·) (pack (k, v)) = stored (SortedMap.set k v m) := by
  induction m with
  | nil => rfl
  | cons x rest ih =>
    obtain ⟨x, w⟩ := x
    have hne : x ≠ k := h (x, w) mem_cons_self
    show ((pack (x, w) :: stored rest).orderedInsert (· ≤ ·) (pack (k, v))) = _
    rw [orderedInsert_cons, SortedMap.set_cons]
    rcases lt_or_gt_of_ne hne with hlt | hgt
    · have hpack : pack (x, w) < pack (k, v) := pack_lt_pack hlt
      rw [if_neg (not_le_of_gt hpack), if_neg hlt.asymm, if_neg hne.symm,
        ih fun y hy => h y (mem_cons_of_mem _ hy)]
      rfl
    · have hpack : pack (k, v) < pack (x, w) := pack_lt_pack hgt
      rw [if_pos hpack.le, if_pos hgt]
      rfl

theorem zAdd_stored {v : Value} (h : ∀ x ∈ m, x.1 ≠ k) :
    zAdd (stored m) (pack (k, v)) = (stored (SortedMap.set k v m), 1) := by
  unfold zAdd
  rw [if_neg, orderedInsert_stored h]
  intro hmem
  obtain ⟨x, hx, heq⟩ := mem_map.mp (contains_iff_mem.mp hmem)
  refine h x hx ?_
  rw [pack_injective heq]

theorem begins_refl (k : Key) : Begins k k := prefix_refl _

theorem mem_spared {x : Key × Value} : x ∈ spared k m ↔ x ∈ m ∧ ¬ Begins k x.1 := by
  simp [spared]

theorem mem_begun {x : Key × Value} : x ∈ begun k m ↔ x ∈ m ∧ Begins k x.1 := by
  simp [begun]

theorem ne_of_mem_spared : ∀ x ∈ spared k m, x.1 ≠ k := by
  intro x hx heq
  exact (mem_spared.mp hx).2 (heq ▸ begins_refl k)

theorem sorted_spared (hs : Sorted m) : Sorted (spared k m) := hs.sublist filter_sublist

/-- The answer of the index to a lookup. -/
def rangeLookup (m : Entries) (k : Key) : Slot :=
  (begun k m).head?.elim .missing fun kv => { rc := 0, value := some kv.2.bytes }

def rangeWrite (m : Entries) : List (Key × Value) → Entries
  | [] => m
  | e :: rest => rangeWrite (SortedMap.set e.1 e.2 (spared e.1 m)) rest

def rangeDel (m : Entries) : List Key → Entries × List Slot
  | [] => (m, [])
  | k :: rest =>
    ((rangeDel (spared k m) rest).1,
      kvStatusCb (begun k m).length :: (rangeDel (spared k m) rest).2)

/-- What the index does, as operations on a map. -/
def rangeStep (m : Entries) : Op → Entries × List Slot
  | .read keys _ => (m, keys.map (rangeLookup m))
  | .write entries _ => (rangeWrite m entries, entries.map fun _ => { rc := 0 })
  | .del keys _ => rangeDel m keys
  | .next start cnt => mapStep m (.next start cnt)

theorem kvReadCb_stored (m : Entries) :
    kvReadCb ((stored m).take 1) =
      some (m.head?.elim .missing fun kv => { rc := 0, value := some kv.2.bytes }) := by
  cases m with
  | nil => rfl
  | cons kv rest =>
    show (parseVal (pack kv)).map _ = _
    rw [parseVal_pack, Option.map_some, cStr_append_nul kv.2.nulFree]
    rfl

theorem kvRead_stored (m : Entries) (keys : List Key) :
    kvRead (stored m) keys = some (keys.map (rangeLookup m)) := by
  unfold kvRead
  have hread : ∀ k : Key, kvReadCb (zRangeByLex (stored m) (prepareBorder k.bytes true false)
      (prepareBorder k.bytes false true) 1) = some (rangeLookup m k) := by
    intro k
    show kvReadCb (((stored m).filter (inRange k)).take 1) = _
    rw [filter_inRange, kvReadCb_stored]
    rfl
  induction keys with
  | nil => rfl
  | cons k keys ih =>
    rw [mapM_cons, hread, ih]
    rfl

theorem fillSlots_stored (m : Entries) (cnt : Nat) :
    fillSlots cnt (stored m) = some (page cnt m) := by
  induction m generalizing cnt with
  | nil =>
    cases cnt with
    | zero => rfl
    | succ cnt => simp [stored, fillSlots, page]
  | cons kv rest ih =>
    cases cnt with
    | zero => simp [fillSlots, page]
    | succ cnt =>
      show (do
        let val ← parseVal (pack kv)
        let slots ← fillSlots cnt (stored rest)
        return ({ rc := 0, key := some (parseKey (pack kv)), value := some (cStr val) } : Slot)
          :: slots) = _
      rw [parseVal_pack, ih, parseKey_pack]
      simp [page, cStr_append_nul kv.2.nulFree]

theorem page_take {cnt j : Nat} (h : cnt ≤ j) (m : Entries) : page cnt (m.take j) = page cnt m := by
  unfold page
  rw [take_take, Nat.min_eq_left h, length_take]
  congr 2
  omega

/-- **The start key is left out of the answer**, and nothing else. -/
theorem fillSlots_skipFirst (hs : Sorted m) (k : Key) (cnt : Nat) :
    fillSlots cnt (skipFirst (some k) (stored ((atOrAfter m k).take (cnt + 1)))) =
      some (page cnt (after m k)) := by
  obtain ⟨l, hl⟩ : ∃ l, l = atOrAfter m k := ⟨_, rfl⟩
  have hafter : after m k = after l k := by
    rw [hl]
    unfold after atOrAfter
    rw [filter_filter]
    refine filter_congr fun kv _ => ?_
    rw [Bool.eq_iff_iff, Bool.and_eq_true, decide_eq_true_iff, decide_eq_true_iff]
    exact ⟨fun h => ⟨h, h.le⟩, fun h => h.1⟩
  have hsorted : Sorted l := by
    rw [hl]
    exact hs.sublist filter_sublist
  have hfrom : ∀ kv ∈ l, k ≤ kv.1 := by
    intro kv hkv
    rw [hl] at hkv
    simpa using (mem_filter.mp hkv).2
  rw [← hl, hafter]
  cases l with
  | nil => exact fillSlots_stored [] cnt
  | cons kv rest =>
    rw [take_succ_cons]
    show fillSlots cnt (if parseKey (pack kv) = k.bytes then stored (rest.take cnt)
      else stored (kv :: rest.take cnt)) = _
    rw [parseKey_pack]
    have hcons := pairwise_cons.mp hsorted
    by_cases heq : kv.1 = k
    · have hrest : after (kv :: rest) k = rest := by
        unfold after
        rw [filter_cons_of_neg (by simp [heq]), filter_eq_self]
        intro x hx
        have hlt := hcons.1 x hx
        rw [heq] at hlt
        simpa using hlt
      rw [if_pos (congrArg Key.bytes heq), fillSlots_stored, page_take (Nat.le_refl cnt), hrest]
    · have hall : after (kv :: rest) k = kv :: rest := by
        unfold after
        rw [filter_eq_self]
        have hlt : k < kv.1 := lt_of_le_of_ne (hfrom kv mem_cons_self) (Ne.symm heq)
        intro x hx
        rcases mem_cons.mp hx with rfl | hx
        · simpa using hlt
        · simpa using hlt.trans (hcons.1 x hx)
      rw [if_neg fun h => heq (Key.bytes_injective h), ← take_succ_cons, fillSlots_stored,
        page_take (Nat.le_succ cnt), hall]

theorem kvNext_stored (hs : Sorted m) (start : Option Key) (cnt : Nat) :
    kvNext (stored m) start cnt = some (mapStep m (.next start cnt)).2 := by
  cases start with
  | none =>
    have hall : (stored m).filter (fun e => fromMin [45] e && toMax [43] e) =
        stored m := by
      rw [filter_eq_self]
      intro e _
      rfl
    unfold kvNext kvNextCb zRangeByLex
    simp only [hall]
    show fillSlots cnt ((stored m).take cnt) = _
    unfold stored
    rw [← map_take]
    exact (fillSlots_stored _ cnt).trans (by rw [page_take (Nat.le_refl cnt)]; rfl)
  | some k =>
    unfold kvNext kvNextCb zRangeByLex
    simp only
    have hbehind : (stored m).filter (fun e =>
        fromMin (prepareBorder k.bytes false false) e && toMax [43] e) =
          stored (atOrAfter m k) :=
      stored_filter (selected_behind k) m
    rw [hbehind]
    unfold stored
    rw [← map_take]
    exact fillSlots_skipFirst hs k cnt

theorem kvWrite_stored (entries : List (Key × Value)) :
    ∀ m : Entries, kvWrite (stored m) entries =
      (stored (rangeWrite m entries), entries.map fun _ => { rc := 0 }) := by
  induction entries with
  | nil => intro m; rfl
  | cons e rest ih =>
    intro m
    obtain ⟨k, v⟩ := e
    unfold kvWrite
    simp only
    rw [deleteKey_stored]
    show ((kvWrite (zAdd (stored (spared k m)) (pack (k, v))).1 rest).1,
      kvStatusCb (zAdd (stored (spared k m)) (pack (k, v))).2 ::
        (kvWrite (zAdd (stored (spared k m)) (pack (k, v))).1 rest).2) = _
    rw [zAdd_stored ne_of_mem_spared]
    simp only [ih]
    rfl

theorem kvDel_stored (keys : List Key) :
    ∀ m : Entries, kvDel (stored m) keys = (stored (rangeDel m keys).1, (rangeDel m keys).2) := by
  induction keys with
  | nil => intro m; rfl
  | cons k rest ih =>
    intro m
    unfold kvDel
    simp only
    rw [deleteKey_stored]
    simp only [ih]
    rfl

/-- **The index is kept like a map whose operations are ranges.** -/
theorem step_stored (hs : Sorted m) (op : Op) :
    step (stored m) op = some (stored (rangeStep m op).1, (rangeStep m op).2) := by
  cases op with
  | read keys distinct =>
    unfold step
    simp only [kvRead_stored]
    rfl
  | write entries distinct => exact congrArg some (kvWrite_stored entries m)
  | del keys distinct => exact congrArg some (kvDel_stored keys m)
  | next start cnt =>
    unfold step
    simp only [kvNext_stored hs]
    cases start <;> rfl

end

/-! ### Where the two maps agree -/

section

variable {m : Entries} {k : Key}

theorem sorted_rangeWrite (entries : List (Key × Value)) :
    ∀ {m : Entries}, Sorted m → Sorted (rangeWrite m entries) := by
  induction entries with
  | nil => intro m hs; exact hs
  | cons e rest ih => intro m hs; exact ih (SortedMap.sorted_set (sorted_spared hs))

theorem sorted_mapStep (hs : Sorted m) (op : Op) : Sorted (mapStep m op).1 := by
  cases op with
  | read keys distinct => exact hs
  | write entries distinct => exact SortedMap.sorted_foldl_set entries hs
  | del keys distinct => exact hs.sublist filter_sublist
  | next start cnt => cases start <;> exact hs

theorem eq_of_mem_iff {a b : Entries} (ha : Sorted a) (hb : Sorted b)
    (h : ∀ p, p ∈ a ↔ p ∈ b) : a = b :=
  ha.eq_of_perm hb ((perm_ext_iff_of_nodup ha.nodup hb.nodup).mpr h)

theorem begun_head (hs : Sorted m) {v : Value} (h : (k, v) ∈ m) :
    (begun k m).head? = some (k, v) := by
  obtain ⟨before, after, rfl⟩ := append_of_mem h
  have hnone : begun k before = [] := by
    refine filter_eq_nil_iff.mpr fun x hx hbegins => ?_
    have hlt : x.1 < k := (pairwise_append.mp hs).2.2 x hx (k, v) mem_cons_self
    have hle : k ≤ x.1 := le_of_prefix (of_decide_eq_true hbegins)
    exact absurd hlt (not_lt_of_ge hle)
  show ((before ++ (k, v) :: after).filter _).head? = _
  rw [filter_append]
  show (begun k before ++ _).head? = _
  rw [hnone, nil_append, filter_cons_of_pos (by simpa using begins_refl k)]
  rfl

theorem begun_eq_nil : begun k m = [] ↔ ∀ x ∈ m, ¬ Begins k x.1 := by
  simp [begun]

/-- A read finds what a lookup finds unless it finds a longer key instead. -/
theorem rangeLookup_eq_iff (hs : Sorted m) :
    rangeLookup m k = lookup m k ↔ k ∈ m.map Prod.fst ∨ ∀ x ∈ m, ¬ Begins k x.1 := by
  unfold rangeLookup lookup
  by_cases hk : k ∈ m.map Prod.fst
  · obtain ⟨⟨k', v⟩, hmem, rfl⟩ := mem_map.mp hk
    rw [begun_head hs hmem, (SortedMap.get_eq_some_iff hs).mpr hmem]
    exact iff_of_true rfl (Or.inl hk)
  · have hnone : SortedMap.get k m = none :=
      SortedMap.get_eq_none fun p hp heq => hk (mem_map.mpr ⟨p, hp, heq⟩)
    rw [hnone, or_iff_right hk, ← begun_eq_nil]
    cases hb : begun k m with
    | nil => simp
    | cons x rest =>
      constructor
      · intro h
        have hrc : (0 : Int) = -ENOENT := congrArg Slot.rc h
        exact absurd hrc (by decide)
      · intro h
        cases h

/-- What is left of the entries written, when each removes those its key begins. -/
def Lasts (p : Key × Value) : List (Key × Value) → Prop
  | [] => False
  | e :: rest => (p = e ∧ ∀ e' ∈ rest, ¬ Begins e'.1 p.1) ∨ Lasts p rest

variable {entries : List (Key × Value)}

theorem mem_of_lasts {p : Key × Value} (h : Lasts p entries) : p ∈ entries := by
  induction entries with
  | nil => exact h.elim
  | cons e rest ih =>
    rcases h with ⟨rfl, -⟩ | h
    · exact mem_cons_self
    · exact mem_cons_of_mem _ (ih h)

theorem mem_rangeWrite (entries : List (Key × Value)) :
    ∀ {m : Entries}, Sorted m → ∀ p : Key × Value, p ∈ rangeWrite m entries ↔
      Lasts p entries ∨ (p ∈ m ∧ ∀ e ∈ entries, ¬ Begins e.1 p.1) := by
  induction entries with
  | nil => intro m _ p; simp [rangeWrite, Lasts]
  | cons e rest ih =>
    intro m hs p
    rw [rangeWrite, ih (SortedMap.sorted_set (sorted_spared hs)) p,
      SortedMap.mem_set (sorted_spared hs), mem_spared, Lasts, forall_mem_cons]
    constructor
    · rintro (h | ⟨heq | ⟨-, hmem, hnot⟩, hrest⟩)
      · exact Or.inl (Or.inr h)
      · exact Or.inl (Or.inl ⟨heq, hrest⟩)
      · exact Or.inr ⟨hmem, hnot, hrest⟩
    · rintro ((⟨heq, hrest⟩ | h) | ⟨hmem, hnot, hrest⟩)
      · exact Or.inr ⟨Or.inl heq, hrest⟩
      · exact Or.inl h
      · refine Or.inr ⟨Or.inr ⟨fun heq => hnot ?_, hmem, hnot⟩, hrest⟩
        rw [heq]
        exact begins_refl _

/-- All entries written last exactly when none is removed by a later one. -/
theorem lasts_iff_pairwise (hdistinct : (entries.map Prod.fst).Nodup) :
    (∀ p ∈ entries, Lasts p entries) ↔ entries.Pairwise fun a b => ¬ Begins b.1 a.1 := by
  induction entries with
  | nil => simp
  | cons e rest ih =>
    rw [map_cons, nodup_cons] at hdistinct
    rw [pairwise_cons, ← ih hdistinct.2]
    have hnew : e ∉ rest := fun h => hdistinct.1 (mem_map_of_mem h)
    constructor
    · intro h
      constructor
      · rcases h e mem_cons_self with ⟨-, he⟩ | he
        · exact he
        · exact absurd (mem_of_lasts he) hnew
      · intro p hp
        rcases h p (mem_cons_of_mem _ hp) with ⟨rfl, -⟩ | hlasts
        · exact absurd hp hnew
        · exact hlasts
    · rintro ⟨he, hrest⟩ p hp
      rcases mem_cons.mp hp with rfl | hp
      · exact Or.inl ⟨rfl, he⟩
      · exact Or.inr (hrest p hp)

theorem rangeWrite_eq_iff (hs : Sorted m) (hdistinct : (entries.map Prod.fst).Nodup) :
    rangeWrite m entries = entries.foldl (fun m kv => SortedMap.set kv.1 kv.2 m) m ↔
      (∀ x ∈ m, x.1 ∉ entries.map Prod.fst → ∀ e ∈ entries, ¬ Begins e.1 x.1) ∧
        entries.Pairwise fun a b => ¬ Begins b.1 a.1 := by
  rw [← lasts_iff_pairwise hdistinct]
  have hmem := SortedMap.mem_foldl_set entries hs hdistinct
  constructor
  · intro heq
    constructor
    · intro x hx hnot
      have hx' : x ∈ rangeWrite m entries := by
        rw [heq, hmem]
        exact Or.inr ⟨hx, hnot⟩
      rcases (mem_rangeWrite entries hs x).mp hx' with hlasts | ⟨-, hspared⟩
      · exact absurd (mem_map_of_mem (mem_of_lasts hlasts)) hnot
      · exact hspared
    · intro p hp
      have hp' : p ∈ rangeWrite m entries := by
        rw [heq, hmem]
        exact Or.inl hp
      rcases (mem_rangeWrite entries hs p).mp hp' with hlasts | ⟨-, hspared⟩
      · exact hlasts
      · exact absurd (begins_refl p.1) (hspared p hp)
  · rintro ⟨hspared, hlasts⟩
    refine eq_of_mem_iff (sorted_rangeWrite entries hs) (SortedMap.sorted_foldl_set entries hs) ?_
    intro p
    rw [mem_rangeWrite entries hs, hmem]
    constructor
    · rintro (h | ⟨hp, hnot⟩)
      · exact Or.inl (mem_of_lasts h)
      · refine Or.inr ⟨hp, fun hkey => ?_⟩
        obtain ⟨e, he, hkey⟩ := mem_map.mp hkey
        exact hnot e he (hkey ▸ begins_refl e.1)
    · rintro (h | ⟨hp, hnot⟩)
      · exact Or.inl (hlasts p h)
      · exact Or.inr ⟨hp, hspared p hp hnot⟩

theorem rangeDel_fst (keys : List Key) :
    ∀ m : Entries, (rangeDel m keys).1 = m.filter fun kv => ∀ k ∈ keys, ¬ Begins k kv.1 := by
  induction keys with
  | nil => intro m; simp [rangeDel]
  | cons k rest ih =>
    intro m
    show (rangeDel (spared k m) rest).1 = _
    rw [ih]
    unfold spared
    rw [filter_filter]
    refine filter_congr fun kv _ => ?_
    simp [Bool.and_comm]

theorem rangeDel_fst_eq_iff {keys : List Key} :
    (rangeDel m keys).1 = m.filter (fun kv => kv.1 ∉ keys) ↔
      ∀ x ∈ m, x.1 ∉ keys → ∀ k ∈ keys, ¬ Begins k x.1 := by
  rw [rangeDel_fst]
  constructor
  · intro heq x hx hnot
    have hmem : x ∈ m.filter fun kv => kv.1 ∉ keys := by simpa using ⟨hx, hnot⟩
    rw [← heq, mem_filter] at hmem
    simpa using hmem.2
  · intro h
    refine filter_congr fun x hx => ?_
    rw [decide_eq_decide]
    exact ⟨fun hnot hkey => hnot x.1 hkey (begins_refl x.1), h x hx⟩

theorem begins_of_rangeDel (keys : List Key) :
    ∀ {m : Entries} {f : Key → Slot}, (rangeDel m keys).2 = keys.map f →
      ∀ k ∈ keys, (f k).rc = 0 → ∃ x ∈ m, Begins k x.1 := by
  induction keys with
  | nil => intro m f _ k hk; cases hk
  | cons k rest ih =>
    intro m f heq j hj hrc
    have hcons : kvStatusCb (begun k m).length :: (rangeDel (spared k m) rest).2 =
        f k :: rest.map f := heq
    rw [List.cons.injEq] at hcons
    rcases mem_cons.mp hj with rfl | hj
    · rw [← hcons.1] at hrc
      cases hb : begun j m with
      | nil =>
        rw [hb] at hrc
        exact absurd hrc (by decide)
      | cons x rest => exact ⟨x, mem_begun.mp (hb ▸ mem_cons_self)⟩
    · obtain ⟨x, hx, hbegins⟩ := ih hcons.2 j hj hrc
      exact ⟨x, (mem_spared.mp hx).1, hbegins⟩

theorem rangeDel_snd_eq_iff (keys : List Key) :
    ∀ {m : Entries}, (∀ x ∈ m, x.1 ∉ keys → ∀ k ∈ keys, ¬ Begins k x.1) →
      ((rangeDel m keys).2 = keys.map (named m) ↔
        keys.Pairwise fun a b => Begins a b → b ∉ m.map Prod.fst) := by
  induction keys with
  | nil => intro m _; simp [rangeDel]
  | cons k rest ih =>
    intro m hstate
    have hspared : ∀ x ∈ spared k m, x.1 ∉ rest → ∀ j ∈ rest, ¬ Begins j x.1 := by
      intro x hx hnot j hj
      refine hstate x (mem_spared.mp hx).1 (fun h => ?_) j (mem_cons_of_mem _ hj)
      rcases mem_cons.mp h with h | h
      · exact ne_of_mem_spared x hx h
      · exact hnot h
    -- what the other keys are answered, when the first of them takes none of these with it
    have hnamed : (∀ j ∈ rest, Begins k j → j ∉ m.map Prod.fst) → ∀ j ∈ rest,
        (j ∈ (spared k m).map Prod.fst ↔ j ∈ m.map Prod.fst) := by
      intro hhead j hj
      simp only [mem_map, mem_spared]
      constructor
      · rintro ⟨x, ⟨hx, -⟩, rfl⟩
        exact ⟨x, hx, rfl⟩
      · rintro ⟨x, hx, rfl⟩
        exact ⟨x, ⟨hx, fun hbegins => hhead x.1 hj hbegins (mem_map_of_mem hx)⟩, rfl⟩
    have htail : (∀ j ∈ rest, Begins k j → j ∉ m.map Prod.fst) →
        (rest.map (named m) = rest.map (named (spared k m)) ∧
          ((rest.Pairwise fun a b => Begins a b → b ∉ (spared k m).map Prod.fst) ↔
            rest.Pairwise fun a b => Begins a b → b ∉ m.map Prod.fst)) := by
      intro hhead
      constructor
      · refine map_congr_left fun j hj => ?_
        unfold named
        rw [if_congr (hnamed hhead j hj) rfl rfl]
      · refine List.Pairwise.iff_of_mem fun {a b} _ hb => ?_
        rw [hnamed hhead b hb]
    show kvStatusCb (begun k m).length :: (rangeDel (spared k m) rest).2 =
      named m k :: rest.map (named m) ↔ _
    rw [List.cons.injEq, pairwise_cons]
    constructor
    · rintro ⟨-, hrest⟩
      have hhead : ∀ j ∈ rest, Begins k j → j ∉ m.map Prod.fst := by
        intro j hj hbegins hmem
        have hrc : (named m j).rc = 0 := by
          unfold named
          rw [if_pos hmem]
        obtain ⟨x, hx, hjx⟩ := begins_of_rangeDel rest hrest j hj hrc
        exact (mem_spared.mp hx).2 (hbegins.trans hjx)
      refine ⟨hhead, (htail hhead).2.mp ((ih hspared).mp ?_)⟩
      rw [hrest, (htail hhead).1]
    · rintro ⟨hhead, hrest⟩
      refine ⟨?_, ?_⟩
      · by_cases hk : k ∈ m.map Prod.fst
        · obtain ⟨x, hx, rfl⟩ := mem_map.mp hk
          have hpos : 0 < (begun x.1 m).length :=
            length_pos_of_mem (mem_begun.mpr ⟨hx, begins_refl x.1⟩)
          unfold kvStatusCb named
          rw [if_pos hpos, if_pos hk]
        · have hnil : begun k m = [] := by
            refine begun_eq_nil.mpr fun x hx hbegins => ?_
            by_cases hx' : x.1 ∈ k :: rest
            · rcases mem_cons.mp hx' with heq | hx'
              · exact hk (heq ▸ mem_map_of_mem hx)
              · exact hhead x.1 hx' hbegins (mem_map_of_mem hx)
            · exact hstate x hx hx' k mem_cons_self hbegins
          unfold kvStatusCb named
          rw [hnil, if_neg (by simp), if_neg hk]
      · rw [(htail hhead).1]
        exact (ih hspared).mpr ((htail hhead).2.mpr hrest)

/-- **The index does to an operation what the map does exactly when the keys keep apart.** -/
theorem rangeStep_eq_iff (hs : Sorted m) (op : Op) :
    rangeStep m op = mapStep m op ↔ Apart m op := by
  cases op with
  | read keys distinct =>
    show (m, keys.map (rangeLookup m)) = (m, keys.map (lookup m)) ↔ _
    rw [Prod.mk.injEq, and_iff_right rfl, map_inj_left]
    exact forall₂_congr fun k _ => rangeLookup_eq_iff hs
  | write entries distinct =>
    show (rangeWrite m entries, _) = (_, _) ↔ _
    rw [Prod.mk.injEq, and_iff_left rfl]
    exact rangeWrite_eq_iff hs distinct
  | del keys distinct =>
    show rangeDel m keys = _ ↔ _
    rw [Prod.ext_iff]
    show (rangeDel m keys).1 = m.filter (fun kv => kv.1 ∉ keys) ∧
      (rangeDel m keys).2 = keys.map (named m) ↔ _
    rw [rangeDel_fst_eq_iff]
    exact and_congr_right fun hstate => rangeDel_snd_eq_iff keys hstate
  | next start cnt => exact iff_of_true rfl trivial

/-- A run on the index is one on the map as long as the keys keep apart, and no longer. -/
theorem run_eq_iff (ops : List Op) :
    ∀ {m : Entries}, Sorted m →
      (run (stored m) ops = some ((mapRun m ops).map fun r => (stored r.1, r.2)) ↔
        ApartOver m ops) := by
  induction ops with
  | nil =>
    intro m _
    exact iff_of_true rfl trivial
  | cons op ops ih =>
    intro m hs
    rw [ApartOver, ← rangeStep_eq_iff hs, ← ih (sorted_mapStep hs op)]
    have hrun : run (stored m) (op :: ops) =
        (run (stored (rangeStep m op).1) ops).map fun rest =>
          (stored (rangeStep m op).1, (rangeStep m op).2) :: rest := by
      show (step (stored m) op).bind _ = _
      rw [step_stored hs]
      cases hrest : run (stored (rangeStep m op).1) ops with
      | none | some rest => simp [hrest]
    rw [hrun]
    constructor
    · intro h
      obtain ⟨rest, hrest, hcons⟩ := Option.map_eq_some_iff.mp h
      rw [mapRun, map_cons, List.cons.injEq, Prod.mk.injEq] at hcons
      have hstep : rangeStep m op = mapStep m op :=
        Prod.ext (stored_injective hcons.1.1) hcons.1.2
      rw [hstep] at hrest
      exact ⟨hstep, hrest.trans (congrArg some hcons.2)⟩
    · rintro ⟨hstep, hrest⟩
      rw [hstep, hrest]
      rfl

/-- **The index in Redis behaves like an ordered map exactly as long as no key gets in the way of
a longer one.** -/
theorem behaves_iff (ops : List Op) : BehavesAsMap ops ↔ ApartOver [] ops :=
  run_eq_iff ops List.Pairwise.nil

/-- A key that is written takes the keys it begins with it, and is found in their place.
The first write of `photo.jpg` is gone after that of `photo`. -/
theorem not_behavesAsMap_photo :
    ¬ BehavesAsMap
        [.write [(Key.ofString "photo.jpg" (by decide) (by decide), ⟨ascii "1", by decide⟩)]
            (nodup_singleton _),
          .write [(Key.ofString "photo" (by decide) (by decide), ⟨ascii "2", by decide⟩)]
            (nodup_singleton _),
          .read [Key.ofString "photo.jpg" (by decide) (by decide)] (nodup_singleton _)] := by
  decide

end

end CortxS3.S3FakeMotrRedisKvs

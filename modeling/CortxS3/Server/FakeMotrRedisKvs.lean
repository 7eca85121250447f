/-
The index kept in Redis (`server/s3_fake_motr_redis_kvs.cc`).

An index is one sorted set.  Redis keeps sets of byte strings, not pairs, so a key and its value
are packed into one element, the key first and a NUL behind each of the two.  All scores are 0, so
that the elements stand in the order of their bytes, and `ZRANGEBYLEX` and `ZREMRANGEBYLEX` select
those between two borders.

The commands of an operation are answered in the order in which they are sent, and none of them
fails.  An operation on no key at all sends no command.
-/
import CortxS3.Basic

namespace CortxS3

/-! ### Sorted sets -/

namespace Redis

/-- Whether an element lies on or behind the lower border. -/
def fromMin (border element : Bytes) : Bool :=
  match border with
  | 91 :: b => decide (b ≤ element)   -- [
  | 40 :: b => decide (b < element)   -- (
  | [45] => true                      -- -
  | _ => false

/-- Whether an element lies on or before the upper border. -/
def toMax (border element : Bytes) : Bool :=
  match border with
  | 91 :: b => decide (element ≤ b)   -- [
  | 40 :: b => decide (element < b)   -- (
  | [43] => true                      -- +
  | _ => false

/-- `ZRANGEBYLEX set min max LIMIT 0 limit` -/
def zRangeByLex (set : List Bytes) (min max : Bytes) (limit : Nat) : List Bytes :=
  (set.filter fun e => fromMin min e && toMax max e).take limit

/-- `ZREMRANGEBYLEX set min max`, with the number of elements removed. -/
def zRemRangeByLex (set : List Bytes) (min max : Bytes) : List Bytes × Nat :=
  (set.filter fun e => !(fromMin min e && toMax max e),
    (set.filter fun e => fromMin min e && toMax max e).length)

/-- `ZADD set 0 element`, with the number of elements added. -/
def zAdd (set : List Bytes) (element : Bytes) : List Bytes × Nat :=
  if set.contains element then (set, 0) else (set.orderedInsert (· ≤ ·) element, 1)

end Redis

namespace S3FakeMotrRedisKvs

/-! ### Keys and values -/

/-- A key of an index: a string that is not empty.  0xff does not occur in UTF-8. -/
structure Key where
  bytes : Bytes
  named : bytes ≠ []
  nulFree : NulFree bytes
  utf8 : 0xff ∉ bytes
  deriving DecidableEq

theorem Key.bytes_injective : Function.Injective Key.bytes := by
  intro k k' h
  cases k
  cases k'
  congr

/-- Keys stand in the order of their bytes. -/
instance instLinearOrderKey : LinearOrder Key := LinearOrder.lift' Key.bytes Key.bytes_injective

/-- No byte of a character is 0xff, and only that of NUL is 0. -/
theorem of_mem_utf8EncodeChar {c : Char} {b : UInt8} (h : b ∈ String.utf8EncodeChar c) :
    b.toNat < 0xff ∧ (b.toNat = 0 → c.val.toNat = 0) := by
  unfold String.utf8EncodeChar at h
  obtain ⟨v, hv⟩ : ∃ v, v = c.val.toNat := ⟨_, rfl⟩
  simp only [← hv] at h
  rw [← hv]
  split at h
  · simp only [List.mem_singleton] at h
    subst h
    rw [UInt8.toNat_ofNat']
    omega
  · split at h
    · simp only [List.mem_cons, List.not_mem_nil, or_false] at h
      rcases h with rfl | rfl <;> rw [UInt8.toNat_ofNat'] <;> omega
    · split at h
      · simp only [List.mem_cons, List.not_mem_nil, or_false] at h
        rcases h with rfl | rfl | rfl <;> rw [UInt8.toNat_ofNat'] <;> omega
      · simp only [List.mem_cons, List.not_mem_nil, or_false] at h
        rcases h with rfl | rfl | rfl | rfl <;> rw [UInt8.toNat_ofNat'] <;> omega

/-- A text that is not empty and has no NUL is a key. -/
def Key.ofString (s : String) (named : s.toList ≠ []) (nulFree : Char.ofNat 0 ∉ s.toList) :
    Key where
  bytes := s.toList.flatMap String.utf8EncodeChar
  named := by
    intro h
    obtain ⟨c, hc⟩ := List.exists_mem_of_ne_nil _ named
    have hnil := List.flatMap_eq_nil_iff.mp h c hc
    have hpos := String.length_utf8EncodeChar c
    rw [hnil] at hpos
    exact absurd hpos (ne_of_lt (Char.utf8Size_pos c))
  nulFree := by
    intro h
    obtain ⟨c, hc, hb⟩ := List.mem_flatMap.mp h
    have hzero : c.val.toNat = 0 := (of_mem_utf8EncodeChar hb).2 rfl
    have hnul : c = Char.ofNat 0 := Char.ext (UInt32.toNat_inj.mp hzero)
    exact nulFree (hnul ▸ hc)
  utf8 := by
    intro h
    obtain ⟨c, -, hb⟩ := List.mem_flatMap.mp h
    exact absurd (of_mem_utf8EncodeChar hb).1 (by decide)

/-- A value of an index. -/
structure Value where
  bytes : Bytes
  nulFree : NulFree bytes
  deriving DecidableEq

/-- The code of a failed lookup. -/
def ENOENT : Int := 2

/-! ### Packing -/

def parseKey (kv : Bytes) : Bytes := cStr kv

/-- The value stands behind the key and its NUL. -/
def parseVal (kv : Bytes) : Option Bytes :=
  if (cStr kv).length + 1 < kv.length then some (kv.drop ((cStr kv).length + 1)) else none

def prepareRkey (key val : Bytes) : Bytes := key ++ 0 :: (val ++ [0])

def prepareBorder (str : Bytes) (incl z : Bool) : Bytes :=
  (if incl then 91 else 40) :: (str ++ if z then [0xff] else [])

/-! ### Operations -/

/-- One place of the vectors of an operation: its return code and what the reply has put in. -/
structure Slot where
  rc : Int
  key : Option Bytes := none
  value : Option Bytes := none
  deriving DecidableEq

/-- What was not found. -/
def Slot.missing : Slot := { rc := -ENOENT }

/-- The `kv_read_cb` of one key.  An element without a value would be the end of the server. -/
def kvReadCb : List Bytes → Option Slot
  | [e] => (parseVal e).map fun val => { rc := 0, value := some (cStr val) }
  | _ => some .missing

def kvRead (set : List Bytes) (keys : List Key) : Option (List Slot) :=
  keys.mapM fun k =>
    kvReadCb (Redis.zRangeByLex set (prepareBorder k.bytes true false)
      (prepareBorder k.bytes false true) 1)

/-- The loop of `kv_next_cb` over the elements, while there are places left. -/
def fillSlots : Nat → List Bytes → Option (List Slot)
  | 0, _ => some []
  | cnt, [] => some (List.replicate cnt .missing)
  | cnt + 1, e :: rest => do
    let val ← parseVal e
    let slots ← fillSlots cnt rest
    return { rc := 0, key := some (parseKey e), value := some (cStr val) } :: slots

/-- The start key is left out when it comes first. -/
def skipFirst (skip : Option Key) (reply : List Bytes) : List Bytes :=
  match skip, reply with
  | some k, e :: rest => if parseKey e = k.bytes then rest else e :: rest
  | _, _ => reply

def kvNextCb (skip : Option Key) (cnt : Nat) (reply : List Bytes) : Option (List Slot) :=
  fillSlots cnt (skipFirst skip reply)

/-- One element more is asked for with a start key, as the start key may be among them. -/
def kvNext (set : List Bytes) (start : Option Key) (cnt : Nat) : Option (List Slot) :=
  match start with
  | some k =>
    kvNextCb start cnt
      (Redis.zRangeByLex set (prepareBorder k.bytes false false) [43] (cnt + 1))
  | none => kvNextCb none cnt (Redis.zRangeByLex set [45] [43] cnt)

def kvStatusCb (reply : Nat) : Slot := { rc := if 0 < reply then 0 else -ENOENT }

def deleteKey (set : List Bytes) (k : Key) : List Bytes × Nat :=
  Redis.zRemRangeByLex set (prepareBorder k.bytes true false) (prepareBorder k.bytes false true)

/-- What is stored under a key is removed before it is written. -/
def kvWrite (set : List Bytes) : List (Key × Value) → List Bytes × List Slot
  | [] => (set, [])
  | (k, v) :: rest =>
    let added := Redis.zAdd (deleteKey set k).1 (prepareRkey k.bytes v.bytes)
    let (set', slots) := kvWrite added.1 rest
    (set', kvStatusCb added.2 :: slots)

def kvDel (set : List Bytes) : List Key → List Bytes × List Slot
  | [] => (set, [])
  | k :: rest =>
    let removed := deleteKey set k
    let (set', slots) := kvDel removed.1 rest
    (set', kvStatusCb removed.2 :: slots)

/-- An operation on the index.  The keys of one operation are different ones. -/
inductive Op where
  | read (keys : List Key) (distinct : keys.Nodup)
  | write (entries : List (Key × Value)) (distinct : (entries.map Prod.fst).Nodup)
  | del (keys : List Key) (distinct : keys.Nodup)
  | next (start : Option Key) (cnt : Nat)

/-- The index and the answer behind an operation; `none` when the server ends with it. -/
def step (set : List Bytes) : Op → Option (List Bytes × List Slot)
  | .read keys _ => (kvRead set keys).map fun slots => (set, slots)
  | .write entries _ => some (kvWrite set entries)
  | .del keys _ => some (kvDel set keys)
  | .next start cnt => (kvNext set start cnt).map fun slots => (set, slots)

/-- What there is behind each operation of a run. -/
def run (set : List Bytes) : List Op → Option (List (List Bytes × List Slot))
  | [] => some []
  | op :: ops => do
    let (set', slots) ← step set op
    let rest ← run set' ops
    return (set', slots) :: rest

end S3FakeMotrRedisKvs

end CortxS3

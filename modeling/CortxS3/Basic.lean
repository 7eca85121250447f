/-
What the rest of the development is written over: bytes, byte strings and the machine words
of the S3 server.

The server is C++ and the auth server is Java, and both pass text around as it came off the
wire.  So a string is the list of its bytes.  Two strings compare as `std::string` compares
them, byte by byte, and that is the order in which the key-value store hands its keys back.

A `size_t` is a `Nat` here, and every operation of the source that can wrap is written with
its own name: `subSize` is the subtraction that wraps and `toSize` is the conversion that
keeps the low 64 bits.
-/
import Mathlib

namespace CortxS3

/-- A `std::string`, or the bytes of a buffer. -/
abbrev Bytes := List UInt8

/-- A string literal of the source. -/
def ascii (s : String) : Bytes :=
  s.toList.map fun c => UInt8.ofNat c.toNat

instance byteOrder : LinearOrder UInt8 where
  le_refl a := UInt8.le_refl a
  le_trans _ _ _ := UInt8.le_trans
  le_antisymm _ _ := UInt8.le_antisymm
  le_total a b := UInt8.le_total a b
  lt_iff_le_not_ge a b := by
    rw [UInt8.not_le]
    exact ⟨fun h => ⟨UInt8.le_of_lt h, h⟩, fun h => h.2⟩
  toDecidableLE := inferInstance
  toDecidableEq := inferInstance
  toDecidableLT := inferInstance

/-! ### Machine words -/

/-- How many values a `size_t` has. -/
def sizeMod : Nat := 2 ^ 64

/-- An integer stored in a `size_t`. -/
def toSize (z : Int) : Nat := (z % (sizeMod : Int)).toNat

/-- The subtraction of two `size_t`s, which wraps. -/
def subSize (a b : Nat) : Nat := toSize ((a : Int) - (b : Int))

theorem subSize_of_le {a b : Nat} (hb : b ≤ a) (ha : a < sizeMod) : subSize a b = a - b := by
  unfold subSize toSize
  have h : ((a : Int) - (b : Int)) = ((a - b : Nat) : Int) := by omega
  rw [h, ← Int.natCast_emod, Int.toNat_natCast, Nat.mod_eq_of_lt (by omega)]

theorem toSize_lt (z : Int) : toSize z < sizeMod := by
  unfold toSize
  have hpos : (0 : Int) < (sizeMod : Int) := by decide
  have h1 := Int.emod_nonneg z (Int.ne_of_gt hpos)
  have h2 := Int.emod_lt_of_pos z hpos
  omega

theorem toSize_natCast {n : Nat} (h : n < sizeMod) : toSize n = n := by
  unfold toSize
  rw [← Int.natCast_emod, Int.toNat_natCast, Nat.mod_eq_of_lt h]

/-- A `size_t` stored in an `unsigned int`. -/
def toUInt (n : Nat) : Nat := n % 2 ^ 32

/-! ### Computations that may fail -/

/-- A sequence succeeds when both its parts do. -/
theorem bind_eq_ok {ε α β : Type} {x : Except ε α} {f : α → Except ε β} {b : β} :
    x >>= f = .ok b ↔ ∃ a, x = .ok a ∧ f a = .ok b := by
  cases x with
  | error e =>
    constructor
    · intro h
      cases h
    · rintro ⟨a, ha, _⟩
      cases ha
  | ok a =>
    constructor
    · intro h
      exact ⟨a, rfl, h⟩
    · rintro ⟨a', ha, h⟩
      cases ha
      exact h

/-- A traversal that succeeds has a result for each element. -/
theorem forall₂_of_mapM {α β : Type} {f : α → Option β} :
    ∀ {l : List α} {rs : List β}, l.mapM f = some rs → List.Forall₂ (fun a b => f a = some b) l rs := by
  intro l
  induction l with
  | nil =>
    intro rs h
    rw [List.mapM_nil] at h
    cases h
    exact .nil
  | cons a l ih =>
    intro rs h
    rw [List.mapM_cons] at h
    obtain ⟨b, hb, h⟩ := Option.bind_eq_some_iff.mp h
    obtain ⟨rest, hrest, h⟩ := Option.bind_eq_some_iff.mp h
    cases h
    exact .cons hb (ih hrest)

/-! ### C strings and letter case -/

/-- What `c_str()` hands on: the string up to its first NUL. -/
def cStr (s : Bytes) : Bytes := s.takeWhile (· != 0)

/-- A string a C function sees to its end. -/
def NulFree (s : Bytes) : Prop := 0 ∉ s

instance nulFreeDecidable (s : Bytes) : Decidable (NulFree s) :=
  inferInstanceAs (Decidable (0 ∉ s))

theorem nulFree_cStr (s : Bytes) : NulFree (cStr s) := by
  intro h
  have := List.mem_takeWhile_imp h
  simp at this

theorem cStr_of_nulFree {s : Bytes} (h : NulFree s) : cStr s = s := by
  unfold cStr
  rw [List.takeWhile_eq_self_iff]
  intro c hc
  rw [bne_iff_ne]
  intro hz
  exact h (hz ▸ hc)

/-- `tolower` in the C locale. -/
def toLower (c : UInt8) : UInt8 := if 65 ≤ c && c ≤ 90 then c + 32 else c

/-- A name as it is compared when letter case does not count. -/
def foldCase (s : Bytes) : Bytes := s.map toLower

/-- `strcasecmp` finds no difference. -/
def sameIgnoringCase (a b : Bytes) : Bool := foldCase (cStr a) == foldCase (cStr b)

/-! ### Searching a string -/

/-- `s.find(pat)`: where `pat` first occurs. -/
def find (pat : Bytes) : Bytes → Option Nat
  | [] => if pat = [] then some 0 else none
  | c :: s => if pat.isPrefixOf (c :: s) then some 0 else (find pat s).map (· + 1)

/-- `s.find(pat, pos)`. -/
def findFrom (pat s : Bytes) (pos : Nat) : Option Nat :=
  if pos ≤ s.length then (find pat (s.drop pos)).map (· + pos) else none

theorem find_eq_zero_iff (pat s : Bytes) : find pat s = some 0 ↔ pat.isPrefixOf s = true := by
  cases s with
  | nil => cases pat <;> simp [find]
  | cons c s =>
    unfold find
    by_cases h : pat.isPrefixOf (c :: s) = true
    · simp [h]
    · rw [if_neg h]
      constructor
      · intro hz
        obtain ⟨i, _, hi⟩ := Option.map_eq_some_iff.mp hz
        omega
      · intro hp
        exact absurd hp h

/-- The pieces between the separators, empty ones included. -/
def pieces (sep : UInt8) : Bytes → List Bytes
  | [] => [[]]
  | c :: rest =>
    if c = sep then [] :: pieces sep rest
    else match pieces sep rest with
      | [] => [[c]]
      | p :: ps => (c :: p) :: ps

/-! ### The number in a string -/

/-- What `isspace` accepts in the C locale. -/
def isSpace (c : UInt8) : Bool := c == 32 || (9 ≤ c && c ≤ 13)

/-- The value of a hexadecimal digit. -/
def hexDigit (c : UInt8) : Option Nat :=
  if 48 ≤ c && c ≤ 57 then some (c.toNat - 48)
  else if 97 ≤ c && c ≤ 102 then some (c.toNat - 87)
  else if 65 ≤ c && c ≤ 70 then some (c.toNat - 55)
  else none

/-- The longest run of hexadecimal digits at the front, as a number. -/
def hexValue : Bytes → Nat → Nat
  | [], acc => acc
  | c :: rest, acc =>
    match hexDigit c with
    | some d => hexValue rest (acc * 16 + d)
    | none => acc

/-- The optional `0x` that `strtol` skips.  It is a prefix only when a digit follows it;
otherwise the `0` alone is the number. -/
def dropHexMark : Bytes → Bytes
  | 48 :: x :: d :: rest =>
    if (x == 120 || x == 88) && (hexDigit d).isSome then d :: rest else 48 :: x :: d :: rest
  | s => s

/-- `strtol(s, NULL, 16)`: blanks, a sign, an optional `0x`, and as many digits as there are.
A value outside `long` is clamped to its nearest end. -/
def strtol16 (s : Bytes) : Int :=
  match s.dropWhile isSpace with
  | 45 :: rest => max (-(2 ^ 63 : Int)) (-(hexValue (dropHexMark rest) 0 : Int))
  | 43 :: rest => min (2 ^ 63 - 1 : Int) (hexValue (dropHexMark rest) 0 : Int)
  | rest => min (2 ^ 63 - 1 : Int) (hexValue (dropHexMark rest) 0 : Int)

/-- The longest run of decimal digits at the front, as a number. -/
def decimalValue : Bytes → Nat → Nat
  | [], acc => acc
  | c :: rest, acc => if 48 ≤ c && c ≤ 57 then decimalValue rest (acc * 10 + (c.toNat - 48)) else acc

/-- The integer at the front of a string in base 10, as `strtol` finds it, before it is made to
fit a type.  There is none when no digit follows blanks and sign. -/
def leadingInt (s : Bytes) : Option Int :=
  let digits (d : Bytes) : Option Nat :=
    match d with
    | c :: _ => if 48 ≤ c && c ≤ 57 then some (decimalValue d 0) else none
    | [] => none
  match s.dropWhile isSpace with
  | 45 :: rest => (digits rest).map fun n => -(n : Int)
  | 43 :: rest => (digits rest).map fun n => (n : Int)
  | rest => (digits rest).map fun n => (n : Int)

/-- The low 32 bits of an integer, as an `int`. -/
def toInt32 (z : Int) : Int := (z + 2 ^ 31) % 2 ^ 32 - 2 ^ 31

/-- `atoi`: the conversion to `long`, cut to an `int`. -/
def atoi (s : Bytes) : Int :=
  match leadingInt (cStr s) with
  | some z => toInt32 (max (-(2 ^ 63 : Int)) (min (2 ^ 63 - 1 : Int) z))
  | none => 0

/-- `S3CommonUtilities::stoi`. -/
def stoi (s : Bytes) : Option Int :=
  (leadingInt (cStr s)).filter fun z => -(2 ^ 31 : Int) ≤ z && z < 2 ^ 31

/-- The digits of a number in base 10, the lowest first. -/
def lowDigits : Nat → Nat → Bytes
  | 0, _ => []
  | fuel + 1, n => UInt8.ofNat (48 + n % 10) :: if n < 10 then [] else lowDigits fuel (n / 10)

/-- `std::to_string`. -/
def decimal (n : Nat) : Bytes := (lowDigits (n + 1) n).reverse

example : strtol16 (ascii "0x1aG") = 26 := by decide
example : strtol16 (ascii " -10") = -16 := by decide
example : decimal 120 = ascii "120" := by decide
example : stoi (ascii "12|") = some 12 := by decide

end CortxS3

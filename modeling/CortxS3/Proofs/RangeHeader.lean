/-
What a GET makes of its header `Range`.

`IsByteRange` are the three forms of a single range as they are written in a request, and `Spells`
is what the server takes for a range: these forms with blanks around the unit and around the
numbers, a header of blanks alone, and any list with a comma.  What they ask for is
`RangeSpec.offsets`.

The numbers are read by `atol`, which stops at the largest `long`.  An object is not that long, so
the largest `long` lies behind its end as the number itself does.
-/
import CortxS3.Server.RangeHeader
import CortxS3.Proofs.Base64
import CortxS3.Proofs.Decimal

namespace CortxS3

open List

namespace S3GetObjectAction

open S3CommonUtilities

/-! ### Ranges -/

/-- What a header asks for. -/
inductive RangeSpec where
  | nothing
  | several
  | between (first last : Nat)
  | since (first : Nat)
  | suffix (length : Nat)
deriving DecidableEq

/-- The offsets of a range that can be satisfied; without a range nothing changes. -/
def RangeSpec.offsets (contentLength : Nat) (r : ReadOptions) : RangeSpec → Option ReadOptions
  | .nothing => some r
  | .several => some ⟨0, contentLength - 1⟩
  | .between first last =>
    if first ≤ last ∧ first < contentLength then some ⟨first, min last (contentLength - 1)⟩
    else none
  | .since first => if first < contentLength then some ⟨first, contentLength - 1⟩ else none
  | .suffix length =>
    if 0 < length then some ⟨contentLength - length, contentLength - 1⟩ else none

/-- Digits, and the number they are. -/
structure Spelled (s : Bytes) (n : Nat) : Prop where
  nonempty : s ≠ []
  digits : ∀ c ∈ s, IsDigit c
  value : decimalValue s 0 = n

/-- A single range, as it is written. -/
inductive IsByteRange : Bytes → RangeSpec → Prop
  | between {a b : Bytes} {first last : Nat} (ha : Spelled a first) (hb : Spelled b last) :
      IsByteRange (ascii "bytes=" ++ a ++ ascii "-" ++ b) (.between first last)
  | since {a : Bytes} {first : Nat} (ha : Spelled a first) :
      IsByteRange (ascii "bytes=" ++ a ++ ascii "-") (.since first)
  | suffix {b : Bytes} {length : Nat} (hb : Spelled b length) :
      IsByteRange (ascii "bytes=" ++ ascii "-" ++ b) (.suffix length)

def Blank (s : Bytes) : Prop := ∀ c ∈ s, isSpace c = true

/-- A word with blanks around it. -/
def Padded (s word : Bytes) : Prop :=
  ∃ before after, s = before ++ word ++ after ∧ Blank before ∧ Blank after

/-- A number with blanks around it. -/
def Number (s : Bytes) (n : Nat) : Prop := ∃ digits, Padded s digits ∧ Spelled digits n

/-- What the server takes for a range. -/
inductive Spells : Bytes → RangeSpec → Prop
  | nothing {s : Bytes} (h : Blank s) : Spells s .nothing
  | several {unit s : Bytes} (hunit : Padded unit (ascii "bytes")) (h : 44 ∈ s) :
      Spells (unit ++ 61 :: s) .several
  | between {unit a b : Bytes} {first last : Nat} (hunit : Padded unit (ascii "bytes"))
      (ha : Number a first) (hb : Number b last) :
      Spells (unit ++ 61 :: (a ++ 45 :: b)) (.between first last)
  | since {unit a b : Bytes} {first : Nat} (hunit : Padded unit (ascii "bytes"))
      (ha : Number a first) (hb : Blank b) :
      Spells (unit ++ 61 :: (a ++ 45 :: b)) (.since first)
  | suffix {unit a b : Bytes} {length : Nat} (hunit : Padded unit (ascii "bytes"))
      (ha : Blank a) (hb : Number b length) :
      Spells (unit ++ 61 :: (a ++ 45 :: b)) (.suffix length)

/-- The server reads a header as a range, up to what it makes of a suffix that is longer than the
object. -/
structure ReadsRange (contentLength : Nat) (r : ReadOptions) (s : Bytes) : Prop where
  accepted : ∀ o, validateRangeHeaderAndSetReadOptions contentLength r s = (true, o) →
    ∃ spec, Spells s spec ∧ spec.offsets contentLength r = some o
  satisfiable : ∀ spec o, Spells s spec → (∀ n, spec = .suffix n → n ≤ contentLength) →
    spec.offsets contentLength r = some o →
      validateRangeHeaderAndSetReadOptions contentLength r s = (true, o)
  inside : ∀ o, validateRangeHeaderAndSetReadOptions contentLength r s = (true, o) →
    o.firstByteOffsetToRead ≤ o.lastByteOffsetToRead ∧ o.lastByteOffsetToRead < contentLength

/-! ### Trimming -/

section

variable {s t word : Bytes} {c : UInt8} {n : Nat}

theorem Padded.mem (h : Padded s word) (hc : c ∈ s) : isSpace c = true ∨ c ∈ word := by
  obtain ⟨before, after, rfl, hbefore, hafter⟩ := h
  rcases mem_append.mp hc with hc | hc
  · rcases mem_append.mp hc with hc | hc
    · exact Or.inl (hbefore c hc)
    · exact Or.inr hc
  · exact Or.inl (hafter c hc)

theorem dropWhile_blank (hs : Blank s) : (s ++ t).dropWhile isSpace = t.dropWhile isSpace := by
  induction s with
  | nil => rfl
  | cons c s ih =>
    rw [cons_append, dropWhile_cons_of_pos (hs c (by simp))]
    exact ih fun d hd => hs d (mem_cons_of_mem _ hd)

theorem dropWhile_of_not_isSpace (h : ∀ c ∈ s, isSpace c = false) : s.dropWhile isSpace = s := by
  cases s with
  | nil => rfl
  | cons c s => exact dropWhile_cons_of_neg (by simp [h c (by simp)])

theorem dropWhile_append_word (hword : ∀ c ∈ word, isSpace c = false) (hne : word ≠ [])
    (hs : Blank s) : (s ++ word ++ t).dropWhile isSpace = word ++ t := by
  rw [append_assoc, dropWhile_blank hs]
  cases word with
  | nil => exact absurd rfl hne
  | cons c word => exact dropWhile_cons_of_neg (by simp [hword c (by simp)])

theorem dropWhile_of_blank (hs : Blank s) : s.dropWhile isSpace = [] := by
  have h := dropWhile_blank (t := []) hs
  rwa [append_nil] at h

theorem Blank.reverse (h : Blank s) : Blank s.reverse := fun c hc => h c (mem_reverse.mp hc)

theorem trim_of_blank (h : Blank s) : trim s = [] := by
  unfold trim ltrim rtrim
  rw [dropWhile_of_blank h]
  rfl

theorem trim_of_padded (hword : ∀ c ∈ word, isSpace c = false) (h : Padded s word) :
    trim s = word := by
  obtain ⟨before, after, rfl, hbefore, hafter⟩ := h
  rcases eq_or_ne word [] with rfl | hne
  · refine trim_of_blank fun c hc => ?_
    rw [append_nil] at hc
    rcases mem_append.mp hc with hc | hc
    · exact hbefore c hc
    · exact hafter c hc
  · unfold trim ltrim rtrim
    rw [dropWhile_append_word hword hne hbefore, reverse_append,
      dropWhile_blank hafter.reverse, dropWhile_of_not_isSpace, reverse_reverse]
    exact fun c hc => hword c (mem_reverse.mp hc)

theorem blank_takeWhile (s : Bytes) : Blank (s.takeWhile isSpace) :=
  fun _ hc => mem_takeWhile_imp hc

theorem padded_trim (s : Bytes) : Padded s (trim s) := by
  obtain ⟨l, hl⟩ : ∃ l, l = s.dropWhile isSpace := ⟨_, rfl⟩
  refine ⟨s.takeWhile isSpace, (l.reverse.takeWhile isSpace).reverse, ?_, blank_takeWhile s,
    (blank_takeWhile _).reverse⟩
  have htail : trim s ++ (l.reverse.takeWhile isSpace).reverse = l := by
    unfold trim ltrim rtrim
    rw [← hl, ← reverse_append, takeWhile_append_dropWhile, reverse_reverse]
  rw [append_assoc, htail, hl, takeWhile_append_dropWhile]

/-! ### Numbers -/

theorem Spelled.trim (h : Spelled word n) (hs : Padded s word) : trim s = word :=
  trim_of_padded (fun c hc => (h.digits c hc).not_isSpace) hs

theorem stringHasOnlyDigits_iff : stringHasOnlyDigits s = true ↔ ∀ c ∈ s, IsDigit c := by
  unfold stringHasOnlyDigits
  rw [all_eq_true]
  refine forall₂_congr fun c _ => ?_
  rw [Bool.and_eq_true, decide_eq_true_iff, decide_eq_true_iff]
  rfl

/-- The largest `long`. -/
def maxLong : Nat := 2 ^ 63 - 1

theorem atol_of_spelled (h : Spelled s n) : atol s = (min n maxLong : Nat) := by
  have hnul : NulFree s := by
    intro hz
    exact absurd (h.digits 0 hz).1 (by decide)
  have hlead : leadingInt s = some (n : Int) := by
    have hnosp : s.dropWhile isSpace = s :=
      dropWhile_of_not_isSpace fun c hc => (h.digits c hc).not_isSpace
    cases s with
    | nil => exact absurd rfl h.nonempty
    | cons c rest =>
      obtain ⟨hlo, hhi⟩ := h.digits c (by simp)
      have h45 : c ≠ 45 := by
        rintro rfl
        exact absurd hlo (by decide)
      have h43 : c ≠ 43 := by
        rintro rfl
        exact absurd hlo (by decide)
      unfold leadingInt
      rw [hnosp]
      simp [h45, h43, hlo, hhi, h.value]
  unfold atol
  rw [cStr_of_nulFree hnul, hlead]
  show max (-(2 ^ 63 : Int)) (min (2 ^ 63 - 1 : Int) (n : Int)) = _
  unfold maxLong
  omega

theorem toSize_atol (h : Spelled s n) : toSize (atol s) = min n maxLong := by
  rw [atol_of_spelled h]
  refine toSize_natCast ?_
  unfold maxLong sizeMod
  omega

end

/-! ### The header in its parts -/

section

variable {contentLength : Nat} {r : ReadOptions} {unit f l s : Bytes}

theorem mem_bytes {c : UInt8} (h : c ∈ ascii "bytes") : c ≠ 61 ∧ isSpace c = false := by
  have hall : ∀ c ∈ ascii "bytes", c ≠ 61 ∧ isSpace c = false := by decide +kernel
  exact hall c h

theorem not_isSpace_sign : isSpace 61 = false ∧ isSpace 44 = false ∧ isSpace 45 = false := by
  decide

theorem equalSign_notMem (hunit : Padded unit (ascii "bytes")) : (61 : UInt8) ∉ unit := by
  intro h
  rcases hunit.mem h with hsp | hin
  · rw [not_isSpace_sign.1] at hsp
    cases hsp
  · exact (mem_bytes hin).1 rfl

theorem validate_unit (hunit : Padded unit (ascii "bytes")) (hs : s ≠ []) :
    validateRangeHeaderAndSetReadOptions contentLength r (unit ++ 61 :: s) =
      setReadOptions contentLength r s := by
  have hblank : (unit ++ 61 :: s).all isSpace = false := by
    rw [all_append, all_cons, not_isSpace_sign.1, Bool.false_and, Bool.and_false]
  have hpos : find (ascii "=") (unit ++ 61 :: s) = some unit.length :=
    find_singleton_append s (equalSign_notMem hunit)
  have htake : (unit ++ 61 :: s).take unit.length = unit := take_left
  have hdrop : (unit ++ 61 :: s).drop (unit.length + 1) = s := by
    rw [← drop_drop, drop_left]
    rfl
  have htrim : trim unit = ascii "bytes" := trim_of_padded (fun c hc => (mem_bytes hc).2) hunit
  unfold validateRangeHeaderAndSetReadOptions
  rw [hblank, if_neg Bool.false_ne_true, hpos]
  simp only [htake, hdrop, htrim, ne_eq, not_true_eq_false, if_false, hs]

theorem find_comma_eq_none (h : (44 : UInt8) ∉ s) : (find (ascii ",") s).isSome = false := by
  have hnone : find (ascii ",") s = none := find_singleton_eq_none.mpr h
  rw [hnone]
  rfl

theorem setReadOptions_single (hf : (45 : UInt8) ∉ f) (hcomma : (44 : UInt8) ∉ f ++ 45 :: l) :
    setReadOptions contentLength r (f ++ 45 :: l) =
      if (trim f = [] ∧ trim l = []) ∨ (trim f ≠ [] ∧ stringHasOnlyDigits (trim f) = false) ∨
          (trim l ≠ [] ∧ stringHasOnlyDigits (trim l) = false) then (false, r)
      else clipAndCheck contentLength (offsetsOf contentLength (trim f) (trim l)) := by
  have hpos : find (ascii "-") (f ++ 45 :: l) = some f.length := find_singleton_append l hf
  have htake : (f ++ 45 :: l).take f.length = f := take_left
  have hdrop : (f ++ 45 :: l).drop (f.length + 1) = l := by
    rw [← drop_drop, drop_left]
    rfl
  unfold setReadOptions
  rw [find_comma_eq_none hcomma, if_neg Bool.false_ne_true, hpos]
  simp only [htake, hdrop]

theorem signs_notMem (h : Blank s ∨ ∃ n, Number s n) : (44 : UInt8) ∉ s ∧ (45 : UInt8) ∉ s := by
  have hmem : ∀ c ∈ s, isSpace c = true ∨ IsDigit c := by
    intro c hc
    rcases h with hblank | ⟨n, digits, hpad, hspell⟩
    · exact Or.inl (hblank c hc)
    · exact (hpad.mem hc).imp id (hspell.digits c)
  constructor
  · intro hc
    rcases hmem _ hc with hsp | hd
    · rw [not_isSpace_sign.2.1] at hsp
      cases hsp
    · exact absurd hd.1 (by decide)
  · intro hc
    rcases hmem _ hc with hsp | hd
    · rw [not_isSpace_sign.2.2] at hsp
      cases hsp
    · exact absurd hd.1 (by decide)

theorem stringHasOnlyDigits_trim (h : Blank s ∨ ∃ n, Number s n) :
    stringHasOnlyDigits (trim s) = true := by
  rcases h with hblank | ⟨n, digits, hpad, hspell⟩
  · rw [trim_of_blank hblank]
    rfl
  · rw [hspell.trim hpad]
    exact stringHasOnlyDigits_iff.mpr hspell.digits

theorem validate_range (hunit : Padded unit (ascii "bytes")) (hf : Blank f ∨ ∃ n, Number f n)
    (hl : Blank l ∨ ∃ n, Number l n) (hne : ¬ (trim f = [] ∧ trim l = [])) :
    validateRangeHeaderAndSetReadOptions contentLength r (unit ++ 61 :: (f ++ 45 :: l)) =
      clipAndCheck contentLength (offsetsOf contentLength (trim f) (trim l)) := by
  have hcomma : (44 : UInt8) ∉ f ++ 45 :: l := by
    rw [mem_append, mem_cons, not_or, not_or]
    exact ⟨(signs_notMem hf).1, by decide, (signs_notMem hl).1⟩
  rw [validate_unit hunit (by simp), setReadOptions_single (signs_notMem hf).2 hcomma,
    stringHasOnlyDigits_trim hf, stringHasOnlyDigits_trim hl, if_neg]
  simpa using hne

/-! ### The offsets of each form -/

theorem Number.trim_ne_nil {n : Nat} (h : Number s n) : trim s ≠ [] := by
  obtain ⟨digits, hpad, hspell⟩ := h
  rw [hspell.trim hpad]
  exact hspell.nonempty

theorem Number.toSize_atol {n : Nat} (h : Number s n) : toSize (atol (trim s)) = min n maxLong := by
  obtain ⟨digits, hpad, hspell⟩ := h
  rw [hspell.trim hpad]
  exact S3GetObjectAction.toSize_atol hspell

theorem Number.atol {n : Nat} (h : Number s n) : atol (trim s) = (min n maxLong : Nat) := by
  obtain ⟨digits, hpad, hspell⟩ := h
  rw [hspell.trim hpad]
  exact atol_of_spelled hspell

/-- An object is no longer than the largest `long`. -/
structure IsLength (contentLength : Nat) : Prop where
  pos : 0 < contentLength
  le : contentLength ≤ maxLong

section

variable (h : IsLength contentLength)

include h

theorem subSize_one : subSize contentLength 1 = contentLength - 1 := by
  have hle := h.le
  unfold maxLong at hle
  exact subSize_of_le h.pos (by unfold sizeMod; omega)

theorem clipAndCheck_eq (first last : Nat) :
    clipAndCheck contentLength ⟨first, last⟩ =
      if first < contentLength ∧ first ≤ last then (true, ⟨first, min last (contentLength - 1)⟩)
      else (false, ⟨first, min last (contentLength - 1)⟩) := by
  have hpos := h.pos
  have hclip : (if subSize contentLength 1 < last then
      ReadOptions.mk first (subSize contentLength 1) else ⟨first, last⟩) =
      ⟨first, min last (contentLength - 1)⟩ := by
    rw [subSize_one h]
    split
    · rw [Nat.min_eq_right (by omega)]
    · rw [Nat.min_eq_left (by omega)]
  unfold clipAndCheck
  simp only [hclip]
  by_cases hin : first < contentLength ∧ first ≤ last
  · rw [if_pos hin, if_neg (by omega)]
  · rw [if_neg hin, if_pos (by omega)]

section

variable (hunit : Padded unit (ascii "bytes"))

include hunit

theorem validate_between {first last : Nat} (hf : Number f first) (hl : Number l last) :
    ∃ o, validateRangeHeaderAndSetReadOptions contentLength r (unit ++ 61 :: (f ++ 45 :: l)) =
      match (RangeSpec.between first last).offsets contentLength r with
      | some o => (true, o)
      | none => (false, o) := by
  have hpos := h.pos
  have hle := h.le
  rw [validate_range hunit (Or.inr ⟨_, hf⟩) (Or.inr ⟨_, hl⟩) fun hb => hf.trim_ne_nil hb.1]
  unfold offsetsOf
  rw [if_neg hf.trim_ne_nil, if_neg hl.trim_ne_nil, hf.toSize_atol, hl.toSize_atol,
    clipAndCheck_eq h]
  refine ⟨⟨min first maxLong, min (min last maxLong) (contentLength - 1)⟩, ?_⟩
  simp only [RangeSpec.offsets]
  by_cases hin : first ≤ last ∧ first < contentLength
  · have hfirst : min first maxLong = first := Nat.min_eq_left (by omega)
    have hlast : min (min last maxLong) (contentLength - 1) = min last (contentLength - 1) := by
      omega
    rw [if_pos hin, if_pos (by omega), hfirst, hlast]
  · rw [if_neg hin, if_neg (by omega)]

theorem validate_since {first : Nat} (hf : Number f first) (hl : Blank l) :
    ∃ o, validateRangeHeaderAndSetReadOptions contentLength r (unit ++ 61 :: (f ++ 45 :: l)) =
      match (RangeSpec.since first).offsets contentLength r with
      | some o => (true, o)
      | none => (false, o) := by
  have hpos := h.pos
  have hle := h.le
  rw [validate_range hunit (Or.inr ⟨_, hf⟩) (Or.inl hl) fun hb => hf.trim_ne_nil hb.1]
  unfold offsetsOf
  rw [if_neg hf.trim_ne_nil, if_pos (trim_of_blank hl), hf.toSize_atol, subSize_one h,
    clipAndCheck_eq h]
  refine ⟨⟨min first maxLong, min (contentLength - 1) (contentLength - 1)⟩, ?_⟩
  simp only [RangeSpec.offsets]
  by_cases hin : first < contentLength
  · have hfirst : min first maxLong = first := Nat.min_eq_left (by omega)
    rw [if_pos hin, if_pos (by omega), hfirst, Nat.min_self]
  · rw [if_neg hin, if_neg (by omega)]

theorem validate_suffix
    {length : Nat} (hf : Blank f) (hl : Number l length) (hlen : length ≤ contentLength) :
    ∃ o, validateRangeHeaderAndSetReadOptions contentLength r (unit ++ 61 :: (f ++ 45 :: l)) =
      match (RangeSpec.suffix length).offsets contentLength r with
      | some o => (true, o)
      | none => (false, o) := by
  have hpos := h.pos
  have hle := h.le
  rw [validate_range hunit (Or.inl hf) (Or.inr ⟨_, hl⟩) fun hb => hl.trim_ne_nil hb.2]
  have hfirst : toSize (contentLength - CortxS3.atol (trim l)) =
      contentLength - length := by
    rw [hl.atol, Nat.min_eq_left (hlen.trans hle), ← Nat.cast_sub hlen]
    refine toSize_natCast ?_
    unfold maxLong at hle
    unfold sizeMod
    omega
  unfold offsetsOf
  rw [if_pos (trim_of_blank hf), hfirst, subSize_one h, clipAndCheck_eq h]
  refine ⟨⟨contentLength - length, min (contentLength - 1) (contentLength - 1)⟩, ?_⟩
  simp only [RangeSpec.offsets]
  by_cases hin : 0 < length
  · rw [if_pos hin, if_pos (by omega), Nat.min_self]
  · rw [if_neg hin, if_neg (by omega)]

/-- A suffix that is longer than the object begins, by wrapping, behind it, unless the object is as
long as a number can be. -/
theorem validate_longSuffix
    {length : Nat} (hf : Blank f) (hl : Number l length) (hlen : contentLength < length)
    {o : ReadOptions} (ho : validateRangeHeaderAndSetReadOptions contentLength r
      (unit ++ 61 :: (f ++ 45 :: l)) = (true, o)) : o = ⟨0, contentLength - 1⟩ := by
  have hpos := h.pos
  have hle := h.le
  obtain ⟨m, hm⟩ : ∃ m, m = min length maxLong := ⟨_, rfl⟩
  have hcl : contentLength ≤ m := by omega
  have hmax : m ≤ 2 ^ 63 - 1 := by
    unfold maxLong at hm
    omega
  have hfirst : toSize (contentLength - CortxS3.atol (trim l)) = 0 ∨
      contentLength ≤ toSize (contentLength - CortxS3.atol (trim l)) := by
    rw [hl.atol, ← hm]
    unfold toSize sizeMod
    omega
  rw [validate_range hunit (Or.inl hf) (Or.inr ⟨_, hl⟩) fun hb => hl.trim_ne_nil hb.2] at ho
  unfold offsetsOf at ho
  rw [if_pos (trim_of_blank hf), subSize_one h, clipAndCheck_eq h] at ho
  split at ho
  · rename_i hin
    rw [← (Prod.mk.inj ho).2, Nat.min_self, hfirst.resolve_right (by omega)]
  · cases ho

theorem validate_several (hs : (44 : UInt8) ∈ s) :
    validateRangeHeaderAndSetReadOptions contentLength r (unit ++ 61 :: s) =
      (true, ⟨0, contentLength - 1⟩) := by
  have hsome : (find (ascii ",") s).isSome = true := by
    rw [Option.isSome_iff_ne_none]
    exact fun hnone => find_singleton_eq_none.mp hnone hs
  rw [validate_unit hunit (ne_nil_of_mem hs)]
  unfold setReadOptions
  rw [hsome, if_pos rfl, subSize_one h]

end

end

/-! ### What is accepted -/

theorem blank_of_trim (h : trim s = []) : Blank s := by
  obtain ⟨before, after, hs, hbefore, hafter⟩ := padded_trim s
  rw [h, append_nil] at hs
  intro c hc
  rw [hs] at hc
  rcases mem_append.mp hc with hc | hc
  · exact hbefore c hc
  · exact hafter c hc

theorem number_of_trim (hne : trim s ≠ []) (hd : stringHasOnlyDigits (trim s) = true) :
    Number s (decimalValue (trim s) 0) :=
  ⟨trim s, padded_trim s, hne, stringHasOnlyDigits_iff.mp hd, rfl⟩

theorem spells_of_accepted (h : (validateRangeHeaderAndSetReadOptions contentLength r s).1 = true) :
    ∃ spec, Spells s spec := by
  unfold validateRangeHeaderAndSetReadOptions at h
  split at h
  · rename_i hblank
    exact ⟨.nothing, .nothing fun c hc => all_eq_true.mp hblank c hc⟩
  · split at h
    · cases h
    · rename_i pos hpos
      obtain ⟨unit, t, rfl, -, htake, hdrop⟩ := split_of_find (c := 61) hpos
      rw [htake, hdrop] at h
      dsimp only at h
      have hunit : Padded unit (ascii "bytes") := by
        by_cases he : trim unit = ascii "bytes"
        · rw [← he]
          exact padded_trim unit
        · rw [if_pos he] at h
          cases h
      split at h
      · cases h
      · split at h
        · cases h
        · unfold setReadOptions at h
          split at h
          · rename_i hcomma
            refine ⟨.several, .several hunit ?_⟩
            by_contra hnot
            rw [find_comma_eq_none hnot] at hcomma
            cases hcomma
          · split at h
            · cases h
            · rename_i pos' hpos'
              obtain ⟨f, l, rfl, -, htake', hdrop'⟩ := split_of_find (c := 45) hpos'
              rw [htake', hdrop'] at h
              dsimp only at h
              by_cases hf : trim f = []
              · by_cases hl : trim l = []
                · rw [if_pos (Or.inl ⟨hf, hl⟩)] at h
                  cases h
                · cases hd : stringHasOnlyDigits (trim l) with
                  | true =>
                    exact ⟨_, .suffix hunit (blank_of_trim hf) (number_of_trim hl hd)⟩
                  | false =>
                    rw [if_pos (Or.inr (Or.inr ⟨hl, hd⟩))] at h
                    cases h
              · cases hd : stringHasOnlyDigits (trim f) with
                | false =>
                  rw [if_pos (Or.inr (Or.inl ⟨hf, hd⟩))] at h
                  cases h
                | true =>
                  by_cases hl : trim l = []
                  · exact ⟨_, .since hunit (number_of_trim hf hd) (blank_of_trim hl)⟩
                  · cases hd' : stringHasOnlyDigits (trim l) with
                    | true =>
                      exact ⟨_, .between hunit (number_of_trim hf hd) (number_of_trim hl hd')⟩
                    | false =>
                      rw [if_pos (Or.inr (Or.inr ⟨hl, hd'⟩))] at h
                      cases h

theorem validate_of_spells (h : IsLength contentLength) {spec : RangeSpec} (hs : Spells s spec)
    (hlong : ∀ n, spec = .suffix n → n ≤ contentLength) :
    ∃ o, validateRangeHeaderAndSetReadOptions contentLength r s =
      match spec.offsets contentLength r with
      | some o => (true, o)
      | none => (false, o) := by
  cases hs with
  | nothing hblank =>
    refine ⟨r, ?_⟩
    have hall : s.all isSpace = true := all_eq_true.mpr hblank
    unfold validateRangeHeaderAndSetReadOptions
    rw [hall, if_pos rfl]
    rfl
  | several hunit hcomma => exact ⟨r, validate_several h hunit hcomma⟩
  | between hunit hf hl => exact validate_between h hunit hf hl
  | since hunit hf hl => exact validate_since h hunit hf hl
  | suffix hunit hf hl => exact validate_suffix h hunit hf hl (hlong _ rfl)

theorem offsets_inside (h : IsLength contentLength) {spec : RangeSpec} {o : ReadOptions}
    (hr : r.firstByteOffsetToRead ≤ r.lastByteOffsetToRead ∧
      r.lastByteOffsetToRead < contentLength)
    (ho : spec.offsets contentLength r = some o) :
    o.firstByteOffsetToRead ≤ o.lastByteOffsetToRead ∧ o.lastByteOffsetToRead < contentLength := by
  have hpos := h.pos
  cases spec with
  | nothing =>
    obtain rfl := Option.some.inj ho
    exact hr
  | several =>
    obtain rfl := Option.some.inj ho
    exact ⟨Nat.zero_le _, Nat.sub_lt hpos Nat.one_pos⟩
  | between first last =>
    simp only [RangeSpec.offsets] at ho
    split at ho
    · obtain rfl := Option.some.inj ho
      dsimp only
      omega
    · cases ho
  | since first =>
    simp only [RangeSpec.offsets] at ho
    split at ho
    · obtain rfl := Option.some.inj ho
      dsimp only
      omega
    · cases ho
  | suffix length =>
    simp only [RangeSpec.offsets] at ho
    split at ho
    · obtain rfl := Option.some.inj ho
      dsimp only
      omega
    · cases ho

/-- **A header is accepted exactly when it spells a range that can be satisfied, and the offsets
are then those of the range.** -/
theorem readsRange (h : IsLength contentLength) (r : ReadOptions)
    (hr : r.firstByteOffsetToRead ≤ r.lastByteOffsetToRead ∧
      r.lastByteOffsetToRead < contentLength) (s : Bytes) : ReadsRange contentLength r s := by
  have haccepted : ∀ o, validateRangeHeaderAndSetReadOptions contentLength r s = (true, o) →
      ∃ spec, Spells s spec ∧ spec.offsets contentLength r = some o := by
    intro o ho
    obtain ⟨spec, hspec⟩ := spells_of_accepted (congrArg Prod.fst ho)
    refine ⟨spec, hspec, ?_⟩
    by_cases hlong : ∀ n, spec = .suffix n → n ≤ contentLength
    · obtain ⟨o', ho'⟩ := validate_of_spells (r := r) h hspec hlong
      rw [ho] at ho'
      cases hoff : spec.offsets contentLength r with
      | none =>
        rw [hoff] at ho'
        cases ho'
      | some o₁ =>
        rw [hoff] at ho'
        exact congrArg some (Prod.mk.inj ho').2.symm
    · push Not at hlong
      obtain ⟨n, rfl, hlt⟩ := hlong
      cases hspec with
      | suffix hunit hf hl =>
        rw [validate_longSuffix h hunit hf hl hlt ho]
        simp only [RangeSpec.offsets]
        rw [if_pos (by omega), Nat.sub_eq_zero_of_le hlt.le]
  refine ⟨haccepted, fun spec o hspec hlong hoff => ?_, fun o ho => ?_⟩
  · obtain ⟨o', ho'⟩ := validate_of_spells (r := r) h hspec hlong
    rwa [hoff] at ho'
  · obtain ⟨spec, -, hoff⟩ := haccepted o ho
    exact offsets_inside h hr hoff

theorem readsRange_suffix : ReadsRange 8000 ⟨0, 7999⟩ (ascii "bytes = - 500") :=
  readsRange ⟨by decide, by decide⟩ ⟨0, 7999⟩ (by decide) (ascii "bytes = - 500")

/-- A list of ranges is accepted, which is no single range. -/
theorem accepts_several :
    validateRangeHeaderAndSetReadOptions 8000 ⟨0, 7999⟩ (ascii "bytes=2-400,600-800") =
        (true, ⟨0, 7999⟩) ∧
      ∀ spec, ¬ IsByteRange (ascii "bytes=2-400,600-800") spec := by
  refine ⟨by decide, fun spec hspec => ?_⟩
  obtain ⟨s, hs⟩ : ∃ s, s = ascii "bytes=2-400,600-800" := ⟨_, rfl⟩
  have hcomma : (44 : UInt8) ∈ s := by
    rw [hs]
    decide
  have hfree : ∀ c ∈ s, c ∈ ascii "bytes=-" ∨ IsDigit c := by
    rw [← hs] at hspec
    clear hs hcomma
    intro c hc
    cases hspec with
    | between ha hb =>
      simp only [mem_append] at hc
      rcases hc with ((hc | hc) | hc) | hc
      · exact Or.inl (by revert c; decide +kernel)
      · exact Or.inr (ha.digits c hc)
      · exact Or.inl (by revert c; decide +kernel)
      · exact Or.inr (hb.digits c hc)
    | since ha =>
      simp only [mem_append] at hc
      rcases hc with (hc | hc) | hc
      · exact Or.inl (by revert c; decide +kernel)
      · exact Or.inr (ha.digits c hc)
      · exact Or.inl (by revert c; decide +kernel)
    | suffix hb =>
      simp only [mem_append] at hc
      rcases hc with (hc | hc) | hc
      · exact Or.inl (by revert c; decide +kernel)
      · exact Or.inl (by revert c; decide +kernel)
      · exact Or.inr (hb.digits c hc)
  rcases hfree 44 hcomma with h | h
  · exact absurd h (by decide +kernel)
  · exact absurd h.1 (by decide)

end

end S3GetObjectAction

end CortxS3

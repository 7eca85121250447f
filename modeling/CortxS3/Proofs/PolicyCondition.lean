/-
Which conditions mean what their operators say.

An operator compares the text of a request with the values of the condition.  What it means is
said once for all operators: some value stands in a relation to the text (`Stands`), or none does,
or the text is absent.  The code has functions for some of the relations and takes the opposite of
these for the others.  Where the text is no number, where a value cannot be read, and where there
is more than one value, the opposite of a relation is another one.
-/
import CortxS3.Auth.PolicyCondition
import CortxS3.Proofs.PolicyUtil

namespace CortxS3

open Option (bind_eq_bind bind_some isSome_iff_exists isSome_some map_some some.injEq)
open List

/-- The text is there and stands in the relation to one of the values. -/
def Stands (R : JavaString → JavaString → Prop) (values : List JavaString)
    (value : Option JavaString) : Prop :=
  ∃ text, value = some text ∧ ∃ s ∈ values, R text s

section Operators

variable {R : JavaString → JavaString → Prop} {values : List JavaString} {value : Option JavaString}

theorem not_stands_none : ¬Stands R values none := by
  intro ⟨text, htext, _⟩
  exact absurd htext (by simp)

@[simp] theorem stands_some {text : JavaString} :
    Stands R values (some text) ↔ ∃ s ∈ values, R text s := by
  unfold Stands
  simp

theorem Stands.isSome (h : Stands R values value) : value.isSome = true := by
  obtain ⟨text, htext, _⟩ := h
  rw [htext]
  rfl

variable {P : Prop} {b : Bool}

/-- A negated operator is right where the operator is. -/
theorem not_right_iff : ((!b) = true ↔ ¬P) ↔ (b = true ↔ P) := by
  cases b <;> simp

theorem ifExists_right_iff (hnone : value = none → (b = true ↔ P)) :
    ((if value.isSome then b else true) = true ↔ value = none ∨ P) ↔ (b = true ↔ P) := by
  cases value with
  | none => simpa using hnone rfl
  | some text => simp

theorem ifExists_opposite_iff (hnone : value = none → ¬P) :
    ((if value.isSome then !b else true) = true ↔ value = none ∨ P) ↔
      ((if value.isSome then !b else false) = true ↔ P) := by
  cases value with
  | none => simpa using hnone rfl
  | some text => simp

/-! All values are read before one is compared. -/

theorem mapM_of_all {f : JavaString → Option Int} :
    ∀ {l : List JavaString}, (∀ s ∈ l, (f s).isSome = true) → l.mapM f = some (l.filterMap f) := by
  intro l
  induction l with
  | nil => exact fun _ => rfl
  | cons s rest ih =>
    intro h
    obtain ⟨b, hb⟩ := isSome_iff_exists.mp (h s mem_cons_self)
    rw [mapM_cons, ih fun t ht => h t (mem_cons_of_mem _ ht), hb,
      filterMap_cons_some hb]
    rfl

theorem mapM_of_some {f : JavaString → Option Int} :
    ∀ {l : List JavaString} {r : List Int}, l.mapM f = some r → ∀ s ∈ l, (f s).isSome = true := by
  intro l
  induction l with
  | nil => simp
  | cons s rest ih =>
    intro r h t ht
    rw [mapM_cons] at h
    obtain ⟨b, hb, h⟩ := Option.bind_eq_some_iff.mp h
    obtain ⟨r', hr', -⟩ := Option.bind_eq_some_iff.mp h
    rcases mem_cons.mp ht with hts | htr
    · rw [hts, hb]
      rfl
    · exact ih hr' t htr

end Operators

/-! ### Strings -/

namespace StringCondition

variable (C : CharacterData) (values : List JavaString) (value : Option JavaString)

def SameIgnoringCase (text s : JavaString) : Prop := C.equalsIgnoreCase s text = true

def IsLike (text s : JavaString) : Prop := PolicyUtil.Replaces s text

/-- What the operators say. -/
def Meaning : StringComparisonType → Prop
  | .stringEquals => Stands (· = ·) values value
  | .stringEqualsIgnoreCase => Stands (SameIgnoringCase C) values value
  | .stringLike => Stands IsLike values value
  | .stringNotEquals => ¬Stands (· = ·) values value
  | .stringNotEqualsIgnoreCase => ¬Stands (SameIgnoringCase C) values value
  | .stringNotLike => ¬Stands IsLike values value
  | .stringEqualsIfExists => value = none ∨ Stands (· = ·) values value
  | .stringEqualsIgnoreCaseIfExists => value = none ∨ Stands (SameIgnoringCase C) values value
  | .stringLikeIfExists => value = none ∨ Stands IsLike values value
  | .stringNotEqualsIfExists => value = none ∨ ¬Stands (· = ·) values value
  | .stringNotEqualsIgnoreCaseIfExists =>
    value = none ∨ ¬Stands (SameIgnoringCase C) values value
  | .stringNotLikeIfExists => value = none ∨ ¬Stands IsLike values value

/-- The two operators that look into an absent text. -/
def Sound (type : StringComparisonType) : Prop :=
  value = none → type ≠ .stringLike ∧ type ≠ .stringNotLike

/-- The operator answers, and the answer is what it says. -/
def Right (type : StringComparisonType) : Prop :=
  ∃ b, compare C values value type = .ok b ∧ (b = true ↔ Meaning C values value type)

variable {C values value}

theorem stringEquals_eq_true : stringEquals values value = true ↔ Stands (· = ·) values value := by
  cases value with
  | none => simp [stringEquals, not_stands_none]
  | some text => simp [stringEquals]

theorem stringEqualsIgnoreCase_eq_true :
    stringEqualsIgnoreCase C values value = true ↔ Stands (SameIgnoringCase C) values value := by
  cases value with
  | none => simp [stringEqualsIgnoreCase, not_stands_none]
  | some text => simp [stringEqualsIgnoreCase, SameIgnoringCase]

theorem stringLike_some (text : JavaString) :
    ∃ b, stringLike values (some text) = .ok b ∧ (b = true ↔ Stands IsLike values (some text)) := by
  refine ⟨_, rfl, ?_⟩
  rw [any_eq_true, stands_some]
  simp only [PolicyUtil.isPatternMatching_eq_true, IsLike]

theorem right_iff_of_ok {b : Bool} {type : StringComparisonType}
    (htype : type ≠ .stringLike ∧ type ≠ .stringNotLike)
    (hcompare : compare C values value type = .ok b)
    (hb : b = true ↔ Meaning C values value type) :
    Right C values value type ↔ Sound value type :=
  iff_of_true ⟨b, hcompare, hb⟩ fun _ => htype

theorem ifExists_ok (b : Bool) :
    (if value.isSome then (.ok b : Except JavaException Bool) else .ok true) =
      .ok (if value.isSome then b else true) := by
  cases value <;> rfl

/-- **A String operator answers what it says, unless it looks into a text that is not there.** -/
theorem right_iff (hvalues : values ≠ []) (type : StringComparisonType) :
    Right C values value type ↔ Sound value type := by
  have hequals := @stringEquals_eq_true values value
  have hcase := @stringEqualsIgnoreCase_eq_true C values value
  cases type with
  | stringEquals => exact right_iff_of_ok (by decide) rfl hequals
  | stringEqualsIgnoreCase => exact right_iff_of_ok (by decide) rfl hcase
  | stringNotEquals => exact right_iff_of_ok (by decide) rfl (not_right_iff.mpr hequals)
  | stringNotEqualsIgnoreCase => exact right_iff_of_ok (by decide) rfl (not_right_iff.mpr hcase)
  | stringEqualsIfExists =>
    exact right_iff_of_ok (by decide) (ifExists_ok _)
      ((ifExists_right_iff fun _ => hequals).mpr hequals)
  | stringEqualsIgnoreCaseIfExists =>
    exact right_iff_of_ok (by decide) (ifExists_ok _) ((ifExists_right_iff fun _ => hcase).mpr hcase)
  | stringNotEqualsIfExists =>
    have hnot := not_right_iff.mpr hequals
    exact right_iff_of_ok (by decide) (ifExists_ok _) ((ifExists_right_iff fun _ => hnot).mpr hnot)
  | stringNotEqualsIgnoreCaseIfExists =>
    have hnot := not_right_iff.mpr hcase
    exact right_iff_of_ok (by decide) (ifExists_ok _) ((ifExists_right_iff fun _ => hnot).mpr hnot)
  | stringLike =>
    cases value with
    | none =>
      refine iff_of_false (fun ⟨b, hb, _⟩ => ?_) (fun h => (h rfl).1 rfl)
      rw [compare, stringLike, if_neg hvalues] at hb
      exact absurd hb (by simp)
    | some text =>
      obtain ⟨b, hb, hmeaning⟩ := @stringLike_some values text
      exact iff_of_true ⟨b, hb, hmeaning⟩ nofun
  | stringNotLike =>
    cases value with
    | none =>
      refine iff_of_false (fun ⟨b, hb, _⟩ => ?_) (fun h => (h rfl).2 rfl)
      rw [compare, stringLike, if_neg hvalues] at hb
      exact absurd hb (by simp [Except.map])
    | some text =>
      obtain ⟨b, hb, hmeaning⟩ := @stringLike_some values text
      refine iff_of_true ⟨!b, ?_, not_right_iff.mpr hmeaning⟩ nofun
      rw [compare, hb]
      rfl
  | stringLikeIfExists =>
    cases value with
    | none => exact right_iff_of_ok (by decide) rfl (by simp [Meaning])
    | some text =>
      obtain ⟨b, hb, hmeaning⟩ := @stringLike_some values text
      refine iff_of_true ⟨b, hb, ?_⟩ nofun
      rw [Meaning, hmeaning]
      simp
  | stringNotLikeIfExists =>
    cases value with
    | none => exact right_iff_of_ok (by decide) rfl (by simp [Meaning])
    | some text =>
      obtain ⟨b, hb, hmeaning⟩ := @stringLike_some values text
      refine iff_of_true ⟨!b, ?_, ?_⟩ nofun
      · rw [compare, hb]
        rfl
      · rw [Meaning, not_right_iff.mpr hmeaning]
        simp

end StringCondition

/-! ### Numbers -/

namespace NumericCondition

variable (C : CharacterData) (values : List JavaString) (value : Option JavaString)

def IsNumber (s : JavaString) : Prop := (JavaString.parseLong C s).isSome = true

/-- Text and value are numbers in the relation. -/
def Compares (R : Int → Int → Prop) (text s : JavaString) : Prop :=
  ∃ a b, headerNumber C text = some a ∧ JavaString.parseLong C s = some b ∧ R a b

/-- What the operators say. -/
def Meaning : NumericComparisonType → Prop
  | .numericEquals => Stands (Compares C (· = ·)) values value
  | .numericGreaterThan => Stands (Compares C (· > ·)) values value
  | .numericGreaterThanEquals => Stands (Compares C (· ≥ ·)) values value
  | .numericLessThan => Stands (Compares C (· < ·)) values value
  | .numericLessThanEquals => Stands (Compares C (· ≤ ·)) values value
  | .numericNotEquals => ¬Stands (Compares C (· = ·)) values value
  | .numericEqualsIfExists => value = none ∨ Stands (Compares C (· = ·)) values value
  | .numericGreaterThanIfExists => value = none ∨ Stands (Compares C (· > ·)) values value
  | .numericGreaterThanEqualsIfExists => value = none ∨ Stands (Compares C (· ≥ ·)) values value
  | .numericLessThanIfExists => value = none ∨ Stands (Compares C (· < ·)) values value
  | .numericLessThanEqualsIfExists => value = none ∨ Stands (Compares C (· ≤ ·)) values value
  | .numericNotEqualsIfExists => value = none ∨ ¬Stands (Compares C (· = ·)) values value

/-- The values in front of the first one that is no number. -/
def readable : List JavaString := values.takeWhile fun s => (JavaString.parseLong C s).isSome

/-- A hit counts if no value is unreadable. -/
def SoundEquals : Prop :=
  Stands (Compares C (· = ·)) values value → ∀ s ∈ values, IsNumber C s

/-- If there is a hit, there is one in front of the first unreadable value. -/
def SoundAny (R : Int → Int → Prop) : Prop :=
  Stands (Compares C R) values value → Stands (Compares C R) (readable C values) value

/-- A text that is there is a number, and all the values in front of the first unreadable one are
hits if and only if some value is one. -/
def SoundEvery (R : Int → Int → Prop) : Prop :=
  ∀ text, value = some text → (headerNumber C text).isSome = true ∧
    ((∀ s ∈ readable C values, Compares C R text s) ↔ ∃ s ∈ values, Compares C R text s)

def Sound : NumericComparisonType → Prop
  | .numericEquals | .numericNotEquals | .numericEqualsIfExists | .numericNotEqualsIfExists =>
    SoundEquals C values value
  | .numericGreaterThan | .numericGreaterThanIfExists => SoundAny C values value (· > ·)
  | .numericGreaterThanEquals | .numericGreaterThanEqualsIfExists =>
    SoundAny C values value (· ≥ ·)
  | .numericLessThan | .numericLessThanIfExists => SoundEvery C values value (· < ·)
  | .numericLessThanEquals | .numericLessThanEqualsIfExists => SoundEvery C values value (· ≤ ·)

variable {C values value}

/-! The loops. -/

theorem anyValue_eq_true {hit : Int → Bool} (l : List JavaString) :
    anyValue C hit l = true ↔
      ∃ s ∈ readable C l, ∃ b, JavaString.parseLong C s = some b ∧ hit b = true := by
  induction l with
  | nil => simp [anyValue, readable]
  | cons s rest ih =>
    unfold anyValue readable
    cases hs : JavaString.parseLong C s with
    | none => simp [hs]
    | some b =>
      rw [takeWhile_cons_of_pos (by simp [hs])]
      by_cases hhit : hit b = true
      · simp [hhit, hs]
      · simp only [hhit, Bool.false_eq_true, if_false, mem_cons, exists_eq_or_imp, hs,
          some.injEq, exists_eq_left', false_or]
        exact ih

theorem mem_readable {s : JavaString} (h : s ∈ readable C values) : s ∈ values ∧ IsNumber C s :=
  ⟨(takeWhile_sublist _).subset h,
    mem_takeWhile_imp (p := fun s => (JavaString.parseLong C s).isSome) h⟩

variable {R : Int → Int → Prop}

theorem any_iff {hit : Int → Int → Bool} (hhit : ∀ a b, hit a b = true ↔ R a b) :
    (match value.bind (headerNumber C) with
      | none => false
      | some longHeader => anyValue C (hit longHeader) values) = true ↔
      Stands (Compares C R) (readable C values) value := by
  cases value with
  | none => simp [not_stands_none]
  | some text =>
    rw [bind_some, stands_some]
    unfold Compares
    cases headerNumber C text with
    | none => simp
    | some a =>
      simp only [anyValue_eq_true, hhit, some.injEq, exists_eq_left', exists_and_left]

/-! The operators that the code has. -/

theorem equals_right_iff :
    (numericEquals C values value = true ↔ Stands (Compares C (· = ·)) values value) ↔
      SoundEquals C values value := by
  unfold SoundEquals numericEquals
  cases value with
  | none => simp [not_stands_none]
  | some text =>
    rw [bind_some, stands_some]
    cases ha : headerNumber C text with
    | none => simp [Compares, ha]
    | some a =>
      by_cases hall : ∀ s ∈ values, IsNumber C s
      · rw [mapM_of_all hall]
        refine iff_of_true ?_ (fun _ => hall)
        simp [Compares, ha, eq_comm]
      · have hnone : values.mapM (JavaString.parseLong C) = none := by
          cases h : values.mapM (JavaString.parseLong C) with
          | none => rfl
          | some r => exact absurd (mapM_of_some h) hall
        rw [hnone]
        simp only [Bool.false_eq_true, false_iff]
        exact ⟨fun hno h => absurd h hno, fun himp h => hall (himp h)⟩

theorem any_right_iff {b : Bool} (hb : b = true ↔ Stands (Compares C R) (readable C values) value) :
    (b = true ↔ Stands (Compares C R) values value) ↔ SoundAny C values value R := by
  unfold SoundAny
  rw [hb]
  refine ⟨fun h => h.mpr, fun h => ⟨?_, h⟩⟩
  intro ⟨text, htext, s, hs, hR⟩
  exact ⟨text, htext, s, (mem_readable hs).1, hR⟩

/-! The operators that are the opposite of another one. -/

theorem every_right_iff {b : Bool} {R' : Int → Int → Prop} (hnot : ∀ x y, ¬R' x y ↔ R x y)
    (hb : b = true ↔ Stands (Compares C R') (readable C values) value) :
    ((if value.isSome then !b else false) = true ↔ Stands (Compares C R) values value) ↔
      SoundEvery C values value R := by
  unfold SoundEvery
  cases value with
  | none => simp [not_stands_none]
  | some text =>
    simp only [isSome_some, if_true, some.injEq, forall_eq', stands_some] at hb ⊢
    rw [Bool.not_eq_true', ← Bool.not_eq_true, hb]
    cases ha : headerNumber C text with
    | none => simp [Compares, ha]
    | some a =>
      have hevery : (¬∃ s ∈ readable C values, Compares C R' text s) ↔
          ∀ s ∈ readable C values, Compares C R text s := by
        rw [not_exists]
        refine forall_congr' fun s => ?_
        rw [not_and]
        refine imp_congr_right fun hs => ?_
        obtain ⟨n, hn⟩ := isSome_iff_exists.mp (mem_readable hs).2
        simp [Compares, ha, hn, hnot]
      rw [hevery]
      simp

/-- **A Numeric operator says what the code computes exactly where no value is lost to an unreadable
one, no text to the opposite of a comparison, and "all" and "some" agree.** -/
theorem right_iff (type : NumericComparisonType) :
    (compare C values value type = true ↔ Meaning C values value type) ↔
      Sound C values value type := by
  have hequals := @equals_right_iff C values value
  have hgt : numericGreaterThan C values value = true ↔
      Stands (Compares C (· > ·)) (readable C values) value :=
    @any_iff C values value (· > ·) (fun a b => decide (a > b)) (by simp)
  have hge : numericGreaterThanEquals C values value = true ↔
      Stands (Compares C (· ≥ ·)) (readable C values) value :=
    @any_iff C values value (· ≥ ·) (fun a b => decide (a ≥ b)) (by simp)
  have hlt := every_right_iff (R := (· < ·)) (fun x y => not_le) hge
  have hle := every_right_iff (R := (· ≤ ·)) (fun x y => not_lt) hgt
  -- about an absent text each of these says no, and so does the code
  have hnone : ∀ {R : Int → Int → Prop}, value = none → ¬Stands (Compares C R) values value := by
    intro R h
    rw [h]
    exact not_stands_none
  have hnoneEquals : value = none →
      (numericEquals C values value = true ↔ Stands (Compares C (· = ·)) values value) := by
    intro h
    rw [h]
    exact iff_of_false (by simp [numericEquals]) not_stands_none
  cases type with
  | numericEquals => exact hequals
  | numericGreaterThan => exact any_right_iff hgt
  | numericGreaterThanEquals => exact any_right_iff hge
  | numericLessThan => exact hlt
  | numericLessThanEquals => exact hle
  | numericNotEquals => exact not_right_iff.trans hequals
  | numericEqualsIfExists => exact (ifExists_right_iff hnoneEquals).trans hequals
  | numericGreaterThanIfExists =>
    refine (ifExists_right_iff fun h => ?_).trans (any_right_iff hgt)
    exact iff_of_false (fun hb => absurd (hgt.mp hb).isSome (by simp [h])) (hnone h)
  | numericGreaterThanEqualsIfExists =>
    refine (ifExists_right_iff fun h => ?_).trans (any_right_iff hge)
    exact iff_of_false (fun hb => absurd (hge.mp hb).isSome (by simp [h])) (hnone h)
  | numericLessThanIfExists => exact (ifExists_opposite_iff hnone).trans hlt
  | numericLessThanEqualsIfExists => exact (ifExists_opposite_iff hnone).trans hle
  | numericNotEqualsIfExists =>
    refine (ifExists_right_iff fun h => not_right_iff.mpr (hnoneEquals h)).trans ?_
    exact not_right_iff.trans hequals

end NumericCondition

/-! ### Dates -/

namespace DateCondition

variable (C : CharacterData) (P : DateParsers) (conditionKey : JavaString)
  (values : List JavaString) (requestBody : BodyMap)

/-- The two keys that stand for the time of the request. -/
def IsTimeKey : Prop :=
  C.equalsIgnoreCase conditionKey (java "CurrentTime") = true ∨
    C.equalsIgnoreCase conditionKey (java "EpochTime") = true
deriving Decidable

/-- The text of the request that the condition is about. -/
def requestText : Option JavaString :=
  if IsTimeKey C conditionKey then requestDateString C requestBody
  else headerEntry C conditionKey requestBody

/-- The date in a value of the condition. -/
def valueDate (s : JavaString) : Option Int :=
  if C.equalsIgnoreCase conditionKey (java "CurrentTime") then parseCurrentTime P s
  else if C.equalsIgnoreCase conditionKey (java "EpochTime") then parseEpochTime P s
  else parseCurrentTime P s

/-- Text and value are dates in the relation. -/
def Compares (R : Int → Int → Prop) (text s : JavaString) : Prop :=
  ∃ a b, parseDate P (some text) = some a ∧ valueDate C P conditionKey s = some b ∧ R a b

/-- The text of the request stands in the relation to a value. -/
def Holds (R : Int → Int → Prop) : Prop :=
  Stands (Compares C P conditionKey R) values (requestText C conditionKey requestBody)

def Absent : Prop := requestText C conditionKey requestBody = none

/-- What the operators say. -/
def Meaning : DateComparisonType → Prop
  | .dateEquals => Holds C P conditionKey values requestBody (· = ·)
  | .dateGreaterThan => Holds C P conditionKey values requestBody (· > ·)
  | .dateGreaterThanEquals => Holds C P conditionKey values requestBody (· ≥ ·)
  | .dateLessThan => Holds C P conditionKey values requestBody (· < ·)
  | .dateLessThanEquals => Holds C P conditionKey values requestBody (· ≤ ·)
  | .dateNotEquals => ¬Holds C P conditionKey values requestBody (· = ·)
  | .dateEqualsIfExists =>
    Absent C conditionKey requestBody ∨ Holds C P conditionKey values requestBody (· = ·)
  | .dateGreaterThanIfExists =>
    Absent C conditionKey requestBody ∨ Holds C P conditionKey values requestBody (· > ·)
  | .dateGreaterThanEqualsIfExists =>
    Absent C conditionKey requestBody ∨ Holds C P conditionKey values requestBody (· ≥ ·)
  | .dateLessThanIfExists =>
    Absent C conditionKey requestBody ∨ Holds C P conditionKey values requestBody (· < ·)
  | .dateLessThanEqualsIfExists =>
    Absent C conditionKey requestBody ∨ Holds C P conditionKey values requestBody (· ≤ ·)
  | .dateNotEqualsIfExists =>
    Absent C conditionKey requestBody ∨ ¬Holds C P conditionKey values requestBody (· = ·)

/-- If the text of the request is a date, all values are hits if and only if some value is one. -/
def SoundEvery (R : Int → Int → Prop) : Prop :=
  ∀ text, requestText C conditionKey requestBody = some text →
    (parseDate P (some text)).isSome = true →
      ((∀ s ∈ values, Compares C P conditionKey R text s) ↔
        ∃ s ∈ values, Compares C P conditionKey R text s)

/-- The keys that stand for the time count as there even if they are not. -/
def SoundAbsence : Prop := Absent C conditionKey requestBody → ¬IsTimeKey C conditionKey

/-- When all values are dates. -/
def SoundDates : DateComparisonType → Prop
  | .dateEquals | .dateNotEquals | .dateGreaterThan | .dateLessThan | .dateNotEqualsIfExists =>
    True
  | .dateGreaterThanEquals => SoundEvery C P conditionKey values requestBody (· ≥ ·)
  | .dateLessThanEquals => SoundEvery C P conditionKey values requestBody (· ≤ ·)
  | .dateEqualsIfExists | .dateGreaterThanIfExists | .dateLessThanIfExists =>
    SoundAbsence C conditionKey requestBody
  | .dateGreaterThanEqualsIfExists =>
    SoundAbsence C conditionKey requestBody ∧
      SoundEvery C P conditionKey values requestBody (· ≥ ·)
  | .dateLessThanEqualsIfExists =>
    SoundAbsence C conditionKey requestBody ∧
      SoundEvery C P conditionKey values requestBody (· ≤ ·)

def AllDates : Prop := ∀ s ∈ values, (valueDate C P conditionKey s).isSome = true

/-- A value that is no date makes every operator say no. -/
def Sound (type : DateComparisonType) : Prop :=
  (AllDates C P conditionKey values → SoundDates C P conditionKey values requestBody type) ∧
    (¬AllDates C P conditionKey values → ¬Meaning C P conditionKey values requestBody type)

variable {C P conditionKey values requestBody}

/-! The loop over the values. -/

/-- What the loop finds out besides the dates. -/
def looked (C : CharacterData) (P : DateParsers) (conditionKey : JavaString)
    (requestBody : BodyMap) (dates : List Int) : Found where
  conditionDates := dates
  keyExsists := decide (IsTimeKey C conditionKey) ||
    (headerEntry C conditionKey requestBody).isSome
  isRequestDateHeaderRequired := decide (IsTimeKey C conditionKey)
  requestDate :=
    if IsTimeKey C conditionKey then none
    else parseDate P (headerEntry C conditionKey requestBody)

theorem valueStep_eq {found : Found} (s : JavaString)
    (hfound : found = {} ∨ ∃ dates, found = looked C P conditionKey requestBody dates) :
    valueStep C P conditionKey requestBody found s =
      (valueDate C P conditionKey s).map fun d =>
        looked C P conditionKey requestBody (found.conditionDates ++ [d]) := by
  unfold valueStep valueDate looked IsTimeKey
  by_cases hcurrent : C.equalsIgnoreCase conditionKey (java "CurrentTime") = true
  · rcases hfound with rfl | ⟨dates, rfl⟩
    · simp [hcurrent]
    · simp [hcurrent, looked, IsTimeKey]
  · by_cases hepoch : C.equalsIgnoreCase conditionKey (java "EpochTime") = true
    · rcases hfound with rfl | ⟨dates, rfl⟩
      · simp [hcurrent, hepoch]
      · simp [hcurrent, hepoch, looked, IsTimeKey]
    · cases hentry : headerEntry C conditionKey requestBody with
      | none =>
        rcases hfound with rfl | ⟨dates, rfl⟩
        · simp [hcurrent, hepoch, parseDate]
        · simp [hcurrent, hepoch, looked, IsTimeKey, hentry]
      | some headerVal =>
        rcases hfound with rfl | ⟨dates, rfl⟩
        · simp [hcurrent, hepoch]
        · simp [hcurrent, hepoch, looked, IsTimeKey, hentry]

theorem foldlM_looked :
    ∀ (l : List JavaString) (dates : List Int),
      l.foldlM (valueStep C P conditionKey requestBody)
          (looked C P conditionKey requestBody dates) =
        (l.mapM (valueDate C P conditionKey)).map fun ds =>
          looked C P conditionKey requestBody (dates ++ ds) := by
  intro l
  induction l with
  | nil =>
    intro dates
    simp
  | cons s rest ih =>
    intro dates
    rw [foldlM_cons, valueStep_eq s (Or.inr ⟨dates, rfl⟩), mapM_cons]
    cases hs : valueDate C P conditionKey s with
    | none => rfl
    | some d =>
      simp only [map_some, bind_eq_bind, bind_some]
      rw [ih]
      cases rest.mapM (valueDate C P conditionKey) with
      | none => rfl
      | some ds => simp [looked]

/-- The call, once the loop has run. -/
theorem isSatisfied_eq (hvalues : values ≠ []) (type : DateComparisonType) :
    isSatisfied C P type conditionKey values requestBody =
      match values.mapM (valueDate C P conditionKey) with
      | none => false
      | some dates =>
        compare dates
          (decide (IsTimeKey C conditionKey) || (requestText C conditionKey requestBody).isSome)
          (parseDate P (requestText C conditionKey requestBody)) type := by
  cases values with
  | nil => exact absurd rfl hvalues
  | cons s rest =>
    unfold isSatisfied
    rw [foldlM_cons, valueStep_eq s (Or.inl rfl), mapM_cons]
    cases hs : valueDate C P conditionKey s with
    | none => rfl
    | some d =>
      simp only [map_some, bind_eq_bind, bind_some]
      rw [foldlM_looked]
      cases rest.mapM (valueDate C P conditionKey) with
      | none => rfl
      | some ds =>
        by_cases htime : IsTimeKey C conditionKey
        · simp [looked, requestText, htime]
        · simp [looked, requestText, htime]

/-! The operators. -/

theorem any_iff {R : Int → Int → Prop} {hit : Int → Int → Bool} {dates : List Int}
    (hhit : ∀ a b, hit a b = true ↔ R a b)
    (hdates : values.mapM (valueDate C P conditionKey) = some dates) :
    (match parseDate P (requestText C conditionKey requestBody) with
      | none => false
      | some requestDate => dates.any (hit requestDate)) = true ↔
      Holds C P conditionKey values requestBody R := by
  unfold Holds
  have hall := mapM_of_some hdates
  rw [mapM_of_all hall, some.injEq] at hdates
  subst hdates
  cases requestText C conditionKey requestBody with
  | none => simp [parseDate, not_stands_none]
  | some text =>
    rw [stands_some]
    unfold Compares
    cases parseDate P (some text) with
    | none => simp
    | some a =>
      simp only [any_eq_true, mem_filterMap, hhit, some.injEq, exists_eq_left', exists_and_left]
      constructor
      · intro ⟨b, ⟨s, hs, hb⟩, hR⟩
        exact ⟨s, hs, b, hb, hR⟩
      · intro ⟨s, hs, b, hb, hR⟩
        exact ⟨b, ⟨s, hs, hb⟩, hR⟩

theorem every_right_iff {b : Bool} {R R' : Int → Int → Prop} (hnot : ∀ x y, ¬R' x y ↔ R x y)
    (hall : AllDates C P conditionKey values)
    (hb : b = true ↔ Holds C P conditionKey values requestBody R') :
    ((if (parseDate P (requestText C conditionKey requestBody)).isSome then !b else false) = true ↔
        Holds C P conditionKey values requestBody R) ↔
      SoundEvery C P conditionKey values requestBody R := by
  unfold SoundEvery
  unfold Holds at hb ⊢
  generalize requestText C conditionKey requestBody = value at hb ⊢
  cases value with
  | none => simp [parseDate, not_stands_none]
  | some text =>
    rw [stands_some] at hb ⊢
    cases ha : parseDate P (some text) with
    | none => simp [Compares, ha]
    | some a =>
      have hevery : (¬∃ s ∈ values, Compares C P conditionKey R' text s) ↔
          ∀ s ∈ values, Compares C P conditionKey R text s := by
        rw [not_exists]
        refine forall_congr' fun s => ?_
        rw [not_and]
        refine imp_congr_right fun hs => ?_
        obtain ⟨n, hn⟩ := isSome_iff_exists.mp (hall s hs)
        simp [Compares, ha, hn, hnot]
      simp only [isSome_some, if_true, some.injEq, forall_eq', ha, true_implies]
      rw [Bool.not_eq_true', ← Bool.not_eq_true, hb, hevery]

theorem ifExists_right_iff {b : Bool} {M : Prop}
    (habsent : Absent C conditionKey requestBody → b = false ∧ ¬M) :
    ((if decide (IsTimeKey C conditionKey) || (requestText C conditionKey requestBody).isSome
        then b else true) = true ↔ Absent C conditionKey requestBody ∨ M) ↔
      SoundAbsence C conditionKey requestBody ∧ (b = true ↔ M) := by
  unfold SoundAbsence
  by_cases hnone : Absent C conditionKey requestBody
  · obtain ⟨hb, hM⟩ := habsent hnone
    have htext : requestText C conditionKey requestBody = none := hnone
    by_cases htime : IsTimeKey C conditionKey
    · simp [htext, htime, hb, hnone]
    · simp [htext, htime, hb, hM, hnone]
  · have hsome : (requestText C conditionKey requestBody).isSome = true :=
      Option.isSome_iff_ne_none.mpr hnone
    simp [hsome, hnone]

theorem right_dates_iff (hvalues : values ≠ []) (hall : AllDates C P conditionKey values)
    (type : DateComparisonType) :
    (isSatisfied C P type conditionKey values requestBody = true ↔
        Meaning C P conditionKey values requestBody type) ↔
      SoundDates C P conditionKey values requestBody type := by
  have hdates := mapM_of_all hall
  rw [isSatisfied_eq hvalues, hdates]
  have heq := @any_iff C P conditionKey values requestBody (· = ·) (fun a b => a == b) _ (by simp) hdates
  have hgt := @any_iff C P conditionKey values requestBody (· > ·) (fun a b => decide (a > b)) _
    (by simp) hdates
  have hlt := @any_iff C P conditionKey values requestBody (· < ·) (fun a b => decide (a < b)) _
    (by simp) hdates
  have hge := every_right_iff (R := (· ≥ ·)) (fun x y => not_lt) hall hlt
  have hle := every_right_iff (R := (· ≤ ·)) (fun x y => not_lt) hall hgt
  -- about an absent text every relation says no, and so does the code
  have hnot : ∀ {R : Int → Int → Prop}, Absent C conditionKey requestBody →
      ¬Holds C P conditionKey values requestBody R := by
    intro R habsent
    unfold Holds
    rw [show requestText C conditionKey requestBody = none from habsent]
    exact not_stands_none
  have hno : ∀ {R : Int → Int → Prop} {b : Bool},
      (b = true ↔ Holds C P conditionKey values requestBody R) →
      Absent C conditionKey requestBody →
        b = false ∧ ¬Holds C P conditionKey values requestBody R := by
    intro R b hb habsent
    exact ⟨Bool.eq_false_iff.mpr fun h => hnot habsent (hb.mp h), hnot habsent⟩
  have hnone : Absent C conditionKey requestBody →
      parseDate P (requestText C conditionKey requestBody) = none := by
    intro habsent
    rw [show requestText C conditionKey requestBody = none from habsent]
    rfl
  cases type with
  | dateEquals => exact iff_of_true heq trivial
  | dateGreaterThan => exact iff_of_true hgt trivial
  | dateLessThan => exact iff_of_true hlt trivial
  | dateNotEquals => exact iff_of_true (not_right_iff.mpr heq) trivial
  | dateGreaterThanEquals => exact hge
  | dateLessThanEquals => exact hle
  | dateEqualsIfExists =>
    exact (ifExists_right_iff (hno heq)).trans (and_iff_left heq)
  | dateGreaterThanIfExists =>
    exact (ifExists_right_iff (hno hgt)).trans (and_iff_left hgt)
  | dateLessThanIfExists =>
    exact (ifExists_right_iff (hno hlt)).trans (and_iff_left hlt)
  | dateGreaterThanEqualsIfExists =>
    refine (ifExists_right_iff fun habsent => ⟨?_, hnot habsent⟩).trans (and_congr_right' hge)
    rw [hnone habsent]
    rfl
  | dateLessThanEqualsIfExists =>
    refine (ifExists_right_iff fun habsent => ⟨?_, hnot habsent⟩).trans (and_congr_right' hle)
    rw [hnone habsent]
    rfl
  | dateNotEqualsIfExists =>
    refine iff_of_true ?_ trivial
    have hne := not_right_iff.mpr heq
    by_cases habsent : Absent C conditionKey requestBody
    · refine iff_of_true ?_ (Or.inl habsent)
      have htrue := hne.mpr (hnot habsent)
      simp only [compare]
      split
      · exact htrue
      · rfl
    · have hsome : (requestText C conditionKey requestBody).isSome = true :=
        Option.isSome_iff_ne_none.mpr habsent
      simp only [compare, Meaning, hsome, Bool.or_true, if_true, habsent, false_or]
      exact hne

/-- **A Date operator says what the code computes exactly where all values are dates, "all" and
"some" agree on them and no absent time is asked for, or where some value is no date and the
operator says no.** -/
theorem right_iff (hvalues : values ≠ []) (type : DateComparisonType) :
    (isSatisfied C P type conditionKey values requestBody = true ↔
        Meaning C P conditionKey values requestBody type) ↔
      Sound C P conditionKey values requestBody type := by
  unfold Sound
  by_cases hall : AllDates C P conditionKey values
  · rw [right_dates_iff hvalues hall]
    exact ⟨fun h => ⟨fun _ => h, fun hno => absurd hall hno⟩, fun h => h.1 hall⟩
  · have hnone : values.mapM (valueDate C P conditionKey) = none := by
      cases h : values.mapM (valueDate C P conditionKey) with
      | none => rfl
      | some dates => exact absurd (mapM_of_some h) hall
    rw [isSatisfied_eq hvalues, hnone]
    simp only [Bool.false_eq_true, false_iff]
    exact ⟨fun h => ⟨fun hyes => absurd hyes hall, fun _ => h⟩, fun h => h.2 hall⟩

end DateCondition

/-! ### The operators together -/

/-- **Exactly when the operators of a condition mean what they say.** -/
theorem operators_right_iff (C : CharacterData) (P : DateParsers) (values : List JavaString)
    (hvalues : values ≠ []) :
    (∀ type value, StringCondition.Right C values value type ↔
        StringCondition.Sound value type) ∧
      (∀ type value, (NumericCondition.compare C values value type = true ↔
          NumericCondition.Meaning C values value type) ↔
        NumericCondition.Sound C values value type) ∧
      ∀ type conditionKey requestBody,
        (DateCondition.isSatisfied C P type conditionKey values requestBody = true ↔
            DateCondition.Meaning C P conditionKey values requestBody type) ↔
          DateCondition.Sound C P conditionKey values requestBody type :=
  ⟨fun type _ => StringCondition.right_iff hvalues type,
    fun type _ => NumericCondition.right_iff type,
    fun type _ _ => DateCondition.right_iff hvalues type⟩

/-- Five is less than ten, but not less than every value in front of ten. -/
theorem not_right_threeTen :
    ¬(NumericCondition.compare .ofAscii [java "3", java "10"] (some (java "5"))
          .numericLessThan = true ↔
        NumericCondition.Meaning .ofAscii [java "3", java "10"] (some (java "5"))
          .numericLessThan) := by
  intro h
  have hmeaning : NumericCondition.Meaning .ofAscii [java "3", java "10"] (some (java "5"))
      .numericLessThan :=
    ⟨java "5", rfl, java "10", by simp, 5, 10, by decide, by decide, by decide⟩
  exact absurd (h.mpr hmeaning) (by decide)

/-- Parsers that know one date, as its seconds. -/
def newYearParsers : DateParsers where
  parseISO8601Date _ := none
  parseServiceSpecificDate s := if s = java "1577836800" then some 1577836800000 else none
  parseCompressedISO8601Date s := if s = java "20200101T000000Z" then some 1577836800000 else none
  parseRFC822Date _ := none

/-- One value, and a request at just that time. -/
theorem operators_right_iff_newYear :
    DateCondition.isSatisfied .ofAscii newYearParsers .dateLessThanEquals (java "EpochTime")
        [java "1577836800"] [(java "X-Amz-Date", java "20200101T000000Z")] = true ↔
      DateCondition.Meaning .ofAscii newYearParsers (java "EpochTime") [java "1577836800"]
        [(java "X-Amz-Date", java "20200101T000000Z")] .dateLessThanEquals := by
  refine ((operators_right_iff .ofAscii newYearParsers [java "1577836800"]
    (by simp)).2.2 _ _ _).mpr ⟨fun _ => ?_, fun hno => ?_⟩
  · intro text _ _
    simp
  · refine absurd ?_ hno
    intro s hs
    rw [mem_singleton.mp hs]
    decide

end CortxS3

/-
How the body of a request to complete an upload is judged.

A list of parts is well formed if there is a part in it, each has its number and its ETag, the
numbers are decimal and in the range of part numbers, and each is larger than the one before it
(`WellFormed`).  All such lists are accepted.  The others should be turned down, without an
exception, and with no part left behind (`Judged`).

The loop puts a part into the map before it has looked at the number, and never takes one out.  So
whatever is turned down after its first complete part leaves parts behind, and what is left to say
is which lists are accepted that should not be: none is judged rightly but those that have no
complete part in front and those that are well formed (`judged_iff`).
-/
import CortxS3.Server.PostCompleteAction
import CortxS3.Proofs.Decimal

namespace CortxS3

open List

namespace S3PostCompleteAction

/-! ### The two readings of the loop -/

/-- The map is handed on where nothing was turned down. -/
theorem readParts_eq (elements : List XmlElement) :
    ∀ (parts : RequestedParts) (prevPartNumber : Bytes),
      readParts parts prevPartNumber elements =
        (readPartsInto parts prevPartNumber elements).2.map
          ((readPartsInto parts prevPartNumber elements).1, ·) := by
  induction elements with
  | nil =>
    intro parts prevPartNumber
    unfold readParts readPartsInto
    dsimp only
    split <;> rfl
  | cons e rest ih =>
    intro parts prevPartNumber
    unfold readParts readPartsInto
    by_cases hname : e.name = ascii "Part"
    · simp only [if_pos hname]
      split
      · rfl
      · cases previousPart prevPartNumber with
        | error failure => rfl
        | ok previous =>
          cases stdStoi (contentOf (ascii "PartNumber") e) with
          | error failure => rfl
          | ok current =>
            simp only [Bind.bind, Except.bind]
            split
            · rfl
            · exact ih _ _
    · simp only [if_neg hname]
      exact ih _ _

theorem validateRequestBody_eq (document : Option (List XmlElement)) :
    validateRequestBody document = (validateRequestBodyInto document).2.map
      ((validateRequestBodyInto document).1, ·) := by
  cases document with
  | none => rfl
  | some elements => exact readParts_eq elements [] []

/-! ### The parts of a document -/

/-- The numbers and ETags of the parts, as their texts. -/
def partTexts (elements : List XmlElement) : List (Bytes × Bytes) :=
  (elements.filter fun e => e.name = ascii "Part").map fun e =>
    (contentOf (ascii "PartNumber") e, contentOf (ascii "ETag") e)

theorem partTexts_cons (e : XmlElement) (rest : List XmlElement) :
    partTexts (e :: rest) =
      if e.name = ascii "Part" then
        (contentOf (ascii "PartNumber") e, contentOf (ascii "ETag") e) :: partTexts rest
      else partTexts rest := by
  unfold partTexts
  by_cases hname : e.name = ascii "Part"
  · simp [hname]
  · simp [hname]

/-- A part that has its number and its ETag. -/
def Complete (p : Bytes × Bytes) : Prop := p.1 ≠ [] ∧ p.2 ≠ []
deriving Decidable

/-- A part number in decimal and in the range of part numbers. -/
structure PartNumberText (text : Bytes) : Prop where
  digits : ∀ c ∈ text, IsDigit c
  minimum : 1 ≤ decimalValue text 0
  maximum : decimalValue text 0 ≤ S3AbortMultipartAction.maximumPartNumber

/-- **What a request should be.** -/
structure WellFormed (texts : List (Bytes × Bytes)) : Prop where
  nonempty : texts ≠ []
  complete : ∀ p ∈ texts, Complete p
  numbers : ∀ p ∈ texts, PartNumberText p.1
  increasing : texts.Pairwise fun p q => decimalValue p.1 0 < decimalValue q.1 0

theorem PartNumberText.stdStoi {text : Bytes} (h : PartNumberText text) (hne : text ≠ []) :
    stdStoi text = .ok (decimalValue text 0 : Int) := by
  have hmax := h.maximum
  unfold S3AbortMultipartAction.maximumPartNumber at hmax
  unfold S3PostCompleteAction.stdStoi
  rw [stoi_of_digits hne h.digits (by omega)]

/-! ### What is left in the map -/

theorem assign_ne_nil (parts : RequestedParts) (partNumber etag : Bytes) :
    parts.assign partNumber etag ≠ [] := by
  intro hnil
  unfold RequestedParts.assign at hnil
  have hget := SortedMap.get_set_self (strtoulAnyBase partNumber)
    (((SortedMap.get (strtoulAnyBase partNumber) parts).map (·.1)).getD partNumber, etag) parts
  rw [hnil] at hget
  cases hget

/-- **No part is taken out of the map again.** -/
theorem readPartsInto_ne_nil (elements : List XmlElement) :
    ∀ {parts : RequestedParts} (prevPartNumber : Bytes), parts ≠ [] →
      (readPartsInto parts prevPartNumber elements).1 ≠ [] := by
  induction elements with
  | nil =>
    intro parts prevPartNumber h
    exact h
  | cons e rest ih =>
    intro parts prevPartNumber h
    unfold readPartsInto
    by_cases hname : e.name = ascii "Part"
    · rw [if_pos hname]
      dsimp only
      by_cases hmissing : contentOf (ascii "PartNumber") e = [] ∨ contentOf (ascii "ETag") e = []
      · rw [if_pos hmissing]
        exact h
      · rw [if_neg hmissing]
        have hparts := assign_ne_nil parts (contentOf (ascii "PartNumber") e)
          (contentOf (ascii "ETag") e)
        cases previousPart prevPartNumber with
        | error failure => exact hparts
        | ok previous =>
          cases stdStoi (contentOf (ascii "PartNumber") e) with
          | error failure => exact hparts
          | ok current =>
            dsimp only
            split
            · exact hparts
            · exact ih _ hparts
    · rw [if_neg hname]
      exact ih _ h

/-! ### What is accepted -/

/-- Parts in order behind a number are accepted. -/
theorem readPartsInto_accepts (elements : List XmlElement) :
    ∀ (parts : RequestedParts) (prevPartNumber : Bytes) (previous : Nat),
      previousPart prevPartNumber = .ok (previous : Int) →
      (prevPartNumber = [] → partTexts elements ≠ []) →
      (∀ p ∈ partTexts elements, Complete p) → (∀ p ∈ partTexts elements, PartNumberText p.1) →
      (∀ p ∈ partTexts elements, previous < decimalValue p.1 0) →
      (partTexts elements).Pairwise (fun p q => decimalValue p.1 0 < decimalValue q.1 0) →
      ∃ total, (readPartsInto parts prevPartNumber elements).2 = .ok total := by
  induction elements with
  | nil =>
    intro parts prevPartNumber previous _ hnonempty _ _ _ _
    have hne : prevPartNumber ≠ [] := fun hnil => hnonempty hnil rfl
    exact ⟨prevPartNumber, if_neg hne⟩
  | cons e rest ih =>
    intro parts prevPartNumber previous hprev hnonempty hcomplete hnumbers habove hincreasing
    rw [partTexts_cons] at hnonempty hcomplete hnumbers habove hincreasing
    unfold readPartsInto
    by_cases hname : e.name = ascii "Part"
    · rw [if_pos hname] at hnonempty hcomplete hnumbers habove hincreasing
      rw [if_pos hname]
      dsimp only
      obtain ⟨htext, htag⟩ := hcomplete _ mem_cons_self
      have hcur := (hnumbers _ mem_cons_self).stdStoi htext
      have hlt := habove _ mem_cons_self
      obtain ⟨hnext, hrest⟩ := pairwise_cons.mp hincreasing
      dsimp only at htext htag hcur hlt hnext
      have hnot : ¬ ((decimalValue (contentOf (ascii "PartNumber") e) 0 : Int) < previous) := by
        omega
      rw [if_neg (not_or.mpr ⟨htext, htag⟩), hprev, hcur]
      dsimp only
      rw [if_neg hnot]
      refine ih _ _ (decimalValue (contentOf (ascii "PartNumber") e) 0) ?_ ?_
        (fun p hp => hcomplete p (mem_cons_of_mem _ hp))
        (fun p hp => hnumbers p (mem_cons_of_mem _ hp)) hnext hrest
      · unfold previousPart
        rw [if_neg htext, hcur]
      · intro hnil
        exact absurd hnil htext
    · rw [if_neg hname] at hnonempty hcomplete hnumbers habove hincreasing
      rw [if_neg hname]
      exact ih _ _ previous hprev hnonempty hcomplete hnumbers habove hincreasing

theorem WellFormed.accepted {elements : List XmlElement} (h : WellFormed (partTexts elements)) :
    ∃ total, (validateRequestBodyInto (some elements)).2 = .ok total :=
  readPartsInto_accepts elements [] [] 0 rfl (fun _ => h.nonempty) h.complete h.numbers
    (fun p hp => (h.numbers p hp).minimum) h.increasing

/-! ### The beginning of a list -/

theorem readPartsInto_of_incomplete (elements : List XmlElement)
    (h : ∀ p ∈ (partTexts elements).head?, ¬ Complete p) :
    readPartsInto [] [] elements = ([], .error .malformedXML) := by
  induction elements with
  | nil => rfl
  | cons e rest ih =>
    rw [partTexts_cons] at h
    unfold readPartsInto
    by_cases hname : e.name = ascii "Part"
    · rw [if_pos hname, List.head?_cons] at h
      have hmissing := h _ rfl
      unfold Complete at hmissing
      rw [if_pos hname]
      dsimp only at hmissing ⊢
      rw [if_pos (by tauto)]
    · rw [if_neg hname] at h
      rw [if_neg hname]
      exact ih h

theorem readPartsInto_of_complete (elements : List XmlElement) {p : Bytes × Bytes}
    (hhead : (partTexts elements).head? = some p) (h : Complete p) :
    (readPartsInto [] [] elements).1 ≠ [] := by
  induction elements with
  | nil => cases hhead
  | cons e rest ih =>
    rw [partTexts_cons] at hhead
    unfold readPartsInto
    by_cases hname : e.name = ascii "Part"
    · rw [if_pos hname, List.head?_cons] at hhead
      obtain rfl := Option.some.inj hhead
      rw [if_pos hname]
      dsimp only
      rw [if_neg (not_or.mpr h)]
      have hparts := assign_ne_nil [] (contentOf (ascii "PartNumber") e) (contentOf (ascii "ETag") e)
      cases previousPart ([] : Bytes) with
      | error failure => exact hparts
      | ok previous =>
        cases stdStoi (contentOf (ascii "PartNumber") e) with
        | error failure => exact hparts
        | ok current =>
          dsimp only
          split
          · exact hparts
          · exact readPartsInto_ne_nil rest _ hparts
    · rw [if_neg hname] at hhead
      rw [if_neg hname]
      exact ih hhead

/-! ### The judgement -/

/-- **A list of parts is judged rightly**: there is no exception, it is accepted if it is well formed
and only then, and if it is turned down the map is empty. -/
structure Judged (elements : List XmlElement) : Prop where
  returns : (validateRequestBodyInto (some elements)).2 ≠ .error .exception
  accepts : (∃ total, (validateRequestBodyInto (some elements)).2 = .ok total) ↔
    WellFormed (partTexts elements)
  cleared : (∀ total, (validateRequestBodyInto (some elements)).2 ≠ .ok total) →
    (validateRequestBodyInto (some elements)).1 = []

/-- **Which lists are judged rightly**: those without a part, those whose first part lacks its number or
its ETag, and those that are well formed. -/
theorem judged_iff (elements : List XmlElement) :
    Judged elements ↔
      (∀ p ∈ (partTexts elements).head?, ¬ Complete p) ∨ WellFormed (partTexts elements) := by
  constructor
  · intro h
    by_cases hhead : ∀ p ∈ (partTexts elements).head?, ¬ Complete p
    · exact .inl hhead
    · refine .inr (h.accepts.mp ?_)
      by_contra hno
      refine hhead fun p hp hcomplete => ?_
      exact readPartsInto_of_complete elements hp hcomplete
        (h.cleared fun total htotal => hno ⟨total, htotal⟩)
  · rintro (hhead | hwell)
    · have hresult : validateRequestBodyInto (some elements) = ([], .error .malformedXML) :=
        readPartsInto_of_incomplete elements hhead
      refine ⟨?_, ?_, ?_⟩
      · rw [hresult]
        intro h
        cases h
      · rw [hresult]
        constructor
        · rintro ⟨total, htotal⟩
          cases htotal
        · intro hwell
          obtain ⟨p, rest, hcons⟩ := exists_cons_of_ne_nil hwell.nonempty
          rw [hcons] at hhead hwell
          exact absurd (hwell.complete p mem_cons_self) (hhead p rfl)
      · intro _
        rw [hresult]
    · obtain ⟨total, htotal⟩ := hwell.accepted
      refine ⟨?_, ?_, ?_⟩
      · rw [htotal]
        intro h
        cases h
      · exact ⟨fun _ => hwell, fun _ => ⟨total, htotal⟩⟩
      · intro h
        exact absurd htotal (h total)

/-- A request with one part. -/
def onePart (partNumber : String) : List XmlElement :=
  [{ name := ascii "Part"
     children := [(ascii "PartNumber", ascii partNumber), (ascii "ETag", ascii "e")] }]

/-- A part number that is no number: `std::stoi` throws. -/
theorem not_judged_notNumeric : ¬ ∀ elements, Judged elements := by
  intro h
  exact (h (onePart "one")).returns (by decide)

end S3PostCompleteAction

end CortxS3

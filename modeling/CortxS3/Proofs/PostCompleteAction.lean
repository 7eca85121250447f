/-
The parts of an upload that is completed, batch by batch.

The map of a request has each number under the text that came first, and the numbers ascend
(`Read`).  The parts of the request that a batch of the index has are taken out of it.  Parts may
be taken in any order (`foldl_takePart_perm`), so that what has been noted after a front part of
the index depends on that part alone (`taken`), and reading on from any place comes to what the
whole index says (`getNextPartsInfo_saves`): the size of the batches does not matter.
-/
import CortxS3.Server.PostCompleteAction
import CortxS3.Proofs.Decimal

namespace CortxS3

open Option (filter_some map_some none_or some.injEq some_or)
open List OrderedIndex

/-! ### Numbers under `S3NumStrComparator` -/

variable {n : Nat}

theorem valueOfAnyBase_decimal (h : 0 < n) : valueOfAnyBase (decimal n) = n := by
  obtain ⟨c, rest, hdec, hc, -⟩ := decimal_eq_cons h
  have hvalue := decimalValue_decimal n
  rw [hdec] at hvalue ⊢
  have hne : c ≠ 48 := ne_of_gt hc
  unfold valueOfAnyBase
  split
  · rename_i heq
    exact absurd (List.cons.inj heq).1 hne
  · rename_i heq
    exact absurd (List.cons.inj heq).1 hne
  · exact hvalue

/-- **`S3NumStrComparator` reads the number of a part as it was written.** -/
theorem strtoulAnyBase_decimal (h : 0 < n) (hn : n < 2 ^ 64) : strtoulAnyBase (decimal n) = n := by
  obtain ⟨c, rest, hdec, hc, hdigit⟩ := decimal_eq_cons h
  have hvalue := valueOfAnyBase_decimal h
  have hminus : c ≠ 45 := hdigit.ne (Or.inl (by decide))
  have hplus : c ≠ 43 := hdigit.ne (Or.inl (by decide))
  unfold strtoulAnyBase
  rw [cStr_of_nulFree (nulFree_decimal n), hdec,
    dropWhile_cons_of_neg (by simp [hdigit.not_isSpace])]
  rw [hdec] at hvalue
  split
  · rename_i heq
    exact absurd (List.cons.inj heq).1 hminus
  · rename_i heq
    exact absurd (List.cons.inj heq).1 hplus
  · rw [hvalue]
    omega

theorem stoul_decimal (h : n < 2 ^ 64) : stoul (decimal n) = some n := by
  unfold stoul
  rw [leadingInt_decimal, filter_some, if_pos (by simpa using h), map_some,
    toSize_natCast h]

theorem stoul_of_stoi {s : Bytes} {z : Int} (hz : stoi s = some z) (hpos : 0 ≤ z)
    (hn : stoul s = some n) : z = n := by
  unfold stoi at hz
  unfold stoul at hn
  rw [Option.filter_eq_some_iff] at hz
  obtain ⟨hlead, hrange⟩ := hz
  rw [hlead] at hn
  simp only [Bool.and_eq_true, decide_eq_true_eq] at hrange
  rw [filter_some, if_pos (by simp only [decide_eq_true_eq]; omega), map_some,
    some.injEq] at hn
  obtain ⟨k, rfl⟩ := Int.eq_ofNat_of_zero_le hpos
  rw [toSize_natCast (by unfold sizeMod; omega)] at hn
  rw [hn]

namespace S3PostCompleteAction

/-! ### The parts of a request -/

/-- The numbers of the parts in a request, as texts. -/
def partNumbers (elements : List XmlElement) : List Bytes :=
  (elements.filter fun e => e.name = ascii "Part").map (contentOf (ascii "PartNumber"))

/-- The numbers of the parts in a request. -/
def requestedNumbers (elements : List XmlElement) : List Int :=
  (partNumbers elements).filterMap stoi

/-- What a front part of a request, with these texts, has left in the map. -/
structure Read (parts : RequestedParts) (texts : List Bytes) : Prop where
  sorted : Sorted parts
  keyed : ∀ e ∈ parts, e.1 = strtoulAnyBase e.2.1 ∧ e.2.1 ∈ texts
  numeric : ∀ t ∈ texts, ∃ z, stoi t = some z
  /-- Each text has come down to one that is not larger. -/
  merged : ∀ t ∈ texts, ∃ e ∈ parts, e.1 = strtoulAnyBase t ∧
    ∀ x y, stoi e.2.1 = some x → stoi t = some y → x ≤ y
  ascending : ∀ last, texts.getLast? = some last → ∀ t ∈ texts, ∀ y z,
    stoi t = some y → stoi last = some z → y ≤ z

theorem Read.empty : Read [] [] where
  sorted := List.Pairwise.nil
  keyed := by
    intro e he
    cases he
  numeric := by
    intro t ht
    cases ht
  merged := by
    intro t ht
    cases ht
  ascending := by
    intro last h
    cases h

variable {e : Nat × Bytes × Bytes} {m : RequestedParts}

variable {partNumber : Bytes}

theorem mem_assign (hs : Sorted m) {etag : Bytes} (he : e ∈ m.assign partNumber etag) :
    (e.1 = strtoulAnyBase partNumber ∧ e.2.1 = partNumber) ∨
      (∃ e' ∈ m, e'.1 = e.1 ∧ e'.2.1 = e.2.1) := by
  unfold RequestedParts.assign at he
  rcases (SortedMap.mem_set hs e).mp he with rfl | ⟨-, he⟩
  · cases hget : SortedMap.get (strtoulAnyBase partNumber) m with
    | none => exact Or.inl ⟨rfl, rfl⟩
    | some v => exact Or.inr ⟨_, (SortedMap.get_eq_some_iff hs).mp hget, rfl, rfl⟩
  · exact Or.inr ⟨e, he, rfl, rfl⟩

theorem exists_mem_assign (hs : Sorted m) (partNumber etag : Bytes) (he : e ∈ m) :
    ∃ e' ∈ m.assign partNumber etag, e'.1 = e.1 ∧ e'.2.1 = e.2.1 := by
  unfold RequestedParts.assign
  by_cases hkey : e.1 = strtoulAnyBase partNumber
  · have hget : SortedMap.get (strtoulAnyBase partNumber) m = some e.2 :=
      (SortedMap.get_eq_some_iff hs).mpr (hkey ▸ he)
    refine ⟨_, (SortedMap.mem_set hs _).mpr (Or.inl rfl), hkey.symm, ?_⟩
    rw [hget]
    rfl
  · exact ⟨e, (SortedMap.mem_set hs _).mpr (Or.inr ⟨hkey, he⟩), rfl, rfl⟩

theorem exists_mem_assign_self (hs : Sorted m) (partNumber etag : Bytes)
    (hnew : ∀ e ∈ m, e.1 ≠ strtoulAnyBase partNumber) :
    ∃ e' ∈ m.assign partNumber etag, e'.1 = strtoulAnyBase partNumber ∧ e'.2.1 = partNumber := by
  unfold RequestedParts.assign
  refine ⟨_, (SortedMap.mem_set hs _).mpr (Or.inl rfl), rfl, ?_⟩
  rw [SortedMap.get_eq_none hnew]
  rfl

variable {parts : RequestedParts}

variable {texts : List Bytes} {z : Int}

theorem Read.assign (h : Read parts texts) (etag : Bytes) (hz : stoi partNumber = some z)
    (horder : ∀ last, texts.getLast? = some last → ∀ y, stoi last = some y → y ≤ z) :
    Read (parts.assign partNumber etag) (texts ++ [partNumber]) := by
  -- no text so far is above the new one
  have hbelow : ∀ t ∈ texts, ∀ y, stoi t = some y → y ≤ z := by
    intro t ht y hy
    obtain ⟨last, hlast⟩ : ∃ last, texts.getLast? = some last :=
      Option.ne_none_iff_exists'.mp fun hnone =>
        ne_nil_of_mem ht (List.getLast?_eq_none_iff.mp hnone)
    obtain ⟨w, hw⟩ := h.numeric last (mem_of_getLast? hlast)
    exact (h.ascending last hlast t ht y w hy hw).trans (horder last hlast w hw)
  constructor
  case sorted => exact SortedMap.sorted_set h.sorted
  case keyed =>
    intro e he
    rcases mem_assign h.sorted he with ⟨hkey, htext⟩ | ⟨e', he', hkey, htext⟩
    · rw [hkey, htext]
      exact ⟨rfl, mem_append_right _ (mem_singleton.mpr rfl)⟩
    · rw [← hkey, ← htext]
      exact ⟨(h.keyed e' he').1, mem_append_left _ (h.keyed e' he').2⟩
  case numeric =>
    intro t ht
    rcases mem_append.mp ht with ht | ht
    · exact h.numeric t ht
    · rw [mem_singleton.mp ht]
      exact ⟨z, hz⟩
  case merged =>
    intro t ht
    rcases mem_append.mp ht with ht | ht
    · obtain ⟨e, he, hkey, hle⟩ := h.merged t ht
      obtain ⟨e', he', hkey', htext'⟩ := exists_mem_assign h.sorted partNumber etag he
      exact ⟨e', he', hkey'.trans hkey, by rw [htext']; exact hle⟩
    · rw [mem_singleton.mp ht]
      by_cases hold : ∃ e ∈ parts, e.1 = strtoulAnyBase partNumber
      · obtain ⟨e, he, hkey⟩ := hold
        obtain ⟨e', he', hkey', htext'⟩ := exists_mem_assign h.sorted partNumber etag he
        refine ⟨e', he', hkey'.trans hkey, ?_⟩
        intro x y hx hy
        rw [hz, some.injEq] at hy
        rw [htext'] at hx
        rw [← hy]
        exact hbelow _ (h.keyed e he).2 x hx
      · obtain ⟨e', he', hkey', htext'⟩ := exists_mem_assign_self h.sorted partNumber etag
          fun e he hkey => hold ⟨e, he, hkey⟩
        refine ⟨e', he', hkey', ?_⟩
        intro x y hx hy
        rw [htext', hy, some.injEq] at hx
        rw [hx]
  case ascending =>
    intro last hlast t ht y w hy hw
    rw [List.getLast?_append, List.getLast?_singleton, some_or, some.injEq] at hlast
    rw [← hlast, hz, some.injEq] at hw
    rw [← hw]
    rcases mem_append.mp ht with ht | ht
    · exact hbelow t ht y hy
    · rw [mem_singleton.mp ht, hz, some.injEq] at hy
      rw [hy]

variable {s : Bytes}

theorem stdStoi_eq_ok : stdStoi s = .ok z ↔ stoi s = some z := by
  unfold stdStoi
  cases stoi s with
  | none | some n => simp

theorem readParts_read :
    ∀ (elements : List XmlElement) {parts : RequestedParts} {texts : List Bytes} {prev : Bytes}
      {parts' : RequestedParts} {total : Bytes},
      Read parts texts → (prev ≠ [] → texts.getLast? = some prev) → (prev = [] → texts = []) →
      readParts parts prev elements = .ok (parts', total) →
      Read parts' (texts ++ partNumbers elements) ∧
        (texts ++ partNumbers elements).getLast? = some total := by
  intro elements
  induction elements with
  | nil =>
    intro parts texts prev parts' total h hprev hnone hread
    unfold readParts at hread
    split at hread
    · cases hread
    · rename_i hne
      cases hread
      rw [partNumbers, filter_nil, map_nil, append_nil]
      exact ⟨h, hprev hne⟩
  | cons e rest ih =>
    intro parts texts prev parts' total h hprev hnone hread
    unfold readParts at hread
    by_cases hpart : e.name = ascii "Part"
    · have hnumbers : partNumbers (e :: rest) =
          contentOf (ascii "PartNumber") e :: partNumbers rest := by
        unfold partNumbers
        rw [filter_cons_of_pos (by simpa using hpart), map_cons]
      rw [if_pos hpart] at hread
      dsimp only at hread
      split at hread
      · cases hread
      · rename_i hcontent
        rw [not_or] at hcontent
        obtain ⟨previous, hprevious, hread⟩ := bind_eq_ok.mp hread
        obtain ⟨current, hcurrent, hread⟩ := bind_eq_ok.mp hread
        split at hread
        · cases hread
        · rename_i horder
          have hz := stdStoi_eq_ok.mp hcurrent
          have hstep := h.assign (contentOf (ascii "ETag") e) hz (by
            intro last hlast y hy
            have hne : prev ≠ [] := by
              intro hnil
              rw [hnone hnil] at hlast
              cases hlast
            rw [hprev hne, some.injEq] at hlast
            unfold previousPart at hprevious
            rw [if_neg hne, stdStoi_eq_ok, hlast, hy, some.injEq] at hprevious
            omega)
          rw [hnumbers, append_cons]
          exact ih hstep (fun _ => by simp) (fun hnil => absurd hnil hcontent.1) hread
    · have hnumbers : partNumbers (e :: rest) = partNumbers rest := by
        unfold partNumbers
        rw [filter_cons_of_neg (by simpa using hpart)]
      rw [if_neg hpart] at hread
      rw [hnumbers]
      exact ih h hprev hnone hread

variable {total : Bytes}

/-- **What an accepted request leaves in the map**, and its last number. -/
theorem validateRequestBody_read {elements : List XmlElement}
    (h : validateRequestBody (some elements) = .ok (parts, total)) :
    Read parts (partNumbers elements) ∧ (partNumbers elements).getLast? = some total :=
  readParts_read elements .empty (fun hne => absurd rfl hne) (fun _ => rfl) h

/-! ### Taking parts -/

/-- The numbers that the upload of a part lets through. -/
def Numbered (p : StoredPart) : Prop :=
  1 ≤ p.partNumber ∧ p.partNumber ≤ S3AbortMultipartAction.maximumPartNumber

variable {p : StoredPart}

theorem Numbered.pos (h : Numbered p) : 0 < p.partNumber := h.1

theorem Numbered.strtoul (h : Numbered p) :
    strtoulAnyBase (decimal p.partNumber) = p.partNumber := by
  refine strtoulAnyBase_decimal h.pos ?_
  have hle := h.2
  unfold S3AbortMultipartAction.maximumPartNumber at hle
  omega

theorem Numbered.stoul (h : Numbered p) : stdStoul (decimal p.partNumber) = .ok p.partNumber := by
  have hle := h.2
  unfold S3AbortMultipartAction.maximumPartNumber at hle
  unfold stdStoul
  rw [stoul_decimal (by omega)]

theorem Numbered.toUInt (h : Numbered p) : toUInt p.partNumber = p.partNumber := by
  have hle := h.2
  unfold S3AbortMultipartAction.maximumPartNumber at hle
  unfold CortxS3.toUInt
  omega

theorem addExtendedEntry_comm (m : S3ObjectExtendedMetadata) (c c' : S3PartFragContext) {n n' : Nat}
    (hne : n ≠ n') :
    (m.addExtendedEntry c 1 n).addExtendedEntry c' 1 n' =
      (m.addExtendedEntry c' 1 n').addExtendedEntry c 1 n := by
  have hkey : (n : Int) ≠ n' := by omega
  have hcount : ∀ p : Nat,
      (if n' ≠ 0 ∧ (if n ≠ 0 ∧ p ≤ n then n else p) ≤ n' then n'
        else if n ≠ 0 ∧ p ≤ n then n else p) =
        if n ≠ 0 ∧ (if n' ≠ 0 ∧ p ≤ n' then n' else p) ≤ n then n
        else if n' ≠ 0 ∧ p ≤ n' then n' else p := by
    intro p
    split_ifs <;> omega
  unfold S3ObjectExtendedMetadata.addExtendedEntry S3ObjectExtendedMetadata.entriesOf
  simp only [SortedMap.get_set_of_ne hkey, SortedMap.get_set_of_ne hkey.symm, hcount]
  rw [SortedMap.set_comm hkey]

section Taking

variable (u : Upload)

/-- A part that was named and found. -/
def takePart (a : S3PostCompleteAction) (part : StoredPart) : S3PostCompleteAction :=
  { a with
    objectSize := a.objectSize + part.contentLength
    partEtags := SortedMap.set part.partNumber part.md5 a.partEtags
    newObjectMetadata := some (addPartObjectToObjectExtended u part a.newObjectMetadata) }

variable {q : StoredPart}

theorem addPartObjectToObjectExtended_comm {p : StoredPart} (hp : Numbered p) (hq : Numbered q)
    (hne : p.partNumber ≠ q.partNumber) (md : Option S3NewObjectMetadata) :
    addPartObjectToObjectExtended u q (some (addPartObjectToObjectExtended u p md)) =
      addPartObjectToObjectExtended u p (some (addPartObjectToObjectExtended u q md)) := by
  unfold addPartObjectToObjectExtended
  rw [hp.strtoul, hq.strtoul]
  simp only [Option.getD_some, addExtendedEntry_comm _ _ _ hne]

theorem takePart_comm {p : StoredPart} (hp : Numbered p) (hq : Numbered q)
    (hne : p.partNumber ≠ q.partNumber) (a : S3PostCompleteAction) :
    takePart u (takePart u a p) q = takePart u (takePart u a q) p := by
  unfold takePart
  simp only [addPartObjectToObjectExtended_comm u hp hq hne,
    SortedMap.set_comm (Ne.symm hne), Nat.add_right_comm]

/-- **The order in which parts are taken does not matter.** -/
theorem foldl_takePart_perm {l l' : List StoredPart} (h : l.Perm l') (hnum : ∀ p ∈ l, Numbered p)
    (hdistinct : (l.map (·.partNumber)).Nodup) (a : S3PostCompleteAction) :
    l.foldl (takePart u) a = l'.foldl (takePart u) a := by
  refine h.foldl_eq' ?_ a
  intro p hp q hq a
  by_cases hne : p.partNumber = q.partNumber
  · rw [inj_on_of_nodup_map hdistinct hp hq hne]
  · exact takePart_comm u (hnum p hp) (hnum q hq) hne a

/-- What is left of the request, and where the action stands in the index, are not looked at. -/
theorem foldl_takePart_with (l : List StoredPart) (a : S3PostCompleteAction) (parts : RequestedParts)
    (count : Nat) (lastKey : Bytes) :
    l.foldl (takePart u)
        { a with
          parts := parts
          validatedPartsCount := count
          lastKey := lastKey } =
      { l.foldl (takePart u) a with
        parts := parts
        validatedPartsCount := count
        lastKey := lastKey } := by
  induction l generalizing a with
  | nil => rfl
  | cons p l ih => exact ih (takePart u a p)

theorem foldl_takePart_frame (l : List StoredPart) (a : S3PostCompleteAction) :
    (l.foldl (takePart u) a).totalParts = a.totalParts ∧
      (l.foldl (takePart u) a).validatedPartsCount = a.validatedPartsCount ∧
      (l.foldl (takePart u) a).lastKey = a.lastKey := by
  induction l generalizing a with
  | nil => exact ⟨rfl, rfl, rfl⟩
  | cons p l ih => exact ih (takePart u a p)

theorem foldl_takePart_with_parts (l : List StoredPart) (a : S3PostCompleteAction)
    (parts : RequestedParts) :
    l.foldl (takePart u) { a with parts := parts } =
      { l.foldl (takePart u) a with parts := parts } := by
  have h := foldl_takePart_with u l a parts a.validatedPartsCount a.lastKey
  obtain ⟨-, hcount, hkey⟩ := foldl_takePart_frame u l a
  rw [← hcount, ← hkey] at h
  refine Eq.trans ?_ h
  rw [hcount, hkey]

theorem foldl_takePart_objectSize (l : List StoredPart) (a : S3PostCompleteAction) :
    (l.foldl (takePart u) a).objectSize = a.objectSize + (l.map (·.contentLength)).sum := by
  induction l generalizing a with
  | nil => rfl
  | cons p l ih =>
    rw [foldl_cons, ih, map_cons, sum_cons, ← Nat.add_assoc]
    rfl

end Taking

/-! ### The parts found in a batch -/

/-- A batch of an index of parts. -/
def NumberedBatch (batch : List (Bytes × Option StoredPart)) : Prop :=
  ∀ kv ∈ batch, ∃ n, 1 ≤ n ∧ n ≤ S3AbortMultipartAction.maximumPartNumber ∧
    kv.1 = decimal n ∧ ∀ p, kv.2 = some p → p.partNumber = n

/-- A map that has each text under its number. -/
structure Keyed (parts : RequestedParts) : Prop where
  sorted : Sorted parts
  keyed : ∀ e ∈ parts, e.1 = strtoulAnyBase e.2.1

theorem Read.toKeyed (h : Read parts texts) : Keyed parts where
  sorted := h.sorted
  keyed := fun e he => (h.keyed e he).1

theorem Keyed.tail (h : Keyed (e :: parts)) :
    Keyed parts where
  sorted := (pairwise_cons.mp h.sorted).2
  keyed := fun e' he' => h.keyed e' (mem_cons_of_mem _ he')

/-- The parts of a request that a batch has. -/
def foundIn (batch : List (Bytes × Option StoredPart)) (parts : RequestedParts) : List StoredPart :=
  parts.filterMap fun e => (batch.lookup e.2.1).join

/-- What is left of a request. -/
def notIn (batch : List (Bytes × Option StoredPart)) (parts : RequestedParts) : RequestedParts :=
  parts.filter fun e => (batch.lookup e.2.1).isNone

/-- A size that is allowed. -/
def Fits (p : StoredPart) (text totalParts : Bytes) : Prop :=
  p.contentLength ≤ maximumAllowedPutSize ∧
    (minimumAllowedPartSize ≤ p.contentLength ∨ text = totalParts)

/-- What a batch has of a request can be read and fits. -/
def Usable (batch : List (Bytes × Option StoredPart)) (parts : RequestedParts) (totalParts : Bytes) :
    Prop :=
  ∀ e ∈ parts, ∀ v, batch.lookup e.2.1 = some v → ∃ p, v = some p ∧ Fits p e.2.1 totalParts

def sizeOf (l : List StoredPart) : Nat := (l.map (·.contentLength)).sum

@[simp] theorem sizeOf_cons (p : StoredPart) (l : List StoredPart) :
    sizeOf (p :: l) = p.contentLength + sizeOf l := by
  unfold sizeOf
  rw [map_cons, sum_cons]

variable {batch : List (Bytes × Option StoredPart)}

variable {part : StoredPart}

theorem NumberedBatch.of_lookup (hb : NumberedBatch batch) {text : Bytes}
    (h : batch.lookup text = some (some part)) :
    Numbered part ∧ text = decimal part.partNumber := by
  obtain ⟨l₁, l₂, heq, -⟩ := lookup_eq_some_iff.mp h
  obtain ⟨n, hpos, hle, hkey, hnum⟩ := hb (text, some part) (by rw [heq]; simp)
  have hn := hnum part rfl
  subst hn
  exact ⟨⟨hpos, hle⟩, hkey⟩

theorem Keyed.number_eq (h : Keyed parts) (he : e ∈ parts) (hnum : Numbered part)
    (htext : e.2.1 = decimal part.partNumber) : e.1 = part.partNumber := by
  rw [h.keyed e he, htext, hnum.strtoul]

theorem map_foundIn_sublist (hb : NumberedBatch batch) :
    ∀ {parts : RequestedParts}, Keyed parts →
      ((foundIn batch parts).map (·.partNumber)).Sublist (parts.map Prod.fst) := by
  intro parts
  induction parts with
  | nil => intro _; exact List.Sublist.refl _
  | cons e parts ih =>
    intro h
    unfold foundIn
    rw [filterMap_cons, map_cons]
    cases hjoin : (batch.lookup e.2.1).join with
    | none => exact (ih h.tail).cons _
    | some part =>
      obtain ⟨hnum, htext⟩ := hb.of_lookup (Option.join_eq_some_iff.mp hjoin)
      dsimp only
      rw [map_cons, h.number_eq mem_cons_self hnum htext]
      exact (ih h.tail).cons_cons _

theorem nodup_foundIn (hb : NumberedBatch batch) (h : Keyed parts) :
    ((foundIn batch parts).map (·.partNumber)).Nodup :=
  (map_foundIn_sublist hb h).nodup h.sorted.nodup_keys

theorem numbered_of_mem_foundIn (hb : NumberedBatch batch) (hp : p ∈ foundIn batch parts) :
    Numbered p := by
  obtain ⟨e, -, he⟩ := mem_filterMap.mp hp
  exact (hb.of_lookup (Option.join_eq_some_iff.mp he)).1

/-! ### Validating a batch -/

/-- Nothing of a batch takes this number out of the request. -/
def stays (batch : List (Bytes × Option StoredPart)) (parts : RequestedParts)
    (p : Nat × Bytes × Bytes) : Bool :=
  parts.all fun e => (batch.lookup e.2.1).isNone || p.1 != e.1

theorem filter_stays (hs : Sorted parts) :
    parts.filter (stays batch parts) = notIn batch parts := by
  unfold notIn
  refine filter_congr ?_
  intro p hp
  unfold stays
  rw [Bool.eq_iff_iff, all_eq_true]
  constructor
  · intro h
    simpa using h p hp
  · intro hnone e he
    by_cases hkey : p.1 = e.1
    · have heq : p = e := inj_on_of_nodup_map hs.nodup_keys hp he hkey
      rw [← heq, hnone, Bool.true_or]
    · simp [hkey]

/-- The loop over what is left of the request. -/
theorem validatePartsLoop_eq_ok_iff (u : Upload) (hb : NumberedBatch batch) :
    ∀ {m : RequestedParts}, Keyed m → ∀ {a a' : S3PostCompleteAction},
      a.objectSize ≤ maximumAllowedObjectSize →
      (validatePartsLoop u batch m a = .ok a' ↔
        Usable batch m a.totalParts ∧
          a.objectSize + sizeOf (foundIn batch m) ≤ maximumAllowedObjectSize ∧
          a' = { (foundIn batch m).foldl (takePart u) a with
            parts := a.parts.filter (stays batch m) }) := by
  intro m
  induction m with
  | nil =>
    intro _ a a' hsize
    unfold validatePartsLoop
    have hstay : a.parts.filter (stays batch []) = a.parts :=
      filter_eq_self.mpr fun _ _ => rfl
    simp only [foundIn, filterMap_nil, foldl_nil, hstay, Except.ok.injEq]
    constructor
    · rintro rfl
      exact ⟨fun e he => absurd he not_mem_nil, hsize, rfl⟩
    · rintro ⟨-, -, rfl⟩
      rfl
  | cons e m ih =>
    intro hk a a' hsize
    obtain ⟨number, text, etag⟩ := e
    cases hlook : batch.lookup text with
    | none =>
      have hfound : foundIn batch ((number, text, etag) :: m) = foundIn batch m := by
        unfold foundIn
        rw [filterMap_cons, hlook]
        rfl
      have hstay : a.parts.filter (stays batch ((number, text, etag) :: m)) =
          a.parts.filter (stays batch m) := by
        refine filter_congr fun p _ => ?_
        unfold stays
        rw [all_cons, hlook]
        simp
      have husable : Usable batch ((number, text, etag) :: m) a.totalParts ↔
          Usable batch m a.totalParts := by
        unfold Usable
        rw [forall_mem_cons]
        simp [hlook]
      unfold validatePartsLoop
      rw [hlook, hfound, hstay, husable]
      exact ih hk.tail hsize
    | some v =>
      cases v with
      | none =>
        unfold validatePartsLoop
        rw [hlook]
        constructor
        · intro h
          cases h
        · rintro ⟨husable, -, -⟩
          obtain ⟨p, hp, -⟩ := husable _ mem_cons_self _ hlook
          cases hp
      | some part =>
        obtain ⟨hnum, htext⟩ := hb.of_lookup hlook
        have hnumber : number = part.partNumber :=
          hk.number_eq mem_cons_self hnum htext
        have hfound : foundIn batch ((number, text, etag) :: m) = part :: foundIn batch m := by
          unfold foundIn
          rw [filterMap_cons, hlook]
          rfl
        have husable : Usable batch ((number, text, etag) :: m) a.totalParts ↔
            Fits part text a.totalParts ∧ Usable batch m a.totalParts := by
          unfold Usable
          rw [forall_mem_cons]
          simp [hlook]
        have hstay : a.parts.filter (stays batch ((number, text, etag) :: m)) =
            (a.parts.filter fun p => p.1 ≠ number).filter (stays batch m) := by
          rw [filter_filter]
          refine filter_congr fun p _ => ?_
          unfold stays
          rw [all_cons, hlook, Bool.and_comm]
          by_cases hp : p.1 = number <;> simp [hp]
        unfold validatePartsLoop
        rw [hlook, hfound, husable, hstay, sizeOf_cons]
        dsimp only
        by_cases hmax : maximumAllowedPutSize < part.contentLength
        · rw [if_pos hmax]
          constructor
          · intro h
            cases h
          · rintro ⟨⟨hfits, -⟩, -, -⟩
            exact absurd hfits.1 (not_le_of_gt hmax)
        · by_cases hmin : part.contentLength < minimumAllowedPartSize ∧ text ≠ a.totalParts
          · rw [if_neg hmax, if_pos hmin]
            constructor
            · intro h
              cases h
            · rintro ⟨⟨hfits, -⟩, -, -⟩
              rcases hfits.2 with h | h
              · exact absurd h (not_le_of_gt hmin.1)
              · exact absurd h hmin.2
          · have hfits : Fits part text a.totalParts := by
              refine ⟨not_lt.mp hmax, ?_⟩
              by_contra h
              rw [not_or, not_le] at h
              exact hmin h
            rw [if_neg hmax, if_neg hmin, htext, hnum.stoul]
            show (if maximumAllowedObjectSize < a.objectSize + part.contentLength then _
              else _) = _ ↔ _
            by_cases hobject : maximumAllowedObjectSize < a.objectSize + part.contentLength
            · rw [if_pos hobject]
              constructor
              · intro h
                cases h
              · rintro ⟨-, hle, -⟩
                omega
            · rw [if_neg hobject, ih hk.tail (not_lt.mp hobject), hnum.toUInt, Nat.add_assoc]
              obtain ⟨left, hleft⟩ : ∃ left : RequestedParts,
                left = a.parts.filter fun p => p.1 ≠ number := ⟨_, rfl⟩
              have hstep := foldl_takePart_with_parts u (foundIn batch m) (takePart u a part) left
              have hresult := congrArg (fun x : S3PostCompleteAction =>
                { x with parts := left.filter (stays batch m) }) hstep
              rw [← hleft]
              constructor
              · rintro ⟨hrest, hle, heq⟩
                exact ⟨⟨htext ▸ hfits, hrest⟩, hle, heq.trans hresult⟩
              · rintro ⟨⟨-, hrest⟩, hle, heq⟩
                exact ⟨hrest, hle, heq.trans hresult.symm⟩

/-! ### Batch after batch -/

theorem Keyed.filter (h : Keyed parts) (q : Nat × Bytes × Bytes → Bool) :
    Keyed (parts.filter q) where
  sorted := List.Pairwise.filter _ h.sorted
  keyed := fun e he => h.keyed e (mem_of_mem_filter he)

theorem notIn_append (b b' : List (Bytes × Option StoredPart)) (parts : RequestedParts) :
    notIn (b ++ b') parts = notIn b' (notIn b parts) := by
  unfold notIn
  rw [filter_filter]
  refine filter_congr fun e _ => ?_
  rw [lookup_append]
  cases b.lookup e.2.1 with
  | none | some v => simp

/-- What two batches have of a request, the second of what the first has left. -/
theorem foundIn_append_perm (b b' : List (Bytes × Option StoredPart)) (parts : RequestedParts) :
    (foundIn (b ++ b') parts).Perm (foundIn b parts ++ foundIn b' (notIn b parts)) := by
  induction parts with
  | nil => exact List.Perm.refl _
  | cons e parts ih =>
    unfold foundIn notIn at ih ⊢
    rw [filterMap_cons, filterMap_cons, filter_cons, lookup_append]
    cases hb : b.lookup e.2.1 with
    | none =>
      rw [none_or, Option.isNone_none, if_pos rfl, filterMap_cons]
      cases hb' : (b'.lookup e.2.1).join with
      | none => simpa [hb'] using ih
      | some p =>
        simp only [Option.join_none]
        exact (ih.cons p).trans perm_middle.symm
    | some v =>
      cases v with
      | none | some p => simpa using ih

theorem usable_append {b b' : List (Bytes × Option StoredPart)} :
    Usable (b ++ b') parts total ↔ Usable b parts total ∧ Usable b' (notIn b parts) total := by
  constructor
  · intro h
    constructor
    · intro e he v hv
      exact h e he v (by rw [lookup_append, hv, some_or])
    · intro e he v hv
      obtain ⟨hmem, hnone⟩ := mem_filter.mp he
      exact h e hmem v (by
        rw [lookup_append, Option.isNone_iff_eq_none.mp hnone, none_or, hv])
  · rintro ⟨hb, hb'⟩ e he v hv
    rw [lookup_append] at hv
    cases hlook : b.lookup e.2.1 with
    | none =>
      rw [hlook, none_or] at hv
      exact hb' e (mem_filter.mpr ⟨he, by rw [hlook]; rfl⟩) v hv
    | some w =>
      rw [hlook, some_or, some.injEq] at hv
      exact hb e he v (by rw [hlook, hv])

theorem sizeOf_append (l l' : List StoredPart) : sizeOf (l ++ l') = sizeOf l + sizeOf l' := by
  unfold sizeOf
  rw [map_append, sum_append]

theorem sizeOf_perm {l l' : List StoredPart} (h : l.Perm l') : sizeOf l = sizeOf l' :=
  (h.map _).sum_eq

section Batches

variable (u : Upload) (parts : RequestedParts) (totalParts : Bytes)

/-- What has been noted when a front part of the index has been read. -/
def taken (done : List (Bytes × Option StoredPart)) : S3PostCompleteAction :=
  { (foundIn done parts).foldl (takePart u) { parts := parts, totalParts := totalParts } with
    parts := notIn done parts }

/-- What a front part of the index has of the request can be read and fits. -/
structure Acceptable (done : List (Bytes × Option StoredPart)) : Prop where
  usable : Usable done parts totalParts
  fits : sizeOf (foundIn done parts) ≤ maximumAllowedObjectSize

variable {u parts totalParts}

variable {done : List (Bytes × Option StoredPart)}

theorem Acceptable.of_append {rest : List (Bytes × Option StoredPart)}
    (h : Acceptable parts totalParts (done ++ rest)) : Acceptable parts totalParts done where
  usable := (usable_append.mp h.usable).1
  fits := by
    have hsize := sizeOf_perm (foundIn_append_perm done rest parts)
    rw [sizeOf_append] at hsize
    have := h.fits
    omega

theorem taken_objectSize (done : List (Bytes × Option StoredPart)) :
    (taken u parts totalParts done).objectSize = sizeOf (foundIn done parts) := by
  show ((foundIn done parts).foldl (takePart u) _).objectSize = _
  rw [foldl_takePart_objectSize]
  exact Nat.zero_add _

theorem taken_totalParts (done : List (Bytes × Option StoredPart)) :
    (taken u parts totalParts done).totalParts = totalParts :=
  (foldl_takePart_frame u (foundIn done parts) _).1

theorem taken_append (hk : Keyed parts) {batch : List (Bytes × Option StoredPart)}
    (hb : NumberedBatch (done ++ batch)) :
    taken u parts totalParts (done ++ batch) =
      { (foundIn batch (notIn done parts)).foldl (takePart u) (taken u parts totalParts done) with
        parts := notIn batch (notIn done parts) } := by
  unfold taken
  rw [foldl_takePart_with_parts, ← foldl_append, notIn_append,
    foldl_takePart_perm u (foundIn_append_perm done batch parts)
      (fun p hp => numbered_of_mem_foundIn hb hp) (nodup_foundIn hb hk)]

/-- **A batch is taken exactly when what it has fits.** -/
theorem validateParts_taken (hk : Keyed parts) {batch : List (Bytes × Option StoredPart)}
    (hb : NumberedBatch (done ++ batch)) (h : Acceptable parts totalParts done) (n : Nat)
    (k : Bytes) {a' : S3PostCompleteAction} :
    validateParts u batch { taken u parts totalParts done with
        validatedPartsCount := n
        lastKey := k } = .ok a' ↔
      Acceptable parts totalParts (done ++ batch) ∧
        a' = { taken u parts totalParts (done ++ batch) with
          validatedPartsCount := n
          lastKey := k } := by
  have hbatch : NumberedBatch batch := fun kv hkv => hb kv (mem_append_right _ hkv)
  have hleft : Keyed (notIn done parts) := hk.filter _
  have hsize : (taken u parts totalParts done).objectSize = sizeOf (foundIn done parts) :=
    taken_objectSize done
  have hperm := sizeOf_perm (foundIn_append_perm done batch parts)
  rw [sizeOf_append] at hperm
  refine (validatePartsLoop_eq_ok_iff u hbatch hleft ?_).trans ?_
  · exact hsize.trans_le h.fits
  show Usable batch (notIn done parts) (taken u parts totalParts done).totalParts ∧
    (taken u parts totalParts done).objectSize + _ ≤ _ ∧
    a' = { (foundIn batch (notIn done parts)).foldl (takePart u)
        { taken u parts totalParts done with
          parts := notIn done parts
          validatedPartsCount := n
          lastKey := k } with
      parts := (notIn done parts).filter (stays batch (notIn done parts)) } ↔ _
  rw [taken_totalParts, hsize, foldl_takePart_with, filter_stays hleft.sorted, ← hperm,
    taken_append hk hb]
  constructor
  · rintro ⟨husable, hfits, heq⟩
    exact ⟨⟨usable_append.mpr ⟨h.usable, husable⟩, hfits⟩, heq⟩
  · rintro ⟨haccept, heq⟩
    exact ⟨(usable_append.mp haccept.usable).2, haccept.fits, heq⟩

end Batches

/-! ### The whole index -/

theorem PartIndex.numberedBatch (i : PartIndex) : NumberedBatch i.entries := i.numbered

theorem stdStoul_eq_ok {n : Nat} : stdStoul s = .ok n ↔ stoul s = some n := by
  unfold stdStoul
  cases stoul s with
  | none | some n => simp

section Whole

variable {u : Upload} {md5String : Bytes → Bytes} {i : PartIndex} {parts : RequestedParts}
  {totalParts : Bytes}

variable {a : S3PostCompleteAction}

variable {a' : S3PostCompleteAction}

theorem finalizeParts_eq_ok :
    finalizeParts md5String a = .ok a' ↔
      a.parts = [] ∧ stoul a.totalParts = some a.validatedPartsCount ∧
        a' = { a with etag := generateEtag md5String a } := by
  unfold finalizeParts
  by_cases hparts : a.parts = []
  · rw [if_neg (not_not.mpr hparts)]
    constructor
    · intro h
      obtain ⟨total, htotal, h⟩ := bind_eq_ok.mp h
      split at h
      · cases h
      · rename_i hcount
        cases h
        exact ⟨hparts, by rw [stdStoul_eq_ok.mp htotal, not_not.mp hcount], rfl⟩
    · rintro ⟨-, htotal, rfl⟩
      refine bind_eq_ok.mpr ⟨_, stdStoul_eq_ok.mpr htotal, ?_⟩
      rw [if_neg (not_not.mpr rfl)]
  · rw [if_pos hparts]
    constructor
    · intro h
      cases h
    · rintro ⟨h, -⟩
      exact absurd h hparts

variable (i parts totalParts) in
/-- Nothing of the request is missing, and the index has as many parts as the last number says. -/
structure Counted : Prop where
  found : notIn i.entries parts = []
  count : stoul totalParts = some i.entries.length

variable (u md5String i parts totalParts) in
/-- The metadata that is saved. -/
def savedMetadata : Option S3NewObjectMetadata :=
  metadataToSave u { taken u parts totalParts i.entries with
    etag := generateEtag md5String (taken u parts totalParts i.entries) }

variable (u md5String i parts totalParts) in
/-- A result that saves what can be saved. -/
def Saves (r : Except Failure S3PostCompleteAction) : Prop :=
  ∀ md, (∃ a, r = .ok a ∧ metadataToSave u a = some md) ↔
    Acceptable parts totalParts i.entries ∧ Counted i parts totalParts ∧
      savedMetadata u md5String i parts totalParts = some md

theorem saves_error (f : Failure)
    (h : ¬ (Acceptable parts totalParts i.entries ∧ Counted i parts totalParts)) :
    Saves u md5String i parts totalParts (.error f) := by
  intro md
  constructor
  · rintro ⟨a, ha, -⟩
    cases ha
  · rintro ⟨haccept, hcount, -⟩
    exact absurd ⟨haccept, hcount⟩ h

theorem saves_finalizeParts (h : Acceptable parts totalParts i.entries) (k : Bytes) :
    Saves u md5String i parts totalParts (finalizeParts md5String
      { taken u parts totalParts i.entries with
        validatedPartsCount := i.entries.length
        lastKey := k }) := by
  intro md
  constructor
  · rintro ⟨a, ha, hmd⟩
    obtain ⟨hparts, hcount, rfl⟩ := finalizeParts_eq_ok.mp ha
    refine ⟨h, ⟨hparts, ?_⟩, hmd⟩
    have htotal : (taken u parts totalParts i.entries).totalParts = totalParts :=
      taken_totalParts i.entries
    rw [← htotal]
    exact hcount
  · rintro ⟨-, hcount, hmd⟩
    refine ⟨_, finalizeParts_eq_ok.mpr ⟨hcount.found, ?_, rfl⟩, hmd⟩
    exact (congrArg stoul (taken_totalParts i.entries)).trans hcount.count

variable {count : Nat}

variable {fuel : Nat}

theorem getNextPartsInfo_of_result {r : Except Failure S3PostCompleteAction}
    (h : fetchBatch u md5String i count a = .ofResult r) :
    getNextPartsInfo u md5String i count (fuel + 1) a = some r := by
  unfold getNextPartsInfo
  rw [h]
  cases r with
  | ok a | error f => rfl

theorem getNextPartsInfo_of_continueFetching
    (h : fetchBatch u md5String i count a = .continueFetching a') :
    getNextPartsInfo u md5String i count (fuel + 1) a =
      getNextPartsInfo u md5String i count fuel a' := by
  rw [getNextPartsInfo, h]

variable (u md5String) in
/-- **Reading on from any place in the index comes to what the whole index says.** -/
theorem getNextPartsInfo_saves (hcount : 1 ≤ count) (hk : Keyed parts) :
    ∀ (fuel : Nat) {done rest : List (Bytes × Option StoredPart)} {k : Bytes},
      i.entries = done ++ rest → after i.entries k = rest → rest.length < fuel →
      Acceptable parts totalParts done →
      ∃ r, getNextPartsInfo u md5String i count fuel { taken u parts totalParts done with
          validatedPartsCount := done.length
          lastKey := k } = some r ∧ Saves u md5String i parts totalParts r := by
  intro fuel
  induction fuel with
  | zero =>
    intro done rest k _ _ hfuel
    omega
  | succ fuel ih =>
    intro done rest k hsplit hafter hfuel haccept
    have hkeys : OrderedIndex.next i.entries k count false = rest.take count := by
      unfold OrderedIndex.next
      rw [if_neg (by decide), hafter]
    obtain ⟨a, ha⟩ : ∃ a, a = { taken u parts totalParts done with
      validatedPartsCount := done.length
      lastKey := k } := ⟨_, rfl⟩
    have hlast : a.lastKey = k := by rw [ha]
    rw [← ha]
    by_cases hrest : rest = []
    · -- nothing is left: NEXT finds no key
      subst hrest
      rw [append_nil] at hsplit
      subst hsplit
      have hfetch : fetchBatch u md5String i count a = .ofResult (finalizeParts md5String a) := by
        unfold fetchBatch
        rw [hlast, hkeys, take_nil]
        rfl
      exact ⟨_, getNextPartsInfo_of_result hfetch, ha ▸ saves_finalizeParts haccept k⟩
    · obtain ⟨batch, hbatch⟩ : ∃ b, b = rest.take count := ⟨_, rfl⟩
      have hne : batch ≠ [] := by
        rw [hbatch, Ne, take_eq_nil_iff]
        exact fun h => h.elim (by omega) hrest
      have hrestsplit : rest = batch ++ rest.drop count := by rw [hbatch, take_append_drop]
      have hsplit' : i.entries = (done ++ batch) ++ rest.drop count := by
        rw [append_assoc, ← hrestsplit, hsplit]
      have hnumbered : NumberedBatch (done ++ batch) := fun kv hkv =>
        i.numbered kv (by rw [hsplit']; exact mem_append_left _ hkv)
      have hfetch : fetchBatch u md5String i count a =
          getNextPartsInfoSuccessful u md5String count batch a := by
        unfold fetchBatch
        rw [hlast, hkeys, ← hbatch]
        exact if_neg hne
      unfold getNextPartsInfoSuccessful at hfetch
      cases hvalid : validateParts u batch a with
      | error f =>
        rw [hvalid] at hfetch
        refine ⟨.error f, getNextPartsInfo_of_result hfetch, saves_error f ?_⟩
        rintro ⟨hall, -⟩
        rw [hsplit'] at hall
        have := (validateParts_taken (u := u) hk hnumbered haccept done.length k).mpr
          ⟨hall.of_append, rfl⟩
        rw [← ha, hvalid] at this
        cases this
      | ok a' =>
        rw [hvalid] at hfetch
        rw [ha] at hvalid
        obtain ⟨haccept', rfl⟩ :=
          (validateParts_taken hk hnumbered haccept done.length k).mp hvalid
        dsimp only at hfetch
        by_cases hshort : batch.length < count
        · -- a short batch is the last one
          have hend : rest.drop count = [] := by
            rw [hbatch, length_take] at hshort
            exact drop_eq_nil_of_le (by omega)
          rw [hend, append_nil] at hsplit'
          rw [if_pos hshort, ← length_append, ← hsplit'] at hfetch
          rw [← hsplit'] at haccept'
          exact ⟨_, getNextPartsInfo_of_result hfetch, saves_finalizeParts haccept' k⟩
        · have hfull : batch.length = count := by
            rw [hbatch, length_take] at hshort ⊢
            omega
          obtain ⟨kv, hkv⟩ : ∃ kv, batch.getLast? = some kv :=
            Option.ne_none_iff_exists'.mp fun h => hne (List.getLast?_eq_none_iff.mp h)
          rw [if_neg hshort, hkv] at hfetch
          have hlength : done.length + count = (done ++ batch).length := by
            rw [length_append, hfull]
          rw [getNextPartsInfo_of_continueFetching hfetch, hlength]
          have hafter' : after i.entries kv.1 = rest.drop count := by
            obtain ⟨front, hfront⟩ := List.getLast?_eq_some_iff.mp hkv
            have hs := i.sorted
            rw [hsplit', hfront, ← append_assoc, append_assoc, singleton_append]
              at hs ⊢
            exact after_append hs
          refine ih hsplit' hafter' ?_ haccept'
          rw [length_drop]
          have hpos := length_pos_iff.mpr hrest
          omega

end Whole

end S3PostCompleteAction

end CortxS3

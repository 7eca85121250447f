/-
Which text of a request a condition compares.

A condition should read the query parameter of its key, decoded, or else the entry of that name.
The loop of the source takes the entry as it comes by, and at the query text it takes the first
piece in which the key occurs anywhere.  In a map in key order each name comes once, so the loop is
what happens before the query text, the query text, and what happens behind it.
-/
import CortxS3.Auth.PolicyCondition

namespace CortxS3

open Option (map_eq_none_iff or_none some.injEq)
open List

/-- A map in the order of its keys, in which case does not count. -/
def BodyMap.Ordered (C : CharacterData) (body : BodyMap) : Prop :=
  body.Pairwise fun a b => a.1.map C.fold < b.1.map C.fold
deriving Decidable

/-! ### What a condition should read -/

/-- The text of the query. -/
def queryText (body : BodyMap) : Option JavaString :=
  (body.find? fun entry => entry.1 = java "ClientQueryParams").map (·.2)

/-- The pieces of a query are a name, and a value behind the first equals sign. -/
def paramName (piece : JavaString) : JavaString := piece.takeWhile (· ≠ 61)

def paramValue (piece : JavaString) : JavaString := (piece.dropWhile (· ≠ 61)).drop 1

/-- The value of a query parameter, as it stands in the text. -/
def parameter (text name : JavaString) : Option JavaString :=
  ((JavaString.split 38 text).find? fun piece => paramName piece = name).map paramValue

/-- **The value of a key in a request**: that of the query parameter, decoded, or else that of the
entry. -/
def ownValue (C : CharacterData) (decode : JavaString → JavaString) (key : JavaString)
    (body : BodyMap) : Option JavaString :=
  match (queryText body).bind fun text => parameter text key with
  | some value => some (decode value)
  | none => body.get C key

/-! ### When it does -/

/-- The first piece of a query in which the key occurs. -/
def firstPiece (text key : JavaString) : Option JavaString :=
  (JavaString.split 38 text).find? fun param => decide (key <:+: param)

/-- What the query text must be like. -/
def QuerySound (C : CharacterData) (decode : JavaString → JavaString) (key : JavaString)
    (body : BodyMap) (text : JavaString) : Prop :=
  if C.equalsIgnoreCase (java "ClientQueryParams") key then
    ∀ value, parameter text key = some value → decode value = text
  else
    match firstPiece text key with
    | none =>
      -- an entry that came before it is forgotten
      (body.get C key).isSome = true →
        (java "ClientQueryParams").map C.fold < key.map C.fold
    | some piece =>
      ∃ found, (JavaString.split 61 piece)[1]? = some found ∧
        (∀ value, parameter text key = some value → decode value = found) ∧
        (parameter text key = none → body.get C key = some found)

def LookupSound (C : CharacterData) (decode : JavaString → JavaString) (key : JavaString)
    (body : BodyMap) : Prop :=
  ∀ text, queryText body = some text → QuerySound C decode key body text

/-! ### The loop -/

variable {C : CharacterData} {decode : JavaString → JavaString} {key : JavaString}

theorem equalsIgnoreCase_iff {a b : JavaString} :
    C.equalsIgnoreCase a b = true ↔ a.map C.fold = b.map C.fold := by
  unfold CharacterData.equalsIgnoreCase
  exact beq_iff_eq

variable {name value : JavaString} {rest : BodyMap}

theorem get_cons_of_eq (h : C.equalsIgnoreCase name key = true) :
    BodyMap.get C ((name, value) :: rest) key = some value := by
  simp [BodyMap.get, h]

theorem get_cons_of_ne (h : ¬C.equalsIgnoreCase name key = true) :
    BodyMap.get C ((name, value) :: rest) key = rest.get C key := by
  unfold BodyMap.get
  rw [List.find?_cons_of_neg (by simpa using h)]

theorem get_eq_none_of_ordered (hordered : BodyMap.Ordered C ((name, value) :: rest))
    (h : C.equalsIgnoreCase name key = true) : rest.get C key = none := by
  unfold BodyMap.get
  rw [map_eq_none_iff, List.find?_eq_none]
  intro entry hentry heq
  have hlt := (pairwise_cons.mp hordered).1 entry hentry
  rw [equalsIgnoreCase_iff.mp h, equalsIgnoreCase_iff.mp heq] at hlt
  exact absurd hlt (List.lt_irrefl _)

variable {front : BodyMap}

/-- Entries that are not the query text only leave the value of the key. -/
theorem headerLoop_append (rest : BodyMap) :
    ∀ headerVal, BodyMap.Ordered C front →
      (∀ entry ∈ front, entry.1 = java "ClientQueryParams" →
        C.equalsIgnoreCase entry.1 key = true) →
      headerLoop C key (front ++ rest) headerVal =
        headerLoop C key rest ((front.get C key).or headerVal) := by
  induction front with
  | nil => exact fun _ _ _ => rfl
  | cons entry front ih =>
    intro headerVal hordered hquery
    obtain ⟨name, value⟩ := entry
    have hordered' := (pairwise_cons.mp hordered).2
    have hquery' := fun e (he : e ∈ front) => hquery e (mem_cons_of_mem _ he)
    rw [cons_append, headerLoop]
    by_cases heq : C.equalsIgnoreCase name key = true
    · rw [if_pos heq, ih _ hordered' hquery', get_eq_none_of_ordered hordered heq,
        get_cons_of_eq heq]
      rfl
    · have hname : name ≠ java "ClientQueryParams" :=
        fun h => heq (hquery _ mem_cons_self h)
      rw [if_neg heq, if_neg hname, ih _ hordered' hquery', get_cons_of_ne heq]

variable {body : BodyMap}

theorem headerValue_of_none (hordered : BodyMap.Ordered C body)
    (hquery : ∀ entry ∈ body, entry.1 = java "ClientQueryParams" →
      C.equalsIgnoreCase entry.1 key = true) : headerValue C key body = .ok (body.get C key) := by
  have h := @headerLoop_append C key _ [] none hordered hquery
  rw [append_nil] at h
  rw [headerValue, h, headerLoop, or_none]

/-- The entries around the query text. -/
structure Around (C : CharacterData) (body front : BodyMap) (text : JavaString)
    (back : BodyMap) : Prop where
  split : body = front ++ (java "ClientQueryParams", text) :: back
  front : ∀ entry ∈ front, entry.1.map C.fold < (java "ClientQueryParams").map C.fold
  back : ∀ entry ∈ back, (java "ClientQueryParams").map C.fold < entry.1.map C.fold

variable {text : JavaString}

theorem exists_around (hordered : BodyMap.Ordered C body) (htext : queryText body = some text) :
    ∃ front back, Around C body front text back := by
  obtain ⟨entry, hentry, hvalue⟩ := Option.map_eq_some_iff.mp htext
  obtain ⟨hname, front, back, hsplit, -⟩ := List.find?_eq_some_iff_append.mp hentry
  have hname : entry.1 = java "ClientQueryParams" := by simpa using hname
  have hentry : entry = (java "ClientQueryParams", text) := Prod.ext hname hvalue
  rw [hentry] at hsplit
  refine ⟨front, back, hsplit, ?_, ?_⟩
  · intro e he
    rw [BodyMap.Ordered, hsplit] at hordered
    exact (pairwise_append.mp hordered).2.2 e he _ mem_cons_self
  · intro e he
    rw [BodyMap.Ordered, hsplit] at hordered
    exact (pairwise_cons.mp (pairwise_append.mp hordered).2.1).1 e he

variable {back : BodyMap}

section

variable (h : Around C body front text back)

include h

theorem Around.get_front
    (hlt : (java "ClientQueryParams").map C.fold < key.map C.fold) : front.get C key = none := by
  unfold BodyMap.get
  rw [map_eq_none_iff, List.find?_eq_none]
  intro entry hentry heq
  have hfront := h.front entry hentry
  rw [equalsIgnoreCase_iff.mp heq] at hfront
  exact absurd hfront (List.lt_asymm hlt)

theorem Around.get_back
    (hlt : ¬(java "ClientQueryParams").map C.fold < key.map C.fold) : back.get C key = none := by
  unfold BodyMap.get
  rw [map_eq_none_iff, List.find?_eq_none]
  intro entry hentry heq
  have hback := h.back entry hentry
  rw [equalsIgnoreCase_iff.mp heq] at hback
  exact hlt hback

theorem Around.get (hkey : ¬C.equalsIgnoreCase (java "ClientQueryParams") key = true) :
    body.get C key = (front.get C key).or (back.get C key) := by
  rw [h.split]
  unfold BodyMap.get
  rw [List.find?_append, List.find?_cons_of_neg (by simpa using hkey), Option.map_or]

theorem Around.ordered (hordered : BodyMap.Ordered C body) :
    BodyMap.Ordered C front ∧ BodyMap.Ordered C back := by
  rw [BodyMap.Ordered, h.split] at hordered
  have happend := pairwise_append.mp hordered
  exact ⟨happend.1, (pairwise_cons.mp happend.2.1).2⟩

/-- The loop at the query text: what came before it is overwritten. -/
theorem Around.headerValue (hordered : BodyMap.Ordered C body)
    (hkey : ¬C.equalsIgnoreCase (java "ClientQueryParams") key = true) :
    headerValue C key body =
      match firstPiece text key with
      | none => .ok (back.get C key)
      | some piece =>
        match (JavaString.split 61 piece)[1]? with
        | some found => .ok (some found)
        | none => .error .arrayIndexOutOfBounds := by
  have hirrefl : ∀ {s : List UInt16}, ¬s < s := fun {s} => List.lt_irrefl s
  have hfront : ∀ entry ∈ front, entry.1 = java "ClientQueryParams" →
      C.equalsIgnoreCase entry.1 key = true := by
    intro entry hentry hname
    have := h.front entry hentry
    rw [hname] at this
    exact absurd this hirrefl
  have hback : ∀ entry ∈ back, entry.1 = java "ClientQueryParams" →
      C.equalsIgnoreCase entry.1 key = true := by
    intro entry hentry hname
    have := h.back entry hentry
    rw [hname] at this
    exact absurd this hirrefl
  obtain ⟨hordered₁, hordered₂⟩ := h.ordered hordered
  rw [CortxS3.headerValue, h.split, headerLoop_append _ _ hordered₁ hfront, headerLoop,
    if_neg hkey, if_pos rfl]
  unfold PolicyUtil.fetchQueryParamValue
  rw [show (JavaString.split 38 text).find? (fun param => decide (key <:+: param)) =
    firstPiece text key from rfl]
  cases firstPiece text key with
  | none =>
    have hloop := @headerLoop_append C key _ [] none hordered₂ hback
    rw [append_nil, headerLoop, or_none] at hloop
    exact hloop
  | some piece =>
    simp only [JavaString.elem]
    cases (JavaString.split 61 piece)[1]? <;> rfl

end

/-! ### Every request -/

theorem ownValue_of_none (h : queryText body = none) :
    ownValue C decode key body = body.get C key := by
  unfold ownValue
  rw [h]
  rfl

theorem ownValue_of_some (h : queryText body = some text) :
    ownValue C decode key body =
      match parameter text key with
      | some value => some (decode value)
      | none => body.get C key := by
  unfold ownValue
  rw [h]
  rfl

theorem parameter_eq_none (h : firstPiece text key = none) : parameter text key = none := by
  unfold parameter
  rw [map_eq_none_iff, List.find?_eq_none]
  intro piece hpiece hname
  have hno := List.find?_eq_none.mp h piece hpiece
  refine hno (decide_eq_true ?_)
  have hname : paramName piece = key := by simpa using hname
  rw [← hname]
  exact (List.takeWhile_prefix _).isInfix

theorem lookup_whole (hordered : BodyMap.Ordered C body) (htext : queryText body = some text)
    (hkey : C.equalsIgnoreCase (java "ClientQueryParams") key = true) :
    headerValue C key body = .ok (ownValue C decode key body) ↔
      ∀ value, parameter text key = some value → decode value = text := by
  obtain ⟨front, back, h⟩ := exists_around hordered htext
  have hquery : ∀ entry ∈ body, entry.1 = java "ClientQueryParams" →
      C.equalsIgnoreCase entry.1 key = true := by
    intro entry _ hname
    rw [hname]
    exact hkey
  have hfront : front.get C key = none := by
    unfold BodyMap.get
    rw [map_eq_none_iff, List.find?_eq_none]
    intro entry hentry heq
    have hlt := h.front entry hentry
    rw [equalsIgnoreCase_iff.mp heq, equalsIgnoreCase_iff.mp hkey] at hlt
    exact absurd hlt (List.lt_irrefl _)
  have hget : body.get C key = some text := by
    have hfind := map_eq_none_iff.mp hfront
    rw [h.split]
    unfold BodyMap.get
    rw [List.find?_append, hfind, List.find?_cons_of_pos (by simpa using hkey)]
    rfl
  rw [headerValue_of_none hordered hquery, ownValue_of_some htext, hget]
  cases parameter text key with
  | none => simp
  | some value => simp [eq_comm]

/-- **A condition reads its own value exactly when it is not misled by the query text**: no piece
of it contains the key and no entry of the key has come before it; or the first piece that
contains the key has the right value behind its first equals sign. -/
theorem lookup_iff (C : CharacterData) (decode : JavaString → JavaString) (key : JavaString)
    (body : BodyMap) (hordered : BodyMap.Ordered C body) :
    headerValue C key body = .ok (ownValue C decode key body) ↔ LookupSound C decode key body := by
  unfold LookupSound
  cases htext : queryText body with
  | none =>
    have hquery : ∀ entry ∈ body, entry.1 = java "ClientQueryParams" →
        C.equalsIgnoreCase entry.1 key = true := by
      intro entry hentry hname
      have hno := List.find?_eq_none.mp (map_eq_none_iff.mp htext) entry hentry
      exact absurd (decide_eq_true hname) hno
    rw [headerValue_of_none hordered hquery, ownValue_of_none htext]
    simp
  | some text =>
    simp only [some.injEq, forall_eq']
    unfold QuerySound
    by_cases hkey : C.equalsIgnoreCase (java "ClientQueryParams") key = true
    · rw [if_pos hkey]
      exact lookup_whole hordered htext hkey
    · rw [if_neg hkey]
      obtain ⟨front, back, h⟩ := exists_around hordered htext
      rw [h.headerValue hordered hkey, ownValue_of_some htext, h.get hkey]
      cases hpiece : firstPiece text key with
      | none =>
        rw [parameter_eq_none hpiece]
        simp only [Except.ok.injEq]
        by_cases hlt : (java "ClientQueryParams").map C.fold < key.map C.fold
        · rw [h.get_front hlt]
          simp [hlt]
        · rw [h.get_back hlt]
          simp only [or_none, hlt, imp_false, Bool.not_eq_true,
            Option.isSome_eq_false_iff, Option.isNone_iff_eq_none]
          exact eq_comm
      | some piece =>
        simp only
        cases hfound : (JavaString.split 61 piece)[1]? with
        | none => simp
        | some found =>
          cases parameter text key with
          | none => simp [eq_comm]
          | some value => simp [eq_comm]

/-- What percent encoding stands for, as long as it is ASCII. -/
def percentDecoded : JavaString → JavaString
  | 37 :: high :: low :: rest =>
    (16 * hexDigitOf high + hexDigitOf low) :: percentDecoded rest
  | c :: rest => c :: percentDecoded rest
  | [] => []
where
  hexDigitOf (c : UInt16) : UInt16 :=
    if c ≤ 57 then c - 48 else if c ≤ 70 then c - 55 else c - 87

/-- Another parameter with the key in its name is taken for it. -/
theorem not_lookup_otherName :
    headerValue .ofAscii (java "prefix") [(java "ClientQueryParams", java "x-prefix=1")] ≠
      .ok (ownValue .ofAscii percentDecoded (java "prefix")
        [(java "ClientQueryParams", java "x-prefix=1")]) := by
  have hfound : headerValue .ofAscii (java "prefix")
      [(java "ClientQueryParams", java "x-prefix=1")] = .ok (some (java "1")) := by
    decide
  have hown : ownValue .ofAscii percentDecoded (java "prefix")
      [(java "ClientQueryParams", java "x-prefix=1")] = none := by
    decide
  rw [hfound, hown]
  simp

/-- A request that lists a bucket. -/
def listing : BodyMap :=
  [(java "ClientQueryParams", java "max-keys=5&prefix=abc"), (java "Host", java "s3.seagate.com")]

theorem lookup_iff_listing :
    headerValue .ofAscii (java "prefix") listing =
      .ok (ownValue .ofAscii percentDecoded (java "prefix") listing) := by
  refine (lookup_iff .ofAscii percentDecoded (java "prefix") listing (by decide)).mpr ?_
  intro text htext
  rw [show queryText listing = some (java "max-keys=5&prefix=abc") from by decide,
    some.injEq] at htext
  rw [← htext, QuerySound, if_neg (by decide),
    show firstPiece (java "max-keys=5&prefix=abc") (java "prefix") =
      some (java "prefix=abc") from by decide]
  have hparameter : parameter (java "max-keys=5&prefix=abc") (java "prefix") =
      some (java "abc") := by
    decide
  refine ⟨java "abc", by decide, ?_, ?_⟩
  · intro value hvalue
    rw [hparameter, some.injEq] at hvalue
    rw [← hvalue]
    decide
  · intro hnone
    rw [hparameter] at hnone
    exact absurd hnone (by simp)

end CortxS3

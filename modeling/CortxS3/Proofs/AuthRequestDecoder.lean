/-
What the auth server is told by the S3 server, and what by the S3 client.

The S3 server writes its fields over the headers, in a map that tells spellings apart.  The
auth server reads them by names that do not.  So what it reads for a field is, of all the
spellings of the name in the body, the one that comes last there (`told_eq`).  The server's own
is not the last one when a header spells the name with a lower-case letter where the server has
an upper-case one, and there is none of the server's when it leaves the field out.  `Action` is
sent ahead of the map, so that any header of this name comes after it.

A header that gets through like this is an `overriding` one.  With none of them, or with one
that happens to say what the server says, the auth server is told what the server set, and that
is exactly when (`faithful_iff_harmless`).
-/
import CortxS3.Auth.AuthRequestDecoder
import CortxS3.Proofs.AuthClient

namespace CortxS3

open Option (elim_none map_some or_none)
open List

namespace AuthRequestDecoder

open SortedMap

/-! ### Reading a form -/

theorem get_put (m : RequestBodyMap) (p : Bytes × Bytes) {f : Bytes}
    (hf : (ascii "x-amz-").isPrefixOf f = false) :
    SortedMap.get f (put m p) = if foldCase p.1 = f then some p.2 else SortedMap.get f m := by
  unfold put
  by_cases h : foldCase p.1 = f
  · rw [if_pos h, h, get_set_self, hf]
    cases m.get p.1 <;> rfl
  · rw [if_neg h]
    exact get_set_of_ne (fun hc => h hc.symm) _ _

/-- **Of the pairs that share a name the last one counts.** -/
theorem get_parseRequestBody (pairs : List (Bytes × Bytes)) {f : Bytes}
    (hf : (ascii "x-amz-").isPrefixOf f = false) :
    SortedMap.get f (parseRequestBody pairs) =
      lastWrite f (pairs.map fun p => (foldCase p.1, p.2)) := by
  induction pairs using List.reverseRecOn with
  | nil => rfl
  | append_singleton pairs p ih =>
    unfold parseRequestBody at ih ⊢
    rw [foldl_append, map_append, lastWrite_append, ← ih]
    show SortedMap.get f (put (pairs.foldl put []) p) =
      (lastWrite f [(foldCase p.1, p.2)]).or _
    rw [get_put _ _ hf, lastWrite_cons, lastWrite_nil]
    by_cases h : foldCase p.1 = f
    · rw [if_pos h, if_pos h]
      rfl
    · rw [if_neg h, if_neg h]
      rfl

end AuthRequestDecoder

namespace S3AuthClient

open SortedMap AuthRequestDecoder

/-! ### What the auth server is told -/

/-- What the auth server reads for a field in the body of a request. -/
def told (c : S3AuthClient) (r : RequestObject) (f : AuthField) : Option Bytes :=
  (parseRequestBody (setupAuthRequestBody c r).2).get f.name

/-- What the S3 server set the field to, as far as C passes it on. -/
def serverSets (c : S3AuthClient) (r : RequestObject) (f : AuthField) : Option Bytes :=
  (lastWrite f ((.action, actionOf c.opType) :: serverKeyVals c r)).map cStr

/-- The headers that go by the name of a field, in some spelling. -/
def spellings (c : S3AuthClient) (r : RequestObject) (f : AuthField) : AuthBody :=
  (headerKeyVals c r).filter fun h => foldCase h.1 = foldCase f.name

/-- Those of them that stand behind the field in the body: all of them when the server does not
set the field, and all of them for `Action`. -/
def overriding (c : S3AuthClient) (r : RequestObject) (f : AuthField) : AuthBody :=
  (spellings c r f).filter fun h => f = .action ∨ serverSets c r f = none ∨ f.name < h.1

theorem sorted_headerKeyVals (c : S3AuthClient) (r : RequestObject) :
    OrderedIndex.Sorted (headerKeyVals c r) := by
  unfold headerKeyVals
  split
  · exact List.Pairwise.nil
  · exact sorted_ofWrites _

theorem sorted_spellings (c : S3AuthClient) (r : RequestObject) (f : AuthField) :
    OrderedIndex.Sorted (spellings c r f) :=
  (sorted_headerKeyVals c r).filter _

variable {c : S3AuthClient} {f : AuthField} {r : RequestObject}

theorem nulFree_spellings : ∀ h ∈ spellings c r f, NulFree h.2 := by
  intro h hh
  have hmem := (mem_filter.mp hh).1
  unfold headerKeyVals at hmem
  split at hmem
  · cases hmem
  · exact nulFree_value_getInHeadersCopy r h hmem

theorem lastWrite_addNonEmptyKeyVal {key : AuthField} (h : key ≠ f) (val : Bytes) :
    lastWrite f (addNonEmptyKeyVal key val) = none := by
  unfold addNonEmptyKeyVal
  split
  · rfl
  · rw [lastWrite_cons, if_neg h]
    rfl

theorem lastWrite_action (c : S3AuthClient) (r : RequestObject) :
    lastWrite .action (serverKeyVals c r) = none := by
  have hauthorization : lastWrite .action (authorizationKeyVals c r) = none := by
    unfold authorizationKeyVals addNonEmptyKeyVals
    rw [lastWrite_append, lastWrite_append, lastWrite_append,
      lastWrite_addNonEmptyKeyVal (by decide), lastWrite_addNonEmptyKeyVal (by decide),
      lastWrite_addNonEmptyKeyVal (by decide)]
    cases r.s3 with
    | none => rfl
    | some s3 =>
      dsimp only
      rw [lastWrite_append, lastWrite_append, lastWrite_append,
        lastWrite_addNonEmptyKeyVal (by decide), lastWrite_addNonEmptyKeyVal (by decide)]
      split <;> split <;> rfl
  have hop : lastWrite .action (opKeyVals c r) = none := by
    unfold opKeyVals
    cases c.opType with
    | authentication =>
      dsimp only
      unfold chunkKeyVals
      split <;> rfl
    | authorization | comboAuth => exact hauthorization
    | aclvalidation | policyvalidation => rfl
  unfold serverKeyVals
  rw [lastWrite_append, hop]
  rfl

theorem filter_dataKeyVal (c : S3AuthClient) (r : RequestObject) (f : AuthField) :
    (dataKeyVal c r).filter (fun p => foldCase p.1 = foldCase f.name) =
      (lastWrite f (serverKeyVals c r)).elim (spellings c r f)
        fun v => set f.name v (spellings c r f) := by
  let q : Bytes → Bool := fun n => foldCase n = foldCase f.name
  have hsame : ∀ p ∈ ((serverKeyVals c r).map fun p => (p.1.name, p.2)).filter
      (fun p => q p.1), p.1 = f.name := by
    intro p hp
    obtain ⟨hmem, hq⟩ := mem_filter.mp hp
    obtain ⟨p', _, rfl⟩ := mem_map.mp hmem
    exact congrArg AuthField.name (foldCase_name_injective (of_decide_eq_true hq))
  have hlast : lastWrite f.name (((serverKeyVals c r).map fun p => (p.1.name, p.2)).filter
      fun p => q p.1) = lastWrite f (serverKeyVals c r) := by
    rw [lastWrite_filter (by simp [q]), lastWrite_map name_injective]
  have hfilter := filter_ofWrites q
    (headerKeyVals c r ++ (serverKeyVals c r).map fun p => (p.1.name, p.2))
  rw [filter_append, ofWrites_append_same _ hsame, hlast,
    show (headerKeyVals c r).filter (fun p => q p.1) = spellings c r f from rfl,
    ofWrites_of_sorted (sorted_spellings c r f)] at hfilter
  exact hfilter

theorem told_eq_getLast? (c : S3AuthClient) (r : RequestObject)
    (hf : (ascii "x-amz-").isPrefixOf (foldCase f.name) = false) :
    told c r f =
      ((((dataKeyVal c r).filter fun p => foldCase p.1 = foldCase f.name).getLast?).map
        fun p => cStr p.2).or
        (if AuthField.action = f then some (actionOf c.opType) else none) := by
  unfold told RequestBodyMap.get
  rw [get_parseRequestBody _ hf]
  show lastWrite (foldCase f.name) ((foldCase AuthField.action.name, actionOf c.opType) ::
    ((dataKeyVal c r).map fun p => (cStr p.1, cStr p.2)).map fun p => (foldCase p.1, p.2)) = _
  have hmap : (dataKeyVal c r).map
      ((fun p : Bytes × Bytes => (foldCase p.1, p.2)) ∘ fun p => (cStr p.1, cStr p.2)) =
      (dataKeyVal c r).map fun p => (foldCase p.1, cStr p.2) := by
    apply map_congr_left
    intro p hp
    simp only [Function.comp, cStr_of_nulFree (nulFree_dataKeyVal c r p hp)]
  rw [lastWrite_cons, map_map, hmap, lastWrite_map_eq_getLast?]
  congr 1
  by_cases h : AuthField.action = f
  · rw [if_pos h, if_pos (by rw [h])]
  · rw [if_neg h, if_neg (fun hc => h (foldCase_name_injective hc))]

theorem getLast?_map_cStr {l : AuthBody} (hl : ∀ h ∈ l, h ∈ spellings c r f) :
    l.getLast?.map (fun p => cStr p.2) = l.getLast?.map Prod.snd := by
  cases hlast : l.getLast? with
  | none => rfl
  | some h =>
    rw [map_some, map_some, cStr_of_nulFree (nulFree_spellings h (hl h (mem_of_getLast? hlast)))]

theorem overriding_eq_spellings (h : f = .action ∨ serverSets c r f = none) :
    overriding c r f = spellings c r f := by
  unfold overriding
  rw [filter_eq_self]
  intro p _
  rcases h with h | h <;> simp [h]

theorem serverSets_action (c : S3AuthClient) (r : RequestObject) :
    serverSets c r .action = some (actionOf c.opType) := by
  unfold serverSets
  rw [lastWrite_cons, lastWrite_action]
  cases c.opType <;> decide

theorem serverSets_of_ne (h : AuthField.action ≠ f) (c : S3AuthClient) (r : RequestObject) :
    serverSets c r f = (lastWrite f (serverKeyVals c r)).map cStr := by
  unfold serverSets
  rw [lastWrite_cons, if_neg h, or_none]

/-- **What the auth server reads is what the last overriding header says, and what the server
set when there is none.** -/
theorem told_eq (c : S3AuthClient) (r : RequestObject)
    (hf : (ascii "x-amz-").isPrefixOf (foldCase f.name) = false) :
    told c r f = (((overriding c r f).getLast?).map Prod.snd).or (serverSets c r f) := by
  rw [told_eq_getLast? c r hf, filter_dataKeyVal]
  by_cases haction : AuthField.action = f
  · subst haction
    rw [lastWrite_action, overriding_eq_spellings (Or.inl rfl), serverSets_action, if_pos rfl,
      elim_none, getLast?_map_cStr (fun h hh => hh)]
  · have hset := serverSets_of_ne haction c r
    rw [if_neg haction, or_none, hset]
    cases hw : lastWrite f (serverKeyVals c r) with
    | none =>
      rw [hw] at hset
      rw [elim_none, overriding_eq_spellings (Or.inr hset),
        getLast?_map_cStr (fun h hh => hh)]
      exact or_none.symm
    | some v =>
      have hbehind : overriding c r f =
          (spellings c r f).filter fun h => f.name < h.1 := by
        unfold overriding
        apply filter_congr
        intro h _
        rw [hset, hw]
        simp [Ne.symm haction]
      rw [Option.elim_some, getLast?_set (sorted_spellings c r f), hbehind,
        ← getLast?_map_cStr (fun h hh => (mem_filter.mp hh).1)]
      cases ((spellings c r f).filter fun h => decide (f.name < h.1)).getLast? <;> rfl

/-! ### Two requests in one state of the server -/

/-- The fields a client must not forge. -/
def ownedFields : List AuthField :=
  [ .action, .method, .requestorAccountId, .requestorAccountName, .requestorUserId,
    .requestorUserName, .requestorEmail, .requestorCanonicalId, .clientAbsoluteUri,
    .clientQueryParams, .s3Action, .s3ActionList, .policy, .authACL, .bucketACL, .requestACL,
    .previousSignature, .currentSignature ]

/-- Two requests that differ in headers alone, and only in headers whose names are not part of
the signature check. -/
structure SameButUnsigned (signed : Bytes → Bool) (r₁ r₂ : RequestObject) : Prop where
  same : r₂ = { r₁ with headersIn := r₂.headersIn }
  signed : r₁.headersIn.filter (fun h => signed (cStr h.1)) =
    r₂.headersIn.filter (fun h => signed (cStr h.1))

/-- The auth server is told for both what the server set, and so the same. -/
def Faithful (c : S3AuthClient) (r₁ r₂ : RequestObject) : Prop :=
  ∀ f ∈ ownedFields, told c r₁ f = serverSets c r₁ f ∧ told c r₂ f = told c r₁ f

/-- No header overrides a field, unless with the very value of the field. -/
def Harmless (c : S3AuthClient) (r : RequestObject) : Prop :=
  ∀ f ∈ ownedFields, ∀ h, (overriding c r f).getLast? = some h → serverSets c r f = some h.2

variable {r₁ r₂ : RequestObject} {signed : Bytes → Bool}

theorem find?_getInHeadersCopy (h : SameButUnsigned signed r₁ r₂) {p : Bytes × Bytes → Bool}
    (hp : ∀ q, p q = true → signed q.1 = true) :
    r₁.getInHeadersCopy.find? p = r₂.getInHeadersCopy.find? p := by
  have hcut : ∀ r : RequestObject, r.getInHeadersCopy.find? p =
      (ofWrites ((r.headersIn.filter fun h => signed (cStr h.1)).map
        RequestObject.consumeHeader)).find? p := by
    intro r
    have hmap : (r.headersIn.filter fun h => signed (cStr h.1)).map RequestObject.consumeHeader =
        (r.headersIn.map RequestObject.consumeHeader).filter fun q => signed q.1 := by
      rw [filter_map]
      rfl
    rw [hmap, ← filter_ofWrites, List.find?_filter]
    unfold RequestObject.getInHeadersCopy
    congr 1
    funext q
    cases hq : p q with
    | false => simp
    | true => simp [hp q hq]
  rw [hcut r₁, hcut r₂, h.signed]

theorem getHeaderValue_authorization
    (hauth : ∀ n, foldCase n = foldCase (ascii "Authorization") → signed n = true)
    (h : SameButUnsigned signed r₁ r₂) :
    r₁.getHeaderValue (ascii "Authorization") = r₂.getHeaderValue (ascii "Authorization") := by
  have hfind : ∀ r : RequestObject, r.getInHeadersCopy.find?
      (fun h => sameIgnoringCase h.1 (ascii "Authorization")) = r.getInHeadersCopy.find?
      (fun h => foldCase h.1 = foldCase (ascii "Authorization")) := by
    intro r
    apply List.find?_congr
    intro p hp
    unfold sameIgnoringCase
    rw [cStr_of_nulFree (nulFree_getInHeadersCopy r p hp),
      show cStr (ascii "Authorization") = ascii "Authorization" by decide]
    exact beq_eq_decide _ _
  unfold RequestObject.getHeaderValue
  rw [hfind r₁, hfind r₂, find?_getInHeadersCopy h]
  intro q hq
  exact hauth q.1 (of_decide_eq_true hq)

/-- What the server sets does not depend on the headers that are not checked. -/
theorem serverSets_eq (c : S3AuthClient)
    (hauth : ∀ n, foldCase n = foldCase (ascii "Authorization") → signed n = true)
    (h : SameButUnsigned signed r₁ r₂) (f : AuthField) : serverSets c r₁ f = serverSets c r₂ f := by
  have hvalue := getHeaderValue_authorization hauth h
  have hpath : entityPathFor c r₁ = entityPathFor c r₂ := by
    unfold entityPathFor
    rw [hvalue, h.same]
  have hcommon : commonKeyVals c r₁ = commonKeyVals c r₂ := by
    unfold commonKeyVals
    rw [hpath, h.same]
    rfl
  have hop : opKeyVals c r₁ = opKeyVals c r₂ := by
    rw [h.same]
    rfl
  unfold serverSets serverKeyVals
  rw [hcommon, hop]

theorem not_joined : ∀ f ∈ ownedFields,
    (ascii "x-amz-").isPrefixOf (foldCase f.name) = false := by
  decide

/-- One field of one request is told as it was set exactly when no header says otherwise. -/
theorem told_eq_serverSets_iff (c : S3AuthClient) (r : RequestObject) (hf : f ∈ ownedFields) :
    told c r f = serverSets c r f ↔
      ∀ h, (overriding c r f).getLast? = some h → serverSets c r f = some h.2 := by
  rw [told_eq c r (not_joined f hf)]
  cases hlast : (overriding c r f).getLast? with
  | none =>
    constructor
    · intro _ h hh
      cases hh
    · intro _
      rfl
  | some h =>
    rw [map_some, Option.some_or]
    constructor
    · intro heq h' hh'
      rw [← Option.some.inj hh']
      exact heq.symm
    · intro hall
      exact (hall h rfl).symm

/-- **The auth server is told what the S3 server set, whatever the headers that are not checked,
exactly when no such header overrides a field.**

A header overrides a field when its name is the field's but for letter case and it stands behind
the field: it is spelt so that it sorts behind the server's own spelling, or the server does not
set the field, or the field is `Action`. -/
theorem faithful_iff_harmless (c : S3AuthClient) {signed : Bytes → Bool}
    {r₁ r₂ : RequestObject}
    (hauth : ∀ n, foldCase n = foldCase (ascii "Authorization") → signed n = true)
    (h : SameButUnsigned signed r₁ r₂) :
    Faithful c r₁ r₂ ↔ Harmless c r₁ ∧ Harmless c r₂ := by
  constructor
  · intro hfaith
    refine ⟨fun f hf => ?_, fun f hf => ?_⟩
    · exact (told_eq_serverSets_iff c r₁ hf).mp (hfaith f hf).1
    · rw [← told_eq_serverSets_iff c r₂ hf, (hfaith f hf).2, (hfaith f hf).1]
      exact serverSets_eq c hauth h f
  · rintro ⟨h₁, h₂⟩ f hf
    have t₁ := (told_eq_serverSets_iff c r₁ hf).mpr (h₁ f hf)
    have t₂ := (told_eq_serverSets_iff c r₂ hf).mpr (h₂ f hf)
    refine ⟨t₁, ?_⟩
    rw [t₁, t₂]
    exact (serverSets_eq c hauth h f).symm

/-- The headers that count for the signature of the requests below. -/
def hostSigned (n : Bytes) : Bool :=
  foldCase n = ascii "authorization" || foldCase n = ascii "host" ||
    foldCase n = ascii "x-amz-date" || foldCase n = ascii "x-amz-content-sha256"

theorem hostSigned_authorization :
    ∀ n, foldCase n = foldCase (ascii "Authorization") → hostSigned n = true := by
  intro n hn
  have hlower : foldCase (ascii "Authorization") = ascii "authorization" := by decide
  unfold hostSigned
  rw [hn, hlower]
  decide

/-- A request to read an object, signed by its host. -/
def getObject : RequestObject where
  httpVerb := .GET
  headersIn :=
    [ (ascii "Host", ascii "s3"),
      (ascii "Authorization",
        ascii "AWS4-HMAC-SHA256 Credential=AKIA/d/r/s3,SignedHeaders=host,Signature=5eed") ]
  fullEncodedPath := some (ascii "/b/o")
  s3 := some { apiType := .object, actionStr := ascii "GetObject", bucketName := ascii "b" }

/-- The same request with one header more. -/
def getObjectWith (header : Bytes × Bytes) : RequestObject :=
  { getObject with headersIn := getObject.headersIn ++ [header] }

theorem faithful_iff_harmless_userAgent :
    Faithful { opType := .comboAuth } getObject
      (getObjectWith (ascii "User-Agent", ascii "aws-cli")) := by
  have hsame : SameButUnsigned hostSigned getObject
      (getObjectWith (ascii "User-Agent", ascii "aws-cli")) := ⟨rfl, by decide⟩
  refine (faithful_iff_harmless _ hostSigned_authorization hsame).mpr ⟨?_, ?_⟩
  · have hnone : ∀ f ∈ ownedFields,
        overriding { opType := .comboAuth } getObject f = [] := by decide
    intro f hf h hh
    rw [hnone f hf] at hh
    cases hh
  · have hnone : ∀ f ∈ ownedFields, overriding { opType := .comboAuth }
        (getObjectWith (ascii "User-Agent", ascii "aws-cli")) f = [] := by decide
    intro f hf h hh
    rw [hnone f hf] at hh
    cases hh

/-- **A header named `s3action` changes what is asked for.** -/
theorem not_faithful_s3action :
    SameButUnsigned hostSigned getObject
        (getObjectWith (ascii "s3action", ascii "ListBucket")) ∧
      told { opType := .comboAuth } (getObjectWith (ascii "s3action", ascii "ListBucket"))
        .s3Action = some (ascii "ListBucket") ∧
      ¬ Faithful { opType := .comboAuth } getObject
        (getObjectWith (ascii "s3action", ascii "ListBucket")) := by
  refine ⟨⟨rfl, by decide⟩, by decide, fun hfaith => ?_⟩
  have hne : told { opType := .comboAuth }
      (getObjectWith (ascii "s3action", ascii "ListBucket")) .s3Action ≠
      told { opType := .comboAuth } getObject .s3Action := by decide
  exact hne (hfaith .s3Action (by decide)).2

end S3AuthClient

end CortxS3

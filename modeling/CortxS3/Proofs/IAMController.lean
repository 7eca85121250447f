/-
Whose request it is, and how that is known.

An S3 request comes to be authorized through two programs.  The S3 server asks to authenticate
and authorize when there is a header spelt `Authorization`, and to authorize alone when there is
none; the auth server then takes the requestor from the fields of the body, without a signature,
whenever it is asked to authorize alone and there is an `Authorization` in the body.  It looks
for that without regard to letter case, and it takes the action from the body, where any header
named `action` comes after the server's.

So a request gets an identity without a signature exactly when one of the two happens
(`Bypass`): the only headers of that name are spelt differently, or the last header named
`action` says `AuthorizeUser`.  In all other cases whoever is authorized is the owner of the
access key in the `Authorization` value, and the signature was verified for this very body
(`identified_iff`).
-/
import CortxS3.Auth.IAMController
import CortxS3.Proofs.AuthRequestDecoder

namespace CortxS3

open List

namespace ClientRequestParser

/-- The access key that an `Authorization` value names. -/
def accessKeyNamed (value : Bytes) : Option Bytes :=
  match authHeaderParser (if isV2Authorization value then .V2 else .V4) value with
  | .ok (some a) => some a.accessKeyId
  | _ => none

variable {body : RequestBodyMap} {t : ClientRequestToken}

theorem bodyToken_requestHeaders {version : AWSSigningVersion} (h : bodyToken version body = .ok t) :
    t.requestHeaders = body := by
  unfold bodyToken at h
  cases hhost : body.get (ascii "host") with
  | none =>
    rw [hhost] at h
    cases h
  | some host =>
    rw [hhost] at h
    cases h
    rfl

/-- **A token from a body is about this body, and names the key that the body's `Authorization`
names.** -/
theorem parse_fromBody {http : FullHttpRequest} {requestAction : Bytes}
    (hbody : fromBody requestAction = true) (h : parse http body requestAction = .ok (some t)) :
    t.requestHeaders = body ∧ ∃ value, body.get (ascii "Authorization") = some value ∧
      accessKeyNamed value = some t.accessKeyId := by
  have hacl : requestAction ≠ ascii "ValidateACL" := by
    rintro rfl
    exact absurd hbody (by decide)
  have hpolicy : requestAction ≠ ascii "ValidatePolicy" := by
    rintro rfl
    exact absurd hbody (by decide)
  unfold parse authorizationOf at h
  simp only [hacl, hpolicy, hbody, if_true, if_false] at h
  have hname : body.get (ascii "authorization") = body.get (ascii "Authorization") := by
    unfold RequestBodyMap.get
    rw [show foldCase (ascii "authorization") = foldCase (ascii "Authorization") by decide]
  rw [hname] at h
  cases hvalue : body.get (ascii "Authorization") with
  | none =>
    rw [hvalue] at h
    cases h
  | some value =>
    rw [hvalue] at h
    by_cases hblank : value.all isSpace = true
    · simp only [hblank, if_true] at h
      cases h
    · simp only [hblank] at h
      obtain ⟨_, _, h⟩ := bind_eq_ok.mp h
      obtain ⟨token, htoken, h⟩ := bind_eq_ok.mp h
      obtain ⟨parsed, hparsed, h⟩ := bind_eq_ok.mp h
      have hheaders := bodyToken_requestHeaders htoken
      cases parsed with
      | none => cases h
      | some a =>
        cases h
        refine ⟨hheaders, value, rfl, ?_⟩
        unfold accessKeyNamed
        rw [hparsed]

end ClientRequestParser

/-- **A requestor comes from the directory, as the owner of the access key.** -/
theorem RequestorService.getRequestor_owns {d : AuthDirectory} {t : ClientRequestToken}
    {q : Requestor} (h : RequestorService.getRequestor d t = .ok q) : d.Owns t.accessKeyId q := by
  unfold RequestorService.getRequestor at h
  cases hcached : d.cached t.accessKeyId with
  | some q' =>
    rw [hcached] at h
    cases h
    exact d.owned _ _ hcached
  | none =>
    rw [hcached] at h
    cases hkey : d.findAccessKey t.accessKeyId with
    | none =>
      simp only [hkey] at h
      cases h
    | some k =>
      simp only [hkey] at h
      obtain ⟨_, hvalid, h⟩ := bind_eq_ok.mp h
      have hexists : k.exists = true := by
        unfold RequestorService.validateAccessKey at hvalid
        by_contra hno
        rw [Bool.not_eq_true] at hno
        simp [hno] at hvalid
      cases hreq : d.findRequestor k with
      | none =>
        simp only [hreq] at h
        cases h
      | some q' =>
        simp only [hreq] at h
        obtain ⟨_, _, h⟩ := bind_eq_ok.mp h
        cases h
        exact ⟨k, hkey, hexists, hreq⟩

namespace IAMController

section

variable {d : AuthDirectory} {validate : ClientRequestToken → Requestor → Bool}
variable {http : FullHttpRequest} {body : RequestBodyMap}

theorem andThen_eq {α : Type} {x : Except Refusal α} {f : α → Served} {s : Served}
    (h : Served.andThen x f = s) : (∃ why, s = .refused why) ∨ ∃ a, x = .ok a ∧ f a = s := by
  cases x with
  | error why => exact Or.inl ⟨why, h.symm⟩
  | ok a => exact Or.inr ⟨a, rfl, h⟩

/-! ### When `authorize` is called -/

variable {q : Option Requestor} {requestAction : Bytes} {v : Option ClientRequestToken}

theorem serveLdap_ne_authorize : serveLdap d validate http body requestAction ≠ .authorize q v := by
  intro h
  rcases andThen_eq h with ⟨_, hr⟩ | ⟨t, _, hr⟩
  · cases hr
  · split at hr
    · cases hr
    · split at hr <;> cases hr

theorem serveAccount_ne_authorize :
    serveAccount d validate http body requestAction ≠ .authorize q v := by
  intro h
  rcases andThen_eq h with ⟨_, hr⟩ | ⟨t, _, hr⟩
  · cases hr
  · split at hr
    · split at hr <;> cases hr
    · split at hr
      · cases hr
      · cases hr
      · split at hr <;> cases hr

theorem serveSigned_authorize (h : serveSigned d validate http body requestAction = .authorize q v) :
    requestAction = ascii "AuthenticateAndAuthorize" ∧
      ∃ t p, ClientRequestParser.parse http body requestAction = .ok (some t) ∧
        RequestorService.getRequestor d t = .ok p ∧ validate t p = true ∧
        q = some p ∧ v = some t := by
  rcases andThen_eq h with ⟨_, hr⟩ | ⟨t, ht, hr⟩
  · cases hr
  · rcases andThen_eq hr with ⟨_, hr⟩ | ⟨p, hp, hr⟩
    · cases hr
    · obtain ⟨parsed, hparsed, htoken⟩ := bind_eq_ok.mp ht
      cases parsed with
      | none => cases htoken
      | some t' =>
        cases htoken
        cases hv : validate t p with
        | false =>
          rw [hv] at hr
          cases hr
        | true =>
          rw [hv] at hr
          simp only [Bool.not_true, Bool.false_eq_true, if_false] at hr
          by_cases h1 : requestAction = ascii "AuthenticateUser"
          · rw [if_pos h1] at hr
            cases hr
          · rw [if_neg h1] at hr
            by_cases h2 : requestAction = ascii "AuthenticateAndAuthorize"
            · rw [if_pos h2] at hr
              cases hr
              exact ⟨h2, t, p, hparsed, hp, hv, rfl, rfl⟩
            · rw [if_neg h2] at hr
              cases hr

/-- **`authorize` is called in three ways**: without a requestor, with the requestor of the body,
or with one whose signature was verified. -/
theorem serve_authorize (h : serve d validate http body = .authorize q v) :
    (body.get (ascii "Action") = some (ascii "AuthorizeUser") ∧ q = none ∧ v = none) ∨
    (body.get (ascii "Action") = some (ascii "AuthorizeUser") ∧
      body.get (ascii "Authorization") ≠ none ∧ v = none) ∨
    (body.get (ascii "Action") = some (ascii "AuthenticateAndAuthorize") ∧
      ∃ t p, ClientRequestParser.parse http body (ascii "AuthenticateAndAuthorize") = .ok (some t) ∧
        RequestorService.getRequestor d t = .ok p ∧ validate t p = true ∧
        q = some p ∧ v = some t) := by
  unfold serve at h
  cases haction : body.get (ascii "Action") with
  | none =>
    rw [haction] at h
    cases h
  | some requestAction =>
    simp only [haction] at h
    split at h
    · exact absurd h serveLdap_ne_authorize
    · split at h
      · exact absurd h serveAccount_ne_authorize
      · split at h
        · rename_i hanon
          cases h
          exact Or.inl ⟨by rw [hanon.2], rfl, rfl⟩
        · rename_i hnotAnon
          split at h
          · split at h
            · rename_i haz
              cases h
              refine Or.inr (Or.inl ⟨by rw [haz], fun hnone => ?_, rfl⟩)
              exact hnotAnon ⟨hnone, haz⟩
            · split at h
              · rcases andThen_eq h with ⟨_, hr⟩ | ⟨_, _, hr⟩ <;> cases hr
              · split at h
                · rcases andThen_eq h with ⟨_, hr⟩ | ⟨_, _, hr⟩ <;> cases hr
                · obtain ⟨rfl, hsigned⟩ := serveSigned_authorize h
                  exact Or.inr (Or.inr ⟨rfl, hsigned⟩)
          · cases h

theorem serve_authorizeUser (haction : body.get (ascii "Action") = some (ascii "AuthorizeUser"))
    (hauth : body.get (ascii "Authorization") ≠ none) :
    serve d validate http body = .authorize (some (requestorOfBody body)) none := by
  unfold serve
  simp only [haction]
  rw [if_neg (by decide), if_neg (by decide), if_neg (fun hc => hauth hc.1), if_pos (by decide),
    if_pos trivial]

end

end IAMController

/-! ### Both programs together -/

namespace S3Action

open IAMController SortedMap S3AuthClient AuthRequestDecoder

/-- The body that reaches the auth server when an S3 request is to be authorized. -/
def authorizationBody (c : S3AuthClient) (r : RequestObject) : RequestBodyMap :=
  parseRequestBody (setupAuthRequestBody (checkAuthorization c r) r).2

/-- The headers that go by a name, in some spelling. -/
def spelled (r : RequestObject) (name : Bytes) : List (Bytes × Bytes) :=
  r.getInHeadersCopy.filter fun h => foldCase h.1 = foldCase name

/-- There is an `Authorization` in some spelling, and the auth server will be asked to authorize
alone: by a header named `action`, or, without one, because the spelling is another. -/
def Bypass (r : RequestObject) : Prop :=
  spelled r (ascii "Authorization") ≠ [] ∧
    match (spelled r (ascii "Action")).getLast? with
    | some h => h.2 = ascii "AuthorizeUser"
    | none => isAuthorizationHeaderPresent r = false

/-- Who is authorized is known by a signature, or is nobody. -/
structure Identified (d : AuthDirectory) (validate : ClientRequestToken → Requestor → Bool)
    (http : FullHttpRequest) (body : RequestBodyMap) : Prop where
  /-- A requestor owns the key in the `Authorization`, and the signature of this body is right. -/
  verified : ∀ q v, serve d validate http body = .authorize (some q) v →
    ∃ t value, v = some t ∧ t.requestHeaders = body ∧ validate t q = true ∧
      body.get (ascii "Authorization") = some value ∧
      ClientRequestParser.accessKeyNamed value = some t.accessKeyId ∧
      d.Owns t.accessKeyId q
  /-- Without a verified signature a request is anonymous. -/
  anonymous : ∀ q, serve d validate http body = .authorize q none → q = none

theorem checkAuthorization_opType (c : S3AuthClient) (r : RequestObject) :
    (checkAuthorization c r).opType =
      if isAuthorizationHeaderPresent r then .comboAuth else .authorization := by
  unfold checkAuthorization
  split
  · unfold S3AuthClient.checkComboAuth
    cases r.getInHeadersCopy.find? (fun h => sameIgnoringCase h.1 (ascii "Authorization")) with
    | none => rfl
    | some h =>
      dsimp only
      cases signatureInHeader h.2 <;> rfl
  · rfl

theorem headerKeyVals_checkAuthorization (c : S3AuthClient) (r : RequestObject) :
    headerKeyVals (checkAuthorization c r) r = r.getInHeadersCopy := by
  unfold headerKeyVals
  rw [if_neg]
  rw [checkAuthorization_opType]
  split <;> decide

theorem authorizationBody_action (c : S3AuthClient) (r : RequestObject) :
    (authorizationBody c r).get (ascii "Action") =
      (((spelled r (ascii "Action")).getLast?).map Prod.snd).or
        (some (actionOf (checkAuthorization c r).opType)) := by
  have htold := told_eq (checkAuthorization c r) r (f := .action) (by decide)
  rw [overriding_eq_spellings (Or.inl rfl), serverSets_action] at htold
  unfold spellings at htold
  rw [headerKeyVals_checkAuthorization] at htold
  exact htold

/-- There is an `Authorization` in the body exactly when the client sent one in some
spelling. -/
theorem authorizationBody_authorization (c : S3AuthClient) (r : RequestObject) :
    (authorizationBody c r).get (ascii "Authorization") = none ↔
      spelled r (ascii "Authorization") = [] := by
  have hnotField : ∀ f ∈ AuthField.all, foldCase f.name ≠ foldCase (ascii "Authorization") := by
    decide
  unfold authorizationBody RequestBodyMap.get
  rw [get_parseRequestBody _ (by decide), lastWrite_eq_none_iff]
  unfold spelled
  rw [filter_eq_nil_iff]
  constructor
  · intro hnone h hh hname
    -- some value is written for the spelling of this header
    obtain ⟨v, hv⟩ : ∃ v, lastWrite h.1 (headerKeyVals (checkAuthorization c r) r ++
        (serverKeyVals (checkAuthorization c r) r).map fun p => (p.1.name, p.2)) = some v := by
      apply Option.ne_none_iff_exists'.mp
      rw [Ne, lastWrite_eq_none_iff]
      intro hall
      refine hall h (mem_append_left _ ?_) rfl
      rw [headerKeyVals_checkAuthorization]
      exact hh
    have hfold := of_decide_eq_true hname
    have hne : h.1 ≠ AuthField.action.name := by
      intro heq
      rw [heq] at hfold
      exact hnotField .action (by decide) hfold
    have hmem := (mem_body (w := cStr v) hne).mpr ⟨v, hv, rfl⟩
    exact hnone _ (mem_map_of_mem hmem) hfold
  · intro hnone p hp hname
    obtain ⟨q, hq, rfl⟩ := mem_map.mp hp
    have hne : q.1 ≠ AuthField.action.name := by
      intro heq
      rw [heq] at hname
      exact hnotField .action (by decide) hname
    obtain ⟨v, hv, _⟩ := (mem_body hne).mp hq
    rcases mem_append.mp (mem_of_lastWrite hv) with hmem | hmem
    · rw [headerKeyVals_checkAuthorization] at hmem
      exact hnone _ hmem (decide_eq_true hname)
    · obtain ⟨f, _, hf⟩ := mem_map.mp hmem
      rw [← (Prod.mk.inj hf).1] at hname
      exact hnotField f.1 f.1.mem_all hname

theorem bypass_iff (c : S3AuthClient) (r : RequestObject) :
    Bypass r ↔ (authorizationBody c r).get (ascii "Authorization") ≠ none ∧
      (authorizationBody c r).get (ascii "Action") = some (ascii "AuthorizeUser") := by
  unfold Bypass
  rw [Ne, Ne, authorizationBody_authorization, authorizationBody_action, checkAuthorization_opType]
  refine and_congr_right fun _ => ?_
  cases (spelled r (ascii "Action")).getLast? with
  | some h =>
    rw [Option.map_some, Option.some_or, Option.some.injEq]
  | none =>
    rw [Option.map_none, Option.none_or]
    cases isAuthorizationHeaderPresent r with
    | false | true => decide

/-- **Whoever a request is authorized for is known by a verified signature, or the request is
anonymous, exactly when no header leads around the signature.** -/
theorem identified_iff (d : AuthDirectory) (validate : ClientRequestToken → Requestor → Bool)
    (http : FullHttpRequest) (c : S3AuthClient) (r : RequestObject) :
    Identified d validate http (authorizationBody c r) ↔ ¬ Bypass r := by
  rw [bypass_iff c r]
  constructor
  · rintro hid ⟨hauth, haction⟩
    have hserve : serve d validate http (authorizationBody c r) = _ :=
      serve_authorizeUser haction hauth
    exact absurd (hid.anonymous _ hserve) (Option.some_ne_none _)
  · intro hno
    refine ⟨fun q v hserve => ?_, fun q hserve => ?_⟩
    · rcases serve_authorize hserve with ⟨_, hq, _⟩ | ⟨haction, hauth, _⟩ |
        ⟨_, t, p, hparse, hreq, hvalid, hq, hv⟩
      · cases hq
      · exact absurd ⟨hauth, haction⟩ hno
      · obtain rfl := Option.some.inj hq
        obtain ⟨hheaders, value, hvalue, hnamed⟩ :=
          ClientRequestParser.parse_fromBody (by decide) hparse
        exact ⟨t, value, hv, hheaders, hvalid, hvalue, hnamed,
          RequestorService.getRequestor_owns hreq⟩
    · rcases serve_authorize hserve with ⟨_, hq, _⟩ | ⟨haction, hauth, _⟩ |
        ⟨_, t, p, _, _, _, _, hv⟩
      · exact hq
      · exact absurd ⟨hauth, haction⟩ hno
      · cases hv

/-- A directory without users. -/
def emptyDirectory : AuthDirectory where
  findAccessKey _ := none
  findRequestor _ := none
  ldapLoginCN := ascii "sgiamadmin"
  ldapLoginPassword := ascii "ldapadmin"
  cached _ := none
  owned _ _ h := by cases h

/-- A request that claims to come from somebody. -/
def claimedGet : RequestObject where
  httpVerb := .GET
  headersIn :=
    [ (ascii "Host", ascii "s3"),
      (ascii "authorization", ascii "none"),
      (ascii "requestorAccountId", ascii "12345"),
      (ascii "requestorUserId", ascii "root") ]
  fullEncodedPath := some (ascii "/b/o")
  s3 := some { apiType := .object, actionStr := ascii "GetObject", bucketName := ascii "b" }

/-- **With `authorization` in lower case nobody verifies anything, and the request goes as
whoever its headers say.** -/
theorem not_identified_claimedGet :
    (∃ q, serve emptyDirectory (fun _ _ => false) {} (authorizationBody {} claimedGet) =
        .authorize (some q) none ∧ q.id = some (ascii "root") ∧
        q.account.map Account.id = some (some (ascii "12345"))) ∧
      ¬ Identified emptyDirectory (fun _ _ => false) {} (authorizationBody {} claimedGet) := by
  have hserve : serve emptyDirectory (fun _ _ => false) {} (authorizationBody {} claimedGet) =
      .authorize (some (requestorOfBody (authorizationBody {} claimedGet))) none :=
    serve_authorizeUser (by decide) (by decide)
  refine ⟨⟨_, hserve, by decide, by decide⟩, fun hid => ?_⟩
  exact absurd (hid.anonymous _ hserve) (Option.some_ne_none _)

end S3Action

end CortxS3

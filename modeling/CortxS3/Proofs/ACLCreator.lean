/-
To whom a canned ACL gives rights.

An ACL that is made for a request has, in front of what the canned value says, the grant of one user.
He should be the owner.  `getOwner` looks at the URI and the method to see whether an ACL is replaced,
and `getOwnerGrant` at whether the ACL of the bucket comes with the request, which it does for an
object only.  So who replaces the ACL of a bucket that is not his own gives himself full control of it
and takes it from the owner (`canned_iff`).
-/
import CortxS3.Auth.ACLCreator
import CortxS3.Proofs.AccessControlPolicy

namespace CortxS3

open Option (bind_eq_bind bind_some isSome_iff_exists some.inj some_ne_none)
open List

namespace ACLCreator

open AccessControlPolicy

/-! ### What a canned ACL should say -/

/-- The requests for which the S3 server has an ACL made. -/
inductive RequestKind where
  | putBucket
  | putObject
  | putBucketAcl
  | putObjectAcl
deriving DecidableEq

/-- The request is one for an ACL, by what `isACLReadWrite` looks at. -/
def readWrite (ctx : AclContext) (body : BodyMap) : Bool :=
  (body.get ctx.characters (java "ClientAbsoluteUri")).any (java "?acl").isSuffixOf ||
    body.get ctx.characters (java "ClientQueryParams") = some (java "acl")

/-- A request as the S3 server sends it.  With it comes the ACL of what the request is authorized
against, a bucket for a new object and nothing for a new bucket.  A new resource has no `acl` in the
query, and the path of a URI has no question mark. -/
structure Sent (ctx : AclContext) (kind : RequestKind) (body : BodyMap) : Prop where
  method : body.get ctx.characters (java "Method") = some (java "PUT")
  uri : (body.get ctx.characters (java "ClientAbsoluteUri")).isSome
  creates : kind = .putBucket ∨ kind = .putObject → readWrite ctx body = false
  authAcl : (body.get ctx.characters (java "Auth-ACL")).isSome ↔ kind ≠ .putBucket
  bucketAcl : (body.get ctx.characters (java "Bucket-ACL")).isSome ↔ kind = .putObjectAcl

/-- The owner that an ACL in the body names. -/
def ownerIn (ctx : AclContext) (body : BodyMap) (name : String) : Option JavaString :=
  ((body.get ctx.characters (java name)).bind ctx.readXml).map (·.ownerId)

/-- The owner of the resource: who creates it, or for an anonymous upload the owner of the bucket,
and else the one that the replaced ACL names. -/
def resourceOwner (ctx : AclContext) (requestor : Option PolicyRequestor) (body : BodyMap) :
    RequestKind → Option JavaString
  | .putBucket => requestor.map (·.canonicalId)
  | .putObject => (requestor.map (·.canonicalId)).or (ownerIn ctx body "Auth-ACL")
  | .putBucketAcl | .putObjectAcl => ownerIn ctx body "Auth-ACL"

/-- The owner of the bucket that the resource is or is in. -/
def bucketOwner (ctx : AclContext) (requestor : Option PolicyRequestor) (body : BodyMap) :
    RequestKind → Option JavaString
  | .putBucket => requestor.map (·.canonicalId)
  | .putObject | .putBucketAcl => ownerIn ctx body "Auth-ACL"
  | .putObjectAcl => ownerIn ctx body "Bucket-ACL"

/-- A grant, told by whom it is for and what it allows. -/
abbrev Right := GranteeType × Option JavaString × Option JavaString

def userRight (canonicalId permission : JavaString) : Right :=
  (.canonicalUser, some canonicalId, some permission)

/-- The grants that a canned value defines besides that of the owner. -/
def defined (bucketOwner : Option JavaString) (cannedInput : JavaString) : List Right :=
  if cannedInput = java "public-read" then
    [(.group, some Group.allUsersURI, some (java "READ"))]
  else if cannedInput = java "public-read-write" then
    [(.group, some Group.allUsersURI, some (java "READ")),
      (.group, some Group.allUsersURI, some (java "WRITE"))]
  else if cannedInput = java "authenticated-read" then
    [(.group, some Group.authenticatedUsersURI, some (java "READ"))]
  else if cannedInput = java "bucket-owner-read" then
    [(.canonicalUser, bucketOwner, some (java "READ"))]
  else if cannedInput = java "bucket-owner-full-control" then
    [(.canonicalUser, bucketOwner, some (java "FULL_CONTROL"))]
  else []

/-- The ACL names the owner, gives him full control, and has no other grants but those that are
defined. -/
structure OnlyNamed (ownerId : JavaString) (others : List Right) (acp : AccessControlPolicy) :
    Prop where
  owner : acp.owner.canonicalId = some ownerId
  fullControl : userRight ownerId (java "FULL_CONTROL") ∈ acp.accessControlList.map subject
  only : ∀ right ∈ acp.accessControlList.map subject,
    right = userRight ownerId (java "FULL_CONTROL") ∨ right ∈ others

/-! ### Writing and reading -/

/-- A grant that is written whole. -/
def Writable (grant : Grant) : Prop :=
  grant.permission.isSome ∧
    (grant.grantee.type = .canonicalUser ∧ grant.grantee.canonicalId.isSome ∨
      grant.grantee.type = .group ∧ grant.grantee.uri.isSome)

variable {grant : Grant}

theorem loadGrant_flushGrant (user : Grant) (h : Writable grant) :
    ∃ node read, flushGrant grant (writtenNode user) = some node ∧ loadGrant node = some read ∧
      subject read = subject grant := by
  obtain ⟨⟨canonicalId, displayName, uri, emailAddress, type⟩, permission⟩ := grant
  obtain ⟨hpermission, hgrantee⟩ := h
  obtain ⟨permission, rfl⟩ := isSome_iff_exists.mp hpermission
  rcases hgrantee with ⟨htype, hid⟩ | ⟨htype, huri⟩
  · obtain ⟨canonicalId, rfl⟩ := isSome_iff_exists.mp hid
    obtain rfl : type = .canonicalUser := htype
    refine ⟨_, _, flushGrant_canonical rfl (nodeOK_writtenNode user)
      (canonical_writtenNode user), loadGrant_writtenNode _, rfl⟩
  · obtain ⟨uri, rfl⟩ := isSome_iff_exists.mp huri
    obtain rfl : type = .group := htype
    exact ⟨_, _, rfl, rfl, rfl⟩

variable {rest : List Grant} {user : Grant}

theorem flushAll_copies (h : ∀ grant ∈ rest, Writable grant) :
    ∃ nodes reads, flushAll (some (writtenNode user)) rest [] = some nodes ∧
      nodes.mapM loadGrant = some reads ∧ reads.map subject = rest.map subject := by
  induction rest with
  | nil => exact ⟨[], [], rfl, rfl, rfl⟩
  | cons grant rest ih =>
    obtain ⟨node, read, hflush, hload, hsubject⟩ :=
      loadGrant_flushGrant user (h grant mem_cons_self)
    obtain ⟨nodes, reads, hflushes, hloads, hsubjects⟩ :=
      ih fun g hg => h g (mem_cons_of_mem _ hg)
    refine ⟨node :: nodes, read :: reads, ?_, ?_, ?_⟩
    · simp only [flushAll, hflush, hflushes, bind_eq_bind, bind_some]
    · rw [mapM_cons, hload, hloads]
      rfl
    · rw [map_cons, map_cons, hsubject, hsubjects]

variable {acp : AccessControlPolicy}

variable {xml : Document}

/-- **An ACL with a user in front is written and read back**, into the template. -/
theorem loadXml_getXml {user : Grant} {rest : List Grant} {xml : Document}
    (hdoc : acp.doc = defaultAclTemplate) (hacl : acp.accessControlList = user :: rest)
    (huser : user.grantee.type = .canonicalUser)
    (hwritable : ∀ grant ∈ user :: rest, Writable grant) (hlength : rest.length < maxGrantSize)
    (hxml : getXml acp = .ok xml) :
    ∃ read, loadXml xml = some read ∧
      read.owner.canonicalId = some (acp.owner.canonicalId.getD []) ∧
      read.accessControlList.map subject = (user :: rest).map subject := by
  obtain ⟨nodes, reads, hflushes, hloads, hsubjects⟩ :=
    @flushAll_copies rest user fun g hg => hwritable g (mem_cons_of_mem _ hg)
  have hnode : NodeOK (writtenNode templateGrant) := nodeOK_writtenNode templateGrant
  have hok : DocOK acp.doc := by
    rw [hdoc]
    refine ⟨?_, rfl⟩
    intro node hmem
    rw [mem_singleton.mp hmem]
    exact hnode
  have hflush : flushAll none (user :: rest) acp.doc.grants =
      some (writtenNode user :: nodes) := by
    rw [hdoc]
    show flushAll none (user :: rest) [writtenNode templateGrant] = _
    simp only [flushAll, flushGrant_canonical huser hnode (canonical_writtenNode templateGrant),
      bind_eq_bind, bind_some, Option.none_or, hflushes]
  unfold getXml AccessControlPolicy.getXml at hxml
  rw [flushXmlValues_eq hok, hacl, hflush] at hxml
  obtain rfl := Except.ok.inj hxml
  obtain ⟨hpermission, hid⟩ := hwritable user mem_cons_self
  have hread : subject (readGrant user) = subject user := by
    rcases hid with ⟨-, hid⟩ | ⟨hgroup, -⟩
    · obtain ⟨canonicalId, hid⟩ := isSome_iff_exists.mp hid
      obtain ⟨permission, hpermission⟩ := isSome_iff_exists.mp hpermission
      unfold subject readGrant
      rw [huser, hid, hpermission]
      rfl
    · rw [huser] at hgroup
      cases hgroup
  refine ⟨_, loadXml_eq_some.mpr ⟨readGrant user :: reads, ?_, ?_, rfl⟩, rfl, ?_⟩
  · rw [mapM_cons, loadGrant_writtenNode, hloads]
    rfl
  · have hcount := congrArg List.length hsubjects
    rw [length_map, length_map] at hcount
    rw [length_cons, hcount]
    exact hlength
  · rw [map_cons, map_cons, hread, hsubjects]

/-! ### Owners -/

variable {ctx : AclContext} {kind : RequestKind} {body : BodyMap}
  {requestor : Option PolicyRequestor} {existing : Option AccessControlPolicy}

theorem nonNull_eq_ok {α : Type} {o : Option α} {a : α} : nonNull o = .ok a ↔ o = some a := by
  cases o with
  | none => exact iff_of_false (by simp [nonNull]) (by simp)
  | some b => simp [nonNull]

theorem readPolicy_eq_ok {doc : Option Document} :
    readPolicy doc = .ok acp ↔ ∃ xml, doc = some xml ∧ AccessControlPolicy.ofXml xml = some acp := by
  unfold readPolicy
  rw [← Option.bind_eq_some_iff]
  cases doc.bind AccessControlPolicy.ofXml with
  | none | some read => simp

theorem policyOf_eq_ok {name : String}
    (h : policyOf ctx (body.get ctx.characters (java name)) = .ok acp) :
    ∃ ownerId, acp.owner.canonicalId = some ownerId ∧ ownerIn ctx body name = some ownerId := by
  unfold ownerIn
  cases htext : body.get ctx.characters (java name) with
  | none =>
    rw [htext] at h
    cases h
  | some text =>
    rw [htext] at h
    obtain ⟨xml, hxml, hread⟩ := readPolicy_eq_ok.mp h
    obtain ⟨grants, -, -, rfl⟩ := loadXml_eq_some.mp (ofXml_eq_some.mp hread).2
    exact ⟨xml.ownerId, rfl, by rw [bind_some, hxml]; rfl⟩

theorem isACLReadWrite_eq (h : Sent ctx kind body) :
    ACLPermissionUtil.isACLReadWrite (body.get ctx.characters (java "ClientAbsoluteUri"))
      (body.get ctx.characters (java "ClientQueryParams")) = .ok (readWrite ctx body) := by
  obtain ⟨uri, huri⟩ := isSome_iff_exists.mp h.uri
  unfold ACLPermissionUtil.isACLReadWrite readWrite
  rw [huri]
  rfl

theorem putsAcl_eq (h : Sent ctx kind body) : putsAcl ctx body = .ok (readWrite ctx body) := by
  obtain ⟨uri, huri⟩ := isSome_iff_exists.mp h.uri
  have hput : ctx.characters.equalsIgnoreCase (java "PUT") (java "PUT") = true := by
    unfold CharacterData.equalsIgnoreCase
    exact beq_self_eq_true _
  unfold putsAcl
  dsimp only
  rw [isACLReadWrite_eq h, h.method, if_neg (by simp [huri])]
  cases readWrite ctx body with
  | false => rfl
  | true =>
    show Except.ok (ctx.characters.equalsIgnoreCase (java "PUT") (java "PUT")) = _
    rw [hput]

variable {owner : Owner}

theorem getOwner_eq_ok (h : Sent ctx kind body)
    (howner : getOwner ctx requestor existing body = .ok owner) :
    (∃ acp, existing = some acp ∧ owner = acp.owner ∧
      (requestor = none ∨ readWrite ctx body = true)) ∨
    (∃ r, requestor = some r ∧ owner = ownerOf r ∧
      (existing = none ∨ readWrite ctx body = false)) := by
  unfold getOwner at howner
  cases existing with
  | none =>
    cases requestor with
    | none => cases howner
    | some r => exact Or.inr ⟨r, rfl, (Except.ok.inj howner).symm, Or.inl rfl⟩
  | some acp =>
    dsimp only at howner
    rw [putsAcl_eq h] at howner
    cases hread : readWrite ctx body with
    | true =>
      rw [hread] at howner
      exact Or.inl ⟨acp, rfl, (Except.ok.inj howner).symm, Or.inr rfl⟩
    | false =>
      rw [hread] at howner
      cases requestor with
      | none => exact Or.inl ⟨acp, rfl, (Except.ok.inj howner).symm, Or.inl rfl⟩
      | some r => exact Or.inr ⟨r, rfl, (Except.ok.inj howner).symm, Or.inr rfl⟩

/-- Whose grant is in front: the owner's of the existing ACL when the ACL of the bucket is there or
the requestor is nobody, and else the requestor's. -/
theorem getOwnerGrant_eq_ok (h : Sent ctx kind body)
    (hgrant : getOwnerGrant ctx requestor existing body = .ok grant) :
    (∃ acp, existing = some acp ∧
      grant = userGrant acp.owner.canonicalId acp.owner.displayName (java "FULL_CONTROL") ∧
      (requestor = none ∨ kind = .putObjectAcl)) ∨
    (∃ r, requestor = some r ∧
      grant = userGrant (some r.canonicalId) (some r.accountName) (java "FULL_CONTROL") ∧
      (existing = none ∨ kind ≠ .putObjectAcl)) := by
  unfold getOwnerGrant at hgrant
  dsimp only at hgrant
  cases existing with
  | none =>
    cases requestor with
    | none => cases hgrant
    | some r => exact Or.inr ⟨r, rfl, (Except.ok.inj hgrant).symm, Or.inl rfl⟩
  | some acp =>
    cases hbucket : (body.get ctx.characters (java "Bucket-ACL")).isSome with
    | true =>
      rw [hbucket] at hgrant
      exact Or.inl ⟨acp, rfl, (Except.ok.inj hgrant).symm, Or.inr (h.bucketAcl.mp hbucket)⟩
    | false =>
      rw [hbucket] at hgrant
      have hkind : kind ≠ .putObjectAcl := by
        intro hkind
        rw [h.bucketAcl.mpr hkind] at hbucket
        cases hbucket
      cases requestor with
      | none => exact Or.inl ⟨acp, rfl, (Except.ok.inj hgrant).symm, Or.inl rfl⟩
      | some r => exact Or.inr ⟨r, rfl, (Except.ok.inj hgrant).symm, Or.inr hkind⟩

theorem getbucketOwner_eq_ok (h : Sent ctx kind body) (howner : getbucketOwner ctx body = .ok owner) :
    ∃ ownerId, owner.canonicalId = some ownerId ∧
      bucketOwner ctx requestor body kind = some ownerId := by
  unfold getbucketOwner at howner
  dsimp only at howner
  by_cases hbucket : body.get ctx.characters (java "Bucket-ACL") = none
  · rw [if_neg (not_not.mpr hbucket)] at howner
    have hkind : kind ≠ .putObjectAcl := fun hkind => by
      have := h.bucketAcl.mpr hkind
      rw [hbucket] at this
      cases this
    obtain ⟨acp, hpolicy, howner⟩ := bind_eq_ok.mp howner
    obtain rfl := Except.ok.inj howner
    obtain ⟨ownerId, hid, hin⟩ := policyOf_eq_ok hpolicy
    refine ⟨ownerId, hid, ?_⟩
    cases kind with
    | putBucket =>
      -- there would be no ACL to read
      have hnone : ¬(body.get ctx.characters (java "Auth-ACL")).isSome := fun hsome =>
        h.authAcl.mp hsome rfl
      rw [Option.not_isSome_iff_eq_none] at hnone
      rw [hnone] at hpolicy
      cases hpolicy
    | putObject | putBucketAcl => exact hin
    | putObjectAcl => exact absurd rfl hkind
  · rw [if_pos hbucket] at howner
    have hkind := h.bucketAcl.mp (Option.isSome_iff_ne_none.mpr hbucket)
    obtain ⟨acp, hpolicy, howner⟩ := bind_eq_ok.mp howner
    obtain rfl := Except.ok.inj howner
    obtain ⟨ownerId, hid, hin⟩ := policyOf_eq_ok hpolicy
    exact ⟨ownerId, hid, by rw [hkind]; exact hin⟩

/-! ### The grants -/

/-- A value for the bucket owner on what looks like a bucket: the ACL stays the default one. -/
def Ignored (ctx : AclContext) (body : BodyMap) (cannedInput : JavaString) : Prop :=
  (cannedInput = java "bucket-owner-read" ∨ cannedInput = java "bucket-owner-full-control") ∧
    isOperationOnBucket ctx body = true ∧ readWrite ctx body = false
deriving Decidable

theorem isIgnoreBucketAclUpdate_eq (h : Sent ctx kind body) :
    isIgnoreBucketAclUpdate ctx body =
      .ok (isOperationOnBucket ctx body && !readWrite ctx body) := by
  unfold isIgnoreBucketAclUpdate
  rw [isACLReadWrite_eq h]
  cases isOperationOnBucket ctx body with
  | false | true => rfl

theorem foldlM_addGrant (uri : JavaString) (permissions : List JavaString) :
    ∀ acl : List Grant, acl.length + permissions.length ≤ maxGrantSize →
      permissions.foldlM (fun acl permission => addGrant acl (groupGrant uri (some permission)))
          acl =
        .ok (acl ++ permissions.map fun permission => groupGrant uri (some permission)) := by
  induction permissions with
  | nil =>
    intro acl _
    rw [map_nil, append_nil]
    rfl
  | cons permission permissions ih =>
    intro acl hlength
    rw [length_cons] at hlength
    have hroom : addGrant acl (groupGrant uri (some permission)) =
        .ok (acl ++ [groupGrant uri (some permission)]) := if_pos (by omega)
    rw [foldlM_cons, hroom]
    show permissions.foldlM _ (acl ++ [groupGrant uri (some permission)]) = _
    rw [ih _ (by rw [length_append, length_singleton]; omega), map_cons,
      append_assoc, singleton_append]

/-- What stands behind the grant in front. -/
structure Others (others : List Right) (rest : List Grant) : Prop where
  few : rest.length ≤ 2
  writable : ∀ grant ∈ rest, Writable grant
  defined : ∀ grant ∈ rest, subject grant ∈ others

variable {out : List Grant}

theorem groupAcl_eq_ok {uri : JavaString} {permissions : List JavaString} {others : List Right}
    (hfew : permissions.length ≤ 2)
    (hdefined : ∀ permission ∈ permissions, (.group, some uri, some permission) ∈ others)
    (h : groupAcl ctx requestor existing body uri permissions = .ok out) :
    ∃ front rest, getOwnerGrant ctx requestor existing body = .ok front ∧ out = front :: rest ∧
      Others others rest := by
  unfold groupAcl at h
  obtain ⟨front, hfront, h⟩ := bind_eq_ok.mp h
  change permissions.foldlM _ [front] = Except.ok out at h
  rw [foldlM_addGrant uri permissions [front]
    (by rw [length_singleton]; unfold maxGrantSize; omega)] at h
  refine ⟨front, permissions.map fun permission => groupGrant uri (some permission), hfront,
    (Except.ok.inj h).symm, ⟨?_, ?_, ?_⟩⟩
  · rw [length_map]
    exact hfew
  · intro grant hgrant
    obtain ⟨permission, -, rfl⟩ := mem_map.mp hgrant
    exact ⟨rfl, Or.inr ⟨rfl, rfl⟩⟩
  · intro grant hgrant
    obtain ⟨permission, hpermission, rfl⟩ := mem_map.mp hgrant
    exact hdefined permission hpermission

variable {acl : List Grant} {permission : JavaString}

theorem bucketOwnerAcl_eq_ok (hsent : Sent ctx kind body)
    (h : bucketOwnerAcl ctx requestor existing body acl permission = .ok out) :
    ((isOperationOnBucket ctx body = true ∧ readWrite ctx body = false) ∧ out = acl) ∨
    (¬(isOperationOnBucket ctx body = true ∧ readWrite ctx body = false) ∧
      ∃ front rest, getOwnerGrant ctx requestor existing body = .ok front ∧ out = front :: rest ∧
        Others [(.canonicalUser, bucketOwner ctx requestor body kind, some permission)] rest) := by
  unfold bucketOwnerAcl at h
  rw [isIgnoreBucketAclUpdate_eq hsent] at h
  by_cases hignore : isOperationOnBucket ctx body = true ∧ readWrite ctx body = false
  · rw [hignore.1, hignore.2] at h
    exact Or.inl ⟨hignore, (Except.ok.inj h).symm⟩
  · have hgo : (isOperationOnBucket ctx body && !readWrite ctx body) = false := by
      rw [← Bool.not_eq_true, Bool.and_eq_true, Bool.not_eq_true']
      exact hignore
    rw [hgo] at h
    refine Or.inr ⟨hignore, ?_⟩
    change (getOwnerGrant ctx requestor existing body >>= _) = _ at h
    obtain ⟨front, hfront, h⟩ := bind_eq_ok.mp h
    obtain ⟨listed, hlisted, h⟩ := bind_eq_ok.mp h
    obtain rfl := Except.ok.inj (show Except.ok [front] = Except.ok listed from hlisted)
    obtain ⟨owner, howner, h⟩ := bind_eq_ok.mp h
    obtain ⟨ownerId, hid, hbucket⟩ := @getbucketOwner_eq_ok _ _ _ requestor _ hsent howner
    cases hfrontId : front.grantee.canonicalId with
    | none =>
      change (nonNull front.grantee.canonicalId >>= _) = _ at h
      rw [hfrontId] at h
      cases h
    | some frontId =>
      change (nonNull front.grantee.canonicalId >>= _) = _ at h
      rw [hfrontId] at h
      change (if some frontId ≠ owner.canonicalId then _ else _) = Except.ok out at h
      rw [hid] at h
      by_cases hsame : frontId = ownerId
      · rw [if_neg (by simp [hsame])] at h
        refine ⟨front, [], hfront, (Except.ok.inj h).symm, ?_⟩
        exact ⟨by simp, by simp, by simp⟩
      · rw [if_pos (by simp [hsame])] at h
        refine ⟨front, _, hfront, (Except.ok.inj h).symm, ?_⟩
        refine ⟨by simp, ?_, ?_⟩
        · intro grant hgrant
          obtain rfl := mem_singleton.mp hgrant
          exact ⟨rfl, Or.inl ⟨rfl, rfl⟩⟩
        · intro grant hgrant
          obtain rfl := mem_singleton.mp hgrant
          rw [hbucket]
          exact mem_singleton_self _

variable {cannedInput : JavaString}

/-- **The ACL for a canned value**: the default one where the value is ignored, and else the grant of
the one in front and grants that the value defines. -/
theorem cannedAcl_eq_ok (hsent : Sent ctx kind body)
    (h : cannedAcl ctx requestor existing body acl cannedInput = .ok out) :
    (Ignored ctx body cannedInput ∧ out = acl) ∨
    (¬Ignored ctx body cannedInput ∧ ∃ front rest,
      getOwnerGrant ctx requestor existing body = .ok front ∧ out = front :: rest ∧
        Others (defined (bucketOwner ctx requestor body kind) cannedInput) rest) := by
  have hnot : ∀ {value : JavaString}, cannedInput = value →
      value ≠ java "bucket-owner-read" ∧ value ≠ java "bucket-owner-full-control" →
      ¬Ignored ctx body cannedInput := by
    rintro value rfl ⟨hread, hfull⟩ ⟨hvalue, -⟩
    exact hvalue.elim hread hfull
  unfold cannedAcl at h
  split at h
  · rename_i hprivate
    refine Or.inr ⟨hnot hprivate (by decide), groupAcl_eq_ok (by simp) ?_ h⟩
    exact fun _ hmem => absurd hmem not_mem_nil
  split at h
  · rename_i hpublic
    refine Or.inr ⟨hnot hpublic (by decide), groupAcl_eq_ok (by simp) ?_ h⟩
    simp [defined, hpublic]
  split at h
  · rename_i hpublic hwrite
    refine Or.inr ⟨hnot hwrite (by decide), groupAcl_eq_ok (by simp) ?_ h⟩
    simp [defined, if_neg hpublic, if_pos hwrite]
  split at h
  · rename_i hpublic hwrite hauth
    refine Or.inr ⟨hnot hauth (by decide), groupAcl_eq_ok (by simp) ?_ h⟩
    simp [defined, if_neg hpublic, if_neg hwrite, if_pos hauth]
  split at h
  · rename_i hpublic hwrite hauth hread
    have hdefined : defined (bucketOwner ctx requestor body kind) cannedInput =
        [(.canonicalUser, bucketOwner ctx requestor body kind, some (java "READ"))] := by
      rw [defined, if_neg hpublic, if_neg hwrite, if_neg hauth, if_pos hread]
    rw [hdefined]
    rcases bucketOwnerAcl_eq_ok hsent h with ⟨hbucket, hout⟩ | ⟨hbucket, hout⟩
    · exact Or.inl ⟨⟨Or.inl hread, hbucket⟩, hout⟩
    · exact Or.inr ⟨fun hignored => hbucket hignored.2, hout⟩
  split at h
  · rename_i hpublic hwrite hauth hread hfull
    have hdefined : defined (bucketOwner ctx requestor body kind) cannedInput =
        [(.canonicalUser, bucketOwner ctx requestor body kind, some (java "FULL_CONTROL"))] := by
      rw [defined, if_neg hpublic, if_neg hwrite, if_neg hauth, if_neg hread, if_pos hfull]
    rw [hdefined]
    rcases bucketOwnerAcl_eq_ok hsent h with ⟨hbucket, hout⟩ | ⟨hbucket, hout⟩
    · exact Or.inl ⟨⟨Or.inr hfull, hbucket⟩, hout⟩
    · exact Or.inr ⟨fun hignored => hbucket hignored.2, hout⟩
  split at h
  · cases h
  · cases h

/-! ### The ACL that is made -/

/-- The account whose full control stands in front. -/
def frontId (ctx : AclContext) (kind : RequestKind) (requestor : Option PolicyRequestor)
    (body : BodyMap) (cannedInput : JavaString) : Option JavaString :=
  if Ignored ctx body cannedInput then some ((requestor.map (·.canonicalId)).getD [])
  else match requestor with
    | some r => if kind = .putObjectAcl then ownerIn ctx body "Auth-ACL" else some r.canonicalId
    | none => ownerIn ctx body "Auth-ACL"

/-- The account that is named as the owner. -/
def namedOwner (ctx : AclContext) (kind : RequestKind) (requestor : Option PolicyRequestor)
    (body : BodyMap) : Option JavaString :=
  match requestor with
  | some r =>
    if kind ≠ .putBucket ∧ readWrite ctx body = true then ownerIn ctx body "Auth-ACL"
    else some r.canonicalId
  | none => ownerIn ctx body "Auth-ACL"

theorem existing_cases (hsent : Sent ctx kind body) (h : existingAcpOf ctx body = .ok existing) :
    (kind = .putBucket ∧ existing = none) ∨
    (kind ≠ .putBucket ∧ ∃ acp ownerId, existing = some acp ∧
      acp.owner.canonicalId = some ownerId ∧ ownerIn ctx body "Auth-ACL" = some ownerId) := by
  unfold existingAcpOf at h
  cases hauth : body.get ctx.characters (java "Auth-ACL") with
  | none =>
    rw [hauth] at h
    refine Or.inl ⟨?_, (Except.ok.inj h).symm⟩
    by_contra hkind
    have := hsent.authAcl.mpr hkind
    rw [hauth] at this
    cases this
  | some text =>
    have hkind := hsent.authAcl.mp (by rw [hauth]; rfl)
    rw [hauth] at h
    dsimp only at h
    rw [← hauth] at h
    obtain ⟨acp, hpolicy, h⟩ := bind_eq_ok.mp h
    obtain ⟨ownerId, hid, hin⟩ := policyOf_eq_ok hpolicy
    exact Or.inr ⟨hkind, acp, ownerId, (Except.ok.inj h).symm, hid, hin⟩

theorem getOwner_id (hsent : Sent ctx kind body)
    (hexisting : (kind = .putBucket ∧ existing = none) ∨
      (kind ≠ .putBucket ∧ ∃ acp ownerId, existing = some acp ∧
        acp.owner.canonicalId = some ownerId ∧ ownerIn ctx body "Auth-ACL" = some ownerId))
    (h : getOwner ctx requestor existing body = .ok owner) :
    owner.canonicalId = namedOwner ctx kind requestor body ∧ owner.canonicalId.isSome := by
  unfold namedOwner
  rcases getOwner_eq_ok hsent h with ⟨acp, rfl, rfl, hwhy⟩ | ⟨r, rfl, rfl, hwhy⟩
  · rcases hexisting with ⟨-, hnone⟩ | ⟨hkind, acp', ownerId, hsome, hid, hin⟩
    · cases hnone
    · obtain rfl := some.inj hsome
      cases requestor with
      | none => exact ⟨hid.trans hin.symm, by rw [hid]; rfl⟩
      | some r =>
        have hread := hwhy.resolve_left (some_ne_none r)
        dsimp only
        rw [if_pos ⟨hkind, hread⟩]
        exact ⟨hid.trans hin.symm, by rw [hid]; rfl⟩
  · dsimp only
    rw [if_neg]
    · exact ⟨rfl, rfl⟩
    · intro ⟨hkind, hread⟩
      rcases hwhy with hnone | hnot
      · rcases hexisting with ⟨hbucket, -⟩ | ⟨-, acp, -, hsome, -⟩
        · exact hkind hbucket
        · rw [hnone] at hsome
          cases hsome
      · rw [hnot] at hread
        cases hread

theorem getOwnerGrant_id (hsent : Sent ctx kind body) (hignored : ¬Ignored ctx body cannedInput)
    (hexisting : (kind = .putBucket ∧ existing = none) ∨
      (kind ≠ .putBucket ∧ ∃ acp ownerId, existing = some acp ∧
        acp.owner.canonicalId = some ownerId ∧ ownerIn ctx body "Auth-ACL" = some ownerId))
    {front : Grant} (h : getOwnerGrant ctx requestor existing body = .ok front) :
    ∃ id displayName, frontId ctx kind requestor body cannedInput = some id ∧
      front = userGrant (some id) displayName (java "FULL_CONTROL") := by
  unfold frontId
  rw [if_neg hignored]
  rcases getOwnerGrant_eq_ok hsent h with ⟨acp, rfl, rfl, hwhy⟩ | ⟨r, rfl, rfl, hwhy⟩
  · rcases hexisting with ⟨-, hnone⟩ | ⟨-, acp', ownerId, hsome, hid, hin⟩
    · cases hnone
    · obtain rfl := some.inj hsome
      refine ⟨ownerId, acp.owner.displayName, ?_, by rw [hid]⟩
      cases requestor with
      | none => exact hin
      | some r =>
        have hkind := hwhy.resolve_left (some_ne_none r)
        dsimp only
        rw [if_pos hkind]
        exact hin
  · refine ⟨r.canonicalId, some r.accountName, ?_, rfl⟩
    dsimp only
    rw [if_neg]
    intro hkind
    rcases hwhy with hnone | hnot
    · rcases hexisting with ⟨hbucket, -⟩ | ⟨-, acp, -, hsome, -⟩
      · rw [hkind] at hbucket
        cases hbucket
      · rw [hnone] at hsome
        cases hsome
    · exact hnot hkind

/-- What is read from an ACL that was made. -/
structure ReadBack (ctx : AclContext) (kind : RequestKind) (requestor : Option PolicyRequestor)
    (body : BodyMap) (cannedInput : JavaString) (read : AccessControlPolicy) : Prop where
  value : body.get ctx.characters (java "x-amz-acl") = some cannedInput
  auth : kind ≠ .putBucket → (ownerIn ctx body "Auth-ACL").isSome
  known : requestor = none → kind ≠ .putBucket
  owner : read.owner.canonicalId = namedOwner ctx kind requestor body
  named : (namedOwner ctx kind requestor body).isSome
  acl : ∃ id rest, frontId ctx kind requestor body cannedInput = some id ∧
    read.accessControlList.map subject = userRight id (java "FULL_CONTROL") :: rest ∧
    ∀ right ∈ rest, right ∈ defined (bucketOwner ctx requestor body kind) cannedInput

/-- **An ACL that is made can be read**, and has the one in front, and behind him what the value
defines. -/
theorem readBack_of_created (hsent : Sent ctx kind body)
    (h : createACLFromCannedInput ctx requestor body = .ok xml) :
    ∃ cannedInput read, loadXml xml = some read ∧
      ReadBack ctx kind requestor body cannedInput read := by
  unfold createACLFromCannedInput at h
  obtain ⟨cannedInput, hvalue, h⟩ := bind_eq_ok.mp h
  obtain ⟨acp, hdefault, h⟩ := bind_eq_ok.mp h
  obtain ⟨existing, hexisting, h⟩ := bind_eq_ok.mp h
  obtain ⟨owner, howner, h⟩ := bind_eq_ok.mp h
  obtain ⟨out, hout, h⟩ := bind_eq_ok.mp h
  have hauth := existing_cases hsent hexisting
  obtain ⟨hnamed, hsome⟩ := getOwner_id hsent hauth howner
  -- the default ACL
  obtain ⟨hdoc, hdefaultAcl⟩ : acp.doc = defaultAclTemplate ∧
      acp.accessControlList = [userGrant (some ((requestor.map (·.canonicalId)).getD []))
        (some ((requestor.map (·.accountName)).getD [])) (java "FULL_CONTROL")] := by
    unfold initDefaultAcp at hdefault
    obtain ⟨template, htemplate, hdefault⟩ := bind_eq_ok.mp hdefault
    obtain ⟨doc, hdoc, hread⟩ := readPolicy_eq_ok.mp htemplate
    obtain rfl := some.inj hdoc
    obtain ⟨grants, -, -, rfl⟩ := loadXml_eq_some.mp (ofXml_eq_some.mp hread).2
    cases requestor with
    | none =>
      obtain rfl := Except.ok.inj hdefault
      exact ⟨rfl, rfl⟩
    | some r =>
      obtain rfl := Except.ok.inj hdefault
      exact ⟨rfl, rfl⟩
  -- the one in front
  obtain ⟨id, displayName, rest, hfront, hacl, hfew, hwritable, hdefined⟩ :
      ∃ id displayName rest, frontId ctx kind requestor body cannedInput = some id ∧
        out = userGrant (some id) displayName (java "FULL_CONTROL") :: rest ∧ rest.length ≤ 2 ∧
        (∀ grant ∈ rest, Writable grant) ∧
        ∀ grant ∈ rest,
          subject grant ∈ defined (bucketOwner ctx requestor body kind) cannedInput := by
    rcases cannedAcl_eq_ok hsent hout with ⟨hignored, rfl⟩ | ⟨hignored, front, rest, hgrant, rfl, ho⟩
    · refine ⟨_, _, [], if_pos hignored, hdefaultAcl, by simp, by simp, by simp⟩
    · obtain ⟨id, displayName, hid, rfl⟩ := getOwnerGrant_id hsent hignored hauth hgrant
      exact ⟨id, displayName, rest, hid, rfl, ho.few, ho.writable, ho.defined⟩
  obtain ⟨read, hread, hreadOwner, hreadAcl⟩ :=
    @loadXml_getXml ((acp.setOwner owner).setAccessControlList out) _ _ _ hdoc hacl rfl
    (by
      intro grant hgrant
      rcases mem_cons.mp hgrant with rfl | hgrant
      · exact ⟨rfl, Or.inl ⟨rfl, rfl⟩⟩
      · exact hwritable grant hgrant)
    (by unfold maxGrantSize; omega) h
  refine ⟨cannedInput, read, hread, nonNull_eq_ok.mp hvalue, ?_, ?_, ?_, ?_, id,
    rest.map subject, hfront, hreadAcl, ?_⟩
  · intro hkind
    rcases hauth with ⟨hbucket, -⟩ | ⟨-, -, ownerId, -, -, hin⟩
    · exact absurd hbucket hkind
    · rw [hin]
      rfl
  · intro hnobody hkind
    rcases hauth with ⟨-, hnone⟩ | ⟨hbucket, -⟩
    · rw [hnobody, hnone] at howner
      cases howner
    · exact hbucket hkind
  · obtain ⟨ownerId, hownerId⟩ := isSome_iff_exists.mp hsome
    rw [hreadOwner, ← hnamed, hownerId]
    show some (owner.canonicalId.getD []) = _
    rw [hownerId]
    rfl
  · rw [← hnamed]
    exact hsome
  · intro right hright
    obtain ⟨grant, hgrant, rfl⟩ := mem_map.mp hright
    exact hdefined grant hgrant

theorem userRight_of_defined {owner : Option JavaString} {id : JavaString}
    (h : userRight id permission ∈ defined owner cannedInput) : owner = some id := by
  unfold defined userRight at h
  split_ifs at h
  all_goals simp at h
  · exact h.1.symm
  · exact h.1.symm

variable {read : AccessControlPolicy}

theorem onlyNamed_iff (h : ReadBack ctx kind requestor body cannedInput read) (ownerId : JavaString) :
    OnlyNamed ownerId (defined (bucketOwner ctx requestor body kind) cannedInput) read ↔
      namedOwner ctx kind requestor body = some ownerId ∧
        frontId ctx kind requestor body cannedInput = some ownerId := by
  obtain ⟨id, rest, hfront, hacl, hrest⟩ := h.acl
  constructor
  · intro honly
    refine ⟨h.owner.symm.trans honly.owner, ?_⟩
    have hfull := honly.fullControl
    have hfirst := honly.only (userRight id (java "FULL_CONTROL"))
      (by rw [hacl]; exact mem_cons_self)
    rw [hacl, mem_cons] at hfull
    have hright : ∀ {a b : JavaString}, userRight a (java "FULL_CONTROL") =
        userRight b (java "FULL_CONTROL") → a = b := by
      intro a b hab
      injection hab with _ hab
      injection hab with hab _
      exact some.inj hab
    rcases hfull with hsame | hdefined
    · rw [hfront, hright hsame]
    · rcases hfirst with hsame | hfirst
      · rw [hfront, hright hsame]
      · have howner := userRight_of_defined (hrest _ hdefined)
        rw [userRight_of_defined hfirst] at howner
        rw [hfront, some.inj howner]
  · intro ⟨hnamed, hid⟩
    rw [hfront] at hid
    obtain rfl := some.inj hid
    refine ⟨h.owner.trans hnamed, ?_, ?_⟩
    · rw [hacl]
      exact mem_cons_self
    · intro right hright
      rw [hacl, mem_cons] at hright
      exact hright.imp_right (hrest right)

/-! ### Which requests are safe -/

/-- The ACL gives rights only to whom its canned value names. -/
def GivesOnlyNamed (ctx : AclContext) (kind : RequestKind) (requestor : Option PolicyRequestor)
    (body : BodyMap) (xml : Document) : Prop :=
  ∃ ownerId cannedInput read,
    resourceOwner ctx requestor body kind = some ownerId ∧
      body.get ctx.characters (java "x-amz-acl") = some cannedInput ∧ loadXml xml = some read ∧
      OnlyNamed ownerId (defined (bucketOwner ctx requestor body kind) cannedInput) read

/-- The requestor is the owner, or replaces the ACL of an object with nothing but `acl` in the query;
or he is nobody, and his value is not ignored or the owner has no id. -/
def Safe (ctx : AclContext) (kind : RequestKind) (requestor : Option PolicyRequestor)
    (body : BodyMap) : Prop :=
  match requestor with
  | some r =>
    resourceOwner ctx requestor body kind = some r.canonicalId ∨
      (kind = .putObjectAcl ∧ readWrite ctx body = true)
  | none =>
    (∀ cannedInput, body.get ctx.characters (java "x-amz-acl") = some cannedInput →
      ¬Ignored ctx body cannedInput) ∨ resourceOwner ctx requestor body kind = some []

theorem frontId_requestor {r : PolicyRequestor} (cannedInput : JavaString)
    (hkind : kind ≠ .putObjectAcl) :
    frontId ctx kind (some r) body cannedInput = some r.canonicalId := by
  unfold frontId
  by_cases hignored : Ignored ctx body cannedInput
  · rw [if_pos hignored]
    rfl
  · rw [if_neg hignored]
    exact if_neg hkind

/-- The owner is named and stands in front exactly for the safe requests. -/
theorem named_and_front_iff (hsent : Sent ctx kind body)
    (h : ReadBack ctx kind requestor body cannedInput read) :
    (∃ ownerId, resourceOwner ctx requestor body kind = some ownerId ∧
      namedOwner ctx kind requestor body = some ownerId ∧
        frontId ctx kind requestor body cannedInput = some ownerId) ↔
      Safe ctx kind requestor body := by
  have hcreates := hsent.creates
  have hauth := h.auth
  unfold Safe
  cases requestor with
  | none =>
    have hkind := h.known rfl
    obtain ⟨ownerId, hin⟩ := isSome_iff_exists.mp (hauth hkind)
    have hresource : resourceOwner ctx none body kind = some ownerId := by
      cases kind with
      | putBucket => exact absurd rfl hkind
      | putObject | putBucketAcl | putObjectAcl => exact hin
    have hnamed : namedOwner ctx kind none body = some ownerId := hin
    rw [hresource, hnamed]
    dsimp only
    have hvalue : (∀ value, body.get ctx.characters (java "x-amz-acl") = some value →
        ¬Ignored ctx body value) ↔ ¬Ignored ctx body cannedInput := by
      constructor
      · exact fun hall => hall cannedInput h.value
      · intro hnot value hvalue
        rw [h.value] at hvalue
        exact some.inj hvalue ▸ hnot
    rw [hvalue]
    unfold frontId
    by_cases hignored : Ignored ctx body cannedInput
    · rw [if_pos hignored]
      simp only [hignored, not_true_eq_false, false_or, Option.map_none, Option.getD_none,
        Option.some.injEq]
      constructor
      · rintro ⟨id, rfl, -, hid⟩
        exact hid.symm
      · intro hempty
        exact ⟨ownerId, rfl, rfl, hempty.symm⟩
    · rw [if_neg hignored]
      dsimp only
      exact iff_of_true ⟨ownerId, rfl, rfl, hin⟩ (Or.inl hignored)
  | some r =>
    dsimp only
    cases kind with
    | putBucket =>
      have hfront := @frontId_requestor ctx _ body r cannedInput
        (show RequestKind.putBucket ≠ .putObjectAcl by decide)
      exact iff_of_true ⟨r.canonicalId, rfl, rfl, hfront⟩ (Or.inl rfl)
    | putObject =>
      have hread := hcreates (Or.inr rfl)
      have hfront := @frontId_requestor ctx _ body r cannedInput
        (show RequestKind.putObject ≠ .putObjectAcl by decide)
      have hnamed : namedOwner ctx .putObject (some r) body = some r.canonicalId := by
        unfold namedOwner
        rw [hread]
        rfl
      exact iff_of_true ⟨r.canonicalId, rfl, hnamed, hfront⟩ (Or.inl rfl)
    | putBucketAcl =>
      obtain ⟨ownerId, hin⟩ := isSome_iff_exists.mp (hauth (by decide))
      have hfront := @frontId_requestor ctx _ body r cannedInput
        (show RequestKind.putBucketAcl ≠ .putObjectAcl by decide)
      have hresource : resourceOwner ctx (some r) body .putBucketAcl = some ownerId := hin
      rw [hfront, hresource]
      constructor
      · rintro ⟨id, hid, -, hsame⟩
        exact Or.inl (hid.trans hsame.symm)
      · rintro (hsame | ⟨hkind, -⟩)
        · refine ⟨ownerId, rfl, ?_, hsame.symm⟩
          unfold namedOwner
          dsimp only
          split_ifs
          · exact hin
          · exact hsame.symm
        · cases hkind
    | putObjectAcl =>
      obtain ⟨ownerId, hin⟩ := isSome_iff_exists.mp (hauth (by decide))
      have hresource : resourceOwner ctx (some r) body .putObjectAcl = some ownerId := hin
      rw [hresource]
      unfold namedOwner frontId
      dsimp only
      cases hread : readWrite ctx body with
      | true =>
        have hignored : ¬Ignored ctx body cannedInput := by
          intro hignored
          rw [hignored.2.2] at hread
          cases hread
        rw [if_pos ⟨by decide, rfl⟩, if_neg hignored, if_pos rfl]
        exact iff_of_true ⟨ownerId, rfl, hin, hin⟩ (Or.inr ⟨rfl, rfl⟩)
      | false =>
        rw [if_neg (by simp)]
        constructor
        · rintro ⟨id, hid, hsame, -⟩
          exact Or.inl (hid.trans hsame.symm)
        · rintro (hsame | ⟨-, hread⟩)
          · refine ⟨ownerId, rfl, hsame.symm, ?_⟩
            by_cases hignored : Ignored ctx body cannedInput
            · rw [if_pos hignored]
              exact hsame.symm
            · rw [if_neg hignored]
              exact hin
          · cases hread

/-- **An ACL that is made for a canned value names the owner of the resource, gives him full control
and nobody else more than the value says, if and only if the request is safe.** -/
theorem canned_iff (ctx : AclContext) (kind : RequestKind) (requestor : Option PolicyRequestor)
    (body : BodyMap) (xml : Document) (hsent : Sent ctx kind body)
    (h : createACLFromCannedInput ctx requestor body = .ok xml) :
    GivesOnlyNamed ctx kind requestor body xml ↔ Safe ctx kind requestor body := by
  obtain ⟨cannedInput, read, hread, hback⟩ := readBack_of_created hsent h
  rw [← named_and_front_iff hsent hback]
  unfold GivesOnlyNamed
  constructor
  · rintro ⟨ownerId, value, read', howner, hvalue, hread', honly⟩
    rw [hread] at hread'
    obtain rfl := some.inj hread'
    rw [hback.value] at hvalue
    obtain rfl := some.inj hvalue
    exact ⟨ownerId, howner, (onlyNamed_iff hback ownerId).mp honly⟩
  · rintro ⟨ownerId, howner, hboth⟩
    exact ⟨ownerId, cannedInput, read, howner, hback.value, hread,
      (onlyNamed_iff hback ownerId).mpr hboth⟩

/-! ### The bucket of somebody else -/

/-- An ACL that names Ann as the owner, in base64. -/
def annsAcl : JavaString :=
  java "PEFjY2Vzc0NvbnRyb2xQb2xpY3k+PE93bmVyPjxJRD5DMTwvSUQ+PERpc3Bs" ++
  java "YXlOYW1lPmFubjwvRGlzcGxheU5hbWU+PC9Pd25lcj48QWNjZXNzQ29udHJv" ++
  java "bExpc3QvPjwvQWNjZXNzQ29udHJvbFBvbGljeT4="

def annsDocument : Document where
  ownerId := java "C1"
  ownerDisplayName := some (java "ann")
  grants := []

/-- The only text that holds a document is that of Ann's ACL. -/
def annsContext : AclContext where
  characters := CharacterData.ofAscii
  readXml := fun text => if text = annsAcl then some annsDocument else none

def bob : PolicyRequestor where
  id := java "U2"
  accountId := java "2"
  accountName := java "bob"
  canonicalId := java "C2"

/-- The ACL of Ann's bucket is to be private. -/
def privateBucketAcl : BodyMap := [
  (java "Auth-ACL", annsAcl),
  (java "ClientAbsoluteUri", java "/films"),
  (java "ClientQueryParams", java "acl"),
  (java "Method", java "PUT"),
  (java "x-amz-acl", java "private")]

theorem privateBucketAcl_sent : Sent annsContext .putBucketAcl privateBucketAcl where
  method := by decide +kernel
  uri := by decide +kernel
  creates := by decide
  authAcl := iff_of_true (by decide +kernel) (by decide)
  bucketAcl := iff_of_false (by decide +kernel) (by decide)

/-- Ann is named as the owner, and Bob has full control. -/
def bobsDocument : Document where
  ownerId := java "C1"
  ownerDisplayName := some (java "ann")
  grants := [{
    xsiType := java "CanonicalUser"
    children := [(.id, java "C2"), (.displayName, java "bob")]
    permission := java "FULL_CONTROL" }]

/-- Bob, who may write the ACL of Ann's bucket, makes it private: what is written gives full control
to him and nothing to her. -/
theorem not_onlyNamed_bob :
    Sent annsContext .putBucketAcl privateBucketAcl ∧
      createACLFromCannedInput annsContext (some bob) privateBucketAcl = .ok bobsDocument ∧
      ¬GivesOnlyNamed annsContext .putBucketAcl (some bob) privateBucketAcl bobsDocument := by
  refine ⟨privateBucketAcl_sent, by decide +kernel, ?_⟩
  rintro ⟨ownerId, cannedInput, read, howner, -, hread, honly⟩
  have hann : resourceOwner annsContext (some bob) privateBucketAcl .putBucketAcl =
      some (java "C1") := by decide +kernel
  rw [hann] at howner
  obtain rfl := some.inj howner
  obtain rfl := some.inj hread
  have hfull := honly.fullControl
  revert hfull
  decide

/-- Ann makes her own bucket private. -/
theorem canned_iff_ann :
    GivesOnlyNamed annsContext .putBucketAcl
      (some { id := java "U1", accountId := java "1", accountName := java "ann",
              canonicalId := java "C1" })
      privateBucketAcl
      { annsDocument with
        grants := [{
          xsiType := java "CanonicalUser"
          children := [(.id, java "C1"), (.displayName, java "ann")]
          permission := java "FULL_CONTROL" }] } :=
  (canned_iff annsContext .putBucketAcl _ privateBucketAcl _ privateBucketAcl_sent
    (by decide +kernel)).mpr (Or.inl (by decide +kernel))

end ACLCreator

end CortxS3

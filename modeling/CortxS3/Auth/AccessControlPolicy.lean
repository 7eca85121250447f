/-
The access control policy of the auth server, `AccessControlPolicy`, and its XML.

A policy keeps the document it was read from.  `getXml` edits that document in place, until it says
what the policy says, and writes it out.  Texts are Java strings, sequences of UTF-16 units.

Of a document the code reads and edits the owner, and for each `Grant` the children of the
`Grantee` and the permission; blanks between elements, comments and the other elements are left
out.  The XML that is written for a document is told by the document itself: reading it gives the
document back, and it cannot be read when there is a character in it that XML does not have.  A
policy is made from the template or from XML that a policy has written, so the elements that every
such document has are fields.  An exception ends a call, and the policy is not used any more.
-/
import CortxS3.Basic

namespace CortxS3

/-! ### Java strings -/

abbrev JavaString := List UInt16

/-- A string constant without special characters. -/
def java (s : String) : JavaString := s.toList.map fun c => c.toNat.toUInt16

/-- The characters of XML: a unit that is one, or a surrogate pair. -/
def isXmlText : JavaString → Bool
  | [] => true
  | u :: rest =>
    if 0xD800 ≤ u ∧ u < 0xDC00 then
      match rest with
      | v :: rest => 0xDC00 ≤ v && v < 0xE000 && isXmlText rest
      | [] => false
    else
      (u = 9 || u = 10 || u = 13 || (0x20 ≤ u && u < 0xD800) || (0xE000 ≤ u && u < 0xFFFE)) &&
        isXmlText rest

/-! ### Grants -/

/-- `Grantee.Types`. -/
inductive GranteeType where
  | canonicalUser
  | group
  | amazonCustomerByEmail
deriving DecidableEq

def GranteeType.toJava : GranteeType → JavaString
  | .canonicalUser => java "CanonicalUser"
  | .group => java "Group"
  | .amazonCustomerByEmail => java "AmazonCustomerByEmail"

/-- What is `null` is absent. -/
structure Grantee where
  canonicalId : Option JavaString
  displayName : Option JavaString
  uri : Option JavaString := none
  emailAddress : Option JavaString := none
  type : GranteeType := .canonicalUser
deriving DecidableEq

structure Grant where
  grantee : Grantee
  permission : Option JavaString
deriving DecidableEq

structure Owner where
  canonicalId : Option JavaString
  displayName : Option JavaString
deriving DecidableEq

/-- `MAX_GRANT_SIZE`. -/
def maxGrantSize : Nat := 100

/-! ### Documents -/

/-- The elements that stand in a `Grantee`. -/
inductive GranteeTag where
  | id
  | displayName
  | uri
  | emailAddress
deriving DecidableEq

/-- A `Grant`, with the attribute `xsi:type` and the children of its `Grantee`. -/
structure GrantNode where
  xsiType : JavaString
  children : List (GranteeTag × JavaString)
  permission : JavaString
deriving DecidableEq

structure Document where
  ownerId : JavaString
  ownerDisplayName : Option JavaString
  grants : List GrantNode
deriving DecidableEq

namespace GrantNode

/-- `getElementsByTagName(tag).item(0)`, with its text. -/
def item (node : GrantNode) (tag : GranteeTag) : Option JavaString :=
  (node.children.find? (·.1 = tag)).map (·.2)

/-- `setTextContent` of the first element with that tag, which is there. -/
def setItem (node : GrantNode) (tag : GranteeTag) (text : Option JavaString) : Option GrantNode :=
  match node.children.findIdx? (·.1 = tag) with
  | some i => some { node with children := node.children.set i (tag, text.getD []) }
  | none => none

/-- `removeChild` of the first element with that tag, if there is one. -/
def removeItem (node : GrantNode) (tag : GranteeTag) : GrantNode :=
  { node with children := node.children.eraseP (·.1 = tag) }

/-- `appendChild`. -/
def appendItem (node : GrantNode) (tag : GranteeTag) (text : JavaString) : GrantNode :=
  { node with children := node.children ++ [(tag, text)] }

/-- The texts of the grant. -/
def texts (node : GrantNode) : List JavaString :=
  node.xsiType :: node.permission :: node.children.map (·.2)

end GrantNode

/-- The texts of the document. -/
def Document.texts (doc : Document) : List JavaString :=
  doc.ownerId :: doc.ownerDisplayName.getD [] :: doc.grants.flatMap (·.texts)

/-- What a parser reads from the XML of a document. -/
def Document.parse (xml : Document) : Option Document :=
  if xml.texts.all isXmlText then some xml else none

/-- `defaultAclTemplate.xml`. -/
def defaultAclTemplate : Document where
  ownerId := java "Owner_ID"
  ownerDisplayName := some (java "Owner_Name")
  grants := [{
    xsiType := java "CanonicalUser"
    children := [(.id, java "Grantee_ID"), (.displayName, java "Grantee_Name")]
    permission := java "Permission" }]

/-! ### The policy -/

structure AccessControlPolicy where
  doc : Document
  owner : Owner
  accessControlList : List Grant
deriving DecidableEq

namespace AccessControlPolicy

/-- The grantee of a `Grant`, or nothing where an element is missing. -/
def loadGrantee (node : GrantNode) : Option Grantee :=
  if node.xsiType = GranteeType.canonicalUser.toJava then
    (node.item .id).map fun canonicalId =>
      { canonicalId := some canonicalId
        displayName := node.item .displayName }
  else if node.xsiType = GranteeType.group.toJava then
    (node.item .uri).map fun uri =>
      { canonicalId := none
        displayName := none
        uri := some uri
        type := .group }
  else if node.xsiType = GranteeType.amazonCustomerByEmail.toJava then
    (node.item .emailAddress).map fun emailAddress =>
      { canonicalId := none
        displayName := none
        emailAddress := some emailAddress
        type := .amazonCustomerByEmail }
  else
    some {
      canonicalId := some []
      displayName := some [] }

def loadGrant (node : GrantNode) : Option Grant :=
  (loadGrantee node).map fun grantee =>
    { grantee := grantee
      permission := some node.permission }

/-- `loadXml`, or nothing where it throws. -/
def loadXml (doc : Document) : Option AccessControlPolicy :=
  (doc.grants.mapM loadGrant).bind fun grants =>
    if grants.length ≤ maxGrantSize then
      some {
        doc := doc
        owner := { canonicalId := some doc.ownerId, displayName := doc.ownerDisplayName }
        accessControlList := grants }
    else none

/-- `AccessControlPolicy(String)`. -/
def ofXml (xml : Document) : Option AccessControlPolicy := xml.parse.bind loadXml

def setOwner (acp : AccessControlPolicy) (newOwner : Owner) : AccessControlPolicy :=
  { acp with owner := newOwner }

/-- `setAccessControlList`, of a list that has room. -/
def setAccessControlList (acp : AccessControlPolicy) (acl : List Grant) : AccessControlPolicy :=
  { acp with accessControlList := acl }

/-! ### Writing -/

/-- What `flushXmlValues` makes of the `Grantee` for a grantee that is no canonical user. -/
def replaceGrantee (node : GrantNode) (type : GranteeType) (tag : GranteeTag) (text : JavaString) :
    GrantNode :=
  (({ node with xsiType := type.toJava }.appendItem tag text).removeItem .id).removeItem .displayName

/-- What `flushXmlValues` makes of the `Grantee`.  A `createTextNode(null)` is not followed. -/
def flushGrantee (grantee : Grantee) (node : GrantNode) : Option GrantNode :=
  match grantee.type with
  | .canonicalUser =>
    (node.setItem .id grantee.canonicalId).bind (·.setItem .displayName grantee.displayName)
  | .group => grantee.uri.map (replaceGrantee node .group .uri)
  | .amazonCustomerByEmail =>
    grantee.emailAddress.map (replaceGrantee node .amazonCustomerByEmail .emailAddress)

def flushGrant (grant : Grant) (node : GrantNode) : Option GrantNode :=
  (flushGrantee grant.grantee node).map fun node =>
    { node with permission := grant.permission.getD [] }

/-- The loop over the grants, from the one at `counter` on.  The list of nodes is live. -/
def flushGrants (grantNodesLength : Nat) : List Grant → Nat → List GrantNode →
    Option (List GrantNode)
  | [], counter, nodes =>
    some (if counter < grantNodesLength then nodes.take counter else nodes)
  | grant :: rest, counter, nodes => do
    let nodes ← if counter + 1 > grantNodesLength then nodes.head?.map (nodes ++ [·]) else some nodes
    let node ← nodes[counter]?
    let node ← flushGrant grant node
    flushGrants grantNodesLength rest (counter + 1) (nodes.set counter node)

/-- `flushXmlValues`, or nothing where it throws. -/
def flushXmlValues (acp : AccessControlPolicy) : Option Document := do
  let _ ← acp.doc.ownerDisplayName
  let grants ← flushGrants acp.doc.grants.length acp.accessControlList 0 acp.doc.grants
  some {
    ownerId := acp.owner.canonicalId.getD []
    ownerDisplayName := some (acp.owner.displayName.getD [])
    grants := grants }

/-- `getXml`: what it writes, and the policy with the document as it is then. -/
def getXml (acp : AccessControlPolicy) : Option (Document × AccessControlPolicy) :=
  (flushXmlValues acp).map fun doc => (doc, { acp with doc := doc })

/-! ### What a policy comes back as -/

/-- The policies that there are: made from the template or from what a policy wrote, whatever was
put into them, and written before or not. -/
inductive Made : AccessControlPolicy → Prop
  | template {acp : AccessControlPolicy} : loadXml defaultAclTemplate = some acp → Made acp
  | reread {acp acp' acp'' : AccessControlPolicy} {xml : Document} :
      Made acp → acp.getXml = some (xml, acp') → ofXml xml = some acp'' → Made acp''
  | written {acp acp' : AccessControlPolicy} {xml : Document} :
      Made acp → acp.getXml = some (xml, acp') → Made acp'
  | owner {acp : AccessControlPolicy} (newOwner : Owner) : Made acp → Made (acp.setOwner newOwner)
  | acl {acp : AccessControlPolicy} {acl : List Grant} :
      Made acp → acl.length ≤ maxGrantSize → Made (acp.setAccessControlList acl)

/-- Nothing of the grant is `null` that its type uses. -/
def NotNull (grant : Grant) : Prop :=
  grant.permission.isSome ∧
    match grant.grantee.type with
    | .canonicalUser => grant.grantee.canonicalId.isSome ∧ grant.grantee.displayName.isSome
    | .group => grant.grantee.uri.isSome
    | .amazonCustomerByEmail => grant.grantee.emailAddress.isSome

/-- What a grant is about: the type of the grantee, its id, URI or e-mail address, and the
permission. -/
def subject (grant : Grant) : GranteeType × Option JavaString × Option JavaString :=
  (grant.grantee.type,
    match grant.grantee.type with
    | .canonicalUser => grant.grantee.canonicalId
    | .group => grant.grantee.uri
    | .amazonCustomerByEmail => grant.grantee.emailAddress,
    grant.permission)

/-- The texts that are put into the document for an owner and for canonical users. -/
def putTexts (owner : Owner) (acl : List Grant) : List JavaString :=
  owner.canonicalId.getD [] :: owner.displayName.getD [] :: acl.flatMap fun grant =>
    [grant.grantee.canonicalId.getD [], grant.grantee.displayName.getD [], grant.permission.getD []]

/-- The owner and the grants that are put into the policy are written and read back, and what is
written a second time is the same document. -/
def Survives (acp : AccessControlPolicy) (owner : Owner) (acl : List Grant) : Prop :=
  ∃ xml acp' reread acp'',
    ((acp.setOwner owner).setAccessControlList acl).getXml = some (xml, acp') ∧
      ofXml xml = some reread ∧ reread.owner = owner ∧
      reread.accessControlList.map subject = acl.map subject ∧
      acp'.getXml = some (xml, acp'')

end AccessControlPolicy

end CortxS3

/-
What comes back of an access control policy that is written and read.

A `Grant` in the document is either of a canonical user and has exactly an id and a name, or of
somebody else and has neither (`NodeOK`), and writing keeps that.  A canonical user cannot be
written into the second kind, which throws.  Anybody else is written into both, but always with
one element more (`flushGrant_cases`), so the document never stays the same.  The elements that
are added for grants without one are copies of the first.

So a policy survives exactly when canonical users alone are written, into elements of canonical
users, and there is at least one of them.
-/
import CortxS3.Auth.AccessControlPolicy

namespace CortxS3.AccessControlPolicy

open Option (bind_eq_bind bind_eq_some_iff bind_some isSome_iff_exists map_eq_some_iff map_some
  not_mem_none some.inj)
open List

/-! ### One grant -/

/-- The `Grant` is one of a canonical user. -/
def Canonical (node : GrantNode) : Prop := node.xsiType = GranteeType.canonicalUser.toJava
deriving Decidable

/-- A `Grant` of a canonical user has an id and a name; any other has neither. -/
def NodeOK (node : GrantNode) : Prop :=
  if Canonical node then ∃ canonicalId displayName,
    node.children = [(.id, canonicalId), (.displayName, displayName)]
  else ∀ c ∈ node.children, c.1 ≠ .id ∧ c.1 ≠ .displayName

/-- What a canonical user is written as. -/
def writtenNode (grant : Grant) : GrantNode where
  xsiType := GranteeType.canonicalUser.toJava
  children := [(.id, grant.grantee.canonicalId.getD []),
    (.displayName, grant.grantee.displayName.getD [])]
  permission := grant.permission.getD []

theorem canonical_writtenNode (grant : Grant) : Canonical (writtenNode grant) := rfl

theorem nodeOK_writtenNode (grant : Grant) : NodeOK (writtenNode grant) := by
  rw [NodeOK, if_pos (canonical_writtenNode grant)]
  exact ⟨_, _, rfl⟩

variable {grant : Grant} {node : GrantNode}

theorem flushGrant_canonical (htype : grant.grantee.type = .canonicalUser) (hok : NodeOK node)
    (hnode : Canonical node) : flushGrant grant node = some (writtenNode grant) := by
  rw [NodeOK, if_pos hnode] at hok
  obtain ⟨xsiType, children, permission⟩ := node
  obtain ⟨canonicalId, displayName, hchildren⟩ := hok
  obtain rfl : xsiType = GranteeType.canonicalUser.toJava := hnode
  obtain rfl : children = [(.id, canonicalId), (.displayName, displayName)] := hchildren
  unfold flushGrant flushGrantee
  rw [htype]
  rfl

theorem flushGrant_canonical_none (htype : grant.grantee.type = .canonicalUser) (hok : NodeOK node)
    (hnode : ¬ Canonical node) : flushGrant grant node = none := by
  rw [NodeOK, if_neg hnode] at hok
  have hnone : node.children.findIdx? (·.1 = .id) = none := by
    rw [List.findIdx?_eq_none_iff]
    intro c hc
    exact decide_eq_false (hok c hc).1
  unfold flushGrant flushGrantee GrantNode.setItem
  rw [htype]
  simp only
  rw [hnone]
  rfl

theorem replaceGrantee_nodeOK {type : GranteeType} {tag : GranteeTag}
    (htype : type ≠ .canonicalUser) (htag : tag ≠ .id ∧ tag ≠ .displayName) (hok : NodeOK node)
    (text : JavaString) :
    ¬ Canonical (replaceGrantee node type tag text) ∧ NodeOK (replaceGrantee node type tag text) ∧
      (¬ Canonical node →
        (replaceGrantee node type tag text).children = node.children ++ [(tag, text)]) := by
  have hother : ¬ Canonical (replaceGrantee node type tag text) := by
    show type.toJava ≠ GranteeType.canonicalUser.toJava
    cases type with
    | canonicalUser => exact absurd rfl htype
    | group | amazonCustomerByEmail => decide
  have hsame : (∀ c ∈ node.children, c.1 ≠ .id ∧ c.1 ≠ .displayName) →
      (replaceGrantee node type tag text).children = node.children ++ [(tag, text)] := by
    intro hnone
    have hall : ∀ c ∈ node.children ++ [(tag, text)], c.1 ≠ .id ∧ c.1 ≠ .displayName := by
      intro c hc
      rcases mem_append.mp hc with hc | hc
      · exact hnone c hc
      · rw [mem_singleton.mp hc]
        exact htag
    have hid : (node.children ++ [(tag, text)]).eraseP (·.1 = .id) =
        node.children ++ [(tag, text)] :=
      eraseP_of_forall_not fun c hc => by simpa using (hall c hc).1
    have hname : (node.children ++ [(tag, text)]).eraseP (·.1 = .displayName) =
        node.children ++ [(tag, text)] :=
      eraseP_of_forall_not fun c hc => by simpa using (hall c hc).2
    show ((node.children ++ [(tag, text)]).eraseP _).eraseP _ = _
    rw [hid, hname]
  refine ⟨hother, ?_, fun hnode => hsame ?_⟩
  · rw [NodeOK, if_neg hother]
    by_cases hnode : Canonical node
    · rw [NodeOK, if_pos hnode] at hok
      obtain ⟨canonicalId, displayName, hchildren⟩ := hok
      have hnew : (replaceGrantee node type tag text).children = [(tag, text)] := by
        show ((node.children ++ [(tag, text)]).eraseP _).eraseP _ = _
        rw [hchildren]
        rfl
      intro c hc
      rw [hnew, mem_singleton] at hc
      rw [hc]
      exact htag
    · rw [NodeOK, if_neg hnode] at hok
      intro c hc
      rw [hsame hok] at hc
      rcases mem_append.mp hc with hc | hc
      · exact hok c hc
      · rw [mem_singleton.mp hc]
        exact htag
  · rw [NodeOK, if_neg hnode] at hok
    exact hok

theorem flushGrant_cases {node' : GrantNode} (hok : NodeOK node)
    (h : flushGrant grant node = some node') :
    (grant.grantee.type = .canonicalUser ∧ Canonical node ∧ node' = writtenNode grant) ∨
      (grant.grantee.type ≠ .canonicalUser ∧ ¬ Canonical node' ∧ NodeOK node' ∧
        (¬ Canonical node → node'.children ≠ node.children)) := by
  have hreplaced : ∀ {type : GranteeType} {tag : GranteeTag} {text : Option JavaString},
      type ≠ .canonicalUser → tag ≠ .id ∧ tag ≠ .displayName →
      ((text.map (replaceGrantee node type tag)).map fun node =>
        { node with permission := grant.permission.getD [] }) = some node' →
      ¬ Canonical node' ∧ NodeOK node' ∧ (¬ Canonical node → node'.children ≠ node.children) := by
    intro type tag text htype htag h
    obtain ⟨replaced, hreplaced, rfl⟩ := map_eq_some_iff.mp h
    obtain ⟨text, -, rfl⟩ := map_eq_some_iff.mp hreplaced
    obtain ⟨hother, hnodeOK, hchildren⟩ := replaceGrantee_nodeOK htype htag hok text
    refine ⟨hother, hnodeOK, fun hnode heq => ?_⟩
    have hlength := congrArg List.length ((hchildren hnode).symm.trans heq)
    rw [length_append, length_singleton] at hlength
    omega
  by_cases htype : grant.grantee.type = .canonicalUser
  · by_cases hnode : Canonical node
    · rw [flushGrant_canonical htype hok hnode] at h
      exact .inl ⟨htype, hnode, (some.inj h).symm⟩
    · rw [flushGrant_canonical_none htype hok hnode] at h
      cases h
  · refine .inr ⟨htype, ?_⟩
    unfold flushGrant flushGrantee at h
    cases heq : grant.grantee.type with
    | canonicalUser => exact absurd heq htype
    | group =>
      rw [heq] at h
      exact hreplaced (by decide) (by decide) h
    | amazonCustomerByEmail =>
      rw [heq] at h
      exact hreplaced (by decide) (by decide) h

theorem nodeOK_flushGrant {node' : GrantNode} (hok : NodeOK node)
    (h : flushGrant grant node = some node') : NodeOK node' := by
  rcases flushGrant_cases hok h with ⟨-, -, rfl⟩ | ⟨-, -, hnode', -⟩
  · exact nodeOK_writtenNode grant
  · exact hnode'

/-! ### All grants -/

/-- Each grant into the next `Grant`, or into a copy of the first. -/
def flushAll (first : Option GrantNode) : List Grant → List GrantNode → Option (List GrantNode)
  | [], _ => some []
  | grant :: rest, node :: nodes => do
    let node ← flushGrant grant node
    let nodes ← flushAll (first.or (some node)) rest nodes
    some (node :: nodes)
  | grant :: rest, [] => do
    let node ← first
    let node ← flushGrant grant node
    let nodes ← flushAll first rest []
    some (node :: nodes)

theorem flushGrants_eq {grantNodesLength : Nat} :
    ∀ {acl : List Grant} (done : List GrantNode) {nodes : List GrantNode},
      grantNodesLength = done.length + nodes.length ∨
        (nodes = [] ∧ grantNodesLength ≤ done.length) →
      flushGrants grantNodesLength acl done.length (done ++ nodes) =
        (flushAll done.head? acl nodes).map (done ++ ·) := by
  intro acl
  induction acl with
  | nil =>
    intro done nodes hlength
    unfold flushGrants flushAll
    rw [map_some, append_nil]
    congr 1
    rcases hlength with hlength | ⟨rfl, hlength⟩
    · by_cases hnodes : nodes = []
      · rw [hnodes, append_nil]
        split
        · exact take_length
        · rfl
      · have := length_pos_iff.mpr hnodes
        rw [if_pos (by omega), take_left]
    · rw [if_neg (by omega), append_nil]
  | cons grant rest ih =>
    intro done nodes hlength
    have hstep : ∀ (node : GrantNode) (nodes : List GrantNode),
        grantNodesLength = done.length + (nodes.length + 1) ∨
          (nodes = [] ∧ grantNodesLength ≤ done.length) →
        ((done ++ node :: nodes)[done.length]?.bind fun node' =>
          (flushGrant grant node').bind fun node'' => flushGrants grantNodesLength rest
            (done.length + 1) ((done ++ node :: nodes).set done.length node'')) =
        (flushGrant grant node).bind fun node' =>
          ((flushAll (done.head?.or (some node')) rest nodes).map (node' :: ·)).map (done ++ ·) := by
      intro node nodes hlength
      rw [List.getElem?_append_right le_rfl, Nat.sub_self, List.getElem?_cons_zero, bind_some]
      congr 1
      funext node'
      have hset : (done ++ node :: nodes).set done.length node' = (done ++ [node']) ++ nodes := by
        rw [set_append_right _ _ le_rfl, Nat.sub_self, set_cons_zero, append_assoc,
          singleton_append]
      have hlength' : grantNodesLength = (done ++ [node']).length + nodes.length ∨
          (nodes = [] ∧ grantNodesLength ≤ (done ++ [node']).length) := by
        rw [length_append, length_singleton]
        rcases hlength with hlength | ⟨hnodes, hlength⟩
        · exact .inl (by omega)
        · exact .inr ⟨hnodes, by omega⟩
      have hnext := ih (done ++ [node']) hlength'
      rw [length_append, length_singleton] at hnext
      rw [hset, hnext, Option.map_map]
      have hhead : (done ++ [node']).head? = done.head?.or (some node') := by
        rw [List.head?_append]
        rfl
      rw [hhead]
      congr 1
      funext l
      rw [append_assoc, singleton_append]
      rfl
    cases nodes with
    | cons node nodes =>
      have hlength' : grantNodesLength = done.length + (nodes.length + 1) := by
        rcases hlength with hlength | ⟨hnodes, -⟩
        · exact hlength
        · cases hnodes
      unfold flushGrants flushAll
      rw [if_neg (by omega)]
      refine (hstep node nodes (.inl hlength')).trans ?_
      cases flushGrant grant node with
      | none => rfl
      | some node' =>
        show ((flushAll (done.head?.or (some node')) rest nodes).map (node' :: ·)).map _ =
          ((flushAll (done.head?.or (some node')) rest nodes).bind fun nodes =>
            some (node' :: nodes)).map _
        cases flushAll (done.head?.or (some node')) rest nodes <;> rfl
    | nil =>
      have hlength' : grantNodesLength ≤ done.length := by
        rcases hlength with hlength | ⟨-, hlength⟩
        · exact hlength.le
        · exact hlength
      unfold flushGrants flushAll
      rw [if_pos (by omega), append_nil]
      cases hhead : done.head? with
      | none => rfl
      | some first =>
        refine (hstep first [] (.inr ⟨rfl, hlength'⟩)).trans ?_
        rw [hhead]
        show _ = ((flushGrant grant first).bind fun node' =>
          (flushAll (some first) rest []).bind fun nodes => some (node' :: nodes)).map _
        cases flushGrant grant first with
        | none => rfl
        | some node' =>
          show ((flushAll (some first) rest []).map (node' :: ·)).map _ =
            ((flushAll (some first) rest []).bind fun nodes => some (node' :: nodes)).map _
          cases flushAll (some first) rest [] <;> rfl

theorem nodeOK_flushAll :
    ∀ {acl : List Grant} {first : Option GrantNode} {nodes out : List GrantNode},
      (∀ node ∈ first, NodeOK node) → (∀ node ∈ nodes, NodeOK node) →
      flushAll first acl nodes = some out → ∀ node ∈ out, NodeOK node := by
  intro acl
  induction acl with
  | nil =>
    intro first nodes out _ _ h
    unfold flushAll at h
    cases h
    exact fun _ hnode => nomatch hnode
  | cons grant rest ih =>
    intro first nodes out hfirst hnodes h
    cases nodes with
    | nil =>
      unfold flushAll at h
      obtain ⟨copy, hcopy, h⟩ := bind_eq_some_iff.mp h
      obtain ⟨node', hnode', h⟩ := bind_eq_some_iff.mp h
      obtain ⟨nodes', hnodes', h⟩ := bind_eq_some_iff.mp h
      cases h
      exact forall_mem_cons.mpr ⟨nodeOK_flushGrant (hfirst copy hcopy) hnode',
        ih hfirst hnodes hnodes'⟩
    | cons node nodes =>
      unfold flushAll at h
      obtain ⟨node', hnode', h⟩ := bind_eq_some_iff.mp h
      obtain ⟨nodes', hnodes', h⟩ := bind_eq_some_iff.mp h
      cases h
      obtain ⟨hnode, hnodes⟩ := forall_mem_cons.mp hnodes
      have hok := nodeOK_flushGrant hnode hnode'
      refine forall_mem_cons.mpr ⟨hok, ih ?_ hnodes hnodes'⟩
      intro f hf
      cases first with
      | none =>
        cases hf
        exact hok
      | some first =>
        cases hf
        exact hfirst _ rfl

theorem canonicalUser_of_flushAll_self :
    ∀ {acl : List Grant} {first : Option GrantNode} {nodes : List GrantNode},
      (∀ node ∈ nodes, NodeOK node) → flushAll first acl nodes = some nodes →
      ∀ grant ∈ acl, grant.grantee.type = .canonicalUser := by
  intro acl
  induction acl with
  | nil => exact fun _ _ _ hgrant => nomatch hgrant
  | cons grant rest ih =>
    intro first nodes hnodes h
    cases nodes with
    | nil =>
      unfold flushAll at h
      obtain ⟨copy, -, h⟩ := bind_eq_some_iff.mp h
      obtain ⟨node', -, h⟩ := bind_eq_some_iff.mp h
      obtain ⟨nodes', -, h⟩ := bind_eq_some_iff.mp h
      cases h
    | cons node nodes =>
      unfold flushAll at h
      obtain ⟨node', hnode', h⟩ := bind_eq_some_iff.mp h
      obtain ⟨nodes', hnodes', h⟩ := bind_eq_some_iff.mp h
      cases h
      obtain ⟨hnode, hnodes⟩ := forall_mem_cons.mp hnodes
      refine forall_mem_cons.mpr ⟨?_, ih hnodes hnodes'⟩
      rcases flushGrant_cases hnode hnode' with ⟨htype, -, -⟩ | ⟨-, hother, -, hmore⟩
      · exact htype
      · exact absurd rfl (hmore hother)

theorem canonical_of_flushAll :
    ∀ {acl : List Grant} {first : Option GrantNode} {nodes out : List GrantNode},
      (∀ grant ∈ acl, grant.grantee.type = .canonicalUser) → (∀ node ∈ nodes, NodeOK node) →
      flushAll first acl nodes = some out → ∀ node ∈ nodes.take acl.length, Canonical node := by
  intro acl
  induction acl with
  | nil =>
    intro first nodes out _ _ _ node hnode
    rw [length_nil, take_zero] at hnode
    cases hnode
  | cons grant rest ih =>
    intro first nodes out hacl hnodes h
    cases nodes with
    | nil => exact fun _ hnode => nomatch hnode
    | cons node nodes =>
      unfold flushAll at h
      obtain ⟨node', hnode', h⟩ := bind_eq_some_iff.mp h
      obtain ⟨nodes', hnodes', h⟩ := bind_eq_some_iff.mp h
      obtain ⟨hgrant, hacl⟩ := forall_mem_cons.mp hacl
      obtain ⟨hnode, hnodes⟩ := forall_mem_cons.mp hnodes
      rw [length_cons, take_succ_cons]
      refine forall_mem_cons.mpr ⟨?_, ih hacl hnodes hnodes'⟩
      rcases flushGrant_cases hnode hnode' with ⟨-, hcanonical, -⟩ | ⟨htype, -⟩
      · exact hcanonical
      · exact absurd hgrant htype

/-- Canonical users in the place of canonical users, and of copies of the first. -/
theorem flushAll_eq_map :
    ∀ {acl : List Grant} (first : Option GrantNode) {nodes : List GrantNode},
      (∀ grant ∈ acl, grant.grantee.type = .canonicalUser) →
      (∀ node ∈ first, NodeOK node ∧ Canonical node) → (nodes = [] → acl ≠ [] → first.isSome) →
      (∀ node ∈ nodes, NodeOK node) → (∀ node ∈ nodes.take acl.length, Canonical node) →
      flushAll first acl nodes = some (acl.map writtenNode) := by
  intro acl
  induction acl with
  | nil =>
    intro first nodes _ _ _ _ _
    unfold flushAll
    rfl
  | cons grant rest ih =>
    intro first nodes hacl hfirst hsome hnodes hcanonical
    obtain ⟨hgrant, hacl⟩ := forall_mem_cons.mp hacl
    cases nodes with
    | nil =>
      obtain ⟨copy, rfl⟩ := isSome_iff_exists.mp (hsome rfl (cons_ne_nil _ _))
      obtain ⟨hok, hcopy⟩ := hfirst copy rfl
      have hrest := ih (some copy) hacl hfirst (fun _ _ => rfl) hnodes
        (fun _ hnode => absurd (mem_of_mem_take hnode) not_mem_nil)
      unfold flushAll
      rw [bind_eq_bind, bind_some, flushGrant_canonical hgrant hok hcopy,
        bind_eq_bind, bind_some, hrest]
      rfl
    | cons node nodes =>
      obtain ⟨hnode, hnodes⟩ := forall_mem_cons.mp hnodes
      rw [length_cons, take_succ_cons] at hcanonical
      obtain ⟨hfirstNode, hcanonical⟩ := forall_mem_cons.mp hcanonical
      have hnext : ∀ f ∈ first.or (some (writtenNode grant)), NodeOK f ∧ Canonical f := by
        intro f hf
        cases first with
        | none =>
          cases hf
          exact ⟨nodeOK_writtenNode grant, canonical_writtenNode grant⟩
        | some first =>
          cases hf
          exact hfirst _ rfl
      have hrest := ih _ hacl hnext (fun _ _ => by cases first <;> rfl) hnodes hcanonical
      unfold flushAll
      rw [flushGrant_canonical hgrant hnode hfirstNode, bind_eq_bind, bind_some, hrest]
      rfl

/-! ### The document -/

/-- What every document of a policy is like. -/
structure DocOK (doc : Document) : Prop where
  nodes : ∀ node ∈ doc.grants, NodeOK node
  ownerDisplayName : doc.ownerDisplayName.isSome

variable {acp : AccessControlPolicy}

theorem flushXmlValues_eq (hok : DocOK acp.doc) :
    acp.flushXmlValues = (flushAll none acp.accessControlList acp.doc.grants).map fun grants =>
      { ownerId := acp.owner.canonicalId.getD []
        ownerDisplayName := some (acp.owner.displayName.getD [])
        grants := grants } := by
  obtain ⟨name, hname⟩ := isSome_iff_exists.mp hok.ownerDisplayName
  have hgrants : flushGrants acp.doc.grants.length acp.accessControlList 0 acp.doc.grants =
      (flushAll none acp.accessControlList acp.doc.grants).map ([] ++ ·) :=
    flushGrants_eq [] (.inl (Nat.zero_add _).symm)
  unfold flushXmlValues
  rw [hname, bind_eq_bind, bind_some, hgrants]
  cases flushAll none acp.accessControlList acp.doc.grants <;> rfl

variable {doc : Document}

theorem docOK_flushXmlValues (hok : DocOK acp.doc) (h : acp.flushXmlValues = some doc) :
    DocOK doc := by
  rw [flushXmlValues_eq hok] at h
  obtain ⟨grants, hgrants, rfl⟩ := map_eq_some_iff.mp h
  exact ⟨nodeOK_flushAll (fun _ hnode => absurd hnode (not_mem_none _)) hok.nodes hgrants, rfl⟩

variable {xml : Document}

theorem getXml_eq_some {acp' : AccessControlPolicy} :
    acp.getXml = some (xml, acp') ↔
      acp.flushXmlValues = some xml ∧ acp' = { acp with doc := xml } := by
  unfold getXml
  rw [map_eq_some_iff]
  constructor
  · rintro ⟨doc, hdoc, h⟩
    obtain ⟨rfl, rfl⟩ := Prod.mk.inj h
    exact ⟨hdoc, rfl⟩
  · rintro ⟨hdoc, rfl⟩
    exact ⟨xml, hdoc, rfl⟩

theorem loadXml_eq_some :
    loadXml doc = some acp ↔ ∃ grants, doc.grants.mapM loadGrant = some grants ∧
      grants.length ≤ maxGrantSize ∧
      acp = ⟨doc, ⟨some doc.ownerId, doc.ownerDisplayName⟩, grants⟩ := by
  unfold loadXml
  rw [bind_eq_some_iff]
  refine exists_congr fun grants => and_congr Iff.rfl ?_
  constructor
  · intro h
    split at h
    · next hlength => exact ⟨hlength, (some.inj h).symm⟩
    · cases h
  · rintro ⟨hlength, rfl⟩
    rw [if_pos hlength]

theorem ofXml_eq_some :
    ofXml xml = some acp ↔ xml.texts.all isXmlText = true ∧ loadXml xml = some acp := by
  unfold ofXml Document.parse
  by_cases htexts : xml.texts.all isXmlText = true
  · rw [if_pos htexts, bind_some]
    exact ⟨fun h => ⟨htexts, h⟩, fun h => h.2⟩
  · rw [if_neg htexts]
    exact ⟨(fun h => nomatch h), fun h => absurd h.1 htexts⟩

/-- The grant in the template. -/
def templateGrant : Grant where
  grantee :=
    { canonicalId := some (java "Grantee_ID")
      displayName := some (java "Grantee_Name") }
  permission := some (java "Permission")

/-- **Every document keeps its shape.** -/
theorem docOK_of_made (h : Made acp) : DocOK acp.doc := by
  induction h with
  | template h =>
    obtain ⟨grants, -, -, rfl⟩ := loadXml_eq_some.mp h
    refine ⟨?_, rfl⟩
    intro node hnode
    rw [mem_singleton.mp hnode]
    exact nodeOK_writtenNode templateGrant
  | reread _ hxml hread ih =>
    obtain ⟨grants, -, -, rfl⟩ := loadXml_eq_some.mp (ofXml_eq_some.mp hread).2
    exact docOK_flushXmlValues ih (getXml_eq_some.mp hxml).1
  | written _ hxml ih =>
    obtain ⟨hflush, rfl⟩ := getXml_eq_some.mp hxml
    exact docOK_flushXmlValues ih hflush
  | owner _ _ ih | acl _ _ ih => exact ih

/-! ### What is read back -/

/-- The grant of a canonical user, as it is read. -/
def readGrant (grant : Grant) : Grant where
  grantee :=
    { canonicalId := some (grant.grantee.canonicalId.getD [])
      displayName := some (grant.grantee.displayName.getD []) }
  permission := some (grant.permission.getD [])

theorem loadGrant_writtenNode (grant : Grant) :
    loadGrant (writtenNode grant) = some (readGrant grant) := by
  unfold loadGrant loadGrantee
  have htype : (writtenNode grant).xsiType = GranteeType.canonicalUser.toJava :=
    canonical_writtenNode grant
  rw [if_pos htype]
  rfl

theorem mapM_loadGrant (acl : List Grant) :
    (acl.map writtenNode).mapM loadGrant = some (acl.map readGrant) := by
  induction acl with
  | nil => rfl
  | cons grant rest ih =>
    rw [map_cons, mapM_cons, ih, loadGrant_writtenNode]
    rfl

theorem subject_readGrant (htype : grant.grantee.type = .canonicalUser) (hnull : NotNull grant) :
    subject (readGrant grant) = subject grant := by
  unfold NotNull at hnull
  rw [htype] at hnull
  obtain ⟨hpermission, hid, -⟩ := hnull
  obtain ⟨permission, hpermission⟩ := isSome_iff_exists.mp hpermission
  obtain ⟨canonicalId, hid⟩ := isSome_iff_exists.mp hid
  unfold subject readGrant
  rw [htype, hpermission, hid]
  rfl

theorem mem_texts_writtenNode {text : JavaString} :
    text ∈ (writtenNode grant).texts ↔ text = GranteeType.canonicalUser.toJava ∨
      text ∈ [grant.grantee.canonicalId.getD [], grant.grantee.displayName.getD [],
        grant.permission.getD []] := by
  have htexts : (writtenNode grant).texts = [GranteeType.canonicalUser.toJava,
      grant.permission.getD [], grant.grantee.canonicalId.getD [],
      grant.grantee.displayName.getD []] := rfl
  rw [htexts]
  simp only [mem_cons, not_mem_nil, or_false]
  constructor
  · rintro (h | h | h | h)
    · exact .inl h
    · exact .inr (.inr (.inr h))
    · exact .inr (.inl h)
    · exact .inr (.inr (.inl h))
  · rintro (h | h | h | h)
    · exact .inl h
    · exact .inr (.inr (.inl h))
    · exact .inr (.inr (.inr h))
    · exact .inr (.inl h)

theorem all_isXmlText_iff (owner : Owner) (acl : List Grant) :
    (Document.texts ⟨owner.canonicalId.getD [], some (owner.displayName.getD []),
      acl.map writtenNode⟩).all isXmlText = true ↔
      ∀ text ∈ putTexts owner acl, isXmlText text = true := by
  have htype : isXmlText GranteeType.canonicalUser.toJava = true := by decide +kernel
  rw [all_eq_true]
  unfold Document.texts putTexts
  constructor
  · intro h text htext
    rcases mem_cons.mp htext with rfl | htext
    · exact h _ mem_cons_self
    · rcases mem_cons.mp htext with rfl | htext
      · exact h _ (mem_cons_of_mem _ mem_cons_self)
      · obtain ⟨grant, hgrant, htext⟩ := mem_flatMap.mp htext
        exact h _ (mem_cons_of_mem _ (mem_cons_of_mem _ (mem_flatMap.mpr
          ⟨writtenNode grant, mem_map_of_mem hgrant, mem_texts_writtenNode.mpr (.inr htext)⟩)))
  · intro h text htext
    rcases mem_cons.mp htext with rfl | htext
    · exact h _ mem_cons_self
    · rcases mem_cons.mp htext with rfl | htext
      · exact h _ (mem_cons_of_mem _ mem_cons_self)
      · obtain ⟨node, hnode, htext⟩ := mem_flatMap.mp htext
        obtain ⟨grant, hgrant, rfl⟩ := mem_map.mp hnode
        rcases mem_texts_writtenNode.mp htext with rfl | htext
        · exact htype
        · exact h _ (mem_cons_of_mem _ (mem_cons_of_mem _ (mem_flatMap.mpr
            ⟨grant, hgrant, htext⟩)))

/-! ### The policy -/

theorem flushXmlValues_put (hok : DocOK doc) (owner : Owner) (acl : List Grant) :
    flushXmlValues ⟨doc, owner, acl⟩ = (flushAll none acl doc.grants).map fun grants =>
      { ownerId := owner.canonicalId.getD []
        ownerDisplayName := some (owner.displayName.getD [])
        grants := grants } :=
  flushXmlValues_eq hok

variable {acl : List Grant} {owner : Owner}

theorem docOK_put (hok : DocOK doc) (h : flushXmlValues ⟨doc, owner, acl⟩ = some xml) :
    DocOK xml := by
  refine docOK_flushXmlValues ?_ h
  exact hok

theorem flushAll_put (hok : DocOK doc) (htypes : ∀ grant ∈ acl, grant.grantee.type = .canonicalUser)
    (hnodes : doc.grants ≠ []) (hcanonical : ∀ node ∈ doc.grants.take acl.length, Canonical node) :
    flushAll none acl doc.grants = some (acl.map writtenNode) :=
  flushAll_eq_map none htypes (fun _ hnode => absurd hnode (not_mem_none _))
    (fun hnil => absurd hnil hnodes) hok.nodes hcanonical

theorem canonical_of_survives (hmade : Made acp) (hacl : acl ≠ []) (h : Survives acp owner acl) :
    (∀ grant ∈ acl, grant.grantee.type = .canonicalUser) ∧ acp.doc.grants ≠ [] ∧
      (∀ node ∈ acp.doc.grants.take acl.length, Canonical node) ∧
      ∀ text ∈ putTexts owner acl, isXmlText text = true := by
  have hok := docOK_of_made hmade
  obtain ⟨xml, acp', reread, acp'', hxml, hread, -, -, hagain⟩ := h
  obtain ⟨hfirst, rfl⟩ := getXml_eq_some.mp hxml
  have hok' : DocOK xml := docOK_put hok hfirst
  have hsecond := (flushXmlValues_put hok' owner acl).symm.trans (getXml_eq_some.mp hagain).1
  obtain ⟨grants, hgrants, rfl⟩ :=
    map_eq_some_iff.mp ((flushXmlValues_put hok owner acl).symm.trans hfirst)
  obtain ⟨grants', hgrants', heq⟩ := map_eq_some_iff.mp hsecond
  obtain rfl : grants' = grants := congrArg Document.grants heq
  have htypes := canonicalUser_of_flushAll_self hok'.nodes hgrants'
  have hcanonical := canonical_of_flushAll htypes hok.nodes hgrants
  have hnodes : acp.doc.grants ≠ [] := by
    intro hnil
    rw [hnil] at hgrants
    obtain ⟨grant, rest, rfl⟩ := exists_cons_of_ne_nil hacl
    cases hgrants
  obtain rfl := some.inj (hgrants.symm.trans (flushAll_put hok htypes hnodes hcanonical))
  exact ⟨htypes, hnodes, hcanonical, (all_isXmlText_iff owner acl).mp (ofXml_eq_some.mp hread).1⟩

theorem survives_of_canonical (hmade : Made acp) (hacl : acl ≠ [])
    (hmax : acl.length ≤ maxGrantSize)
    (howner : owner.canonicalId.isSome ∧ owner.displayName.isSome)
    (hnull : ∀ grant ∈ acl, NotNull grant)
    (htypes : ∀ grant ∈ acl, grant.grantee.type = .canonicalUser) (hnodes : acp.doc.grants ≠ [])
    (hcanonical : ∀ node ∈ acp.doc.grants.take acl.length, Canonical node)
    (htexts : ∀ text ∈ putTexts owner acl, isXmlText text = true) : Survives acp owner acl := by
  have hok := docOK_of_made hmade
  obtain ⟨xml, hxml⟩ : ∃ xml : Document, xml = ⟨owner.canonicalId.getD [],
    some (owner.displayName.getD []), acl.map writtenNode⟩ := ⟨_, rfl⟩
  have hfirst : flushXmlValues ⟨acp.doc, owner, acl⟩ = some xml := by
    rw [flushXmlValues_put hok, flushAll_put hok htypes hnodes hcanonical, map_some, hxml]
  have hok' : DocOK xml := docOK_put hok hfirst
  have hgrants : xml.grants = acl.map writtenNode := by rw [hxml]
  have hsecond : flushXmlValues ⟨xml, owner, acl⟩ = some xml := by
    have hnodes' : xml.grants ≠ [] := by
      rw [hgrants]
      exact fun hnil => hacl (map_eq_nil_iff.mp hnil)
    have hcanonical' : ∀ node ∈ xml.grants.take acl.length, Canonical node := by
      intro node hnode
      have hmem := mem_of_mem_take hnode
      rw [hgrants] at hmem
      obtain ⟨grant, -, rfl⟩ := mem_map.mp hmem
      exact canonical_writtenNode grant
    rw [flushXmlValues_put hok', flushAll_put hok' htypes hnodes' hcanonical', map_some, hxml]
  have hload : loadXml xml = some ⟨xml, ⟨some xml.ownerId, xml.ownerDisplayName⟩,
      acl.map readGrant⟩ := by
    refine loadXml_eq_some.mpr ⟨acl.map readGrant, ?_, by rw [length_map]; exact hmax, rfl⟩
    rw [hgrants]
    exact mapM_loadGrant acl
  have hread : ofXml xml = some ⟨xml, ⟨some xml.ownerId, xml.ownerDisplayName⟩,
      acl.map readGrant⟩ := by
    refine ofXml_eq_some.mpr ⟨?_, hload⟩
    rw [hxml]
    exact (all_isXmlText_iff owner acl).mpr htexts
  refine ⟨xml, _, _, _, getXml_eq_some.mpr ⟨hfirst, rfl⟩, hread, ?_, ?_,
    getXml_eq_some.mpr ⟨hsecond, rfl⟩⟩
  · obtain ⟨canonicalId, hid⟩ := isSome_iff_exists.mp howner.1
    obtain ⟨displayName, hname⟩ := isSome_iff_exists.mp howner.2
    rw [hxml]
    show (⟨some (owner.canonicalId.getD []), some (owner.displayName.getD [])⟩ : Owner) = owner
    rw [hid, hname]
    show (⟨some canonicalId, some displayName⟩ : Owner) = owner
    rw [← hid, ← hname]
  · show (acl.map readGrant).map subject = acl.map subject
    rw [map_map]
    exact map_congr_left fun grant hgrant =>
      subject_readGrant (htypes grant hgrant) (hnull grant hgrant)

/-- **A policy survives** exactly when canonical users alone are put into it, the document has at
least one `Grant` and all that are written over are of canonical users, and the texts are texts of
XML. -/
theorem acl_survives_iff (acp : AccessControlPolicy) (owner : Owner) (acl : List Grant)
    (hmade : Made acp) (hne : 1 ≤ acl.length) (hmax : acl.length ≤ maxGrantSize)
    (howner : owner.canonicalId.isSome ∧ owner.displayName.isSome)
    (hnull : ∀ grant ∈ acl, NotNull grant) :
    Survives acp owner acl ↔
      (∀ grant ∈ acl, grant.grantee.type = .canonicalUser) ∧ acp.doc.grants ≠ [] ∧
        (∀ node ∈ acp.doc.grants.take acl.length,
          node.xsiType = GranteeType.canonicalUser.toJava) ∧
        ∀ text ∈ putTexts owner acl, isXmlText text = true := by
  have hacl : acl ≠ [] := length_pos_iff.mp hne
  constructor
  · exact canonical_of_survives hmade hacl
  · rintro ⟨htypes, hnodes, hcanonical, htexts⟩
    exact survives_of_canonical hmade hacl hmax howner hnull htypes hnodes hcanonical htexts

/-- A policy as it is made from the template. -/
def fresh : AccessControlPolicy where
  doc := defaultAclTemplate
  owner := { canonicalId := some (java "Owner_ID"), displayName := some (java "Owner_Name") }
  accessControlList := [templateGrant]

theorem made_fresh : Made fresh :=
  .template (loadXml_eq_some.mpr ⟨[templateGrant], mapM_loadGrant [templateGrant],
    by decide, rfl⟩)

def ann : Owner where
  canonicalId := some (java "123")
  displayName := some (java "ann")

/-- Ann and Bob may read. -/
def annAndBob : List Grant := [
  { grantee := { canonicalId := some (java "123"), displayName := some (java "ann") }
    permission := some (java "READ") },
  { grantee := { canonicalId := some (java "456"), displayName := some (java "bob") }
    permission := some (java "READ") }]

theorem acl_survives_iff_annAndBob :
    Survives fresh ann annAndBob ↔
      (∀ grant ∈ annAndBob, grant.grantee.type = .canonicalUser) ∧ fresh.doc.grants ≠ [] ∧
        (∀ node ∈ fresh.doc.grants.take annAndBob.length,
          node.xsiType = GranteeType.canonicalUser.toJava) ∧
        ∀ text ∈ putTexts ann annAndBob, isXmlText text = true :=
  acl_survives_iff fresh ann annAndBob made_fresh (Nat.le_add_left 1 1)
    (Nat.le_add_right 2 98) ⟨rfl, rfl⟩
    (forall_mem_cons.mpr ⟨⟨rfl, rfl, rfl⟩, forall_mem_cons.mpr ⟨⟨rfl, rfl, rfl⟩,
      fun _ hgrant => absurd hgrant not_mem_nil⟩⟩)

/-- A group may read. -/
def allUsers : Grant where
  grantee :=
    { canonicalId := none
      displayName := none
      uri := some (java "AllUsers")
      type := .group }
  permission := some (java "READ")

/-- A group is put into the document a second time. -/
theorem not_survives_allUsers :
    ¬ ∀ (acp : AccessControlPolicy) (owner : Owner) (acl : List Grant), Made acp →
      1 ≤ acl.length → acl.length ≤ maxGrantSize →
      owner.canonicalId.isSome ∧ owner.displayName.isSome → (∀ grant ∈ acl, NotNull grant) →
      Survives acp owner acl := by
  intro hall
  have hsurvives := hall fresh ann [allUsers] made_fresh le_rfl (Nat.le_add_right 1 99) ⟨rfl, rfl⟩
    (forall_mem_cons.mpr ⟨⟨rfl, rfl⟩, fun _ hgrant => absurd hgrant not_mem_nil⟩)
  have htypes := (canonical_of_survives made_fresh (cons_ne_nil _ _) hsurvives).1
  exact absurd (htypes allUsers mem_cons_self) (by decide)

end CortxS3.AccessControlPolicy

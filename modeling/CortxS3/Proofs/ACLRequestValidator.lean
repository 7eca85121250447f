/-
Grant headers are applied completely or not at all, but for an exception.

As long as the grantees are resolved, the maps hold each of them once under its header (`Held`),
and the grants that are made of the maps are one for each permission and grantee.  The first grantee
that is not resolved ends the check.  If he was not found, or not written as he should be, the
response is an error; if the lookup threw, nobody fills in a response, and the request goes on with
what the maps hold by then (`applied_iff`).
-/
import CortxS3.Auth.ACLRequestValidator

namespace CortxS3

open List ACLCreator

namespace ACLRequestValidator

open AccessControlPolicy

/-! ### What should be granted -/

/-- Whom a grantee stands for. -/
inductive Party where
  | account (canonicalId : JavaString)
  | group (path : JavaString)
deriving DecidableEq

variable (C : CharacterData) (directory : AclLookups)

/-- What a lookup says of a grantee, `kind=details`, if he is written like this. -/
def lookedUp (count : Nat) (grantee : JavaString) : Option (Option Found) :=
  (grantee.findIdx? (· = 61)).bind fun index =>
    if JavaString.trim (grantee.drop (index + 1)) = [] then none
    else some (findGrantee C directory count (grantee.take index) (grantee.drop (index + 1)))

/-- Whom the grantee stands for, when the lookup finds somebody. -/
def resolve (count : Nat) (grantee : JavaString) : Option Party :=
  match lookedUp C directory count grantee with
  | some (some (.account account)) => account.id.map fun _ => .account account.canonicalId
  | some (some (.group group)) => group.groupId.map fun _ => .group group.path
  | _ => none

/-- The lookup throws. -/
def throws (count : Nat) (grantee : JavaString) : Bool :=
  match lookedUp C directory count grantee with
  | some none => true
  | _ => false

/-- The grantees of all headers, each with his header. -/
def grantees (permissionHeadersSet : List JavaString) (body : BodyMap) :
    List (JavaString × JavaString) :=
  permissionHeadersSet.flatMap fun header =>
    ((body.get C header).elim [] tokens).map fun grantee => (header, grantee)

/-- Whom all grantees stand for, when everyone is resolved. -/
def resolveAll : Nat → List (JavaString × JavaString) → Option (List (JavaString × Party))
  | _, [] => some []
  | count, (header, grantee) :: rest => do
    let party ← resolve C directory count grantee
    let parties ← resolveAll (count + 1) rest
    some ((header, party) :: parties)

/-- The first grantee that is not resolved is one whose lookup throws. -/
def stopsSilently : Nat → List (JavaString × JavaString) → Bool
  | _, [] => false
  | count, (_, grantee) :: rest =>
    match resolve C directory count grantee with
    | some _ => stopsSilently (count + 1) rest
    | none => throws C directory count grantee

/-- A grant by the permission of a header, as `subject` tells it. -/
def rightOf (grant : JavaString × Party) : GranteeType × Option JavaString × Option JavaString :=
  match grant.2 with
  | .account canonicalId =>
    (.canonicalUser, some canonicalId, ACLCreator.actualPermissionsMap.lookup grant.1)
  | .group path => (.group, some path, ACLCreator.actualPermissionsMap.lookup grant.1)

/-- One grant for each permission and party, and no other. -/
structure Exact (resolved : List (JavaString × Party)) (acl : List Grant) : Prop where
  once : (acl.map subject).Nodup
  same : ∀ right, right ∈ acl.map subject ↔ right ∈ resolved.map rightOf

/-- The response is an error, or all grantees have been resolved and the policy that is made of the
maps, in whatever order their iterators go, grants exactly what they say. -/
def Applied (ctx : AclContext) (permissionHeadersSet : List JavaString) (body : BodyMap) : Prop :=
  let v := validateAclRequest ctx.characters directory permissionHeadersSet body
  v.response.isError = true ∨
    ∃ resolved,
      resolveAll ctx.characters directory 0
        (grantees ctx.characters permissionHeadersSet body) = some resolved ∧
      ∀ requestor accounts groups acp,
        accounts.Perm v.accountPermissionMap → groups.Perm v.groupPermissionMap →
        ACLCreator.policyFromPermissionHeaders ctx requestor accounts groups body = .ok acp →
        Exact resolved acp.accessControlList

/-! ### A map of grantees -/

section Map

variable {α β : Type} (key : α → β)

/-- The grantees of a map under what tells them apart, each with his header. -/
def pairs (m : PermissionMap α) : List (JavaString × β) :=
  m.flatMap fun entry => entry.2.map fun grantee => (entry.1, key grantee)

/-- Every header stands once, and every grantee once under it. -/
structure Tidy (m : PermissionMap α) : Prop where
  headers : (m.map Prod.fst).Nodup
  grantees : ∀ entry ∈ m, (entry.2.map key).Nodup

variable {key}

variable {m : PermissionMap α}

theorem Tidy.nodup_pairs (h : Tidy key m) : (pairs key m).Nodup := by
  unfold pairs
  rw [nodup_flatMap]
  refine ⟨fun entry hentry => ?_, ?_⟩
  · have hnodup := h.grantees entry hentry
    rw [show (entry.2.map fun grantee => (entry.1, key grantee)) =
      (entry.2.map key).map (Prod.mk entry.1) by rw [map_map]; rfl]
    exact hnodup.map (Prod.mk_right_injective entry.1)
  · refine (pairwise_map.mp h.headers).imp ?_
    intro a b hne pair ha hb
    obtain ⟨_, _, rfl⟩ := mem_map.mp ha
    obtain ⟨_, _, hpair⟩ := mem_map.mp hb
    exact hne (congrArg Prod.fst hpair).symm

theorem Tidy.perm {m' : PermissionMap α} (h : Tidy key m) (hperm : m'.Perm m) : Tidy key m' where
  headers := (hperm.map Prod.fst).nodup_iff.mpr h.headers
  grantees := fun entry hentry => h.grantees entry (hperm.mem_iff.mp hentry)

theorem headers_updatePermissionMap (same : α → α → Bool) (permission : JavaString) (grantee : α)
    (m : PermissionMap α) :
    (updatePermissionMap same permission grantee m).map Prod.fst =
      if permission ∈ m.map Prod.fst then m.map Prod.fst else m.map Prod.fst ++ [permission] := by
  induction m with
  | nil => rfl
  | cons entry rest ih =>
    obtain ⟨header, list⟩ := entry
    rw [updatePermissionMap]
    by_cases hheader : header = permission
    · have hmem : permission ∈ ((header, list) :: rest).map Prod.fst := by
        rw [map_cons, hheader]
        exact mem_cons_self
      rw [if_pos hmem, if_pos hheader]
      rfl
    · rw [if_neg hheader, map_cons, ih]
      have hcons : permission ∈ ((header, list) :: rest).map Prod.fst ↔
          permission ∈ rest.map Prod.fst := by
        rw [map_cons, mem_cons]
        exact or_iff_right fun hc => hheader hc.symm
      by_cases hmem : permission ∈ rest.map Prod.fst
      · rw [if_pos hmem, if_pos (hcons.mpr hmem)]
        rfl
      · rw [if_neg hmem, if_neg (mt hcons.mp hmem)]
        rfl

/-- **Adding a grantee** keeps the map tidy. -/
theorem Tidy.update [DecidableEq β] (h : Tidy key m) (permission : JavaString) (grantee : α) :
    Tidy key (updatePermissionMap (fun a b => key b = key a) permission grantee m) where
  headers := by
    rw [headers_updatePermissionMap]
    split_ifs with hmem
    · exact h.headers
    · rw [nodup_append]
      refine ⟨h.headers, nodup_singleton _, ?_⟩
      intro a ha b hb
      rw [mem_singleton.mp hb]
      rintro rfl
      exact hmem ha
  grantees := by
    obtain ⟨-, hgrantees⟩ := h
    induction m with
    | nil =>
      intro entry hentry
      rw [mem_singleton.mp hentry]
      exact nodup_singleton _
    | cons first rest ih =>
      obtain ⟨header, list⟩ := first
      intro entry hentry
      rw [updatePermissionMap] at hentry
      by_cases hheader : header = permission
      · rw [if_pos hheader, mem_cons] at hentry
        rcases hentry with rfl | hentry
        · have hlist := hgrantees (header, list) mem_cons_self
          dsimp only
          split_ifs with hany
          · exact hlist
          · rw [map_append, map_singleton, nodup_append]
            refine ⟨hlist, nodup_singleton _, ?_⟩
            intro a ha b hb
            obtain ⟨old, hold, rfl⟩ := mem_map.mp ha
            rw [mem_singleton.mp hb]
            intro hsame
            exact hany (any_eq_true.mpr ⟨old, hold, decide_eq_true hsame⟩)
        · exact hgrantees entry (mem_cons_of_mem _ hentry)
      · rw [if_neg hheader, mem_cons] at hentry
        rcases hentry with rfl | hentry
        · exact hgrantees (header, list) mem_cons_self
        · exact ih (fun e he => hgrantees e (mem_cons_of_mem _ he)) entry hentry

/-- **And it adds nobody but him.** -/
theorem mem_pairs_update [DecidableEq β] (permission : JavaString) (grantee : α)
    {pair : JavaString × β} :
    ∀ m : PermissionMap α,
      pair ∈ pairs key (updatePermissionMap (fun a b => key b = key a) permission grantee m) ↔
        pair = (permission, key grantee) ∨ pair ∈ pairs key m := by
  intro m
  induction m with
  | nil => simp [updatePermissionMap, pairs]
  | cons first rest ih =>
    obtain ⟨header, list⟩ := first
    have hcons : ∀ (entry : JavaString × List α) (rest : PermissionMap α),
        pairs key (entry :: rest) =
          (entry.2.map fun grantee => (entry.1, key grantee)) ++ pairs key rest :=
      fun _ _ => rfl
    rw [updatePermissionMap]
    by_cases hheader : header = permission
    · rw [if_pos hheader, hcons, hcons, mem_append, mem_append, ← or_assoc]
      refine or_congr_left ?_
      subst hheader
      dsimp only
      split_ifs with hany
      · obtain ⟨old, hold, hsame⟩ := any_eq_true.mp hany
        refine ⟨Or.inr, ?_⟩
        rintro (rfl | hmem)
        · exact mem_map.mpr ⟨old, hold, by rw [of_decide_eq_true hsame]⟩
        · exact hmem
      · rw [map_append, mem_append, map_singleton, mem_singleton, or_comm]
    · rw [if_neg hheader, hcons, hcons, mem_append, mem_append, ih, or_left_comm]

end Map

/-! ### One grantee -/

/-- The maps hold exactly the grantees that have been resolved, and nobody has filled in a
response. -/
structure Held (done : List (JavaString × Party)) (v : Validation) : Prop where
  accounts : Tidy AclAccount.canonicalId v.accountPermissionMap
  groups : Tidy AclGroup.path v.groupPermissionMap
  heldAccounts : ∀ header canonicalId,
    (header, canonicalId) ∈ pairs AclAccount.canonicalId v.accountPermissionMap ↔
      (header, Party.account canonicalId) ∈ done
  heldGroups : ∀ header path,
    (header, path) ∈ pairs AclGroup.path v.groupPermissionMap ↔ (header, Party.group path) ∈ done
  response : v.response = {}

theorem held_init : Held [] {} where
  accounts := ⟨nodup_nil, fun _ h => absurd h not_mem_nil⟩
  groups := ⟨nodup_nil, fun _ h => absurd h not_mem_nil⟩
  heldAccounts := fun _ _ => iff_of_false not_mem_nil not_mem_nil
  heldGroups := fun _ _ => iff_of_false not_mem_nil not_mem_nil
  response := rfl

variable {C directory}

variable {done : List (JavaString × Party)}

variable {header : JavaString}

theorem mem_snoc {party other : Party} {permission : JavaString} :
    (header, party) ∈ done ++ [(permission, other)] ↔
      (header = permission ∧ party = other) ∨ (header, party) ∈ done := by
  rw [mem_append, mem_singleton, Prod.mk.injEq, or_comm]

variable {v : Validation}

theorem Held.addAccount (h : Held done v) (permission : JavaString) (account : AclAccount)
    (count : Nat) :
    Held (done ++ [(permission, .account account.canonicalId)])
      { v with
        count := count
        accountPermissionMap :=
          updateAccountPermissionMap permission account v.accountPermissionMap } where
  accounts := h.accounts.update permission account
  groups := h.groups
  heldAccounts := fun header canonicalId => by
    rw [mem_snoc, ← h.heldAccounts, Party.account.injEq]
    refine Iff.trans (mem_pairs_update permission account v.accountPermissionMap) ?_
    rw [Prod.mk.injEq]
  heldGroups := fun header path => by
    rw [mem_snoc, ← h.heldGroups]
    exact (or_iff_right fun hsame => Party.noConfusion hsame.2).symm
  response := h.response

theorem Held.addGroup (h : Held done v) (permission : JavaString) (group : AclGroup) (count : Nat) :
    Held (done ++ [(permission, .group group.path)])
      { v with
        count := count
        groupPermissionMap := updateGroupPermissionMap permission group v.groupPermissionMap } where
  accounts := h.accounts
  groups := h.groups.update permission group
  heldAccounts := fun header canonicalId => by
    rw [mem_snoc, ← h.heldAccounts]
    exact (or_iff_right fun hsame => Party.noConfusion hsame.2).symm
  heldGroups := fun header path => by
    rw [mem_snoc, ← h.heldGroups, Party.group.injEq]
    refine Iff.trans (mem_pairs_update permission group v.groupPermissionMap) ?_
    rw [Prod.mk.injEq]
  response := h.response

theorem isError_invalidResponse (grantee : JavaString) :
    (invalidResponse grantee).isError = true := by
  unfold invalidResponse
  split_ifs <;> rfl

/-- What `isGranteeValid` does, by what the lookup says. -/
inductive Outcome (grantee : JavaString) (v : Validation) (permission : JavaString) :
    Bool × Validation → Prop where
  | resolved (party : Party) (w : Validation) :
      resolve C directory v.count grantee = some party → w.count = v.count + 1 →
      (∀ done, Held done v → Held (done ++ [(permission, party)]) w) →
      Outcome grantee v permission (true, w)
  | thrown :
      resolve C directory v.count grantee = none → throws C directory v.count grantee = true →
      Outcome grantee v permission (false, { v with count := v.count + 1 })
  | invalid (response : ServerResponse) :
      resolve C directory v.count grantee = none → throws C directory v.count grantee = false →
      response.isError = true →
      Outcome grantee v permission (false, { v with count := v.count + 1, response := response })

theorem isGranteeValid_outcome (grantee : JavaString) (v : Validation) (permission : JavaString) :
    @Outcome C directory grantee v permission
      (isGranteeValid C directory grantee v permission) := by
  unfold isGranteeValid
  dsimp only
  cases hindex : grantee.findIdx? (· = 61) with
  | none =>
    have hlookedUp : lookedUp C directory v.count grantee = none := by
      rw [lookedUp, hindex, Option.bind_none]
    exact .invalid _ (by rw [resolve, hlookedUp]) (by rw [throws, hlookedUp]) rfl
  | some index =>
    dsimp only
    have hlookedUp : lookedUp C directory v.count grantee =
        if JavaString.trim (grantee.drop (index + 1)) = [] then none
        else some
          (findGrantee C directory v.count (grantee.take index) (grantee.drop (index + 1))) := by
      rw [lookedUp, hindex, Option.bind_some]
    split_ifs with htrim
    · rw [if_pos htrim] at hlookedUp
      exact .invalid _ (by rw [resolve, hlookedUp]) (by rw [throws, hlookedUp])
        (isError_invalidResponse _)
    · rw [if_neg htrim] at hlookedUp
      generalize findGrantee C directory v.count (grantee.take index)
        (grantee.drop (index + 1)) = found at hlookedUp
      match found with
      | none => exact .thrown (by rw [resolve, hlookedUp]) (by rw [throws, hlookedUp])
      | some (.account account) =>
        dsimp only
        split_ifs with hexists
        · refine .resolved (.account _) _ ?_ rfl fun done h => h.addAccount permission account _
          obtain ⟨id, hid⟩ := Option.isSome_iff_exists.mp hexists
          rw [resolve, hlookedUp]
          dsimp only
          rw [hid, Option.map_some]
        · refine .invalid _ ?_ (by rw [throws, hlookedUp]) (isError_invalidResponse _)
          rw [resolve, hlookedUp]
          dsimp only
          rw [Option.not_isSome_iff_eq_none.mp hexists, Option.map_none]
      | some (.group group) =>
        dsimp only
        split_ifs with hexists
        · refine .resolved (.group _) _ ?_ rfl fun done h => h.addGroup permission group _
          obtain ⟨id, hid⟩ := Option.isSome_iff_exists.mp hexists
          rw [resolve, hlookedUp]
          dsimp only
          rw [hid, Option.map_some]
        · refine .invalid _ ?_ (by rw [throws, hlookedUp]) (isError_invalidResponse _)
          rw [resolve, hlookedUp]
          dsimp only
          rw [Option.not_isSome_iff_eq_none.mp hexists, Option.map_none]
      | some .nobody =>
        exact .invalid _ (by rw [resolve, hlookedUp]) (by rw [throws, hlookedUp])
          (isError_invalidResponse _)

/-! ### All grantees -/

variable (C directory)

/-- The two loops over headers and grantees as one loop. -/
def runGrantees : List (JavaString × JavaString) → Validation → Bool × Validation
  | [], v => (true, v)
  | (header, grantee) :: rest, v =>
    match isGranteeValid C directory grantee v header with
    | (true, v) => runGrantees rest v
    | (false, v) => (false, v)

variable {C directory}

theorem runGrantees_append (front back : List (JavaString × JavaString)) (v : Validation) :
    runGrantees C directory (front ++ back) v =
      match runGrantees C directory front v with
      | (true, v) => runGrantees C directory back v
      | (false, v) => (false, v) := by
  induction front generalizing v with
  | nil => rfl
  | cons first rest ih =>
    rw [cons_append, runGrantees, runGrantees]
    obtain ⟨valid, w⟩ := isGranteeValid C directory first.2 v first.1
    cases valid with
    | true => exact ih w
    | false => rfl

theorem granteeLoop_eq_runGrantees (permission : JavaString) (values : List JavaString)
    (v : Validation) :
    granteeLoop C directory permission values v =
      runGrantees C directory (values.map fun grantee => (permission, grantee)) v := by
  induction values generalizing v with
  | nil => rfl
  | cons value rest ih =>
    rw [granteeLoop, map_cons, runGrantees]
    obtain ⟨valid, w⟩ := isGranteeValid C directory value v permission
    cases valid with
    | true => exact ih w
    | false => rfl

theorem isValidPermissionHeader_eq_runGrantees (body : BodyMap)
    (permissionHeadersSet : List JavaString) (v : Validation) :
    isValidPermissionHeader C directory body permissionHeadersSet v =
      runGrantees C directory (grantees C permissionHeadersSet body) v := by
  induction permissionHeadersSet generalizing v with
  | nil => rfl
  | cons header rest ih =>
    rw [isValidPermissionHeader, grantees, flatMap_cons, runGrantees_append,
      ← granteeLoop_eq_runGrantees]
    cases body.get C header with
    | none => exact ih v
    | some value =>
      rw [Option.elim_some]
      dsimp only
      obtain ⟨valid, w⟩ := granteeLoop C directory header (tokens value) v
      cases valid with
      | true => exact ih w
      | false => rfl

/-- How the loop over the grantees ends. -/
theorem runGrantees_cases (list : List (JavaString × JavaString)) (v : Validation)
    (done : List (JavaString × Party)) (h : Held done v) :
    (∃ resolved, resolveAll C directory v.count list = some resolved ∧
      stopsSilently C directory v.count list = false ∧
      Held (done ++ resolved) (runGrantees C directory list v).2) ∨
    (resolveAll C directory v.count list = none ∧
      (runGrantees C directory list v).2.response.isError =
        !stopsSilently C directory v.count list) := by
  induction list generalizing v done with
  | nil =>
    refine .inl ⟨[], rfl, rfl, ?_⟩
    rw [append_nil]
    exact h
  | cons first rest ih =>
    obtain ⟨header, grantee⟩ := first
    rw [resolveAll, stopsSilently, runGrantees]
    have houtcome := @isGranteeValid_outcome C directory grantee v header
    generalize isGranteeValid C directory grantee v header = result at houtcome
    cases houtcome with
    | resolved party w hresolve hcount hheld =>
      rw [hresolve, ← hcount]
      dsimp only
      obtain ⟨resolved, hall, hsilent, hafter⟩ | ⟨hall, herror⟩ := ih _ _ (hheld done h)
      · refine .inl ⟨(header, party) :: resolved, ?_, hsilent, ?_⟩
        · rw [hall]
          rfl
        · rw [append_assoc] at hafter
          exact hafter
      · refine .inr ⟨?_, herror⟩
        rw [hall]
        rfl
    | thrown hresolve hthrows =>
      rw [hresolve]
      dsimp only
      rw [hthrows, h.response]
      exact .inr ⟨rfl, rfl⟩
    | invalid response hresolve hthrows herror =>
      rw [hresolve]
      dsimp only
      rw [hthrows, herror]
      exact .inr ⟨rfl, rfl⟩

/-! ### The grants -/

section Grants

variable {α : Type} (toGrant : α → Option JavaString → Grant)

theorem addGrant_eq_ok {acl acl' : List Grant} {grant : Grant}
    (h : addGrant acl grant = .ok acl') : acl' = acl ++ [grant] := by
  unfold addGrant at h
  split_ifs at h
  exact (Except.ok.inj h).symm

theorem addGrants_eq_ok (permission : Option JavaString) (list : List α) (acl acl' : List Grant)
    (h : list.foldlM (fun acl grantee => addGrant acl (toGrant grantee permission)) acl =
      .ok acl') : acl' = acl ++ list.map fun grantee => toGrant grantee permission := by
  induction list generalizing acl with
  | nil =>
    rw [map_nil, append_nil]
    exact (Except.ok.inj h).symm
  | cons grantee rest ih =>
    rw [foldlM_cons, bind_eq_ok] at h
    obtain ⟨next, hnext, hrest⟩ := h
    rw [ih next hrest, addGrant_eq_ok hnext, append_assoc]
    rfl

theorem updateAclFromMap_eq_ok (m : PermissionMap α) (acl acl' : List Grant)
    (h : updateAclFromMap toGrant m acl = .ok acl') :
    acl' = acl ++ m.flatMap fun entry =>
      entry.2.map fun grantee =>
        toGrant grantee (actualPermissionsMap.lookup entry.1) := by
  unfold updateAclFromMap at h
  induction m generalizing acl with
  | nil =>
    rw [flatMap_nil, append_nil]
    exact (Except.ok.inj h).symm
  | cons entry rest ih =>
    rw [foldlM_cons, bind_eq_ok] at h
    obtain ⟨next, hnext, hrest⟩ := h
    rw [ih next hrest, addGrants_eq_ok toGrant _ _ _ _ hnext, append_assoc]
    rfl

/-- What the grants of a map are about. -/
theorem map_subject_grants {β : Type} (key : α → β) (party : β → Party)
    (hsubject : ∀ header grantee,
      subject (toGrant grantee (actualPermissionsMap.lookup header)) =
        rightOf (header, party (key grantee)))
    (m : PermissionMap α) :
    (m.flatMap fun entry =>
        entry.2.map fun grantee =>
          toGrant grantee (actualPermissionsMap.lookup entry.1)).map subject =
      (pairs key m).map fun pair => rightOf (pair.1, party pair.2) := by
  unfold pairs
  rw [map_flatMap, map_flatMap]
  refine congrArg (List.flatMap · m) (funext fun entry => ?_)
  rw [map_map, map_map]
  exact map_congr_left fun grantee _ => hsubject entry.1 grantee

end Grants

theorem lookup_injective :
    ∀ header ∈ permissionHeaders, ∀ header' ∈ permissionHeaders,
      actualPermissionsMap.lookup header =
        actualPermissionsMap.lookup header' → header = header' := by
  decide

theorem rightOf_injective {a b : JavaString × Party} (ha : a.1 ∈ permissionHeaders)
    (hb : b.1 ∈ permissionHeaders) (h : rightOf a = rightOf b) : a = b := by
  obtain ⟨header, party⟩ := a
  obtain ⟨header', party'⟩ := b
  cases party with
  | account canonicalId =>
    cases party' with
    | account canonicalId' =>
      simp only [rightOf, Prod.mk.injEq, true_and, Option.some.injEq] at h
      rw [h.1, lookup_injective header ha header' hb h.2]
    | group path => simp [rightOf] at h
  | group path =>
    cases party' with
    | account canonicalId => simp [rightOf] at h
    | group path' =>
      simp only [rightOf, Prod.mk.injEq, true_and, Option.some.injEq] at h
      rw [h.1, lookup_injective header ha header' hb h.2]

variable {resolved : List (JavaString × Party)}

theorem header_of_mem_resolveAll {count : Nat} {list : List (JavaString × JavaString)}
    (h : resolveAll C directory count list = some resolved) {pair : JavaString × Party}
    (hpair : pair ∈ resolved) : pair.1 ∈ list.map Prod.fst := by
  induction list generalizing count resolved with
  | nil =>
    rw [← Option.some.inj h] at hpair
    exact absurd hpair not_mem_nil
  | cons first rest ih =>
    obtain ⟨header, grantee⟩ := first
    rw [resolveAll] at h
    obtain ⟨party, hparty, h⟩ := Option.bind_eq_some_iff.mp h
    obtain ⟨parties, hparties, h⟩ := Option.bind_eq_some_iff.mp h
    rw [← Option.some.inj h, mem_cons] at hpair
    rw [map_cons, mem_cons]
    rcases hpair with rfl | hpair
    · exact .inl rfl
    · exact .inr (ih hparties hpair)

variable {body : BodyMap}

/-- **The grants that are made of the maps** are one for each permission and party. -/
theorem Held.exact (h : Held resolved v) (hheaders : ∀ pair ∈ resolved, pair.1 ∈ permissionHeaders)
    {ctx : AclContext} {requestor : Option PolicyRequestor} {accounts : PermissionMap AclAccount}
    {groups : PermissionMap AclGroup} {acp : AccessControlPolicy}
    (haccounts : accounts.Perm v.accountPermissionMap) (hgroups : groups.Perm v.groupPermissionMap)
    (hacp : policyFromPermissionHeaders ctx requestor accounts groups body = .ok acp) :
    Exact resolved acp.accessControlList := by
  unfold policyFromPermissionHeaders at hacp
  rw [bind_eq_ok] at hacp
  obtain ⟨template, -, hacp⟩ := hacp
  rw [bind_eq_ok] at hacp
  obtain ⟨accountAcl, haccountAcl, hacp⟩ := hacp
  rw [bind_eq_ok] at hacp
  obtain ⟨newAcl, hnewAcl, hacp⟩ := hacp
  rw [bind_eq_ok] at hacp
  obtain ⟨existingAcp, -, hacp⟩ := hacp
  rw [bind_eq_ok] at hacp
  obtain ⟨owner, -, hacp⟩ := hacp
  rw [← Except.ok.inj hacp]
  have hsubjects : newAcl.map subject =
      (pairs AclAccount.canonicalId accounts).map (fun pair => rightOf (pair.1, .account pair.2)) ++
        (pairs AclGroup.path groups).map fun pair => rightOf (pair.1, .group pair.2) := by
    rw [updateAclFromMap_eq_ok _ _ _ _ hnewAcl, updateAclFromMap_eq_ok _ _ _ _ haccountAcl,
      nil_append, map_append,
      map_subject_grants _ AclAccount.canonicalId Party.account fun _ _ => rfl,
      map_subject_grants _ AclGroup.path Party.group fun _ _ => rfl]
  have hmemAccounts : ∀ header canonicalId,
      (header, canonicalId) ∈ pairs AclAccount.canonicalId accounts ↔
        (header, Party.account canonicalId) ∈ resolved := fun header canonicalId => by
    rw [← h.heldAccounts]
    exact (haccounts.flatMap_right _).mem_iff
  have hmemGroups : ∀ header path, (header, path) ∈ pairs AclGroup.path groups ↔
      (header, Party.group path) ∈ resolved := fun header path => by
    rw [← h.heldGroups]
    exact (hgroups.flatMap_right _).mem_iff
  constructor
  · show (newAcl.map subject).Nodup
    rw [hsubjects, nodup_append]
    refine ⟨?_, ?_, ?_⟩
    · refine List.Nodup.map_on ?_ (h.accounts.perm haccounts).nodup_pairs
      intro a ha b hb hsame
      have := rightOf_injective (hheaders _ ((hmemAccounts a.1 a.2).mp ha))
        (hheaders _ ((hmemAccounts b.1 b.2).mp hb)) hsame
      simp only [Prod.mk.injEq, Party.account.injEq] at this
      exact Prod.ext this.1 this.2
    · refine List.Nodup.map_on ?_ (h.groups.perm hgroups).nodup_pairs
      intro a ha b hb hsame
      have := rightOf_injective (hheaders _ ((hmemGroups a.1 a.2).mp ha))
        (hheaders _ ((hmemGroups b.1 b.2).mp hb)) hsame
      simp only [Prod.mk.injEq, Party.group.injEq] at this
      exact Prod.ext this.1 this.2
    · intro a ha b hb
      obtain ⟨pair, -, rfl⟩ := mem_map.mp ha
      obtain ⟨pair', -, rfl⟩ := mem_map.mp hb
      simp [rightOf]
  · intro right
    show right ∈ newAcl.map subject ↔ _
    rw [hsubjects, mem_append, mem_map, mem_map, mem_map]
    constructor
    · rintro (⟨pair, hpair, rfl⟩ | ⟨pair, hpair, rfl⟩)
      · exact ⟨_, (hmemAccounts pair.1 pair.2).mp hpair, rfl⟩
      · exact ⟨_, (hmemGroups pair.1 pair.2).mp hpair, rfl⟩
    · rintro ⟨⟨header, party⟩, hpair, rfl⟩
      cases party with
      | account canonicalId => exact .inl ⟨_, (hmemAccounts header canonicalId).mpr hpair, rfl⟩
      | group path => exact .inr ⟨_, (hmemGroups header path).mpr hpair, rfl⟩

/-! ### The request -/

variable {permissionHeadersSet : List JavaString}

theorem mem_header_of_mem_grantees
    (h : header ∈ (grantees C permissionHeadersSet body).map Prod.fst) :
    header ∈ permissionHeadersSet := by
  obtain ⟨pair, hpair, rfl⟩ := mem_map.mp h
  obtain ⟨header, hheader, hpair⟩ := mem_flatMap.mp hpair
  obtain ⟨_, -, rfl⟩ := mem_map.mp hpair
  exact hheader

theorem grantees_eq_nil (h : ∀ header ∈ permissionHeadersSet, (body.get C header).isSome = false) :
    grantees C permissionHeadersSet body = [] := by
  rw [grantees, flatMap_eq_nil_iff]
  intro header hheader
  rw [Option.isSome_eq_false_iff.mp (h header hheader) |> Option.isNone_iff_eq_none.mp]
  rfl

theorem isError_of_moreThanOne (h : moreThanOne C body = true) :
    (validateAclRequest C directory permissionHeadersSet body).response.isError = true := by
  rw [validateAclRequest, if_pos h]
  dsimp only
  split_ifs <;> rfl

/-- The response ends the request, or the maps hold every grantee; but for an exception. -/
theorem validateAclRequest_cases (horder : permissionHeadersSet.Perm permissionHeaders)
    (hone : ¬moreThanOne C body = true) :
    (∃ resolved,
      resolveAll C directory 0 (grantees C permissionHeadersSet body) = some resolved ∧
      stopsSilently C directory 0 (grantees C permissionHeadersSet body) = false ∧
      ((validateAclRequest C directory permissionHeadersSet body).response.isError = true ∨
        Held resolved (validateAclRequest C directory permissionHeadersSet body))) ∨
    (resolveAll C directory 0 (grantees C permissionHeadersSet body) = none ∧
      (validateAclRequest C directory permissionHeadersSet body).response.isError =
        !stopsSilently C directory 0 (grantees C permissionHeadersSet body)) := by
  rw [validateAclRequest, if_neg hone]
  by_cases hheaders : (permissionHeaders.any fun header => (body.get C header).isSome) = true
  · rw [if_pos hheaders, isValidPermissionHeader_eq_runGrantees]
    obtain ⟨resolved, hall, hsilent, hheld⟩ | hnone :=
      runGrantees_cases (grantees C permissionHeadersSet body) {} [] held_init
    · exact .inl ⟨resolved, hall, hsilent, .inr hheld⟩
    · exact .inr hnone
  · rw [if_neg hheaders]
    have hnil : grantees C permissionHeadersSet body = [] := by
      refine grantees_eq_nil fun header hheader => ?_
      rw [Bool.not_eq_true, any_eq_false] at hheaders
      exact Bool.eq_false_iff.mpr (hheaders header (horder.mem_iff.mp hheader))
    rw [hnil]
    refine .inl ⟨[], rfl, rfl, ?_⟩
    cases body.get C (java "x-amz-acl") with
    | none => exact .inr held_init
    | some value =>
      dsimp only
      split_ifs
      · exact .inr held_init
      · exact .inl rfl

/-- **Grant headers are applied completely or not at all** just when more than one kind of ACL is
given, or the first grantee that is not resolved is not one whose lookup throws. -/
theorem applied_iff (ctx : AclContext) (directory : AclLookups)
    (permissionHeadersSet : List JavaString) (horder : permissionHeadersSet.Perm permissionHeaders)
    (body : BodyMap) :
    Applied directory ctx permissionHeadersSet body ↔
      moreThanOne ctx.characters body = true ∨
        stopsSilently ctx.characters directory 0
          (grantees ctx.characters permissionHeadersSet body) = false := by
  by_cases hone : moreThanOne ctx.characters body = true
  · exact iff_of_true (.inl (isError_of_moreThanOne hone)) (.inl hone)
  rw [or_iff_right hone]
  obtain ⟨resolved, hall, hsilent, herror | hheld⟩ | ⟨hnone, herror⟩ :=
    @validateAclRequest_cases ctx.characters directory body _ horder hone
  · exact iff_of_true (.inl herror) hsilent
  · refine iff_of_true (.inr ⟨resolved, hall, ?_⟩) hsilent
    intro requestor accounts groups acp haccounts hgroups hacp
    refine hheld.exact ?_ haccounts hgroups hacp
    intro pair hpair
    exact horder.mem_iff.mp (mem_header_of_mem_grantees (header_of_mem_resolveAll hall hpair))
  · constructor
    · rintro (hstatus | ⟨resolved, hall, -⟩)
      · rw [herror, Bool.not_eq_true'] at hstatus
        exact hstatus
      · rw [hnone] at hall
        exact absurd hall nofun
    · intro hsilent
      rw [hsilent] at herror
      exact .inl herror

/-! ### A directory that goes away -/

/-- Finds an account for every canonical id, as long as fewer than `last` grantees have been looked
up. -/
def lookupsUntil (last : Nat) : AclLookups where
  findByEmailAddress := fun _ _ => none
  findByCanonicalID := fun count canonicalId =>
    if count < last then
      some { id := some (java "1"), canonicalId := canonicalId, name := java "ann" }
    else none
  getGroup := fun _ _ => none

def asciiContext : AclContext where
  characters := CharacterData.ofAscii
  readXml := fun _ => none

/-- Two accounts may read. -/
def grantReadToTwo : BodyMap := [(java "x-amz-grant-read", java "id=C1,id=C2")]

/-- The directory can be asked for both. -/
theorem applied_iff_two : Applied (lookupsUntil 2) asciiContext permissionHeaders grantReadToTwo :=
  (applied_iff asciiContext (lookupsUntil 2) permissionHeaders (List.Perm.refl _)
    grantReadToTwo).mpr (.inr (by decide))

/-- The directory goes away between the two: there is no status, and only the first may read. -/
theorem not_applied_second :
    ¬Applied (lookupsUntil 1) asciiContext permissionHeaders grantReadToTwo := by
  have hstatus : (validateAclRequest asciiContext.characters (lookupsUntil 1) permissionHeaders
      grantReadToTwo).response.isError = false := by decide
  have hresolved : resolveAll asciiContext.characters (lookupsUntil 1) 0
      (grantees asciiContext.characters permissionHeaders grantReadToTwo) = none := by decide
  rintro (herror | ⟨resolved, hall, -⟩)
  · rw [hstatus] at herror
    cases herror
  · rw [hresolved] at hall
    cases hall

end ACLRequestValidator

end CortxS3

/-
Whether the order of the lists in a bucket policy decides anything.

The loops over resources, actions, conditions and statements look for something, and what they
find does not depend on the order.  The loop over the principals does not either, unless the
requestor is anonymous: then the first principal decides.  So a statement with `*` among other
principals matches an anonymous request or does not, as its list happens to be written, and the
response is free of the order exactly when no such statement makes a difference.

Orders are compared whose evaluation throws no exception.  A statement is looked at or not, and
throws or does not, as the lists happen to be written; but where its resources, actions and
conditions have an answer, it is the same in every order (`isRestMatching_perm`).
-/
import CortxS3.Auth.BucketPolicyAuthorizer
import CortxS3.Lib.ShortCircuit

namespace CortxS3

open List

/-! ### The same policy in another order -/

/-- A comma separated text with its items in another order. -/
def ItemsPerm (r r' : JavaString) : Prop :=
  (PolicyUtil.convertCommaSeparatedStringToList r).Perm
    (PolicyUtil.convertCommaSeparatedStringToList r')

structure StatementPerm (s s' : Statement) : Prop where
  principals : s.principals.Perm s'.principals
  resources : List.Forall₂ ItemsPerm s.resources s'.resources
  actions : s.actions.Perm s'.actions
  conditions : s.conditions.Perm s'.conditions
  effect : s.effect = s'.effect

/-- The lists inside the statements in another order, and then the statements. -/
def PolicyPerm (p p' : List Statement) : Prop := ∃ q, List.Forall₂ StatementPerm p q ∧ q.Perm p'

theorem itemsPerm_refl (l : List JavaString) : List.Forall₂ ItemsPerm l l :=
  List.forall₂_same.mpr fun _ _ => List.Perm.refl _

theorem StatementPerm.refl (s : Statement) : StatementPerm s s :=
  ⟨.refl _, itemsPerm_refl _, .refl _, .refl _, rfl⟩

variable {s s' : Statement}

theorem itemsPerm_symm {l l' : List JavaString} (h : List.Forall₂ ItemsPerm l l') :
    List.Forall₂ ItemsPerm l' l :=
  (h.imp fun _ _ h => h.symm).flip

theorem itemsPerm_trans {l l' l'' : List JavaString} (h : List.Forall₂ ItemsPerm l l') :
    List.Forall₂ ItemsPerm l' l'' → List.Forall₂ ItemsPerm l l'' := by
  induction h generalizing l'' with
  | nil => exact id
  | cons hitems _ ih =>
    intro h'
    obtain ⟨_, _, hitems', hrest, rfl⟩ := List.forall₂_cons_left_iff.mp h'
    exact .cons (hitems.trans hitems') (ih hrest)

theorem StatementPerm.symm (h : StatementPerm s s') : StatementPerm s' s :=
  ⟨h.principals.symm, itemsPerm_symm h.resources, h.actions.symm, h.conditions.symm, h.effect.symm⟩

theorem StatementPerm.trans {s'' : Statement} (h : StatementPerm s s')
    (h' : StatementPerm s' s'') : StatementPerm s s'' :=
  ⟨h.principals.trans h'.principals, itemsPerm_trans h.resources h'.resources,
    h.actions.trans h'.actions, h.conditions.trans h'.conditions, h.effect.trans h'.effect⟩

theorem StatementPerm.ofPrincipals {principals : List Principal} (h : s.principals.Perm principals) :
    StatementPerm s { s with principals := principals } :=
  ⟨h, itemsPerm_refl _, .refl _, .refl _, rfl⟩

variable {p : List Statement}

theorem PolicyPerm.ofMap {f : Statement → Statement} (h : ∀ s ∈ p, StatementPerm s (f s)) :
    PolicyPerm p (p.map f) :=
  ⟨p.map f, List.forall₂_map_right_iff.mpr (List.forall₂_same.mpr h), .refl _⟩

/-- One statement in an order of its own, before all others. -/
theorem PolicyPerm.toFront {f : Statement → Statement} (hs : s ∈ p) (h : StatementPerm s s')
    (hf : ∀ t ∈ p, StatementPerm t (f t)) :
    ∃ rest : List Statement, (∀ t ∈ rest, t ∈ p) ∧ PolicyPerm p (s' :: rest.map f) := by
  obtain ⟨front, back, rfl⟩ := append_of_mem hs
  have hsub : ∀ t ∈ front ++ back, t ∈ front ++ s :: back := by
    intro t ht
    rcases mem_append.mp ht with ht | ht
    · exact mem_append_left _ ht
    · exact mem_append_right _ (mem_cons_of_mem _ ht)
  refine ⟨front ++ back, hsub, front.map f ++ s' :: back.map f, ?_, ?_⟩
  · refine rel_append ?_ (.cons h ?_)
    · exact List.forall₂_map_right_iff.mpr (List.forall₂_same.mpr fun t ht =>
        hf t (mem_append_left _ ht))
    · exact List.forall₂_map_right_iff.mpr (List.forall₂_same.mpr fun t ht =>
        hf t (hsub t (mem_append_right _ ht)))
  · rw [map_append]
    exact perm_middle

variable {p' : List Statement}

theorem PolicyPerm.exists_right (h : PolicyPerm p p') : ∀ s ∈ p, ∃ s' ∈ p', StatementPerm s s' := by
  obtain ⟨q, hq, hperm⟩ := h
  intro s hs
  obtain ⟨i, hi, rfl⟩ := getElem_of_mem hs
  have hlength := hq.length_eq
  exact ⟨q[i], hperm.mem_iff.mp (getElem_mem _), hq.get hi (by omega)⟩

theorem PolicyPerm.exists_left (h : PolicyPerm p p') : ∀ s' ∈ p', ∃ s ∈ p, StatementPerm s s' := by
  obtain ⟨q, hq, hperm⟩ := h
  intro s' hs'
  obtain ⟨i, hi, rfl⟩ := getElem_of_mem (hperm.mem_iff.mpr hs')
  have hlength := hq.length_eq
  exact ⟨p[i], getElem_mem _, hq.get (by omega) hi⟩

/-- Two orders of a policy have the same statements, each in an order of its own. -/
theorem PolicyPerm.exists_other {p₁ p₂ : List Statement} (h₁ : PolicyPerm p p₁)
    (h₂ : PolicyPerm p p₂) : ∀ s₁ ∈ p₁, ∃ s₂ ∈ p₂, StatementPerm s₁ s₂ := by
  intro s₁ hs₁
  obtain ⟨s, hs, hperm₁⟩ := h₁.exists_left s₁ hs₁
  obtain ⟨s₂, hs₂, hperm₂⟩ := h₂.exists_right s hs
  exact ⟨s₂, hs₂, hperm₁.symm.trans hperm₂⟩

namespace BucketPolicyAuthorizer

open ShortCircuit

variable {X : PolicyContext} {asked : Asked} {requestor : Option PolicyRequestor}

/-! ### The parts of a statement -/

/-- A requestor that is not anonymous is looked for among the principals. -/
theorem isPrincipalMatching_some (who : PolicyRequestor) (principals : List Principal) :
    isPrincipalMatching X (some who) principals =
      principals.anyM fun principal =>
        if principal.id = java "*" then .ok true else isRequestor X principal who := by
  induction principals with
  | nil => rfl
  | cons principal rest ih =>
    rw [anyM_cons, isPrincipalMatching, ih]
    by_cases hstar : principal.id = java "*"
    · rw [if_pos hstar, if_pos hstar]
      rfl
    · rw [if_neg hstar, if_neg hstar]

/-- The first principal is `*`. -/
def StarFirst (principals : List Principal) : Prop :=
  principals.head?.map (·.id) = some (java "*")
deriving Decidable

theorem isPrincipalMatching_none (principals : List Principal) :
    isPrincipalMatching X none principals = .ok (decide (StarFirst principals)) := by
  cases principals with
  | nil => simp [isPrincipalMatching, StarFirst]
  | cons principal rest =>
    rw [isPrincipalMatching]
    by_cases hstar : principal.id = java "*"
    · simp [StarFirst, hstar]
    · simp [StarFirst, hstar]

theorem isActionMatching_perm {actions actions' : List JavaString} (h : actions.Perm actions')
    (operation : JavaString) :
    isActionMatching X actions operation = isActionMatching X actions' operation := by
  unfold isActionMatching
  rw [Bool.eq_iff_iff, any_eq_true, any_eq_true]
  simp only [h.mem_iff]

variable {b : Bool} {s s' : Statement}

variable {b' : Bool}

theorem isRestMatching_perm (h : StatementPerm s s') (hb : isRestMatching X asked s = .ok b)
    (hb' : isRestMatching X asked s' = .ok b') : b = b' := by
  unfold isRestMatching at hb hb'
  have hresources := h.resources
  cases hs : s.resources with
  | nil =>
    rw [hs] at hb
    exact absurd hb (by simp)
  | cons resource others =>
    rw [hs] at hresources hb
    obtain ⟨resource', others', hitems, -, hs'⟩ := List.forall₂_cons_left_iff.mp hresources
    rw [hs'] at hb'
    dsimp only at hb hb'
    cases hmatch : isResourceMatching (PolicyUtil.convertCommaSeparatedStringToList resource)
        asked.requestedResource with
    | error e =>
      rw [hmatch] at hb
      exact absurd hb (by simp [bind, Except.bind])
    | ok c =>
      cases hmatch' : isResourceMatching
          (PolicyUtil.convertCommaSeparatedStringToList resource')
          asked.requestedResource with
      | error e =>
        rw [hmatch'] at hb'
        exact absurd hb' (by simp [bind, Except.bind])
      | ok c' =>
        have hc : c = c' := anyM_perm hitems hmatch hmatch'
        subst hc
        rw [hmatch] at hb
        rw [hmatch', ← isActionMatching_perm h.actions] at hb'
        cases c with
        | false =>
          exact Except.ok.inj (hb.symm.trans hb')
        | true =>
          by_cases haction :
              isActionMatching X s.actions asked.requestedOperation = true
          · simp only [bind, Except.bind, if_true, haction] at hb hb'
            exact allM_perm h.conditions hb hb'
          · simp only [bind, Except.bind, if_true, haction] at hb hb'
            exact Except.ok.inj (hb.symm.trans hb')

theorem isStatementMatching_ok (h : isStatementMatching X requestor asked s = .ok b) :
    ∃ c, isPrincipalMatching X requestor s.principals = .ok c ∧
      (if c then isRestMatching X asked s = .ok b else b = false) := by
  unfold isStatementMatching at h
  cases hprincipal : isPrincipalMatching X requestor s.principals with
  | error e =>
    rw [hprincipal] at h
    exact absurd h (by simp [bind, Except.bind])
  | ok c =>
    rw [hprincipal] at h
    cases c with
    | true => exact ⟨true, rfl, h⟩
    | false => exact ⟨false, rfl, (Except.ok.inj h).symm⟩

theorem isStatementMatching_perm (who : PolicyRequestor) (h : StatementPerm s s')
    (hb : isStatementMatching X (some who) asked s = .ok b)
    (hb' : isStatementMatching X (some who) asked s' = .ok b') : b = b' := by
  obtain ⟨c, hc, hrest⟩ := isStatementMatching_ok hb
  obtain ⟨c', hc', hrest'⟩ := isStatementMatching_ok hb'
  rw [isPrincipalMatching_some] at hc hc'
  have hcc : c = c' := anyM_perm h.principals hc hc'
  subst hcc
  cases c with
  | true => exact isRestMatching_perm h hrest hrest'
  | false => exact hrest.trans hrest'.symm

/-! ### The loop over the statements -/

/-- How the loop ends: at a statement that denies, or with all statements looked at. -/
inductive Ends (X : PolicyContext) (requestor : Option PolicyRequestor) (asked : Asked)
    (l : List Statement) (response : Option PolicyResponse) : Option PolicyResponse → Prop
  | denied (s : Statement) (hs : s ∈ l) (heffect : s.effect = .deny)
      (hmatch : isStatementMatching X requestor asked s = .ok true) :
      Ends X requestor asked l response (some .accessDenied)
  | allowed (s : Statement) (hs : s ∈ l)
      (hmatch : isStatementMatching X requestor asked s = .ok true)
      (hall : ∀ t ∈ l, ∃ b, isStatementMatching X requestor asked t = .ok b ∧
        (b = true → t.effect = .allow)) :
      Ends X requestor asked l response (some .ok)
  | nothing (hall : ∀ t ∈ l, isStatementMatching X requestor asked t = .ok false) :
      Ends X requestor asked l response response

theorem statementLoop_ends :
    ∀ (l : List Statement) (response : Option PolicyResponse) {r : Option PolicyResponse},
      statementLoop X requestor asked l response = .ok r →
        Ends X requestor asked l response r := by
  intro l
  induction l with
  | nil =>
    intro response r h
    obtain rfl := Except.ok.inj h
    exact .nothing (by simp)
  | cons s rest ih =>
    intro response r h
    rw [statementLoop] at h
    cases hs : isStatementMatching X requestor asked s with
    | error e =>
      rw [hs] at h
      exact absurd h (by simp [bind, Except.bind])
    | ok b =>
      rw [hs] at h
      cases b with
      | false =>
        cases ih response h with
        | denied t ht heffect hmatch =>
          exact .denied t (mem_cons_of_mem _ ht) heffect hmatch
        | allowed t ht hmatch hall =>
          refine .allowed t (mem_cons_of_mem _ ht) hmatch ?_
          intro u hu
          rcases mem_cons.mp hu with rfl | hu
          · exact ⟨false, hs, by simp⟩
          · exact hall u hu
        | nothing hall =>
          refine .nothing ?_
          intro u hu
          rcases mem_cons.mp hu with rfl | hu
          · exact hs
          · exact hall u hu
      | true =>
        cases heffect : s.effect with
        | deny =>
          simp only [bind, Except.bind, if_true, heffect, Except.ok.injEq] at h
          rw [← h]
          exact .denied s mem_cons_self heffect hs
        | allow =>
          simp only [bind, Except.bind, if_true, heffect] at h
          have hall : (∀ t ∈ rest, ∃ b, isStatementMatching X requestor asked t = .ok b ∧
              (b = true → t.effect = .allow)) →
              ∀ t ∈ s :: rest, ∃ b, isStatementMatching X requestor asked t = .ok b ∧
                (b = true → t.effect = .allow) := by
            intro hrest t ht
            rcases mem_cons.mp ht with rfl | ht
            · exact ⟨true, hs, fun _ => heffect⟩
            · exact hrest t ht
          cases ih (some .ok) h with
          | denied t ht hdeny hmatch =>
            exact .denied t (mem_cons_of_mem _ ht) hdeny hmatch
          | allowed t ht hmatch hrest =>
            exact .allowed t (mem_cons_of_mem _ ht) hmatch (hall hrest)
          | nothing hrest =>
            exact .allowed s mem_cons_self hs
              (hall fun t ht => ⟨false, hrest t ht, by simp⟩)

variable {l : List Statement} {r : Option PolicyResponse}

theorem Ends.eq_or (h : Ends X requestor asked l none r) :
    r = some .accessDenied ∨ r = some .ok ∨ r = none := by
  cases h with
  | denied => exact .inl rfl
  | allowed => exact .inr (.inl rfl)
  | nothing => exact .inr (.inr rfl)

/-- A loop that does not deny has found no statement that does. -/
theorem Ends.not_deny (h : Ends X requestor asked l none r) (hr : r ≠ some .accessDenied) :
    ∀ s ∈ l, ∃ b, isStatementMatching X requestor asked s = .ok b ∧
      (b = true → s.effect = .allow) := by
  cases h with
  | denied => exact absurd rfl hr
  | allowed _ _ _ hall => exact hall
  | nothing hall => exact fun s hs => ⟨false, hall s hs, by simp⟩

/-- A loop that ends with nothing has found no statement. -/
theorem Ends.not_match (h : Ends X requestor asked l none none) :
    ∀ s ∈ l, isStatementMatching X requestor asked s = .ok false := by
  cases h with
  | nothing hall => exact hall

theorem Ends.deny (h : Ends X requestor asked l none (some .accessDenied)) :
    ∃ s ∈ l, s.effect = .deny ∧ isStatementMatching X requestor asked s = .ok true := by
  cases h with
  | denied s hs heffect hmatch => exact ⟨s, hs, heffect, hmatch⟩

theorem Ends.allow (h : Ends X requestor asked l none (some .ok)) :
    ∃ s ∈ l, s.effect = .allow ∧ isStatementMatching X requestor asked s = .ok true := by
  cases h with
  | allowed s hs hmatch hall =>
    obtain ⟨b, hb, heffect⟩ := hall s hs
    rw [hmatch] at hb
    exact ⟨s, hs, heffect (Except.ok.inj hb).symm, hmatch⟩

variable {p p' p₁ p₂ : List Statement}

/-- **Loops over the same statements end alike**, if matching is free of the order. -/
theorem Ends.unique {r' : Option PolicyResponse}
    (hright : ∀ s ∈ p, ∃ s' ∈ p', StatementPerm s s')
    (hleft : ∀ s' ∈ p', ∃ s ∈ p, StatementPerm s' s)
    (hmatch : ∀ s s', StatementPerm s s' → ∀ b b',
      isStatementMatching X requestor asked s = .ok b →
        isStatementMatching X requestor asked s' = .ok b' → b = b')
    (h : Ends X requestor asked p none r) (h' : Ends X requestor asked p' none r') : r = r' := by
  cases h with
  | denied s hs heffect htrue =>
    by_contra hr
    obtain ⟨s', hs', hss⟩ := hright s hs
    obtain ⟨b, hb, hallow⟩ := h'.not_deny (Ne.symm hr) s' hs'
    have := hallow (hmatch s s' hss _ _ htrue hb).symm
    rw [← hss.effect, heffect] at this
    exact absurd this (by simp)
  | allowed s hs htrue hall =>
    obtain ⟨s', hs', hss⟩ := hright s hs
    cases h' with
    | denied t' ht' heffect htrue' =>
      obtain ⟨t, ht, htt⟩ := hleft t' ht'
      obtain ⟨b, hb, hallow⟩ := hall t ht
      have := hallow (hmatch t' t htt _ _ htrue' hb |>.symm)
      rw [← htt.effect, heffect] at this
      exact absurd this (by simp)
    | allowed => rfl
    | nothing hall' =>
      have := hmatch s s' hss _ _ htrue (hall' s' hs')
      exact absurd this (by simp)
  | nothing hall =>
    have hno : ∀ s' ∈ p', isStatementMatching X requestor asked s' ≠ .ok true := by
      intro s' hs' htrue
      obtain ⟨s, hs, hss⟩ := hleft s' hs'
      have := hmatch s' s hss _ _ htrue (hall s hs)
      exact absurd this (by simp)
    cases h' with
    | denied s' hs' _ htrue | allowed s' hs' htrue _ => exact absurd htrue (hno s' hs')
    | nothing => rfl

/-! ### Anonymous requests -/

/-- The rest of the statement has this answer, in an order in which it has one. -/
def RestIs (X : PolicyContext) (asked : Asked) (s : Statement) (b : Bool) : Prop :=
  ∃ s', StatementPerm s s' ∧ isRestMatching X asked s' = .ok b

/-- Every principal is `*`. -/
def ForEverybody (s : Statement) : Prop :=
  s.principals ≠ [] ∧ ∀ principal ∈ s.principals, principal.id = java "*"

/-- A statement for everybody that applies to the request, and says so in any order. -/
def Definite (X : PolicyContext) (asked : Asked) (p : List Statement) (effect : Effect) : Prop :=
  ∃ s ∈ p, s.effect = effect ∧ RestIs X asked s true ∧ ForEverybody s

/-- One that applies to an anonymous request in one order only. -/
def Ambiguous (X : PolicyContext) (asked : Asked) (p : List Statement) (effect : Effect) : Prop :=
  ∃ s ∈ p, s.effect = effect ∧ RestIs X asked s true ∧
    (∃ principal ∈ s.principals, principal.id = java "*") ∧
      ∃ principal ∈ s.principals, principal.id ≠ java "*"

/-- One for everybody that throws an exception in every order. -/
def Throwing (X : PolicyContext) (asked : Asked) (p : List Statement) : Prop :=
  ∃ s ∈ p, ForEverybody s ∧ ∀ b, ¬RestIs X asked s b

/-- What is definite outweighs what is not. -/
def AnonymousFree (X : PolicyContext) (asked : Asked) (p : List Statement) : Prop :=
  Definite X asked p .deny ∨ Throwing X asked p ∨
    (¬Ambiguous X asked p .deny ∧ (Definite X asked p .allow ∨ ¬Ambiguous X asked p .allow))

theorem RestIs.eq (h : RestIs X asked s b) (hperm : StatementPerm s s')
    (hb' : isRestMatching X asked s' = .ok b') : b = b' := by
  obtain ⟨t, ht, hb⟩ := h
  exact isRestMatching_perm (ht.symm.trans hperm) hb hb'

theorem match_of_starFirst (h : StarFirst s.principals) :
    isStatementMatching X none asked s = isRestMatching X asked s := by
  unfold isStatementMatching
  rw [isPrincipalMatching_none, decide_eq_true h]
  rfl

theorem of_match_none (h : isStatementMatching X none asked s = .ok true) :
    StarFirst s.principals ∧ isRestMatching X asked s = .ok true := by
  obtain ⟨c, hc, hrest⟩ := isStatementMatching_ok h
  rw [isPrincipalMatching_none] at hc
  cases c with
  | false => exact absurd hrest (by simp)
  | true => exact ⟨of_decide_eq_true (Except.ok.inj hc), hrest⟩

variable {principals : List Principal}

theorem StarFirst.exists (h : StarFirst principals) :
    ∃ principal ∈ principals, principal.id = java "*" := by
  cases principals with
  | nil => exact absurd h (by simp [StarFirst])
  | cons principal rest =>
    exact ⟨principal, mem_cons_self, by simpa [StarFirst] using h⟩

theorem starFirst_of_all (hne : principals ≠ [])
    (hall : ∀ principal ∈ principals, principal.id = java "*") : StarFirst principals := by
  cases principals with
  | nil => exact absurd rfl hne
  | cons principal rest => simp [StarFirst, hall principal mem_cons_self]

theorem origin (hp : PolicyPerm p p') (hs' : s' ∈ p')
    (hmatch : isStatementMatching X none asked s' = .ok true) :
    Definite X asked p s'.effect ∨ Ambiguous X asked p s'.effect := by
  obtain ⟨s, hs, hperm⟩ := hp.exists_left s' hs'
  obtain ⟨hstar, hrest⟩ := of_match_none hmatch
  obtain ⟨principal, hprincipal, hid⟩ := hstar.exists
  have hmem := hperm.principals.mem_iff.mpr hprincipal
  by_cases hall : ∀ principal ∈ s.principals, principal.id = java "*"
  · exact .inl ⟨s, hs, hperm.effect, ⟨s', hperm, hrest⟩, ne_nil_of_mem hmem, hall⟩
  · push Not at hall
    exact .inr ⟨s, hs, hperm.effect, ⟨s', hperm, hrest⟩, ⟨principal, hmem, hid⟩, hall⟩

theorem ForEverybody.starFirst (h : ForEverybody s) (hperm : StatementPerm s s') :
    StarFirst s'.principals := by
  refine starFirst_of_all ?_ fun principal hprincipal =>
    h.2 principal (hperm.principals.mem_iff.mpr hprincipal)
  intro hnil
  exact h.1 (perm_nil.mp (hnil ▸ hperm.principals))

variable {effect : Effect}

theorem Definite.exists_match (h : Definite X asked p effect) (hp : PolicyPerm p p') :
    ∃ s' ∈ p', s'.effect = effect ∧
      ∀ b, isStatementMatching X none asked s' = .ok b → b = true := by
  obtain ⟨s, hs, heffect, hrest, heverybody⟩ := h
  obtain ⟨s', hs', hperm⟩ := hp.exists_right s hs
  refine ⟨s', hs', hperm.effect.symm.trans heffect, ?_⟩
  intro b hb
  rw [match_of_starFirst (heverybody.starFirst hperm)] at hb
  exact (hrest.eq hperm hb).symm

/-- Where an order has an end, a statement that throws in every order was not looked at. -/
theorem Throwing.denied (h : Throwing X asked p) (hp : PolicyPerm p p')
    (hends : Ends X none asked p' none r) : r = some .accessDenied := by
  by_contra hr
  obtain ⟨s, hs, heverybody, hno⟩ := h
  obtain ⟨s', hs', hperm⟩ := hp.exists_right s hs
  obtain ⟨b, hb, -⟩ := hends.not_deny hr s' hs'
  rw [match_of_starFirst (heverybody.starFirst hperm)] at hb
  exact hno b ⟨s', hperm, hb⟩

theorem end_of_free (hfree : AnonymousFree X asked p) (hp : PolicyPerm p p')
    (hends : Ends X none asked p' none r) :
    ((Definite X asked p .deny ∨ Throwing X asked p) ∧ r = some .accessDenied) ∨
      (¬(Definite X asked p .deny ∨ Throwing X asked p) ∧ Definite X asked p .allow ∧
        r = some .ok) ∨
        (¬(Definite X asked p .deny ∨ Throwing X asked p) ∧ ¬Definite X asked p .allow ∧
          r = none) := by
  by_cases hdeny : Definite X asked p .deny ∨ Throwing X asked p
  · refine .inl ⟨hdeny, ?_⟩
    rcases hdeny with hdeny | hthrowing
    · by_contra hr
      obtain ⟨s', hs', heffect, htrue⟩ := hdeny.exists_match hp
      obtain ⟨b, hb, hallow⟩ := hends.not_deny hr s' hs'
      rw [heffect] at hallow
      exact absurd (hallow (htrue b hb)) (by simp)
    · exact hthrowing.denied hp hends
  · have hboth := not_or.mp hdeny
    obtain ⟨hnodeny, hallow⟩ := (hfree.resolve_left hboth.1).resolve_left hboth.2
    have hr : r ≠ some .accessDenied := by
      intro hr
      rw [hr] at hends
      obtain ⟨s', hs', heffect, hmatch⟩ := hends.deny
      have horigin := origin hp hs' hmatch
      rw [heffect] at horigin
      exact horigin.elim hboth.1 hnodeny
    by_cases hyes : Definite X asked p .allow
    · refine .inr (.inl ⟨hdeny, hyes, ?_⟩)
      obtain ⟨s', hs', -, htrue⟩ := hyes.exists_match hp
      rcases hends.eq_or with hr' | hr' | hr'
      · exact absurd hr' hr
      · exact hr'
      · rw [hr'] at hends
        exact absurd (htrue _ (hends.not_match s' hs')) (by simp)
    · refine .inr (.inr ⟨hdeny, hyes, ?_⟩)
      rcases hends.eq_or with hr' | hr' | hr'
      · exact absurd hr' hr
      · rw [hr'] at hends
        obtain ⟨s', hs', heffect, hmatch⟩ := hends.allow
        have horigin := origin hp hs' hmatch
        rw [heffect] at horigin
        exact (horigin.elim hyes (hallow.resolve_left hyes)).elim
      · exact hr'

/-! ### Two orders with different ends

In one of them every `*` comes last; in the other a statement that is ambiguous comes first, and
its `*` before the other principals. -/

def isStar (principal : Principal) : Bool := principal.id = java "*"

def starsFirst (s : Statement) : Statement :=
  { s with principals := s.principals.filter isStar ++ s.principals.filter (!isStar ·) }

def starsLast (s : Statement) : Statement :=
  { s with principals := s.principals.filter (!isStar ·) ++ s.principals.filter isStar }

theorem statementPerm_starsFirst (s : Statement) : StatementPerm s (starsFirst s) :=
  StatementPerm.ofPrincipals (filter_append_perm isStar s.principals).symm

theorem statementPerm_starsLast (s : Statement) : StatementPerm s (starsLast s) :=
  StatementPerm.ofPrincipals
    (perm_append_comm.trans (filter_append_perm isStar s.principals)).symm

theorem starFirst_starsFirst (h : ∃ principal ∈ s.principals, principal.id = java "*") :
    StarFirst (starsFirst s).principals := by
  obtain ⟨principal, hprincipal, hid⟩ := h
  have hmem : principal ∈ s.principals.filter isStar :=
    mem_filter.mpr ⟨hprincipal, decide_eq_true hid⟩
  unfold starsFirst StarFirst
  cases hstars : s.principals.filter isStar with
  | nil =>
    rw [hstars] at hmem
    exact absurd hmem (by simp)
  | cons first rest =>
    have hfirst : first ∈ s.principals.filter isStar := hstars ▸ mem_cons_self
    have hstar : isStar first = true := (mem_filter.mp hfirst).2
    simpa [isStar] using hstar

theorem of_starFirst_starsLast (h : StarFirst (starsLast s).principals) :
    s.principals ≠ [] ∧ ∀ principal ∈ s.principals, principal.id = java "*" := by
  have hothers : s.principals.filter (!isStar ·) = [] := by
    unfold starsLast StarFirst at h
    cases hothers : s.principals.filter (!isStar ·) with
    | nil => rfl
    | cons first rest =>
      have hfirst : first ∈ s.principals.filter (!isStar ·) := hothers ▸ mem_cons_self
      have hno := (mem_filter.mp hfirst).2
      rw [hothers] at h
      have hid : first.id = java "*" := by simpa using h
      exact absurd hno (by simp [isStar, hid])
  refine ⟨?_, ?_⟩
  · intro hnil
    rw [starsLast, hnil] at h
    exact absurd h (by simp [StarFirst])
  · intro principal hprincipal
    have hno := filter_eq_nil_iff.mp hothers principal hprincipal
    simpa [isStar] using hno

/-- The rest of every statement in an order in which it has its answer. -/
theorem exists_settled (X : PolicyContext) (asked : Asked) : ∃ f : Statement → Statement,
    (∀ s, StatementPerm s (f s)) ∧
      ∀ s b, RestIs X asked s b → isRestMatching X asked (f s) = .ok b := by
  have h : ∀ s, ∃ s', StatementPerm s s' ∧
      ∀ b, RestIs X asked s b → isRestMatching X asked s' = .ok b := by
    intro s
    by_cases h : ∃ b, RestIs X asked s b
    · obtain ⟨b, s', hperm, hb⟩ := h
      exact ⟨s', hperm, fun b' hb' => by rw [hb, hb'.eq hperm hb]⟩
    · exact ⟨s, .refl s, fun b hb => absurd ⟨b, hb⟩ h⟩
  choose f hperm hf using h
  exact ⟨f, hperm, hf⟩

variable {f : Statement → Statement}

/-- With every `*` last only what is definite matches, and nothing throws. -/
theorem match_starsLast (hperm : ∀ s, StatementPerm s (f s))
    (hf : ∀ s b, RestIs X asked s b → isRestMatching X asked (f s) = .ok b)
    (hthrowing : ¬Throwing X asked p) (hs : s ∈ p) :
    ∃ b, isStatementMatching X none asked (starsLast (f s)) = .ok b ∧
      (b = true → Definite X asked p s.effect) := by
  by_cases hstar : StarFirst (starsLast (f s)).principals
  · have heverybody : ForEverybody s := by
      obtain ⟨hne, hall⟩ := of_starFirst_starsLast hstar
      refine ⟨fun hnil => hne ?_, fun principal hprincipal =>
        hall principal ((hperm s).principals.mem_iff.mp hprincipal)⟩
      exact nil_perm.mp (hnil ▸ (hperm s).principals)
    obtain ⟨b, hb⟩ : ∃ b, RestIs X asked s b := by
      by_contra hno
      exact hthrowing ⟨s, hs, heverybody, not_exists.mp hno⟩
    refine ⟨b, (match_of_starFirst hstar).trans (hf s b hb), fun htrue => ?_⟩
    exact ⟨s, hs, rfl, htrue ▸ hb, heverybody⟩
  · refine ⟨false, ?_, nofun⟩
    unfold isStatementMatching
    rw [isPrincipalMatching_none, decide_eq_false hstar]
    rfl

theorem statementLoop_ok : ∀ (l : List Statement) (response : Option PolicyResponse),
    (∀ s ∈ l, ∃ b, isStatementMatching X requestor asked s = .ok b) →
      ∃ r, statementLoop X requestor asked l response = .ok r := by
  intro l
  induction l with
  | nil => exact fun response _ => ⟨response, rfl⟩
  | cons s rest ih =>
    intro response h
    obtain ⟨b, hb⟩ := h s mem_cons_self
    have hrest := fun response => ih response fun t ht => h t (mem_cons_of_mem _ ht)
    rw [statementLoop, hb]
    cases b with
    | false => exact hrest response
    | true =>
      cases heffect : s.effect with
      | allow => simpa [bind, Except.bind, heffect] using hrest (some .ok)
      | deny => exact ⟨some .accessDenied, by simp [bind, Except.bind]⟩

theorem exists_ends_differ (hfree : ¬AnonymousFree X asked p) : ∃ p₁ p₂ r₁ r₂,
    PolicyPerm p p₁ ∧ PolicyPerm p p₂ ∧ statementLoop X none asked p₁ none = .ok r₁ ∧
      statementLoop X none asked p₂ none = .ok r₂ ∧ r₁ ≠ r₂ := by
  unfold AnonymousFree at hfree
  push Not at hfree
  obtain ⟨hdeny, hthrowing, hrest⟩ := hfree
  obtain ⟨f, hperm, hf⟩ := exists_settled X asked
  have hlast := fun s hs => match_starsLast (s := s) hperm hf hthrowing hs
  have hlastPerm := fun s => (hperm s).trans (statementPerm_starsLast (f s))
  obtain ⟨effect, ⟨s, hs, heffect, ⟨s₁, hs₁, hrest₁⟩, ⟨star, hstar, hid⟩, -⟩, hcase⟩ :
      ∃ effect, Ambiguous X asked p effect ∧ (effect = .deny ∨ ¬Definite X asked p .allow) := by
    by_cases hambiguous : Ambiguous X asked p .deny
    · exact ⟨.deny, hambiguous, .inl rfl⟩
    · exact ⟨.allow, (hrest hambiguous).2, .inr (hrest hambiguous).1⟩
  have hmatch : isStatementMatching X none asked (starsFirst s₁) = .ok true := by
    have hfirst := starFirst_starsFirst ⟨star, hs₁.principals.mem_iff.mp hstar, hid⟩
    exact (match_of_starFirst hfirst).trans hrest₁
  obtain ⟨rest, hsub, hp₁⟩ := PolicyPerm.toFront hs (hs₁.trans (statementPerm_starsFirst s₁))
    fun t _ => hlastPerm t
  obtain ⟨r₁, hr₁⟩ : ∃ r, statementLoop X none asked
      (starsFirst s₁ :: rest.map fun t => starsLast (f t)) none = .ok r :=
    statementLoop_ok _ none (by
      intro t ht
      rcases mem_cons.mp ht with rfl | ht
      · exact ⟨true, hmatch⟩
      · obtain ⟨u, hu, rfl⟩ := mem_map.mp ht
        obtain ⟨b, hb, -⟩ := hlast u (hsub u hu)
        exact ⟨b, hb⟩)
  have hquiet : ∀ t ∈ p.map fun t => starsLast (f t),
      ∃ b, isStatementMatching X none asked t = .ok b ∧ (b = true → Definite X asked p t.effect) := by
    intro t ht
    obtain ⟨u, hu, rfl⟩ := mem_map.mp ht
    obtain ⟨b, hb, hdefinite⟩ := hlast u hu
    exact ⟨b, hb, fun htrue => (hlastPerm u).effect ▸ hdefinite htrue⟩
  obtain ⟨r₂, hr₂⟩ : ∃ r, statementLoop X none asked (p.map fun t => starsLast (f t)) none = .ok r :=
    statementLoop_ok _ none fun t ht => (hquiet t ht).imp fun _ h => h.1
  refine ⟨_, _, r₁, r₂, hp₁, PolicyPerm.ofMap fun t _ => hlastPerm t, hr₁, hr₂, fun heq => ?_⟩
  have hends₁ := statementLoop_ends _ none hr₁
  have hends₂ := statementLoop_ends _ none hr₂
  have hdefinite : ∀ t ∈ p.map fun t => starsLast (f t),
      isStatementMatching X none asked t = .ok true → Definite X asked p t.effect := by
    intro t ht htrue
    obtain ⟨b, hb, hb'⟩ := hquiet t ht
    rw [htrue] at hb
    exact hb' (Except.ok.inj hb).symm
  have hr₂deny : r₂ ≠ some .accessDenied := by
    rintro rfl
    obtain ⟨t, ht, hteffect, htrue⟩ := hends₂.deny
    exact hdeny (hteffect ▸ hdefinite t ht htrue)
  rcases hcase with rfl | hnoallow
  · obtain ⟨b, hb, hallow⟩ := hends₁.not_deny (heq ▸ hr₂deny) _ mem_cons_self
    rw [hmatch] at hb
    have hdenies : (starsFirst s₁).effect = .deny := hs₁.effect.symm.trans heffect
    rw [hallow (Except.ok.inj hb).symm] at hdenies
    cases hdenies
  · rcases hends₂.eq_or with rfl | rfl | rfl
    · exact hr₂deny rfl
    · obtain ⟨t, ht, hteffect, htrue⟩ := hends₂.allow
      exact hnoallow (hteffect ▸ hdefinite t ht htrue)
    · rw [heq] at hends₁
      have hno := hends₁.not_match _ mem_cons_self
      rw [hmatch] at hno
      cases hno

/-! ### The response -/

/-- What the statements are asked for a request. -/
def askedOf (X : PolicyContext) (requestBody : BodyMap) (requestedOperation : JavaString) :
    Asked where
  requestBody := requestBody
  requestedOperation := requestedOperation
  requestedResource := PolicyUtil.getResourceFromUri
    (requestBody.get X.characters (java "ClientAbsoluteUri"))

/-- When the order of the lists does not matter. -/
def OrderFree (X : PolicyContext) (requestor : Option PolicyRequestor) (requestBody : BodyMap)
    (p : List Statement) : Prop :=
  requestor.isSome = true ∨
    ∀ operation owner, identifyOperationToAuthorize X requestBody = some operation →
      X.getOwner requestBody = .ok owner →
        PolicyUtil.isPolicyOperation X.characters (X.characters.toLowerCase operation) = true ∨
          AnonymousFree X (askedOf X requestBody (X.characters.toLowerCase operation)) p

variable {requestBody : BodyMap}

variable {response : Option PolicyResponse}

variable {operation : JavaString}

theorem evaluate_ok (hoperation : identifyOperationToAuthorize X requestBody = some operation)
    (h : evaluate X requestor requestBody p = .ok response) :
    ∃ owner r, X.getOwner requestBody = .ok owner ∧
      statementLoop X requestor
        (askedOf X requestBody (X.characters.toLowerCase operation)) p none = .ok r ∧
      decideResponse X requestor (X.characters.toLowerCase operation) owner r = .ok response := by
  unfold evaluate at h
  rw [hoperation] at h
  dsimp only at h
  unfold authorizeOperation at h
  cases howner : X.getOwner requestBody with
  | error e =>
    rw [howner] at h
    exact absurd h (by simp [bind, Except.bind])
  | ok owner =>
    rw [howner] at h
    cases hloop : statementLoop X requestor
        (askedOf X requestBody (X.characters.toLowerCase operation)) p none with
    | error e =>
      rw [askedOf] at hloop
      simp [bind, Except.bind, hloop] at h
    | ok r =>
      refine ⟨owner, r, rfl, rfl, ?_⟩
      rw [askedOf] at hloop
      simpa [bind, Except.bind, hloop] using h

theorem authorizePolicy_of_ok (h : evaluate X requestor requestBody p = .ok response) :
    authorizePolicy X requestor requestBody p = response := by
  unfold authorizePolicy
  rw [h]

theorem response_inj (h₁ : r₁ = some .accessDenied ∨ r₁ = some .ok ∨ r₁ = none)
    (h₂ : r₂ = some .accessDenied ∨ r₂ = some .ok ∨ r₂ = none)
    (h : (if r₁ = some .ok then some PolicyResponse.allUserRequest else r₁) =
      if r₂ = some .ok then some .allUserRequest else r₂) : r₁ = r₂ := by
  rcases h₁ with rfl | rfl | rfl <;> rcases h₂ with rfl | rfl | rfl <;>
    first | rfl | exact absurd h (by simp)

theorem exists_operation (h : evaluate X requestor requestBody p = .ok response) :
    ∃ operation, identifyOperationToAuthorize X requestBody = some operation := by
  unfold evaluate at h
  cases hoperation : identifyOperationToAuthorize X requestBody with
  | none =>
    rw [hoperation] at h
    cases h
  | some operation => exact ⟨operation, rfl⟩

/-- Two orders whose loops end alike get the same response. -/
theorem response_eq {response' : Option PolicyResponse}
    (hoperation : identifyOperationToAuthorize X requestBody = some operation)
    (h : evaluate X requestor requestBody p = .ok response)
    (h' : evaluate X requestor requestBody p' = .ok response')
    (hends : ∀ r r', Ends X requestor
        (askedOf X requestBody (X.characters.toLowerCase operation)) p none r →
      Ends X requestor
        (askedOf X requestBody (X.characters.toLowerCase operation)) p' none r' → r = r') :
    response = response' := by
  obtain ⟨owner, r, howner, hloop, hresponse⟩ := evaluate_ok hoperation h
  obtain ⟨owner', r', howner', hloop', hresponse'⟩ := evaluate_ok hoperation h'
  have heq := hends r r' (statementLoop_ends p none hloop) (statementLoop_ends p' none hloop')
  rw [howner] at howner'
  obtain rfl := Except.ok.inj howner'
  rw [heq, hresponse'] at hresponse
  exact (Except.ok.inj hresponse).symm

/-- An anonymous request is answered when the loop comes to an end. -/
theorem evaluate_none {owner : Option JavaString}
    (hoperation : identifyOperationToAuthorize X requestBody = some operation)
    (howner : X.getOwner requestBody = .ok owner)
    (hpolicy : ¬PolicyUtil.isPolicyOperation X.characters (X.characters.toLowerCase operation) = true)
    (hloop : statementLoop X none
      (askedOf X requestBody (X.characters.toLowerCase operation)) p none = .ok r) :
    evaluate X none requestBody p = .ok (if r = some .ok then some .allUserRequest else r) := by
  unfold evaluate
  rw [hoperation]
  dsimp only
  unfold authorizeOperation
  rw [askedOf] at hloop
  simp only [howner, bind, Except.bind, hloop]
  rw [decideResponse, if_neg hpolicy]
  unfold decideOperation
  split
  · rfl
  · rfl

/-- **Any two orders of the lists that throw no exception get the same response exactly if the
requestor is not anonymous, the operation is one on the policy itself, or no statement with `*`
among other principals makes a difference.** -/
theorem orderFree_iff (X : PolicyContext) (requestor : Option PolicyRequestor)
    (requestBody : BodyMap) (p : List Statement) :
    (∀ p₁ p₂, PolicyPerm p p₁ → PolicyPerm p p₂ → ∀ response₁ response₂,
        evaluate X requestor requestBody p₁ = .ok response₁ →
        evaluate X requestor requestBody p₂ = .ok response₂ →
          authorizePolicy X requestor requestBody p₁ =
            authorizePolicy X requestor requestBody p₂) ↔
      OrderFree X requestor requestBody p := by
  constructor
  · intro hsame
    cases requestor with
    | some who => exact .inl rfl
    | none =>
      refine .inr fun operation owner hoperation howner => or_iff_not_imp_left.mpr fun hpolicy => ?_
      by_contra hfree
      obtain ⟨p₁, p₂, r₁, r₂, hp₁, hp₂, hloop₁, hloop₂, hne⟩ := exists_ends_differ hfree
      have h₁ := evaluate_none hoperation howner hpolicy hloop₁
      have h₂ := evaluate_none hoperation howner hpolicy hloop₂
      have heq := hsame p₁ p₂ hp₁ hp₂ _ _ h₁ h₂
      rw [authorizePolicy_of_ok h₁, authorizePolicy_of_ok h₂] at heq
      exact hne (response_inj (statementLoop_ends _ none hloop₁).eq_or
        (statementLoop_ends _ none hloop₂).eq_or heq)
  · intro hfree p₁ p₂ hp₁ hp₂ response₁ response₂ h₁ h₂
    rw [authorizePolicy_of_ok h₁, authorizePolicy_of_ok h₂]
    obtain ⟨operation, hoperation⟩ := exists_operation h₁
    obtain ⟨owner, _, howner, -, hresponse₁⟩ := evaluate_ok hoperation h₁
    obtain ⟨_, _, -, -, hresponse₂⟩ := evaluate_ok hoperation h₂
    cases requestor with
    | some who =>
      exact response_eq hoperation h₁ h₂ fun r r' hends hends' =>
        hends.unique (hp₁.exists_other hp₂) (hp₂.exists_other hp₁)
          (fun _ _ hperm _ _ => isStatementMatching_perm who hperm) hends'
    | none =>
      rcases hfree.resolve_left (by simp) operation owner hoperation howner with hpolicy | hfree
      · rw [decideResponse, if_pos hpolicy] at hresponse₁ hresponse₂
        exact Except.ok.inj (hresponse₁.symm.trans hresponse₂)
      · refine response_eq hoperation h₁ h₂ fun r r' hends hends' => ?_
        rcases end_of_free hfree hp₁ hends with
          ⟨hdeny, rfl⟩ | ⟨hdeny, hallow, rfl⟩ | ⟨hdeny, hallow, rfl⟩ <;>
        rcases end_of_free hfree hp₂ hends' with
          ⟨hdeny', rfl⟩ | ⟨hdeny', hallow', rfl⟩ | ⟨hdeny', hallow', rfl⟩ <;>
        first | rfl | contradiction

/-! A film that is read anonymously. -/

/-- An auth server that knows one action and one user, and reads no dates. -/
def filmContext : PolicyContext where
  characters := .ofAscii
  parsers := ⟨fun _ => none, fun _ => none, fun _ => none, fun _ => none⟩
  actions := .init .ofAscii [] [(java "s3:GetObject", [])]
  findByArn _ := .ok none
  findByUserId _ := .ok (some (java "root"))
  findByCanonicalID _ := .ok (some (java "ann"))
  getOwner _ := .ok (some (java "C1"))

def filmRequest : BodyMap :=
  [(java "ClientAbsoluteUri", java "/films/heat"), (java "S3Action", java "GetObject")]

def filmStatement (principals : List Principal) : Statement where
  principals := principals
  resources := [java "arn:aws:s3:::films/*"]
  actions := [java "s3:GetObject"]
  conditions := []
  effect := .allow

def everybody : Principal := ⟨java "AWS", java "*"⟩

def bob : Principal := ⟨java "AWS", java "B1"⟩

/-- Everybody may read, if everybody is named before somebody. -/
theorem not_orderFree_everybodyAndBob :
    PolicyPerm [filmStatement [everybody, bob]] [filmStatement [bob, everybody]] ∧
      authorizePolicy filmContext none filmRequest [filmStatement [everybody, bob]] =
        some .allUserRequest ∧
      authorizePolicy filmContext none filmRequest [filmStatement [bob, everybody]] = none := by
  refine ⟨⟨_, .cons ?_ .nil, .refl _⟩, by decide +kernel, by decide +kernel⟩
  exact StatementPerm.ofPrincipals (List.Perm.swap _ _ _)

/-- Bob may not read the film, everybody may read films, and Bob and everybody read it. -/
def filmPolicy : List Statement :=
  [{ filmStatement [bob, ⟨java "AWS", java "ann"⟩] with effect := .deny },
    filmStatement [bob, everybody],
    { filmStatement [everybody] with
      resources := [java "arn:aws:s3:::series/*,arn:aws:s3:::films/*"] }]

/-- The statement for everybody outweighs the one for Bob and everybody. -/
theorem orderFree_iff_filmPolicy :
    authorizePolicy filmContext none filmRequest filmPolicy.reverse = some .allUserRequest ∧
    ∀ p₁ p₂, PolicyPerm filmPolicy p₁ → PolicyPerm filmPolicy p₂ → ∀ response₁ response₂,
      evaluate filmContext none filmRequest p₁ = .ok response₁ →
      evaluate filmContext none filmRequest p₂ = .ok response₂ →
        authorizePolicy filmContext none filmRequest p₁ =
          authorizePolicy filmContext none filmRequest p₂ := by
  refine ⟨by decide +kernel, (orderFree_iff filmContext none filmRequest filmPolicy).mpr ?_⟩
  refine .inr fun operation owner hoperation _ => .inr (.inr (.inr ⟨?_, .inl ?_⟩))
  · rintro ⟨s, hs, heffect, -, ⟨principal, hprincipal, hid⟩, -⟩
    have hnone : ∀ s ∈ filmPolicy, s.effect = .deny →
        ∀ principal ∈ s.principals, principal.id ≠ java "*" := by decide
    exact hnone s hs heffect principal hprincipal hid
  · have hoperation' : identifyOperationToAuthorize filmContext filmRequest =
        some (java "s3:GetObject") := by decide
    obtain rfl := Option.some.inj (hoperation'.symm.trans hoperation)
    refine ⟨_, mem_of_getElem (i := 2) (h := by decide) rfl, rfl, ⟨_, .refl _, ?_⟩, ?_⟩
    · decide +kernel
    · exact ⟨by decide, by decide⟩

end BucketPolicyAuthorizer

end CortxS3

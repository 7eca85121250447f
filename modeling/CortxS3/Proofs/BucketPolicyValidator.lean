/-
Which policies the validator accepts, and which of these are sound.

The validator has answered nothing when every part it looked at was right.  Not every part is
looked at: an empty action name is reported only if it comes last, of the resources only the first
text is read, and of this only what stands in front of the first item that fits.  What is accepted
is sound exactly when the parts that were not looked at are right as well.
-/
import CortxS3.Auth.BucketPolicyValidator

namespace CortxS3

open List PolicyUtil

namespace BucketPolicyValidator

variable (V : ValidatorContext) (inputBucket : JavaString)

/-! ### Sound policies -/

/-- A well-formed ARN of a resource in the bucket. -/
def NamesBucket (item : JavaString) : Prop :=
  PolicyUtil.isS3ArnFormatValid item = true ∧
    ∃ name, PolicyUtil.getResourceFromResourceArn item = .ok name ∧ bucketOf name = inputBucket

/-- One of the actions the name stands for goes with the resource. -/
def Applies (action item : JavaString) : Prop :=
  ∃ name, PolicyUtil.getResourceFromResourceArn item = .ok name ∧
    PolicyUtil.isActionValidForResource V.actions
      (PolicyUtil.getAllMatchingActions V.characters V.actions action) (name.contains 47) = true

/-- An action name that stands for something. -/
def KnownAction (action : JavaString) : Prop :=
  action ≠ [] ∧ PolicyUtil.getAllMatchingActions V.characters V.actions action ≠ []

/-- A condition whose type and key are known and go with every action. -/
def SoundCondition (actions : List JavaString) (condition : Condition) : Prop :=
  ConditionUtil.isConditionTypeValid condition.type = true ∧
    ConditionUtil.isConditionKeyValid V.characters condition.conditionKey = true ∧
      ∀ action ∈ actions, ConditionUtil.isConditionCombinationValid V.characters V.actions
        condition.conditionKey action = true

/-- Somebody in the directory. -/
def InDirectory (principal : Principal) : Prop :=
  (principal.provider = java "AWS" ∧
    if PolicyUtil.isPrincipalArnFormatValid principal.id then V.userByArn principal.id = .ok true
    else V.accountById principal.id = .ok true ∨ V.userById principal.id = .ok true) ∨
  (principal.provider = java "Service" ∧ V.accountByCanonicalId principal.id = .ok true)

structure SoundStatement (s : Statement) : Prop where
  someAction : s.actions ≠ []
  known : ∀ action ∈ s.actions, KnownAction V action
  resources : ∀ text ∈ s.resources,
    ∀ item ∈ PolicyUtil.convertCommaSeparatedStringToList text, NamesBucket inputBucket item
  applies : ∀ action ∈ s.actions, ∃ text ∈ s.resources,
    ∃ item ∈ PolicyUtil.convertCommaSeparatedStringToList text, Applies V action item
  conditions : ∀ condition ∈ s.conditions, SoundCondition V s.actions condition
  principals : ∀ principal ∈ s.principals,
    principal.id = java "*" ∨ InDirectory V principal

/-- Every statement in the document says `Allow` or `Deny`. -/
def SoundEffects (obj : JsonFields) : Prop :=
  ∀ arr, (java "Statement", .array arr) ∈ obj → ∀ value ∈ arr, ∃ fields,
    value = .object fields ∧ (∃ effect, (java "Effect", effect) ∈ fields) ∧
      ∀ effect, (java "Effect", effect) ∈ fields →
        toText V effect = java "Allow" ∨ toText V effect = java "Deny"

/-- **What the validator should have made sure of.** -/
def SoundPolicy (jsonPolicy : JavaString) : Prop :=
  ∀ obj statements, V.parseJson jsonPolicy = .ok obj → V.fromJson obj = .ok (some statements) →
    SoundEffects V obj ∧ ∀ s ∈ statements, SoundStatement V inputBucket s

/-! ### What is looked at -/

/-- The first text of the resources has an item that fits, and in front of it only resources of
the bucket. -/
def ResourceSeen (resources : List JavaString) (action : JavaString) : Prop :=
  ∃ text others front item back, resources = text :: others ∧
    PolicyUtil.convertCommaSeparatedStringToList text = front ++ item :: back ∧
      (∀ i ∈ front, NamesBucket inputBucket i) ∧ NamesBucket inputBucket item ∧
        Applies V action item

/-- The last action is named, and the named ones are known and go with a resource. -/
def ActionsSeen (resources actions : List JavaString) : Prop :=
  (∃ front action, actions = front ++ [action] ∧ action ≠ []) ∧
    ∀ action ∈ actions, action ≠ [] →
      PolicyUtil.getAllMatchingActions V.characters V.actions action ≠ [] ∧
        ResourceSeen V inputBucket resources action

structure StatementSeen (s : Statement) : Prop where
  actions : ActionsSeen V inputBucket s.resources s.actions
  conditions : ∀ condition ∈ s.conditions, SoundCondition V s.actions condition
  somePrincipal : s.principals ≠ []
  principals : ∀ principal ∈ s.principals, principal.provider ∈ providers ∧
    (principal.id = java "*" ∨ isPrincipalIdValid V principal = true)

/-- What the validator looks at is right. -/
def Seen (jsonPolicy : JavaString) (statements : List Statement) : Prop :=
  ∃ obj, V.parseJson jsonPolicy = .ok obj ∧ validatePolicyElements V obj none = .ok none ∧
    V.fromJson obj = .ok (some statements) ∧ ∀ s ∈ statements, StatementSeen V inputBucket s

/-- What it does not look at. -/
structure StatementUnseen (s : Statement) : Prop where
  /-- An empty name in front of another action. -/
  named : ∀ action ∈ s.actions, action ≠ []
  /-- Items behind the one that fits, and further texts. -/
  resources : ∀ text ∈ s.resources,
    ∀ item ∈ PolicyUtil.convertCommaSeparatedStringToList text, NamesBucket inputBucket item
  /-- The id under the provider `*`. -/
  everybody : ∀ principal ∈ s.principals, principal.provider = java "*" →
    principal.id = java "*"

variable {V inputBucket}

/-! ### Actions and resources -/

theorem resourceLoop_accepts {actionsList : List JavaString} :
    ∀ items, resourceLoop V inputBucket actionsList items = .ok (none, true) ↔
      ∃ front item back, items = front ++ item :: back ∧
        (∀ i ∈ front, NamesBucket inputBucket i) ∧ NamesBucket inputBucket item ∧
          ∃ name, getResourceFromResourceArn item = .ok name ∧
            isActionValidForResource V.actions actionsList (name.contains 47) =
              true := by
  intro items
  induction items with
  | nil => simp [resourceLoop]
  | cons arn rest ih =>
    rw [resourceLoop]
    -- an item that is refused is the first of the list, so nothing fits in front of it
    have hrefused : ¬NamesBucket inputBucket arn → ¬∃ front item back,
        arn :: rest = front ++ item :: back ∧ (∀ i ∈ front, NamesBucket inputBucket i) ∧
          NamesBucket inputBucket item ∧
            ∃ name, getResourceFromResourceArn item = .ok name ∧
              isActionValidForResource V.actions actionsList (name.contains 47) =
                true := by
      intro hno ⟨front, item, back, hsplit, hfront, hitem, _⟩
      cases front with
      | nil =>
        rw [nil_append, List.cons.injEq] at hsplit
        exact hno (hsplit.1 ▸ hitem)
      | cons i front =>
        rw [cons_append, List.cons.injEq] at hsplit
        exact hno (hsplit.1 ▸ hfront i mem_cons_self)
    by_cases hvalid : isS3ArnFormatValid arn = true
    · rw [if_pos hvalid]
      cases hname : getResourceFromResourceArn arn with
      | error e =>
        refine iff_of_false (by simp) (hrefused fun h => ?_)
        obtain ⟨-, name, hok, -⟩ := h
        rw [hname] at hok
        exact absurd hok (by simp)
      | ok name =>
        dsimp only
        by_cases hbucket : bucketOf name = inputBucket
        · have hnames : NamesBucket inputBucket arn := ⟨hvalid, name, hname, hbucket⟩
          rw [if_neg (not_not.mpr hbucket)]
          by_cases hfits : isActionValidForResource V.actions actionsList
              (name.contains 47) = true
          · rw [if_pos hfits]
            exact iff_of_true rfl
              ⟨[], arn, rest, rfl, by simp, hnames, name, hname, hfits⟩
          · rw [if_neg hfits, ih]
            constructor
            · intro ⟨front, item, back, hsplit, hfront, hrest⟩
              refine ⟨arn :: front, item, back, by rw [hsplit]; rfl, ?_, hrest⟩
              intro i hi
              rcases mem_cons.mp hi with rfl | hi
              · exact hnames
              · exact hfront i hi
            · intro ⟨front, item, back, hsplit, hfront, hitem, name', hname', hfits'⟩
              cases front with
              | nil =>
                rw [nil_append, List.cons.injEq] at hsplit
                rw [← hsplit.1, hname, Except.ok.injEq] at hname'
                exact absurd (hname' ▸ hfits') hfits
              | cons i front =>
                rw [cons_append, List.cons.injEq] at hsplit
                exact ⟨front, item, back, hsplit.2,
                  fun j hj => hfront j (mem_cons_of_mem _ hj), hitem, name', hname',
                  hfits'⟩
        · rw [if_pos hbucket]
          refine iff_of_false (by simp) (hrefused fun h => ?_)
          obtain ⟨-, name', hok, hbucket'⟩ := h
          rw [hname, Except.ok.injEq] at hok
          exact hbucket (hok ▸ hbucket')
    · rw [if_neg hvalid]
      exact iff_of_false (by simp) (hrefused fun h => hvalid h.1)

variable {resources : List JavaString}

theorem validateResource_accepts {action : JavaString} {resources : List JavaString} :
    validateResource V resources inputBucket
        (getAllMatchingActions V.characters V.actions action) = .ok none ↔
      ResourceSeen V inputBucket resources action := by
  unfold validateResource ResourceSeen
  cases resources with
  | nil => simp
  | cons text others =>
    have hloop := @resourceLoop_accepts V inputBucket
      (getAllMatchingActions V.characters V.actions action)
      (convertCommaSeparatedStringToList text)
    refine Iff.trans ?_ (hloop.trans ?_)
    · dsimp only
      cases resourceLoop V inputBucket
          (getAllMatchingActions V.characters V.actions action)
          (convertCommaSeparatedStringToList text) with
      | error e => simp
      | ok result =>
        obtain ⟨message, b⟩ := result
        cases message <;> cases b <;> simp
    · constructor
      · intro h
        obtain ⟨front, item, back, hsplit, hfront, hitem, happlies⟩ := h
        exact ⟨text, others, front, item, back, rfl, hsplit, hfront, hitem, happlies⟩
      · intro h
        obtain ⟨text', others', front, item, back, heq, hsplit, hfront, hitem, happlies⟩ := h
        obtain ⟨rfl, rfl⟩ := List.cons.inj heq
        exact ⟨front, item, back, hsplit, hfront, hitem, happlies⟩

theorem actionLoop_accepts :
    ∀ (actions : List JavaString) (response : Option JavaString),
      actionLoop V resources inputBucket actions response = .ok none ↔
        (∀ action ∈ actions, action ≠ [] →
          getAllMatchingActions V.characters V.actions action ≠ [] ∧
            ResourceSeen V inputBucket resources action) ∧
          (actions = [] → response = none) ∧ actions.getLast? ≠ some [] := by
  intro actions
  induction actions with
  | nil => simp [actionLoop]
  | cons action rest ih =>
    intro response
    rw [actionLoop, forall_mem_cons]
    by_cases hempty : action = []
    · rw [if_pos hempty, ih]
      have hlast : (rest = [] → False) ∧ rest.getLast? ≠ some [] ↔
          (action :: rest).getLast? ≠ some [] := by
        cases rest with
        | nil => simp [hempty]
        | cons next rest => simp
      simp only [hempty, ne_eq, not_true_eq_false, false_implies, true_and, reduceCtorEq] at hlast ⊢
      rw [hlast]
    · rw [if_neg hempty]
      have hlast : (rest = [] → True) ∧ rest.getLast? ≠ some [] ↔
          (action :: rest).getLast? ≠ some [] := by
        cases rest with
        | nil => simp [hempty]
        | cons next rest => simp
      cases hmatching : getAllMatchingActions V.characters V.actions action with
      | nil =>
        refine iff_of_false (by simp) ?_
        intro h
        exact (h.1.1 hempty).1 rfl
      | cons first others =>
        have haccepts := @validateResource_accepts V inputBucket action resources
        rw [hmatching] at haccepts
        dsimp only
        cases hresource : validateResource V resources inputBucket (first :: others) with
        | error e =>
          rw [hresource] at haccepts
          refine iff_of_false (by simp) ?_
          intro h
          exact absurd (haccepts.mpr (h.1.1 hempty).2) (by simp)
        | ok message =>
          rw [hresource] at haccepts
          cases message with
          | some message =>
            refine iff_of_false (by simp) ?_
            intro h
            exact absurd (haccepts.mpr (h.1.1 hempty).2) (by simp)
          | none =>
            have hseen := haccepts.mp rfl
            dsimp only
            rw [ih]
            simp only [hempty, ne_eq, not_false_eq_true, reduceCtorEq, hseen,
              and_self, true_and, false_implies, implies_true] at hlast ⊢
            rw [hlast]

variable {actions : List JavaString}

theorem validateActionAndResource_accepts :
    validateActionAndResource V actions resources inputBucket = .ok none ↔
      ActionsSeen V inputBucket resources actions := by
  unfold validateActionAndResource ActionsSeen
  by_cases hnil : actions = []
  · rw [if_pos hnil, hnil]
    simp
  · rw [if_neg hnil, actionLoop_accepts]
    obtain ⟨front, last, rfl⟩ := eq_nil_or_concat actions |>.resolve_left hnil
    simp only [concat_eq_append, List.getLast?_append, List.getLast?_singleton,
      Option.some_or, ne_eq, Option.some.injEq]
    constructor
    · intro ⟨hall, _, hlast⟩
      exact ⟨⟨front, last, rfl, hlast⟩, hall⟩
    · intro ⟨⟨front', last', heq, hlast⟩, hall⟩
      have : last = last' := by simpa using append_inj_right' heq rfl
      exact ⟨hall, by simp, this ▸ hlast⟩

/-! ### Conditions and principals -/

theorem conditionLoop_accepts :
    ∀ (conditions : List Condition) (response : Option JavaString),
      conditionLoop V actions conditions response = none ↔
        response = none ∧ ∀ condition ∈ conditions, SoundCondition V actions condition := by
  intro conditions
  induction conditions with
  | nil => simp [conditionLoop]
  | cons condition rest ih =>
    intro response
    rw [conditionLoop, forall_mem_cons]
    unfold SoundCondition at ih ⊢
    by_cases htype : ConditionUtil.isConditionTypeValid condition.type = true
    · by_cases hkey :
          ConditionUtil.isConditionKeyValid V.characters condition.conditionKey = true
      · by_cases hall : ∀ action ∈ actions,
            ConditionUtil.isConditionCombinationValid V.characters V.actions
              condition.conditionKey action = true
        · have hany : (actions.any fun action =>
              !ConditionUtil.isConditionCombinationValid V.characters V.actions
                condition.conditionKey action) = false := by
            rw [any_eq_false]
            intro action haction
            simp [hall action haction]
          rw [hany]
          simp only [htype, hkey, Bool.not_true, Bool.false_eq_true, if_false, ih, true_and]
          exact and_congr_right' (iff_and_self.mpr fun _ => hall)
        · have hany : (actions.any fun action =>
              !ConditionUtil.isConditionCombinationValid V.characters V.actions
                condition.conditionKey action) = true := by
            push Not at hall
            obtain ⟨action, haction, hno⟩ := hall
            exact any_eq_true.mpr ⟨action, haction, by simpa using hno⟩
          rw [hany]
          simp only [htype, hkey, Bool.not_true, Bool.false_eq_true, if_false, if_true, ih]
          exact iff_of_false (fun h => absurd h.1 (by simp)) (fun h => hall h.2.1.2.2)
      · simp [htype, hkey]
    · simp [htype]

theorem principalLoop_accepts :
    ∀ principals, principalLoop V principals = none ↔
      ∀ principal ∈ principals, principal.provider ∈ providers ∧
        (principal.id = java "*" ∨ isPrincipalIdValid V principal = true) := by
  intro principals
  induction principals with
  | nil => simp [principalLoop]
  | cons principal rest ih =>
    rw [principalLoop, forall_mem_cons]
    by_cases hprovider : principal.provider ∈ providers
    · rw [if_neg (not_not.mpr hprovider)]
      by_cases hbad : principal.id ≠ java "*" ∧ isPrincipalIdValid V principal = false
      · rw [if_pos hbad]
        refine iff_of_false (by simp) ?_
        intro h
        rcases h.1.2 with hstar | hvalid
        · exact hbad.1 hstar
        · rw [hvalid] at hbad
          exact absurd hbad.2 (by simp)
      · rw [if_neg hbad, ih]
        refine (iff_and_self.mpr fun _ => ⟨hprovider, ?_⟩)
        by_cases hstar : principal.id = java "*"
        · exact .inl hstar
        · exact .inr (by simpa using fun h => hbad ⟨hstar, h⟩)
    · rw [if_pos hprovider]
      exact iff_of_false (by simp) (fun h => hprovider h.1.1)

/-! ### Statements -/

theorem validateStatement_accepts (s : Statement) :
    validateStatement V inputBucket s = .ok none ↔ StatementSeen V inputBucket s := by
  have hactions := @validateActionAndResource_accepts V inputBucket s.resources s.actions
  have hconditions := @conditionLoop_accepts V s.actions s.conditions none
  have hprincipals := principalLoop_accepts (V := V) s.principals
  unfold validateStatement
  cases hfirst : validateActionAndResource V s.actions s.resources inputBucket with
  | error e =>
    rw [hfirst] at hactions
    exact iff_of_false (by simp [bind, Except.bind])
      (fun h => absurd (hactions.mpr h.actions) (by simp))
  | ok message =>
    rw [hfirst] at hactions
    cases message with
    | some message =>
      exact iff_of_false (by simp [bind, Except.bind])
        (fun h => absurd (hactions.mpr h.actions) (by simp))
    | none =>
      have hseen := hactions.mp rfl
      simp only [bind, Except.bind, validateEffect, validateCondition]
      cases hsecond : conditionLoop V s.actions s.conditions none with
      | some message =>
        rw [hsecond] at hconditions
        exact iff_of_false (by simp)
          (fun h => absurd (hconditions.mpr ⟨rfl, h.conditions⟩) (by simp))
      | none =>
        rw [hsecond] at hconditions
        simp only [Except.ok.injEq]
        unfold validatePrincipal
        by_cases hnil : s.principals = []
        · rw [if_pos hnil]
          exact iff_of_false (by simp) (fun h => h.somePrincipal hnil)
        · rw [if_neg hnil, hprincipals]
          exact ⟨fun h => ⟨hseen, (hconditions.mp rfl).2, hnil, h⟩, fun h => h.principals⟩

theorem validateStatements_accepts :
    ∀ statements, validateStatements V inputBucket statements = .ok none ↔
      ∀ s ∈ statements, StatementSeen V inputBucket s := by
  intro statements
  induction statements with
  | nil => simp [validateStatements]
  | cons s rest ih =>
    have hs := @validateStatement_accepts V inputBucket s
    rw [validateStatements, forall_mem_cons]
    cases hfirst : validateStatement V inputBucket s with
    | error e =>
      rw [hfirst] at hs
      exact iff_of_false (by simp [bind, Except.bind])
        (fun h => absurd (hs.mpr h.1) (by simp))
    | ok message =>
      rw [hfirst] at hs
      cases message with
      | some message =>
        exact iff_of_false (by simp [bind, Except.bind])
          (fun h => absurd (hs.mpr h.1) (by simp))
      | none =>
        simp only [bind, Except.bind, ih]
        exact (iff_and_self.mpr fun _ => hs.mp rfl)

/-! ### The document -/

variable {response : Option JavaString}

theorem effectResponse_eq_none {effectValue : JavaString} :
    effectResponse effectValue response = none ↔
      (effectValue = java "Allow" ∨ effectValue = java "Deny") ∧ response = none := by
  unfold effectResponse
  by_cases hempty : effectValue = []
  · rw [if_pos hempty, hempty]
    exact iff_of_false (by simp) (fun h => absurd h.1 (by decide))
  · rw [if_neg hempty]
    by_cases hother : effectValue ≠ java "Allow" ∧ effectValue ≠ java "Deny"
    · rw [if_pos hother]
      exact iff_of_false (by simp) (fun h => h.1.elim hother.1 hother.2)
    · rw [if_neg hother]
      rw [not_and_or, not_not, not_not] at hother
      exact (and_iff_right hother).symm

theorem principalResponse_eq_none {principal : JsonValue}
    (h : principalResponse principal response = none) : response = none := by
  unfold principalResponse at h
  split at h
  · split at h
    · exact absurd h (by simp)
    · split at h
      · exact absurd h (by simp)
      · exact h
  · exact h

theorem statementFields_on :
    ∀ (fields : JsonFields) (response : Option JavaString) (present : Bool),
      statementFields V fields response present = .on none →
        response = none ∧ (present = true ∨ ∃ effect, (java "Effect", effect) ∈ fields) ∧
          ∀ effect, (java "Effect", effect) ∈ fields →
            toText V effect = java "Allow" ∨ toText V effect = java "Deny" := by
  intro fields
  induction fields with
  | nil =>
    intro response present h
    rw [statementFields] at h
    cases present with
    | false => exact absurd h (by simp)
    | true => exact ⟨by simpa using h, .inl rfl, by simp⟩
  | cons field rest ih =>
    intro response present h
    obtain ⟨objKey, value⟩ := field
    rw [statementFields] at h
    by_cases hknown : objKey ∉ policyElements
    · rw [if_pos hknown] at h
      exact absurd h (by simp)
    · rw [if_neg hknown] at h
      by_cases hnested : objKey ∉ nestedPolicyElements
      · rw [if_pos hnested] at h
        exact absurd h (by simp)
      · rw [if_neg hnested] at h
        by_cases heffect : objKey = java "Effect"
        · rw [if_pos heffect] at h
          obtain ⟨hresponse, -, hrest⟩ := ih _ _ h
          obtain ⟨hvalue, hnone⟩ := effectResponse_eq_none.mp hresponse
          refine ⟨hnone, .inr ⟨value, by simp [heffect]⟩, ?_⟩
          intro effect hmem
          rcases mem_cons.mp hmem with heq | hmem
          · rw [Prod.mk.injEq] at heq
            rw [heq.2]
            exact hvalue
          · exact hrest effect hmem
        · have hother : ∀ {response' : Option JavaString},
              (response' = none → response = none) →
              statementFields V rest response' present = .on none →
              response = none ∧
                (present = true ∨ ∃ effect, (java "Effect", effect) ∈ (objKey, value) :: rest) ∧
                  ∀ effect, (java "Effect", effect) ∈ (objKey, value) :: rest →
                    toText V effect = java "Allow" ∨ toText V effect = java "Deny" := by
            intro response' hresponse' hrest
            obtain ⟨hnone, hpresent, hall⟩ := ih _ _ hrest
            refine ⟨hresponse' hnone, ?_, ?_⟩
            · exact hpresent.imp_right fun ⟨effect, hmem⟩ =>
                ⟨effect, mem_cons_of_mem _ hmem⟩
            · intro effect hmem
              rcases mem_cons.mp hmem with heq | hmem
              · rw [Prod.mk.injEq] at heq
                exact absurd heq.1.symm heffect
              · exact hall effect hmem
          rw [if_neg heffect] at h
          by_cases hprincipal : objKey = java "Principal"
          · rw [if_pos hprincipal] at h
            exact hother principalResponse_eq_none h
          · rw [if_neg hprincipal] at h
            exact hother id h

theorem statementFields_back :
    ∀ (fields : JsonFields) (response : Option JavaString) (present : Bool),
      statementFields V fields response present ≠ .back none := by
  intro fields
  induction fields with
  | nil =>
    intro response present
    rw [statementFields]
    cases present <;> simp
  | cons field rest ih =>
    intro response present
    obtain ⟨objKey, value⟩ := field
    rw [statementFields]
    split
    · simp
    · split
      · simp
      · split
        · exact ih _ _
        · split
          · exact ih _ _
          · exact ih _ _

theorem statementsLoop_back :
    ∀ (arr : List JsonValue) (response : Option JavaString),
      statementsLoop V arr response ≠ .back none := by
  intro arr
  induction arr with
  | nil => simp [statementsLoop]
  | cons value rest ih =>
    intro response
    cases value with
    | object fields =>
      rw [statementsLoop]
      cases h : statementFields V fields response false with
      | on response' => exact ih response'
      | back response' =>
        dsimp only
        rw [← h]
        exact statementFields_back fields response false
      | thrown message => simp
    | string | array | other => simp [statementsLoop]

theorem statementsLoop_on :
    ∀ (arr : List JsonValue) (response : Option JavaString),
      statementsLoop V arr response = .on none →
        response = none ∧ ∀ value ∈ arr, ∃ fields,
          value = .object fields ∧ (∃ effect, (java "Effect", effect) ∈ fields) ∧
            ∀ effect, (java "Effect", effect) ∈ fields →
              toText V effect = java "Allow" ∨ toText V effect = java "Deny" := by
  intro arr
  induction arr with
  | nil =>
    intro response h
    exact ⟨by simpa [statementsLoop] using h, by simp⟩
  | cons value rest ih =>
    intro response h
    cases value with
    | object fields =>
      rw [statementsLoop] at h
      cases hfields : statementFields V fields response false with
      | on response' =>
        rw [hfields] at h
        obtain ⟨hnone, hrest⟩ := ih response' h
        rw [hnone] at hfields
        obtain ⟨hresponse, hpresent, hall⟩ := statementFields_on fields response false hfields
        refine ⟨hresponse, ?_⟩
        intro value hvalue
        rcases mem_cons.mp hvalue with rfl | hvalue
        · exact ⟨fields, rfl, hpresent.resolve_left (by simp), hall⟩
        · exact hrest value hvalue
      | back response' =>
        rw [hfields] at h
        exact absurd h (by simp)
      | thrown message =>
        rw [hfields] at h
        exact absurd h (by simp)
    | string | array | other => exact absurd h (by simp [statementsLoop])

theorem validatePolicyElements_sound :
    ∀ (obj : JsonFields) (response : Option JavaString),
      validatePolicyElements V obj response = .ok none →
        response = none ∧ SoundEffects V obj := by
  intro obj
  induction obj with
  | nil =>
    intro response h
    exact ⟨by simpa [validatePolicyElements] using h, by simp [SoundEffects]⟩
  | cons field rest ih =>
    intro response h
    obtain ⟨key, value⟩ := field
    unfold validatePolicyElements at h
    by_cases hknown : key ∉ policyElements
    · rw [if_pos hknown] at h
      exact absurd h (by simp)
    · rw [if_neg hknown] at h
      have hother : (∀ arr, value ≠ .array arr) →
          validatePolicyElements V rest response = .ok none →
          response = none ∧ SoundEffects V ((key, value) :: rest) := by
        intro hvalue hrest
        obtain ⟨hnone, hall⟩ := ih response hrest
        refine ⟨hnone, ?_⟩
        intro arr hmem
        rcases mem_cons.mp hmem with heq | hmem
        · rw [Prod.mk.injEq] at heq
          exact absurd heq.2.symm (hvalue arr)
        · exact hall arr hmem
      cases value with
      | array arr =>
        dsimp only at h
        by_cases hkey : key ≠ java "Statement"
        · rw [if_pos hkey] at h
          exact absurd h (by simp)
        · rw [if_neg hkey] at h
          cases hloop : statementsLoop V arr response with
          | on response' =>
            rw [hloop] at h
            obtain ⟨hnone, hall⟩ := ih response' h
            rw [hnone] at hloop
            obtain ⟨hresponse, harr⟩ := statementsLoop_on arr response hloop
            refine ⟨hresponse, ?_⟩
            intro arr' hmem
            rcases mem_cons.mp hmem with heq | hmem
            · rw [Prod.mk.injEq, JsonValue.array.injEq] at heq
              rw [heq.2]
              exact harr
            · exact hall arr' hmem
          | back response' =>
            rw [hloop] at h
            have hnone : response' = none := Except.ok.inj h
            rw [hnone] at hloop
            exact absurd hloop (statementsLoop_back arr response)
          | thrown message =>
            rw [hloop] at h
            exact absurd h (by simp)
      | string =>
        dsimp only at h
        split at h
        · exact absurd h (by simp)
        · exact hother (by simp) h
      | object =>
        dsimp only at h
        split at h
        · exact absurd h (by simp)
        · exact hother (by simp) h
      | other =>
        dsimp only at h
        split at h
        · exact absurd h (by simp)
        · exact hother (by simp) h

/-! ### The policy -/

theorem validatePolicy_accepts (jsonPolicy : JavaString) :
    validatePolicy V inputBucket jsonPolicy = .ok none ↔
      ∃ statements, Seen V inputBucket jsonPolicy statements := by
  unfold validatePolicy Seen
  cases hparse : V.parseJson jsonPolicy with
  | error message => simp
  | ok obj =>
    simp only [Except.ok.injEq, exists_eq_left']
    cases helements : validatePolicyElements V obj none with
    | error message => simp
    | ok response =>
      cases response with
      | some message => simp
      | none =>
        simp only [true_and]
        cases hjson : V.fromJson obj with
        | error message => simp
        | ok statements =>
          cases statements with
          | none => simp
          | some statements =>
            simp only [Except.ok.injEq, Option.some.injEq, exists_eq_left']
            exact validateStatements_accepts statements

theorem inDirectory_of_valid {principal : Principal} (hprovider : principal.provider ∈ providers)
    (hstar : principal.provider ≠ java "*") (h : isPrincipalIdValid V principal = true) :
    InDirectory V principal := by
  have hfound : ∀ {answer : Except JavaException Bool}, found answer = true → answer = .ok true := by
    intro answer hanswer
    cases answer with
    | error e => exact absurd hanswer (by simp [found])
    | ok b => rw [show b = true from hanswer]
  unfold isPrincipalIdValid at h
  unfold InDirectory
  by_cases haws : principal.provider = java "AWS"
  · refine .inl ⟨haws, ?_⟩
    rw [if_pos haws] at h
    by_cases harn : isPrincipalArnFormatValid principal.id = true
    · rw [if_pos harn] at h ⊢
      exact hfound h
    · rw [if_neg harn] at h ⊢
      cases haccount : V.accountById principal.id with
      | error e =>
        rw [haccount] at h
        exact absurd h (by simp)
      | ok b =>
        rw [haccount] at h
        cases b with
        | true => exact .inl rfl
        | false => exact .inr (hfound h)
  · rw [if_neg haws] at h
    by_cases hservice : principal.provider = java "Service"
    · rw [if_pos hservice] at h
      exact .inr ⟨hservice, hfound h⟩
    · rw [if_neg hservice] at h
      have hfederated : principal.provider = java "Federated" := by
        have hmem : principal.provider ∈
            [java "AWS", java "Service", java "Federated", java "*"] := hprovider
        simpa [haws, hservice, hstar] using hmem
      rw [if_pos hfederated] at h
      exact absurd h (by simp)

/-- **A statement that passes is sound exactly if what was not looked at is right.** -/
theorem StatementSeen.sound_iff {s : Statement} (h : StatementSeen V inputBucket s) :
    SoundStatement V inputBucket s ↔ StatementUnseen inputBucket s := by
  constructor
  · intro hsound
    refine ⟨fun action haction => (hsound.known action haction).1, hsound.resources, ?_⟩
    intro principal hprincipal hstar
    refine (hsound.principals principal hprincipal).resolve_right ?_
    intro hdirectory
    rcases hdirectory with ⟨hprovider, _⟩ | ⟨hprovider, _⟩
    · exact absurd (hprovider.symm.trans hstar) (by decide)
    · exact absurd (hprovider.symm.trans hstar) (by decide)
  · intro hunseen
    obtain ⟨⟨front, last, hsplit, _⟩, hall⟩ := h.actions
    refine ⟨?_, ?_, hunseen.resources, ?_, h.conditions, ?_⟩
    · rw [hsplit]
      simp
    · intro action haction
      have hne := hunseen.named action haction
      exact ⟨hne, (hall action haction hne).1⟩
    · intro action haction
      obtain ⟨text, others, front, item, back, hresources, hitems, -, -, happlies⟩ :=
        (hall action haction (hunseen.named action haction)).2
      refine ⟨text, by rw [hresources]; exact mem_cons_self, item, ?_, happlies⟩
      rw [hitems]
      simp
    · intro principal hprincipal
      obtain ⟨hprovider, hid⟩ := h.principals principal hprincipal
      by_cases hstar : principal.provider = java "*"
      · exact .inl (hunseen.everybody principal hprincipal hstar)
      · exact hid.imp_right fun hvalid => inDirectory_of_valid hprovider hstar hvalid

/-- **What the validator accepts is sound exactly if, where all it looks at is right, the rest is
right as well**: no action name is empty, the resources it does not reach are resources of the
bucket, and the provider `*` stands with the id `*`. -/
theorem accepted_sound_iff (V : ValidatorContext) (inputBucket jsonPolicy : JavaString) :
    (validatePolicy V inputBucket jsonPolicy = .ok none →
        SoundPolicy V inputBucket jsonPolicy) ↔
      ∀ statements, Seen V inputBucket jsonPolicy statements →
        ∀ s ∈ statements, StatementUnseen inputBucket s := by
  constructor
  · intro h statements hseen s hs
    have hsound := h ((validatePolicy_accepts jsonPolicy).mpr ⟨statements, hseen⟩)
    obtain ⟨obj, hparse, -, hjson, hall⟩ := hseen
    exact (hall s hs).sound_iff.mp ((hsound obj statements hparse hjson).2 s hs)
  · intro h haccepted obj statements hparse hjson
    obtain ⟨statements', hseen⟩ := (validatePolicy_accepts jsonPolicy).mp haccepted
    have hunseen := h statements' hseen
    obtain ⟨obj', hparse', helements, hjson', hall⟩ := hseen
    obtain rfl := Except.ok.inj (hparse.symm.trans hparse')
    obtain rfl := Option.some.inj (Except.ok.inj (hjson.symm.trans hjson'))
    exact ⟨(validatePolicyElements_sound obj none helements).2,
      fun s hs => (hall s hs).sound_iff.mpr (hunseen s hs)⟩

/-! A policy of the bucket films that speaks of another bucket. -/

def twoBuckets : Statement where
  principals := [⟨java "AWS", java "*"⟩]
  resources := [java "arn:aws:s3:::films/*", java "arn:aws:s3:::series/*"]
  actions := [java "s3:GetObject"]
  conditions := []
  effect := .allow

def twoBucketsDocument : JsonFields :=
  [(java "Statement", .array [.object
    [(java "Effect", .string (java "Allow")), (java "Principal", .object
        [(java "AWS", .string (java "*"))]),
      (java "Action", .array [.string (java "s3:GetObject")]),
      (java "Resource", .array [.string (java "arn:aws:s3:::films/*"),
        .string (java "arn:aws:s3:::series/*")])]])]

def twoBucketsContext : ValidatorContext where
  characters := .ofAscii
  actions := .init .ofAscii [] [(java "s3:GetObject", [])]
  parseJson _ := .ok twoBucketsDocument
  castMessage _ := []
  render _ := []
  fromJson _ := .ok (some [twoBuckets])
  userByArn _ := .ok false
  userById _ := .ok false
  accountById _ := .ok false
  accountByCanonicalId _ := .ok false

theorem not_sound_twoBuckets :
    validatePolicy twoBucketsContext (java "films") [] = .ok none ∧
      ¬SoundPolicy twoBucketsContext (java "films") [] := by
  refine ⟨by decide +kernel, fun h => ?_⟩
  have hstatement := (h twoBucketsDocument [twoBuckets] rfl rfl).2 twoBuckets mem_cons_self
  obtain ⟨-, name, hname, hbucket⟩ := hstatement.resources (java "arn:aws:s3:::series/*")
    (by decide +kernel) (java "arn:aws:s3:::series/*") (by decide +kernel)
  rw [show PolicyUtil.getResourceFromResourceArn (java "arn:aws:s3:::series/*") =
    .ok (java "series/*") from by decide, Except.ok.injEq] at hname
  rw [← hname] at hbucket
  exact absurd hbucket (by decide)

end BucketPolicyValidator

end CortxS3

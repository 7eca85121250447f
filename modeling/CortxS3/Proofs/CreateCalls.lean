/-
Whether the limits hold when accounts and users are created at the same time.

Each `create` counts, stores and counts again, and takes back what it has stored when there is too
much.  For users this works as long as the second count sees all of them: every user above the
limit belongs to a call that has not counted again yet (`Inv.users`), and the last of these calls
finds too many.  It does not work when the users are counted by a path that not all of them have,
or when there are more of them than a search returns.

For accounts it does not work at all.  What has been stored is an account with its units, which
the LDAP server does not delete.  So what the first count has found must still be true when the
account is stored: nobody else may have stored one in between (`Room`).
-/
import CortxS3.Auth.CreateCalls
import CortxS3.Proofs.UserController

namespace CortxS3

open Option (map_eq_some_iff some.inj some.injEq)
open List

namespace IAMApi

open AccountController CreateCall CreateState

open AccountController (maxAllowedAccounts)
open UserController (maxAllowedIAMUserlimit)

/-! ### The limits -/

def isIamUser (u : UserEntry) : Bool := u.userType = .iamUser

def isRoot (u : UserEntry) : Bool := u.name = ascii "root"

def usersBesidesRoot (a : AccountEntry) : List UserEntry :=
  (a.users.filter isIamUser).filter fun u => !isRoot u

structure WithinLimits (c : AuthServerConfig) (d : Directory) : Prop where
  accounts : d.accounts.length ≤ maxAllowedAccounts c
  users : ∀ a ∈ d.accounts, (usersBesidesRoot a).length ≤ c.maxIAMUserLimit

/-- What a call has stored is not in the directory. -/
def LeavesNothing (a : CreateAnswer) : Prop :=
  match a.call with
  | .account request _ saved =>
    saved = true → ∀ b ∈ a.directory.accounts, b.name ≠ request.name
  | .user requestor _ _ _ saved =>
    ∀ u, saved = some u → ∀ users, a.directory.usersOf requestor.accountName = some users →
      ∀ v ∈ users, v.userId ≠ u.userId

/-- When nothing runs the limits hold, and who was turned away by a limit has left nothing. -/
structure LimitsHold (c : AuthServerConfig) (s : CreateState) : Prop where
  settled : s.idle = true → WithinLimits c s.directory
  clean : ∀ a ∈ s.answers, a.call.overLimit = true → LeavesNothing a

/-- The next step of a call is the first count of accounts. -/
def CreateCall.countsAccounts : CreateCall → Bool
  | .account _ .countAccounts _ => true
  | _ => false

/-- The next step of a call stores an account. -/
def CreateCall.storesAccount (d : Directory) : CreateCall → Bool
  | .account request (.saveAccount canonicalId) _ =>
    (d.addAccount (request.account canonicalId)).isSome
  | _ => false

/-- Another call has stored an account since call `j` has counted them. -/
def noteCrowded (s : CreateState) (e : CreateEvent) (crowded : Nat → Bool) (j : Nat) : Bool :=
  match e with
  | .advance i =>
    match s.calls[i]? with
    | none => crowded j
    | some call =>
      if i = j then crowded j && !call.countsAccounts
      else crowded j || call.storesAccount s.directory
  | _ => crowded j

/-- Nobody comes between the count and the account that is stored, and when users are counted again
and there are too many, the count shows it. -/
def CreateCall.Counts (c : AuthServerConfig) (t : LdapTexts) (d : Directory) (crowded : Bool) :
    CreateCall → Prop
  | .account request phase saved =>
    (account request phase saved).storesAccount d = true → crowded = false
  | .user requestor body _ (.recount _) _ =>
    ∀ users, d.usersOf requestor.accountName = some users →
      maxAllowedIAMUserlimit c < (users.filter isIamUser).length →
        ∃ found, UserImpl.findAll c t d requestor.accountName
          (UserController.countedPath body) = .ok found ∧
            maxAllowedIAMUserlimit c < found.length
  | _ => True

/-- The call that goes on counts right. -/
def Counts (c : AuthServerConfig) (t : LdapTexts) (p : CreateState × (Nat → Bool)) :
    CreateEvent → Prop
  | .advance i => ∀ call, p.1.calls[i]? = some call → call.Counts c t p.1.directory (p.2 i)
  | _ => True

/-! ### Users that have been stored and not counted again -/

/-- The user that a call to an account has stored and may take back. -/
def CreateCall.pendingUser (accountName : Bytes) : CreateCall → Option UserEntry
  | .user requestor _ _ (.recount u) _ =>
    if requestor.accountName = accountName then some u else none
  | .user requestor _ _ (.deleteUser u) _ =>
    if requestor.accountName = accountName then some u else none
  | _ => none

def pending (calls : List CreateCall) (accountName : Bytes) : List UserEntry :=
  calls.filterMap (CreateCall.pendingUser accountName)

/-- How many of them count against the limit. -/
def pendingBesidesRoot (calls : List CreateCall) (accountName : Bytes) : Nat :=
  ((pending calls accountName).filter fun u => !isRoot u).length

/-- The account that a running call stores users in. -/
def CreateCall.storesIn : CreateCall → Option Bytes
  | .user _ _ _ (.ended _) _ => none
  | .user requestor _ _ _ _ => some requestor.accountName
  | _ => none

/-- Before an account is stored. -/
def isEarly : AccountController.CreatePhase → Bool
  | .countAccounts => true
  | .findAccount => true
  | .findCanonicalId _ _ => true
  | .findAccessKey _ => true
  | .saveAccount _ => true
  | .findByEmailAddress => true
  | _ => false

/-- After the first count has left room, and before an account is stored. -/
def isCounted : AccountController.CreatePhase → Bool
  | .findAccount => true
  | .findCanonicalId _ _ => true
  | .findAccessKey _ => true
  | .saveAccount _ => true
  | _ => false

/-- After an account was stored, and before the second count has found too many. -/
def isLate : AccountController.CreatePhase → Bool
  | .saveUnit _ _ _ => true
  | .saveRoot => true
  | .saveAccessKey => true
  | .recount => true
  | _ => false

/-- What a call remembers of what it has stored. -/
def CreateCall.Remembers : CreateCall → Prop
  | .account _ phase saved =>
    (isEarly phase = true → saved = false) ∧ ∀ again, phase ≠ .deleteAccount again
  | .user _ _ _ (.recount u) saved => saved = some u
  | .user _ _ _ (.deleteUser u) saved => saved = some u
  | .user _ _ _ (.ended _) _ => True
  | .user _ _ _ _ saved => saved = none

/-- The invariant, about the directory and the calls. -/
structure Held (c : AuthServerConfig) (d : Directory) (calls : List CreateCall) : Prop where
  names : (d.accounts.map (·.name)).Nodup
  accounts : d.accounts.length ≤ maxAllowedAccounts c
  users : ∀ n a, d.findAccount n = some a →
    (usersBesidesRoot a).length ≤ c.maxIAMUserLimit + pendingBesidesRoot calls n
  /-- A root user who is there to stay. -/
  rooted : ∀ call ∈ calls, ∀ n, call.storesIn = some n →
    ∃ users, d.usersOf n = some users ∧ ∃ r ∈ users,
      isIamUser r = true ∧ isRoot r = true ∧ ∀ u ∈ pending calls n, u.userId ≠ r.userId
  present : ∀ n, ∀ u ∈ pending calls n, isIamUser u = true ∧
    ∃ users, d.usersOf n = some users ∧ u ∈ users
  distinct : ∀ n, ((pending calls n).map (·.userId)).Nodup
  remembers : ∀ call ∈ calls, call.Remembers

section

variable {c : AuthServerConfig} {t : LdapTexts} {d d' : Directory}
variable {before after : List CreateCall} {call next : CreateCall}

theorem pending_split (before after : List CreateCall) (call : CreateCall) (n : Bytes) :
    pending (before ++ call :: after) n =
      pending before n ++ ((call.pendingUser n).toList ++ pending after n) := by
  unfold pending
  rw [filterMap_append, filterMap_cons]
  cases call.pendingUser n with
  | none | some u => rfl

variable {n : Bytes} {u : UserEntry}

theorem storesIn_of_pending (h : call.pendingUser n = some u) : call.storesIn = some n := by
  unfold pendingUser at h
  split at h
  · split at h
    · rename_i hn
      exact congrArg some hn
    · cases h
  · split at h
    · rename_i hn
      exact congrArg some hn
    · cases h
  · cases h

/-! ### What creating an account does to the others -/

/-- No account gets more users that count, and no user goes. -/
structure Grows (d d' : Directory) : Prop where
  names : (d.accounts.map (·.name)).Nodup → (d'.accounts.map (·.name)).Nodup
  besides : ∀ n a', d'.findAccount n = some a' →
    usersBesidesRoot a' = [] ∨
      ∃ a, d.findAccount n = some a ∧ usersBesidesRoot a' = usersBesidesRoot a
  kept : ∀ n users, d.usersOf n = some users →
    ∃ users', d'.usersOf n = some users' ∧ ∀ u ∈ users, u ∈ users'

theorem Grows.refl (d : Directory) : Grows d d where
  names := id
  besides := fun _ a ha => Or.inr ⟨a, ha, rfl⟩
  kept := fun _ users hu => ⟨users, hu, fun _ h => h⟩

theorem grows_addAccount {a : AccountEntry} (hnew : a.users = [])
    (h : d.addAccount a = some d') : Grows d d' := by
  obtain ⟨-, hfree, -, rfl⟩ := Directory.addAccount_eq_some.mp h
  have hfind : ∀ n, (Directory.mk (d.accounts ++ [a]) d.accessKeys).findAccount n =
      (d.findAccount n).or (if a.name = n then some a else none) := by
    intro n
    simp [Directory.findAccount, List.find?_append, List.find?_singleton]
  refine ⟨fun hnames => ?_, fun n a' ha' => ?_, fun n users hu => ?_⟩
  · rw [map_append, nodup_append]
    refine ⟨hnames, by simp, fun x hx y hy hxy => ?_⟩
    obtain ⟨b, hb, rfl⟩ := mem_map.mp hx
    rw [map_singleton, mem_singleton] at hy
    exact hfree b hb (congrArg foldCase (hxy.trans hy))
  · rw [hfind] at ha'
    cases hold : d.findAccount n with
    | some b =>
      rw [hold] at ha'
      exact Or.inr ⟨b, rfl, by rw [some.inj ha']⟩
    | none =>
      rw [hold, Option.none_or] at ha'
      split at ha'
      · rw [← some.inj ha']
        exact Or.inl (by simp [usersBesidesRoot, hnew])
      · cases ha'
  · obtain ⟨b, hb, hunit, rfl⟩ := Directory.usersOf_eq_some.mp hu
    refine ⟨b.users, Directory.usersOf_eq_some.mpr ⟨b, ?_, hunit, rfl⟩, fun _ h => h⟩
    rw [hfind, hb]
    rfl

theorem grows_addUnit {unit : OrganizationalUnit} (h : d.addUnit n unit = some d') :
    Grows d d' := by
  obtain ⟨a, ha, -, rfl⟩ := Directory.addUnit_eq_some.mp h
  obtain ⟨f, hf⟩ : ∃ f : AccountEntry → AccountEntry,
      f = fun a => { a with units := a.units ++ [unit] } := ⟨_, rfl⟩
  have hname : ∀ b, (f b).name = b.name := fun b => by rw [hf]
  have husers : ∀ b, (f b).users = b.users := fun b => by rw [hf]
  have hunits : ∀ b u, u ∈ b.units → u ∈ (f b).units := by
    intro b u hu
    rw [hf]
    exact mem_append_left _ hu
  rw [← hf]
  have hself := Directory.findAccount_withAccount hname ha
  refine ⟨fun hnames => by rwa [Directory.names_withAccount hname], fun m a' ha' => Or.inr ?_,
    fun m users hu => ?_⟩
  · obtain rfl | hm := eq_or_ne m n
    · obtain rfl := some.inj (ha'.symm.trans hself)
      exact ⟨a, ha, by rw [usersBesidesRoot, husers, usersBesidesRoot]⟩
    · rw [Directory.findAccount_withAccount_of_ne hname hm] at ha'
      exact ⟨a', ha', rfl⟩
  · obtain ⟨b, hb, hunit, rfl⟩ := Directory.usersOf_eq_some.mp hu
    refine ⟨b.users, Directory.usersOf_eq_some.mpr ?_, fun _ h => h⟩
    obtain rfl | hm := eq_or_ne m n
    · obtain rfl : a = b := some.inj (ha.symm.trans hb)
      exact ⟨_, hself, hunits a _ hunit, husers a⟩
    · exact ⟨b, by rw [Directory.findAccount_withAccount_of_ne hname hm, hb], hunit, rfl⟩

theorem names_withUsers (n : Bytes) (f : List UserEntry → List UserEntry) :
    (d.withUsers n f).accounts.map (·.name) = d.accounts.map (·.name) :=
  Directory.names_withAccount (f := fun a => { a with users := f a.users }) fun _ => rfl

theorem findAccount_withUsers {m : Bytes} {f : List UserEntry → List UserEntry} {a' : AccountEntry}
    (h : (d.withUsers n f).findAccount m = some a') :
    (m ≠ n ∧ d.findAccount m = some a') ∨
      ∃ a, m = n ∧ d.findAccount n = some a ∧ a' = { a with users := f a.users } := by
  obtain rfl | hm := eq_or_ne m n
  · refine Or.inr ?_
    cases ha : d.findAccount m with
    | none =>
      have hnone : d.withUsers m f = d := by
        have hrep : ∀ l : List AccountEntry, l.find? (fun b => b.name = m) = none →
            (l.replaceF fun b => if b.name = m then some { b with users := f b.users } else none) =
              l := by
          intro l hl
          refine replaceF_of_forall_none fun b hb => ?_
          rw [if_neg]
          simpa using List.find?_eq_none.mp hl b hb
        have hacc := hrep d.accounts ha
        unfold Directory.withUsers Directory.withAccount
        rw [hacc]
      rw [hnone, ha] at h
      cases h
    | some a =>
      have hself := Directory.findAccount_withAccount (d := d)
        (f := fun a => { a with users := f a.users }) (fun _ => rfl) ha
      exact ⟨a, rfl, rfl, some.inj (h.symm.trans hself)⟩
  · refine Or.inl ⟨hm, ?_⟩
    rw [← h]
    exact (Directory.findAccount_withAccount_of_ne
      (f := fun a => { a with users := f a.users }) (fun _ => rfl) hm).symm

theorem grows_addRoot (hroot : isRoot u = true) (h : d.addUser n u = some d') : Grows d d' := by
  obtain ⟨users, hu, -, -, rfl⟩ := Directory.addUser_eq_some.mp h
  refine ⟨fun hnames => by rwa [names_withUsers], fun m a' ha' => Or.inr ?_, fun m all hall => ?_⟩
  · rcases findAccount_withUsers ha' with ⟨-, ha⟩ | ⟨a, rfl, ha, rfl⟩
    · exact ⟨a', ha, rfl⟩
    · refine ⟨a, ha, ?_⟩
      have hnone : ([u].filter isIamUser).filter (fun u => !isRoot u) = [] := by
        simp [filter_filter, hroot]
      unfold usersBesidesRoot
      rw [filter_append, filter_append, hnone, append_nil]
  · obtain rfl | hm := eq_or_ne m n
    · exact ⟨_, Directory.usersOf_withUsers hall _, fun v hv => mem_append_left _ hv⟩
    · exact ⟨all, by rw [Directory.usersOf_withUsers_of_ne hm, hall], fun _ h => h⟩

theorem grows_addAccessKey {k : AccessKeyEntry} (h : d.addAccessKey k = some d') : Grows d d' := by
  obtain ⟨-, rfl⟩ := Directory.addAccessKey_eq_some.mp h
  exact ⟨id, fun _ a ha => Or.inr ⟨a, ha, rfl⟩, fun _ users hu => ⟨users, hu, fun _ h => h⟩⟩

variable {phase : CreatePhase}

theorem grows_afterWrite {change : Option Directory} (h : ∀ d', change = some d' → Grows d d') :
    Grows d (afterWrite d (Link.up.write d change) phase).1 := by
  cases change with
  | none => exact Grows.refl d
  | some d' => exact h d' rfl

theorem isRoot_root (r : Create) : isRoot r.root = true :=
  decide_eq_true (p := r.root.name = ascii "root") rfl

/-- Every step of a call that creates an account, but the last one. -/
theorem grows_createStep (r : Create) (phase : CreatePhase)
    (hphase : ∀ again, phase ≠ .deleteAccount again) :
    Grows d (createStep c t r .up d phase).1 := by
  cases phase with
  | saveAccount canonicalId =>
    simp only [createStep]
    split
    · exact Grows.refl d
    · refine grows_afterWrite fun d' hd => grows_addAccount ?_ hd
      rfl
  | saveUnit unit rest again =>
    simp only [createStep]
    cases hadd : Link.up.write d (d.addUnit r.name unit) with
    | none => exact Grows.refl d
    | some d' => exact grows_addUnit hadd
  | saveRoot => exact grows_afterWrite fun d' hd => grows_addRoot (isRoot_root r) hd
  | saveAccessKey => exact grows_afterWrite fun d' hd => grows_addAccessKey hd
  | deleteAccount again => exact absurd rfl (hphase again)
  | countAccounts | findAccount | findCanonicalId canonicalId untried
  | findAccessKey canonicalId | findByEmailAddress | recount | ended response => exact Grows.refl d

/-! ### A call that creates an account -/

theorem count_le : AccountImpl.count c d ≤ d.accounts.length := by
  unfold AccountImpl.count
  split
  · exact Nat.zero_le _
  · exact Nat.min_le_left _ _

/-- How a call goes on that creates an account, as long as there are not too many. -/
inductive Follows (phase : AccountController.CreatePhase) :
    AccountController.CreatePhase → Prop
  | refused (response : AccountController.CreateResponse)
      (hfirst : response ≠ .maxAccountLimitExceeded) (hsecond : response ≠ .tooMany) :
      Follows phase (.ended response)
  | full (h : phase = .countAccounts) : Follows phase (.ended .maxAccountLimitExceeded)
  | early {next : AccountController.CreatePhase} (h : isEarly phase = true)
      (hnext : isEarly next = true) : Follows phase next
  | late {next : AccountController.CreatePhase} (hnext : isLate next = true) : Follows phase next

section

variable {phase next : CreatePhase}

theorem follows_afterSearch {α : Type} {found : Except Thrown α}
    {next : α → CreatePhase} (h : ∀ a, Follows phase (next a)) :
    Follows phase (afterSearch found next) := by
  rcases found with (_ | _) | a
  · exact .refused _ nofun nofun
  · exact .refused _ nofun nofun
  · exact h a

theorem follows_drawCanonicalId (h : isEarly phase = true) (ids : List Bytes) :
    Follows phase (drawCanonicalId ids) := by
  cases ids with
  | nil => exact .refused _ nofun nofun
  | cons id ids => exact .early h rfl

theorem follows_afterWrite {written : Option Directory} (h : Follows phase next) :
    Follows phase (afterWrite d written next).2 := by
  cases written with
  | none => exact .refused _ nofun nofun
  | some d' => exact h

theorem follows_afterUnits (units : List OrganizationalUnit) :
    Follows phase (afterUnits units) := by
  cases units with
  | nil | cons unit units => exact .late rfl

theorem follows_createStep {r : Create}
    (hrun : ∀ response, phase ≠ .ended response) (hkeep : ∀ again, phase ≠ .deleteAccount again)
    (hfew : d.accounts.length ≤ maxAllowedAccounts c) :
    Follows phase (createStep c t r .up d phase).2 := by
  cases phase with
  | countAccounts =>
    simp only [createStep]
    refine follows_afterSearch fun n => ?_
    split
    · exact .full rfl
    · exact .early rfl rfl
  | findAccount =>
    refine follows_afterSearch fun found => ?_
    cases found with
    | none => exact follows_drawCanonicalId rfl _
    | some a => exact .refused _ nofun nofun
  | findCanonicalId canonicalId untried =>
    simp only [createStep]
    refine follows_afterSearch fun found => ?_
    cases found with
    | none =>
      show Follows _ (if _ then _ else _)
      split
      · exact .early rfl rfl
      · exact .early rfl rfl
    | some a => exact follows_drawCanonicalId rfl _
  | findAccessKey canonicalId =>
    refine follows_afterSearch fun found => ?_
    cases found with
    | none => exact .early rfl rfl
    | some k => exact .refused _ nofun nofun
  | saveAccount canonicalId =>
    simp only [createStep]
    split
    · exact .early rfl rfl
    · exact follows_afterWrite (follows_afterUnits _)
  | findByEmailAddress =>
    refine follows_afterSearch fun found => ?_
    cases found with
    | none | some a => exact .refused _ nofun nofun
  | saveUnit unit rest again =>
    simp only [createStep]
    split
    · exact follows_afterUnits _
    · split
      · exact .refused _ nofun nofun
      · exact .late rfl
  | saveRoot | saveAccessKey => exact follows_afterWrite (.late rfl)
  | recount =>
    have hcount : ¬ maxAllowedAccounts c < AccountImpl.count c d :=
      Nat.not_lt.mpr (count_le.trans hfew)
    simp only [createStep, Link.search, afterSearch, hcount, if_false]
    exact .refused _ nofun nofun
  | deleteAccount again => exact absurd rfl (hkeep again)
  | ended response => exact absurd rfl (hrun response)

theorem length_withAccount (n : Bytes) {f : AccountEntry → AccountEntry}
    (hname : ∀ b, (f b).name = b.name) : (d.withAccount n f).accounts.length = d.accounts.length := by
  have h := congrArg List.length (Directory.names_withAccount (d := d) (n := n) hname)
  rwa [length_map, length_map] at h

theorem length_createStep {r : Create} (saved : Bool) (hkeep : ∀ again, phase ≠ .deleteAccount again) :
    (createStep c t r .up d phase).1.accounts.length ≤
      d.accounts.length + ((account r phase saved).storesAccount d).toNat := by
  have hwrite : ∀ (change : Option Directory) (next : CreatePhase),
      (∀ d', change = some d' → d'.accounts.length = d.accounts.length) →
        (afterWrite d (Link.up.write d change) next).1.accounts.length ≤ d.accounts.length := by
    intro change next h
    cases change with
    | none => exact Nat.le_refl _
    | some d' => exact (h d' rfl).le
  cases phase with
  | saveAccount canonicalId =>
    simp only [createStep, storesAccount]
    split
    · exact Nat.le_add_right _ _
    · cases hadd : d.addAccount (r.account canonicalId) with
      | none => exact Nat.le_add_right _ _
      | some d' =>
        obtain ⟨-, -, -, rfl⟩ := Directory.addAccount_eq_some.mp hadd
        simp [afterWrite, Link.write]
  | saveUnit unit rest again =>
    simp only [createStep]
    cases hadd : d.addUnit r.name unit with
    | none => exact Nat.le_refl _
    | some d' =>
      obtain ⟨a, -, -, rfl⟩ := Directory.addUnit_eq_some.mp hadd
      exact (length_withAccount r.name (f := fun a => { a with units := a.units ++ [unit] })
        fun _ => rfl).le
  | saveRoot =>
    refine hwrite _ _ fun d' hadd => ?_
    obtain ⟨users, -, -, -, rfl⟩ := Directory.addUser_eq_some.mp hadd
    exact length_withAccount r.name (f := fun a => { a with users := a.users ++ [r.root] })
      fun _ => rfl
  | saveAccessKey =>
    refine hwrite _ _ fun d' hadd => ?_
    obtain ⟨-, rfl⟩ := Directory.addAccessKey_eq_some.mp hadd
    rfl
  | deleteAccount again => exact absurd rfl (hkeep again)
  | countAccounts | findAccount | findCanonicalId canonicalId untried
  | findAccessKey canonicalId | findByEmailAddress | recount | ended response =>
    exact Nat.le_refl _

/-- A call that has counted has found room, or had found it before. -/
theorem counted_createStep {r : Create}
    (h : isCounted (createStep c t r .up d phase).2 = true) :
    (createStep c t r .up d phase).1 = d ∧ (isCounted phase = true ∨
      phase = .countAccounts ∧ AccountImpl.count c d < maxAllowedAccounts c) := by
  have hlate : ∀ units, isCounted (afterUnits units) = false := by
    intro units
    cases units with
    | nil | cons unit units => rfl
  have hwrite : ∀ (change : Option Directory) (next : CreatePhase), isCounted next = false →
      isCounted (afterWrite d (Link.up.write d change) next).2 = false := by
    intro change next hnext
    cases change with
    | none => rfl
    | some d' => exact hnext
  cases phase with
  | countAccounts =>
    refine ⟨rfl, Or.inr ⟨rfl, Nat.not_le.mp fun hfull => ?_⟩⟩
    simp [createStep, Link.search, AccountController.afterSearch, hfull, isCounted] at h
  | findAccount | findCanonicalId canonicalId untried | findAccessKey canonicalId =>
    exact ⟨rfl, Or.inl rfl⟩
  | saveAccount canonicalId =>
    simp only [createStep] at h
    split at h
    · cases h
    · rw [hwrite _ _ (hlate _)] at h
      cases h
  | findByEmailAddress =>
    simp only [createStep, Link.search] at h
    rcases hfound : AccountImpl.findByEmailAddress t d r.email with (_ | _) | _ | a <;>
      simp [hfound, AccountController.afterSearch, isCounted] at h
  | saveUnit unit rest again =>
    simp only [createStep] at h
    split at h
    · rw [hlate] at h
      cases h
    · split at h
      · cases h
      · cases h
  | saveRoot | saveAccessKey =>
    rw [createStep, hwrite _ _ rfl] at h
    cases h
  | recount =>
    simp only [createStep, Link.search, AccountController.afterSearch] at h
    split at h
    · cases h
    · cases h
  | deleteAccount again =>
    simp only [createStep] at h
    split at h
    · cases h
    · cases h
  | ended response => cases h

end

/-! ### One call goes on -/

/-- A call of which nothing is pending goes on without storing a user. -/
theorem held_quiet (h : Held c d (before ++ call :: after)) (hgrows : Grows d d')
    (hfew : d'.accounts.length ≤ maxAllowedAccounts c)
    (hpend : ∀ n, next.pendingUser n = call.pendingUser n)
    (hstores : ∀ n, next.storesIn = some n → call.storesIn = some n)
    (hrem : next.Remembers) : Held c d' (before ++ next :: after) := by
  have hpending : ∀ n, pending (before ++ next :: after) n = pending (before ++ call :: after) n :=
    fun n => by rw [pending_split, pending_split, hpend]
  refine ⟨hgrows.names h.names, hfew, fun n a' ha' => ?_, fun x hx n hn => ?_, fun n u hu => ?_,
    fun n => ?_, fun x hx => ?_⟩
  · unfold pendingBesidesRoot
    rw [hpending]
    rcases hgrows.besides n a' ha' with hnone | ⟨a, ha, hsame⟩
    · rw [hnone]
      exact Nat.zero_le _
    · rw [hsame]
      exact h.users n a ha
  · obtain ⟨y, hy, hyn⟩ : ∃ y ∈ before ++ call :: after, y.storesIn = some n := by
      rcases mem_append.mp hx with hx | hx
      · exact ⟨x, mem_append_left _ hx, hn⟩
      · rcases mem_cons.mp hx with rfl | hx
        · exact ⟨call, by simp, hstores n hn⟩
        · exact ⟨x, by simp [hx], hn⟩
    obtain ⟨users, hu, r, hr, hiam, hroot, hfree⟩ := h.rooted y hy n hyn
    obtain ⟨users', hu', hkept⟩ := hgrows.kept n users hu
    exact ⟨users', hu', r, hkept r hr, hiam, hroot, by rwa [hpending]⟩
  · rw [hpending] at hu
    obtain ⟨hiam, users, husers, hmem⟩ := h.present n u hu
    obtain ⟨users', hu', hkept⟩ := hgrows.kept n users husers
    exact ⟨hiam, users', hu', hkept u hmem⟩
  · rw [hpending]
    exact h.distinct n
  · rcases mem_append.mp hx with hx | hx
    · exact h.remembers x (mem_append_left _ hx)
    · rcases mem_cons.mp hx with rfl | hx
      · exact hrem
      · exact h.remembers x (by simp [hx])

variable {body : RequestBodyMap} {draws : Draws} {q : Requestor} {saved : Option UserEntry}

theorem pendingUser_user {phase : UserController.CreatePhase}
    (h : phase = .recount u ∨ phase = .deleteUser u) :
    (user q body draws phase saved).pendingUser n =
      if q.accountName = n then some u else none := by
  rcases h with rfl | rfl
  · rfl
  · rfl

theorem pending_of_ne {phase : UserController.CreatePhase} (h : n ≠ q.accountName) :
    (user q body draws phase saved).pendingUser n = none := by
  have hne : q.accountName ≠ n := fun he => h he.symm
  cases phase with
  | recount u | deleteUser u => exact if_neg hne
  | countUsers | findUser | saveUser | ended response => rfl

theorem held_saved (h : Held c d (before ++ .user q body draws .saveUser saved :: after))
    (hiam : isIamUser u = true) (hadd : d.addUser q.accountName u = some d') :
    Held c d' (before ++ .user q body draws (.recount u) (some u) :: after) := by
  obtain ⟨all, hall, -, hfresh, rfl⟩ := Directory.addUser_eq_some.mp hadd
  have hself := Directory.usersOf_withUsers hall fun users => users ++ [u]
  obtain ⟨old, hold⟩ : ∃ old, old = before ++ .user q body draws .saveUser saved :: after :=
    ⟨_, rfl⟩
  obtain ⟨new, hnew⟩ : ∃ new,
      new = before ++ .user q body draws (.recount u) (some u) :: after := ⟨_, rfl⟩
  rw [← hold] at h
  rw [← hnew]
  -- one more is pending in this account, and none in any other
  have hmine : (pending new q.accountName).Perm (u :: pending old q.accountName) := by
    rw [hnew, hold, pending_split, pending_split, pendingUser_user (Or.inl rfl), if_pos rfl]
    exact perm_middle
  have hothers : ∀ n, n ≠ q.accountName → pending new n = pending old n := by
    intro n hn
    rw [hnew, hold, pending_split, pending_split, pending_of_ne hn, pending_of_ne hn]
  have hcount : pendingBesidesRoot new q.accountName =
      pendingBesidesRoot old q.accountName + ([u].filter fun u => !isRoot u).length := by
    unfold pendingBesidesRoot
    rw [(hmine.filter _).length_eq, filter_cons, filter_cons, filter_nil]
    split
    · rfl
    · rfl
  have hmember : ∀ x ∈ new, x ∈ old ∨ x = .user q body draws (.recount u) (some u) := by
    intro x hx
    rw [hnew, mem_append, mem_cons] at hx
    rw [hold, mem_append, mem_cons]
    tauto
  -- a user that was pending is not the new one
  have hapart : ∀ v ∈ pending old q.accountName, v.userId ≠ u.userId := by
    intro v hv
    obtain ⟨-, users, husers, hmem⟩ := h.present _ v hv
    obtain rfl : all = users := some.inj (hall.symm.trans husers)
    exact hfresh v hmem
  refine ⟨by rw [names_withUsers]; exact h.names, ?_, fun n a' ha' => ?_, fun x hx n hn => ?_,
    fun n v hv => ?_, fun n => ?_, fun x hx => ?_⟩
  · have hlen := congrArg List.length (names_withUsers (d := d) q.accountName fun users => users ++ [u])
    rw [length_map, length_map] at hlen
    rw [hlen]
    exact h.accounts
  · rcases findAccount_withUsers ha' with ⟨hn, ha⟩ | ⟨a, rfl, ha, rfl⟩
    · have hle := h.users n a' ha
      unfold pendingBesidesRoot at hle ⊢
      rwa [hothers n hn]
    · have hle := h.users _ a ha
      have hmore : (usersBesidesRoot { a with users := a.users ++ [u] }).length =
          (usersBesidesRoot a).length + ([u].filter fun u => !isRoot u).length := by
        unfold usersBesidesRoot
        rw [filter_append, filter_append, length_append, filter_cons_of_pos hiam, filter_nil]
      rw [hmore, hcount]
      omega
  · have hstored : ∃ y ∈ old, y.storesIn = some n := by
      rcases hmember x hx with hx | rfl
      · exact ⟨x, hx, hn⟩
      · exact ⟨.user q body draws .saveUser saved, by simp [hold], hn⟩
    obtain ⟨y, hy, hyn⟩ := hstored
    obtain ⟨users, hu, r, hr, hriam, hroot, hfree⟩ := h.rooted y hy n hyn
    obtain rfl | hne := eq_or_ne n q.accountName
    · obtain rfl : all = users := some.inj (hall.symm.trans hu)
      refine ⟨_, hself, r, mem_append_left _ hr, hriam, hroot, fun v hv => ?_⟩
      rcases mem_cons.mp (hmine.mem_iff.mp hv) with rfl | hv
      · exact (hfresh r hr).symm
      · exact hfree v hv
    · refine ⟨users, by rw [Directory.usersOf_withUsers_of_ne hne, hu], r, hr, hriam, hroot, ?_⟩
      rwa [hothers n hne]
  · obtain rfl | hne := eq_or_ne n q.accountName
    · rcases mem_cons.mp (hmine.mem_iff.mp hv) with rfl | hv
      · exact ⟨hiam, _, hself, by simp⟩
      · obtain ⟨hviam, users, husers, hmem⟩ := h.present _ v hv
        obtain rfl : all = users := some.inj (hall.symm.trans husers)
        exact ⟨hviam, _, hself, mem_append_left _ hmem⟩
    · rw [hothers n hne] at hv
      rw [Directory.usersOf_withUsers_of_ne hne]
      exact h.present n v hv
  · obtain rfl | hne := eq_or_ne n q.accountName
    · rw [(hmine.map _).nodup_iff, map_cons, nodup_cons]
      refine ⟨fun hv => ?_, h.distinct _⟩
      obtain ⟨v, hv, he⟩ := mem_map.mp hv
      exact hapart v hv he
    · rw [hothers n hne]
      exact h.distinct n
  · rcases hmember x hx with hx | rfl
    · exact h.remembers x hx
    · rfl

/-- A call that has stored a user and counted again ends. -/
structure Drops (q : Requestor) (u : UserEntry) (old new : List CreateCall) : Prop where
  mine : (pending old q.accountName).Perm (u :: pending new q.accountName)
  others : ∀ n, n ≠ q.accountName → pending new n = pending old n
  stores : ∀ x ∈ new, ∀ n, x.storesIn = some n → x ∈ old
  remembers : (∀ x ∈ old, x.Remembers) → ∀ x ∈ new, x.Remembers

theorem drops_ended {saved' : Option UserEntry} {phase : UserController.CreatePhase}
    {response : UserController.CreateResponse} (hphase : phase = .recount u ∨ phase = .deleteUser u) :
    Drops q u (before ++ .user q body draws phase saved :: after)
      (before ++ .user q body draws (.ended response) saved' :: after) := by
  refine ⟨?_, fun n hn => ?_, fun x hx n hn => ?_, fun h x hx => ?_⟩
  · rw [pending_split, pending_split, pendingUser_user hphase, if_pos rfl]
    exact perm_middle
  · rw [pending_split, pending_split, pending_of_ne hn, pending_of_ne hn]
  · rw [mem_append, mem_cons] at hx ⊢
    rcases hx with hx | rfl | hx
    · exact Or.inl hx
    · cases hn
    · exact Or.inr (Or.inr hx)
  · rw [mem_append, mem_cons] at hx
    rcases hx with hx | rfl | hx
    · exact h x (mem_append_left _ hx)
    · trivial
    · exact h x (by simp [hx])

variable {new old : List CreateCall}

theorem Drops.mem (h : Drops q u old new) {v : UserEntry} (hv : v ∈ pending new n) :
    v ∈ pending old n := by
  obtain rfl | hne := eq_or_ne n q.accountName
  · exact h.mine.mem_iff.mpr (mem_cons_of_mem _ hv)
  · rwa [← h.others n hne]

theorem Drops.distinct (h : Drops q u old new)
    (hdistinct : ∀ n, ((pending old n).map (·.userId)).Nodup) (n : Bytes) :
    ((pending new n).map (·.userId)).Nodup := by
  obtain rfl | hne := eq_or_ne n q.accountName
  · have hall := hdistinct q.accountName
    rw [(h.mine.map _).nodup_iff, map_cons, nodup_cons] at hall
    exact hall.2
  · rw [h.others n hne]
    exact hdistinct n

theorem held_settled (h : Held c d old) (hdrop : Drops q u old new)
    (hfew : ∀ users, d.usersOf q.accountName = some users →
      (users.filter isIamUser).length ≤ maxAllowedIAMUserlimit c) : Held c d new := by
  refine ⟨h.names, h.accounts, fun n a ha => ?_, fun x hx n hn => ?_, fun n v hv => ?_,
    hdrop.distinct h.distinct, hdrop.remembers h.remembers⟩
  · obtain rfl | hne := eq_or_ne n q.accountName
    · have hu : u ∈ pending old q.accountName := hdrop.mine.mem_iff.mpr (by simp)
      obtain ⟨y, hy, hyu⟩ := mem_filterMap.mp hu
      obtain ⟨users, husers, r, hr, hriam, hroot, -⟩ :=
        h.rooted y hy q.accountName (storesIn_of_pending hyu)
      have hle := hfew users husers
      obtain ⟨b, hb, -, rfl⟩ := Directory.usersOf_eq_some.mp husers
      obtain rfl : a = b := some.inj (ha.symm.trans hb)
      -- the root user is not counted
      have hlt : (usersBesidesRoot a).length < (a.users.filter isIamUser).length := by
        refine length_filter_lt_length_iff_exists.mpr ⟨r, ?_, by simp [hroot]⟩
        exact mem_filter.mpr ⟨hr, hriam⟩
      unfold maxAllowedIAMUserlimit at hle
      omega
    · have hle := h.users n a ha
      unfold pendingBesidesRoot at hle ⊢
      rwa [hdrop.others n hne]
  · obtain ⟨users, hu, r, hr, hriam, hroot, hfree⟩ := h.rooted x (hdrop.stores x hx n hn) n hn
    exact ⟨users, hu, r, hr, hriam, hroot, fun v hv => hfree v (hdrop.mem hv)⟩
  · exact h.present n v (hdrop.mem hv)

theorem held_taken (h : Held c d old) (hdrop : Drops q u old new)
    (htake : d.deleteUser q.accountName u.userId = some d') : Held c d' new := by
  obtain ⟨all, hall, -, rfl⟩ := Directory.deleteUser_eq_some.mp htake
  obtain ⟨others, hothers⟩ : ∃ others : List UserEntry → List UserEntry,
      others = fun users => users.filter fun v => v.userId ≠ u.userId := ⟨_, rfl⟩
  rw [← hothers]
  have hself := Directory.usersOf_withUsers hall others
  have hu : u ∈ pending old q.accountName := hdrop.mine.mem_iff.mpr (by simp)
  have hstay : ∀ v ∈ all, v.userId ≠ u.userId → v ∈ others all := by
    intro v hv hne
    rw [hothers]
    exact mem_filter.mpr ⟨hv, by simpa using hne⟩
  -- who else is pending has another id
  have hapart : ∀ v ∈ pending new q.accountName, v.userId ≠ u.userId := by
    have hids := h.distinct q.accountName
    rw [(hdrop.mine.map _).nodup_iff, map_cons, nodup_cons] at hids
    exact fun v hv he => hids.1 (he ▸ mem_map_of_mem hv)
  refine ⟨by rw [names_withUsers]; exact h.names, ?_, fun n a' ha' => ?_, fun x hx n hn => ?_,
    fun n v hv => ?_, hdrop.distinct h.distinct, hdrop.remembers h.remembers⟩
  · have hlen := congrArg List.length (names_withUsers (d := d) q.accountName others)
    rw [length_map, length_map] at hlen
    rw [hlen]
    exact h.accounts
  · rcases findAccount_withUsers ha' with ⟨hn, ha⟩ | ⟨a, rfl, ha, rfl⟩
    · have hle := h.users n a' ha
      unfold pendingBesidesRoot at hle ⊢
      rwa [hdrop.others n hn]
    · have hle := h.users _ a ha
      obtain ⟨hiam, users, husers, hmem⟩ := h.present _ u hu
      obtain ⟨b, hb, -, rfl⟩ := Directory.usersOf_eq_some.mp husers
      obtain rfl : a = b := some.inj (ha.symm.trans hb)
      have hpend : pendingBesidesRoot old q.accountName =
          ([u].filter fun u => !isRoot u).length + pendingBesidesRoot new q.accountName := by
        unfold pendingBesidesRoot
        rw [(hdrop.mine.filter _).length_eq, ← singleton_append, filter_append, length_append]
      have hfilter : usersBesidesRoot { a with users := others a.users } =
          (usersBesidesRoot a).filter fun v => v.userId ≠ u.userId := by
        unfold usersBesidesRoot
        rw [hothers]
        simp only [filter_filter]
        refine filter_congr fun v _ => ?_
        cases isRoot v <;> cases isIamUser v <;> simp
      have hless : (usersBesidesRoot { a with users := others a.users }).length +
          ([u].filter fun u => !isRoot u).length ≤ (usersBesidesRoot a).length := by
        rw [hfilter]
        cases hroot : isRoot u with
        | true =>
          rw [filter_singleton]
          simpa [hroot] using length_filter_le _ _
        | false =>
          have hlt : ((usersBesidesRoot a).filter fun v => v.userId ≠ u.userId).length <
              (usersBesidesRoot a).length := by
            refine length_filter_lt_length_iff_exists.mpr ⟨u, ?_, by simp⟩
            simp [usersBesidesRoot, hmem, hiam, hroot]
          rw [filter_singleton]
          simpa [hroot] using hlt
      omega
  · obtain ⟨users, hu', r, hr, hriam, hroot, hfree⟩ := h.rooted x (hdrop.stores x hx n hn) n hn
    obtain rfl | hne := eq_or_ne n q.accountName
    · obtain rfl : all = users := some.inj (hall.symm.trans hu')
      exact ⟨_, hself, r, hstay r hr (hfree u hu).symm, hriam, hroot,
        fun v hv => hfree v (hdrop.mem hv)⟩
    · exact ⟨users, by rw [Directory.usersOf_withUsers_of_ne hne, hu'], r, hr, hriam, hroot,
        fun v hv => hfree v (hdrop.mem hv)⟩
  · obtain rfl | hne := eq_or_ne n q.accountName
    · obtain ⟨hviam, users, husers, hmem⟩ := h.present _ v (hdrop.mem hv)
      obtain rfl : all = users := some.inj (hall.symm.trans husers)
      exact ⟨hviam, _, hself, hstay v hmem (hapart v hv)⟩
    · rw [Directory.usersOf_withUsers_of_ne hne]
      exact h.present n v (hdrop.mem hv)

theorem isEarly_of_isLate (h : isLate phase = true) : isEarly phase = false := by
  cases phase with
  | saveUnit unit rest again | saveRoot | saveAccessKey | recount => rfl
  | _ => cases h

theorem stores_of_isEarly {next : CreatePhase} (h : isEarly next = true) :
    stores phase next = false := by
  cases next with
  | saveUnit unit rest again => cases h
  | _ => cases phase <;> rfl

theorem overLimit_account {r : Create} {saved : Bool}
    (h : isEarly phase = true ∨ isLate phase = true) :
    (account r phase saved).overLimit = false := by
  cases phase with
  | ended response => simp [isEarly, isLate] at h
  | _ => rfl

theorem held_account {r : Create}
    {saved : Bool} (h : Held c d (before ++ .account r phase saved :: after))
    (hrun : (account r phase saved).ended = false)
    (hroom : (account r phase saved).storesAccount d = true →
      d.accounts.length < maxAllowedAccounts c)
    (hstep : (account r phase saved).advance c t d = (d', next)) :
    Held c d' (before ++ next :: after) ∧ (next.overLimit = true → LeavesNothing ⟨next, d'⟩) := by
  obtain ⟨hearly, hkeep⟩ := h.remembers (.account r phase saved) (by simp)
  have hgoes : ∀ response, phase ≠ .ended response := by
    rintro response rfl
    cases hrun
  have hgrows := grows_createStep (c := c) (t := t) (d := d) r phase hkeep
  have hfollows := follows_createStep (c := c) (t := t) (d := d) (r := r) hgoes hkeep h.accounts
  have hfew : (createStep c t r .up d phase).1.accounts.length ≤ maxAllowedAccounts c := by
    have hle := length_createStep (c := c) (t := t) (d := d) (r := r) saved hkeep
    cases hstores : (account r phase saved).storesAccount d with
    | false =>
      rw [hstores] at hle
      exact hle.trans h.accounts
    | true =>
      rw [hstores] at hle
      exact hle.trans (hroom hstores)
  obtain ⟨phase', hphase'⟩ : ∃ phase',
      phase' = (createStep c t r .up d phase).2 := ⟨_, rfl⟩
  obtain ⟨saved', hsaved'⟩ : ∃ saved', saved' = (saved || stores phase phase') :=
    ⟨_, rfl⟩
  have hnext : (createStep c t r .up d phase).1 = d' ∧
      account r phase' saved' = next := by
    rw [hsaved', hphase']
    exact Prod.mk.inj hstep
  obtain ⟨rfl, rfl⟩ := hnext
  rw [← hphase'] at hfollows
  have hrem : (account r phase' saved').Remembers := by
    cases hfollows with
    | refused response _ _ | full _ => exact ⟨nofun, nofun⟩
    | early hold hnew =>
      refine ⟨fun _ => ?_, fun again he => ?_⟩
      · rw [hsaved', hearly hold, stores_of_isEarly hnew]
        rfl
      · rw [he] at hnew
        cases hnew
    | late hnew =>
      refine ⟨fun hold => ?_, fun again he => ?_⟩
      · rw [isEarly_of_isLate hnew] at hold
        cases hold
      · rw [he] at hnew
        cases hnew
  refine ⟨held_quiet h hgrows hfew (fun _ => rfl) nofun hrem, fun hover => ?_⟩
  cases hfollows with
  | refused response hfirst hsecond => simp [overLimit, hfirst, hsecond] at hover
  | full hphase =>
    intro hsave
    rw [hsaved', hearly (by rw [hphase]; rfl), hphase] at hsave
    cases hsave
  | early _ hnew => rw [overLimit_account (Or.inl hnew)] at hover; cases hover
  | late hnew => rw [overLimit_account (Or.inr hnew)] at hover; cases hover

section

variable {q : Requestor} {body : RequestBodyMap} {draws : Draws} {saved : Option UserEntry}

theorem held_looks {phase phase' : UserController.CreatePhase}
    (h : Held c d (before ++ .user q body draws phase saved :: after))
    (hphase : phase = .countUsers ∨ phase = .findUser ∨ phase = .saveUser)
    (hnext : phase' = .findUser ∨ phase' = .saveUser ∨ ∃ response, phase' = .ended response) :
    Held c d (before ++ .user q body draws phase' saved :: after) ∧
      LeavesNothing ⟨.user q body draws phase' saved, d⟩ := by
  have hrem := h.remembers (.user q body draws phase saved) (by simp)
  have hnone : saved = none := by
    rcases hphase with rfl | rfl | rfl
    · exact hrem
    · exact hrem
    · exact hrem
  have hold : ∀ n, (user q body draws phase saved).pendingUser n = none := by
    intro n
    rcases hphase with rfl | rfl | rfl
    · rfl
    · rfl
    · rfl
  have hstores : (user q body draws phase saved).storesIn = some q.accountName := by
    rcases hphase with rfl | rfl | rfl
    · rfl
    · rfl
    · rfl
  refine ⟨held_quiet h (Grows.refl d) h.accounts (fun n => ?_) (fun n hn => ?_) ?_, ?_⟩
  · rw [hold]
    rcases hnext with rfl | rfl | ⟨response, rfl⟩
    · rfl
    · rfl
    · rfl
  · rw [hstores]
    rcases hnext with rfl | rfl | ⟨response, rfl⟩
    · exact hn
    · exact hn
    · cases hn
  · rcases hnext with rfl | rfl | ⟨response, rfl⟩
    · exact hnone
    · exact hnone
    · trivial
  · intro u hu
    rw [hnone] at hu
    cases hu

theorem looks_afterSearch {α : Type} {found : Except Thrown α}
    {next : α → UserController.CreatePhase}
    (h : ∀ a, next a = .findUser ∨ next a = .saveUser ∨ ∃ response, next a = .ended response) :
    UserController.afterSearch found next = .findUser ∨
      UserController.afterSearch found next = .saveUser ∨
        ∃ response, UserController.afterSearch found next = .ended response := by
  rcases found with (_ | _) | a
  · exact Or.inr (Or.inr ⟨_, rfl⟩)
  · exact Or.inr (Or.inr ⟨_, rfl⟩)
  · exact h a

/-- A call that creates a user goes on. -/
theorem held_user {phase : UserController.CreatePhase}
    (h : Held c d (before ++ .user q body draws phase saved :: after))
    (hrun : (user q body draws phase saved).ended = false)
    (hcount : ∀ u, phase = .recount u → ∀ users, d.usersOf q.accountName = some users →
      maxAllowedIAMUserlimit c < (users.filter isIamUser).length →
        ∃ found, UserImpl.findAll c t d q.accountName (UserController.countedPath body) =
          .ok found ∧ maxAllowedIAMUserlimit c < found.length)
    (hstep : (user q body draws phase saved).advance c t d = (d', next)) :
    Held c d' (before ++ next :: after) ∧ (next.overLimit = true → LeavesNothing ⟨next, d'⟩) := by
  cases phase with
  | countUsers =>
    obtain ⟨rfl, rfl⟩ := Prod.mk.inj hstep
    refine (held_looks h (Or.inl rfl) (looks_afterSearch fun users => ?_)).imp id fun hl _ => hl
    split
    · exact Or.inr (Or.inr ⟨_, rfl⟩)
    · exact Or.inl rfl
  | findUser =>
    obtain ⟨rfl, rfl⟩ := Prod.mk.inj hstep
    refine (held_looks h (Or.inr (Or.inl rfl)) (looks_afterSearch fun found => ?_)).imp id
      fun hl _ => hl
    cases found with
    | none => exact Or.inr (Or.inl rfl)
    | some u => exact Or.inr (Or.inr ⟨_, rfl⟩)
  | saveUser =>
    simp only [advance, UserController.createStep] at hstep
    split at hstep
    · obtain ⟨rfl, rfl⟩ := Prod.mk.inj hstep
      exact (held_looks h (Or.inr (Or.inr rfl)) (Or.inr (Or.inr ⟨_, rfl⟩))).imp id fun hl _ => hl
    · split at hstep
      · rename_i name _ d₁ hadd
        obtain ⟨rfl, rfl⟩ := Prod.mk.inj hstep
        exact ⟨held_saved h rfl hadd, nofun⟩
      · obtain ⟨rfl, rfl⟩ := Prod.mk.inj hstep
        exact (held_looks h (Or.inr (Or.inr rfl)) (Or.inr (Or.inr ⟨_, rfl⟩))).imp id fun hl _ => hl
  | recount u =>
    have hrem : saved = some u := h.remembers (.user q body draws (.recount u) saved) (by simp)
    obtain ⟨rfl, rfl⟩ := Prod.mk.inj hstep
    by_cases hmany : ∃ found, UserImpl.findAll c t d q.accountName
        (UserController.countedPath body) = .ok found ∧ maxAllowedIAMUserlimit c < found.length
    · obtain ⟨found, hfound, hlt⟩ := hmany
      simp only [UserController.createStep, hfound, UserController.afterSearch, hlt, if_true]
      exact ⟨held_quiet h (Grows.refl d) h.accounts (fun _ => rfl) (fun _ hn => hn) hrem, nofun⟩
    · have hend : ∃ response, response ≠ UserController.CreateResponse.maxUserLimitExceeded ∧
          response ≠ .tooMany ∧
            (UserController.createStep c t draws q body d (.recount u)).2 = .ended response := by
        rcases hfound : UserImpl.findAll c t d q.accountName (UserController.countedPath body) with
          (_ | _) | found
        · exact ⟨.internalServerError, nofun, nofun, by
            simp only [UserController.createStep, hfound, UserController.afterSearch]⟩
        · exact ⟨.thrown, nofun, nofun, by
            simp only [UserController.createStep, hfound, UserController.afterSearch]⟩
        · have hle : ¬ maxAllowedIAMUserlimit c < found.length :=
            fun hlt => hmany ⟨found, hfound, hlt⟩
          exact ⟨.created, nofun, nofun, by
            simp only [UserController.createStep, hfound, UserController.afterSearch, hle, if_false]⟩
      obtain ⟨response, hfirst, hsecond, hend⟩ := hend
      rw [hend]
      refine ⟨held_settled h (drops_ended (Or.inl rfl)) fun users husers => ?_, fun hover => ?_⟩
      · exact Nat.not_lt.mp fun hlt => hmany (hcount u rfl users husers hlt)
      · simp [overLimit, hfirst, hsecond] at hover
  | deleteUser u =>
    have hrem : saved = some u := h.remembers (.user q body draws (.deleteUser u) saved) (by simp)
    have hu : u ∈ pending (before ++ .user q body draws (.deleteUser u) saved :: after)
        q.accountName := by
      rw [pending_split, pendingUser_user (Or.inr rfl), if_pos rfl]
      simp
    obtain ⟨-, users, husers, hmem⟩ := h.present _ u hu
    have htake := Directory.deleteUser_eq_some.mpr ⟨users, husers, ⟨u, hmem, rfl⟩, rfl⟩
    obtain ⟨rfl, rfl⟩ := Prod.mk.inj hstep
    simp only [UserController.createStep, htake, Option.getD_some]
    refine ⟨held_taken h (drops_ended (Or.inr rfl)) htake, fun _ v hv all hall w hw => ?_⟩
    obtain rfl : u = v := some.inj (hrem.symm.trans hv)
    rw [Directory.usersOf_withUsers husers, some.injEq] at hall
    rw [← hall, mem_filter] at hw
    simpa using hw.2
  | ended response => cases hrun

end

theorem held_start {calls : List CreateCall} (h : Held c d calls)
    (hpend : ∀ n, call.pendingUser n = none)
    (hroot : ∀ n, call.storesIn = some n → hasRoot d n = true)
    (hrem : call.Remembers) : Held c d (calls ++ [call]) := by
  have hpending : ∀ n, pending (calls ++ [call]) n = pending calls n := by
    intro n
    unfold pending
    rw [filterMap_append, filterMap_cons, hpend, filterMap_nil, append_nil]
  refine ⟨h.names, h.accounts, fun n a ha => ?_, fun x hx n hn => ?_, fun n u hu => ?_,
    fun n => ?_, fun x hx => ?_⟩
  · have hle := h.users n a ha
    unfold pendingBesidesRoot at hle ⊢
    rwa [hpending]
  · rw [hpending]
    rcases mem_append.mp hx with hx | hx
    · exact h.rooted x hx n hn
    · rw [mem_singleton] at hx
      subst hx
      cases hp : pending calls n with
      | cons u rest =>
        -- another call stores users there
        have hu : u ∈ pending calls n := hp ▸ mem_cons_self
        obtain ⟨y, hy, hyu⟩ := mem_filterMap.mp hu
        rw [← hp]
        exact h.rooted y hy n (storesIn_of_pending hyu)
      | nil =>
        have hthere := hroot n hn
        unfold hasRoot at hthere
        split at hthere
        · cases hthere
        · rename_i users husers
          obtain ⟨r, hr, hboth⟩ := any_eq_true.mp hthere
          obtain ⟨htype, hname⟩ := of_decide_eq_true hboth
          exact ⟨users, husers, r, hr, decide_eq_true htype, decide_eq_true hname, by simp⟩
  · rw [hpending] at hu
    exact h.present n u hu
  · rw [hpending]
    exact h.distinct n
  · rcases mem_append.mp hx with hx | hx
    · exact h.remembers x hx
    · rw [mem_singleton] at hx
      rwa [hx]

/-! ### Any number of calls -/

theorem split_at {calls : List CreateCall} {i : Nat} (h : calls[i]? = some call) :
    ∃ before after, calls = before ++ call :: after ∧
      ∀ next, calls.set i next = before ++ next :: after := by
  induction calls generalizing i with
  | nil => simp at h
  | cons x rest ih =>
    cases i with
    | zero =>
      rw [List.getElem?_cons_zero, some.injEq] at h
      exact ⟨[], rest, by rw [h, nil_append], fun _ => rfl⟩
    | succ i =>
      rw [List.getElem?_cons_succ] at h
      obtain ⟨before, after, rfl, hset⟩ := ih h
      refine ⟨x :: before, after, rfl, fun next => ?_⟩
      rw [set_cons_succ, hset, cons_append]

/-- There is room for each account that is about to be stored by a call that has counted, unless
another call has come in between. -/
def Room (c : AuthServerConfig) (s : CreateState) (crowded : Nat → Bool) : Prop :=
  ∀ i r phase saved, s.calls[i]? = some (.account r phase saved) → isCounted phase = true →
    crowded i = false → s.directory.accounts.length < maxAllowedAccounts c

/-- What the first count finds is not cut off below the limit. -/
theorem length_lt_of_count (hlimit : c.maxAccountLimit ≤ c.ldapSearchResultsSizeLimit)
    (h : AccountImpl.count c d < maxAllowedAccounts c) :
    d.accounts.length < maxAllowedAccounts c := by
  unfold AccountImpl.count LDAPUtils.maxResults at h
  unfold maxAllowedAccounts at h ⊢
  split at h
  · rename_i hnone
    rwa [hnone]
  · omega

theorem length_advance (hrem : call.Remembers) :
    (call.advance c t d).1.accounts.length ≤
      d.accounts.length + (call.storesAccount d).toNat := by
  have hsame : ∀ (n : Bytes) (f : List UserEntry → List UserEntry),
      (d.withUsers n f).accounts.length = d.accounts.length :=
    fun n f => length_withAccount n (f := fun a => { a with users := f a.users }) fun _ => rfl
  cases call with
  | account r phase saved => exact length_createStep saved hrem.2
  | user q body draws phase saved =>
    cases phase with
    | saveUser =>
      simp only [advance, UserController.createStep]
      split
      · exact Nat.le_refl _
      · split
        · rename_i d' hadd
          obtain ⟨users, -, -, -, rfl⟩ := Directory.addUser_eq_some.mp hadd
          exact (hsame _ _).le
        · exact Nat.le_refl _
    | deleteUser u =>
      simp only [advance, UserController.createStep]
      cases hdel : d.deleteUser q.accountName u.userId with
      | none => exact Nat.le_refl _
      | some d' =>
        obtain ⟨users, -, -, rfl⟩ := Directory.deleteUser_eq_some.mp hdel
        exact (hsame _ _).le
    | countUsers | findUser | recount u | ended response => exact Nat.le_refl _

theorem room_advance {s : CreateState} {crowded : Nat → Bool} {i : Nat}
    (hlimit : c.maxAccountLimit ≤ c.ldapSearchResultsSizeLimit) (h : Room c s crowded)
    (hcall : s.calls[i]? = some call) (hrem : call.Remembers) (answers : List CreateAnswer) :
    Room c ⟨(call.advance c t s.directory).1, s.calls.set i (call.advance c t s.directory).2, answers⟩
      (noteCrowded s (.advance i) crowded) := by
  intro j r phase saved hj hphase hfree
  obtain rfl | hne := eq_or_ne i j
  · obtain ⟨hlt, -⟩ := List.getElem?_eq_some_iff.mp hcall
    rw [List.getElem?_set_self hlt, some.injEq] at hj
    cases call with
    | user q body draws phase₀ saved₀ => cases hj
    | account r₀ phase₀ saved₀ =>
      obtain ⟨rfl, rfl, -⟩ := CreateCall.account.inj hj
      obtain ⟨hsame, hcounted | ⟨-, hcount⟩⟩ := counted_createStep hphase
      · have hcounting : (account r₀ phase₀ saved₀).countsAccounts = false := by
          cases phase₀ with
          | countAccounts => cases hcounted
          | _ => rfl
        simp only [noteCrowded, hcall, if_true, hcounting, Bool.not_false, Bool.and_true] at hfree
        exact (congrArg (·.accounts.length) hsame).trans_lt
          (h i r₀ phase₀ saved₀ hcall hcounted hfree)
      · exact (congrArg (·.accounts.length) hsame).trans_lt (length_lt_of_count hlimit hcount)
  · rw [List.getElem?_set_ne hne] at hj
    simp only [noteCrowded, hcall, hne, if_false, Bool.or_eq_false_iff] at hfree
    have hle := length_advance (c := c) (t := t) (d := s.directory) hrem
    rw [hfree.2] at hle
    exact hle.trans_lt (h j r phase saved hj hphase hfree.1)

/-- What every run keeps. -/
structure Fine (c : AuthServerConfig) (s : CreateState) (crowded : Nat → Bool) : Prop where
  held : Held c s.directory s.calls
  room : Room c s crowded
  clean : ∀ a ∈ s.answers, a.call.overLimit = true → LeavesNothing a

/-- A call that has just begun has not counted. -/
theorem room_start {s : CreateState} {crowded : Nat → Bool} (h : Room c s crowded)
    (hnew : ∀ r phase saved, call = .account r phase saved → isCounted phase = false) :
    Room c { s with calls := s.calls ++ [call] } crowded := by
  intro j r phase saved hj hphase hfree
  rw [List.getElem?_append] at hj
  split at hj
  · exact h j r phase saved hj hphase hfree
  · rw [hnew r phase saved (mem_singleton.mp (mem_of_getElem? hj)).symm] at hphase
    cases hphase

theorem fine_step {p p' : CreateState × (Nat → Bool)} {e : CreateEvent}
    (hlimit : c.maxAccountLimit ≤ c.ldapSearchResultsSizeLimit) (h : Fine c p.1 p.2)
    (hcounts : Counts c t p e) (hstep : Runs.observe (CreateState.step c t) noteCrowded p e = some p') :
    Fine c p'.1 p'.2 := by
  obtain ⟨s, crowded⟩ := p
  obtain ⟨s', crowded'⟩ := p'
  obtain ⟨hstep, rfl⟩ := Runs.observe_eq_some.mp hstep
  cases e with
  | createAccount r =>
    obtain rfl := some.inj hstep
    refine ⟨held_start h.held (fun _ => rfl) nofun ⟨fun _ => rfl, nofun⟩,
      room_start h.room fun _ _ _ hnew => ?_, h.clean⟩
    cases hnew
    rfl
  | createUser q body draws =>
    simp only [step] at hstep
    split at hstep
    · rename_i hroot
      obtain rfl := some.inj hstep
      refine ⟨held_start h.held (fun _ => rfl) (fun n hn => ?_) rfl,
        room_start h.room nofun, h.clean⟩
      rw [← some.inj hn]
      exact hroot
    · cases hstep
  | advance i =>
    simp only [step] at hstep
    split at hstep
    · cases hstep
    · rename_i call hcall
      split at hstep
      · cases hstep
      · rename_i hrun
        rw [Bool.not_eq_true] at hrun
        obtain rfl := some.inj hstep
        have hrem := h.held.remembers call (mem_of_getElem? hcall)
        obtain ⟨before, after, hcalls, hset⟩ := split_at hcall
        have hheld := h.held
        rw [hcalls] at hheld
        have hone : Held c (call.advance c t s.directory).1
              (before ++ (call.advance c t s.directory).2 :: after) ∧
            ((call.advance c t s.directory).2.overLimit = true →
              LeavesNothing ⟨(call.advance c t s.directory).2, (call.advance c t s.directory).1⟩) := by
          have hcount := hcounts call hcall
          cases call with
          | account r phase saved =>
            refine held_account hheld hrun (fun hstores => ?_) rfl
            refine h.room i r phase saved hcall ?_ (hcount hstores)
            cases phase with
            | saveAccount canonicalId => rfl
            | _ => cases hstores
          | user q body draws phase saved =>
            refine held_user hheld hrun (fun u hphase => ?_) rfl
            subst hphase
            exact hcount
        refine ⟨by rw [hset]; exact hone.1, room_advance hlimit h.room hcall hrem _, fun a ha => ?_⟩
        split at ha
        · rcases mem_append.mp ha with ha | ha
          · exact h.clean a ha
          · rw [mem_singleton] at ha
            rw [ha]
            exact hone.2
        · exact h.clean a ha

theorem limitsHold_of_fine {s : CreateState} {crowded : Nat → Bool} (h : Fine c s crowded) :
    LimitsHold c s := by
  refine ⟨fun hidle => ⟨h.held.accounts, fun a ha => ?_⟩, h.clean⟩
  have hnone : pending s.calls a.name = [] := by
    refine filterMap_eq_nil_iff.mpr fun call hcall => ?_
    have hended := all_eq_true.mp hidle call hcall
    cases call with
    | account r phase saved => rfl
    | user q body draws phase saved =>
      cases phase with
      | ended response => rfl
      | _ => cases hended
  have hle := h.held.users a.name a (Directory.findAccount_of_mem h.held.names ha)
  unfold pendingBesidesRoot at hle
  rwa [hnone] at hle

/-- **Accounts and users stay within their limits as long as no other account is stored between the
count of a call and its own account, and every second count of users that are too many finds too
many.** -/
theorem limitsHold_of_reachable (c : AuthServerConfig) (t : LdapTexts) (d : Directory)
    (hlimit : c.maxAccountLimit ≤ c.ldapSearchResultsSizeLimit)
    (hnames : (d.accounts.map (·.name)).Nodup) (hd : WithinLimits c d) {s : CreateState}
    {crowded : Nat → Bool}
    (h : Runs.Reachable (Runs.observe (CreateState.step c t) noteCrowded) (Counts c t)
      ({ directory := d }, fun _ => false) (s, crowded)) :
    LimitsHold c s := by
  have hstart : Fine c { directory := d } fun _ => false := by
    refine ⟨?_, nofun, fun a ha => absurd ha not_mem_nil⟩
    refine ⟨hnames, hd.accounts, fun n a ha => ?_, fun x hx => absurd hx not_mem_nil,
      fun n u hu => absurd hu not_mem_nil, fun _ => nodup_nil,
      fun x hx => absurd hx not_mem_nil⟩
    exact (hd.users a (mem_of_find?_eq_some ha)).trans (Nat.le_add_right _ _)
  exact limitsHold_of_fine (h.invariant (P := fun p => Fine c p.1 p.2) hstart
    fun _ _ _ => fine_step hlimit)

/-! ### Runs -/

instance instDecidableWithinLimits (d : Directory) : Decidable (WithinLimits c d) :=
  decidable_of_iff
    (d.accounts.length ≤ maxAllowedAccounts c ∧
      ∀ a ∈ d.accounts, (usersBesidesRoot a).length ≤ c.maxIAMUserLimit)
    ⟨fun h => ⟨h.1, h.2⟩, fun h => ⟨h.accounts, h.users⟩⟩

instance instDecidableFound (found : Except Thrown (List UserEntry)) (n : Nat) :
    Decidable (∃ users, found = .ok users ∧ n < users.length) :=
  match found with
  | .error _ => isFalse fun ⟨_, h, _⟩ => nomatch h
  | .ok users => decidable_of_iff (n < users.length) (by simp)

instance instDecidableCallCounts (d : Directory) (crowded : Bool) :
    ∀ call : CreateCall, Decidable (call.Counts c t d crowded)
  | .account request phase saved =>
    inferInstanceAs (Decidable ((account request phase saved).storesAccount d = true →
      crowded = false))
  | .user requestor body _ (.recount _) _ =>
    inferInstanceAs (Decidable (∀ users ∈ d.usersOf requestor.accountName,
      maxAllowedIAMUserlimit c < (users.filter isIamUser).length →
        ∃ found, UserImpl.findAll c t d requestor.accountName
          (UserController.countedPath body) = .ok found ∧
            maxAllowedIAMUserlimit c < found.length))
  | .user _ _ _ .countUsers _ | .user _ _ _ .findUser _ | .user _ _ _ .saveUser _
  | .user _ _ _ (.deleteUser _) _ | .user _ _ _ (.ended _) _ => isTrue trivial

instance instDecidableCounts (p : CreateState × (Nat → Bool)) : ∀ e, Decidable (Counts c t p e)
  | .createAccount _ | .createUser _ _ _ => isTrue trivial
  | .advance i =>
    inferInstanceAs (Decidable (∀ call ∈ p.1.calls[i]?, call.Counts c t p.1.directory (p.2 i)))

def sampleCreate (name : String) : AccountController.Create :=
  { name := ascii name
    email := ascii name ++ ascii "@mail"
    accountId := ascii name ++ ascii "-id"
    canonicalIds := [ascii name ++ ascii "-canonical"]
    rootUserId := ascii name ++ ascii "-root"
    accessKeyId := ascii name ++ ascii "-key"
    secretKey := ascii name ++ ascii "-secret" }

def createUserBody (name : String) : RequestBodyMap :=
  AuthRequestDecoder.parseRequestBody
    [(ascii "Action", ascii "CreateUser"), (ascii "UserName", ascii name)]

/-- An account with a root user. -/
def shop : Directory :=
  { accounts := [accountOf (ascii "shop") (ascii "1001") (ascii "shop-root")] }

/-- Two other accounts, the second of them counted when the first is stored but has no units yet,
and two users of the shop who are stored before anybody counts again. -/
def bankMillAnnAndBob : List CreateEvent :=
  [.createAccount (sampleCreate "bank"),
    .createUser shopRoot (createUserBody "ann") ⟨ascii "1", [], []⟩,
    .createUser shopRoot (createUserBody "bob") ⟨ascii "2", [], []⟩,
    .createAccount (sampleCreate "mill"),
    .advance 1, .advance 2, .advance 1, .advance 2, .advance 1, .advance 2] ++
  List.replicate 4 (.advance 0) ++ [.advance 3] ++ List.replicate 7 (.advance 0) ++
  [.advance 1, .advance 1, .advance 2]

theorem limitsHold_of_reachable_shop :
    ∃ p, Runs.run (Runs.observe (CreateState.step ⟨2, 1, 1000, []⟩ plainTexts) noteCrowded)
        ({ directory := shop }, fun _ => false) bankMillAnnAndBob = some p ∧
      p.1.idle = true ∧ p.1.directory.accounts.length = 2 ∧
      (p.1.answers.filter fun a => a.call.overLimit).length = 2 ∧
      LimitsHold ⟨2, 1, 1000, []⟩ p.1 := by
  have h : ((Runs.run (Runs.observe (CreateState.step ⟨2, 1, 1000, []⟩ plainTexts) noteCrowded)
      ({ directory := shop }, fun _ => false) bankMillAnnAndBob).map fun p =>
        (p.1.idle, p.1.directory.accounts.length,
          (p.1.answers.filter fun a => a.call.overLimit).length)) = some (true, 2, 2) := by
    decide +kernel
  obtain ⟨p, hp, he⟩ := map_eq_some_iff.mp h
  obtain ⟨hidle, he⟩ := Prod.mk.inj he
  obtain ⟨hlen, hover⟩ := Prod.mk.inj he
  refine ⟨p, hp, hidle, hlen, hover, ?_⟩
  exact limitsHold_of_reachable ⟨2, 1, 1000, []⟩ plainTexts shop (by decide +kernel)
    (by decide +kernel) (by decide +kernel)
    (Runs.reachable_of_run bankMillAnnAndBob .start (by decide +kernel) hp)

/-- Two accounts that are both stored after both have been counted. -/
def twoAccounts : List CreateEvent :=
  [.createAccount (sampleCreate "bank"), .createAccount (sampleCreate "mill")] ++
  (List.replicate 11 [CreateEvent.advance 0, .advance 1]).flatten ++ [.advance 0, .advance 1]

/-- Two users, the second with a path that the first one does not have. -/
def annAndBob : List CreateEvent :=
  [.createUser shopRoot (createUserBody "ann") ⟨ascii "1", [], []⟩] ++
  List.replicate 4 (.advance 0) ++
  [.createUser shopRoot
    (AuthRequestDecoder.parseRequestBody [(ascii "Action", ascii "CreateUser"),
      (ascii "UserName", ascii "bob"), (ascii "Path", ascii "/a/")]) ⟨ascii "2", [], []⟩] ++
  List.replicate 4 (.advance 1)

/-- With room for one account there are two, whose requests have both been turned away; and with
one user allowed there are two, though nothing happens at the same time. -/
theorem not_limitsHold_twoAccounts :
    (∃ s, WithinLimits ⟨1, 1, 1000, []⟩ {} ∧
      Runs.Reachable (CreateState.step ⟨1, 1, 1000, []⟩ plainTexts) (fun _ _ => True)
        { directory := {} } s ∧ ¬ LimitsHold ⟨1, 1, 1000, []⟩ s ∧
      s.idle = true ∧ s.directory.accounts.length = 2 ∧
      s.answers.all (fun a => a.call.overLimit) = true) ∧
    ∃ s, WithinLimits ⟨1, 1, 1000, []⟩ shop ∧
      Runs.Reachable (CreateState.step ⟨1, 1, 1000, []⟩ plainTexts) (fun _ _ => True)
        { directory := shop } s ∧ ¬ LimitsHold ⟨1, 1, 1000, []⟩ s := by
  refine ⟨?_, ?_⟩
  · have h : ((Runs.run (CreateState.step ⟨1, 1, 1000, []⟩ plainTexts) { directory := {} }
        twoAccounts).map fun s => (decide (WithinLimits ⟨1, 1, 1000, []⟩ s.directory), s.idle,
          s.directory.accounts.length, s.answers.all fun a => a.call.overLimit)) =
        some (false, true, 2, true) := by decide +kernel
    obtain ⟨s, hs, he⟩ := map_eq_some_iff.mp h
    simp only [Prod.mk.injEq, decide_eq_false_iff_not] at he
    obtain ⟨hmany, hidle, hlen, hover⟩ := he
    exact ⟨s, by decide +kernel,
      Runs.reachable_of_run twoAccounts .start (by decide +kernel) hs,
      fun hl => hmany (hl.settled hidle), hidle, hlen, hover⟩
  · have h : ((Runs.run (CreateState.step ⟨1, 1, 1000, []⟩ plainTexts) { directory := shop }
        annAndBob).map fun s => (decide (WithinLimits ⟨1, 1, 1000, []⟩ s.directory), s.idle)) =
        some (false, true) := by decide +kernel
    obtain ⟨s, hs, he⟩ := map_eq_some_iff.mp h
    simp only [Prod.mk.injEq, decide_eq_false_iff_not] at he
    exact ⟨s, by decide +kernel,
      Runs.reachable_of_run annAndBob .start (by decide +kernel) hs,
      fun hl => he.1 (hl.settled he.2)⟩

end

end IAMApi

end CortxS3

/-
What an IAM request can reach.

A requestor should have to do with his own account and nothing else, and with himself alone unless
he is its root user.  `beyond` is the part of the directory that is not his, and a request is
`Confined` when this part stays as it was, when what the response tells is his, and when there is a
response.

The authorizer compares names and the directory finds entries, and the two part in some places: a
key is looked up by its id among the keys of all accounts, a list of users shows all of them, a
name finds an entry that is spelled another way, and some entries lack an attribute that is read
without a look.  `Safe` says for each action what has to be true of the directory and of the body
for none of this to matter.
-/
import CortxS3.Auth.UserController
import CortxS3.Proofs.LDAPUtils

namespace CortxS3

open Option (bind_some some.inj some.injEq)
open List

namespace IAMApi

open AccessKeyController

/-! ### What is the requestor's -/

section

variable (d : Directory) (q : Requestor)

def ownUsers : List UserEntry :=
  match d.findAccount q.accountName with
  | none => []
  | some a => a.users

/-- The user with this id, and his keys, are the requestor's to see and to change. -/
def InReach (userId : Bytes) : Prop :=
  if q.hasRootUserCredentials then ∃ u ∈ ownUsers d q, u.userId = userId else userId = q.userId
deriving Decidable

/-- A user of the account who is not the requestor's to touch. -/
def isForeign (u : UserEntry) : Bool := !q.hasRootUserCredentials && u.userId ≠ q.userId

def beyondAccount (a : AccountEntry) : AccountEntry :=
  if a.name = q.accountName then { a with users := a.users.filter (isForeign q) } else a

/-- The part of a directory that is beyond the requestor's reach in `d`. -/
def beyond (d' : Directory) : Directory :=
  { accounts := d'.accounts.map (beyondAccount q)
    accessKeys := d'.accessKeys.filter fun k => ¬ InReach d q k.userId }

end

/-- The users that a response shows. -/
def Response.users : Response → List UserEntry
  | .userCreated user => [user]
  | .userList users => users
  | _ => []

/-- The keys that a response shows. -/
def Response.accessKeys : Response → List AccessKeyEntry
  | .accessKeyCreated _ key => [key]
  | .accessKeyList _ keys => keys
  | _ => []

/-- The request is answered, what is not the requestor's is unchanged and is not shown. -/
def Confined (d : Directory) (q : Requestor) : Outcome → Prop
  | .thrown _ => False
  | .answered d' r =>
    beyond d q d' = beyond d q d ∧
      (∀ u ∈ r.users, u ∈ ownUsers d' q ∧ isForeign q u = false) ∧
      ∀ k ∈ r.accessKeys, InReach d q k.userId

instance instDecidableConfined (d : Directory) (q : Requestor) :
    (o : Outcome) → Decidable (Confined d q o)
  | .thrown _ => instDecidableFalse
  | .answered d' r =>
    inferInstanceAs (Decidable (beyond d q d' = beyond d q d ∧
      (∀ u ∈ r.users, u ∈ ownUsers d' q ∧ isForeign q u = false) ∧
      ∀ k ∈ r.accessKeys, InReach d q k.userId))

/-- The requestor is a user of the directory, under the account he is said to belong to. -/
def Authenticated (d : Directory) (q : Requestor) : Prop :=
  ∃ a ∈ d.accounts, a.name = q.accountName ∧ a.accountId = q.accountId ∧
    ∃ u ∈ a.users, u.userId = q.userId ∧ u.name = q.name
deriving Decidable

/-! ### When a request is safe -/

section

variable (c : AuthServerConfig) (t : LdapTexts) (draws : Draws)
variable (d : Directory) (q : Requestor) (body : RequestBodyMap)

/-- A search for a user does not meet an entry without a path. -/
def FindsReadable (userName : Bytes) : Prop :=
  UserImpl.find t d q.accountName userName ≠ .error .runtime

/-- The entry that a key's id names, if there is one, is the requestor's.  Where `status` is given,
an entry that has it already does no harm. -/
def KeyInReach (accessKeyId : Bytes) (status : Option Bool) : Prop :=
  ∀ id, t.accessKeyDN accessKeyId = some id →
    ∀ k ∈ d.accessKeys, k.accessKeyId = id → InReach d q k.userId ∨ some k.active = status

namespace AccessKeyController

/-- The user that is found is the requestor's, or gets no key. -/
def SafeCreate : Prop :=
  FindsReadable t d q (userName q body) ∧
    ∀ user, UserImpl.find t d q.accountName (userName q body) = .ok (some user) →
      ∀ count, AccessKeyImpl.getCount c d user.userId = .ok count → count ≠ 2 →
        (∀ k ∈ d.accessKeys, k.accessKeyId ≠ draws.accessKeyId) → InReach d q user.userId

/-- Where the body names no user, the id alone decides. -/
def SafeDelete : Prop :=
  ∀ accessKey,
    AccessKeyImpl.find t d (format (body.get (ascii "AccessKeyId"))) = .ok (some accessKey) →
      match body.get (ascii "UserName") with
      | none => KeyInReach t d q accessKey.accessKeyId none
      | some name =>
        FindsReadable t d q name ∧
          ∀ user, UserImpl.find t d q.accountName name = .ok (some user) →
            accessKey.userId = user.userId → KeyInReach t d q accessKey.accessKeyId none

/-- The user that is found is the requestor's, or has no keys. -/
def SafeList : Prop :=
  FindsReadable t d q (userName q body) ∧
    ∀ user, UserImpl.find t d q.accountName (userName q body) = .ok (some user) →
      ∀ keys, AccessKeyImpl.findAllPermanent c d user.userId = .ok keys →
        ∀ k ∈ keys, InReach d q k.userId

/-- Nothing is to be done, or the key is the requestor's. -/
def SafeUpdateKey (accessKey : AccessKeyEntry) (user : UserEntry) : Prop :=
  user.name ≠ ascii "root" → accessKey.active ≠ newStatus body →
    KeyInReach t d q accessKey.accessKeyId (some (newStatus body))

/-- Where the body names no user, the owner of the key has to be a user of the account. -/
def SafeUpdate : Prop :=
  ∀ accessKey,
    AccessKeyImpl.find t d (format (body.get (ascii "AccessKeyId"))) = .ok (some accessKey) →
      match body.get (ascii "UserName") with
      | none =>
        match UserImpl.findByUserId d q.accountName accessKey.userId with
        | .error e => e = .dataAccess
        | .ok none => False
        | .ok (some user) => SafeUpdateKey t d q body accessKey user
      | some name =>
        FindsReadable t d q name ∧
          ∀ user, UserImpl.find t d q.accountName name = .ok (some user) →
            accessKey.userId = user.userId → SafeUpdateKey t d q body accessKey user

end AccessKeyController

namespace UserController

/-- The body has a user name, and a new user is the requestor's or is not stored. -/
def SafeCreate : Prop :=
  let pathPrefix := (body.get (ascii "Path")).getD (ascii "/")
  let userName := format (body.get (ascii "UserName"))
  UserImpl.findAll c t d q.accountName pathPrefix ≠ .error .runtime ∧
    ∀ users, UserImpl.findAll c t d q.accountName pathPrefix = .ok users →
      users.length < maxAllowedIAMUserlimit c →
        FindsReadable t d q userName ∧
          (UserImpl.find t d q.accountName userName = .ok none →
            ∃ name, body.get (ascii "UserName") = some name ∧
              (isForeign q (newUser draws q body name) = false ∨
                d.addUser q.accountName (newUser draws q body name) = none))

/-- The user that is found is the requestor's, or has keys. -/
def SafeDelete : Prop :=
  let userName := format (body.get (ascii "UserName"))
  FindsReadable t d q userName ∧
    ∀ user, UserImpl.find t d q.accountName userName = .ok (some user) →
      AccessKeyImpl.getCount c d user.userId = .ok 0 → isForeign q user = false

/-- All the users that are listed are the requestor's. -/
def SafeList : Prop :=
  let pathPrefix := (body.get (ascii "PathPrefix")).getD (ascii "/")
  UserImpl.findAll c t d q.accountName pathPrefix ≠ .error .runtime ∧
    ∀ users, UserImpl.findAll c t d q.accountName pathPrefix = .ok users →
      ∀ u ∈ users, u.name ≠ ascii "root" → isForeign q u = false

/-- The user is the requestor's, or no entry changes. -/
def SafeModify (user : UserEntry) (changes : UserChanges) : Prop :=
  d.modifyUser q.accountName user.userId changes = none ∨ isForeign q user = false ∨
    ∀ u ∈ ownUsers d q, u.userId = user.userId → changes.apply u = u

/-- A user who gets another name has an ARN. -/
def SafeUpdateUser (user : UserEntry) (newUserName newPath : Option Bytes) : Prop :=
  match newUserName with
  | none => SafeModify d q user { path := newPath }
  | some name =>
    ∃ arn, user.arn = some arn ∧
      SafeModify d q user { name := some name, arn := some (renamed arn name), path := newPath }

/-- The names that are looked for are found without an exception, and what is found may be
changed. -/
def SafeUpdate : Prop :=
  let userName := format (body.get (ascii "UserName"))
  let newUserName := body.get (ascii "NewUserName")
  let newPath := body.get (ascii "NewPath")
  ¬ (newUserName = none ∧ newPath = none) →
    ¬ (body.get (ascii "UserName") = some (ascii "root") ∧ newUserName ≠ none) →
      FindsReadable t d q userName ∧
        ∀ user, UserImpl.find t d q.accountName userName = .ok (some user) →
          (∀ name, newUserName = some name → FindsReadable t d q name) ∧
            ((∀ name, newUserName = some name →
                UserImpl.find t d q.accountName name = .ok none) →
              SafeUpdateUser d q user newUserName newPath)

end UserController

/-- When the action does what it should: see the actions. -/
def Safe : Action → Prop
  | .createAccessKey => AccessKeyController.SafeCreate c t draws d q body
  | .deleteAccessKey => AccessKeyController.SafeDelete t d q body
  | .listAccessKeys => AccessKeyController.SafeList c t d q body
  | .updateAccessKey => AccessKeyController.SafeUpdate t d q body
  | .createUser => UserController.SafeCreate c t draws d q body
  | .deleteUser => UserController.SafeDelete c t d q body
  | .listUsers => UserController.SafeList c t d q body
  | .updateUser => UserController.SafeUpdate t d q body

end

/-! ### What a request changes -/

section

variable {d d' : Directory} {q : Requestor} {users : List UserEntry}

theorem ownUsers_eq (h : d.usersOf q.accountName = some users) : ownUsers d q = users := by
  obtain ⟨a, ha, -, rfl⟩ := Directory.usersOf_eq_some.mp h
  simp [ownUsers, ha]

variable {u : UserEntry}

theorem isForeign_eq_false (hu : u ∈ ownUsers d q) :
    isForeign q u = false ↔ InReach d q u.userId := by
  unfold isForeign InReach
  by_cases hroot : q.hasRootUserCredentials = true
  · simp only [hroot, Bool.not_true, Bool.false_and, if_true, true_iff]
    exact ⟨u, hu, rfl⟩
  · simp [hroot]

theorem map_eq_self {α : Type} {f : α → α} {l : List α} : l.map f = l ↔ ∀ x ∈ l, f x = x := by
  refine Iff.trans ?_ (map_inj_left (g := id))
  rw [map_id]

/-- An operation on the users of the account is noticed by those who are not the requestor's. -/
theorem beyond_withUsers (h : d.usersOf q.accountName = some users)
    (f : List UserEntry → List UserEntry) :
    beyond d q (d.withUsers q.accountName f) = beyond d q d ↔
      (f users).filter (isForeign q) = users.filter (isForeign q) := by
  have hmap := Directory.map_withUsers h f (beyondAccount q)
  obtain ⟨a, ha, -, rfl⟩ := Directory.usersOf_eq_some.mp h
  have hname : a.name = q.accountName := by simpa using List.find?_some ha
  simp only [ha, some.injEq, exists_eq_left', beyondAccount, hname, if_true] at hmap
  have hshape : beyond d q (d.withUsers q.accountName f) = beyond d q d ↔
      (d.withUsers q.accountName f).accounts.map (beyondAccount q) =
        d.accounts.map (beyondAccount q) := by
    simp [beyond, Directory.withUsers, Directory.withAccount]
  rw [hshape, hmap]
  simp

theorem beyond_addUser (h : d.addUser q.accountName u = some d') :
    beyond d q d' = beyond d q d ↔ isForeign q u = false := by
  obtain ⟨users, hu, -, -, rfl⟩ := Directory.addUser_eq_some.mp h
  rw [beyond_withUsers hu, filter_append, append_right_eq_self, filter_eq_nil_iff]
  simp

variable {userId : Bytes}

theorem beyond_deleteUser (h : d.deleteUser q.accountName userId = some d') :
    beyond d q d' = beyond d q d ↔
      ∀ u ∈ ownUsers d q, u.userId = userId → isForeign q u = false := by
  obtain ⟨users, hu, -, rfl⟩ := Directory.deleteUser_eq_some.mp h
  rw [beyond_withUsers hu, ownUsers_eq hu, filter_filter]
  constructor
  · intro he u hmem hid
    by_contra hf
    rw [Bool.not_eq_false] at hf
    have hin : u ∈ users.filter (isForeign q) := mem_filter.mpr ⟨hmem, hf⟩
    rw [← he] at hin
    simp [hid] at hin
  · intro hown
    refine filter_congr fun u hmem => ?_
    by_cases hid : u.userId = userId
    · simp [hown u hmem hid]
    · simp [hid]

theorem isForeign_apply (q : Requestor) (changes : UserChanges) (u : UserEntry) :
    isForeign q (changes.apply u) = isForeign q u := rfl

theorem beyond_modifyUser {changes : UserChanges}
    (h : d.modifyUser q.accountName userId changes = some d') :
    beyond d q d' = beyond d q d ↔
      ∀ u ∈ ownUsers d q, u.userId = userId → isForeign q u = false ∨ changes.apply u = u := by
  obtain ⟨users, -, hu, -, -, rfl⟩ := Directory.modifyUser_eq_some.mp h
  rw [beyond_withUsers hu, ownUsers_eq hu, filter_map]
  have hsame : (isForeign q ∘ fun u : UserEntry =>
      if u.userId = userId then changes.apply u else u) = isForeign q := by
    funext u
    by_cases hid : u.userId = userId
    · simp [hid, isForeign_apply]
    · simp [hid]
  rw [hsame]
  rw [map_eq_self]
  constructor
  · intro he u hmem hid
    by_cases hf : isForeign q u = false
    · exact Or.inl hf
    · have happly := he u (mem_filter.mpr ⟨hmem, by simpa using hf⟩)
      rw [if_pos hid] at happly
      exact Or.inr happly
  · intro he u hmem
    obtain ⟨hmem, hf⟩ := mem_filter.mp hmem
    by_cases hid : u.userId = userId
    · rw [if_pos hid]
      rcases he u hmem hid with h | h
      · simp [h] at hf
      · exact h
    · exact if_neg hid

theorem beyond_accessKeys (keys : List AccessKeyEntry) :
    beyond d q { d with accessKeys := keys } = beyond d q d ↔
      keys.filter (fun k => ¬ InReach d q k.userId) =
        d.accessKeys.filter fun k => ¬ InReach d q k.userId := by
  simp [beyond]

theorem beyond_addAccessKey {k : AccessKeyEntry} (h : d.addAccessKey k = some d') :
    beyond d q d' = beyond d q d ↔ InReach d q k.userId := by
  obtain ⟨-, rfl⟩ := Directory.addAccessKey_eq_some.mp h
  rw [beyond_accessKeys, filter_append, append_right_eq_self, filter_eq_nil_iff]
  simp

variable {id : Bytes}

theorem beyond_deleteAccessKey (h : d.deleteAccessKey id = some d') :
    beyond d q d' = beyond d q d ↔
      ∀ k ∈ d.accessKeys, k.accessKeyId = id → InReach d q k.userId := by
  obtain ⟨-, rfl⟩ := Directory.deleteAccessKey_eq_some.mp h
  rw [beyond_accessKeys, filter_filter]
  constructor
  · intro he k hmem hid
    by_contra hreach
    have hin : k ∈ d.accessKeys.filter fun k => ¬ InReach d q k.userId :=
      mem_filter.mpr ⟨hmem, by simpa using hreach⟩
    rw [← he] at hin
    simp [hid] at hin
  · intro hown
    refine filter_congr fun k hmem => ?_
    by_cases hid : k.accessKeyId = id
    · simp [hown k hmem hid]
    · simp [hid]

theorem beyond_modifyAccessKey {active : Bool} (h : d.modifyAccessKey id active = some d') :
    beyond d q d' = beyond d q d ↔
      ∀ k ∈ d.accessKeys, k.accessKeyId = id → InReach d q k.userId ∨ k.active = active := by
  obtain ⟨-, rfl⟩ := Directory.modifyAccessKey_eq_some.mp h
  rw [beyond_accessKeys, filter_map]
  have hsame : ((fun k : AccessKeyEntry => decide ¬ InReach d q k.userId) ∘ fun k =>
      if k.accessKeyId = id then { k with active := active } else k) =
        fun k => decide ¬ InReach d q k.userId := by
    funext k
    by_cases hid : k.accessKeyId = id
    · simp [hid]
    · simp [hid]
  rw [hsame]
  refine map_eq_self.trans ⟨fun he k hmem hid => ?_, fun he k hmem => ?_⟩
  · by_cases hreach : InReach d q k.userId
    · exact Or.inl hreach
    · have hk := he k (mem_filter.mpr ⟨hmem, by simpa using hreach⟩)
      rw [if_pos hid] at hk
      exact Or.inr (congrArg AccessKeyEntry.active hk).symm
  · obtain ⟨hmem, hreach⟩ := mem_filter.mp hmem
    by_cases hid : k.accessKeyId = id
    · rcases he k hmem hid with h | h
      · simp [h] at hreach
      · rw [if_pos hid, ← h]
    · simp [hid]

end

/-! ### The shape of an operation -/

section

variable {d : Directory} {q : Requestor}

theorem confined_silent {r : Response} (hu : r.users = []) (hk : r.accessKeys = []) :
    Confined d q (.answered d r) := by
  simp [Confined, hu, hk]

variable {α : Type}

theorem confined_catching {call : Except Thrown α} {next : α → Outcome} :
    Confined d q (catching d call next) ↔
      call ≠ .error .runtime ∧ ∀ a, call = .ok a → Confined d q (next a) := by
  unfold catching
  rcases call with (_ | _) | a
  · simpa using confined_silent rfl rfl
  · simp [Confined]
  · simp

variable {change : Option Directory}

theorem confined_changing {next : Directory → Outcome} :
    Confined d q (changing d change next) ↔ ∀ d', change = some d' → Confined d q (next d') := by
  unfold changing
  cases change with
  | none => simpa using confined_silent rfl rfl
  | some d' => simp

theorem confined_found {call : Except Thrown (Option α)} {next : Option α → Outcome}
    (hnone : Confined d q (next none)) :
    Confined d q (catching d call next) ↔
      call ≠ .error .runtime ∧ ∀ a, call = .ok (some a) → Confined d q (next (some a)) := by
  rw [confined_catching]
  refine and_congr_right fun _ => ⟨fun h a ha => h (some a) ha, fun h found hfound => ?_⟩
  cases found with
  | none => exact hnone
  | some a => exact h a hfound

theorem confined_done :
    Confined d q (changing d change fun d' => .answered d' .done) ↔
      ∀ d', change = some d' → beyond d q d' = beyond d q d := by
  rw [confined_changing]
  simp [Confined, Response.users, Response.accessKeys]

end

/-! ### Access keys -/

section

variable {c : AuthServerConfig} {t : LdapTexts} {draws : Draws}
variable {d : Directory} {q : Requestor} {body : RequestBodyMap}

variable {key : AccessKeyEntry}

theorem confined_delete_accessKey :
    Confined d q (deleteKey t d key) ↔ KeyInReach t d q key.accessKeyId none := by
  unfold deleteKey AccessKeyImpl.delete
  rw [confined_done]
  unfold KeyInReach
  cases hdn : t.accessKeyDN key.accessKeyId with
  | none => simp
  | some id =>
    simp only [bind_some, some.injEq, forall_eq', reduceCtorEq, or_false]
    constructor
    · intro h k hk hid
      have hdel : d.deleteAccessKey id = some _ :=
        Directory.deleteAccessKey_eq_some.mpr ⟨⟨k, hk, hid⟩, rfl⟩
      exact (beyond_deleteAccessKey hdel).mp (h _ hdel) k hk hid
    · intro h d' hdel
      exact (beyond_deleteAccessKey hdel).mpr h

theorem confined_update_accessKey {user : UserEntry} :
    Confined d q (updateKey t d body key user) ↔ SafeUpdateKey t d q body key user := by
  unfold updateKey SafeUpdateKey
  by_cases hroot : user.name = ascii "root"
  · rw [if_pos hroot]
    exact iff_of_true (confined_silent rfl rfl) fun h => absurd hroot h
  rw [if_neg hroot]
  by_cases hsame : key.active = newStatus body
  · rw [if_pos hsame]
    exact iff_of_true (confined_silent rfl rfl) fun _ h => absurd hsame h
  rw [if_neg hsame, confined_done]
  simp only [hroot, hsame, ne_eq, not_false_eq_true, true_imp_iff]
  unfold AccessKeyImpl.update KeyInReach
  cases hdn : t.accessKeyDN key.accessKeyId with
  | none => simp
  | some id =>
    simp only [bind_some, some.injEq, forall_eq']
    constructor
    · intro h k hk hid
      have hmod : d.modifyAccessKey id (newStatus body) = some _ :=
        Directory.modifyAccessKey_eq_some.mpr ⟨⟨k, hk, hid⟩, rfl⟩
      exact (beyond_modifyAccessKey hmod).mp (h _ hmod) k hk hid
    · intro h d' hmod
      exact (beyond_modifyAccessKey hmod).mpr h

variable {userId : Bytes}

theorem getCount_readable : AccessKeyImpl.getCount c d userId ≠ .error .runtime := by
  unfold AccessKeyImpl.getCount
  split
  · simp
  · simp

theorem findAllPermanent_readable :
    AccessKeyImpl.findAllPermanent c d userId ≠ .error .runtime := by
  unfold AccessKeyImpl.findAllPermanent
  split
  · simp
  · simp

theorem find_accessKey_readable {accessKeyId : Bytes} :
    AccessKeyImpl.find t d accessKeyId ≠ .error .runtime := by
  unfold AccessKeyImpl.find
  split
  · simp
  · simp

theorem confined_createAccessKey :
    Confined d q (create c t draws d q body) ↔ SafeCreate c t draws d q body := by
  unfold create SafeCreate FindsReadable
  rw [confined_found (confined_silent rfl rfl)]
  refine and_congr_right fun _ => forall₂_congr fun user _ => ?_
  simp only [confined_catching, getCount_readable, ne_eq, not_false_eq_true, true_and]
  refine forall₂_congr fun count _ => ?_
  by_cases htwo : count = 2
  · simp only [htwo, if_true, not_true_eq_false, false_imp_iff, iff_true]
    exact confined_silent rfl rfl
  simp only [htwo, if_false, not_false_eq_true, true_imp_iff, confined_changing]
  constructor
  · intro h hfree
    have hadd : d.addAccessKey (newAccessKey draws user) = some _ :=
      Directory.addAccessKey_eq_some.mpr ⟨hfree, rfl⟩
    exact (h _ hadd).2.2 (newAccessKey draws user)
      (by simp [Response.accessKeys])
  · intro h d' hadd
    have hreach := h (Directory.addAccessKey_eq_some.mp hadd).1
    refine ⟨(beyond_addAccessKey hadd).mpr hreach, by simp [Response.users], ?_⟩
    intro k hk
    obtain rfl := mem_singleton.mp hk
    exact hreach

theorem confined_deleteAccessKey : Confined d q (delete t d q body) ↔ SafeDelete t d q body := by
  unfold delete SafeDelete
  rw [confined_found (confined_silent rfl rfl), and_iff_right find_accessKey_readable]
  refine forall₂_congr fun key _ => ?_
  cases body.get (ascii "UserName") with
  | none => exact confined_delete_accessKey
  | some name =>
    refine (confined_found (confined_silent rfl rfl)).trans ?_
    refine and_congr_right fun _ => forall₂_congr fun user _ => ?_
    by_cases howner : key.userId = user.userId
    · simp only [howner, ne_eq, not_true_eq_false, if_false, true_imp_iff]
      exact confined_delete_accessKey
    · simp only [howner, ne_eq, not_false_eq_true, if_true, false_imp_iff, iff_true]
      exact confined_silent rfl rfl

theorem confined_listAccessKeys : Confined d q (list c t d q body) ↔ SafeList c t d q body := by
  unfold list SafeList FindsReadable
  rw [confined_found (confined_silent rfl rfl)]
  refine and_congr_right fun _ => forall₂_congr fun user _ => ?_
  rw [confined_catching, and_iff_right findAllPermanent_readable]
  refine forall₂_congr fun keys _ => ⟨fun h => h.2.2, fun h => ⟨rfl, ?_, h⟩⟩
  simp [Response.users]

theorem confined_updateAccessKey : Confined d q (update t d q body) ↔ SafeUpdate t d q body := by
  unfold update SafeUpdate
  rw [confined_found (confined_silent rfl rfl), and_iff_right find_accessKey_readable]
  refine forall₂_congr fun key _ => ?_
  cases body.get (ascii "UserName") with
  | some name =>
    refine (confined_found (confined_silent rfl rfl)).trans ?_
    refine and_congr_right fun _ => forall₂_congr fun user _ => ?_
    by_cases howner : key.userId = user.userId
    · simp only [howner, ne_eq, not_true_eq_false, if_false, true_imp_iff]
      exact confined_update_accessKey
    · simp only [howner, ne_eq, not_false_eq_true, if_true, false_imp_iff, iff_true]
      exact confined_silent rfl rfl
  | none =>
    show Confined d q (catching d (UserImpl.findByUserId d q.accountName key.userId) _) ↔ _
    rcases UserImpl.findByUserId d q.accountName key.userId with (_ | _) | _ | user
    · exact iff_of_true (confined_silent rfl rfl) rfl
    · simp [catching, Confined]
    · simp [catching, Confined]
    · exact confined_update_accessKey

end

/-! ### Users -/

section

variable {c : AuthServerConfig} {t : LdapTexts} {draws : Draws}
variable {d d' : Directory} {q : Requestor} {body : RequestBodyMap}

variable {user : UserEntry}

theorem find_eq_some {userName : Bytes}
    (h : UserImpl.find t d q.accountName userName = .ok (some user)) :
    d.usersOf q.accountName = some (ownUsers d q) ∧
      ∃ u ∈ ownUsers d q, user = { u with name := userName } := by
  unfold UserImpl.find at h
  cases hu : d.usersOf q.accountName with
  | none => simp [hu] at h
  | some users =>
    cases hf : t.commonName userName with
    | none => simp [hu, hf] at h
    | some filter =>
      simp only [hu, hf] at h
      cases hfind : users.find? filter with
      | none => simp [hfind] at h
      | some u =>
        simp only [hfind] at h
        split at h
        · cases h
        · rw [ownUsers_eq hu]
          exact ⟨rfl, u, mem_of_find?_eq_some hfind, (some.inj (Except.ok.inj h)).symm⟩

theorem results_eq {α : Type} {found : List α} (h : LDAPUtils.exceeded c found = false) :
    LDAPUtils.results c found = found := by
  unfold LDAPUtils.exceeded at h
  unfold LDAPUtils.results
  by_cases hzero : LDAPUtils.maxResults c = 0
  · rw [if_pos hzero]
  · rw [if_neg hzero]
    refine take_of_length_le ?_
    simpa [hzero] using h

variable {pathPrefix : Bytes} {users : List UserEntry}

theorem findAll_eq_ok :
    UserImpl.findAll c t d q.accountName pathPrefix = .ok users ↔
      ∃ all filter, d.usersOf q.accountName = some all ∧ t.pathPrefix pathPrefix = some filter ∧
        users = all.filter filter ∧ LDAPUtils.exceeded c users = false ∧
          ∀ u ∈ users, u.path ≠ none ∧ u.arn ≠ none := by
  unfold UserImpl.findAll
  cases hu : d.usersOf q.accountName with
  | none => simp
  | some all =>
    cases hf : t.pathPrefix pathPrefix with
    | none => simp
    | some filter =>
      simp only [some.injEq, exists_and_left, exists_eq_left']
      constructor
      · intro h
        split at h
        · cases h
        rename_i hread
        split at h
        · cases h
        rename_i hlimit
        obtain rfl := Except.ok.inj h
        rw [Bool.not_eq_true] at hlimit
        refine ⟨rfl, hlimit, fun u hmem => ?_⟩
        rw [results_eq hlimit] at hread
        rw [← not_or]
        exact fun hbad => hread (any_eq_true.mpr ⟨u, hmem, by simpa using hbad⟩)
      · rintro ⟨rfl, hlimit, hread⟩
        rw [results_eq hlimit, if_neg, if_neg (by simp [hlimit])]
        rw [any_eq_true]
        rintro ⟨u, hmem, hbad⟩
        have hu := hread u hmem
        simp [hu.1, hu.2] at hbad

theorem findAll_addUser (hread : user.path ≠ none ∧ user.arn ≠ none)
    (hall : UserImpl.findAll c t d q.accountName pathPrefix = .ok users)
    (hadd : d.addUser q.accountName user = some d') :
    UserImpl.findAll c t d' q.accountName pathPrefix = .error .dataAccess ∨
      ∃ users', UserImpl.findAll c t d' q.accountName pathPrefix = .ok users' ∧
        users'.length ≤ users.length + 1 := by
  obtain ⟨all, filter, hu, hf, rfl, hlimit, hgood⟩ := findAll_eq_ok.mp hall
  obtain ⟨all', hu', -, -, rfl⟩ := Directory.addUser_eq_some.mp hadd
  obtain rfl : all = all' := some.inj (hu.symm.trans hu')
  have hlong := Directory.usersOf_withUsers hu fun users => users ++ [user]
  have hgood' : ∀ u ∈ (all ++ [user]).filter filter, u.path ≠ none ∧ u.arn ≠ none := by
    intro u hmem
    obtain ⟨hmem, hfu⟩ := mem_filter.mp hmem
    rcases mem_append.mp hmem with hmem | hmem
    · exact hgood u (mem_filter.mpr ⟨hmem, hfu⟩)
    · rw [mem_singleton.mp hmem]
      exact hread
  by_cases hlimit' : LDAPUtils.exceeded c ((all ++ [user]).filter filter) = true
  · refine Or.inl ?_
    unfold UserImpl.findAll
    simp only [hlong, hf]
    rw [if_neg, if_pos hlimit']
    rw [any_eq_true]
    rintro ⟨u, hmem, hbad⟩
    have hu := hgood' u ?_
    · simp [hu.1, hu.2] at hbad
    · unfold LDAPUtils.results at hmem
      split at hmem
      · exact hmem
      · exact mem_of_mem_take hmem
  · refine Or.inr ⟨_, findAll_eq_ok.mpr ⟨_, filter, hlong, hf, rfl, by simpa using hlimit', hgood'⟩,
      ?_⟩
    rw [filter_append, length_append]
    exact Nat.add_le_add_left (length_filter_le _ _) _

end

/-! ### The operations on users -/

section

variable {c : AuthServerConfig} {t : LdapTexts} {draws : Draws}
variable {d : Directory} {q : Requestor} {body : RequestBodyMap}

variable {user : UserEntry}

/-- A user with a name that is not taken is stored, if the directory takes him, and stays. -/
theorem confined_store {pathPrefix : Bytes} {users : List UserEntry}
    (hread : user.path ≠ none ∧ user.arn ≠ none)
    (hall : UserImpl.findAll c t d q.accountName pathPrefix = .ok users)
    (hfew : users.length < UserController.maxAllowedIAMUserlimit c) :
    Confined d q (changing d (d.addUser q.accountName user) fun d' =>
        UserController.recount c t d' q pathPrefix user) ↔
      isForeign q user = false ∨ d.addUser q.accountName user = none := by
  rw [confined_changing]
  cases hadd : d.addUser q.accountName user with
  | none => simp
  | some d' =>
    simp only [some.injEq, forall_eq', reduceCtorEq, or_false]
    unfold UserController.recount
    rcases findAll_addUser hread hall hadd with hfull | ⟨users', hall', hlen⟩
    · simp [catching, hfull, Confined, Response.users, Response.accessKeys, beyond_addUser hadd]
    · have hfew' : ¬ UserController.maxAllowedIAMUserlimit c < users'.length := by omega
      have hmem : user ∈ ownUsers d' q := by
        obtain ⟨all, hu, -, -, rfl⟩ := Directory.addUser_eq_some.mp hadd
        rw [ownUsers_eq (Directory.usersOf_withUsers hu _)]
        simp
      simp [catching, hall', hfew', Confined, Response.users, Response.accessKeys,
        beyond_addUser hadd, hmem]

theorem newUser_readable (name : Bytes) :
    (UserController.newUser draws q body name).path ≠ none ∧
      (UserController.newUser draws q body name).arn ≠ none := by
  simp [UserController.newUser]

theorem confined_createUser :
    Confined d q (UserController.create c t draws d q body) ↔
      UserController.SafeCreate c t draws d q body := by
  unfold UserController.create UserController.SafeCreate FindsReadable
  rw [confined_catching]
  refine and_congr_right fun _ => forall₂_congr fun users hall => ?_
  by_cases hmany : UserController.maxAllowedIAMUserlimit c ≤ users.length
  · rw [if_pos hmany]
    exact iff_of_true (confined_silent rfl rfl) fun h => absurd h (Nat.not_lt.mpr hmany)
  have hfew := Nat.not_le.mp hmany
  rw [if_neg hmany]
  simp only [hfew, true_imp_iff, confined_catching]
  refine and_congr_right fun _ => ⟨fun h hnone => ?_, fun h found hfound => ?_⟩
  · have hnext := h none hnone
    cases hname : body.get (ascii "UserName") with
    | none => simp [hname, Confined] at hnext
    | some name =>
      simp only [hname] at hnext
      exact ⟨name, rfl, (confined_store (newUser_readable name) hall hfew).mp hnext⟩
  · cases found with
    | some user => exact confined_silent rfl rfl
    | none =>
      obtain ⟨name, hname, hstore⟩ := h hfound
      simp only [hname]
      exact (confined_store (newUser_readable name) hall hfew).mpr hstore

theorem confined_deleteUser :
    Confined d q (UserController.delete c t d q body) ↔ UserController.SafeDelete c t d q body := by
  unfold UserController.delete UserController.SafeDelete FindsReadable
  rw [confined_found (confined_silent rfl rfl)]
  refine and_congr_right fun _ => forall₂_congr fun user hfound => ?_
  rw [confined_catching, and_iff_right getCount_readable]
  obtain ⟨hall, u, hu, rfl⟩ := find_eq_some hfound
  constructor
  · intro h hcount
    have hdel : d.deleteUser q.accountName u.userId = some _ :=
      Directory.deleteUser_eq_some.mpr ⟨_, hall, ⟨u, hu, rfl⟩, rfl⟩
    exact (beyond_deleteUser hdel).mp (confined_done.mp (h 0 hcount) _ hdel) u hu rfl
  · intro h count hcount
    by_cases hpos : 0 < count
    · rw [if_pos hpos]
      exact confined_silent rfl rfl
    obtain rfl : count = 0 := by omega
    rw [if_neg hpos, confined_done]
    intro d' hdel
    refine (beyond_deleteUser hdel).mpr fun v hv hid => ?_
    rw [isForeign_eq_false hv, hid]
    exact (isForeign_eq_false hu).mp (h hcount)

theorem confined_listUsers :
    Confined d q (UserController.list c t d q body) ↔ UserController.SafeList c t d q body := by
  unfold UserController.list UserController.SafeList
  rw [confined_catching]
  refine and_congr_right fun _ => forall₂_congr fun users hall => ?_
  obtain ⟨all, filter, hu, -, rfl, -, -⟩ := findAll_eq_ok.mp hall
  constructor
  · intro h u hmem hname
    refine (h.2.1 u ?_).2
    simpa [Response.users, hname] using hmem
  · intro h
    refine ⟨rfl, fun u hmem => ?_, by simp [Response.accessKeys]⟩
    obtain ⟨hmem, hname⟩ := mem_filter.mp hmem
    refine ⟨?_, h u hmem (by simpa using hname)⟩
    rw [ownUsers_eq hu]
    exact (mem_filter.mp hmem).1

theorem confined_modify {changes : UserChanges} :
    Confined d q (changing d (d.modifyUser q.accountName user.userId changes) fun d' =>
        .answered d' .done) ↔
      UserController.SafeModify d q user changes := by
  rw [confined_done]
  unfold UserController.SafeModify
  cases hmod : d.modifyUser q.accountName user.userId changes with
  | none => simp
  | some d' =>
    simp only [some.injEq, forall_eq', reduceCtorEq, false_or, beyond_modifyUser hmod]
    have hforeign : ∀ v ∈ ownUsers d q, v.userId = user.userId →
        isForeign q v = isForeign q user := by
      intro v _ hv
      simp [isForeign, hv]
    by_cases hf : isForeign q user = false
    · simp only [hf, true_or, iff_true]
      exact fun v hv hvid => Or.inl ((hforeign v hv hvid).trans hf)
    · rw [or_iff_right hf]
      refine forall₂_congr fun v hv => imp_congr_right fun hvid => ?_
      rw [hforeign v hv hvid, or_iff_right hf]

theorem confined_updateUser_found {newUserName newPath : Option Bytes} :
    Confined d q (UserController.updateUser d q user newUserName newPath) ↔
      UserController.SafeUpdateUser d q user newUserName newPath := by
  unfold UserController.updateUser UserController.SafeUpdateUser
  cases newUserName with
  | none => exact confined_modify
  | some name =>
    cases harn : user.arn with
    | none => simp [Confined]
    | some arn =>
      simp only [some.injEq, exists_eq_left']
      exact confined_modify

theorem confined_updateUser :
    Confined d q (UserController.update t d q body) ↔ UserController.SafeUpdate t d q body := by
  unfold UserController.update UserController.SafeUpdate FindsReadable
  by_cases hmissing : body.get (ascii "NewUserName") = none ∧ body.get (ascii "NewPath") = none
  · rw [if_pos hmissing]
    exact iff_of_true (confined_silent rfl rfl) fun h => absurd hmissing h
  rw [if_neg hmissing]
  by_cases hroot : body.get (ascii "UserName") = some (ascii "root") ∧
      body.get (ascii "NewUserName") ≠ none
  · rw [if_pos hroot]
    exact iff_of_true (confined_silent rfl rfl) fun _ h => absurd hroot h
  rw [if_neg hroot, confined_found (confined_silent rfl rfl)]
  simp only [hmissing, hroot, not_false_eq_true, true_imp_iff]
  refine and_congr_right fun _ => forall₂_congr fun user _ => ?_
  cases body.get (ascii "NewUserName") with
  | none =>
    simp only [reduceCtorEq, false_imp_iff, implies_true, true_and, true_imp_iff]
    exact confined_updateUser_found
  | some name =>
    simp only [some.injEq, forall_eq']
    refine confined_catching.trans (and_congr_right fun _ => ⟨fun h hnone => ?_, ?_⟩)
    · exact confined_updateUser_found.mp (h none hnone)
    · intro h found hfree
      cases found with
      | some user => exact confined_silent rfl rfl
      | none => exact confined_updateUser_found.mpr (h hfree)

/-! ### Every action -/

/-- **When a request stays within the requestor's account**: a request that passes the validators
and the authorizer is answered, and leaves and shows what it should, exactly when its action is
safe. -/
theorem confined_serve_iff (parseInt : Bytes → Option Int) (c : AuthServerConfig) (t : LdapTexts)
    (draws : Draws) (d : Directory) (q : Requestor) (action : Action) (body : RequestBodyMap) :
    Confined d q (serve parseInt c t draws d q action body) ↔
      (validateRequest parseInt body action = true →
        validateIfUserCanPerformAction q body = true → Safe c t draws d q body action) := by
  unfold serve
  by_cases hvalid : validateRequest parseInt body action = true
  swap
  · rw [if_pos (by simpa using hvalid)]
    exact iff_of_true (confined_silent rfl rfl) fun h => absurd h hvalid
  by_cases hmay : validateIfUserCanPerformAction q body = true
  swap
  · rw [if_neg (by simpa using hvalid), if_pos (by simpa using hmay)]
    exact iff_of_true (confined_silent rfl rfl) fun _ h => absurd h hmay
  rw [if_neg (by simpa using hvalid), if_neg (by simpa using hmay)]
  simp only [hvalid, hmay, true_imp_iff]
  cases action with
  | createAccessKey => exact confined_createAccessKey
  | deleteAccessKey => exact confined_deleteAccessKey
  | listAccessKeys => exact confined_listAccessKeys
  | updateAccessKey => exact confined_updateAccessKey
  | createUser => exact confined_createUser
  | deleteUser => exact confined_deleteUser
  | listUsers => exact confined_listUsers
  | updateUser => exact confined_updateUser

/-! ### A key of another account -/

/-- The meaning of texts without special characters. -/
def plainTexts : LdapTexts where
  organizationName s := some fun a => foldCase a.name = foldCase s
  mail s := some fun a => foldCase a.email = foldCase s
  commonName s := some fun u => foldCase u.name = foldCase s
  pathPrefix s := some fun u =>
    u.userType = .iamUser ∧ (u.path.map fun p => (foldCase s).isPrefixOf (foldCase p)) = some true
  accessKeyId s := some fun k => k.accessKeyId = s
  accessKeyDN s := some s

def rootUser (userId accountId : Bytes) : UserEntry :=
  { userId := userId
    name := ascii "root"
    path := some (ascii "/")
    arn := some (ascii "arn:aws:iam::" ++ accountId ++ ascii ":root") }

def accountOf (name accountId rootId : Bytes) : AccountEntry :=
  { name := name
    accountId := accountId
    units := [.users, .roles, .groups, .policies]
    users := [rootUser rootId accountId] }

/-- Two accounts, the second with an access key for its root user. -/
def shopAndBank : Directory :=
  { accounts :=
      [accountOf (ascii "shop") (ascii "1001") (ascii "shop-root"),
        accountOf (ascii "bank") (ascii "1002") (ascii "bank-root")]
    accessKeys := [{ accessKeyId := ascii "AKIABANKBANKBANK", userId := ascii "bank-root" }] }

def shopRoot : Requestor :=
  { userId := ascii "shop-root"
    name := ascii "root"
    accountName := ascii "shop"
    accountId := ascii "1001" }

def deleteBankKey : RequestBodyMap :=
  AuthRequestDecoder.parseRequestBody
    [(ascii "Action", ascii "DeleteAccessKey"), (ascii "AccessKeyId", ascii "AKIABANKBANKBANK")]

/-- The root user of one account deletes the key of another by its id. -/
theorem not_confined_bankKey :
    Authenticated shopAndBank shopRoot ∧
      validateIfUserCanPerformAction shopRoot deleteBankKey = true ∧
      ¬ Confined shopAndBank shopRoot
        (serve (fun _ => none) ⟨1000, 1000, 2000, []⟩ plainTexts ⟨[], [], []⟩ shopAndBank shopRoot
          .deleteAccessKey deleteBankKey) := by
  decide

end

end IAMApi

end CortxS3

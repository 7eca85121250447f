/-
Accounts and users that are created at the same time, on any number of auth servers.

The servers share the directory and nothing else.  So a state is the directory and the calls that
have been made, each with what it does next, and a call of `AccountController.create` or of
`UserController.create` takes its next step whenever it likes.  The LDAP server answers every
request.

Who creates a user belongs to an account, and an account that somebody belongs to has a root user:
`AccountController.create` gives out the first access key after it has stored this user.

Two fields are not in the source and no code reads them: `saved` is the entry that a call has
stored, and `answers` are the ends of calls, each with the directory that was there then.
-/
import CortxS3.Auth.AccountController
import CortxS3.Lib.Runs

namespace CortxS3

namespace IAMApi

/-- A call of `create`, with the request and what comes next. -/
inductive CreateCall where
  | account (request : AccountController.Create) (phase : AccountController.CreatePhase)
      (saved : Bool)
  | user (requestor : Requestor) (body : RequestBodyMap) (draws : Draws)
      (phase : UserController.CreatePhase) (saved : Option UserEntry)
deriving DecidableEq

namespace CreateCall

def ended : CreateCall → Bool
  | .account _ (.ended _) _ => true
  | .user _ _ _ (.ended _) _ => true
  | _ => false

/-- The end of a call that there are too many accounts or users for. -/
def overLimit : CreateCall → Bool
  | .account _ (.ended response) _ => response = .maxAccountLimitExceeded ∨ response = .tooMany
  | .user _ _ _ (.ended response) _ => response = .maxUserLimitExceeded ∨ response = .tooMany
  | _ => false

/-- Whether the account has been stored between two steps. -/
def stores : AccountController.CreatePhase → AccountController.CreatePhase → Bool
  | .saveAccount _, .saveUnit _ _ _ => true
  | _, _ => false

/-- A step of a call, with the directory it leaves. -/
def advance (c : AuthServerConfig) (t : LdapTexts) (d : Directory) :
    CreateCall → Directory × CreateCall
  | .account request phase saved =>
    let next := AccountController.createStep c t request .up d phase
    (next.1, .account request next.2 (saved || stores phase next.2))
  | .user requestor body draws phase saved =>
    let next := UserController.createStep c t draws requestor body d phase
    (next.1, .user requestor body draws next.2 <|
      match phase, next.2 with
      | .saveUser, .recount u => some u
      | _, _ => saved)

end CreateCall

/-- A call that has ended, and the directory at that time. -/
structure CreateAnswer where
  call : CreateCall
  directory : Directory
deriving DecidableEq

structure CreateState where
  directory : Directory
  calls : List CreateCall := []
  answers : List CreateAnswer := []
deriving DecidableEq

inductive CreateEvent where
  | createAccount (request : AccountController.Create)
  | createUser (requestor : Requestor) (body : RequestBodyMap) (draws : Draws)
  /-- The call with this number goes on. -/
  | advance (call : Nat)
deriving DecidableEq

namespace CreateState

/-- The account is there, and has a root user. -/
def hasRoot (d : Directory) (accountName : Bytes) : Bool :=
  match d.usersOf accountName with
  | none => false
  | some users => users.any fun u => u.userType = .iamUser ∧ u.name = ascii "root"

/-- No create is running. -/
def idle (s : CreateState) : Bool := s.calls.all CreateCall.ended

def step (c : AuthServerConfig) (t : LdapTexts) (s : CreateState) :
    CreateEvent → Option CreateState
  | .createAccount request =>
    some { s with calls := s.calls ++ [.account request .countAccounts false] }
  | .createUser requestor body draws =>
    if hasRoot s.directory requestor.accountName then
      some { s with calls := s.calls ++ [.user requestor body draws .countUsers none] }
    else none
  | .advance i =>
    match s.calls[i]? with
    | none => none
    | some call =>
      if call.ended then none
      else
        let next := call.advance c t s.directory
        some { s with
          directory := next.1
          calls := s.calls.set i next.2
          answers := if next.2.ended then s.answers ++ [⟨next.2, next.1⟩] else s.answers }

end CreateState

end IAMApi

end CortxS3

/-
Who has sent a request, `RequestorService.getRequestor`, with the cache of its answers.

The access key named in a request is looked up in the directory, then the user it belongs to, and
for a temporary key the token of the session and the expiry are checked.  What comes out is kept
in the authentication map under the id of the key.  While an entry is younger than `cacheTimeout`
seconds it is the answer to every request that names the key.

A lookup takes no time, and may fail.  The search for a key is a parameter: the id goes into the
filter as it came, and what a filter means is up to the LDAP server.  Others change the directory
as they like (`Event.change`), and deleting an account takes keys out of the map
(`Event.forget`).

Two fields are not in the source and no code reads them: `seen` are the directories there have
been, each with a time at which it was there, and `answers` are the requestors that were
returned.
-/
import CortxS3.Auth.Directory
import CortxS3.Lib.Runs

namespace CortxS3

namespace GlobalDataStore

/-- The requestor, with the access key and the entry of the user it belongs to. -/
structure Requestor where
  accessKey : AccessKeyEntry
  accountName : Bytes
  user : UserEntry
deriving DecidableEq

structure GlobalData where
  accessKey : AccessKeyEntry
  requestor : Requestor
  creationTime : Nat
deriving DecidableEq

/-- Why no requestor is returned. -/
inductive Failure where
  | internalServerError
  | invalidAccessKey
  | inactiveAccessKey
  | invalidClientTokenId
  | expiredCredential
deriving DecidableEq

/-- The part of a request that is looked at. -/
structure ClientRequestToken where
  accessKeyId : Bytes
  /-- The header `X-Amz-Security-Token`. -/
  securityToken : Option Bytes
deriving DecidableEq

/-- A requestor that was returned, to what request, and when. -/
structure Answer where
  time : Nat
  request : ClientRequestToken
  requestor : Requestor
deriving DecidableEq

/-- The auth server and the directory. -/
structure State where
  directory : Directory
  authenticationMap : Bytes → Option GlobalData := fun _ => none
  now : Nat := 0
  seen : List (Nat × Directory) := []
  answers : List Answer := []

/-- The search for a key: in a directory, for the id in the filter. -/
abbrev Search := Directory → Bytes → Option AccessKeyEntry

/-- An entry of the map that answers for the directory.  The difference is a `long`, and the
division cuts it. -/
def GlobalData.fresh (g : GlobalData) (cacheTimeout now : Nat) : Bool :=
  let difference := Int.tdiv ((now : Int) - g.creationTime) 1000
  0 ≤ difference ∧ difference < cacheTimeout

/-- `AccessKeyImpl.find`; the key has the id that was searched for. -/
def findAccessKey (search : Search) (d : Directory) (accessKeyId : Bytes) :
    Option AccessKeyEntry :=
  (search d accessKeyId).map fun k => { k with accessKeyId := accessKeyId }

/-- `RequestorImpl.find`. -/
def findRequestor (d : Directory) (accessKey : AccessKeyEntry) : Option Requestor :=
  (d.users.find? fun u => u.2.userId = accessKey.userId).map fun u =>
    { accessKey := accessKey
      accountName := u.1
      user := u.2 }

/-- `validateRequestor`, for a requestor that exists. -/
def validateRequestor (requestor : Requestor) (request : ClientRequestToken) (now : Nat) :
    Except Failure Unit :=
  match requestor.accessKey.temporary with
  | none => .ok ()
  | some (token, expiry) =>
    if request.securityToken ≠ some token then .error .invalidClientTokenId
    else if expiry < now then .error .expiredCredential
    else .ok ()

/-- `getRequestor` behind the cache.  `keyFound` and `ownerFound` say that the lookups do not
fail. -/
def lookUp (search : Search) (d : Directory) (request : ClientRequestToken) (now : Nat)
    (keyFound ownerFound : Bool) : Except Failure Requestor :=
  if !keyFound then .error .internalServerError
  else
    match findAccessKey search d request.accessKeyId with
    | none => .error .invalidAccessKey
    | some accessKey =>
      if !accessKey.active then .error .inactiveAccessKey
      else if !ownerFound then .error .internalServerError
      else
        match findRequestor d accessKey with
        | none => .error .internalServerError
        | some requestor =>
          match validateRequestor requestor request now with
          | .error e => .error e
          | .ok _ => .ok requestor

/-- The entry of the map that is the answer to a request. -/
def cached (cacheTimeout : Nat) (s : State) (accessKeyId : Bytes) (now : Nat) :
    Option GlobalData :=
  if cacheTimeout = 0 then none
  else (s.authenticationMap accessKeyId).filter fun g => g.fresh cacheTimeout now

/-- A requestor is returned. -/
def State.answer (s : State) (now : Nat) (request : ClientRequestToken) (requestor : Requestor) :
    State :=
  { s with answers := s.answers ++ [⟨now, request, requestor⟩] }

/-- `getRequestor`. -/
def getRequestor (search : Search) (cacheTimeout : Nat) (s : State) (request : ClientRequestToken)
    (now : Nat) (keyFound ownerFound : Bool) : State :=
  match cached cacheTimeout s request.accessKeyId now with
  | some g => s.answer now request g.requestor
  | none =>
    match lookUp search s.directory request now keyFound ownerFound with
    | .error _ => s
    | .ok requestor =>
      let s := s.answer now request requestor
      if cacheTimeout = 0 then s
      else { s with
        authenticationMap := Function.update s.authenticationMap request.accessKeyId
          (some ⟨requestor.accessKey, requestor, now⟩) }

inductive Event where
  | request (now : Nat) (request : ClientRequestToken) (keyFound ownerFound : Bool)
  /-- Accounts, users or keys are created, changed or deleted. -/
  | change (now : Nat) (directory : Directory)
  | forget (now : Nat) (accessKeyId : Bytes)
deriving DecidableEq

def Event.time : Event → Nat
  | .request now _ _ _ => now
  | .change now _ => now
  | .forget now _ => now

/-- What an event does.  The clock does not go back. -/
def step (search : Search) (cacheTimeout : Nat) (s : State) (e : Event) : Option State :=
  if e.time < s.now then none
  else
    let s := { s with
      now := e.time
      seen := s.seen ++ [(e.time, s.directory)] }
    match e with
    | .request now request keyFound ownerFound =>
      some (getRequestor search cacheTimeout s request now keyFound ownerFound)
    | .change _ directory => some { s with directory := directory }
    | .forget _ accessKeyId =>
      some { s with authenticationMap := Function.update s.authenticationMap accessKeyId none }

end GlobalDataStore

end CortxS3

/-
The helpers of the auth server's policy code, `PolicyUtil`, and the actions it knows, `S3Actions`.

Texts are Java strings.  What the runtime knows about characters is Unicode's and a parameter: how
single characters compare when case does not count, which of them are digits, and `toLowerCase` of a
string, which is not done character by character.
-/
import CortxS3.Auth.AccessControlPolicy

namespace CortxS3

/-! ### Java -/

/-- The exceptions of the policy code. -/
inductive JavaException where
  | nullPointer
  | arrayIndexOutOfBounds
  | indexOutOfBounds
  /-- `DataAccessException`: the directory could not be asked. -/
  | dataAccess
deriving DecidableEq

structure CharacterData where
  /-- `Character.toLowerCase(Character.toUpperCase(c))`. -/
  fold : UInt16 → UInt16
  /-- `Character.digit(c, 10)`. -/
  digit : UInt16 → Option Nat
  /-- `String.toLowerCase`. -/
  toLowerCase : JavaString → JavaString

namespace CharacterData

/-- `a.equalsIgnoreCase(b)` of strings that are not null. -/
def equalsIgnoreCase (C : CharacterData) (a b : JavaString) : Bool := a.map C.fold == b.map C.fold

/-- An ASCII letter in lower case, and any other character as it is. -/
def asciiToLower (c : UInt16) : UInt16 := if 65 ≤ c ∧ c ≤ 90 then c + 32 else c

/-- Strings of ASCII are lowered letter by letter. -/
def LowersAscii (C : CharacterData) : Prop :=
  ∀ s : JavaString, (∀ c ∈ s, c < 128) → C.toLowerCase s = s.map asciiToLower

/-- The characters of ASCII. -/
def ofAscii : CharacterData where
  fold := asciiToLower
  digit c := if 48 ≤ c ∧ c ≤ 57 then some (c - 48).toNat else none
  toLowerCase s := s.map asciiToLower

theorem lowersAscii_ofAscii : ofAscii.LowersAscii := fun _ _ => rfl

end CharacterData

namespace JavaString

/-- `s.trim()`. -/
def trim (s : JavaString) : JavaString :=
  ((s.dropWhile (· ≤ 32)).reverse.dropWhile (· ≤ 32)).reverse

/-- The number the digits of a text say, if it has only digits. -/
def digitsValue (C : CharacterData) : JavaString → Nat → Option Nat
  | [], n => some n
  | c :: rest, n => (C.digit c).bind fun d => digitsValue C rest (10 * n + d)

/-- The number in a text without a sign. -/
def unsigned (C : CharacterData) (s : JavaString) : Option Int :=
  if s = [] then none else (digitsValue C s 0).map fun n => (n : Int)

/-- `Long.parseLong(s)`, or nothing where it throws. -/
def parseLong (C : CharacterData) (s : JavaString) : Option Int :=
  let value := match s with
    | 45 :: rest => (unsigned C rest).map fun n => -n
    | 43 :: rest => unsigned C rest
    | _ => unsigned C s
  value.filter fun n => -2 ^ 63 ≤ n ∧ n < 2 ^ 63

def dropTrailingEmpty (pieces : List JavaString) : List JavaString :=
  (pieces.reverse.dropWhile (· = [])).reverse

/-- `s.split(sep)` for one character. -/
def split (sep : UInt16) (s : JavaString) : List JavaString :=
  if sep ∈ s then dropTrailingEmpty (s.splitOn sep) else [s]

/-- What `\s` matches. -/
def isWhite (c : UInt16) : Bool := c == 32 || (9 ≤ c && c ≤ 13)

def trimStart (s : JavaString) : JavaString := s.dropWhile isWhite

def trimEnd (s : JavaString) : JavaString := (s.reverse.dropWhile isWhite).reverse

/-- The pieces behind the first comma. -/
def trimPieces : List JavaString → List JavaString
  | [] => []
  | [last] => [trimStart last]
  | piece :: rest => trimEnd (trimStart piece) :: trimPieces rest

/-- `s.split("\\s*,\\s*")`. -/
def splitAtCommas (s : JavaString) : List JavaString :=
  if 44 ∈ s then
    match s.splitOn 44 with
    | [] => []
    | first :: rest => dropTrailingEmpty (trimEnd first :: trimPieces rest)
  else [s]

/-- An element of an array. -/
def elem (a : List JavaString) (i : Nat) : Except JavaException JavaString :=
  match a[i]? with
  | some s => .ok s
  | none => .error .arrayIndexOutOfBounds

example : splitAtCommas (java " a , b,,c ,") = [java " a", java "b", [], java "c"] := by
  decide

end JavaString

/-! ### The known actions -/

/-- `S3Actions`: each action with the condition keys allowed for it. -/
structure S3Actions where
  bucketOperations : List (JavaString × List JavaString)
  objectOperations : List (JavaString × List JavaString)

namespace S3Actions

/-- `init`: the names of the actions are put into lower case. -/
def init (C : CharacterData) (bucket object : List (JavaString × List JavaString)) : S3Actions where
  bucketOperations := bucket.map fun entry => (C.toLowerCase entry.1, entry.2)
  objectOperations := object.map fun entry => (C.toLowerCase entry.1, entry.2)

def isBucketOperation (A : S3Actions) (action : JavaString) : Bool :=
  (A.bucketOperations.map (·.1)).contains action

def isObjectOperation (A : S3Actions) (action : JavaString) : Bool :=
  (A.objectOperations.map (·.1)).contains action

/-- Every known action. -/
def known (A : S3Actions) : List JavaString :=
  A.bucketOperations.map (·.1) ++ A.objectOperations.map (·.1)

end S3Actions

namespace PolicyUtil

/-! ### `isPatternMatching` -/

/-- `boolean[][] data`. -/
abbrev Table := Array (Array Bool)

def cell (data : Table) (i j : Nat) : Bool := (data.getD i #[]).getD j false

def setCell (data : Table) (i j : Nat) (b : Bool) : Table :=
  data.setIfInBounds i ((data.getD i #[]).setIfInBounds j b)

/-- `s.charAt(i)`, asked inside the string only. -/
def charAt (s : JavaString) (i : Nat) : UInt16 := s.getD i 0

/-- Only `*` can match the empty string. -/
def firstRowStep (pattern : JavaString) (data : Table) (count : Nat) : Table :=
  if charAt pattern (count - 1) = 42 then setCell data 0 count (cell data 0 (count - 1)) else data

/-- The body of the two loops. -/
def cellStep (input pattern : JavaString) (i : Nat) (data : Table) (j : Nat) : Table :=
  setCell data i j
    (if charAt pattern (j - 1) = 42 then
      cell data i (j - 1) || cell data (i - 1) j
    else if charAt pattern (j - 1) = 63 ∨ charAt input (i - 1) = charAt pattern (j - 1) then
      cell data (i - 1) (j - 1)
    else
      false)

def rowStep (input pattern : JavaString) (data : Table) (i : Nat) : Table :=
  (List.range' 1 pattern.length).foldl (cellStep input pattern i) data

def isPatternMatching (input pattern : JavaString) : Bool :=
  if pattern.length = 0 then input.length = 0
  else
    let data := Array.replicate (input.length + 1) (Array.replicate (pattern.length + 1) false)
    let data := setCell data 0 0 true
    let data := (List.range' 1 pattern.length).foldl (firstRowStep pattern) data
    let data := (List.range' 1 input.length).foldl (rowStep input pattern) data
    cell data input.length pattern.length

example : isPatternMatching (java "GetObjectAcl") (java "Get*Ac?") = true := by decide +kernel
example : isPatternMatching (java "GetObject") (java "Get*Ac?") = false := by decide +kernel

/-! ### Actions -/

def getAllMatchingActions (C : CharacterData) (A : S3Actions) (inputAction : JavaString) :
    List JavaString :=
  (A.bucketOperations.map (·.1)).filter (fun action =>
      isPatternMatching (C.toLowerCase action) (C.toLowerCase inputAction)) ++
    (A.objectOperations.map (·.1)).filter fun action =>
      isPatternMatching (C.toLowerCase action) (C.toLowerCase inputAction)

/-- A bucket action needs a resource without an object, an object action one with an object. -/
def isActionValidForResource (A : S3Actions) (actions : List JavaString) (hasSlash : Bool) : Bool :=
  actions.any fun action =>
    (A.isBucketOperation action && !hasSlash) || (A.isObjectOperation action && hasSlash)

def isPolicyOperation (C : CharacterData) (operation : JavaString) : Bool :=
  C.equalsIgnoreCase (java "s3:PutBucketPolicy") operation ||
    C.equalsIgnoreCase (java "s3:GetBucketPolicy") operation ||
      C.equalsIgnoreCase (java "s3:DeleteBucketPolicy") operation

/-! ### Resources -/

def getResourceFromResourceArn (arn : JavaString) : Except JavaException JavaString :=
  JavaString.elem (JavaString.split 58 arn) 5

def getResourceFromUri : Option JavaString → Option JavaString
  | none => none
  | some uri => if uri = [] then none else some (uri.drop 1)

def convertCommaSeparatedStringToList (str : JavaString) : List JavaString :=
  JavaString.splitAtCommas str

/-- `[a-zA-Z0-9~@#$^*\\\\/_.:-]`. -/
def isArnChar (c : UInt16) : Bool :=
  (97 ≤ c && c ≤ 122) || (65 ≤ c && c ≤ 90) || (48 ≤ c && c ≤ 57) ||
    (java "~@#$^*\\/_.:-").contains c

/-- `S3ArnParser.isArnFormatValid`. -/
def isS3ArnFormatValid (arn : JavaString) : Bool :=
  let rest := arn.drop 13
  (java "arn:aws:s3:::").isPrefixOf arn && rest != [] && rest.all isArnChar

/-- `PrincipalArnParser.isArnFormatValid`: somewhere inside what follows there is a colon. -/
def isPrincipalArnFormatValid (arn : JavaString) : Bool :=
  let rest := arn.drop 13
  (java "arn:aws:iam::").isPrefixOf arn && rest.all isArnChar && (rest.drop 1).dropLast.contains 58

example : isPrincipalArnFormatValid (java "arn:aws:iam::123456789012:user/ann") = true := by
  decide

/-! ### Query parameters -/

/-- The first piece of the query that contains the key decides. -/
def fetchQueryParamValue (queryParams key : JavaString) :
    Except JavaException (Option JavaString) :=
  match (JavaString.split 38 queryParams).find? fun param => decide (key <:+: param) with
  | some param => (JavaString.elem (JavaString.split 61 param) 1).map some
  | none => .ok none

example : fetchQueryParamValue (java "prefix=a%2Fb&x") (java "prefix") =
    .ok (some (java "a%2Fb")) := by decide

end PolicyUtil

end CortxS3

/-
The check of the name of a new bucket, `S3PutBucketAction::validate_bucket_name`.

`islower` and `isdigit` are those of the locale `C`.
-/
import CortxS3.Basic

namespace CortxS3

namespace S3PutBucketAction

def bucketnameMinLength : Nat := 3

def bucketnameMaxLength : Nat := 63

def islower (c : UInt8) : Bool := 97 ≤ c && c ≤ 122

def isdigit (c : UInt8) : Bool := 48 ≤ c && c ≤ 57

def dot : UInt8 := 46

def dash : UInt8 := 45

/-- The local variables of the loop over the name. -/
structure NameScan where
  foundSpecialChar : Bool := false
  validBucketName : Bool := true
  digitCount : Nat := 0
  dotCount : Nat := 0
  isValidIp : Bool := true
deriving DecidableEq

def scanChar (s : NameScan) (c : UInt8) : NameScan :=
  if islower c then { s with foundSpecialChar := false, isValidIp := false }
  else if isdigit c then { s with foundSpecialChar := false, digitCount := s.digitCount + 1 }
  else if c = dot then
    if s.foundSpecialChar then { s with validBucketName := false }
    else
      { s with
        isValidIp := s.isValidIp && !decide (3 < s.digitCount)
        dotCount := s.dotCount + 1
        foundSpecialChar := true
        digitCount := 0 }
  else if c = dash then
    if s.foundSpecialChar then { s with validBucketName := false }
    else { s with foundSpecialChar := true, isValidIp := false }
  else { s with validBucketName := false }

def scanName : NameScan → Bytes → NameScan
  | s, [] => s
  | s, c :: rest => if s.validBucketName then scanName (scanChar s c) rest else s

/-- `next()`, or the error that is sent. -/
def validateBucketName (bucketName : Bytes) : Except String Unit :=
  if bucketName.length < bucketnameMinLength || bucketnameMaxLength < bucketName.length then
    .error "InvalidBucketName"
  else if !(bucketName.head?.any fun c => islower c || isdigit c) then .error "InvalidBucketName"
  else if bucketName.getLast?.any fun c => c = dot || c = dash then .error "InvalidBucketName"
  else
    let s := scanName {} bucketName
    let validBucketName :=
      s.validBucketName && !(s.isValidIp && decide (s.dotCount = 3) && decide (s.digitCount ≤ 3))
    if !validBucketName then .error "InvalidBucketName" else .ok ()

end S3PutBucketAction

end CortxS3

/-
The canonical query of a signature of version 4, `AWSV4Sign.getCanonicalQuery`.

The auth server does not see the URI of the request.  The S3 server has read the parameters and
written them again, and that text is cut at `&` and `=` here, sorted by name and put together.  The
values are left as they come.

The text is ASCII, so it is kept as bytes, and a `TreeMap` of names is in the order of the bytes.
-/
import CortxS3.Auth.ClientRequestParser

namespace CortxS3

namespace AWSV4Sign

/-- One piece between `&`. -/
def putToken (queryParams : List (Bytes × Bytes)) (token : Bytes) :
    Except Refusal (List (Bytes × Bytes)) := do
  let subTokens := javaSplit 61 token
  if subTokens.length = 2 then
    .ok (SortedMap.set (← javaGet subTokens 0) (← javaGet subTokens 1) queryParams)
  else
    .ok (SortedMap.set (← javaGet subTokens 0) [] queryParams)

/-- The entries one after the other, a `&` behind each but the last. -/
def canonicalString : List (Bytes × Bytes) → Bytes
  | [] => []
  | [entry] => entry.1 ++ ascii "=" ++ entry.2
  | entry :: entries => entry.1 ++ ascii "=" ++ entry.2 ++ ascii "&" ++ canonicalString entries

def getCanonicalQuery : Option Bytes → Except Refusal Bytes
  | none => .ok []
  | some query => do
    if query = [] then .ok []
    else
      let queryParams ← (javaSplit 38 query).foldlM putToken []
      .ok (canonicalString queryParams)

example : getCanonicalQuery (some (ascii "prefix=a%2Fb&acl&delimiter=%2F")) =
    .ok (ascii "acl=&delimiter=%2F&prefix=a%2Fb") := by decide +kernel

end AWSV4Sign

end CortxS3

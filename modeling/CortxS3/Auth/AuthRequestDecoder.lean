/-
How the auth server reads the form it is sent, `AuthRequestDecoder`.

Netty hands over the pairs of the form in the order of the body.  They end up in a map whose
order ignores letter case, so that two spellings of a name are one entry, and of two pairs with
one name the later one counts.  Only names that begin with `x-amz-` are treated as a header
repeated: their values are put in a row.

A map that ignores case is a map of names in lower case.  Names of headers are tokens of HTTP, and
those of parameters are taken to be ASCII too; beyond it the order of the map folds a few letters more
than `foldCase`.
-/
import CortxS3.Basic
import CortxS3.Lib.SortedMap

namespace CortxS3

/-- The body of a request to the auth server, by names in lower case. -/
abbrev RequestBodyMap := List (Bytes × Bytes)

namespace RequestBodyMap

/-- `requestBody.get(name)`. -/
def get (m : RequestBodyMap) (name : Bytes) : Option Bytes := SortedMap.get (foldCase name) m

end RequestBodyMap

namespace AuthRequestDecoder

/-- One attribute of the form. -/
def put (m : RequestBodyMap) (p : Bytes × Bytes) : RequestBodyMap :=
  let value := match m.get p.1 with
    | some old => if (ascii "x-amz-").isPrefixOf (foldCase p.1) then old ++ ascii "," ++ p.2 else p.2
    | none => p.2
  SortedMap.set (foldCase p.1) value m

def parseRequestBody (pairs : List (Bytes × Bytes)) : RequestBodyMap :=
  pairs.foldl put []

end AuthRequestDecoder

end CortxS3

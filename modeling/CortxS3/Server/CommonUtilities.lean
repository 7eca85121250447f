/-
Replacing within a string, `S3CommonUtilities::find_and_replaceall`.

The loop of the source looks for the next place behind what it has put in.  Here it goes byte by
byte, and a place that matches is passed over as a whole.
-/
import CortxS3.Basic

namespace CortxS3

/-- Every `pat` of a string replaced, from the left. -/
def replaceAll (pat rep : Bytes) : Nat → Bytes → Bytes
  | _, [] => []
  | 0, s => s
  | n + 1, c :: rest =>
    if pat.isPrefixOf (c :: rest) then rep ++ replaceAll pat rep n ((c :: rest).drop pat.length)
    else c :: replaceAll pat rep n rest

/-- `S3CommonUtilities::find_and_replaceall`. -/
def findAndReplaceall (data toSearch replaceStr : Bytes) : Bytes :=
  if toSearch = [] then data else replaceAll toSearch replaceStr data.length data

end CortxS3

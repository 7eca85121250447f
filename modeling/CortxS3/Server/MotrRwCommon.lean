/-
What becomes of an operation of Motr on the main thread, `motr_op_done_on_main_thread`.

The handlers of the operation are called, and operations that ended with -ETIMEDOUT are
counted.  When there are too many of them in too short a time the server stops itself.

The counter and the start of its window are globals.  The counter is unsigned and cannot wrap: it is
not raised any more once it has reached the threshold, which is unsigned as well.
-/
import CortxS3.Server.S3Option

namespace CortxS3

namespace MotrRwCommon

/-- `ETIMEDOUT`. -/
def etimedout : Int := 110

/-- What the context of an operation says of it. -/
inductive Completion where
  /-- `is_at_least_one_op_successful`. -/
  | successful
  /-- `get_errno_for(0)`. -/
  | failed (errorCode : Int)
deriving DecidableEq

/-- The globals. -/
structure Globals where
  gsTimeoutWindowStart : Int
  gsTimeoutCnt : Nat := 0
  gsTimeoutShutdownInProgress : Bool := false

section Done

variable (opt : S3Option)

/-- `motr_op_done_on_main_thread`, at a time in seconds: the globals, and whether it has called
`gs_motr_timeout_shutdown`. -/
def motrOpDoneOnMainThread (g : Globals) (curtime : Int) : Completion → Globals × Bool
  | .successful => (g, false)
  | .failed errorCode =>
    if errorCode = -etimedout ∧ ¬ g.gsTimeoutShutdownInProgress then
      let cnt := if curtime - g.gsTimeoutWindowStart ≥ opt.motrEtimedoutWindowSec then 0
        else g.gsTimeoutCnt
      let g := { g with gsTimeoutCnt := cnt + 1, gsTimeoutWindowStart := curtime }
      if g.gsTimeoutCnt ≥ opt.motrEtimedoutMaxThreshold then
        ({ g with gsTimeoutShutdownInProgress := true }, true)
      else (g, false)
    else (g, false)

/-- One operation after another: whether each of them calls the shutdown. -/
def shutdowns : Globals → List (Int × Completion) → List Bool
  | _, [] => []
  | g, (curtime, c) :: rest =>
    let (g, shutdown) := motrOpDoneOnMainThread opt g curtime c
    shutdown :: shutdowns g rest

end Done

end MotrRwCommon

end CortxS3

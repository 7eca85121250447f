/-
The configuration of the server, `S3Option`, with the values its constructor sets.
-/
import CortxS3.Basic

namespace CortxS3

structure S3Option where
  isFiEnabled : Bool := false
  defaultEndpoint : Bytes := ascii "s3.seagate.com"
  /-- A `std::set`, in its order. -/
  regionEndpoints : List Bytes :=
    [ascii "s3-asia.seagate.com", ascii "s3-europe.seagate.com", ascii "s3-us.seagate.com"]
  regionEndpoints_sorted : regionEndpoints.Pairwise (· < ·) := by decide
  motrEtimedoutMaxThreshold : Nat := 5
  motrEtimedoutWindowSec : Nat := 60

/-- The names of the service in the order they are tried. -/
def S3Option.endpoints (o : S3Option) : List Bytes := o.defaultEndpoint :: o.regionEndpoints

end CortxS3

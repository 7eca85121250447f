/-
The metadata of a part, `S3PartMetadata`, as the actions on an upload in parts use it, and the states
that the metadata of an upload can be in.

A part is stored in the part index of its upload under its number, written in decimal.
-/
import CortxS3.Server.Base64

namespace CortxS3

/-- What the actions use of the metadata of a part. -/
structure S3PartMetadata where
  partNumber : Nat
  oid : M0Uint128
  layoutId : Int
  pvidStr : Bytes
  contentLength : Nat
deriving DecidableEq

inductive S3ObjectMetadataState where
  | empty
  | present
  | missing
  | saved
  | deleted
  | failed
  | failedToLaunch
  | invalid
deriving DecidableEq

end CortxS3

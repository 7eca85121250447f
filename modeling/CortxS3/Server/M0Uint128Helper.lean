/-
The conversions of `S3M0Uint128Helper`, with what they copy.

Ids, pool versions and index layouts are kept as text and read back when the metadata is loaded.
Reading back ends in a `memcpy` into the value, so what is said here of a conversion is the value
and every copy that was made, with the room there was for it.  A copy that is longer than its room
writes behind the value; what it leaves of the value is the first bytes.
-/
import CortxS3.Server.Base64

namespace CortxS3

/-- `struct s3_motr_idx_layout` in memory: `oid`, `pver`, `layout_type` and four bytes that fill it
up. -/
abbrev S3MotrIdxLayout := Raw 40

namespace S3M0Uint128Helper

/-- A `memcpy`: how many bytes, and `sizeof` of where they go. -/
structure Copied where
  count : Nat
  room : Nat
deriving DecidableEq

/-- A value that was read back. -/
structure Conversion (α : Type) where
  value : α
  copies : List Copied := []

/-- What a copy to the front of an object leaves of it. -/
def copyTo {n : Nat} (dst : Raw n) (src : Bytes) : Raw n :=
  ⟨(src ++ dst.1.drop src.length).take n, by
    have := dst.2
    simp only [List.length_take, List.length_append, List.length_drop]
    omega⟩

/-- `to_string_pair`. -/
def toStringPair (id : M0Uint128) : Bytes × Bytes :=
  (base64Encode id.uHi.1, base64Encode id.uLo.1)

/-- The two copies of `to_m0_uint128`, when both halves have the size. -/
def m0Uint128OfDecoded (decIdUHi decIdULo : Bytes) : Conversion M0Uint128 :=
  if decIdUHi.length = 8 ∧ decIdULo.length = 8 then
    { value := { uHi := copyTo (Raw.zero 8) decIdUHi, uLo := copyTo (Raw.zero 8) decIdULo }
      copies := [⟨8, 8⟩, ⟨8, 8⟩] }
  else { value := {} }

/-- `to_m0_uint128` of two strings. -/
def m0Uint128OfPair (idULo idUHi : Bytes) : Conversion M0Uint128 :=
  m0Uint128OfDecoded (base64Decode idUHi) (base64Decode idULo)

/-- `to_m0_uint128` of one string. -/
def m0Uint128OfString (idStr : Bytes) : Conversion M0Uint128 :=
  match find (ascii "-") idStr with
  | none => { value := {} }
  | some delimPos =>
    m0Uint128OfDecoded (base64Decode (idStr.take delimPos))
      (base64Decode (idStr.drop (delimPos + 1)))

/-- `to_m0_fid`: whether the text was correct, and `dst`. -/
def m0FidOfString (encoded : Bytes) (dst : M0Fid) : Bool × Conversion M0Fid :=
  let decoded := base64Decode encoded
  if decoded.length = 16 then (true, { value := copyTo dst decoded, copies := [⟨16, 16⟩] })
  else (false, { value := Raw.zero 16 })

/-- `to_string` of an index layout. -/
def idxLayoutToString (lo : S3MotrIdxLayout) : Bytes := base64Encode lo.1

/-- `to_idx_layout`. -/
def toIdxLayout (encoded : Bytes) : Conversion S3MotrIdxLayout :=
  let decoded := base64Decode encoded
  { value := copyTo (Raw.zero 40) decoded, copies := [⟨decoded.length, 40⟩] }

end S3M0Uint128Helper

end CortxS3

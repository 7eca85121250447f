/-
The header `Range` of a GET, `S3GetObjectAction::validate_range_header_and_set_read_options`.

The header is cut at `=`, and what follows it at `-`; the blanks around the unit and around the two
numbers are trimmed.  A header of blanks alone asks for nothing, and one with several ranges is
answered with the whole object.

The offsets are `size_t` and are written before they are checked, so they are part of the result
also when the header is refused.  Before the call they are those of the whole object.
-/
import CortxS3.Basic

namespace CortxS3

namespace S3CommonUtilities

def ltrim (s : Bytes) : Bytes := s.dropWhile isSpace

def rtrim (s : Bytes) : Bytes := (s.reverse.dropWhile isSpace).reverse

def trim (s : Bytes) : Bytes := rtrim (ltrim s)

def stringHasOnlyDigits (s : Bytes) : Bool := s.all fun c => 48 ≤ c && c ≤ 57

end S3CommonUtilities

/-- `atol`: a number that a `long` cannot hold becomes the nearest one that it can. -/
def atol (s : Bytes) : Int :=
  match leadingInt (cStr s) with
  | some z => max (-(2 ^ 63 : Int)) (min (2 ^ 63 - 1 : Int) z)
  | none => 0

namespace S3GetObjectAction

open S3CommonUtilities

/-- `first_byte_offset_to_read` and `last_byte_offset_to_read`. -/
structure ReadOptions where
  firstByteOffsetToRead : Nat
  lastByteOffsetToRead : Nat
deriving DecidableEq

variable (contentLength : Nat)

/-- The two offsets as the numbers give them. -/
def offsetsOf (firstByte lastByte : Bytes) : ReadOptions :=
  if firstByte = [] then ⟨toSize (contentLength - atol lastByte), subSize contentLength 1⟩
  else if lastByte = [] then ⟨toSize (atol firstByte), subSize contentLength 1⟩
  else ⟨toSize (atol firstByte), toSize (atol lastByte)⟩

/-- The last offset is moved into the object, and the range is checked. -/
def clipAndCheck (r : ReadOptions) : Bool × ReadOptions :=
  let r :=
    if subSize contentLength 1 < r.lastByteOffsetToRead then
      { r with lastByteOffsetToRead := subSize contentLength 1 }
    else r
  if contentLength ≤ r.firstByteOffsetToRead ∨ r.lastByteOffsetToRead < r.firstByteOffsetToRead then
    (false, r)
  else (true, r)

/-- What follows `bytes=`. -/
def setReadOptions (r : ReadOptions) (byteRangeSet : Bytes) : Bool × ReadOptions :=
  if (find (ascii ",") byteRangeSet).isSome then (true, ⟨0, subSize contentLength 1⟩)
  else
    match find (ascii "-") byteRangeSet with
    | none => (false, r)
    | some pos =>
      let firstByte := trim (byteRangeSet.take pos)
      let lastByte := trim (byteRangeSet.drop (pos + 1))
      if (firstByte = [] ∧ lastByte = []) ∨
          (firstByte ≠ [] ∧ stringHasOnlyDigits firstByte = false) ∨
          (lastByte ≠ [] ∧ stringHasOnlyDigits lastByte = false) then (false, r)
      else clipAndCheck contentLength (offsetsOf contentLength firstByte lastByte)

def validateRangeHeaderAndSetReadOptions (r : ReadOptions) (rangeValue : Bytes) :
    Bool × ReadOptions :=
  if rangeValue.all isSpace then (true, r)
  else
    match find (ascii "=") rangeValue with
    | none => (false, r)
    | some pos =>
      let bytesUnit := trim (rangeValue.take pos)
      let byteRangeSet := rangeValue.drop (pos + 1)
      if bytesUnit ≠ ascii "bytes" then (false, r)
      else if byteRangeSet = [] then (false, r)
      else setReadOptions contentLength r byteRangeSet

end S3GetObjectAction

end CortxS3

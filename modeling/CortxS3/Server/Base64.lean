/-
Identifiers as text.

Motr names objects and pool versions by 128-bit values.  The S3 server keeps them in its
metadata as base64 of the bytes they have in memory, so a value is its bytes here.  The loops of
`base64_encode` and `base64_decode` go byte by byte and carry over what is left of the bits;
where the source joins two parts with `|`, the parts have no bit in common and are added.
-/
import CortxS3.Basic

namespace CortxS3

/-- The characters of base64, in the order of their values. -/
def base64Char (d : Nat) : UInt8 :=
  UInt8.ofNat (if d < 26 then 65 + d else if d < 52 then 71 + d else if d < 62 then d - 4
    else if d = 62 then 43 else 47)

/-- The loop of `base64_encode`: how many bytes of a group are done, and the bits left over. -/
def base64EncodeLoop : Nat → Nat → Bytes → Bytes
  | 0, _, [] => []
  | 1, forNext, [] => [base64Char forNext, 61, 61]
  | _, forNext, [] => [base64Char forNext, 61]
  | 0, _, b :: rest => base64Char (b.toNat / 4) :: base64EncodeLoop 1 (b.toNat % 4 * 16) rest
  | 1, forNext, b :: rest =>
    base64Char (forNext + b.toNat / 16) :: base64EncodeLoop 2 (b.toNat % 16 * 4) rest
  | _, forNext, b :: rest =>
    base64Char (forNext + b.toNat / 64) :: base64Char (b.toNat % 64) :: base64EncodeLoop 0 0 rest

def base64Encode (bytes : Bytes) : Bytes := base64EncodeLoop 0 0 bytes

/-- The value of a character of base64. -/
def base64Value (c : UInt8) : Option Nat :=
  if 65 ≤ c && c ≤ 90 then some (c.toNat - 65)
  else if 97 ≤ c && c ≤ 122 then some (c.toNat - 71)
  else if 48 ≤ c && c ≤ 57 then some (c.toNat + 4)
  else if c = 43 then some 62
  else if c = 47 then some 63
  else none

/-- The loop of `base64_decode`: how many characters of a group are done, and the bits of the
byte they began.  Blanks are skipped between groups; what is no character of base64 ends the
text. -/
def base64DecodeLoop : Nat → Nat → Bytes → Bytes
  | _, _, [] => []
  | modulo, current, c :: rest =>
    if isSpace c then
      if modulo = 0 then base64DecodeLoop modulo current rest else []
    else match base64Value c with
      | none => []
      | some d =>
        match modulo with
        | 0 => base64DecodeLoop 1 (d * 4) rest
        | 1 => UInt8.ofNat (current + d / 16 % 4) :: base64DecodeLoop 2 (d * 16 % 256) rest
        | 2 => UInt8.ofNat (current + d / 4 % 16) :: base64DecodeLoop 3 (d * 64 % 256) rest
        | _ => UInt8.ofNat (current + d % 64) :: base64DecodeLoop 0 0 rest

def base64Decode (s : Bytes) : Bytes := base64DecodeLoop 0 0 s

/-- A character that JSON writes as it is. -/
def isPlain (c : UInt8) : Bool := 32 ≤ c && c ≤ 126 && c ≠ 34 && c ≠ 92

/-- The bytes of an object of `n` bytes. -/
abbrev Raw (n : Nat) := { b : Bytes // b.length = n }

/-- An object whose bytes are all zero. -/
def Raw.zero (n : Nat) : Raw n := ⟨List.replicate n 0, List.length_replicate⟩

/-- `memcpy` from a string, when it has the right size. -/
def Raw.ofBytes (n : Nat) (b : Bytes) : Option (Raw n) :=
  if h : b.length = n then some ⟨b, h⟩ else none

structure M0Uint128 where
  uHi : Raw 8 := Raw.zero 8
  uLo : Raw 8 := Raw.zero 8
deriving DecidableEq

abbrev M0Fid := Raw 16

namespace S3M0Uint128Helper

def toString (id : M0Uint128) : Bytes :=
  base64Encode id.uHi.1 ++ ascii "-" ++ base64Encode id.uLo.1

def toM0Uint128 (s : Bytes) : M0Uint128 :=
  match find (ascii "-") s with
  | none => {}
  | some pos =>
    match Raw.ofBytes 8 (base64Decode (s.take pos)),
        Raw.ofBytes 8 (base64Decode (s.drop (pos + 1))) with
    | some hi, some lo => { uHi := hi, uLo := lo }
    | _, _ => {}

def fidToString (fid : M0Fid) : Bytes := base64Encode fid.1

def toM0Fid (s : Bytes) : M0Fid :=
  (Raw.ofBytes 16 (base64Decode s)).getD (Raw.zero 16)

end S3M0Uint128Helper

end CortxS3

/-
Version ids, `S3ObjectVersioingHelper`, and base64 as the source has it.

A version is named by the time it was made, with the bits flipped so that the newest comes first.
The key in the index is that number in decimal; the id that a client sees is the key in base64,
without the padding.

`base64_encode` and `base64_decode` are here once more, with their bit operations and their
assertions: no result stands for an assertion that fails.  What they are handed is a pointer and a
length, and the length is an `unsigned`.
-/
import CortxS3.Server.Base64
import CortxS3.Server.CommonUtilities

namespace CortxS3

/-! ### Base64 -/

/-- `base64_chars`. -/
def base64Chars : Bytes := ascii "ABCDEFGHIJKLMNOPQRSTUVWXYZabcdefghijklmnopqrstuvwxyz0123456789+/"

/-- The character of a value.  There is none behind the last. -/
def charAt (d : Nat) : Option UInt8 := base64Chars[d]?

/-- The loop of `base64_encode`: `modulo_3`, `for_next` and the bytes that are left.  Of `for_next`
an assertion looks at the bits that have to be clear. -/
def assertedEncodeLoop : Nat → Nat → Bytes → Option Bytes
  | 0, _, curCh :: rest => do
    let c ← charAt (curCh.toNat >>> 2 &&& 0x3F)
    let text ← assertedEncodeLoop 1 ((curCh.toNat &&& 3) <<< 4) rest
    return c :: text
  | 1, forNext, curCh :: rest => do
    guard (forNext &&& 0x30 = forNext)
    let c ← charAt (forNext ||| (curCh.toNat >>> 4 &&& 0xF))
    let text ← assertedEncodeLoop 2 ((curCh.toNat &&& 0x0F) <<< 2) rest
    return c :: text
  | 2, forNext, curCh :: rest => do
    guard (forNext &&& 0x3C = forNext)
    let c ← charAt (forNext ||| (curCh.toNat >>> 6 &&& 3))
    let d ← charAt (curCh.toNat &&& 0x3F)
    let text ← assertedEncodeLoop 0 forNext rest
    return c :: d :: text
  | _, _, _ :: _ => none
  | modulo3, forNext, [] => do
    guard (modulo3 < 3)
    if modulo3 ≠ 0 then
      guard (forNext &&& 0x3F = forNext)
      let c ← charAt forNext
      return [c, 61] ++ if modulo3 = 1 then [61] else []
    else return []

/-- `base64_encode`. -/
def base64EncodeAsserted (bytesToEncode : Bytes) : Option Bytes := assertedEncodeLoop 0 0 bytesToEncode

/-- The loop of `base64_decode`: `modulo_4`, `current_byte` and the characters that are left. -/
def assertedDecodeLoop : Nat → Nat → Bytes → Option Bytes
  | _, _, [] => some []
  | modulo4, currentByte, ch :: rest =>
    if isSpace ch then
      if modulo4 ≠ 0 then some [] else assertedDecodeLoop modulo4 currentByte rest
    else
      match base64Value ch with
      | none => some []
      | some decoded =>
        match modulo4 with
        | 0 => assertedDecodeLoop 1 (decoded <<< 2) rest
        | 1 => do
          guard (currentByte &&& 3 = 0)
          let text ← assertedDecodeLoop 2 (decoded <<< 4) rest
          return UInt8.ofNat (currentByte ||| (decoded >>> 4 &&& 3)) :: text
        | 2 => do
          guard (currentByte &&& 0x0F = 0)
          let text ← assertedDecodeLoop 3 (decoded <<< 6) rest
          return UInt8.ofNat (currentByte ||| (decoded >>> 2 &&& 0x0F)) :: text
        | 3 => do
          guard (currentByte &&& 0x3F = 0)
          let text ← assertedDecodeLoop 0 currentByte rest
          return UInt8.ofNat (currentByte ||| (decoded &&& 0x3F)) :: text
        | _ => none

/-- `base64_decode`. -/
def base64DecodeAsserted (encodedString : Bytes) : Option Bytes := assertedDecodeLoop 0 0 encodedString

/-! ### Versions -/

namespace S3ObjectVersioingHelper

/-- `generate_new_epoch_time`, at a time in milliseconds, an `unsigned long long`. -/
def generateNewEpochTime (millisecondsSinceEpoch : UInt64) : Bytes :=
  decimal (~~~millisecondsSinceEpoch).toNat

/-- `get_versionid_from_epoch_time`.  The length of the string is handed on as an `unsigned`. -/
def getVersionidFromEpochTime (millisecondsSinceEpoch : Bytes) : Option Bytes := do
  let versionid ← base64EncodeAsserted
    (millisecondsSinceEpoch.take (toUInt millisecondsSinceEpoch.length))
  return findAndReplaceall versionid (ascii "=") []

/-- `generate_keyid_from_versionid`. -/
def generateKeyidFromVersionid (versionid : Bytes) : Option Bytes :=
  base64DecodeAsserted (versionid ++ List.replicate ((3 - versionid.length % 3) % 3) 61)

example : getVersionidFromEpochTime (ascii "18446742") = some (ascii "MTg0NDY3NDI") := by
  decide

end S3ObjectVersioingHelper

end CortxS3

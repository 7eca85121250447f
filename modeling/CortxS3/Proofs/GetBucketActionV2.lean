/-
A continuation token restores its key.

Each step on the way to the token is undone by one on the way back: the bytes are XORed twice with
the same number, since the length does not change, and base64 is read as it was written
(`base64Decode_base64Encode`).  A key is not empty, and neither is its token, so the token is not
taken for a missing one.
-/
import CortxS3.Server.GetBucketActionV2
import CortxS3.Proofs.Base64
import CortxS3.Proofs.UriCodec

namespace CortxS3

open List S3XORObfuscator

/-! ### The way there and back -/

namespace S3XORObfuscator

theorem length_obfuscate (s : Bytes) : (obfuscate s).length = s.length := length_map ..

theorem obfuscate_obfuscate (s : Bytes) : obfuscate (obfuscate s) = s := by
  obtain ⟨x, hx⟩ : ∃ x, x = UInt8.ofNat (s.length + 255) := ⟨_, rfl⟩
  have h : ∀ t : Bytes, t.length = s.length → obfuscate t = t.map fun c => c ^^^ x := by
    intro t ht
    rw [hx, ← ht]
    rfl
  rw [h _ (length_obfuscate s), h s rfl, map_map]
  conv_rhs => rw [← map_id s]
  refine map_congr_left fun c _ => ?_
  show c ^^^ x ^^^ x = c
  rw [UInt8.xor_assoc, UInt8.xor_self, UInt8.xor_zero]

end S3XORObfuscator

namespace S3ObjectListResponseV2

variable {u : UriCodec}

theorem getNextMarkerKey_setNextMarkerKey (r : S3ObjectListResponseV2) {k : Bytes}
    (h : NulFree k) : (r.setNextMarkerKey u k).getNextMarkerKey u = k := by
  unfold getNextMarkerKey setNextMarkerKey getResponseFormatKeyValue
  by_cases hurl : r.encodingUrl = true
  · simp only [hurl, if_true]
    rw [cStr_of_nulFree h, cStr_of_nulFree (u.encode_nulFree k h), u.decode_encode k h,
      cStr_of_nulFree h]
  · simp only [hurl, if_true, Bool.false_eq_true, if_false]

end S3ObjectListResponseV2

namespace S3GetBucketActionV2

/-- The name of an object, which a request brings as a C string. -/
structure IsObjectKey (k : Bytes) : Prop where
  nonempty : k ≠ []
  nulFree : NulFree k
  short : k.length < 2 ^ 32

theorem base64EncodeString_of_short {s : Bytes} (h : s.length < 2 ^ 32) :
    base64EncodeString s = base64Encode s := by
  unfold base64EncodeString toUInt
  rw [Nat.mod_eq_of_lt h, take_length]

/-- **The token of a page brings the next one to the key where the page ended.** -/
theorem afterValidateRequest_nextContinuationToken (u : UriCodec) (encodingUrl : Bool)
    {k : Bytes} (hk : IsObjectKey k) (startAfter : Bytes) :
    afterValidateRequest (nextContinuationToken u encodingUrl k) startAfter = k := by
  have htoken : nextContinuationToken u encodingUrl k =
      base64Encode (S3XORObfuscator.obfuscate k) := by
    have hshort : (S3XORObfuscator.obfuscate k).length < 2 ^ 32 := by
      rw [S3XORObfuscator.length_obfuscate]
      exact hk.short
    rw [← base64EncodeString_of_short hshort]
    have hkey := S3ObjectListResponseV2.getNextMarkerKey_setNextMarkerKey (u := u)
      { encodingUrl := encodingUrl } hk.nulFree
    exact congrArg (fun s => base64EncodeString (S3XORObfuscator.obfuscate s)) hkey
  have hne : S3XORObfuscator.obfuscate k ≠ [] := by
    intro hnil
    have hlen := S3XORObfuscator.length_obfuscate k
    rw [hnil] at hlen
    exact hk.nonempty (length_eq_zero_iff.mp hlen.symm)
  unfold afterValidateRequest S3XORObfuscator.decode
  rw [htoken, if_neg (base64Encode_ne_nil hne), base64Decode_base64Encode,
    S3XORObfuscator.obfuscate_obfuscate]

theorem afterValidateRequest_nextContinuationToken_photo :
    afterValidateRequest (nextContinuationToken percentCodec true (ascii "a photo/1.jpg"))
      (ascii "a") = ascii "a photo/1.jpg" :=
  afterValidateRequest_nextContinuationToken percentCodec true
    ⟨by decide, by decide, by decide⟩ (ascii "a")

end S3GetBucketActionV2

end CortxS3

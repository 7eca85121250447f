/-
The codec of URIs.

What the functions of libevent do with bytes that stand for themselves and with all others
(`uriEncode`), and that the one takes the other back (`percentCodec`).
-/
import CortxS3.Server.RequestObject

namespace CortxS3

open List

/-- Percent-encoding of all but the unreserved characters, with digits in upper case. -/
def uriEncode (s : Bytes) : Bytes :=
  s.flatMap fun c =>
    if isUnreserved c then [c] else [37, hexChar (c.toNat / 16), hexChar (c.toNat % 16)]

variable {c : UInt8}

theorem unreserved_ne {d : UInt8} (hc : isUnreserved c = true) (hd : isUnreserved d = false) :
    c ≠ d := by
  rintro rfl
  rw [hc] at hd
  cases hd

theorem hexChar_unreserved {n : Nat} (h : n < 16) : isUnreserved (hexChar n) = true := by
  revert n
  decide

theorem hexDigit_hexChar {n : Nat} (h : n < 16) : hexDigit (hexChar n) = some n := by
  revert n
  decide

variable {s : Bytes}

theorem mem_uriEncode (hc : c ∈ uriEncode s) : isUnreserved c = true ∨ c = 37 := by
  obtain ⟨d, -, hd⟩ := mem_flatMap.mp hc
  have hlt : d.toNat < 256 := d.toNat_lt
  by_cases hun : isUnreserved d = true
  · rw [if_pos hun] at hd
    obtain rfl := mem_singleton.mp hd
    exact Or.inl hun
  · rw [if_neg hun, mem_cons, mem_pair] at hd
    rcases hd with rfl | rfl | rfl
    · exact Or.inr rfl
    · exact Or.inl (hexChar_unreserved (by omega))
    · exact Or.inl (hexChar_unreserved (by omega))

theorem notMem_uriEncode (h : isUnreserved c = false) (hne : c ≠ 37) (s : Bytes) :
    c ∉ uriEncode s := by
  intro hc
  rcases mem_uriEncode hc with hun | heq
  · exact unreserved_ne hun h rfl
  · exact hne heq

theorem uriEncode_eq_nil : uriEncode s = [] ↔ s = [] := by
  cases s with
  | nil => exact iff_of_true rfl rfl
  | cons c s =>
    refine iff_of_false ?_ (cons_ne_nil _ _)
    unfold uriEncode
    rw [flatMap_cons]
    split <;> simp

theorem uriEncode_of_unreserved (h : ∀ c ∈ s, isUnreserved c = true) : uriEncode s = s := by
  induction s with
  | nil => rfl
  | cons c s ih =>
    unfold uriEncode at ih ⊢
    rw [flatMap_cons, if_pos (h c mem_cons_self),
      ih fun d hd => h d (mem_cons_of_mem _ hd)]
    rfl

/-- **Decoding takes the encoding back.** -/
theorem uridecode_uriEncode (s : Bytes) : evhttpUridecode (uriEncode s) = s := by
  induction s with
  | nil => rfl
  | cons c s ih =>
    have hlt : c.toNat < 256 := c.toNat_lt
    unfold uriEncode at ih ⊢
    rw [flatMap_cons]
    by_cases hun : isUnreserved c = true
    · have hplus : c ≠ 43 := unreserved_ne hun (by decide)
      have hpercent : c ≠ 37 := unreserved_ne hun (by decide)
      rw [if_pos hun, singleton_append, evhttpUridecode.eq_4 _ _ hplus
        (fun _ _ _ h _ => hpercent h), ih]
    · rw [if_neg hun]
      simp only [cons_append, nil_append]
      rw [evhttpUridecode, hexDigit_hexChar (by omega), hexDigit_hexChar (by omega)]
      dsimp only
      rw [ih, show c.toNat / 16 * 16 + c.toNat % 16 = c.toNat by omega, UInt8.ofNat_toNat]

theorem evhttpEncodeUri_eq (h : NulFree s) : evhttpEncodeUri s = uriEncode s := by
  unfold evhttpEncodeUri uriEncode
  rw [cStr_of_nulFree h]

theorem nulFree_of_unreserved (h : ∀ c ∈ s, isUnreserved c = true) : NulFree s :=
  fun hc => unreserved_ne (h 0 hc) (by decide) rfl

/-- The functions of libevent are such a codec. -/
def percentCodec : UriCodec where
  encode := evhttpEncodeUri
  decode := evhttpUridecode
  encode_nulFree := by
    intro s hs
    rw [evhttpEncodeUri_eq hs]
    exact notMem_uriEncode (by decide) (by decide) s
  decode_encode := by
    intro s hs
    rw [evhttpEncodeUri_eq hs, uridecode_uriEncode]

end CortxS3

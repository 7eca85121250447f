/-
Bucket names are accepted by the naming rules.

The loop over the name is two in one.  One looks for characters that do not belong into a name and
for separators side by side (`scanName_valid`), the other counts digits and dots as long as the name
may be an IP address (`scanName_ip`).  Both are read from the front: what the flags say of the
characters before is all that matters for the rest.
-/
import CortxS3.Server.PutBucketAction

namespace CortxS3

open List

namespace S3PutBucketAction

/-! ### The naming rules -/

def IsAlnum (c : UInt8) : Prop := islower c = true ∨ isdigit c = true

def IsSeparator (c : UInt8) : Prop := c = dot ∨ c = dash

/-- One to three digits. -/
structure Group (g : Bytes) : Prop where
  nonempty : g ≠ []
  length : g.length ≤ 3
  digits : ∀ c ∈ g, isdigit c = true

/-- Four groups with a dot between each two. -/
def IpAddress (name : Bytes) : Prop :=
  ∃ a b c d, name = a ++ dot :: (b ++ dot :: (c ++ dot :: d)) ∧
    Group a ∧ Group b ∧ Group c ∧ Group d

structure WellNamed (name : Bytes) : Prop where
  length : 3 ≤ name.length ∧ name.length ≤ 63
  characters : ∀ c ∈ name, IsAlnum c ∨ IsSeparator c
  first : ∀ c ∈ name.head?, IsAlnum c
  last : ∀ c ∈ name.getLast?, ¬IsSeparator c
  apart : name.IsChain fun a b => ¬(IsSeparator a ∧ IsSeparator b)
  notIp : ¬IpAddress name

/-! ### Characters -/

theorem not_isSeparator_of_isAlnum {c : UInt8} (h : IsAlnum c) : ¬IsSeparator c := by
  rintro (rfl | rfl)
  · revert h
    unfold IsAlnum
    decide
  · revert h
    unfold IsAlnum
    decide

theorem not_islower_of_isdigit {c : UInt8} (h : isdigit c = true) : islower c = false := by
  unfold isdigit at h
  unfold islower
  simp only [Bool.and_eq_true, decide_eq_true_eq, UInt8.le_iff_toNat_le] at h
  simp only [Bool.and_eq_false_iff, decide_eq_false_iff_not, UInt8.le_iff_toNat_le]
  have := h.2
  left
  change ¬(97 ≤ c.toNat)
  change c.toNat ≤ 57 at this
  omega

/-! ### The first loop -/

/-- Separators have other characters around them; `after` is whether one stands before. -/
def Apart : Bool → Bytes → Prop
  | _, [] => True
  | after, c :: rest =>
    (IsAlnum c ∧ Apart false rest) ∨ (IsSeparator c ∧ after = false ∧ Apart true rest)

theorem scanName_invalid {s : NameScan} (h : s.validBucketName = false) (rest : Bytes) :
    scanName s rest = s := by
  cases rest with
  | nil => rfl
  | cons c rest =>
    rw [scanName, h]
    rfl

theorem scanChar_cases (s : NameScan) (c : UInt8) :
    (islower c = true ∧
      scanChar s c = { s with foundSpecialChar := false, isValidIp := false }) ∨
    (isdigit c = true ∧
      scanChar s c = { s with foundSpecialChar := false, digitCount := s.digitCount + 1 }) ∨
    (c = dot ∧ s.foundSpecialChar = false ∧
      scanChar s c = { s with
        isValidIp := s.isValidIp && !decide (3 < s.digitCount)
        dotCount := s.dotCount + 1
        foundSpecialChar := true
        digitCount := 0 }) ∨
    (c = dash ∧ s.foundSpecialChar = false ∧
      scanChar s c = { s with foundSpecialChar := true, isValidIp := false }) ∨
    (¬IsAlnum c ∧ (IsSeparator c → s.foundSpecialChar = true) ∧
      (scanChar s c).validBucketName = false) := by
  unfold scanChar
  by_cases hlower : islower c = true
  · exact .inl ⟨hlower, if_pos hlower⟩
  rw [if_neg hlower]
  by_cases hdigit : isdigit c = true
  · exact .inr (.inl ⟨hdigit, if_pos hdigit⟩)
  rw [if_neg hdigit]
  have halnum : ¬IsAlnum c := not_or.mpr ⟨hlower, hdigit⟩
  by_cases hdot : c = dot
  · rw [if_pos hdot]
    cases hfound : s.foundSpecialChar with
    | true => exact .inr (.inr (.inr (.inr ⟨halnum, fun _ => rfl, rfl⟩)))
    | false => exact .inr (.inr (.inl ⟨hdot, rfl, rfl⟩))
  rw [if_neg hdot]
  by_cases hdash : c = dash
  · rw [if_pos hdash]
    cases hfound : s.foundSpecialChar with
    | true => exact .inr (.inr (.inr (.inr ⟨halnum, fun _ => rfl, rfl⟩)))
    | false => exact .inr (.inr (.inr (.inl ⟨hdash, rfl, rfl⟩)))
  rw [if_neg hdash]
  refine .inr (.inr (.inr (.inr ⟨halnum, ?_, rfl⟩)))
  rintro (hc | hc)
  · exact absurd hc hdot
  · exact absurd hc hdash

theorem scanName_valid (rest : Bytes) (s : NameScan) (hs : s.validBucketName = true) :
    (scanName s rest).validBucketName = true ↔ Apart s.foundSpecialChar rest := by
  induction rest generalizing s with
  | nil => exact iff_of_true hs trivial
  | cons c rest ih =>
    rw [scanName, if_pos hs, Apart]
    obtain ⟨hlower, hnext⟩ | ⟨hdigit, hnext⟩ | ⟨hdot, hfound, hnext⟩ | ⟨hdash, hfound, hnext⟩ |
      ⟨halnum, hsep, hnext⟩ := scanChar_cases s c
    · rw [ih (scanChar s c) (by rw [hnext]; exact hs), hnext]
      have halnum : IsAlnum c := .inl hlower
      simp [halnum, not_isSeparator_of_isAlnum halnum]
    · rw [ih (scanChar s c) (by rw [hnext]; exact hs), hnext]
      have halnum : IsAlnum c := .inr hdigit
      simp [halnum, not_isSeparator_of_isAlnum halnum]
    · rw [ih (scanChar s c) (by rw [hnext]; exact hs), hnext]
      have hsep : IsSeparator c := .inl hdot
      have halnum : ¬IsAlnum c := fun h => not_isSeparator_of_isAlnum h hsep
      simp [hsep, halnum, hfound]
    · rw [ih (scanChar s c) (by rw [hnext]; exact hs), hnext]
      have hsep : IsSeparator c := .inr hdash
      have halnum : ¬IsAlnum c := fun h => not_isSeparator_of_isAlnum h hsep
      simp [hsep, halnum, hfound]
    · rw [scanName_invalid hnext, hnext]
      refine iff_of_false Bool.false_ne_true ?_
      rintro (⟨h, _⟩ | ⟨h, hfound, _⟩)
      · exact halnum h
      · rw [hsep h] at hfound
        cases hfound

theorem apart_iff (after : Bool) (name : Bytes) :
    Apart after name ↔
      (∀ c ∈ name, IsAlnum c ∨ IsSeparator c) ∧
        (after = true → ∀ c ∈ name.head?, ¬IsSeparator c) ∧
          name.IsChain fun a b => ¬(IsSeparator a ∧ IsSeparator b) := by
  induction name generalizing after with
  | nil => simp [Apart]
  | cons c rest ih =>
    rw [Apart, ih, ih, isChain_cons]
    simp only [mem_cons, forall_eq_or_imp, List.head?_cons, Option.mem_some_iff,
      Bool.false_eq_true, false_imp_iff, true_and, true_imp_iff]
    by_cases hsep : IsSeparator c
    · have halnum : ¬IsAlnum c := fun h => not_isSeparator_of_isAlnum h hsep
      cases after <;> simp [hsep, halnum]
    · cases after <;> simp [hsep, and_assoc]

/-! ### The second loop -/

/-- At most three digits, and none of them missing. -/
def Digits (g : Bytes) : Prop := g.length ≤ 3 ∧ ∀ c ∈ g, isdigit c = true

/-- What is left of an address with `dots` dots, after `digits` digits of a group. -/
def IpRest : Nat → Nat → Bytes → Prop
  | dots, digits, [] => dots = 0 ∧ digits ≤ 3
  | dots, digits, c :: rest =>
    (isdigit c = true ∧ IpRest dots (digits + 1) rest) ∨
      (c = dot ∧ digits ≤ 3 ∧ ∃ fewer, dots = fewer + 1 ∧ IpRest fewer 0 rest)

/-- The last test of a name, on the flags of the loop. -/
def looksLikeIp (s : NameScan) : Prop :=
  s.isValidIp = true ∧ s.dotCount = 3 ∧ s.digitCount ≤ 3

theorem not_looksLikeIp_scanName (rest : Bytes) (s : NameScan) (h : s.isValidIp = false) :
    (scanName s rest).isValidIp = false := by
  induction rest generalizing s with
  | nil => exact h
  | cons c rest ih =>
    rw [scanName]
    split_ifs
    · refine ih _ ?_
      unfold scanChar
      split_ifs
      · rfl
      · exact h
      · exact h
      · dsimp only
        rw [h, Bool.false_and]
      · exact h
      · rfl
      · exact h
    · exact h

theorem scanName_ip (rest : Bytes) (s : NameScan)
    (hvalid : (scanName s rest).validBucketName = true) :
    looksLikeIp (scanName s rest) ↔
      s.isValidIp = true ∧ ∃ dots, s.dotCount + dots = 3 ∧ IpRest dots s.digitCount rest := by
  induction rest generalizing s with
  | nil =>
    unfold looksLikeIp IpRest
    rw [scanName]
    simp
  | cons c rest ih =>
    have hs : s.validBucketName = true := by
      by_contra hinvalid
      rw [Bool.not_eq_true] at hinvalid
      rw [scanName_invalid hinvalid, hinvalid] at hvalid
      cases hvalid
    rw [scanName, if_pos hs] at hvalid ⊢
    have hletter : ∀ next : NameScan, scanChar s c = next → next.isValidIp = false →
        isdigit c = false → c ≠ dot →
        (looksLikeIp (scanName (scanChar s c) rest) ↔
          s.isValidIp = true ∧
            ∃ dots, s.dotCount + dots = 3 ∧ IpRest dots s.digitCount (c :: rest)) := by
      rintro _ rfl hip hdigit hdot
      refine iff_of_false ?_ ?_
      · rintro ⟨h, _⟩
        rw [not_looksLikeIp_scanName rest _ hip] at h
        cases h
      · rintro ⟨_, dots, _, ⟨h, _⟩ | ⟨h, _⟩⟩
        · rw [hdigit] at h
          cases h
        · exact hdot h
    obtain ⟨hlower, hnext⟩ | ⟨hdigit, hnext⟩ | ⟨hdot, hfound, hnext⟩ | ⟨hdash, hfound, hnext⟩ |
      ⟨halnum, hsep, hnext⟩ := scanChar_cases s c
    · refine hletter _ hnext rfl ?_ ?_
      · by_contra hdigit
        rw [Bool.not_eq_false] at hdigit
        rw [not_islower_of_isdigit hdigit] at hlower
        cases hlower
      · rintro rfl
        revert hlower
        decide
    · rw [ih _ hvalid, hnext]
      have hdot : c ≠ dot := by
        rintro rfl
        revert hdigit
        decide
      simp only [IpRest, hdigit, hdot, true_and, false_and, or_false]
    · rw [ih _ hvalid, hnext]
      subst hdot
      have hdigit : isdigit dot = false := by decide
      simp only [IpRest, hdigit, Bool.false_eq_true, false_and, false_or, true_and,
        Bool.and_eq_true, Bool.not_eq_true', decide_eq_false_iff_not, Nat.not_lt]
      constructor
      · rintro ⟨⟨hip, hshort⟩, dots, hdots, hrest⟩
        exact ⟨hip, dots + 1, by omega, hshort, dots, rfl, hrest⟩
      · rintro ⟨hip, _, hdots, hshort, fewer, rfl, hrest⟩
        exact ⟨⟨hip, hshort⟩, fewer, by omega, hrest⟩
    · refine hletter _ hnext rfl ?_ ?_
      · rw [hdash]
        decide
      · rw [hdash]
        decide
    · rw [scanName_invalid hnext, hnext] at hvalid
      cases hvalid

theorem ipRest_iff (rest : Bytes) (dots digits : Nat) :
    IpRest dots digits rest ↔
      ∃ (first : Bytes) (groups : List Bytes),
        rest = first ++ groups.flatMap (fun g => dot :: g) ∧ groups.length = dots ∧
          digits + first.length ≤ 3 ∧ (∀ c ∈ first, isdigit c = true) ∧
            ∀ g ∈ groups, Digits g := by
  induction rest generalizing dots digits with
  | nil =>
    rw [IpRest]
    constructor
    · rintro ⟨rfl, hdigits⟩
      exact ⟨[], [], rfl, rfl, hdigits, fun _ h => absurd h not_mem_nil,
        fun _ h => absurd h not_mem_nil⟩
    · rintro ⟨first, groups, hrest, rfl, hdigits, -, -⟩
      obtain ⟨hfirst, hgroups⟩ := append_eq_nil_iff.mp hrest.symm
      refine ⟨?_, by omega⟩
      cases groups with
      | nil => rfl
      | cons g groups => cases hgroups
  | cons c rest ih =>
    rw [IpRest]
    constructor
    · rintro (⟨hdigit, hrest⟩ | ⟨rfl, hdigits, fewer, rfl, hrest⟩)
      · obtain ⟨first, groups, rfl, hdots, hlength, hfirst, hgroups⟩ := (ih _ _).mp hrest
        refine ⟨c :: first, groups, rfl, hdots, ?_, ?_, hgroups⟩
        · rw [length_cons]
          omega
        · rw [forall_mem_cons]
          exact ⟨hdigit, hfirst⟩
      · obtain ⟨first, groups, rfl, hdots, hlength, hfirst, hgroups⟩ := (ih _ _).mp hrest
        refine ⟨[], first :: groups, rfl, congrArg (· + 1) hdots, hdigits,
          fun _ h => absurd h not_mem_nil, ?_⟩
        rw [forall_mem_cons]
        exact ⟨⟨by omega, hfirst⟩, hgroups⟩
    · rintro ⟨first, groups, hrest, rfl, hlength, hfirst, hgroups⟩
      cases first with
      | cons d first =>
        rw [cons_append, List.cons.injEq] at hrest
        obtain ⟨rfl, hrest⟩ := hrest
        rw [length_cons] at hlength
        rw [forall_mem_cons] at hfirst
        exact .inl ⟨hfirst.1, (ih _ _).mpr
          ⟨first, groups, hrest, rfl, by omega, hfirst.2, hgroups⟩⟩
      | nil =>
        cases groups with
        | nil => cases hrest
        | cons g groups =>
          rw [nil_append, flatMap_cons, cons_append, List.cons.injEq] at hrest
          rw [forall_mem_cons] at hgroups
          exact .inr ⟨hrest.1, hlength, groups.length, rfl, (ih _ _).mpr
            ⟨g, groups, hrest.2, rfl, by rw [Nat.zero_add]; exact hgroups.1.1,
              hgroups.1.2, hgroups.2⟩⟩

theorem ipAddress_iff {name : Bytes} (hfirst : ∀ c ∈ name.head?, ¬IsSeparator c)
    (hlast : ∀ c ∈ name.getLast?, ¬IsSeparator c)
    (hapart : name.IsChain fun a b => ¬(IsSeparator a ∧ IsSeparator b)) :
    IpRest 3 0 name ↔ IpAddress name := by
  rw [ipRest_iff]
  constructor
  · rintro ⟨a, groups, hname, hlength, ha, hdigits, hgroups⟩
    obtain ⟨b, c, d, rfl⟩ := length_eq_three.mp hlength
    simp only [flatMap_cons, flatMap_nil, append_nil, cons_append] at hname
    simp only [forall_mem_cons] at hgroups
    have hdot : IsSeparator dot := .inl rfl
    have hbetween : ∀ front back, name ≠ front ++ dot :: dot :: back := by
      intro front back hname
      rw [hname] at hapart
      exact (isChain_cons_cons.mp hapart.right_of_append).1 ⟨hdot, hdot⟩
    refine ⟨a, b, c, d, hname, ⟨?_, by omega, hdigits⟩, ⟨?_, hgroups.1.1, hgroups.1.2⟩,
      ⟨?_, hgroups.2.1.1, hgroups.2.1.2⟩, ⟨?_, hgroups.2.2.1.1, hgroups.2.2.1.2⟩⟩
    · rintro rfl
      rw [hname] at hfirst
      exact hfirst dot rfl hdot
    · rintro rfl
      exact hbetween a _ hname
    · rintro rfl
      refine hbetween (a ++ dot :: b) d ?_
      rw [hname, append_assoc]
      rfl
    · rintro rfl
      refine hlast dot ?_ hdot
      rw [hname, show a ++ dot :: (b ++ dot :: (c ++ [dot])) =
        (a ++ dot :: (b ++ dot :: c)) ++ [dot] by simp]
      exact List.getLast?_concat
  · rintro ⟨a, b, c, d, rfl, ha, hb, hc, hd⟩
    refine ⟨a, [b, c, d], ?_, rfl, ?_, ha.digits, ?_⟩
    · simp
    · rw [Nat.zero_add]
      exact ha.length
    · simp only [forall_mem_cons]
      exact ⟨⟨hb.length, hb.digits⟩, ⟨hc.length, hc.digits⟩, ⟨hd.length, hd.digits⟩,
        fun _ h => absurd h not_mem_nil⟩

/-! ### The answer -/

theorem validateBucketName_eq {name : Bytes}
    (hlength : ¬(name.length < bucketnameMinLength || bucketnameMaxLength < name.length) = true)
    (hfirst : (name.head?.any fun c => islower c || isdigit c) = true)
    (hlast : ¬(name.getLast?.any fun c => c = dot || c = dash) = true) :
    validateBucketName name = .ok () ↔
      (scanName {} name).validBucketName = true ∧ ¬looksLikeIp (scanName {} name) := by
  unfold validateBucketName
  rw [if_neg hlength, if_neg (by rw [hfirst]; decide), if_neg hlast]
  dsimp only
  unfold looksLikeIp
  cases (scanName {} name).validBucketName <;> cases (scanName {} name).isValidIp <;>
    by_cases hdots : (scanName {} name).dotCount = 3 <;>
      by_cases hdigits : (scanName {} name).digitCount ≤ 3 <;>
        simp [hdots, hdigits]

theorem scanName_wellNamed {name : Bytes} (hfirst : ∀ c ∈ name.head?, IsAlnum c)
    (hlast : ∀ c ∈ name.getLast?, ¬IsSeparator c) :
    (scanName {} name).validBucketName = true ∧ ¬looksLikeIp (scanName {} name) ↔
      (∀ c ∈ name, IsAlnum c ∨ IsSeparator c) ∧
        (name.IsChain fun a b => ¬(IsSeparator a ∧ IsSeparator b)) ∧ ¬IpAddress name := by
  rw [scanName_valid name {} rfl, apart_iff]
  constructor
  · rintro ⟨⟨hcharacters, -, hapart⟩, hip⟩
    refine ⟨hcharacters, hapart, fun haddress => hip ?_⟩
    have hvalid : (scanName {} name).validBucketName = true :=
      (scanName_valid name {} rfl).mpr ((apart_iff _ _).mpr ⟨hcharacters, nofun, hapart⟩)
    rw [scanName_ip name {} hvalid]
    exact ⟨rfl, 3, rfl,
      (ipAddress_iff (fun c hc => not_isSeparator_of_isAlnum (hfirst c hc)) hlast hapart).mpr
        haddress⟩
  · rintro ⟨hcharacters, hapart, hip⟩
    refine ⟨⟨hcharacters, nofun, hapart⟩, fun hlooks => hip ?_⟩
    have hvalid : (scanName {} name).validBucketName = true :=
      (scanName_valid name {} rfl).mpr ((apart_iff _ _).mpr ⟨hcharacters, nofun, hapart⟩)
    rw [scanName_ip name {} hvalid] at hlooks
    obtain ⟨_, dots, hdots, hrest⟩ := hlooks
    obtain rfl : dots = 3 := by
      have : 0 + dots = 3 := hdots
      omega
    exact (ipAddress_iff (fun c hc => not_isSeparator_of_isAlnum (hfirst c hc)) hlast hapart).mp
      hrest

theorem length_guard (name : Bytes) :
    (name.length < bucketnameMinLength || bucketnameMaxLength < name.length) = true ↔
      ¬(3 ≤ name.length ∧ name.length ≤ 63) := by
  unfold bucketnameMinLength bucketnameMaxLength
  rw [Bool.or_eq_true, decide_eq_true_eq, decide_eq_true_eq]
  omega

theorem first_guard {name : Bytes} (hname : name ≠ []) :
    (name.head?.any fun c => islower c || isdigit c) = true ↔ ∀ c ∈ name.head?, IsAlnum c := by
  obtain ⟨c, rest, rfl⟩ := exists_cons_of_ne_nil hname
  simp [IsAlnum]

theorem last_guard (name : Bytes) :
    (name.getLast?.any fun c => c = dot || c = dash) = true ↔
      ¬∀ c ∈ name.getLast?, ¬IsSeparator c := by
  cases name.getLast? with
  | none => simp
  | some c => simp [IsSeparator, or_iff_not_imp_left]

theorem accepted_iff (name : Bytes) : validateBucketName name = .ok () ↔ WellNamed name := by
  by_cases hlength : 3 ≤ name.length ∧ name.length ≤ 63
  swap
  · have hrefused : validateBucketName name = .error "InvalidBucketName" :=
      if_pos ((length_guard name).mpr hlength)
    rw [hrefused]
    exact iff_of_false nofun fun h => hlength h.length
  have hshort := mt (length_guard name).mp (not_not.mpr hlength)
  have hname : name ≠ [] := ne_nil_of_length_pos (by omega)
  by_cases hfirst : ∀ c ∈ name.head?, IsAlnum c
  swap
  · have hguard := mt (first_guard hname).mp hfirst
    have hrefused : validateBucketName name = .error "InvalidBucketName" := by
      unfold validateBucketName
      rw [if_neg hshort, if_pos]
      rw [Bool.not_eq_true', ← Bool.not_eq_true]
      exact hguard
    rw [hrefused]
    exact iff_of_false nofun fun h => hfirst h.first
  have hhead := (first_guard hname).mpr hfirst
  by_cases hlast : ∀ c ∈ name.getLast?, ¬IsSeparator c
  swap
  · have hrefused : validateBucketName name = .error "InvalidBucketName" := by
      unfold validateBucketName
      rw [if_neg hshort, if_neg (by rw [hhead]; decide), if_pos ((last_guard name).mpr hlast)]
    rw [hrefused]
    exact iff_of_false nofun fun h => hlast h.last
  have htail := mt (last_guard name).mp (not_not.mpr hlast)
  rw [validateBucketName_eq hshort hhead htail, scanName_wellNamed hfirst hlast]
  constructor
  · rintro ⟨hcharacters, hapart, hip⟩
    exact ⟨hlength, hcharacters, hfirst, hlast, hapart, hip⟩
  · intro h
    exact ⟨h.characters, h.apart, h.notIp⟩

/-- **A bucket name is accepted if and only if it is well named**, and else the answer is
`InvalidBucketName`. -/
theorem validateBucketName_iff (name : Bytes) :
    (validateBucketName name = .ok () ↔ WellNamed name) ∧
      (¬WellNamed name → validateBucketName name = .error "InvalidBucketName") := by
  refine ⟨accepted_iff name, fun hnot => ?_⟩
  have hrefused : validateBucketName name ≠ .ok () := fun h => hnot ((accepted_iff name).mp h)
  revert hrefused
  unfold validateBucketName
  dsimp only
  split_ifs <;> intro hrefused
  · rfl
  · rfl
  · rfl
  · rfl
  · exact absurd rfl hrefused

end S3PutBucketAction

end CortxS3

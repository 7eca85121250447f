/-
How the parts and fragments of an object are read back, key by key.

A saved entry is read back under its part (`fromJson_pair`), and a load takes the keys that begin
with the object's name and version, of as many as the number of fragments makes it read
(`loadFrom_eq`).  What `add_extended_entry` builds is described by `Invariant`.
-/
import CortxS3.Server.ObjectExtendedMetadata
import CortxS3.Proofs.Base64
import CortxS3.Proofs.Decimal

namespace CortxS3

open List S3M0Uint128Helper

namespace S3ObjectExtendedMetadata

open OrderedIndex SortedMap

/-! ### The tokens of a key -/

variable {c : UInt8}

theorem pieces_of_notMem : ∀ {s : Bytes}, c ∉ s → pieces c s = [s] := by
  intro s
  induction s with
  | nil => intro _; rfl
  | cons d s ih =>
    intro h
    rw [mem_cons, not_or] at h
    unfold pieces
    rw [if_neg (fun hc => h.1 hc.symm), ih h.2]

theorem pieces_append (t : Bytes) :
    ∀ {s : Bytes}, c ∉ s → pieces c (s ++ c :: t) = s :: pieces c t := by
  intro s
  induction s with
  | nil =>
    intro _
    rw [nil_append]
    conv => lhs; unfold pieces
    rw [if_pos rfl]
  | cons d s ih =>
    intro h
    rw [mem_cons, not_or] at h
    rw [cons_append]
    conv => lhs; unfold pieces
    rw [if_neg (fun hc => h.1 hc.symm), ih h.2]

theorem sep_notMem_field (hc : c ≠ sep) (n : Nat) : sep ∉ c :: decimal n := by
  intro h
  rcases mem_cons.mp h with h | h
  · exact hc h.symm
  · exact (decimal_isDigit n _ h).ne (Or.inr (by decide)) rfl

theorem getlineTokens_part {ver : Bytes} (hver : sep ∉ ver) (k j : Nat) :
    getlineTokens (ver ++ sep :: (80 :: decimal k ++ sep :: (70 :: decimal j))) =
      [ver, 80 :: decimal k, 70 :: decimal j] := by
  unfold getlineTokens
  rw [pieces_append _ hver, pieces_append _ (sep_notMem_field (by decide) k),
    pieces_of_notMem (sep_notMem_field (by decide) j)]
  exact if_neg (by simp)

/-- The tokens of the key of a fragment of an object without parts. -/
theorem getlineTokens_simple {ver : Bytes} (hver : sep ∉ ver) (j : Nat) :
    getlineTokens (ver ++ sep :: (70 :: decimal j)) = [ver, 70 :: decimal j] := by
  unfold getlineTokens
  rw [pieces_append _ hver, pieces_of_notMem (sep_notMem_field (by decide) j)]
  exact if_neg (by simp)

theorem entryKey_part (m : S3ObjectExtendedMetadata) (k j : Nat) :
    m.entryKey true k j =
      m.prefixOfUniqueObject ++ sep :: (80 :: decimal k ++ sep :: (70 :: decimal j)) := by
  have hP : ascii "P" = [80] := by decide
  have hF : ascii "F" = [70] := by decide
  unfold entryKey
  rw [if_pos rfl, hP, hF]
  simp

theorem entryKey_simple (m : S3ObjectExtendedMetadata) (k j : Nat) :
    m.entryKey false k j = m.prefixOfUniqueObject ++ sep :: (70 :: decimal j) := by
  have hF : ascii "F" = [70] := by decide
  unfold entryKey
  rw [if_neg (by decide), hF]
  simp

theorem drop_objectName (m : S3ObjectExtendedMetadata) (rest : Bytes) :
    (m.prefixOfUniqueObject ++ rest).drop (m.objectName.length + 1) = m.versionId ++ rest := by
  unfold prefixOfUniqueObject
  rw [append_assoc, append_assoc, drop_length_add_append]
  rfl

/-! ### Reading one entry back -/

/-- The part a fragment belongs to, and its number in it; 0 stands for an object without parts. -/
structure Entry where
  part : Nat
  frag : Nat
  ctx : S3PartFragContext

/-- The pair an entry is saved as. -/
def Entry.pair (codec : JsonCodec) (m : S3ObjectExtendedMetadata) (e : Entry) : Bytes × Bytes :=
  (m.entryKey (e.part ≠ 0) e.part e.frag, getJsonStr codec e.ctx)

/-- What comes back of an entry: its part number is that of the key. -/
def Entry.loaded (e : Entry) : S3PartFragContext := { e.ctx with partNumber := e.part }

/-- A fragment of this version and part, in numbers that fit. -/
structure Belongs (version : Bytes) (part : Nat) (ctx : S3PartFragContext) : Prop where
  version : ctx.versionID = version
  multipart : ctx.isMultipart = decide (part ≠ 0)
  size : ctx.itemSize < sizeMod
  layout : ctx.layoutId < 2 ^ 31

theorem parse_getJsonStr (codec : JsonCodec) {ctx : S3PartFragContext}
    (hsize : ctx.itemSize < sizeMod) (hlayout : ctx.layoutId < 2 ^ 31) :
    codec.parse (cStr (getJsonStr codec ctx)) =
      some { oid := toString ctx.motrOID
             pvid := fidToString ctx.pvid
             size := ctx.itemSize
             layoutId := ctx.layoutId } := by
  apply codec.parse_write
  · exact toString_plain ctx.motrOID
  · intro c hc
    exact (base64Encode_plain _ c hc).1
  · exact hsize
  · exact hlayout

theorem find_P_field (n : Nat) : find (ascii "P") (80 :: decimal n) = some 0 := by
  rw [find_eq_zero_iff, show ascii "P" = [80] by decide]
  rfl

theorem find_P_frag (n : Nat) : find (ascii "P") (70 :: decimal n) = none := by
  rw [show ascii "P" = [80] by decide]
  refine find_singleton_eq_none.mpr ?_
  intro h
  rcases mem_cons.mp h with h | h
  · exact absurd h (by decide)
  · exact (decimal_isDigit n _ h).ne (Or.inr (by decide)) rfl

variable {m : S3ObjectExtendedMetadata}

/-- **A saved entry is read back under its part.** -/
theorem fromJson_pair (codec : JsonCodec) {m₀ : S3ObjectExtendedMetadata} {e : Entry}
    (hobj : m₀.objectName = m.objectName) (hsep : sep ∉ m.versionId)
    (hfits : Belongs m.versionId e.part e.ctx) (hpart : e.part < 2 ^ 31) :
    ∃ m', fromJson codec m₀ (e.pair codec m).1 (e.pair codec m).2 = some m' ∧
      m'.extObjects = pushEntry m₀.extObjects e.part e.loaded ∧
      m'.parts = (if e.part = 0 then m₀.parts else e.part) ∧
      m'.objectName = m₀.objectName ∧ m'.versionId = m₀.versionId ∧
      m'.fragments = m₀.fragments := by
  obtain ⟨k, j, ctx⟩ := e
  have hparse := parse_getJsonStr codec hfits.size hfits.layout
  have hmulti := hfits.multipart
  have hversion := hfits.version
  dsimp only at hparse hmulti hversion hpart ⊢
  unfold fromJson Entry.pair Entry.loaded
  dsimp only
  rw [hparse, hobj]
  by_cases hk : k = 0
  · subst hk
    have hflag : ctx.isMultipart = false := by
      rw [hmulti]
      rfl
    have hkey : (m.entryKey (decide ((0 : Nat) ≠ 0)) 0 j).drop (m.objectName.length + 1) =
        m.versionId ++ sep :: (70 :: decimal j) := by
      rw [show decide ((0 : Nat) ≠ 0) = false from rfl, entryKey_simple, drop_objectName]
    rw [hkey, getlineTokens_simple hsep]
    simp [find_P_frag, hflag, hversion, toM0Uint128_toString, toM0Fid_fidToString]
  · have hflag : ctx.isMultipart = true := by
      rw [hmulti]
      exact decide_eq_true hk
    have hkey : (m.entryKey (decide (k ≠ 0)) k j).drop (m.objectName.length + 1) =
        m.versionId ++ sep :: (80 :: decimal k ++ sep :: (70 :: decimal j)) := by
      rw [show decide (k ≠ 0) = true from decide_eq_true hk, entryKey_part, drop_objectName]
    rw [hkey, getlineTokens_part hsep]
    simp [find_P_field, hflag, hversion, hk, stoi_decimal hpart, atoi_decimal hpart,
      toM0Uint128_toString, toM0Fid_fidToString, toUnsigned]
    omega

/-! ### Reading several entries -/

/-- The pairs of a list taken one after the other. -/
def takeAll (codec : JsonCodec) (m : S3ObjectExtendedMetadata) (l : List (Bytes × Bytes)) :
    Option S3ObjectExtendedMetadata :=
  l.foldlM (fun m kv => fromJson codec m kv.1 kv.2) m

theorem takeAll_cons (codec : JsonCodec) (m : S3ObjectExtendedMetadata) (kv : Bytes × Bytes)
    (l : List (Bytes × Bytes)) :
    takeAll codec m (kv :: l) = (fromJson codec m kv.1 kv.2).bind fun m' => takeAll codec m' l :=
  rfl

theorem takeAll_append (codec : JsonCodec) (m : S3ObjectExtendedMetadata)
    (l l' : List (Bytes × Bytes)) :
    takeAll codec m (l ++ l') = (takeAll codec m l).bind fun m' => takeAll codec m' l' := by
  unfold takeAll
  rw [foldlM_append]
  rfl

/-- The same object, with the same number of fragments to be read. -/
structure SameObject (m m' : S3ObjectExtendedMetadata) : Prop where
  objectName : m'.objectName = m.objectName
  versionId : m'.versionId = m.versionId
  fragments : m'.fragments = m.fragments

variable {m' : S3ObjectExtendedMetadata}

theorem SameObject.prefix_eq (h : SameObject m m') :
    m'.prefixOfUniqueObject = m.prefixOfUniqueObject := by
  unfold prefixOfUniqueObject
  rw [h.objectName, h.versionId]

theorem SameObject.trans {m'' : S3ObjectExtendedMetadata} (h : SameObject m m')
    (h' : SameObject m' m'') : SameObject m m'' :=
  ⟨h'.objectName.trans h.objectName, h'.versionId.trans h.versionId,
    h'.fragments.trans h.fragments⟩

variable {codec : JsonCodec}

theorem fromJson_sameObject {key content : Bytes} (h : fromJson codec m key content = some m') :
    SameObject m m' := by
  unfold fromJson at h
  obtain ⟨root, _, h⟩ := Option.bind_eq_some_iff.mp h
  dsimp only at h
  split at h
  · split at h
    · cases h
    · obtain ⟨pos, _, h⟩ := Option.bind_eq_some_iff.mp h
      obtain ⟨part, _, h⟩ := Option.bind_eq_some_iff.mp h
      cases h
      exact ⟨rfl, rfl, rfl⟩
  · cases h
    exact ⟨rfl, rfl, rfl⟩

theorem takeAll_sameObject :
    ∀ {l : List (Bytes × Bytes)} {m m' : S3ObjectExtendedMetadata},
      takeAll codec m l = some m' → SameObject m m' := by
  intro l
  induction l with
  | nil =>
    intro m m' h
    cases h
    exact ⟨rfl, rfl, rfl⟩
  | cons kv l ih =>
    intro m m' h
    rw [takeAll_cons] at h
    obtain ⟨m₁, h₁, h⟩ := Option.bind_eq_some_iff.mp h
    exact (fromJson_sameObject h₁).trans (ih h)

/-- The key begins with `pre`. -/
def begins (pre : Bytes) (kv : Bytes × Bytes) : Bool := pre.isPrefixOf kv.1

/-- One batch: the keys that begin with `pre` are taken until the first that does not. -/
theorem takeBatch_eq (codec : JsonCodec) {pre : Bytes} :
    ∀ (l : List (Bytes × Bytes)) (m : S3ObjectExtendedMetadata),
      m.prefixOfUniqueObject = pre →
      takeBatch codec m l =
        match takeAll codec m (l.takeWhile (begins pre)) with
        | none => .failed
        | some m' => if l.all (begins pre) then .taken m' else .ended m' := by
  intro l
  induction l with
  | nil =>
    intro m _
    rfl
  | cons kv l ih =>
    intro m hm
    unfold takeBatch
    rw [hm]
    by_cases hp : begins pre kv = true
    · rw [if_pos ((find_eq_zero_iff _ _).mpr hp), takeWhile_cons_of_pos hp, takeAll_cons,
        all_cons, hp, Bool.true_and]
      cases hj : fromJson codec m kv.1 kv.2 with
      | none => rfl
      | some m' => exact ih m' ((fromJson_sameObject hj).prefix_eq.trans hm)
    · rw [if_neg (fun h => hp ((find_eq_zero_iff _ _).mp h)), takeWhile_cons_of_neg hp,
        all_cons]
      rw [Bool.not_eq_true] at hp
      rw [hp]
      rfl

/-- How many keys are read for `r` fragments, in batches of `n`. -/
def keysRead (r n : Nat) : Nat := (r + n - 1) / n * n

variable {n r : Nat}

theorem keysRead_of_le (hr : 0 < r) (h : r ≤ n) : keysRead r n = n := by
  unfold keysRead
  have hdiv : (r + n - 1) / n = 1 := by
    apply Nat.div_eq_of_lt_le <;> omega
  rw [hdiv, Nat.one_mul]

theorem keysRead_of_lt (hn : 0 < n) (h : n < r) : keysRead r n = n + keysRead (r - n) n := by
  unfold keysRead
  have hdiv : (r + n - 1) / n = (r - n + n - 1) / n + 1 := by
    rw [show r + n - 1 = (r - n + n - 1) + n by omega, Nat.add_div_right _ hn]
  rw [hdiv, Nat.succ_mul, Nat.add_comm]

theorem le_keysRead (hn : 0 < n) : r ≤ keysRead r n := by
  unfold keysRead
  have h := Nat.div_add_mod (r + n - 1) n
  have hlt := Nat.mod_lt (r + n - 1) hn
  rw [Nat.mul_comm] at h
  omega

/-- The outcome of a load that takes these pairs. -/
def loadResult (codec : JsonCodec) (m : S3ObjectExtendedMetadata) (l : List (Bytes × Bytes)) :
    LoadResult :=
  match takeAll codec m l with
  | none => .failure
  | some m' => .success m'

theorem loadResult_append {l : List (Bytes × Bytes)} (h : takeAll codec m l = some m')
    (l' : List (Bytes × Bytes)) : loadResult codec m (l ++ l') = loadResult codec m' l' := by
  unfold loadResult
  rw [takeAll_append, h]
  rfl

theorem takeWhile_append_batch {p : Bytes × Bytes → Bool} (batch rest : List (Bytes × Bytes)) :
    (batch ++ rest).takeWhile p =
      if batch.all p then batch ++ rest.takeWhile p else batch.takeWhile p := by
  rw [takeWhile_append]
  by_cases h : batch.all p = true
  · have hall : batch.takeWhile p = batch := by
      rw [takeWhile_eq_self_iff]
      exact all_eq_true.mp h
    rw [if_pos h, if_pos (by rw [hall])]
  · rw [if_neg h, if_neg]
    intro hlen
    have heq : batch.takeWhile p = batch :=
      (List.takeWhile_prefix p).eq_of_length hlen
    exact h (all_eq_true.mpr (takeWhile_eq_self_iff.mp heq))

/-- **A load takes the keys that begin with name and version, of as many as it reads.**

The induction is on the batches.  `r` fragments are still to be read, the reader stands before
`rest`, and there is that much left of the index. -/
theorem loadFrom_eq (codec : JsonCodec) {index : List (Bytes × Bytes)} (hs : Sorted index)
    (hn : 0 < n) {pre : Bytes} :
    ∀ (fuel : Nat) (m : S3ObjectExtendedMetadata) (last : Bytes) (read r : Nat)
      (rest : List (Bytes × Bytes)),
      m.prefixOfUniqueObject = pre → after index last = rest → rest.length < fuel →
      0 < r → m.fragments = read + r → r ≤ rest.length →
      loadFrom codec index n fuel m last read =
        some (loadResult codec m ((rest.take (keysRead r n)).takeWhile (begins pre))) := by
  intro fuel
  induction fuel with
  | zero =>
    intro m last read r rest _ _ hfuel
    omega
  | succ fuel ih =>
    intro m last read r rest hpre hrest hfuel hr hfrag hlen
    have hbatch : next index last n false = rest.take n := by
      show (after index last).take n = rest.take n
      rw [hrest]
    have hne : rest.take n ≠ [] := by
      intro h
      rcases take_eq_nil_iff.mp h with h | h
      · omega
      · rw [h] at hlen
        simp only [length_nil] at hlen
        omega
    obtain ⟨lastKv, hlast⟩ : ∃ kv, (rest.take n).getLast? = some kv :=
      ⟨_, List.getLast?_eq_some_getLast hne⟩
    have hlenBatch : (rest.take n).length = min n rest.length := length_take
    -- the first batch is the front of all that is read
    have hsplit : rest.take (keysRead r n) =
        rest.take n ++ (rest.drop n).take (keysRead r n - n) := by
      have hle : n ≤ keysRead r n := by
        by_cases hrn : r ≤ n
        · rw [keysRead_of_le hr hrn]
        · rw [keysRead_of_lt hn (by omega)]
          omega
      rw [← take_add]
      congr 1
      omega
    unfold loadFrom
    dsimp only
    rw [hbatch, hlast]
    dsimp only
    rw [takeBatch_eq codec _ m hpre, hsplit, takeWhile_append_batch]
    cases htake : takeAll codec m ((rest.take n).takeWhile (begins pre)) with
    | none =>
      dsimp only
      congr 1
      by_cases hall : (rest.take n).all (begins pre) = true
      · have hself : (rest.take n).takeWhile (begins pre) = rest.take n :=
          takeWhile_eq_self_iff.mpr (all_eq_true.mp hall)
        rw [hself] at htake
        rw [if_pos hall]
        unfold loadResult
        rw [takeAll_append, htake]
        rfl
      · rw [if_neg hall]
        unfold loadResult
        rw [htake]
    | some m₁ =>
      have hsame := takeAll_sameObject htake
      dsimp only
      by_cases hall : (rest.take n).all (begins pre) = true
      · have hself : (rest.take n).takeWhile (begins pre) = rest.take n :=
          takeWhile_eq_self_iff.mpr (all_eq_true.mp hall)
        rw [hself] at htake
        rw [if_pos hall, if_pos hall, loadResult_append htake]
        dsimp only
        by_cases hdone : m₁.fragments ≤ read + (rest.take n).length
        · -- nothing of what follows the batch is read
          rw [if_pos hdone]
          have hnil : (rest.drop n).take (keysRead r n - n) = [] := by
            rw [hsame.fragments, hfrag] at hdone
            by_cases hrn : r ≤ n
            · rw [keysRead_of_le hr hrn, Nat.sub_self, take_zero]
            · omega
          rw [hnil]
          rfl
        · rw [if_neg hdone]
          rw [hsame.fragments, hfrag] at hdone
          have hfull : (rest.take n).length = n := by omega
          have hkeys := keysRead_of_lt hn (show n < r by omega)
          obtain ⟨front, hfront⟩ : ∃ front, rest.take n = front ++ [lastKv] := by
            obtain ⟨front, hfront⟩ := List.getLast?_eq_some_iff.mp hlast
            exact ⟨front, hfront⟩
          have hafter : after index lastKv.1 = rest.drop n := by
            apply after_of_split front hs
            rw [append_cons, ← hfront, take_append_drop, ← hrest]
            exact after_suffix hs last
          rw [hfull, show keysRead r n - n = keysRead (r - n) n by omega]
          refine ih m₁ lastKv.1 (read + n) (r - n) (rest.drop n)
            (hsame.prefix_eq.trans hpre) hafter ?_ (by omega) ?_ ?_
          · rw [length_drop]
            omega
          · rw [hsame.fragments, hfrag]
            omega
          · rw [length_drop]
            omega
      · rw [if_neg hall, if_neg hall]
        unfold loadResult
        rw [htake]

/-! ### What `add_extended_entry` builds -/

/-- Metadata built by `add_extended_entry` for one object and version: every fragment goes to a
place that is there, and says of itself what it is. -/
inductive Added (objectName versionId : Bytes) : S3ObjectExtendedMetadata → Prop
  | fresh : Added objectName versionId { objectName := objectName, versionId := versionId }
  | add {m : S3ObjectExtendedMetadata} (h : Added objectName versionId m)
      (ctx : S3PartFragContext) (fragmentNo partNo : Nat) (hfrag : 1 ≤ fragmentNo)
      (hplace : fragmentNo ≤ (entriesOf m.extObjects partNo).length + 1)
      (hctx : Belongs versionId partNo ctx) :
      Added objectName versionId (m.addExtendedEntry ctx fragmentNo partNo)

/-- The fragments of each part. -/
abbrev Contents := List (Nat × List S3PartFragContext)

def Contents.toExt (l : Contents) : List (Int × List S3PartFragContext) :=
  l.map fun p => ((p.1 : Int), p.2)

/-- How many fragments there are. -/
def Contents.count (l : Contents) : Nat := (l.map fun p => p.2.length).sum

/-- What holds of all metadata built by `add_extended_entry`. -/
structure Invariant (m : S3ObjectExtendedMetadata) (l : Contents) : Prop where
  ext : m.extObjects = l.toExt
  sorted : Sorted l
  nonempty : ∀ p ∈ l, p.2 ≠ []
  belongs : ∀ p ∈ l, ∀ ctx ∈ p.2, Belongs m.versionId p.1 ctx
  fragments : m.fragments = l.count
  parts : ∀ p ∈ l, p.1 ≤ m.parts
  partsMem : m.parts = 0 ∨ ∃ p ∈ l, p.1 = m.parts

theorem toExt_set (k : Nat) (v : List S3PartFragContext) :
    ∀ l : Contents, Contents.toExt (SortedMap.set k v l) = SortedMap.set (k : Int) v l.toExt := by
  intro l
  induction l with
  | nil => rfl
  | cons p rest ih =>
    obtain ⟨k', v'⟩ := p
    show Contents.toExt (SortedMap.set k v ((k', v') :: rest)) =
      SortedMap.set (k : Int) v (((k' : Int), v') :: Contents.toExt rest)
    rw [set_cons, set_cons]
    by_cases hlt : k < k'
    · have hltZ : (k : Int) < (k' : Int) := by exact_mod_cast hlt
      rw [if_pos hlt, if_pos hltZ]
      rfl
    · have hltZ : ¬ (k : Int) < (k' : Int) := by exact_mod_cast hlt
      rw [if_neg hlt, if_neg hltZ]
      by_cases heq : k = k'
      · have heqZ : (k : Int) = (k' : Int) := by exact_mod_cast heq
        rw [if_pos heq, if_pos heqZ]
        rfl
      · have heqZ : ¬ (k : Int) = (k' : Int) := by exact_mod_cast heq
        rw [if_neg heq, if_neg heqZ, ← ih]
        rfl

theorem get_toExt (k : Nat) : ∀ l : Contents, SortedMap.get (k : Int) l.toExt = SortedMap.get k l := by
  intro l
  induction l with
  | nil => rfl
  | cons p rest ih =>
    obtain ⟨k', v'⟩ := p
    show SortedMap.get (k : Int) (((k' : Int), v') :: Contents.toExt rest) = _
    unfold SortedMap.get
    by_cases heq : k = k'
    · have heqZ : (k : Int) = (k' : Int) := by exact_mod_cast heq
      rw [if_pos heq, if_pos heqZ]
    · have heqZ : ¬ (k : Int) = (k' : Int) := by exact_mod_cast heq
      rw [if_neg heq, if_neg heqZ, ih]

theorem count_set (k : Nat) (v : List S3PartFragContext) :
    ∀ l : Contents, Sorted l →
      Contents.count (SortedMap.set k v l) + ((SortedMap.get k l).getD []).length =
        l.count + v.length := by
  intro l
  induction l with
  | nil =>
    intro _
    simp [SortedMap.set, SortedMap.get, Contents.count]
  | cons p rest ih =>
    intro hs
    obtain ⟨k', v'⟩ := p
    have hcons := pairwise_cons.mp hs
    rw [set_cons]
    unfold SortedMap.get
    by_cases hlt : k < k'
    · have hnone : SortedMap.get k rest = none := by
        rw [Option.eq_none_iff_forall_not_mem]
        intro v'' hv
        have hmem := (get_eq_some_iff hcons.2).mp hv
        exact absurd (lt_trans hlt (hcons.1 _ hmem)) (lt_irrefl _)
      rw [if_pos hlt, if_neg (ne_of_lt hlt), hnone]
      simp [Contents.count]
      omega
    · rw [if_neg hlt]
      by_cases heq : k = k'
      · rw [if_pos heq, if_pos heq]
        simp [Contents.count]
        omega
      · rw [if_neg heq, if_neg heq]
        have hrest := ih hcons.2
        simp only [Contents.count, map_cons, sum_cons] at hrest ⊢
        omega

/-- **Every sequence of additions keeps the invariant.** -/
theorem Added.invariant {objectName versionId : Bytes} (h : Added objectName versionId m) :
    m.objectName = objectName ∧ m.versionId = versionId ∧ ∃ l, Invariant m l := by
  induction h with
  | fresh =>
    refine ⟨rfl, rfl, [], rfl, List.Pairwise.nil, ?_, ?_, rfl, ?_, Or.inl rfl⟩
    · intro p hp; cases hp
    · intro p hp; cases hp
    · intro p hp; cases hp
  | @add m h ctx fragmentNo partNo hfrag hplace hctx ih =>
    obtain ⟨hobj, hver, l, hl⟩ := ih
    have hentries : entriesOf m.extObjects partNo = (SortedMap.get partNo l).getD [] := by
      unfold entriesOf
      rw [hl.ext, get_toExt]
    have hlen : ((entriesOf m.extObjects partNo).insertIdx (fragmentNo - 1) ctx).length =
        (entriesOf m.extObjects partNo).length + 1 := by
      rw [length_insertIdx, if_pos (by omega)]
    refine ⟨hobj, hver, SortedMap.set partNo
      ((entriesOf m.extObjects partNo).insertIdx (fragmentNo - 1) ctx) l, ?_, ?_, ?_, ?_, ?_, ?_, ?_⟩
    · show SortedMap.set (partNo : Int) _ m.extObjects = _
      rw [toExt_set, hl.ext]
    · exact sorted_set hl.sorted
    · intro p hp
      rcases (mem_set hl.sorted p).mp hp with rfl | ⟨_, hp⟩
      · intro hnil
        rw [show ((entriesOf m.extObjects partNo).insertIdx (fragmentNo - 1) ctx) = [] from hnil]
          at hlen
        simp at hlen
      · exact hl.nonempty p hp
    · intro p hp c hc
      rcases (mem_set hl.sorted p).mp hp with rfl | ⟨_, hp⟩
      · rcases eq_or_mem_of_mem_insertIdx hc with rfl | hc
        · show Belongs m.versionId partNo _
          rw [hver]
          exact hctx
        · rw [hentries] at hc
          cases hget : SortedMap.get partNo l with
          | none =>
            rw [hget] at hc
            cases hc
          | some fs =>
            rw [hget] at hc
            exact hl.belongs _ ((get_eq_some_iff hl.sorted).mp hget) c hc
      · exact hl.belongs p hp c hc
    · show m.fragments + 1 = _
      have hcount := count_set partNo
        ((entriesOf m.extObjects partNo).insertIdx (fragmentNo - 1) ctx) l hl.sorted
      rw [hlen, ← hentries] at hcount
      rw [hl.fragments]
      omega
    · intro p hp
      show p.1 ≤ (if partNo ≠ 0 ∧ m.parts ≤ partNo then partNo else m.parts)
      rcases (mem_set hl.sorted p).mp hp with rfl | ⟨_, hp⟩
      · dsimp only
        split <;> omega
      · have hle := hl.parts p hp
        split <;> omega
    · have hparts : (m.addExtendedEntry ctx fragmentNo partNo).parts =
          if partNo ≠ 0 ∧ m.parts ≤ partNo then partNo else m.parts := rfl
      rw [hparts]
      by_cases hnew : partNo ≠ 0 ∧ m.parts ≤ partNo
      · rw [if_pos hnew]
        exact Or.inr ⟨_, (mem_set hl.sorted _).mpr (Or.inl rfl), rfl⟩
      · rw [if_neg hnew]
        rcases hl.partsMem with hz | ⟨p, hp, hpart⟩
        · exact Or.inl hz
        · right
          by_cases hpk : p.1 = partNo
          · exact ⟨_, (mem_set hl.sorted _).mpr (Or.inl rfl), by rw [← hpart, hpk]⟩
          · exact ⟨p, (mem_set hl.sorted _).mpr (Or.inr ⟨hpk, hp⟩), hpart⟩

end S3ObjectExtendedMetadata

end CortxS3

/-
The canonical query that the auth server computes against the one that the client signed.

On the way the parameters go through a map that does not tell names apart that differ in letter
case: of two such names one is lost, and of the canonical query a parameter with it.  An empty name
with an empty value leaves no trace either.  Everything else arrives: a value is decoded and encoded
again to the same text, an empty one stands without its `=` in between, and the order of the map is
undone by the sorting on the other side (`canonicalQuery_iff`).
-/
import CortxS3.Auth.AWSV4Sign
import CortxS3.Server.AuthClient
import CortxS3.Proofs.ObjectExtendedMetadata
import CortxS3.Proofs.UriCodec

namespace CortxS3

open List S3AuthClient

namespace AWSV4Sign

open SortedMap OrderedIndex RequestObject
open S3ObjectExtendedMetadata (pieces_of_notMem pieces_append)

/-! ### What the client signs and sends -/

/-- **The canonical query string of the signing rules**: the encoded parameters sorted by name, `=`
after every name and `&` between them. -/
def signedQuery (params : List (Bytes × Bytes)) : Bytes :=
  (ascii "&").intercalate <|
    ((params.map fun p => (uriEncode p.1, uriEncode p.2)).insertionSort fun p q => p.1 ≤ q.1).map
      fun p => p.1 ++ ascii "=" ++ p.2

/-- A parameter as it stands in the URI.  An empty value may be left out with its `=`. -/
def SentAs (sent : Bytes × Option Bytes) (p : Bytes × Bytes) : Prop :=
  sent.1 = p.1 ∧ (sent.2 = some (uriEncode p.2) ∨ p.2 = [] ∧ sent.2 = none)

/-- A query of distinct parameters, in the order they are sent. -/
structure ClientQuery (params : List (Bytes × Bytes)) (uriQuery : List (Bytes × Option Bytes)) :
    Prop where
  distinct : (params.map Prod.fst).Nodup
  names : ∀ p ∈ params, ∀ c ∈ p.1, isUnreserved c = true
  values : ∀ p ∈ params, NulFree p.2
  sent : List.Forall₂ SentAs uriQuery params

/-- No two names are the same but for their letter case. -/
def CaseDistinct (params : List (Bytes × Bytes)) : Prop :=
  (params.map fun p => foldCase p.1).Nodup
deriving Decidable

/-! ### The map of the parameters -/

variable {c : UInt8} {s : Bytes}

/-- What a parameter does to the map: a name that is there already, in whatever letter case, keeps
its spelling and gets the value. -/
def collect (m : QueryMap) (p : Bytes × Bytes) : QueryMap :=
  SortedMap.set (foldCase p.1)
    (match SortedMap.get (foldCase p.1) m with
      | some (spelling, _) => spelling
      | none => p.1, p.2) m

variable {p : Bytes × Bytes}

theorem consumeQueryParameter_eq {sent : Bytes × Option Bytes} (hsent : SentAs sent p)
    (hname : ∀ c ∈ p.1, isUnreserved c = true) (hvalue : NulFree p.2) (m : QueryMap) :
    consumeQueryParameter m sent = collect m p := by
  obtain ⟨hkey, hval⟩ := hsent
  have hnul : NulFree (uriEncode p.2) := notMem_uriEncode (by decide) (by decide) p.2
  unfold consumeQueryParameter collect
  dsimp only
  rw [hkey, cStr_of_nulFree (nulFree_of_unreserved hname)]
  rcases hval with hval | ⟨hempty, hval⟩
  · have hread : cStr (evhttpUridecode (cStr (uriEncode p.2))) = p.2 := by
      rw [cStr_of_nulFree hnul, uridecode_uriEncode, cStr_of_nulFree hvalue]
    rw [hval]
    exact congrArg (fun value => SortedMap.set (foldCase p.1) (_, value) m) hread
  · rw [hval]
    exact congrArg (fun value => SortedMap.set (foldCase p.1) (_, value) m) hempty.symm

variable {params : List (Bytes × Bytes)}

theorem foldl_consumeQueryParameter {uriQuery : List (Bytes × Option Bytes)}
    (h : List.Forall₂ SentAs uriQuery params)
    (hnames : ∀ p ∈ params, ∀ c ∈ p.1, isUnreserved c = true) (hvalues : ∀ p ∈ params, NulFree p.2) :
    ∀ m : QueryMap, uriQuery.foldl consumeQueryParameter m = params.foldl collect m := by
  induction h with
  | nil => intro m; rfl
  | @cons sent p uriQuery params hsent _ ih =>
    intro m
    rw [foldl_cons, foldl_cons, consumeQueryParameter_eq hsent
      (hnames p mem_cons_self) (hvalues p mem_cons_self)]
    exact ih (fun q hq => hnames q (mem_cons_of_mem _ hq))
      (fun q hq => hvalues q (mem_cons_of_mem _ hq)) _

/-- What the map is made of. -/
structure Collected (params : List (Bytes × Bytes)) (m : QueryMap) : Prop where
  sorted : Sorted m
  name : ∀ e ∈ m, ∃ p ∈ params, e.1 = foldCase p.1 ∧ e.2.1 = p.1
  value : ∀ e ∈ m, ∃ p ∈ params, e.2.2 = p.2

theorem Collected.collect {m : QueryMap} (h : Collected params m) (p : Bytes × Bytes) :
    Collected (params ++ [p]) (collect m p) where
  sorted := sorted_set h.sorted
  name := by
    intro e he
    rcases (mem_set h.sorted e).mp he with rfl | ⟨-, he⟩
    · cases hget : SortedMap.get (foldCase p.1) m with
      | none => exact ⟨p, mem_append_right _ (mem_singleton_self p), rfl, rfl⟩
      | some old =>
        obtain ⟨q, hq, hkey, hname⟩ := h.name _ ((get_eq_some_iff h.sorted).mp hget)
        exact ⟨q, mem_append_left _ hq, hkey, hname⟩
    · obtain ⟨q, hq, hsame⟩ := h.name e he
      exact ⟨q, mem_append_left _ hq, hsame⟩
  value := by
    intro e he
    rcases (mem_set h.sorted e).mp he with rfl | ⟨-, he⟩
    · exact ⟨p, mem_append_right _ (mem_singleton_self p), rfl⟩
    · obtain ⟨q, hq, hsame⟩ := h.value e he
      exact ⟨q, mem_append_left _ hq, hsame⟩

theorem collected (params : List (Bytes × Bytes)) : Collected params (params.foldl collect []) := by
  induction params using List.reverseRecOn with
  | nil => exact ⟨List.Pairwise.nil, fun e he => absurd he not_mem_nil,
      fun e he => absurd he not_mem_nil⟩
  | append_singleton params p ih =>
    rw [foldl_append]
    exact ih.collect p

theorem collect_of_caseDistinct (h : CaseDistinct params) :
    params.foldl collect [] = ofWrites (params.map fun p => (foldCase p.1, p)) := by
  induction params using List.reverseRecOn with
  | nil => rfl
  | append_singleton params p ih =>
    unfold CaseDistinct at h ih
    rw [map_append, nodup_append] at h
    have hnone : SortedMap.get (foldCase p.1)
        (ofWrites (params.map fun q => (foldCase q.1, q))) = none := by
      refine get_eq_none fun e he heq => ?_
      obtain ⟨q, hq, rfl⟩ := mem_map.mp (mem_of_mem_ofWrites he)
      exact h.2.2 _ (mem_map_of_mem hq) _ (mem_singleton_self _) heq
    rw [foldl_append, ih h.1, map_append, map_singleton, ofWrites_concat]
    show collect _ p = _
    unfold collect
    rw [hnone]

/-- **The map never has more entries than there are parameters, and as many only when no two names
are the same but for their letter case.** -/
theorem caseDistinct_of_length (h : params.length ≤ (params.foldl collect []).length) :
    CaseDistinct params := by
  have hcollected := collected params
  have hsub : (params.foldl collect []).map Prod.fst ⊆ params.map fun p => foldCase p.1 := by
    intro key hkey
    obtain ⟨e, he, rfl⟩ := mem_map.mp hkey
    obtain ⟨p, hp, hsame, -⟩ := hcollected.name e he
    exact mem_map.mpr ⟨p, hp, hsame.symm⟩
  have hsubperm := subperm_of_subset hcollected.sorted.nodup_keys hsub
  have hperm := hsubperm.perm_of_length_le (by rw [length_map, length_map]; exact h)
  exact hperm.nodup_iff.mp hcollected.sorted.nodup_keys

theorem perm_of_caseDistinct (h : CaseDistinct params) :
    ((params.foldl collect []).map Prod.snd).Perm params := by
  have hkeys : ((params.map fun p => (foldCase p.1, p)).map Prod.fst).Nodup := by
    rw [map_map]
    exact h
  have hperm := (ofWrites_perm hkeys).map Prod.snd
  rw [collect_of_caseDistinct h]
  rw [map_map] at hperm
  exact hperm.trans (List.Perm.of_eq (map_id params))

/-! ### The text between the servers -/

theorem intercalate_cons (text : Bytes) (texts : List Bytes) :
    (ascii "&").intercalate (text :: texts) = text ++ texts.flatMap fun t => 38 :: t := by
  induction texts generalizing text with
  | nil => simp [List.intercalate]
  | cons next texts ih =>
    have hstep : (ascii "&").intercalate (text :: next :: texts) =
        text ++ 38 :: (ascii "&").intercalate (next :: texts) := by
      simp [List.intercalate, ascii]
    rw [hstep, ih, flatMap_cons, cons_append]

/-- **Cutting takes the joining back**, when no text is empty or has a `&`. -/
theorem javaSplit_intercalate {text : Bytes} {texts : List Bytes}
    (hne : ∀ t ∈ text :: texts, t ≠ []) (hfree : ∀ t ∈ text :: texts, 38 ∉ t) :
    javaSplit 38 ((ascii "&").intercalate (text :: texts)) = text :: texts := by
  have hpieces : pieces 38 ((ascii "&").intercalate (text :: texts)) = text :: texts := by
    clear hne
    induction texts generalizing text with
    | nil =>
      rw [intercalate_cons, flatMap_nil, append_nil]
      exact pieces_of_notMem (hfree text mem_cons_self)
    | cons next texts ih =>
      rw [intercalate_cons, flatMap_cons, cons_append,
        pieces_append _ (hfree text mem_cons_self), ← intercalate_cons,
        ih fun t ht => hfree t (mem_cons_of_mem _ ht)]
  unfold javaSplit
  by_cases hsep : 38 ∈ (ascii "&").intercalate (text :: texts)
  · have hkeep : (text :: texts).reverse.dropWhile (· = []) = (text :: texts).reverse := by
      rw [dropWhile_eq_self_iff]
      intro hlength
      rw [decide_eq_true_eq]
      exact hne _ (mem_reverse.mp (getElem_mem hlength))
    rw [if_pos hsep, hpieces, hkeep, reverse_reverse]
  · rw [if_neg hsep]
    exact (pieces_of_notMem hsep).symm.trans hpieces

/-- A parameter that the other server can read back. -/
structure Readable (p : Bytes × Bytes) : Prop where
  name : ∀ c ∈ p.1, isUnreserved c = true
  value : NulFree p.2

theorem queryParameter_eq_nil (h : Readable p) : queryParameter p = [] ↔ p = ([], []) := by
  obtain ⟨name, value⟩ := p
  unfold queryParameter
  dsimp only
  by_cases hvalue : value = []
  · rw [if_pos hvalue, hvalue, Prod.mk.injEq, and_iff_left rfl]
  · rw [if_neg hvalue, Prod.mk.injEq]
    refine iff_of_false ?_ fun hc => hvalue hc.2
    simp [ascii]

theorem sep_notMem_queryParameter (h : Readable p) : 38 ∉ queryParameter p := by
  have hname : 38 ∉ p.1 := fun hc => unreserved_ne (h.name 38 hc) (by decide) rfl
  unfold queryParameter
  split
  · exact hname
  · rw [evhttpEncodeUri_eq h.value, mem_append, mem_append, not_or, not_or]
    exact ⟨⟨hname, by decide⟩, notMem_uriEncode (by decide) (by decide) _⟩

/-- **What the auth server reads of a parameter**: its name and its encoded value. -/
theorem putToken_queryParameter (h : Readable p) (m : List (Bytes × Bytes)) :
    putToken m (queryParameter p) = .ok (SortedMap.set p.1 (uriEncode p.2) m) := by
  have hname : 61 ∉ p.1 := fun hc => unreserved_ne (h.name 61 hc) (by decide) rfl
  have hencoded : 61 ∉ uriEncode p.2 := notMem_uriEncode (by decide) (by decide) _
  unfold queryParameter
  by_cases hvalue : p.2 = []
  · have hsplit : javaSplit 61 p.1 = [p.1] := if_neg hname
    rw [if_pos hvalue, putToken, hsplit, hvalue]
    rfl
  · have htext : p.1 ++ ascii "=" ++ evhttpEncodeUri p.2 = p.1 ++ 61 :: uriEncode p.2 := by
      rw [evhttpEncodeUri_eq h.value]
      simp [ascii]
    have hpieces : pieces 61 (p.1 ++ 61 :: uriEncode p.2) = [p.1, uriEncode p.2] := by
      rw [pieces_append _ hname, pieces_of_notMem hencoded]
    have hsplit : javaSplit 61 (p.1 ++ 61 :: uriEncode p.2) = [p.1, uriEncode p.2] := by
      have hne : uriEncode p.2 ≠ [] := fun hc => hvalue (uriEncode_eq_nil.mp hc)
      unfold javaSplit
      rw [if_pos (by simp), hpieces]
      simp [hne]
    rw [if_neg hvalue, htext, putToken, hsplit]
    rfl

theorem foldlM_putToken (h : ∀ p ∈ params, Readable p) :
    ∀ m : List (Bytes × Bytes),
      (params.map queryParameter).foldlM putToken m =
        .ok ((params.map fun p => (p.1, uriEncode p.2)).foldl
          (fun m p => SortedMap.set p.1 p.2 m) m) := by
  induction params with
  | nil => intro m; rfl
  | cons p params ih =>
    intro m
    rw [map_cons, foldlM_cons, putToken_queryParameter (h p mem_cons_self)]
    exact ih (fun q hq => h q (mem_cons_of_mem _ hq)) _

/-! ### The parameters that arrive -/

/-- The parameters but for the one without a name and a value. -/
def visible (params : List (Bytes × Bytes)) : List (Bytes × Bytes) :=
  params.filter fun p => p ≠ ([], [])

theorem foldl_queryParameter :
    ∀ {query : Bytes}, query ≠ [] →
      params.foldl (fun query p =>
          query ++ (if query = [] then [] else ascii "&") ++ queryParameter p) query =
        query ++ (params.map queryParameter).flatMap fun t => 38 :: t := by
  induction params with
  | nil => intro query _; simp
  | cons p params ih =>
    intro query hne
    rw [foldl_cons, if_neg hne, ih (by simp [hne]), map_cons, flatMap_cons]
    simp [ascii]

theorem queryText_eq {m : QueryMap} (hsorted : Sorted m)
    (hkeys : ∀ e ∈ m, e.1 = foldCase e.2.1) (hread : ∀ e ∈ m, Readable e.2) :
    (m.map Prod.snd).foldl (fun query p =>
        query ++ (if query = [] then [] else ascii "&") ++ queryParameter p) [] =
      (ascii "&").intercalate ((visible (m.map Prod.snd)).map queryParameter) := by
  cases m with
  | nil => rfl
  | cons e m =>
    -- only the first name may be empty
    have hrest : visible (m.map Prod.snd) = m.map Prod.snd := by
      refine filter_eq_self.mpr fun p hp => ?_
      obtain ⟨e', he', rfl⟩ := mem_map.mp hp
      have hlt := (pairwise_cons.mp hsorted).1 e' he'
      rw [hkeys e' (mem_cons_of_mem _ he')] at hlt
      simp only [ne_eq, decide_not, Bool.not_eq_true', decide_eq_false_iff_not]
      intro hempty
      rw [hempty] at hlt
      exact not_lt_nil _ hlt
    by_cases hempty : e.2 = ([], [])
    · have hvisible : visible ((e :: m).map Prod.snd) = m.map Prod.snd := by
        rw [← hrest, map_cons]
        exact filter_cons_of_neg (by simp [hempty])
      rw [hvisible, map_cons, foldl_cons, hempty]
      cases m with
      | nil => rfl
      | cons e' m =>
        have he' : e'.2 ≠ ([], []) := by
          have hall := filter_eq_self.mp hrest
          simpa using hall e'.2 (by simp)
        have hne : queryParameter e'.2 ≠ [] := fun hc =>
          he' ((queryParameter_eq_nil (hread e' (by simp))).mp hc)
        rw [map_cons, foldl_cons, map_cons, intercalate_cons]
        exact foldl_queryParameter hne
    · have hvisible : visible ((e :: m).map Prod.snd) = (e :: m).map Prod.snd := by
        rw [map_cons, ← hrest]
        unfold visible
        rw [filter_cons_of_pos (by simp [hempty]), filter_filter]
        simp
      have hne : queryParameter e.2 ≠ [] := fun hc =>
        hempty ((queryParameter_eq_nil (hread e mem_cons_self)).mp hc)
      rw [hvisible, map_cons, foldl_cons, map_cons, intercalate_cons]
      exact foldl_queryParameter hne

theorem canonicalString_eq (m : List (Bytes × Bytes)) :
    canonicalString m = (ascii "&").intercalate (m.map fun e => e.1 ++ ascii "=" ++ e.2) := by
  induction m with
  | nil => rfl
  | cons e m ih =>
    cases m with
    | nil => simp [canonicalString, List.intercalate]
    | cons e' m =>
      rw [canonicalString, ih]
      · simp only [map_cons, intercalate_cons, flatMap_cons]
        simp [ascii]
      · exact cons_ne_nil _ _

/-- **The query that the auth server computes** has the visible entries of the map, by name. -/
theorem getCanonicalQuery_queryOf {r : RequestObject} (h : ClientQuery params r.uriQuery) :
    getCanonicalQuery (some (queryOf r)) =
      .ok (canonicalString (ofWrites
        ((visible ((params.foldl collect []).map Prod.snd)).map fun p => (p.1, uriEncode p.2)))) := by
  have hcollected := collected params
  have hread : ∀ e ∈ params.foldl collect [], Readable e.2 := by
    intro e he
    obtain ⟨p, hp, -, hname⟩ := hcollected.name e he
    obtain ⟨q, hq, hvalue⟩ := hcollected.value e he
    exact ⟨hname ▸ h.names p hp, hvalue ▸ h.values q hq⟩
  have hkeys : ∀ e ∈ params.foldl collect [], e.1 = foldCase e.2.1 := by
    intro e he
    obtain ⟨p, hp, hkey, hname⟩ := hcollected.name e he
    rw [hkey, hname]
  have htext : queryOf r = (ascii "&").intercalate
      ((visible ((params.foldl collect []).map Prod.snd)).map queryParameter) := by
    unfold queryOf getQueryParameters
    rw [foldl_consumeQueryParameter h.sent h.names h.values]
    exact queryText_eq hcollected.sorted hkeys hread
  have hvisible : ∀ p ∈ visible ((params.foldl collect []).map Prod.snd),
      Readable p ∧ p ≠ ([], []) := by
    intro p hp
    obtain ⟨hp, hne⟩ := mem_filter.mp hp
    obtain ⟨e, he, rfl⟩ := mem_map.mp hp
    exact ⟨hread e he, by simpa using hne⟩
  generalize visible ((params.foldl collect []).map Prod.snd) = arrived at htext hvisible
  unfold getCanonicalQuery
  dsimp only
  rw [htext]
  cases arrived with
  | nil => rfl
  | cons p arrived =>
    have hne : ∀ t ∈ (p :: arrived).map queryParameter, t ≠ [] := by
      intro t ht
      obtain ⟨q, hq, rfl⟩ := mem_map.mp ht
      exact fun hc => (hvisible q hq).2 ((queryParameter_eq_nil (hvisible q hq).1).mp hc)
    have hfree : ∀ t ∈ (p :: arrived).map queryParameter, 38 ∉ t := by
      intro t ht
      obtain ⟨q, hq, rfl⟩ := mem_map.mp ht
      exact sep_notMem_queryParameter (hvisible q hq).1
    have hsome : (ascii "&").intercalate
        ((p :: arrived).map queryParameter) ≠ [] := by
      rw [map_cons, intercalate_cons]
      have := hne _ mem_cons_self
      simp [this]
    rw [if_neg hsome, map_cons, javaSplit_intercalate hne hfree, ← map_cons,
      foldlM_putToken fun q hq => (hvisible q hq).1]
    rfl

/-! ### Against the signed query -/

theorem count_canonicalString {m : List (Bytes × Bytes)} (h : ∀ e ∈ m, 61 ∉ e.1 ∧ 61 ∉ e.2) :
    (canonicalString m).count 61 = m.length := by
  rw [canonicalString_eq]
  cases m with
  | nil => rfl
  | cons e m =>
    have hone : ∀ e' ∈ e :: m, (e'.1 ++ ascii "=" ++ e'.2).count 61 = 1 := by
      intro e' he'
      rw [count_append, count_append, count_eq_zero_of_not_mem (h e' he').1,
        count_eq_zero_of_not_mem (h e' he').2]
      rfl
    have hrest : ∀ l : List (Bytes × Bytes), (∀ e' ∈ l, e' ∈ e :: m) →
        ((l.map fun e => e.1 ++ ascii "=" ++ e.2).flatMap fun t => 38 :: t).count 61 =
          l.length := by
      intro l
      induction l with
      | nil => intro _; rfl
      | cons e' l ih =>
        intro hl
        rw [map_cons, flatMap_cons, count_append,
          count_cons_of_ne (by decide), hone e' (hl e' mem_cons_self),
          ih fun e'' he'' => hl e'' (mem_cons_of_mem _ he''), length_cons]
        omega
    rw [map_cons, intercalate_cons, count_append, hone e mem_cons_self,
      hrest m fun e' he' => mem_cons_of_mem _ he', length_cons]
    omega

theorem signedQuery_eq (hdistinct : (params.map Prod.fst).Nodup)
    (hnames : ∀ p ∈ params, ∀ c ∈ p.1, isUnreserved c = true) :
    signedQuery params = canonicalString (ofWrites (params.map fun p => (p.1, uriEncode p.2))) := by
  have hencoded : (params.map fun p => (uriEncode p.1, uriEncode p.2)) =
      params.map fun p => (p.1, uriEncode p.2) := by
    refine map_congr_left fun p hp => ?_
    rw [uriEncode_of_unreserved (hnames p hp)]
  have hkeys : ((params.map fun p => (p.1, uriEncode p.2)).map Prod.fst).Nodup := by
    rw [map_map]
    exact hdistinct
  unfold signedQuery
  rw [hencoded, canonicalString_eq]
  generalize (params.map fun p => (p.1, uriEncode p.2)) = pairs at hkeys ⊢
  have hperm := perm_insertionSort (fun p q : Bytes × Bytes => p.1 ≤ q.1) pairs
  have hle := pairwise_insertionSort (fun p q : Bytes × Bytes => p.1 ≤ q.1) pairs
  have hsorted : Sorted (pairs.insertionSort fun p q => p.1 ≤ q.1) := by
    have hnodup := (hperm.map Prod.fst).nodup_iff.mpr hkeys
    refine (hle.and (pairwise_map.mp hnodup)).imp fun hboth => ?_
    exact lt_of_le_of_ne hboth.1 hboth.2
  rw [hsorted.eq_of_perm (sorted_ofWrites pairs) (hperm.trans (ofWrites_perm hkeys).symm)]

/-- **The canonical query that the auth server computes is the one that was signed if and only if no
two names of parameters are the same but for their letter case, and no parameter has neither a name
nor a value.** -/
theorem canonicalQuery_iff (r : RequestObject) (params : List (Bytes × Bytes))
    (h : ClientQuery params r.uriQuery) :
    getCanonicalQuery (some (S3AuthClient.queryOf r)) = .ok (signedQuery params) ↔
      CaseDistinct params ∧ ([], []) ∉ params := by
  rw [getCanonicalQuery_queryOf h, Except.ok.injEq, signedQuery_eq h.distinct h.names]
  have hcollected := collected params
  constructor
  · intro hsame
    -- both sides have an equals sign for each of their entries
    have hnone : ∀ (l : List (Bytes × Bytes)), (∀ p ∈ l, ∃ q ∈ params, p.1 = q.1) →
        ∀ e ∈ ofWrites (l.map fun p => (p.1, uriEncode p.2)), 61 ∉ e.1 ∧ 61 ∉ e.2 := by
      intro l hl e he
      obtain ⟨p, hp, rfl⟩ := mem_map.mp (mem_of_mem_ofWrites he)
      obtain ⟨q, hq, hname⟩ := hl p hp
      refine ⟨fun hc => ?_, notMem_uriEncode (by decide) (by decide) _⟩
      exact unreserved_ne (h.names q hq 61 (hname ▸ hc)) (by decide) rfl
    have harrived : ∀ p ∈ visible ((params.foldl collect []).map Prod.snd),
        ∃ q ∈ params, p.1 = q.1 := by
      intro p hp
      obtain ⟨e, he, rfl⟩ := mem_map.mp (mem_filter.mp hp).1
      obtain ⟨q, hq, -, hname⟩ := hcollected.name e he
      exact ⟨q, hq, hname⟩
    have hcount := congrArg (List.count 61) hsame
    rw [count_canonicalString (hnone _ harrived),
      count_canonicalString (hnone _ fun p hp => ⟨p, hp, rfl⟩)] at hcount
    have hkeys : ((params.map fun p => (p.1, uriEncode p.2)).map Prod.fst).Nodup := by
      rw [map_map]
      exact h.distinct
    rw [(ofWrites_perm hkeys).length_eq, length_map] at hcount
    have hwrites : (ofWrites ((visible ((params.foldl collect []).map Prod.snd)).map
        fun p => (p.1, uriEncode p.2))).length ≤ _ :=
      (subperm_of_subset (sorted_ofWrites _).nodup fun _ => mem_of_mem_ofWrites).length_le
    rw [hcount, length_map] at hwrites
    have hvisible := length_filter_le (fun p : Bytes × Bytes => decide (p ≠ ([], [])))
      ((params.foldl collect []).map Prod.snd)
    have hcase : CaseDistinct params := by
      refine caseDistinct_of_length (hwrites.trans (hvisible.trans ?_))
      rw [length_map]
    refine ⟨hcase, fun hempty => ?_⟩
    -- the parameter without a name and a value is in the map but not visible
    have hperm := perm_of_caseDistinct hcase
    have hall := length_filter_eq_length_iff.mp
      (Nat.le_antisymm hvisible (hperm.length_eq ▸ hwrites))
    exact absurd rfl (of_decide_eq_true (hall _ (hperm.mem_iff.mpr hempty)))
  · intro ⟨hcase, hempty⟩
    have hvisible : visible params = params := by
      refine filter_eq_self.mpr fun p hp => decide_eq_true ?_
      rintro rfl
      exact hempty hp
    have hperm := ((perm_of_caseDistinct hcase).filter fun p => decide (p ≠ ([], []))).map
      fun p => (p.1, uriEncode p.2)
    change ((visible _).map _).Perm ((visible params).map _) at hperm
    rw [hvisible] at hperm
    have hkeys : ((params.map fun p => (p.1, uriEncode p.2)).map Prod.fst).Nodup := by
      rw [map_map]
      exact h.distinct
    have hkeys' := (hperm.map Prod.fst).nodup_iff.mpr hkeys
    rw [(sorted_ofWrites _).eq_of_perm (sorted_ofWrites _)
      ((ofWrites_perm hkeys').trans (hperm.trans (ofWrites_perm hkeys).symm))]

/-! ### Two spellings of a name -/

/-- A request with two parameters `a` and `A`. -/
def twoSpellings : RequestObject where
  httpVerb := .GET
  uriQuery := [(ascii "a", some (ascii "1")), (ascii "A", some (ascii "2"))]

def twoSpellingsParams : List (Bytes × Bytes) :=
  [(ascii "a", ascii "1"), (ascii "A", ascii "2")]

theorem twoSpellings_sent : ClientQuery twoSpellingsParams twoSpellings.uriQuery where
  distinct := by decide
  names := by decide +kernel
  values := by decide
  sent := .cons ⟨rfl, Or.inl (by decide)⟩ (.cons ⟨rfl, Or.inl (by decide)⟩ .nil)

/-- The client signs `A=2&a=1`, and the auth server computes `a=2`. -/
theorem not_canonicalQuery_twoSpellings :
    ClientQuery twoSpellingsParams twoSpellings.uriQuery ∧
      getCanonicalQuery (some (S3AuthClient.queryOf twoSpellings)) ≠
        .ok (signedQuery twoSpellingsParams) :=
  ⟨twoSpellings_sent, by decide +kernel⟩

/-- A listing: `prefix=a%2Fb c&acl=`, as the client sends it. -/
theorem canonicalQuery_iff_listing :
    getCanonicalQuery (some (S3AuthClient.queryOf
        { httpVerb := .GET
          uriQuery := [(ascii "prefix", some (ascii "a%2Fb%20c")), (ascii "acl", none)] })) =
      .ok (signedQuery [(ascii "prefix", ascii "a/b c"), (ascii "acl", [])]) :=
  (canonicalQuery_iff _ [(ascii "prefix", ascii "a/b c"), (ascii "acl", [])]
    { distinct := by decide
      names := by decide +kernel
      values := by decide
      sent := .cons ⟨rfl, Or.inl (by decide)⟩ (.cons ⟨rfl, Or.inr ⟨rfl, rfl⟩⟩ .nil) }).mpr
    (by decide)

end AWSV4Sign

end CortxS3

/-
Paging through the uploads of a bucket.

A batch that is read twice has its uploads listed twice, so a page is right when none is
(`serve_page_or_twice`).  Where the batches of a page end depends on where the page begins, which is
behind the last full page.  The pages of a listing are right when in none of them a value that cannot be
parsed is the last of a batch (`Aligned`).

With that, and with requests that end, the listing is complete, and without either it is not
(`lists_iff`).
-/
import CortxS3.Proofs.GetMultipartBucketAction

namespace CortxS3

open Option (map_eq_some_iff some.injEq)
open List hiding after next

open OrderedIndex

namespace S3GetMultipartBucketAction

variable {n : Nat} {fromJson : Bytes → Option Upload}

/-! ### Pages that are right -/

/-- In the page that begins with `rem`, no value that cannot be parsed is the last of a batch. -/
def Clean (n : Nat) (fromJson : Bytes → Option Upload) (pfx : Bytes) (room : Nat)
    (rem : List KeyValue) : Prop :=
  ∀ front kv rest, rem = front ++ kv :: rest → fromJson kv.2 = none →
    (front.filter (own fromJson pfx)).length < room → ¬ n ∣ front.length + 1

/-- What stands in the first batch, but not at its end, is not the last of a batch. -/
theorem not_dvd_of_lt {k : Nat} (h : k + 1 < n) : ¬ n ∣ k + 1 := fun hdvd =>
  absurd (Nat.le_of_dvd (Nat.succ_pos k) hdvd) (by omega)

variable {front rem : List KeyValue} {pfx : Bytes} {room : Nat} {x : KeyValue}

variable {rest : List KeyValue}

theorem Clean.of_full (hsplit : rem = front ++ x :: rest) (hx : own fromJson pfx x = true)
    (hcount : (front.filter (own fromJson pfx)).length + 1 = room) (hlen : front.length < n) :
    Clean n fromJson pfx room rem := by
  intro front' kv rest' hsplit' hbad hroom
  rw [hsplit] at hsplit'
  rcases append_eq_append_iff.mp hsplit' with ⟨as, has, htail⟩ | ⟨bs, hbs, htail⟩
  · cases as with
    | nil =>
      obtain ⟨rfl, _⟩ := List.cons.inj htail
      rw [own, hbad] at hx
      cases hx
    | cons y as =>
      obtain ⟨rfl, _⟩ := List.cons.inj htail
      rw [has, filter_append, length_append, filter_cons_of_pos hx, length_cons] at hroom
      omega
  · cases bs with
    | nil =>
      obtain ⟨rfl, _⟩ := List.cons.inj htail
      rw [own, hbad] at hx
      cases hx
    | cons y bs =>
      refine not_dvd_of_lt ?_
      rw [hbs, length_append, length_cons] at hlen
      omega

theorem Clean.of_short (hlen : rem.length < n) : Clean n fromJson pfx room rem := by
  intro front kv rest hsplit _ _
  refine not_dvd_of_lt ?_
  rw [hsplit, length_append, length_cons] at hlen
  omega

theorem clean_append_iff {later : List KeyValue} (hlen : (front ++ [x]).length = n)
    (hread : fromJson x.2 ≠ none) (hroom : ((front ++ [x]).filter (own fromJson pfx)).length < room) :
    Clean n fromJson pfx room ((front ++ [x]) ++ later) ↔
      Clean n fromJson pfx (room - ((front ++ [x]).filter (own fromJson pfx)).length) later := by
  constructor
  · intro h front' kv rest hsplit hbad hless hdvd
    refine h ((front ++ [x]) ++ front') kv rest ?_ hbad ?_ ?_
    · rw [hsplit]
      simp
    · rw [filter_append, length_append]
      omega
    · rw [length_append, hlen, Nat.add_assoc]
      exact Nat.dvd_add (Nat.dvd_refl n) hdvd
  · intro h front' kv rest hsplit hbad hless
    rcases append_eq_append_iff.mp hsplit with ⟨as, has, htail⟩ | ⟨bs, hbs, htail⟩
    · have hcount : (front'.filter (own fromJson pfx)).length =
          ((front ++ [x]).filter (own fromJson pfx)).length +
            (as.filter (own fromJson pfx)).length := by
        rw [has, filter_append (front ++ [x]), length_append]
      have hnot := h as kv rest htail hbad (by omega)
      intro hdvd
      rw [has, length_append, hlen, Nat.add_assoc] at hdvd
      exact hnot ((Nat.dvd_add_iff_right (Nat.dvd_refl n)).mpr hdvd)
    · cases hbs' : bs using List.reverseRecOn with
      | nil =>
        rw [hbs', nil_append] at htail
        rw [hbs', append_nil] at hbs
        have hnot := h [] kv rest htail.symm hbad
          (by rw [filter_nil, length_nil]; omega)
        intro hdvd
        rw [← hbs, hlen] at hdvd
        exact hnot (by simpa using (Nat.dvd_add_iff_right (Nat.dvd_refl n)).mpr hdvd)
      | append_singleton bs' y _ =>
        -- the value lies in the batch, and it is not its last
        have hcases : bs' = [] ∨ bs' ≠ [] := Classical.em _
        rcases hcases with hnil | hcons
        · rw [hbs', hnil, nil_append] at hbs htail
          have heq := (append_inj' hbs rfl).2
          have hkv := (List.cons.inj htail).1
          rw [hkv, ← (List.cons.inj heq).1] at hbad
          exact absurd hbad hread
        · refine not_dvd_of_lt ?_
          have hpos := length_pos_of_ne_nil hcons
          rw [hbs, hbs', length_append, length_append, length_singleton] at hlen
          omega

theorem PageResult.prepend (a a' : S3GetMultipartBucketAction) (batch : List KeyValue)
    {r : MultipartObjectList} (hp : a'.requestPrefix = a.requestPrefix)
    (hlist' : a'.multipartObjectList.objectList =
      (a.list fromJson batch).multipartObjectList.objectList)
    (hsize : a'.returnListSize = (a.list fromJson batch).returnListSize)
    (hmax : a'.maxUploads = a.maxUploads) (h : PageResult fromJson a' rem r) :
    PageResult fromJson a (batch ++ rem) r := by
  have hsize' : a'.returnListSize =
      a.returnListSize + (batch.filter (own fromJson a.requestPrefix)).length := hsize
  have hsame : ∀ kvs, (a'.list fromJson kvs).multipartObjectList.objectList =
      (a.list fromJson (batch ++ kvs)).multipartObjectList.objectList := by
    intro kvs
    rw [list_append]
    show a'.multipartObjectList.objectList ++ uploads fromJson a'.requestPrefix kvs = _
    rw [hlist', hp]
    rfl
  cases h with
  | full front x rest hsplit hx hcount hlist htrunc hmarker =>
    rw [hp] at hx hcount
    refine .full (batch ++ front) x rest (by rw [hsplit, append_assoc]) hx ?_ ?_ htrunc
      hmarker
    · rw [filter_append, length_append]
      omega
    · rw [hlist, hsame, append_assoc]
  | ended hroom hlist htrunc =>
    refine .ended ?_ ?_ htrunc
    · have hroom' : a'.returnListSize + (rem.filter (own fromJson a'.requestPrefix)).length <
          a'.maxUploads := hroom
      rw [hp] at hroom'
      show a.returnListSize + ((batch ++ rem).filter (own fromJson a.requestPrefix)).length <
        a.maxUploads
      rw [filter_append, length_append]
      omega
    · rw [hlist, hsame]

variable {index : List KeyValue}

theorem serve_extends (hs : Sorted index) (hn : 0 < n) :
    ∀ (fuel : Nat) (a a' : S3GetMultipartBucketAction), Reading a →
      serve n fromJson index fuel (getNextObjects n a) = some a' →
      a.multipartObjectList.objectList <+: a'.multipartObjectList.objectList := by
  intro fuel
  induction fuel with
  | zero =>
    intro a a' ha hserve
    simp [getNextObjects, ha.present, ha.index, serve] at hserve
  | succ fuel ih =>
    intro a a' ha hserve
    rcases serve_succ hs hn ha rfl with ⟨_, heq⟩ | ⟨kvps, later, hb, heq⟩
    · rw [heq, some.injEq] at hserve
      rw [← hserve]
    · rw [heq] at hserve
      have hresult : BatchResult n fromJson a kvps _ :=
        getNextObjectsSuccessful_result ha hb.nonempty hb.keys
      generalize getNextObjectsSuccessful n fromJson a kvps = outcome at hresult hserve
      have hgrows : ∀ kvs, a.multipartObjectList.objectList <+:
          (a.list fromJson kvs).multipartObjectList.objectList :=
        fun kvs => prefix_append _ _
      cases hresult with
      | full front x _ _ _ _ b hlist _ _ =>
        rw [serve, some.injEq] at hserve
        rw [← hserve, hlist]
        exact hgrows _
      | ended _ _ b hlist _ =>
        rw [serve, some.injEq] at hserve
        rw [← hserve, hlist]
        exact hgrows _
      | next _ front x hsplit _ uploadId hroom =>
        have hx : a.lastKey < x.1 := hb.keys x (by rw [hsplit]; simp)
        exact (hgrows kvps).trans (ih { a.list fromJson kvps with
          lastKey := x.1
          lastUploadid := uploadId } a' (ha.next hx uploadId hroom) hserve)
      | again _ _ _ _ _ hroom =>
        exact (hgrows kvps).trans (ih _ a' (ha.again hroom) hserve)

variable {a : S3GetMultipartBucketAction} {kvs : List KeyValue} {u : Upload} {us : List Upload}

theorem prefix_list {kvps : List KeyValue} (hkvs : kvs <+: kvps)
    (hu : uploads fromJson a.requestPrefix kvps = u :: us)
    (hne : uploads fromJson a.requestPrefix kvs ≠ []) :
    (a.multipartObjectList.objectList ++ [u]) <+:
      (a.list fromJson kvs).multipartObjectList.objectList := by
  obtain ⟨rest, rfl⟩ := hkvs
  rw [uploads_append] at hu
  cases h : uploads fromJson a.requestPrefix kvs with
  | nil => exact absurd h hne
  | cons v vs =>
    rw [h, cons_append] at hu
    obtain ⟨rfl, _⟩ := List.cons.inj hu
    refine ⟨vs, ?_⟩
    show _ = a.multipartObjectList.objectList ++ uploads fromJson a.requestPrefix kvs
    rw [h, append_assoc]
    rfl

theorem uploads_ne_nil (hx : x ∈ kvs) (hown : own fromJson pfx x = true) :
    uploads fromJson pfx kvs ≠ [] := by
  obtain ⟨object, hobject⟩ : ∃ object, fromJson x.2 = some object := by
    rw [own, Bool.and_eq_true] at hown
    exact Option.isSome_iff_exists.mp hown.1
  have hmem : object ∈ uploads fromJson pfx kvs :=
    mem_filterMap.mpr ⟨x, mem_filter.mpr ⟨hx, hown⟩, hobject⟩
  exact ne_nil_of_mem hmem

theorem serve_first (hs : Sorted index) (hn : 0 < n) {fuel : Nat} {a' : S3GetMultipartBucketAction}
    (ha : Reading a)
    (hu : uploads fromJson a.requestPrefix ((after index a.lastKey).take n) = u :: us)
    (hserve : serve n fromJson index fuel (getNextObjects n a) = some a') :
    (a.multipartObjectList.objectList ++ [u]) <+: a'.multipartObjectList.objectList := by
  cases fuel with
  | zero => simp [getNextObjects, ha.present, ha.index, serve] at hserve
  | succ fuel =>
    rcases serve_succ hs hn ha rfl with ⟨hnil, _⟩ | ⟨kvps, later, hb, heq⟩
    · rw [hnil, take_nil] at hu
      cases hu
    · rw [← hb.eq_take] at hu
      rw [heq] at hserve
      have hresult : BatchResult n fromJson a kvps _ :=
        getNextObjectsSuccessful_result ha hb.nonempty hb.keys
      generalize getNextObjectsSuccessful n fromJson a kvps = outcome at hresult hserve
      have hall := prefix_list (prefix_refl kvps) hu (by rw [hu]; simp)
      cases hresult with
      | full front x rest hsplit hx _ b hlist _ _ =>
        rw [serve, some.injEq] at hserve
        rw [← hserve, hlist]
        refine prefix_list ⟨rest, ?_⟩ hu (uploads_ne_nil (x := x) (by simp) hx)
        rw [hsplit]
        simp
      | ended _ _ b hlist _ =>
        rw [serve, some.injEq] at hserve
        rw [← hserve, hlist]
        exact hall
      | next _ front x hsplit _ uploadId hroom =>
        have hx : a.lastKey < x.1 := hb.keys x (by rw [hsplit]; simp)
        exact hall.trans (serve_extends hs hn fuel { a.list fromJson kvps with
          lastKey := x.1
          lastUploadid := uploadId } a' (ha.next hx uploadId hroom) hserve)
      | again _ _ _ _ _ hroom =>
        exact hall.trans (serve_extends hs hn fuel _ a' (ha.again hroom) hserve)

/-- **A request that ends has answered with its page, or has listed an upload twice.**  It has done the
one when the page is clean, and the other when it is not. -/
theorem serve_page_or_twice (hs : Sorted index) (hn : 0 < n) :
    ∀ (fuel : Nat) (a a' : S3GetMultipartBucketAction) (rem : List KeyValue),
      Reading a → a.requestPrefix = pfx → after index a.lastKey = rem →
      serve n fromJson index fuel (getNextObjects n a) = some a' →
      (Clean n fromJson pfx (a.maxUploads - a.returnListSize) rem →
        PageResult fromJson a rem a'.multipartObjectList) ∧
      (¬ Clean n fromJson pfx (a.maxUploads - a.returnListSize) rem →
        ¬ a'.multipartObjectList.objectList.Nodup) := by
  intro fuel
  induction fuel with
  | zero =>
    intro a a' rem ha _ _ hserve
    simp [getNextObjects, ha.present, ha.index, serve] at hserve
  | succ fuel ih =>
    intro a a' rem ha hp hafter hserve
    have hroom := ha.room
    rcases serve_succ hs hn ha hafter with ⟨hnil, heq⟩ | ⟨kvps, later, hb, heq⟩
    · rw [heq, some.injEq] at hserve
      rw [← hserve, hnil]
      refine ⟨fun _ => .ended ?_ ?_ ha.notTruncated, fun hnot => absurd (Clean.of_short hn) hnot⟩
      · exact ha.room
      · rw [list_of_none rfl]
    · rw [heq] at hserve
      have hresult : BatchResult n fromJson a kvps _ :=
        getNextObjectsSuccessful_result ha hb.nonempty hb.keys
      generalize getNextObjectsSuccessful n fromJson a kvps = outcome at hresult hserve
      cases hresult with
      | full front x rest hsplit hx hcount b hlist htrunc hmarker =>
        rw [serve, some.injEq] at hserve
        rw [← hserve]
        have hwhole : rem = front ++ x :: (rest ++ later) := by
          rw [hb.split, hsplit, append_assoc]
          rfl
        have hclean : Clean n fromJson pfx (a.maxUploads - a.returnListSize) rem := by
          rw [hp] at hx hcount
          refine Clean.of_full hwhole hx (by omega) ?_
          have := hb.length
          rw [hsplit, length_append, length_cons] at this
          omega
        exact ⟨fun _ => .full front x (rest ++ later) hwhole hx hcount hlist htrunc hmarker,
          fun hnot => absurd hclean hnot⟩
      | ended hshort hroom' b hlist htrunc =>
        rw [serve, some.injEq] at hserve
        rw [← hserve]
        have hwhole : rem = kvps := by rw [hb.split, hb.last hshort, append_nil]
        rw [hwhole]
        exact ⟨fun _ => .ended hroom' hlist htrunc,
          fun hnot => absurd (Clean.of_short hshort) hnot⟩
      | next hlen front x hsplit hread uploadId hroom' =>
        have hx : a.lastKey < x.1 := hb.keys x (by rw [hsplit]; simp)
        have hsize : (a.list fromJson kvps).returnListSize =
            a.returnListSize + (kvps.filter (own fromJson pfx)).length := by rw [← hp]; rfl
        have hlength : kvps.length = n := Nat.le_antisymm hb.length hlen
        obtain ⟨b, hbeq⟩ : ∃ b : S3GetMultipartBucketAction, b = { a.list fromJson kvps with
          lastKey := x.1
          lastUploadid := uploadId } := ⟨_, rfl⟩
        have hb_reading : Reading b := by
          rw [hbeq]
          exact ha.next hx uploadId hroom'
        rw [← hbeq] at hserve
        obtain ⟨hpage, htwice⟩ := ih b a' later hb_reading (by rw [hbeq]; exact hp)
          (by rw [hbeq]; exact hb.after front x hsplit) hserve
        have hiff : Clean n fromJson pfx (a.maxUploads - a.returnListSize) rem ↔
            Clean n fromJson pfx (b.maxUploads - b.returnListSize) later := by
          have hiff' : Clean n fromJson pfx (a.maxUploads - a.returnListSize)
              ((front ++ [x]) ++ later) ↔ _ :=
            clean_append_iff (by rw [← hsplit]; exact hlength) hread
              (by rw [← hsplit]; omega)
          rw [← hsplit, ← hb.split] at hiff'
          rw [hiff', hbeq]
          show _ ↔ Clean n fromJson pfx
            (a.maxUploads - (a.list fromJson kvps).returnListSize) later
          rw [hsize, Nat.sub_sub]
        refine ⟨fun hclean => ?_, fun hnot => htwice (fun h => hnot (hiff.mpr h))⟩
        have hres := hpage (hiff.mp hclean)
        rw [hb.split]
        exact PageResult.prepend a b kvps (by rw [hbeq]; rfl) (by rw [hbeq]) (by rw [hbeq])
          (by rw [hbeq]; rfl) hres
      | again hlen front x hsplit hbad hroom' =>
        have hlength : kvps.length = n := Nat.le_antisymm hb.length hlen
        cases hu : uploads fromJson a.requestPrefix kvps with
        | nil =>
          -- nothing has changed
          have hnone : kvps.filter (own fromJson a.requestPrefix) = [] := by
            rw [filter_eq_nil_iff]
            intro y hy hown
            exact uploads_ne_nil hy hown hu
          rw [list_of_none hnone] at hserve
          exact ih a a' rem ha hp hafter hserve
        | cons u us =>
          have hagain := ha.again hroom'
          have hagainHas : uploads fromJson (a.list fromJson kvps).requestPrefix
              ((after index (a.list fromJson kvps).lastKey).take n) =
                u :: us := by
            rw [show (a.list fromJson kvps).lastKey = a.lastKey from rfl, hafter,
              ← hb.eq_take]
            exact hu
          have hfirst := serve_first hs hn hagain hagainHas hserve
          have hmem : u ∈ (a.list fromJson kvps).multipartObjectList.objectList := by
            refine mem_append_right _ ?_
            rw [hu]
            exact mem_cons_self
          refine ⟨fun hclean => ?_, fun _ hnodup => ?_⟩
          · refine absurd (Nat.dvd_refl n) ?_
            have hnot := hclean front x later (by rw [hb.split, hsplit]; simp) hbad ?_
            · rw [hsplit, length_append, length_singleton] at hlength
              rw [hlength] at hnot
              exact hnot
            · have : (a.list fromJson kvps).returnListSize =
                  a.returnListSize + (kvps.filter (own fromJson pfx)).length := by
                rw [← hp]
                rfl
              rw [hsplit, filter_append, length_append] at this
              rw [hsplit] at hroom'
              omega
          · have hsub := hnodup.sublist hfirst.sublist
            rw [nodup_append] at hsub
            exact hsub.2.2 u hmem u (mem_singleton.mpr rfl) rfl

/-! ### The pages -/

/-- In the pages of the listing, no value that cannot be parsed is the last of a batch.  The page that
an entry lies in begins behind the last full one in front of it. -/
def Aligned (n : Nat) (fromJson : Bytes → Option Upload) (pfx : Bytes) (maxUploads : Nat)
    (index : List KeyValue) : Prop :=
  ∀ i, i < index.length → (∀ kv ∈ index[i]?, fromJson kv.2 = none) →
    ¬ n ∣ (openPage (own fromJson pfx) maxUploads (index.take i)).length + 1

instance instDecidableAligned (n : Nat) (fromJson : Bytes → Option Upload) (pfx : Bytes)
    (maxUploads : Nat) (index : List KeyValue) :
    Decidable (Aligned n fromJson pfx maxUploads index) :=
  inferInstanceAs (Decidable (∀ i, i < index.length →
    (∀ kv ∈ index[i]?, fromJson kv.2 = none) →
    ¬ n ∣ (openPage (own fromJson pfx) maxUploads (index.take i)).length + 1))

variable {m : Nat}

theorem aligned_iff :
    Aligned n fromJson pfx m index ↔ ∀ front kv rest, index = front ++ kv :: rest →
      fromJson kv.2 = none → ¬ n ∣ (openPage (own fromJson pfx) m front).length + 1 := by
  constructor
  · intro h front kv rest hsplit hbad
    have hat := h front.length (by rw [hsplit]; simp) (by
      rw [hsplit]
      intro x hx
      simp only [List.getElem?_append_right (Nat.le_refl _), Nat.sub_self,
        List.getElem?_cons_zero, Option.mem_some_iff] at hx
      rw [← hx]
      exact hbad)
    rw [hsplit, take_left] at hat
    exact hat
  · intro h i hi hbad
    refine h (index.take i) index[i] (index.drop (i + 1)) ?_ ?_
    · rw [getElem_cons_drop, take_append_drop]
    · exact hbad _ (by rw [List.getElem?_eq_getElem hi]; rfl)

theorem Aligned.clean (h : Aligned n fromJson pfx m rem) : Clean n fromJson pfx m rem := by
  intro front kv rest hsplit hbad hroom
  have hnot := aligned_iff.mp h front kv rest hsplit hbad
  rw [openPage_of_few hroom] at hnot
  exact hnot

theorem aligned_append_iff (hx : own fromJson pfx x = true)
    (hcount : (front.filter (own fromJson pfx)).length + 1 = m)
    (hclean : Clean n fromJson pfx m (front ++ x :: rest)) :
    Aligned n fromJson pfx m (front ++ x :: rest) ↔ Aligned n fromJson pfx m rest := by
  rw [aligned_iff, aligned_iff]
  constructor
  · intro h front' kv rest' hsplit hbad
    have hnot := h (front ++ x :: front') kv rest' (by rw [hsplit]; simp) hbad
    rw [openPage_of_full hx hcount] at hnot
    exact hnot
  · intro h front' kv rest' hsplit hbad
    by_cases hroom : (front'.filter (own fromJson pfx)).length < m
    · rw [openPage_of_few hroom]
      exact hclean front' kv rest' hsplit hbad hroom
    · -- the entry lies behind the page
      rcases append_eq_append_iff.mp hsplit with ⟨as, has, htail⟩ | ⟨bs, hbs, htail⟩
      · cases as with
        | nil =>
          rw [append_nil] at has
          rw [has] at hroom
          omega
        | cons y as =>
          obtain ⟨rfl, hrest⟩ := List.cons.inj htail
          rw [has, openPage_of_full hx hcount]
          exact h as kv rest' hrest hbad
      · have hle : (front'.filter (own fromJson pfx)).length ≤
            (front.filter (own fromJson pfx)).length := by
          rw [hbs, filter_append, length_append]
          omega
        omega

section
variable {index : List KeyValue} {pfx : Bytes} {m fuel : Nat}
  {uploadIdMarker : MultipartObjectList → Bytes}

theorem setup_reading (key uploadId pfx : Bytes) (hm : 0 < m) :
    Reading (objectListSetup key uploadId pfx [] m) :=
  ⟨rfl, rfl, rfl, hm, rfl, le_refl _⟩

section

variable (h : Stored fromJson index)

include h

theorem listUploads_isSome (hn : 0 < n) (hm : 0 < m)
    (hunstuck : Unstuck n fromJson pfx index) (hfuel : m + index.length < fuel)
    (key uploadId : Bytes) :
    (listUploads n fromJson index fuel key uploadId pfx [] m).isSome = true := by
  have hlen := (after_suffix h.sorted key).length_le
  have hends := serve_ends h.sorted hn hunstuck fuel (objectListSetup key uploadId pfx [] m)
    (after index key) (setup_reading key uploadId pfx hm) rfl rfl (by
      show m - 0 + (after index key).length < fuel
      omega)
  rw [listUploads, Option.isSome_map]
  exact hends

theorem listUploads_page_or_twice (hn : 0 < n) (hm : 0 < m)
    {key uploadId : Bytes} {r : MultipartObjectList}
    (hr : listUploads n fromJson index fuel key uploadId pfx [] m = some r) :
    (Clean n fromJson pfx m (after index key) →
      PageResult fromJson (objectListSetup key uploadId pfx [] m) (after index key)
        r) ∧
    (¬ Clean n fromJson pfx m (after index key) → ¬ r.objectList.Nodup) := by
  obtain ⟨a', hserve, rfl⟩ := map_eq_some_iff.mp hr
  exact serve_page_or_twice h.sorted hn fuel (objectListSetup key uploadId pfx [] m) a'
    (after index key) (setup_reading key uploadId pfx hm) rfl rfl hserve

/-- **An aligned listing has its uploads in its pages.** -/
theorem listPages_of_aligned (hn : 0 < n) (hm : 0 < m)
    (hunstuck : Unstuck n fromJson pfx index) (hfuel : m + index.length < fuel) :
    ∀ (pages : Nat) (key uploadId : Bytes),
      Aligned n fromJson pfx m (after index key) →
      (after index key).length < pages →
      ∃ rs, listPages n fromJson index uploadIdMarker fuel pfx m pages key uploadId = some rs ∧
        rs.flatMap MultipartObjectList.objectList =
          uploads fromJson pfx (after index key) := by
  intro pages
  induction pages with
  | zero =>
    intro key uploadId _ hlen
    omega
  | succ pages ih =>
    intro key uploadId haligned hlen
    obtain ⟨r, hr⟩ := Option.isSome_iff_exists.mp
      (listUploads_isSome h hn hm hunstuck hfuel key uploadId)
    have hpage := (listUploads_page_or_twice h hn hm hr).1 haligned.clean
    have hsuffix := after_suffix h.sorted key
    unfold listPages
    rw [hr]
    cases hpage with
    | ended _ hlist htrunc =>
      simp only [htrunc, Bool.false_eq_true, if_false]
      refine ⟨[r], rfl, ?_⟩
      rw [flatMap_singleton, hlist]
      rfl
    | full front x rest hsplit hx hcount hlist htrunc hmarker =>
      have hcount' : (front.filter (own fromJson pfx)).length + 1 = m := by
        have : 0 + (front.filter (own fromJson pfx)).length + 1 = m := hcount
        omega
      have hafter : after index x.1 = rest := by
        refine after_of_split front h.sorted ?_
        rw [← hsplit]
        exact hsuffix
      rw [hsplit] at haligned hlen
      have hrest := (aligned_append_iff hx hcount' haligned.clean).mp haligned
      rw [length_append, length_cons] at hlen
      obtain ⟨rs, hrs, hall⟩ := ih x.1 (uploadIdMarker r) (by rw [hafter]; exact hrest)
        (by rw [hafter]; omega)
      simp only [htrunc, if_true, hmarker, hrs, Option.map_some]
      refine ⟨r :: rs, rfl, ?_⟩
      rw [flatMap_cons, hall, hafter, hlist, hsplit,
        show front ++ x :: rest = (front ++ [x]) ++ rest by simp, uploads_append]
      rfl

/-- **A listing that ends and lists no upload twice is aligned.** -/
theorem aligned_of_listPages (hn : 0 < n) (hm : 0 < m) :
    ∀ (pages : Nat) (key uploadId : Bytes) (rs : List MultipartObjectList),
      listPages n fromJson index uploadIdMarker fuel pfx m pages key uploadId = some rs →
      (rs.flatMap MultipartObjectList.objectList).Nodup →
      Aligned n fromJson pfx m (after index key) := by
  intro pages
  induction pages with
  | zero =>
    intro key uploadId rs hrs _
    cases hrs
  | succ pages ih =>
    intro key uploadId rs hrs hnodup
    unfold listPages at hrs
    cases hr : listUploads n fromJson index fuel key uploadId pfx [] m with
    | none => simp [hr] at hrs
    | some r =>
      simp only [hr] at hrs
      obtain ⟨hpage, htwice⟩ := listUploads_page_or_twice h hn hm hr
      have hsuffix := after_suffix h.sorted key
      -- the first page is among the pages
      have hfirst : ∃ rs', rs = r :: rs' := by
        split at hrs
        · obtain ⟨rs', _, rfl⟩ := map_eq_some_iff.mp hrs
          exact ⟨rs', rfl⟩
        · exact ⟨[], (Option.some.inj hrs).symm⟩
      obtain ⟨rs', rfl⟩ := hfirst
      rw [flatMap_cons] at hnodup
      have hclean : Clean n fromJson pfx m (after index key) := by
        by_contra hnot
        exact htwice hnot (hnodup.sublist (sublist_append_left _ _))
      cases hpage hclean with
      | ended hroom hlist htrunc =>
        rw [aligned_iff]
        intro front kv rest hsplit hbad
        have hless : (front.filter (own fromJson pfx)).length < m := by
          have hroom' : 0 + ((after index key).filter
            (own fromJson pfx)).length < m := hroom
          rw [hsplit, filter_append, length_append] at hroom'
          omega
        rw [openPage_of_few hless]
        exact hclean front kv rest hsplit hbad hless
      | full front x rest hsplit hx hcount hlist htrunc hmarker =>
        have hcount' : (front.filter (own fromJson pfx)).length + 1 = m := by
          have : 0 + (front.filter (own fromJson pfx)).length + 1 = m := hcount
          omega
        have hafter : after index x.1 = rest := by
          refine after_of_split front h.sorted ?_
          rw [← hsplit]
          exact hsuffix
        simp only [htrunc, if_true, hmarker] at hrs
        obtain ⟨rs₁, hrs₁, heq⟩ := map_eq_some_iff.mp hrs
        obtain ⟨_, rfl⟩ := List.cons.inj heq
        have hrest := ih x.1 (uploadIdMarker r) rs₁ hrs₁
          (hnodup.sublist (sublist_append_right _ _))
        rw [hafter] at hrest
        rw [hsplit] at hclean ⊢
        exact (aligned_append_iff hx hcount' hclean).mpr hrest

theorem Stored.after_nil : after index [] = index := by
  unfold after
  rw [filter_eq_self]
  intro kv hkv
  have hlt : ([] : Bytes) < kv.1 := by
    cases hkey : kv.1 with
    | nil => exact absurd hkey (h.named kv hkv)
    | cons c rest => exact nil_lt_cons c rest
  simpa using hlt

theorem unstuck_of_listUploads (hn : 0 < n) (hm : 0 < m)
    (hall : ∀ key uploadId, ∃ fuel,
      (listUploads n fromJson index fuel key uploadId pfx [] m).isSome = true) :
    Unstuck n fromJson pfx index := by
  intro i _ hi hnone kv hkv hbad
  obtain ⟨window, hwindow⟩ : ∃ window, (index.drop i).take n = window ++ [kv] := by
    refine ⟨((index.drop i).take n).dropLast, ?_⟩
    exact (dropLast_append_getLast? kv hkv).symm
  have hsplit : index = index.take i ++ (window ++ kv :: index.drop (i + n)) := by
    conv_lhs => rw [← take_append_drop i index, ← take_append_drop n (index.drop i)]
    rw [hwindow, drop_drop, append_assoc]
    rfl
  have hlen : window.length + 1 = n := by
    have := congrArg List.length hwindow
    rw [length_take, length_drop, length_append, length_singleton] at this
    omega
  -- the request that begins in front of the window
  obtain ⟨key, hkey⟩ : ∃ key, after index key =
      window ++ kv :: index.drop (i + n) := by
    cases hbefore : index.take i using List.reverseRecOn with
    | nil =>
      rw [hbefore, nil_append] at hsplit
      exact ⟨[], by rw [h.after_nil]; exact hsplit⟩
    | append_singleton before x _ =>
      refine ⟨x.1, after_of_split before h.sorted ?_⟩
      rw [hbefore, append_assoc] at hsplit
      rw [show before ++ x :: (window ++ kv :: index.drop (i + n)) = index from hsplit.symm]
  obtain ⟨fuel, hfuel⟩ := hall key []
  have hstuck := serve_stuck h.sorted hn (setup_reading key [] pfx hm) hkey hlen hbad
    (fun x hx => hnone x (by rw [hwindow]; exact mem_append_left _ hx)) fuel
  rw [listUploads, hstuck] at hfuel
  cases hfuel

end

end

/-- Every request for the uploads with a prefix ends, and so does the listing that starts with the
first, which has every upload with the prefix once. -/
structure Lists (n : Nat) (fromJson : Bytes → Option Upload) (index : List KeyValue)
    (uploadIdMarker : MultipartObjectList → Bytes) (pfx : Bytes) (maxUploads : Nat) : Prop where
  ends : ∀ key uploadId, ∃ fuel,
    (listUploads n fromJson index fuel key uploadId pfx [] maxUploads).isSome = true
  complete : ∃ enough, ∀ fuel, enough ≤ fuel → ∃ rs,
    listPages n fromJson index uploadIdMarker fuel pfx maxUploads fuel [] [] = some rs ∧
      (rs.flatMap MultipartObjectList.objectList).Perm (uploads fromJson pfx index)

theorem aligned_of_lists (h : Stored fromJson index) {uploadIdMarker : MultipartObjectList → Bytes}
    (hm : 1 ≤ m) (hn : 1 ≤ n) (hlists : Lists n fromJson index uploadIdMarker pfx m) :
    Unstuck n fromJson pfx index ∧ Aligned n fromJson pfx m index := by
  refine ⟨unstuck_of_listUploads h hn hm hlists.ends, ?_⟩
  obtain ⟨enough, hall⟩ := hlists.complete
  obtain ⟨rs, hrs, hperm⟩ := hall enough (Nat.le_refl _)
  have hnodup := hperm.nodup_iff.mpr (uploads_nodup h pfx)
  have haligned := aligned_of_listPages h hn hm enough [] [] rs hrs hnodup
  rw [h.after_nil] at haligned
  exact haligned

/-- **Paging through the uploads of a bucket ends and lists every upload with the prefix once, exactly
if no value that cannot be parsed comes at the end of a batch.** -/
theorem lists_iff {index : List KeyValue} (h : Stored fromJson index)
    (uploadIdMarker : MultipartObjectList → Bytes) (pfx : Bytes) {m : Nat} (hm : 1 ≤ m)
    (hn : 1 ≤ n) :
    Lists n fromJson index uploadIdMarker pfx m ↔
      Unstuck n fromJson pfx index ∧ Aligned n fromJson pfx m index := by
  constructor
  · exact aligned_of_lists h hm hn
  · rintro ⟨hunstuck, haligned⟩
    refine ⟨fun key uploadId => ⟨m + index.length + 1, ?_⟩, m + index.length + 1, ?_⟩
    · exact listUploads_isSome h hn hm hunstuck (Nat.lt_succ_self _) key uploadId
    · intro fuel hfuel
      obtain ⟨rs, hrs, hall⟩ := listPages_of_aligned h hn hm hunstuck
        (show m + index.length < fuel by omega) fuel [] []
        (by rw [h.after_nil]; exact haligned) (by rw [h.after_nil]; omega)
      refine ⟨rs, hrs, ?_⟩
      rw [hall, h.after_nil]

/-- The stored value of an upload. -/
def uploadJson (name id : String) : Bytes :=
  ascii "\x7b\"Object-Name\":\"" ++ ascii name ++ ascii "\",\"Upload-ID\":\"" ++ ascii id ++
    ascii "\"\x7d"

/-- Uploads of `a`, `b`, `c` and `d`; what is stored for `b` has been cut off. -/
def fourUploads : List KeyValue :=
  [(ascii "a|1", uploadJson "a" "1"), (ascii "b|2", (uploadJson "b" "2").take 20),
    (ascii "c|3", uploadJson "c" "3"), (ascii "d|4", uploadJson "d" "4")]

/-- Reads the uploads of `a`, `c` and `d` back. -/
def fourUploadsFromJson (value : Bytes) : Option Upload :=
  ([("a", "1"), ("c", "3"), ("d", "4")].find? fun u => uploadJson u.1 u.2 == value).map
    fun u => ⟨ascii u.1, ascii u.2⟩

theorem fourUploads_stored : Stored fourUploadsFromJson fourUploads :=
  ⟨by decide, by decide, by decide⟩

/-- In pages of two, and batches of three, the uploads are listed. -/
theorem lists_iff_fourUploads :
    Stored fourUploadsFromJson fourUploads ∧ 1 ≤ 2 ∧ 1 ≤ 3 ∧
      Lists 3 fourUploadsFromJson fourUploads (fun r => r.nextMarkerUploadid) [] 2 :=
  ⟨fourUploads_stored, by decide, by decide,
    (lists_iff fourUploads_stored (fun r => r.nextMarkerUploadid) [] (by decide) (by decide)).mpr
      ⟨by decide, by decide⟩⟩

/-- In batches of two they are not. -/
theorem not_lists_fourUploads :
    ¬ Lists 2 fourUploadsFromJson fourUploads (fun r => r.nextMarkerUploadid) [] 2 := by
  intro h
  have haligned := (aligned_of_lists fourUploads_stored (by decide) (by decide) h).2
  exact absurd haligned (by decide)

end S3GetMultipartBucketAction

end CortxS3

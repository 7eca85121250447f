/-
One request for the uploads of a bucket, with values in the index that cannot be parsed.

A request reads batch after batch from where it stands (`getNextObjectsSuccessful_result`).  It moves on
when the last value of a batch can be parsed.  If it cannot, and the page is not full, the request stands
where it stood and reads the same batch again.

With an upload to be listed in the batch the page grows every time, until it is full.  Without one
nothing has changed and the request never ends (`serve_stuck`).  So every request ends when no stretch of
the length of a batch without an upload to list ends in a value that cannot be parsed (`Unstuck`,
`serve_ends`).
-/
import CortxS3.Server.GetMultipartBucketAction
import CortxS3.Lib.Cut

namespace CortxS3

open List hiding after next

open OrderedIndex

namespace S3GetMultipartBucketAction

variable {n : Nat} {fromJson : Bytes → Option Upload}

/-! ### The uploads of an index -/

/-- The pair holds an upload to be listed. -/
def own (fromJson : Bytes → Option Upload) (pfx : Bytes) (kv : KeyValue) : Bool :=
  (fromJson kv.2).isSome && pfx.isPrefixOf kv.1

/-- The uploads to be listed, in the order of their keys. -/
def uploads (fromJson : Bytes → Option Upload) (pfx : Bytes) (kvs : List KeyValue) : List Upload :=
  (kvs.filter (own fromJson pfx)).filterMap fun kv => fromJson kv.2

/-- No key is empty, and no upload is stored twice. -/
structure Stored (fromJson : Bytes → Option Upload) (index : List KeyValue) : Prop where
  sorted : OrderedIndex.Sorted index
  named : ∀ kv ∈ index, kv.1 ≠ []
  distinct : (index.filterMap fun kv => fromJson kv.2).Nodup

theorem uploads_append (pfx : Bytes) (a b : List KeyValue) :
    uploads fromJson pfx (a ++ b) = uploads fromJson pfx a ++ uploads fromJson pfx b := by
  unfold uploads
  rw [filter_append, filterMap_append]

variable {index : List KeyValue}

theorem uploads_nodup (h : Stored fromJson index) (pfx : Bytes) :
    (uploads fromJson pfx index).Nodup :=
  h.distinct.sublist (filter_sublist.filterMap _)

/-! ### A batch -/

/-- The action with the uploads of some pairs listed. -/
def list (fromJson : Bytes → Option Upload) (a : S3GetMultipartBucketAction)
    (kvs : List KeyValue) : S3GetMultipartBucketAction :=
  { a with
    multipartObjectList := { a.multipartObjectList with
      objectList := a.multipartObjectList.objectList ++ uploads fromJson a.requestPrefix kvs }
    returnListSize :=
      a.returnListSize + (kvs.filter (own fromJson a.requestPrefix)).length }

variable {a : S3GetMultipartBucketAction}

theorem list_of_none {kvs : List KeyValue} (h : kvs.filter (own fromJson a.requestPrefix) = []) :
    a.list fromJson kvs = a := by
  simp [list, uploads, h]

theorem list_append (a : S3GetMultipartBucketAction) (x y : List KeyValue) :
    a.list fromJson (x ++ y) = (a.list fromJson x).list fromJson y := by
  unfold list
  simp only [uploads_append, filter_append, length_append, append_assoc, Nat.add_assoc]

variable {kv : KeyValue} {object : Upload}

theorem filterUpload_eq (hd : a.requestDelimiter = []) (h : fromJson kv.2 = some object) :
    a.filterUpload kv.1 object = a.list fromJson [kv] := by
  unfold filterUpload
  by_cases hp : a.requestPrefix = []
  · rw [if_pos ⟨hp, hd⟩]
    simp [list, uploads, own, h, hp, addObject, MultipartObjectList.addObject]
  · rw [if_neg (fun hand => hp hand.1), if_pos ⟨hp, hd⟩]
    by_cases hfind : find a.requestPrefix kv.1 = some 0
    · rw [if_pos hfind]
      rw [find_eq_zero_iff] at hfind
      simp [list, uploads, own, h, hfind, addObject, MultipartObjectList.addObject]
    · rw [if_neg hfind]
      rw [find_eq_zero_iff] at hfind
      exact (list_of_none (by simp [own, hfind])).symm

theorem readUploads_some (hd : a.requestDelimiter = []) (hmarker : kv.1 ≠ a.requestMarkerKey)
    (h : fromJson kv.2 = some object) (length : Nat) (skip : Bool) (rest : List KeyValue) :
    ∃ skip', readUploads fromJson a length skip (kv :: rest) =
      if length - 1 = 0 ∨ (a.list fromJson [kv]).returnListSize = a.maxUploads then
        { a.list fromJson [kv] with
          lastKey := kv.1
          lastUploadid := object.uploadId }
      else readUploads fromJson (a.list fromJson [kv]) (length - 1) skip' rest := by
  rw [readUploads, h]
  simp only
  rw [if_neg (fun hand => hmarker hand.2.1.symm), filterUpload_eq hd h]
  exact ⟨_, rfl⟩

/-- What the loop has seen in front of the last pair, with the limit not reached, is listed. -/
theorem readUploads_append (front : List KeyValue) {l : List KeyValue} (hl : l ≠ []) :
    ∀ (a : S3GetMultipartBucketAction) (skip : Bool), a.requestDelimiter = [] →
      (∀ kv ∈ front, kv.1 ≠ a.requestMarkerKey) →
      a.returnListSize + (front.filter (own fromJson a.requestPrefix)).length < a.maxUploads →
      ∃ skip', readUploads fromJson a (front ++ l).length skip (front ++ l) =
        readUploads fromJson (a.list fromJson front) l.length skip' l := by
  induction front with
  | nil =>
    intro a skip _ _ _
    refine ⟨skip, ?_⟩
    rw [list_of_none rfl]
    rfl
  | cons kv front ih =>
    intro a skip hd hmarker hroom
    have hpos := length_pos_of_ne_nil hl
    rw [← singleton_append, filter_append, length_append] at hroom
    obtain ⟨b, hb⟩ : ∃ b, b = a.list fromJson [kv] := ⟨_, rfl⟩
    -- the rest of the batch goes on from `b`
    have hrest : ∀ skip₁, ∃ skip', readUploads fromJson b (front ++ l).length skip₁
        (front ++ l) = readUploads fromJson (a.list fromJson (kv :: front)) l.length skip' l := by
      intro skip₁
      have hlist : a.list fromJson (kv :: front) = b.list fromJson front := by
        rw [hb]
        exact list_append a [kv] front
      rw [hlist]
      refine ih b skip₁ (by rw [hb]; exact hd) ?_ ?_
      · rw [hb]
        exact fun x hx => hmarker x (mem_cons_of_mem _ hx)
      · rw [hb]
        simp only [list]
        omega
    have hlen : (kv :: front ++ l).length - 1 = (front ++ l).length := by simp
    cases h : fromJson kv.2 with
    | none =>
      have hsame : b = a := by
        rw [hb]
        exact list_of_none (by simp [own, h])
      obtain ⟨skip', hskip⟩ := hrest skip
      refine ⟨skip', ?_⟩
      rw [cons_append, readUploads, h]
      simp only
      rw [← cons_append, hlen, ← hsame]
      rw [hsame] at hskip ⊢
      exact hskip
    | some object =>
      obtain ⟨skip₁, hskip₁⟩ := readUploads_some hd (hmarker kv mem_cons_self) h
        (kv :: front ++ l).length skip (front ++ l)
      obtain ⟨skip', hskip⟩ := hrest skip₁
      refine ⟨skip', ?_⟩
      rw [cons_append] at hskip₁ ⊢
      rw [hskip₁, if_neg, ← cons_append, hlen, ← hb]
      · exact hskip
      · rintro (hnil | hfull)
        · rw [← cons_append, hlen, length_append] at hnil
          omega
        · simp only [list] at hfull
          omega

/-- The action while it reads the index. -/
structure Reading (a : S3GetMultipartBucketAction) : Prop where
  delimiter : a.requestDelimiter = []
  present : a.bucketPresent = true
  index : a.noIndex = false
  room : a.returnListSize < a.maxUploads
  notTruncated : a.multipartObjectList.responseIsTruncated = false
  behind : a.requestMarkerKey ≤ a.lastKey

/-- How a batch ends: the page is full, or the batch was the last one, or the action moves on behind
it, or the action reads it again. -/
inductive BatchResult (n : Nat) (fromJson : Bytes → Option Upload) (a : S3GetMultipartBucketAction)
    (kvps : List KeyValue) : Outcome → Prop where
  | full (front : List KeyValue) (x : KeyValue) (rest : List KeyValue)
      (hsplit : kvps = front ++ x :: rest) (hx : own fromJson a.requestPrefix x = true)
      (hcount : a.returnListSize + (front.filter (own fromJson a.requestPrefix)).length + 1 =
        a.maxUploads)
      (a' : S3GetMultipartBucketAction)
      (hlist : a'.multipartObjectList.objectList =
        (a.list fromJson (front ++ [x])).multipartObjectList.objectList)
      (htrunc : a'.multipartObjectList.responseIsTruncated = true)
      (hmarker : a'.multipartObjectList.nextMarkerKey = x.1) :
      BatchResult n fromJson a kvps (.respond a')
  | ended (hshort : kvps.length < n) (hroom : (a.list fromJson kvps).returnListSize < a.maxUploads)
      (a' : S3GetMultipartBucketAction)
      (hlist : a'.multipartObjectList.objectList =
        (a.list fromJson kvps).multipartObjectList.objectList)
      (htrunc : a'.multipartObjectList.responseIsTruncated = false) :
      BatchResult n fromJson a kvps (.respond a')
  | next (hlen : n ≤ kvps.length) (front : List KeyValue) (x : KeyValue)
      (hsplit : kvps = front ++ [x]) (hread : fromJson x.2 ≠ none) (uploadId : Bytes)
      (hroom : (a.list fromJson kvps).returnListSize < a.maxUploads) :
      BatchResult n fromJson a kvps (getNextObjects n { a.list fromJson kvps with
        lastKey := x.1
        lastUploadid := uploadId })
  | again (hlen : n ≤ kvps.length) (front : List KeyValue) (x : KeyValue)
      (hsplit : kvps = front ++ [x]) (hbad : fromJson x.2 = none)
      (hroom : (a.list fromJson kvps).returnListSize < a.maxUploads) :
      BatchResult n fromJson a kvps (getNextObjects n (a.list fromJson kvps))

variable {kvps : List KeyValue}

/-- **What a batch does.** -/
theorem getNextObjectsSuccessful_result (ha : Reading a) (hne : kvps ≠ [])
    (hkeys : ∀ kv ∈ kvps, a.lastKey < kv.1) :
    BatchResult n fromJson a kvps (getNextObjectsSuccessful n fromJson a kvps) := by
  have hmarker : ∀ kv ∈ kvps, kv.1 ≠ a.requestMarkerKey :=
    fun kv hkv => (lt_of_le_of_lt ha.behind (hkeys kv hkv)).ne'
  have hroom := ha.room
  unfold getNextObjectsSuccessful
  cases cut (own fromJson a.requestPrefix)
      (show 0 < a.maxUploads - a.returnListSize by omega) kvps with
  | full front x rest hsplit hx hcount =>
    obtain ⟨object, hobject⟩ : ∃ object, fromJson x.2 = some object := by
      rw [own, Bool.and_eq_true] at hx
      exact Option.isSome_iff_exists.mp hx.1
    have hbefore : a.returnListSize + (front.filter (own fromJson a.requestPrefix)).length <
        a.maxUploads := by omega
    obtain ⟨skip, hfront⟩ := readUploads_append front (cons_ne_nil x rest) a true
      ha.delimiter (fun kv hkv => hmarker kv (by rw [hsplit]; simp [hkv])) hbefore
    obtain ⟨skip', hstop⟩ := readUploads_some (a := a.list fromJson front) ha.delimiter
      (hmarker x (by rw [hsplit]; simp)) hobject (x :: rest).length skip rest
    have hsize : (a.list fromJson (front ++ [x])).returnListSize = a.maxUploads := by
      simp only [list, filter_append, length_append, filter_cons_of_pos hx,
        filter_nil, length_singleton]
      omega
    rw [← list_append] at hstop
    rw [if_pos (.inr hsize)] at hstop
    rw [← hsplit, hstop] at hfront
    rw [hfront]
    simp only
    rw [if_pos (.inl hsize)]
    have hmax : (a.list fromJson (front ++ [x])).maxUploads = a.maxUploads := rfl
    exact .full front x rest hsplit hx (by omega) _ rfl (by simp [hsize, hmax]) rfl
  | few hcount =>
    obtain ⟨front, x, hfx⟩ : ∃ front x, kvps = front ++ [x] :=
      ⟨_, _, (dropLast_append_getLast hne).symm⟩
    have hfront : a.returnListSize + (front.filter (own fromJson a.requestPrefix)).length <
        a.maxUploads := by
      rw [hfx, filter_append, length_append] at hcount
      omega
    have hsize : (a.list fromJson kvps).returnListSize < a.maxUploads := by
      simp only [list]
      omega
    have hfalse : a.multipartObjectList.responseIsTruncated = false := ha.notTruncated
    have hmax : (a.list fromJson kvps).maxUploads = a.maxUploads := rfl
    obtain ⟨skip, hread⟩ := readUploads_append front (cons_ne_nil x []) a true
      ha.delimiter (fun kv hkv => hmarker kv (by rw [hfx]; simp [hkv])) hfront
    rw [← hfx] at hread
    cases hx : fromJson x.2 with
    | none =>
      have hstay : readUploads fromJson a kvps.length true kvps = a.list fromJson kvps := by
        rw [hread, readUploads, hx]
        simp only [readUploads]
        rw [hfx, list_append]
        exact (list_of_none (by simp [own, hx])).symm
      rw [hstay]
      simp only
      by_cases hshort : kvps.length < n
      · rw [if_pos (.inr hshort)]
        refine .ended hshort hsize _ rfl ?_
        simpa [list, hfalse] using Nat.ne_of_lt hsize
      · rw [if_neg (by
          rintro (h | h)
          · exact Nat.ne_of_lt hsize h
          · exact hshort h)]
        exact .again (by omega) front x hfx hx hsize
    | some object =>
      obtain ⟨skip', hlast⟩ := readUploads_some (a := a.list fromJson front) ha.delimiter
        (hmarker x (by rw [hfx]; simp)) hx [x].length skip []
      rw [if_pos (.inl rfl), ← list_append, ← hfx] at hlast
      rw [hread, hlast]
      simp only
      by_cases hshort : kvps.length < n
      · rw [if_pos (.inr hshort)]
        refine .ended hshort hsize _ rfl ?_
        simpa [list, hfalse] using Nat.ne_of_lt hsize
      · rw [if_neg (by
          rintro (h | h)
          · exact Nat.ne_of_lt hsize h
          · exact hshort h)]
        exact .next (by omega) front x hfx (by rw [hx]; simp) object.uploadId hsize

/-! ### A request -/

/-- What a page is when `rem` lay before the reader: it is full, or it has all uploads that were
left. -/
inductive PageResult (fromJson : Bytes → Option Upload) (a : S3GetMultipartBucketAction)
    (rem : List KeyValue) (r : MultipartObjectList) : Prop where
  | full (front : List KeyValue) (x : KeyValue) (rest : List KeyValue)
      (hsplit : rem = front ++ x :: rest) (hx : own fromJson a.requestPrefix x = true)
      (hcount : a.returnListSize + (front.filter (own fromJson a.requestPrefix)).length + 1 =
        a.maxUploads)
      (hlist : r.objectList = (a.list fromJson (front ++ [x])).multipartObjectList.objectList)
      (htrunc : r.responseIsTruncated = true) (hmarker : r.nextMarkerKey = x.1)
  | ended (hroom : (a.list fromJson rem).returnListSize < a.maxUploads)
      (hlist : r.objectList = (a.list fromJson rem).multipartObjectList.objectList)
      (htrunc : r.responseIsTruncated = false)

/-- The batch that a request reads next, and what is then left. -/
structure NextBatch (n : Nat) (index : List KeyValue) (a : S3GetMultipartBucketAction)
    (rem kvps later : List KeyValue) : Prop where
  split : rem = kvps ++ later
  nonempty : kvps ≠ []
  length : kvps.length ≤ n
  /-- A batch that is not full is the last one. -/
  last : kvps.length < n → later = []
  keys : ∀ kv ∈ kvps, a.lastKey < kv.1
  after : ∀ front x, kvps = front ++ [x] → OrderedIndex.after index x.1 = later

variable {later rem : List KeyValue}

theorem NextBatch.eq_take (h : NextBatch n index a rem kvps later) : kvps = rem.take n := by
  have hlen := h.length
  by_cases hshort : kvps.length < n
  · rw [h.split, h.last hshort, append_nil, take_of_length_le hlen]
  · rw [h.split, show n = kvps.length by omega, take_left]

/-- **A request either ends for want of keys or reads a batch.** -/
theorem serve_succ (hs : Sorted index) (hn : 0 < n) (ha : Reading a)
    (hafter : after index a.lastKey = rem) :
    (rem = [] ∧ ∀ fuel, serve n fromJson index (fuel + 1) (getNextObjects n a) =
      some { a with fetchSuccessful := true }) ∨
    ∃ kvps later, NextBatch n index a rem kvps later ∧
      ∀ fuel, serve n fromJson index (fuel + 1) (getNextObjects n a) =
        serve n fromJson index fuel (getNextObjectsSuccessful n fromJson a kvps) := by
  have hlaunch : getNextObjects n a =
      .launch a { key := a.lastKey, count := n, inclusive := false } := by
    simp [getNextObjects, ha.present, ha.index]
  have hnext : next index a.lastKey n false = rem.take n := by
    simp only [next, Bool.false_eq_true, if_false, hafter]
  have hsuffix : rem <:+ index := by
    rw [← hafter]
    exact after_suffix hs a.lastKey
  cases hrem : rem.take n with
  | nil =>
    left
    have hnil : rem = [] := by
      rcases take_eq_nil_iff.mp hrem with h | h
      · omega
      · exact h
    refine ⟨hnil, ?_⟩
    intro fuel
    have hmissing : nextKeyval index { key := a.lastKey, count := n, inclusive := false } =
        .missing := nextKeyval_missing (by rw [hnext, hrem])
    rw [hlaunch, serve, hmissing]
    simp only [onNextKeyval, getNextObjectsFailed, serve]
  | cons kv rest =>
    right
    have hpresent : nextKeyval index { key := a.lastKey, count := n, inclusive := false } =
        .present (kv :: rest) := nextKeyval_present (by rw [hnext, hrem]) (cons_ne_nil _ _)
    have hsplit : rem = (kv :: rest) ++ rem.drop n := by
      rw [← hrem, take_append_drop]
    refine ⟨kv :: rest, rem.drop n, ⟨hsplit, cons_ne_nil _ _, ?_, ?_, ?_, ?_⟩, ?_⟩
    · rw [← hrem]
      exact length_take_le n rem
    · intro hlt
      rw [← hrem, length_take] at hlt
      exact drop_eq_nil_of_le (by omega)
    · intro x hx
      have hmem : x ∈ after index a.lastKey := by
        rw [hafter, hsplit]
        exact mem_append_left _ hx
      exact (mem_after.mp hmem).2
    · intro front x hfx
      refine after_of_split front hs ?_
      rw [hfx, append_assoc] at hsplit
      rw [show front ++ x :: rem.drop n = front ++ ([x] ++ rem.drop n) from rfl, ← hsplit]
      exact hsuffix
    · intro fuel
      rw [hlaunch, serve, hpresent, onNextKeyval]

variable {x : KeyValue}

theorem Reading.next (ha : Reading a) (hx : a.lastKey < x.1) (uploadId : Bytes)
    (hroom : (a.list fromJson kvps).returnListSize < a.maxUploads) :
    Reading { a.list fromJson kvps with
      lastKey := x.1
      lastUploadid := uploadId } :=
  ⟨ha.delimiter, ha.present, ha.index, hroom, ha.notTruncated, ha.behind.trans hx.le⟩

theorem Reading.again (ha : Reading a)
    (hroom : (a.list fromJson kvps).returnListSize < a.maxUploads) :
    Reading (a.list fromJson kvps) :=
  ⟨ha.delimiter, ha.present, ha.index, hroom, ha.notTruncated, ha.behind⟩

/-! ### Requests that end -/

/-- No stretch of the length of a batch without an upload to be listed ends in a value that cannot be
parsed. -/
def Unstuck (n : Nat) (fromJson : Bytes → Option Upload) (pfx : Bytes) (index : List KeyValue) :
    Prop :=
  ∀ i, i < index.length → i + n ≤ index.length →
    (∀ kv ∈ (index.drop i).take n, own fromJson pfx kv = false) →
    ∀ kv ∈ ((index.drop i).take n).getLast?, fromJson kv.2 ≠ none

instance instDecidableUnstuck (n : Nat) (fromJson : Bytes → Option Upload) (pfx : Bytes)
    (index : List KeyValue) : Decidable (Unstuck n fromJson pfx index) :=
  inferInstanceAs (Decidable (∀ i, i < index.length → i + n ≤ index.length →
    (∀ kv ∈ (index.drop i).take n, own fromJson pfx kv = false) →
    ∀ kv ∈ ((index.drop i).take n).getLast?, fromJson kv.2 ≠ none))

variable {pfx : Bytes}

theorem Unstuck.batch (h : Unstuck n fromJson pfx index) {before : List KeyValue}
    (hindex : index = before ++ (kvps ++ later)) (hlen : kvps.length = n) {front : List KeyValue}
    (hsplit : kvps = front ++ [x]) (hbad : fromJson x.2 = none) :
    0 < (kvps.filter (own fromJson pfx)).length := by
  by_contra hzero
  rw [Nat.not_lt, Nat.le_zero, length_eq_zero_iff, filter_eq_nil_iff] at hzero
  have hbatch : (index.drop before.length).take n = kvps := by
    rw [hindex, drop_left, ← hlen, take_left]
  have hlength : index.length = before.length + (n + later.length) := by
    rw [hindex, length_append, length_append, hlen]
  have hpos : 0 < n := by
    rw [← hlen, hsplit, length_append, length_singleton]
    omega
  refine h before.length (by omega) (by omega) ?_ x ?_ hbad
  · rw [hbatch]
    intro kv hkv
    exact Bool.eq_false_iff.mpr (hzero kv hkv)
  · rw [hbatch, hsplit]
    simp

/-- **A request ends when no batch can hold it up**: each NEXT leaves fewer keys to be read or fewer
uploads to be found. -/
theorem serve_ends (hs : Sorted index) (hn : 0 < n) (h : Unstuck n fromJson pfx index) :
    ∀ (fuel : Nat) (a : S3GetMultipartBucketAction) (rem : List KeyValue),
      Reading a → a.requestPrefix = pfx → after index a.lastKey = rem →
      (a.maxUploads - a.returnListSize) + rem.length < fuel →
      (serve n fromJson index fuel (getNextObjects n a)).isSome = true := by
  intro fuel
  induction fuel with
  | zero =>
    intro a rem _ _ _ hfuel
    omega
  | succ fuel ih =>
    intro a rem ha hp hafter hfuel
    rcases serve_succ hs hn ha hafter with
      ⟨_, hserve⟩ | ⟨kvps, later, hb, hserve⟩
    · rw [hserve]
      rfl
    · rw [hserve]
      have hlen : rem.length = kvps.length + later.length := by
        rw [hb.split, length_append]
      have hpos := length_pos_of_ne_nil hb.nonempty
      have hmore : (a.list fromJson kvps).returnListSize =
          a.returnListSize + (kvps.filter (own fromJson pfx)).length := by rw [← hp]; rfl
      have hresult : BatchResult n fromJson a kvps _ :=
        getNextObjectsSuccessful_result ha hb.nonempty hb.keys
      generalize getNextObjectsSuccessful n fromJson a kvps = outcome at hresult
      cases hresult with
      | full | ended => rw [serve]; rfl
      | next _ front x hsplit _ uploadId hroom =>
        have hx : a.lastKey < x.1 := hb.keys x (by rw [hsplit]; simp)
        refine ih _ later (ha.next hx uploadId hroom) hp (hb.after front x hsplit) ?_
        show a.maxUploads - (a.list fromJson kvps).returnListSize + later.length < fuel
        omega
      | again hfull front x hsplit hbad hroom =>
        obtain ⟨before, hindex⟩ : rem <:+ index := by
          rw [← hafter]
          exact after_suffix hs a.lastKey
        have hfound := h.batch (by rw [← hindex, hb.split])
          (Nat.le_antisymm hb.length hfull) hsplit hbad
        refine ih _ rem (ha.again hroom) hp hafter ?_
        show a.maxUploads - (a.list fromJson kvps).returnListSize + rem.length < fuel
        omega

/-- **A batch without an upload, that ends in a value that cannot be parsed, is read for ever.** -/
theorem serve_stuck (hs : Sorted index) (hn : 0 < n) (ha : Reading a) {window rest : List KeyValue}
    (hafter : after index a.lastKey = window ++ x :: rest)
    (hlen : window.length + 1 = n) (hbad : fromJson x.2 = none)
    (hnone : ∀ kv ∈ window, own fromJson a.requestPrefix kv = false) :
    ∀ fuel, serve n fromJson index fuel (getNextObjects n a) = none := by
  intro fuel
  induction fuel with
  | zero => simp [getNextObjects, ha.present, ha.index, serve]
  | succ fuel ih =>
    rcases serve_succ hs hn ha hafter with
      ⟨hnil, _⟩ | ⟨kvps, later, hb, hserve⟩
    · simp at hnil
    · have hkvps : kvps = window ++ [x] := by
        have hfull : kvps.length = n := by
          refine Nat.le_antisymm hb.length ?_
          by_contra hshort
          have hlater := hb.last (by omega)
          have := congrArg List.length hb.split
          rw [hlater, append_nil, length_append, length_cons] at this
          omega
        have hsplit := hb.split
        rw [show window ++ x :: rest = (window ++ [x]) ++ rest by simp] at hsplit
        exact (append_inj_left hsplit (by simp; omega)).symm
      have hown : kvps.filter (own fromJson a.requestPrefix) = [] := by
        rw [hkvps, filter_eq_nil_iff]
        intro kv hkv
        rcases mem_append.mp hkv with hkv | hkv
        · simp [hnone kv hkv]
        · rw [mem_singleton.mp hkv]
          simp [own, hbad]
      have hsame := list_of_none hown
      rw [hserve]
      have hresult : BatchResult n fromJson a kvps _ :=
        getNextObjectsSuccessful_result ha hb.nonempty hb.keys
      generalize getNextObjectsSuccessful n fromJson a kvps = outcome at hresult
      cases hresult with
      | full front y rest' hsplit hy =>
        have hmem : y ∈ kvps.filter (own fromJson a.requestPrefix) :=
          mem_filter.mpr ⟨by rw [hsplit]; simp, hy⟩
        rw [hown] at hmem
        cases hmem
      | ended hshort =>
        rw [hkvps, length_append, length_singleton] at hshort
        omega
      | next _ front y hsplit hread =>
        rw [hkvps] at hsplit
        have heq := (append_inj' hsplit rfl).2
        rw [← (List.cons.inj heq).1] at hread
        exact absurd hbad hread
      | again =>
        rw [hsame]
        exact ih

end S3GetMultipartBucketAction

end CortxS3

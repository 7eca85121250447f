/-
Paging through the parts of an upload.

The parts lie in the index in the order of their numbers as strings, and the marker is such a string,
so that each request takes up the index where the last one left it, whatever the batches are.

What goes wrong is the size of a page.  The part at the marker has been listed already, but it counts.
A page behind a part therefore has one part less than the client asked for, and with `max-parts` 1 it
has none: the answer is truncated, its marker is the marker of the request, and the client asks the
same again for ever.  With two parts or more a page the listing ends and every part is listed once
(`paginates_iff`).
-/
import CortxS3.Server.GetMultipartPartAction
import CortxS3.Lib.Cut
import CortxS3.Proofs.Decimal

namespace CortxS3

open List hiding after next set_set

open OrderedIndex

namespace S3GetMultipartPartAction

variable {n : Nat} {fromJson : Bytes → Option S3PartMetadata}

/-! ### The parts of an index -/

/-- The pair holds the metadata of a part. -/
def isPart (fromJson : Bytes → Option S3PartMetadata) (kv : KeyValue) : Bool :=
  (fromJson kv.2).isSome

/-- The parts of an index, in the order of its keys. -/
def parts (fromJson : Bytes → Option S3PartMetadata) (kvs : List KeyValue) :
    List S3PartMetadata :=
  kvs.filterMap fun kv => fromJson kv.2

/-- Each part is stored under its number, and the empty string is no part. -/
structure Stored (fromJson : Bytes → Option S3PartMetadata) (index : List KeyValue) : Prop where
  sorted : OrderedIndex.Sorted index
  numbered : ∀ kv ∈ index, ∃ number, 0 < number ∧ number < 2 ^ 31 ∧ kv.1 = decimal number ∧
    ∀ part, fromJson kv.2 = some part → part.partNumber = number
  unreadable : fromJson [] = none

theorem length_parts (kvs : List KeyValue) :
    (parts fromJson kvs).length = (kvs.filter (isPart fromJson)).length := by
  induction kvs with
  | nil => rfl
  | cons kv kvs ih =>
    unfold parts at ih ⊢
    cases h : fromJson kv.2 with
    | none | some part => simp [h, isPart, ih]

theorem parts_append (a b : List KeyValue) :
    parts fromJson (a ++ b) = parts fromJson a ++ parts fromJson b :=
  filterMap_append

/-- The parts as they are put into the answer's map. -/
def writes (fromJson : Bytes → Option S3PartMetadata) (kvs : List KeyValue) :
    List (Int × S3PartMetadata) :=
  (parts fromJson kvs).map fun part => (toInt32 part.partNumber, part)

/-! ### A batch -/

/-- The action with the parts of some pairs listed. -/
def list (fromJson : Bytes → Option S3PartMetadata) (a : S3GetMultipartPartAction)
    (kvs : List KeyValue) : S3GetMultipartPartAction :=
  { a with
    multipartPartList := { a.multipartPartList with
      partList := (writes fromJson kvs).foldl (fun m p => SortedMap.set p.1 p.2 m)
        a.multipartPartList.partList }
    returnListSize := a.returnListSize + (kvs.filter (isPart fromJson)).length }

@[simp] theorem list_maxParts (a : S3GetMultipartPartAction) (kvs : List KeyValue) :
    (a.list fromJson kvs).maxParts = a.maxParts := rfl

theorem list_nil (a : S3GetMultipartPartAction) : a.list fromJson [] = a := rfl

theorem list_append (a : S3GetMultipartPartAction) (x y : List KeyValue) :
    a.list fromJson (x ++ y) = (a.list fromJson x).list fromJson y := by
  unfold list writes
  rw [parts_append, map_append, foldl_append, filter_append, length_append, ← Nat.add_assoc]

theorem list_cons (a : S3GetMultipartPartAction) (kv : KeyValue) (rest : List KeyValue) :
    a.list fromJson (kv :: rest) = (a.list fromJson [kv]).list fromJson rest :=
  list_append a [kv] rest

theorem readParts_cons (a : S3GetMultipartPartAction) (length : Nat) (kv : KeyValue)
    (rest : List KeyValue) :
    readParts fromJson a length (kv :: rest) =
      if length - 1 = 0 ∨ (a.list fromJson [kv]).returnListSize = a.maxParts then
        { a.list fromJson [kv] with lastKey := kv.1 }
      else readParts fromJson (a.list fromJson [kv]) (length - 1) rest := by
  rw [readParts]
  cases h : fromJson kv.2 with
  | none =>
    have hsame : a.list fromJson [kv] = a := by
      simp [list, writes, parts, isPart, h]
    rw [hsame]
  | some part =>
    have hadd : a.list fromJson [kv] = { a with
        multipartPartList := a.multipartPartList.addPart part
        returnListSize := a.returnListSize + 1 } := by
      simp [list, writes, parts, isPart, h, MultipartPartList.addPart]
    rw [hadd]

/-- **The loop lists what it has seen when it comes to the limit or to the end of the batch**, and
stands behind it. -/
theorem readParts_eq (front : List KeyValue) (x : KeyValue) (rest : List KeyValue) :
    ∀ (a : S3GetMultipartPartAction),
      a.returnListSize + (front.filter (isPart fromJson)).length < a.maxParts →
      (rest = [] ∨ (a.list fromJson (front ++ [x])).returnListSize = a.maxParts) →
      readParts fromJson a (front ++ x :: rest).length (front ++ x :: rest) =
        { a.list fromJson (front ++ [x]) with lastKey := x.1 } := by
  induction front with
  | nil =>
    intro a _ hstop
    rw [nil_append, readParts_cons, if_pos]
    · rfl
    · rcases hstop with hrest | hfull
      · exact .inl (by rw [hrest]; rfl)
      · exact .inr hfull
  | cons kv front ih =>
    intro a hroom hstop
    rw [cons_append, readParts_cons, if_neg, length_cons, Nat.add_sub_cancel]
    · rw [cons_append, list_cons a kv (front ++ [x])]
      refine ih _ ?_ ?_
      · rw [← singleton_append, filter_append, length_append] at hroom
        simpa [list, Nat.add_assoc] using hroom
      · rw [cons_append, list_cons a kv (front ++ [x])] at hstop
        exact hstop
    · rintro (hnil | hfull)
      · rw [length_cons, Nat.add_sub_cancel, length_eq_zero_iff] at hnil
        exact absurd hnil (by simp)
      · rw [← singleton_append, filter_append, length_append] at hroom
        simp only [list] at hfull
        omega

/-! ### One page -/

/-- The action while it reads the index. -/
structure Reading (a : S3GetMultipartPartAction) : Prop where
  present : a.multipartObjectState = .present
  room : a.returnListSize < a.maxParts
  notTruncated : a.multipartPartList.responseIsTruncated = false

/-- What a page is when `rem` lay before the reader: it is full, or it has all parts that were
left. -/
inductive PageResult (fromJson : Bytes → Option S3PartMetadata) (a : S3GetMultipartPartAction)
    (rem : List KeyValue) (r : MultipartPartList) : Prop where
  | full (front : List KeyValue) (x : KeyValue) (rest : List KeyValue)
      (hsplit : rem = front ++ x :: rest) (hx : isPart fromJson x = true)
      (hcount : a.returnListSize + (front.filter (isPart fromJson)).length + 1 = a.maxParts)
      (hlist : r.partList = (a.list fromJson (front ++ [x])).multipartPartList.partList)
      (htrunc : r.responseIsTruncated = true) (hmarker : r.nextMarkerKey = x.1)
  | ended (hcount : a.returnListSize + (rem.filter (isPart fromJson)).length < a.maxParts)
      (hlist : r.partList = (a.list fromJson rem).multipartPartList.partList)
      (htrunc : r.responseIsTruncated = false)

theorem PageResult.prepend (a a' : S3GetMultipartPartAction) (batch : List KeyValue)
    {rem : List KeyValue} {r : MultipartPartList}
    (hlist' : a'.multipartPartList = (a.list fromJson batch).multipartPartList)
    (hsize : a'.returnListSize = (a.list fromJson batch).returnListSize)
    (hmax : a'.maxParts = a.maxParts) (h : PageResult fromJson a' rem r) :
    PageResult fromJson a (batch ++ rem) r := by
  have hsize' : a'.returnListSize =
      a.returnListSize + (batch.filter (isPart fromJson)).length := hsize
  have hsame : ∀ kvs, (a'.list fromJson kvs).multipartPartList.partList =
      (a.list fromJson (batch ++ kvs)).multipartPartList.partList := by
    intro kvs
    rw [list_append]
    show List.foldl _ a'.multipartPartList.partList _ = _
    rw [hlist']
    rfl
  cases h with
  | full front x rest hsplit hx hcount hlist htrunc hmarker =>
    refine .full (batch ++ front) x rest (by rw [hsplit, append_assoc]) hx ?_ ?_ htrunc
      hmarker
    · rw [filter_append, length_append]
      omega
    · rw [hlist, hsame, append_assoc]
  | ended hcount hlist htrunc =>
    refine .ended ?_ ?_ htrunc
    · rw [filter_append, length_append]
      omega
    · rw [hlist, hsame]

variable {index : List KeyValue}

/-- **A page is full or complete.**  `rem` is what lay before the reader when it launched the
NEXT. -/
theorem serve_page (hs : Sorted index) (hn : 0 < n) :
    ∀ (fuel : Nat) (a : S3GetMultipartPartAction) (rem : List KeyValue),
      rem.length < fuel → Reading a → rem <:+ index → after index a.lastKey = rem →
      ∃ a', serve n fromJson index fuel (getNextObjects n a) = some a' ∧
        PageResult fromJson a rem a'.multipartPartList := by
  intro fuel
  induction fuel with
  | zero =>
    intro a rem hfuel
    omega
  | succ fuel ih =>
    intro a rem hfuel ha hsuffix hafter
    have hnext : next index a.lastKey n false = rem.take n := by
      simp only [next, Bool.false_eq_true, if_false, hafter]
    rw [getNextObjects, if_pos ha.present, serve]
    by_cases hrem : rem = []
    · have hmissing : nextKeyval index { key := a.lastKey, count := n, inclusive := false } =
          .missing := nextKeyval_missing (by rw [hnext, hrem, take_nil])
      simp only [hmissing, onNextKeyval, getNextObjectsFailed]
      refine ⟨{ a with fetchSuccessful := true }, by rw [serve], ?_⟩
      rw [hrem]
      exact .ended ha.room (by rw [list_nil]) ha.notTruncated
    · obtain ⟨kvps, hkvps⟩ : ∃ kvps, kvps = rem.take n := ⟨_, rfl⟩
      have hne : kvps ≠ [] := by
        rw [hkvps]
        intro h
        rcases take_eq_nil_iff.mp h with h | h
        · omega
        · exact hrem h
      have hpresent : nextKeyval index { key := a.lastKey, count := n, inclusive := false } =
          .present kvps := nextKeyval_present (by rw [hnext, hkvps]) hne
      rw [hpresent, onNextKeyval, getNextObjectsSuccessful]
      have hwhole : kvps ++ rem.drop n = rem := by rw [hkvps, take_append_drop]
      have hroom := ha.room
      cases cut (isPart fromJson) (show 0 < a.maxParts - a.returnListSize by omega) kvps with
      | full front x rest hsplit hx hcount =>
        have hsize : (a.list fromJson (front ++ [x])).returnListSize = a.maxParts := by
          simp only [list, filter_append, length_append, filter_cons_of_pos hx,
            filter_nil, length_singleton]
          omega
        rw [hsplit, readParts_eq front x rest a (by omega) (.inr hsize)]
        simp only
        rw [if_pos (.inl hsize), serve]
        refine ⟨_, rfl, .full front x (rest ++ rem.drop n) ?_ hx (by omega) rfl ?_ rfl⟩
        · conv_lhs => rw [← hwhole, hsplit, append_assoc]
          rfl
        · simp [hsize]
      | few hcount =>
        -- the loop comes to the last pair of the batch
        obtain ⟨front, x, hfx⟩ : ∃ front x, kvps = front ++ [x] :=
          ⟨_, _, (dropLast_append_getLast hne).symm⟩
        have hfront : a.returnListSize + (front.filter (isPart fromJson)).length <
            a.maxParts := by
          rw [hfx, filter_append, length_append] at hcount
          omega
        have hread := readParts_eq front x [] a hfront (.inl rfl)
        rw [← hfx] at hread
        rw [hread]
        have hsize : (a.list fromJson kvps).returnListSize < a.maxParts := by
          simp only [list]
          omega
        by_cases hshort : kvps.length < n
        · have hdrop : rem = kvps := by
            rw [hkvps, length_take] at hshort
            rw [hkvps, take_of_length_le (by omega)]
          simp only
          rw [if_pos (.inr hshort), serve]
          refine ⟨_, rfl, ?_⟩
          rw [hdrop]
          refine .ended hsize rfl ?_
          have hnot : a.multipartPartList.responseIsTruncated = false := ha.notTruncated
          have hlt : (a.list fromJson kvps).returnListSize ≠ a.maxParts := Nat.ne_of_lt hsize
          simpa [list, hnot] using hlt
        · simp only
          rw [if_neg (by
            rintro (h | h)
            · exact Nat.ne_of_lt hsize h
            · exact hshort h)]
          have hafter' : after index x.1 = rem.drop n := by
            refine after_of_split front hs ?_
            rw [show front ++ x :: rem.drop n = kvps ++ rem.drop n by rw [hfx]; simp, hwhole]
            exact hsuffix
          obtain ⟨a', hserve, hpage⟩ := ih { a.list fromJson kvps with lastKey := x.1 }
            (rem.drop n) (by
              have := length_pos_of_ne_nil hrem
              rw [length_drop]
              omega) ⟨ha.present, hsize, ha.notTruncated⟩
            ((drop_suffix n rem).trans hsuffix) hafter'
          refine ⟨a', hserve, ?_⟩
          have hwholePage := PageResult.prepend a
            { a.list fromJson kvps with lastKey := x.1 } kvps rfl rfl rfl hpage
          rw [hwhole] at hwholePage
          exact hwholePage

/-! ### A request -/

/-- The action at the start of a request, as far as its page depends on it. -/
abbrev fresh (maxParts size : Nat) : S3GetMultipartPartAction :=
  { create [] maxParts [] .present [] with returnListSize := size }

theorem Stored.lookup_zero (h : Stored fromJson index) : index.lookup (ascii "0") = none := by
  rw [lookup_eq_none_iff]
  intro kv hkv
  obtain ⟨number, hpos, _, hkey, _⟩ := h.numbered kv hkv
  rw [bne_iff_ne, hkey]
  exact (zero_lt_decimal hpos).ne

theorem Stored.after_zero (h : Stored fromJson index) : after index (ascii "0") = index := by
  unfold after
  rw [filter_eq_self]
  intro kv hkv
  obtain ⟨number, hpos, _, hkey, _⟩ := h.numbered kv hkv
  have hlt : ascii "0" < kv.1 := by
    rw [hkey]
    exact zero_lt_decimal hpos
  simpa using hlt

theorem Stored.key_ne_nil (h : Stored fromJson index) {kv : KeyValue} (hkv : kv ∈ index) :
    kv.1 ≠ [] := by
  obtain ⟨number, _, _, hkey, _⟩ := h.numbered kv hkv
  rw [hkey]
  exact decimal_ne_nil number

theorem getKeyObject_create (marker : Bytes) (maxParts : Nat) (uploadId : Bytes) :
    getKeyObject (create marker maxParts uploadId .present uploadId) =
      .get (create marker maxParts uploadId .present uploadId)
        (create marker maxParts uploadId .present uploadId).lastKey := by
  simp [getKeyObject, create]

/-- The action behind its marker, with what the part at the marker counts. -/
def behindMarker (marker : Bytes) (maxParts : Nat) (uploadId : Bytes) (size : Nat)
    (fetchSuccessful : Bool) : S3GetMultipartPartAction :=
  { create marker maxParts uploadId .present uploadId with
    returnListSize := size
    fetchSuccessful := fetchSuccessful }

section
variable {index : List KeyValue} {fuel maxParts : Nat} (uploadId : Bytes)

/-- What the action goes on with is the page of the request. -/
theorem behindMarker_page (hs : Sorted index) (hn : 0 < n) (marker : Bytes)
    {size : Nat} (found : Bool) (hroom : size < maxParts) {rem : List KeyValue}
    (hsuffix : rem <:+ index)
    (hafter : after index (create marker maxParts uploadId .present uploadId).lastKey =
      rem) (hfuel : rem.length < fuel) :
    ∃ a', serve n fromJson index fuel
        (getNextObjects n (behindMarker marker maxParts uploadId size found)) = some a' ∧
      PageResult fromJson (fresh maxParts size) rem a'.multipartPartList := by
  obtain ⟨a', hserve, hpage⟩ := serve_page hs hn fuel
    (behindMarker marker maxParts uploadId size found) rem hfuel ⟨rfl, hroom, rfl⟩ hsuffix hafter
  exact ⟨a', hserve, PageResult.prepend (fresh maxParts size)
    (behindMarker marker maxParts uploadId size found) [] rfl rfl rfl hpage⟩

theorem listParts_first (h : Stored fromJson index) (hn : 0 < n) (hm : 0 < maxParts)
    (hfuel : index.length + 1 < fuel) :
    ∃ r, listParts n fromJson index uploadId fuel [] maxParts = some r ∧
      PageResult fromJson (fresh maxParts 0) index r := by
  obtain ⟨fuel, rfl⟩ : ∃ k, fuel = k + 1 := ⟨fuel - 1, by omega⟩
  have hget : getKeyval index (create [] maxParts uploadId .present uploadId).lastKey =
      .missing := by
    show getKeyval index (ascii "0") = .missing
    unfold getKeyval
    rw [h.lookup_zero]
  obtain ⟨a', hserve, hpage⟩ := behindMarker_page uploadId h.sorted hn [] true hm
    (suffix_refl index) h.after_zero (show index.length < fuel by omega)
  refine ⟨a'.multipartPartList, ?_, hpage⟩
  rw [listParts, getKeyObject_create, serve, hget]
  rw [behindMarker] at hserve
  simp only [onGetKeyval, getKeyObjectFailed, if_true]
  exact congrArg (Option.map _) hserve

variable {kv : KeyValue}

theorem getKey_part (h : Stored fromJson index) (hkv : kv ∈ index)
    (hpart : isPart fromJson kv = true) (maxParts fuel : Nat) :
    listParts n fromJson index uploadId (fuel + 1) kv.1 maxParts =
      (serve n fromJson index fuel
        (if 1 = maxParts then
          .respond { behindMarker kv.1 maxParts uploadId 1 true with
            multipartPartList := { responseIsTruncated := true, nextMarkerKey := kv.1 } }
        else getNextObjects n (behindMarker kv.1 maxParts uploadId 1 false))).map
          fun a => a.multipartPartList := by
  have hname := h.key_ne_nil hkv
  have hlast : (create kv.1 maxParts uploadId .present uploadId).lastKey = kv.1 := by
    simp [create, hname]
  have hget : getKeyval index kv.1 = .present kv.2 := by
    unfold getKeyval
    rw [h.sorted.lookup_of_mem hkv]
  have hcond : kv.2 ≠ [] ∧ (fromJson kv.2).isSome = true := by
    refine ⟨?_, hpart⟩
    intro hnil
    rw [isPart, hnil, h.unreadable] at hpart
    cases hpart
  rw [listParts, getKeyObject_create, serve, hlast, hget]
  simp only [onGetKeyval, getKeyObjectSuccessful, if_pos hcond]
  simp [create, behindMarker, hname]

theorem listParts_behind (h : Stored fromJson index) (hn : 0 < n) (hm : 1 < maxParts)
    (hkv : kv ∈ index) (hpart : isPart fromJson kv = true) (hfuel : index.length + 1 < fuel) :
    ∃ r, listParts n fromJson index uploadId fuel kv.1 maxParts = some r ∧
      PageResult fromJson (fresh maxParts 1) (after index kv.1) r := by
  obtain ⟨fuel, rfl⟩ : ∃ k, fuel = k + 1 := ⟨fuel - 1, by omega⟩
  have hsuffix := after_suffix h.sorted kv.1
  have hlast : (create kv.1 maxParts uploadId .present uploadId).lastKey = kv.1 := by
    simp [create, h.key_ne_nil hkv]
  obtain ⟨a', hserve, hpage⟩ := behindMarker_page uploadId h.sorted hn kv.1 false hm hsuffix
    (by rw [hlast]) (show (after index kv.1).length < fuel by
      have := hsuffix.length_le
      omega)
  refine ⟨a'.multipartPartList, ?_, hpage⟩
  rw [getKey_part uploadId h hkv hpart, if_neg (by omega), hserve]
  rfl

/-- **With one part a page a request behind a part is answered with nothing but its own
marker.** -/
theorem listParts_stuck (h : Stored fromJson index) (hkv : kv ∈ index)
    (hpart : isPart fromJson kv = true) (hfuel : 0 < fuel) :
    ∃ r, listParts n fromJson index uploadId fuel kv.1 1 = some r ∧
      r.responseIsTruncated = true ∧ r.nextPartNumberMarker = kv.1 := by
  obtain ⟨fuel, rfl⟩ : ∃ k, fuel = k + 1 := ⟨fuel - 1, by omega⟩
  refine ⟨{ responseIsTruncated := true, nextMarkerKey := kv.1 }, ?_, rfl, ?_⟩
  · rw [getKey_part uploadId h hkv hpart, if_pos rfl, serve]
    rfl
  · rw [MultipartPartList.nextPartNumberMarker, if_neg (h.key_ne_nil hkv)]

/-! ### The pages -/

/-- The parts that an answer lists. -/
def MultipartPartList.listed (r : MultipartPartList) : List S3PartMetadata :=
  r.partList.map Prod.snd

/-- A client that pages through the listing comes to its end, and gets every part once.  Some fuel is
enough, and with more the answer is the same. -/
def Paginates (n : Nat) (fromJson : Bytes → Option S3PartMetadata) (index : List KeyValue)
    (uploadId : Bytes) (maxParts : Nat) : Prop :=
  ∃ enough, ∀ fuel, enough ≤ fuel →
    ∃ rs, listPages n fromJson index uploadId fuel maxParts fuel [] = some rs ∧
      (rs.flatMap MultipartPartList.listed).Perm (parts fromJson index)

section

variable (h : Stored fromJson index)

include h

theorem Stored.keys_nodup {kvs : List KeyValue}
    (hsub : kvs.Sublist index) : ((writes fromJson kvs).map Prod.fst).Nodup := by
  have hkeys : ∀ kvs : List KeyValue, kvs.Sublist index →
      (writes fromJson kvs).map Prod.fst =
        (kvs.filter (isPart fromJson)).map fun kv => (decimalValue kv.1 0 : Int) := by
    intro kvs hkvs
    induction kvs with
    | nil => rfl
    | cons kv kvs ih =>
      have hrest := ih ((sublist_cons_self kv kvs).trans hkvs)
      obtain ⟨number, _, hlt, hkey, hnumber⟩ := h.numbered kv (hkvs.subset (by simp))
      cases hp : fromJson kv.2 with
      | none => simpa [writes, parts, isPart, hp] using hrest
      | some part =>
        have hint : toInt32 (part.partNumber : Int) = (decimalValue kv.1 0 : Int) := by
          rw [hnumber part hp, hkey, decimalValue_decimal]
          unfold toInt32
          omega
        rw [filter_cons_of_pos (by simp [isPart, hp]), map_cons, ← hrest]
        simp [writes, parts, hp, hint]
  rw [hkeys kvs hsub]
  refine List.Nodup.map_on ?_ ((h.sorted.sublist hsub).nodup.filter _)
  intro x hx y hy heq
  have hx' := mem_of_mem_filter hx
  have hy' := mem_of_mem_filter hy
  obtain ⟨i, _, _, hi, _⟩ := h.numbered x (hsub.subset hx')
  obtain ⟨j, _, _, hj, _⟩ := h.numbered y (hsub.subset hy')
  rw [hi, hj, decimalValue_decimal, decimalValue_decimal, Int.natCast_inj] at heq
  have hkey : x.1 = y.1 := by rw [hi, hj, heq]
  have hsorted : Sorted kvs := h.sorted.sublist hsub
  exact inj_on_of_nodup_map hsorted.nodup_keys hx' hy' hkey

theorem listed_perm {kvs : List KeyValue} (hsub : kvs.Sublist index)
    {size : Nat} {r : MultipartPartList}
    (hlist : r.partList = ((fresh maxParts size).list fromJson kvs).multipartPartList.partList) :
    r.listed.Perm (parts fromJson kvs) := by
  have hwrites : r.partList = SortedMap.ofWrites (writes fromJson kvs) := hlist
  have hperm := (SortedMap.ofWrites_perm (h.keys_nodup hsub)).map Prod.snd
  rw [MultipartPartList.listed, hwrites]
  have hsnd : (writes fromJson kvs).map Prod.snd = parts fromJson kvs := by
    unfold writes
    rw [map_map]
    exact map_id _
  rw [hsnd] at hperm
  exact hperm

/-- **With two parts a page or more, the listing behind a part ends and has every part behind it
once.** -/
theorem listPages_behind (hn : 0 < n) (hm : 1 < maxParts)
    (hfuel : index.length + 1 < fuel) :
    ∀ (pages : Nat) (kv : KeyValue), kv ∈ index → isPart fromJson kv = true →
      (after index kv.1).length < pages →
      ∃ rs, listPages n fromJson index uploadId fuel maxParts pages kv.1 = some rs ∧
        (rs.flatMap MultipartPartList.listed).Perm
          (parts fromJson (after index kv.1)) := by
  intro pages
  induction pages with
  | zero =>
    intro kv _ _ hlen
    omega
  | succ pages ih =>
    intro kv hkv hpart hlen
    obtain ⟨r, hr, hpage⟩ := listParts_behind uploadId h hn hm hkv hpart hfuel
    have hsuffix := after_suffix h.sorted kv.1
    unfold listPages
    rw [hr]
    cases hpage with
    | ended _ hlist htrunc =>
      simp only [htrunc, Bool.false_eq_true, if_false]
      exact ⟨[r], rfl, by simpa using listed_perm h hsuffix.sublist hlist⟩
    | full front x rest hsplit hx _ hlist htrunc hmarker =>
      have hmem : x ∈ index := hsuffix.subset (by rw [hsplit]; simp)
      have hafter : after index x.1 = rest := by
        refine after_of_split front h.sorted ?_
        rw [← hsplit]
        exact hsuffix
      have hnext : r.nextPartNumberMarker = x.1 := by
        rw [MultipartPartList.nextPartNumberMarker, hmarker, if_neg (h.key_ne_nil hmem)]
      rw [hsplit, length_append, length_cons] at hlen
      obtain ⟨rs, hrs, hperm⟩ := ih x hmem hx (by rw [hafter]; omega)
      simp only [htrunc, if_true, hnext, hrs, Option.map_some]
      refine ⟨r :: rs, rfl, ?_⟩
      have hfront : (front ++ [x]).Sublist index := by
        refine List.Sublist.trans ?_ hsuffix.sublist
        rw [hsplit, show front ++ x :: rest = front ++ [x] ++ rest by simp]
        exact sublist_append_left _ _
      rw [hafter] at hperm
      rw [flatMap_cons, hsplit, show front ++ x :: rest = front ++ [x] ++ rest by simp,
        parts_append]
      exact (listed_perm h hfront hlist).append hperm

theorem listPages_stuck (hkv : kv ∈ index)
    (hpart : isPart fromJson kv = true) (hfuel : 0 < fuel) :
    ∀ pages, listPages n fromJson index uploadId fuel 1 pages kv.1 = none := by
  intro pages
  induction pages with
  | zero => rfl
  | succ pages ih =>
    obtain ⟨r, hr, htrunc, hnext⟩ := listParts_stuck (n := n) uploadId h hkv hpart hfuel
    unfold listPages
    simp only [hr, htrunc, if_true, hnext, ih, Option.map_none]

end

end

theorem large_of_paginates (h : Stored fromJson index) (uploadId : Bytes) {maxParts : Nat}
    (hm : 1 ≤ maxParts) (hn : 1 ≤ n) :
    Paginates n fromJson index uploadId maxParts → maxParts ≠ 1 ∨ parts fromJson index = [] := by
  rintro ⟨enough, hall⟩
  by_contra hnot
  rw [not_or, not_not] at hnot
  obtain ⟨rfl, hsome⟩ := hnot
  obtain ⟨fuel, hfuel⟩ : ∃ fuel, fuel = enough + index.length + 2 := ⟨_, rfl⟩
  obtain ⟨rs, hrs, _⟩ := hall fuel (by omega)
  obtain ⟨r, hr, hpage⟩ := listParts_first (n := n) uploadId h hn Nat.one_pos
    (show index.length + 1 < fuel by omega)
  obtain ⟨pages, hpages⟩ : ∃ pages, fuel = pages + 1 := ⟨fuel - 1, by omega⟩
  cases hpage with
  | ended hcount _ _ =>
    have hzero : (parts fromJson index).length = 0 := by
      rw [length_parts]
      have : 0 + (index.filter (isPart fromJson)).length < 1 := hcount
      omega
    exact hsome (length_eq_zero_iff.mp hzero)
  | full front x rest hsplit hx _ _ htrunc hmarker =>
    have hmem : x ∈ index := by rw [hsplit]; simp
    have hnext : r.nextPartNumberMarker = x.1 := by
      rw [MultipartPartList.nextPartNumberMarker, hmarker, if_neg (h.key_ne_nil hmem)]
    have hstuck := listPages_stuck (n := n) uploadId h hmem hx
      (show 0 < fuel by omega) pages
    have hnone : listPages n fromJson index uploadId fuel 1 (pages + 1) [] = none := by
      unfold listPages
      simp only [hr, htrunc, if_true, hnext, hstuck, Option.map_none]
    rw [← hpages, hrs] at hnone
    cases hnone

theorem paginates_of_large (h : Stored fromJson index) (uploadId : Bytes) {maxParts : Nat}
    (hm : 1 ≤ maxParts) (hn : 1 ≤ n) :
    maxParts ≠ 1 ∨ parts fromJson index = [] → Paginates n fromJson index uploadId maxParts := by
  intro hcond
  refine ⟨index.length + 2, ?_⟩
  intro fuel hfuel
  obtain ⟨r, hr, hpage⟩ := listParts_first uploadId h hn hm
    (show index.length + 1 < fuel by omega)
  obtain ⟨pages, hpages⟩ : ∃ pages, fuel = pages + 1 := ⟨fuel - 1, by omega⟩
  have hunfold : listPages n fromJson index uploadId fuel maxParts fuel [] =
      if r.responseIsTruncated then
        (listPages n fromJson index uploadId fuel maxParts pages r.nextPartNumberMarker).map
          (r :: ·)
      else some [r] := by
    conv_lhs => rw [hpages, listPages]
    rw [← hpages, hr]
  rw [hunfold]
  cases hpage with
  | ended _ hlist htrunc =>
    simp only [htrunc, Bool.false_eq_true, if_false]
    exact ⟨[r], rfl, by simpa using listed_perm h (List.Sublist.refl _) hlist⟩
  | full front x rest hsplit hx _ hlist htrunc hmarker =>
    have hmem : x ∈ index := by rw [hsplit]; simp
    -- there is a part, so the pages are larger
    have hlarge : 1 < maxParts := by
      rcases hcond with hne | hnil
      · omega
      · rw [hsplit, parts, filterMap_eq_nil_iff] at hnil
        have := hnil x (by simp)
        rw [isPart, this] at hx
        cases hx
    have hnext : r.nextPartNumberMarker = x.1 := by
      rw [MultipartPartList.nextPartNumberMarker, hmarker, if_neg (h.key_ne_nil hmem)]
    have hafter : after index x.1 = rest :=
      after_of_split front h.sorted (by rw [← hsplit])
    have hlen : rest.length < pages := by
      have : index.length = front.length + (rest.length + 1) := by
        rw [hsplit, length_append, length_cons]
      omega
    obtain ⟨rs, hrs, hperm⟩ := listPages_behind uploadId h hn hlarge
      (show index.length + 1 < fuel by omega) pages x hmem hx (by rw [hafter]; exact hlen)
    simp only [htrunc, if_true, hnext, hrs, Option.map_some]
    refine ⟨r :: rs, rfl, ?_⟩
    have hwhole : index = front ++ [x] ++ rest := by rw [hsplit]; simp
    have hfront : (front ++ [x]).Sublist index := by
      rw [hwhole]
      exact sublist_append_left _ _
    rw [hafter] at hperm
    rw [flatMap_cons]
    conv_rhs => rw [hwhole, parts_append]
    exact (listed_perm h hfront hlist).append hperm

/-- **Paging through the parts of an upload ends and lists every part once, exactly if the pages are
larger than one part or there is no part.** -/
theorem paginates_iff {index : List KeyValue} (h : Stored fromJson index) (uploadId : Bytes)
    {maxParts : Nat} (hm : 1 ≤ maxParts) (hn : 1 ≤ n) :
    Paginates n fromJson index uploadId maxParts ↔ maxParts ≠ 1 ∨ parts fromJson index = [] :=
  ⟨large_of_paginates h uploadId hm hn, paginates_of_large h uploadId hm hn⟩

/-- The stored value of a part without data. -/
def partJson (number : Nat) : Bytes :=
  ascii "\x7b\"Bucket-Name\":\"b\",\"Object-Name\":\"o\",\"Upload-ID\":\"u\",\"Part-Num\":\"" ++
    decimal number ++ ascii "\"\x7d"

def emptyPart (number : Nat) : S3PartMetadata :=
  { partNumber := number
    oid := {}
    layoutId := 0
    pvidStr := []
    contentLength := 0 }

/-- Reads the parts 1, 2 and 10 back. -/
def threePartsFromJson (value : Bytes) : Option S3PartMetadata :=
  ([1, 2, 10].find? fun number => partJson number == value).map emptyPart

/-- The parts 1, 2 and 10, in the order of the index. -/
def threeParts : List KeyValue :=
  [1, 10, 2].map fun number => (decimal number, partJson number)

theorem threeParts_stored : Stored threePartsFromJson threeParts := by
  refine ⟨by decide, ?_, by decide⟩
  intro kv hkv
  obtain ⟨number, hnumber, rfl⟩ := mem_map.mp hkv
  have hall : ∀ k ∈ [1, 10, 2], 0 < k ∧ k < 2 ^ 31 ∧
      threePartsFromJson (partJson k) = some (emptyPart k) := by decide
  obtain ⟨hpos, hlt, hread⟩ := hall number hnumber
  refine ⟨number, hpos, hlt, rfl, ?_⟩
  intro part hpart
  rw [hread, Option.some.injEq] at hpart
  rw [← hpart]
  rfl

/-- In pages of two, and batches of one, the three parts are listed. -/
theorem paginates_iff_threeParts :
    Stored threePartsFromJson threeParts ∧ 1 ≤ 2 ∧ 1 ≤ 1 ∧
      Paginates 1 threePartsFromJson threeParts (ascii "u") 2 :=
  ⟨threeParts_stored, by decide, by decide,
    (paginates_iff threeParts_stored (ascii "u") (by decide) (by decide)).mpr (.inl (by decide))⟩

/-- In pages of one they are not. -/
theorem not_paginates_threeParts : ¬ Paginates 1 threePartsFromJson threeParts (ascii "u") 1 := by
  intro h
  rcases large_of_paginates threeParts_stored (ascii "u") (by decide) (by decide) h with hne | hnil
  · exact hne rfl
  · exact absurd hnil (by decide)

end S3GetMultipartPartAction

end CortxS3

/-
When a bucket is the same in the name of the host as in the path.

The kind and the name of the object always agree.  The bucket is cut off the host by the length of
the last name of the service that occurs anywhere in it, wherever it occurs.  So what counts is not
which name the client meant but how long that last one is: the bucket comes out right exactly if it
is as long as what stands behind the bucket and its dot (`sameResource_iff`).  A bucket whose own
name holds a longer name of the service is cut short.
-/
import CortxS3.Server.Uri
import CortxS3.Proofs.Base64

namespace CortxS3

open List

variable {o : S3Option} {inetPton : AddressFamily → Bytes → Bool}

theorem slash_eq : ascii "/" = [47] := by decide

theorem dot_eq : ascii "." = [46] := by decide

/-! ### The name of the host -/

namespace RequestObject

theorem rfindColon_eq_some {s : Bytes} {pos : Nat} (h : rfindColon s = some pos) :
    ∃ before after, s = before ++ 58 :: after ∧ before.length = pos := by
  unfold rfindColon at h
  obtain ⟨back, hback, hpos⟩ := Option.map_eq_some_iff.mp h
  have hmem : (58 : UInt8) ∈ s.reverse := by
    by_contra hnone
    have hfind : find (ascii ":") s.reverse = none := find_singleton_eq_none.mpr hnone
    rw [hfind] at hback
    cases hback
  obtain ⟨front, rest, hsplit, hfront⟩ := eq_append_cons_of_mem hmem
  have hfind : find (ascii ":") s.reverse = some front.length := by
    rw [hsplit]
    exact find_singleton_append rest hfront
  obtain rfl : front.length = back := Option.some.inj (hfind.symm.trans hback)
  have hs : s = rest.reverse ++ 58 :: front.reverse := by
    have hrev := congrArg List.reverse hsplit
    rw [reverse_reverse, reverse_append, reverse_cons, append_assoc] at hrev
    exact hrev
  refine ⟨rest.reverse, front.reverse, hs, ?_⟩
  rw [← hpos, hs]
  simp

theorem hostNameOf_cases (host : Bytes) :
    hostNameOf inetPton host = host ∨ ∃ after, host = hostNameOf inetPton host ++ 58 :: after := by
  unfold hostNameOf
  cases hpos : rfindColon host with
  | none => exact Or.inl rfl
  | some pos =>
    obtain ⟨before, after, hsplit, hlen⟩ := rfindColon_eq_some hpos
    have htake : host.take pos = before := by
      rw [hsplit, ← hlen, take_left]
    dsimp only
    rw [htake]
    split
    · exact Or.inr ⟨after, hsplit⟩
    · split
      · exact Or.inr ⟨after, hsplit⟩
      · split
        · exact Or.inl rfl
        · exact Or.inr ⟨after, hsplit⟩

theorem hostNameOf_of_noColon {host : Bytes} (h : rfindColon host = none) :
    hostNameOf inetPton host = host := by
  unfold hostNameOf
  rw [h]

end RequestObject

/-! ### The bucket -/

/-- The last name of the service, in the order they are tried, that occurs in the host. -/
def S3Option.lastEndpointIn (o : S3Option) (host : Bytes) : Option Bytes :=
  (o.endpoints.filter fun endpoint => (find endpoint host).isSome).getLast?

theorem foldl_tryEndpoint (host : Bytes) (l : List Bytes) :
    ∀ bucketName : Bytes, l.foldl (tryEndpoint host) bucketName =
      (((l.filter fun endpoint => (find endpoint host).isSome).getLast?).map
        (hostBefore host)).getD bucketName := by
  induction l with
  | nil => intro bucketName; rfl
  | cons endpoint rest ih =>
    intro bucketName
    rw [foldl_cons, ih]
    by_cases hfound : (find endpoint host).isSome = true
    · have hfilter : (endpoint :: rest).filter (fun endpoint => (find endpoint host).isSome) =
          endpoint :: rest.filter fun endpoint => (find endpoint host).isSome :=
        filter_cons_of_pos hfound
      rw [hfilter, List.getLast?_cons]
      cases hlast : (rest.filter fun endpoint => (find endpoint host).isSome).getLast? with
      | none => exact if_pos hfound
      | some m => rfl
    · have hfilter : (endpoint :: rest).filter (fun endpoint => (find endpoint host).isSome) =
          rest.filter fun endpoint => (find endpoint host).isSome :=
        filter_cons_of_neg hfound
      rw [hfilter, show tryEndpoint host bucketName endpoint = bucketName from if_neg hfound]

theorem setupBucketName_eq (host : Bytes) :
    setupBucketName o host = ((o.lastEndpointIn host).map (hostBefore host)).getD [] :=
  foldl_tryEndpoint host o.endpoints []

/-- What is cut off the host, or off what stands before a colon in it, is the bucket exactly if the
name that is cut off has the length of the rest. -/
theorem hostBefore_eq_iff {b e host m : Bytes}
    (hhost : host = b ++ ascii "." ++ e ∨ ∃ after, b ++ ascii "." ++ e = host ++ 58 :: after) :
    hostBefore host m = b ↔ host.length = b.length + 1 + m.length := by
  have hprefix : host <+: b ++ ascii "." ++ e := by
    rcases hhost with rfl | ⟨after, h⟩
    · exact prefix_refl _
    · exact ⟨58 :: after, h.symm⟩
  unfold hostBefore
  by_cases hshort : host.length < m.length + 1
  · rw [if_pos hshort]
    constructor
    · intro heq
      subst heq
      -- behind the bucket stands a dot, not a colon
      rcases hhost with h | ⟨after, h⟩
      · have hlen := congrArg List.length h
        rw [dot_eq] at hlen
        simp at hlen
      · rw [append_assoc] at h
        have hcons := append_cancel_left h
        exact absurd (List.cons.inj hcons).1 (by decide)
    · intro hlen
      omega
  · rw [if_neg hshort]
    have hlen := length_take_of_le (show host.length - m.length - 1 ≤ host.length by omega)
    constructor
    · intro heq
      rw [heq] at hlen
      omega
    · intro heq
      rw [show host.length - m.length - 1 = b.length by omega]
      have hb : b <+: b ++ ascii "." ++ e := by
        rw [append_assoc]
        exact prefix_append _ _
      have hbhost : b <+: host := prefix_of_prefix_length_le hb hprefix (by omega)
      exact (prefix_iff_eq_take.mp hbhost).symm

/-! ### The two kinds -/

theorem pathStyle_eq {r : RequestObject} {b k : Bytes} (hslash : (47 : UInt8) ∉ b)
    (hpath : r.cGetFullPath = ascii "/" ++ b ++ 47 :: k)
    (hmgmt : r.getHeaderValue (ascii "x-seagate-mgmt-api") = []) :
    S3PathStyleURI o r =
      if k = [] then { s3ApiType := .bucket, bucketName := b }
      else { s3ApiType := .object, bucketName := b, objectName := cStr k } := by
  have hmgmt' : r.getHeaderValue (ascii "x-seagate-mgmt-api") ≠ ascii "true" := by
    rw [hmgmt]
    decide
  have hdrop : ([47] ++ b ++ 47 :: k).drop 1 = b ++ 47 :: k := rfl
  have hfind : findFrom [47] ([47] ++ b ++ 47 :: k) 1 = some (b.length + 1) := by
    unfold findFrom
    rw [if_pos (by simp), hdrop, find_singleton_append k hslash]
    rfl
  have hlength : ([47] ++ b ++ 47 :: k).length = b.length + k.length + 2 := by
    simp
    omega
  have hne : [47] ++ b ++ 47 :: k ≠ [47] := by
    intro h
    have hlen := congrArg List.length h
    rw [hlength] at hlen
    simp at hlen
  unfold S3PathStyleURI
  rw [hpath, slash_eq]
  dsimp only
  rw [if_neg hne, if_neg hmgmt', hfind]
  dsimp only
  rw [hlength, hdrop]
  cases k with
  | nil => simp
  | cons c k =>
    have hbehind : ([47] ++ b ++ 47 :: c :: k).drop (b.length + 1 + 1) = c :: k := by
      rw [show [47] ++ b ++ 47 :: c :: k = ([47] ++ b ++ [47]) ++ c :: k by simp,
        drop_left' (by simp)]
    have hpos : b.length + 1 ≠ b.length + (c :: k).length + 2 - 1 := by
      rw [length_cons]
      omega
    rw [if_neg hpos, if_neg (cons_ne_nil c k), hbehind, Nat.add_sub_cancel, take_left]

/-- **A bucket in the name of the host is the bucket in the path exactly if the last name of the
service that occurs in the host, the port left out, is as long as the host is behind the bucket and
its dot.**  The kind of the resource and the name of the object are always the same. -/
theorem sameResource_iff (o : S3Option) (inetPton : AddressFamily → Bytes → Bool) {b e p : Bytes}
    {r r' : RequestObject} (hb : b ≠ []) (hslash : (47 : UInt8) ∉ b) (hp : p.head? = some 47)
    (hhost : r.getHostHeader = b ++ ascii "." ++ e) (hpath : r.cGetFullPath = p)
    (hpath' : r'.cGetFullPath = ascii "/" ++ b ++ p)
    (hmgmt : r'.getHeaderValue (ascii "x-seagate-mgmt-api") = []) :
    S3VirtualHostStyleURI o inetPton r = S3PathStyleURI o r' ↔
      ∃ m, o.lastEndpointIn (r.getHostName inetPton) = some m ∧
        (r.getHostName inetPton).length = b.length + 1 + m.length := by
  obtain ⟨k, rfl⟩ : ∃ k, p = 47 :: k := List.head?_eq_some_iff.mp hp
  have hname : r.getHostName inetPton = b ++ ascii "." ++ e ∨
      ∃ after, b ++ ascii "." ++ e = r.getHostName inetPton ++ 58 :: after := by
    unfold RequestObject.getHostName
    rw [hhost]
    exact RequestObject.hostNameOf_cases _
  have hbucket : setupBucketName o (r.getHostName inetPton) = b ↔
      ∃ m, o.lastEndpointIn (r.getHostName inetPton) = some m ∧
        (r.getHostName inetPton).length = b.length + 1 + m.length := by
    rw [setupBucketName_eq]
    cases hlast : o.lastEndpointIn (r.getHostName inetPton) with
    | none =>
      constructor
      · intro h
        exact absurd h.symm hb
      · rintro ⟨m, hm, -⟩
        cases hm
    | some m =>
      rw [Option.map_some, Option.getD_some, hostBefore_eq_iff hname]
      constructor
      · intro h
        exact ⟨m, rfl, h⟩
      · rintro ⟨m', hm', h⟩
        obtain rfl := Option.some.inj hm'
        exact h
  rw [← hbucket, pathStyle_eq hslash hpath' hmgmt]
  unfold S3VirtualHostStyleURI
  rw [hpath]
  dsimp only
  cases k with
  | nil =>
    rw [if_pos slash_eq.symm, if_pos rfl]
    simp
  | cons c k =>
    rw [if_neg (by rw [slash_eq]; simp), if_neg (cons_ne_nil c k)]
    simp

/-! ### The sample configuration -/

/-- The names of the service in the sample configuration. -/
def sampleOption : S3Option where
  defaultEndpoint := ascii "s3.seagate.com"
  regionEndpoints := [ascii "s3-asia.seagate.com", ascii "s3-europe.seagate.com",
    ascii "s3-us-west-2.seagate.com", ascii "s3-us.seagate.com"]
  regionEndpoints_sorted := by decide

/-- A request to a host. -/
def getRequest (host path : Bytes) : RequestObject :=
  { httpVerb := .GET, headersIn := [(ascii "Host", host)], fullEncodedPath := some path }

theorem getHostName_getRequest (host path : Bytes) (hhost : (getRequest host path).getHostHeader = host)
    (hcolon : RequestObject.rfindColon host = none) :
    (getRequest host path).getHostName inetPton = host := by
  unfold RequestObject.getHostName
  rw [hhost]
  exact RequestObject.hostNameOf_of_noColon hcolon

/-- What `inet_pton` says of names of hosts. -/
def noAddress : AddressFamily → Bytes → Bool := fun _ _ => false

/-- The bucket films in a region. -/
theorem sameResource_iff_films :
    S3VirtualHostStyleURI sampleOption noAddress
        (getRequest (ascii "films.s3-us.seagate.com") (ascii "/one")) =
      S3PathStyleURI sampleOption (getRequest (ascii "s3.seagate.com") (ascii "/films/one")) := by
  refine (sameResource_iff sampleOption noAddress (b := ascii "films") (e := ascii "s3-us.seagate.com")
    (p := ascii "/one") (by decide) (by decide) (by decide) (by decide) (by decide) (by decide)
    (by decide)).mpr ?_
  rw [getHostName_getRequest _ _ (by decide) (by decide)]
  exact ⟨ascii "s3-us.seagate.com", by decide, by decide⟩

/-- **A bucket whose name is that of a region is cut short**: `s3-us.seagate.com` becomes
`s3-us.seagate.`. -/
theorem not_sameResource_region :
    ascii "s3.seagate.com" ∈ sampleOption.endpoints ∧
      S3PathStyleURI sampleOption (getRequest (ascii "s3.seagate.com")
          (ascii "/s3-us.seagate.com/one")) =
        { s3ApiType := .object
          bucketName := ascii "s3-us.seagate.com"
          objectName := ascii "one" } ∧
      S3VirtualHostStyleURI sampleOption noAddress
          (getRequest (ascii "s3-us.seagate.com.s3.seagate.com") (ascii "/one")) =
        { s3ApiType := .object
          bucketName := ascii "s3-us.seagate."
          objectName := ascii "one" } := by
  decide

end CortxS3

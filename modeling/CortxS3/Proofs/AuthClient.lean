/-
What the auth client sends for the chunks of an upload.

The requests of a cycle form a chain: each carries the signature of its own chunk and that of
the chunk before.  Three things can break it, and none of them is an interleaving.  The body
leaves all chunk fields out when a signature is empty, and then the auth server checks the
request itself again and is content.  A signature with a NUL in it is sent only up to there.
And a chunk handed over after a negative answer is asked about as if there had been none.

Without these the queue and the register of the previous signature stay in step whatever the
order of chunks and answers (`chained_and_finished`).  The invariant says which chunks the
requests were for (`Core`), and which of the two a client does: wait for an answer
(`InFlight`) or wait for a chunk (`Ready`, with nothing queued).
-/
import CortxS3.Server.AuthClient

namespace CortxS3

open Option (any_eq_true some.inj)
open List

/-- Every field there is. -/
def AuthField.all : List AuthField :=
  [ action, method, requestorAccountId, requestorAccountName, requestorUserId,
    requestorUserName, requestorEmail, requestorCanonicalId, clientAbsoluteUri,
    clientQueryParams, version, requestId, requestACL, s3Action, s3ActionList, policy, authACL,
    bucketACL, previousSignature, currentSignature, contentSha256, acl ]

theorem AuthField.mem_all (f : AuthField) : f ∈ AuthField.all := by
  cases f <;> decide

namespace S3AuthClient

open SortedMap

/-! ### The pairs of a body -/

/-- The body has one pair of this name, and this is its value. -/
def Carries (body : AuthBody) (name value : Bytes) : Prop :=
  ∀ w, (name, w) ∈ body ↔ w = value

variable {r : RequestObject}

theorem mem_getInHeadersCopy {p : Bytes × Bytes} (hp : p ∈ r.getInHeadersCopy) :
    ∃ h ∈ r.headersIn, p = RequestObject.consumeHeader h := by
  have hmem := mem_of_mem_ofWrites hp
  obtain ⟨h, hh, heq⟩ := mem_map.mp hmem
  exact ⟨h, hh, heq.symm⟩

theorem nulFree_getInHeadersCopy (r : RequestObject) : ∀ p ∈ r.getInHeadersCopy, NulFree p.1 := by
  intro p hp
  obtain ⟨h, _, rfl⟩ := mem_getInHeadersCopy hp
  exact nulFree_cStr h.1

theorem nulFree_value_getInHeadersCopy (r : RequestObject) :
    ∀ p ∈ r.getInHeadersCopy, NulFree p.2 := by
  intro p hp
  obtain ⟨h, _, rfl⟩ := mem_getInHeadersCopy hp
  exact nulFree_cStr h.2

theorem nulFree_name (f : AuthField) : NulFree f.name := by
  have h : ∀ f ∈ AuthField.all, NulFree f.name := by decide
  exact h f f.mem_all

/-- No two fields have one name, not even when letter case does not count. -/
theorem foldCase_name_injective {f g : AuthField} (h : foldCase f.name = foldCase g.name) :
    f = g := by
  have hall : ∀ f ∈ AuthField.all, ∀ g ∈ AuthField.all,
      foldCase f.name = foldCase g.name → f = g := by decide
  exact hall f f.mem_all g g.mem_all h

theorem name_injective : Function.Injective AuthField.name := by
  intro f g h
  exact foldCase_name_injective (congrArg foldCase h)

theorem nulFree_dataKeyVal (c : S3AuthClient) (r : RequestObject) :
    ∀ p ∈ dataKeyVal c r, NulFree p.1 := by
  intro p hp
  rcases mem_append.mp (mem_of_mem_ofWrites hp) with hp | hp
  · unfold headerKeyVals at hp
    split at hp
    · cases hp
    · exact nulFree_getInHeadersCopy r p hp
  · obtain ⟨q, _, rfl⟩ := mem_map.mp hp
    exact nulFree_name q.1

variable {c : S3AuthClient}

/-- **A pair of a body is one of the map, and its value is what was last written.** -/
theorem mem_body {name w : Bytes} (hne : name ≠ AuthField.action.name) :
    (name, w) ∈ (setupAuthRequestBody c r).2 ↔
      ∃ v, lastWrite name (headerKeyVals c r ++
        (serverKeyVals c r).map fun p => (p.1.name, p.2)) = some v ∧ w = cStr v := by
  show (name, w) ∈ (AuthField.action.name, actionOf c.opType) ::
    (dataKeyVal c r).map (fun p => (cStr p.1, cStr p.2)) ↔ _
  rw [mem_cons, mem_map]
  constructor
  · rintro (h | ⟨p, hp, hpair⟩)
    · exact absurd (Prod.mk.inj h).1 hne
    · rw [cStr_of_nulFree (nulFree_dataKeyVal c r p hp)] at hpair
      obtain ⟨h1, h2⟩ := Prod.mk.inj hpair
      refine ⟨p.2, ?_, h2.symm⟩
      rw [← h1]
      exact mem_ofWrites.mp hp
  · rintro ⟨v, hv, hw⟩
    refine Or.inr ⟨(name, v), mem_ofWrites.mpr hv, ?_⟩
    have hnul := nulFree_dataKeyVal c r (name, v) (mem_ofWrites.mpr hv)
    rw [cStr_of_nulFree hnul, hw]

theorem carries_of_lastWrite {f : AuthField} {v : Bytes} (hne : f ≠ .action)
    (hlast : lastWrite f (opKeyVals c r) = some v) (hv : NulFree v) :
    Carries (setupAuthRequestBody c r).2 f.name v := by
  intro w
  rw [mem_body (fun h => hne (name_injective h)), lastWrite_append,
    lastWrite_map name_injective, serverKeyVals, lastWrite_append, hlast]
  constructor
  · rintro ⟨v', hv', hw⟩
    cases hv'
    rw [hw, cStr_of_nulFree hv]
  · intro hw
    exact ⟨v, rfl, by rw [hw, cStr_of_nulFree hv]⟩

/-- **A chunk's request carries its two signatures and its hash**, as long as neither signature
is empty and C sees all of them. -/
theorem carries_chunk (r : RequestObject) (hop : c.opType = .authentication)
    (hchunked : c.isChunkedAuth = true) (hprev : c.prevChunkSignatureFromAuth ≠ [])
    (hcur : c.currentChunkSignatureFromAuth ≠ []) (nprev : NulFree c.prevChunkSignatureFromAuth)
    (ncur : NulFree c.currentChunkSignatureFromAuth) (nhash : NulFree c.hashSha256CurrentChunk) :
    Carries (setupAuthRequestBody c r).2 AuthField.previousSignature.name
        c.prevChunkSignatureFromAuth ∧
      Carries (setupAuthRequestBody c r).2 AuthField.currentSignature.name
        c.currentChunkSignatureFromAuth ∧
      Carries (setupAuthRequestBody c r).2 AuthField.contentSha256.name
        c.hashSha256CurrentChunk := by
  have hwrites : opKeyVals c r =
      [ (.previousSignature, c.prevChunkSignatureFromAuth),
        (.currentSignature, c.currentChunkSignatureFromAuth),
        (.contentSha256, c.hashSha256CurrentChunk) ] := by
    unfold opKeyVals chunkKeyVals
    rw [hop, hchunked]
    simp [hprev, hcur]
  refine ⟨carries_of_lastWrite (by decide) ?_ nprev, carries_of_lastWrite (by decide) ?_ ncur,
    carries_of_lastWrite (by decide) ?_ nhash⟩
  · rw [hwrites]
    rfl
  · rw [hwrites]
    rfl
  · rw [hwrites]
    rfl

end S3AuthClient

namespace ChunkAuth

open S3AuthClient

/-! ### What a trace tells -/

/-- The chunks handed over so far, in order. -/
def chunks (trace : List ChunkAct) : List (Bytes × Bytes) :=
  trace.filterMap fun
    | .handed sig hash => some (sig, hash)
    | _ => none

/-- The requests sent so far, in order. -/
def requests (trace : List ChunkAct) : List AuthBody :=
  trace.filterMap fun
    | .sent body => some body
    | _ => none

/-- The answers so far.  One request is in flight at a time, so the k-th answer is to the k-th
request. -/
def answers (trace : List ChunkAct) : List Bool :=
  trace.filterMap fun
    | .answered positive => some positive
    | _ => none

@[simp] theorem chunks_append (t t' : List ChunkAct) : chunks (t ++ t') = chunks t ++ chunks t' :=
  filterMap_append

@[simp] theorem requests_append (t t' : List ChunkAct) :
    requests (t ++ t') = requests t ++ requests t' :=
  filterMap_append

@[simp] theorem answers_append (t t' : List ChunkAct) :
    answers (t ++ t') = answers t ++ answers t' :=
  filterMap_append

variable {acts t : List ChunkAct}

theorem chunks_append_of_nil (h : chunks acts = []) : chunks (t ++ acts) = chunks t := by
  rw [chunks_append, h, append_nil]

theorem requests_append_of_nil (h : requests acts = []) : requests (t ++ acts) = requests t := by
  rw [requests_append, h, append_nil]

theorem answers_append_of_nil (h : answers acts = []) : answers (t ++ acts) = answers t := by
  rw [answers_append, h, append_nil]

/-- The signature before that of chunk `k`: the seed for the first one. -/
def signatureBefore (seed : Bytes) (cs : List (Bytes × Bytes)) : Nat → Bytes
  | 0 => seed
  | k + 1 => ((cs[k]?).map Prod.fst).getD []

/-- The k-th request is the one for the k-th chunk. -/
def Chained (seed : Bytes) (trace : List ChunkAct) : Prop :=
  ∀ k body, (requests trace)[k]? = some body →
    ∃ sig hash, (chunks trace)[k]? = some (sig, hash) ∧
      Carries body AuthField.previousSignature.name
        (signatureBefore seed (chunks trace) k) ∧
      Carries body AuthField.currentSignature.name sig ∧
      Carries body AuthField.contentSha256.name hash

/-- When the success handler is called, there has been a positive answer for each chunk. -/
def Finished (trace : List ChunkAct) : Prop :=
  ∀ before after, trace = before ++ .onSuccess :: after →
    answers before = List.replicate (chunks before).length true

/-- What is asked of the events.  A chunk has a signature, C sees all of it, and there was no
negative answer yet; a positive answer names the signature it is about. -/
def Orderly (s : ChunkAuth) : ChunkEvent → Prop
  | .addChecksumForChunk sig hash | .addLastChecksumForChunk sig hash =>
    s.client.state ≠ .failed ∧ sig ≠ [] ∧ NulFree sig ∧ NulFree hash
  | .success response =>
    response.isOK = true ∧ response.signatureSha256 = s.client.currentChunkSignatureFromAuth
  | .failure => True
  | .abortChunkAuthOp => False

instance orderlyDecidable (s : ChunkAuth) : (e : ChunkEvent) → Decidable (Orderly s e)
  | .addChecksumForChunk sig hash | .addLastChecksumForChunk sig hash =>
    inferInstanceAs (Decidable (s.client.state ≠ .failed ∧ sig ≠ [] ∧ NulFree sig ∧ NulFree hash))
  | .success response => inferInstanceAs (Decidable (response.isOK = true ∧
      response.signatureSha256 = s.client.currentChunkSignatureFromAuth))
  | .failure => inferInstanceAs (Decidable True)
  | .abortChunkAuthOp => inferInstanceAs (Decidable False)

variable {seed : Bytes}

theorem signatureBefore_append {cs cs' : List (Bytes × Bytes)} :
    ∀ {k : Nat}, k ≤ cs.length → signatureBefore seed (cs ++ cs') k = signatureBefore seed cs k := by
  intro k hk
  cases k with
  | zero => rfl
  | succ k =>
    show (((cs ++ cs')[k]?).map Prod.fst).getD [] = ((cs[k]?).map Prod.fst).getD []
    rw [List.getElem?_append_left hk]

variable {trace : List ChunkAct}

theorem Chained.requests_le (h : Chained seed trace) :
    (requests trace).length ≤ (chunks trace).length := by
  by_contra hlt
  obtain ⟨body, hbody⟩ : ∃ body, (requests trace)[(chunks trace).length]? = some body :=
    ⟨_, List.getElem?_eq_getElem (by omega)⟩
  obtain ⟨_, _, hc, _⟩ := h _ _ hbody
  rw [List.getElem?_eq_none (Nat.le_refl _)] at hc
  cases hc

/-- The chain does not depend on what comes after the last request. -/
theorem Chained.append (h : Chained seed trace) (hno : requests acts = []) :
    Chained seed (trace ++ acts) := by
  intro k body hbody
  rw [requests_append, hno, append_nil] at hbody
  obtain ⟨sig, hash, hc, hcarries⟩ := h k body hbody
  have hk : k < (chunks trace).length := (List.getElem?_eq_some_iff.mp hc).1
  refine ⟨sig, hash, ?_, ?_⟩
  · rw [chunks_append, List.getElem?_append_left hk, hc]
  · rw [chunks_append, signatureBefore_append (Nat.le_of_lt hk)]
    exact hcarries

variable {hash sig : Bytes}

theorem Chained.sent {body : AuthBody}
    (h : Chained seed trace) (hc : (chunks trace)[(requests trace).length]? = some (sig, hash))
    (hprev : Carries body AuthField.previousSignature.name
      (signatureBefore seed (chunks trace) (requests trace).length))
    (hcur : Carries body AuthField.currentSignature.name sig)
    (hhash : Carries body AuthField.contentSha256.name hash) :
    Chained seed (trace ++ [.sent body]) := by
  have hchunks : chunks (trace ++ [.sent body]) = chunks trace := chunks_append_of_nil rfl
  intro k b hb
  rw [hchunks]
  rw [requests_append] at hb
  by_cases hk : k < (requests trace).length
  · rw [List.getElem?_append_left hk] at hb
    exact h k b hb
  · rw [List.getElem?_append_right (by omega)] at hb
    have hzero : k = (requests trace).length := by
      have hlt : k - (requests trace).length < 1 := (List.getElem?_eq_some_iff.mp hb).1
      omega
    subst hzero
    rw [Nat.sub_self] at hb
    obtain rfl : body = b := some.inj hb
    exact ⟨sig, hash, hc, hprev, hcur, hhash⟩

theorem Finished.append (h : Finished trace) (hno : ChunkAct.onSuccess ∉ acts) :
    Finished (trace ++ acts) := by
  intro before after heq
  rcases append_eq_append_iff.mp heq with ⟨mid, rfl, hacts⟩ | ⟨mid, htrace, hmid⟩
  · exact absurd (by rw [hacts]; simp) hno
  · cases mid with
    | nil =>
      rw [nil_append] at hmid
      exact absurd (by rw [← hmid]; simp) hno
    | cons a mid =>
      obtain ⟨rfl, _⟩ := List.cons.inj hmid
      exact h before mid htrace

theorem Finished.onSuccess (h : Finished trace)
    (hall : answers trace = List.replicate (chunks trace).length true) :
    Finished (trace ++ [.onSuccess]) := by
  intro before after heq
  rcases append_eq_append_iff.mp heq with ⟨mid, rfl, hacts⟩ | ⟨mid, htrace, hmid⟩
  · cases mid with
    | nil => simpa using hall
    | cons a mid =>
      obtain ⟨_, hnil⟩ := List.cons.inj hacts
      exact absurd hnil (by simp)
  · cases mid with
    | nil =>
      rw [append_nil] at htrace
      rw [← htrace]
      exact hall
    | cons a mid =>
      obtain ⟨rfl, _⟩ := List.cons.inj hmid
      exact h before mid htrace

/-! ### The invariant of a cycle -/

/-- What holds at every moment: the requests so far were for the first chunks, and the other
chunks are in the queue. -/
structure Core (seed : Bytes) (s : ChunkAuth) : Prop where
  opType : s.client.opType = .authentication
  chunked : s.client.isChunkedAuth = true
  notAborted : s.client.chunkAuthAborted = false
  wellFormed : ∀ c ∈ chunks s.trace, c.1 ≠ [] ∧ NulFree c.1 ∧ NulFree c.2
  chained : Chained seed s.trace
  finished : Finished s.trace
  queued : s.client.chunkValidationData = (chunks s.trace).drop (requests s.trace).length

/-- Every request was answered, and the register holds the signature before the next chunk. -/
structure Ready (seed : Bytes) (s : ChunkAuth) : Prop where
  answered : answers s.trace = List.replicate (requests s.trace).length true
  previous : s.client.prevChunkSignatureFromAuth =
    signatureBefore seed (chunks s.trace) (requests s.trace).length

/-- The last request is not answered, and the chunk it is for is the current one. -/
structure InFlight (s : ChunkAuth) : Prop where
  answered : ∃ n, (requests s.trace).length = n + 1 ∧ answers s.trace = List.replicate n true ∧
    (chunks s.trace)[n]? =
      some (s.client.currentChunkSignatureFromAuth, s.client.hashSha256CurrentChunk)

structure Holds (seed : Bytes) (s : ChunkAuth) : Prop where
  core : Core seed s
  inFlight : s.client.state = .started → InFlight s
  ready : s.client.state ≠ .started → s.client.state ≠ .failed →
    Ready seed s ∧ s.client.chunkValidationData = []

theorem signatureBefore_wellFormed {cs : List (Bytes × Bytes)} (hseed : seed ≠ [] ∧ NulFree seed)
    (hcs : ∀ c ∈ cs, c.1 ≠ [] ∧ NulFree c.1 ∧ NulFree c.2) :
    ∀ k, k ≤ cs.length → signatureBefore seed cs k ≠ [] ∧ NulFree (signatureBefore seed cs k) := by
  intro k hk
  cases k with
  | zero => exact hseed
  | succ k =>
    show ((cs[k]?).map Prod.fst).getD [] ≠ [] ∧ NulFree (((cs[k]?).map Prod.fst).getD [])
    rw [List.getElem?_eq_getElem (show k < cs.length from hk)]
    have hc := hcs _ (getElem_mem (show k < cs.length from hk))
    exact ⟨hc.1, hc.2.1⟩

variable {s : ChunkAuth}

theorem Core.front {rest : List (Bytes × Bytes)} (h : Core seed s)
    (hq : s.client.chunkValidationData = (sig, hash) :: rest) :
    (chunks s.trace)[(requests s.trace).length]? = some (sig, hash) ∧
      rest = (chunks s.trace).drop ((requests s.trace).length + 1) := by
  have hdrop : (chunks s.trace).drop (requests s.trace).length = (sig, hash) :: rest := by
    rw [← h.queued, hq]
  constructor
  · have hhead := congrArg List.head? hdrop
    rwa [List.head?_drop] at hhead
  · have htail := congrArg List.tail hdrop
    rw [tail_drop] at htail
    exact htail.symm

/-- **Taking up the next chunk keeps the chain.** -/
theorem validateNext_holds (hseed : seed ≠ [] ∧ NulFree seed) (hcore : Core seed s)
    (hready : Ready seed s) (hstate : s.client.state ≠ .started) : Holds seed s.validateNext := by
  cases hq : s.client.chunkValidationData with
  | nil =>
    have hsame : s.validateNext = s := by
      unfold validateNext
      rw [hq]
    rw [hsame]
    exact ⟨hcore, fun h => absurd h hstate, fun _ _ => ⟨hready, hq⟩⟩
  | cons c rest =>
    obtain ⟨sig, hash⟩ := c
    obtain ⟨hfront, hrest⟩ := hcore.front hq
    -- the client as it is when the body is put together
    let client : S3AuthClient := { s.client with
      currentChunkSignatureFromAuth := sig
      hashSha256CurrentChunk := hash
      chunkValidationData := rest }
    let body := (client.setupAuthRequestBody s.request).2
    have hnext : s.validateNext = { s with
        client := { client with
          entityPath := client.entityPathFor s.request, state := .started }
        trace := s.trace ++ [.sent body] } := by
      unfold validateNext
      rw [hq]
      rfl
    have hle := hcore.chained.requests_le
    have hc := hcore.wellFormed _ (mem_of_getElem? hfront)
    have hp := signatureBefore_wellFormed hseed hcore.wellFormed _ hle
    rw [← hready.previous] at hp
    obtain ⟨h1, h2, h3⟩ := carries_chunk (c := client) s.request hcore.opType hcore.chunked
      hp.1 hc.1 hp.2 hc.2.1 hc.2.2
    have h1' : Carries body AuthField.previousSignature.name
        (signatureBefore seed (chunks s.trace) (requests s.trace).length) := by
      rw [← hready.previous]
      exact h1
    have hchunks : chunks (s.trace ++ [.sent body]) = chunks s.trace := chunks_append_of_nil rfl
    have hreqs : requests (s.trace ++ [.sent body]) = requests s.trace ++ [body] := by
      rw [requests_append]
      rfl
    have hans : answers (s.trace ++ [.sent body]) = answers s.trace := answers_append_of_nil rfl
    rw [hnext]
    refine ⟨⟨hcore.opType, hcore.chunked, hcore.notAborted, ?_,
      hcore.chained.sent hfront h1' h2 h3, hcore.finished.append (by simp), ?_⟩,
      fun _ => ⟨(requests s.trace).length, ?_, ?_, ?_⟩, fun h => absurd rfl h⟩
    · rw [hchunks]
      exact hcore.wellFormed
    · show rest = (chunks (s.trace ++ [.sent body])).drop
        (requests (s.trace ++ [.sent body])).length
      rw [hchunks, hreqs, length_append]
      exact hrest
    · rw [hreqs, length_append]
      rfl
    · rw [hans]
      exact hready.answered
    · rw [hchunks]
      exact hfront

/-! ### One event -/

theorem addChecksumForChunk_holds (hseed : seed ≠ [] ∧ NulFree seed) (h : Holds seed s)
    (hfail : s.client.state ≠ .failed) (hsig : sig ≠ [] ∧ NulFree sig ∧ NulFree hash) :
    Holds seed (s.addChecksumForChunk sig hash) := by
  let s₁ : ChunkAuth := { s with
    client := { s.client with
      chunkValidationData := s.client.chunkValidationData ++ [(sig, hash)] }
    trace := s.trace ++ [.handed sig hash] }
  have hchunks : chunks s₁.trace = chunks s.trace ++ [(sig, hash)] := by
    show chunks (s.trace ++ [.handed sig hash]) = _
    rw [chunks_append]
    rfl
  have hreqs : requests s₁.trace = requests s.trace := requests_append_of_nil rfl
  have hans : answers s₁.trace = answers s.trace := answers_append_of_nil rfl
  have hle := h.core.chained.requests_le
  have hcore : Core seed s₁ := by
    refine ⟨h.core.opType, h.core.chunked, h.core.notAborted, ?_, h.core.chained.append rfl,
      h.core.finished.append (by simp), ?_⟩
    · intro c hc
      rw [hchunks] at hc
      rcases mem_append.mp hc with hc | hc
      · exact h.core.wellFormed c hc
      · rw [mem_singleton.mp hc]
        exact hsig
    · rw [hchunks, hreqs, drop_append_of_le_length hle, ← h.core.queued]
  by_cases hstarted : s.client.state = .started
  · have hsame : s.addChecksumForChunk sig hash = s₁ := by
      unfold addChecksumForChunk
      exact if_neg (by simpa using hstarted)
    rw [hsame]
    obtain ⟨n, hn, hansn, hcur⟩ := (h.inFlight hstarted).answered
    refine ⟨hcore, fun _ => ⟨n, ?_, ?_, ?_⟩, fun hne _ => absurd hstarted hne⟩
    · rw [hreqs]
      exact hn
    · rw [hans]
      exact hansn
    · rw [hchunks, List.getElem?_append_left (by omega)]
      exact hcur
  · have hnext : s.addChecksumForChunk sig hash = s₁.validateNext := by
      unfold addChecksumForChunk
      exact if_pos hstarted
    rw [hnext]
    obtain ⟨hready, _⟩ := h.ready hstarted hfail
    refine validateNext_holds hseed hcore ⟨?_, ?_⟩ hstarted
    · rw [hans, hreqs]
      exact hready.answered
    · rw [hchunks, hreqs, signatureBefore_append hle]
      exact hready.previous

/-- Which chunk is the last one does not matter to the invariant. -/
theorem lastChunkAdded_holds (h : Holds seed s) :
    Holds seed { s with client := { s.client with lastChunkAdded := true } } :=
  ⟨⟨h.core.opType, h.core.chunked, h.core.notAborted, h.core.wellFormed, h.core.chained,
      h.core.finished, h.core.queued⟩,
    fun hs => ⟨(h.inFlight hs).answered⟩,
    fun hs hf => ⟨⟨(h.ready hs hf).1.answered, (h.ready hs hf).1.previous⟩, (h.ready hs hf).2⟩⟩

theorem chunkAuthSuccessful_holds {response : S3AuthResponseSuccess}
    (hseed : seed ≠ [] ∧ NulFree seed) (h : Holds seed s) (hstarted : s.client.state = .started)
    (hok : response.isOK = true)
    (hsig : response.signatureSha256 = s.client.currentChunkSignatureFromAuth) :
    Holds seed (s.chunkAuthSuccessful response) := by
  let s₁ : ChunkAuth :=
    { client := { s.client with
        state := .succeded
        prevChunkSignatureFromAuth := if response.isOK then response.signatureSha256 else [] }
      request := handleResponse s.request response
      trace := s.trace ++ [.answered true] }
  have hchunks : chunks s₁.trace = chunks s.trace := chunks_append_of_nil rfl
  have hreqs : requests s₁.trace = requests s.trace := requests_append_of_nil rfl
  have hans : answers s₁.trace = answers s.trace ++ [true] := by
    show answers (s.trace ++ [.answered true]) = _
    rw [answers_append]
    rfl
  obtain ⟨n, hn, hansn, hcur⟩ := (h.inFlight hstarted).answered
  have hcore : Core seed s₁ := by
    refine ⟨h.core.opType, h.core.chunked, h.core.notAborted, ?_, h.core.chained.append rfl,
      h.core.finished.append (by simp), ?_⟩
    · rw [hchunks]
      exact h.core.wellFormed
    · rw [hchunks, hreqs]
      exact h.core.queued
  have hready : Ready seed s₁ := by
    constructor
    · rw [hans, hreqs, hansn, hn, replicate_succ']
    · rw [hchunks, hreqs, hn]
      show (if response.isOK then response.signatureSha256 else []) =
        (((chunks s.trace)[n]?).map Prod.fst).getD []
      rw [hok, if_pos rfl, hsig, hcur]
      rfl
  have hstate : s₁.client.state ≠ .started := by
    show S3AuthClientOpState.succeded ≠ .started
    decide
  by_cases hlast : (s₁.client.chunkAuthAborted ||
      (s₁.client.lastChunkAdded && s₁.client.chunkValidationData.isEmpty)) = true
  · have hend : s.chunkAuthSuccessful response =
        { s₁ with trace := s₁.trace ++ [.onSuccess] } := by
      unfold chunkAuthSuccessful
      exact if_pos hlast
    -- nothing waits, so the answers are as many as the chunks
    have hempty : s₁.client.chunkValidationData = [] := by
      rw [hcore.notAborted, Bool.false_or, Bool.and_eq_true] at hlast
      exact isEmpty_iff.mp hlast.2
    have hcount : (requests s₁.trace).length = (chunks s₁.trace).length := by
      have hdrop := hcore.queued
      rw [hempty] at hdrop
      have hge := drop_eq_nil_iff.mp hdrop.symm
      have hle := hcore.chained.requests_le
      omega
    have hchunks' : chunks (s₁.trace ++ [.onSuccess]) = chunks s₁.trace := chunks_append_of_nil rfl
    have hreqs' : requests (s₁.trace ++ [.onSuccess]) = requests s₁.trace := requests_append_of_nil rfl
    have hans' : answers (s₁.trace ++ [.onSuccess]) = answers s₁.trace := answers_append_of_nil rfl
    have hall : answers s₁.trace = List.replicate (chunks s₁.trace).length true := by
      rw [← hcount]
      exact hready.answered
    rw [hend]
    refine ⟨⟨hcore.opType, hcore.chunked, hcore.notAborted, ?_, hcore.chained.append rfl,
      hcore.finished.onSuccess hall, ?_⟩, fun hs => absurd hs hstate,
      fun _ _ => ⟨⟨?_, ?_⟩, hempty⟩⟩
    · rw [hchunks']
      exact hcore.wellFormed
    · rw [hchunks', hreqs']
      exact hcore.queued
    · rw [hans', hreqs']
      exact hready.answered
    · rw [hchunks', hreqs']
      exact hready.previous
  · have hnext : s.chunkAuthSuccessful response = s₁.validateNext := by
      unfold chunkAuthSuccessful
      exact if_neg hlast
    rw [hnext]
    exact validateNext_holds hseed hcore hready hstate

theorem chunkAuthFailed_holds (h : Holds seed s) : Holds seed s.chunkAuthFailed := by
  have hchunks : chunks s.chunkAuthFailed.trace = chunks s.trace := chunks_append_of_nil rfl
  have hreqs : requests s.chunkAuthFailed.trace = requests s.trace := requests_append_of_nil rfl
  refine ⟨⟨h.core.opType, h.core.chunked, h.core.notAborted, ?_, h.core.chained.append rfl,
    h.core.finished.append (by simp), ?_⟩, fun hs => ?_, fun _ hf => absurd rfl hf⟩
  · rw [hchunks]
    exact h.core.wellFormed
  · rw [hchunks, hreqs]
    exact h.core.queued
  · have hne : s.chunkAuthFailed.client.state ≠ .started := by
      show S3AuthClientOpState.failed ≠ .started
      decide
    exact absurd hs hne

/-- **Every orderly event keeps the invariant.** -/
theorem step_holds (hseed : seed ≠ [] ∧ NulFree seed) {s' : ChunkAuth} {e : ChunkEvent}
    (h : Holds seed s) (hok : Orderly s e) (hstep : s.step e = some s') : Holds seed s' := by
  cases e with
  | addChecksumForChunk sig hash =>
    obtain rfl : s.addChecksumForChunk sig hash = s' := some.inj hstep
    exact addChecksumForChunk_holds hseed h hok.1 hok.2
  | addLastChecksumForChunk sig hash =>
    obtain rfl : s.addLastChecksumForChunk sig hash = s' := some.inj hstep
    exact addChecksumForChunk_holds hseed (lastChunkAdded_holds h) hok.1 hok.2
  | success response =>
    change (if s.client.state = .started then some (s.chunkAuthSuccessful response)
      else none) = some s' at hstep
    by_cases hstarted : s.client.state = .started
    · rw [if_pos hstarted] at hstep
      obtain rfl : s.chunkAuthSuccessful response = s' := some.inj hstep
      exact chunkAuthSuccessful_holds hseed h hstarted hok.1 hok.2
    · rw [if_neg hstarted] at hstep
      cases hstep
  | failure =>
    change (if s.client.state = .started then some s.chunkAuthFailed else none) = some s'
      at hstep
    by_cases hstarted : s.client.state = .started
    · rw [if_pos hstarted] at hstep
      obtain rfl : s.chunkAuthFailed = s' := some.inj hstep
      exact chunkAuthFailed_holds h
    · rw [if_neg hstarted] at hstep
      cases hstep
  | abortChunkAuthOp => exact hok.elim

/-! ### A whole cycle -/

/-- A client that has not been in a cycle: no chunk was handed to it. -/
structure Fresh (c : S3AuthClient) : Prop where
  queue : c.chunkValidationData = []
  previous : c.prevChunkSignatureFromAuth = []
  notAborted : c.chunkAuthAborted = false

/-- The signature of the request itself, which the first chunk follows. -/
def seedSignature (r : RequestObject) : Bytes :=
  match r.getInHeadersCopy.find? (fun h => sameIgnoringCase h.1 (ascii "Authorization")) with
  | some h => (signatureInHeader h.2).getD []
  | none => []

variable {c : S3AuthClient}

theorem start_previous (hc : Fresh c) (r : RequestObject) :
    (start c r).client.prevChunkSignatureFromAuth = seedSignature r := by
  show (c.checkComboAuth r).prevChunkSignatureFromAuth = seedSignature r
  unfold checkComboAuth seedSignature
  cases r.getInHeadersCopy.find? (fun h => sameIgnoringCase h.1 (ascii "Authorization")) with
  | none => exact hc.previous
  | some h =>
    dsimp only
    cases signatureInHeader h.2 with
    | none => exact hc.previous
    | some sig => rfl

theorem start_rest (hc : Fresh c) (r : RequestObject) :
    (start c r).client.chunkValidationData = [] ∧ (start c r).client.chunkAuthAborted = false := by
  show (c.checkComboAuth r).chunkValidationData = [] ∧
    (c.checkComboAuth r).chunkAuthAborted = false
  unfold checkComboAuth
  cases r.getInHeadersCopy.find? (fun h => sameIgnoringCase h.1 (ascii "Authorization")) with
  | none => exact ⟨hc.queue, hc.notAborted⟩
  | some h =>
    dsimp only
    cases signatureInHeader h.2 with
    | none | some sig => exact ⟨hc.queue, hc.notAborted⟩

theorem start_holds (hc : Fresh c) (r : RequestObject) : Holds (seedSignature r) (start c r) := by
  have hrest := start_rest hc r
  refine ⟨⟨rfl, rfl, hrest.2, ?_, ?_, ?_, hrest.1⟩, ?_, fun _ _ => ⟨⟨rfl, ?_⟩, hrest.1⟩⟩
  · intro p hp
    cases hp
  · intro k body hbody
    cases hbody
  · intro before after h
    exact absurd h.symm (by simp [start])
  · intro h
    exact absurd h (show S3AuthClientOpState.init ≠ .started by decide)
  · exact start_previous hc r

theorem nulFree_seedSignature (r : RequestObject) : NulFree (seedSignature r) := by
  unfold seedSignature
  cases hf : r.getInHeadersCopy.find?
      (fun h => sameIgnoringCase h.1 (ascii "Authorization")) with
  | none => simp [NulFree]
  | some h =>
    dsimp only
    have hval := nulFree_value_getInHeadersCopy r h (mem_of_find?_eq_some hf)
    unfold signatureInHeader
    cases find (ascii "Signature") h.2 with
    | none => simp [NulFree]
    | some pos =>
      intro hz
      exact hval (mem_of_mem_drop (mem_of_mem_take hz))

/-- **The requests of a cycle form the chain of its chunks, and success is reported only when
each of them was answered positively**, whatever the order in which chunks and answers come.

Every event is orderly: no signature is empty or has a NUL, no chunk follows a negative answer,
and a positive answer names the chunk it is about. -/
theorem chained_and_finished {c : S3AuthClient} {r : RequestObject} {s : ChunkAuth}
    (hc : Fresh c) (hseed : seedSignature r ≠ [])
    (h : Runs.Reachable step Orderly (start c r) s) :
    Chained (seedSignature r) s.trace ∧ Finished s.trace := by
  have hholds : Holds (seedSignature r) s := by
    refine Runs.Reachable.invariant (start_holds hc r) ?_ h
    intro s₁ e s₂ h₁ hok hstep
    exact step_holds ⟨hseed, nulFree_seedSignature r⟩ h₁ hok hstep
  exact ⟨hholds.core.chained, hholds.core.finished⟩

/-- An upload in chunks. -/
def chunkedPut : RequestObject where
  httpVerb := .PUT
  headersIn :=
    [ (ascii "Authorization", ascii "AWS4-HMAC-SHA256 Credential=AKIA/x,Signature=5eed"),
      (ascii "x-amz-content-sha256", ascii "STREAMING-AWS4-HMAC-SHA256-PAYLOAD") ]
  fullEncodedPath := some (ascii "/b/o")

/-- Two chunks, the second of them while the first is in flight. -/
def twoChunks : List ChunkEvent :=
  [ .addChecksumForChunk (ascii "51") (ascii "a1"),
    .addLastChecksumForChunk (ascii "52") (ascii "a2"),
    .success { signatureSha256 := ascii "51" },
    .success { signatureSha256 := ascii "52" } ]

theorem chained_and_finished_twoChunks :
    ∃ s, Runs.run step (start {} chunkedPut) twoChunks = some s ∧ .onSuccess ∈ s.trace ∧
      Chained (ascii "5eed") s.trace ∧ Finished s.trace := by
  have hseed : seedSignature chunkedPut = ascii "5eed" := by decide
  have hrun : (Runs.run step (start {} chunkedPut) twoChunks).any
      (fun s => .onSuccess ∈ s.trace) = true := by decide
  obtain ⟨s, hs, hsuccess⟩ := (any_eq_true _ _).mp hrun
  have hok : Runs.AllOk step Orderly (start {} chunkedPut) twoChunks := by
    refine ⟨by decide, fun s₁ h₁ => ⟨?_, fun s₂ h₂ => ⟨?_, fun s₃ h₃ => ⟨?_, ?_⟩⟩⟩⟩
    · obtain rfl := some.inj h₁
      decide
    · obtain rfl := some.inj h₁
      obtain rfl := some.inj h₂
      decide
    · obtain rfl := some.inj h₁
      obtain rfl := some.inj h₂
      obtain rfl := some.inj h₃
      decide
    · intro s₄ _
      trivial
  refine ⟨s, hs, by simpa using hsuccess, ?_⟩
  rw [← hseed]
  exact chained_and_finished ⟨rfl, rfl, rfl⟩ (by rw [hseed]; decide)
    (Runs.reachable_of_run _ .start hok hs)

theorem Chained.current_mem (h : Chained seed trace) :
    ∀ body ∈ requests trace, AuthField.currentSignature.name ∈ body.map Prod.fst := by
  intro body hbody
  obtain ⟨k, hk⟩ := mem_iff_getElem?.mp hbody
  obtain ⟨sig, _, _, _, hcur, _⟩ := h k body hk
  exact mem_map_of_mem ((hcur sig).mpr rfl)

/-- An upload of one chunk that has no signature.  The auth server gets the fields of the request
itself, finds its signature right and says so. -/
def unsignedChunk : List ChunkEvent :=
  [ .addLastChecksumForChunk [] (ascii "a1"), .success { signatureSha256 := ascii "5eed" } ]

/-- **A chunk without a signature is not authenticated, and success is reported.** -/
theorem not_chained_unsignedChunk :
    ∃ s, Runs.run step (start {} chunkedPut) unsignedChunk = some s ∧ .onSuccess ∈ s.trace ∧
      ¬ Chained (seedSignature chunkedPut) s.trace := by
  have hrun : (Runs.run step (start {} chunkedPut) unsignedChunk).any
      (fun s => .onSuccess ∈ s.trace ∧
        (requests s.trace).any (fun b => AuthField.currentSignature.name ∉ b.map Prod.fst)) =
      true := by decide
  obtain ⟨s, hs, h⟩ := (any_eq_true _ _).mp hrun
  obtain ⟨hsuccess, hbody⟩ : .onSuccess ∈ s.trace ∧ _ := by simpa only [decide_eq_true_eq] using h
  obtain ⟨body, hmem, hno⟩ := any_eq_true.mp hbody
  refine ⟨s, hs, hsuccess, fun hchain => ?_⟩
  exact (of_decide_eq_true hno) (hchain.current_mem body hmem)

end ChunkAuth

end CortxS3

/-
Whether a question to the auth server is answered once.

Three callbacks can end the operation, and two of them unset the hooks of the connection before
they do.  The one for the end of the headers does not: after an answer without content the same
connection can still fail, or bring a body that was not announced, and then a second handler is
called, or the question is put again behind the back of the caller.  And a piece of a body with
status 200 counts as a yes whatever it says.

`Careful` is an event that does neither: it does not come from a connection whose answer was
taken without a body, and a body that has to be judged comes in one piece and is accepted.  In a
run of such events the operation is always in one of three phases (`Phase`), and the lemma
behind every step is that the callbacks leave the first of them the same way (`Inv.failed`,
`Inv.succeeded`).
-/
import CortxS3.Server.AuthOperation

namespace CortxS3

namespace AuthOperation

variable {xmlParseDoc : Bytes → Option XmlDocument} {maxRetryCount : Nat}
  {op : S3AuthClientOpType}

/-- A handler that was called for a reason. -/
def Justified (xmlParseDoc : Bytes → Option XmlDocument) (op : S3AuthClientOpType) :
    AuthOutcome → Prop
  | .onFailed => True
  | .onSuccess reply judged =>
    reply.status = 200 ∧ (noBody op = false →
      judged = some reply.body ∧
        (AuthResponse.parseAndValidate xmlParseDoc (cStr reply.body)).isOK = true)

/-- A retry is due, or the answer of a connection is waited for. -/
def Pending (s : AuthOperation) : Prop :=
  s.timers ≠ 0 ∨ ∃ n c, s.connections n = some c ∧ c.taken = false

/-- What the caller of an operation relies on. -/
structure AnsweredOnce (xmlParseDoc : Bytes → Option XmlDocument) (op : S3AuthClientOpType)
    (s : AuthOperation) : Prop where
  running : s.crashed = false
  once : s.outcomes.length ≤ 1
  answered : ¬ Pending s → s.outcomes.length = 1
  justified : ∀ o ∈ s.outcomes, Justified xmlParseDoc op o

/-- The event does not come from a connection whose answer was taken, and a positive answer that
has to be judged comes in one piece and is accepted. -/
def Careful (xmlParseDoc : Bytes → Option XmlDocument) (s : AuthOperation) : AuthEvent → Prop
  | .read n length => ∀ c ∈ s.connections n, c.taken = false ∧
      ∀ reply ∈ c.reply, s.clientConnected = true → reply.status = 200 →
        noBody s.client.opType = false → c.unread.take length = reply.body ∧
          (AuthResponse.parseAndValidate xmlParseDoc (cStr reply.body)).isOK = true
  | .connError n => ∀ c ∈ s.connections n, c.taken = false
  | _ => True

instance instDecidableCareful (xmlParseDoc : Bytes → Option XmlDocument) (s : AuthOperation) :
    ∀ e, Decidable (Careful xmlParseDoc s e)
  | .read n length => inferInstanceAs (Decidable (∀ c ∈ s.connections n, c.taken = false ∧
      ∀ reply ∈ c.reply, s.clientConnected = true → reply.status = 200 →
        noBody s.client.opType = false → c.unread.take length = reply.body ∧
          (AuthResponse.parseAndValidate xmlParseDoc (cStr reply.body)).isOK = true))
  | .connError n => inferInstanceAs (Decidable (∀ c ∈ s.connections n, c.taken = false))
  | .contentLength _ _ | .headersEnd _ _ | .timeout | .clientDisconnected => isTrue trivial

/-! ### The phases -/

/-- No connection is waited for. -/
def Quiet (s : AuthOperation) : Prop :=
  ∀ n c, s.connections n = some c → c.taken = true

/-- The answer of the last connection is waited for, or a retry is due, or a handler was
called. -/
inductive Phase (s : AuthOperation) : Prop
  | waiting (c : AuthConnection) (hc : s.connections (s.attempts - 1) = some c)
      (hwaits : c.taken = false) (hothers : Quiet (s.unsetHooks (s.attempts - 1)))
      (htimers : s.timers = 0) (houtcomes : s.outcomes = [])
  | retrying (hquiet : Quiet s) (htimers : s.timers = 1) (houtcomes : s.outcomes = [])
  | ended (hquiet : Quiet s) (htimers : s.timers = 0) (houtcomes : s.outcomes.length = 1)

structure Inv (xmlParseDoc : Bytes → Option XmlDocument) (op : S3AuthClientOpType)
    (s : AuthOperation) : Prop where
  running : s.crashed = false
  opType : s.client.opType = op
  chunked : s.client.isChunkedAuth = true → op = .authentication
  /-- A connection that has not answered was not taken. -/
  open_ : ∀ n c, s.connections n = some c → c.reply = none → c.taken = false
  fresh : ∀ n, s.attempts ≤ n → s.connections n = none
  phase : Phase s
  justified : ∀ o ∈ s.outcomes, Justified xmlParseDoc op o

variable {s : AuthOperation}

theorem Inv.answeredOnce (h : Inv xmlParseDoc op s) : AnsweredOnce xmlParseDoc op s := by
  refine ⟨h.running, ?_, ?_, h.justified⟩
  · cases h.phase with
    | waiting c hc hwaits hothers htimers houtcomes | retrying hquiet htimers houtcomes =>
      simp [houtcomes]
    | ended hquiet htimers houtcomes => exact houtcomes.le
  · intro hpending
    cases h.phase with
    | waiting c hc hwaits hothers htimers houtcomes =>
      exact absurd (.inr ⟨_, c, hc, hwaits⟩) hpending
    | retrying hquiet htimers houtcomes => exact absurd (.inl (by omega)) hpending
    | ended hquiet htimers houtcomes => exact houtcomes

variable {c : AuthConnection} {n : Nat}

/-- An event of a connection that was not taken comes while it is waited for. -/
theorem Inv.waiting (h : Inv xmlParseDoc op s) (hc : s.connections n = some c)
    (hwaits : c.taken = false) :
    n = s.attempts - 1 ∧ Quiet (s.unsetHooks n) ∧ s.timers = 0 ∧ s.outcomes = [] := by
  cases h.phase with
  | waiting c' hc' hwaits' hothers htimers houtcomes =>
    have hn : n = s.attempts - 1 := by
      by_contra hne
      have htaken := hothers n c (by simp [unsetHooks, Function.update_of_ne hne, hc])
      rw [hwaits] at htaken
      cases htaken
    exact ⟨hn, hn ▸ hothers, htimers, houtcomes⟩
  | retrying hquiet htimers houtcomes =>
    rw [hquiet n c hc] at hwaits
    cases hwaits
  | ended hquiet htimers houtcomes =>
    rw [hquiet n c hc] at hwaits
    cases hwaits

/-! ### How an operation ends -/

/-- What is left of the invariant when the last connection is not waited for any more, and no
handler was called yet. -/
structure Ending (op : S3AuthClientOpType) (s : AuthOperation) : Prop where
  running : s.crashed = false
  opType : s.client.opType = op
  chunked : s.client.isChunkedAuth = true → op = .authentication
  open_ : ∀ n c, s.connections n = some c → c.reply = none → c.taken = false
  fresh : ∀ n, s.attempts ≤ n → s.connections n = none
  quiet : Quiet s
  timers : s.timers = 0
  outcomes : s.outcomes = []

/-- Nothing of an operation has changed but what it has learnt. -/
structure Learns (s s' : AuthOperation) : Prop where
  client : s'.client = s.client
  connections : s'.connections = s.connections
  attempts : s'.attempts = s.attempts
  timers : s'.timers = s.timers
  crashed : s'.crashed = s.crashed
  outcomes : s'.outcomes = s.outcomes

theorem Ending.learns {s' : AuthOperation} (h : Ending op s) (hl : Learns s s') :
    Ending op s' where
  running := by rw [hl.crashed, h.running]
  opType := by rw [hl.client, h.opType]
  chunked := by rw [hl.client]; exact h.chunked
  open_ := by rw [hl.connections]; exact h.open_
  fresh := by rw [hl.connections, hl.attempts]; exact h.fresh
  quiet := by unfold Quiet; rw [hl.connections]; exact h.quiet
  timers := by rw [hl.timers, h.timers]
  outcomes := by rw [hl.outcomes, h.outcomes]

/-- **A failure is retried or reported.** -/
theorem Ending.failed (h : Ending op s) : Inv xmlParseDoc op (s.onCommonFailed maxRetryCount) := by
  have hended : ∀ o ∈ s.outcomes ++ [.onFailed], Justified xmlParseDoc op o := by
    rw [h.outcomes]
    intro o ho
    rw [List.mem_singleton.mp ho]
    trivial
  unfold onCommonFailed
  split
  · simp only
    split
    · refine ⟨h.running, h.opType, h.chunked, h.open_, h.fresh, ?_, ?_⟩
      · exact .retrying h.quiet (by simp [h.timers]) h.outcomes
      · simp [h.outcomes]
    · refine ⟨h.running, h.opType, h.chunked, h.open_, h.fresh, ?_, hended⟩
      exact .ended h.quiet h.timers (by simp [h.outcomes])
  · refine ⟨h.running, h.opType, h.chunked, h.open_, h.fresh, ?_, hended⟩
    exact .ended h.quiet h.timers (by simp [h.outcomes])

/-- **A success is reported.** -/
theorem Ending.succeeded (h : Ending op s) {reply : AuthReply} {judged : Option Bytes}
    (hj : Justified xmlParseDoc op (.onSuccess reply judged)) :
    Inv xmlParseDoc op (s.onCommonSuccess reply judged) := by
  have hended : ∀ o ∈ s.outcomes ++ [.onSuccess reply judged], Justified xmlParseDoc op o := by
    rw [h.outcomes]
    intro o ho
    rw [List.mem_singleton.mp ho]
    exact hj
  unfold onCommonSuccess
  simp only
  split
  · next hassert => exact absurd (h.opType.trans (h.chunked hassert.1)) hassert.2
  · split
    · refine ⟨h.running, h.opType, h.chunked, h.open_, h.fresh, ?_, hended⟩
      exact .ended h.quiet h.timers (by simp [h.outcomes])
    · refine ⟨h.running, h.opType, h.chunked, h.open_, h.fresh, ?_, hended⟩
      exact .ended h.quiet h.timers (by simp [h.outcomes])

theorem handleSuccess_learns (s : AuthOperation) (response : AuthResponse) :
    Learns s (s.handleSuccess response) := by
  unfold handleSuccess
  simp only
  split
  · exact ⟨rfl, rfl, rfl, rfl, rfl, rfl⟩
  · cases hop : s.client.opType <;> cases hs3 : s.request.s3 <;>
      constructor <;> simp [hop, hs3, learn]

variable (xmlParseDoc) in
theorem handleResponse_learns (s : AuthOperation) (text : Bytes) (status : Nat) :
    Learns s (handleResponse xmlParseDoc s text status) := by
  unfold handleResponse
  split
  · simp only
    split
    · exact ⟨rfl, rfl, rfl, rfl, rfl, rfl⟩
    · have h := handleSuccess_learns { s with fSuccess := true, opStatus := .success }
        (AuthResponse.parseAndValidate xmlParseDoc text)
      exact ⟨h.client, h.connections, h.attempts, h.timers, h.crashed, h.outcomes⟩
  · exact ⟨rfl, rfl, rfl, rfl, rfl, rfl⟩

theorem Inv.unhooked (h : Inv xmlParseDoc op s) (hc : s.connections n = some c)
    (hwaits : c.taken = false) : Ending op (s.unsetHooks n) := by
  obtain ⟨-, hquiet, htimers, houtcomes⟩ := h.waiting hc hwaits
  refine ⟨h.running, h.opType, h.chunked, ?_, ?_, hquiet, htimers, houtcomes⟩
  · intro m c' hc'
    by_cases hm : m = n
    · simp [unsetHooks, hm] at hc'
    · exact h.open_ m c' (by simpa [unsetHooks, Function.update_of_ne hm] using hc')
  · intro m hle
    by_cases hm : m = n
    · simp [unsetHooks, hm]
    · simpa [unsetHooks, Function.update_of_ne hm] using h.fresh m hle

/-! ### The callbacks -/

section

variable (h : Inv xmlParseDoc op s) (hc : s.connections n = some c)

include h hc

theorem onConnErr_inv
    (hwaits : c.taken = false) : Inv xmlParseDoc op (s.onConnErr maxRetryCount n) := by
  unfold onConnErr
  refine ((h.unhooked hc hwaits).learns ?_).failed
  split <;> exact ⟨rfl, rfl, rfl, rfl, rfl, rfl⟩

theorem Inv.answers {c' : AuthConnection}
    (hwaits : c.taken = false) (hwaits' : c'.taken = false) :
    Inv xmlParseDoc op { s with connections := Function.update s.connections n (some c') } := by
  obtain ⟨hn, hquiet, htimers, houtcomes⟩ := h.waiting hc hwaits
  refine ⟨h.running, h.opType, h.chunked, ?_, ?_, ?_, h.justified⟩
  · intro m d hd hreply
    by_cases hm : m = n
    · rw [hm] at hd
      rw [← Option.some.inj ((Function.update_self n _ s.connections).symm.trans hd)]
      exact hwaits'
    · exact h.open_ m d (by simpa [Function.update_of_ne hm] using hd) hreply
  · intro m hle
    have hm : m ≠ n := by
      intro hm
      rw [hm] at hle
      rw [h.fresh n hle] at hc
      cases hc
    simpa [Function.update_of_ne hm] using h.fresh m hle
  · refine .waiting c' ?_ hwaits' ?_ htimers houtcomes
    · simp [← hn]
    · intro m d hd
      refine hquiet m d ?_
      by_cases hm : m = n
      · simp [unsetHooks, ← hn, hm] at hd
      · simpa [unsetHooks, ← hn, Function.update_of_ne hm] using hd

theorem Inv.takes {c' : AuthConnection}
    (hwaits : c.taken = false) (htaken : c'.taken = true) (hreply : c'.reply ≠ none) :
    Ending op { s with connections := Function.update s.connections n (some c') } := by
  have hending := h.unhooked hc hwaits
  have hother : ∀ m, m ≠ n → ∀ d, Function.update s.connections n (some c') m = some d →
      (s.unsetHooks n).connections m = some d := by
    intro m hm d hd
    simpa [unsetHooks, Function.update_of_ne hm] using hd
  have hself : ∀ d, Function.update s.connections n (some c') n = some d → c' = d := by
    intro d hd
    exact Option.some.inj ((Function.update_self n _ s.connections).symm.trans hd)
  refine ⟨h.running, h.opType, h.chunked, ?_, ?_, ?_, hending.timers, hending.outcomes⟩
  · intro m d hd hd'
    by_cases hm : m = n
    · rw [hm] at hd
      rw [← hself d hd] at hd'
      exact absurd hd' hreply
    · exact hending.open_ m d (hother m hm d hd) hd'
  · intro m hle
    have hm : m ≠ n := by
      intro hm
      rw [hm] at hle
      rw [h.fresh n hle] at hc
      cases hc
    simpa [Function.update_of_ne hm] using h.fresh m hle
  · intro m d hd
    by_cases hm : m = n
    · rw [hm] at hd
      rw [← hself d hd]
      exact htaken
    · exact hending.quiet m d (hother m hm d hd)

theorem onResponseHeadersEnd_inv (hwaits : c.taken = false) (reply : AuthReply) :
    Inv xmlParseDoc op (s.onResponseHeadersEnd maxRetryCount n reply) := by
  unfold onResponseHeadersEnd
  simp only
  split
  · have hending : Ending op { s with
        connections := Function.update s.connections n
          (some { reply := some reply, unread := reply.body, taken := true }) } :=
      h.takes hc hwaits rfl (by simp)
    by_cases hbody : noBody s.client.opType = true
    · rw [if_pos hbody]
      by_cases hstatus : reply.status = 200
      · rw [if_pos hstatus]
        refine hending.succeeded ⟨hstatus, ?_⟩
        intro hop
        rw [← h.opType, hbody] at hop
        cases hop
      · rw [if_neg hstatus]
        exact hending.failed
    · rw [if_neg hbody]
      refine (hending.learns ?_).failed
      exact ⟨rfl, rfl, rfl, rfl, rfl, rfl⟩
  · exact h.answers hc hwaits rfl

theorem onReadResponse_inv (hwaits : c.taken = false)
    {reply : AuthReply} {piece : Bytes}
    (hjudged : s.clientConnected = true → reply.status = 200 → noBody s.client.opType = false →
      piece = reply.body ∧
        (AuthResponse.parseAndValidate xmlParseDoc (cStr reply.body)).isOK = true) :
    Inv xmlParseDoc op (s.onReadResponse xmlParseDoc maxRetryCount reply piece) := by
  obtain ⟨hn, -⟩ := h.waiting hc hwaits
  have hending : Ending op (s.unsetHooks (s.attempts - 1)) := hn ▸ h.unhooked hc hwaits
  unfold onReadResponse
  simp only
  by_cases hconnected : s.clientConnected = true
  · rw [if_pos (show (s.unsetHooks (s.attempts - 1)).clientConnected = true from hconnected)]
    have hlearns := handleResponse_learns xmlParseDoc
      (s.unsetHooks (s.attempts - 1)) (cStr piece) reply.status
    by_cases hstatus : reply.status = 200
    · rw [if_pos hstatus]
      refine (hending.learns hlearns).succeeded ⟨hstatus, ?_⟩
      intro hop
      obtain ⟨hpiece, hok⟩ := hjudged hconnected hstatus (by rw [h.opType, hop])
      exact ⟨by rw [hpiece], hok⟩
    · rw [if_neg hstatus]
      exact (hending.learns hlearns).failed
  · rw [if_neg (show ¬ (s.unsetHooks (s.attempts - 1)).clientConnected = true from hconnected)]
    exact hending.failed

end

/-- **A new connection is waited for.** -/
theorem triggerRequest_inv (hrunning : s.crashed = false) (hop : s.client.opType = op)
    (hchunked : s.client.isChunkedAuth = true → op = .authentication)
    (hopen : ∀ n c, s.connections n = some c → c.reply = none → c.taken = false)
    (hfresh : ∀ n, s.attempts ≤ n → s.connections n = none) (hquiet : Quiet s)
    (htimers : s.timers = 0) (houtcomes : s.outcomes = []) :
    Inv xmlParseDoc op (triggerRequest s) := by
  refine ⟨hrunning, hop, hchunked, ?_, ?_, ?_, ?_⟩
  · intro m d hd hreply
    by_cases hm : m = s.attempts
    · rw [hm] at hd
      rw [← Option.some.inj ((Function.update_self s.attempts _ s.connections).symm.trans hd)]
    · exact hopen m d (by simpa [triggerRequest, Function.update_of_ne hm] using hd) hreply
  · intro m hle
    have hle' : s.attempts + 1 ≤ m := hle
    have hm : m ≠ s.attempts := by omega
    simpa [triggerRequest, Function.update_of_ne hm] using hfresh m (by omega)
  · refine .waiting {} (by simp [triggerRequest]) rfl ?_ htimers houtcomes
    intro m d hd
    by_cases hm : m = s.attempts
    · simp [triggerRequest, unsetHooks, hm] at hd
    · exact hquiet m d (by simpa [triggerRequest, unsetHooks, Function.update_of_ne hm] using hd)
  · intro o ho
    have ho' : o ∈ s.outcomes := ho
    rw [houtcomes] at ho'
    cases ho'

/-! ### A run -/

/-- **A careful event keeps the invariant.** -/
theorem step_inv {s' : AuthOperation} (h : Inv xmlParseDoc op s) {e : AuthEvent}
    (hok : Careful xmlParseDoc s e) (hs : step xmlParseDoc maxRetryCount s e = some s') :
    Inv xmlParseDoc op s' := by
  cases e with
  | contentLength n value =>
    simp only [step] at hs
    split at hs
    · cases hs
      refine ⟨h.running, h.opType, h.chunked, h.open_, h.fresh, ?_, h.justified⟩
      cases h.phase with
      | waiting c hc hwaits hothers htimers houtcomes =>
        exact .waiting c hc hwaits hothers htimers houtcomes
      | retrying hquiet htimers houtcomes => exact .retrying hquiet htimers houtcomes
      | ended hquiet htimers houtcomes => exact .ended hquiet htimers houtcomes
    · cases hs
  | headersEnd n reply =>
    simp only [step] at hs
    split at hs
    · next hc =>
        cases hs
        exact onResponseHeadersEnd_inv h hc (h.open_ n _ hc rfl) reply
    · cases hs
  | read n length =>
    simp only [step] at hs
    split at hs
    · next reply unread taken hc =>
        obtain ⟨hwaits, hjudged⟩ := hok _ hc
        split at hs
        · cases hs
        · cases hs
          have hread : Inv xmlParseDoc op { s with
              connections := Function.update s.connections n
                (some ⟨some reply, unread.drop length, taken⟩) } :=
            h.answers hc hwaits hwaits
          exact onReadResponse_inv hread (Function.update_self n _ s.connections) hwaits
            (hjudged reply rfl)
    · cases hs
  | connError n =>
    simp only [step] at hs
    split at hs
    · next c hc =>
        cases hs
        exact onConnErr_inv h hc (hok c hc)
    · cases hs
  | timeout =>
    simp only [step] at hs
    split at hs
    · cases hs
    · next hdue =>
        cases hs
        cases h.phase with
        | waiting c hc hwaits hothers htimers houtcomes => exact absurd htimers hdue
        | retrying hquiet htimers houtcomes =>
          exact triggerRequest_inv h.running h.opType h.chunked h.open_ h.fresh hquiet
            (by simp [htimers]) houtcomes
        | ended hquiet htimers houtcomes => exact absurd htimers hdue
  | clientDisconnected =>
    cases hs
    refine ⟨h.running, h.opType, h.chunked, h.open_, h.fresh, ?_, h.justified⟩
    cases h.phase with
    | waiting c hc hwaits hothers htimers houtcomes =>
      exact .waiting c hc hwaits hothers htimers houtcomes
    | retrying hquiet htimers houtcomes => exact .retrying hquiet htimers houtcomes
    | ended hquiet htimers houtcomes => exact .ended hquiet htimers houtcomes

theorem start_inv {c : S3AuthClient} (hchunked : c.isChunkedAuth = false) (r : RequestObject) :
    Inv xmlParseDoc op (start op c r) := by
  have hcombo : (c.checkComboAuth r).opType = .comboAuth ∧
      (c.checkComboAuth r).isChunkedAuth = false := by
    unfold S3AuthClient.checkComboAuth
    simp only
    split
    · split <;> exact ⟨rfl, hchunked⟩
    · exact ⟨rfl, hchunked⟩
  unfold start
  refine triggerRequest_inv rfl ?_ ?_ ?_ ?_ ?_ rfl rfl
  · cases op with
    | comboAuth => exact hcombo.1
    | authentication | authorization | aclvalidation | policyvalidation => rfl
  · cases op with
    | comboAuth => simp [hcombo.2]
    | authentication => simp
    | authorization => simp [S3AuthClient.checkAuthorization, hchunked]
    | aclvalidation | policyvalidation => simp [hchunked]
  · intro n c hc
    cases hc
  · intro n _
    rfl
  · intro n c hc
    cases hc

/-- **In a run of careful events the operation is answered once, and positively only by a valid
reply.** -/
theorem answeredOnce_of_reachable (xmlParseDoc : Bytes → Option XmlDocument) (maxRetryCount : Nat)
    (op : S3AuthClientOpType) (c : S3AuthClient) (hchunked : c.isChunkedAuth = false)
    (r : RequestObject) {s : AuthOperation}
    (h : Runs.Reachable (step xmlParseDoc maxRetryCount) (Careful xmlParseDoc) (start op c r) s) :
    AnsweredOnce xmlParseDoc op s := by
  have hinv : Inv xmlParseDoc op s := by
    refine h.invariant (P := Inv xmlParseDoc op) (start_inv hchunked r) ?_
    intro s e s' hs hok hstep
    exact step_inv hs hok hstep
  exact hinv.answeredOnce

/-- An answer that says who the user is. -/
def sampleBody : Bytes :=
  ascii "<R><AuthorizeUserResult><UserId>U1</UserId><UserName>root</UserName>" ++
    ascii "<AccountId>A1</AccountId><AccountName>acme</AccountName></AuthorizeUserResult></R>"

def sampleParse : Bytes → Option XmlDocument := fun text =>
  if text = sampleBody then
    some [(ascii "AuthorizeUserResult",
      [(ascii "UserId", some (ascii "U1")), (ascii "UserName", some (ascii "root")),
        (ascii "AccountId", some (ascii "A1")), (ascii "AccountName", some (ascii "acme"))])]
  else none

/-- The connection fails, and the second one brings an answer. -/
def retriedOnce : List AuthEvent :=
  [.connError 0, .timeout, .contentLength 1 sampleBody.length, .headersEnd 1 ⟨200, sampleBody⟩,
    .read 1 4096]

theorem answeredOnce_of_reachable_retriedOnce :
    ∃ s, Runs.run (step sampleParse 5) (start .authorization {} { httpVerb := .GET })
        retriedOnce = some s ∧
      s.outcomes = [.onSuccess ⟨200, sampleBody⟩ (some sampleBody)] ∧
        AnsweredOnce sampleParse .authorization s := by
  obtain ⟨s, hs, houtcomes⟩ := Option.map_eq_some_iff.mp (show (Runs.run (step sampleParse 5)
    (start .authorization {} { httpVerb := .GET }) retriedOnce).map (fun s => s.outcomes) =
      some [.onSuccess ⟨200, sampleBody⟩ (some sampleBody)] by decide +kernel)
  exact ⟨s, hs, houtcomes, answeredOnce_of_reachable sampleParse 5 .authorization {} rfl
    { httpVerb := .GET } (Runs.reachable_of_run retriedOnce .start (by decide +kernel) hs)⟩

/-- The first piece of a body, which is no XML document. -/
def partialBody : List AuthEvent := [.headersEnd 0 ⟨200, ascii "<R>"⟩, .read 0 4096]

/-- The answer to a policy to validate has no body; then the client goes, and the connection is
closed. -/
def closedAfterwards : List AuthEvent :=
  [.contentLength 0 0, .headersEnd 0 ⟨200, []⟩, .clientDisconnected, .connError 0]

theorem not_answeredOnce :
    (∃ s, Runs.run (step sampleParse 0) (start .authorization {} { httpVerb := .GET })
        partialBody = some s ∧ ¬ AnsweredOnce sampleParse .authorization s) ∧
      ∃ s, Runs.run (step sampleParse 0) (start .policyvalidation {} { httpVerb := .PUT })
        closedAfterwards = some s ∧ ¬ AnsweredOnce sampleParse .policyvalidation s := by
  obtain ⟨s, hs, houtcomes⟩ := Option.map_eq_some_iff.mp (show (Runs.run (step sampleParse 0)
    (start .authorization {} { httpVerb := .GET }) partialBody).map (fun s => s.outcomes) =
      some [.onSuccess ⟨200, ascii "<R>"⟩ (some (ascii "<R>"))] by decide)
  obtain ⟨s', hs', htwice⟩ := Option.map_eq_some_iff.mp (show (Runs.run (step sampleParse 0)
    (start .policyvalidation {} { httpVerb := .PUT }) closedAfterwards).map
      (fun s => s.outcomes) = some [.onSuccess ⟨200, []⟩ none, .onFailed] by decide)
  refine ⟨⟨s, hs, fun h => ?_⟩, ⟨s', hs', fun h => ?_⟩⟩
  · have hjustified := h.justified _ (by rw [houtcomes]; exact List.mem_singleton_self _)
    exact absurd (hjustified.2 rfl).2 (by decide)
  · have honce := h.once
    rw [htwice] at honce
    exact absurd honce (by decide)

end AuthOperation

end CortxS3

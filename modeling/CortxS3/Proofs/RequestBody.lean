/-
The body of a request, as long as memory lasts.

A buffer fits when it is the last or has the size of all the others.  With buffers that fit and no want
of memory the only read error is the timeout, the container is freezed exactly when everything is there or
the client was too slow, and the timer runs only while something is missing (`Regular`).
-/
import CortxS3.Server.RequestBody

namespace CortxS3

namespace RequestBody

variable {c : BodyConfig} {b : RequestBody}

/-! ### A buffer that fits -/

/-- A buffer that can be taken: the last, or one of the right size. -/
def Fits (c : BodyConfig) (b : RequestBody) (len : Nat) : Prop :=
  len ≤ b.pendingInFlight ∧ (len = b.pendingInFlight ∨ len = c.sizeOfEachEvbuf)

/-- The body with a buffer added. -/
def withBuffer (b : RequestBody) (len : Nat) : RequestBody :=
  { b with
    contentLength := b.contentLength + len
    pendingInFlight := b.pendingInFlight - len
    isFreezed := b.isFreezed || b.pendingInFlight = len }

theorem addContent_fits {len : Nat} (hfits : Fits c b len) :
    b.addContent c len (b.pendingInFlight = len) = some { b with
      contentLength := b.contentLength + len
      isFreezed := b.isFreezed || b.pendingInFlight = len } := by
  unfold addContent
  by_cases hlast : b.pendingInFlight = len
  · simp [hlast]
  · have hlen : len = c.sizeOfEachEvbuf := by
      rcases hfits.2 with h | h
      · exact absurd h.symm hlast
      · exact h
    simp only [hlast, decide_false, Bool.false_eq_true, if_false, Bool.or_false]
    rw [if_neg (by simpa using hlen)]

theorem received_fits {len : Nat} (hfits : Fits c b len) :
    RequestBody.received { b with
      contentLength := b.contentLength + len
      isFreezed := b.isFreezed || b.pendingInFlight = len } len false = b.withBuffer len := by
  have hle := hfits.1
  have hlt : ¬ b.pendingInFlight < len := by omega
  simp only [received, withBuffer, hlt, Bool.false_or, decide_false, Bool.false_eq_true, if_false]
  split
  · have heq : b.pendingInFlight = len := by omega
    simp [heq]
  · rfl

theorem notifyIncomingData_fits {len : Nat} (herr : b.readError = none) (hfits : Fits c b len) :
    b.notifyIncomingData c [len] true =
      (b.withBuffer len, b.listener.any fun watermark =>
        watermark ≤ b.contentLength + len || b.pendingInFlight - len = 0) := by
  have hadd : addBuffers c b.pendingInFlight [len] b 0 = ({ b with
      contentLength := b.contentLength + len
      isFreezed := b.isFreezed || b.pendingInFlight = len }, len, false) := by
    simp only [addBuffers, Nat.zero_add, addContent_fits hfits]
  unfold notifyIncomingData
  rw [if_neg (by simp), if_neg (by simp [isS3ClientReadError, herr]), hadd]
  dsimp only
  rw [received_fits hfits]
  have hlistener : (b.withBuffer len).listener = b.listener := rfl
  rw [hlistener]
  cases b.listener with
  | none => rfl
  | some watermark => simp [withBuffer, isS3ClientReadError, herr]

theorem notifyIncomingData_dropped (h : b.readError.isSome) (bufs : List Nat) :
    b.notifyIncomingData c bufs true = (b, false) := by
  rw [notifyIncomingData, if_neg (by simp), isS3ClientReadError, if_pos h]

/-! ### Any buffers -/

theorem addContent_eq {len : Nat} {isLastBuf : Bool} {b' : RequestBody}
    (h : b.addContent c len isLastBuf = some b') :
    b' = { b with
      contentLength := b.contentLength + len
      isFreezed := b.isFreezed || isLastBuf } := by
  unfold addContent at h
  split at h
  · next hlast =>
      cases h
      simp [hlast]
  · next hnot =>
      split at h
      · cases h
      · cases h
        simp [hnot]

theorem addBuffers_spec (pending : Nat) : ∀ (bufs : List Nat) (b : RequestBody) (got : Nat),
    ∃ len fr, (addBuffers c pending bufs b got).1 = { b with contentLength := len, isFreezed := fr } ∧
      ((addBuffers c pending bufs b got).2.2 = false →
        (addBuffers c pending bufs b got).2.1 = got + bufs.sum ∧ len = b.contentLength + bufs.sum ∧
          (b.isFreezed = true → fr = true) ∧
          (fr = true → b.isFreezed = true ∨ pending ≤ got + bufs.sum)) := by
  intro bufs
  induction bufs with
  | nil =>
    intro b got
    exact ⟨b.contentLength, b.isFreezed, rfl, fun _ => ⟨rfl, rfl, id, .inl⟩⟩
  | cons size rest ih =>
    intro b got
    rw [addBuffers]
    split
    · exact ⟨b.contentLength, b.isFreezed, rfl, nofun⟩
    · next b' hadd =>
        obtain ⟨len, fr, hbody, hspec⟩ := ih b' (got + size)
        obtain rfl := addContent_eq hadd
        refine ⟨len, fr, hbody, fun hok => ?_⟩
        obtain ⟨hgot, hlen, hkeep, hfreezed⟩ := hspec hok
        dsimp only at hlen hkeep hfreezed
        rw [List.sum_cons]
        refine ⟨by omega, by omega, fun h => hkeep (by simp [h]), fun h => ?_⟩
        rcases hfreezed h with hold | hall
        · rw [Bool.or_eq_true, decide_eq_true_eq] at hold
          rcases hold with hold | hlast
          · exact .inl hold
          · exact .inr (by omega)
        · exact .inr (by omega)

/-- The body after data that was taken. -/
def withBytes (b : RequestBody) (bytes : Nat) (fr : Bool) : RequestBody :=
  { b with
    contentLength := b.contentLength + bytes
    pendingInFlight := b.pendingInFlight - bytes
    isFreezed := fr }

theorem notifyIncomingData_cases (b : RequestBody) (bufs : List Nat) (memoryAboveThreshold : Bool) :
    (∃ pending len fr, b.notifyIncomingData c bufs memoryAboveThreshold = ({ b with
        pendingInFlight := pending
        contentLength := len
        isFreezed := fr
        ignoreIncomingData := true
        readError := some .serviceUnavailable }, b.listener.isSome)) ∨
      (memoryAboveThreshold = true ∧ b.readError.isSome ∧
        b.notifyIncomingData c bufs memoryAboveThreshold = (b, false)) ∨
      (memoryAboveThreshold = true ∧ b.readError = none ∧ bufs.sum ≤ b.pendingInFlight ∧
        ∃ fr callback, b.notifyIncomingData c bufs memoryAboveThreshold =
            (b.withBytes bufs.sum fr, callback) ∧
          (fr = true ↔ b.isFreezed = true ∨ b.pendingInFlight = bufs.sum) ∧
          (callback = true → b.listener.isSome)) := by
  cases memoryAboveThreshold with
  | false => exact .inl ⟨b.pendingInFlight, b.contentLength, b.isFreezed, rfl⟩
  | true =>
    cases herr : b.readError with
    | some e => exact .inr (.inl ⟨rfl, rfl, notifyIncomingData_dropped (by simp [herr]) bufs⟩)
    | none =>
      obtain ⟨len, fr, hbody, hspec⟩ := addBuffers_spec (c := c) b.pendingInFlight bufs b 0
      unfold notifyIncomingData
      rw [if_neg (by simp), if_neg (by simp [isS3ClientReadError, herr])]
      obtain ⟨b', bytes, failed, hadd⟩ :
          ∃ b' bytes failed, addBuffers c b.pendingInFlight bufs b 0 = (b', bytes, failed) :=
        ⟨_, _, _, rfl⟩
      rw [hadd] at hbody hspec ⊢
      dsimp only at hbody hspec ⊢
      subst hbody
      by_cases hbroken : failed = true ∨ b.pendingInFlight < bytes
      · refine .inl ⟨b.pendingInFlight - bytes, len, fr || b.pendingInFlight - bytes = 0, ?_⟩
        have hflag : (failed || decide (b.pendingInFlight < bytes)) = true := by
          simpa using hbroken
        have hreceived : RequestBody.received { b with contentLength := len, isFreezed := fr }
            bytes failed = { b with
              pendingInFlight := b.pendingInFlight - bytes
              contentLength := len
              isFreezed := fr || b.pendingInFlight - bytes = 0
              ignoreIncomingData := true
              readError := some .serviceUnavailable } := by
          unfold received
          simp only [hflag, if_true]
          split
          · next hzero => simp [hzero]
          · next hmore => simp [hmore]
        rw [hreceived]
        cases b.listener with
        | none => rfl
        | some watermark => simp [isS3ClientReadError]
      · obtain ⟨hok, hle⟩ := not_or.mp hbroken
        have hok' : failed = false := by simpa using hok
        obtain ⟨hbytes, hlen, hkeep, hfreezed⟩ := hspec hok'
        rw [Nat.zero_add] at hbytes hfreezed
        subst hbytes
        subst hlen
        refine .inr (.inr ⟨rfl, rfl, by omega, fr || b.pendingInFlight - bufs.sum = 0, ?_⟩)
        have hreceived : RequestBody.received { b with
              contentLength := b.contentLength + bufs.sum
              isFreezed := fr } bufs.sum failed =
            b.withBytes bufs.sum (fr || b.pendingInFlight - bufs.sum = 0) := by
          unfold received withBytes
          simp only [hok', Bool.false_or, hle, decide_false, Bool.false_eq_true, if_false]
          split
          · next hzero => simp [hzero]
          · next hmore => simp [hmore]
        rw [hreceived]
        have hiff : (fr || decide (b.pendingInFlight - bufs.sum = 0)) = true ↔
            b.isFreezed = true ∨ b.pendingInFlight = bufs.sum := by
          rw [Bool.or_eq_true, decide_eq_true_eq]
          constructor
          · rintro (h | h)
            · rcases hfreezed h with hold | hall
              · exact .inl hold
              · exact .inr (by omega)
            · exact .inr (by omega)
          · rintro (h | h)
            · exact .inl (hkeep h)
            · exact .inr (by omega)
        have hlistener :
            (b.withBytes bufs.sum (fr || b.pendingInFlight - bufs.sum = 0)).listener =
            b.listener := rfl
        rw [hlistener]
        cases b.listener with
        | none => exact ⟨_, rfl, hiff, nofun⟩
        | some watermark => exact ⟨_, rfl, hiff, fun _ => rfl⟩

/-! ### What each operation changes -/

theorem setTimer_eq :
    b.setStartClientRequestReadTimeout =
      { b with readTimer := b.readTimer || b.readError.isNone } := by
  obtain ⟨_, _, _, _, _, _, _, readError⟩ := b
  cases readError <;> simp [setStartClientRequestReadTimeout, isS3ClientReadError]

theorem pause_eq :
    b.pause = { b with
      isPaused := b.isPaused || b.readError.isNone
      readTimer := b.readTimer && (b.isPaused || b.readError.isSome) } := by
  obtain ⟨_, _, _, _, isPaused, _, _, readError⟩ := b
  cases isPaused <;> cases readError <;> simp [pause, isS3ClientReadError]

theorem resume_eq (setReadTimer : Bool) :
    b.resume setReadTimer = { b with
      isPaused := false
      readTimer := if b.isPaused then setReadTimer && b.readError.isNone else b.readTimer } := by
  obtain ⟨_, _, _, _, isPaused, _, _, _⟩ := b
  cases isPaused <;> cases setReadTimer <;> simp [resume, setTimer_eq]

theorem sendResponse_eq :
    b.sendResponse = { b with
      readTimer := false
      ignoreIncomingData := true
      isPaused := false } := by
  simp [sendResponse, stopProcessingIncomingData, resume_eq]

theorem listenForIncomingData_eq (size : Nat) :
    b.listenForIncomingData size = { b with
      listener := some size
      isPaused := false
      readTimer := if b.isPaused then b.readError.isNone else b.readTimer } := by
  simp [listenForIncomingData, resume_eq]

theorem notified_eq (h : b.readError = none) :
    b.notified c = { b with
      isPaused := b.isPaused || (b.listener.isNone && !b.isFreezed)
      readTimer := if b.isFreezed || b.isPaused then b.readTimer else b.listener.isSome } := by
  obtain ⟨_, _, isFreezed, listener, isPaused, _, _, readError⟩ := b
  dsimp only at h
  subst h
  cases listener <;> cases isFreezed <;> cases isPaused <;>
    simp [notified, isS3ClientReadError, pause_eq, setTimer_eq]

theorem notified_of_readError (h : b.readError.isSome) : b.notified c = b := by
  rw [notified, isS3ClientReadError, if_pos h]

/-! ### What holds of the body -/

/-- What holds of a body whose client has been read without want of memory. -/
structure Regular (b : RequestBody) : Prop where
  readError : b.readError ≠ some .serviceUnavailable
  freezed : b.isFreezed = true ↔ b.pendingInFlight = 0 ∨ b.readError.isSome
  timer : b.readTimer = true → b.pendingInFlight ≠ 0 ∧ b.readError = none

theorem regular_initialise (c : BodyConfig) : Regular (initialise c) :=
  ⟨nofun, by simp [initialise], by simp [initialise]⟩

section

variable (h : Regular b)

include h

theorem Regular.freezed_iff (hnone : b.readError = none) :
    b.isFreezed = true ↔ b.pendingInFlight = 0 := by
  rw [h.freezed, hnone]
  simp

theorem Regular.pause : Regular b.pause := by
  rw [pause_eq]
  exact ⟨h.readError, h.freezed, fun ht => h.timer (by simp at ht; exact ht.1)⟩

theorem Regular.resume (hpending : b.pendingInFlight ≠ 0) : Regular b.resume := by
  rw [resume_eq]
  refine ⟨h.readError, h.freezed, fun ht => ?_⟩
  dsimp only at ht ⊢
  split at ht
  · exact ⟨hpending, by simpa using ht⟩
  · exact h.timer ht

theorem Regular.listenForIncomingData (hpending : b.pendingInFlight ≠ 0)
    (size : Nat) : Regular (b.listenForIncomingData size) := by
  unfold RequestBody.listenForIncomingData
  exact Regular.resume (b := { b with listener := some size })
    ⟨h.readError, h.freezed, h.timer⟩ hpending

theorem Regular.stopTimer : Regular { b with readTimer := false } :=
  ⟨h.readError, h.freezed, nofun⟩

theorem Regular.withBuffer (hnone : b.readError = none)
    (htimer : b.readTimer = false) {len : Nat} (hle : len ≤ b.pendingInFlight) :
    Regular (b.withBuffer len) := by
  refine ⟨h.readError, ?_, by simp [RequestBody.withBuffer, htimer]⟩
  have hfreezed := h.freezed
  simp only [hnone, Option.isSome_none, Bool.false_eq_true, or_false] at hfreezed
  simp only [RequestBody.withBuffer, Bool.or_eq_true, hfreezed, decide_eq_true_eq, hnone,
    Option.isSome_none, Bool.false_eq_true, or_false]
  omega

theorem Regular.getBuffers (size : Nat) : Regular (b.getBuffers size) :=
  ⟨h.readError, h.freezed, h.timer⟩

theorem Regular.notified : Regular (b.notified c) := by
  cases herr : b.readError with
  | some e =>
    rw [notified_of_readError (by rw [herr]; rfl)]
    exact h
  | none =>
    rw [notified_eq herr]
    refine ⟨h.readError, h.freezed, fun ht => ?_⟩
    dsimp only at ht ⊢
    split at ht
    · exact h.timer ht
    · next hgo =>
        refine ⟨fun hzero => ?_, herr⟩
        have hfr := (h.freezed_iff herr).mpr hzero
        simp [hfr] at hgo

end

end RequestBody

end CortxS3

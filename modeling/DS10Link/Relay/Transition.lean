import Mathlib.Tactic
import DS10Link.Relay.Node

/-!
# What one callback can do

Every callback of a relay does one of a dozen things, and each is an update of the state with a
list of published frames. The relation below lists them with what was found to hold; whatever is
proved about runs is proved by cases on it.

## Main definitions

* `RelayNode.Awaits`: a frame answers the pending transaction
* `RelayNode.Transition`: one callback, by what it does
* `RelayNode.Sound`: what holds of a relay between callbacks

## Main results

* `RelayNode.step_transition`: a callback of a sound node is one of the transitions
* `RelayNode.sound_step`, `RelayNode.sound_afterRun`: a relay is sound after every run
-/

namespace Ds10Relay

open Transaction

namespace RelayNode

/-- The frame comes from the slave that was asked and carries the pending number. -/
structure Awaits (p : RelayParams) (n : RelayNode) (msg : Frame) : Prop where
  stationId_eq : msg.stationId = p.slave1Id
  busy : n.busy = true
  parseTxn_eq : parseTxn msg.data = some n.pendingTxn

/-- The awaited frame is a reply that names `dst`. -/
structure Answers (p : RelayParams) (n : RelayNode) (msg : Frame) (dst : UInt8)
    (payload : List UInt8) : Prop extends Awaits p n msg where
  data_eq : msg.data = reply n.pendingTxn dst payload

/-- A destination the relay agrees to forward to. -/
structure IsTarget (p : RelayParams) (dst : UInt8) : Prop where
  isForwardable : isForwardable dst = true
  ne_slave1Id : dst ≠ p.slave1Id

/-- A node whose pending transaction is over. -/
def settled (n : RelayNode) : RelayNode := { n with busy := false, timerArmed := false }

/-- A request for the pending transaction. -/
def pendingRequest (p : RelayParams) (n : RelayNode) : Frame :=
  requestFrame p n.pendingTxn (request n.pendingTxn n.payload)

/-- One callback of a relay, by what it does. -/
inductive Transition (p : RelayParams) (n : RelayNode) :
    Event → RelayNode → List Frame → Prop
  | ignore {msg : Frame} (h : ¬ Awaits p n msg) :
    Transition p n (.rx msg) { n with ignored := n.ignored + 1 } []
  | noDst {msg : Frame} (h : Awaits p n msg) (hdst : parseDst msg.data = none) :
    Transition p n (.rx msg)
      { n.settled with badDst := n.badDst + 1, failed := n.failed + 1 } []
  | keep {msg : Frame} {payload : List UInt8} (h : Answers p n msg kNoForward payload) :
    Transition p n (.rx msg)
      { n.settled with noForward := n.noForward + 1, ok := n.ok + 1 } []
  | refuse {msg : Frame} {dst : UInt8} {payload : List UInt8} (h : Answers p n msg dst payload)
      (hdst : dst ≠ kNoForward) (htarget : ¬ IsTarget p dst) :
    Transition p n (.rx msg)
      { n.settled with badDst := n.badDst + 1, failed := n.failed + 1 } []
  | tooLong {msg : Frame} {dst : UInt8} {payload : List UInt8} (h : Answers p n msg dst payload)
      (htarget : IsTarget p dst) (hlen : kMaxData < payload.length) :
    Transition p n (.rx msg)
      { n.settled with oversized := n.oversized + 1, ok := n.ok + 1 } []
  | forward {msg : Frame} {dst : UInt8} {payload : List UInt8} (h : Answers p n msg dst payload)
      (htarget : IsTarget p dst) (hlen : payload.length ≤ kMaxData) :
    Transition p n (.rx msg)
      { n.settled with forwarded := n.forwarded + 1, ok := n.ok + 1 }
      [{ stationId := dst, functionCode := msg.functionCode, data := payload }]
  | decline {e : Event} (h : offered p n e = none)
      (he : e = .autoTick ∨ ∃ data, e = .trigger data) :
    Transition p n e n []
  | oversize {e : Event} {payload : List UInt8} (h : offered p n e = some payload)
      (hlen : kMaxPayload < payload.length) :
    Transition p n e { n with oversized := n.oversized + 1 } []
  | start {e : Event} {payload : List UInt8} (h : offered p n e = some payload)
      (hlen : payload.length ≤ kMaxPayload) :
    Transition p n e
      { n.openTransaction payload with attempt := 1, sent := n.sent + 1, timerArmed := true }
      [pendingRequest p (n.openTransaction payload)]
  | idle (h : n.busy = false) :
    Transition p n .timeout { n with timerArmed := false } []
  | retry (h : n.busy = true) (hatt : n.attempt ≤ p.maxRetries) :
    Transition p n .timeout
      { n with
        timerArmed := true
        timeouts := n.timeouts + 1
        retried := n.retried + 1
        attempt := n.attempt + 1
        sent := n.sent + 1 }
      [pendingRequest p n]
  | giveUp (h : n.busy = true) (hatt : p.maxRetries < n.attempt) :
    Transition p n .timeout
      { n.settled with
        payload := []
        timeouts := n.timeouts + 1
        failed := n.failed + 1 } []

/-- What holds of a relay between callbacks. -/
structure Sound (p : RelayParams) (n : RelayNode) : Prop where
  pendingTxn_eq : n.pendingTxn = n.txn
  timerArmed_eq : n.timerArmed = n.busy
  one_le_attempt : n.busy = true → 1 ≤ n.attempt
  attempt_le : n.busy = true → n.attempt ≤ p.maxRetries + 1
  payload_le : n.busy = true → n.payload.length ≤ kMaxPayload

variable {p : RelayParams} {n : RelayNode}

/-! ## Replies -/

theorem acceptReply_of_awaits {msg : Frame} (h : Awaits p n msg) :
    n.acceptReply n.pendingTxn = ({ n with busy := false }, true) := by
  simp [acceptReply, h.busy]

theorem handleReply_of_not_awaits {msg : Frame} (h : ¬ Awaits p n msg) :
    n.handleReply p msg = ({ n with ignored := n.ignored + 1 }, []) := by
  unfold handleReply
  split
  · rfl
  · next hstation =>
    split
    · rfl
    · next got hgot =>
      -- What is left fails under the lock, as idle or as another number.
      have hnot : ¬ (n.busy = true ∧ got = n.pendingTxn) := by
        rintro ⟨hbusy, rfl⟩
        exact h ⟨not_not.mp hstation, hbusy, hgot⟩
      unfold acceptReply
      by_cases hbusy : n.busy = true
      · have hne : got ≠ n.pendingTxn := fun hpending => hnot ⟨hbusy, hpending⟩
        simp [hbusy, hne]
      · simp [hbusy]

theorem handleReply_of_awaits {msg : Frame} (h : Awaits p n msg) :
    n.handleReply p msg = concludeReply p { n with busy := false } msg := by
  unfold handleReply
  rw [if_neg (not_not.mpr h.stationId_eq), h.parseTxn_eq]
  simp only [acceptReply_of_awaits h]

/-- An awaited frame that names a destination is a reply. -/
theorem Awaits.exists_answers {msg : Frame} {dst : UInt8} (h : Awaits p n msg)
    (hdst : parseDst msg.data = some dst) : ∃ payload, Answers p n msg dst payload := by
  rcases parseTxn_eq_some.mp h.parseTxn_eq with ⟨payload, hdata⟩ | ⟨dst', payload, hdata⟩
  · rw [hdata, parseDst_request] at hdst
    cases hdst
  · rw [hdata, parseDst_reply, Option.some.injEq] at hdst
    exact ⟨payload, h, hdst ▸ hdata⟩

theorem handleReply_noDst {msg : Frame} (h : Awaits p n msg) (hdst : parseDst msg.data = none) :
    n.handleReply p msg =
      ({ n.settled with badDst := n.badDst + 1, failed := n.failed + 1 }, []) := by
  rw [handleReply_of_awaits h]
  simp [concludeReply, hdst, settled]

section Answers

variable {msg : Frame} {dst : UInt8} {payload : List UInt8}

theorem handleReply_keep (h : Answers p n msg kNoForward payload) :
    n.handleReply p msg =
      ({ n.settled with noForward := n.noForward + 1, ok := n.ok + 1 }, []) := by
  rw [handleReply_of_awaits h.toAwaits]
  simp [concludeReply, h.data_eq, settled]

theorem handleReply_refuse (h : Answers p n msg dst payload) (hdst : dst ≠ kNoForward)
    (htarget : ¬ IsTarget p dst) :
    n.handleReply p msg =
      ({ n.settled with badDst := n.badDst + 1, failed := n.failed + 1 }, []) := by
  rw [handleReply_of_awaits h.toAwaits]
  by_cases hfwd : isForwardable dst = true
  · -- A legal station is refused only when it is the slave itself.
    have hself : dst = p.slave1Id := by_contra fun hne => htarget ⟨hfwd, hne⟩
    rw [hself] at hdst hfwd
    simp [concludeReply, h.data_eq, settled, hdst, hfwd, hself]
  · simp [concludeReply, h.data_eq, settled, hdst, hfwd]

theorem IsTarget.ne_kNoForward (h : IsTarget p dst) : dst ≠ kNoForward := by
  rintro rfl
  exact absurd h.isForwardable (by decide)

theorem handleReply_of_isTarget (h : Answers p n msg dst payload) (htarget : IsTarget p dst) :
    n.handleReply p msg =
      let r := n.settled.forward dst payload msg.functionCode
      ({ r.1 with ok := r.1.ok + 1 }, r.2) := by
  rw [handleReply_of_awaits h.toAwaits]
  simp [concludeReply, h.data_eq, settled, htarget.ne_kNoForward, htarget.isForwardable,
    htarget.ne_slave1Id]

theorem handleReply_tooLong (h : Answers p n msg dst payload) (htarget : IsTarget p dst)
    (hlen : kMaxData < payload.length) :
    n.handleReply p msg =
      ({ n.settled with oversized := n.oversized + 1, ok := n.ok + 1 }, []) := by
  rw [handleReply_of_isTarget h htarget, RelayNode.forward, if_pos hlen]
  rfl

theorem handleReply_forward (h : Answers p n msg dst payload) (htarget : IsTarget p dst)
    (hlen : payload.length ≤ kMaxData) :
    n.handleReply p msg =
      ({ n.settled with forwarded := n.forwarded + 1, ok := n.ok + 1 },
        [{ stationId := dst, functionCode := msg.functionCode, data := payload }]) := by
  rw [handleReply_of_isTarget h htarget, RelayNode.forward, if_neg (not_lt.mpr hlen)]
  rfl

end Answers

theorem handleReply_transition (msg : Frame) :
    Transition p n (.rx msg) (n.handleReply p msg).1 (n.handleReply p msg).2 := by
  by_cases h : Awaits p n msg
  · cases hdst : parseDst msg.data with
    | none =>
      rw [handleReply_noDst h hdst]
      exact .noDst h hdst
    | some dst =>
      obtain ⟨payload, ha⟩ := h.exists_answers hdst
      by_cases htarget : IsTarget p dst
      · by_cases hlen : payload.length ≤ kMaxData
        · rw [handleReply_forward ha htarget hlen]
          exact .forward ha htarget hlen
        · rw [not_le] at hlen
          rw [handleReply_tooLong ha htarget hlen]
          exact .tooLong ha htarget hlen
      · by_cases hkeep : dst = kNoForward
        · subst hkeep
          rw [handleReply_keep ha]
          exact .keep ha
        · rw [handleReply_refuse ha hkeep htarget]
          exact .refuse ha hkeep htarget
  · rw [handleReply_of_not_awaits h]
    exact .ignore h

/-! ## Requests -/

theorem timerExpired_idle (h : n.busy = false) :
    n.timerExpired p = ({ n with timerArmed := false }, []) := by
  simp [timerExpired, onTimeout, takeAttempt, h]

theorem timerExpired_giveUp (h : n.busy = true) (hatt : p.maxRetries < n.attempt) :
    n.timerExpired p = ({ n.settled with payload := [], timeouts := n.timeouts + 1,
                                         failed := n.failed + 1 }, []) := by
  have hpos : 0 < n.attempt := Nat.zero_lt_of_lt hatt
  simp [timerExpired, onTimeout, takeAttempt, settled, h, hpos, hatt]

theorem timerExpired_retry (h : n.busy = true) (hpos : 0 < n.attempt)
    (hatt : n.attempt ≤ p.maxRetries) (hlen : n.payload.length ≤ kMaxPayload) :
    n.timerExpired p = ({ n with timerArmed := true, timeouts := n.timeouts + 1,
                                 retried := n.retried + 1, attempt := n.attempt + 1,
                                 sent := n.sent + 1 }, [pendingRequest p n]) := by
  simp [timerExpired, onTimeout, takeAttempt, sendAttempt, h, hpos, not_lt.mpr hatt,
    build_of_le hlen, pendingRequest]

theorem startTransaction_of_le {payload : List UInt8} (hlen : payload.length ≤ kMaxPayload) :
    n.startTransaction p payload =
      ({ n.openTransaction payload with attempt := 1, sent := n.sent + 1, timerArmed := true },
        [pendingRequest p (n.openTransaction payload)]) := by
  rw [startTransaction, if_neg (not_lt.mpr hlen)]
  -- The first attempt takes the retry path with no attempt spent: no expiry, no retry is booked.
  simp [onTimeout, takeAttempt, sendAttempt, openTransaction, build_of_le hlen, pendingRequest]

theorem startUnlessBusy_transition {e : Event} {payload : List UInt8}
    (h : offered p n e = if n.busy then none else some payload)
    (he : e = .autoTick ∨ ∃ data, e = .trigger data) :
    Transition p n e (n.startUnlessBusy p payload).1 (n.startUnlessBusy p payload).2 := by
  unfold startUnlessBusy
  -- Idle or busy decides between a start and nothing, the cap between a start and a refusal.
  cases hbusy : n.busy with
  | true =>
    rw [hbusy] at h
    exact .decline h he
  | false =>
    rw [hbusy] at h
    by_cases hlen : payload.length ≤ kMaxPayload
    · simp only [Bool.false_eq_true, if_false, startTransaction_of_le hlen]
      exact .start h hlen
    · rw [not_le] at hlen
      simp only [Bool.false_eq_true, if_false, startTransaction, if_pos hlen]
      exact .oversize h hlen

theorem timerExpired_transition (hs : Sound p n) :
    Transition p n .timeout (n.timerExpired p).1 (n.timerExpired p).2 := by
  rcases Bool.eq_false_or_eq_true n.busy with hbusy | hbusy
  · by_cases hatt : n.attempt ≤ p.maxRetries
    · rw [timerExpired_retry hbusy (hs.one_le_attempt hbusy) hatt (hs.payload_le hbusy)]
      exact .retry hbusy hatt
    · rw [not_le] at hatt
      rw [timerExpired_giveUp hbusy hatt]
      exact .giveUp hbusy hatt
  · rw [timerExpired_idle hbusy]
    exact .idle hbusy

/-! ## Every callback -/

/-- **A callback of a sound node is one of the transitions.** -/
theorem step_transition (hs : Sound p n) (e : Event) :
    Transition p n e (step p n e).1 (step p n e).2 := by
  cases e with
  | rx msg => exact handleReply_transition msg
  | trigger data => exact startUnlessBusy_transition rfl (.inr ⟨data, rfl⟩)
  | autoTick =>
    show Transition p n .autoTick (n.autoTick p).1 (n.autoTick p).2
    unfold RelayNode.autoTick
    -- Without an auto timer there is nothing to tick.
    cases hauto : p.autoPayload with
    | none => exact .decline (by simp [offered, hauto]) (.inl rfl)
    | some payload => exact startUnlessBusy_transition (by simp [offered, hauto]) (.inl rfl)
  | timeout => exact timerExpired_transition hs

theorem sound_new (p : RelayParams) : Sound p new :=
  ⟨rfl, rfl, by simp [new], by simp [new], by simp [new]⟩

theorem Sound.transition (hs : Sound p n) {e : Event} {n' : RelayNode} {out : List Frame}
    (ht : Transition p n e n' out) : Sound p n' := by
  cases ht with
  | ignore => exact ⟨hs.1, hs.2, hs.3, hs.4, hs.5⟩
  | noDst | keep | refuse | tooLong | forward | giveUp =>
    -- An idle node has nothing left to say about its attempt and its payload.
    exact ⟨hs.1, rfl, by simp [settled], by simp [settled], by simp [settled]⟩
  | decline => exact hs
  | oversize => exact ⟨hs.1, hs.2, hs.3, hs.4, hs.5⟩
  | start h hlen => exact ⟨rfl, rfl, fun _ => le_rfl, fun _ => by simp, fun _ => hlen⟩
  | idle h =>
    exact ⟨hs.1, h.symm, hs.3, hs.4, hs.5⟩
  | retry h hatt =>
    exact ⟨hs.1, h.symm, fun _ => by simp, fun _ => by simpa using hatt, hs.5⟩

theorem sound_step (hs : Sound p n) (e : Event) : Sound p (step p n e).1 :=
  hs.transition (step_transition hs e)

/-- **A relay is sound after every run.** -/
theorem sound_afterRun (p : RelayParams) (es : List Event) : Sound p (afterRun p es) :=
  Automaton.stateAfter_induction (Sound p) es (sound_new p) fun _ e hs => sound_step hs e

end RelayNode

end Ds10Relay

import Mathlib.Tactic
import DS10Link.Relay.Transition

/-!
# The counters of a relay

The counters of a relay are a ledger of its transactions: every request sent, every expiry and
every outcome is booked once. Two branches of the code book an oversized payload where none can
occur; under the cap of the driver's data field neither is ever taken.

## Main definitions

* `RelayNode.Balanced`: the equations between the counters
* `RelayNode.refusals`: the payloads refused in a run
* `RelayNode.WithinCaps`: a callback that takes neither of the two dead branches

## Main results

* `RelayNode.balanced_afterRun`: the ledger balances after every run
* `RelayNode.stats_balance`: with bounded frames it also accounts for every forward
-/

namespace Ds10Relay

open Transaction

namespace RelayNode

/-- The payloads refused in a run, in order. -/
def refusals (p : RelayParams) (es : List Event) : List (List UInt8) :=
  Automaton.collect (step p) (fun n e => (refusedBy p n e).toList) new es

variable {p : RelayParams} {n n' : RelayNode} {e : Event} {out : List Frame}

/-! ## What an event starts and what it refuses -/

theorem startedBy_of_le {payload : List UInt8} (h : offered p n e = some payload)
    (hlen : payload.length ≤ kMaxPayload) : startedBy p n e = some payload := by
  simp [startedBy, h, hlen]

theorem startedBy_of_lt {payload : List UInt8} (h : offered p n e = some payload)
    (hlen : kMaxPayload < payload.length) : startedBy p n e = none := by
  simp [startedBy, h, hlen]

theorem startedBy_of_none (h : offered p n e = none) : startedBy p n e = none := by
  simp [startedBy, h]

theorem refusedBy_of_le {payload : List UInt8} (h : offered p n e = some payload)
    (hlen : payload.length ≤ kMaxPayload) : refusedBy p n e = none := by
  simp [refusedBy, h, hlen]

theorem refusedBy_of_lt {payload : List UInt8} (h : offered p n e = some payload)
    (hlen : kMaxPayload < payload.length) : refusedBy p n e = some payload := by
  simp [refusedBy, h, hlen]

theorem refusedBy_of_none (h : offered p n e = none) : refusedBy p n e = none := by
  simp [refusedBy, h]

@[simp] theorem startedBy_rx (msg : Frame) : startedBy p n (.rx msg) = none := rfl

@[simp] theorem startedBy_timeout : startedBy p n .timeout = none := rfl

@[simp] theorem refusedBy_rx (msg : Frame) : refusedBy p n (.rx msg) = none := rfl

@[simp] theorem refusedBy_timeout : refusedBy p n .timeout = none := rfl

/-- Only an idle node is offered a payload. -/
theorem busy_of_offered {payload : List UInt8} (h : offered p n e = some payload) :
    n.busy = false := by
  cases e <;> simp_all [offered]

/-- A started transaction is offered under the cap. -/
theorem startedBy_eq_some {payload : List UInt8} (h : startedBy p n e = some payload) :
    offered p n e = some payload ∧ payload.length ≤ kMaxPayload := by
  simpa [startedBy] using h

/-! ## The equations that always hold -/

/-- The ledger of a relay that has started `T` transactions. -/
structure Balanced (T : ℕ) (n : RelayNode) : Prop where
  sent_eq : n.sent = n.ok + n.failed + n.retried + n.busy.toNat
  timeouts_eq : n.timeouts + n.badDst = n.failed + n.retried
  transactions_eq : T = n.ok + n.failed + n.busy.toNat

theorem Balanced.transition {T : ℕ} (hb : Balanced T n) (ht : Transition p n e n' out) :
    Balanced (T + (startedBy p n e).toList.length) n' := by
  obtain ⟨hsent, htimeouts, hT⟩ := hb
  cases ht with
  | ignore => exact ⟨hsent, htimeouts, hT⟩
  | noDst h | keep h | refuse h | tooLong h | forward h =>
    -- The outstanding transaction moves to the counter of its outcome.
    have hbusy : n.busy.toNat = 1 := by rw [h.busy]; rfl
    constructor <;> simp only [settled, startedBy_rx, Option.toList_none, List.length_nil,
      Bool.toNat_false] <;> omega
  | decline h =>
    rw [startedBy_of_none h]
    exact ⟨hsent, htimeouts, hT⟩
  | oversize h hlen =>
    rw [startedBy_of_lt h hlen]
    exact ⟨hsent, htimeouts, hT⟩
  | start h hlen =>
    have hidle : n.busy.toNat = 0 := by rw [busy_of_offered h]; rfl
    rw [startedBy_of_le h hlen]
    constructor <;> simp only [openTransaction, Option.toList_some, List.length_singleton,
      Bool.toNat_true] <;> omega
  | idle => exact ⟨hsent, htimeouts, hT⟩
  | retry =>
    constructor <;> simp only [startedBy_timeout, Option.toList_none, List.length_nil] <;> omega
  | giveUp h =>
    have hbusy : n.busy.toNat = 1 := by rw [h]; rfl
    constructor <;> simp only [settled, startedBy_timeout, Option.toList_none, List.length_nil,
      Bool.toNat_false] <;> omega

/-- **The ledger balances after every run**, whatever the frames that arrive. -/
theorem balanced_afterRun (p : RelayParams) (es : List Event) :
    Balanced (transactions p es).length (afterRun p es) := by
  have h : Sound p (afterRun p es) ∧ Balanced (transactions p es).length (afterRun p es) := by
    refine Automaton.collect_induction (fun past n => Sound p n ∧ Balanced past.length n)
      (fun _ _ => trivial) ⟨sound_new p, by constructor <;> rfl⟩ ?_
    rintro past n e ⟨hs, hb⟩ -
    refine ⟨sound_step hs e, ?_⟩
    rw [List.length_append]
    exact hb.transition (step_transition hs e)
  exact h.2

/-! ## What bounded frames add -/

/-- The bookings of a relay that has refused `R` payloads and forwarded none that was too long. -/
structure Exact (R : ℕ) (n : RelayNode) : Prop where
  ok_eq : n.ok = n.forwarded + n.noForward
  oversized_eq : n.oversized = R

/-- A deliverable frame leaves less than the cap behind its header. -/
theorem Answers.length_le {msg : Frame} {dst : UInt8} {payload : List UInt8}
    (h : Answers p n msg dst payload) (he : Event.Deliverable (.rx msg)) :
    payload.length ≤ kMaxData := by
  have hlen : msg.data.length ≤ kMaxData := he
  rw [h.data_eq, length_reply] at hlen
  exact Nat.le_of_add_right_le hlen

theorem Exact.transition {R : ℕ} (hx : Exact R n) (he : e.Deliverable)
    (ht : Transition p n e n' out) : Exact (R + (refusedBy p n e).toList.length) n' := by
  obtain ⟨hok, hover⟩ := hx
  cases ht with
  | ignore | noDst | refuse => exact ⟨hok, hover⟩
  | keep => exact ⟨by simp only [settled]; omega, hover⟩
  -- The one transition that books ok without a forward needs a frame no driver delivers.
  | tooLong h htarget hlen => exact absurd hlen (not_lt.mpr (h.length_le he))
  | forward => exact ⟨by simp only [settled]; omega, hover⟩
  | decline h =>
    rw [refusedBy_of_none h]
    exact ⟨hok, hover⟩
  | oversize h hlen =>
    rw [refusedBy_of_lt h hlen]
    exact ⟨hok, congrArg (· + 1) hover⟩
  | start h hlen =>
    rw [refusedBy_of_le h hlen]
    exact ⟨hok, hover⟩
  | idle | retry | giveUp => exact ⟨hok, hover⟩

theorem exact_afterRun {es : List Event} (hes : ∀ e ∈ es, e.Deliverable) :
    Exact (refusals p es).length (afterRun p es) := by
  have h : Sound p (afterRun p es) ∧ Exact (refusals p es).length (afterRun p es) := by
    refine Automaton.collect_induction (fun past n => Sound p n ∧ Exact past.length n)
      hes ⟨sound_new p, by constructor <;> rfl⟩ ?_
    rintro past n e ⟨hs, hx⟩ he
    refine ⟨sound_step hs e, ?_⟩
    rw [List.length_append]
    exact hx.transition he (step_transition hs e)
  exact h.2

/-- The state in which a callback calls `onTimeout`, if it does. -/
def onTimeoutCall (p : RelayParams) (n : RelayNode) : Event → Option RelayNode
  | .rx _ => none
  | .trigger data => (startedBy p n (.trigger data)).map n.openTransaction
  | .autoTick => (startedBy p n .autoTick).map n.openTransaction
  | .timeout => some { n with timerArmed := false }

/-- The callback takes neither the branch in which a payload no longer fits a request nor the one
in which a payload is too long to forward. -/
structure WithinCaps (p : RelayParams) (n : RelayNode) (e : Event) : Prop where
  build_isSome : ∀ m txn payload, onTimeoutCall p n e = some m →
    (takeAttempt p m).2 = some (txn, payload) → (build txn payload).isSome
  strip_le : ∀ msg, e = .rx msg → (stripReplyHeader msg.data).length ≤ kMaxData

/-- An attempt is made with the payload the node holds. -/
theorem takeAttempt_eq_some {m : RelayNode} {txn : UInt16} {payload : List UInt8}
    (h : (takeAttempt p m).2 = some (txn, payload)) : m.busy = true ∧ payload = m.payload := by
  rcases Bool.eq_false_or_eq_true m.busy with hbusy | hbusy
  · refine ⟨hbusy, ?_⟩
    by_cases hmax : m.attempt > p.maxRetries
    · by_cases hpos : m.attempt > 0 <;> simp [takeAttempt, hbusy, hpos, hmax] at h
    · by_cases hpos : m.attempt > 0 <;> simp [takeAttempt, hbusy, hpos, hmax] at h
      · exact h.2.symm
      · exact h.2.symm
  · simp [takeAttempt, hbusy] at h

theorem withinCaps (hs : Sound p n) (he : e.Deliverable) : WithinCaps p n e := by
  refine ⟨?_, ?_⟩
  · intro m txn payload hm hattempt
    obtain ⟨hbusy, rfl⟩ := takeAttempt_eq_some hattempt
    -- The payload was checked when its transaction was started.
    have hlen : m.payload.length ≤ kMaxPayload := by
      cases e with
      | rx msg => cases hm
      | timeout =>
        injection hm with hm
        subst hm
        exact hs.payload_le hbusy
      | trigger | autoTick =>
        obtain ⟨payload, hstart, rfl⟩ := Option.map_eq_some_iff.mp hm
        exact (startedBy_eq_some hstart).2
    rw [build_of_le hlen]
    rfl
  · rintro msg rfl
    have hlen : msg.data.length ≤ kMaxData := he
    unfold stripReplyHeader
    split
    · exact hlen
    · rw [List.length_drop]
      exact (Nat.sub_le _ _).trans hlen

/-- **The stats line balances.** After a run on deliverable frames every request, expiry, outcome
and transaction is booked, nothing but the refused payloads is booked as oversized, and the next
callback takes neither of the branches that would book anything else there. -/
theorem stats_balance (p : RelayParams) (es : List Event) (hes : ∀ e ∈ es, e.Deliverable) :
    let n := afterRun p es
    (n.sent = n.ok + n.failed + n.retried + n.busy.toNat ∧
      n.timeouts + n.badDst = n.failed + n.retried ∧
      n.ok = n.forwarded + n.noForward ∧
      (transactions p es).length = n.ok + n.failed + n.busy.toNat) ∧
    n.oversized = (refusals p es).length ∧
    ∀ e : Event, e.Deliverable → WithinCaps p n e := by
  intro n
  have hb : Balanced (transactions p es).length n := balanced_afterRun p es
  have hx : Exact (refusals p es).length n := exact_afterRun hes
  refine ⟨⟨hb.sent_eq, hb.timeouts_eq, hx.ok_eq, hb.transactions_eq⟩, hx.oversized_eq, ?_⟩
  intro e he
  exact withinCaps (sound_afterRun p es) he

theorem stats_balance_forwarded_reply :
    let p : RelayParams := ⟨1, 0x10, 2, none, by decide⟩
    let es : List Event := [.trigger [0x68], .timeout,
      .rx { stationId := 1, functionCode := 0x10, data := [0xF1, 0xF2, 0, 1, 2, 0x68] }]
    (∀ e ∈ es, e.Deliverable) ∧ (afterRun p es).forwarded = 1 ∧
      (afterRun p es).sent = (afterRun p es).ok + (afterRun p es).failed +
        (afterRun p es).retried + (afterRun p es).busy.toNat := by
  intro p es
  have hes : ∀ e ∈ es, e.Deliverable := by decide
  exact ⟨hes, by decide, (stats_balance p es hes).1.1⟩

end RelayNode

end Ds10Relay

import Mathlib.Tactic
import DS10Link.Relay.Ledger

/-!
# What a relay publishes

A relay publishes requests for its pending transaction and forwards of the replies to it. The
ledger of its counters bounds the forwards: one needs a transaction that is not yet booked, and
books it.

## Main definitions

* `RelayNode.IsRequest`, `RelayNode.IsForward`: the two kinds of published frames
* `RelayNode.forwardedBy`: the frames published in answer to a received one
* `RelayNode.Counts`: a callback that books an outcome

## Main results

* `RelayNode.one_justified_forward`: every published frame is of one of the two kinds, and every
  transaction causes at most one forward, none once it is booked
-/

namespace Ds10Relay

open Transaction

namespace RelayNode

/-- The frame asks the slave with the pending number and payload of `n`. -/
structure IsRequest (p : RelayParams) (n : RelayNode) (f : Frame) : Prop where
  busy : n.busy = true
  stationId_eq : f.stationId = p.slave1Id
  data_eq : f.data = request n.pendingTxn n.payload

/-- The frame hands on what the slave answered to the pending transaction of `n`. -/
structure IsForward (p : RelayParams) (n : RelayNode) (msg f : Frame) : Prop where
  busy : n.busy = true
  from_slave1 : msg.stationId = p.slave1Id
  data_eq : msg.data = reply n.pendingTxn f.stationId f.data
  functionCode_eq : f.functionCode = msg.functionCode
  isStation : kMinStation ≤ f.stationId ∧ f.stationId ≤ kMaxStation
  ne_slave1 : f.stationId ≠ p.slave1Id

/-- The frames published in answer to a received one. -/
def forwardedBy (p : RelayParams) (n : RelayNode) : Event → List Frame
  | .rx msg => (step p n (.rx msg)).2
  | _ => []

/-- The callback books the outcome of a transaction. -/
def Counts (p : RelayParams) (n : RelayNode) (e : Event) : Prop :=
  (step p n e).1.ok ≠ n.ok ∨ (step p n e).1.failed ≠ n.failed

variable {p : RelayParams} {n n' : RelayNode} {e : Event} {out : List Frame}

/-! ## One callback -/

/-- What is published on receiving a frame hands that frame on. -/
theorem Transition.isForward {msg f : Frame} (ht : Transition p n (.rx msg) n' out)
    (hf : f ∈ out) : IsForward p n msg f := by
  cases ht with
  | forward h htarget hlen =>
    rw [List.mem_singleton.mp hf]
    exact ⟨h.busy, h.stationId_eq, h.data_eq, rfl, isForwardable_iff.mp htarget.isForwardable,
      htarget.ne_slave1Id⟩
  | start h => cases h
  | _ => cases hf

theorem Transition.mem_out (ht : Transition p n e n' out) {f : Frame} (hf : f ∈ out) :
    IsRequest p n' f ∨ ∃ msg, e = .rx msg ∧ IsForward p n msg f := by
  cases ht with
  | start =>
    rw [List.mem_singleton.mp hf]
    exact .inl ⟨rfl, rfl, rfl⟩
  | retry h =>
    rw [List.mem_singleton.mp hf]
    exact .inl ⟨h, rfl, rfl⟩
  | @forward msg _ _ h htarget hlen =>
    exact .inr ⟨msg, rfl, (Transition.forward h htarget hlen).isForward hf⟩
  | _ => cases hf

theorem Transition.length_out_le (ht : Transition p n e n' out) : out.length ≤ 1 := by
  cases ht <;> simp

/-- A forward takes a pending transaction and books it. -/
theorem Transition.forward_books {msg : Frame} (ht : Transition p n (.rx msg) n' out)
    (hout : out ≠ []) : n.busy = true ∧ n'.ok = n.ok + 1 := by
  cases ht with
  | forward h => exact ⟨h.busy, rfl⟩
  | start h => cases h
  | _ => exact absurd rfl hout

/-- Booking an outcome ends the pending transaction. -/
theorem Transition.booked_idle (ht : Transition p n e n' out)
    (hbook : n'.ok ≠ n.ok ∨ n'.failed ≠ n.failed) : n'.busy = false := by
  cases ht with
  | noDst | keep | refuse | tooLong | forward | giveUp => rfl
  | ignore | decline | oversize | start | idle | retry =>
    simp [openTransaction] at hbook

/-- No callback takes a booked outcome back. -/
theorem Transition.outcomes_le (ht : Transition p n e n' out) :
    n.ok + n.failed ≤ n'.ok + n'.failed := by
  cases ht with
  | noDst | refuse | giveUp => exact Nat.add_le_add_left (Nat.le_succ n.failed) n.ok
  | keep | tooLong | forward => exact Nat.add_le_add_right (Nat.le_succ n.ok) n.failed
  | _ => exact le_rfl

theorem counts_of_forward (hs : Sound p n) (h : forwardedBy p n e ≠ []) :
    n.busy = true ∧ Counts p n e := by
  cases e with
  | rx msg =>
    obtain ⟨hbusy, hok⟩ := (step_transition hs (.rx msg)).forward_books h
    exact ⟨hbusy, .inl (by rw [hok]; exact Nat.succ_ne_self n.ok)⟩
  | trigger | autoTick | timeout => exact absurd rfl h

/-! ## Runs -/

theorem afterRun_append_singleton (es : List Event) (e : Event) :
    afterRun p (es ++ [e]) = (step p (afterRun p es) e).1 := by
  simp [afterRun]

theorem outcomes_le_afterRun (es es' : List Event) :
    (afterRun p es).ok + (afterRun p es).failed ≤
      (afterRun p (es ++ es')).ok + (afterRun p (es ++ es')).failed := by
  rw [afterRun, afterRun, Automaton.stateAfter_append]
  refine And.right (Automaton.stateAfter_induction
    (fun m => Sound p m ∧ (afterRun p es).ok + (afterRun p es).failed ≤ m.ok + m.failed) es'
    ⟨sound_afterRun p es, le_rfl⟩ ?_)
  rintro m e ⟨hs, hle⟩
  exact ⟨sound_step hs e, hle.trans (step_transition hs e).outcomes_le⟩

/-- A transaction booked by `e` is not the one pending at any later busy moment. -/
theorem transactions_lt_of_counts {pre mid : List Event}
    (hcount : Counts p (afterRun p pre) e)
    (hbusy : (afterRun p (pre ++ e :: mid)).busy = true) :
    (transactions p (pre ++ [e])).length < (transactions p (pre ++ e :: mid)).length := by
  have hidle : (afterRun p (pre ++ [e])).busy = false := by
    rw [afterRun_append_singleton]
    exact (step_transition (sound_afterRun p pre) e).booked_idle hcount
  -- The ledger counts the transactions: all booked ones, and the outstanding one at the end.
  have h₁ := (balanced_afterRun p (pre ++ [e])).transactions_eq
  have h₂ := (balanced_afterRun p (pre ++ e :: mid)).transactions_eq
  have hle := outcomes_le_afterRun (p := p) (pre ++ [e]) mid
  rw [List.append_assoc, List.singleton_append] at hle
  rw [hidle, Bool.toNat_false] at h₁
  rw [hbusy, Bool.toNat_true] at h₂
  omega

/-- **At most one forward per transaction, always justified.** Whatever happened before, what the
next callback publishes is a request for the transaction pending after it or a forward of a reply
to the one pending before it. A forward belongs to a started transaction, and every callback
before it that forwarded something or booked an outcome belongs to an earlier one. -/
theorem one_justified_forward (p : RelayParams) (es : List Event) (e : Event) :
    let n := afterRun p es
    (∀ f ∈ (step p n e).2,
      IsRequest p (step p n e).1 f ∨ ∃ msg, e = .rx msg ∧ IsForward p n msg f) ∧
    (forwardedBy p n e).length ≤ 1 ∧
    (forwardedBy p n e ≠ [] → transactions p es ≠ [] ∧
      ∀ pre e₀ mid, es = pre ++ e₀ :: mid →
        forwardedBy p (afterRun p pre) e₀ ≠ [] ∨ Counts p (afterRun p pre) e₀ →
        (transactions p (pre ++ [e₀])).length < (transactions p es).length) := by
  intro n
  have hs : Sound p n := sound_afterRun p es
  have ht := step_transition hs e
  refine ⟨?_, ?_, ?_⟩
  · intro f hf
    exact ht.mem_out hf
  · cases e with
    | rx msg => exact ht.length_out_le
    | trigger | autoTick | timeout => exact Nat.zero_le 1
  · intro hforward
    have hbusy := (counts_of_forward hs hforward).1
    refine ⟨?_, ?_⟩
    · -- A busy node has started a transaction.
      intro hnil
      have hT := (balanced_afterRun p es).transactions_eq
      rw [hnil, hbusy] at hT
      simp at hT
    · rintro pre e₀ mid rfl h
      have hcount : Counts p (afterRun p pre) e₀ := by
        rcases h with h | h
        · exact (counts_of_forward (sound_afterRun p pre) h).2
        · exact h
      exact transactions_lt_of_counts hcount hbusy

end RelayNode

end Ds10Relay

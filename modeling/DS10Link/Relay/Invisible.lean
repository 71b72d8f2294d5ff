import Mathlib.Tactic
import DS10Link.Relay.Transition

/-!
# Traffic a relay does not see

A frame from another station, without a header, while idle, or with another number than the
pending one is dropped: it is counted as ignored and changes nothing else. Two runs that differ by
such frames publish the same and end in the same state, up to that count.

## Main definitions

* `RelayNode.Invisible`: the reasons to drop a frame
* `RelayNode.withIgnored`: a state up to the count of ignored frames

## Main results

* `RelayNode.step_withIgnored`: no callback looks at the count of ignored frames
* `RelayNode.invisible_traffic`: inserting invisible frames changes that count alone
-/

namespace Ds10Relay

open Transaction

namespace RelayNode

/-- A frame the relay drops: it comes from another station than the slave that was asked, carries
no complete header, arrives while the node is idle, or carries another number than the pending
one. -/
def Invisible (p : RelayParams) (n : RelayNode) : Event → Prop
  | .rx msg => msg.stationId ≠ p.slave1Id ∨
      (hasHeader msg.data = false ∧ hasReplyHeader msg.data = false) ∨
      n.busy = false ∨ ∃ txn ∈ parseTxn msg.data, txn ≠ n.pendingTxn
  | _ => False

instance (p : RelayParams) (n : RelayNode) : DecidablePred (Invisible p n)
  | .rx msg => inferInstanceAs (Decidable (_ ∨ _ ∨ _ ∨ ∃ txn ∈ parseTxn msg.data, _))
  | .trigger _ | .autoTick | .timeout => inferInstanceAs (Decidable False)

/-- The same state with `k` more frames counted as ignored. -/
def withIgnored (n : RelayNode) (k : ℕ) : RelayNode := { n with ignored := n.ignored + k }

variable {p : RelayParams}

/-- An invisible frame is not the awaited one. -/
theorem Invisible.not_awaits {n : RelayNode} {msg : Frame} (h : Invisible p n (.rx msg)) :
    ¬ Awaits p n msg := by
  rintro ⟨hstation, hbusy, htxn⟩
  rcases h with h | ⟨h₁, h₂⟩ | h | ⟨txn, hgot, h⟩
  · exact h hstation
  · simp [parseTxn, h₁, h₂] at htxn
  · rw [hbusy] at h
    cases h
  · exact h (Option.some.inj (hgot.symm.trans htxn))

/-! ## The count of ignored frames is only written -/

section WithIgnored

variable (p : RelayParams) (n : RelayNode) (k : ℕ)

theorem acceptReply_withIgnored (got : UInt16) :
    (n.withIgnored k).acceptReply got =
      ((n.acceptReply got).1.withIgnored k, (n.acceptReply got).2) := by
  unfold acceptReply withIgnored
  dsimp only
  split
  · simp [Nat.add_right_comm]
  · split
    · simp [Nat.add_right_comm]
    · rfl

theorem forward_withIgnored (dst : UInt8) (payload : List UInt8) (functionCode : UInt8) :
    (n.withIgnored k).forward dst payload functionCode =
      ((n.forward dst payload functionCode).1.withIgnored k,
        (n.forward dst payload functionCode).2) := by
  unfold RelayNode.forward
  split <;> rfl

theorem concludeReply_withIgnored (msg : Frame) :
    concludeReply p (n.withIgnored k) msg =
      ((concludeReply p n msg).1.withIgnored k, (concludeReply p n msg).2) := by
  unfold concludeReply
  cases parseDst msg.data with
  | none => rfl
  | some dst =>
    dsimp only
    split
    · rfl
    · split
      · rfl
      · split
        · rfl
        · -- The timer is cancelled in both, and then the payload is forwarded.
          have hforward := forward_withIgnored { n with timerArmed := false } k dst
            (stripReplyHeader msg.data) msg.functionCode
          exact congrArg (fun r : RelayNode × List Frame => ({ r.1 with ok := r.1.ok + 1 }, r.2))
            hforward

theorem handleReply_withIgnored (msg : Frame) :
    (n.withIgnored k).handleReply p msg =
      ((n.handleReply p msg).1.withIgnored k, (n.handleReply p msg).2) := by
  unfold handleReply
  split
  · simp [withIgnored, Nat.add_right_comm]
  · split
    · simp [withIgnored, Nat.add_right_comm]
    · next got _ =>
      rw [acceptReply_withIgnored]
      rcases n.acceptReply got with ⟨n', _ | _⟩
      · rfl
      · exact concludeReply_withIgnored p n' k msg

theorem takeAttempt_withIgnored :
    takeAttempt p (n.withIgnored k) =
      ((takeAttempt p n).1.withIgnored k, (takeAttempt p n).2) := by
  unfold takeAttempt
  -- Idle, first attempt or later one, attempts left or not: the same branch in both.
  by_cases hbusy : n.busy <;> by_cases hpos : 0 < n.attempt <;>
    by_cases hmax : p.maxRetries < n.attempt <;> simp [withIgnored, hbusy, hpos, hmax]

theorem sendAttempt_withIgnored (txn : UInt16) (payload : List UInt8) :
    sendAttempt p (n.withIgnored k) txn payload =
      ((sendAttempt p n txn payload).1.withIgnored k, (sendAttempt p n txn payload).2) := by
  unfold sendAttempt
  cases build txn payload <;> rfl

theorem onTimeout_withIgnored :
    (n.withIgnored k).onTimeout p = ((n.onTimeout p).1.withIgnored k, (n.onTimeout p).2) := by
  unfold onTimeout
  rw [takeAttempt_withIgnored]
  rcases takeAttempt p n with ⟨n', _ | ⟨txn, payload⟩⟩
  · rfl
  · exact sendAttempt_withIgnored p n' k txn payload

theorem startUnlessBusy_withIgnored (payload : List UInt8) :
    (n.withIgnored k).startUnlessBusy p payload =
      ((n.startUnlessBusy p payload).1.withIgnored k, (n.startUnlessBusy p payload).2) := by
  unfold startUnlessBusy startTransaction
  split
  · next h =>
    rw [if_pos (show n.busy = true from h)]
  · next h =>
    rw [if_neg (show ¬ n.busy = true from h)]
    split
    · rfl
    · exact onTimeout_withIgnored p (n.openTransaction payload) k

/-- **No callback looks at the count of ignored frames.** -/
theorem step_withIgnored (e : Event) :
    step p (n.withIgnored k) e = ((step p n e).1.withIgnored k, (step p n e).2) := by
  cases e with
  | rx msg => exact handleReply_withIgnored p n k msg
  | trigger data => exact startUnlessBusy_withIgnored p n k data
  | autoTick =>
    simp only [step, RelayNode.autoTick]
    cases p.autoPayload with
    | none => rfl
    | some payload => exact startUnlessBusy_withIgnored p n k payload
  | timeout => exact onTimeout_withIgnored p { n with timerArmed := false } k

end WithIgnored

/-! ## Runs -/

/-- An invisible frame is counted and does nothing else. -/
theorem step_invisible {n : RelayNode} {e : Event} (h : Invisible p n e) :
    step p n e = (n.withIgnored 1, []) := by
  cases e with
  | rx msg => exact handleReply_of_not_awaits h.not_awaits
  | trigger | autoTick | timeout => exact h.elim

/-- **Foreign and stale traffic is invisible.** When `k` frames are inserted into a run, each of
them invisible where it arrives, the relay publishes the same frames and ends in the same state,
timer and counters included, except that `k` more frames are counted as ignored. -/
theorem invisible_traffic (p : RelayParams) (es es' : List Event) (k : ℕ)
    (h : Automaton.Inserted (step p) (Invisible p) new es es' k) :
    Automaton.emitted (step p) new es' = Automaton.emitted (step p) new es ∧
      afterRun p es' = { afterRun p es with ignored := (afterRun p es).ignored + k } := by
  have hsim := h.simulation (fun l s t => t = s.withIgnored l) (l := 0) (s := new) ?_ ?_ rfl
  · rw [Nat.zero_add] at hsim
    exact ⟨hsim.2.symm, hsim.1⟩
  · rintro l s _ e rfl
    rw [step_withIgnored]
    exact ⟨rfl, rfl⟩
  · rintro l s t e rfl hV
    rw [step_invisible hV]
    exact ⟨by simp only [withIgnored, Nat.add_assoc], rfl⟩

/-- A frame of another station while idle, a late reply while busy, and a duplicate of the awaited
reply after it was taken. -/
theorem invisible_traffic_duplicate :
    let p : RelayParams := ⟨1, 0x10, 2, none, by decide⟩
    let answer : Frame := { stationId := 1, data := [0xF1, 0xF2, 0, 1, 2, 0x68] }
    let late : Frame := { stationId := 1, data := [0xF1, 0xF2, 0, 9, 2, 0x68] }
    let foreign : Frame := { stationId := 3, data := [0xF1, 0xF2, 0, 1, 2, 0x68] }
    (Automaton.emitted (step p) new [.trigger [0x68], .rx answer]).length = 2 ∧
      Automaton.emitted (step p) new
          [.rx foreign, .trigger [0x68], .rx late, .rx answer, .rx answer] =
        Automaton.emitted (step p) new [.trigger [0x68], .rx answer] := by
  intro p answer late foreign
  have hinserted : Automaton.Inserted (step p) (Invisible p) new [.trigger [0x68], .rx answer]
      [.rx foreign, .trigger [0x68], .rx late, .rx answer, .rx answer] 3 :=
    .insert (by decide) (.keep (.insert (by decide) (.keep (.insert (by decide) (.nil _)))))
  exact ⟨by decide, (invisible_traffic p _ _ 3 hinserted).1⟩

end RelayNode

end Ds10Relay

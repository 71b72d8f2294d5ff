import DS10Link.Threads.Interleave
import DS10Link.Relay.Node

/-!
# Callbacks that overlap

The state of a transaction is guarded by a mutex and the callbacks run concurrently. But a callback
takes the mutex more than once: the busy check and the start of a transaction are two blocks, and
the timer is cancelled and armed outside of them. This module takes the callbacks apart into their
guarded blocks and the statements between them, for any number of threads to interleave.

## Main definitions

* `RelayNode.Stage`, `RelayNode.advance`: the blocks of the callbacks and what they do
* `RelayNode.callbacks`: the callbacks as machines on the state of the node
* `RelayNode.Block`: what a block does to the two flags

## Main results

* `RelayNode.start_alone_eq_step`: a callback that runs alone is a callback of `RelayNode.step`
* `RelayNode.block_advance`: every block is one of a few
-/

namespace Ds10Relay

open Transaction Interleave

namespace RelayNode

/-! ## The callbacks, block by block -/

/-- Where a callback is: about to check whether a transaction is outstanding, to start one, to take
an attempt, to publish it, to arm the timer, or to abort; at the head of the timer's callback; about
to look at a frame, to cancel the timer for an accepted reply, or to book and forward it. -/
inductive Stage where
  | check (payload : List UInt8)
  | start (payload : List UInt8)
  | attempt
  | publish (txn : UInt16) (payload : List UInt8)
  | arm
  | abort
  | expire
  | receive (msg : Frame)
  | cancelReply (msg : Frame)
  | book (msg : Frame)
  deriving DecidableEq, Repr

/-- Where the callback for an event begins. Without an auto timer there is no auto tick. -/
def enter (p : RelayParams) : Event → Option Stage
  | .rx msg => some (.receive msg)
  | .trigger data => some (.check data)
  | .autoTick => p.autoPayload.map .check
  | .timeout => some .expire

/-- What `handleReply` does with an accepted reply once the timer is cancelled. -/
def bookReply (p : RelayParams) (n : RelayNode) (msg : Frame) : RelayNode × List Frame :=
  match parseDst msg.data with
  | none => ({ n with badDst := n.badDst + 1, failed := n.failed + 1 }, [])
  | some dst =>
    let payload := stripReplyHeader msg.data
    if dst = kNoForward then ({ n with noForward := n.noForward + 1, ok := n.ok + 1 }, [])
    else if !isForwardable dst then
      ({ n with badDst := n.badDst + 1, failed := n.failed + 1 }, [])
    else if dst = p.slave1Id then
      ({ n with badDst := n.badDst + 1, failed := n.failed + 1 }, [])
    else
      let r := forward n dst payload msg.functionCode
      ({ r.1 with ok := r.1.ok + 1 }, r.2)

/-- One block of a callback: the node after it, where the callback goes on, and what it
publishes. -/
def advance (p : RelayParams) (n : RelayNode) :
    Stage → RelayNode × Option Stage × List Frame
  | .check payload => if n.busy then (n, none, []) else (n, some (.start payload), [])
  | .start payload =>
    if payload.length > kMaxPayload then ({ n with oversized := n.oversized + 1 }, none, [])
    else (openTransaction n payload, some .attempt, [])
  | .attempt =>
    match takeAttempt p n with
    | (n', none) => (n', none, [])
    | (n', some (txn, payload)) => (n', some (.publish txn payload), [])
  | .publish txn payload =>
    match build txn payload with
    | none => ({ n with oversized := n.oversized + 1 }, some .abort, [])
    | some framed => ({ n with sent := n.sent + 1 }, some .arm, [requestFrame p txn framed])
  | .arm => ({ n with timerArmed := true }, none, [])
  | .abort => ({ n with busy := false }, none, [])
  | .expire => ({ n with timerArmed := false }, some .attempt, [])
  | .receive msg =>
    if msg.stationId ≠ p.slave1Id then ({ n with ignored := n.ignored + 1 }, none, [])
    else
      match parseTxn msg.data with
      | none => ({ n with ignored := n.ignored + 1 }, none, [])
      | some got =>
        match acceptReply n got with
        | (n', false) => (n', none, [])
        | (n', true) => (n', some (.cancelReply msg), [])
  | .cancelReply msg => ({ n with timerArmed := false }, some (.book msg), [])
  | .book msg =>
    let r := bookReply p n msg
    (r.1, none, r.2)

/-- The callbacks of a relay, as machines on its state. -/
def callbacks (p : RelayParams) : Callbacks RelayNode Stage Event Frame where
  enter := enter p
  advance := advance p

@[simp] theorem callbacks_enter (p : RelayParams) (e : Event) :
    (callbacks p).enter e = enter p e := rfl

@[simp] theorem callbacks_advance (p : RelayParams) (n : RelayNode) (k : Stage) :
    (callbacks p).advance n k = advance p n k := rfl

/-! ## A callback that runs alone -/

variable {p : RelayParams} {n : RelayNode}

theorem runAlone_attempt (k : ℕ) (n : RelayNode) :
    runAlone (callbacks p) (k + 3) n (some .attempt) =
      (((onTimeout p n).1, none), (onTimeout p n).2) := by
  rcases htake : takeAttempt p n with ⟨n', _ | ⟨txn, payload⟩⟩
  · have hend : advance p n .attempt = (n', none, []) := by simp only [advance, htake]
    rw [runAlone_end hend, onTimeout, htake]
  · have hnext : advance p n .attempt = (n', some (.publish txn payload), []) := by
      simp only [advance, htake]
    rw [runAlone_next hnext, onTimeout, htake, runAlone_some, callbacks_advance]
    cases hbuild : build txn payload with
    | none =>
      simp only [advance, sendAttempt, hbuild, List.nil_append]
      exact runAlone_end rfl _
    | some framed =>
      simp only [advance, sendAttempt, hbuild]
      rw [runAlone_end rfl]
      rfl

theorem runAlone_check (k : ℕ) (n : RelayNode) (payload : List UInt8) :
    runAlone (callbacks p) (k + 5) n (some (.check payload)) =
      (((startUnlessBusy p n payload).1, none), (startUnlessBusy p n payload).2) := by
  cases hbusy : n.busy with
  | true =>
    have hend : advance p n (.check payload) = (n, none, []) := by
      simp only [advance, hbusy, if_true]
    rw [runAlone_end hend, startUnlessBusy, if_pos hbusy]
  | false =>
    have hpass : advance p n (.check payload) = (n, some (.start payload), []) := by
      simp only [advance, hbusy, Bool.false_eq_true, if_false]
    rw [runAlone_next hpass, startUnlessBusy, if_neg (by simp [hbusy]), startTransaction]
    by_cases hlen : payload.length > kMaxPayload
    · have hend : advance p n (.start payload) =
          ({ n with oversized := n.oversized + 1 }, none, []) := by
        simp only [advance, hlen, if_true]
      rw [runAlone_end hend, if_pos hlen]
    · have hopen : advance p n (.start payload) =
          (openTransaction n payload, some .attempt, []) := by
        simp only [advance, hlen, if_false]
      rw [runAlone_next hopen, if_neg hlen, runAlone_attempt]

theorem runAlone_receive (k : ℕ) (n : RelayNode) (msg : Frame) :
    runAlone (callbacks p) (k + 3) n (some (.receive msg)) =
      (((handleReply p n msg).1, none), (handleReply p n msg).2) := by
  by_cases hstation : msg.stationId ≠ p.slave1Id
  · have hend : advance p n (.receive msg) = ({ n with ignored := n.ignored + 1 }, none, []) := by
      rw [advance, if_pos hstation]
    rw [runAlone_end hend, handleReply, if_pos hstation]
  · cases hparse : parseTxn msg.data with
    | none =>
      have hend : advance p n (.receive msg) =
          ({ n with ignored := n.ignored + 1 }, none, []) := by
        simp only [advance, hstation, hparse, if_false]
      rw [runAlone_end hend]
      simp only [handleReply, hstation, hparse, if_false]
    | some got =>
      rcases haccept : acceptReply n got with ⟨n', _ | _⟩
      · have hend : advance p n (.receive msg) = (n', none, []) := by
          simp only [advance, hstation, hparse, haccept, if_false]
        rw [runAlone_end hend]
        simp only [handleReply, hstation, hparse, haccept, if_false]
      · have hnext : advance p n (.receive msg) = (n', some (.cancelReply msg), []) := by
          simp only [advance, hstation, hparse, haccept, if_false]
        have hreply : handleReply p n msg = concludeReply p n' msg := by
          simp only [handleReply, hstation, hparse, haccept, if_false]
        -- The timer is cancelled, then the reply is booked.
        rw [runAlone_next hnext, runAlone_next rfl, runAlone_end rfl, hreply]
        rfl

/-- **Alone, a callback is what it is without threads**: its blocks in sequence make the step of the
node. -/
theorem start_alone_eq_step {τ : Type} [DecidableEq τ] (p : RelayParams) (n : RelayNode) (e : Event)
    (t : τ) :
    Automaton.stateAfter (Interleave.step (callbacks p)) (.quiet n)
          (.start t e :: List.replicate 5 (.resume t)) = .quiet (step p n e).1 ∧
      Automaton.emitted (Interleave.step (callbacks p)) (.quiet n)
          (.start t e :: List.replicate 5 (.resume t)) = (step p n e).2 := by
  refine start_alone ?_ t
  cases e with
  | rx msg => exact runAlone_receive 2 n msg
  | trigger data => exact runAlone_check 0 n data
  | autoTick =>
    cases hauto : p.autoPayload with
    | none =>
      simp only [callbacks_enter, enter, step, autoTick, hauto, Option.map_none, runAlone_none]
    | some payload =>
      simp only [callbacks_enter, enter, step, autoTick, hauto, Option.map_some,
        runAlone_check 0 n payload]
  | timeout => exact runAlone_attempt 1 { n with timerArmed := false }

/-! ## What a block can do -/

/-- The callback is between its busy check and the guarded block that starts its transaction. -/
def Stage.starts : Stage → Bool
  | .start payload => decide (payload.length ≤ kMaxPayload)
  | _ => false

/-- The callback is on its way through `onTimeout`: it will arm the timer or leave the node idle. -/
def Stage.settles : Stage → Bool
  | .attempt | .publish _ _ | .arm | .abort | .expire => true
  | _ => false

/-- What a block does to the two flags, by where the callback is and where it goes on. -/
inductive Block (n n' : RelayNode) : Stage → Option Stage → Prop
  | passed {payload : List UInt8} : n.busy = false → n' = n →
      Block n n' (.check payload) (some (.start payload))
  | opened {payload : List UInt8} : payload.length ≤ kMaxPayload → n'.timerArmed = n.timerArmed →
      Block n n' (.start payload) (some .attempt)
  | taken {txn : UInt16} {payload : List UInt8} : n'.busy = n.busy →
      n'.timerArmed = n.timerArmed → Block n n' .attempt (some (.publish txn payload))
  | gaveUp : n'.busy = false → Block n n' .attempt none
  | published {txn : UInt16} {payload : List UInt8} : n'.busy = n.busy →
      n'.timerArmed = n.timerArmed → Block n n' (.publish txn payload) (some .arm)
  | refused {txn : UInt16} {payload : List UInt8} : n'.busy = n.busy →
      n'.timerArmed = n.timerArmed → Block n n' (.publish txn payload) (some .abort)
  | armed : n'.busy = n.busy → n'.timerArmed = true → Block n n' .arm none
  | aborted : n'.busy = false → Block n n' .abort none
  | expired : n'.busy = n.busy → Block n n' .expire (some .attempt)
  | accepted {msg : Frame} : n'.busy = false → Block n n' (.receive msg) (some (.cancelReply msg))
  | cancelled {msg : Frame} : n'.busy = n.busy →
      Block n n' (.cancelReply msg) (some (.book msg))
  | ended {k : Stage} : k.starts = false → k.settles = false → n'.busy = n.busy →
      n'.timerArmed = n.timerArmed → Block n n' k none

theorem block_attempt (p : RelayParams) (n : RelayNode) :
    Block n (advance p n .attempt).1 .attempt (advance p n .attempt).2.1 := by
  unfold advance takeAttempt
  cases hbusy : n.busy with
  | false => exact .gaveUp hbusy
  | true =>
    by_cases hretry : n.attempt > 0 <;> by_cases hspent : n.attempt > p.maxRetries <;>
      simp only [hretry, hspent, Bool.not_true, Bool.false_eq_true, if_true, if_false]
    · exact .gaveUp rfl
    · exact .taken hbusy.symm rfl
    · exact .gaveUp rfl
    · exact .taken rfl rfl

theorem block_receive (p : RelayParams) (n : RelayNode) (msg : Frame) :
    Block n (advance p n (.receive msg)).1 (.receive msg) (advance p n (.receive msg)).2.1 := by
  unfold advance acceptReply
  dsimp only
  split
  · exact .ended rfl rfl rfl rfl
  · split
    · exact .ended rfl rfl rfl rfl
    · split_ifs
      · exact .ended rfl rfl rfl rfl
      · exact .ended rfl rfl rfl rfl
      · exact .accepted rfl

/-- Booking a reply changes counters only. -/
theorem bookReply_same (p : RelayParams) (n : RelayNode) (msg : Frame) :
    (bookReply p n msg).1.busy = n.busy ∧ (bookReply p n msg).1.timerArmed = n.timerArmed := by
  unfold bookReply forward
  split
  · exact ⟨rfl, rfl⟩
  · dsimp only
    split_ifs <;> exact ⟨rfl, rfl⟩

/-- **Every block is one of these.** -/
theorem block_advance (p : RelayParams) (n : RelayNode) (k : Stage) :
    Block n (advance p n k).1 k (advance p n k).2.1 := by
  cases k with
  | check payload =>
    cases hbusy : n.busy with
    | true =>
      simp only [advance, hbusy, if_true]
      exact .ended rfl rfl rfl rfl
    | false =>
      simp only [advance, hbusy, Bool.false_eq_true, if_false]
      exact .passed hbusy rfl
  | start payload =>
    by_cases hlen : payload.length > kMaxPayload
    · simp only [advance, hlen, if_true]
      exact .ended (decide_eq_false (not_le.mpr hlen)) rfl rfl rfl
    · simp only [advance, hlen, if_false]
      exact .opened (not_lt.mp hlen) rfl
  | attempt => exact block_attempt p n
  | publish txn payload =>
    cases hbuild : build txn payload with
    | none =>
      simp only [advance, hbuild]
      exact .refused rfl rfl
    | some framed =>
      simp only [advance, hbuild]
      exact .published rfl rfl
  | arm => exact .armed rfl rfl
  | abort => exact .aborted rfl
  | expire => exact .expired rfl
  | receive msg => exact block_receive p n msg
  | cancelReply msg => exact .cancelled rfl
  | book msg =>
    obtain ⟨hbusy, htimer⟩ := bookReply_same p n msg
    exact .ended rfl rfl hbusy htimer

section Block

variable {n' : RelayNode} {k l : Stage} {next : Option Stage}

/-- Only a busy check leads to the start of a transaction. -/
theorem Block.starts (h : Block n n' k next) (hl : l ∈ next) (hstarts : l.starts = true) :
    n.busy = false ∧ n' = n ∧ ∃ payload, k = .check payload ∧ payload.length ≤ kMaxPayload := by
  cases h with
  | @passed payload hbusy hsame =>
    obtain rfl : Stage.start payload = l := Option.some.inj hl
    exact ⟨hbusy, hsame, payload, rfl, of_decide_eq_true hstarts⟩
  | opened | taken | published | refused | expired | accepted | cancelled =>
    rw [← Option.some.inj hl] at hstarts
    cases hstarts
  | gaveUp | armed | aborted | ended => cases hl

/-- Only the start of a transaction makes the node busy. -/
theorem Block.busy (h : Block n n' k next) (hbusy : n'.busy = true) :
    n.busy = true ∨ k.starts = true := by
  cases h with
  | opened hlen _ => exact .inr (decide_eq_true hlen)
  | passed _ hsame => exact .inl (hsame ▸ hbusy)
  | gaveUp hidle | aborted hidle | accepted hidle =>
    rw [hidle] at hbusy
    cases hbusy
  | taken hsame _ | published hsame _ | refused hsame _ | armed hsame _ | expired hsame
  | cancelled hsame | ended _ _ hsame _ => exact .inl (hsame ▸ hbusy)

/-- A callback that starts a transaction or is on its way through `onTimeout` stays on it until the
timer is armed or the node is idle. -/
theorem Block.settles (h : Block n n' k next) (hk : k.starts = true ∨ k.settles = true)
    (hbusy : n'.busy = true) : n'.timerArmed = true ∨ ∃ l ∈ next, l.settles = true := by
  cases h with
  | opened | expired => exact .inr ⟨.attempt, rfl, rfl⟩
  | @taken txn payload => exact .inr ⟨.publish txn payload, rfl, rfl⟩
  | published => exact .inr ⟨.arm, rfl, rfl⟩
  | refused => exact .inr ⟨.abort, rfl, rfl⟩
  | armed _ harmed => exact .inl harmed
  | gaveUp hidle | aborted hidle | accepted hidle =>
    rw [hidle] at hbusy
    cases hbusy
  | passed | cancelled => exact absurd hk (by simp [Stage.starts, Stage.settles])
  | ended hstarts hsettles _ _ =>
    rw [hstarts, hsettles] at hk
    exact absurd hk (by simp)

/-- Only an expiry and an accepted reply cancel the timer. -/
theorem Block.timerArmed (h : Block n n' k next) (hk : k.settles = false)
    (hcancel : ∀ msg, k ≠ .cancelReply msg) (hbusy : n'.busy = true)
    (harmed : n.timerArmed = true) : n'.timerArmed = true := by
  cases h with
  | passed _ hsame => rw [hsame, harmed]
  | opened _ hsame => rw [hsame, harmed]
  | accepted hidle =>
    rw [hidle] at hbusy
    cases hbusy
  | cancelled => exact absurd rfl (hcancel _)
  | ended _ _ _ hsame => rw [hsame, harmed]
  | taken | gaveUp | published | refused | armed | aborted | expired => cases hk

/-- The timer is about to be cancelled for a reply only after the node was left idle. -/
theorem Block.cancels {msg : Frame} (h : Block n n' k next) (hl : next = some (.cancelReply msg)) :
    n'.busy = false := by
  cases h with
  | accepted hidle => exact hidle
  | passed | opened | taken | published | refused | expired | cancelled =>
    cases Option.some.inj hl
  | gaveUp | armed | aborted | ended => cases hl

end Block

end RelayNode

end Ds10Relay

import DS10Link.Driver.RoundTrip
import DS10Link.Driver.Node

/-!
# What reaches the wire

A transmit callback encodes its message and writes the frame while it holds the lock on the port.
Whatever the device does with the writes, the bytes that go out are those of the calls one after
the other: a whole frame for each call that is counted, a proper prefix of a frame for each call
whose write fails, nothing for a call that is rejected or finds the link down.

## Main definitions

* `Ds10Node.TxEnd`: the four ways a call can end
* `Ds10Node.Sends p n msg n' ending part`: a call sends `part` and ends so
* `Ds10Node.Transmits p d n es log`: what the calls of a run send, in order

## Main results

* `Ds10Node.sends_onTx`: every call ends in one of the four ways
* `Ds10Node.wire_afterRun`: the wire after every run
-/

open Automaton

namespace Ds10Driver

namespace Ds10Node

/-- The ways a transmit callback can end. -/
inductive TxEnd where
  | counted
  | writeFailed
  | rejected
  | linkDown
  deriving DecidableEq, Repr

/-- The bytes a call may send, by the way it ends. -/
def TxEnd.Allows (p : NodeParams) (n : Ds10Node) (msg : FrameMsg) (part : List UInt8) :
    TxEnd → Prop
  | .counted =>
    n.connected ∧ n.codec.encode (txStation p msg) msg.functionCode msg.data = some part
  | .writeFailed => n.connected ∧
    ∃ frame, n.codec.encode (txStation p msg) msg.functionCode msg.data = some frame ∧
      part <+: frame ∧ part ≠ frame
  | .rejected =>
    n.codec.encode (txStation p msg) msg.functionCode msg.data = none ∧ part = []
  | .linkDown => ¬ n.connected ∧ part = []

/-- **A call of `onTx`** takes `n` to `n'`: it ends in the way `ending`, with the bytes `part` sent
behind those sent before, and is counted accordingly. -/
structure Sends (p : NodeParams) (n : Ds10Node) (msg : FrameMsg) (n' : Ds10Node) (ending : TxEnd)
    (part : List UInt8) : Prop where
  allows : ending.Allows p n msg part
  sent : n'.serial.sent = n.serial.sent ++ part
  txFrames : n'.txFrames = n.txFrames + if ending = .counted then 1 else 0
  txRejected : n'.txRejected = n.txRejected + if ending = .rejected then 1 else 0

/-- The calls of a run from `n` on end and send as `log` says, in order. -/
def Transmits (p : NodeParams) (d : Device) (n : Ds10Node) :
    List Event → List (TxEnd × List UInt8) → Prop
  | [], log => log = []
  | .reader env :: es, log => Transmits p d (step p d n (.reader env)).1 es log
  | .tx msg :: es, log =>
    ∃ ending part later, log = (ending, part) :: later ∧
      Sends p n msg (step p d n (.tx msg)).1 ending part ∧
      Transmits p d (step p d n (.tx msg)).1 es later

variable {p : NodeParams} {d : Device}

/-- **Every call ends in one of the four ways.** -/
theorem sends_onTx (p : NodeParams) (d : Device) (n : Ds10Node) (msg : FrameMsg) :
    ∃ ending part, Sends p n msg (n.onTx p d msg) ending part := by
  cases hencode : n.codec.encode (txStation p msg) msg.functionCode msg.data with
  | none =>
    refine ⟨.rejected, [], ⟨hencode, rfl⟩, ?_, ?_, ?_⟩ <;> simp [onTx, hencode]
  | some frame =>
    cases hconnected : n.connected with
    | false =>
      refine ⟨.linkDown, [], ⟨by simp [hconnected], rfl⟩, ?_, ?_, ?_⟩ <;>
        simp [onTx, hencode, hconnected]
    | true =>
      have hne : frame ≠ [] := by
        have hlen := ModbusFrameCodec.length_of_encode hencode
        rintro rfl
        cases hlen
      obtain ⟨part, hsent, hprefix, hall⟩ := n.serial.write_spec d hne
      cases hwrite : (n.serial.write d frame).2 with
      | true =>
        obtain rfl := hall.mp hwrite
        refine ⟨.counted, part, ⟨hconnected, hencode⟩, ?_, ?_, ?_⟩ <;>
          simp [onTx, hencode, hconnected, hwrite, hsent]
      | false =>
        have hproper : part ≠ frame := fun heq => by
          rw [hall.mpr heq] at hwrite
          cases hwrite
        refine ⟨.writeFailed, part, ⟨hconnected, frame, hencode, hprefix, hproper⟩, ?_, ?_, ?_⟩ <;>
          simp [onTx, hencode, hconnected, hwrite, hsent]

/-- The blocks of the reader send nothing and count nothing. -/
theorem readerBlock_sent (p : NodeParams) (n : Ds10Node) (env : Env) :
    (n.readerBlock p env).1.serial.sent = n.serial.sent ∧
      (n.readerBlock p env).1.txFrames = n.txFrames ∧
      (n.readerBlock p env).1.txRejected = n.txRejected := by
  unfold readerBlock
  rcases n.reader with _ | _ | _ | chunk
  · obtain ⟨connected, codec, havePending, reader, hconnect⟩ := connect_eq p n env.opening
    cases n.connected with
    | true => exact ⟨rfl, rfl, rfl⟩
    | false => simp [hconnect]
  · obtain ⟨reader, hpoll⟩ := poll_eq n env.reading
    simp [hpoll]
  · exact ⟨rfl, rfl, rfl⟩
  · obtain ⟨codec, lastRx, havePending, rxFrames, rxFiltered, rxSeq, hhandle⟩ :=
      handle_eq p n chunk env.now
    simp [hhandle]

/-- The wire after a run from any state. -/
theorem exists_transmits (p : NodeParams) (d : Device) (n : Ds10Node) (es : List Event) :
    ∃ log, Transmits p d n es log ∧
      (stateAfter (step p d) n es).serial.sent =
        n.serial.sent ++ (log.map Prod.snd).flatten ∧
      (stateAfter (step p d) n es).txFrames =
        n.txFrames + log.countP (fun entry => entry.1 = .counted) ∧
      (stateAfter (step p d) n es).txRejected =
        n.txRejected + log.countP (fun entry => entry.1 = .rejected) := by
  induction es generalizing n with
  | nil => exact ⟨[], rfl, by simp, rfl, rfl⟩
  | cons e es ih =>
    cases e with
    | reader env =>
      obtain ⟨hsent, hframes, hrejected⟩ := readerBlock_sent p n env
      obtain ⟨log, hlog, hsent', hframes', hrejected'⟩ := ih (n.readerBlock p env).1
      refine ⟨log, hlog, ?_, ?_, ?_⟩
      · rw [← hsent]
        exact hsent'
      · rw [← hframes]
        exact hframes'
      · rw [← hrejected]
        exact hrejected'
    | tx msg =>
      obtain ⟨ending, part, hsends⟩ := sends_onTx p d n msg
      obtain ⟨log, hlog, hsent', hframes', hrejected'⟩ := ih (n.onTx p d msg)
      refine ⟨(ending, part) :: log, ⟨ending, part, log, rfl, hsends, hlog⟩, ?_, ?_, ?_⟩
      · rw [List.map_cons, List.flatten_cons, ← List.append_assoc, ← hsends.sent]
        exact hsent'
      · refine hframes'.trans ?_
        rw [hsends.txFrames, List.countP_cons]
        simp only [decide_eq_true_eq]
        omega
      · refine hrejected'.trans ?_
        rw [hsends.txRejected, List.countP_cons]
        simp only [decide_eq_true_eq]
        omega

/-- **What reaches the wire**, after every run: the bytes written to the port are what the calls of
`onTx` send, in order, and the counters count the calls that end so. -/
theorem wire_afterRun (p : NodeParams) (d : Device) (start : ℤ) (es : List Event) :
    ∃ log, Transmits p d (new p start) es log ∧
      (afterRun p d start es).serial.sent = (log.map Prod.snd).flatten ∧
      (afterRun p d start es).txFrames = log.countP (fun entry => entry.1 = .counted) ∧
      (afterRun p d start es).txRejected = log.countP (fun entry => entry.1 = .rejected) := by
  obtain ⟨log, hlog, hsent, hframes, hrejected⟩ := exists_transmits p d (new p start) es
  refine ⟨log, hlog, hsent, ?_, ?_⟩
  · rw [afterRun, hframes]
    exact Nat.zero_add _
  · rw [afterRun, hrejected]
    exact Nat.zero_add _

end Ds10Node

end Ds10Driver

import Mathlib.Tactic
import DS10Link.Stream.Automaton
import DS10Link.Driver.FrameScanner
import DS10Link.Driver.SerialPort

/-!
# The driver node

`Ds10Node` bridges one serial port to two topics. Its reader thread opens the port, polls it, feeds
what arrives to the codec and publishes the frames; after a short silence it drops what the codec
holds back. The callback of the transmit topic encodes a message and writes it. The two share the
port under a lock, so a run of the node is a sequence of their blocks in any order: the reader's in
the order of its loop, a callback's between any two of them.

## Main definitions

* `NodeParams`, `configure`: the parameters, checked
* `Ds10Node`: the state, with the place of the reader in its loop
* `Ds10Node.publishFrame`, `Ds10Node.onTx`: filter and publish a frame; encode and write a message
* `Ds10Node.readerBlock`: the next block of the reader
* `Ds10Node.step`: the node as an automaton whose outputs are the published messages
-/

namespace Ds10Driver

/-! ## Parameters -/

inductive Role where
  | kMaster
  | kSlave
  deriving DecidableEq, Repr

/-- The parameters as declared, with their defaults. -/
structure NodeOptions where
  port : String := "/dev/ttyUSB0"
  baud : ℤ := 115200
  role : String := "master"
  stationId : ℤ := 0
  frameTimeoutMs : ℤ := 20
  maxFrameBytes : ℤ := 4095

/-- The parameters as resolved. A slave has a legal station, and the cap is one a frame can
have. -/
structure NodeParams where
  port : String
  baud : ℤ
  role : Role
  stationId : UInt8
  frameTimeoutMs : ℤ
  maxFrameLen : ℕ
  isStation : role = .kSlave → IsStation stationId
  min_le : kMinFrameLen ≤ maxFrameLen
  le_max : maxFrameLen ≤ kMaxFrameLen

/-- The role of a name. -/
def roleOf (name : String) : Option Role :=
  if name = "master" then some .kMaster else if name = "slave" then some .kSlave else none

/-- A station number in range is a station byte. -/
theorem isStation_ofNat {station : ℤ} (h : ¬ (station < 1 ∨ station > 247)) :
    IsStation (UInt8.ofNat station.toNat) := by
  have hfit : station.toNat < 256 := by omega
  rw [IsStation, UInt8.le_iff_toNat_le, UInt8.le_iff_toNat_le, UInt8.toNat_ofNat_of_lt' hfit]
  constructor
  · change 1 ≤ station.toNat
    omega
  · change station.toNat ≤ 247
    omega

/-- The constructor: check the parameters in their order, or say which is wrong. -/
def configure (o : NodeOptions) : Except String NodeParams :=
  match roleOf o.role with
  | none => .error ("role must be 'master' or 'slave', got: " ++ o.role)
  | some role =>
    if hst : role = .kSlave ∧ (o.stationId < 1 ∨ o.stationId > 247) then
      .error ("slave role requires station_id in 1..247, got: " ++ toString o.stationId)
    else if hmax : o.maxFrameBytes < kMinFrameLen ∨ o.maxFrameBytes > kMaxFrameLen then
      .error ("max_frame_bytes must be in 4..4095, got: " ++ toString o.maxFrameBytes)
    else
      .ok
        { port := o.port
          baud := o.baud
          role := role
          -- A master keeps the member's initial value.
          stationId := if role = .kSlave then UInt8.ofNat o.stationId.toNat else 0
          frameTimeoutMs := o.frameTimeoutMs
          maxFrameLen := o.maxFrameBytes.toNat
          isStation := fun hrole => by
            rw [if_pos hrole]
            exact isStation_ofNat fun h => hst ⟨hrole, h⟩
          min_le := by omega
          le_max := by omega }

/-- The declared defaults pass their own checks. -/
theorem configure_default : ∃ p, configure {} = .ok p := ⟨_, rfl⟩

/-! ## The node -/

/-- A message on the driver's topics, without its time stamp. -/
structure FrameMsg where
  frameId : String := ""
  stationId : UInt8 := 0
  functionCode : UInt8 := 0
  data : List UInt8 := []
  txSeq : UInt32 := 0
  rxSeq : UInt32 := 0
  deriving DecidableEq, Repr

/-- Where the reader is in its loop: at the head, about to read, about to close after a failed read,
or about to handle a chunk. -/
inductive ReaderAt where
  | loopHead
  | toRead
  | toClose
  | toHandle (chunk : List UInt8)
  deriving DecidableEq, Repr

/-- The state of a node. The counters count in `ℕ`, without their 64-bit wrap; the sequence number
wraps. Times are in nanoseconds. -/
structure Ds10Node where
  codec : ModbusFrameCodec
  lastRx : ℤ
  serial : SerialPort := {}
  connected : Bool := false
  havePending : Bool := false
  reader : ReaderAt := .loopHead
  rxFrames : ℕ := 0
  rxFiltered : ℕ := 0
  txFrames : ℕ := 0
  txRejected : ℕ := 0
  rxSeq : UInt32 := 0

namespace Ds10Node

/-- A node as constructed, its reader started at the time `start`. -/
def new (p : NodeParams) (start : ℤ) : Ds10Node where
  codec := .new p.maxFrameLen
  lastRx := start

/-! ## Receiving -/

/-- The message a frame is published as. -/
def message (p : NodeParams) (frame : DecodedFrame) (seq : UInt32) : FrameMsg where
  frameId := p.port
  -- A slave says 0 for "from the master".
  stationId := if p.role = .kMaster then frame.station else 0
  functionCode := frame.functionCode
  data := frame.data
  rxSeq := seq

/-- A slave surfaces only the frames addressed to its station; a master accepts every one. -/
def publishFrame (p : NodeParams) (n : Ds10Node) (frame : DecodedFrame) :
    Ds10Node × List FrameMsg :=
  if p.role = .kSlave ∧ frame.station ≠ p.stationId then
    ({ n with rxFiltered := n.rxFiltered + 1 }, [])
  else
    ({ n with rxSeq := n.rxSeq + 1, rxFrames := n.rxFrames + 1 },
      [message p frame (n.rxSeq + 1)])

/-- Publish the frames of one `feed`, in order. -/
def publishFrames (p : NodeParams) (n : Ds10Node) : List DecodedFrame → Ds10Node × List FrameMsg
  | [] => (n, [])
  | frame :: frames =>
    let r := publishFrame p n frame
    let r' := publishFrames p r.1 frames
    (r'.1, r.2 ++ r'.2)

/-- The silence so far, in whole milliseconds. -/
def idleMs (n : Ds10Node) (now : ℤ) : ℤ := (now - n.lastRx).tdiv 1000000

/-- An empty read ends a burst when bytes are held back and the silence has lasted. -/
def endsBurst (p : NodeParams) (n : Ds10Node) (now : ℤ) : Bool :=
  n.havePending && decide (0 < n.codec.buffered) && decide (p.frameTimeoutMs ≤ n.idleMs now)

/-- The block at the head of the loop when the port is not connected. -/
def connect (p : NodeParams) (n : Ds10Node) (r : SysOpen) : Ds10Node :=
  let s := n.serial.openDevice p.port p.baud r
  if s.2 then
    { n with
      serial := s.1
      connected := true
      codec := n.codec.flushPartial
      havePending := false
      reader := .toRead }
  else { n with serial := s.1 }

/-- The block that reads. -/
def poll (n : Ds10Node) (r : SysRead) : Ds10Node :=
  let s := n.serial.read r
  match s.2.1 with
  | .kDisconnected => { n with serial := s.1, reader := .toClose }
  | .kOk => { n with serial := s.1, reader := .toHandle s.2.2 }

/-- The block that closes after a failed read. What the codec holds back stays. -/
def disconnect (n : Ds10Node) : Ds10Node :=
  { n with serial := n.serial.close, connected := false, reader := .loopHead }

/-- The rest of an iteration: decode and publish, or look whether the burst is over. -/
def handle (p : NodeParams) (n : Ds10Node) (chunk : List UInt8) (now : ℤ) :
    Ds10Node × List FrameMsg :=
  if chunk ≠ [] then
    let r := n.codec.feed chunk
    let s := publishFrames p { n with codec := r.1 } r.2
    ({ s.1 with
        lastRx := now
        havePending := decide (0 < r.1.buffered)
        reader := .loopHead }, s.2)
  else if n.endsBurst p now then
    ({ n with codec := n.codec.flushPartial, havePending := false, reader := .loopHead }, [])
  else ({ n with reader := .loopHead }, [])

/-- What the reader meets in its next block: the answer to an open, the answer to a read, and the
time. -/
structure Env where
  opening : SysOpen
  reading : SysRead
  now : ℤ

/-- The next block of `reader_loop`. -/
def readerBlock (p : NodeParams) (n : Ds10Node) (env : Env) : Ds10Node × List FrameMsg :=
  match n.reader with
  | .loopHead =>
    if !n.connected then (n.connect p env.opening, []) else ({ n with reader := .toRead }, [])
  | .toRead => (n.poll env.reading, [])
  | .toClose => (n.disconnect, [])
  | .toHandle chunk => n.handle p chunk env.now

/-! ## Transmitting -/

/-- The station a message goes out with: a slave's own, or the one the message names. -/
def txStation (p : NodeParams) (msg : FrameMsg) : UInt8 :=
  if p.role = .kSlave then p.stationId else msg.stationId

/-- The transmit callback. -/
def onTx (p : NodeParams) (d : Device) (n : Ds10Node) (msg : FrameMsg) : Ds10Node :=
  match n.codec.encode (txStation p msg) msg.functionCode msg.data with
  | none => { n with txRejected := n.txRejected + 1 }
  | some frame =>
    if !n.connected then n
    else
      let s := n.serial.write d frame
      if !s.2 then { n with serial := s.1 }
      else { n with serial := s.1, txFrames := n.txFrames + 1 }

/-! ## What a block leaves alone -/

theorem publishFrames_eq (p : NodeParams) (n : Ds10Node) (frames : List DecodedFrame) :
    ∃ rxFrames rxFiltered rxSeq, (publishFrames p n frames).1 =
      { n with rxFrames := rxFrames, rxFiltered := rxFiltered, rxSeq := rxSeq } := by
  induction frames generalizing n with
  | nil => exact ⟨_, _, _, rfl⟩
  | cons frame frames ih =>
    obtain ⟨rxFrames, rxFiltered, rxSeq, hrest⟩ := ih (publishFrame p n frame).1
    refine ⟨rxFrames, rxFiltered, rxSeq, ?_⟩
    rw [publishFrames, hrest, publishFrame]
    split <;> rfl

theorem connect_eq (p : NodeParams) (n : Ds10Node) (r : SysOpen) :
    ∃ connected codec havePending reader, n.connect p r =
      { n with
        serial := (n.serial.openDevice p.port p.baud r).1
        connected := connected
        codec := codec
        havePending := havePending
        reader := reader } := by
  cases h : (n.serial.openDevice p.port p.baud r).2 with
  | true => exact ⟨_, _, _, _, by simp only [connect, h, if_true]; rfl⟩
  | false => exact ⟨_, _, _, _, by simp only [connect, h, Bool.false_eq_true, if_false]; rfl⟩

theorem poll_eq (n : Ds10Node) (r : SysRead) :
    ∃ reader, n.poll r = { n with serial := (n.serial.read r).1, reader := reader } := by
  cases h : (n.serial.read r).2.1 with
  | kOk => exact ⟨_, by simp only [poll, h]; rfl⟩
  | kDisconnected => exact ⟨_, by simp only [poll, h]; rfl⟩

theorem handle_eq (p : NodeParams) (n : Ds10Node) (chunk : List UInt8) (now : ℤ) :
    ∃ codec lastRx havePending rxFrames rxFiltered rxSeq, (n.handle p chunk now).1 =
      { n with
        codec := codec
        lastRx := lastRx
        havePending := havePending
        reader := .loopHead
        rxFrames := rxFrames
        rxFiltered := rxFiltered
        rxSeq := rxSeq } := by
  unfold handle
  split
  · obtain ⟨rxFrames, rxFiltered, rxSeq, hpublish⟩ :=
      publishFrames_eq p { n with codec := (n.codec.feed chunk).1 } (n.codec.feed chunk).2
    exact ⟨_, _, _, _, _, _, by simp only [hpublish]; rfl⟩
  · split
    · exact ⟨_, _, _, _, _, _, rfl⟩
    · exact ⟨_, _, _, _, _, _, rfl⟩

theorem onTx_eq (p : NodeParams) (d : Device) (n : Ds10Node) (msg : FrameMsg) :
    ∃ serial txFrames txRejected, n.onTx p d msg =
      { n with serial := serial, txFrames := txFrames, txRejected := txRejected } := by
  unfold onTx
  split
  · exact ⟨_, _, _, rfl⟩
  · split
    · exact ⟨_, _, _, rfl⟩
    · dsimp only
      split <;> exact ⟨_, _, _, rfl⟩

/-! ## Runs -/

/-- A block of the reader, or a transmit callback. -/
inductive Event where
  | reader (env : Env)
  | tx (msg : FrameMsg)

/-- One block. -/
def step (p : NodeParams) (d : Device) (n : Ds10Node) : Event → Ds10Node × List FrameMsg
  | .reader env => n.readerBlock p env
  | .tx msg => (n.onTx p d msg, [])

/-- A node after a run. -/
def afterRun (p : NodeParams) (d : Device) (start : ℤ) (es : List Event) : Ds10Node :=
  Automaton.stateAfter (step p d) (new p start) es

end Ds10Node

end Ds10Driver

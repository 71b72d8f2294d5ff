import Mathlib.Tactic
import DS10Link.Stream.Automaton
import DS10Link.Relay.Config

/-!
# The relay node

A relay asks one slave, waits for the reply with the pending transaction number, and forwards it
to the station the slave named. It has one transaction at a time and repeats its request when the
timer expires. A responder answers requests. Callbacks are state transformers that return what
they publish on the driver's topic; the part of a callback that runs under the lock is a function
of its own.

## Main definitions

* `RelayNode`: the transaction state and the counters
* `RelayNode.respond`: the responder's callback
* `RelayNode.handleReply`, `RelayNode.startTransaction`, `RelayNode.onTimeout`: the relay's
* `RelayNode.step`: a relay as an automaton whose inputs are its callbacks
-/

namespace Ds10Relay

open Transaction

/-- A message on the driver's topics. -/
structure Frame where
  stationId : UInt8 := 0
  functionCode : UInt8 := 0
  data : List UInt8 := []
  txSeq : UInt32 := 0
  deriving DecidableEq, Repr

/-- The state of a node. The counters count in `ℕ`, without their 64-bit wrap. -/
structure RelayNode where
  busy : Bool := false
  txn : UInt16 := 0
  pendingTxn : UInt16 := 0
  attempt : ℕ := 0
  payload : List UInt8 := []
  timerArmed : Bool := false
  sent : ℕ := 0
  ok : ℕ := 0
  failed : ℕ := 0
  retried : ℕ := 0
  timeouts : ℕ := 0
  ignored : ℕ := 0
  forwarded : ℕ := 0
  noForward : ℕ := 0
  badDst : ℕ := 0
  answered : ℕ := 0
  oversized : ℕ := 0
  deriving DecidableEq, Repr

namespace RelayNode

/-- A node as constructed. -/
def new : RelayNode := {}

/-! ## The responder -/

/-- The station the configured table selects for a payload. -/
def routeFor (r : ResponderParams) (payload : List UInt8) : UInt8 :=
  routeLookup r.routes payload r.defaultDst

/-- Answer a request, naming the station its payload selects. The driver stamps the station. -/
def respond (r : ResponderParams) (n : RelayNode) (msg : Frame) : RelayNode × List Frame :=
  match parseTxn msg.data with
  | none => ({ n with ignored := n.ignored + 1 }, [])
  | some txn =>
    let payload := stripHeader msg.data
    let dst := routeFor r payload
    match buildReply txn dst payload with
    | none => ({ n with oversized := n.oversized + 1 }, [])
    | some framed =>
      ({ n with answered := n.answered + 1 },
        [{ functionCode := msg.functionCode, data := framed }])

/-! ## The relay: replies -/

/-- Forward a payload under the cap of the data field. -/
def forward (n : RelayNode) (dst : UInt8) (payload : List UInt8) (functionCode : UInt8) :
    RelayNode × List Frame :=
  if payload.length > kMaxData then ({ n with oversized := n.oversized + 1 }, [])
  else
    ({ n with forwarded := n.forwarded + 1 },
      [{ stationId := dst, functionCode := functionCode, data := payload }])

/-- The guarded part of `handleReply`: take the reply if it is the awaited one. -/
def acceptReply (n : RelayNode) (got : UInt16) : RelayNode × Bool :=
  if !n.busy then ({ n with ignored := n.ignored + 1 }, false)
  else if got ≠ n.pendingTxn then ({ n with ignored := n.ignored + 1 }, false)
  -- Cleared before forwarding, so that a duplicate finds the node idle.
  else ({ n with busy := false }, true)

/-- The rest of `handleReply`, for a reply that was taken. -/
def concludeReply (p : RelayParams) (n : RelayNode) (msg : Frame) : RelayNode × List Frame :=
  let n := { n with timerArmed := false }
  match parseDst msg.data with
  | none => ({ n with badDst := n.badDst + 1, failed := n.failed + 1 }, [])
  | some dst =>
    let payload := stripReplyHeader msg.data
    if dst = kNoForward then ({ n with noForward := n.noForward + 1, ok := n.ok + 1 }, [])
    else if !isForwardable dst then
      ({ n with badDst := n.badDst + 1, failed := n.failed + 1 }, [])
    else if dst = p.slave1Id then
      ({ n with badDst := n.badDst + 1, failed := n.failed + 1 }, [])
    else
      let r := forward n dst payload msg.functionCode
      -- Counted as ok whether or not the payload could be forwarded.
      ({ r.1 with ok := r.1.ok + 1 }, r.2)

/-- A frame from the driver: drop it unless it answers the pending transaction. -/
def handleReply (p : RelayParams) (n : RelayNode) (msg : Frame) : RelayNode × List Frame :=
  if msg.stationId ≠ p.slave1Id then ({ n with ignored := n.ignored + 1 }, [])
  else
    match parseTxn msg.data with
    | none => ({ n with ignored := n.ignored + 1 }, [])
    | some got =>
      match acceptReply n got with
      | (n', false) => (n', [])
      | (n', true) => concludeReply p n' msg

/-- The receive callback of either role. -/
def onRx (role : Role) (n : RelayNode) (msg : Frame) : RelayNode × List Frame :=
  match role with
  | .relay p => handleReply p n msg
  | .responder r => respond r n msg

/-! ## The relay: requests -/

/-- The frame that carries a request. The sequence number stays local to the driver's topic. -/
def requestFrame (p : RelayParams) (txn : UInt16) (framed : List UInt8) : Frame where
  stationId := p.slave1Id
  functionCode := p.functionCode
  data := framed
  txSeq := txn.toUInt32

/-- The guarded part of `onTimeout`: give up, or take another attempt and return its number and
payload. -/
def takeAttempt (p : RelayParams) (n : RelayNode) : RelayNode × Option (UInt16 × List UInt8) :=
  if !n.busy then (n, none)
  else
    let n := if n.attempt > 0 then { n with timeouts := n.timeouts + 1 } else n
    if n.attempt > p.maxRetries then
      ({ n with failed := n.failed + 1, busy := false, payload := [] }, none)
    else
      let n := if n.attempt > 0 then { n with retried := n.retried + 1 } else n
      ({ n with attempt := n.attempt + 1 }, some (n.pendingTxn, n.payload))

/-- The rest of `onTimeout`: publish the attempt and arm the timer for it. -/
def sendAttempt (p : RelayParams) (n : RelayNode) (txn : UInt16) (payload : List UInt8) :
    RelayNode × List Frame :=
  match build txn payload with
  | none => ({ n with oversized := n.oversized + 1, busy := false }, [])
  | some framed =>
    ({ n with sent := n.sent + 1, timerArmed := true }, [requestFrame p txn framed])

/-- Send the current payload again, or give up once the attempts are spent. -/
def onTimeout (p : RelayParams) (n : RelayNode) : RelayNode × List Frame :=
  match takeAttempt p n with
  | (n', none) => (n', [])
  | (n', some (txn, payload)) => sendAttempt p n' txn payload

/-- The timer's callback. -/
def timerExpired (p : RelayParams) (n : RelayNode) : RelayNode × List Frame :=
  onTimeout p { n with timerArmed := false }

/-- The guarded part of `startTransaction`. -/
def openTransaction (n : RelayNode) (payload : List UInt8) : RelayNode :=
  { n with
    busy := true
    payload := payload
    attempt := 0
    txn := n.txn + 1
    pendingTxn := n.txn + 1 }

/-- Start a transaction under the cap of the request; its first attempt takes the retry path. -/
def startTransaction (p : RelayParams) (n : RelayNode) (payload : List UInt8) :
    RelayNode × List Frame :=
  if payload.length > kMaxPayload then ({ n with oversized := n.oversized + 1 }, [])
  else onTimeout p (openTransaction n payload)

/-- Start a transaction unless one is outstanding. -/
def startUnlessBusy (p : RelayParams) (n : RelayNode) (payload : List UInt8) :
    RelayNode × List Frame :=
  if n.busy then (n, []) else startTransaction p n payload

/-- The trigger callback: the text is the payload. -/
def onTrigger (p : RelayParams) (n : RelayNode) (data : List UInt8) : RelayNode × List Frame :=
  startUnlessBusy p n data

/-- The auto timer's callback, where there is an auto timer. -/
def autoTick (p : RelayParams) (n : RelayNode) : RelayNode × List Frame :=
  match p.autoPayload with
  | none => (n, [])
  | some payload => startUnlessBusy p n payload

/-- The counters of a role as text. -/
def statsLine (role : Role) (n : RelayNode) : String :=
  match role with
  | .responder _ => s!"answered={n.answered} oversized={n.oversized} ignored={n.ignored}"
  | .relay _ =>
    s!"sent={n.sent} ok={n.ok} failed={n.failed} retried={n.retried} timeouts={n.timeouts}" ++
      s!" forwarded={n.forwarded} no_forward={n.noForward} bad_dst={n.badDst}" ++
      s!" oversized={n.oversized} ignored={n.ignored}"

/-! ## Runs -/

/-- The callbacks of a relay. An expiry can be served at any moment, also late, after the timer
was cancelled or replaced. -/
inductive Event where
  | rx (msg : Frame)
  | trigger (data : List UInt8)
  | autoTick
  | timeout
  deriving DecidableEq, Repr

/-- The driver can deliver the frame: it decodes no more than `kMaxData` bytes of data. -/
def Event.Deliverable : Event → Prop
  | .rx msg => msg.data.length ≤ kMaxData
  | _ => True

instance : DecidablePred Event.Deliverable
  | .rx msg => inferInstanceAs (Decidable (msg.data.length ≤ kMaxData))
  | .trigger _ | .autoTick | .timeout => inferInstanceAs (Decidable True)

/-- One callback of a relay. -/
def step (p : RelayParams) (n : RelayNode) : Event → RelayNode × List Frame
  | .rx msg => onRx (.relay p) n msg
  | .trigger data => onTrigger p n data
  | .autoTick => autoTick p n
  | .timeout => timerExpired p n

/-- A relay after a run of callbacks. -/
def afterRun (p : RelayParams) (es : List Event) : RelayNode :=
  Automaton.stateAfter (step p) new es

/-- The payload an event offers to an idle node. -/
def offered (p : RelayParams) (n : RelayNode) : Event → Option (List UInt8)
  | .trigger data => if n.busy then none else some data
  | .autoTick => if n.busy then none else p.autoPayload
  | _ => none

/-- The payload of the transaction that an event starts, if it starts one. -/
def startedBy (p : RelayParams) (n : RelayNode) (e : Event) : Option (List UInt8) :=
  (offered p n e).filter fun payload => decide (payload.length ≤ kMaxPayload)

/-- The payload that an event offers and the cap refuses. -/
def refusedBy (p : RelayParams) (n : RelayNode) (e : Event) : Option (List UInt8) :=
  (offered p n e).filter fun payload => decide (kMaxPayload < payload.length)

/-- The payloads of the transactions started in a run, in order. -/
def transactions (p : RelayParams) (es : List Event) : List (List UInt8) :=
  Automaton.collect (step p) (fun n e => (startedBy p n e).toList) new es

end RelayNode

end Ds10Relay

import DS10Link.Relay.Responder

/-!
# The relaying script

`ds10_relay_master.py` does what `RelayNode` does in the relay role, with two threads. The main
thread reads a line, sends it with a number of its own for each attempt, and sleeps on an event
until a callback has left a reply or the time is up; the other thread runs the receive callback.
They share a few fields behind a lock, but the event is set and cleared outside of it and the
callback forwards between two of its blocks. A step is one block, and which thread moves next is
left open, as is when the time is up.

## Main definitions

* `RelayMaster`: the fields that the threads share
* `RelayMaster.MainPlace`, `RelayMaster.SpinPlace`: where the threads are
* `RelayMaster.mainStep`, `RelayMaster.spinStep`: the blocks
* `RelayThreads.step`: the two threads as an automaton

## Main results

* `requestData_eq`, `isReplyTo_iff`: the script's headers are those of the node
* `RelayThreads.Move`, `RelayThreads.move_step`: every step is one of a few
-/

open Word

namespace Ds10Relay

open Transaction

/-- The script's counters. Each is kept by one thread alone. -/
structure MasterStats where
  total : ℕ := 0
  ok : ℕ := 0
  failed : ℕ := 0
  retried : ℕ := 0
  timeout : ℕ := 0
  mismatch : ℕ := 0
  ignored : ℕ := 0
  noForward : ℕ := 0
  badDst : ℕ := 0
  deriving DecidableEq, Repr

/-- What the threads share: the last number taken, the number waited for, the text sent, the event,
and the reply with its destination and whether it could be forwarded. -/
structure RelayMaster where
  txn : ℕ := 0
  pending : Option ℕ := none
  sentText : Option (List UInt8) := none
  done : Bool := false
  reply : Option (List UInt8 × UInt8 × Bool) := none
  stats : MasterStats := {}
  deriving DecidableEq, Repr

/-- How the script was called. -/
structure MasterParams where
  slave1 : UInt8 := 1
  retries : ℕ := 2
  deriving DecidableEq, Repr

namespace RelayMaster

/-- `MAX_TEXT`. -/
def maxText : ℕ := kMaxData - RelayResponder.hdrLen

/-- `REPLY_HDR_LEN`. -/
def replyHdrLen : ℕ := 5

/-- An attempt: its text, its number among the attempts for that text, its transaction number. -/
structure Attempt where
  payload : List UInt8
  index : ℕ
  txn : ℕ
  deriving DecidableEq, Repr

/-- Where the main thread is: at the prompt; about to take a number, to clear the event, to publish;
asleep; about to give up after the time was up, or to read the reply; or ended by an exception. -/
inductive MainPlace where
  | input
  | begin (payload : List UInt8) (index : ℕ)
  | clear (a : Attempt)
  | publish (a : Attempt)
  | wait (a : Attempt)
  | giveUp (a : Attempt)
  | read (a : Attempt)
  | crashed
  deriving DecidableEq, Repr

/-- Where the callback is: about to look at the number waited for, to forward, to leave the reply,
or to set the event. -/
inductive SpinPlace where
  | look (msg : Frame)
  | forward (msg : Frame)
  | book (payload : List UInt8) (dst : UInt8) (ok : Bool)
  | signal
  deriving DecidableEq, Repr

/-! ## The blocks -/

/-- The data of a request. -/
def requestData (txn : ℕ) (payload : List UInt8) : List UInt8 :=
  RelayResponder.marker ++ [UInt8.ofNat (txn >>> 8 &&& 0xFF), UInt8.ofNat (txn &&& 0xFF)] ++ payload

/-- The message that carries a request. -/
def requestMsg (p : MasterParams) (a : Attempt) : Frame where
  stationId := p.slave1
  functionCode := 0x10
  data := requestData a.txn a.payload

/-- An attempt has failed: `run_once` goes on to the next one or gives up the text. -/
def attemptFailed (p : MasterParams) (m : RelayMaster) (payload : List UInt8) (index : ℕ) :
    RelayMaster × MainPlace :=
  if index < p.retries + 1 then
    ({ m with stats.retried := m.stats.retried + 1 }, .begin payload (index + 1))
  else ({ m with stats.failed := m.stats.failed + 1 }, .input)

/-- Whether the reply repeats the text is counted, and decides nothing. -/
def compareReply (m : RelayMaster) (payload : List UInt8) : RelayMaster :=
  if some payload = m.sentText then m
  else { m with stats.mismatch := m.stats.mismatch + 1 }

/-- The next block of the main thread. It sleeps on while the event is not set. -/
def mainStep (p : MasterParams) (m : RelayMaster) : MainPlace → RelayMaster × MainPlace × List Frame
  | .input => (m, .input, [])
  | .begin payload index =>
    let txn := (m.txn + 1) &&& 0xFFFF
    ({ m with txn := txn, pending := some txn, sentText := some payload, reply := none },
      .clear ⟨payload, index, txn⟩, [])
  | .clear a => ({ m with done := false }, .publish a, [])
  | .publish a => (m, .wait a, [requestMsg p a])
  | .wait a => if m.done then (m, .read a, []) else (m, .wait a, [])
  | .giveUp a =>
    let r := attemptFailed p
      { m with pending := none, stats.timeout := m.stats.timeout + 1 } a.payload a.index
    (r.1, r.2, [])
  | .read a =>
    match m.reply with
    -- Taking the empty reply apart raises.
    | none => (m, .crashed, [])
    | some (payload, _, ok) =>
      let m := m.compareReply payload
      if ok then ({ m with stats.ok := m.stats.ok + 1 }, .input, [])
      else
        let r := attemptFailed p m a.payload a.index
        (r.1, r.2, [])
  | .crashed => (m, .crashed, [])

/-- `run_once`, up to its first attempt. -/
def runOnce (m : RelayMaster) (payload : List UInt8) : RelayMaster × MainPlace :=
  if payload.length > maxText then (m, .input)
  else ({ m with stats.total := m.stats.total + 1 }, .begin payload 1)

/-- `_forward`: the counters, whether the reply is as good as forwarded, and what is published. -/
def forward (p : MasterParams) (m : RelayMaster) (dst : UInt8) (payload : List UInt8)
    (functionCode : UInt8) : RelayMaster × Bool × List Frame :=
  if dst = 0 then ({ m with stats.noForward := m.stats.noForward + 1 }, true, [])
  else if ¬ (1 ≤ dst ∧ dst ≤ 247) then
    ({ m with stats.badDst := m.stats.badDst + 1 }, false, [])
  else if dst = p.slave1 then ({ m with stats.badDst := m.stats.badDst + 1 }, false, [])
  else if payload.length > kMaxData then (m, false, [])
  else (m, true, [{ stationId := dst, functionCode := functionCode, data := payload }])

/-- The data are in the format of a reply. -/
def IsReply (data : List UInt8) : Prop :=
  ¬ (data.length < replyHdrLen ∨ data.take 2 ≠ RelayResponder.replyMarker)

instance : DecidablePred IsReply := fun _ => inferInstanceAs (Decidable (¬ _))

/-- `got_txn`. -/
def gotTxn (data : List UInt8) : ℕ := (data.getD 2 0).toNat <<< 8 ||| (data.getD 3 0).toNat

/-- `_on_rx`, up to its first block. -/
def onRx (p : MasterParams) (m : RelayMaster) (msg : Frame) : RelayMaster × Option SpinPlace :=
  if msg.stationId ≠ p.slave1 then
    ({ m with stats.ignored := m.stats.ignored + 1 }, none)
  else (m, some (.look msg))

/-- The next block of the callback. -/
def spinStep (p : MasterParams) (m : RelayMaster) :
    SpinPlace → RelayMaster × Option SpinPlace × List Frame
  | .look msg =>
    match m.pending with
    | none => ({ m with stats.ignored := m.stats.ignored + 1 }, none, [])
    | some pending =>
      if ¬ IsReply msg.data then ({ m with stats.badDst := m.stats.badDst + 1 }, none, [])
      else if gotTxn msg.data ≠ pending then
        ({ m with stats.ignored := m.stats.ignored + 1 }, none, [])
      else (m, some (.forward msg), [])
  | .forward msg =>
    let dst := msg.data.getD 4 0
    let payload := msg.data.drop replyHdrLen
    let r := m.forward p dst payload msg.functionCode
    (r.1, some (.book payload dst r.2.1), r.2.2)
  | .book payload dst ok =>
    ({ m with reply := some (payload, dst, ok), pending := none }, some .signal, [])
  | .signal => ({ m with done := true }, none, [])

section Look

variable {p : MasterParams} {m : RelayMaster} {msg : Frame} {pending : ℕ}

theorem spinStep_look_of_none (h : m.pending = none) :
    m.spinStep p (.look msg) =
      ({ m with stats.ignored := m.stats.ignored + 1 }, none, []) := by
  simp only [spinStep, h]

theorem spinStep_look_of_not_reply (h : m.pending = some pending) (hreply : ¬ IsReply msg.data) :
    m.spinStep p (.look msg) =
      ({ m with stats.badDst := m.stats.badDst + 1 }, none, []) := by
  simp only [spinStep, h]
  rw [if_pos hreply]

theorem spinStep_look_of_ne (hreply : IsReply msg.data) (h : m.pending = some pending)
    (hne : gotTxn msg.data ≠ pending) :
    m.spinStep p (.look msg) =
      ({ m with stats.ignored := m.stats.ignored + 1 }, none, []) := by
  simp only [spinStep, h]
  rw [if_neg (not_not.mpr hreply), if_pos hne]

theorem spinStep_look_of_eq (hreply : IsReply msg.data)
    (h : m.pending = some (gotTxn msg.data)) :
    m.spinStep p (.look msg) = (m, some (.forward msg), []) := by
  simp only [spinStep, h]
  rw [if_neg (not_not.mpr hreply), if_neg (not_not.mpr rfl)]

end Look

/-! ## The headers of the script and of the node -/

/-- The bytes of a number are those of the word. -/
theorem headerBytes {txn : ℕ} (h : txn < 65536) :
    UInt8.ofNat (txn >>> 8 &&& 0xFF) = hiByte (UInt16.ofNat txn) ∧
      UInt8.ofNat (txn &&& 0xFF) = loByte (UInt16.ofNat txn) := by
  have hword : (UInt16.ofNat txn).toNat = txn := by
    rw [UInt16.toNat_ofNat']
    omega
  refine ⟨?_, ?_⟩
  · apply UInt8.toNat_inj.mp
    rw [toNat_hiByte, hword, UInt8.toNat_ofNat', and_mask, Nat.shiftRight_eq_div_pow]
    omega
  · apply UInt8.toNat_inj.mp
    rw [toNat_loByte, hword, UInt8.toNat_ofNat', and_mask]
    omega

theorem requestData_eq {txn : ℕ} (h : txn < 65536) (payload : List UInt8) :
    requestData txn payload = request (UInt16.ofNat txn) payload := by
  obtain ⟨hhi, hlo⟩ := headerBytes h
  rw [requestData, hhi, hlo]
  rfl

/-- The script takes for a reply what the node takes for one. -/
theorem isReply_iff {data : List UInt8} :
    IsReply data ↔ ∃ txn dst payload, data = Transaction.reply txn dst payload := by
  rw [IsReply, not_or, not_lt, not_not]
  constructor
  · rintro ⟨hlen, hmarker⟩
    rcases data with _ | ⟨m₀, _ | ⟨m₁, _ | ⟨hi, _ | ⟨lo, _ | ⟨dst, payload⟩⟩⟩⟩⟩ <;>
      simp [replyHdrLen, RelayResponder.replyMarker] at hlen hmarker
    obtain ⟨rfl, rfl⟩ := hmarker
    exact ⟨wordOf hi lo, dst, payload, by simp [Transaction.reply, kMarker0, kReplyMarker1]⟩
  · rintro ⟨txn, dst, payload, rfl⟩
    exact ⟨Nat.le_add_left _ _, rfl⟩

theorem gotTxn_reply (txn : UInt16) (dst : UInt8) (payload : List UInt8) :
    gotTxn (Transaction.reply txn dst payload) = txn.toNat := by
  show (hiByte txn).toNat <<< 8 ||| (loByte txn).toNat = txn.toNat
  rw [shiftLeft_or, toNat_hiByte, toNat_loByte]
  omega

end RelayMaster

/-! ## The two threads -/

open RelayMaster

/-- The shared fields, and where the two threads are. -/
structure RelayThreads where
  master : RelayMaster := {}
  main : MainPlace := .input
  spin : Option SpinPlace := none
  deriving DecidableEq, Repr

/-- What happens next: a line is entered, the main thread moves, the time it sleeps for is up, a
message is delivered, or the callback moves. -/
inductive ThreadAction where
  | line (payload : List UInt8)
  | main
  | timeout
  | rx (msg : Frame)
  | spin
  deriving DecidableEq, Repr

/-- The driver can deliver the message: it decodes no more than `kMaxData` bytes of data. -/
def ThreadAction.Deliverable : ThreadAction → Prop
  | .rx msg => msg.data.length ≤ kMaxData
  | _ => True

instance : DecidablePred ThreadAction.Deliverable
  | .rx msg => inferInstanceAs (Decidable (msg.data.length ≤ kMaxData))
  | .line _ | .main | .timeout | .spin => inferInstanceAs (Decidable True)

namespace RelayThreads

/-- One action. What a thread cannot do where it is changes nothing. -/
def step (p : MasterParams) (s : RelayThreads) : ThreadAction → RelayThreads × List Frame
  | .line payload =>
    match s.main with
    | .input =>
      let r := s.master.runOnce payload
      ({ s with master := r.1, main := r.2 }, [])
    | _ => (s, [])
  | .main =>
    let r := s.master.mainStep p s.main
    ({ s with master := r.1, main := r.2.1 }, r.2.2)
  | .timeout =>
    match s.main with
    | .wait a => if s.master.done then (s, []) else ({ s with main := .giveUp a }, [])
    | _ => (s, [])
  | .rx msg =>
    match s.spin with
    | none =>
      let r := s.master.onRx p msg
      ({ s with master := r.1, spin := r.2 }, [])
    | some _ => (s, [])
  | .spin =>
    match s.spin with
    | none => (s, [])
    | some k =>
      let r := s.master.spinStep p k
      ({ s with master := r.1, spin := r.2.1 }, r.2.2)

/-- The threads after a run. -/
def afterRun (p : MasterParams) (acts : List ThreadAction) : RelayThreads :=
  Automaton.stateAfter (step p) {} acts

/-! ## The history of a run -/

/-- A text that counts as answered: its place among the texts, the text, the place of the attempt
among the attempts, and the payload and the destination of the reply that was read. -/
structure Success where
  text : ℕ
  payload : List UInt8
  attempt : ℕ
  reply : List UInt8 × UInt8
  deriving DecidableEq, Repr

/-- What has happened in a run: the texts of the attempts, the requests published, how many replies
could not be forwarded, how many messages came, the replies that matched with the number of attempts
until then, the messages forwarded, and the texts answered. -/
structure History where
  begun : List (List UInt8) := []
  requests : List Frame := []
  refused : ℕ := 0
  received : ℕ := 0
  matched : List (ℕ × Frame) := []
  forwards : List Frame := []
  successes : List Success := []
  deriving DecidableEq, Repr

/-- The callback is about to find that the message is the reply waited for. -/
def Matches (s : RelayThreads) (msg : Frame) : Prop :=
  s.spin = some (.look msg) ∧ IsReply msg.data ∧ s.master.pending = some (gotTxn msg.data)

instance (s : RelayThreads) (msg : Frame) : Decidable (Matches s msg) :=
  inferInstanceAs (Decidable (_ ∧ _))

/-- The history after one more action. -/
def History.extend (p : MasterParams) (h : History) (s : RelayThreads) (a : ThreadAction) :
    History :=
  match a with
  | .line _ | .timeout => h
  | .main =>
    match s.main with
    | .begin payload _ => { h with begun := h.begun ++ [payload] }
    | .publish _ => { h with requests := h.requests ++ (step p s .main).2 }
    | .read a =>
      match s.master.reply with
      | none => h
      | some (payload, dst, ok) =>
        if ok then
          { h with
            successes := h.successes ++
              [⟨s.master.stats.total, a.payload, h.begun.length, (payload, dst)⟩] }
        else { h with refused := h.refused + 1 }
    | _ => h
  | .rx _ => if s.spin.isNone then { h with received := h.received + 1 } else h
  | .spin =>
    match s.spin with
    | some (.look msg) =>
      if Matches s msg then { h with matched := h.matched ++ [(h.begun.length, msg)] } else h
    | some (.forward _) => { h with forwards := h.forwards ++ (step p s .spin).2 }
    | _ => h

/-- The history of a run. -/
def history (p : MasterParams) (acts : List ThreadAction) : History :=
  Automaton.accumulate (step p) (History.extend p) {} {} acts

/-- What becomes of a text whose attempt has failed. -/
inductive Failed (p : MasterParams) (m : RelayMaster) (payload : List UInt8) (index : ℕ) :
    RelayMaster → MainPlace → Prop
  | retry : index < p.retries + 1 → Failed p m payload index
      { m with stats.retried := m.stats.retried + 1 } (.begin payload (index + 1))
  | quit : p.retries + 1 ≤ index → Failed p m payload index
      { m with stats.failed := m.stats.failed + 1 } .input

/-- What becomes of a reply that matched. -/
inductive Settled (p : MasterParams) (m : RelayMaster) (dst : UInt8) (payload : List UInt8)
    (functionCode : UInt8) : RelayMaster → Bool → List Frame → Prop
  | noForward : dst = 0 → Settled p m dst payload functionCode
      { m with stats.noForward := m.stats.noForward + 1 } true []
  | badDst : (¬ (1 ≤ dst ∧ dst ≤ 247) ∨ dst = p.slave1) → Settled p m dst payload functionCode
      { m with stats.badDst := m.stats.badDst + 1 } false []
  | tooLong : kMaxData < payload.length → Settled p m dst payload functionCode m false []
  | forwarded : 1 ≤ dst → dst ≤ 247 → dst ≠ p.slave1 → payload.length ≤ kMaxData →
      Settled p m dst payload functionCode m true
        [{ stationId := dst, functionCode := functionCode, data := payload }]

/-- What one action does to the threads and to the history. -/
inductive Move (p : MasterParams) (h : History) (s : RelayThreads) :
    ThreadAction → History → RelayThreads → Prop
  | stay (a : ThreadAction) : Move p h s a h s
  | line {payload : List UInt8} : s.main = .input → payload.length ≤ maxText →
      Move p h s (.line payload) h
        { s with master.stats.total := s.master.stats.total + 1, main := .begin payload 1 }
  | begin {payload : List UInt8} {index : ℕ} : s.main = .begin payload index →
      Move p h s .main { h with begun := h.begun ++ [payload] }
        { s with
          master.txn := (s.master.txn + 1) % 65536
          master.pending := some ((s.master.txn + 1) % 65536)
          master.sentText := some payload
          master.reply := none
          main := .clear ⟨payload, index, (s.master.txn + 1) % 65536⟩ }
  | clear {a : Attempt} : s.main = .clear a →
      Move p h s .main h { s with master.done := false, main := .publish a }
  | publish {a : Attempt} : s.main = .publish a →
      Move p h s .main { h with requests := h.requests ++ [requestMsg p a] }
        { s with main := .wait a }
  | wake {a : Attempt} : s.main = .wait a → s.master.done = true →
      Move p h s .main h { s with main := .read a }
  | timeUp {a : Attempt} : s.main = .wait a → s.master.done = false →
      Move p h s .timeout h { s with main := .giveUp a }
  | giveUp {a : Attempt} {m : RelayMaster} {next : MainPlace} : s.main = .giveUp a →
      Failed p { s.master with
        pending := none
        stats.timeout := s.master.stats.timeout + 1 } a.payload a.index m next →
      Move p h s .main h { s with master := m, main := next }
  | crash {a : Attempt} : s.main = .read a → s.master.reply = none →
      Move p h s .main h { s with main := .crashed }
  | ok {a : Attempt} {payload : List UInt8} {dst : UInt8} : s.main = .read a →
      s.master.reply = some (payload, dst, true) →
      Move p h s .main
        { h with
          successes := h.successes ++
            [⟨s.master.stats.total, a.payload, h.begun.length, (payload, dst)⟩] }
        { s with
          master := { s.master.compareReply payload with
            stats.ok := (s.master.compareReply payload).stats.ok + 1 }
          main := .input }
  | refused {a : Attempt} {payload : List UInt8} {dst : UInt8} {m : RelayMaster}
      {next : MainPlace} : s.main = .read a → s.master.reply = some (payload, dst, false) →
      Failed p (s.master.compareReply payload) a.payload a.index m next →
      Move p h s .main { h with refused := h.refused + 1 } { s with master := m, main := next }
  | stranger {msg : Frame} : s.spin = none → msg.stationId ≠ p.slave1 →
      Move p h s (.rx msg) { h with received := h.received + 1 }
        { s with master.stats.ignored := s.master.stats.ignored + 1, spin := none }
  | rx {msg : Frame} : s.spin = none → msg.stationId = p.slave1 →
      Move p h s (.rx msg) { h with received := h.received + 1 }
        { s with spin := some (.look msg) }
  | ignore {msg : Frame} : s.spin = some (.look msg) →
      Move p h s .spin h
        { s with master.stats.ignored := s.master.stats.ignored + 1, spin := none }
  | malformed {msg : Frame} : s.spin = some (.look msg) →
      Move p h s .spin h
        { s with master.stats.badDst := s.master.stats.badDst + 1, spin := none }
  | accept {msg : Frame} : Matches s msg →
      Move p h s .spin { h with matched := h.matched ++ [(h.begun.length, msg)] }
        { s with spin := some (.forward msg) }
  | forward {msg : Frame} {m : RelayMaster} {ok : Bool} {out : List Frame} :
      s.spin = some (.forward msg) →
      Settled p s.master (msg.data.getD 4 0) (msg.data.drop replyHdrLen) msg.functionCode
        m ok out →
      Move p h s .spin { h with forwards := h.forwards ++ out }
        { s with
          master := m
          spin := some (.book (msg.data.drop replyHdrLen) (msg.data.getD 4 0) ok) }
  | book {payload : List UInt8} {dst : UInt8} {ok : Bool} : s.spin = some (.book payload dst ok) →
      Move p h s .spin h
        { s with
          master.reply := some (payload, dst, ok)
          master.pending := none
          spin := some .signal }
  | signal : s.spin = some .signal →
      Move p h s .spin h { s with master.done := true, spin := none }

variable {p : MasterParams} {h : History} {s : RelayThreads}

theorem failed_attemptFailed (m : RelayMaster) (payload : List UInt8) (index : ℕ) :
    Failed p m payload index (attemptFailed p m payload index).1
      (attemptFailed p m payload index).2 := by
  rw [attemptFailed]
  by_cases hlt : index < p.retries + 1
  · rw [if_pos hlt]
    exact .retry hlt
  · rw [if_neg hlt]
    exact .quit (Nat.not_lt.mp hlt)

theorem settled_forward (m : RelayMaster) (dst : UInt8) (payload : List UInt8)
    (functionCode : UInt8) :
    Settled p m dst payload functionCode (m.forward p dst payload functionCode).1
      (m.forward p dst payload functionCode).2.1 (m.forward p dst payload functionCode).2.2 := by
  rw [RelayMaster.forward]
  split_ifs with hzero hrange hself hlong
  · exact .noForward hzero
  · exact .badDst (.inr hself)
  · exact .tooLong hlong
  · exact .forwarded hrange.1 hrange.2 hself (Nat.not_lt.mp hlong)
  · exact .badDst (.inl hrange)

theorem stay_of_eq {t : RelayThreads} {a : ThreadAction} (ht : t = s) : Move p h s a h t := by
  rw [ht]
  exact .stay a

theorem move_main : Move p h s .main (h.extend p s .main) (step p s .main).1 := by
  cases hmain : s.main with
  | input =>
    simp only [History.extend, step, hmain, mainStep]
    exact stay_of_eq (by rw [← hmain])
  | begin payload index =>
    simp only [History.extend, step, hmain, mainStep]
    rw [show (s.master.txn + 1) &&& 0xFFFF = (s.master.txn + 1) % 65536 from
      Nat.and_two_pow_sub_one_eq_mod _ 16]
    exact .begin hmain
  | clear a =>
    simp only [History.extend, step, hmain, mainStep]
    exact .clear hmain
  | publish a =>
    simp only [History.extend, step, hmain, mainStep]
    exact .publish hmain
  | wait a =>
    simp only [History.extend, step, hmain, mainStep]
    cases hdone : s.master.done with
    | false =>
      simp only [Bool.false_eq_true, if_false]
      exact stay_of_eq (by rw [← hmain])
    | true =>
      simp only [if_true]
      exact .wake hmain hdone
  | giveUp a =>
    simp only [History.extend, step, hmain, mainStep]
    exact .giveUp hmain (failed_attemptFailed _ _ _)
  | read a =>
    rcases hreply : s.master.reply with _ | ⟨payload, dst, ok⟩
    · simp only [History.extend, step, hmain, mainStep, hreply]
      exact .crash hmain hreply
    · cases ok with
      | true =>
        simp only [History.extend, step, hmain, mainStep, hreply]
        exact .ok hmain hreply
      | false =>
        simp only [History.extend, step, hmain, mainStep, hreply]
        exact .refused hmain hreply (failed_attemptFailed _ _ _)
  | crashed =>
    simp only [History.extend, step, hmain, mainStep]
    exact stay_of_eq (by rw [← hmain])

theorem step_spin_of_some {k : SpinPlace} (hspin : s.spin = some k) :
    step p s .spin =
      ({ s with
         master := (s.master.spinStep p k).1
         spin := (s.master.spinStep p k).2.1 }, (s.master.spinStep p k).2.2) := by
  simp only [step, hspin]

theorem move_spin : Move p h s .spin (h.extend p s .spin) (step p s .spin).1 := by
  rcases hspin : s.spin with _ | place
  · simp only [History.extend, step, hspin]
    exact .stay _
  · cases place with
    | look msg =>
      by_cases hmatch : Matches s msg
      · rw [step_spin_of_some hspin, spinStep_look_of_eq hmatch.2.1 hmatch.2.2]
        simp only [History.extend, hspin, hmatch, if_true]
        exact .accept hmatch
      · have hsame : h.extend p s .spin = h := by
          simp only [History.extend, hspin, hmatch, if_false]
        rw [hsame, step_spin_of_some hspin]
        cases hpending : s.master.pending with
        | none =>
          rw [spinStep_look_of_none hpending]
          exact .ignore hspin
        | some pending =>
          by_cases hreply : IsReply msg.data
          · have hne : gotTxn msg.data ≠ pending := by
              rintro rfl
              exact hmatch ⟨hspin, hreply, hpending⟩
            rw [spinStep_look_of_ne hreply hpending hne]
            exact .ignore hspin
          · rw [spinStep_look_of_not_reply hpending hreply]
            exact .malformed hspin
    | forward msg =>
      simp only [History.extend, step, hspin, spinStep]
      exact .forward hspin (settled_forward _ _ _ _)
    | book payload dst ok =>
      simp only [History.extend, step, hspin, spinStep]
      exact .book hspin
    | signal =>
      simp only [History.extend, step, hspin, spinStep]
      exact .signal hspin

/-- **Every step is one of a few.** -/
theorem move_step (p : MasterParams) (h : History) (s : RelayThreads) (a : ThreadAction) :
    Move p h s a (h.extend p s a) (step p s a).1 := by
  cases a with
  | main => exact move_main
  | spin => exact move_spin
  | line payload =>
    cases hmain : s.main with
    | input =>
      simp only [History.extend, step, hmain, runOnce]
      by_cases hlen : payload.length > maxText
      · rw [if_pos hlen]
        exact stay_of_eq (by rw [← hmain])
      · rw [if_neg hlen]
        exact .line hmain (Nat.not_lt.mp hlen)
    | _ =>
      simp only [History.extend, step, hmain]
      exact .stay _
  | timeout =>
    cases hmain : s.main with
    | wait a =>
      simp only [History.extend, step, hmain]
      cases hdone : s.master.done with
      | true => exact .stay _
      | false => exact .timeUp hmain hdone
    | _ =>
      simp only [History.extend, step, hmain]
      exact .stay _
  | rx msg =>
    rcases hspin : s.spin with _ | place
    · simp only [History.extend, step, hspin, onRx]
      by_cases hstation : msg.stationId ≠ p.slave1
      · rw [if_pos hstation]
        exact .stranger hspin hstation
      · rw [if_neg hstation]
        exact .rx hspin (not_not.mp hstation)
    · simp only [History.extend, step, hspin]
      exact .stay _

/-- **The invariant rule**: what the moves under a guard keep holds of the history and the threads
after a guarded run. -/
theorem afterRun_induction {G : RelayThreads → ThreadAction → Prop}
    (Inv : History → RelayThreads → Prop) {acts : List ThreadAction}
    (hG : Automaton.Along (step p) G {} acts) (h₀ : Inv {} {})
    (hmove : ∀ h s a h' s', Inv h s → G s a → Move p h s a h' s' → Inv h' s') :
    Inv (history p acts) (afterRun p acts) :=
  hG.accumulate_induction Inv h₀ fun h s a hinv hguard =>
    hmove h s a _ _ hinv hguard (move_step p h s a)

end RelayThreads

end Ds10Relay

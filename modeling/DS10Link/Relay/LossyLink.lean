import Mathlib.Tactic
import DS10Link.Relay.Forwarding
import DS10Link.Relay.Responder

/-!
# A relay and a responder over a lossy link

The link keeps every frame that was ever sent over it. Delivering a copy of one of them, any one,
at any moment and any number of times, is how it delays, reorders and duplicates; never delivering
one is how it loses. Every frame in flight belongs to a transaction. Transaction numbers wrap, so
the two ends agree as long as nothing arrives a full turn of the number too late.

## Main definitions

* `Parcel`: a frame in flight and the transaction it belongs to
* `LossyLink`, `LossyLink.step`: the two nodes, the link between them and what can happen
* `LossyLink.Admissible`: nothing arrives a full turn too late, and no other station speaks for
  the slave
* `LossyLink.Consistent`: what holds of every frame in flight

## Main results

* `LossyLink.consistent_run`: every admissible run keeps the link consistent
* `LossyLink.forwards_agree`: a forward carries the payload the pending transaction was started
  with, to the station that payload selects
-/

open Word

namespace Ds10Relay

open Transaction RelayNode

/-- A frame in flight, and the number of transactions started up to the one it belongs to. -/
structure Parcel where
  txnIndex : ℕ
  frame : Frame
  deriving DecidableEq, Repr

/-- A relay and a responder, the payloads of the transactions started so far, and every request
and reply sent so far. -/
structure LossyLink where
  relay : RelayNode := .new
  responder : RelayNode := .new
  started : List (List UInt8) := []
  requests : List Parcel := []
  replies : List Parcel := []
  deriving DecidableEq, Repr

namespace LossyLink

/-- Both nodes as constructed, nothing in flight. -/
def new : LossyLink := {}

/-- What can happen next: a callback of the relay on its own account, the delivery of a copy of a
request or a reply, or a frame from another station. -/
inductive Action where
  | trigger (data : List UInt8)
  | autoTick
  | timeout
  | deliverRequest (i : ℕ)
  | deliverReply (i : ℕ)
  | foreign (msg : Frame)
  deriving DecidableEq, Repr

/-- A frame as the driver at the far end reports it: only station, function code and data cross
the link, and the driver stamps the station. -/
def received (station : UInt8) (f : Frame) : Frame where
  stationId := station
  functionCode := f.functionCode
  data := f.data

/-- A callback of the relay. What it publishes for the slave is put on the link. -/
def relayCallback (p : RelayParams) (l : LossyLink) (e : Event) : LossyLink × List Frame :=
  let r := RelayNode.step p l.relay e
  let started := l.started ++ (startedBy p l.relay e).toList
  let sent := r.2.filter fun f => f.stationId == p.slave1Id
  ({ l with
      relay := r.1
      started := started
      requests := l.requests ++ sent.map fun f => ⟨started.length, f⟩ }, r.2)

/-- A request reaches the responder. What it publishes is put on the link. -/
def responderCallback (r : ResponderParams) (l : LossyLink) (q : Parcel) : LossyLink :=
  -- A slave's driver reports the station of the master as zero.
  let answer := respond r l.responder (received 0 q.frame)
  { l with
    responder := answer.1
    replies := l.replies ++ answer.2.map fun f => ⟨q.txnIndex, f⟩ }

/-- One action; its outputs are what the relay publishes. -/
def step (p : RelayParams) (r : ResponderParams) (l : LossyLink) : Action → LossyLink × List Frame
  | .trigger data => relayCallback p l (.trigger data)
  | .autoTick => relayCallback p l .autoTick
  | .timeout => relayCallback p l .timeout
  | .foreign msg => relayCallback p l (.rx msg)
  | .deliverReply i =>
    match l.replies[i]? with
    | none => (l, [])
    | some q => relayCallback p l (.rx (received p.slave1Id q.frame))
  | .deliverRequest i =>
    match l.requests[i]? with
    | none => (l, [])
    | some q => (responderCallback r l q, [])

/-- The frames the relay forwards: what it publishes on receiving one. -/
def forwards (p : RelayParams) (r : ResponderParams) (l : LossyLink) : Action → List Frame
  | .deliverReply i => (step p r l (.deliverReply i)).2
  | .foreign msg => (step p r l (.foreign msg)).2
  | _ => []

/-- Fewer than 65536 transactions were started after the one the parcel belongs to. -/
def Fresh (l : LossyLink) (q : Parcel) : Prop := l.started.length < q.txnIndex + 65536

/-- Only fresh copies are delivered, and no other station speaks for the slave. -/
def Admissible (p : RelayParams) (l : LossyLink) : Action → Prop
  | .deliverRequest i => ∀ q ∈ l.requests[i]?, l.Fresh q
  | .deliverReply i => ∀ q ∈ l.replies[i]?, l.Fresh q
  | .foreign msg => msg.stationId ≠ p.slave1Id
  | .trigger _ | .autoTick | .timeout => True

instance (l : LossyLink) (q : Parcel) : Decidable (l.Fresh q) :=
  inferInstanceAs (Decidable (_ < _))

instance (p : RelayParams) (l : LossyLink) (a : Action) : Decidable (Admissible p l a) :=
  match a with
  | .deliverRequest i => inferInstanceAs (Decidable (∀ q ∈ l.requests[i]?, l.Fresh q))
  | .deliverReply i => inferInstanceAs (Decidable (∀ q ∈ l.replies[i]?, l.Fresh q))
  | .foreign msg => inferInstanceAs (Decidable (msg.stationId ≠ p.slave1Id))
  | .trigger _ | .autoTick | .timeout => inferInstanceAs (Decidable True)

/-! ## What holds of every frame in flight -/

/-- The transaction with the given index was started with the given payload. -/
def Belongs (started : List (List UInt8)) (txnIndex : ℕ) (payload : List UInt8) : Prop :=
  0 < txnIndex ∧ started[txnIndex - 1]? = some payload

/-- A request asks with the number and the payload of its transaction. -/
def RequestOf (started : List (List UInt8)) (q : Parcel) : Prop :=
  ∃ payload, Belongs started q.txnIndex payload ∧
    q.frame.data = request (UInt16.ofNat q.txnIndex) payload

/-- A reply answers the number and the payload of its transaction, naming the station that the
payload selects. -/
def ReplyOf (r : ResponderParams) (started : List (List UInt8)) (q : Parcel) : Prop :=
  ∃ payload, Belongs started q.txnIndex payload ∧
    q.frame.data = reply (UInt16.ofNat q.txnIndex) (routeFor r payload) payload

/-- The relay is at the transaction last started, and every frame in flight is a faithful copy for
its own transaction. -/
structure Consistent (p : RelayParams) (r : ResponderParams) (l : LossyLink) : Prop where
  sound : Sound p l.relay
  txn_eq : l.relay.txn = UInt16.ofNat l.started.length
  payload_eq : l.relay.busy = true → l.started.getLast? = some l.relay.payload
  requests_of : ∀ q ∈ l.requests, RequestOf l.started q
  replies_of : ∀ q ∈ l.replies, ReplyOf r l.started q

variable {p : RelayParams} {r : ResponderParams} {l : LossyLink}

theorem Belongs.append {started more : List (List UInt8)} {txnIndex : ℕ} {payload : List UInt8}
    (h : Belongs started txnIndex payload) : Belongs (started ++ more) txnIndex payload := by
  refine ⟨h.1, ?_⟩
  obtain ⟨hlt, -⟩ := List.getElem?_eq_some_iff.mp h.2
  rw [List.getElem?_append_left hlt, h.2]

theorem Belongs.le_length {started : List (List UInt8)} {txnIndex : ℕ} {payload : List UInt8}
    (h : Belongs started txnIndex payload) : txnIndex ≤ started.length := by
  obtain ⟨hlt, -⟩ := List.getElem?_eq_some_iff.mp h.2
  have := h.1
  omega

/-- The transaction last started, by its index. -/
theorem belongs_length {started : List (List UInt8)} {payload : List UInt8} :
    Belongs started started.length payload ↔ started.getLast? = some payload := by
  rw [List.getLast?_eq_getElem?]
  constructor
  · intro h
    exact h.2
  · intro h
    obtain ⟨hlt, -⟩ := List.getElem?_eq_some_iff.mp h
    exact ⟨by omega, h⟩

/-! ## One callback of the relay -/

/-- The transaction number counts the transactions. -/
theorem txn_eq_of_transition {n n' : RelayNode} {e : Event} {out : List Frame}
    (ht : Transition p n e n' out) {started : List (List UInt8)}
    (h : n.txn = UInt16.ofNat started.length) :
    n'.txn = UInt16.ofNat (started ++ (startedBy p n e).toList).length := by
  cases ht with
  | ignore | idle | retry => simpa using h
  | noDst | keep | refuse | tooLong | forward | giveUp => simpa [settled] using h
  | decline hnone => simpa [startedBy_of_none hnone] using h
  | oversize hsome hlen => simpa [startedBy_of_lt hsome hlen] using h
  | start hsome hlen =>
    rw [startedBy_of_le hsome hlen]
    simp [openTransaction, h, UInt16.ofNat_add]

/-- A busy relay holds the payload of the transaction last started. -/
theorem payload_eq_of_transition {n n' : RelayNode} {e : Event} {out : List Frame}
    (ht : Transition p n e n' out) {started : List (List UInt8)}
    (h : n.busy = true → started.getLast? = some n.payload) (hbusy : n'.busy = true) :
    (started ++ (startedBy p n e).toList).getLast? = some n'.payload := by
  cases ht with
  | ignore | idle | retry => simpa using h hbusy
  | noDst | keep | refuse | tooLong | forward | giveUp => cases hbusy
  | decline hnone => simpa [startedBy_of_none hnone] using h hbusy
  | oversize hsome hlen => simpa [startedBy_of_lt hsome hlen] using h hbusy
  | start hsome hlen => simp [startedBy_of_le hsome hlen, openTransaction]

/-- A frame published for the slave is a request for the pending transaction. -/
theorem isRequest_of_stationId {n : RelayNode} {e : Event} {f : Frame} (hs : Sound p n)
    (hf : f ∈ (RelayNode.step p n e).2) (hstation : f.stationId = p.slave1Id) :
    IsRequest p (RelayNode.step p n e).1 f := by
  rcases (step_transition hs e).mem_out hf with h | ⟨msg, -, h⟩
  · exact h
  · exact absurd hstation h.ne_slave1

theorem Consistent.relayCallback (hc : Consistent p r l) (e : Event) :
    Consistent p r (relayCallback p l e).1 := by
  have ht := step_transition hc.sound e
  have hsound := sound_step hc.sound e
  have htxn := txn_eq_of_transition ht hc.txn_eq
  have hpayload := payload_eq_of_transition ht hc.payload_eq
  refine ⟨hsound, htxn, hpayload, ?_, ?_⟩
  · intro q hq
    rcases List.mem_append.mp hq with hq | hq
    · obtain ⟨payload, hbelongs, hdata⟩ := hc.requests_of q hq
      exact ⟨payload, hbelongs.append, hdata⟩
    · -- A request just published asks for the transaction last started.
      obtain ⟨f, hf, rfl⟩ := List.mem_map.mp hq
      obtain ⟨hout, hstation⟩ := List.mem_filter.mp hf
      have hreq := isRequest_of_stationId hc.sound hout (beq_iff_eq.mp hstation)
      refine ⟨_, belongs_length.mpr (hpayload hreq.busy), ?_⟩
      rw [hreq.data_eq, hsound.pendingTxn_eq, htxn]
  · intro q hq
    obtain ⟨payload, hbelongs, hdata⟩ := hc.replies_of q hq
    exact ⟨payload, hbelongs.append, hdata⟩

/-! ## One callback of the responder -/

theorem Consistent.responderCallback (hc : Consistent p r l) {q : Parcel} (hq : q ∈ l.requests) :
    Consistent p r (responderCallback r l q) := by
  refine ⟨hc.sound, hc.txn_eq, hc.payload_eq, hc.requests_of, ?_⟩
  intro a ha
  rcases List.mem_append.mp ha with ha | ha
  · exact hc.replies_of a ha
  · -- A reply just published takes number and payload over from the request it answers.
    obtain ⟨f, hf, rfl⟩ := List.mem_map.mp ha
    obtain ⟨payload, hbelongs, hdata⟩ := hc.requests_of q hq
    refine ⟨payload, hbelongs, ?_⟩
    have hreq : (received 0 q.frame).data = request (UInt16.ofNat q.txnIndex) payload := hdata
    by_cases hlen : payload.length ≤ kMaxReplyPayload
    · rw [respond_request hreq hlen] at hf
      rw [List.mem_singleton.mp hf]
    · rw [respond_request_oversized hreq (not_le.mp hlen)] at hf
      cases hf

/-! ## Runs -/

theorem consistent_new (p : RelayParams) (r : ResponderParams) : Consistent p r new :=
  ⟨sound_new p, rfl, by simp [new, RelayNode.new], by simp [new], by simp [new]⟩

theorem Consistent.step (hc : Consistent p r l) (a : Action) : Consistent p r (step p r l a).1 := by
  cases a with
  | trigger data => exact hc.relayCallback (.trigger data)
  | autoTick => exact hc.relayCallback .autoTick
  | timeout => exact hc.relayCallback .timeout
  | foreign msg => exact hc.relayCallback (.rx msg)
  | deliverReply i =>
    simp only [LossyLink.step]
    split
    · exact hc
    · next q hq => exact hc.relayCallback (.rx (received p.slave1Id q.frame))
  | deliverRequest i =>
    simp only [LossyLink.step]
    split
    · exact hc
    · next q hq => exact hc.responderCallback (List.mem_of_getElem? hq)

/-- **Every run keeps the link consistent.** -/
theorem consistent_run (p : RelayParams) (r : ResponderParams) (acts : List Action) :
    Consistent p r (Automaton.stateAfter (step p r) new acts) :=
  Automaton.stateAfter_induction (Consistent p r) acts (consistent_new p r)
    fun _ a hc => hc.step a

/-- A fresh reply with the pending number belongs to the pending transaction. -/
theorem Consistent.pending_of_fresh (hc : Consistent p r l) {q : Parcel} {dst : UInt8}
    {payload : List UInt8} (hq : q ∈ l.replies) (hfresh : l.Fresh q)
    (hdata : q.frame.data = reply l.relay.pendingTxn dst payload) :
    l.started.getLast? = some payload ∧ dst = routeFor r payload := by
  obtain ⟨payload', hbelongs, hdata'⟩ := hc.replies_of q hq
  obtain ⟨htxn, rfl, rfl⟩ := reply_inj (hdata'.symm.trans hdata)
  have hindex : q.txnIndex = l.started.length := by
    rw [hc.sound.pendingTxn_eq, hc.txn_eq] at htxn
    -- The numbers agree, and the indices are less than a full turn apart.
    exact ofNat_inj_of_lt htxn hbelongs.le_length hfresh
  rw [hindex] at hbelongs
  exact ⟨belongs_length.mp hbelongs, rfl⟩

/-- What the relay forwards it was sent by the slave, for the pending transaction. -/
theorem exists_parcel_of_forward (hc : Consistent p r l) {a : Action} (ha : Admissible p l a)
    {f : Frame} (hf : f ∈ forwards p r l a) :
    l.relay.busy = true ∧ ∃ q ∈ l.replies, l.Fresh q ∧
      q.frame.data = reply l.relay.pendingTxn f.stationId f.data := by
  have hrx : ∀ msg, f ∈ (relayCallback p l (.rx msg)).2 → IsForward p l.relay msg f := by
    intro msg hmem
    exact (step_transition hc.sound (.rx msg)).isForward hmem
  cases a with
  | deliverReply i =>
    simp only [forwards, LossyLink.step] at hf
    split at hf
    · cases hf
    · next q hq =>
      have hfwd := hrx _ hf
      exact ⟨hfwd.busy, q, List.mem_of_getElem? hq, ha q hq, hfwd.data_eq⟩
  | foreign msg => exact absurd (hrx msg hf).from_slave1 ha
  | trigger | autoTick | timeout | deliverRequest => cases hf

/-- **Agreement over a lossy link.** In every run in which no copy of a frame is delivered 65536
or more transactions after its own, whatever is lost, duplicated, delayed or reordered, a forward is
made while a transaction is pending, carries the payload that transaction was started with and
goes to the station the responder's table selects for that payload. -/
theorem forwards_agree (p : RelayParams) (r : ResponderParams) (acts : List Action)
    (hacts : Automaton.Along (step p r) (Admissible p) new acts) :
    ∀ pre a post, acts = pre ++ a :: post →
      let l := Automaton.stateAfter (step p r) new pre
      ∀ f ∈ forwards p r l a, l.relay.busy = true ∧ l.started.getLast? = some f.data ∧
        f.stationId = routeLookup r.routes f.data r.defaultDst := by
  rintro pre a post rfl l f hf
  have ha : Admissible p l a := by
    rw [Automaton.along_append, Automaton.along_cons] at hacts
    exact hacts.2.1
  have hc : Consistent p r l := consistent_run p r pre
  obtain ⟨hbusy, q, hq, hfresh, hdata⟩ := exists_parcel_of_forward hc ha hf
  exact ⟨hbusy, hc.pending_of_fresh hq hfresh hdata⟩

/-- A retried request is answered twice. The second answer comes first and is forwarded; the first
one comes late, during the next transaction, and is not. -/
theorem forwards_agree_retried :
    let p : RelayParams := ⟨1, 0x10, 2, none, by decide⟩
    let r : ResponderParams := ⟨[⟨[0x74], 2⟩], 0⟩
    let pre : List Action :=
      [.trigger [0x74, 0x31], .timeout, .deliverRequest 1, .deliverRequest 0]
    let post : List Action := [.trigger [0x75], .deliverReply 0]
    let l := Automaton.stateAfter (step p r) new pre
    Automaton.Along (step p r) (Admissible p) new (pre ++ .deliverReply 1 :: post) ∧
      (forwards p r l (.deliverReply 1)).length = 1 ∧
      (∀ f ∈ forwards p r l (.deliverReply 1), l.relay.busy = true ∧
        l.started.getLast? = some f.data ∧
        f.stationId = routeLookup r.routes f.data r.defaultDst) ∧
      forwards p r (Automaton.stateAfter (step p r) new
        (pre ++ [.deliverReply 1, .trigger [0x75]])) (.deliverReply 0) = [] := by
  intro p r pre post l
  have hacts : Automaton.Along (step p r) (Admissible p) new
      (pre ++ .deliverReply 1 :: post) := by decide
  exact ⟨hacts, by decide, forwards_agree p r _ hacts pre (.deliverReply 1) post rfl, by decide⟩

end LossyLink

end Ds10Relay

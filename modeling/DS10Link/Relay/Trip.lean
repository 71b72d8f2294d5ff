import Mathlib.Tactic
import DS10Link.Driver.Accounting
import DS10Link.Relay.LossyLink

/-!
# The caps along the way of a payload

A payload travels in a request, comes back in a reply and leaves in a forward. Each hop has a cap:
the driver's on the frame, the relay's on the request, the responder's on the reply. The reply
header is a byte longer than that of the request, so the longest payload the relay sends is the
one the responder cannot send back.

## Main definitions

* `Encodes`: the driver accepts a published frame
* `CompletesTrip`: a payload goes all the way

## Main results

* `encodes_iff`: the cap of the relay's data field is the one of the driver
* `deliverable_of_mem_feed`: and it bounds what the driver decodes
* `completesTrip_of_le`: a payload within the cap of the reply goes all the way
* `trip_of_accepted`: what happens to each payload the relay accepts
-/

namespace Ds10Relay

open Transaction RelayNode LossyLink Ds10Driver

/-- The driver accepts the published frame, at the cap of a single frame on the wire. -/
def Encodes (f : Frame) : Prop :=
  ((ModbusFrameCodec.new kMaxFrameLen).encode f.stationId f.functionCode f.data).isSome = true

/-- The cap of the relay's data field is the one of the driver. -/
theorem encodes_iff {f : Frame} : Encodes f ↔ f.data.length ≤ kMaxData := by
  have hcap : (ModbusFrameCodec.new kMaxFrameLen).maxFrameLen = kMaxData + 4 := by decide
  unfold Encodes
  rw [Option.isSome_iff_exists]
  constructor
  · rintro ⟨framed, h⟩
    have hfits := (ModbusFrameCodec.encode_eq_some.mp h).1
    rw [hcap] at hfits
    omega
  · intro hlen
    refine ⟨_, ModbusFrameCodec.encode_eq_some.mpr ⟨?_, rfl⟩⟩
    rw [hcap]
    omega

/-- What the driver decodes is deliverable, whatever it is fed. -/
theorem deliverable_of_mem_feed {c : ModbusFrameCodec} {s : List UInt8} {f : DecodedFrame}
    (hcap : c.maxFrameLen ≤ kMaxFrameLen) (hf : f ∈ (c.feed s).2) (station : UInt8) :
    Event.Deliverable
      (.rx { stationId := station, functionCode := f.functionCode, data := f.data }) := by
  obtain ⟨ps, hreads, -, houts, -⟩ := ModbusFrameCodec.exists_callReads c (.feed s)
  rw [ModbusFrameCodec.apply_feed] at houts
  rw [← houts] at hf
  obtain ⟨raw, hmem⟩ := Piece.mem_outs hf
  obtain ⟨hencode, -, hle, -⟩ := ReadsAs.token_mem hreads hmem c rfl
  have hlen := ModbusFrameCodec.length_of_encode hencode
  have hbound : f.data.length + 4 ≤ kMaxFrameLen := hlen ▸ hle.trans hcap
  exact Nat.le_of_add_le_add_right hbound

/-- A payload goes all the way. The relay builds a request that the driver accepts; a responder
answers it with a reply that the driver accepts; and when the station the payload selects is not
the slave itself, the relay, with the transaction pending, books the reply as ok and forwards the
payload to the station selected, if one was, in a frame that the driver accepts. -/
def CompletesTrip (p : RelayParams) (r : ResponderParams) (txn : UInt16) (payload : List UInt8) :
    Prop :=
  let dst := routeLookup r.routes payload r.defaultDst
  ∃ framed, build txn payload = some framed ∧ Encodes (requestFrame p txn framed) ∧
    ∀ m : RelayNode, ∃ answer : Frame,
      (m.respond r (received 0 (requestFrame p txn framed))).2 = [answer] ∧
      buildReply txn dst payload = some answer.data ∧ Encodes answer ∧
      (dst ≠ p.slave1Id → ∀ n : RelayNode, n.busy = true → n.pendingTxn = txn →
        let outcome := n.handleReply p (received p.slave1Id answer)
        outcome.1.ok = n.ok + 1 ∧
          (dst ≠ kNoForward → ∃ f, outcome.2 = [f] ∧ f.stationId = dst ∧ f.data = payload ∧
            Encodes f))

theorem encodes_requestFrame (p : RelayParams) (txn : UInt16) {payload : List UInt8}
    (hlen : payload.length ≤ kMaxPayload) : Encodes (requestFrame p txn (request txn payload)) :=
  encodes_iff.mpr (Nat.add_le_add_right hlen kHeaderLen)

/-- A payload within the cap of the reply goes all the way, from a table of legal stations. -/
theorem completesTrip_of_le (p : RelayParams) {r : ResponderParams} (txn : UInt16)
    {payload : List UInt8} (hlen : payload.length ≤ kMaxReplyPayload)
    (hroutes : ∀ route ∈ r.routes, isForwardable route.station)
    (hdefault : r.defaultDst = kNoForward ∨ isForwardable r.defaultDst) :
    CompletesTrip p r txn payload := by
  have hpayload : payload.length ≤ kMaxPayload := Nat.le_succ_of_le hlen
  refine ⟨request txn payload, build_of_le hpayload, encodes_requestFrame p txn hpayload, ?_⟩
  intro m
  -- The driver carries the data of the request over unchanged.
  have hreq : (received 0 (requestFrame p txn (request txn payload))).data = request txn payload :=
    rfl
  refine ⟨_, congrArg Prod.snd (respond_request hreq hlen), buildReply_of_le hlen, ?_, ?_⟩
  · exact encodes_iff.mpr (Nat.add_le_add_right hlen kReplyHeaderLen)
  · intro hself n hbusy hpending
    subst hpending
    generalize hmsg : received p.slave1Id _ = msg
    have hans : Answers p n msg (routeLookup r.routes payload r.defaultDst) payload := by
      subst hmsg
      exact ⟨⟨rfl, hbusy, parseTxn_reply _ _ _⟩, rfl⟩
    by_cases hdst : routeLookup r.routes payload r.defaultDst = kNoForward
    · rw [hdst] at hans
      rw [handleReply_keep hans]
      refine ⟨rfl, ?_⟩
      intro hne
      exact absurd hdst hne
    · have htarget : IsTarget p (routeLookup r.routes payload r.defaultDst) :=
        ⟨(routeLookup_legal payload hroutes hdefault).resolve_left hdst, hself⟩
      have hdata : payload.length ≤ kMaxData := hpayload.trans kMaxPayload_le_kMaxData
      rw [handleReply_forward hans htarget hdata]
      refine ⟨rfl, ?_⟩
      intro _
      exact ⟨_, rfl, rfl, rfl, encodes_iff.mpr hdata⟩

/-- A payload that is not counted as oversized is within the cap of the request. -/
theorem length_le_of_accepted {p : RelayParams} {n : RelayNode} {payload : List UInt8}
    (h : (n.startTransaction p payload).1.oversized = n.oversized) :
    payload.length ≤ kMaxPayload := by
  by_contra hlong
  rw [startTransaction, if_pos (not_le.mp hlong)] at h
  exact Nat.succ_ne_self n.oversized h

/-- **Every payload the relay accepts can be asked for, and every one but the longest goes all the
way.** The payload of exactly `kMaxPayload` bytes fits the request and not the reply: the
responder counts it as oversized and does not answer. -/
theorem trip_of_accepted (p : RelayParams) (txn : UInt16) (payload : List UInt8) (n : RelayNode)
    (haccepted : (n.startTransaction p payload).1.oversized = n.oversized)
    (spec : List UInt8) (routes : List Route) (hroutes : parseRouteMap spec = .ok routes)
    (defaultDst : UInt8) (hdefault : defaultDst = kNoForward ∨ isForwardable defaultDst) :
    (∃ framed, build txn payload = some framed ∧ Encodes (requestFrame p txn framed)) ∧
    (payload.length ≤ kMaxReplyPayload → CompletesTrip p ⟨routes, defaultDst⟩ txn payload) ∧
    (payload.length = kMaxPayload → ∀ (m : RelayNode) (msg : Frame),
      build txn payload = some msg.data →
        m.respond ⟨routes, defaultDst⟩ msg = ({ m with oversized := m.oversized + 1 }, [])) := by
  have hpayload := length_le_of_accepted haccepted
  refine ⟨⟨_, build_of_le hpayload, encodes_requestFrame p txn hpayload⟩, ?_, ?_⟩
  · intro hlen
    exact completesTrip_of_le p txn hlen (parseRouteMap_isForwardable hroutes) hdefault
  · intro hlen m msg hmsg
    have hlong : kMaxReplyPayload < payload.length := by
      rw [hlen, kMaxPayload_eq]
      exact Nat.lt_succ_self _
    exact respond_request_oversized (build_eq_some.mp hmsg).2 hlong

theorem trip_of_accepted_routed :
    parseRouteMap (bytesOf "hi:2") = .ok [⟨bytesOf "hi", 2⟩] ∧
      CompletesTrip ⟨1, 0x10, 2, none, by decide⟩ ⟨[⟨bytesOf "hi", 2⟩], 0⟩ 7 (bytesOf "hi") := by
  have hparse : parseRouteMap (bytesOf "hi:2") = .ok [⟨bytesOf "hi", 2⟩] := by decide +kernel
  exact ⟨hparse, (trip_of_accepted ⟨1, 0x10, 2, none, by decide⟩ 7 (bytesOf "hi") .new rfl _ _
    hparse 0 (.inl rfl)).2.1 (by decide)⟩

/-- The longest payload is sent and cannot be sent back. -/
theorem not_completesTrip :
    let p : RelayParams := ⟨1, 0x10, 2, none, by decide⟩
    let payload : List UInt8 := List.replicate kMaxPayload 0x5A
    (RelayNode.new.startTransaction p payload).1.oversized = 0 ∧
      (RelayNode.new.startTransaction p payload).1.sent = 1 ∧
      parseRouteMap [] = .ok [] ∧ ¬ CompletesTrip p ⟨[], kNoForward⟩ 1 payload := by
  intro p payload
  have hlen : payload.length = kMaxPayload := List.length_replicate
  rw [startTransaction_of_le hlen.le]
  refine ⟨rfl, rfl, by decide +kernel, ?_⟩
  rintro ⟨framed, hbuild, -, htrip⟩
  obtain ⟨answer, hanswer, -⟩ := htrip .new
  have hreq : (received 0 (requestFrame p 1 framed)).data = request 1 payload :=
    (build_eq_some.mp hbuild).2
  have hlong : kMaxReplyPayload < payload.length := by
    rw [hlen, kMaxPayload_eq]
    exact Nat.lt_succ_self _
  rw [respond_request_oversized hreq hlong] at hanswer
  cases hanswer

end Ds10Relay

import Mathlib.Tactic
import DS10Link.Relay.Node

/-!
# The two responders

`RelayNode` in the responder role and the script `ds10_relay_responder.py` answer the same
requests. The node reads the transaction number with a function that also accepts replies, the
script tests for the marker of a request; the two part on replies, and on nothing else.

## Main definitions

* `RelayResponder.onRx`: the script's callback
* `AnswersRequestsOnly`: the node answers requests alone, as the script does

## Main results

* `routeLookup_eq`: the two lookups select the same station
* `answersRequestsOnly_iff`: the responders agree on all data but replies
-/

open Word

namespace Ds10Relay

open Transaction

namespace RelayResponder

/-- `MARKER`, the marker of a request. -/
def marker : List UInt8 := [0xF1, 0xF1]

/-- `REPLY_MARKER`, the marker of a reply. -/
def replyMarker : List UInt8 := [0xF1, 0xF2]

/-- `HDR_LEN`, the length of a request header. -/
def hdrLen : ℕ := 4

/-- The script's `route_lookup`: the first keyword that occurs in the payload wins. -/
def routeLookup (routes : List Route) (payload : List UInt8) (defaultDst : UInt8) : UInt8 :=
  match routes with
  | [] => defaultDst
  | route :: routes =>
    if route.keyword <:+: payload then route.station else routeLookup routes payload defaultDst

/-- The script's `_on_rx`, from the number of requests answered so far. -/
def onRx (r : ResponderParams) (count : ℕ) (msg : Frame) : ℕ × List Frame :=
  if msg.data.length < hdrLen ∨ msg.data.take 2 ≠ marker then (count, [])
  else
    let txn := (msg.data.getD 2 0).toNat <<< 8 ||| (msg.data.getD 3 0).toNat
    let payload := msg.data.drop hdrLen
    let dst := routeLookup r.routes payload r.defaultDst
    let header := [UInt8.ofNat (txn >>> 8 &&& 0xFF), UInt8.ofNat (txn &&& 0xFF), dst]
    (count + 1,
      [{ functionCode := msg.functionCode, data := replyMarker ++ header ++ payload }])

theorem routeLookup_eq (routes : List Route) (payload : List UInt8) (defaultDst : UInt8) :
    routeLookup routes payload defaultDst = Ds10Relay.routeLookup routes payload defaultDst := by
  induction routes with
  | nil => rfl
  | cons route routes ih =>
    rw [routeLookup, Ds10Relay.routeLookup, ih]
    simp only [find_isSome]

/-- The script shifts and masks in unbounded integers; the bytes are those of the header. -/
theorem headerBytes (hi lo : UInt8) :
    UInt8.ofNat ((hi.toNat <<< 8 ||| lo.toNat) >>> 8 &&& 0xFF) = hi ∧
      UInt8.ofNat ((hi.toNat <<< 8 ||| lo.toNat) &&& 0xFF) = lo := by
  have hhi := hi.toNat_lt
  have hlo := lo.toNat_lt
  rw [shiftLeft_or, Nat.shiftRight_eq_div_pow, and_mask, and_mask]
  refine ⟨?_, ?_⟩ <;> apply UInt8.toNat_inj.mp <;> rw [UInt8.toNat_ofNat'] <;> omega

/-- The script's test is the node's test for a request header. -/
theorem dropped_iff (data : List UInt8) :
    (data.length < hdrLen ∨ data.take 2 ≠ marker) ↔ hasHeader data = false := by
  rw [← Bool.not_eq_true, hasHeader_iff]
  constructor
  · rintro h ⟨txn, payload, rfl⟩
    simp [request, hdrLen, marker, kMarker0, kMarker1] at h
    omega
  · intro h
    by_contra hkept
    rw [not_or, not_lt, not_not] at hkept
    obtain ⟨hlen, hmarker⟩ := hkept
    rcases data with _ | ⟨m₀, _ | ⟨m₁, _ | ⟨hi, _ | ⟨lo, payload⟩⟩⟩⟩ <;>
      simp [hdrLen, marker] at hlen hmarker
    obtain ⟨rfl, rfl⟩ := hmarker
    exact h ⟨wordOf hi lo, payload, by simp [request, kMarker0, kMarker1]⟩

theorem onRx_request (r : ResponderParams) (count : ℕ) (msg : Frame) (txn : UInt16)
    (payload : List UInt8) (h : msg.data = request txn payload) :
    onRx r count msg = (count + 1,
      [{ functionCode := msg.functionCode
         data := reply txn (RelayNode.routeFor r payload) payload }]) := by
  obtain ⟨hhi, hlo⟩ := headerBytes (hiByte txn) (loByte txn)
  have hdrop : ¬ (msg.data.length < hdrLen ∨ msg.data.take 2 ≠ marker) := by
    rw [dropped_iff, h]
    simp
  unfold onRx
  rw [if_neg hdrop, h]
  simp [request, reply, hdrLen, hhi, hlo, routeLookup_eq, RelayNode.routeFor, replyMarker,
    kMarker0, kReplyMarker1]

theorem onRx_dropped (r : ResponderParams) (count : ℕ) (msg : Frame)
    (h : hasHeader msg.data = false) : onRx r count msg = (count, []) :=
  if_pos ((dropped_iff msg.data).mpr h)

end RelayResponder

/-- The node answers the data exactly when it is a request, then with what the script publishes;
anything else it drops and counts as ignored, and the script drops it too. -/
structure AnswersRequestsOnly (r : ResponderParams) (n : RelayNode) (count : ℕ) (msg : Frame) :
    Prop where
  published_iff : (n.respond r msg).2 ≠ [] ↔ hasHeader msg.data = true
  published_eq : hasHeader msg.data = true →
    (n.respond r msg).2 = (RelayResponder.onRx r count msg).2
  ignored : hasHeader msg.data = false →
    n.respond r msg = ({ n with ignored := n.ignored + 1 }, []) ∧
      (RelayResponder.onRx r count msg).2 = []

variable {r : ResponderParams} {n : RelayNode} {count : ℕ} {msg : Frame}

/-- What the node does on a request that can be answered. -/
theorem RelayNode.respond_request {txn : UInt16} {payload : List UInt8}
    (h : msg.data = request txn payload) (hlen : payload.length ≤ kMaxReplyPayload) :
    n.respond r msg = ({ n with answered := n.answered + 1 },
      [{ functionCode := msg.functionCode
         data := reply txn (RelayNode.routeFor r payload) payload }]) := by
  simp [respond, h, buildReply_of_le hlen]

/-- What the node does on a request whose payload leaves no room for the reply header. -/
theorem RelayNode.respond_request_oversized {txn : UInt16} {payload : List UInt8}
    (h : msg.data = request txn payload) (hlen : kMaxReplyPayload < payload.length) :
    n.respond r msg = ({ n with oversized := n.oversized + 1 }, []) := by
  simp [respond, h, buildReply_of_lt hlen]

/-- A frame in the reply format is never counted as ignored. -/
theorem RelayNode.ignored_respond_reply (h : hasReplyHeader msg.data = true) :
    (n.respond r msg).1.ignored = n.ignored := by
  obtain ⟨txn, dst, payload, hdata⟩ := hasReplyHeader_iff.mp h
  unfold respond
  rw [hdata, parseTxn_reply]
  dsimp only
  split <;> rfl

/-- **The two responders part on replies only.** On data of at most 4090 bytes the node answers
requests only, and as the script does, unless the data carries a reply header. -/
theorem answersRequestsOnly_iff (r : ResponderParams) (n : RelayNode) (count : ℕ) (msg : Frame)
    (hlen : msg.data.length ≤ 4090) :
    AnswersRequestsOnly r n count msg ↔ hasReplyHeader msg.data = false := by
  constructor
  · intro h
    by_contra hreply
    rw [Bool.not_eq_false] at hreply
    have hheader : hasHeader msg.data = false := by
      obtain ⟨txn, dst, payload, hdata⟩ := hasReplyHeader_iff.mp hreply
      rw [hdata, hasHeader_reply]
    have hcount := RelayNode.ignored_respond_reply (r := r) (n := n) hreply
    rw [(h.ignored hheader).1] at hcount
    exact Nat.succ_ne_self n.ignored hcount
  · intro hreply
    cases hheader : hasHeader msg.data with
    | true =>
      obtain ⟨txn, payload, hdata⟩ := hasHeader_iff.mp hheader
      have hpayload : payload.length ≤ kMaxReplyPayload := by
        rw [hdata, length_request] at hlen
        exact Nat.le_of_add_le_add_right hlen
      have hnode := RelayNode.respond_request (r := r) (n := n) hdata hpayload
      have hscript := RelayResponder.onRx_request r count msg txn payload hdata
      refine ⟨?_, ?_, ?_⟩
      · simp [hnode, hheader]
      · intro _
        rw [hnode, hscript]
      · simp [hheader]
    | false =>
      have hnode : n.respond r msg = ({ n with ignored := n.ignored + 1 }, []) := by
        simp [RelayNode.respond, parseTxn, hheader, hreply]
      refine ⟨?_, ?_, ?_⟩
      · simp [hnode, hheader]
      · simp [hheader]
      · intro _
        exact ⟨hnode, by rw [RelayResponder.onRx_dropped r count msg hheader]⟩

theorem answersRequestsOnly_iff_hi :
    hasReplyHeader [0xF1, 0xF1, 0, 1, 0x68, 0x69] = false ∧
      AnswersRequestsOnly ⟨[⟨[0x68], 2⟩], 0⟩ .new 0
        { functionCode := 0x10, data := [0xF1, 0xF1, 0, 1, 0x68, 0x69] } :=
  ⟨by decide, (answersRequestsOnly_iff _ _ _ _ (by decide)).mpr (by decide)⟩

/-- A reply is answered by the node, with a header in front of it, and dropped by the script. -/
theorem not_answersRequestsOnly :
    let msg : Frame := { functionCode := 0x10, data := [0xF1, 0xF2, 0, 1, 2] }
    (RelayNode.new.respond ⟨[], 0⟩ msg).2 =
        [{ functionCode := 0x10, data := [0xF1, 0xF2, 0, 1, 0, 0xF1, 0xF2, 0, 1, 2] }] ∧
      (RelayResponder.onRx ⟨[], 0⟩ 0 msg).2 = [] ∧
      ¬ AnswersRequestsOnly ⟨[], 0⟩ .new 0 msg := by
  intro msg
  refine ⟨by decide, by decide, ?_⟩
  intro h
  exact absurd (h.published_iff.mp (by decide)) (by decide)

end Ds10Relay

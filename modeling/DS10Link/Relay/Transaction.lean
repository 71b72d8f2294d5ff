import Mathlib.Tactic
import DS10Link.Stream.Word

/-!
# The transaction header

Requests and replies travel in the Modbus data field behind a small header. A request carries
`F1 F1` and a transaction number, a reply carries `F1 F2`, the number and the station the slave
wants its answer forwarded to. The second marker byte alone tells the two apart.

## Main definitions

* `build`, `buildReply`: the two headers prepended, under the caps of the data field
* `parseTxn`, `parseDst`, `stripHeader`, `stripReplyHeader`: what a receiver reads back
* `request`, `reply`: the two layouts

## Main results

* `hasHeader_iff`, `hasReplyHeader_iff`: the header predicates accept exactly the two layouts
-/

open Word

namespace Ds10Relay

namespace Transaction

def kMarker0 : UInt8 := 0xF1

def kMarker1 : UInt8 := 0xF1

/-- The second marker byte of a reply. -/
def kReplyMarker1 : UInt8 := 0xF2

def kHeaderLen : ℕ := 4

def kReplyHeaderLen : ℕ := kHeaderLen + 1

/-- The `dst` of a reply that asks for no forwarding. -/
def kNoForward : UInt8 := 0

def kMinStation : UInt8 := 1

def kMaxStation : UInt8 := 247

/-- The largest data field the driver accepts. -/
def kMaxData : ℕ := 4091

/-- The largest payload behind a request header. -/
def kMaxPayload : ℕ := kMaxData - kHeaderLen

/-- The largest payload behind a reply header. -/
def kMaxReplyPayload : ℕ := kMaxData - kReplyHeaderLen

theorem kMaxPayload_le_kMaxData : kMaxPayload ≤ kMaxData := Nat.sub_le _ _

/-- The destination byte of a reply costs a byte of payload. -/
theorem kMaxPayload_eq : kMaxPayload = kMaxReplyPayload + 1 := rfl

/-! ## The functions of the header -/

/-- The data carries a request header. -/
def hasHeader (data : List UInt8) : Bool :=
  kHeaderLen ≤ data.length && data.getD 0 0 == kMarker0 && data.getD 1 0 == kMarker1

/-- The data carries a reply header. -/
def hasReplyHeader (data : List UInt8) : Bool :=
  kReplyHeaderLen ≤ data.length && data.getD 0 0 == kMarker0 &&
    data.getD 1 0 == kReplyMarker1

/-- The transaction number behind either header, high byte first. -/
def parseTxn (data : List UInt8) : Option UInt16 :=
  if !hasHeader data && !hasReplyHeader data then none
  else some (wordOf (data.getD 2 0) (data.getD 3 0))

/-- The forwarding target of a reply, as sent. -/
def parseDst (data : List UInt8) : Option UInt8 :=
  if !hasReplyHeader data then none else some (data.getD kHeaderLen 0)

/-- The destination names a station a reply can be forwarded to. -/
def isForwardable (dst : UInt8) : Bool :=
  kMinStation ≤ dst && dst ≤ kMaxStation

/-- Build a request, or nothing when it would not fit the data field. -/
def build (txn : UInt16) (payload : List UInt8) : Option (List UInt8) :=
  if payload.length > kMaxPayload then none
  else some ([kMarker0, kMarker1, hiByte txn, loByte txn] ++ payload)

/-- Build a reply, or nothing when it would not fit the data field. -/
def buildReply (txn : UInt16) (dst : UInt8) (payload : List UInt8) : Option (List UInt8) :=
  if payload.length > kMaxReplyPayload then none
  else some ([kMarker0, kReplyMarker1, hiByte txn, loByte txn, dst] ++ payload)

/-- The payload behind a request header; other data is returned unchanged. -/
def stripHeader (data : List UInt8) : List UInt8 :=
  if !hasHeader data then data else data.drop kHeaderLen

/-- The payload behind a reply header; other data is returned unchanged. -/
def stripReplyHeader (data : List UInt8) : List UInt8 :=
  if !hasReplyHeader data then data else data.drop kReplyHeaderLen

/-! ## The two layouts -/

/-- The layout of a request. -/
def request (txn : UInt16) (payload : List UInt8) : List UInt8 :=
  kMarker0 :: kMarker1 :: hiByte txn :: loByte txn :: payload

/-- The layout of a reply. -/
def reply (txn : UInt16) (dst : UInt8) (payload : List UInt8) : List UInt8 :=
  kMarker0 :: kReplyMarker1 :: hiByte txn :: loByte txn :: dst :: payload

@[simp] theorem length_request (txn : UInt16) (payload : List UInt8) :
    (request txn payload).length = payload.length + kHeaderLen := rfl

@[simp] theorem length_reply (txn : UInt16) (dst : UInt8) (payload : List UInt8) :
    (reply txn dst payload).length = payload.length + kReplyHeaderLen := rfl

theorem hasHeader_iff {data : List UInt8} :
    hasHeader data ↔ ∃ txn payload, data = request txn payload := by
  constructor
  · intro h
    -- Shorter data fails the length test.
    rcases data with _ | ⟨m₀, _ | ⟨m₁, _ | ⟨hi, _ | ⟨lo, payload⟩⟩⟩⟩ <;>
      simp [hasHeader, kHeaderLen] at h
    obtain ⟨rfl, rfl⟩ := h
    exact ⟨wordOf hi lo, payload, by simp [request]⟩
  · rintro ⟨txn, payload, rfl⟩
    simp [hasHeader, request, kHeaderLen]

theorem hasReplyHeader_iff {data : List UInt8} :
    hasReplyHeader data ↔ ∃ txn dst payload, data = reply txn dst payload := by
  constructor
  · intro h
    rcases data with _ | ⟨m₀, _ | ⟨m₁, _ | ⟨hi, _ | ⟨lo, _ | ⟨dst, payload⟩⟩⟩⟩⟩ <;>
      simp [hasReplyHeader, kReplyHeaderLen, kHeaderLen] at h
    obtain ⟨rfl, rfl⟩ := h
    exact ⟨wordOf hi lo, dst, payload, by simp [reply]⟩
  · rintro ⟨txn, dst, payload, rfl⟩
    simp [hasReplyHeader, reply, kReplyHeaderLen, kHeaderLen]

section Layouts

variable (txn : UInt16) (dst : UInt8) (payload : List UInt8)

@[simp] theorem hasHeader_request : hasHeader (request txn payload) = true :=
  hasHeader_iff.mpr ⟨_, _, rfl⟩

@[simp] theorem hasReplyHeader_reply : hasReplyHeader (reply txn dst payload) = true :=
  hasReplyHeader_iff.mpr ⟨_, _, _, rfl⟩

-- The second marker byte keeps the two layouts apart, whatever follows it.
@[simp] theorem hasReplyHeader_request : hasReplyHeader (request txn payload) = false := by
  simp [hasReplyHeader, request, kMarker1, kReplyMarker1]

@[simp] theorem hasHeader_reply : hasHeader (reply txn dst payload) = false := by
  simp [hasHeader, reply, kMarker1, kReplyMarker1]

@[simp] theorem parseTxn_request : parseTxn (request txn payload) = some txn := by
  simp [parseTxn, request, hasHeader, kHeaderLen]

@[simp] theorem parseTxn_reply : parseTxn (reply txn dst payload) = some txn := by
  simp [parseTxn, reply, hasReplyHeader, kReplyHeaderLen, kHeaderLen]

@[simp] theorem parseDst_request : parseDst (request txn payload) = none := by
  simp [parseDst]

@[simp] theorem parseDst_reply : parseDst (reply txn dst payload) = some dst := by
  simp [parseDst, reply, hasReplyHeader, kReplyHeaderLen, kHeaderLen]

@[simp] theorem stripHeader_request : stripHeader (request txn payload) = payload := by
  simp [stripHeader, request, hasHeader, kHeaderLen]

@[simp] theorem stripHeader_reply :
    stripHeader (reply txn dst payload) = reply txn dst payload := by
  simp [stripHeader]

@[simp] theorem stripReplyHeader_reply : stripReplyHeader (reply txn dst payload) = payload := by
  simp [stripReplyHeader, reply, hasReplyHeader, kReplyHeaderLen, kHeaderLen]

end Layouts

/-- A request determines its number and its payload. -/
theorem request_inj {txn txn' : UInt16} {payload payload' : List UInt8}
    (h : request txn payload = request txn' payload') : txn = txn' ∧ payload = payload' := by
  have htxn := congrArg parseTxn h
  have hpayload := congrArg stripHeader h
  rw [parseTxn_request, parseTxn_request, Option.some_inj] at htxn
  rw [stripHeader_request, stripHeader_request] at hpayload
  exact ⟨htxn, hpayload⟩

/-- A reply determines its number, its destination and its payload. -/
theorem reply_inj {txn txn' : UInt16} {dst dst' : UInt8} {payload payload' : List UInt8}
    (h : reply txn dst payload = reply txn' dst' payload') :
    txn = txn' ∧ dst = dst' ∧ payload = payload' := by
  have htxn := congrArg parseTxn h
  have hdst := congrArg parseDst h
  have hpayload := congrArg stripReplyHeader h
  rw [parseTxn_reply, parseTxn_reply, Option.some.injEq] at htxn
  rw [parseDst_reply, parseDst_reply, Option.some.injEq] at hdst
  rw [stripReplyHeader_reply, stripReplyHeader_reply] at hpayload
  exact ⟨htxn, hdst, hpayload⟩

theorem build_of_le {txn : UInt16} {payload : List UInt8} (h : payload.length ≤ kMaxPayload) :
    build txn payload = some (request txn payload) :=
  if_neg (Nat.not_lt.mpr h)

theorem build_eq_some {txn : UInt16} {payload data : List UInt8} :
    build txn payload = some data ↔ payload.length ≤ kMaxPayload ∧ data = request txn payload := by
  unfold build
  split
  · next h =>
    simp only [reduceCtorEq, false_iff, not_and]
    intro hle
    exact absurd hle (Nat.not_le.mpr h)
  · next h => simp [request, Nat.not_lt.mp h, eq_comm]

theorem buildReply_of_le {txn : UInt16} {dst : UInt8} {payload : List UInt8}
    (h : payload.length ≤ kMaxReplyPayload) :
    buildReply txn dst payload = some (reply txn dst payload) :=
  if_neg (Nat.not_lt.mpr h)

theorem buildReply_of_lt {txn : UInt16} {dst : UInt8} {payload : List UInt8}
    (h : kMaxReplyPayload < payload.length) : buildReply txn dst payload = none :=
  if_pos h

/-- Data with a transaction number is a request or a reply with that number. -/
theorem parseTxn_eq_some {data : List UInt8} {txn : UInt16} :
    parseTxn data = some txn ↔
      (∃ payload, data = request txn payload) ∨ ∃ dst payload, data = reply txn dst payload := by
  constructor
  · intro h
    -- The number is read behind either header, and the headers are the two layouts.
    by_cases h₁ : hasHeader data
    · obtain ⟨t, payload, rfl⟩ := hasHeader_iff.mp h₁
      rw [parseTxn_request, Option.some.injEq] at h
      exact .inl ⟨payload, by rw [h]⟩
    · by_cases h₂ : hasReplyHeader data
      · obtain ⟨t, dst, payload, rfl⟩ := hasReplyHeader_iff.mp h₂
        rw [parseTxn_reply, Option.some.injEq] at h
        exact .inr ⟨dst, payload, by rw [h]⟩
      · simp [parseTxn, h₁, h₂] at h
  · rintro (⟨payload, rfl⟩ | ⟨dst, payload, rfl⟩)
    · exact parseTxn_request txn payload
    · exact parseTxn_reply txn dst payload

theorem isForwardable_iff {dst : UInt8} :
    isForwardable dst ↔ kMinStation ≤ dst ∧ dst ≤ kMaxStation := by
  simp [isForwardable]

end Transaction

end Ds10Relay

import Mathlib.Tactic
import DS10Link.Relay.Transaction

/-!
# The two headers, read back

A receiver reads a header with functions that accept either kind, so the two must be told apart on
every payload, also on one that starts with a marker itself. Each header reads back as itself and
not as the other, and what reads as a header is the one that was built.

## Main definitions

* `ReadsAsRequest`, `ReadsAsReply`, `ReadsAsPlain`: what the functions of the header return on the
  three kinds of data

## Main results

* `readsAsRequest_iff`, `readsAsReply_iff`, `readsAsPlain_iff`: the three kinds by their layout
* `headers_invertible`: building and reading undo each other, and every data field is of one kind
-/

namespace Ds10Relay

namespace Transaction

/-- The data reads as a request for `txn` that carries `payload`. -/
structure ReadsAsRequest (data : List UInt8) (txn : UInt16) (payload : List UInt8) : Prop where
  hasHeader_eq : hasHeader data = true
  hasReplyHeader_eq : hasReplyHeader data = false
  parseTxn_eq : parseTxn data = some txn
  parseDst_eq : parseDst data = none
  stripHeader_eq : stripHeader data = payload
  stripReplyHeader_eq : stripReplyHeader data = data

/-- The data reads as a reply for `txn` that names `dst` and carries `payload`. -/
structure ReadsAsReply (data : List UInt8) (txn : UInt16) (dst : UInt8) (payload : List UInt8) :
    Prop where
  hasHeader_eq : hasHeader data = false
  hasReplyHeader_eq : hasReplyHeader data = true
  parseTxn_eq : parseTxn data = some txn
  parseDst_eq : parseDst data = some dst
  stripHeader_eq : stripHeader data = data
  stripReplyHeader_eq : stripReplyHeader data = payload

/-- The data reads as neither. -/
structure ReadsAsPlain (data : List UInt8) : Prop where
  hasHeader_eq : hasHeader data = false
  hasReplyHeader_eq : hasReplyHeader data = false
  parseTxn_eq : parseTxn data = none
  parseDst_eq : parseDst data = none
  stripHeader_eq : stripHeader data = data
  stripReplyHeader_eq : stripReplyHeader data = data

variable {data payload : List UInt8} {txn : UInt16} {dst : UInt8}

theorem stripReplyHeader_request :
    stripReplyHeader (request txn payload) = request txn payload := by
  simp [stripReplyHeader]

/-- Data reads as a request exactly when it is laid out as one. -/
theorem readsAsRequest_iff : ReadsAsRequest data txn payload ↔ data = request txn payload := by
  constructor
  · rintro ⟨hheader, -, htxn, -, hstrip, -⟩
    obtain ⟨t, q, rfl⟩ := hasHeader_iff.mp hheader
    rw [parseTxn_request, Option.some.injEq] at htxn
    rw [stripHeader_request] at hstrip
    rw [htxn, hstrip]
  · rintro rfl
    exact ⟨hasHeader_request txn payload, hasReplyHeader_request txn payload,
      parseTxn_request txn payload, parseDst_request txn payload, stripHeader_request txn payload,
      stripReplyHeader_request⟩

/-- Data reads as a reply exactly when it is laid out as one. -/
theorem readsAsReply_iff : ReadsAsReply data txn dst payload ↔ data = reply txn dst payload := by
  constructor
  · rintro ⟨-, hheader, htxn, hdst, -, hstrip⟩
    obtain ⟨t, d, q, rfl⟩ := hasReplyHeader_iff.mp hheader
    rw [parseTxn_reply, Option.some.injEq] at htxn
    rw [parseDst_reply, Option.some.injEq] at hdst
    rw [stripReplyHeader_reply] at hstrip
    rw [htxn, hdst, hstrip]
  · rintro rfl
    exact ⟨hasHeader_reply txn dst payload, hasReplyHeader_reply txn dst payload,
      parseTxn_reply txn dst payload, parseDst_reply txn dst payload,
      stripHeader_reply txn dst payload, stripReplyHeader_reply txn dst payload⟩

/-- Data reads as neither exactly when it carries neither header. -/
theorem readsAsPlain_iff :
    ReadsAsPlain data ↔ hasHeader data = false ∧ hasReplyHeader data = false := by
  constructor
  · intro h
    exact ⟨h.hasHeader_eq, h.hasReplyHeader_eq⟩
  · rintro ⟨h₁, h₂⟩
    refine ⟨h₁, h₂, ?_, ?_, ?_, ?_⟩
    · simp [parseTxn, h₁, h₂]
    · simp [parseDst, h₂]
    · simp [stripHeader, h₁]
    · simp [stripReplyHeader, h₂]

theorem buildReply_eq_some :
    buildReply txn dst payload = some data ↔
      payload.length ≤ kMaxReplyPayload ∧ data = reply txn dst payload := by
  by_cases h : payload.length ≤ kMaxReplyPayload
  · rw [buildReply_of_le h, Option.some.injEq, eq_comm, and_iff_right h]
  · rw [buildReply_of_lt (not_le.mp h)]
    simp [h]

theorem build_isSome : (build txn payload).isSome ↔ payload.length ≤ kMaxPayload := by
  rw [Option.isSome_iff_exists]
  simp only [build_eq_some, exists_and_left, exists_eq, and_true]

theorem buildReply_isSome :
    (buildReply txn dst payload).isSome ↔ payload.length ≤ kMaxReplyPayload := by
  rw [Option.isSome_iff_exists]
  simp only [buildReply_eq_some, exists_and_left, exists_eq, and_true]

/-- A request under the cap of the data field is the one built from what it reads as. -/
theorem build_of_hasHeader (hlen : data.length ≤ kMaxData) (h : hasHeader data = true) :
    ∃ txn, parseTxn data = some txn ∧ build txn (stripHeader data) = some data := by
  obtain ⟨txn, payload, rfl⟩ := hasHeader_iff.mp h
  refine ⟨txn, parseTxn_request txn payload, ?_⟩
  rw [stripHeader_request]
  exact build_of_le (Nat.le_sub_of_add_le hlen)

/-- So is a reply. -/
theorem buildReply_of_hasReplyHeader (hlen : data.length ≤ kMaxData)
    (h : hasReplyHeader data = true) :
    ∃ txn dst, parseTxn data = some txn ∧ parseDst data = some dst ∧
      buildReply txn dst (stripReplyHeader data) = some data := by
  obtain ⟨txn, dst, payload, rfl⟩ := hasReplyHeader_iff.mp h
  refine ⟨txn, dst, parseTxn_reply txn dst payload, parseDst_reply txn dst payload, ?_⟩
  rw [stripReplyHeader_reply]
  exact buildReply_of_le (Nat.le_sub_of_add_le hlen)

/-- **The two headers are disjoint and exactly invertible.** What is built, for any number,
destination and payload under its cap, reads as the one kind with the values it was built from;
and any data the driver can deliver is built from what it reads as, or reads as neither kind. -/
theorem headers_invertible :
    (∀ (txn : UInt16) (payload : List UInt8),
      ((build txn payload).isSome ↔ payload.length ≤ kMaxPayload) ∧
        ∀ data ∈ build txn payload, ReadsAsRequest data txn payload) ∧
    (∀ (txn : UInt16) (dst : UInt8) (payload : List UInt8),
      ((buildReply txn dst payload).isSome ↔ payload.length ≤ kMaxReplyPayload) ∧
        ∀ data ∈ buildReply txn dst payload, ReadsAsReply data txn dst payload) ∧
    (∀ data : List UInt8, data.length ≤ kMaxData →
      (hasHeader data = true →
        ∃ txn, parseTxn data = some txn ∧ build txn (stripHeader data) = some data) ∧
      (hasReplyHeader data = true →
        ∃ txn dst, parseTxn data = some txn ∧ parseDst data = some dst ∧
          buildReply txn dst (stripReplyHeader data) = some data) ∧
      ¬ (hasHeader data = true ∧ hasReplyHeader data = true) ∧
      (hasHeader data = false → hasReplyHeader data = false → ReadsAsPlain data)) := by
  refine ⟨?_, ?_, ?_⟩
  · intro txn payload
    refine ⟨build_isSome, ?_⟩
    intro data hdata
    exact readsAsRequest_iff.mpr (build_eq_some.mp hdata).2
  · intro txn dst payload
    refine ⟨buildReply_isSome, ?_⟩
    intro data hdata
    exact readsAsReply_iff.mpr (buildReply_eq_some.mp hdata).2
  · intro data hlen
    refine ⟨build_of_hasHeader hlen, buildReply_of_hasReplyHeader hlen, ?_, ?_⟩
    · rintro ⟨h₁, h₂⟩
      obtain ⟨txn, payload, rfl⟩ := hasHeader_iff.mp h₁
      rw [hasReplyHeader_request] at h₂
      cases h₂
    · intro h₁ h₂
      exact readsAsPlain_iff.mpr ⟨h₁, h₂⟩

end Transaction

end Ds10Relay

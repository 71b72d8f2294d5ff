import DS10Link.Driver.FrameScanner

/-!
# Encoding and decoding

A candidate passes the frame check exactly when it is its own front followed by the CRC of that
front. So `encode` produces frames that pass at their full length, and what the decoder takes is
the encoding of what it reports. A frame is decoded as a whole when none of its shorter candidates
passes, the only ambiguity of a format without a length field.

## Main definitions

* `Unambiguous f`: no proper prefix of `f` passes the frame check

## Main results

* `crcMatches_iff`: the frame check, as an equation of byte strings
* `ModbusFrameCodec.encode_decodeCandidate`: what is decoded encodes to the bytes taken
* `ModbusFrameCodec.feed_encode_iff`: decoding undoes encoding exactly on unambiguous frames
* `ModbusFrameCodec.feedChunks_encoded`: sticky and split packets
-/

open Word

namespace Ds10Driver

/-- No proper prefix of `f` that is long enough for a frame passes the frame check. -/
def Unambiguous (f : List UInt8) : Prop :=
  ∀ len, kMinFrameLen ≤ len → len < f.length → crcMatches f len = false

instance (f : List UInt8) : Decidable (Unambiguous f) :=
  decidable_of_iff (∀ len < f.length, kMinFrameLen ≤ len → crcMatches f len = false)
    ⟨fun h len h₁ h₂ => h len h₂ h₁, fun h len h₁ h₂ => h len h₂ h₁⟩

/-! ## The frame check as an equation -/

theorem crcBytes_eq_iff {crc : UInt16} {lo hi : UInt8} :
    crc = wordOf hi lo ↔ [lo, hi] = crcBytes crc := by
  constructor
  · rintro rfl
    simp [crcBytes]
  · intro h
    obtain ⟨rfl, rfl⟩ : lo = loByte crc ∧ hi = hiByte crc := by simpa [crcBytes] using h
    exact (wordOf_bytes crc).symm

/-- A candidate is its front and two more bytes. -/
theorem take_add_two {w : List UInt8} {n : ℕ} (h : n + 2 ≤ w.length) :
    w.take (n + 2) = w.take n ++ [w.getD n 0, w.getD (n + 1) 0] := by
  have hlo : w[n]? = some (w.getD n 0) := by
    rw [List.getD_eq_getElem w 0 (by omega), List.getElem?_eq_getElem]
  have hhi : w[n + 1]? = some (w.getD (n + 1) 0) := by
    rw [List.getD_eq_getElem w 0 (by omega), List.getElem?_eq_getElem]
  rw [List.take_add_one, List.take_add_one, hlo, hhi, List.append_assoc]
  rfl

/-- The frame check compares the CRC of the front with the two bytes, low byte first. -/
theorem crcMatches_add_two (w : List UInt8) (n : ℕ) :
    crcMatches w (n + 2) = true ↔ crc16 (w.take n) = wordOf (w.getD (n + 1) 0) (w.getD n 0) := by
  have hlen : n + 2 - 1 = n + 1 := by omega
  rw [crcMatches, onWire, beq_iff_eq, Nat.add_sub_cancel, hlen]

/-- A candidate passes the frame check when it is its front followed by the front's CRC. -/
theorem crcMatches_iff {w : List UInt8} {len : ℕ} (h₂ : 2 ≤ len) (h : len ≤ w.length) :
    crcMatches w len = true ↔
      w.take len = w.take (len - 2) ++ crcBytes (crc16 (w.take (len - 2))) := by
  obtain ⟨n, rfl⟩ : ∃ n, len = n + 2 := ⟨len - 2, by omega⟩
  rw [crcMatches_add_two, Nat.add_sub_cancel, take_add_two h, crcBytes_eq_iff,
    List.append_cancel_left_eq]

namespace ModbusFrameCodec

variable {c : ModbusFrameCodec} {station functionCode : UInt8} {data f : List UInt8}

theorem encode_eq_some :
    c.encode station functionCode data = some f ↔
      2 + data.length + 2 ≤ c.maxFrameLen ∧
        f = station :: functionCode :: data ++
          crcBytes (crc16 (station :: functionCode :: data)) := by
  simp only [encode]
  split
  · simp only [reduceCtorEq, false_iff, not_and]
    omega
  · simp only [Option.some.injEq]
    constructor
    · rintro rfl
      exact ⟨by omega, rfl⟩
    · rintro ⟨-, rfl⟩
      rfl

theorem length_of_encode (h : c.encode station functionCode data = some f) :
    f.length = data.length + 4 := by
  obtain ⟨-, rfl⟩ := encode_eq_some.mp h
  simp [crcBytes]

/-- An encoded frame passes the frame check at its full length, whatever its station. -/
theorem crcMatches_encode (h : c.encode station functionCode data = some f) :
    crcMatches f f.length = true := by
  have hlen := length_of_encode h
  rw [crcMatches_iff (by omega) le_rfl, List.take_length, hlen]
  obtain ⟨-, rfl⟩ := encode_eq_some.mp h
  have hfront : (station :: functionCode :: data ++
      crcBytes (crc16 (station :: functionCode :: data))).take (data.length + 4 - 2) =
        station :: functionCode :: data := List.take_left' (by simp)
  rw [hfront]

/-- An encoded frame is a complete frame at its full length. -/
theorem frameAt_of_encode (hst : IsStation station)
    (h : c.encode station functionCode data = some f) :
    FrameAt c.maxFrameLen f f.length where
  station := by
    obtain ⟨-, rfl⟩ := encode_eq_some.mp h
    exact ⟨station, rfl, hst⟩
  min_le := by
    rw [length_of_encode h, kMinFrameLen]
    omega
  le_cap := by
    obtain ⟨hcap, -⟩ := encode_eq_some.mp h
    rw [length_of_encode h]
    omega
  le_length := le_rfl
  crc := crcMatches_encode h

/-- The candidate of full length is the frame that was encoded. -/
theorem decodeCandidate_encode (h : c.encode station functionCode data = some f) :
    decodeCandidate f f.length = ⟨station, functionCode, data⟩ := by
  obtain ⟨-, rfl⟩ := encode_eq_some.mp h
  simp [decodeCandidate, crcBytes]

/-- **What is decoded encodes to the bytes taken.** -/
theorem encode_decodeCandidate {w : List UInt8} {n : ℕ} (h : FrameAt c.maxFrameLen w n) :
    c.encode (decodeCandidate w n).station (decodeCandidate w n).functionCode
      (decodeCandidate w n).data = some (w.take n) := by
  obtain ⟨-, hmin, hcap, hlen, hcrc⟩ := h
  simp only [kMinFrameLen] at hmin
  -- Station, function code and data are the candidate without its CRC.
  have hfront : (decodeCandidate w n).station :: (decodeCandidate w n).functionCode ::
      (decodeCandidate w n).data = w.take (n - 2) := by
    obtain ⟨k, rfl⟩ : ∃ k, n = k + 4 := ⟨n - 4, by omega⟩
    rcases w with _ | ⟨a, _ | ⟨b, t⟩⟩
    · simp at hlen
    · simp at hlen
    · simp [decodeCandidate]
  refine encode_eq_some.mpr ⟨?_, ?_⟩
  · have := congrArg List.length hfront
    simp only [List.length_cons, List.length_take] at this
    omega
  · rw [hfront]
    exact (crcMatches_iff (by omega) hlen).mp hcrc

/-! ## Decoding what was encoded -/

/-- An unambiguous encoded frame is taken as a whole. -/
theorem verdict_encode (hst : IsStation station)
    (h : c.encode station functionCode data = some f) (hun : Unambiguous f) :
    frameVerdict c.maxFrameLen f = .take f.length ⟨station, functionCode, data⟩ :=
  verdict_eq_take.mpr ⟨frameAt_of_encode hst h, hun, (decodeCandidate_encode h).symm⟩

/-- **Decoding undoes encoding exactly on unambiguous frames.** A payload that makes a proper
prefix of its frame pass the frame check is cut off at the shortest such prefix. -/
theorem feed_encode_iff (maxFrameLen : ℕ) (station functionCode : UInt8) (data f : List UInt8)
    (hst : IsStation station)
    (henc : (new maxFrameLen).encode station functionCode data = some f) :
    ((((new maxFrameLen).feed f).2 = [⟨station, functionCode, data⟩]) ∧
        ((new maxFrameLen).feed f).1.buffered = 0 ∧
        ((new maxFrameLen).feed f).1.resyncDropped = 0) ↔
      Unambiguous f := by
  rw [buffered, frames_feed, buffer_feed, resyncDropped_feed, new_buffer, List.nil_append]
  constructor
  · rintro ⟨hframes, -, -⟩ len hmin hlt
    by_contra hcrc
    have hfull := frameAt_of_encode hst henc
    have hat : FrameAt (new maxFrameLen).maxFrameLen f len :=
      ⟨hfull.station, hmin, by have := hfull.le_cap; omega, hlt.le, by simpa using hcrc⟩
    -- The scanner takes the shortest candidate, whose data is shorter than what was encoded.
    obtain ⟨n, hn, hv⟩ := hat.exists_take
    rw [Scanner.scan_of_take _ hv, Piece.outs_token, List.cons_eq_cons] at hframes
    have hdata := congrArg (List.length ∘ DecodedFrame.data) hframes.1
    have hlen := length_of_encode henc
    simp only [Function.comp_apply, decodeCandidate, List.length_drop, List.length_take] at hdata
    obtain ⟨⟨-, hmin', -, -, -⟩, -, -⟩ := verdict_eq_take.mp hv
    simp only [kMinFrameLen] at hmin'
    omega
  · intro hun
    -- The frame is a stream of one token.
    have hscan := (frameScanner (new maxFrameLen).maxFrameLen).scan_tokens
      (.cons (verdict_encode hst henc hun) .nil)
    rw [List.flatten_singleton] at hscan
    rw [hscan]
    exact ⟨rfl, rfl, rfl⟩

/-- A frame whose data starts with the CRC of its own station and function code is cut off there:
decoding does not undo encoding on every payload. -/
theorem not_feed_encode :
    ¬ ∀ (maxFrameLen : ℕ) (station functionCode : UInt8) (data f : List UInt8),
      IsStation station → (new maxFrameLen).encode station functionCode data = some f →
        ((new maxFrameLen).feed f).2 = [⟨station, functionCode, data⟩] ∧
          ((new maxFrameLen).feed f).1.buffered = 0 ∧
          ((new maxFrameLen).feed f).1.resyncDropped = 0 := by
  intro h
  obtain ⟨hframes, -, -⟩ := h 4095 0x01 0x03 [0x40, 0x21] [0x01, 0x03, 0x40, 0x21, 0x00, 0x00]
    (by decide) (by decide +kernel)
  have hv : (frameScanner (new 4095).maxFrameLen).verdict [0x01, 0x03, 0x40, 0x21, 0x00, 0x00] =
      .take 4 ⟨0x01, 0x03, []⟩ := by decide +kernel
  rw [frames_feed, new_buffer, List.nil_append, Scanner.scan_of_take _ hv, Piece.outs_token,
    List.cons_eq_cons] at hframes
  exact absurd hframes.1 (by decide)

/-- The frame of `hi` to station 5 is unambiguous. -/
theorem feed_encode_iff_hi :
    ((new 4095).feed [0x05, 0x10, 0x68, 0x69, 0xEE, 0xC3]).2 = [⟨0x05, 0x10, [0x68, 0x69]⟩] :=
  ((feed_encode_iff 4095 0x05 0x10 [0x68, 0x69] [0x05, 0x10, 0x68, 0x69, 0xEE, 0xC3] (by decide)
    (by decide +kernel)).mpr (by decide +kernel)).1

/-- **Sticky and split packets**: from an empty buffer, unambiguous frames glued together and cut
anywhere come out as they were encoded, in order, and leave the codec as it was. -/
theorem feedChunks_encoded (c : ModbusFrameCodec) (hempty : c.buffer = [])
    (frames : List DecodedFrame) (raws : List (List UInt8))
    (hst : ∀ f ∈ frames, IsStation f.station)
    (henc : List.Forall₂ (fun f raw => c.encode f.station f.functionCode f.data = some raw)
      frames raws)
    (hun : ∀ raw ∈ raws, Unambiguous raw) (chunks : List (List UInt8))
    (hcut : chunks.flatten = raws.flatten) :
    c.feedChunks chunks = (c, frames) := by
  have htok : List.Forall₂ (fun raw f => (frameScanner c.maxFrameLen).verdict raw =
      .take raw.length f) raws frames := by
    clear hcut
    -- Each frame is recognised on its own; stability does the rest.
    induction henc with
    | nil => exact .nil
    | @cons f raw frames raws h _ ih =>
      refine .cons (verdict_encode (hst f (by simp)) h (hun raw (by simp))) (ih ?_ ?_)
      · intro g hg
        exact hst g (List.mem_cons_of_mem f hg)
      · intro r hr
        exact hun r (List.mem_cons_of_mem raw hr)
  have hscan := (frameScanner c.maxFrameLen).scan_tokens htok
  have houts : Piece.outs (List.zipWith Piece.token raws frames) = frames :=
    Piece.outs_zipWith_token htok.length_eq
  rcases chunks with _ | ⟨s, chunks⟩
  · -- Nothing was sent: the empty stream has no frames.
    rw [← hcut, List.flatten_nil, Scanner.scan_of_wait _ (frameScanner _).verdict_nil,
      Prod.mk.injEq] at hscan
    rw [← houts, ← hscan.1]
    rfl
  · rw [feedChunks_cons, hcut]
    refine Prod.ext (ModbusFrameCodec.ext rfl ?_ ?_) ?_
    · rw [buffer_feed, hempty, List.nil_append, hscan]
    · rw [resyncDropped_feed, hempty, List.nil_append, hscan, Piece.drops_zipWith_token,
        Nat.add_zero]
    · rw [frames_feed, hempty, List.nil_append, hscan, houts]

/-- Two frames glued together, cut inside the first CRC and behind the second station byte. -/
theorem feedChunks_encoded_two :
    (new 4095).feedChunks
        [[0x01, 0x03, 0x40], [0x21, 0x05], [], [0x10, 0x68, 0x69, 0xEE, 0xC3]] =
      (new 4095, [⟨0x01, 0x03, []⟩, ⟨0x05, 0x10, [0x68, 0x69]⟩]) :=
  feedChunks_encoded (new 4095) rfl [⟨0x01, 0x03, []⟩, ⟨0x05, 0x10, [0x68, 0x69]⟩]
    [[0x01, 0x03, 0x40, 0x21], [0x05, 0x10, 0x68, 0x69, 0xEE, 0xC3]] (by decide)
    (.cons (by decide +kernel) (.cons (by decide +kernel) .nil)) (by decide +kernel) _ rfl

end ModbusFrameCodec

end Ds10Driver

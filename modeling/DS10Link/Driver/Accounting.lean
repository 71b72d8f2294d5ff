import DS10Link.Driver.RoundTrip

/-!
# Every byte is accounted for

Over any run of `feed` and `flushPartial` from a fresh codec, the bytes fed are cut, in order,
into the encodings of the decoded frames and discarded bytes, and what is left is the buffer. The
drop counter counts the discarded bytes, and `feed` discards a byte only when no frame can start
at it.

The reading is declared by the conditions on the bytes (`ReadsAs`), call by call (`Accounted`); the
scanner's reading is shown to satisfy it.

## Main definitions

* `ReadsAs cap w ps r`: `w` is read as the pieces `ps` up to `r`
* `ModbusFrameCodec.Accounted c ops ps`: the calls `ops` account for the pieces `ps`

## Main results

* `readsAs_of_reads`, `reads_of_readsAs`: the scanner's reading is the declared one
* `ModbusFrameCodec.bytes_accounted`: every byte is accounted for, every output is justified
-/

open Automaton

namespace Ds10Driver

/-- **The bytes `w` are read as the pieces `ps`, up to the rest `r`**: complete frames, each at its
shortest length, and bytes at which no frame can start (no station byte, or no candidate length up
to the cap that passes the frame check with `cap` bytes in sight). -/
inductive ReadsAs (cap : ℕ) : List UInt8 → List (Piece UInt8 DecodedFrame) → List UInt8 → Prop
  | stop (w : List UInt8) : ReadsAs cap w [] w
  | frame {w r : List UInt8} {len : ℕ} {ps : List (Piece UInt8 DecodedFrame)} :
      FrameAt cap w len →
      (∀ l, kMinFrameLen ≤ l → l < len → crcMatches w l = false) →
      ReadsAs cap (w.drop len) ps r →
      ReadsAs cap w (.token (w.take len) (decodeCandidate w len) :: ps) r
  | discard {b : UInt8} {w r : List UInt8} {ps : List (Piece UInt8 DecodedFrame)} :
      ¬ IsStation b ∨ cap ≤ (b :: w).length ∧
        (∀ len, kMinFrameLen ≤ len → len ≤ cap → crcMatches (b :: w) len = false) →
      ReadsAs cap w ps r → ReadsAs cap (b :: w) (.junk b :: ps) r

section Reading

variable {cap : ℕ} {w r : List UInt8} {ps : List (Piece UInt8 DecodedFrame)}

/-- The scanner's reading is a reading as declared. -/
theorem readsAs_of_reads (h : (frameScanner cap).Reads w ps r) : ReadsAs cap w ps r := by
  induction h with
  | wait _ => exact .stop _
  | drop hv _ ih => exact .discard (verdict_eq_drop.mp hv) ih
  | take hv _ ih =>
    obtain ⟨hf, hshort, rfl⟩ := verdict_eq_take.mp hv
    exact .frame hf hshort ih

/-- A reading as declared, up to where the scanner waits, is the scanner's reading. -/
theorem reads_of_readsAs (h : ReadsAs cap w ps r) (hr : frameVerdict cap r = .wait) :
    (frameScanner cap).Reads w ps r := by
  induction h with
  | stop w => exact .wait hr
  | frame hf hshort _ ih => exact .take (verdict_eq_take.mpr ⟨hf, hshort, rfl⟩) (ih hr)
  | discard hc _ ih => exact .drop (verdict_eq_drop.mpr hc) (ih hr)

/-- The pieces and the rest are the bytes read. -/
theorem ReadsAs.raw (h : ReadsAs cap w ps r) : ps.flatMap Piece.raw ++ r = w := by
  induction h with
  | stop _ => rfl
  | frame _ _ _ ih => simp [ih]
  | discard _ _ ih => simpa using ih

/-- Every frame read is the encoding of what it is reported as. -/
theorem ReadsAs.token_mem {raw : List UInt8} {f : DecodedFrame} (h : ReadsAs cap w ps r)
    (hmem : .token raw f ∈ ps) (c : ModbusFrameCodec) (hc : c.maxFrameLen = cap) :
    c.encode f.station f.functionCode f.data = some raw ∧
      kMinFrameLen ≤ raw.length ∧ raw.length ≤ cap ∧ IsStation f.station := by
  induction h with
  | stop _ => cases hmem
  | @frame w r len ps hf _ _ ih =>
    rcases List.mem_cons.mp hmem with heq | hmem
    · -- The token at the front is the candidate that was decoded.
      obtain ⟨rfl, rfl⟩ := Piece.token.inj heq
      have hlen : (w.take len).length = len := List.length_take_of_le hf.le_length
      rw [hlen]
      refine ⟨ModbusFrameCodec.encode_decodeCandidate (hc ▸ hf), hf.min_le, hf.le_cap, ?_⟩
      obtain ⟨b, hb, hst⟩ := hf.station
      have hhead : (decodeCandidate w len).station = b := by
        rcases w with _ | ⟨a, t⟩
        · cases hb
        · simpa [decodeCandidate] using hb
      rw [hhead]
      exact hst
    · exact ih hmem
  | discard _ _ ih =>
    rcases List.mem_cons.mp hmem with heq | hmem
    · cases heq
    · exact ih hmem

/-- The bytes read are those of the frames, the discarded ones and the rest. -/
theorem ReadsAs.length (h : ReadsAs cap w ps r) :
    w.length =
      ((Piece.outs ps).map fun f => 4 + f.data.length).sum + Piece.drops ps + r.length := by
  induction h with
  | stop w => simp
  | @frame w r len ps hf _ _ ih =>
    have hlen := hf.le_length
    have hmin := hf.min_le
    have hdata : (decodeCandidate w len).data.length = len - 2 - 2 := by
      simp only [decodeCandidate, List.length_drop, List.length_take]
      omega
    rw [List.length_drop] at ih
    rw [Piece.outs_token, Piece.drops_token, List.map_cons, List.sum_cons, hdata]
    simp only [kMinFrameLen] at hmin
    omega
  | discard _ _ ih =>
    rw [List.length_cons, ih, Piece.outs_junk, Piece.drops_junk]
    omega

end Reading

namespace ModbusFrameCodec

/-- The bytes a call brings in. -/
def Op.bytes : Op → List UInt8
  | .feed s => s
  | .flushPartial => []

@[simp] theorem Op.bytes_feed (s : List UInt8) : (Op.feed s).bytes = s := rfl
@[simp] theorem Op.bytes_flushPartial : Op.flushPartial.bytes = [] := rfl

/-- The pieces a call accounts for: `feed` reads the buffered bytes and the new ones up to the
bytes it holds back, `flushPartial` discards the buffered bytes. -/
def CallReads (c : ModbusFrameCodec) : Op → List (Piece UInt8 DecodedFrame) → Prop
  | .feed s, ps => ReadsAs c.maxFrameLen (c.buffer ++ s) ps (c.feed s).1.buffer
  | .flushPartial, ps => ps = c.buffer.map .junk

/-- The calls `ops`, made from `c` on, account for the pieces `ps`. -/
def Accounted (c : ModbusFrameCodec) : List Op → List (Piece UInt8 DecodedFrame) → Prop
  | [], ps => ps = []
  | op :: ops, ps =>
    ∃ now later, ps = now ++ later ∧ CallReads c op now ∧ Accounted (c.apply op).1 ops later

theorem maxFrameLen_apply (c : ModbusFrameCodec) (op : Op) :
    (c.apply op).1.maxFrameLen = c.maxFrameLen := by
  cases op <;> rfl

/-- What `feed` takes in is what it counts, decodes and holds back. -/
theorem length_feed (c : ModbusFrameCodec) (s : List UInt8) :
    c.resyncDropped + c.buffered + s.length =
      ((c.feed s).2.map fun f => 4 + f.data.length).sum + (c.feed s).1.resyncDropped +
        (c.feed s).1.buffered := by
  have h := (readsAs_of_reads ((frameScanner c.maxFrameLen).reads_scan (c.buffer ++ s))).length
  rw [List.length_append, ← frames_feed, ← buffer_feed] at h
  rw [resyncDropped_feed, buffered, buffered]
  omega

/-- What one call accounts for: the bytes it takes off the stream, its frames and its drops. -/
theorem exists_callReads (c : ModbusFrameCodec) (op : Op) :
    ∃ ps, CallReads c op ps ∧
      ps.flatMap Piece.raw ++ (c.apply op).1.buffer = c.buffer ++ op.bytes ∧
      Piece.outs ps = (c.apply op).2 ∧
      (c.apply op).1.resyncDropped = c.resyncDropped + Piece.drops ps := by
  cases op with
  | feed s =>
    have h := (frameScanner c.maxFrameLen).reads_scan (c.buffer ++ s)
    refine ⟨_, ?_, ?_, (frames_feed c s).symm, resyncDropped_feed c s⟩
    · rw [CallReads, buffer_feed]
      exact readsAs_of_reads h
    · rw [apply_feed, buffer_feed]
      exact h.raw
  | flushPartial =>
    exact ⟨_, rfl, by simp, by simp, by simp⟩

/-- What a run accounts for, from any state. -/
theorem exists_accounted (c : ModbusFrameCodec) (ops : List Op) :
    ∃ ps, Accounted c ops ps ∧
      ps.flatMap Piece.raw ++ (stateAfter apply c ops).buffer = c.buffer ++ ops.flatMap Op.bytes ∧
      Piece.outs ps = emitted apply c ops ∧
      (stateAfter apply c ops).resyncDropped = c.resyncDropped + Piece.drops ps := by
  induction ops generalizing c with
  | nil => exact ⟨[], rfl, by simp, rfl, rfl⟩
  | cons op ops ih =>
    -- What this call holds back is what the later calls start from.
    obtain ⟨now, hcall, hraw, houts, hdrops⟩ := exists_callReads c op
    obtain ⟨later, hlater, hraw', houts', hdrops'⟩ := ih (c.apply op).1
    refine ⟨now ++ later, ⟨now, later, rfl, hcall, hlater⟩, ?_, ?_, ?_⟩
    · rw [List.flatMap_append, List.append_assoc, stateAfter_cons, hraw', ← List.append_assoc,
        hraw, List.flatMap_cons, List.append_assoc]
    · rw [Piece.outs_append, houts, houts', emitted_cons]
    · rw [stateAfter_cons, hdrops', hdrops, Piece.drops_append, Nat.add_assoc]

/-- Every frame a run accounts for is the encoding of what it is reported as. -/
theorem Accounted.token_mem {c : ModbusFrameCodec} {ops : List Op}
    {ps : List (Piece UInt8 DecodedFrame)} (h : Accounted c ops ps) {raw : List UInt8}
    {f : DecodedFrame} (hmem : .token raw f ∈ ps) (d : ModbusFrameCodec)
    (hd : d.maxFrameLen = c.maxFrameLen) :
    d.encode f.station f.functionCode f.data = some raw ∧
      kMinFrameLen ≤ raw.length ∧ raw.length ≤ d.maxFrameLen ∧ IsStation f.station := by
  induction ops generalizing c ps with
  | nil =>
    rw [Accounted] at h
    subst h
    cases hmem
  | cons op ops ih =>
    obtain ⟨now, later, rfl, hcall, hlater⟩ := h
    rcases List.mem_append.mp hmem with hnow | hmem
    · cases op with
      | feed s => exact hd ▸ ReadsAs.token_mem hcall hnow d hd
      | flushPartial =>
        -- A flush accounts for dropped bytes only.
        rw [CallReads] at hcall
        simp [hcall] at hnow
    · exact ih hlater hmem (hd.trans (maxFrameLen_apply c op).symm)

/-- **Every byte is accounted for and every output is justified**: the bytes fed to a fresh codec
are the pieces the calls account for, then the buffer; the frames among the pieces are the frames
emitted, each at the bytes `encode` gives for it; the discarded bytes are counted. -/
theorem bytes_accounted (maxFrameLen : ℕ) (ops : List Op) :
    ∃ ps, Accounted (new maxFrameLen) ops ps ∧
      ops.flatMap Op.bytes =
        ps.flatMap Piece.raw ++ (stateAfter apply (new maxFrameLen) ops).buffer ∧
      Piece.outs ps = emitted apply (new maxFrameLen) ops ∧
      Piece.drops ps = (stateAfter apply (new maxFrameLen) ops).resyncDropped ∧
      ∀ raw f, .token raw f ∈ ps →
        (new maxFrameLen).encode f.station f.functionCode f.data = some raw ∧
          kMinFrameLen ≤ raw.length ∧ raw.length ≤ max maxFrameLen kMinFrameLen ∧
          IsStation f.station := by
  obtain ⟨ps, hacc, hraw, houts, hdrops⟩ := exists_accounted (new maxFrameLen) ops
  refine ⟨ps, hacc, ?_, houts, ?_, ?_⟩
  · rw [hraw, new_buffer, List.nil_append]
  · rw [hdrops, new_resyncDropped, Nat.zero_add]
  · intro raw f hmem
    exact hacc.token_mem hmem (new maxFrameLen) rfl

end ModbusFrameCodec

end Ds10Driver

import DS10Link.Driver.Accounting

/-!
# What a burst-end flush throws away

The reader flushes the codec after a short silence, taking what is buffered then for un-pairable
bytes. But the scan waits at the first byte that looks like a station and does not look past it
until `maxFrameLen` bytes are there, so a noise byte or a cut-off frame can stand in front of a
complete frame, and the flush discards both. This module says exactly when: the bytes fed since
the last flush read up to an incomplete candidate with a complete frame behind it.

## Main definitions

* `HoldsFrame cap w`: a complete frame starts somewhere in `w`
* `HeldBack cap w`: what the bytes are like that a scan holds back
* `ModbusFrameCodec.burst ops`: the bytes fed since the last flush
* `Masked cap w`: read from its front, `w` comes to an incomplete candidate before a complete frame

## Main results

* `ModbusFrameCodec.buffer_eq_rest`: the buffer is the rest of the burst's reading
* `ModbusFrameCodec.buffer_heldBack`: it is short, starts like a frame and has no frame in front
* `ModbusFrameCodec.flush_discards_no_frame_iff`: no reachable buffer holds a complete frame
  exactly when no burst of the run is masked
-/

open Automaton

namespace Ds10Driver

/-- A complete frame starts at some offset of `w`. -/
def HoldsFrame (cap : ℕ) (w : List UInt8) : Prop :=
  ∃ q len, FrameAt cap (w.drop q) len

/-- Read from its front, `w` comes to an incomplete candidate (a station byte with fewer than `cap`
bytes in sight and no candidate length that passes the frame check), and a complete frame starts
behind the candidate's first byte. -/
def Masked (cap : ℕ) (w : List UInt8) : Prop :=
  ∃ ps b t, ReadsAs cap w ps (b :: t) ∧ IsStation b ∧ (b :: t).length < cap ∧
    (∀ len, kMinFrameLen ≤ len → len ≤ (b :: t).length → crcMatches (b :: t) len = false) ∧
    HoldsFrame cap t

/-- The bytes a scan holds back: fewer than a frame can have, none at all or a legal station byte at
the front, and no front that is followed by its CRC. -/
structure HeldBack (cap : ℕ) (w : List UInt8) : Prop where
  length_lt : w.length < cap
  station : w = [] ∨ ∃ b ∈ w.head?, IsStation b
  no_frame : ∀ front : List UInt8, kMinFrameLen ≤ front.length + 2 →
    ¬ front ++ crcBytes (crc16 front) <+: w

/-- A scan that waits holds its bytes back. -/
theorem heldBack_of_wait {cap : ℕ} {w : List UInt8} (hcap : 0 < cap)
    (h : frameVerdict cap w = .wait) : HeldBack cap w := by
  rcases w with _ | ⟨b, t⟩
  · refine ⟨hcap, .inl rfl, ?_⟩
    intro front _ hpre
    have hlen := hpre.length_le
    simp [crcBytes] at hlen
  · obtain ⟨hst, hlen, hno⟩ := verdict_eq_wait.mp h b rfl
    refine ⟨hlen, .inr ⟨b, rfl, hst⟩, ?_⟩
    intro front hmin hpre
    -- A front followed by its CRC is a candidate that passes the frame check.
    have hle : front.length + 2 ≤ (b :: t).length := by
      simpa [crcBytes] using hpre.length_le
    have htake : (b :: t).take (front.length + 2) = front ++ crcBytes (crc16 front) := by
      rw [List.prefix_iff_eq_take.mp hpre]
      simp [crcBytes]
    have hfront : (b :: t).take front.length = front :=
      (List.prefix_iff_eq_take.mp ((List.prefix_append front _).trans hpre)).symm
    have hcrc : crcMatches (b :: t) (front.length + 2) = true := by
      rw [crcMatches_iff (by omega) hle, htake, Nat.add_sub_cancel, hfront]
    rw [hno _ hmin hle] at hcrc
    cases hcrc

/-- The rest of a reading holds a complete frame exactly when the bytes read were masked. -/
theorem holdsFrame_rest_iff {cap : ℕ} {w : List UInt8} :
    HoldsFrame cap ((frameScanner cap).scan w).2 ↔ Masked cap w := by
  have hread := (frameScanner cap).reads_scan w
  have hwait : frameVerdict cap ((frameScanner cap).scan w).2 = .wait :=
    (frameScanner cap).verdict_scan w
  constructor
  · rintro ⟨q, len, hf⟩
    rcases hr : ((frameScanner cap).scan w).2 with _ | ⟨b, t⟩
    · obtain ⟨b, hb, -⟩ := hf.station
      simp [hr] at hb
    · rw [hr] at hread hwait hf
      obtain ⟨hst, hlen, hno⟩ := verdict_eq_wait.mp hwait b rfl
      refine ⟨_, b, t, readsAs_of_reads hread, hst, hlen, hno, ?_⟩
      rcases q with _ | q
      · -- A frame at the front would have been taken.
        obtain ⟨n, -, hv⟩ := hf.exists_take
        rw [List.drop_zero] at hv
        exact absurd (hwait.symm.trans hv) (by simp)
      · exact ⟨q, len, hf⟩
  · rintro ⟨ps, b, t, hreads, hst, hlen, hno, q, len, hf⟩
    have hwait' : frameVerdict cap (b :: t) = .wait := by
      refine verdict_eq_wait.mpr ?_
      intro b' hb'
      obtain rfl : b = b' := by simpa using hb'
      exact ⟨hst, hlen, hno⟩
    -- The reading is unique, so its rest is the scanner's.
    obtain ⟨-, hrest⟩ := (reads_of_readsAs hreads hwait').unique hread
    rw [← hrest]
    exact ⟨q + 1, len, hf⟩

namespace ModbusFrameCodec

/-- The burst after one more call. -/
def Op.extend (w : List UInt8) : Op → List UInt8
  | .feed s => w ++ s
  | .flushPartial => []

/-- The bytes fed since the last flush. -/
def burst (ops : List Op) : List UInt8 := ops.foldl Op.extend []

/-- One call keeps the buffer the rest of the burst's reading. -/
theorem buffer_apply {c : ModbusFrameCodec} {w : List UInt8}
    (h : c.buffer = ((frameScanner c.maxFrameLen).scan w).2) (op : Op) :
    (c.apply op).1.buffer = ((frameScanner c.maxFrameLen).scan (op.extend w)).2 := by
  cases op with
  | feed s => rw [apply_feed, buffer_feed, h, Op.extend, Scanner.scan_append _ w s]
  | flushPartial =>
    rw [apply_flushPartial, flushPartial_buffer, Op.extend,
      Scanner.scan_of_wait _ (frameScanner _).verdict_nil]

/-- **The buffer is the rest of the burst's reading**, after every run from a fresh codec. -/
theorem buffer_eq_rest (maxFrameLen : ℕ) (ops : List Op) :
    (stateAfter apply (new maxFrameLen) ops).buffer =
      ((frameScanner (max maxFrameLen kMinFrameLen)).scan (burst ops)).2 := by
  suffices h : ∀ (c : ModbusFrameCodec) (w : List UInt8),
      c.buffer = ((frameScanner c.maxFrameLen).scan w).2 →
        (stateAfter apply c ops).buffer =
          ((frameScanner c.maxFrameLen).scan (ops.foldl Op.extend w)).2 from
    h (new maxFrameLen) [] (by rw [Scanner.scan_of_wait _ (frameScanner _).verdict_nil]; rfl)
  -- The burst read so far is carried along from an arbitrary codec.
  induction ops with
  | nil =>
    intro c w h
    exact h
  | cons op ops ih =>
    intro c w h
    have hcap := maxFrameLen_apply c op
    have hstep := buffer_apply h op
    rw [← hcap] at hstep ⊢
    exact ih (c.apply op).1 (op.extend w) hstep

/-- **The buffer stays short**: after every run of calls, whatever the cap asked for, fewer bytes
are buffered than the effective cap, and those that are start with a station byte and have no
complete frame in front. -/
theorem buffer_heldBack (maxFrameLen : ℕ) (ops : List Op) :
    let c := stateAfter apply (new maxFrameLen) ops
    c.buffered < max maxFrameLen kMinFrameLen ∧
      HeldBack (max maxFrameLen kMinFrameLen) c.buffer := by
  intro c
  have hwait : frameVerdict (max maxFrameLen kMinFrameLen) c.buffer = .wait := by
    rw [buffer_eq_rest]
    exact (frameScanner _).verdict_scan _
  have hheld := heldBack_of_wait (lt_max_of_lt_right (by decide)) hwait
  exact ⟨hheld.length_lt, hheld⟩

/-- A reachable buffer holds a complete frame exactly when its burst is masked. -/
theorem holdsFrame_buffer_iff (maxFrameLen : ℕ) (ops : List Op) :
    HoldsFrame (max maxFrameLen kMinFrameLen) (stateAfter apply (new maxFrameLen) ops).buffer ↔
      Masked (max maxFrameLen kMinFrameLen) (burst ops) := by
  rw [buffer_eq_rest, holdsFrame_rest_iff]

/-- **A burst-end flush throws away no complete frame exactly when no burst is masked**: in every
state a run goes through, the buffer holds no complete frame, if and only if none of the bursts
fed along the run comes to an incomplete candidate before a complete frame. -/
theorem flush_discards_no_frame_iff (maxFrameLen : ℕ) (ops : List Op) :
    (∀ pre, pre <+: ops →
        ¬ HoldsFrame (max maxFrameLen kMinFrameLen)
          (stateAfter apply (new maxFrameLen) pre).buffer) ↔
      ∀ pre, pre <+: ops → ¬ Masked (max maxFrameLen kMinFrameLen) (burst pre) :=
  forall₂_congr fun pre _ => not_congr (holdsFrame_buffer_iff maxFrameLen pre)

/-- A noise byte that looks like a station, then the frame `01 03 40 21`: the frame is buffered,
and a flush would discard it. -/
theorem not_flush_discards_no_frame :
    ¬ ∀ (maxFrameLen : ℕ) (ops : List Op),
      ¬ HoldsFrame (max maxFrameLen kMinFrameLen)
        (stateAfter apply (new maxFrameLen) ops).buffer := by
  intro h
  refine h 4095 [.feed [0x01, 0x01, 0x03, 0x40, 0x21]] ⟨1, 4, ?_⟩
  have hv : (frameScanner 4095).verdict [0x01, 0x01, 0x03, 0x40, 0x21] = .wait := by
    decide +kernel
  have hbuf : (stateAfter apply (new 4095) [.feed [0x01, 0x01, 0x03, 0x40, 0x21]]).buffer =
      [0x01, 0x01, 0x03, 0x40, 0x21] := by
    rw [buffer_eq_rest]
    exact congrArg Prod.snd (Scanner.scan_of_wait _ hv)
  rw [hbuf]
  exact ⟨⟨0x01, rfl, by decide⟩, le_rfl, by decide, le_rfl, by decide +kernel⟩

end ModbusFrameCodec

end Ds10Driver

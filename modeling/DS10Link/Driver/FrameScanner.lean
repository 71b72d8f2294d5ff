import Mathlib.Data.List.GetD
import DS10Link.Stream.Scanner
import DS10Link.Driver.FrameCodec

/-!
# The codec as an incremental scanner

The decisions of `ModbusFrameCodec.feed` at one position, taken as a function of the bytes in
sight, form a scanner: a match found at some length is found at that length whatever follows, and
a start is given up only when every length up to the cap was tried. So `feed` computes the greedy
reading of the buffered bytes and the new ones, and the frames, the bytes held back and the drop
counter do not depend on how the serial stream was cut into reads.

## Main definitions

* `IsStation b`, `FrameAt cap w len`: a legal station byte; a complete frame at the front of `w`
* `frameScanner cap`: the decision of `feed` at one position
* `ModbusFrameCodec.feedChunks`: `feed` called on chunks one after another

## Main results

* `verdict_eq_take`, `verdict_eq_drop`, `verdict_eq_wait`: what each decision says of the bytes
* `ModbusFrameCodec.feed_eq_scan`: `feed` computes the greedy reading
* `ModbusFrameCodec.feedChunks_eq_feed`: chunking independence
-/

namespace Ds10Driver

/-- A legal station byte. -/
def IsStation (b : UInt8) : Prop := kMinStation ≤ b ∧ b ≤ kMaxStation

instance (b : UInt8) : Decidable (IsStation b) := inferInstanceAs (Decidable (_ ∧ _))

theorem not_isStation {b : UInt8} : ¬ IsStation b ↔ b < kMinStation ∨ b > kMaxStation := by
  simp only [IsStation, not_and_or, UInt8.not_le, gt_iff_lt]

theorem isStation_of_not {b : UInt8} (h : ¬ (b < kMinStation ∨ b > kMaxStation)) : IsStation b := by
  by_contra hb
  exact h (not_isStation.mp hb)

/-- A complete frame of length `len` starts at the front of `w`: a legal station byte, a length
within the bounds and within `w`, and a CRC that verifies. -/
structure FrameAt (cap : ℕ) (w : List UInt8) (len : ℕ) : Prop where
  station : ∃ b ∈ w.head?, IsStation b
  min_le : kMinFrameLen ≤ len
  le_cap : len ≤ cap
  le_length : len ≤ w.length
  crc : crcMatches w len = true

/-! ## Candidates do not see what follows them -/

section Candidates

variable {w : List UInt8} {len : ℕ}

/-- A candidate has room for its CRC. -/
theorem two_le_of_min_le (h : kMinFrameLen ≤ len) : 2 ≤ len := by
  rw [kMinFrameLen] at h
  omega

theorem crcMatches_append (v : List UInt8) (h₂ : 2 ≤ len) (h : len ≤ w.length) :
    crcMatches (w ++ v) len = crcMatches w len := by
  have hlo : (w ++ v).getD (len - 2) 0 = w.getD (len - 2) 0 :=
    List.getD_append _ _ _ _ (by omega)
  have hhi : (w ++ v).getD (len - 1) 0 = w.getD (len - 1) 0 :=
    List.getD_append _ _ _ _ (by omega)
  rw [crcMatches, crcMatches, onWire, onWire, hlo, hhi,
    List.take_append_of_le_length (by omega)]

theorem decodeCandidate_append (v : List UInt8) (h₂ : 2 ≤ len) (h : len ≤ w.length) :
    decodeCandidate (w ++ v) len = decodeCandidate w len := by
  have h₀ : (w ++ v).getD 0 0 = w.getD 0 0 := List.getD_append _ _ _ _ (by omega)
  have h₁ : (w ++ v).getD 1 0 = w.getD 1 0 := List.getD_append _ _ _ _ (by omega)
  have hdata : (w ++ v).take (len - 2) = w.take (len - 2) :=
    List.take_append_of_le_length (by omega)
  simp only [decodeCandidate, h₀, h₁, hdata]

end Candidates

/-! ## The decision at one position -/

open ModbusFrameCodec (crcTrial crcTrial_eq_some crcTrial_eq_none)

/-- The decision of `feed` on the bytes from its position on. -/
def frameVerdict (cap : ℕ) (w : List UInt8) : Verdict DecodedFrame :=
  match w with
  | [] => .wait
  | station :: _ =>
    if station < kMinStation ∨ station > kMaxStation then .drop
    else
      match crcTrial w (min w.length cap) with
      | some flen => .take flen (decodeCandidate w flen)
      | none => if w.length < cap then .wait else .drop

section Verdict

variable {cap : ℕ}

/-- A frame is taken exactly where a complete frame starts, at its shortest length. -/
theorem verdict_eq_take {w : List UInt8} {n : ℕ} {f : DecodedFrame} :
    frameVerdict cap w = .take n f ↔
      FrameAt cap w n ∧ (∀ len, kMinFrameLen ≤ len → len < n → crcMatches w len = false) ∧
        f = decodeCandidate w n := by
  rcases w with _ | ⟨b, t⟩
  · simp only [frameVerdict, reduceCtorEq, false_iff, not_and]
    intro h
    simpa using h.station
  · by_cases hb : b < kMinStation ∨ b > kMaxStation
    · simp only [frameVerdict, if_pos hb, reduceCtorEq, false_iff, not_and]
      intro h
      obtain ⟨b', hb', hst⟩ := h.station
      obtain rfl : b = b' := by simpa using hb'
      exact absurd hst (not_isStation.mpr hb)
    · have hst : IsStation b := isStation_of_not hb
      simp only [frameVerdict, if_neg hb]
      constructor
      · intro h
        -- The trial is bounded by what is in sight and by the cap, and so is its match.
        cases hc : crcTrial (b :: t) (min (b :: t).length cap) with
        | none =>
          simp only [hc] at h
          split at h <;> simp at h
        | some flen =>
          simp only [hc, Verdict.take.injEq] at h
          obtain ⟨rfl, rfl⟩ := h
          obtain ⟨⟨h₁, h₂⟩, h₃, h₄⟩ := crcTrial_eq_some.mp hc
          exact ⟨⟨⟨b, rfl, hst⟩, h₁, by omega, by omega, h₃⟩, h₄, rfl⟩
      · rintro ⟨h, hshort, rfl⟩
        have hc : crcTrial (b :: t) (min (b :: t).length cap) = some n :=
          crcTrial_eq_some.mpr ⟨⟨h.min_le, le_min h.le_length h.le_cap⟩, h.crc, hshort⟩
        simp only [hc]

/-- Where a complete frame starts, a frame is taken, at most as long. -/
theorem FrameAt.exists_take {w : List UInt8} {len : ℕ} (h : FrameAt cap w len) :
    ∃ n ≤ len, frameVerdict cap w = .take n (decodeCandidate w n) := by
  have hex : ∃ n, kMinFrameLen ≤ n ∧ crcMatches w n = true := ⟨len, h.min_le, h.crc⟩
  have hle : Nat.find hex ≤ len := Nat.find_min' hex ⟨h.min_le, h.crc⟩
  obtain ⟨hmin, hcrc⟩ := Nat.find_spec hex
  refine ⟨Nat.find hex, hle, verdict_eq_take.mpr ⟨?_, ?_, rfl⟩⟩
  · exact ⟨h.station, hmin, hle.trans h.le_cap, hle.trans h.le_length, hcrc⟩
  · intro l h₁ h₂
    simpa [h₁] using Nat.find_min hex h₂

/-- A byte is dropped exactly when it is no station byte, or when `cap` bytes are in sight and no
length up to the cap verifies. -/
theorem verdict_eq_drop {b : UInt8} {t : List UInt8} :
    frameVerdict cap (b :: t) = .drop ↔
      ¬ IsStation b ∨ cap ≤ (b :: t).length ∧
        ∀ len, kMinFrameLen ≤ len → len ≤ cap → crcMatches (b :: t) len = false := by
  by_cases hb : b < kMinStation ∨ b > kMaxStation
  · simp [frameVerdict, not_isStation, hb]
  · rw [not_isStation, or_iff_right hb]
    simp only [frameVerdict, if_neg hb]
    cases hc : crcTrial (b :: t) (min (b :: t).length cap) with
    | some flen =>
      obtain ⟨⟨h₁, h₂⟩, h₃, -⟩ := crcTrial_eq_some.mp hc
      simp only [reduceCtorEq, false_iff, not_and]
      intro _ h
      simp [h flen h₁ (by omega)] at h₃
    | none =>
      have hnone := crcTrial_eq_none.mp hc
      by_cases hlen : (b :: t).length < cap
      · simp only [if_pos hlen, reduceCtorEq, false_iff, not_and]
        omega
      · simp only [if_neg hlen, true_iff]
        refine ⟨not_lt.mp hlen, ?_⟩
        intro len h₁ h₂
        exact hnone len h₁ (le_min (h₂.trans (not_lt.mp hlen)) h₂)

/-- The scanner waits when nothing is in sight, or at a station byte with fewer than `cap` bytes
in sight and no length that verifies. -/
theorem verdict_eq_wait {w : List UInt8} :
    frameVerdict cap w = .wait ↔
      ∀ b ∈ w.head?, IsStation b ∧ w.length < cap ∧
        ∀ len, kMinFrameLen ≤ len → len ≤ w.length → crcMatches w len = false := by
  rcases w with _ | ⟨b, t⟩
  · simp [frameVerdict]
  · simp only [List.head?_cons, Option.mem_def, Option.some.injEq, forall_eq']
    by_cases hb : b < kMinStation ∨ b > kMaxStation
    · simp [frameVerdict, hb, not_isStation.mpr hb]
    · have hst : IsStation b := isStation_of_not hb
      simp only [frameVerdict, if_neg hb]
      cases hc : crcTrial (b :: t) (min (b :: t).length cap) with
      | some flen =>
        obtain ⟨⟨h₁, h₂⟩, h₃, -⟩ := crcTrial_eq_some.mp hc
        simp only [reduceCtorEq, false_iff, not_and]
        intro _ _ h
        simp [h flen h₁ (by omega)] at h₃
      | none =>
        have hnone := crcTrial_eq_none.mp hc
        by_cases hlen : (b :: t).length < cap
        · simp only [if_pos hlen, true_iff]
          refine ⟨hst, hlen, ?_⟩
          intro len h₁ h₂
          exact hnone len h₁ (le_min h₂ (h₂.trans hlen.le))
        · simp only [if_neg hlen, reduceCtorEq, false_iff]
          intro h
          exact hlen h.2.1

/-- What was decided without waiting stands when more bytes arrive. -/
theorem frameVerdict_append {w : List UInt8} (v : List UInt8) (h : frameVerdict cap w ≠ .wait) :
    frameVerdict cap (w ++ v) = frameVerdict cap w := by
  cases hv : frameVerdict cap w with
  | wait => exact absurd hv h
  | take n f =>
    -- The lengths tried up to the match lie within `w`, so none of them sees `v`.
    obtain ⟨hf, hshort, rfl⟩ := verdict_eq_take.mp hv
    have hmin : 2 ≤ n := two_le_of_min_le hf.min_le
    refine verdict_eq_take.mpr ⟨⟨?_, hf.min_le, hf.le_cap, ?_, ?_⟩, ?_, ?_⟩
    · obtain ⟨b, hb, hst⟩ := hf.station
      exact ⟨b, List.mem_head?_append_of_mem_head? hb, hst⟩
    · exact le_trans hf.le_length (by simp)
    · rw [crcMatches_append v hmin hf.le_length, hf.crc]
    · intro len h₁ h₂
      rw [crcMatches_append v (two_le_of_min_le h₁) (le_trans h₂.le hf.le_length)]
      exact hshort len h₁ h₂
    · exact (decodeCandidate_append v hmin hf.le_length).symm
  | drop =>
    rcases w with _ | ⟨b, t⟩
    · simp [frameVerdict] at hv
    · -- A start is given up for its first byte, or after every length up to the cap was tried.
      rcases verdict_eq_drop.mp hv with hb | ⟨hlen, hno⟩
      · exact verdict_eq_drop.mpr (Or.inl hb)
      · refine verdict_eq_drop.mpr (Or.inr ⟨?_, ?_⟩)
        · exact le_trans hlen (by simp)
        · intro len h₁ h₂
          show crcMatches (b :: t ++ v) len = false
          rw [crcMatches_append v (two_le_of_min_le h₁) (le_trans h₂ hlen)]
          exact hno len h₁ h₂

end Verdict

/-- **The codec's decisions form a scanner.** -/
def frameScanner (cap : ℕ) : Scanner UInt8 DecodedFrame where
  verdict := frameVerdict cap
  verdict_nil := rfl
  take_bound h := by
    obtain ⟨hf, -, -⟩ := verdict_eq_take.mp h
    exact ⟨Nat.zero_lt_of_lt (two_le_of_min_le hf.min_le), hf.le_length⟩
  stable := frameVerdict_append

@[simp] theorem frameScanner_verdict (cap : ℕ) (w : List UInt8) :
    (frameScanner cap).verdict w = frameVerdict cap w := rfl

/-! ## `feed` computes the greedy reading -/

namespace ModbusFrameCodec

open Scanner

/-- What the loop of `feed` comes to from position `pos` on is the reading of the bytes from there
on: it stops at the rest, adds the dropped bytes to the counter and appends the frames. -/
structure LoopReads (cap : ℕ) (buffer : List UInt8) (pos dropped : ℕ) (frames : List DecodedFrame)
    (l : ℕ × ℕ × List DecodedFrame) : Prop where
  rest : buffer.drop l.1 = ((frameScanner cap).scan (buffer.drop pos)).2
  dropped : l.2.1 = dropped + Piece.drops ((frameScanner cap).scan (buffer.drop pos)).1
  frames : l.2.2 = frames ++ Piece.outs ((frameScanner cap).scan (buffer.drop pos)).1

section LoopReads

variable {cap pos dropped : ℕ} {buffer : List UInt8} {frames : List DecodedFrame}
  {l : ℕ × ℕ × List DecodedFrame}

theorem LoopReads.wait (hv : frameVerdict cap (buffer.drop pos) = .wait) :
    LoopReads cap buffer pos dropped frames (pos, dropped, frames) := by
  have hscan := (frameScanner cap).scan_of_wait hv
  refine ⟨by rw [hscan], ?_, ?_⟩
  · rw [hscan, Piece.drops_nil, Nat.add_zero]
  · rw [hscan, Piece.outs_nil, List.append_nil]

theorem LoopReads.drop (h : pos < buffer.length)
    (hv : frameVerdict cap (buffer.drop pos) = .drop)
    (hl : LoopReads cap buffer (pos + 1) (dropped + 1) frames l) :
    LoopReads cap buffer pos dropped frames l := by
  rw [List.drop_eq_getElem_cons h] at hv
  have hscan := (frameScanner cap).scan_of_drop hv
  rw [← List.drop_eq_getElem_cons h] at hscan
  refine ⟨by rw [hscan, hl.rest], ?_, ?_⟩
  · rw [hscan, hl.dropped, Piece.drops_junk]
    omega
  · rw [hscan, hl.frames, Piece.outs_junk]

theorem LoopReads.take {n : ℕ} {f : DecodedFrame}
    (hv : frameVerdict cap (buffer.drop pos) = .take n f)
    (hl : LoopReads cap buffer (pos + n) dropped (frames ++ [f]) l) :
    LoopReads cap buffer pos dropped frames l := by
  have hscan := (frameScanner cap).scan_of_take hv
  rw [List.drop_drop] at hscan
  refine ⟨by rw [hscan, hl.rest], ?_, ?_⟩
  · rw [hscan, hl.dropped, Piece.drops_token]
  · rw [hscan, hl.frames, Piece.outs_token, List.append_assoc, List.singleton_append]

end LoopReads

/-- The loop of `feed` decides as the scanner does. -/
theorem feedLoop_eq (cap : ℕ) (buffer : List UInt8) (pos dropped : ℕ)
    (frames : List DecodedFrame) (hpos : pos ≤ buffer.length) :
    LoopReads cap buffer pos dropped frames (feedLoop cap buffer pos dropped frames) := by
  fun_induction feedLoop cap buffer pos dropped frames with
  | case1 pos dropped frames h station hst ih =>
    -- No station byte: it is dropped and counted.
    refine .drop h ?_ (ih (by omega))
    rw [List.drop_eq_getElem_cons h]
    exact verdict_eq_drop.mpr (Or.inl (not_isStation.mpr hst))
  | case2 pos dropped frames h station hst f flen hf ih =>
    -- A match at `flen`: the bytes up to it are the token.
    have hlen : f.length = buffer.length - pos := List.length_drop
    have hhead : f.head? = some station := by rw [List.head?_drop, List.getElem?_eq_getElem h]
    obtain ⟨⟨hmin, hmax⟩, hcrc, hshort⟩ := crcTrial_eq_some.mp hf
    have hv : frameVerdict cap f = .take flen (decodeCandidate f flen) :=
      verdict_eq_take.mpr
        ⟨⟨⟨station, hhead, isStation_of_not hst⟩, hmin, by omega, by omega, hcrc⟩, hshort, rfl⟩
    exact .take hv (ih (by omega))
  | case3 pos dropped frames h station hst f hf hlt =>
    -- A partial frame: the loop stops where the scanner waits.
    have hlen : f.length = buffer.length - pos := List.length_drop
    have hhead : f.head? = some station := by rw [List.head?_drop, List.getElem?_eq_getElem h]
    have hno := crcTrial_eq_none.mp hf
    have hv : frameVerdict cap f = .wait := by
      refine verdict_eq_wait.mpr ?_
      intro b hb
      obtain rfl : station = b := by simpa [hhead] using hb
      refine ⟨isStation_of_not hst, by omega, ?_⟩
      intro len h₁ h₂
      exact hno len h₁ (by omega)
    exact .wait hv
  | case4 pos dropped frames h station hst f hf hlt ih =>
    -- No match up to the cap: the start is noise.
    have hno := crcTrial_eq_none.mp hf
    have hw : f = station :: buffer.drop (pos + 1) := List.drop_eq_getElem_cons h
    have hlen : f.length = buffer.length - pos := List.length_drop
    have hv : frameVerdict cap f = .drop := by
      rw [hw] at hno hlen ⊢
      refine verdict_eq_drop.mpr (Or.inr ⟨by omega, ?_⟩)
      intro len h₁ h₂
      exact hno len h₁ (by omega)
    exact .drop h hv (ih (by omega))
  | case5 pos dropped frames h =>
    have hnil : buffer.drop pos = [] := List.drop_eq_nil_of_le (by omega)
    exact .wait (by rw [hnil]; rfl)

/-- **`feed` computes the greedy reading** of the buffered bytes and the new ones. -/
theorem feed_eq_scan (c : ModbusFrameCodec) (s : List UInt8) :
    c.feed s =
      let r := (frameScanner c.maxFrameLen).scan (c.buffer ++ s)
      ({ c with buffer := r.2, resyncDropped := c.resyncDropped + Piece.drops r.1 },
        Piece.outs r.1) := by
  obtain ⟨h₁, h₂, h₃⟩ :=
    feedLoop_eq c.maxFrameLen (c.buffer ++ s) 0 c.resyncDropped [] (Nat.zero_le _)
  rw [List.drop_zero] at h₁ h₂ h₃
  simp only [feed, h₁, h₂, h₃, List.nil_append]

theorem frames_feed (c : ModbusFrameCodec) (s : List UInt8) :
    (c.feed s).2 = Piece.outs ((frameScanner c.maxFrameLen).scan (c.buffer ++ s)).1 := by
  rw [feed_eq_scan]

theorem buffer_feed (c : ModbusFrameCodec) (s : List UInt8) :
    (c.feed s).1.buffer = ((frameScanner c.maxFrameLen).scan (c.buffer ++ s)).2 := by
  rw [feed_eq_scan]

theorem resyncDropped_feed (c : ModbusFrameCodec) (s : List UInt8) :
    (c.feed s).1.resyncDropped =
      c.resyncDropped + Piece.drops ((frameScanner c.maxFrameLen).scan (c.buffer ++ s)).1 := by
  rw [feed_eq_scan]

@[simp] theorem maxFrameLen_feed (c : ModbusFrameCodec) (s : List UInt8) :
    (c.feed s).1.maxFrameLen = c.maxFrameLen := rfl

/-! ## Chunking independence -/

/-- `feed` called on chunks one after another. -/
def feedChunks (c : ModbusFrameCodec) : List (List UInt8) → ModbusFrameCodec × List DecodedFrame
  | [] => (c, [])
  | s :: chunks =>
    let r := c.feed s
    let t := r.1.feedChunks chunks
    (t.1, r.2 ++ t.2)

/-- Two calls of `feed` are one call on the joined bytes. -/
theorem feed_append (c : ModbusFrameCodec) (s t : List UInt8) :
    c.feed (s ++ t) = (((c.feed s).1.feed t).1, (c.feed s).2 ++ ((c.feed s).1.feed t).2) := by
  have h := (frameScanner c.maxFrameLen).scan_append (c.buffer ++ s) t
  rw [List.append_assoc] at h
  simp only [feed_eq_scan, h, Piece.outs_append, Piece.drops_append, Nat.add_assoc]

theorem feedChunks_cons (c : ModbusFrameCodec) (s : List UInt8) (chunks : List (List UInt8)) :
    c.feedChunks (s :: chunks) = c.feed (s :: chunks).flatten := by
  induction chunks generalizing c s with
  | nil => simp [feedChunks]
  | cons t chunks ih =>
    have hcut : (s :: t :: chunks).flatten = s ++ (t :: chunks).flatten := List.flatten_cons
    rw [hcut, feed_append, feedChunks, ih]

/-- **Chunking independence**: from any codec, whatever its cap, its buffered bytes and its drop
counter, feeding a byte string in chunks gives the frames, the buffer and the drop counter of
feeding it at once. -/
theorem feedChunks_eq_feed (c : ModbusFrameCodec) (s : List UInt8) (chunks : List (List UInt8))
    (hne : chunks ≠ []) (hcut : chunks.flatten = s) :
    (c.feedChunks chunks).2 = (c.feed s).2 ∧
      (c.feedChunks chunks).1.buffer = (c.feed s).1.buffer ∧
      (c.feedChunks chunks).1.resyncDropped = (c.feed s).1.resyncDropped := by
  obtain ⟨t, chunks, rfl⟩ := List.exists_cons_of_ne_nil hne
  subst hcut
  simp only [feedChunks_cons, and_self]

/-- A frame cut inside its CRC, behind a buffered noise byte. -/
theorem feedChunks_eq_feed_cut_in_crc :
    let c := { new 4095 with buffer := [0x00], resyncDropped := 2 }
    (c.feedChunks [[0x01, 0x03, 0x40], [], [0x21, 0x05]]).2 =
      (c.feed [0x01, 0x03, 0x40, 0x21, 0x05]).2 := by
  intro c
  exact (feedChunks_eq_feed c _ [[0x01, 0x03, 0x40], [], [0x21, 0x05]] (by decide) rfl).1

end ModbusFrameCodec

end Ds10Driver

import Mathlib.Data.List.ReduceOption
import DS10Link.Stream.Scanner
import DS10Link.File.FileFrame

/-!
# Frames across read boundaries

One turn of the loop of `extract_frames` drops a byte, takes a frame or waits for more bytes, and
what it decides without waiting it would decide with more bytes in sight as well. So the loop is a
scanner, and the frames do not depend on where a read ends, but for one case: the guard of the loop
lets a buffer of six bytes pass, and with `0x10` in second place the loop then reads the seventh.

## Main definitions

* `frameLen w`: the length the count byte announces
* `fileScanner`: the turn of the loop as a scanner
* `ReadsPastEnd r`: the loop reads past the end of `r`
* `Stranded w`: read from its front, `w` comes to such a rest

## Main results

* `extractLoop_eq`: the loop is the scanner's reading, or an exception
* `read_boundaries_iff`: which read boundaries `extract_frames` survives
-/

namespace Ds10File

open Ds10Driver

/-- The length of the frame at the front, as its count byte has it. -/
def frameLen (w : List UInt8) : ℕ := 7 + (w.getD 6 0).toNat + 2

/-- What the frame at the front is reported as. -/
def frameAtFront (w : List UInt8) : Option FileFrame :=
  frameOf (w.getD 0 0) ((w.take (7 + (w.getD 6 0).toNat)).drop 7)

variable {w buf : List UInt8} {frames : List FileFrame} {b : UInt8}

/-! ## One turn of the loop -/

theorem getItem_of_lt {i : ℕ} (h : i < buf.length) : getItem buf i = .ok (buf.getD i 0) := by
  rw [getItem, List.getElem?_eq_getElem h, List.getD_eq_getElem buf 0 h]

theorem getItem_of_le {i : ℕ} (h : buf.length ≤ i) :
    getItem buf i = .error (.indexError "bytearray index out of range") := by
  rw [getItem, List.getElem?_eq_none h]

theorem extractLoop_of_short (h : buf.length < minFrame) :
    extractLoop frames buf = .ok (frames, buf) := by
  rw [extractLoop, dif_neg (not_le.mpr h)]

/-- No register write starts here. -/
theorem extractLoop_of_noise (hmin : minFrame ≤ buf.length) (h : buf.getD 1 0 ≠ 0x10) :
    extractLoop frames buf = extractLoop frames (buf.drop 1) := by
  have hlen : 6 ≤ buf.length := hmin
  rw [extractLoop, dif_pos hmin, getItem_of_lt (by omega), getItem_of_lt (by omega)]
  simp only [bind, Except.bind, h, ne_eq, not_false_eq_true, if_true]

/-- The seventh of six bytes is read. -/
theorem extractLoop_of_six (hlen : buf.length = minFrame) (h : buf.getD 1 0 = 0x10) :
    extractLoop frames buf = .error (.indexError "bytearray index out of range") := by
  have hsix : buf.length = 6 := hlen
  rw [extractLoop, dif_pos hlen.ge, getItem_of_lt (by omega), getItem_of_lt (by omega),
    getItem_of_le (i := 6) (by omega)]
  simp only [bind, Except.bind, h, ne_eq, not_true_eq_false, if_false]

/-- The two last bytes of a candidate are its CRC when it passes the driver's frame check. -/
theorem modbusCrc16_eq_drop_iff {n : ℕ} (h : n + 2 ≤ w.length) :
    modbusCrc16 (w.take n) = (w.take (n + 2)).drop n ↔ crcMatches w (n + 2) = true := by
  have hsplit : w.take (n + 2) = w.take n ++ (w.take (n + 2)).drop n := by
    conv_lhs => rw [← List.take_append_drop n (w.take (n + 2)), List.take_take]
    rw [min_eq_left (by omega)]
  rw [crcMatches_iff (by omega) h, Nat.add_sub_cancel, modbusCrc16_eq]
  conv_rhs => lhs; rw [hsplit]
  rw [List.append_cancel_left_eq, eq_comm]

/-- A register write starts here: wait for the rest of it, take it or drop its first byte. -/
theorem extractLoop_of_write (hmin : minFrame < buf.length) (h : buf.getD 1 0 = 0x10) :
    extractLoop frames buf =
      if buf.length < frameLen buf then .ok (frames, buf)
      else if crcMatches buf (frameLen buf) then
        extractLoop (frames ++ (frameAtFront buf).toList) (buf.drop (frameLen buf))
      else extractLoop frames (buf.drop 1) := by
  have hlen : 6 < buf.length := hmin
  rw [extractLoop, dif_pos hmin.le, getItem_of_lt (by omega), getItem_of_lt (by omega),
    getItem_of_lt (i := 6) (by omega)]
  simp only [bind, Except.bind, h, ne_eq, not_true_eq_false, if_false]
  rw [frameLen]
  by_cases hpart : buf.length < 7 + (buf.getD 6 0).toNat + 2
  · rw [if_pos hpart, if_pos hpart]
  · have hfull : 7 + (buf.getD 6 0).toNat + 2 ≤ buf.length := not_lt.mp hpart
    have hcrc := modbusCrc16_eq_drop_iff hfull
    rw [if_neg hpart, if_neg hpart, List.length_take_of_le hfull, Nat.add_sub_cancel,
      List.take_take, min_eq_left (by omega), frameAtFront]
    by_cases hpass : crcMatches buf (7 + (buf.getD 6 0).toNat + 2) = true
    · rw [if_neg (not_not.mpr (hcrc.mpr hpass)), if_pos hpass]
    · rw [if_pos (mt hcrc.mp hpass), if_neg hpass]

/-! ## The loop as a scanner -/

/-- One turn of the loop. -/
def fileVerdict (w : List UInt8) : Verdict (Option FileFrame) :=
  if w.length < minFrame then .wait
  else if w.getD 1 0 ≠ 0x10 then .drop
  else if w.length < frameLen w then .wait
  else if crcMatches w (frameLen w) then .take (frameLen w) (frameAtFront w)
  else .drop

theorem verdict_of_noise (hmin : minFrame ≤ w.length) (h : w.getD 1 0 ≠ 0x10) :
    fileVerdict w = .drop := by
  rw [fileVerdict, if_neg (not_lt.mpr hmin), if_pos h]

theorem verdict_of_write (hmin : minFrame ≤ w.length) (h : w.getD 1 0 = 0x10) :
    fileVerdict w =
      if w.length < frameLen w then .wait
      else if crcMatches w (frameLen w) then .take (frameLen w) (frameAtFront w)
      else .drop := by
  rw [fileVerdict, if_neg (not_lt.mpr hmin), if_neg (not_not.mpr h)]

theorem minFrame_le_of_frameLen (h : frameLen w ≤ w.length) : minFrame < w.length := by
  rw [frameLen] at h
  rw [minFrame]
  omega

/-- A frame is taken exactly where a complete one that passes the frame check is in sight. -/
theorem fileVerdict_eq_take {n : ℕ} {out : Option FileFrame} :
    fileVerdict w = .take n out ↔
      w.getD 1 0 = 0x10 ∧ frameLen w ≤ w.length ∧ crcMatches w (frameLen w) = true ∧
        n = frameLen w ∧ out = frameAtFront w := by
  constructor
  · intro h
    unfold fileVerdict at h
    split_ifs at h with hmin hwrite hpart hcrc
    obtain ⟨rfl, rfl⟩ := Verdict.take.inj h
    exact ⟨not_not.mp hwrite, not_lt.mp hpart, hcrc, rfl, rfl⟩
  · rintro ⟨hwrite, hlen, hcrc, rfl, rfl⟩
    rw [verdict_of_write (minFrame_le_of_frameLen hlen).le hwrite, if_neg (not_lt.mpr hlen),
      if_pos hcrc]

/-- A byte is dropped exactly where no register write starts, or a complete one that fails the
frame check. -/
theorem fileVerdict_eq_drop :
    fileVerdict w = .drop ↔ minFrame ≤ w.length ∧
      (w.getD 1 0 ≠ 0x10 ∨ frameLen w ≤ w.length ∧ crcMatches w (frameLen w) = false) := by
  constructor
  · intro h
    unfold fileVerdict at h
    split_ifs at h with hmin hwrite hpart hcrc
    · exact ⟨not_lt.mp hmin, .inl hwrite⟩
    · exact ⟨not_lt.mp hmin, .inr ⟨not_lt.mp hpart, Bool.eq_false_of_not_eq_true hcrc⟩⟩
  · rintro ⟨hmin, h⟩
    by_cases hwrite : w.getD 1 0 = 0x10
    · obtain hnoise | ⟨hlen, hcrc⟩ := h
      · exact absurd hwrite hnoise
      · rw [verdict_of_write hmin hwrite, if_neg (not_lt.mpr hlen), if_neg (by simp [hcrc])]
    · exact verdict_of_noise hmin hwrite

/-- What was decided without waiting stands when more bytes arrive. -/
theorem fileVerdict_append (v : List UInt8) (h : fileVerdict w ≠ .wait) :
    fileVerdict (w ++ v) = fileVerdict w := by
  have hmin : minFrame ≤ w.length := by
    by_contra hshort
    exact h (by rw [fileVerdict, if_pos (not_le.mp hshort)])
  have hsix : 6 ≤ w.length := hmin
  have hmin' : minFrame ≤ (w ++ v).length := by
    rw [List.length_append]
    omega
  have hsecond : (w ++ v).getD 1 0 = w.getD 1 0 := List.getD_append _ _ _ _ (by omega)
  by_cases hwrite : w.getD 1 0 = 0x10
  · rw [verdict_of_write hmin hwrite] at h ⊢
    rw [verdict_of_write hmin' (hsecond.trans hwrite)]
    by_cases hpart : w.length < frameLen w
    · exact absurd (if_pos hpart) h
    · have hfull : frameLen w ≤ w.length := not_lt.mp hpart
      have hseven := minFrame_le_of_frameLen hfull
      rw [minFrame] at hseven
      have hcount : (w ++ v).getD 6 0 = w.getD 6 0 := List.getD_append _ _ _ _ (by omega)
      have hlen : frameLen (w ++ v) = frameLen w := by rw [frameLen, frameLen, hcount]
      have hfront : frameAtFront (w ++ v) = frameAtFront w := by
        have hstation : (w ++ v).getD 0 0 = w.getD 0 0 := List.getD_append _ _ _ _ (by omega)
        rw [frameLen] at hfull
        rw [frameAtFront, frameAtFront, hcount, hstation,
          List.take_append_of_le_length (by omega)]
      have hcrc := crcMatches_append v (by rw [frameLen]; omega) hfull
      rw [hlen, hfront, hcrc, if_neg hpart, if_neg]
      rw [List.length_append]
      omega
  · rw [verdict_of_noise hmin hwrite, verdict_of_noise hmin' (by rwa [hsecond])]

/-- **The loop of `extract_frames` as a scanner.** -/
def fileScanner : Scanner UInt8 (Option FileFrame) where
  verdict := fileVerdict
  verdict_nil := rfl
  take_bound := by
    intro w n out h
    obtain ⟨-, hlen, -, rfl, -⟩ := fileVerdict_eq_take.mp h
    refine ⟨?_, hlen⟩
    rw [frameLen]
    omega
  stable := fileVerdict_append

/-- The frames in a byte string. -/
def framesIn (w : List UInt8) : List FileFrame :=
  (Piece.outs (fileScanner.scan w).1).reduceOption

/-- The bytes left of a byte string. -/
def leftover (w : List UInt8) : List UInt8 := (fileScanner.scan w).2

theorem leftover_append (w v : List UInt8) : leftover (w ++ v) = leftover (leftover w ++ v) := by
  rw [leftover, fileScanner.scan_append]
  rfl

theorem framesIn_append (w v : List UInt8) :
    framesIn (w ++ v) = framesIn w ++ framesIn (leftover w ++ v) := by
  rw [framesIn, fileScanner.scan_append, Piece.outs_append, List.reduceOption_append]
  rfl

/-- The loop reads past the end of these bytes: six of them, with `0x10` in second place. -/
def ReadsPastEnd (r : List UInt8) : Prop := r.length = minFrame ∧ r.getD 1 0 = 0x10

instance : DecidablePred ReadsPastEnd := fun r =>
  inferInstanceAs (Decidable (r.length = minFrame ∧ r.getD 1 0 = 0x10))

/-- What the loop does with a rest at which the scanner waits. -/
theorem extractLoop_of_wait {r : List UInt8} (h : fileVerdict r = .wait) :
    extractLoop frames r =
      if ReadsPastEnd r then .error (.indexError "bytearray index out of range")
      else .ok (frames, r) := by
  by_cases hmin : r.length < minFrame
  · rw [extractLoop_of_short hmin, if_neg fun hpast => hmin.ne hpast.1]
  · by_cases hwrite : r.getD 1 0 = 0x10
    · by_cases hsix : r.length = minFrame
      · rw [extractLoop_of_six hsix hwrite, if_pos ⟨hsix, hwrite⟩]
      · have hseven : minFrame < r.length := lt_of_le_of_ne (not_lt.mp hmin) (Ne.symm hsix)
        rw [verdict_of_write hseven.le hwrite] at h
        have hpart : r.length < frameLen r := by
          by_contra hfull
          rw [if_neg hfull] at h
          split at h <;> cases h
        rw [extractLoop_of_write hseven hwrite, if_pos hpart, if_neg fun hpast => hsix hpast.1]
    · rw [verdict_of_noise (not_lt.mp hmin) hwrite] at h
      cases h

/-- A byte that the scanner drops is deleted from the buffer. -/
theorem extractLoop_of_drop {a : UInt8} (h : fileVerdict (a :: w) = .drop) :
    extractLoop frames (a :: w) = extractLoop frames w := by
  obtain ⟨hmin, hnoise | ⟨hlen, hcrc⟩⟩ := fileVerdict_eq_drop.mp h
  · exact extractLoop_of_noise hmin hnoise
  · by_cases hwrite : (a :: w).getD 1 0 = 0x10
    · rw [extractLoop_of_write (minFrame_le_of_frameLen hlen) hwrite, if_neg (not_lt.mpr hlen),
        if_neg (by simp [hcrc])]
      rfl
    · exact extractLoop_of_noise hmin hwrite

/-- A frame that the scanner takes is deleted from the buffer and reported. -/
theorem extractLoop_of_take {n : ℕ} {out : Option FileFrame} (h : fileVerdict w = .take n out) :
    extractLoop frames w = extractLoop (frames ++ out.toList) (w.drop n) := by
  obtain ⟨hwrite, hlen, hcrc, rfl, rfl⟩ := fileVerdict_eq_take.mp h
  rw [extractLoop_of_write (minFrame_le_of_frameLen hlen) hwrite, if_neg (not_lt.mpr hlen),
    if_pos hcrc]

theorem extractLoop_of_reads {ps : List (Piece UInt8 (Option FileFrame))} {r : List UInt8}
    (h : fileScanner.Reads w ps r) (frames : List FileFrame) :
    extractLoop frames w =
      if ReadsPastEnd r then .error (.indexError "bytearray index out of range")
      else .ok (frames ++ (Piece.outs ps).reduceOption, r) := by
  induction h generalizing frames with
  | wait hv =>
    rw [extractLoop_of_wait hv, Piece.outs_nil, List.reduceOption_nil, List.append_nil]
  | drop hv _ ih => rw [extractLoop_of_drop hv, ih, Piece.outs_junk]
  | @take w r n out ps hv _ ih =>
    rw [extractLoop_of_take hv, ih, Piece.outs_token, List.append_assoc]
    cases out <;> rfl

/-- **The loop is the scanner's reading**, unless it reads past the end of what is left. -/
theorem extractLoop_eq (frames : List FileFrame) (w : List UInt8) :
    extractLoop frames w =
      if ReadsPastEnd (leftover w) then .error (.indexError "bytearray index out of range")
      else .ok (frames ++ framesIn w, leftover w) :=
  extractLoop_of_reads (fileScanner.reads_scan w) frames

theorem extractFrames_eq (w : List UInt8) :
    extractFrames w =
      if ReadsPastEnd (leftover w) then .error (.indexError "bytearray index out of range")
      else .ok (framesIn w, leftover w) :=
  extractLoop_eq [] w

/-! ## Read boundaries -/

/-- **Reading `w` from its front comes to `v`**: bytes are discarded at which no register write
starts, or a complete one that fails the frame check, and the complete ones that pass it are
taken. -/
inductive ComesTo : List UInt8 → List UInt8 → Prop
  | here (w : List UInt8) : ComesTo w w
  | discard {a : UInt8} {w v : List UInt8} :
      minFrame ≤ (a :: w).length →
      ((a :: w).getD 1 0 ≠ 0x10 ∨ frameLen (a :: w) ≤ (a :: w).length ∧
        crcMatches (a :: w) (frameLen (a :: w)) = false) →
      ComesTo w v → ComesTo (a :: w) v
  | frame {w v : List UInt8} :
      w.getD 1 0 = 0x10 → frameLen w ≤ w.length → crcMatches w (frameLen w) = true →
      ComesTo (w.drop (frameLen w)) v → ComesTo w v

/-- Read from its front, `w` comes to a rest of six bytes with `0x10` in second place. -/
def Stranded (w : List UInt8) : Prop := ∃ v, ComesTo w v ∧ ReadsPastEnd v

theorem comesTo_of_reads {ps : List (Piece UInt8 (Option FileFrame))} {r : List UInt8}
    (h : fileScanner.Reads w ps r) : ComesTo w r := by
  induction h with
  | wait _ => exact .here _
  | drop hv _ ih =>
    obtain ⟨hmin, hdiscard⟩ := fileVerdict_eq_drop.mp hv
    exact .discard hmin hdiscard ih
  | take hv _ ih =>
    obtain ⟨hwrite, hlen, hcrc, rfl, -⟩ := fileVerdict_eq_take.mp hv
    exact .frame hwrite hlen hcrc ih

/-- What a byte string comes to, and the scanner waits at, is what is left of it. -/
theorem ComesTo.leftover_eq {v : List UInt8} (h : ComesTo w v) (hwait : fileVerdict v = .wait) :
    leftover w = v := by
  rw [leftover]
  induction h with
  | here w => rw [fileScanner.scan_of_wait hwait]
  | discard hmin hdiscard _ ih =>
    rw [fileScanner.scan_of_drop (fileVerdict_eq_drop.mpr ⟨hmin, hdiscard⟩)]
    exact ih hwait
  | frame hwrite hlen hcrc _ ih =>
    rw [fileScanner.scan_of_take (fileVerdict_eq_take.mpr ⟨hwrite, hlen, hcrc, rfl, rfl⟩)]
    exact ih hwait

theorem ReadsPastEnd.verdict {r : List UInt8} (h : ReadsPastEnd r) : fileVerdict r = .wait := by
  have hpart : r.length < frameLen r := by
    rw [h.1, frameLen, minFrame]
    omega
  rw [verdict_of_write h.1.ge h.2, if_pos hpart]

/-- A byte string is stranded exactly when the loop reads past the end of what is left of it. -/
theorem stranded_iff : Stranded w ↔ ReadsPastEnd (leftover w) := by
  constructor
  · rintro ⟨v, hcomes, hpast⟩
    rw [hcomes.leftover_eq hpast.verdict]
    exact hpast
  · intro hpast
    exact ⟨leftover w, comesTo_of_reads (fileScanner.reads_scan w), hpast⟩

instance : DecidablePred Stranded := fun _ => decidable_of_iff _ stranded_iff.symm

/-- One more read: the call fails exactly when the bytes so far are stranded. -/
theorem extractFrames_leftover (w read : List UInt8) :
    extractFrames (leftover w ++ read) =
      if Stranded (w ++ read) then .error (.indexError "bytearray index out of range")
      else .ok (framesIn (leftover w ++ read), leftover (w ++ read)) := by
  rw [extractFrames_eq, ← leftover_append]
  by_cases hpast : ReadsPastEnd (leftover (w ++ read))
  · rw [if_pos hpast, if_pos (stranded_iff.mpr hpast)]
  · rw [if_neg hpast, if_neg (mt stranded_iff.mp hpast)]

theorem extractReads_of_stranded {read : List UInt8} (h : Stranded (w ++ read))
    (reads : List (List UInt8)) :
    extractReads (leftover w) (read :: reads) =
      .error (.indexError "bytearray index out of range") := by
  rw [extractReads, extractFrames_leftover, if_pos h]
  rfl

theorem extractReads_of_not_stranded {read : List UInt8} (h : ¬ Stranded (w ++ read))
    (reads : List (List UInt8)) :
    extractReads (leftover w) (read :: reads) =
      (extractReads (leftover (w ++ read)) reads).map
        fun r => (framesIn (leftover w ++ read) ++ r.1, r.2) := by
  rw [extractReads, extractFrames_leftover, if_neg h]
  rfl

/-- Reads that strand the buffer nowhere give the frames of what they make together. -/
theorem extractReads_eq_ok (w : List UInt8) (reads : List (List UInt8))
    (h : ∀ pre, pre <+: reads → ¬ Stranded (w ++ pre.flatten)) :
    ∃ later, extractReads (leftover w) reads = .ok (later, leftover (w ++ reads.flatten)) ∧
      framesIn (w ++ reads.flatten) = framesIn w ++ later := by
  induction reads generalizing w with
  | nil =>
    rw [List.flatten_nil, List.append_nil]
    exact ⟨[], rfl, (List.append_nil _).symm⟩
  | cons read reads ih =>
    have hread : ¬ Stranded (w ++ read) := by
      have h₁ := h [read] (List.prefix_cons_inj read |>.mpr List.nil_prefix)
      rwa [List.flatten_singleton] at h₁
    obtain ⟨later, hreads, hframes⟩ := ih (w ++ read) fun pre hpre => by
      have h₂ := h (read :: pre) ((List.prefix_cons_inj read).mpr hpre)
      rwa [List.flatten_cons, ← List.append_assoc] at h₂
    rw [List.flatten_cons, ← List.append_assoc]
    refine ⟨framesIn (leftover w ++ read) ++ later, ?_, ?_⟩
    · rw [extractReads_of_not_stranded hread, hreads]
      rfl
    · rw [hframes, framesIn_append, List.append_assoc]

/-- Reads that strand the buffer somewhere raise an exception there. -/
theorem not_stranded_of_extractReads {w : List UInt8} {reads pre : List (List UInt8)}
    {r : List FileFrame × List UInt8} (h : extractReads (leftover w) reads = .ok r)
    (hpre : pre <+: reads) (hw : ¬ Stranded w) : ¬ Stranded (w ++ pre.flatten) := by
  induction pre generalizing w reads r with
  | nil => rwa [List.flatten_nil, List.append_nil]
  | cons read pre ih =>
    obtain ⟨reads, rfl, hrest⟩ := List.cons_prefix_iff.mp hpre
    by_cases hread : Stranded (w ++ read)
    · rw [extractReads_of_stranded hread] at h
      cases h
    · rw [extractReads_of_not_stranded hread] at h
      rw [List.flatten_cons, ← List.append_assoc]
      cases hlater : extractReads (leftover (w ++ read)) reads with
      | error e =>
        rw [hlater] at h
        cases h
      | ok later => exact ih hlater hrest hread

@[simp] theorem leftover_nil : leftover [] = [] := by
  rw [leftover, fileScanner.scan_of_wait rfl]

@[simp] theorem framesIn_nil : framesIn [] = [] := by
  rw [framesIn, fileScanner.scan_of_wait rfl]
  rfl

theorem not_stranded_nil : ¬ Stranded [] := by
  rw [stranded_iff, leftover_nil]
  decide

/-- **The read boundaries that `extract_frames` survives.** Whatever the bytes and wherever they are
cut, calling `extract_frames` after each read raises no exception and gives the same frames and the
same rest as one call on all of the bytes, if and only if no read ends where the bytes so far come
to a rest of six bytes with `0x10` in second place. -/
theorem read_boundaries_iff (reads : List (List UInt8)) :
    (∃ frames rest, extractReads [] reads = .ok (frames, rest) ∧
      extractFrames reads.flatten = .ok (frames, rest)) ↔
      ∀ pre, pre <+: reads → ¬ Stranded pre.flatten := by
  constructor
  · rintro ⟨frames, rest, hreads, -⟩ pre hpre
    rw [← leftover_nil] at hreads
    exact not_stranded_of_extractReads hreads hpre not_stranded_nil
  · intro h
    obtain ⟨later, hreads, hframes⟩ := extractReads_eq_ok [] reads h
    rw [leftover_nil, List.nil_append] at hreads
    rw [List.nil_append, framesIn_nil, List.nil_append] at hframes
    refine ⟨later, _, hreads, ?_⟩
    rw [extractFrames_eq, if_neg (mt stranded_iff.mpr (h reads (List.prefix_refl _))), hframes]

/-- A frame with the one byte `0x41`, cut into its first six bytes and the others: the call on the
first six raises an exception. -/
theorem not_read_boundaries :
    ¬ ∀ reads : List (List UInt8), ∃ frames rest, extractReads [] reads = .ok (frames, rest) ∧
      extractFrames reads.flatten = .ok (frames, rest) := by
  intro h
  obtain ⟨frames, rest, hreads, -⟩ := h [[0x01, 0x10, 0x00, 0x00, 0x00, 0x04],
    [0x08, 0xF1, 0xF1, 0x00, 0x00, 0x01, 0x00, 0x01, 0x41, 0x58, 0x61]]
  have hstranded : Stranded ([] ++ [0x01, 0x10, 0x00, 0x00, 0x00, 0x04]) :=
    ⟨_, .here _, by decide⟩
  have herror := extractReads_of_stranded hstranded
    [[0x08, 0xF1, 0xF1, 0x00, 0x00, 0x01, 0x00, 0x01, 0x41, 0x58, 0x61]]
  rw [leftover_nil] at herror
  rw [herror] at hreads
  cases hreads

end Ds10File

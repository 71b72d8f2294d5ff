import DS10Link.File.Receiver
import DS10Link.File.Sender

/-!
# Frames whose fields do not fit

A receiver that ends with all chunks of a file has found each of them in a frame, and a frame has a
number of two bytes and at most 255 bytes of data. So there are no chunks under larger numbers, and
none of more than 248 bytes. With 248 bytes the sender pads the data to 256 and announces none of
them, while frames with 255 bytes of data might lie across the sent ones, one byte shorter. There
is not enough room: they would have to drift by a byte with each frame, and would start at the
second byte of a length, where a register write has its function code.

## Main definitions

* `isFull`, `frame?`: the frames of 248 bytes, the frame of a piece of the received bytes
* `HasChunks content chunk rx`: the receiver has the chunks of a file

## Main results

* `bounds_of_mem_framesIn`: what any frame found is bounded by
* `start_of_full`, `le_length_of_full`: the frames of 248 bytes lie too far apart
* `fits_of_heard`: if all chunks are received, all fields fit
-/

namespace Ds10File

open Ds10Driver

variable {station : UInt8} {content : List UInt8} {chunk : ℕ+}

/-! ## The bounds of a frame -/

theorem frameOf_bounds {data : List UInt8} {frame : FileFrame}
    (h : frameOf station data = some frame) :
    frame.seq < 65536 ∧ frame.payload.length + 7 ≤ data.length := by
  unfold frameOf at h
  split at h
  · rename_i m₀ m₁ seqHi seqLo flag lenHi lenLo rest
    split at h
    · cases h
    · obtain rfl := Option.some.inj h
      have hhi := seqHi.toNat_lt
      have hlo := seqLo.toNat_lt
      refine ⟨?_, ?_⟩
      · change seqHi.toNat <<< 8 ||| seqLo.toNat < 65536
        rw [Word.shiftLeft_or]
        omega
      · have hle := List.length_take_le' (lenHi.toNat <<< 8 ||| lenLo.toNat) rest
        simp only [List.length_cons]
        omega
  · cases h

/-- The payload of a frame is at least sixteen bytes shorter than the frame. -/
theorem take_bounds {w : List UInt8} {n : ℕ} {frame : FileFrame}
    (h : fileVerdict w = .take n (some frame)) :
    frame.seq < 65536 ∧ frame.payload.length + 16 ≤ n ∧ n ≤ 264 := by
  obtain ⟨-, hlen, -, rfl, hframe⟩ := fileVerdict_eq_take.mp h
  obtain ⟨hseq, hpayload⟩ := frameOf_bounds hframe.symm
  have hcount := (w.getD 6 0).toNat_lt
  rw [frameLen] at hlen ⊢
  rw [List.length_drop, List.length_take] at hpayload
  omega

theorem bounds_of_mem_framesIn {w : List UInt8} {frame : FileFrame} (h : frame ∈ framesIn w) :
    frame.seq < 65536 ∧ frame.payload.length ≤ 248 := by
  obtain ⟨raw, hmem⟩ := Piece.mem_outs (List.reduceOption_mem_iff.mp h)
  obtain ⟨v, hv⟩ := (fileScanner.reads_scan w).exists_verdict hmem
  obtain ⟨hseq, hpayload, hle⟩ := take_bounds hv
  exact ⟨hseq, by omega⟩

/-! ## Where such frames cannot start -/

/-- The bytes of a frame with a payload of 248 bytes from its third on, up to the payload. -/
def fullHeader (seq : ℕ) (isLast : Bool) : List UInt8 :=
  [0x00, 0x00, 0x00, 0x80, 0x00, 0xF1, 0xF1, byteOf (seq >>> 8), byteOf seq,
    if isLast then 1 else 0, 0x00, 0xF8]

theorem buildFrame_full {payload : List UInt8} (station : UInt8) (seq : ℕ) (isLast : Bool)
    (h : payload.length = 248) :
    ∃ back, buildFrame station seq payload isLast =
      station :: 0x10 :: (fullHeader seq isLast ++ back) := by
  have hlen := length_frameData seq payload isLast
  obtain ⟨padding, -, hdata⟩ := frameData_eq seq payload isLast
  rw [h] at hlen hdata
  rw [buildFrame, frameBody, hlen, hdata]
  exact ⟨_, rfl⟩

/-- In the first frame no byte of the header but the second looks like the function code. -/
theorem not_mem_fullHeader (isLast : Bool) : 0x10 ∉ fullHeader 0 isLast := by
  cases isLast <;> decide

theorem getD_drop (w : List UInt8) (p i : ℕ) : (w.drop p).getD i 0 = w.getD (p + i) 0 := by
  rw [List.getD_eq_getElem?_getD, List.getElem?_drop, ← List.getD_eq_getElem?_getD]

/-- What a frame of 248 bytes needs where it starts. -/
theorem take_full {w : List UInt8} {n : ℕ} {frame : FileFrame}
    (h : fileVerdict w = .take n (some frame)) (hfull : frame.payload.length = 248) :
    w.getD 1 0 = 0x10 ∧ w.getD 6 0 = 0xFF := by
  obtain ⟨-, hlow, hhigh⟩ := take_bounds h
  obtain ⟨hwrite, -, -, hn, -⟩ := fileVerdict_eq_take.mp h
  rw [frameLen] at hn
  refine ⟨hwrite, UInt8.toNat_inj.mp ?_⟩
  change _ = 255
  omega

/-- The stretch of a chunk of 248 bytes behind others of this length. -/
theorem drop_sent (station : UInt8) {k : ℕ}
    (h : ∀ i ≤ k, ∃ payload, (chunksOf content chunk)[i]? = some payload ∧ payload.length = 248) :
    ∃ isLast back, (sentFrames station content chunk).flatten.drop (265 * k) =
      station :: 0x10 :: (fullHeader k isLast ++ back) := by
  obtain ⟨payload, hpayload, hlen⟩ := h k le_rfl
  obtain ⟨isLast, hu⟩ := exists_sentFrame station hpayload
  have hfront := length_flatten_take station fun i hi => h i (Nat.le_of_lt hi)
  obtain ⟨back, hframe⟩ := buildFrame_full station k isLast hlen
  rw [flatten_eq_of_getElem? hu, List.drop_left' (by rw [hfront, Nat.mul_comm]; rfl), hframe]
  exact ⟨isLast, _, by rw [List.cons_append, List.cons_append, List.append_assoc]⟩

/-- **Where a frame of 248 bytes can start** among sent ones: not before the payload of the first,
and not at the length of another. -/
theorem start_of_full {m p n : ℕ} {frame : FileFrame} (hm : 0 < m)
    (h : ∀ i < m, ∃ payload, (chunksOf content chunk)[i]? = some payload ∧ payload.length = 248)
    (hv : fileVerdict ((sentFrames station content chunk).flatten.drop p) =
      .take n (some frame))
    (hfull : frame.payload.length = 248) :
    264 ≤ n ∧ 12 < p ∧ ∀ k < m, p ≠ (264 + 1) * k + 12 := by
  obtain ⟨hwrite, hcount⟩ := take_full hv hfull
  rw [getD_drop] at hwrite hcount
  refine ⟨?_, ?_, ?_⟩
  · have hroom := (take_bounds hv).2.1
    omega
  · obtain ⟨isLast, back, hstream⟩ := drop_sent station fun i (hi : i ≤ 0) =>
      h i (by omega)
    rw [Nat.mul_zero, List.drop_zero] at hstream
    rw [hstream] at hwrite hcount
    by_contra hp
    rcases p with _ | p
    -- At the first byte of the frame, the count announces nothing.
    · cases hcount
    -- Behind it, the function code would have to lie in the header.
    · have hlt : p < (fullHeader 0 isLast).length := by
        change p < 12
        omega
      have hbyte : (fullHeader 0 isLast ++ back).getD p 0 = 0x10 := hwrite
      rw [List.getD_append _ _ _ _ hlt, List.getD_eq_getElem _ _ hlt] at hbyte
      exact not_mem_fullHeader isLast (hbyte ▸ List.getElem_mem hlt)
  · rintro k hk rfl
    obtain ⟨isLast, back, hstream⟩ := drop_sent station fun i (hi : i ≤ k) =>
      h i (by omega)
    have hbyte := getD_drop (sentFrames station content chunk).flatten (265 * k) 13
    rw [hstream, hwrite] at hbyte
    cases hbyte

/-! ## The room for such frames -/

/-- The frame has a payload of 248 bytes. -/
def isFull (out : Option FileFrame) : Bool := out.any fun frame => frame.payload.length = 248

/-- The frame of a piece. -/
def frame? (piece : Piece UInt8 (Option FileFrame)) : Option FileFrame := piece.out?.join

variable {ps qs : List (Piece UInt8 (Option FileFrame))}

theorem tokens_isFull (ps : List (Piece UInt8 (Option FileFrame))) :
    Piece.tokens isFull ps =
      (ps.filterMap frame?).countP fun frame => frame.payload.length = 248 := by
  rw [Piece.tokens, Piece.outs, List.countP_filterMap, List.countP_filterMap]
  congr 1
  ext piece
  rcases piece with ⟨raw, _ | frame⟩ | a <;> rfl

/-- **What `m` frames of 248 bytes take up** among the sent bytes. -/
theorem le_length_of_full {m : ℕ} (hm : 0 < m)
    (hfull : ∀ i < m, ∃ payload, (chunksOf content chunk)[i]? = some payload ∧ payload.length = 248)
    (hqs : qs <+: (fileScanner.scan (sentFrames station content chunk).flatten).1)
    (hcount : m ≤ Piece.tokens isFull qs) : 265 * m + 12 ≤ (qs.flatMap Piece.raw).length := by
  have hreads := fileScanner.reads_scan (sentFrames station content chunk).flatten
  have hstart : ∀ p n out, fileScanner.verdict
      ((sentFrames station content chunk).flatten.drop p) = .take n out → isFull out = true →
        264 ≤ n ∧ 12 < p ∧ ∀ k < m, p ≠ (264 + 1) * k + 12 := by
    intro p n out hv hkind
    rcases out with _ | frame
    · cases hkind
    · exact start_of_full hm hfull hv (by simpa [isFull] using hkind)
  have hspaced := hreads.spaced hm hstart (p := 0) (j := 0) rfl hqs (.inl rfl) (Nat.zero_le m)
    (by omega)
  omega

/-! ## All chunks received -/

/-- The receiver has the chunks of the file, each under its number, and nothing else. -/
def HasChunks (content : List UInt8) (chunk : ℕ+) (rx : Receiver) : Prop :=
  ∀ i, rx.chunks.lookup i = (chunksOf content chunk)[i]?.map fun payload =>
    (i == (chunksOf content chunk).length - 1, payload)

/-- What the receiver has, it found in frames, and these have bounds. -/
theorem HasChunks.bounds {w payload : List UInt8} {i : ℕ}
    (h : HasChunks content chunk (heard station w))
    (hpayload : (chunksOf content chunk)[i]? = some payload) :
    i < 65536 ∧ payload.length ≤ 248 := by
  have hlookup := h i
  rw [hpayload, Option.map_some] at hlookup
  obtain ⟨frame, hmem, rfl, -, rfl⟩ := exists_frame_of_lookup hlookup
  exact bounds_of_mem_framesIn (mem_of_mem_heeded hmem).1

theorem framesIn_eq (w : List UInt8) :
    framesIn w = (fileScanner.scan w).1.filterMap frame? := by
  rw [framesIn, Piece.outs, List.reduceOption, List.filterMap_filterMap]
  rfl

/-- Where a frame was found. -/
theorem exists_piece {w : List UInt8} {front back : List FileFrame} {last : FileFrame}
    (h : framesIn w = front ++ last :: back) :
    ∃ qs raw ps, (fileScanner.scan w).1 = qs ++ .token raw (some last) :: ps ∧
      qs.filterMap frame? = front := by
  rw [framesIn_eq] at h
  obtain ⟨qs, ps, hps, rfl, hback⟩ := List.filterMap_eq_append_iff.mp h
  obtain ⟨qs', piece, ps', rfl, hnone, hpiece, -⟩ := List.filterMap_eq_cons_iff.mp hback
  refine ⟨qs ++ qs', ?_⟩
  cases piece with
  | junk a => cases hpiece
  | token raw out =>
    have hout : out = some last := hpiece
    refine ⟨raw, ps', ?_, ?_⟩
    · rw [hps, hout, List.append_assoc]
    · rw [List.filterMap_append, List.filterMap_eq_nil_iff.mpr hnone, List.append_nil]

/-- The frames of the chunks before the last are found before the one that ends the loop. -/
theorem le_countP_full {w : List UInt8} {m : ℕ} {front : List FileFrame} {last : FileFrame}
    (h : HasChunks content chunk (heard station w)) (hm : m ≤ (chunksOf content chunk).length - 1)
    (hfull : ∀ i < m, ∃ payload, (chunksOf content chunk)[i]? = some payload ∧ payload.length = 248)
    (hlast : last.isLast = true)
    (hheeded : heeded station (framesIn w) = heeded station front ++ [last]) :
    m ≤ front.countP fun frame => frame.payload.length = 248 := by
  have hsub : List.range m ⊆
      (front.filter fun frame => frame.payload.length = 248).map FileFrame.seq := by
    intro i hi
    obtain ⟨payload, hpayload, hlen⟩ := hfull i (List.mem_range.mp hi)
    have hlookup := h i
    rw [hpayload, Option.map_some, beq_eq_false_iff_ne.mpr (by have := List.mem_range.mp hi; omega)]
      at hlookup
    obtain ⟨frame, hmem, rfl, hflag, rfl⟩ := exists_frame_of_lookup hlookup
    rw [hheeded] at hmem
    -- The flag tells the frame from the one that ends the loop.
    rcases List.mem_append.mp hmem with hmem | hmem
    · exact List.mem_map.mpr
        ⟨frame, List.mem_filter.mpr ⟨(mem_of_mem_heeded hmem).1, by simpa using hlen⟩, rfl⟩
    · rw [List.mem_singleton.mp hmem, hlast] at hflag
      cases hflag
  have hlength := (List.subperm_of_subset List.nodup_range hsub).length_le
  rwa [List.length_range, List.length_map, ← List.countP_eq_length_filter] at hlength

/-- The length of the sent bytes, when all chunks but the last have 248 bytes. -/
theorem length_sent (station : UInt8) {n : ℕ} {payload : List UInt8}
    (hn : (chunksOf content chunk).length = n + 1)
    (hfull : ∀ i < n, ∃ payload, (chunksOf content chunk)[i]? = some payload ∧ payload.length = 248)
    (hlast : (chunksOf content chunk)[n]? = some payload) :
    (sentFrames station content chunk).flatten.length = 265 * n + frameLength payload.length := by
  obtain ⟨isLast, hu⟩ := exists_sentFrame station hlast
  have hend : (sentFrames station content chunk).drop (n + 1) = [] :=
    List.drop_eq_nil_of_le (by rw [length_sentFrames, hn])
  have hfront : frameLength 248 = 265 := rfl
  rw [flatten_eq_of_getElem? hu, hend, List.length_append, length_flatten_take station hfull,
    List.length_append, length_buildFrame, List.flatten_nil, List.length_nil, hfront, Nat.mul_comm,
    Nat.add_zero]

/-- The frame that ends the loop has the last chunk, and comes behind those of the others. -/
theorem HasChunks.exists_last {w final : List UInt8} {n : ℕ}
    (h : HasChunks content chunk (heard station w)) (hdone : (heard station w).done = true)
    (hn : (chunksOf content chunk).length = n + 1)
    (hfull : ∀ i < n, ∃ payload, (chunksOf content chunk)[i]? = some payload ∧ payload.length = 248)
    (hfinal : (chunksOf content chunk)[n]? = some final) :
    ∃ qs raw last ps, (fileScanner.scan w).1 = qs ++ .token raw (some last) :: ps ∧
      n ≤ Piece.tokens isFull qs ∧ last.payload = final := by
  rw [done_heard] at hdone
  obtain ⟨front, last, back, hframes, hlast, hheeded, hfront⟩ := heeded_split hdone
  obtain ⟨qs, raw, ps, hps, hqs⟩ := exists_piece hframes
  refine ⟨qs, raw, last, ps, hps, ?_, ?_⟩
  · rw [tokens_isFull, hqs]
    exact le_countP_full h (by omega) hfull hlast hheeded
  · have hlookup := h n
    rw [hfinal, Option.map_some, hn, Nat.add_sub_cancel, beq_self_eq_true] at hlookup
    obtain ⟨frame, hmem, -, hflag, rfl⟩ := exists_frame_of_lookup hlookup
    rw [hheeded] at hmem
    rcases List.mem_append.mp hmem with hmem | hmem
    · rw [hfront frame hmem] at hflag
      cases hflag
    · rw [List.mem_singleton.mp hmem]

/-- A frame found has room for its payload, and lies behind what was read before it. -/
theorem token_room {w raw : List UInt8} {frame : FileFrame}
    (h : (fileScanner.scan w).1 = qs ++ .token raw (some frame) :: ps) :
    frame.payload.length + 16 ≤ raw.length ∧
      (qs.flatMap Piece.raw).length + raw.length ≤ w.length := by
  have hreads := fileScanner.reads_scan w
  refine ⟨?_, ?_⟩
  · have hmem : .token raw (some frame) ∈ (fileScanner.scan w).1 := by
      rw [h]
      exact List.mem_append_right _ List.mem_cons_self
    obtain ⟨v, hv⟩ := hreads.exists_verdict hmem
    exact (take_bounds hv).2.1
  · have hall := congrArg List.length hreads.raw
    rw [h, List.flatMap_append, List.flatMap_cons] at hall
    simp only [List.length_append, Piece.raw_token] at hall
    omega

/-- **Chunks of 248 bytes are never all received.** -/
theorem HasChunks.length_ne {first : List UInt8}
    (h : HasChunks content chunk (heard station (sentFrames station content chunk).flatten))
    (hdone : (heard station (sentFrames station content chunk).flatten).done = true)
    (hfirst : (chunksOf content chunk)[0]? = some first) : first.length ≠ 248 := by
  intro hlen
  obtain ⟨n, hn⟩ : ∃ n, (chunksOf content chunk).length = n + 1 :=
    Nat.exists_eq_succ_of_ne_zero (List.getElem?_eq_some_iff.mp hfirst).1.ne'
  have hfull : ∀ i < n, ∃ payload, (chunksOf content chunk)[i]? = some payload ∧
      payload.length = 248 := by
    intro i hi
    rw [← hlen]
    exact exists_chunk_like_first hn hfirst hi
  have hend : n * (chunk : ℕ) < content.length := lt_length_chunksOf.mp (by omega)
  obtain ⟨final, hfinal, -⟩ := exists_chunk hend
  have hlength := length_sent station hn hfull hfinal
  obtain ⟨qs, raw, last, ps, hps, hcount, hlast⟩ := h.exists_last hdone hn hfull hfinal
  -- The frames before the last chunk, and its own, share the bytes that were sent.
  obtain ⟨hraw, hroom⟩ := token_room hps
  rw [hlast] at hraw
  rw [hlength, frameLength] at hroom
  rcases Nat.eq_zero_or_pos n with rfl | hpos
  -- The frame of a single chunk would itself have to lie behind the header.
  · obtain rfl := Option.some.inj (hfirst.symm.trans hfinal)
    have hkind : isFull (some last) = true := by
      rw [isFull, Option.any_some, hlast]
      exact decide_eq_true hlen
    have hone : 1 ≤ Piece.tokens isFull (qs ++ [.token raw (some last)]) := by
      rw [Piece.tokens_append, Piece.tokens_of_kind _ _ hkind]
      omega
    have hprefix : qs ++ [.token raw (some last)] <+:
        (fileScanner.scan (sentFrames station content chunk).flatten).1 := by
      rw [hps]
      exact ⟨ps, List.append_assoc _ _ _⟩
    have hbound := le_length_of_full Nat.one_pos
      (fun i hi => ⟨first, by rwa [Nat.lt_one_iff.mp hi], hlen⟩) hprefix hone
    rw [List.flatMap_append, List.length_append, List.flatMap_singleton, Piece.raw_token] at hbound
    omega
  -- The frames before the last leave too little room for it.
  · have hprefix : qs <+: (fileScanner.scan (sentFrames station content chunk).flatten).1 := by
      rw [hps]
      exact List.prefix_append _ _
    have hbound := le_length_of_full hpos hfull hprefix hcount
    omega

/-- **If all chunks are received, all fields fit.** -/
theorem fits_of_heard (hcontent : content ≠ [])
    (hdone : (heard station (sentFrames station content chunk).flatten).done = true)
    (h : HasChunks content chunk (heard station (sentFrames station content chunk).flatten)) :
    Fits content chunk := by
  have hpos : 0 < content.length := List.length_pos_iff.mpr hcontent
  refine ⟨?_, ?_⟩
  · have hzero : 0 * (chunk : ℕ) < content.length := by omega
    obtain ⟨first, hfirst, hlen⟩ := exists_chunk hzero
    have hbound := (h.bounds hfirst).2
    have hne := h.length_ne hdone hfirst
    omega
  · by_contra hmany
    obtain ⟨payload, hpayload, -⟩ := exists_chunk (not_le.mp hmany)
    exact absurd (h.bounds hpayload).1 (lt_irrefl _)

end Ds10File

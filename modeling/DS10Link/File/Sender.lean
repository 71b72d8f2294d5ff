import DS10Link.File.Extract

/-!
# The frames a file is sent in

The sender cuts the content into chunks of one length, but for the last one, and puts each into a
frame. The number of bytes and the number of the chunk are masked to their fields, so a frame is
read back as it was meant exactly while both fit.

## Main definitions

* `frameLength p`: the length of a frame with a payload of `p` bytes
* `fileFrames station content chunk`: the frames as the sender means them

## Main results

* `getElem?_chunksOf`, `flatten_chunksOf`: the chunks are the content, cut at the multiples of the
  chunk size
* `fileVerdict_buildFrame`: a frame whose fields fit is recognised on its own
* `framesIn_sent`: the sent bytes are read back as the frames that were meant
* `stranded_sent_iff`: the cuts of the sent bytes at which the receiver reads past the end
-/

open Word

namespace Ds10File

open Ds10Driver

variable {content : List UInt8} {chunk : ℕ+}

/-! ## The chunks -/

/-- The loop's slice is the piece of one chunk size at the offset. -/
theorem slice_eq (content : List UInt8) (chunk offset : ℕ) :
    (content.take (min (offset + chunk) content.length)).drop offset =
      (content.drop offset).take chunk := by
  rw [List.drop_take, List.take_eq_take_iff, List.length_drop]
  omega

theorem chunksFrom_of_lt {offset : ℕ} (h : offset < content.length) :
    chunksFrom content chunk offset =
      (content.drop offset).take chunk ::
        chunksFrom content chunk (min (offset + chunk) content.length) := by
  rw [chunksFrom, if_pos h]
  exact congrArg (· :: _) (slice_eq content chunk offset)

theorem chunksFrom_of_le {offset : ℕ} (h : content.length ≤ offset) :
    chunksFrom content chunk offset = [] := by
  rw [chunksFrom, if_neg (not_lt.mpr h)]

/-- The chunks lie at the multiples of the chunk size. -/
theorem getElem?_chunksFrom (offset i : ℕ) :
    (chunksFrom content chunk offset)[i]? =
      if offset + i * chunk < content.length then
        some ((content.drop (offset + i * chunk)).take chunk)
      else none := by
  induction i generalizing offset with
  | zero =>
    rw [Nat.zero_mul, Nat.add_zero]
    by_cases h : offset < content.length
    · rw [chunksFrom_of_lt h, if_pos h, List.getElem?_cons_zero]
    · rw [chunksFrom_of_le (not_lt.mp h), if_neg h, List.getElem?_nil]
  | succ i ih =>
    have hmul : (i + 1) * (chunk : ℕ) = i * chunk + chunk := Nat.succ_mul _ _
    by_cases h : offset < content.length
    · rw [chunksFrom_of_lt h, List.getElem?_cons_succ, ih]
      -- The loop goes on at the end of this chunk, or at the end of the content if that is nearer.
      by_cases hend : offset + chunk ≤ content.length
      · have hstop : min (offset + chunk) content.length + i * chunk =
            offset + (i + 1) * chunk := by omega
        rw [hstop]
      · rw [if_neg (by omega), if_neg (by omega)]
    · rw [chunksFrom_of_le (not_lt.mp h), List.getElem?_nil, if_neg (by omega)]

theorem getElem?_chunksOf (content : List UInt8) (chunk : ℕ+) (i : ℕ) :
    (chunksOf content chunk)[i]? =
      if i * chunk < content.length then some ((content.drop (i * chunk)).take chunk)
      else none := by
  rw [chunksOf, getElem?_chunksFrom, Nat.zero_add]

theorem lt_length_chunksOf {i : ℕ} :
    i < (chunksOf content chunk).length ↔ i * chunk < content.length := by
  rw [← not_le, ← List.getElem?_eq_none_iff, getElem?_chunksOf]
  by_cases h : i * chunk < content.length
  · simp [h]
  · simp [h]

/-- No byte is lost at the cuts. -/
theorem flatten_chunksFrom (content : List UInt8) (chunk : ℕ+) (offset : ℕ) :
    (chunksFrom content chunk offset).flatten = content.drop offset := by
  fun_induction chunksFrom content chunk offset with
  | case1 offset h stop ih =>
    rw [List.flatten_cons, ih, slice_eq]
    by_cases hend : offset + chunk ≤ content.length
    · have hstop : stop = offset + chunk := min_eq_left hend
      rw [hstop, ← List.drop_drop, List.take_append_drop]
    · have hstop : stop = content.length := min_eq_right (by omega)
      rw [hstop, List.drop_length, List.append_nil, List.take_of_length_le]
      rw [List.length_drop]
      omega
  | case2 offset h => rw [List.flatten_nil, List.drop_of_length_le (by omega)]

theorem flatten_chunksOf (content : List UInt8) (chunk : ℕ+) :
    (chunksOf content chunk).flatten = content := by
  rw [chunksOf, flatten_chunksFrom, List.drop_zero]

theorem length_of_getElem?_chunksOf {i : ℕ} {payload : List UInt8}
    (h : (chunksOf content chunk)[i]? = some payload) :
    payload.length = min (chunk : ℕ) (content.length - i * chunk) := by
  rw [getElem?_chunksOf] at h
  split at h
  · rw [← Option.some.inj h, List.length_take, List.length_drop]
  · cases h

/-- There is a chunk as long as the content is not used up. -/
theorem exists_chunk {i : ℕ} (h : i * chunk < content.length) :
    ∃ payload, (chunksOf content chunk)[i]? = some payload ∧
      payload.length = min (chunk : ℕ) (content.length - i * chunk) := by
  have hpayload := List.getElem?_eq_getElem (lt_length_chunksOf.mpr h)
  exact ⟨_, hpayload, length_of_getElem?_chunksOf hpayload⟩

/-- All chunks before another have the chunk size. -/
theorem exists_full_chunk {i k : ℕ} (hk : k * chunk < content.length) (hi : i < k) :
    ∃ payload, (chunksOf content chunk)[i]? = some payload ∧ payload.length = chunk := by
  have hle : (i + 1) * (chunk : ℕ) ≤ k * chunk := Nat.mul_le_mul_right _ hi
  have hmul : (i + 1) * (chunk : ℕ) = i * chunk + chunk := Nat.succ_mul _ _
  have hpos : i * (chunk : ℕ) < content.length := by omega
  obtain ⟨payload, hpayload, hlen⟩ := exists_chunk hpos
  exact ⟨payload, hpayload, by omega⟩

/-- All chunks before the last are as long as the first. -/
theorem exists_chunk_like_first {n i : ℕ} {first : List UInt8}
    (hn : (chunksOf content chunk).length = n + 1)
    (hfirst : (chunksOf content chunk)[0]? = some first) (hi : i < n) :
    ∃ payload, (chunksOf content chunk)[i]? = some payload ∧ payload.length = first.length := by
  have hend : n * (chunk : ℕ) < content.length := lt_length_chunksOf.mp (by omega)
  obtain ⟨payload₀, hpayload₀, hlen₀⟩ := exists_full_chunk hend (Nat.zero_lt_of_lt hi)
  rw [hfirst] at hpayload₀
  obtain rfl := Option.some.inj hpayload₀
  obtain ⟨payload, hpayload, hlen⟩ := exists_full_chunk hend hi
  exact ⟨payload, hpayload, hlen.trans hlen₀.symm⟩

/-! ## One frame -/

/-- The length of a frame with a payload of `p` bytes. -/
def frameLength (p : ℕ) : ℕ := 9 + (7 + p + (7 + p) % 2)

variable {station : UInt8} {seq : ℕ} {payload : List UInt8} {isLast : Bool}

theorem frameData_eq (seq : ℕ) (payload : List UInt8) (isLast : Bool) :
    ∃ padding : List UInt8, padding.length = (7 + payload.length) % 2 ∧
      frameData seq payload isLast =
        0xF1 :: 0xF1 :: byteOf (seq >>> 8) :: byteOf seq :: (if isLast then 1 else 0) ::
          byteOf (payload.length >>> 8) :: byteOf payload.length :: (payload ++ padding) := by
  -- Seven bytes stand before the payload, so its own length decides about the padding.
  have hbare : (marker ++ [byteOf (seq >>> 8), byteOf seq, if isLast then 1 else 0,
      byteOf (payload.length >>> 8), byteOf payload.length] ++ payload).length =
        7 + payload.length := by
    rw [List.length_append]
    rfl
  rw [frameData, hbare]
  by_cases heven : (7 + payload.length) % 2 = 0
  · refine ⟨[], heven.symm, ?_⟩
    rw [if_neg (not_not.mpr heven), List.append_nil]
    rfl
  · refine ⟨[0], ?_, ?_⟩
    · rw [List.length_singleton]
      omega
    · rw [if_pos heven]
      rfl

theorem length_frameData (seq : ℕ) (payload : List UInt8) (isLast : Bool) :
    (frameData seq payload isLast).length = 7 + payload.length + (7 + payload.length) % 2 := by
  obtain ⟨padding, hpadding, hdata⟩ := frameData_eq seq payload isLast
  rw [hdata, ← hpadding]
  simp only [List.length_cons, List.length_append]
  omega

theorem length_frameBody (station : UInt8) (data : List UInt8) :
    (frameBody station data).length = 7 + data.length := by
  rw [frameBody, List.length_append]
  rfl

theorem length_buildFrame (station : UInt8) (seq : ℕ) (payload : List UInt8) (isLast : Bool) :
    (buildFrame station seq payload isLast).length = frameLength payload.length := by
  rw [buildFrame, List.length_append, length_frameBody, length_frameData, modbusCrc16_eq,
    frameLength]
  change 7 + _ + 2 = _
  omega

/-- What the receiver makes of the data of a frame whose number and length fit their fields. -/
theorem frameOf_frameData (station : UInt8) (isLast : Bool) (hseq : seq < 65536)
    (hlen : payload.length < 65536) :
    frameOf station (frameData seq payload isLast) =
      some { station := station, seq := seq, isLast := isLast, payload := payload } := by
  obtain ⟨padding, -, hdata⟩ := frameData_eq seq payload isLast
  have hword : ∀ {n : ℕ}, n < 65536 →
      (byteOf (n >>> 8)).toNat <<< 8 ||| (byteOf n).toNat = n := by
    intro n hn
    rw [shiftLeft_or, toNat_byteOf, toNat_byteOf, Nat.shiftRight_eq_div_pow]
    omega
  rw [hdata, frameOf, if_neg (by decide), hword hseq, hword hlen, List.take_left]
  cases isLast <;> rfl

/-- The bytes of a frame behind its first: function code, register, quantity and count. -/
theorem buildFrame_eq (station : UInt8) (seq : ℕ) (payload : List UInt8) (isLast : Bool) :
    ∃ q₁ q₂ : UInt8, buildFrame station seq payload isLast =
      station :: 0x10 :: 0x00 :: 0x00 :: q₁ :: q₂ :: byteOf (frameData seq payload isLast).length ::
        (frameData seq payload isLast ++
          modbusCrc16 (frameBody station (frameData seq payload isLast))) :=
  ⟨_, _, rfl⟩

/-- **A frame whose fields fit is recognised on its own.** -/
theorem fileVerdict_buildFrame (station : UInt8) (isLast : Bool) (hseq : seq < 65536)
    (hlen : payload.length ≤ 247) :
    fileVerdict (buildFrame station seq payload isLast) =
      .take (buildFrame station seq payload isLast).length
        (some { station := station, seq := seq, isLast := isLast, payload := payload }) := by
  have hdata := length_frameData seq payload isLast
  have hlength := length_buildFrame station seq payload isLast
  obtain ⟨q₁, q₂, hframe⟩ := buildFrame_eq station seq payload isLast
  have hcount : ((buildFrame station seq payload isLast).getD 6 0).toNat =
      (frameData seq payload isLast).length := by
    rw [hframe]
    change (byteOf _).toNat = _
    rw [toNat_byteOf]
    omega
  have hframeLen : frameLen (buildFrame station seq payload isLast) =
      (buildFrame station seq payload isLast).length := by
    rw [frameLen, hcount, hlength, hdata, frameLength]
    omega
  have hbody : (buildFrame station seq payload isLast).take
      (7 + (frameData seq payload isLast).length) =
        frameBody station (frameData seq payload isLast) := by
    rw [buildFrame]
    exact List.take_left' (length_frameBody _ _)
  refine fileVerdict_eq_take.mpr ⟨?_, hframeLen.le, ?_, hframeLen.symm, ?_⟩
  · rw [hframe]
    rfl
  · rw [hframeLen, crcMatches_iff (by rw [hlength, frameLength]; omega) le_rfl, List.take_length]
    have hfront : (buildFrame station seq payload isLast).length - 2 =
        7 + (frameData seq payload isLast).length := by
      rw [hlength, hdata, frameLength]
      omega
    rw [hfront, hbody, ← modbusCrc16_eq]
    rfl
  · rw [frameAtFront, hcount, hbody]
    have hstation : (buildFrame station seq payload isLast).getD 0 0 = station := rfl
    have hdrop : (frameBody station (frameData seq payload isLast)).drop 7 =
        frameData seq payload isLast := rfl
    rw [hstation, hdrop, frameOf_frameData station isLast hseq (by omega)]

/-! ## All frames -/

/-- The frames as the sender means them. -/
def fileFrames (station : UInt8) (content : List UInt8) (chunk : ℕ+) : List FileFrame :=
  let chunks := chunksOf content chunk
  chunks.mapIdx fun seq payload =>
    { station := station, seq := seq, isLast := seq == chunks.length - 1, payload := payload }

/-- The number of every chunk and of its bytes fit their fields. -/
def Fits (content : List UInt8) (chunk : ℕ+) : Prop :=
  min (chunk : ℕ) content.length ≤ 247 ∧ content.length ≤ 65536 * chunk

theorem length_fileFrames (station : UInt8) (content : List UInt8) (chunk : ℕ+) :
    (fileFrames station content chunk).length = (chunksOf content chunk).length :=
  List.length_mapIdx

theorem length_sentFrames (station : UInt8) (content : List UInt8) (chunk : ℕ+) :
    (sentFrames station content chunk).length = (chunksOf content chunk).length :=
  List.length_mapIdx

theorem getElem?_fileFrames (station : UInt8) (content : List UInt8) (chunk : ℕ+) (i : ℕ) :
    (fileFrames station content chunk)[i]? = (chunksOf content chunk)[i]?.map fun payload =>
      { station := station, seq := i, isLast := i == (chunksOf content chunk).length - 1,
        payload := payload } :=
  List.getElem?_mapIdx

theorem getElem?_sentFrames (station : UInt8) (content : List UInt8) (chunk : ℕ+) (i : ℕ) :
    (sentFrames station content chunk)[i]? = (chunksOf content chunk)[i]?.map fun payload =>
      buildFrame station i payload (i == (chunksOf content chunk).length - 1) :=
  List.getElem?_mapIdx

/-- The frame of a chunk. -/
theorem exists_sentFrame (station : UInt8) {payload : List UInt8} {i : ℕ}
    (h : (chunksOf content chunk)[i]? = some payload) :
    ∃ isLast, (sentFrames station content chunk)[i]? =
      some (buildFrame station i payload isLast) := by
  rw [getElem?_sentFrames, h, Option.map_some]
  exact ⟨_, rfl⟩

/-- The frame of a chunk bears its number, and is flagged if it is the last. -/
theorem fields_of_getElem?_fileFrames {frame : FileFrame} {i : ℕ}
    (h : (fileFrames station content chunk)[i]? = some frame) :
    frame.station = station ∧ frame.seq = i ∧
      frame.isLast = (i == (chunksOf content chunk).length - 1) := by
  rw [getElem?_fileFrames] at h
  obtain ⟨payload, -, rfl⟩ := Option.map_eq_some_iff.mp h
  exact ⟨rfl, rfl, rfl⟩

theorem mem_fileFrames {frame : FileFrame} (h : frame ∈ fileFrames station content chunk) :
    (fileFrames station content chunk)[frame.seq]? = some frame ∧ frame.station = station := by
  obtain ⟨i, hi⟩ := List.mem_iff_getElem?.mp h
  obtain ⟨hstation, hseq, -⟩ := fields_of_getElem?_fileFrames hi
  exact ⟨hseq ▸ hi, hstation⟩

/-- Only the frame of the last chunk is flagged. -/
theorem isLast_of_mem_take {frame : FileFrame} {k : ℕ}
    (hk : k < (chunksOf content chunk).length)
    (h : frame ∈ (fileFrames station content chunk).take k) : frame.isLast = false := by
  obtain ⟨i, hi⟩ := List.mem_iff_getElem?.mp h
  have hik : i < k := by
    have hlt := (List.getElem?_eq_some_iff.mp hi).1
    rw [List.length_take] at hlt
    omega
  rw [List.getElem?_take_of_lt hik] at hi
  rw [(fields_of_getElem?_fileFrames hi).2.2]
  exact beq_eq_false_iff_ne.mpr (by omega)

/-- The length of the frames of chunks that are equally long. -/
theorem length_flatten_take (station : UInt8) {k p : ℕ}
    (h : ∀ i < k, ∃ payload, (chunksOf content chunk)[i]? = some payload ∧ payload.length = p) :
    ((sentFrames station content chunk).take k).flatten.length = k * frameLength p := by
  induction k with
  | zero => rw [List.take_zero, Nat.zero_mul]; rfl
  | succ k ih =>
    obtain ⟨payload, hpayload, hlen⟩ := h k (Nat.lt_succ_self k)
    obtain ⟨isLast, hu⟩ := exists_sentFrame station hpayload
    rw [List.take_add_one, List.flatten_append, List.length_append,
      ih fun i hi => h i (Nat.lt_succ_of_lt hi), hu, Option.toList_some, List.flatten_singleton,
      length_buildFrame, hlen, Nat.succ_mul]

/-- While the fields fit, every frame is recognised. -/
theorem fileVerdict_sent {i : ℕ} {u : List UInt8} (h : Fits content chunk)
    (hu : (sentFrames station content chunk)[i]? = some u) :
    ∃ frame, (fileFrames station content chunk)[i]? = some frame ∧
      fileVerdict u = .take u.length (some frame) := by
  rw [getElem?_sentFrames] at hu
  obtain ⟨payload, hpayload, rfl⟩ := Option.map_eq_some_iff.mp hu
  have hpos : i * (chunk : ℕ) < content.length :=
    lt_length_chunksOf.mp (List.getElem?_eq_some_iff.mp hpayload).1
  have hseq : i < 65536 := Nat.lt_of_mul_lt_mul_right (hpos.trans_le h.2)
  have hlen := length_of_getElem?_chunksOf hpayload
  have hfit := h.1
  refine ⟨_, by rw [getElem?_fileFrames, hpayload, Option.map_some], ?_⟩
  exact fileVerdict_buildFrame station _ hseq (by omega)

theorem forall₂_sent (station : UInt8) (h : Fits content chunk) :
    List.Forall₂ (fun w b => fileScanner.verdict w = .take w.length b)
      (sentFrames station content chunk) ((fileFrames station content chunk).map some) := by
  rw [List.forall₂_iff_get]
  refine ⟨by rw [List.length_map, length_fileFrames, length_sentFrames], ?_⟩
  intro i hi hi'
  obtain ⟨frame, hframe, hverdict⟩ := fileVerdict_sent h (List.getElem?_eq_getElem hi)
  have hget : ((fileFrames station content chunk).map some).get ⟨i, hi'⟩ = some frame := by
    rw [List.get_eq_getElem, List.getElem_map, ← hframe, List.getElem?_eq_getElem]
  rw [hget]
  exact hverdict

/-- What is found in the first frames and a rest at which the scanner waits. -/
theorem scan_sent (station : UInt8) (k : ℕ) {r : List UInt8} (h : Fits content chunk)
    (hr : fileVerdict r = .wait) :
    framesIn (((sentFrames station content chunk).take k).flatten ++ r) =
        (fileFrames station content chunk).take k ∧
      leftover (((sentFrames station content chunk).take k).flatten ++ r) = r := by
  have htake := List.forall₂_take k (forall₂_sent station h)
  rw [framesIn, leftover, fileScanner.scan_tokens_append htake hr]
  refine ⟨?_, rfl⟩
  rw [Piece.outs_zipWith_token htake.length_eq, ← List.map_take, List.reduceOption,
    List.filterMap_map]
  exact List.filterMap_some

/-- **The sent bytes are read back as the frames that were meant.** -/
theorem framesIn_sent (h : Fits content chunk) :
    framesIn (sentFrames station content chunk).flatten = fileFrames station content chunk := by
  have hnil : fileVerdict [] = .wait := rfl
  have hscan := (scan_sent station (chunksOf content chunk).length h hnil).1
  rwa [List.append_nil, List.take_of_length_le (length_sentFrames _ _ _).le,
    List.take_of_length_le (length_fileFrames _ _ _).le] at hscan

/-- A cut six bytes into a frame. -/
theorem sent_cut {w : List UInt8} {i : ℕ} (hi : i * chunk < content.length)
    (hw : w <+: (sentFrames station content chunk).flatten)
    (hlen : w.length = i * frameLength chunk + 6) :
    ∃ r, ReadsPastEnd r ∧ w = ((sentFrames station content chunk).take i).flatten ++ r := by
  obtain ⟨payload, hpayload, -⟩ := exists_chunk hi
  obtain ⟨isLast, hu⟩ := exists_sentFrame station hpayload
  generalize hframe : buildFrame station i payload isLast = u at hu
  have hsix : (u.take 6).length = 6 := by
    rw [List.length_take, ← hframe, length_buildFrame, frameLength]
    omega
  have hcut : ((sentFrames station content chunk).take i).flatten ++ u.take 6 <+:
      (sentFrames station content chunk).flatten := by
    rw [flatten_eq_of_getElem? hu]
    exact (List.prefix_append_right_inj _).mpr
      ((List.take_prefix 6 u).trans (List.prefix_append _ _))
  have hlength : w.length =
      (((sentFrames station content chunk).take i).flatten ++ u.take 6).length := by
    rw [hlen, List.length_append, length_flatten_take station fun _ => exists_full_chunk hi, hsix]
  refine ⟨u.take 6, ⟨hsix, ?_⟩, ?_⟩
  · rw [← hframe]
    rfl
  · exact (List.prefix_of_prefix_length_le hw hcut hlength.le).eq_of_length hlength

/-- **Where the sent bytes are stranded**: six bytes into a frame, and nowhere else. -/
theorem stranded_sent_iff {w : List UInt8} (h : Fits content chunk)
    (hw : w <+: (sentFrames station content chunk).flatten) :
    Stranded w ↔ ∃ i, i * chunk < content.length ∧ w.length = i * frameLength chunk + 6 := by
  rw [stranded_iff]
  constructor
  -- What is left behind the complete frames is less than the next one, so it is in full what the
  -- scanner waits at.
  · intro hpast
    obtain ⟨k, r, rfl, rfl | ⟨u, hu, hr, hlt⟩⟩ := exists_prefix_flatten hw
    · have hnil : fileVerdict [] = .wait := rfl
      rw [(scan_sent station _ h hnil).2] at hpast
      exact absurd hpast (by decide)
    · obtain ⟨frame, hframe, hverdict⟩ := fileVerdict_sent h hu
      have hwait := fileScanner.verdict_of_prefix hverdict hr hlt
      rw [(scan_sent station _ h hwait).2] at hpast
      have hk : k * (chunk : ℕ) < content.length := by
        rw [← lt_length_chunksOf, ← length_fileFrames station]
        exact (List.getElem?_eq_some_iff.mp hframe).1
      refine ⟨k, hk, ?_⟩
      rw [List.length_append, length_flatten_take station fun _ => exists_full_chunk hk, hpast.1,
        minFrame]
  · rintro ⟨i, hi, hlen⟩
    obtain ⟨r, hpast, rfl⟩ := sent_cut hi hw hlen
    rwa [(scan_sent station _ h hpast.verdict).2]

end Ds10File

import DS10Link.File.Overflow

/-!
# The transfer of a file

All frames that the sender writes arrive, complete and in order, in whatever reads the serial port
cuts them into. The receiver then ends with the file exactly when the numbers and lengths of the
chunks fit the fields of a frame and no read ends six bytes into one.

## Main definitions

* `Transferred content chunk s`: the thread has returned, with the chunks, and the main thread
  writes the content

## Main results

* `HasChunks.reassembled`: the chunks under their numbers make up the content
* `transfer_iff`: when the file arrives
-/

namespace Ds10File

variable {station : UInt8} {content : List UInt8} {chunk : ℕ+}

/-! ## Reassembly -/

/-- **The transfer has come to its end**: the thread has stopped at the last frame with all chunks,
and what the main thread writes is the content. -/
structure Transferred (content : List UInt8) (chunk : ℕ+) (s : RunState) : Prop where
  returned : s.thread = .returned
  done : s.receiver.done = true
  hasChunks : HasChunks content chunk s.receiver
  reassembled : s.receiver.reassembled = some content

/-- There is a chunk under each number of the file, and under no other. -/
theorem HasChunks.mem_keys {rx : Receiver} (h : HasChunks content chunk rx) {i : ℕ} :
    i ∈ rx.chunks.keys ↔ i < (chunksOf content chunk).length := by
  rw [← AList.mem_keys, ← AList.lookup_isSome, h i, Option.isSome_map]
  simp

/-- The numbers of the chunks, sorted. -/
theorem HasChunks.mergeSort_keys {rx : Receiver} (h : HasChunks content chunk rx) :
    rx.chunks.keys.mergeSort = List.range (chunksOf content chunk).length := by
  have hkeys : rx.chunks.keys.Perm (List.range (chunksOf content chunk).length) := by
    rw [List.perm_ext_iff_of_nodup rx.chunks.keys_nodup List.nodup_range]
    intro i
    rw [h.mem_keys, List.mem_range]
  have hsorted : (rx.chunks.keys.mergeSort).Pairwise fun a b => decide (a ≤ b) = true :=
    List.pairwise_mergeSort (fun a b c hab hbc => by simp at *; omega)
      (fun a b => by simp; omega) _
  exact ((List.mergeSort_perm _ _).trans hkeys).eq_of_pairwise'
    (hsorted.imp of_decide_eq_true) List.pairwise_le_range

/-- **The chunks under their numbers make up the content.** -/
theorem HasChunks.reassembled {rx : Receiver} (hcontent : content ≠ [])
    (h : HasChunks content chunk rx) : rx.reassembled = some content := by
  have hpos : 0 < content.length := List.length_pos_iff.mpr hcontent
  have hkeys : rx.chunks.keys ≠ [] := by
    have hzero : 0 ∈ rx.chunks.keys := h.mem_keys.mpr (lt_length_chunksOf.mpr (by omega))
    exact List.ne_nil_of_mem hzero
  have hpayloads : ((List.range (chunksOf content chunk).length).map fun i =>
      ((rx.chunks.lookup i).map Prod.snd).getD []) = chunksOf content chunk := by
    refine List.ext_getElem (by rw [List.length_map, List.length_range]) fun i hi hi' => ?_
    rw [List.getElem_map, List.getElem_range, h i, List.getElem?_eq_getElem hi', Option.map_some,
      Option.map_some, Option.getD_some]
  rw [Receiver.reassembled, if_neg hkeys, h.mergeSort_keys]
  change some (List.flatMap _ _) = _
  rw [List.flatMap_def, hpayloads, flatten_chunksOf]

/-! ## When the fields fit -/

/-- The frames of a file bear different numbers. -/
theorem find?_fileFrames (i : ℕ) :
    ((fileFrames station content chunk).find? fun frame => frame.seq = i) =
      (fileFrames station content chunk)[i]? := by
  cases hfind : (fileFrames station content chunk).find? fun frame => frame.seq = i with
  | some frame =>
    have hseq : frame.seq = i := by simpa using List.find?_some hfind
    rw [← hseq, (mem_fileFrames (List.mem_of_find?_eq_some hfind)).1]
  | none =>
    cases hframe : (fileFrames station content chunk)[i]? with
    | none => rfl
    | some frame =>
      have hnone := List.find?_eq_none.mp hfind frame (List.mem_of_getElem? hframe)
      exact absurd (decide_eq_true (fields_of_getElem?_fileFrames hframe).2.1) hnone

theorem heeded_fileFrames (station : UInt8) (content : List UInt8) (chunk : ℕ+) :
    heeded station (fileFrames station content chunk) = fileFrames station content chunk := by
  refine heeded_eq_self (fun frame h => (mem_fileFrames h).2) fun frame h => ?_
  have hpos := List.length_pos_of_mem (List.mem_of_mem_dropLast h)
  rw [List.dropLast_eq_take, length_fileFrames] at h
  rw [length_fileFrames] at hpos
  exact isLast_of_mem_take (by omega) h

/-- **A receiver that has heard all frames has all chunks.** -/
theorem heard_sent (station : UInt8) (hcontent : content ≠ []) (h : Fits content chunk) :
    (heard station (sentFrames station content chunk).flatten).done = true ∧
      HasChunks content chunk (heard station (sentFrames station content chunk).flatten) := by
  have hheeded : heeded station (framesIn (sentFrames station content chunk).flatten) =
      fileFrames station content chunk := by
    rw [framesIn_sent h, heeded_fileFrames]
  refine ⟨?_, fun i => ?_⟩
  · have hpos : 0 < (chunksOf content chunk).length := lt_length_chunksOf.mpr (by
      rw [Nat.zero_mul]
      exact List.length_pos_iff.mpr hcontent)
    have hlast := getElem?_fileFrames station content chunk
      ((chunksOf content chunk).length - 1)
    rw [List.getElem?_eq_getElem (l := chunksOf content chunk) (by omega), Option.map_some,
      beq_self_eq_true] at hlast
    rw [done_heard, hheeded]
    exact List.any_eq_true.mpr ⟨_, List.mem_of_getElem? hlast, rfl⟩
  · rw [lookup_heard, hheeded, find?_fileFrames, getElem?_fileFrames, Option.map_map]
    rfl

/-! ## The transfer -/

/-- A read that ends six bytes into a frame is the end of the transfer. -/
theorem not_done_of_cut {reads pre : List (List UInt8)} {i : ℕ} (h : Fits content chunk)
    (hreads : reads.flatten = (sentFrames station content chunk).flatten) (hpre : pre <+: reads)
    (hi : i * chunk < content.length) (hcut : pre.flatten.length = i * frameLength chunk + 6) :
    (run station reads).receiver.done = false := by
  have hsent := hpre.flatten
  rw [hreads] at hsent
  refine done_run_of_stranded hpre ((stranded_sent_iff h hsent).mpr ⟨i, hi, hcut⟩) ?_
  -- Only the frames before the one that is cut have been found, and none of them is flagged.
  obtain ⟨r, hpast, hflat⟩ := sent_cut hi hsent hcut
  rw [done_heard, hflat, (scan_sent station _ h hpast.verdict).1]
  refine List.any_eq_false.mpr fun frame hmem => ?_
  rw [isLast_of_mem_take (lt_length_chunksOf.mpr hi) (mem_of_mem_heeded hmem).1]
  exact Bool.false_ne_true

/-- **When the file arrives.** Let all frames of a file arrive in some reads. The thread then ends
at the last one with all chunks, and the content is written, if and only if the numbers and lengths
of the chunks fit their fields and no read ends six bytes into a frame. -/
theorem transfer_iff (content : List UInt8) (chunk : ℕ+) (station : UInt8)
    (reads : List (List UInt8)) (hcontent : content ≠ [])
    (hreads : reads.flatten = (sentFrames station content chunk).flatten) :
    Transferred content chunk (run station reads) ↔
      Fits content chunk ∧ ∀ pre, pre <+: reads → ∀ i, i * chunk < content.length →
        pre.flatten.length ≠ i * frameLength chunk + 6 := by
  constructor
  -- A receiver that is done has heard all of the bytes, and with all chunks in it the fields fit.
  · intro h
    have hrx := run_eq_of_done h.done
    have hdone := h.done
    have hchunks := h.hasChunks
    rw [hrx, hreads] at hdone hchunks
    have hfits := fits_of_heard hcontent hdone hchunks
    refine ⟨hfits, fun pre hpre i hi hcut => ?_⟩
    have hlost := not_done_of_cut hfits hreads hpre hi hcut
    rw [h.done] at hlost
    cases hlost
  · rintro ⟨hfits, hcuts⟩
    obtain ⟨hdone, hchunks⟩ := heard_sent station hcontent hfits
    rw [← hreads] at hdone hchunks
    have hrun := run_eq_returned hdone fun pre hpre hstranded => by
      have hsent := hpre.flatten
      rw [hreads] at hsent
      obtain ⟨i, hi, hcut⟩ := (stranded_sent_iff hfits hsent).mp hstranded
      exact hcuts pre hpre i hi hcut
    rw [hrun]
    exact ⟨rfl, hdone, hchunks, hchunks.reassembled hcontent⟩

theorem sentFrames_letter : sentFrames 1 [0x41] 200 = [buildFrame 1 0 [0x41] true] := by
  rw [sentFrames, chunksOf, chunksFrom_of_lt (by decide), chunksFrom_of_le (by decide)]
  rfl

/-- The frames of five bytes in chunks of two. -/
theorem sentFrames_letters :
    sentFrames 1 [0x41, 0x42, 0x43, 0x44, 0x45] 2 =
      [buildFrame 1 0 [0x41, 0x42] false, buildFrame 1 1 [0x43, 0x44] false,
        buildFrame 1 2 [0x45] true] := by
  rw [sentFrames, chunksOf, chunksFrom_of_lt (by decide), chunksFrom_of_lt (by decide),
    chunksFrom_of_lt (by decide), chunksFrom_of_le (by decide)]
  rfl

/-- Five bytes in three chunks arrive when the frames are cut behind the count of the first, inside
the data of the second and before the count of the last. -/
theorem transfer_letters :
    let wire := (sentFrames 1 [0x41, 0x42, 0x43, 0x44, 0x45] 2).flatten
    Transferred [0x41, 0x42, 0x43, 0x44, 0x45] 2
      (run 1 [wire.take 7, (wire.drop 7).take 23, (wire.drop 30).take 10, wire.drop 40]) := by
  intro wire
  have hwire : wire = (sentFrames 1 [0x41, 0x42, 0x43, 0x44, 0x45] 2).flatten := rfl
  rw [sentFrames_letters] at hwire
  refine (transfer_iff [0x41, 0x42, 0x43, 0x44, 0x45] 2 1 _ (by decide) ?_).mpr
    ⟨⟨by decide, by decide⟩, ?_⟩
  · rw [hwire, sentFrames_letters]
    decide +kernel
  · intro pre hpre i hi
    have hlt : i < 3 := by
      change i * 2 < 5 at hi
      omega
    rw [← List.mem_inits, hwire] at hpre
    -- The reads end after 7, 30, 40 and 55 bytes, and a full frame has 19.
    clear hi
    revert i
    revert pre
    decide +kernel

/-- Cut in front of the count, it does not. -/
theorem not_transfer :
    ¬ ∀ (content : List UInt8) (chunk : ℕ+) (station : UInt8) (reads : List (List UInt8)),
      content ≠ [] → reads.flatten = (sentFrames station content chunk).flatten →
      Transferred content chunk (run station reads) := by
  intro h
  have hreads : [(buildFrame 1 0 [0x41] true).take 6, (buildFrame 1 0 [0x41] true).drop 6].flatten =
      (sentFrames 1 [0x41] 200).flatten := by
    rw [sentFrames_letter, List.flatten_cons, List.flatten_singleton, List.flatten_singleton,
      List.take_append_drop]
  have hdone := (h [0x41] 200 1 _ (by decide) hreads).done
  have hsix : [(buildFrame 1 0 [0x41] true).take 6].flatten.length = 0 * frameLength 200 + 6 := by
    rw [List.flatten_singleton, List.length_take, length_buildFrame]
    rfl
  rw [not_done_of_cut ⟨by decide, by decide⟩ hreads ⟨[_], rfl⟩ (by decide) hsix] at hdone
  cases hdone

end Ds10File

import Mathlib.Data.List.AList
import DS10Link.File.Extract

/-!
# The receiving thread

The thread of a `Receiver` calls `extract_frames` after each read and keeps the chunks of its
station under their numbers, until a frame is flagged as the last one. The main thread then joins
the chunks in the order of their numbers. An exception ends the receiving thread as well, with the
chunks it has.

## Main definitions

* `Receiver.collect`: the loop over the frames of one read
* `run station reads`: the thread after the reads
* `Receiver.reassembled`: what the main thread writes
* `heeded station frames`: the frames that the receiver makes use of
* `heard station w`: the receiver after the frames in `w`

## Main results

* `Receiver.lookup_collect`, `Receiver.done_collect`: what the loop keeps, and when it returns
* `follows_run`: the thread is the receiver after the frames in the bytes so far, or it has raised
  an exception
-/

namespace Ds10File

/-- The chunks received: flag and payload under the number of the frame. -/
abbrev Chunks := AList fun _ : ℕ => Bool × List UInt8

/-- A `Receiver`: its station, the chunks so far, and whether the last one has come. -/
structure Receiver where
  station : UInt8
  chunks : Chunks := ∅
  done : Bool := false

/-- The thread of a receiver: in its loop with a buffer, returned, or ended by an exception. -/
inductive Thread where
  | running (buf : List UInt8)
  | returned
  | raised (e : PyException)

/-- A receiver and its thread. -/
structure RunState where
  receiver : Receiver
  thread : Thread

namespace Receiver

/-- A chunk is kept unless there is one under its number. -/
def keep (rx : Receiver) (frame : FileFrame) : Receiver :=
  if frame.seq ∈ rx.chunks then rx
  else { rx with chunks := rx.chunks.insert frame.seq (frame.isLast, frame.payload) }

/-- The loop of `run` over the frames of one read. -/
def collect (rx : Receiver) : List FileFrame → Receiver
  | [] => rx
  | frame :: frames =>
    if frame.station ≠ rx.station then rx.collect frames
    else
      let rx := rx.keep frame
      if frame.isLast then { rx with done := true } else rx.collect frames

/-- What the main thread writes, if there are chunks at all: their payloads in the order of their
numbers. -/
def reassembled (rx : Receiver) : Option (List UInt8) :=
  if rx.chunks.keys = [] then none
  else
    let seqs := rx.chunks.keys.mergeSort
    some (seqs.flatMap fun seq => ((rx.chunks.lookup seq).map Prod.snd).getD [])

end Receiver

/-- One turn of the loop of `run`, with the bytes `read` in waiting. -/
def turn : RunState → List UInt8 → RunState
  | ⟨rx, .running buf⟩, read =>
    -- The thread sleeps when nothing is in waiting.
    if read = [] then ⟨rx, .running buf⟩
    else
      match extractFrames (buf ++ read) with
      | .error e => ⟨rx, .raised e⟩
      | .ok (frames, rest) =>
        let rx := rx.collect frames
        -- The loop over the frames sets `_done` where it returns, and nowhere else.
        ⟨rx, if rx.done then .returned else .running rest⟩
  | ⟨rx, .returned⟩, _ => ⟨rx, .returned⟩
  | ⟨rx, .raised e⟩, _ => ⟨rx, .raised e⟩

/-- `run`, over the reads that the thread makes. -/
def run (station : UInt8) (reads : List (List UInt8)) : RunState :=
  reads.foldl turn { receiver := { station := station }, thread := .running [] }

/-! ## What the loop over the frames keeps -/

/-- The frames that a receiver makes use of: those of its station, up to the first that is flagged
as the last one. -/
def heeded (station : UInt8) : List FileFrame → List FileFrame
  | [] => []
  | frame :: frames =>
    if frame.station ≠ station then heeded station frames
    else if frame.isLast then [frame]
    else frame :: heeded station frames

variable {station : UInt8} {frame : FileFrame} {frames : List FileFrame}

theorem heeded_of_other (h : frame.station ≠ station) :
    heeded station (frame :: frames) = heeded station frames := by
  rw [heeded, if_pos h]

theorem heeded_of_last (h : frame.station = station) (hlast : frame.isLast = true) :
    heeded station (frame :: frames) = [frame] := by
  rw [heeded, if_neg (not_not.mpr h), if_pos hlast]

theorem heeded_of_own (h : frame.station = station) (hlast : frame.isLast = false) :
    heeded station (frame :: frames) = frame :: heeded station frames := by
  rw [heeded, if_neg (not_not.mpr h), if_neg (by simp [hlast])]

theorem mem_of_mem_heeded (h : frame ∈ heeded station frames) :
    frame ∈ frames ∧ frame.station = station := by
  fun_induction heeded station frames with
  | case1 => cases h
  | case2 head frames _ ih => exact ⟨List.mem_cons_of_mem _ (ih h).1, (ih h).2⟩
  | case3 head frames hown _ =>
    obtain rfl := List.mem_singleton.mp h
    exact ⟨List.mem_cons_self, not_not.mp hown⟩
  | case4 head frames hown _ ih =>
    obtain rfl | h := List.mem_cons.mp h
    · exact ⟨List.mem_cons_self, not_not.mp hown⟩
    · exact ⟨List.mem_cons_of_mem _ (ih h).1, (ih h).2⟩

/-- Frames of the station, of which only the final one may be flagged, are all made use of. -/
theorem heeded_eq_self (hown : ∀ frame ∈ frames, frame.station = station)
    (hlast : ∀ frame ∈ frames.dropLast, frame.isLast = false) : heeded station frames = frames := by
  induction frames with
  | nil => rfl
  | cons head frames ih =>
    have hhead := hown head List.mem_cons_self
    have hrest := ih fun frame h => hown frame (List.mem_cons_of_mem _ h)
    rcases frames with _ | ⟨next, frames⟩
    · cases hflag : head.isLast with
      | true => exact heeded_of_last hhead hflag
      | false => exact heeded_of_own hhead hflag
    · have hflag := hlast head List.mem_cons_self
      rw [heeded_of_own hhead hflag, hrest fun frame h => hlast frame (List.mem_cons_of_mem _ h)]

/-- A flagged frame that is made use of ends what is made use of. -/
theorem heeded_split (h : (heeded station frames).any FileFrame.isLast = true) :
    ∃ front last back, frames = front ++ last :: back ∧ last.isLast = true ∧
      heeded station frames = heeded station front ++ [last] ∧
      ∀ frame ∈ heeded station front, frame.isLast = false := by
  fun_induction heeded station frames with
  | case1 => cases h
  | case2 head frames hother ih =>
    obtain ⟨front, last, back, rfl, hflag, heq, hfront⟩ := ih h
    exact ⟨head :: front, last, back, rfl, hflag, by rw [heq, heeded_of_other hother],
      by rwa [heeded_of_other hother]⟩
  | case3 head frames hown hlast =>
    exact ⟨[], head, frames, rfl, hlast, rfl, fun _ hmem => by cases hmem⟩
  | case4 head frames hown hlast ih =>
    have hlast : head.isLast = false := Bool.eq_false_of_not_eq_true hlast
    rw [List.any_cons, hlast, Bool.false_or] at h
    obtain ⟨front, last, back, rfl, hflag, heq, hfront⟩ := ih h
    refine ⟨head :: front, last, back, rfl, hflag, ?_, ?_⟩
    · rw [heq, heeded_of_own (not_not.mp hown) hlast, List.cons_append]
    · rw [heeded_of_own (not_not.mp hown) hlast]
      exact List.forall_mem_cons.mpr ⟨hlast, hfront⟩

namespace Receiver

variable {rx : Receiver}

theorem collect_of_other (h : frame.station ≠ rx.station) :
    rx.collect (frame :: frames) = rx.collect frames := by
  rw [collect, if_pos h]

theorem collect_of_last (h : frame.station = rx.station) (hlast : frame.isLast = true) :
    rx.collect (frame :: frames) = { rx.keep frame with done := true } := by
  rw [collect, if_neg (not_not.mpr h), if_pos hlast]

theorem collect_of_own (h : frame.station = rx.station) (hlast : frame.isLast = false) :
    rx.collect (frame :: frames) = (rx.keep frame).collect frames := by
  rw [collect, if_neg (not_not.mpr h), if_neg (by simp [hlast])]

@[simp] theorem station_keep : (rx.keep frame).station = rx.station := by
  unfold keep
  split <;> rfl

@[simp] theorem done_keep : (rx.keep frame).done = rx.done := by
  unfold keep
  split <;> rfl

/-- The first chunk under a number stays. -/
theorem lookup_keep (i : ℕ) :
    (rx.keep frame).chunks.lookup i =
      (rx.chunks.lookup i).or
        (if frame.seq = i then some (frame.isLast, frame.payload) else none) := by
  by_cases hmem : frame.seq ∈ rx.chunks
  · rw [keep, if_pos hmem]
    by_cases hi : frame.seq = i
    · subst hi
      obtain ⟨chunk, hchunk⟩ := Option.isSome_iff_exists.mp (AList.lookup_isSome.mpr hmem)
      rw [hchunk, Option.some_or]
    · rw [if_neg hi, Option.or_none]
  · rw [keep, if_neg hmem]
    by_cases hi : frame.seq = i
    · subst hi
      rw [AList.lookup_insert, AList.lookup_eq_none.mpr hmem, if_pos rfl, Option.none_or]
    · rw [AList.lookup_insert_ne (Ne.symm hi), if_neg hi, Option.or_none]

/-- The loop returns at a frame that is flagged as the last one, and only there. -/
theorem done_collect (rx : Receiver) (frames : List FileFrame) :
    (rx.collect frames).done =
      (rx.done || (heeded rx.station frames).any FileFrame.isLast) := by
  fun_induction collect rx frames with
  | case1 rx => rw [heeded, List.any_nil, Bool.or_false]
  | case2 rx frame frames hother ih => rw [ih, heeded_of_other hother]
  | case3 rx frame frames hown rx' hlast =>
    rw [heeded_of_last (not_not.mp hown) hlast, List.any_cons, hlast, Bool.true_or, Bool.or_true]
  | case4 rx frame frames hown rx' hlast ih =>
    have hlast : frame.isLast = false := Bool.eq_false_of_not_eq_true hlast
    rw [ih, done_keep, station_keep, heeded_of_own (not_not.mp hown) hlast, List.any_cons, hlast,
      Bool.false_or]

/-- **The chunk kept under a number** is that of the first frame with this number which the
receiver makes use of. -/
theorem lookup_collect (rx : Receiver) (frames : List FileFrame) (i : ℕ) :
    (rx.collect frames).chunks.lookup i =
      (rx.chunks.lookup i).or (((heeded rx.station frames).find? fun frame => frame.seq = i).map
        fun frame => (frame.isLast, frame.payload)) := by
  fun_induction collect rx frames with
  | case1 rx => rw [heeded, List.find?_nil, Option.map_none, Option.or_none]
  | case2 rx frame frames hother ih => rw [ih, heeded_of_other hother]
  | case3 rx frame frames hown rx' hlast =>
    rw [heeded_of_last (not_not.mp hown) hlast, List.find?_singleton]
    change (rx.keep frame).chunks.lookup i = _
    rw [lookup_keep]
    by_cases hi : frame.seq = i <;> simp [hi]
  | case4 rx frame frames hown rx' hlast ih =>
    rw [ih, lookup_keep, station_keep, Option.or_assoc,
      heeded_of_own (not_not.mp hown) (Bool.eq_false_of_not_eq_true hlast), List.find?_cons]
    by_cases hi : frame.seq = i <;> simp [hi]

/-- Until the loop returns, it goes on where it stopped. -/
theorem collect_append {later : List FileFrame} (h : (rx.collect frames).done = false) :
    rx.collect (frames ++ later) = (rx.collect frames).collect later := by
  fun_induction collect rx frames with
  | case1 rx => rfl
  | case2 rx frame frames hother ih => rw [List.cons_append, collect_of_other hother, ih h]
  | case3 rx frame frames hown rx' hlast => cases h
  | case4 rx frame frames hown rx' hlast ih =>
    rw [List.cons_append,
      collect_of_own (not_not.mp hown) (Bool.eq_false_of_not_eq_true hlast), ih h]

/-- Once the loop has returned, later frames change nothing. -/
theorem collect_append_of_done {later : List FileFrame} (hrx : rx.done = false)
    (h : (rx.collect frames).done = true) : rx.collect (frames ++ later) = rx.collect frames := by
  fun_induction collect rx frames with
  | case1 rx =>
    rw [hrx] at h
    cases h
  | case2 rx frame frames hother ih =>
    rw [List.cons_append, collect_of_other hother, ih hrx h]
  | case3 rx frame frames hown rx' hlast =>
    rw [List.cons_append, collect_of_last (not_not.mp hown) hlast]
  | case4 rx frame frames hown rx' hlast ih =>
    rw [List.cons_append, collect_of_own (not_not.mp hown) (Bool.eq_false_of_not_eq_true hlast),
      ih (done_keep.trans hrx) h]

end Receiver

/-! ## The thread -/

/-- A receiver after the frames in a byte string. -/
def heard (station : UInt8) (w : List UInt8) : Receiver :=
  ({ station := station } : Receiver).collect (framesIn w)

/-- **Where the thread stands after its reads.** Until it raises an exception the receiver is that
of the bytes so far, and it raises one only where they are stranded. -/
inductive Follows (station : UInt8) (reads : List (List UInt8)) : RunState → Prop
  | running :
      (heard station reads.flatten).done = false →
      (∀ pre, pre <+: reads → ¬ Stranded pre.flatten) →
      Follows station reads ⟨heard station reads.flatten, .running (leftover reads.flatten)⟩
  | returned :
      (heard station reads.flatten).done = true →
      Follows station reads ⟨heard station reads.flatten, .returned⟩
  | raised {rx : Receiver} {e : PyException} :
      rx.done = false → (∃ pre, pre <+: reads ∧ Stranded pre.flatten) →
      Follows station reads ⟨rx, .raised e⟩

variable {reads : List (List UInt8)} {read w v : List UInt8} {s : RunState}

theorem heard_append (h : (heard station w).done = false) :
    heard station (w ++ v) = (heard station w).collect (framesIn (leftover w ++ v)) := by
  rw [heard, framesIn_append, Receiver.collect_append h]
  rfl

theorem heard_append_of_done (h : (heard station w).done = true) :
    heard station (w ++ v) = heard station w := by
  rw [heard, framesIn_append, Receiver.collect_append_of_done rfl h]
  rfl

theorem done_heard (station : UInt8) (w : List UInt8) :
    (heard station w).done = (heeded station (framesIn w)).any FileFrame.isLast := by
  rw [heard, Receiver.done_collect, Bool.false_or]

theorem lookup_heard (station : UInt8) (w : List UInt8) (i : ℕ) :
    (heard station w).chunks.lookup i =
      ((heeded station (framesIn w)).find? fun frame => frame.seq = i).map
        fun frame => (frame.isLast, frame.payload) := by
  rw [heard, Receiver.lookup_collect, AList.lookup_empty, Option.none_or]

/-- Every chunk received came in a frame. -/
theorem exists_frame_of_lookup {i : ℕ} {isLast : Bool} {payload : List UInt8}
    (h : (heard station w).chunks.lookup i = some (isLast, payload)) :
    ∃ frame ∈ heeded station (framesIn w),
      frame.seq = i ∧ frame.isLast = isLast ∧ frame.payload = payload := by
  rw [lookup_heard] at h
  obtain ⟨frame, hfind, hchunk⟩ := Option.map_eq_some_iff.mp h
  obtain ⟨hflag, hpayload⟩ := Prod.mk.inj hchunk
  have hseq : frame.seq = i := by simpa using List.find?_some hfind
  exact ⟨frame, List.mem_of_find?_eq_some hfind, hseq, hflag, hpayload⟩

theorem flatten_concat (reads : List (List UInt8)) (read : List UInt8) :
    (reads ++ [read]).flatten = reads.flatten ++ read := by
  rw [List.flatten_append, List.flatten_singleton]

theorem prefix_concat_cases {pre : List (List UInt8)} (h : pre <+: reads ++ [read]) :
    pre.flatten = reads.flatten ++ read ∨ pre <+: reads := by
  obtain rfl | h := List.prefix_concat_iff.mp h
  · exact .inl (flatten_concat reads read)
  · exact .inr h

/-- One turn on a buffer that is what is left of the bytes so far. -/
theorem turn_running (hdone : (heard station w).done = false) (hw : ¬ Stranded w) :
    turn ⟨heard station w, .running (leftover w)⟩ read =
      if Stranded (w ++ read) then
        ⟨heard station w, .raised (.indexError "bytearray index out of range")⟩
      else
        ⟨heard station (w ++ read),
          if (heard station (w ++ read)).done then .returned
          else .running (leftover (w ++ read))⟩ := by
  by_cases hread : read = []
  · rw [turn, if_pos hread, hread, List.append_nil, if_neg hw, if_neg (by simp [hdone])]
  · rw [turn, if_neg hread, extractFrames_leftover]
    by_cases hstranded : Stranded (w ++ read)
    · rw [if_pos hstranded, if_pos hstranded]
    · rw [if_neg hstranded, if_neg hstranded, heard_append hdone]

/-- One more read. -/
theorem Follows.turn (h : Follows station reads s) (read : List UInt8) :
    Follows station (reads ++ [read]) (turn s read) := by
  cases h with
  | running hdone hpre =>
    rw [turn_running hdone (hpre reads (List.prefix_refl _)), ← flatten_concat]
    by_cases hstranded : Stranded (reads ++ [read]).flatten
    · rw [if_pos hstranded]
      exact .raised hdone ⟨_, List.prefix_refl _, hstranded⟩
    · rw [if_neg hstranded]
      cases hnow : (heard station (reads ++ [read]).flatten).done with
      | true => exact .returned hnow
      | false =>
        refine .running hnow fun pre hpre' => ?_
        obtain heq | hpre' := prefix_concat_cases hpre'
        · rwa [heq, ← flatten_concat]
        · exact hpre pre hpre'
  | returned hdone =>
    have hsame : heard station (reads ++ [read]).flatten = heard station reads.flatten := by
      rw [flatten_concat, heard_append_of_done hdone]
    rw [← hsame]
    exact .returned (by rwa [hsame])
  | raised hdone hpre =>
    obtain ⟨pre, hpre, hstranded⟩ := hpre
    exact .raised hdone ⟨pre, hpre.trans (List.prefix_append _ _), hstranded⟩

/-- **The thread follows the bytes**, however they are cut into reads. -/
theorem follows_run (station : UInt8) (reads : List (List UInt8)) :
    Follows station reads (run station reads) := by
  induction reads using List.reverseRecOn with
  | nil =>
    have hnil : heard station [] = { station := station } := by
      rw [heard, framesIn_nil]
      rfl
    have hrun : Follows station []
        ⟨heard station [].flatten, .running (leftover [].flatten)⟩ := by
      refine .running (by rw [List.flatten_nil, hnil]) fun pre hpre => ?_
      rw [List.prefix_nil.mp hpre]
      exact not_stranded_nil
    rwa [List.flatten_nil, hnil, leftover_nil] at hrun
  | append_singleton reads read ih =>
    rw [run, List.foldl_append]
    exact ih.turn read

/-- An exception is the end of the thread. -/
theorem foldl_turn_raised (rx : Receiver) (e : PyException) (later : List (List UInt8)) :
    later.foldl turn ⟨rx, .raised e⟩ = ⟨rx, .raised e⟩ := by
  induction later with
  | nil => rfl
  | cons read later ih => exact ih

/-- Where no read ends in an exception, and the last frame is among the bytes, the thread has
returned. -/
theorem run_eq_returned (hdone : (heard station reads.flatten).done = true)
    (h : ∀ pre, pre <+: reads → ¬ Stranded pre.flatten) :
    run station reads = ⟨heard station reads.flatten, .returned⟩ := by
  have hfollows := follows_run station reads
  generalize run station reads = s at hfollows
  cases hfollows with
  | running hrunning _ =>
    rw [hdone] at hrunning
    cases hrunning
  | returned _ => rfl
  | raised _ hpre =>
    obtain ⟨pre, hpre, hstranded⟩ := hpre
    exact absurd hstranded (h pre hpre)

/-- A thread that has got the last frame has made of the bytes what is in them. -/
theorem run_eq_of_done (h : (run station reads).receiver.done = true) :
    (run station reads).receiver = heard station reads.flatten := by
  have hfollows := follows_run station reads
  generalize run station reads = s at h hfollows
  cases hfollows with
  | running _ _ => rfl
  | returned _ => rfl
  | raised hdone _ =>
    rw [hdone] at h
    cases h

/-- A read that strands the bytes before the last frame has come ends the thread without it. -/
theorem done_run_of_stranded {pre : List (List UInt8)} (hpre : pre <+: reads)
    (hstranded : Stranded pre.flatten) (hdone : (heard station pre.flatten).done = false) :
    (run station reads).receiver.done = false := by
  obtain ⟨later, rfl⟩ := hpre
  have hfollows := follows_run station pre
  rw [run, List.foldl_append]
  change (later.foldl turn (run station pre)).receiver.done = false
  generalize run station pre = s at hfollows
  cases hfollows with
  | running _ hpre => exact absurd hstranded (hpre pre (List.prefix_refl _))
  | returned hdone' =>
    rw [hdone] at hdone'
    cases hdone'
  | raised hrx _ =>
    rw [foldl_turn_raised]
    exact hrx

end Ds10File

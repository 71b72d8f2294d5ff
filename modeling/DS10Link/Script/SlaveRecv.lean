import DS10Link.Script.SeqAccount
import DS10Link.Script.ReceiveLoop

/-!
# The slave's receiving script

`ds10_slave_recv.py` cuts frames, filters them by station, reads the number the sender put into
each, and keeps its statistics along the way.

## Main definitions

* `seqOf`: the number in a frame
* `SlaveRecv.Stats`, `SlaveRecv.handleFrame`: the statistics and what a frame does to them
* `SlaveRecv.script`: the script as a receiver

## Main results

* `SlaveRecv.received_afterRun`: what the statistics say after a run
* `SlaveRecv.loss_afterRun`: the two figures for the loss, after a run
* `SlaveRecv.stalled_iff`: when the script has stopped receiving until the next gap
-/

namespace Ds10Script

open Ds10Driver Ds10File

/-- The data of a register write, behind the seven bytes of its header. -/
def dataRegion (frame : List UInt8) : List UInt8 :=
  if 9 ≤ frame.length then (frame.take (frame.length - 2)).drop 7 else []

/-- `seq_of`: the number in a frame, where its data start with the marker. -/
def seqOf (frame : List UInt8) : Option ℕ :=
  let data := dataRegion frame
  if data.take 2 = marker ∧ 4 ≤ data.length then
    some ((data.getD 2 0).toNat <<< 8 ||| (data.getD 3 0).toNat)
  else none

namespace SlaveRecv

/-- `Stats`, without its starting time. -/
structure Stats extends SeqStat where
  frames : ℕ := 0
  good : ℕ := 0
  crcErr : ℕ := 0
  filtered : ℕ := 0
  recoveredBytes : ℕ := 0
  bytes : ℕ := 0
  deriving DecidableEq

/-- A frame passes the filter; a filter of 0 lets every frame pass. -/
def Passes (stationFilter : ℤ) (frame : List UInt8) : Prop :=
  stationFilter = 0 ∨ ((frame.getD 0 0).toNat : ℤ) = stationFilter

instance (stationFilter : ℤ) : DecidablePred (Passes stationFilter) :=
  fun _ => inferInstanceAs (Decidable (_ ∨ _))

/-- `_handle_frame`. -/
def handleFrame (stationFilter : ℤ) (stats : Stats) (frame : List UInt8) : Stats :=
  let stats := { stats with frames := stats.frames + 1, bytes := stats.bytes + frame.length }
  if ¬ Passes stationFilter frame then { stats with filtered := stats.filtered + 1 }
  else
    let stats := { stats with good := stats.good + 1 }
    match seqOf frame with
    | none => stats
    | some seq => { stats with toSeqStat := stats.toSeqStat.account seq }

/-- The script, with its `--station` and its `--gap`. -/
def script (stationFilter gap : ℤ) : Receiver Stats where
  gap := gap
  skip stats := { stats with recoveredBytes := stats.recoveredBytes + 1 }
  take := handleFrame stationFilter
  discard stats n := { stats with recoveredBytes := stats.recoveredBytes + n }

/-- The script after a run. -/
def afterRun (stationFilter gap : ℤ) (ts : List LoopTurn) : RecvLoop Stats :=
  (script stationFilter gap).afterRun {} ts

/-- The bursts of a run. -/
def burstsOf (stationFilter gap : ℤ) (ts : List LoopTurn) : List (List UInt8) :=
  ((script stationFilter gap).burstsOf {} ts).all

/-- The frames that pass the filter. -/
def accepted (stationFilter : ℤ) (frames : List (List UInt8)) : List (List UInt8) :=
  frames.filter fun frame => decide (Passes stationFilter frame)

/-- The numbers of the frames that pass the filter and have one. -/
def numbers (stationFilter : ℤ) (frames : List (List UInt8)) : List ℕ :=
  (accepted stationFilter frames).filterMap seqOf

variable {stationFilter : ℤ} {frames : List (List UInt8)}

theorem accepted_append (frame : List UInt8) :
    accepted stationFilter (frames ++ [frame]) =
      accepted stationFilter frames ++ if Passes stationFilter frame then [frame] else [] := by
  rw [accepted, List.filter_append]
  by_cases h : Passes stationFilter frame
  · simp [accepted, h]
  · simp [accepted, h]

theorem numbers_append (frame : List UInt8) :
    numbers stationFilter (frames ++ [frame]) =
      numbers stationFilter frames ++
        if Passes stationFilter frame then (seqOf frame).toList else [] := by
  rw [numbers, accepted_append, List.filterMap_append]
  split_ifs
  · rw [numbers, List.filterMap_cons]
    cases seqOf frame <;> rfl
  · rfl

/-! ## The statistics and the log -/

/-- The statistics say of the frames that were cut: how many, how many bytes, how many passed the
filter, and what their numbers come to; and how many bytes were given up. -/
structure Tallies (stationFilter : ℤ) (stats : Stats) (log : Log) : Prop where
  frames_eq : stats.frames = log.frames.length
  bytes_eq : stats.bytes = (log.frames.map List.length).sum
  good_eq : stats.good = (accepted stationFilter log.frames).length
  good_add_filtered : stats.good + stats.filtered = stats.frames
  crcErr_eq : stats.crcErr = 0
  seqStat_eq : stats.toSeqStat = SeqStat.accountAll (numbers stationFilter log.frames)
  recovered_eq : stats.recoveredBytes = log.recovered

theorem Tallies.take {stats : Stats} {log : Log} (h : Tallies stationFilter stats log)
    (frame : List UInt8) :
    Tallies stationFilter (handleFrame stationFilter stats frame)
      { log with frames := log.frames ++ [frame] } := by
  obtain ⟨hframes, hbytes, hgood, hsum, hcrc, hseq, hrec⟩ := h
  by_cases hpass : Passes stationFilter frame
  -- A frame of a station that is listened to is counted, and its number if it has one.
  · cases hnumber : seqOf frame with
    | none =>
      simp only [handleFrame, hpass, not_true_eq_false, if_false, hnumber]
      refine ⟨by simp [hframes], by simp [hbytes], ?_, ?_, hcrc, ?_, hrec⟩
      · simp [accepted_append, hpass, hgood]
      · dsimp only
        omega
      · dsimp only
        rw [hseq, numbers_append, if_pos hpass, hnumber, Option.toList_none, List.append_nil]
    | some seq =>
      simp only [handleFrame, hpass, not_true_eq_false, if_false, hnumber]
      refine ⟨by simp [hframes], by simp [hbytes], ?_, ?_, hcrc, ?_, hrec⟩
      · simp [accepted_append, hpass, hgood]
      · dsimp only
        omega
      · dsimp only
        rw [hseq, numbers_append, if_pos hpass, hnumber, Option.toList_some,
          SeqStat.accountAll, SeqStat.accountAll, List.foldl_append]
        rfl
  · simp only [handleFrame, hpass, not_false_eq_true, if_true]
    refine ⟨by simp [hframes], by simp [hbytes], ?_, ?_, hcrc, ?_, hrec⟩
    · simp [accepted_append, hpass, hgood]
    · dsimp only
      omega
    · dsimp only
      rw [hseq, numbers_append, if_neg hpass, List.append_nil]

theorem keeps_tallies (stationFilter gap : ℤ) :
    Receiver.Keeps (script stationFilter gap) (Receiver.logger gap) (Tallies stationFilter) where
  gap_eq := rfl
  skip _ _ h :=
    ⟨h.frames_eq, h.bytes_eq, h.good_eq, h.good_add_filtered, h.crcErr_eq, h.seqStat_eq,
      congrArg (· + 1) h.recovered_eq⟩
  take _ _ frame _ h := h.take frame
  discard _ _ n h :=
    ⟨h.frames_eq, h.bytes_eq, h.good_eq, h.good_add_filtered, h.crcErr_eq, h.seqStat_eq,
      congrArg (· + n) h.recovered_eq⟩

theorem tallies_new (stationFilter : ℤ) : Tallies stationFilter {} {} :=
  ⟨rfl, rfl, rfl, rfl, rfl, rfl, rfl⟩

/-- What the statistics say after a run, in terms of the bursts read. -/
structure Received (stationFilter : ℤ) (bursts : List (List UInt8)) (s : RecvLoop Stats) :
    Prop where
  frames_eq : s.stats.frames = (bursts.flatMap framesIn).length
  bytes_eq : s.stats.bytes = ((bursts.flatMap framesIn).map List.length).sum
  good_eq : s.stats.good = (accepted stationFilter (bursts.flatMap framesIn)).length
  good_add_filtered : s.stats.good + s.stats.filtered = s.stats.frames
  seqStat_eq : s.stats.toSeqStat =
    SeqStat.accountAll (numbers stationFilter (bursts.flatMap framesIn))
  conserved : bursts.flatten.length = s.stats.bytes + s.stats.recoveredBytes + s.buf.length
  crcErr_eq : s.stats.crcErr = 0

theorem received_burstsOf (stationFilter gap : ℤ) (ts : List LoopTurn) :
    Received stationFilter (burstsOf stationFilter gap ts) (afterRun stationFilter gap ts) := by
  obtain ⟨hsame, hbursts⟩ :=
    Receiver.afterRun_rel (keeps_tallies stationFilter gap) (tallies_new stationFilter) ts
  have hlog := Receiver.logged_afterRun gap ts
  obtain ⟨hframes, hbytes, hgood, hsum, hcrc, hseq, hrec⟩ := hsame.stats
  have hall : burstsOf stationFilter gap ts = ((Receiver.logger gap).burstsOf {} ts).all :=
    congrArg Bursts.all hbursts
  refine ⟨?_, ?_, ?_, hsum, ?_, ?_, hcrc⟩
  · rw [hall, ← hlog.frames_eq]
    exact hframes
  · rw [hall, ← hlog.frames_eq]
    exact hbytes
  · rw [hall, ← hlog.frames_eq]
    exact hgood
  · rw [hall, ← hlog.frames_eq]
    exact hseq
  · rw [hall, hlog.conserved, ← hsame.buf_eq, ← hbytes, ← hrec]
    rfl

/-- **What the statistics say after every run**: they count the frames that each burst is cut into
on its own, however it was cut into reads, and every byte read is in a frame, given up or held. -/
theorem received_afterRun (stationFilter gap : ℤ) (ts : List LoopTurn) :
    Received stationFilter (burstsOf stationFilter gap ts) (afterRun stationFilter gap ts) ∧
      (burstsOf stationFilter gap ts).flatten = ts.flatMap LoopTurn.chunk :=
  ⟨received_burstsOf stationFilter gap ts, Receiver.flatten_burstsOf _ _ _⟩

/-- **The two figures for the loss, after every run**: the running count exceeds the numbers missing
at the end by the frames that came late, less the numbers below the first one; and the frames with a
number are the numbers seen and those counted as repeated. -/
theorem loss_afterRun (stationFilter gap : ℤ) (ts : List LoopTurn) :
    let s := (afterRun stationFilter gap ts).stats
    let ns := numbers stationFilter ((burstsOf stationFilter gap ts).flatMap framesIn)
    s.lost + (ns.headD s.lowest - s.lowest) = s.missing + late ns ∧
      s.reorder + s.seen.card = ns.length ∧ ns.length ≤ s.good := by
  intro s ns
  have hreceived := received_burstsOf stationFilter gap ts
  have hseq : s.toSeqStat = SeqStat.accountAll ns := hreceived.seqStat_eq
  obtain ⟨hfigures, hcount⟩ := lost_add_eq ns
  rw [hseq]
  refine ⟨hfigures, hcount, ?_⟩
  rw [hreceived.good_eq]
  exact List.length_filterMap_le _ _

/-! ## Reception that has stopped -/

theorem frames_reading (stationFilter gap : ℤ) (stats : Stats) (w : List UInt8) :
    ((script stationFilter gap).reading stats w).1.frames =
      stats.frames + (framesIn w).length := by
  have hkeeps : Receiver.Keeps (script stationFilter gap) (Receiver.logger gap)
      fun s l => s.frames = stats.frames + l.frames.length := by
    refine ⟨rfl, fun _ _ h => h, ?_, fun _ _ _ h => h⟩
    intro s l frame _ h
    have hone : ((script stationFilter gap).take s frame).frames = s.frames + 1 := by
      show (handleFrame stationFilter s frame).frames = _
      by_cases hpass : Passes stationFilter frame
      · simp only [handleFrame, hpass, not_true_eq_false, if_false]
        cases seqOf frame <;> rfl
      · simp only [handleFrame, hpass, not_false_eq_true, if_true]
    rw [hone, h]
    simp [Receiver.logger, Nat.add_assoc]
  obtain ⟨hframes, -⟩ := hkeeps.reading (s := stats) (t := {}) rfl w
  rw [hframes, (Receiver.reading_logger gap {} w).1, List.nil_append]

/-- **When the script has stopped receiving until the next gap**: with bytes held, no read brings
out a frame any more exactly when a full trial has come to nothing, or all of it but a last byte
that cannot complete it. -/
theorem stalled_iff (stationFilter gap : ℤ) (ts : List LoopTurn)
    (hne : (afterRun stationFilter gap ts).buf ≠ []) :
    (∀ us : List LoopTurn, (∀ u ∈ us, u.chunk ≠ []) →
        (afterRun stationFilter gap (ts ++ us)).stats.frames =
          (afterRun stationFilter gap ts).stats.frames) ↔
      Stalled (afterRun stationFilter gap ts).buf := by
  let s := afterRun stationFilter gap ts
  have hrest : (script stationFilter gap).reading s.stats s.buf = (s.stats, s.buf) :=
    Receiver.reading_afterRun _ _ ts
  have hwait : trialVerdict s.buf = .wait := by
    have hscan : (trialScanner.scan s.buf).2 = s.buf := congrArg Prod.snd hrest
    rw [← hscan]
    exact trialScanner.verdict_scan s.buf
  -- Without a gap the reads add up, and the frames are those cut off from all the bytes.
  have hcount : ∀ us : List LoopTurn, (∀ u ∈ us, u.chunk ≠ []) →
      (afterRun stationFilter gap (ts ++ us)).stats.frames =
        s.stats.frames + (framesIn (s.buf ++ us.flatMap LoopTurn.chunk)).length := by
    intro us hus
    have hreads := congrArg Prod.fst (Receiver.stateAfter_reads hrest hus)
    dsimp only at hreads
    rw [← frames_reading stationFilter gap, ← hreads]
    exact congrArg (fun l : RecvLoop Stats => l.stats.frames)
      (Automaton.stateAfter_append _ ts us)
  rw [← silent_iff hne hwait]
  constructor
  · intro h more
    by_cases hmore : more = []
    · rw [hmore, List.append_nil, trialScanner.scan_of_wait hwait, Piece.outs_nil]
    · -- One read of the continuation.
      have hone := h [⟨more, 0⟩] (by simpa using hmore)
      rw [hcount [⟨more, 0⟩] (by simpa using hmore)] at hone
      have hzero : (framesIn (s.buf ++ more)).length = 0 := by
        simpa [s] using hone
      exact List.eq_nil_of_length_eq_zero hzero
  · intro h us hus
    rw [hcount us hus, framesIn, h]
    rfl

/-- A first read at which the script waits stays in the buffer. -/
theorem buf_afterRun_single (stationFilter gap now : ℤ) {chunk : List UInt8} (hne : chunk ≠ [])
    (hwait : trialVerdict chunk = .wait) :
    (afterRun stationFilter gap [⟨chunk, now⟩]).buf = chunk := by
  show ((script stationFilter gap).turn { stats := {} } ⟨chunk, now⟩).buf = chunk
  rw [Receiver.turn, if_pos hne, Receiver.tryExtractFrames_eq, Receiver.reading, Scanner.replay,
    List.nil_append, trialScanner.scan_of_wait hwait]

/-- A station byte and zeros, as many as a trial takes, and the script is deaf to what follows. -/
theorem stalled_iff_zeros :
    let ts : List LoopTurn := [⟨1 :: List.replicate 4199 0, 0⟩]
    ∀ us : List LoopTurn, (∀ u ∈ us, u.chunk ≠ []) →
      (afterRun 0 20000000 (ts ++ us)).stats.frames =
        (afterRun 0 20000000 ts).stats.frames := by
  intro ts
  have hbuf : (afterRun 0 20000000 ts).buf = 1 :: List.replicate 4199 0 :=
    buf_afterRun_single _ _ _ (List.cons_ne_nil _ _) (trialVerdict_zeros 4199)
  refine (stalled_iff 0 20000000 ts ?_).mpr ?_
  · rw [hbuf]
    exact List.cons_ne_nil _ _
  · rw [hbuf]
    refine .inl ?_
    rw [List.length_cons, List.length_replicate]
    exact le_refl maxFrame

end SlaveRecv

end Ds10Script

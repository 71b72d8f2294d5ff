import DS10Link.Script.SlaveRecv

/-!
# The master's receiving script

`ds10_master_recv.py` runs the loop of `ds10_slave_recv.py` and keeps statistics for each station
apart. It counts for a station the frames, and the numbers in them, that the slave's script would
have counted on the same port with its filter set to that station. Only the bytes are another
figure: the slave's script counts those of every frame, whether it passes the filter or not.

## Main definitions

* `MasterRecv.Stats`, `MasterRecv.handleFrame`: the statistics by station
* `MasterRecv.script`: the script as a receiver
* `MasterRecv.Agrees`: what is kept for a station against the statistics of the slave's script
* `MasterRecv.stationBytes`: the bytes in the frames of a station

## Main results

* `MasterRecv.agrees_afterRun`: one script for all stations, or one for each
-/

namespace Ds10Script

open Ds10Driver

namespace MasterRecv

/-- `StationStat`. -/
structure StationStat extends SeqStat where
  frames : ℕ := 0
  bytes : ℕ := 0
  deriving DecidableEq

/-- `Stats`, without its starting time. -/
structure Stats where
  byStation : UInt8 → Option StationStat := fun _ => none
  filtered : ℕ := 0
  recoveredBytes : ℕ := 0

/-- A frame of this station is of interest; an empty list lets every station pass. -/
def Admits (whitelist : Finset ℤ) (station : UInt8) : Prop :=
  whitelist = ∅ ∨ (station.toNat : ℤ) ∈ whitelist

instance (whitelist : Finset ℤ) : DecidablePred (Admits whitelist) :=
  fun _ => inferInstanceAs (Decidable (_ ∨ _))

/-- `station`: what is kept for a station, new if need be. -/
def Stats.station (stats : Stats) (sid : UInt8) : StationStat := (stats.byStation sid).getD {}

/-- What a frame does to the statistics of its station. -/
def StationStat.count (st : StationStat) (frame : List UInt8) : StationStat :=
  let st := { st with frames := st.frames + 1, bytes := st.bytes + frame.length }
  match seqOf frame with
  | none => st
  | some seq => { st with toSeqStat := st.toSeqStat.account seq }

/-- `_handle_frame`. -/
def handleFrame (whitelist : Finset ℤ) (stats : Stats) (frame : List UInt8) : Stats :=
  let station := frame.getD 0 0
  if ¬ Admits whitelist station then { stats with filtered := stats.filtered + 1 }
  else
    { stats with
      byStation := Function.update stats.byStation station
        (some ((stats.station station).count frame)) }

/-- The script, with its `--stations` and its `--gap`. -/
def script (whitelist : Finset ℤ) (gap : ℤ) : Receiver Stats where
  gap := gap
  skip stats := { stats with recoveredBytes := stats.recoveredBytes + 1 }
  take := handleFrame whitelist
  discard stats n := { stats with recoveredBytes := stats.recoveredBytes + n }

/-- The script after a run. -/
def afterRun (whitelist : Finset ℤ) (gap : ℤ) (ts : List LoopTurn) : RecvLoop Stats :=
  (script whitelist gap).afterRun {} ts

/-! ## One station -/

variable {whitelist : Finset ℤ} {sid : UInt8}

/-- The frames and the numbers kept for a station are those of the slave's script; nothing is kept
for a station before its first frame. -/
structure Agrees (entry : Option StationStat) (s : SlaveRecv.Stats) : Prop where
  isSome_iff : entry.isSome = true ↔ 0 < s.good
  frames_eq : (entry.getD {}).frames = s.good
  seqStat_eq : (entry.getD {}).toSeqStat = s.toSeqStat

/-- The frame is of the station. -/
theorem passes_iff (hsid : sid ≠ 0) (frame : List UInt8) :
    SlaveRecv.Passes sid.toNat frame ↔ frame.getD 0 0 = sid := by
  have hzero : sid.toNat ≠ 0 := by
    intro h
    exact hsid (UInt8.toNat_inj.mp h)
  rw [SlaveRecv.Passes, ← UInt8.toNat_inj]
  omega

theorem Agrees.count {entry : Option StationStat} {s : SlaveRecv.Stats} (h : Agrees entry s)
    (hsid : sid ≠ 0) {frame : List UInt8} (hframe : frame.getD 0 0 = sid) :
    Agrees (some ((entry.getD {}).count frame)) (SlaveRecv.handleFrame sid.toNat s frame) := by
  have hpass := (passes_iff hsid frame).mpr hframe
  obtain ⟨-, hframes, hseq⟩ := h
  cases hnumber : seqOf frame with
  | none =>
    simp only [SlaveRecv.handleFrame, hpass, not_true_eq_false, if_false, hnumber,
      StationStat.count]
    exact ⟨by simp, congrArg (· + 1) hframes, hseq⟩
  | some seq =>
    simp only [SlaveRecv.handleFrame, hpass, not_true_eq_false, if_false, hnumber,
      StationStat.count]
    exact ⟨by simp, congrArg (· + 1) hframes, congrArg (SeqStat.account · seq) hseq⟩

/-- A frame of another station counts for neither. -/
theorem Agrees.other {entry : Option StationStat} {s : SlaveRecv.Stats} (h : Agrees entry s)
    (hsid : sid ≠ 0) {frame : List UInt8} (hframe : frame.getD 0 0 ≠ sid) :
    Agrees entry (SlaveRecv.handleFrame sid.toNat s frame) := by
  have hpass := mt (passes_iff hsid frame).mp hframe
  simp only [SlaveRecv.handleFrame, hpass, not_false_eq_true, if_true]
  exact ⟨h.isSome_iff, h.frames_eq, h.seqStat_eq⟩

theorem byStation_handleFrame (stats : Stats) (frame : List UInt8) :
    (handleFrame whitelist stats frame).byStation sid =
      if frame.getD 0 0 = sid ∧ Admits whitelist sid then
        some (((stats.byStation sid).getD {}).count frame)
      else stats.byStation sid := by
  rw [handleFrame]
  by_cases hframe : frame.getD 0 0 = sid
  · rw [hframe]
    by_cases hadmit : Admits whitelist sid
    · rw [if_neg (not_not.mpr hadmit), if_pos ⟨rfl, hadmit⟩]
      exact Function.update_self _ _ _
    · have hnot : ¬ (sid = sid ∧ Admits whitelist sid) := fun h => hadmit h.2
      rw [if_pos hadmit, if_neg hnot]
  · have hnot : ¬ (frame.getD 0 0 = sid ∧ Admits whitelist sid) := fun h => hframe h.1
    rw [if_neg hnot]
    by_cases hadmit : Admits whitelist (frame.getD 0 0)
    · rw [if_neg (not_not.mpr hadmit)]
      exact Function.update_of_ne (Ne.symm hframe) _ _
    · rw [if_pos hadmit]

theorem recoveredBytes_handleFrame (stats : Stats) (frame : List UInt8) :
    (handleFrame whitelist stats frame).recoveredBytes = stats.recoveredBytes := by
  rw [handleFrame]
  split_ifs <;> rfl

theorem recoveredBytes_slave (stationFilter : ℤ) (s : SlaveRecv.Stats) (frame : List UInt8) :
    (SlaveRecv.handleFrame stationFilter s frame).recoveredBytes = s.recoveredBytes := by
  by_cases hpass : SlaveRecv.Passes stationFilter frame
  · simp only [SlaveRecv.handleFrame, hpass, not_true_eq_false, if_false]
    cases seqOf frame <;> rfl
  · simp only [SlaveRecv.handleFrame, hpass, not_false_eq_true, if_true]

/-- The statistics of the two scripts, for a station. -/
structure SameStation (whitelist : Finset ℤ) (sid : UInt8) (stats : Stats) (s : SlaveRecv.Stats) :
    Prop where
  agrees : Admits whitelist sid → Agrees (stats.byStation sid) s
  absent : ¬ Admits whitelist sid → stats.byStation sid = none
  recovered_eq : stats.recoveredBytes = s.recoveredBytes

theorem SameStation.recovered {stats : Stats} {s : SlaveRecv.Stats}
    (h : SameStation whitelist sid stats s) (n : ℕ) :
    SameStation whitelist sid { stats with recoveredBytes := stats.recoveredBytes + n }
      { s with recoveredBytes := s.recoveredBytes + n } := by
  refine ⟨?_, h.absent, congrArg (· + n) h.recovered_eq⟩
  intro hadmit
  obtain ⟨hsome, hframes, hseq⟩ := h.agrees hadmit
  exact ⟨hsome, hframes, hseq⟩

theorem SameStation.take {stats : Stats} {s : SlaveRecv.Stats}
    (h : SameStation whitelist sid stats s) (hsid : sid ≠ 0) (frame : List UInt8) :
    SameStation whitelist sid (handleFrame whitelist stats frame)
      (SlaveRecv.handleFrame sid.toNat s frame) := by
  refine ⟨?_, ?_, ?_⟩
  · intro hadmit
    rw [byStation_handleFrame]
    by_cases hframe : frame.getD 0 0 = sid
    · rw [if_pos ⟨hframe, hadmit⟩]
      exact (h.agrees hadmit).count hsid hframe
    · have hnot : ¬ (frame.getD 0 0 = sid ∧ Admits whitelist sid) := fun h => hframe h.1
      rw [if_neg hnot]
      exact (h.agrees hadmit).other hsid hframe
  · intro hadmit
    have hnot : ¬ (frame.getD 0 0 = sid ∧ Admits whitelist sid) := fun h => hadmit h.2
    rw [byStation_handleFrame, if_neg hnot]
    exact h.absent hadmit
  · rw [recoveredBytes_handleFrame, recoveredBytes_slave]
    exact h.recovered_eq

theorem keeps_sameStation (whitelist : Finset ℤ) (gap : ℤ) (hsid : sid ≠ 0) :
    Receiver.Keeps (script whitelist gap) (SlaveRecv.script sid.toNat gap)
      (SameStation whitelist sid) where
  gap_eq := rfl
  skip _ _ h := h.recovered 1
  take _ _ frame _ h := h.take hsid frame
  discard _ _ n h := h.recovered n

/-! ## The frames filtered out, and the bytes of a station -/

/-- How many of the frames are of stations that are not of interest. -/
def unwanted (whitelist : Finset ℤ) (frames : List (List UInt8)) : ℕ :=
  frames.countP fun frame => decide (¬ Admits whitelist (frame.getD 0 0))

/-- The bytes in the frames of a station. -/
def stationBytes (sid : UInt8) (frames : List (List UInt8)) : ℕ :=
  ((frames.filter fun frame => frame.getD 0 0 = sid).map List.length).sum

theorem stationBytes_append (frames : List (List UInt8)) (frame : List UInt8) :
    stationBytes sid (frames ++ [frame]) =
      stationBytes sid frames + if frame.getD 0 0 = sid then frame.length else 0 := by
  rw [stationBytes, List.filter_append, List.map_append, List.sum_append, stationBytes]
  by_cases hframe : frame.getD 0 0 = sid
  · rw [if_pos hframe, List.filter_cons_of_pos (by simpa using hframe)]
    rfl
  · rw [if_neg hframe, List.filter_cons_of_neg (by simpa using hframe)]
    rfl

theorem bytes_count (st : StationStat) (frame : List UInt8) :
    (st.count frame).bytes = st.bytes + frame.length := by
  rw [StationStat.count]
  cases seqOf frame <;> rfl

theorem filtered_handleFrame (stats : Stats) (frame : List UInt8) :
    (handleFrame whitelist stats frame).filtered =
      stats.filtered + unwanted whitelist [frame] := by
  rw [handleFrame, unwanted, List.countP_singleton]
  by_cases hadmit : Admits whitelist (frame.getD 0 0)
  · rw [if_neg (not_not.mpr hadmit), decide_eq_false (not_not.mpr hadmit)]
    rfl
  · rw [if_pos hadmit, decide_eq_true hadmit]
    rfl

/-- The statistics say of the frames that were cut how many were filtered out, and how many bytes
those of a station of interest have. -/
structure Counts (whitelist : Finset ℤ) (sid : UInt8) (stats : Stats)
    (frames : List (List UInt8)) : Prop where
  filtered_eq : stats.filtered = unwanted whitelist frames
  bytes_eq : Admits whitelist sid →
    ((stats.byStation sid).getD {}).bytes = stationBytes sid frames

theorem Counts.take {stats : Stats} {frames : List (List UInt8)}
    (h : Counts whitelist sid stats frames) (frame : List UInt8) :
    Counts whitelist sid (handleFrame whitelist stats frame) (frames ++ [frame]) := by
  refine ⟨?_, ?_⟩
  · rw [filtered_handleFrame, h.filtered_eq]
    exact List.countP_append.symm
  · intro hadmit
    have hbytes := h.bytes_eq hadmit
    rw [byStation_handleFrame, stationBytes_append]
    by_cases hframe : frame.getD 0 0 = sid
    · rw [if_pos ⟨hframe, hadmit⟩, if_pos hframe, Option.getD_some, bytes_count, hbytes]
    · have hnot : ¬ (frame.getD 0 0 = sid ∧ Admits whitelist sid) := fun h => hframe h.1
      rw [if_neg hnot, if_neg hframe, hbytes, Nat.add_zero]

theorem keeps_counts (whitelist : Finset ℤ) (gap : ℤ) (sid : UInt8) :
    Receiver.Keeps (script whitelist gap) (Receiver.logger gap)
      fun stats log => Counts whitelist sid stats log.frames where
  gap_eq := rfl
  skip _ _ h := ⟨h.filtered_eq, h.bytes_eq⟩
  take _ _ frame _ h := h.take frame
  discard _ _ _ h := ⟨h.filtered_eq, h.bytes_eq⟩

theorem counts_afterRun (whitelist : Finset ℤ) (gap : ℤ) (ts : List LoopTurn) (sid : UInt8) :
    Counts whitelist sid (afterRun whitelist gap ts).stats
      (((script whitelist gap).burstsOf {} ts).all.flatMap framesIn) := by
  have hempty : Counts whitelist sid {} ({} : Log).frames := ⟨rfl, fun _ => rfl⟩
  obtain ⟨hcounts, hbursts⟩ := Receiver.afterRun_rel (keeps_counts whitelist gap sid) hempty ts
  rw [hbursts, ← (Receiver.logged_afterRun gap ts).frames_eq]
  exact hcounts.stats

theorem sameStation_afterRun (whitelist : Finset ℤ) (gap : ℤ) (ts : List LoopTurn)
    (hsid : sid ≠ 0) :
    Receiver.SameLoop (SameStation whitelist sid) (afterRun whitelist gap ts)
        (SlaveRecv.afterRun sid.toNat gap ts) ∧
      (script whitelist gap).burstsOf {} ts = (SlaveRecv.script sid.toNat gap).burstsOf {} ts := by
  have hempty : SameStation whitelist sid {} {} :=
    ⟨fun _ => ⟨by simp, rfl, rfl⟩, fun _ => rfl, rfl⟩
  exact Receiver.afterRun_rel (keeps_sameStation whitelist gap hsid) hempty ts

/-- **One script for all stations, or one for each.** On the same port, the frames and the numbers
that the master's script keeps for a station of interest are those that the slave's script keeps
with its filter set to it, and for any other station it keeps nothing; it holds the same bytes and
has given up as many; and it counts as filtered the frames of the stations that are not of interest.
The bytes it counts are those in the frames of the station, and the slave's script counts those in
all frames. -/
theorem agrees_afterRun (whitelist : Finset ℤ) (gap : ℤ) (ts : List LoopTurn) (sid : UInt8)
    (hsid : sid ≠ 0) :
    let m := afterRun whitelist gap ts
    let s := SlaveRecv.afterRun sid.toNat gap ts
    let frames := (SlaveRecv.burstsOf sid.toNat gap ts).flatMap framesIn
    SameStation whitelist sid m.stats s.stats ∧ m.buf = s.buf ∧
      m.stats.filtered = unwanted whitelist frames ∧
      (Admits whitelist sid →
        ((m.stats.byStation sid).getD {}).bytes = stationBytes sid frames) ∧
      s.stats.bytes = (frames.map List.length).sum := by
  intro m s frames
  obtain ⟨hsame, hbursts⟩ := sameStation_afterRun whitelist gap ts hsid
  have hcounts := counts_afterRun whitelist gap ts sid
  rw [hbursts] at hcounts
  exact ⟨hsame.stats, hsame.buf_eq, hcounts.filtered_eq, hcounts.bytes_eq,
    (SlaveRecv.received_burstsOf sid.toNat gap ts).bytes_eq⟩

/-- Two frames of the station 1 with one of the station 2 between them, cut into reads inside the
first and the last; of the three frames the master's script takes two for the station 1. -/
theorem agrees_afterRun_two :
    let one (seq lo hi : UInt8) : List UInt8 :=
      [1, 0x10, 0, 0, 0, 2, 4, 0xF1, 0xF1, 0, seq, lo, hi]
    let ts : List LoopTurn :=
      [⟨(one 0 0x90 0xA0).take 5, 0⟩,
        ⟨(one 0 0x90 0xA0).drop 5 ++ [2, 0x10, 0, 0, 0, 2, 4, 0xF1, 0xF1, 0, 0, 0x9F, 0xE4] ++
          (one 2 0x11 0x61).take 1, 1000⟩,
        ⟨(one 2 0x11 0x61).drop 1, 2000⟩]
    let m := afterRun {1} 20000000 ts
    let s := SlaveRecv.afterRun 1 20000000 ts
    let frames := (SlaveRecv.burstsOf 1 20000000 ts).flatMap framesIn
    (SameStation {1} 1 m.stats s.stats ∧ m.buf = s.buf ∧ m.stats.filtered = unwanted {1} frames ∧
        (Admits {1} 1 → ((m.stats.byStation 1).getD {}).bytes = stationBytes 1 frames) ∧
        s.stats.bytes = (frames.map List.length).sum) ∧
      ((m.stats.byStation 1).getD {}).frames = 2 ∧ stationBytes 1 frames = 26 ∧
      s.stats.bytes = 39 := by
  intro one ts m s frames
  exact ⟨agrees_afterRun {1} 20000000 ts 1 (by decide), by decide +kernel, by decide +kernel,
    by decide +kernel⟩

end MasterRecv

end Ds10Script

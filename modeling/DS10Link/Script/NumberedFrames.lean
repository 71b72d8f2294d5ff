import DS10Link.File.Sender
import DS10Link.Script.MasterRecv

/-!
# Numbered frames

`ds10_master_send.py`, `ds10_slave_send.py`, `ds10_multi_slave_send.py` and
`ds10_bidir_collision.py` build the same frames: register writes whose data start with the marker
and a number of two bytes, padded to an even length. `ds10_multi_slave_send.py` has a thread for
each slave, which numbers its frames from 0. The receiving scripts cut such a frame off as it was
built, unless a shorter piece of it happens to pass the frame check.

## Main definitions

* `buildFrame`: the frame with a number and a payload
* `Unambiguous`: no shorter piece of the frame passes the frame check
* `GapsBetween`: gaps fall between frames
* `sentBy`, `Delivers`: what a slave sends, and what arrives from all of them

## Main results

* `seqOf_buildFrame`: the number is read back
* `framesIn_wire`: frames end to end are cut into the frames
* `multiSlave_afterRun`: what the master's script says of each slave
-/

open Word

namespace Ds10Script

open Ds10Driver Ds10File

/-- The data of a frame: the marker, the number and the payload, padded to an even length. -/
def numberedData (seq : ℕ) (payload : List UInt8) : List UInt8 :=
  let data := marker ++ [byteOf (seq >>> 8), byteOf seq] ++ payload
  if data.length % 2 ≠ 0 then data ++ [0x00] else data

/-- `build_frame`. -/
def buildFrame (station : UInt8) (seq : ℕ) (payload : List UInt8) : List UInt8 :=
  let body := frameBody station (numberedData seq payload)
  body ++ modbusCrc16 body

/-- No shorter piece of the frame passes the frame check. -/
def Unambiguous (frame : List UInt8) : Prop :=
  ∀ len, minFrame ≤ len → len < frame.length → isHit frame len = false

instance : DecidablePred Unambiguous := fun frame =>
  decidable_of_iff (∀ len < frame.length, minFrame ≤ len → isHit frame len = false)
    ⟨fun h len hmin hlt => h len hlt hmin, fun h len hlt hmin => h len hmin hlt⟩

/-- A frame with its number, its payload and the station in its first byte. -/
structure Numbered where
  station : UInt8
  seq : ℕ
  payload : List UInt8
  deriving DecidableEq, Repr

/-- The bytes of the frame. -/
def Numbered.bytes (f : Numbered) : List UInt8 := buildFrame f.station f.seq f.payload

/-! ## One frame -/

section Frame

variable (station : UInt8) (seq : ℕ) (payload : List UInt8)

theorem length_numberedData :
    (numberedData seq payload).length = 2 * ((payload.length + 5) / 2) := by
  have hlen : (marker ++ [byteOf (seq >>> 8), byteOf seq] ++ payload).length =
      payload.length + 4 := by
    rw [List.length_append, Nat.add_comm]
    rfl
  rw [numberedData]
  by_cases hodd : (marker ++ [byteOf (seq >>> 8), byteOf seq] ++ payload).length % 2 ≠ 0
  · rw [if_pos hodd, List.length_append, hlen, List.length_singleton]
    omega
  · rw [if_neg hodd, hlen]
    omega

theorem length_buildFrame :
    (buildFrame station seq payload).length = 2 * ((payload.length + 5) / 2) + 9 := by
  rw [buildFrame, List.length_append, length_frameBody, length_numberedData, modbusCrc16_eq]
  show _ + 2 = _
  omega

theorem take_buildFrame :
    (buildFrame station seq payload).take ((buildFrame station seq payload).length - 2) =
      frameBody station (numberedData seq payload) := by
  rw [buildFrame]
  rw [List.length_append, modbusCrc16_eq]
  exact List.take_left' rfl

theorem dataRegion_buildFrame :
    dataRegion (buildFrame station seq payload) = numberedData seq payload := by
  have hlen := length_buildFrame station seq payload
  rw [dataRegion, if_pos (by omega), take_buildFrame]
  rfl

/-- **The number is read back**, up to the width of its field. -/
theorem seqOf_buildFrame : seqOf (buildFrame station seq payload) = some (seq % 65536) := by
  have hlen := length_numberedData seq payload
  have hstart : ∃ more, numberedData seq payload =
      0xF1 :: 0xF1 :: byteOf (seq >>> 8) :: byteOf seq :: more := by
    rw [numberedData]
    split_ifs
    · exact ⟨_, rfl⟩
    · exact ⟨_, rfl⟩
  obtain ⟨more, hmore⟩ := hstart
  rw [seqOf, dataRegion_buildFrame]
  rw [if_pos ⟨by rw [hmore]; rfl, by omega⟩, hmore]
  refine congrArg some ?_
  show (byteOf (seq >>> 8)).toNat <<< 8 ||| (byteOf seq).toNat = seq % 65536
  rw [shiftLeft_or, toNat_byteOf, toNat_byteOf, Nat.shiftRight_eq_div_pow]
  omega

/-- The frame passes the frame check. -/
theorem isHit_buildFrame :
    isHit (buildFrame station seq payload) (buildFrame station seq payload).length = true := by
  have hlen : (buildFrame station seq payload).length =
      (frameBody station (numberedData seq payload)).length + 2 := by
    rw [buildFrame, List.length_append, modbusCrc16_eq]
    rfl
  rw [isHit, List.take_length, beq_iff_eq, take_buildFrame, hlen, Nat.add_sub_cancel, buildFrame]
  exact (List.drop_left' rfl).symm

end Frame

theorem trialVerdict_buildFrame {station : UInt8} (hst : IsStation station) (seq : ℕ)
    {payload : List UInt8} (hlen : (buildFrame station seq payload).length ≤ maxFrame)
    (h : Unambiguous (buildFrame station seq payload)) :
    trialVerdict (buildFrame station seq payload) =
      .take (buildFrame station seq payload).length (buildFrame station seq payload) := by
  refine trialVerdict_eq_take.mpr ⟨⟨station, rfl, hst⟩, ?_, List.take_length.symm⟩
  refine trialHit_eq_some.mpr ⟨⟨?_, ?_⟩, isHit_buildFrame station seq payload, h⟩
  · have := length_buildFrame station seq payload
    rw [minFrame]
    omega
  · exact le_min le_rfl hlen

/-! ## Frames end to end -/

/-- The frame is cut off as it was built. -/
structure Numbered.Clean (f : Numbered) : Prop where
  station : IsStation f.station
  length_le : f.bytes.length ≤ maxFrame
  unambiguous : Unambiguous f.bytes

/-- The bytes of frames that follow one another. -/
def wire (fs : List Numbered) : List UInt8 := (fs.map Numbered.bytes).flatten

theorem scan_wire {fs : List Numbered} (h : ∀ f ∈ fs, f.Clean) :
    Piece.outs (trialScanner.scan (wire fs)).1 = fs.map Numbered.bytes ∧
      Piece.drops (trialScanner.scan (wire fs)).1 = 0 ∧ (trialScanner.scan (wire fs)).2 = [] := by
  have htokens : List.Forall₂ (fun w b => trialScanner.verdict w = .take w.length b)
      (fs.map Numbered.bytes) (fs.map Numbered.bytes) := by
    rw [List.forall₂_same]
    intro w hw
    obtain ⟨f, hf, rfl⟩ := List.mem_map.mp hw
    obtain ⟨hst, hlen, hunamb⟩ := h f hf
    exact trialVerdict_buildFrame hst f.seq hlen hunamb
  rw [wire, trialScanner.scan_tokens htokens]
  exact ⟨Piece.outs_zipWith_token rfl, Piece.drops_zipWith_token _ _, rfl⟩

/-- **Frames end to end are cut into the frames.** -/
theorem framesIn_wire {fs : List Numbered} (h : ∀ f ∈ fs, f.Clean) :
    framesIn (wire fs) = fs.map Numbered.bytes :=
  (scan_wire h).1

/-! ## Gaps between frames -/

/-- The time of the last read. -/
def lastRead (ts : List LoopTurn) : Option ℤ :=
  (ts.filter fun t => !t.chunk.isEmpty).getLast?.map LoopTurn.now

/-- A turn that finds no bytes finds whole frames read, or comes less than a gap after the last
read. -/
def GapsBetween (gap : ℤ) (fs : List Numbered) (ts : List LoopTurn) : Prop :=
  ∀ n, (h : n < ts.length) → (ts.get ⟨n, h⟩).chunk = [] →
    (∃ k < fs.length + 1, (ts.take n).flatMap LoopTurn.chunk = wire (fs.take k)) ∨
      ∀ last ∈ lastRead (ts.take n), (ts.get ⟨n, h⟩).now - last < gap

instance (gap : ℤ) (fs : List Numbered) : DecidablePred (GapsBetween gap fs) := fun ts =>
  inferInstanceAs (Decidable (∀ n, (h : n < ts.length) → _ → _))

variable {fs : List Numbered} {ts : List LoopTurn} {gap : ℤ}

theorem lastRead_append_single (ts : List LoopTurn) (t : LoopTurn) :
    lastRead (ts ++ [t]) = if t.chunk = [] then lastRead ts else some t.now := by
  rw [lastRead, List.filter_append]
  by_cases h : t.chunk = []
  · rw [if_pos h]
    simp [h, lastRead]
  · rw [if_neg h]
    simp [h]

theorem GapsBetween.left {us : List LoopTurn} (h : GapsBetween gap fs (ts ++ us)) :
    GapsBetween gap fs ts := by
  intro n hn hchunk
  have hget : (ts ++ us).get ⟨n, by rw [List.length_append]; omega⟩ = ts.get ⟨n, hn⟩ := by
    simp [List.getElem_append_left hn]
  have hturn := h n (by rw [List.length_append]; omega) (by rw [hget]; exact hchunk)
  rwa [hget, List.take_append_of_le_length hn.le] at hturn

theorem GapsBetween.last {t : LoopTurn} (h : GapsBetween gap fs (ts ++ [t]))
    (hchunk : t.chunk = []) :
    (∃ k < fs.length + 1, ts.flatMap LoopTurn.chunk = wire (fs.take k)) ∨
      ∀ last ∈ lastRead ts, t.now - last < gap := by
  have hget : (ts ++ [t]).get ⟨ts.length, by simp⟩ = t := by
    simp
  have hturn := h ts.length (by simp) (by rw [hget]; exact hchunk)
  rwa [hget, List.take_left' rfl] at hturn

/-- **Where gaps fall between frames, no burst is ended**, so all that was read is one burst. -/
theorem past_burstsOf {σ : Type*} {R : Receiver σ} {init : σ} (hclean : ∀ f ∈ fs, f.Clean)
    (hgap : GapsBetween R.gap fs ts) :
    (R.burstsOf init ts).past = [] ∧ (R.afterRun init ts).lastRx = lastRead ts := by
  induction ts using List.reverseRecOn with
  | nil => exact ⟨rfl, rfl⟩
  | append_singleton ts t ih =>
    obtain ⟨hpast, hlast⟩ := ih hgap.left
    rw [Receiver.burstsOf, Automaton.accumulate_append, Receiver.afterRun,
      Automaton.stateAfter_append]
    show (Bursts.extend R (R.burstsOf init ts) (R.afterRun init ts) t).past = [] ∧
      (R.turn (R.afterRun init ts) t).lastRx = lastRead (ts ++ [t])
    by_cases hchunk : t.chunk = []
    -- No gap ends a burst: nothing is held, or the last read was not long ago.
    · have hends : R.endsBurst (R.afterRun init ts) t = false := by
        rcases hgap.last hchunk with ⟨k, -, hbytes⟩ | hsoon
        · -- Whole frames leave nothing in the buffer.
          have hbuf : (R.afterRun init ts).buf = [] := by
            have hfollows := congrArg Prod.snd (R.follows_afterRun init ts)
            have hcurrent : (R.burstsOf init ts).current = wire (fs.take k) := by
              rw [← hbytes, ← R.flatten_burstsOf init ts, Bursts.all, hpast, List.nil_append,
                List.flatten_singleton]
            rw [hcurrent] at hfollows
            rw [show (R.afterRun init ts).buf = _ from hfollows]
            exact (scan_wire fun f hf => hclean f (List.mem_of_mem_take hf)).2.2
          simp [Receiver.endsBurst, hbuf]
        · have hany : (R.afterRun init ts).lastRx.any
              (fun last => decide (R.gap ≤ t.now - last)) = false := by
            rw [hlast, Option.any_eq_false]
            intro last hmem
            have := hsoon last hmem
            simpa using this
          simp [Receiver.endsBurst, hany]
      rw [Bursts.extend, hends, Receiver.turn, if_neg (not_not.mpr hchunk), hends,
        lastRead_append_single, if_pos hchunk]
      exact ⟨hpast, hlast⟩
    · rw [Bursts.extend, Receiver.endsBurst_of_ne hchunk, Receiver.turn, if_pos hchunk,
        lastRead_append_single, if_neg hchunk]
      exact ⟨hpast, rfl⟩

theorem all_burstsOf {σ : Type*} {R : Receiver σ} {init : σ} (hclean : ∀ f ∈ fs, f.Clean)
    (hgap : GapsBetween R.gap fs ts) :
    (R.burstsOf init ts).all = [ts.flatMap LoopTurn.chunk] := by
  have hpast : (R.burstsOf init ts).past = [] := (past_burstsOf hclean hgap).1
  have hflat := R.flatten_burstsOf init ts
  rw [Bursts.all, hpast, List.nil_append, List.flatten_singleton] at hflat
  rw [Bursts.all, hpast, hflat, List.nil_append]

/-! ## Several slaves -/

/-- What the worker of a slave sends: its payloads, numbered from 0. -/
def sentBy (station : UInt8) (payloads : List (List UInt8)) : List Numbered :=
  payloads.mapIdx fun seq payload => ⟨station, seq, payload⟩

/-- The frames of a station, in the order in which they arrived. -/
def arrived (station : UInt8) (fs : List Numbered) : List Numbered :=
  fs.filter fun f => f.station = station

/-- Of what each slave sends some frames arrive, in its order; the slaves' frames mix. -/
def Delivers (payloads : UInt8 → List (List UInt8)) (fs : List Numbered) : Prop :=
  ∀ station, (arrived station fs).Sublist (sentBy station (payloads station))

/-- What is kept for a station accounts for the frames that arrived from it: between the first and
the last of them, those that did not arrive are the lost ones, and none counts as repeated. -/
structure Accounted (got : List Numbered) (entry : Option MasterRecv.StationStat) : Prop where
  isSome_iff : entry.isSome = true ↔ got ≠ []
  frames_eq : (entry.getD {}).frames = got.length
  bytes_eq : (entry.getD {}).bytes = (got.map fun f => f.bytes.length).sum
  reorder_eq : (entry.getD {}).reorder = 0
  missing_eq : (entry.getD {}).missing = (entry.getD {}).lost
  lost_add : ∀ first ∈ got.head?, ∀ last ∈ got.getLast?,
    (entry.getD {}).lost + got.length = last.seq - first.seq + 1

variable {station : UInt8} {payloads : UInt8 → List (List UInt8)}

theorem map_seq_sentBy (station : UInt8) (ps : List (List UInt8)) :
    (sentBy station ps).map Numbered.seq = List.range ps.length := by
  refine List.ext_getElem (by simp [sentBy]) ?_
  intro i _ _
  simp [sentBy]

theorem Delivers.increasing (h : Delivers payloads fs) (station : UInt8) :
    ((arrived station fs).map Numbered.seq).Pairwise (· < ·) := by
  refine List.Pairwise.sublist ((h station).map Numbered.seq) ?_
  rw [map_seq_sentBy]
  exact List.pairwise_lt_range

theorem Delivers.seq_lt (h : Delivers payloads fs) {f : Numbered} (hf : f ∈ arrived station fs) :
    f.seq < (payloads station).length := by
  have hmem := ((h station).map Numbered.seq).subset (List.mem_map_of_mem hf)
  rw [map_seq_sentBy] at hmem
  exact List.mem_range.mp hmem

theorem accepted_wire (hstation : station ≠ 0) (fs : List Numbered) :
    SlaveRecv.accepted station.toNat (fs.map Numbered.bytes) =
      (arrived station fs).map Numbered.bytes := by
  rw [SlaveRecv.accepted, arrived, List.filter_map]
  refine congrArg _ (List.filter_congr ?_)
  intro f _
  rw [Function.comp_apply, decide_eq_decide, MasterRecv.passes_iff hstation]
  rfl

theorem stationBytes_wire (station : UInt8) (fs : List Numbered) :
    MasterRecv.stationBytes station (fs.map Numbered.bytes) =
      ((arrived station fs).map fun f => f.bytes.length).sum := by
  rw [MasterRecv.stationBytes, List.filter_map, List.map_map]
  rfl

theorem numbers_wire (hstation : station ≠ 0)
    (hlt : ∀ f ∈ arrived station fs, f.seq < 65536) :
    SlaveRecv.numbers station.toNat (fs.map Numbered.bytes) =
      (arrived station fs).map Numbered.seq := by
  rw [SlaveRecv.numbers, accepted_wire hstation, List.filterMap_map]
  refine List.filterMap_eq_map_iff_forall_eq_some.mpr ?_
  intro f hf
  rw [Function.comp_apply, Numbered.bytes, seqOf_buildFrame, Nat.mod_eq_of_lt (hlt f hf)]

/-- What is kept for a station whose frames came in order. -/
theorem accounted_of_increasing {got : List Numbered} {entry : Option MasterRecv.StationStat}
    (hinc : (got.map Numbered.seq).Pairwise (· < ·))
    (hsome : entry.isSome = true ↔ 0 < got.length)
    (hframes : (entry.getD {}).frames = got.length)
    (hbytes : (entry.getD {}).bytes = (got.map fun f => f.bytes.length).sum)
    (hseq : (entry.getD {}).toSeqStat = SeqStat.accountAll (got.map Numbered.seq)) :
    Accounted got entry := by
  rcases List.eq_nil_or_concat' got with rfl | ⟨before, last, rfl⟩
  -- Nothing has arrived from the station.
  · refine ⟨by rw [hsome]; simp, hframes, hbytes, ?_, ?_, by simp⟩
    · rw [hseq]
      rfl
    · rw [hseq]
      rfl
  · have hne : before ++ [last] ≠ [] := by simp
    obtain ⟨first, hfirst⟩ : ∃ first, (before ++ [last]).head? = some first :=
      ⟨_, List.head?_eq_some_head hne⟩
    have hhead : ((before ++ [last]).map Numbered.seq).head? = some first.seq := by
      rw [List.head?_map, hfirst]
      rfl
    have hlast : ((before ++ [last]).map Numbered.seq).getLast? = some last.seq := by
      simp
    obtain ⟨hreorder, hlost, hmissing⟩ := accountAll_of_increasing hinc hhead hlast
    refine ⟨?_, hframes, hbytes, by rw [hseq]; exact hreorder, by rw [hseq]; exact hmissing, ?_⟩
    · rw [hsome, List.length_pos_iff]
    · intro f hf l hl
      obtain rfl : first = f := by simpa [hfirst] using hf
      obtain rfl : last = l := by simpa using hl
      rw [hseq, ← hlost, List.length_map]

/-- **What the master's script says of each slave**, however the frames of the slaves mix on the air
and whichever of them are lost: where no gap falls inside a frame, the bytes read are all in frames,
and what is kept for a slave accounts for the frames that arrived from it. -/
theorem multiSlave_afterRun (whitelist : Finset ℤ) (gap : ℤ) (ts : List LoopTurn)
    (payloads : UInt8 → List (List UInt8)) (fs : List Numbered)
    (hsent : Delivers payloads fs) (hclean : ∀ f ∈ fs, f.Clean)
    (hcount : ∀ station, (payloads station).length ≤ 65536)
    (hread : ts.flatMap LoopTurn.chunk = wire fs) (hgap : GapsBetween gap fs ts) :
    let m := MasterRecv.afterRun whitelist gap ts
    (∀ station, station ≠ 0 → MasterRecv.Admits whitelist station →
        Accounted (arrived station fs) (m.stats.byStation station)) ∧
      m.stats.recoveredBytes = 0 ∧ m.buf = [] := by
  intro m
  have hall : ((MasterRecv.script whitelist gap).burstsOf {} ts).all = [wire fs] := by
    rw [all_burstsOf hclean hgap, hread]
  have hframes : [wire fs].flatMap framesIn = fs.map Numbered.bytes := by
    rw [List.flatMap_singleton, framesIn_wire hclean]
  -- The slave's script for a station, on the same port.
  have hslave : ∀ station : UInt8, station ≠ 0 →
      SlaveRecv.Received station.toNat [wire fs] (SlaveRecv.afterRun station.toNat gap ts) ∧
        Receiver.SameLoop (MasterRecv.SameStation whitelist station) m
          (SlaveRecv.afterRun station.toNat gap ts) := by
    intro station hstation
    obtain ⟨hsame, hbursts⟩ := MasterRecv.sameStation_afterRun whitelist gap ts hstation
    refine ⟨?_, hsame⟩
    rw [← hall, hbursts]
    exact SlaveRecv.received_burstsOf station.toNat gap ts
  refine ⟨?_, ?_⟩
  · intro station hstation hadmit
    obtain ⟨hreceived, hsame⟩ := hslave station hstation
    obtain ⟨hsome, hcounted, hseq⟩ := hsame.stats.agrees hadmit
    have hgood := hreceived.good_eq
    have hnumbers := hreceived.seqStat_eq
    rw [hframes, accepted_wire hstation, List.length_map] at hgood
    rw [hframes, numbers_wire hstation fun f hf =>
      (hsent.seq_lt hf).trans_le (hcount station)] at hnumbers
    rw [hgood] at hsome hcounted
    have hbytes := (MasterRecv.counts_afterRun whitelist gap ts station).bytes_eq hadmit
    rw [hall, hframes, stationBytes_wire] at hbytes
    exact accounted_of_increasing (hsent.increasing station) hsome hcounted hbytes
      (hseq.trans hnumbers)
  · -- The bytes in frames are all the bytes.
    obtain ⟨hreceived, hsame⟩ := hslave 1 (by decide)
    have hconserved := hreceived.conserved
    rw [hreceived.bytes_eq, hframes, List.flatten_singleton, wire, List.length_flatten]
      at hconserved
    refine ⟨?_, ?_⟩
    · rw [hsame.stats.recovered_eq]
      omega
    · rw [hsame.buf_eq, ← List.length_eq_zero_iff]
      omega

/-- Two frames of the slave 2 with one of the slave 1 between them, and a gap before the last. -/
theorem multiSlave_afterRun_two :
    let fs : List Numbered := [⟨2, 0, []⟩, ⟨1, 0, []⟩, ⟨2, 1, []⟩]
    let ts : List LoopTurn :=
      [⟨wire [⟨2, 0, []⟩] ++ [1], 0⟩, ⟨(wire [⟨1, 0, []⟩]).drop 1, 1000⟩, ⟨[], 30000000⟩,
        ⟨wire [⟨2, 1, []⟩], 40000000⟩]
    let m := MasterRecv.afterRun ∅ 20000000 ts
    (∀ station, station ≠ 0 → MasterRecv.Admits ∅ station →
        Accounted (arrived station fs) (m.stats.byStation station)) ∧
      m.stats.recoveredBytes = 0 ∧ m.buf = [] := by
  intro fs ts
  let payloads : UInt8 → List (List UInt8) := fun station =>
    if station = 2 then [[], []] else if station = 1 then [[]] else []
  have hread : ts.flatMap LoopTurn.chunk = wire fs := by decide +kernel
  refine multiSlave_afterRun ∅ 20000000 ts payloads fs ?_ ?_ ?_ hread (by decide +kernel)
  · intro station
    by_cases htwo : station = 2
    · subst htwo
      decide +kernel
    · by_cases hone : station = 1
      · subst hone
        decide +kernel
      · have hnone : arrived station fs = [] := by
          simp [arrived, fs, Ne.symm htwo, Ne.symm hone]
        rw [hnone]
        exact List.nil_sublist _
  · intro f hf
    have hone : ∀ g ∈ fs,
        IsStation g.station ∧ g.bytes.length ≤ maxFrame ∧ Unambiguous g.bytes := by
      decide +kernel
    obtain ⟨hst, hlen, hunamb⟩ := hone f hf
    exact ⟨hst, hlen, hunamb⟩
  · intro station
    show (if station = 2 then _ else if station = 1 then _ else _ : List (List UInt8)).length ≤ _
    split_ifs <;> decide

end Ds10Script

import DS10Link.Stream.Automaton
import DS10Link.Script.Channel

/-!
# The round trip of a probe

`ds10_latency_probe.py` writes a probe, a frame with a number of its own, and waits for it to come
back; `ds10_latency_echo.py`, at the other end, writes every frame of its station back as it is. The
two run side by side, with a channel each way between them. A probe that has not come back in time
counts as lost; it may still come back while a later one is waited for.

## Main definitions

* `buildProbe`, `probeIdOf`: a probe, and the number in it
* `EchoLoop.turn`: a turn of the loop of the echo
* `LatencyRun`, `LatencyRun.step`: both scripts, the clock and the channels
* `LatencyRun.Settled`: frames are not cut apart by emptying the port or by a gap

## Main results

* `probeIdOf_buildProbe`: the number is read back
-/

open Automaton

namespace Ds10Script

open Ds10File

/-! ## Probes -/

/-- The text `DS10Test_`, as often as it takes. -/
def fillText (remaining : ℕ) : List UInt8 :=
  let text : List UInt8 := [0x44, 0x53, 0x31, 0x30, 0x54, 0x65, 0x73, 0x74, 0x5F]
  (List.replicate (remaining / text.length + 1) text).flatten.take remaining

/-- `build_text_payload`: the number of a probe, and a text that fills it up to its size. -/
def probePayload (size probeId : ℕ) : List UInt8 :=
  let pid := [byteOf (probeId >>> 24), byteOf (probeId >>> 16), byteOf (probeId >>> 8),
    byteOf probeId]
  pid ++ fillText (size - pid.length)

/-- `build_probe`. -/
def buildProbe (station : UInt8) (probeId size : ℕ) : List UInt8 :=
  let data := marker ++ probePayload size probeId
  let data := if data.length % 2 ≠ 0 then data ++ [0x00] else data
  let body := frameBody station data
  body ++ modbusCrc16 body

/-- `probe_id_of`. -/
def probeIdOf (frame : List UInt8) : Option ℕ :=
  let data := dataRegion frame
  if data.take 2 = marker ∧ 6 ≤ data.length then
    some (((data.drop 2).take 4).foldl (fun v b => 256 * v + b.toNat) 0)
  else none

/-- A probe is a numbered frame, whose number is the upper half of that of the probe. -/
theorem buildProbe_eq (station : UInt8) (probeId size : ℕ) :
    buildProbe station probeId size = buildFrame station (probeId >>> 16)
      (byteOf (probeId >>> 8) :: byteOf probeId :: fillText (size - 4)) := by
  have hshift : (probeId >>> 16) >>> 8 = probeId >>> 24 := (Nat.shiftRight_add _ _ _).symm
  rw [buildFrame, numberedData, hshift]
  rfl

/-- **The number of a probe is read back**, if its field can hold it. -/
theorem probeIdOf_buildProbe (station : UInt8) {probeId : ℕ} (size : ℕ)
    (h : probeId < 4294967296) : probeIdOf (buildProbe station probeId size) = some probeId := by
  have hprobe := buildProbe_eq station probeId size
  generalize fillText (size - 4) = text at hprobe
  have hlen := length_numberedData (probeId >>> 16)
    (byteOf (probeId >>> 8) :: byteOf probeId :: text)
  have hstart : ∃ more, numberedData (probeId >>> 16)
      (byteOf (probeId >>> 8) :: byteOf probeId :: text) =
        0xF1 :: 0xF1 :: byteOf (probeId >>> 16 >>> 8) :: byteOf (probeId >>> 16) ::
          byteOf (probeId >>> 8) :: byteOf probeId :: more := by
    rw [numberedData]
    split_ifs
    · exact ⟨_, rfl⟩
    · exact ⟨_, rfl⟩
  obtain ⟨more, hmore⟩ := hstart
  rw [probeIdOf, hprobe, dataRegion_buildFrame]
  rw [List.length_cons, List.length_cons] at hlen
  rw [if_pos ⟨by rw [hmore]; rfl, by omega⟩, hmore]
  refine congrArg some ?_
  show 256 * (256 * (256 * (256 * 0 + _) + _) + _) + _ = probeId
  simp only [toNat_byteOf, Nat.shiftRight_eq_div_pow]
  omega

/-! ## The echo -/

/-- What the loop of the echo keeps: the bytes not yet cut, and the time of the last read in a
burst. Times are in nanoseconds. -/
structure EchoLoop where
  buf : List UInt8 := []
  lastRx : Option ℕ := none

/-- A turn without bytes ends a burst when something is left of it and the gap has passed. -/
def EchoLoop.endsBurst (gap : ℕ) (s : EchoLoop) (now : ℕ) : Bool :=
  !s.buf.isEmpty && s.lastRx.any fun last => decide (gap ≤ now - last)

/-- A turn of the loop of the echo, and what it writes back. -/
def EchoLoop.turn (station : UInt8) (gap : ℕ) (s : EchoLoop) (chunk : List UInt8) (now : ℕ) :
    EchoLoop × List (List UInt8) :=
  if chunk ≠ [] then
    let r := extractFrames (s.buf ++ chunk)
    ({ buf := r.2, lastRx := some now }, r.1.filter fun frame => frame.getD 0 0 = station)
  else if s.endsBurst gap now then
    -- What is left is thrown away, and what could still be cut with it.
    ({ buf := [], lastRx := none }, [])
  else (s, [])

/-! ## Both scripts -/

/-- The arguments of both scripts; those of the probe are the first four. -/
structure LatencyArgs where
  station : UInt8
  sizes : List ℕ
  rounds : ℕ
  timeout : ℕ
  echoStation : UInt8
  gap : ℕ

/-- The sizes of the probes, in their order. -/
def LatencyArgs.plan (p : LatencyArgs) : List ℕ :=
  p.sizes.flatMap fun size => List.replicate p.rounds size

/-- Where the probe script is: between two probes, at an empty port, about to write, with the time
taken, or reading, with that time and what it holds. -/
inductive ProbeMain where
  | idle
  | ready
  | stamped (t0 : ℕ)
  | reading (t0 : ℕ) (buf : List UInt8)
  deriving DecidableEq, Repr

/-- What happens to probes: one is written, after the time was taken; the echo writes a frame back;
a probe has come back after some time; or it is lost. -/
inductive LatencyEvent where
  | sent (probeId t0 : ℕ)
  | echoed (frame : List UInt8) (time : ℕ)
  | answered (probeId rtt : ℕ)
  | lost (probeId : ℕ)
  deriving DecidableEq, Repr

/-- Both scripts, with what has happened. -/
structure LatencyRun where
  clock : ℕ := 0
  todo : List ℕ
  probeId : ℕ := 0
  size : ℕ := 0
  main : ProbeMain := .idle
  echo : EchoLoop := {}
  down : Channel := {}
  up : Channel := {}
  log : List LatencyEvent := []

namespace LatencyRun

/-- What happens next: time passes, a channel moves, the echo makes a turn, or the probe script
moves or reads, which takes it a while. -/
inductive Action where
  | tick (d : ℕ)
  | down (m : Channel.Move)
  | up (m : Channel.Move)
  | echo (n : ℕ)
  | main
  | read (n d : ℕ)
  deriving DecidableEq, Repr

/-- The probe script moves on: `main` up to the next probe, and `measure_one` up to its loop or,
when the time is up, behind it. -/
def mainStep (p : LatencyArgs) (s : LatencyRun) : LatencyRun :=
  match s.main with
  | .idle =>
    match s.todo with
    | [] => s
    | size :: todo =>
      { s with
        todo := todo
        probeId := s.probeId + 1
        size := size
        main := .ready
        up := s.up.reset }
  | .ready => { s with main := .stamped s.clock }
  | .stamped t0 =>
    { s with
      main := .reading t0 []
      down := s.down.send [buildProbe p.station s.probeId s.size]
      log := s.log ++ [.sent s.probeId t0] }
  | .reading t0 _ =>
    if s.clock < t0 + p.timeout then s
    else { s with main := .idle, log := s.log ++ [.lost s.probeId] }

/-- A turn of the loop of `measure_one` that finds bytes. -/
def readStep (p : LatencyArgs) (s : LatencyRun) (n d : ℕ) : LatencyRun :=
  match s.main with
  | .reading t0 buf =>
    if s.clock < t0 + p.timeout ∧ s.up.chunk n ≠ [] then
      let r := extractFrames (buf ++ s.up.chunk n)
      if r.1.any fun frame => probeIdOf frame = some s.probeId then
        { s with
          clock := s.clock + d
          up := s.up.read n
          main := .idle
          log := s.log ++ [.answered s.probeId (s.clock + d - t0)] }
      else { s with clock := s.clock + d, up := s.up.read n, main := .reading t0 r.2 }
    else s
  | _ => s

/-- A turn of the echo. -/
def echoStep (p : LatencyArgs) (s : LatencyRun) (n : ℕ) : LatencyRun :=
  let r := s.echo.turn p.echoStation p.gap (s.down.chunk n) s.clock
  { s with
    echo := r.1
    down := s.down.read n
    up := s.up.send r.2
    log := s.log ++ r.2.map fun frame => .echoed frame s.clock }

/-- One action. -/
def step (p : LatencyArgs) (s : LatencyRun) : Action → LatencyRun × List Empty
  | .tick d => ({ s with clock := s.clock + d }, [])
  | .down m => ({ s with down := s.down.move m }, [])
  | .up m => ({ s with up := s.up.move m }, [])
  | .echo n => (s.echoStep p n, [])
  | .main => (s.mainStep p, [])
  | .read n d => (s.readStep p n d, [])

/-- Both scripts after a run. -/
def afterRun (p : LatencyArgs) (acts : List Action) : LatencyRun :=
  stateAfter (step p) { todo := p.plan } acts

/-- No frame is cut apart: none is coming in when the probe script empties its port, nor when the
echo finds no bytes a gap after the last ones. -/
def Settled (p : LatencyArgs) (s : LatencyRun) : Action → Prop
  | .main => s.main = .idle → s.up.arriving = []
  | .echo _ => s.down.waiting = [] → s.echo.endsBurst p.gap s.clock = true → s.down.arriving = []
  | _ => True

instance (p : LatencyArgs) (s : LatencyRun) : DecidablePred (Settled p s)
  | .main => inferInstanceAs (Decidable (s.main = .idle → s.up.arriving = []))
  | .echo _ => inferInstanceAs (Decidable (s.down.waiting = [] →
      s.echo.endsBurst p.gap s.clock = true → s.down.arriving = []))
  | .tick _ | .down _ | .up _ | .read _ _ => inferInstanceAs (Decidable True)

end LatencyRun

end Ds10Script

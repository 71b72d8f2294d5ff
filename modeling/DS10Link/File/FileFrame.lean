import Mathlib.Data.PNat.Basic
import DS10Link.Driver.RoundTrip

/-!
# The frames of a file transfer

The scripts `ds10_send_file.py` and `ds10_recv_file.py` carry a file over the link in numbered
frames. Each frame is a register write with a byte that counts its data; the data are a marker, the
number of the chunk, a flag on the last one, the true length of the chunk and the chunk itself,
padded to an even length. The receiver keeps a buffer and cuts frames off its front.

## Main definitions

* `modbusCrc16`: the scripts' frame check
* `buildFrame`, `chunksFrom`, `sentFrames`: the sender
* `extractFrames`: the receiver's `extract_frames`
* `extractReads`: the buffer extended by one read after the other

## Main results

* `modbusCrc16_eq`: the scripts' frame check is the driver's
-/

open Word

namespace Ds10File

open Ds10Driver

/-! ## The frame check -/

/-- One bit of the CRC, in unbounded integers. -/
def modbusCrcBit (crc : ℕ) : ℕ :=
  if crc &&& 1 ≠ 0 then (crc >>> 1) ^^^ 0xA001 else crc >>> 1

/-- One byte of the CRC. -/
def modbusCrcByte (crc : ℕ) (b : UInt8) : ℕ := modbusCrcBit^[8] (crc ^^^ b.toNat)

/-- `value & 0xFF` as a byte. -/
def byteOf (value : ℕ) : UInt8 := UInt8.ofNat (value &&& 0xFF)

/-- `modbus_crc16`, the CRC as two bytes, low byte first. -/
def modbusCrc16 (data : List UInt8) : List UInt8 :=
  let crc := data.foldl modbusCrcByte 0xFFFF
  [byteOf crc, byteOf (crc >>> 8)]

@[simp] theorem toNat_byteOf (value : ℕ) : (byteOf value).toNat = value % 256 := by
  rw [byteOf, UInt8.toNat_ofNat', and_mask, Nat.mod_mod]

theorem modbusCrcBit_toNat (crc : UInt16) : modbusCrcBit crc.toNat = (crcBit crc).toNat := by
  have hbit : crc &&& 1 ≠ 0 ↔ crc.toNat &&& 1 ≠ 0 := by
    rw [Ne, ← UInt16.toNat_inj]
    rfl
  by_cases h : crc.toNat &&& 1 ≠ 0
  · rw [modbusCrcBit, if_pos h, crcBit, if_pos (hbit.mpr h)]
    rfl
  · rw [modbusCrcBit, if_neg h, crcBit, if_neg (mt hbit.mp h)]
    rfl

theorem modbusCrcByte_toNat (crc : UInt16) (b : UInt8) :
    modbusCrcByte crc.toNat b = (crcByte crc b).toNat := by
  have hiterate : ∀ (n : ℕ) (crc : UInt16),
      modbusCrcBit^[n] crc.toNat = (crcBit^[n] crc).toNat := by
    intro n
    induction n with
    | zero => exact fun _ => rfl
    | succ n ih =>
      intro crc
      rw [Function.iterate_succ_apply, Function.iterate_succ_apply, modbusCrcBit_toNat, ih]
  exact hiterate 8 (crc ^^^ b.toUInt16)

/-- **The scripts' frame check is the driver's.** -/
theorem modbusCrc16_eq (data : List UInt8) : modbusCrc16 data = crcBytes (crc16 data) := by
  have hfold : ∀ crc : UInt16,
      data.foldl modbusCrcByte crc.toNat = (data.foldl crcByte crc).toNat := by
    induction data with
    | nil => exact fun _ => rfl
    | cons b data ih =>
      intro crc
      rw [List.foldl_cons, List.foldl_cons, modbusCrcByte_toNat, ih]
  have hcrc : data.foldl modbusCrcByte 0xFFFF = (crc16 data).toNat := hfold 0xFFFF
  have hlo : byteOf (crc16 data).toNat = loByte (crc16 data) := by
    apply UInt8.toNat_inj.mp
    rw [toNat_byteOf, toNat_loByte]
  have hhi : byteOf ((crc16 data).toNat >>> 8) = hiByte (crc16 data) := by
    have hlt := (crc16 data).toNat_lt
    apply UInt8.toNat_inj.mp
    rw [toNat_byteOf, toNat_hiByte, Nat.shiftRight_eq_div_pow]
    omega
  rw [modbusCrc16, hcrc]
  exact congrArg₂ (fun lo hi => [lo, hi]) hlo hhi

/-! ## The sender -/

/-- `MARKER`. -/
def marker : List UInt8 := [0xF1, 0xF1]

/-- The data of a frame, padded to an even length. -/
def frameData (seq : ℕ) (payload : List UInt8) (isLast : Bool) : List UInt8 :=
  let flag : UInt8 := if isLast then 1 else 0
  let data := marker ++ [byteOf (seq >>> 8), byteOf seq, flag, byteOf (payload.length >>> 8),
    byteOf payload.length] ++ payload
  if data.length % 2 ≠ 0 then data ++ [0x00] else data

/-- What the frame check of a frame covers. The number of registers and the number of bytes are
masked to the width of their fields. -/
def frameBody (station : UInt8) (data : List UInt8) : List UInt8 :=
  let qty := data.length / 2 &&& 0xFFFF
  [station, 0x10, 0x00, 0x00, byteOf (qty >>> 8), byteOf qty, byteOf data.length] ++ data

/-- `build_frame`. -/
def buildFrame (station : UInt8) (seq : ℕ) (payload : List UInt8) (isLast : Bool) : List UInt8 :=
  let body := frameBody station (frameData seq payload isLast)
  body ++ modbusCrc16 body

/-- The sender's loop that cuts the content into chunks. -/
def chunksFrom (content : List UInt8) (chunk : ℕ+) (offset : ℕ) : List (List UInt8) :=
  if offset < content.length then
    let stop := min (offset + chunk) content.length
    (content.take stop).drop offset :: chunksFrom content chunk stop
  else []
termination_by content.length - offset
decreasing_by
  have hpos := chunk.pos
  omega

/-- The chunks of a file. -/
def chunksOf (content : List UInt8) (chunk : ℕ+) : List (List UInt8) := chunksFrom content chunk 0

/-- The frames the sender writes, in order. -/
def sentFrames (station : UInt8) (content : List UInt8) (chunk : ℕ+) : List (List UInt8) :=
  let chunks := chunksOf content chunk
  chunks.mapIdx fun seq payload => buildFrame station seq payload (seq == chunks.length - 1)

/-! ## The receiver -/

/-- A frame as `extract_frames` reports it. -/
structure FileFrame where
  station : UInt8
  seq : ℕ
  isLast : Bool
  payload : List UInt8
  deriving DecidableEq, Repr

/-- The exceptions `extract_frames` can raise. -/
inductive PyException where
  | indexError (message : String)
  deriving DecidableEq, Repr

/-- `buf[i]`. -/
def getItem (buf : List UInt8) (i : ℕ) : Except PyException UInt8 :=
  match buf[i]? with
  | some b => .ok b
  | none => .error (.indexError "bytearray index out of range")

/-- `MIN_FRAME`. -/
def minFrame : ℕ := 6

/-- The frame in the data of a register write, unless they are too short or do not start with the
marker. Only the true length of the payload is kept. -/
def frameOf (station : UInt8) : List UInt8 → Option FileFrame
  | m₀ :: m₁ :: seqHi :: seqLo :: flag :: lenHi :: lenLo :: rest =>
    if [m₀, m₁] ≠ marker then none
    else
      some
        { station := station
          seq := seqHi.toNat <<< 8 ||| seqLo.toNat
          isLast := flag ≠ 0
          payload := rest.take (lenHi.toNat <<< 8 ||| lenLo.toNat) }
  | _ => none

/-- The loop of `extract_frames`, with the frames found so far. -/
def extractLoop (frames : List FileFrame) (buf : List UInt8) :
    Except PyException (List FileFrame × List UInt8) :=
  if hmin : minFrame ≤ buf.length then do
    let station ← getItem buf 0
    let function ← getItem buf 1
    if function ≠ 0x10 then extractLoop frames (buf.drop 1)
    else
      -- Nothing has asked for a seventh byte: the guard of the loop lets six pass.
      let count ← getItem buf 6
      let bodyLen := 7 + count.toNat
      -- The rest of the frame is still to come.
      if buf.length < bodyLen + 2 then .ok (frames, buf)
      else
        let frameBytes := buf.take (bodyLen + 2)
        let calculated := modbusCrc16 (frameBytes.take (frameBytes.length - 2))
        let recv := frameBytes.drop (frameBytes.length - 2)
        if calculated ≠ recv then extractLoop frames (buf.drop 1)
        else
          let data := (frameBytes.take bodyLen).drop 7
          -- A sound frame leaves the buffer also where its data are no chunk.
          extractLoop (frames ++ (frameOf station data).toList) (buf.drop (bodyLen + 2))
  else .ok (frames, buf)
termination_by buf.length
decreasing_by all_goals
  rw [minFrame] at hmin
  rw [List.length_drop]
  omega

/-- `extract_frames`. -/
def extractFrames (buf : List UInt8) : Except PyException (List FileFrame × List UInt8) :=
  extractLoop [] buf

/-- The buffer extended by one read after the other, each followed by a call of `extract_frames`:
all frames found, and the buffer left. -/
def extractReads (buf : List UInt8) :
    List (List UInt8) → Except PyException (List FileFrame × List UInt8)
  | [] => .ok ([], buf)
  | read :: reads => do
    let (frames, buf) ← extractFrames (buf ++ read)
    let (later, rest) ← extractReads buf reads
    .ok (frames ++ later, rest)

end Ds10File

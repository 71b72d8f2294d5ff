import Mathlib.Tactic
import DS10Link.Stream.Automaton
import DS10Link.Stream.Word

/-!
# The Modbus frame codec

`ModbusFrameCodec` frames the DS10 transparent link. A frame is a station byte, a function code,
data and the CRC-16/MODBUS of what precedes it, low byte first; it carries no length. The decoder
finds its end by trial: from a legal station byte it accepts the first length at which the CRC
verifies.

## Main definitions

* `crc16`: the CRC-16/MODBUS of a byte string
* `ModbusFrameCodec`: the codec's state, with the cap the constructor clamps
* `ModbusFrameCodec.encode`, `ModbusFrameCodec.feed`, `ModbusFrameCodec.flushPartial`
* `ModbusFrameCodec.Op`, `ModbusFrameCodec.apply`: the calls that change a codec, as the inputs
  of an automaton whose outputs are the decoded frames
-/

open Word

namespace Ds10Driver

/-- Modbus station ids are 1..247; 0 is broadcast and 248..255 are reserved. -/
def kMinStation : UInt8 := 1

def kMaxStation : UInt8 := 247

/-- Station, function code and CRC, with empty data. -/
def kMinFrameLen : ℕ := 4

/-- The cap on a single frame on the wire. -/
def kMaxFrameLen : ℕ := 4095

/-! ## The frame check -/

/-- One bit of the CRC: a shift, and the reflected polynomial when a one falls out. -/
def crcBit (crc : UInt16) : UInt16 :=
  if crc &&& 1 ≠ 0 then (crc >>> 1) ^^^ 0xA001 else crc >>> 1

/-- One byte of the CRC. -/
def crcByte (crc : UInt16) (byte : UInt8) : UInt16 :=
  crcBit^[8] (crc ^^^ byte.toUInt16)

/-- CRC-16/MODBUS: polynomial `0xA001` reflected, initial value `0xFFFF`. -/
def crc16 (data : List UInt8) : UInt16 :=
  data.foldl crcByte 0xFFFF

/-- A CRC as it goes on the wire, low byte first. -/
def crcBytes (crc : UInt16) : List UInt8 :=
  [loByte crc, hiByte crc]

/-- The CRC a candidate of length `flen` carries in its last two bytes. -/
def onWire (f : List UInt8) (flen : ℕ) : UInt16 :=
  wordOf (f.getD (flen - 1) 0) (f.getD (flen - 2) 0)

/-- The candidate of length `flen` at the front of `f` passes the frame check. -/
def crcMatches (f : List UInt8) (flen : ℕ) : Bool :=
  crc16 (f.take (flen - 2)) == onWire f flen

/-! ## Frames and the codec's state -/

/-- One decoded Modbus RTU frame. -/
structure DecodedFrame where
  station : UInt8
  functionCode : UInt8
  data : List UInt8
  deriving DecidableEq, Repr

/-- The frame in the first `flen` bytes of `f`. -/
def decodeCandidate (f : List UInt8) (flen : ℕ) : DecodedFrame where
  station := f.getD 0 0
  functionCode := f.getD 1 0
  data := (f.take (flen - 2)).drop 2

/-- The codec. The cap never falls below the shortest legal frame: the constructor clamps it, and
nothing changes it afterwards. The drop counter counts in `ℕ`, that is, without its 64-bit
wrap. -/
structure ModbusFrameCodec where
  maxFrameLen : ℕ
  buffer : List UInt8
  resyncDropped : ℕ
  minFrameLen_le : kMinFrameLen ≤ maxFrameLen

namespace ModbusFrameCodec

@[ext] theorem ext {c d : ModbusFrameCodec} (h₁ : c.maxFrameLen = d.maxFrameLen)
    (h₂ : c.buffer = d.buffer) (h₃ : c.resyncDropped = d.resyncDropped) : c = d := by
  cases c; cases d; simp_all

/-- The constructor. -/
def new (maxFrameLen : ℕ) : ModbusFrameCodec where
  maxFrameLen := max maxFrameLen kMinFrameLen
  buffer := []
  resyncDropped := 0
  minFrameLen_le := le_max_right _ _

@[simp] theorem new_maxFrameLen (m : ℕ) : (new m).maxFrameLen = max m kMinFrameLen := rfl
@[simp] theorem new_buffer (m : ℕ) : (new m).buffer = [] := rfl
@[simp] theorem new_resyncDropped (m : ℕ) : (new m).resyncDropped = 0 := rfl

/-- The number of bytes held back. -/
def buffered (c : ModbusFrameCodec) : ℕ := c.buffer.length

/-! ## Encoding -/

/-- Build a complete frame, or nothing when it would exceed the cap. -/
def encode (c : ModbusFrameCodec) (station functionCode : UInt8) (data : List UInt8) :
    Option (List UInt8) :=
  if 2 + data.length + 2 > c.maxFrameLen then none
  else
    let frame := station :: functionCode :: data
    some (frame ++ crcBytes (crc16 frame))

/-! ## Decoding -/

/-- The CRC trial: the first candidate length in `4..maxTry` at which the check passes. -/
def crcTrial (f : List UInt8) (maxTry : ℕ) : Option ℕ :=
  (List.range' kMinFrameLen (maxTry + 1 - kMinFrameLen)).find? (crcMatches f)

theorem crcTrial_eq_some {f : List UInt8} {maxTry flen : ℕ} :
    crcTrial f maxTry = some flen ↔
      (kMinFrameLen ≤ flen ∧ flen ≤ maxTry) ∧ crcMatches f flen ∧
        ∀ len, kMinFrameLen ≤ len → len < flen → crcMatches f len = false := by
  rw [crcTrial, List.find?_range'_eq_some]
  simp only [List.mem_range'_1, Bool.not_eq_eq_eq_not, Bool.not_true]
  constructor
  · rintro ⟨h, ⟨h₁, h₂⟩, h₃⟩
    exact ⟨⟨h₁, by omega⟩, h, h₃⟩
  · rintro ⟨⟨h₁, h₂⟩, h, h₃⟩
    exact ⟨h, ⟨h₁, by omega⟩, h₃⟩

theorem crcTrial_eq_none {f : List UInt8} {maxTry : ℕ} :
    crcTrial f maxTry = none ↔
      ∀ len, kMinFrameLen ≤ len → len ≤ maxTry → crcMatches f len = false := by
  rw [crcTrial, List.find?_range'_eq_none]
  simp only [Bool.not_eq_eq_eq_not, Bool.not_true]
  refine forall₂_congr ?_
  intro len hmin
  constructor
  · intro h hmax
    exact h (by omega)
  · intro h hlt
    exact h (by omega)

/-- The scan of `feed` over the buffer: the position it stops at, the drop counter and the frames
found. -/
def feedLoop (maxFrameLen : ℕ) (buffer : List UInt8) (pos dropped : ℕ)
    (frames : List DecodedFrame) : ℕ × ℕ × List DecodedFrame :=
  if h : pos < buffer.length then
    let station := buffer[pos]
    -- Resynchronise: a legal frame can only start on a station byte.
    if station < kMinStation ∨ station > kMaxStation then
      feedLoop maxFrameLen buffer (pos + 1) (dropped + 1) frames
    else
      let f := buffer.drop pos
      match _hf : crcTrial f (min (buffer.length - pos) maxFrameLen) with
      | some flen =>
        feedLoop maxFrameLen buffer (pos + flen) dropped (frames ++ [decodeCandidate f flen])
      | none =>
        -- A remainder shorter than the cap may be a partial frame; otherwise the start is noise.
        if buffer.length - pos < maxFrameLen then (pos, dropped, frames)
        else feedLoop maxFrameLen buffer (pos + 1) (dropped + 1) frames
  else (pos, dropped, frames)
termination_by buffer.length - pos
decreasing_by
  · omega
  · have := (crcTrial_eq_some.mp _hf).1.1
    simp only [kMinFrameLen] at this
    omega
  · omega

/-- Append raw bytes and extract every complete frame currently decodable. -/
def feed (c : ModbusFrameCodec) (bytes : List UInt8) : ModbusFrameCodec × List DecodedFrame :=
  let buffer := c.buffer ++ bytes
  let r := feedLoop c.maxFrameLen buffer 0 c.resyncDropped []
  ({ c with buffer := buffer.drop r.1, resyncDropped := r.2.1 }, r.2.2)

/-- Drop the buffered bytes, counting them as resynchronisation drops. -/
def flushPartial (c : ModbusFrameCodec) : ModbusFrameCodec :=
  { c with buffer := [], resyncDropped := c.resyncDropped + c.buffer.length }

@[simp] theorem flushPartial_maxFrameLen (c : ModbusFrameCodec) :
    c.flushPartial.maxFrameLen = c.maxFrameLen := rfl

@[simp] theorem flushPartial_buffer (c : ModbusFrameCodec) : c.flushPartial.buffer = [] := rfl

@[simp] theorem flushPartial_resyncDropped (c : ModbusFrameCodec) :
    c.flushPartial.resyncDropped = c.resyncDropped + c.buffer.length := rfl

/-! ## Runs -/

/-- The calls that change a codec. -/
inductive Op where
  | feed (bytes : List UInt8)
  | flushPartial
  deriving DecidableEq, Repr

/-- A codec as an automaton: the decoded frames are its outputs. -/
def apply (c : ModbusFrameCodec) : Op → ModbusFrameCodec × List DecodedFrame
  | .feed bytes => c.feed bytes
  | .flushPartial => (c.flushPartial, [])

@[simp] theorem apply_feed (c : ModbusFrameCodec) (s : List UInt8) :
    c.apply (.feed s) = c.feed s := rfl

@[simp] theorem apply_flushPartial (c : ModbusFrameCodec) :
    c.apply .flushPartial = (c.flushPartial, []) := rfl

end ModbusFrameCodec

end Ds10Driver

import DS10Link.Stream.ShiftRegister
import DS10Link.Driver.RoundTrip

/-!
# The frame check as a shift register

The bitwise loop of `crc16` is a register of sixteen bits fed with the bits of the message, each
byte from its lowest bit on. The CRC goes on the wire low byte first, that is, in the order in
which the register holds its bits, so a frame passes the frame check exactly when the register
runs empty over the whole of it.

## Main definitions

* `crcPoly`: the feedback word
* `bits e`: the bits of a byte string, in byte order, lowest bit first

## Main results

* `crc16_toBitVec`: the loop is the register
* `crcMatches_length_iff`: the frame check at full length, as the register running empty
* `crc16_residue`: the frame check as a residue of zero
-/

open Word ShiftRegister

namespace Ds10Driver

/-- The reflected polynomial `x^16 + x^15 + x^2 + 1`. -/
def crcPoly : BitVec 16 := 0xA001

theorem msb_crcPoly : crcPoly.msb = true := rfl

/-- The bits of a byte string, in byte order, lowest bit first. -/
def bits (e : List UInt8) : List Bool := e.flatMap fun b => bitsOf 8 b.toNat

@[simp] theorem bits_nil : bits [] = [] := rfl

@[simp] theorem bits_cons (b : UInt8) (e : List UInt8) :
    bits (b :: e) = bitsOf 8 b.toNat ++ bits e := rfl

@[simp] theorem bits_append (e e' : List UInt8) : bits (e ++ e') = bits e ++ bits e' :=
  List.flatMap_append

theorem length_bits (e : List UInt8) : (bits e).length = 8 * e.length := by
  induction e with
  | nil => rfl
  | cons b e ih =>
    rw [bits_cons, List.length_append, length_bitsOf, ih, List.length_cons]
    omega

/-! ## The loop is the register -/

/-- The mask of the loop reads the lowest bit. -/
theorem and_one_ne_zero_iff (crc : UInt16) : crc &&& 1 ≠ 0 ↔ crc.toBitVec.getLsbD 0 = true := by
  have hmask : (crc &&& 1).toNat = crc.toNat % 2 := Nat.and_one_is_mod crc.toNat
  have hbit : crc.toBitVec.getLsbD 0 = decide (crc.toNat % 2 = 1) := Nat.testBit_zero crc.toNat
  rw [hbit, decide_eq_true_iff, Ne, ← UInt16.toNat_inj, hmask]
  change ¬ crc.toNat % 2 = 0 ↔ _
  omega

theorem crcBit_toBitVec (crc : UInt16) : (crcBit crc).toBitVec = shift crcPoly crc.toBitVec := by
  by_cases h : crc.toBitVec.getLsbD 0 = true
  · rw [crcBit, if_pos ((and_one_ne_zero_iff crc).mpr h), shift, if_pos h]
    rfl
  · rw [crcBit, if_neg (mt (and_one_ne_zero_iff crc).mp h), shift, if_neg h]
    rfl

theorem iterate_crcBit_toBitVec (n : ℕ) (crc : UInt16) :
    (crcBit^[n] crc).toBitVec = (shift crcPoly)^[n] crc.toBitVec := by
  induction n generalizing crc with
  | zero => rfl
  | succ n ih => rw [Function.iterate_succ_apply, Function.iterate_succ_apply, ih, crcBit_toBitVec]

/-- A byte enters the register at once. -/
theorem crcByte_toBitVec (crc : UInt16) (byte : UInt8) :
    (crcByte crc byte).toBitVec = feed crcPoly crc.toBitVec (bitsOf 8 byte.toNat) := by
  have hbyte : byte.toUInt16.toBitVec = BitVec.ofNat 16 byte.toNat := by
    apply BitVec.eq_of_toNat_eq
    simp
  rw [crcByte, iterate_crcBit_toBitVec, UInt16.toBitVec_xor, hbyte,
    feed_bitsOf _ (by decide) byte.toNat_lt]

theorem foldl_crcByte_toBitVec (crc : UInt16) (data : List UInt8) :
    (data.foldl crcByte crc).toBitVec = feed crcPoly crc.toBitVec (bits data) := by
  induction data generalizing crc with
  | nil => rfl
  | cons b data ih => rw [List.foldl_cons, ih, crcByte_toBitVec, bits_cons, feed_append]

/-- **The loop of `crc16` is the register**, started with ones. -/
theorem crc16_toBitVec (data : List UInt8) :
    (crc16 data).toBitVec = feed crcPoly 0xFFFF (bits data) :=
  foldl_crcByte_toBitVec 0xFFFF data

/-! ## The frame check -/

/-- The bytes of a CRC on the wire are its bits. -/
theorem bits_pair (lo hi : UInt8) : bits [lo, hi] = bitsOf 16 (wordOf hi lo).toNat := by
  have happend : bitsOf 8 lo.toNat ++ bitsOf 8 hi.toNat =
      bitsOf (8 + 8) (2 ^ 8 * hi.toNat + lo.toNat) := bitsOf_append lo.toNat_lt
  rw [bits_cons, bits_cons, bits_nil, List.append_nil, happend, toNat_wordOf, mul_comm]
  rfl

/-- **The register runs empty over a frame that passes the frame check**, and over no other. -/
theorem crcMatches_length_iff {f : List UInt8} (h : 2 ≤ f.length) :
    crcMatches f f.length = true ↔ feed crcPoly 0xFFFF (bits f) = 0 := by
  obtain ⟨n, hn⟩ : ∃ n, f.length = n + 2 := ⟨f.length - 2, by omega⟩
  have hf : f = f.take n ++ [f.getD n 0, f.getD (n + 1) 0] := by
    rw [← take_add_two (by omega), ← hn, List.take_length]
  have hclear := feed_bitsOf_eq_zero_iff msb_crcPoly (crc16 (f.take n)).toBitVec
    (wordOf (f.getD (n + 1) 0) (f.getD n 0)).toNat_lt
  rw [hn, crcMatches_add_two]
  conv_rhs => rw [hf, bits_append, feed_append, ← crc16_toBitVec, bits_pair]
  rw [hclear, ← UInt16.toBitVec_inj]
  simp

/-! ## The residue -/

theorem crc16_eq_zero_iff {f : List UInt8} (h : 2 ≤ f.length) :
    crc16 f = 0 ↔ crcMatches f f.length = true := by
  rw [crcMatches_length_iff h, ← crc16_toBitVec, ← UInt16.toBitVec_inj]
  rfl

/-- A byte string that ends in its CRC, low byte first, is one that passes the frame check. -/
theorem drop_eq_crcBytes_iff {f : List UInt8} (h : 2 ≤ f.length) :
    f.drop (f.length - 2) = crcBytes (crc16 (f.take (f.length - 2))) ↔
      crcMatches f f.length = true := by
  rw [crcMatches_iff h le_rfl, List.take_length]
  conv_rhs => lhs; rw [← List.take_append_drop (f.length - 2) f]
  rw [List.append_cancel_left_eq]

/-- Zeros behind a frame leave the register empty. -/
theorem crc16_append_zeros {f : List UInt8} (h : crc16 f = 0) (n : ℕ) :
    crc16 (f ++ List.replicate n 0) = 0 := by
  have hzeros : bits (List.replicate n 0) = List.replicate (8 * n) false := by
    induction n with
    | zero => rfl
    | succ n ih =>
      rw [List.replicate_succ, bits_cons, ih, Nat.mul_succ, Nat.add_comm, List.replicate_add]
      rfl
  rw [← UInt16.toBitVec_inj, crc16_toBitVec, bits_append, feed_append, ← crc16_toBitVec, h, hzeros,
    feed_replicate_false]
  exact iterate_shift_zero _

/-- **The frame check is a residue of zero.** A byte string ends in its CRC, low byte first, if and
only if its own CRC is zero. So two zero bytes behind a frame the decoder accepts make another one,
and the CRC of an encoded frame is zero. -/
theorem crc16_residue :
    (∀ f : List UInt8, 2 ≤ f.length →
      (f.drop (f.length - 2) = crcBytes (crc16 (f.take (f.length - 2))) ↔ crc16 f = 0)) ∧
    (∀ (w : List UInt8) (len : ℕ), 2 ≤ len → len ≤ w.length → crcMatches w len = true →
      crcMatches (w.take len ++ [0, 0]) (len + 2) = true) ∧
    ∀ (c : ModbusFrameCodec) (station functionCode : UInt8) (data f : List UInt8),
      c.encode station functionCode data = some f → crc16 f = 0 := by
  refine ⟨?_, ?_, ?_⟩
  · intro f h
    rw [drop_eq_crcBytes_iff h, crc16_eq_zero_iff h]
  · intro w len h hlen hw
    have htake : (w.take len).length = len := List.length_take_of_le hlen
    have hfront : crcMatches (w.take len) (w.take len).length = true := by
      rw [← crcMatches_append (w.drop len) (by omega) le_rfl, List.take_append_drop, htake]
      exact hw
    have hzero := crc16_append_zeros ((crc16_eq_zero_iff (by omega)).mpr hfront) 2
    rw [crc16_eq_zero_iff (by simp), List.length_append, htake] at hzero
    exact hzero
  · intro c station functionCode data f hf
    have hlen := ModbusFrameCodec.length_of_encode hf
    exact (crc16_eq_zero_iff (by omega)).mpr (ModbusFrameCodec.crcMatches_encode hf)

end Ds10Driver

import DS10Link.Stream.Period
import DS10Link.Driver.Crc

/-!
# Corrupted frames

What an error changes in a frame, it adds to the register of the frame check; a frame leaves the
register empty, so a corrupted frame passes only if the error alone does. The feedback word has an
odd number of ones, so no error with an odd number of ones passes; a burst no longer than the
register does not; and neither do two single errors, since the polynomial has period 32767 and a
frame of up to 4095 bytes has fewer bits.

## Main definitions

* `corrupt f e`: the bytes `f` with the error pattern `e` added
* `Detectable e`: an odd number of wrong bits, two, or a burst of up to sixteen

## Main results

* `iterate_shift_crcPoly_ne`: the period of the polynomial
* `ModbusFrameCodec.corruption_detected`: no detectable error passes the frame check
-/

open ShiftRegister Period

namespace Ds10Driver

/-- The bytes `f` with the error pattern `e` added. -/
def corrupt (f e : List UInt8) : List UInt8 := List.zipWith (· ^^^ ·) f e

/-- The number of wrong bits of an error pattern. -/
def wrongBits (e : List UInt8) : ℕ := (bits e).count true

/-- An error pattern with an odd number of wrong bits, with two, or with all of them within sixteen
consecutive positions. -/
def Detectable (e : List UInt8) : Prop :=
  Odd (wrongBits e) ∨ wrongBits e = 2 ∨
    ∃ start, ∀ i, (bits e)[i]? = some true → start ≤ i ∧ i < start + 16

/-! ## The polynomial -/

theorem parity_crcPoly : parity crcPoly = 1 := by
  decide +kernel

/-- The way round by squaring, along the binary digits of the number of steps. -/
theorem iterate_shift_crcPoly_eq (n : ℕ) (ds : List Bool) (hds : value ds = n) :
    (shift crcPoly)^[n] 1 = combine (powers (shift crcPoly) ds) 1 := by
  rw [← hds, combine_powers shift_xor]

/-- **The period of the polynomial is 32767** = 7 · 31 · 151. -/
theorem iterate_shift_crcPoly_ne {d : ℕ} (hd : 0 < d) (hlt : d < 32767) :
    (shift crcPoly)^[d] 1 ≠ 1 := by
  have hround : (shift crcPoly)^[32767] 1 = 1 := by
    rw [iterate_shift_crcPoly_eq 32767 (List.replicate 15 true) rfl]
    decide +kernel
  have h4681 : (shift crcPoly)^[4681] 1 ≠ 1 := by
    rw [iterate_shift_crcPoly_eq 4681 [true, false, false, true, false, false, true, false, false,
      true, false, false, true] rfl]
    decide +kernel
  have h1057 : (shift crcPoly)^[1057] 1 ≠ 1 := by
    rw [iterate_shift_crcPoly_eq 1057 [true, false, false, false, false, true, false, false, false,
      false, true] rfl]
    decide +kernel
  have h217 : (shift crcPoly)^[217] 1 ≠ 1 := by
    rw [iterate_shift_crcPoly_eq 217 [true, false, false, true, true, false, true, true] rfl]
    decide +kernel
  refine iterate_ne_of_lt hround ?_ hd hlt
  intro q hq hdvd
  have hfactor : 32767 = 7 * 31 * 151 := by norm_num
  have hdvd_iff : ∀ p, p.Prime → (q ∣ p ↔ q = p) := fun p hp => Nat.prime_dvd_prime_iff_eq hq hp
  rw [hfactor, hq.dvd_mul, hq.dvd_mul, hdvd_iff 7 (by norm_num), hdvd_iff 31 (by norm_num),
    hdvd_iff 151 (by norm_num)] at hdvd
  obtain (rfl | rfl) | rfl := hdvd
  · exact h4681
  · exact h1057
  · exact h217

/-! ## Errors add up -/

theorem bits_corrupt {f e : List UInt8} (h : f.length = e.length) :
    bits (corrupt f e) = List.zipWith xor (bits f) (bits e) := by
  induction f generalizing e with
  | nil =>
    rw [List.eq_nil_of_length_eq_zero h.symm]
    rfl
  | cons b f ih =>
    rcases e with _ | ⟨a, e⟩
    · cases h
    · rw [bits_cons, bits_cons, List.zipWith_append (by rw [length_bitsOf, length_bitsOf]),
        ← ih (Nat.succ.inj h), ← bitsOf_xor, ← UInt8.toNat_xor]
      rfl

/-- An error that the register does not take from zero to zero is noticed. -/
theorem crcMatches_corrupt {f e : List UInt8} (h₂ : 2 ≤ f.length) (hlen : e.length = f.length)
    (hf : crcMatches f f.length = true) (he : feed crcPoly 0 (bits e) ≠ 0) :
    crcMatches (corrupt f e) f.length = false := by
  have hcorrupt : (corrupt f e).length = f.length := by
    rw [corrupt, List.length_zipWith, hlen, min_self]
  have hbits : (bits f).length = (bits e).length := by rw [length_bits, length_bits, hlen]
  -- The intact frame leaves the register empty, so the error is all that is left in it.
  have hadd : feed crcPoly 0xFFFF (bits (corrupt f e)) = feed crcPoly 0 (bits e) := by
    rw [bits_corrupt hlen.symm]
    have h := feed_xor crcPoly 0xFFFF 0 hbits
    rw [(crcMatches_length_iff h₂).mp hf] at h
    exact h.trans BitVec.zero_xor
  rw [← hcorrupt, Bool.eq_false_iff, Ne, crcMatches_length_iff (by omega), hadd]
  exact he

/-- A byte that is not zero has a one. -/
theorem true_mem_bits {e : List UInt8} (h : ∃ b ∈ e, b ≠ 0) : true ∈ bits e := by
  obtain ⟨b, hb, hne⟩ := h
  exact List.mem_flatMap.mpr ⟨b, hb, true_mem_bitsOf b.toNat_lt (UInt8.toNat_inj.ne.mpr hne)⟩

namespace ModbusFrameCodec

/-- **Corruption is detected**: an encoded frame of at most 4095 bytes with a detectable error added
does not pass the frame check at its length. -/
theorem corruption_detected (c : ModbusFrameCodec) (station functionCode : UInt8)
    (data f e : List UInt8) (hf : c.encode station functionCode data = some f)
    (hmax : f.length ≤ 4095) (hlen : e.length = f.length) (hne : ∃ b ∈ e, b ≠ 0)
    (he : Detectable e) : crcMatches (corrupt f e) f.length = false := by
  have hfour := length_of_encode hf
  refine crcMatches_corrupt (by omega) hlen (crcMatches_encode hf) ?_
  obtain hodd | htwo | ⟨start, hwindow⟩ := he
  · exact feed_ne_zero_of_odd (by decide) parity_crcPoly hodd
  · -- Two errors lie less than the period apart.
    refine feed_ne_zero_of_two msb_crcPoly ?_ htwo
    intro d hd hlt
    rw [length_bits] at hlt
    exact iterate_shift_crcPoly_ne hd (by omega)
  · exact feed_ne_zero_of_window msb_crcPoly start hwindow (true_mem_bits hne)

/-- Two wrong bits in `01 03 00 07 B0 1A`, one of them in the CRC. -/
theorem corruption_detected_two :
    crcMatches (corrupt [0x01, 0x03, 0x00, 0x07, 0xB0, 0x1A] [0, 1, 0, 0, 0x80, 0]) 6 = false :=
  corruption_detected (new 4095) 0x01 0x03 [0x00, 0x07] _ _ (by decide +kernel) (by decide) rfl
    ⟨1, by decide, by decide⟩ (.inr (.inl (by decide)))

end ModbusFrameCodec

end Ds10Driver

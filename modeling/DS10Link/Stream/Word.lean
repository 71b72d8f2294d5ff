import Mathlib.Tactic

/-!
# Sixteen-bit words as two bytes

A word and its two bytes determine each other, whichever order the bytes travel in.

## Main definitions

* `wordOf hi lo`, `hiByte w`, `loByte w`

## Main results

* `wordOf_bytes`, `hiByte_wordOf`, `loByte_wordOf`: splitting and joining undo each other
* `ofNat_inj_of_lt`: within one turn a wrapping number is still a number
-/

namespace Word

/-- The word with the given bytes, `(hi << 8) | lo`. -/
def wordOf (hi lo : UInt8) : UInt16 := (hi.toUInt16 <<< 8) ||| lo.toUInt16

/-- The high byte of a word, `(w >> 8) & 0xFF`. -/
def hiByte (w : UInt16) : UInt8 := ((w >>> 8) &&& 0xFF).toUInt8

/-- The low byte of a word, `w & 0xFF`. -/
def loByte (w : UInt16) : UInt8 := (w &&& 0xFF).toUInt8

/-- A mask of a byte's width keeps the low byte. -/
theorem and_mask (n : ℕ) : n &&& 255 = n % 256 := Nat.and_two_pow_sub_one_eq_mod n 8

/-- A shifted byte and a byte do not overlap. -/
theorem shiftLeft_or (hi lo : UInt8) : hi.toNat <<< 8 ||| lo.toNat = hi.toNat * 256 + lo.toNat := by
  rw [← Nat.shiftLeft_add_eq_or_of_lt lo.toNat_lt hi.toNat, Nat.shiftLeft_eq]

theorem toNat_wordOf (hi lo : UInt8) : (wordOf hi lo).toNat = hi.toNat * 256 + lo.toNat := by
  have hhi := hi.toNat_lt
  have hor := shiftLeft_or hi lo
  have hfit : hi.toNat * 256 % 65536 = hi.toNat * 256 := by omega
  rw [Nat.shiftLeft_eq] at hor
  simpa [wordOf, Nat.shiftLeft_eq, hfit] using hor

theorem toNat_hiByte (w : UInt16) : (hiByte w).toNat = w.toNat / 256 := by
  have hw := w.toNat_lt
  have h : (hiByte w).toNat = (w.toNat >>> 8 &&& 255) % 256 := rfl
  rw [h, and_mask, Nat.shiftRight_eq_div_pow]
  omega

theorem toNat_loByte (w : UInt16) : (loByte w).toNat = w.toNat % 256 := by
  have h : (loByte w).toNat = (w.toNat &&& 255) % 256 := rfl
  rw [h, and_mask]
  omega

@[simp] theorem wordOf_bytes (w : UInt16) : wordOf (hiByte w) (loByte w) = w := by
  apply UInt16.toNat_inj.mp
  rw [toNat_wordOf, toNat_hiByte, toNat_loByte]
  omega

@[simp] theorem hiByte_wordOf (hi lo : UInt8) : hiByte (wordOf hi lo) = hi := by
  have := lo.toNat_lt
  apply UInt8.toNat_inj.mp
  rw [toNat_hiByte, toNat_wordOf]
  omega

@[simp] theorem loByte_wordOf (hi lo : UInt8) : loByte (wordOf hi lo) = lo := by
  have := lo.toNat_lt
  apply UInt8.toNat_inj.mp
  rw [toNat_loByte, toNat_wordOf]
  omega

/-- A number that wraps still tells apart what lies within one turn of it. -/
theorem ofNat_inj_of_lt {a b : ℕ} (h : UInt16.ofNat a = UInt16.ofNat b) (hle : a ≤ b)
    (hlt : b < a + 65536) : a = b := by
  have h' := congrArg UInt16.toNat h
  rw [UInt16.toNat_ofNat', UInt16.toNat_ofNat'] at h'
  omega

end Word

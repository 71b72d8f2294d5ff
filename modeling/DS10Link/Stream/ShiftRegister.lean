import Mathlib.Tactic
import Mathlib.Data.ZMod.Basic

/-!
# Feedback shift registers

A register of `w` bits is fed bit by bit: the incoming bit is added to the lowest one, the register
moves down a place, and the feedback word is added when a one falls out. Addition is exclusive or,
so the register is linear in what it is fed: what an error adds to its final state depends on the
error alone. A register that ends at zero for intact data therefore detects every error that it
does not itself take from zero to zero.

## Main definitions

* `ShiftRegister.shift poly c`: one place down, with feedback
* `ShiftRegister.feed poly c bits`: the register fed with `bits`
* `ShiftRegister.bitsOf n v`: the lowest `n` bits of a number, lowest first
* `ShiftRegister.parity c`: the number of ones of a word, modulo two

## Main results

* `feed_xor`: linearity
* `feed_bitsOf`: feeding a word at once
* `feed_bitsOf_eq_zero_iff`: a register is cleared by its own content and by nothing else
* `feed_ne_zero_of_burst`, `feed_ne_zero_of_odd`, `feed_ne_zero_of_two`: errors that are detected
-/

namespace ShiftRegister

variable {w : ℕ}

/-- One place down; the feedback word is added when a one falls out. -/
def shift (poly c : BitVec w) : BitVec w :=
  if c.getLsbD 0 then (c >>> 1) ^^^ poly else c >>> 1

/-- A bit in the lowest place. -/
def lowBit (b : Bool) : BitVec w := if b then 1 else 0

/-- The register fed with `bits`, the first one first. -/
def feed (poly c : BitVec w) (bits : List Bool) : BitVec w :=
  bits.foldl (fun c b => shift poly (c ^^^ lowBit b)) c

/-- The lowest `n` bits of a number, lowest first. -/
def bitsOf (n v : ℕ) : List Bool := (List.range n).map v.testBit

variable {poly : BitVec w}

/-! ## One place -/

theorem shift_eq (poly c : BitVec w) :
    shift poly c = (c >>> 1) ^^^ (if c.getLsbD 0 then poly else 0) := by
  unfold shift
  split <;> simp

@[simp] theorem shift_zero : shift poly 0 = 0 := by
  simp [shift]

theorem shift_xor (a b : BitVec w) : shift poly (a ^^^ b) = shift poly a ^^^ shift poly b := by
  rw [shift_eq, shift_eq, shift_eq, BitVec.getLsbD_xor, BitVec.ushiftRight_xor_distrib]
  -- The feedback words of the two add up to the one of the sum.
  have hfeedback : (if (a.getLsbD 0 ^^ b.getLsbD 0) = true then poly else 0) =
      (if a.getLsbD 0 = true then poly else 0) ^^^ (if b.getLsbD 0 = true then poly else 0) := by
    cases a.getLsbD 0 <;> cases b.getLsbD 0 <;> simp
  rw [hfeedback]
  ac_rfl

theorem iterate_shift_zero (n : ℕ) : (shift poly)^[n] 0 = 0 :=
  Function.iterate_fixed shift_zero n

theorem shift_eq_zero (hpoly : poly.msb = true) {c : BitVec w} (h : shift poly c = 0) : c = 0 := by
  unfold shift at h
  split at h
  · -- The feedback word sets the highest bit, which the move has cleared.
    have hmsb := congrArg BitVec.msb h
    rw [BitVec.msb_xor, BitVec.msb_ushiftRight] at hmsb
    simp [hpoly] at hmsb
  · rename_i hlow
    refine BitVec.eq_of_getLsbD_eq ?_
    rintro (_ | i) _
    · simpa using hlow
    · have hbit := congrArg (fun v => v.getLsbD i) h
      simpa [Nat.add_comm] using hbit

theorem iterate_shift_eq_zero (hpoly : poly.msb = true) {n : ℕ} {c : BitVec w}
    (h : (shift poly)^[n] c = 0) : c = 0 := by
  induction n with
  | zero => exact h
  | succ n ih =>
    rw [Function.iterate_succ_apply'] at h
    exact ih (shift_eq_zero hpoly h)

theorem getLsbD_ofNat_two_mul (u : ℕ) : (BitVec.ofNat w (2 * u)).getLsbD 0 = false := by
  rw [BitVec.getLsbD_ofNat, Nat.testBit_zero]
  simp

/-- An even word only moves. -/
theorem shift_ofNat_two_mul (poly : BitVec w) {u : ℕ} (hu : 2 * u < 2 ^ w) :
    shift poly (BitVec.ofNat w (2 * u)) = BitVec.ofNat w u := by
  rw [shift, getLsbD_ofNat_two_mul, if_neg Bool.false_ne_true]
  apply BitVec.eq_of_toNat_eq
  rw [BitVec.toNat_ushiftRight, BitVec.toNat_ofNat, BitVec.toNat_ofNat, Nat.mod_eq_of_lt hu,
    Nat.mod_eq_of_lt (by omega), Nat.shiftRight_eq_div_pow]
  omega

/-! ## Feeding -/

@[simp] theorem feed_nil (c : BitVec w) : feed poly c [] = c := rfl

@[simp] theorem feed_cons (c : BitVec w) (b : Bool) (bits : List Bool) :
    feed poly c (b :: bits) = feed poly (shift poly (c ^^^ lowBit b)) bits := rfl

@[simp] theorem feed_append (c : BitVec w) (bits bits' : List Bool) :
    feed poly c (bits ++ bits') = feed poly (feed poly c bits) bits' :=
  List.foldl_append

/-- Zeros only move the register. -/
theorem feed_replicate_false (c : BitVec w) (n : ℕ) :
    feed poly c (List.replicate n false) = (shift poly)^[n] c := by
  induction n generalizing c with
  | zero => rfl
  | succ n ih =>
    rw [List.replicate_succ, feed_cons, ih, Function.iterate_succ_apply]
    simp [lowBit]

theorem lowBit_xor (a b : Bool) : (lowBit (a ^^ b) : BitVec w) = lowBit a ^^^ lowBit b := by
  cases a <;> cases b <;> simp [lowBit]

/-- **Linearity**: a register fed with a sum is the sum of the registers fed with the parts. -/
theorem feed_xor (poly c d : BitVec w) {bits bits' : List Bool} (h : bits.length = bits'.length) :
    feed poly (c ^^^ d) (List.zipWith xor bits bits') =
      feed poly c bits ^^^ feed poly d bits' := by
  induction bits generalizing c d bits' with
  | nil =>
    rw [List.eq_nil_of_length_eq_zero h.symm]
    rfl
  | cons b bits ih =>
    rcases bits' with _ | ⟨b', bits'⟩
    · cases h
    · have hstep : shift poly (c ^^^ d ^^^ lowBit (b ^^ b')) =
          shift poly (c ^^^ lowBit b) ^^^ shift poly (d ^^^ lowBit b') := by
        rw [← shift_xor, lowBit_xor]
        ac_rfl
      rw [List.zipWith_cons_cons, feed_cons, hstep, ih _ _ (Nat.succ.inj h)]
      rfl

theorem length_bitsOf (n v : ℕ) : (bitsOf n v).length = n := by
  simp [bitsOf]

theorem bitsOf_succ (n v : ℕ) : bitsOf (n + 1) v = v.testBit 0 :: bitsOf n (v / 2) := by
  simp [bitsOf, List.range_succ_eq_map, Function.comp_def, Nat.testBit_succ]

theorem bitsOf_xor (n a b : ℕ) :
    bitsOf n (a ^^^ b) = List.zipWith xor (bitsOf n a) (bitsOf n b) := by
  simp [bitsOf, List.zipWith_map, Nat.testBit_xor]

theorem true_mem_bitsOf {n v : ℕ} (hv : v < 2 ^ n) (hne : v ≠ 0) : true ∈ bitsOf n v := by
  obtain ⟨i, hi⟩ := Nat.exists_testBit_of_ne_zero hne
  have hlt : i < n := by
    by_contra hge
    have hfit : v < 2 ^ i := hv.trans_le (Nat.pow_le_pow_right (by omega) (not_lt.mp hge))
    rw [Nat.testBit_lt_two_pow hfit] at hi
    cases hi
  exact List.mem_map.mpr ⟨i, List.mem_range.mpr hlt, hi⟩

/-- Two words, the lower one first, are one word. -/
theorem bitsOf_append {m n a b : ℕ} (ha : a < 2 ^ m) :
    bitsOf m a ++ bitsOf n b = bitsOf (m + n) (2 ^ m * b + a) := by
  refine List.ext_getElem (by simp [bitsOf]) ?_
  intro i _ _
  simp only [bitsOf, List.getElem_append, List.length_map, List.length_range, List.getElem_map,
    List.getElem_range, Nat.testBit_two_pow_mul_add b ha]
  split <;> rfl

/-- A number is its lowest bit and the rest. -/
theorem lowBit_xor_ofNat (v : ℕ) :
    (lowBit (v.testBit 0) ^^^ BitVec.ofNat w (2 * (v / 2)) : BitVec w) = BitVec.ofNat w v := by
  refine BitVec.eq_of_getLsbD_eq ?_
  rintro (_ | i) hi
  · rw [BitVec.getLsbD_xor, getLsbD_ofNat_two_mul, BitVec.getLsbD_ofNat]
    cases v.testBit 0 <;> simp [lowBit, hi]
  · have hhigh : (lowBit (v.testBit 0) : BitVec w).getLsbD (i + 1) = false := by
      cases v.testBit 0 <;> simp [lowBit]
    rw [BitVec.getLsbD_xor, hhigh, BitVec.getLsbD_ofNat, BitVec.getLsbD_ofNat, Nat.testBit_succ,
      Nat.testBit_succ]
    simp

/-- **A word can be fed at once**: added to the register, which then moves as many places. -/
theorem feed_bitsOf (c : BitVec w) {n v : ℕ} (hn : n ≤ w) (hv : v < 2 ^ n) :
    feed poly c (bitsOf n v) = (shift poly)^[n] (c ^^^ BitVec.ofNat w v) := by
  induction n generalizing c v with
  | zero =>
    obtain rfl : v = 0 := by simpa using hv
    simp [bitsOf]
  | succ n ih =>
    -- The lowest bit is fed now; the others arrive one place further down.
    have hfit : 2 * (v / 2) < 2 ^ w := by
      have := Nat.pow_le_pow_right (by omega : 0 < 2) hn
      omega
    have hv' : v / 2 < 2 ^ n := by
      rw [Nat.pow_succ] at hv
      omega
    have hstep : shift poly (c ^^^ BitVec.ofNat w v) =
        shift poly (c ^^^ lowBit (v.testBit 0)) ^^^ BitVec.ofNat w (v / 2) := by
      rw [← shift_ofNat_two_mul poly hfit, ← shift_xor, BitVec.xor_assoc,
        lowBit_xor_ofNat]
    rw [bitsOf_succ, feed_cons, ih _ (by omega) hv', ← hstep, Function.iterate_succ_apply]

/-- **A register is cleared by its own content** and by no other word. -/
theorem feed_bitsOf_eq_zero_iff (hpoly : poly.msb = true) (c : BitVec w) {v : ℕ}
    (hv : v < 2 ^ w) : feed poly c (bitsOf w v) = 0 ↔ c = BitVec.ofNat w v := by
  rw [feed_bitsOf c le_rfl hv]
  constructor
  · intro h
    exact BitVec.xor_eq_zero_iff.mp (iterate_shift_eq_zero hpoly h)
  · rintro rfl
    rw [BitVec.xor_self]
    exact iterate_shift_zero w

/-! ## Detected errors -/

/-- Every string of bits is that of a number. -/
theorem exists_bitsOf (bits : List Bool) :
    ∃ v, v < 2 ^ bits.length ∧ bits = bitsOf bits.length v := by
  refine ⟨Nat.ofBits fun i : Fin bits.length => bits[i], Nat.ofBits_lt_two_pow _, ?_⟩
  refine List.ext_getElem (length_bitsOf _ _).symm ?_
  intro i hi _
  simp [bitsOf, Nat.testBit_ofBits_lt _ i hi]

/-- **A burst no longer than the register is detected.** -/
theorem feed_ne_zero_of_burst (hpoly : poly.msb = true) {bits : List Bool} (a b : ℕ)
    (hlen : bits.length ≤ w) (hbits : true ∈ bits) :
    feed poly 0 (List.replicate a false ++ bits ++ List.replicate b false) ≠ 0 := by
  obtain ⟨v, hv, hbitsOf⟩ := exists_bitsOf bits
  have hload : (0 : BitVec w) ^^^ BitVec.ofNat w v = BitVec.ofNat w v := BitVec.zero_xor
  intro h
  rw [feed_append, feed_append, feed_replicate_false, feed_replicate_false, iterate_shift_zero,
    hbitsOf, feed_bitsOf 0 hlen hv, hload] at h
  -- The register only moves after the burst, so the burst as a word is zero.
  have hzero := iterate_shift_eq_zero hpoly (iterate_shift_eq_zero hpoly h)
  have hv0 : v = 0 := by
    have htoNat := congrArg BitVec.toNat hzero
    have hfit := Nat.pow_le_pow_right (by omega : 0 < 2) hlen
    rw [BitVec.toNat_ofNat, Nat.mod_eq_of_lt (by omega)] at htoNat
    simpa using htoNat
  rw [hbitsOf, hv0] at hbits
  simp [bitsOf] at hbits

theorem eq_replicate_false {bits : List Bool} (h : true ∉ bits) :
    bits = List.replicate bits.length false := by
  refine List.eq_replicate_of_mem ?_
  intro b hb
  cases b with
  | false => rfl
  | true => exact absurd hb h

/-- A burst within `w` consecutive positions is detected. -/
theorem feed_ne_zero_of_window (hpoly : poly.msb = true) {bits : List Bool} (start : ℕ)
    (hwindow : ∀ i, bits[i]? = some true → start ≤ i ∧ i < start + w) (hbits : true ∈ bits) :
    feed poly 0 bits ≠ 0 := by
  -- Outside the window there are zeros only.
  have hbefore : true ∉ bits.take start := by
    intro h
    obtain ⟨i, hi⟩ := List.mem_iff_getElem?.mp h
    rw [List.getElem?_take] at hi
    split at hi
    · exact absurd (hwindow i hi).1 (by omega)
    · cases hi
  have hafter : true ∉ bits.drop (start + w) := by
    intro h
    obtain ⟨i, hi⟩ := List.mem_iff_getElem?.mp h
    rw [List.getElem?_drop] at hi
    exact absurd (hwindow _ hi).2 (by omega)
  have hcut : bits = bits.take start ++ (bits.drop start).take w ++ bits.drop (start + w) := by
    rw [List.append_assoc, ← List.drop_drop, List.take_append_drop, List.take_append_drop]
  rw [eq_replicate_false hbefore, eq_replicate_false hafter] at hcut
  have hmid : true ∈ (bits.drop start).take w := by
    rw [hcut] at hbits
    simpa using hbits
  rw [hcut]
  exact feed_ne_zero_of_burst hpoly _ _ (List.length_take_le _ _) hmid

/-- The number of ones of a word, modulo two. -/
def parity (c : BitVec w) : ZMod 2 :=
  ∑ i ∈ Finset.range w, if c.getLsbD i then 1 else 0

theorem parity_zero : parity (0 : BitVec w) = 0 := by
  simp [parity]

theorem parity_xor (a b : BitVec w) : parity (a ^^^ b) = parity a + parity b := by
  rw [parity, parity, parity, ← Finset.sum_add_distrib]
  refine Finset.sum_congr rfl ?_
  intro i _
  rw [BitVec.getLsbD_xor]
  cases a.getLsbD i <;> cases b.getLsbD i <;> decide

/-- The ones of a word are those that stay when it moves and the one that falls out. -/
theorem parity_ushiftRight (c : BitVec w) :
    parity c = parity (c >>> 1) + if c.getLsbD 0 then (1 : ZMod 2) else 0 := by
  have hmoved : parity (c >>> 1) =
      ∑ i ∈ Finset.range w, if c.getLsbD (i + 1) then (1 : ZMod 2) else 0 := by
    refine Finset.sum_congr rfl ?_
    intro i _
    rw [BitVec.getLsbD_ushiftRight, Nat.add_comm]
  -- The place above the highest one is empty.
  have htop : c.getLsbD w = false := BitVec.getLsbD_of_ge c w le_rfl
  rw [hmoved, ← Finset.sum_range_succ' (fun i => if c.getLsbD i then (1 : ZMod 2) else 0),
    Finset.sum_range_succ, htop]
  simp [parity]

/-- A feedback word with an odd number of ones makes up for the one that falls out. -/
theorem parity_shift (hodd : parity poly = 1) (c : BitVec w) :
    parity (shift poly c) = parity c := by
  rw [shift_eq, parity_xor, parity_ushiftRight c]
  split
  · rw [hodd]
  · rw [parity_zero]

theorem parity_lowBit (hw : 0 < w) (b : Bool) :
    parity (lowBit b : BitVec w) = if b then 1 else 0 := by
  obtain ⟨w, rfl⟩ := Nat.exists_eq_add_of_lt hw
  cases b <;> simp [parity, lowBit]

/-- The register keeps the parity of what it is fed. -/
theorem parity_feed (hw : 0 < w) (hodd : parity poly = 1) (c : BitVec w) (bits : List Bool) :
    parity (feed poly c bits) = parity c + (bits.count true : ℕ) := by
  induction bits generalizing c with
  | nil => simp
  | cons b bits ih =>
    rw [feed_cons, ih, parity_shift hodd, parity_xor, parity_lowBit hw, List.count_cons, add_assoc]
    cases b <;> simp [add_comm]

/-- **An odd number of errors is detected**, by a feedback word with an odd number of ones. -/
theorem feed_ne_zero_of_odd (hw : 0 < w) (hodd : parity poly = 1) {bits : List Bool}
    (hbits : Odd (bits.count true)) : feed poly 0 bits ≠ 0 := by
  intro h
  have hparity := parity_feed hw hodd 0 bits
  rw [h, parity_zero, zero_add] at hparity
  exact absurd hparity.symm ((ZMod.natCast_ne_zero_iff_odd).mpr hbits)

/-- The first one of a string of bits that has any. -/
theorem exists_first_one {bits : List Bool} {n : ℕ} (h : bits.count true = n + 1) :
    ∃ a rest, bits = List.replicate a false ++ true :: rest ∧ rest.count true = n := by
  induction bits with
  | nil => cases h
  | cons b bits ih =>
    cases b with
    | true => exact ⟨0, bits, rfl, by simpa using h⟩
    | false =>
      obtain ⟨a, rest, rfl, hrest⟩ := ih (by simpa using h)
      exact ⟨a + 1, rest, rfl, hrest⟩

/-- **Two errors are detected** while the word `1` does not return within the length of what is
fed. -/
theorem feed_ne_zero_of_two (hpoly : poly.msb = true) {bits : List Bool}
    (hperiod : ∀ d, 0 < d → d < bits.length → (shift poly)^[d] 1 ≠ 1)
    (hbits : bits.count true = 2) : feed poly 0 bits ≠ 0 := by
  obtain ⟨a, rest, rfl, hrest⟩ := exists_first_one hbits
  obtain ⟨d, rest, rfl, hnone⟩ := exists_first_one hrest
  obtain ⟨b, rfl⟩ : ∃ b, rest = List.replicate b false :=
    ⟨rest.length, eq_replicate_false (List.count_eq_zero.mp hnone)⟩
  intro h
  have hload : (0 : BitVec w) ^^^ lowBit true = 1 := BitVec.zero_xor
  rw [feed_append, feed_replicate_false, iterate_shift_zero, feed_cons, hload, feed_append,
    feed_replicate_false, feed_cons, feed_replicate_false] at h
  -- The register is cleared only if the first one has come round when the second arrives.
  have hmeet := shift_eq_zero hpoly (iterate_shift_eq_zero hpoly h)
  have hround : (shift poly)^[d] (shift poly 1) = 1 := BitVec.xor_eq_zero_iff.mp hmeet
  refine hperiod (d + 1) (Nat.succ_pos d) ?_ hround
  simp
  omega

end ShiftRegister

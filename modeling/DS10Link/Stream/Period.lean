import Mathlib.Tactic
import Mathlib.Dynamics.PeriodicPts.Defs

/-!
# Periods of linear maps on words

The period of a point under iteration is settled at its divisors: it is `n` when the point comes
back after `n` steps and not after `n / q`, for any prime `q`. For a map on words that is linear
over exclusive or, the long way round need not be walked: the map is determined by its values on
the words with a single one, and these can be squared.

## Main definitions

* `Period.basis w`: the words with a single one
* `Period.combine vs c`: the linear map with the values `vs` on the basis, at `c`
* `Period.powers f bits`: the values on the basis of `f` iterated as often as the binary number
  `bits` says

## Main results

* `Period.iterate_ne_of_lt`: no return before the period
* `Period.combine_powers`: iteration by squaring
-/

namespace Period

open Function

/-- **No return before the period**: a point that comes back after `n` steps, and not after `n / q`
for any prime divisor `q`, does not come back earlier. -/
theorem iterate_ne_of_lt {α : Type*} {f : α → α} {x : α} {n : ℕ} (hn : f^[n] x = x)
    (hdiv : ∀ q, q.Prime → q ∣ n → f^[n / q] x ≠ x) {d : ℕ} (hd : 0 < d) (hlt : d < n) :
    f^[d] x ≠ x := by
  intro hback
  -- The period divides `n` properly, so it divides `n` over some prime.
  have hdvd : minimalPeriod f x ∣ n := IsPeriodicPt.minimalPeriod_dvd hn
  have hle : minimalPeriod f x ≤ d := IsPeriodicPt.minimalPeriod_le hd hback
  obtain ⟨k, hk⟩ := hdvd
  have hk1 : k ≠ 1 := by
    rintro rfl
    omega
  obtain ⟨q, hq, m, rfl⟩ := Nat.exists_prime_and_dvd hk1
  have hn' : n = q * (minimalPeriod f x * m) := by
    rw [hk]
    ring
  refine hdiv q hq ⟨_, hn'⟩ ?_
  rw [hn', Nat.mul_div_cancel_left _ hq.pos]
  exact (isPeriodicPt_minimalPeriod f x).mul_const m

variable {w : ℕ}

/-- The words with a single one, lowest first. -/
def basis (w : ℕ) : List (BitVec w) := (List.range' 0 w).map (BitVec.twoPow w)

/-- The linear map with the values `vs` on the basis, at `c`. -/
def combine : List (BitVec w) → BitVec w → BitVec w
  | [], _ => 0
  | v :: vs, c => (if c.getLsbD 0 then v else 0) ^^^ combine vs (c >>> 1)

/-- The number with the binary digits `bits`, lowest first. -/
def value (bits : List Bool) : ℕ := bits.foldr Nat.bit 0

/-- The values on the basis of `f` iterated `value bits` times. -/
def powers (f : BitVec w → BitVec w) : List Bool → List (BitVec w)
  | [] => basis w
  | b :: bits =>
    let half := powers f bits
    let full := half.map (combine half)
    if b then full.map f else full

theorem getLsbD_combine_basis (k n : ℕ) (c : BitVec w) (j : ℕ) :
    (combine ((List.range' k n).map (BitVec.twoPow w)) c).getLsbD j =
      (decide (k ≤ j ∧ j < k + n ∧ j < w) && c.getLsbD (j - k)) := by
  induction n generalizing k c with
  | zero =>
    rw [decide_eq_false (by omega), Bool.false_and]
    exact BitVec.getLsbD_zero
  | succ n ih =>
    -- The place `k` is set by the first of the words, the others by the rest.
    have hfirst : (if c.getLsbD 0 then BitVec.twoPow w k else 0).getLsbD j =
        (decide (k = j ∧ j < w) && c.getLsbD 0) := by
      by_cases hkj : k = j <;> cases c.getLsbD 0 <;> simp [hkj, BitVec.getLsbD_twoPow]
    rw [List.range'_succ, List.map_cons, combine, BitVec.getLsbD_xor, ih, hfirst,
      BitVec.getLsbD_ushiftRight]
    by_cases hkj : k = j
    · subst hkj
      simp
    · have hplace : k + 1 ≤ j → 1 + (j - (k + 1)) = j - k := by omega
      by_cases hk : k + 1 ≤ j
      · rw [hplace hk]
        simp [hkj, hk, Nat.le_of_succ_le hk, Nat.add_right_comm k 1 n, Nat.add_assoc]
      · have hk' : ¬ k ≤ j := by omega
        simp [hkj, hk, hk']

/-- A word is the sum of its ones. -/
theorem combine_basis (c : BitVec w) : combine (basis w) c = c := by
  refine BitVec.eq_of_getLsbD_eq ?_
  intro j hj
  rw [basis, getLsbD_combine_basis]
  simp [hj]

section Linear

variable {f : BitVec w → BitVec w} (hf : ∀ a b, f (a ^^^ b) = f a ^^^ f b)

include hf

theorem map_zero_of_linear : f 0 = 0 := by
  have h := hf 0 0
  rwa [BitVec.xor_self, BitVec.xor_self] at h

theorem combine_map (vs : List (BitVec w)) (c : BitVec w) :
    combine (vs.map f) c = f (combine vs c) := by
  induction vs generalizing c with
  | nil => exact (map_zero_of_linear hf).symm
  | cons v vs ih =>
    rw [List.map_cons, combine, combine, ih, hf]
    split
    · rfl
    · rw [map_zero_of_linear hf]

/-- A linear map is determined by its values on the basis. -/
theorem combine_map_basis (c : BitVec w) : combine ((basis w).map f) c = f c := by
  rw [combine_map hf, combine_basis]

theorem iterate_linear (n : ℕ) (a b : BitVec w) : f^[n] (a ^^^ b) = f^[n] a ^^^ f^[n] b := by
  induction n generalizing a b with
  | zero => rfl
  | succ n ih => rw [iterate_succ_apply, hf, ih]; rfl

theorem powers_eq (bits : List Bool) : powers f bits = (basis w).map f^[value bits] := by
  induction bits with
  | nil => exact (List.map_id _).symm
  | cons b bits ih =>
    -- Squaring maps the values of half the steps by as many steps again.
    have hfull : (powers f bits).map (combine (powers f bits)) =
        (basis w).map f^[2 * value bits] := by
      rw [ih, List.map_map]
      refine List.map_congr_left ?_
      intro c _
      rw [comp_apply, combine_map_basis (iterate_linear hf _), two_mul, iterate_add_apply]
    cases b with
    | false => exact hfull
    | true =>
      refine (congrArg (List.map f) hfull).trans ?_
      rw [List.map_map, ← iterate_succ']
      rfl

/-- **Iteration by squaring.** -/
theorem combine_powers (bits : List Bool) (c : BitVec w) :
    combine (powers f bits) c = f^[value bits] c := by
  rw [powers_eq hf, combine_map_basis (iterate_linear hf _)]

end Linear

end Period

import Mathlib.Tactic

/-!
# Accounting for numbered frames

The receiving scripts keep the highest number seen so far, a count of the numbers that were skipped
when a higher one came, and a count of the numbers that came again. When they end they print a
second figure for the loss: the numbers missing between the lowest and the highest seen. The two
figures differ by the frames that came late, less the numbers below the first one.

## Main definitions

* `SeqStat`, `SeqStat.account`: what a script keeps of the numbers, and one more number
* `SeqStat.missing`: the loss as printed at the end
* `late seqs`: how many new numbers came behind a higher one

## Main results

* `accounts_accountAll`: every number is accounted for
* `lost_add_eq`: the two figures for the loss
* `accountAll_of_increasing`: where the order is kept, both count what was skipped
-/

namespace Ds10Script

/-- What a receiving script keeps of the numbers of the frames. -/
structure SeqStat where
  lastSeq : Option ℕ := none
  lost : ℕ := 0
  reorder : ℕ := 0
  seen : Finset ℕ := ∅
  deriving DecidableEq

namespace SeqStat

/-- The accounting of `_handle_frame` for a numbered frame. -/
def account (s : SeqStat) (seq : ℕ) : SeqStat :=
  let s := if seq ∈ s.seen then { s with reorder := s.reorder + 1 } else s
  let s := { s with seen := insert seq s.seen }
  match s.lastSeq with
  | none => { s with lastSeq := some seq }
  | some last =>
    let s := if seq > last + 1 then { s with lost := s.lost + (seq - last - 1) } else s
    if seq > last then { s with lastSeq := some seq } else s

/-- The accounting for one numbered frame after the other. -/
def accountAll (seqs : List ℕ) : SeqStat := seqs.foldl account {}

/-- `min(seen)`. -/
def lowest (s : SeqStat) : ℕ := if h : s.seen.Nonempty then s.seen.min' h else 0

/-- `max(seen)`. -/
def highest (s : SeqStat) : ℕ := if h : s.seen.Nonempty then s.seen.max' h else 0

/-- The numbers missing between the lowest and the highest seen, as printed at the end when there
are any. -/
def missing (s : SeqStat) : ℕ :=
  if s.seen.Nonempty then s.highest - s.lowest + 1 - s.seen.card else 0

/-! ## What one number does -/

variable {s : SeqStat} {seq last : ℕ}

theorem account_of_seen (h : seq ∈ s.seen) (hlast : s.lastSeq = some last) (hle : seq ≤ last) :
    s.account seq = { s with reorder := s.reorder + 1 } := by
  have hnext : ¬ seq > last + 1 := by omega
  have hnot : ¬ seq > last := by omega
  simp only [account, if_pos h, hlast, if_neg hnext, if_neg hnot, Finset.insert_eq_of_mem h]

theorem account_of_first (h : seq ∉ s.seen) (hlast : s.lastSeq = none) :
    s.account seq = { s with lastSeq := some seq, seen := insert seq s.seen } := by
  simp only [account, if_neg h, hlast]

theorem account_of_higher (h : seq ∉ s.seen) (hlast : s.lastSeq = some last) (hlt : last < seq) :
    s.account seq =
      { s with
        lastSeq := some seq
        lost := s.lost + (seq - last - 1)
        seen := insert seq s.seen } := by
  by_cases hnext : seq > last + 1
  · simp only [account, if_neg h, hlast, if_pos hnext, if_pos hlt]
  · have hzero : seq - last - 1 = 0 := by omega
    simp only [account, if_neg h, hlast, if_neg hnext, if_pos hlt, hzero, Nat.add_zero]

theorem account_of_lower (h : seq ∉ s.seen) (hlast : s.lastSeq = some last) (hlt : seq < last) :
    s.account seq = { s with seen := insert seq s.seen } := by
  have hnext : ¬ seq > last + 1 := by omega
  have hnot : ¬ seq > last := by omega
  simp only [account, if_neg h, hlast, if_neg hnext, if_neg hnot]

end SeqStat

/-! ## What a sequence of numbers does -/

/-- How many of the numbers are new and come behind a higher one, with `past` before them. -/
def lateAfter (past : List ℕ) : List ℕ → ℕ
  | [] => 0
  | seq :: seqs =>
    (if seq ∉ past ∧ ∃ x ∈ past, seq < x then 1 else 0) + lateAfter (past ++ [seq]) seqs

/-- How many of the numbers are new and come behind a higher one. -/
def late (seqs : List ℕ) : ℕ := lateAfter [] seqs

theorem lateAfter_append (past seqs : List ℕ) (seq : ℕ) :
    lateAfter past (seqs ++ [seq]) =
      lateAfter past seqs +
        if seq ∉ past ++ seqs ∧ ∃ x ∈ past ++ seqs, seq < x then 1 else 0 := by
  induction seqs generalizing past with
  | nil => simp [lateAfter]
  | cons x seqs ih =>
    rw [List.cons_append, lateAfter, ih, lateAfter, List.append_assoc, List.singleton_append,
      Nat.add_assoc]

theorem late_append (seqs : List ℕ) (seq : ℕ) :
    late (seqs ++ [seq]) = late seqs + if seq ∉ seqs ∧ ∃ x ∈ seqs, seq < x then 1 else 0 :=
  lateAfter_append [] seqs seq

/-- The highest of the numbers, if there is one. -/
def IsHighest (seqs : List ℕ) : Option ℕ → Prop
  | none => seqs = []
  | some last => last ∈ seqs ∧ ∀ x ∈ seqs, x ≤ last

open SeqStat

/-- Every number is accounted for: those that came again, the highest one, and the numbers from the
first to the highest, which were seen or skipped, less those seen later. -/
structure Accounts (seqs : List ℕ) (s : SeqStat) : Prop where
  seen_eq : s.seen = seqs.toFinset
  reorder_add : s.reorder + s.seen.card = seqs.length
  isHighest : IsHighest seqs s.lastSeq
  lost_nil : seqs = [] → s.lost = 0
  lost_add : ∀ first ∈ seqs.head?, ∀ last ∈ s.lastSeq, first ≤ last ∧
    s.lost + s.seen.card = last - first + 1 + late seqs

theorem Accounts.account {seqs : List ℕ} {s : SeqStat} (h : Accounts seqs s) (seq : ℕ) :
    Accounts (seqs ++ [seq]) (s.account seq) := by
  obtain ⟨hseen, hreorder, hhigh, hzero, hlost⟩ := h
  have hmem : seq ∈ s.seen ↔ seq ∈ seqs := by rw [hseen, List.mem_toFinset]
  have hfin : (seqs ++ [seq]).toFinset = insert seq s.seen := by
    rw [hseen, List.toFinset_append, List.toFinset_cons, List.toFinset_nil, insert_empty_eq,
      Finset.union_comm]
    rfl
  have hlen : (seqs ++ [seq]).length = seqs.length + 1 := List.length_append
  cases hlast : s.lastSeq with
  | none =>
    -- The first number.
    rw [hlast] at hhigh
    obtain rfl : seqs = [] := hhigh
    have hnil : s.seen = ∅ := by simp [hseen]
    have hnew : seq ∉ s.seen := by simp [hnil]
    rw [account_of_first hnew hlast]
    have hone : (insert seq s.seen).card = 1 := by simp [hnil]
    refine ⟨hfin.symm, ?_, ⟨by simp, by simp⟩, by simp, ?_⟩
    · dsimp only
      rw [hone, hlen, ← hreorder, hnil, Finset.card_empty]
    · intro first hf last hl
      obtain rfl : seq = first := by simpa using hf
      obtain rfl : seq = last := by simpa using hl
      refine ⟨le_rfl, ?_⟩
      dsimp only
      rw [hone, hzero rfl, late_append, if_neg (by simp), Nat.sub_self]
      rfl
  | some last =>
    rw [hlast] at hhigh
    obtain ⟨hin, hmax⟩ := hhigh
    obtain ⟨first, rest, rfl⟩ := List.exists_cons_of_ne_nil (List.ne_nil_of_mem hin)
    obtain ⟨hfirst, hbalance⟩ := hlost first rfl last hlast
    have hfirst' : ∀ f ∈ (first :: rest ++ [seq]).head?, f = first := by simp
    by_cases hold : seq ∈ s.seen
    · -- The number came again.
      have hle : seq ≤ last := hmax seq (hmem.mp hold)
      rw [account_of_seen hold hlast hle]
      refine ⟨?_, by dsimp only; omega, ?_, by simp, ?_⟩
      · rw [hfin, Finset.insert_eq_of_mem hold]
      · rw [hlast]
        refine ⟨List.mem_append_left _ hin, ?_⟩
        intro x hx
        rcases List.mem_append.mp hx with hx | hx
        · exact hmax x hx
        · rw [List.mem_singleton.mp hx]
          exact hle
      · intro f hf l hl
        rw [hfirst' f hf]
        obtain rfl : last = l := by simpa [hlast] using hl
        refine ⟨hfirst, ?_⟩
        rw [late_append, if_neg (fun hlate => hlate.1 (hmem.mp hold)), Nat.add_zero]
        exact hbalance
    · have hcard : (insert seq s.seen).card = s.seen.card + 1 := Finset.card_insert_of_notMem hold
      have hnot : seq ∉ first :: rest := mt hmem.mpr hold
      have hne : seq ≠ last := by
        rintro rfl
        exact hnot hin
      rcases Nat.lt_or_gt_of_ne hne with hlt | hgt
      · -- A new number behind a higher one.
        rw [account_of_lower hold hlast hlt]
        refine ⟨hfin.symm, by dsimp only; omega, ?_, by simp, ?_⟩
        · rw [hlast]
          refine ⟨List.mem_append_left _ hin, ?_⟩
          intro x hx
          rcases List.mem_append.mp hx with hx | hx
          · exact hmax x hx
          · rw [List.mem_singleton.mp hx]
            exact hlt.le
        · intro f hf l hl
          rw [hfirst' f hf]
          obtain rfl : last = l := by simpa [hlast] using hl
          refine ⟨hfirst, ?_⟩
          dsimp only
          rw [hcard, late_append, if_pos ⟨hnot, last, hin, hlt⟩]
          omega
      · -- A number beyond the highest one; those between were skipped.
        rw [account_of_higher hold hlast hgt]
        refine ⟨hfin.symm, by dsimp only; omega, ?_, by simp, ?_⟩
        · refine ⟨by simp, ?_⟩
          intro x hx
          rcases List.mem_append.mp hx with hx | hx
          · exact (hmax x hx).trans hgt.le
          · exact (List.mem_singleton.mp hx).le
        · intro f hf l hl
          rw [hfirst' f hf]
          obtain rfl : seq = l := by simpa using hl
          have hnever : ¬ ∃ x ∈ first :: rest, seq < x := by
            rintro ⟨x, hx, hlt⟩
            exact absurd (hmax x hx) (by omega)
          refine ⟨by omega, ?_⟩
          dsimp only
          rw [hcard, late_append, if_neg (fun hlate => hnever hlate.2)]
          omega

/-- **Every number is accounted for.** -/
theorem accounts_accountAll (seqs : List ℕ) : Accounts seqs (accountAll seqs) := by
  induction seqs using List.reverseRecOn with
  | nil => exact ⟨rfl, rfl, rfl, fun _ => rfl, by simp⟩
  | append_singleton seqs seq ih =>
    rw [accountAll, List.foldl_append]
    exact ih.account seq

/-! ## The two figures for the loss -/

section Figures

variable {s : SeqStat} {seqs : List ℕ}

theorem Accounts.highest_eq {last : ℕ} (h : Accounts seqs s) (hlast : s.lastSeq = some last) :
    s.highest = last := by
  have hhigh := h.isHighest
  rw [hlast] at hhigh
  have hgreatest : IsGreatest (s.seen : Set ℕ) last := by
    refine ⟨?_, ?_⟩
    · simpa [h.seen_eq] using hhigh.1
    · intro x hx
      exact hhigh.2 x (by simpa [h.seen_eq] using hx)
  have hne : s.seen.Nonempty := ⟨last, hgreatest.1⟩
  rw [SeqStat.highest, dif_pos hne]
  exact (Finset.isGreatest_max' _ hne).unique hgreatest

theorem SeqStat.lowest_le {x : ℕ} (h : x ∈ s.seen) : s.lowest ≤ x := by
  rw [SeqStat.lowest, dif_pos ⟨x, h⟩]
  exact Finset.min'_le _ x h

theorem SeqStat.le_highest {x : ℕ} (h : x ∈ s.seen) : x ≤ s.highest := by
  rw [SeqStat.highest, dif_pos ⟨x, h⟩]
  exact Finset.le_max' _ x h

/-- What was seen lies between the lowest and the highest. -/
theorem SeqStat.card_seen_le (s : SeqStat) : s.seen.card ≤ s.highest - s.lowest + 1 := by
  have hsub : s.seen ⊆ Finset.Icc s.lowest s.highest := by
    intro x hx
    exact Finset.mem_Icc.mpr ⟨SeqStat.lowest_le hx, SeqStat.le_highest hx⟩
  have hcard := Finset.card_le_card hsub
  rw [Nat.card_Icc] at hcard
  omega

/-- **The two figures for the loss**: the running count and the numbers missing at the end differ by
the frames that came late, less the numbers below the first one. -/
theorem lost_add_eq (seqs : List ℕ) :
    let s := accountAll seqs
    s.lost + (seqs.headD s.lowest - s.lowest) = s.missing + late seqs ∧
      s.reorder + s.seen.card = seqs.length := by
  intro s
  have h := accounts_accountAll seqs
  refine ⟨?_, h.reorder_add⟩
  rcases seqs with _ | ⟨first, rest⟩
  · simp [s, accountAll, SeqStat.missing, SeqStat.lowest, late, lateAfter]
  · have hin : first ∈ s.seen := by
      rw [h.seen_eq]
      simp
    cases hlast : s.lastSeq with
    | none =>
      have hhigh := h.isHighest
      rw [hlast] at hhigh
      cases hhigh
    | some last =>
      obtain ⟨hle, hbalance⟩ := h.lost_add first rfl last hlast
      have hhigh : s.highest = last := h.highest_eq hlast
      have hlow := SeqStat.lowest_le hin
      have hcard := s.card_seen_le
      change s.lost + s.seen.card = _ at hbalance
      rw [SeqStat.missing, if_pos ⟨first, hin⟩, List.headD_cons]
      omega

theorem late_of_increasing (h : seqs.Pairwise (· < ·)) : late seqs = 0 := by
  induction seqs using List.reverseRecOn with
  | nil => rfl
  | append_singleton seqs seq ih =>
    obtain ⟨hbefore, -, hlt⟩ := List.pairwise_append.mp h
    rw [late_append, ih hbefore, if_neg]
    rintro ⟨-, x, hx, hgt⟩
    have := hlt x hx seq (List.mem_singleton_self seq)
    omega

/-- **Where the order is kept** nothing counts as a repetition, and both figures are the numbers
that were skipped between the first and the last. -/
theorem accountAll_of_increasing {first last : ℕ} (hinc : seqs.Pairwise (· < ·))
    (hfirst : seqs.head? = some first) (hlast : seqs.getLast? = some last) :
    (accountAll seqs).reorder = 0 ∧ (accountAll seqs).lost + seqs.length = last - first + 1 ∧
      (accountAll seqs).missing = (accountAll seqs).lost := by
  obtain ⟨rest, rfl⟩ : ∃ rest, seqs = first :: rest := by
    rcases seqs with _ | ⟨x, rest⟩
    · cases hfirst
    · obtain rfl : x = first := by simpa using hfirst
      exact ⟨rest, rfl⟩
  have h := accounts_accountAll (first :: rest)
  obtain ⟨hfigures, hreorder⟩ := lost_add_eq (first :: rest)
  have hcard : (accountAll (first :: rest)).seen.card = (first :: rest).length := by
    rw [h.seen_eq, List.toFinset_card_of_nodup (hinc.imp Nat.ne_of_lt)]
  have hlate := late_of_increasing hinc
  -- The first number is the lowest one, the last number the highest.
  have hle : ∀ x ∈ first :: rest, first ≤ x ∧ x ≤ last := by
    intro x hx
    refine ⟨?_, ?_⟩
    · rcases List.mem_cons.mp hx with rfl | hx
      · exact le_rfl
      · exact ((List.pairwise_cons.mp hinc).1 x hx).le
    · obtain ⟨front, hfront⟩ := List.getLast?_eq_some_iff.mp hlast
      rw [hfront] at hx hinc
      rcases List.mem_append.mp hx with hx | hx
      · exact ((List.pairwise_append.mp hinc).2.2 x hx last (List.mem_singleton_self last)).le
      · exact (List.mem_singleton.mp hx).le
  have hlastSeq : (accountAll (first :: rest)).lastSeq = some last := by
    have hhigh := h.isHighest
    cases hs : (accountAll (first :: rest)).lastSeq with
    | none =>
      rw [hs] at hhigh
      cases hhigh
    | some l =>
      rw [hs] at hhigh
      have hmem : last ∈ first :: rest := List.mem_of_getLast? hlast
      rw [Nat.le_antisymm (hle l hhigh.1).2 (hhigh.2 last hmem)]
  have hlowest : (accountAll (first :: rest)).lowest = first := by
    have hin : first ∈ (accountAll (first :: rest)).seen := by simp [h.seen_eq]
    refine Nat.le_antisymm (SeqStat.lowest_le hin) ?_
    rw [SeqStat.lowest, dif_pos ⟨first, hin⟩]
    refine Finset.le_min' _ _ _ ?_
    intro x hx
    rw [h.seen_eq, List.mem_toFinset] at hx
    exact (hle x hx).1
  obtain ⟨-, hbalance⟩ := h.lost_add first rfl last hlastSeq
  rw [hlowest, hlate, List.headD_cons] at hfigures
  rw [hcard, hlate] at hbalance
  refine ⟨by omega, hbalance, by omega⟩

end Figures

end Ds10Script

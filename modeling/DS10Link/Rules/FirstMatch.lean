import Mathlib.Data.List.Basic
import Mathlib.Data.List.Enum

/-!
# Ordered rules

Of an ordered list of rules the first one that matches a subject is selected. A rule that an
earlier one covers, that is, that matches nothing the earlier one does not match, is never
selected, and can be taken out of the list along with any others of its kind.

## Main definitions

* `FirstMatch.select m rules b`: the first of the rules that matches `b`
* `FirstMatch.index m rules b`: its position
* `FirstMatch.Covers m r r'`, `FirstMatch.Shadowed m rules j`: a rule makes another superfluous
* `FirstMatch.without removed rules`: the rules that are left

## Main results

* `FirstMatch.exists_index_iff`: a rule is selected for something unless it is shadowed
* `FirstMatch.select_without`: shadowed rules can be removed, all at once
-/

universe u v

namespace FirstMatch

variable {ρ : Type u} {β : Type v} (m : ρ → β → Bool)

/-- The first of the rules that matches. -/
def select (rules : List ρ) (b : β) : Option ρ := rules.find? (m · b)

/-- The position of the first rule that matches. -/
def index (rules : List ρ) (b : β) : Option ℕ := rules.findIdx? (m · b)

/-- The rule `r` matches whatever `r'` matches. -/
def Covers (r r' : ρ) : Prop := ∀ b, m r' b = true → m r b = true

/-- An earlier rule covers the rule at `j`. -/
def Shadowed (rules : List ρ) (j : ℕ) : Prop :=
  ∃ i < j, ∃ r ∈ rules[i]?, ∃ r' ∈ rules[j]?, Covers m r r'

/-- The rules at the positions that are not removed. -/
def without (removed : ℕ → Bool) (rules : List ρ) : List ρ :=
  (rules.zipIdx.filter fun e => !removed e.2).map Prod.fst

variable {m} {rules : List ρ} {b : β} {j : ℕ}

/-- The rule selected is the one at the position selected. -/
theorem select_eq_bind_index (rules : List ρ) (b : β) :
    select m rules b = (index m rules b).bind (rules[·]?) := by
  induction rules with
  | nil => rfl
  | cons r rules ih =>
    cases hr : m r b with
    | true => simp [select, index, List.findIdx?_cons, hr]
    | false =>
      rw [select, index, List.find?_cons, List.findIdx?_cons, hr, if_neg Bool.false_ne_true,
        Option.bind_map]
      exact ih

theorem index_eq_some :
    index m rules b = some j ↔
      ∃ r ∈ rules[j]?, m r b = true ∧ ∀ i < j, ∀ r' ∈ rules[i]?, m r' b = false := by
  rw [index, List.findIdx?_eq_some_iff_getElem]
  constructor
  · rintro ⟨hj, hm, hfirst⟩
    refine ⟨rules[j], List.getElem?_eq_getElem hj, hm, ?_⟩
    intro i hi r' hr'
    obtain ⟨hlt, rfl⟩ := List.getElem?_eq_some_iff.mp hr'
    simpa using hfirst i hi
  · rintro ⟨r, hr, hm, hfirst⟩
    obtain ⟨hj, rfl⟩ := List.getElem?_eq_some_iff.mp hr
    refine ⟨hj, hm, ?_⟩
    intro i hi
    simpa using hfirst i hi _ (List.getElem?_eq_getElem (Nat.lt_trans hi hj))

/-- A rule that is selected is not shadowed. -/
theorem not_shadowed_of_index (h : index m rules b = some j) : ¬ Shadowed m rules j := by
  rintro ⟨i, hi, r, hr, r', hr', hcov⟩
  obtain ⟨s, hs, hm, hfirst⟩ := index_eq_some.mp h
  obtain rfl : r' = s := Option.some.inj (hr'.symm.trans hs)
  -- What the rule matches, the earlier one matches first.
  have hearlier := hcov b hm
  rw [hfirst i hi r hr] at hearlier
  cases hearlier

/-- **A rule is selected for something unless it is shadowed**, where each rule matches a subject
that only rules covering it match. -/
theorem exists_index_iff
    (hprincipal : ∀ r, ∃ b, m r b = true ∧ ∀ r', m r' b = true → Covers m r' r)
    (hj : j < rules.length) : (∃ b, index m rules b = some j) ↔ ¬ Shadowed m rules j := by
  constructor
  · rintro ⟨b, h⟩
    exact not_shadowed_of_index h
  · intro hshadow
    obtain ⟨b, hm, hcov⟩ := hprincipal rules[j]
    refine ⟨b, index_eq_some.mpr ⟨rules[j], List.getElem?_eq_getElem hj, hm, ?_⟩⟩
    intro i hi r hr
    by_contra hmatch
    rw [Bool.not_eq_false] at hmatch
    exact hshadow ⟨i, hi, r, hr, rules[j], List.getElem?_eq_getElem hj, hcov r hmatch⟩

theorem mem_of_mem_without {removed : ℕ → Bool} {r : ρ} (h : r ∈ without removed rules) :
    r ∈ rules := by
  obtain ⟨e, he, rfl⟩ := List.mem_map.mp h
  exact List.fst_mem_of_mem_zipIdx (List.mem_of_mem_filter he)

/-- **Shadowed rules can be removed**, all at once: the first rule that matches is not shadowed, so
it stays, and so does no rule in front of it that matches. -/
theorem select_without {removed : ℕ → Bool}
    (h : ∀ j < rules.length, removed j = true → Shadowed m rules j) (b : β) :
    select m (without removed rules) b = select m rules b := by
  cases hs : select m rules b with
  | none =>
    rw [select, List.find?_eq_none] at hs ⊢
    intro r hr
    exact hs r (mem_of_mem_without hr)
  | some r =>
    obtain ⟨hm, before, after, rfl, hbefore⟩ := List.find?_eq_some_iff_append.mp hs
    have hindex : index m (before ++ r :: after) b = some before.length := by
      refine index_eq_some.mpr ⟨r, by simp, hm, ?_⟩
      intro i hi r' hr'
      rw [List.getElem?_append_left hi] at hr'
      simpa using hbefore r' (List.mem_of_getElem? hr')
    have hkept : removed before.length = false := by
      by_contra hremoved
      rw [Bool.not_eq_false] at hremoved
      exact not_shadowed_of_index hindex (h before.length (by simp) hremoved)
    have hsplit : without removed (before ++ r :: after) =
        without removed before ++ r ::
          ((after.zipIdx (before.length + 1)).filter fun e => !removed e.2).map Prod.fst := by
      simp [without, List.zipIdx_append, hkept]
    rw [hsplit, select, List.find?_eq_some_iff_append]
    refine ⟨hm, _, _, rfl, ?_⟩
    intro r' hr'
    exact hbefore r' (mem_of_mem_without hr')

end FirstMatch

import Mathlib.Data.List.Basic

/-!
# Automata with outputs

A deterministic automaton reads one input at a time and answers each with a list of outputs.
Whatever is left open by the system it models (which callback runs next, which message
arrives) is part of the input, so that a statement about every input sequence is a statement
about every run.

## Main definitions

* `stateAfter step s is`: the state after the inputs `is`
* `collect step f s is`: what `f` records at each step of the run, in order
* `emitted step s is`: the outputs of the run
* `accumulate step g k s is`: what `g` makes of `k` along the run
* `Along step G s is`: every step of the run is taken under the guard `G`
* `Inserted step V s is js k`: `js` is `is` with `k` more inputs, each admitted by `V`

## Main results

* `Along.stateAfter_induction`: an invariant preserved by guarded steps holds after a guarded run
* `Along.collect_induction`, `collect_induction`: the same for an invariant that also speaks of
  what was recorded
* `accumulate_induction`: the same for an invariant that speaks of what was accumulated
* `Inserted.simulation`: a relation kept by common inputs and by inserted ones relates the two runs
-/

namespace Automaton

universe u v w x

variable {σ : Type u} {ι : Type v} {ω : Type w} {κ : Type x}

/-- The state after the inputs `is`, read from `s`. -/
def stateAfter (step : σ → ι → σ × List ω) : σ → List ι → σ
  | s, [] => s
  | s, i :: is => stateAfter step (step s i).1 is

/-- What `f` records at each step of the run, in order. -/
def collect (step : σ → ι → σ × List ω) (f : σ → ι → List κ) : σ → List ι → List κ
  | _, [] => []
  | s, i :: is => f s i ++ collect step f (step s i).1 is

/-- The outputs of the run, in order. -/
def emitted (step : σ → ι → σ × List ω) (s : σ) (is : List ι) : List ω :=
  collect step (fun s i => (step s i).2) s is

/-- What `g` makes of `k` along the run. -/
def accumulate (step : σ → ι → σ × List ω) (g : κ → σ → ι → κ) : κ → σ → List ι → κ
  | k, _, [] => k
  | k, s, i :: is => accumulate step g (g k s i) (step s i).1 is

/-- Every step of the run is taken under the guard `G`. -/
def Along (step : σ → ι → σ × List ω) (G : σ → ι → Prop) : σ → List ι → Prop
  | _, [] => True
  | s, i :: is => G s i ∧ Along step G (step s i).1 is

variable {step : σ → ι → σ × List ω} {f : σ → ι → List κ} {G : σ → ι → Prop}

instance Along.decidable [∀ s i, Decidable (G s i)] :
    ∀ (s : σ) (is : List ι), Decidable (Along step G s is)
  | _, [] => inferInstanceAs (Decidable True)
  | s, i :: is =>
    have := Along.decidable (step s i).1 is
    inferInstanceAs (Decidable (G s i ∧ Along step G (step s i).1 is))

@[simp] theorem stateAfter_nil (s : σ) : stateAfter step s [] = s := rfl

@[simp] theorem stateAfter_cons (s : σ) (i : ι) (is : List ι) :
    stateAfter step s (i :: is) = stateAfter step (step s i).1 is := rfl

@[simp] theorem stateAfter_append (s : σ) (is js : List ι) :
    stateAfter step s (is ++ js) = stateAfter step (stateAfter step s is) js := by
  induction is generalizing s with
  | nil => rfl
  | cons i is ih => exact ih _

@[simp] theorem collect_nil (s : σ) : collect step f s [] = [] := rfl

@[simp] theorem collect_cons (s : σ) (i : ι) (is : List ι) :
    collect step f s (i :: is) = f s i ++ collect step f (step s i).1 is := rfl

@[simp] theorem collect_append (s : σ) (is js : List ι) :
    collect step f s (is ++ js) =
      collect step f s is ++ collect step f (stateAfter step s is) js := by
  induction is generalizing s with
  | nil => rfl
  | cons i is ih => simp [ih]

/-- What is recorded in a run is recorded at one of its steps. -/
theorem exists_of_mem_collect {k : κ} {s : σ} {is : List ι} (h : k ∈ collect step f s is) :
    ∃ t, ∃ i ∈ is, k ∈ f t i := by
  induction is generalizing s with
  | nil => cases h
  | cons i is ih =>
    rcases List.mem_append.mp h with h | h
    · exact ⟨s, i, List.mem_cons_self, h⟩
    · obtain ⟨t, j, hj, hk⟩ := ih h
      exact ⟨t, j, List.mem_cons_of_mem i hj, hk⟩

@[simp] theorem emitted_nil (s : σ) : emitted step s [] = [] := rfl

@[simp] theorem emitted_cons (s : σ) (i : ι) (is : List ι) :
    emitted step s (i :: is) = (step s i).2 ++ emitted step (step s i).1 is := rfl

theorem emitted_append (s : σ) (is js : List ι) :
    emitted step s (is ++ js) = emitted step s is ++ emitted step (stateAfter step s is) js :=
  collect_append s is js

theorem accumulate_append {g : κ → σ → ι → κ} (k : κ) (s : σ) (is js : List ι) :
    accumulate step g k s (is ++ js) =
      accumulate step g (accumulate step g k s is) (stateAfter step s is) js := by
  induction is generalizing k s with
  | nil => rfl
  | cons i is ih => exact ih _ _

@[simp] theorem along_nil (s : σ) : Along step G s [] := trivial

@[simp] theorem along_cons (s : σ) (i : ι) (is : List ι) :
    Along step G s (i :: is) ↔ G s i ∧ Along step G (step s i).1 is := Iff.rfl

@[simp] theorem along_append (s : σ) (is js : List ι) :
    Along step G s (is ++ js) ↔ Along step G s is ∧ Along step G (stateAfter step s is) js := by
  induction is generalizing s with
  | nil => simp
  | cons i is ih => simp [ih, and_assoc]

/-- A guard that holds of the inputs alone holds along every run of them. -/
theorem Along.of_forall {P : ι → Prop} {is : List ι} (h : ∀ i ∈ is, P i) (s : σ) :
    Along step (fun _ i => P i) s is := by
  induction is generalizing s with
  | nil => trivial
  | cons i is ih => exact ⟨h i (by simp), ih (fun j hj => h j (by simp [hj])) _⟩

/-- **The invariant rule**: an invariant preserved by the guarded steps holds after a guarded
run. -/
theorem Along.stateAfter_induction {Inv : σ → Prop} {s : σ} {is : List ι}
    (hG : Along step G s is) (h₀ : Inv s)
    (hstep : ∀ s i, Inv s → G s i → Inv (step s i).1) : Inv (stateAfter step s is) := by
  induction is generalizing s with
  | nil => exact h₀
  | cons i is ih => exact ih hG.2 (hstep s i h₀ hG.1)

/-- What a guarded run keeps invariant can be used to guard it more tightly. -/
theorem Along.strengthen {H : σ → ι → Prop} {Inv : σ → Prop} {s : σ} {is : List ι}
    (hG : Along step G s is) (h₀ : Inv s) (hstep : ∀ s i, Inv s → G s i → Inv (step s i).1)
    (hH : ∀ s i, Inv s → G s i → H s i) : Along step H s is := by
  induction is generalizing s with
  | nil => trivial
  | cons i is ih => exact ⟨hH s i h₀ hG.1, ih hG.2 (hstep s i h₀ hG.1)⟩

/-- An invariant preserved by every step holds after every run. -/
theorem stateAfter_induction (Inv : σ → Prop) {s : σ} (is : List ι) (h₀ : Inv s)
    (hstep : ∀ s i, Inv s → Inv (step s i).1) : Inv (stateAfter step s is) :=
  (Along.of_forall (P := fun _ => True) (fun _ _ => trivial) s).stateAfter_induction h₀
    fun s i hs _ => hstep s i hs

/-- **The history rule**: an invariant that relates the state to the record kept so far, and is
preserved by the guarded steps, holds at the end of a guarded run. -/
theorem Along.collect_induction (Inv : List κ → σ → Prop) {s : σ} {is : List ι} {past : List κ}
    (hG : Along step G s is) (h₀ : Inv past s)
    (hstep : ∀ past s i, Inv past s → G s i → Inv (past ++ f s i) (step s i).1) :
    Inv (past ++ collect step f s is) (stateAfter step s is) := by
  induction is generalizing s past with
  | nil => simpa using h₀
  | cons i is ih =>
    rw [collect_cons, ← List.append_assoc]
    exact ih hG.2 (hstep past s i h₀ hG.1)

/-- The history rule for a run on inputs that all satisfy `P`. -/
theorem collect_induction {P : ι → Prop} (Inv : List κ → σ → Prop) {s : σ} {is : List ι}
    (hP : ∀ i ∈ is, P i) (h₀ : Inv [] s)
    (hstep : ∀ past s i, Inv past s → P i → Inv (past ++ f s i) (step s i).1) :
    Inv (collect step f s is) (stateAfter step s is) :=
  (Along.of_forall hP s).collect_induction Inv h₀ hstep

/-- An invariant that relates the state to what was accumulated so far, and is preserved by every
step, holds at the end of every run. -/
theorem accumulate_induction {g : κ → σ → ι → κ} (Inv : κ → σ → Prop) {k : κ} {s : σ}
    (is : List ι) (h₀ : Inv k s) (hstep : ∀ k s i, Inv k s → Inv (g k s i) (step s i).1) :
    Inv (accumulate step g k s is) (stateAfter step s is) := by
  induction is generalizing k s with
  | nil => exact h₀
  | cons i is ih => exact ih (hstep k s i h₀)

/-- The same along a guarded run. -/
theorem Along.accumulate_induction {g : κ → σ → ι → κ} (Inv : κ → σ → Prop) {k : κ} {s : σ}
    {is : List ι} (hG : Along step G s is) (h₀ : Inv k s)
    (hstep : ∀ k s i, Inv k s → G s i → Inv (g k s i) (step s i).1) :
    Inv (accumulate step g k s is) (stateAfter step s is) := by
  induction is generalizing k s with
  | nil => exact h₀
  | cons i is ih => exact ih hG.2 (hstep k s i h₀ hG.1)

/-! ## Inserted inputs -/

/-- From the state `t` on, `js` is `is` with `k` inputs inserted, each admitted by `V` in the state
in which it arrives. -/
inductive Inserted (step : σ → ι → σ × List ω) (V : σ → ι → Prop) :
    σ → List ι → List ι → ℕ → Prop
  | nil (t : σ) : Inserted step V t [] [] 0
  | keep {t : σ} {i : ι} {is js : List ι} {k : ℕ} :
      Inserted step V (step t i).1 is js k → Inserted step V t (i :: is) (i :: js) k
  | insert {t : σ} {i : ι} {is js : List ι} {k : ℕ} :
      V t i → Inserted step V (step t i).1 is js k → Inserted step V t is (i :: js) (k + 1)

/-- **The insertion rule**: a relation between the two runs, which may count the inserted inputs,
holds at the end when common inputs keep it and give the same outputs, and inserted inputs keep it
and give none; and the two runs have the same outputs. -/
theorem Inserted.simulation {V : σ → ι → Prop} (R : ℕ → σ → σ → Prop)
    (hkeep : ∀ k s t i, R k s t → R k (step s i).1 (step t i).1 ∧ (step s i).2 = (step t i).2)
    (hinsert : ∀ k s t i, R k s t → V t i → R (k + 1) s (step t i).1 ∧ (step t i).2 = [])
    {s t : σ} {is js : List ι} {k l : ℕ} (h : Inserted step V t is js k) (h₀ : R l s t) :
    R (l + k) (stateAfter step s is) (stateAfter step t js) ∧
      emitted step s is = emitted step t js := by
  induction h generalizing s l with
  | nil t => exact ⟨h₀, rfl⟩
  | @keep t i is js k _ ih =>
    obtain ⟨hR, hout⟩ := hkeep l s t i h₀
    obtain ⟨hend, hemit⟩ := ih hR
    exact ⟨hend, by rw [emitted_cons, emitted_cons, hout, hemit]⟩
  | @insert t i is js k hV _ ih =>
    obtain ⟨hR, hout⟩ := hinsert l s t i h₀ hV
    obtain ⟨hend, hemit⟩ := ih hR
    refine ⟨?_, ?_⟩
    · rw [stateAfter_cons, Nat.add_comm k 1, ← Nat.add_assoc]
      exact hend
    · rw [emitted_cons, hout, List.nil_append, hemit]

end Automaton

import Mathlib.Logic.Function.Basic
import DS10Link.Stream.Automaton

/-!
# Interleaved callbacks

Threads run callbacks on one shared state. A callback is a machine of atomic steps: it has places,
and at each place a step that transforms the shared state and tells where the callback goes on. A
thread takes up a callback when it has none and makes one step at a time; which thread moves next
is left open. A callback that runs alone can be read as one transformation of the shared state.

## Main definitions

* `Interleave.Callbacks σ κ ε ω`: callbacks on the state `σ`, with places `κ`
* `Interleave.State σ κ τ`: the shared state, and the place of each thread
* `Interleave.step c`: one action of one thread, as an automaton
* `Interleave.runAlone c`: a callback with nothing in between

## Main results

* `step_resume_of_some`: a step of a thread moves that thread alone
* `resume_alone`: a thread that moves alone runs its callback
-/

namespace Interleave

open Automaton

variable {σ κ ε ω τ : Type*}

/-- Callbacks as machines: the place where the callback for an event begins, if there is one, and
what its step at a place does: the shared state after it, the place where the callback goes on, if
it does, and the outputs. -/
structure Callbacks (σ κ ε ω : Type*) where
  enter : ε → Option κ
  advance : σ → κ → σ × Option κ × List ω

/-- The shared state, and the place of the callback that each thread is in, if it is in one. -/
structure State (σ κ τ : Type*) where
  shared : σ
  place : τ → Option κ

/-- A thread takes up the callback for an event, or makes one step of the callback it is in. -/
inductive Action (ε τ : Type*) where
  | start (t : τ) (e : ε)
  | resume (t : τ)

/-- No callback is in progress. -/
def State.Quiet (s : State σ κ τ) : Prop := ∀ t, s.place t = none

/-- The shared state with no callback in progress. -/
def State.quiet (shared : σ) : State σ κ τ := ⟨shared, fun _ => none⟩

variable [DecidableEq τ]

/-- The thread `t` leaves the shared state as `shared` and is now at `next`. -/
def State.move (s : State σ κ τ) (t : τ) (shared : σ) (next : Option κ) : State σ κ τ :=
  ⟨shared, Function.update s.place t next⟩

/-- One action. A thread that is in a callback takes up no other, and one that is in none has no
step to make. -/
def step (c : Callbacks σ κ ε ω) (s : State σ κ τ) : Action ε τ → State σ κ τ × List ω
  | .start t e =>
    match s.place t with
    | none => (s.move t s.shared (c.enter e), [])
    | some _ => (s, [])
  | .resume t =>
    match s.place t with
    | none => (s, [])
    | some k =>
      let r := c.advance s.shared k
      (s.move t r.1 r.2.1, r.2.2)

variable {c : Callbacks σ κ ε ω} {s : State σ κ τ} {t u : τ}

@[simp] theorem move_shared (shared : σ) (next : Option κ) :
    (s.move t shared next).shared = shared := rfl

@[simp] theorem move_place_self (shared : σ) (next : Option κ) :
    (s.move t shared next).place t = next := Function.update_self _ _ _

@[simp] theorem move_place_of_ne (h : u ≠ t) (shared : σ) (next : Option κ) :
    (s.move t shared next).place u = s.place u := Function.update_of_ne h _ _

@[simp] theorem move_move (shared shared' : σ) (next next' : Option κ) :
    (s.move t shared next).move t shared' next' = s.move t shared' next' :=
  congrArg (State.mk shared') (Function.update_idem _ _ _)

/-- Who is where after a move. -/
theorem mem_place_move {shared : σ} {next : Option κ} {k : κ} :
    k ∈ (s.move t shared next).place u ↔ (u = t ∧ k ∈ next) ∨ (u ≠ t ∧ k ∈ s.place u) := by
  by_cases h : u = t
  · subst h
    simp
  · simp [h]

theorem step_start_of_none (h : s.place t = none) (e : ε) :
    step c s (.start t e) = (s.move t s.shared (c.enter e), []) := by
  simp only [step, h]

theorem step_start_of_some {k : κ} (h : s.place t = some k) (e : ε) :
    step c s (.start t e) = (s, []) := by
  simp only [step, h]

theorem step_resume_of_none (h : s.place t = none) : step c s (.resume t) = (s, []) := by
  simp only [step, h]

/-- A step of a thread moves that thread alone. -/
theorem step_resume_of_some {k : κ} (h : s.place t = some k) :
    step c s (.resume t) =
      (s.move t (c.advance s.shared k).1 (c.advance s.shared k).2.1,
        (c.advance s.shared k).2.2) := by
  simp only [step, h]

/-! ## A callback that runs alone -/

/-- Up to `n` steps of a callback with nothing in between: the shared state and the place after
them, and the outputs. -/
def runAlone (c : Callbacks σ κ ε ω) : ℕ → σ → Option κ → (σ × Option κ) × List ω
  | 0, shared, k => ((shared, k), [])
  | _ + 1, shared, none => ((shared, none), [])
  | n + 1, shared, some k =>
    let r := c.advance shared k
    let r' := runAlone c n r.1 r.2.1
    (r'.1, r.2.2 ++ r'.2)

@[simp] theorem runAlone_none (n : ℕ) (shared : σ) :
    runAlone c n shared none = ((shared, none), []) := by
  cases n <;> rfl

theorem runAlone_some (n : ℕ) (shared : σ) (k : κ) :
    runAlone c (n + 1) shared (some k) =
      ((runAlone c n (c.advance shared k).1 (c.advance shared k).2.1).1,
        (c.advance shared k).2.2 ++
          (runAlone c n (c.advance shared k).1 (c.advance shared k).2.1).2) := rfl

/-- The callback ends with this step. -/
theorem runAlone_end {shared shared' : σ} {k : κ} {out : List ω}
    (h : c.advance shared k = (shared', none, out)) (n : ℕ) :
    runAlone c (n + 1) shared (some k) = ((shared', none), out) := by
  rw [runAlone_some, h, runAlone_none, List.append_nil]

/-- The callback goes on and has put out nothing. -/
theorem runAlone_next {shared shared' : σ} {k k' : κ}
    (h : c.advance shared k = (shared', some k', [])) (n : ℕ) :
    runAlone c (n + 1) shared (some k) = runAlone c n shared' (some k') := by
  rw [runAlone_some, h]
  rfl

/-- **A thread that moves alone runs its callback**, and nothing else changes. -/
theorem resume_alone (c : Callbacks σ κ ε ω) (s : State σ κ τ) (t : τ) (n : ℕ) :
    stateAfter (step c) s (List.replicate n (.resume t)) =
        s.move t (runAlone c n s.shared (s.place t)).1.1 (runAlone c n s.shared (s.place t)).1.2 ∧
      emitted (step c) s (List.replicate n (.resume t)) =
        (runAlone c n s.shared (s.place t)).2 := by
  induction n generalizing s with
  | zero =>
    refine ⟨?_, rfl⟩
    exact congrArg (State.mk s.shared) (Function.update_eq_self t s.place).symm
  | succ n ih =>
    cases hplace : s.place t with
    | none =>
      obtain ⟨hstate, hout⟩ := ih s
      rw [hplace, runAlone_none] at hstate hout
      rw [List.replicate_succ, stateAfter_cons, emitted_cons, step_resume_of_none hplace,
        runAlone_none]
      exact ⟨hstate, hout⟩
    | some k =>
      obtain ⟨hstate, hout⟩ := ih (step c s (.resume t)).1
      rw [List.replicate_succ, stateAfter_cons, emitted_cons, hstate, hout,
        step_resume_of_some hplace, move_move, move_shared, move_place_self, runAlone_some]
      exact ⟨rfl, rfl⟩

/-- **A callback that runs to its end alone** is one transformation of the shared state. -/
theorem start_alone {shared : σ} {e : ε} {n : ℕ} {after : σ} {out : List ω}
    (h : runAlone c n shared (c.enter e) = ((after, none), out)) (t : τ) :
    stateAfter (step c) (.quiet shared) (.start t e :: List.replicate n (.resume t)) =
        .quiet after ∧
      emitted (step c) (.quiet shared) (.start t e :: List.replicate n (.resume t)) = out := by
  have hstart : step c (.quiet shared) (.start t e) =
      ((State.quiet shared).move t shared (c.enter e), []) := step_start_of_none rfl e
  obtain ⟨hstate, hout⟩ := resume_alone c ((State.quiet shared).move t shared (c.enter e)) t n
  rw [move_shared, move_place_self, h] at hstate hout
  rw [stateAfter_cons, emitted_cons, hstart, hstate, hout, move_move]
  exact ⟨congrArg (State.mk after) (Function.update_eq_self t _), rfl⟩

end Interleave

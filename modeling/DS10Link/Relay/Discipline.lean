import Mathlib.Data.Fintype.Basic
import DS10Link.Relay.Overlap

/-!
# The single transaction discipline

Two things can go wrong when the callbacks of a relay overlap. A second callback may pass its busy
check before the first one starts its transaction, and then overwrites it. And a reply that was
accepted may cancel the timer only after the next transaction has armed it, which leaves that one
pending for good. In a run in which neither happens a transaction is started only when none is
pending, and whenever no callback is in progress the pending transaction has its timer.

## Main definitions

* `RelayNode.Overwrites`: the guarded block of `startTransaction` is about to run while busy
* `RelayNode.Timed`: a pending transaction has its timer
* `RelayNode.Orderly`: the steps that neither pass a stale busy check nor cancel a timer that is
  still needed
* `RelayNode.Disciplined`: the invariant

## Main results

* `RelayNode.single_transaction`: an orderly run keeps the discipline
* `RelayNode.not_single_transaction`: other runs need not
* `RelayNode.overwrites_of_stale_check`, `RelayNode.not_timed_of_late_cancel`: the steps that are
  not orderly lead to the defects
* `RelayNode.orderly_serial`: callbacks that do not overlap are orderly
-/

namespace Ds10Relay

open Transaction Interleave

namespace RelayNode

/-! ## The discipline -/

/-- The next step executes the guarded block of `startTransaction` while a transaction is
pending. -/
def Overwrites {τ : Type} (s : State RelayNode Stage τ) : Action Event τ → Prop
  | .start _ _ => False
  | .resume t => s.shared.busy = true ∧ ∃ k ∈ s.place t, k.starts = true

/-- A pending transaction has its timer. -/
def Timed {τ : Type} (s : State RelayNode Stage τ) : Prop :=
  s.shared.busy = true → s.shared.timerArmed = true

/-- The next step from `k` is orderly: a busy check that finds the node idle, for a payload within
the cap, finds no other callback about to start a transaction; and a reply cancels the timer while
the node is idle or another callback is on its way to arm it. -/
def OrderlyAt {τ : Type} (s : State RelayNode Stage τ) : Option Stage → Prop
  | some (.check payload) => s.shared.busy = false → payload.length ≤ kMaxPayload →
      ∀ u, ∀ k ∈ s.place u, k.starts = false
  | some (.cancelReply _) => s.shared.busy = true → ∃ u, ∃ k ∈ s.place u, k.settles = true
  | _ => True

def Orderly {τ : Type} (s : State RelayNode Stage τ) : Action Event τ → Prop
  | .start _ _ => True
  | .resume t => OrderlyAt s (s.place t)

instance {τ : Type} [Fintype τ] (s : State RelayNode Stage τ) : DecidablePred (OrderlyAt s)
  | some (.check payload) => inferInstanceAs (Decidable (s.shared.busy = false →
      payload.length ≤ kMaxPayload → ∀ u, ∀ k ∈ s.place u, k.starts = false))
  | some (.cancelReply _) => inferInstanceAs (Decidable (s.shared.busy = true →
      ∃ u, ∃ k ∈ s.place u, k.settles = true))
  | none | some (.start _) | some .attempt | some (.publish _ _) | some .arm | some .abort
  | some .expire | some (.receive _) | some (.book _) => inferInstanceAs (Decidable True)

instance {τ : Type} [Fintype τ] (s : State RelayNode Stage τ) : DecidablePred (Orderly s)
  | .start _ _ => inferInstanceAs (Decidable True)
  | .resume t => inferInstanceAs (Decidable (OrderlyAt s (s.place t)))

/-! ## The invariant -/

variable {p : RelayParams} {τ : Type} {s : State RelayNode Stage τ} {t : τ}

/-- **The discipline**: a callback about to start a transaction is the only one and finds the node
idle; and a pending transaction has its timer or a callback on its way to arm it. -/
structure Disciplined (s : State RelayNode Stage τ) : Prop where
  starts : ∀ t, ∀ k ∈ s.place t, k.starts = true →
    s.shared.busy = false ∧ ∀ u, ∀ l ∈ s.place u, l.starts = true → u = t
  timed : s.shared.busy = true →
    s.shared.timerArmed = true ∨ ∃ t, ∃ k ∈ s.place t, k.settles = true

/-- In a disciplined state no transaction is overwritten. -/
theorem Disciplined.not_overwrites (h : Disciplined s) (a : Action Event τ) : ¬ Overwrites s a := by
  cases a with
  | start t e => exact id
  | resume t =>
    rintro ⟨hbusy, k, hk, hstarts⟩
    rw [(h.starts t k hk hstarts).1] at hbusy
    cases hbusy

/-- In a disciplined state with no callback in progress, a pending transaction has its timer. -/
theorem Disciplined.timed_of_quiet (h : Disciplined s) (hquiet : s.Quiet) : Timed s := by
  intro hbusy
  obtain harmed | ⟨t, k, hk, -⟩ := h.timed hbusy
  · exact harmed
  · rw [hquiet t] at hk
    cases hk

theorem disciplined_quiet : Disciplined (State.quiet new : State RelayNode Stage τ) where
  starts := by
    intro t k hk
    cases hk
  timed := by
    intro hbusy
    cases hbusy

variable [DecidableEq τ]

/-- No callback begins at the start of a transaction. -/
theorem starts_enter {e : Event} {k : Stage} (hk : k ∈ enter p e) : k.starts = false := by
  cases e with
  | rx msg => exact Option.some.inj hk ▸ rfl
  | trigger data => exact Option.some.inj hk ▸ rfl
  | autoTick =>
    obtain ⟨payload, -, rfl⟩ := Option.map_eq_some_iff.mp hk
    rfl
  | timeout => exact Option.some.inj hk ▸ rfl

theorem enter_ne_cancelReply {e : Event} (msg : Frame) : enter p e ≠ some (.cancelReply msg) := by
  cases e with
  | rx _ | trigger _ | timeout => simp [enter]
  | autoTick => cases hauto : p.autoPayload <;> simp [enter, hauto]

/-- A thread that takes up a callback changes nothing yet. -/
theorem Disciplined.start (h : Disciplined s) (hplace : s.place t = none) (e : Event) :
    Disciplined (s.move t s.shared (enter p e)) where
  starts := by
    intro u k hk hstarts
    rcases mem_place_move.mp hk with ⟨-, hk⟩ | ⟨-, hk⟩
    · rw [starts_enter hk] at hstarts
      cases hstarts
    · obtain ⟨hidle, honly⟩ := h.starts u k hk hstarts
      refine ⟨hidle, ?_⟩
      intro v l hl hstarts'
      rcases mem_place_move.mp hl with ⟨-, hl⟩ | ⟨-, hl⟩
      · rw [starts_enter hl] at hstarts'
        cases hstarts'
      · exact honly v l hl hstarts'
  timed := by
    intro hbusy
    obtain harmed | ⟨u, k, hk, hsettles⟩ := h.timed hbusy
    · exact .inl harmed
    · refine .inr ⟨u, k, mem_place_move.mpr (.inr ⟨?_, hk⟩), hsettles⟩
      rintro rfl
      rw [hplace] at hk
      cases hk

/-- An orderly step keeps the discipline. -/
theorem Disciplined.move (h : Disciplined s) {k : Stage} (hplace : s.place t = some k)
    (horderly : OrderlyAt s (some k)) {n' : RelayNode} {next : Option Stage}
    (hblock : Block s.shared n' k next) : Disciplined (s.move t n' next) where
  starts := by
    intro u l hl hstarts
    rcases mem_place_move.mp hl with ⟨rfl, hnext⟩ | ⟨hne, hother⟩
    · -- The thread has passed its busy check, and nobody else is about to start.
      obtain ⟨hidle, rfl, payload, rfl, hlen⟩ := hblock.starts hnext hstarts
      refine ⟨hidle, ?_⟩
      intro v m hm hstarts'
      by_contra hne
      rcases mem_place_move.mp hm with ⟨heq, -⟩ | ⟨-, hm⟩
      · exact hne heq
      · rw [horderly hidle hlen v m hm] at hstarts'
        cases hstarts'
    · obtain ⟨hidle, honly⟩ := h.starts u l hother hstarts
      refine ⟨?_, ?_⟩
      · -- Only the start of a transaction could make the node busy, and this thread is not at it.
        by_contra hbusy
        obtain hbusy | hstarts' := hblock.busy (Bool.eq_true_of_not_eq_false hbusy)
        · rw [hidle] at hbusy
          cases hbusy
        · exact hne (honly t k hplace hstarts').symm
      · intro v m hm hstarts'
        rcases mem_place_move.mp hm with ⟨rfl, hnext⟩ | ⟨-, hm⟩
        · obtain ⟨-, -, payload, rfl, hlen⟩ := hblock.starts hnext hstarts'
          rw [horderly hidle hlen u l hother] at hstarts
          cases hstarts
        · exact honly v m hm hstarts'
  timed := by
    intro hbusy
    by_cases hk : k.starts = true ∨ k.settles = true
    · obtain harmed | ⟨l, hl, hsettles⟩ := hblock.settles hk hbusy
      · exact .inl harmed
      · exact .inr ⟨t, l, mem_place_move.mpr (.inl ⟨rfl, hl⟩), hsettles⟩
    · obtain ⟨hstarts, hsettles⟩ := not_or.mp hk
      have hbusy' : s.shared.busy = true := (hblock.busy hbusy).resolve_right hstarts
      -- Whoever is on the way to arm the timer is another thread.
      have hother : (∃ u, ∃ l ∈ s.place u, l.settles = true) →
          ∃ u, ∃ l ∈ (s.move t n' next).place u, l.settles = true := by
        rintro ⟨u, l, hl, hsettles'⟩
        refine ⟨u, l, mem_place_move.mpr (.inr ⟨?_, hl⟩), hsettles'⟩
        rintro rfl
        rw [hplace] at hl
        exact hsettles (Option.some.inj hl ▸ hsettles')
      by_cases hcancel : ∃ msg, k = .cancelReply msg
      · obtain ⟨msg, rfl⟩ := hcancel
        exact .inr (hother (horderly hbusy'))
      · obtain harmed | hothers := h.timed hbusy'
        · exact .inl (hblock.timerArmed (Bool.eq_false_of_not_eq_true hsettles)
            (not_exists.mp hcancel) hbusy harmed)
        · exact .inr (hother hothers)

/-! ## Runs -/

theorem Disciplined.step (h : Disciplined s) (a : Action Event τ) (horderly : Orderly s a) :
    Disciplined (Interleave.step (callbacks p) s a).1 := by
  cases a with
  | start t e =>
    cases hplace : s.place t with
    | none =>
      rw [step_start_of_none hplace]
      exact h.start hplace e
    | some k =>
      rw [step_start_of_some hplace]
      exact h
  | resume t =>
    cases hplace : s.place t with
    | none =>
      rw [step_resume_of_none hplace]
      exact h
    | some k =>
      rw [step_resume_of_some hplace]
      rw [Orderly, hplace] at horderly
      exact h.move hplace horderly (block_advance p s.shared k)

/-- **Single transaction discipline**: in a run of any number of threads whose steps are orderly,
the guarded block of `startTransaction` never executes while a transaction is pending, and whenever
no callback is in progress the pending transaction has its timer. -/
theorem single_transaction (p : RelayParams) (acts : List (Action Event τ))
    (horderly : Automaton.Along (Interleave.step (callbacks p)) Orderly (.quiet new) acts) :
    Automaton.Along (Interleave.step (callbacks p)) (fun s a => ¬ Overwrites s a) (.quiet new)
        acts ∧
      ∀ pre, pre <+: acts →
        (Automaton.stateAfter (Interleave.step (callbacks p)) (.quiet new) pre).Quiet →
          Timed (Automaton.stateAfter (Interleave.step (callbacks p)) (.quiet new) pre) := by
  refine ⟨?_, ?_⟩
  · exact horderly.strengthen disciplined_quiet (fun _ a h ha => h.step a ha)
      (fun _ a h _ => h.not_overwrites a)
  · rintro pre ⟨post, rfl⟩ hquiet
    have hpre := ((Automaton.along_append _ _ _).mp horderly).1
    exact (hpre.stateAfter_induction disciplined_quiet
      (fun _ a h ha => h.step a ha)).timed_of_quiet hquiet

/-- A relay that asks station 1. -/
def exampleParams : RelayParams := ⟨1, 0x10, 2, none, by decide⟩

/-- While a trigger is between its busy check and the start of its transaction, a reply without a
transaction arrives and is dropped. -/
theorem single_transaction_stray_reply :
    Timed (Automaton.stateAfter (Interleave.step (callbacks exampleParams))
      (.quiet new : State RelayNode Stage Bool)
      [.start false (.trigger [0x07]), .resume false,
        .start true (.rx { stationId := 1, data := reply 0 5 [] }), .resume true,
        .resume false, .resume false, .resume false, .resume false]) :=
  (single_transaction exampleParams _ (by decide)).2 _ (List.prefix_refl _)
    (by intro t; cases t <;> decide)

/-- **Other runs need not keep the discipline.** Two triggers both pass the busy check, and the
second start overwrites the first; and a reply is accepted, another trigger starts a transaction
and arms the timer, and only then the reply cancels it. -/
theorem not_single_transaction :
    (¬ ∀ (p : RelayParams) (acts : List (Action Event Bool)),
      Automaton.Along (Interleave.step (callbacks p)) (fun s a => ¬ Overwrites s a) (.quiet new)
        acts) ∧
    ¬ ∀ (p : RelayParams) (acts : List (Action Event Bool)),
      (Automaton.stateAfter (Interleave.step (callbacks p)) (.quiet new) acts).Quiet →
        Timed (Automaton.stateAfter (Interleave.step (callbacks p)) (.quiet new) acts) := by
  constructor
  · intro h
    have hrun := h exampleParams
      [.start false (.trigger [0x01]), .start true (.trigger [0x02]), .resume false, .resume true,
        .resume false, .resume true]
    have hlast := hrun.2.2.2.2.2.1
    exact hlast ⟨by decide, .start [0x02], by decide, by decide⟩
  · intro h
    have hrun := h exampleParams
      [.start false (.trigger [0x01]), .resume false, .resume false, .resume false, .resume false,
        .resume false,
        .start true (.rx { stationId := 1, data := reply 1 0 [] }), .resume true,
        .start false (.trigger [0x02]), .resume false, .resume false, .resume false, .resume false,
        .resume false,
        .resume true, .resume true]
    have htimed := hrun (by intro t; cases t <;> decide) (by decide)
    revert htimed
    decide

/-! ## The steps that are not orderly -/

/-- A busy check that passes while another callback is about to start a transaction: when both go
on, one transaction is overwritten. -/
theorem overwrites_of_stale_check {u : τ} {payload payload' : List UInt8} (hne : t ≠ u)
    (hcheck : s.place t = some (.check payload)) (hidle : s.shared.busy = false)
    (hlen : payload.length ≤ kMaxPayload) (hstart : s.place u = some (.start payload'))
    (hlen' : payload'.length ≤ kMaxPayload) :
    Overwrites (Automaton.stateAfter (Interleave.step (callbacks p)) s [.resume t, .resume u])
      (.resume t) := by
  have hpass : advance p s.shared (.check payload) = (s.shared, some (.start payload), []) := by
    simp only [advance, hidle, Bool.false_eq_true, if_false]
  have hopen : advance p s.shared (.start payload') =
      (openTransaction s.shared payload', some .attempt, []) := by
    simp only [advance, not_lt.mpr hlen', if_false]
  have hstart' : (s.move t s.shared (some (.start payload))).place u = some (.start payload') := by
    rw [move_place_of_ne hne.symm, hstart]
  simp only [Automaton.stateAfter_cons, Automaton.stateAfter_nil, step_resume_of_some hcheck,
    callbacks_advance, hpass, step_resume_of_some hstart', move_shared, hopen]
  refine ⟨rfl, .start payload, ?_, decide_eq_true hlen⟩
  rw [move_place_of_ne hne, move_place_self]
  rfl

/-- A reply that cancels the timer of a pending transaction while no other callback is in progress:
when it is booked, the transaction is pending without a timer. -/
theorem not_timed_of_late_cancel {msg : Frame} (hcancel : s.place t = some (.cancelReply msg))
    (hbusy : s.shared.busy = true) (halone : ∀ u, u ≠ t → s.place u = none) :
    let s' := Automaton.stateAfter (Interleave.step (callbacks p)) s [.resume t, .resume t]
    s'.Quiet ∧ ¬ Timed s' := by
  have hbook : (s.move t { s.shared with timerArmed := false } (some (.book msg))).place t =
      some (.book msg) := move_place_self _ _
  obtain ⟨hbusy', htimer⟩ := bookReply_same p { s.shared with timerArmed := false } msg
  simp only [Automaton.stateAfter_cons, Automaton.stateAfter_nil, step_resume_of_some hcancel,
    callbacks_advance, advance, step_resume_of_some hbook, move_move, move_shared]
  constructor
  · intro u
    by_cases hu : u = t
    · rw [hu, move_place_self]
    · rw [move_place_of_ne hu, halone u hu]
  · intro htimed
    have harmed := htimed (hbusy'.trans hbusy)
    rw [move_shared, htimer] at harmed
    cases harmed

/-! ## Callbacks that do not overlap -/

/-- The thread `t` is alone in a callback, and cancels the timer only while the node is idle. -/
structure Alone (s : State RelayNode Stage τ) (t : τ) : Prop where
  others : ∀ u, u ≠ t → s.place u = none
  cancels : ∀ msg, s.place t = some (.cancelReply msg) → s.shared.busy = false

theorem Alone.orderly (h : Alone s t) : Orderly s (.resume t) := by
  rw [Orderly]
  rcases hplace : s.place t with _ | k
  · trivial
  · cases k with
    | check payload =>
      intro _ _ u l hl
      by_cases hu : u = t
      · rw [hu, hplace] at hl
        exact Option.some.inj hl ▸ rfl
      · rw [h.others u hu] at hl
        cases hl
    | cancelReply msg =>
      intro hbusy
      rw [h.cancels msg hplace] at hbusy
      cases hbusy
    | start | attempt | publish | arm | abort | expire | receive | book => trivial

theorem Alone.resume (h : Alone s t) :
    Alone (Interleave.step (callbacks p) s (.resume t)).1 t := by
  cases hplace : s.place t with
  | none =>
    rw [step_resume_of_none hplace]
    exact h
  | some k =>
    rw [step_resume_of_some hplace]
    constructor
    · intro u hu
      rw [move_place_of_ne hu, h.others u hu]
    · intro msg hnext
      rw [move_place_self] at hnext
      exact (block_advance p s.shared k).cancels hnext

theorem Alone.along (h : Alone s t) (k : ℕ) :
    Automaton.Along (Interleave.step (callbacks p)) Orderly s (List.replicate k (.resume t)) := by
  induction k generalizing s with
  | zero => trivial
  | succ k ih => exact ⟨h.orderly, ih h.resume⟩

/-- Callbacks run one after the other, each by some thread. -/
def serial (es : List (τ × Event)) : List (Action Event τ) :=
  es.flatMap fun x => .start x.1 x.2 :: List.replicate 5 (.resume x.1)

/-- **Callbacks that do not overlap are orderly.** -/
theorem orderly_serial (p : RelayParams) (n : RelayNode) (es : List (τ × Event)) :
    Automaton.Along (Interleave.step (callbacks p)) Orderly (.quiet n) (serial es) := by
  induction es generalizing n with
  | nil => trivial
  | cons x es ih =>
    rw [serial, List.flatMap_cons, Automaton.along_append, (start_alone_eq_step p n x.2 x.1).1]
    refine ⟨⟨trivial, ?_⟩, ih _⟩
    have hstart : Interleave.step (callbacks p) (.quiet n) (.start x.1 x.2) =
        ((State.quiet n).move x.1 n (enter p x.2), []) := step_start_of_none rfl x.2
    rw [hstart]
    refine Alone.along ⟨?_, ?_⟩ 5
    · intro u hu
      exact move_place_of_ne hu _ _
    · intro msg hplace
      rw [move_place_self] at hplace
      exact absurd hplace (enter_ne_cancelReply msg)

end RelayNode

end Ds10Relay

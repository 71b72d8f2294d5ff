import DS10Link.Script.LatencyProbe

/-!
# What a round trip belongs to

Every probe has a number of its own, and the echo changes nothing. So what comes back with the
number that is waited for is the probe itself, written after its time was taken, and echoed in
between, whatever came back late, was lost or overtook another on the way.

## Main definitions

* `IsProbe`: a frame is the probe with a number
* `RoundTrip`: a measured time is that of a probe, from its writing over its echo
* `LatencyRun.Sound`: what every action keeps
* `Paired`: what the log of a run says of the probes

## Main results

* `LatencyRun.Sound.step`: the step lemma
* `paired_afterRun`: each probe ends once, in its turn, and each time is that of its own round trip
-/

open Automaton

namespace Ds10Script

/-- The frame is the probe with that number. -/
def IsProbe (p : LatencyArgs) (probeId : ℕ) (frame : List UInt8) : Prop :=
  1 ≤ probeId ∧ ∃ size, p.plan[probeId - 1]? = some size ∧
    frame = buildProbe p.station probeId size

/-- The numbers of the probes that were written, in order. -/
def sentIds (log : List LatencyEvent) : List ℕ :=
  log.filterMap fun
    | .sent probeId _ => some probeId
    | _ => none

/-- The numbers of the probes that have come back or are lost, in order. -/
def endedIds (log : List LatencyEvent) : List ℕ :=
  log.filterMap fun
    | .answered probeId _ => some probeId
    | .lost probeId => some probeId
    | _ => none

/-- A time is that of the round trip of a probe: the probe was written after the clock was read,
then echoed, then read, and all of it takes up the time measured. -/
def RoundTrip (p : LatencyArgs) (log : List LatencyEvent) (probeId rtt : ℕ) : Prop :=
  ∃ frame t0 te, IsProbe p probeId frame ∧
    [.sent probeId t0, .echoed frame te, .answered probeId rtt].Sublist log ∧
    t0 ≤ te ∧ te ≤ t0 + rtt

/-- What the log of a run says of the probes: they are written in their order, and end in it, each
one before the next is written; and the times are those of their round trips. -/
structure Paired (p : LatencyArgs) (log : List LatencyEvent) : Prop where
  sent : ∃ n ≤ p.plan.length, sentIds log = List.range' 1 n
  ended : endedIds log = sentIds log ∨
    ∃ probeId, sentIds log = endedIds log ++ [probeId]
  answers : ∀ probeId rtt, .answered probeId rtt ∈ log → RoundTrip p log probeId rtt

/-! ## Frames on their way -/

/-- The frame is a probe that was written. -/
def Written (p : LatencyArgs) (log : List LatencyEvent) (clock : ℕ) (frame : List UInt8) : Prop :=
  ∃ probeId t0, IsProbe p probeId frame ∧ .sent probeId t0 ∈ log ∧ t0 ≤ clock

/-- The frame is a probe that was written and then echoed. -/
def Returning (p : LatencyArgs) (log : List LatencyEvent) (clock : ℕ) (frame : List UInt8) : Prop :=
  ∃ probeId t0 te, IsProbe p probeId frame ∧
    [.sent probeId t0, .echoed frame te].Sublist log ∧ t0 ≤ te ∧ te ≤ clock

section Frames

variable {p : LatencyArgs} {log log' : List LatencyEvent} {clock clock' probeId : ℕ}
  {frame : List UInt8}

theorem Written.mono (h : Written p log clock frame) (hlog : log <+: log') (hle : clock ≤ clock') :
    Written p log' clock' frame := by
  obtain ⟨probeId, t0, hprobe, hsent, ht0⟩ := h
  exact ⟨probeId, t0, hprobe, hlog.subset hsent, ht0.trans hle⟩

theorem Returning.mono (h : Returning p log clock frame) (hlog : log <+: log')
    (hle : clock ≤ clock') : Returning p log' clock' frame := by
  obtain ⟨probeId, t0, te, hprobe, hechoed, ht0, hte⟩ := h
  exact ⟨probeId, t0, te, hprobe, hechoed.trans hlog.sublist, ht0, hte.trans hle⟩

/-- What the echo writes back is on its way back. -/
theorem Written.returning {frames : List (List UInt8)} (h : Written p log clock frame)
    (hframe : frame ∈ frames) :
    Returning p (log ++ frames.map fun f => .echoed f clock) clock frame := by
  obtain ⟨probeId, t0, hprobe, hsent, ht0⟩ := h
  refine ⟨probeId, t0, clock, hprobe, ?_, ht0, le_rfl⟩
  exact (List.singleton_sublist.mpr hsent).append
    (List.singleton_sublist.mpr (List.mem_map_of_mem hframe))

theorem RoundTrip.mono {rtt : ℕ} (h : RoundTrip p log probeId rtt) (hlog : log <+: log') :
    RoundTrip p log' probeId rtt := by
  obtain ⟨frame, t0, te, hprobe, hsub, ht0, hte⟩ := h
  exact ⟨frame, t0, te, hprobe, hsub.trans hlog.sublist, ht0, hte⟩

/-- A probe carries its number. -/
theorem IsProbe.probeIdOf (hcount : p.plan.length < 4294967296) (h : IsProbe p probeId frame) :
    probeIdOf frame = some probeId := by
  obtain ⟨hpos, size, hsize, rfl⟩ := h
  obtain ⟨hlt, -⟩ := List.getElem?_eq_some_iff.mp hsize
  exact probeIdOf_buildProbe p.station size (by omega)

/-- What a list without repetition is made from is made from one thing each. -/
theorem eq_of_nodup_filterMap {α β : Type*} {f : α → Option β} {l : List α} {x y : α} {b : β}
    (h : (l.filterMap f).Nodup) (hx : x ∈ l) (hy : y ∈ l) (hfx : f x = some b)
    (hfy : f y = some b) : x = y := by
  induction l with
  | nil => cases hx
  | cons a l ih =>
    -- What is made from the first cannot be made from a later one again.
    have hfirst : ∀ z ∈ l, f a = some b → f z = some b → False := by
      intro z hz hfa hfz
      rw [List.filterMap_cons_some hfa] at h
      exact (List.nodup_cons.mp h).1 (List.mem_filterMap.mpr ⟨z, hz, hfz⟩)
    rcases List.mem_cons.mp hx with hxa | hx'
    · rcases List.mem_cons.mp hy with hya | hy'
      · rw [hxa, hya]
      · exact (hfirst y hy' (hxa ▸ hfx) hfy).elim
    · rcases List.mem_cons.mp hy with hya | hy'
      · exact (hfirst x hx' (hya ▸ hfy) hfx).elim
      · refine ih ?_ hx' hy'
        cases hfa : f a with
        | none => rwa [List.filterMap_cons_none hfa] at h
        | some c =>
          rw [List.filterMap_cons_some hfa] at h
          exact (List.nodup_cons.mp h).2

theorem sentIds_append (log log' : List LatencyEvent) :
    sentIds (log ++ log') = sentIds log ++ sentIds log' :=
  List.filterMap_append

theorem endedIds_append (log log' : List LatencyEvent) :
    endedIds (log ++ log') = endedIds log ++ endedIds log' :=
  List.filterMap_append

theorem sentIds_echoed (frames : List (List UInt8)) (clock : ℕ) :
    sentIds (frames.map fun f => .echoed f clock) = [] := by
  rw [sentIds, List.filterMap_eq_nil_iff]
  intro e he
  obtain ⟨f, -, rfl⟩ := List.mem_map.mp he
  rfl

theorem endedIds_echoed (frames : List (List UInt8)) (clock : ℕ) :
    endedIds (frames.map fun f => .echoed f clock) = [] := by
  rw [endedIds, List.filterMap_eq_nil_iff]
  intro e he
  obtain ⟨f, -, rfl⟩ := List.mem_map.mp he
  rfl

end Frames

/-! ## What every action keeps -/

/-- What the probe script holds, once its port was emptied. -/
def ProbeMain.held : ProbeMain → Option (List UInt8)
  | .idle => none
  | .ready | .stamped _ => some []
  | .reading _ buf => some buf

/-- The time that was taken for the probe. -/
def ProbeMain.t0 : ProbeMain → Option ℕ
  | .idle | .ready => none
  | .stamped t0 | .reading t0 _ => some t0

namespace LatencyRun

/-- How many probes were written. -/
def written (s : LatencyRun) : ℕ :=
  match s.main with
  | .ready | .stamped _ => s.probeId - 1
  | _ => s.probeId

/-- How many probes have come back or are lost. -/
def ended (s : LatencyRun) : ℕ :=
  match s.main with
  | .idle => s.probeId
  | _ => s.probeId - 1

/-- What holds between the actions. -/
structure Sound (p : LatencyArgs) (s : LatencyRun) : Prop where
  todo_eq : s.todo = p.plan.drop s.probeId
  probeId_le : s.probeId ≤ p.plan.length
  current : s.main ≠ .idle → 1 ≤ s.probeId ∧ p.plan[s.probeId - 1]? = some s.size
  sent : sentIds s.log = List.range' 1 s.written
  ended : endedIds s.log = List.range' 1 s.ended
  down : Carries (Written p s.log s.clock) s.echo.buf s.down
  flight : ∀ frame ∈ s.up.flight, Returning p s.log s.clock frame
  port : ∀ held ∈ s.main.held, Carries (Returning p s.log s.clock) held s.up
  t0_le : ∀ t0 ∈ s.main.t0, t0 ≤ s.clock
  reading : ∀ t0 buf, s.main = .reading t0 buf → .sent s.probeId t0 ∈ s.log
  answers : ∀ probeId rtt, .answered probeId rtt ∈ s.log → RoundTrip p s.log probeId rtt

variable {p : LatencyArgs} {s : LatencyRun}

theorem sound_init (p : LatencyArgs) : Sound p { todo := p.plan } :=
  ⟨rfl, Nat.zero_le _, fun h => absurd rfl h, rfl, rfl, carries_new _, nofun, nofun, nofun, nofun,
    nofun⟩

/-- Time passes. -/
theorem Sound.tick (h : Sound p s) (d : ℕ) : Sound p { s with clock := s.clock + d } := by
  have hle : s.clock ≤ s.clock + d := Nat.le_add_right _ _
  have hlog : s.log <+: s.log := List.prefix_refl _
  exact ⟨h.todo_eq, h.probeId_le, h.current, h.sent, h.ended,
    h.down.mono fun f hf => hf.mono hlog hle, fun f hf => (h.flight f hf).mono hlog hle,
    fun held hheld => (h.port held hheld).mono fun f hf => hf.mono hlog hle,
    fun t0 ht0 => (h.t0_le t0 ht0).trans hle, h.reading, h.answers⟩

theorem mem_flight_move {c : Channel} {m : Channel.Move} {frame : List UInt8}
    (h : frame ∈ (c.move m).flight) : frame ∈ c.flight := by
  cases m with
  | carry i =>
    rw [Channel.move] at h
    split at h
    · exact h
    · split_ifs at h
      · exact List.mem_of_mem_eraseIdx h
      · exact h
  | arrive n => exact h

/-- A frame goes on its way to the echo. -/
theorem Sound.moveDown (h : Sound p s) (m : Channel.Move) :
    Sound p { s with down := s.down.move m } :=
  ⟨h.todo_eq, h.probeId_le, h.current, h.sent, h.ended, h.down.move m, h.flight, h.port, h.t0_le,
    h.reading, h.answers⟩

/-- A frame goes on its way back. -/
theorem Sound.moveUp (h : Sound p s) (m : Channel.Move) : Sound p { s with up := s.up.move m } :=
  ⟨h.todo_eq, h.probeId_le, h.current, h.sent, h.ended, h.down,
    fun f hf => h.flight f (mem_flight_move hf), fun held hheld => (h.port held hheld).move m,
    h.t0_le, h.reading, h.answers⟩

/-- What else holds stays so when the echo has written frames back. -/
theorem Sound.echoed (h : Sound p s) {echo : EchoLoop} {down : Channel}
    {frames : List (List UInt8)} (hdown : Carries (Written p s.log s.clock) echo.buf down)
    (hframes : ∀ frame ∈ frames, Written p s.log s.clock frame) :
    Sound p { s with
      echo := echo
      down := down
      up := s.up.send frames
      log := s.log ++ frames.map fun f => .echoed f s.clock } := by
  have hlog : s.log <+: s.log ++ frames.map fun f => .echoed f s.clock := List.prefix_append _ _
  have hnew : ∀ frame ∈ frames,
      Returning p (s.log ++ frames.map fun f => .echoed f s.clock) s.clock frame :=
    fun frame hframe => (hframes frame hframe).returning hframe
  refine ⟨h.todo_eq, h.probeId_le, h.current, ?_, ?_, ?_, ?_, ?_, h.t0_le, ?_, ?_⟩
  -- The echo neither writes probes nor ends them.
  · show sentIds (_ ++ _) = _
    rw [sentIds_append, sentIds_echoed, List.append_nil]
    exact h.sent
  · show endedIds (_ ++ _) = _
    rw [endedIds_append, endedIds_echoed, List.append_nil]
    exact h.ended
  · exact hdown.mono fun f hf => hf.mono hlog le_rfl
  · intro frame hframe
    rcases List.mem_append.mp hframe with hframe | hframe
    · exact (h.flight frame hframe).mono hlog le_rfl
    · exact hnew frame hframe
  · intro held hheld
    exact ((h.port held hheld).mono fun f hf => hf.mono hlog le_rfl).send hnew
  · exact fun t0 buf hmain => hlog.subset (h.reading t0 buf hmain)
  · intro probeId rtt hmem
    rcases List.mem_append.mp hmem with hmem | hmem
    · exact (h.answers probeId rtt hmem).mono hlog
    · obtain ⟨f, -, hf⟩ := List.mem_map.mp hmem
      cases hf

theorem isWhole_of_written (hwhole : ∀ probeId frame, IsProbe p probeId frame → IsWhole frame)
    {frame : List UInt8} (h : Written p s.log s.clock frame) : IsWhole frame := by
  obtain ⟨probeId, t0, hprobe, -⟩ := h
  exact hwhole probeId frame hprobe

theorem isWhole_of_returning (hwhole : ∀ probeId frame, IsProbe p probeId frame → IsWhole frame)
    {frame : List UInt8} (h : Returning p s.log s.clock frame) : IsWhole frame := by
  obtain ⟨probeId, t0, te, hprobe, -⟩ := h
  exact hwhole probeId frame hprobe

/-- A turn of the echo. -/
theorem Sound.echo (h : Sound p s)
    (hwhole : ∀ probeId frame, IsProbe p probeId frame → IsWhole frame) {n : ℕ}
    (hsettled : Settled p s (.echo n)) : Sound p (s.echoStep p n) := by
  have hwritten : ∀ frame, Written p s.log s.clock frame → IsWhole frame :=
    fun frame hframe => isWhole_of_written hwhole hframe
  rw [echoStep, EchoLoop.turn]
  by_cases hchunk : s.down.chunk n ≠ []
  -- It writes back some of the frames it cuts off, and these are probes.
  · obtain ⟨hcut, hdown⟩ := h.down.read hwritten n
    rw [if_pos hchunk]
    exact h.echoed hdown fun frame hframe => hcut frame (List.mem_of_mem_filter hframe)
  · rw [not_not] at hchunk
    have hwaiting : s.down.waiting = [] := by
      rw [Channel.chunk, List.take_eq_nil_iff] at hchunk
      exact hchunk.resolve_left (Nat.succ_ne_zero n)
    have hread : s.down.read n = s.down := by
      rw [Channel.read, hwaiting, List.drop_nil, ← hwaiting]
    rw [if_neg (not_not.mpr hchunk), hread]
    cases hends : s.echo.endsBurst p.gap s.clock with
    | true =>
      -- Nothing is coming in, so nothing is held, and there was no burst to end.
      have hheld := h.down.nothing_held hwritten hwaiting (hsettled hwaiting hends)
      rw [EchoLoop.endsBurst, hheld] at hends
      cases hends
    | false =>
      rw [if_neg Bool.false_ne_true]
      exact h.echoed h.down fun frame hframe => absurd hframe List.not_mem_nil

/-- The next probe. -/
theorem Sound.next (h : Sound p s) (hmain : s.main = .idle) {size : ℕ} {todo : List ℕ}
    (htodo : s.todo = size :: todo) (harriving : s.up.arriving = []) :
    Sound p { s with
      todo := todo
      probeId := s.probeId + 1
      size := size
      main := .ready
      up := s.up.reset } := by
  have hdrop : p.plan.drop s.probeId = size :: todo := h.todo_eq.symm.trans htodo
  have hlt : s.probeId < p.plan.length := by
    by_contra hge
    rw [List.drop_eq_nil_of_le (not_lt.mp hge)] at hdrop
    cases hdrop
  rw [List.drop_eq_getElem_cons hlt, List.cons.injEq] at hdrop
  have hsent := h.sent
  have hended := h.ended
  rw [written, hmain] at hsent
  rw [LatencyRun.ended, hmain] at hended
  refine ⟨hdrop.2.symm, hlt, ?_, hsent, hended, h.down, h.flight, ?_, nofun, nofun, h.answers⟩
  · intro _
    refine ⟨Nat.le_add_left _ _, ?_⟩
    show p.plan[s.probeId + 1 - 1]? = some size
    rw [Nat.add_sub_cancel, List.getElem?_eq_getElem hlt, hdrop.1]
  -- The port is emptied, and no part of a frame is under way to it.
  · rintro held ⟨⟩
    exact carries_reset h.flight harriving

/-- The time is taken. -/
theorem Sound.stamp (h : Sound p s) (hmain : s.main = .ready) :
    Sound p { s with main := .stamped s.clock } := by
  have hcurrent := h.current (by rw [hmain]; exact nofun)
  have hsent := h.sent
  have hended := h.ended
  have hport := h.port
  rw [written, hmain] at hsent
  rw [LatencyRun.ended, hmain] at hended
  rw [hmain] at hport
  refine ⟨h.todo_eq, h.probeId_le, fun _ => hcurrent, hsent, hended, h.down, h.flight, hport, ?_,
    nofun, h.answers⟩
  rintro t0 ⟨⟩
  exact le_rfl

/-- The probe is written. -/
theorem Sound.write (h : Sound p s) {t0 : ℕ} (hmain : s.main = .stamped t0) :
    Sound p { s with
      main := .reading t0 []
      down := s.down.send [buildProbe p.station s.probeId s.size]
      log := s.log ++ [.sent s.probeId t0] } := by
  obtain ⟨hpos, hsize⟩ := h.current (by rw [hmain]; exact nofun)
  have hle : t0 ≤ s.clock := h.t0_le t0 (by rw [hmain]; rfl)
  have hlog : s.log <+: s.log ++ [.sent s.probeId t0] := List.prefix_append _ _
  have hnew : .sent s.probeId t0 ∈ s.log ++ [.sent s.probeId t0] := List.mem_concat_self
  have hsent := h.sent
  have hended := h.ended
  rw [written, hmain] at hsent
  rw [LatencyRun.ended, hmain] at hended
  refine ⟨h.todo_eq, h.probeId_le, fun _ => ⟨hpos, hsize⟩, ?_, ?_, ?_, ?_, ?_, ?_, ?_, ?_⟩
  · show sentIds (_ ++ _) = List.range' 1 s.probeId
    obtain ⟨k, hk⟩ : ∃ k, s.probeId = k + 1 := ⟨s.probeId - 1, by omega⟩
    dsimp only at hsent
    rw [sentIds_append, hsent, hk, Nat.add_sub_cancel, List.range'_concat, Nat.one_mul,
      Nat.add_comm 1 k]
    rfl
  · show endedIds (_ ++ _) = _
    rw [endedIds_append, hended]
    exact List.append_nil _
  -- What is sent is a probe whose time was taken, not later than now.
  · refine (h.down.mono fun f hf => hf.mono hlog le_rfl).send ?_
    intro frame hframe
    rw [List.mem_singleton.mp hframe]
    exact ⟨s.probeId, t0, ⟨hpos, s.size, hsize, rfl⟩, hnew, hle⟩
  · exact fun frame hframe => (h.flight frame hframe).mono hlog le_rfl
  · rintro held ⟨⟩
    exact (h.port [] (by rw [hmain]; rfl)).mono fun f hf => hf.mono hlog le_rfl
  · rintro t ⟨⟩
    exact hle
  · intro t buf hreading
    cases hreading
    exact hnew
  · intro probeId rtt hmem
    rcases List.mem_append.mp hmem with hmem | hmem
    · exact (h.answers probeId rtt hmem).mono hlog
    · cases List.mem_singleton.mp hmem

/-- The probe has ended: it has come back, or it is lost. -/
theorem Sound.finish (h : Sound p s) {t0 : ℕ} {buf : List UInt8} (hmain : s.main = .reading t0 buf)
    {up : Channel} (hup : up.flight = s.up.flight) {clock : ℕ} (hle : s.clock ≤ clock)
    {event : LatencyEvent} (hids : endedIds [event] = [s.probeId]) (hno : sentIds [event] = [])
    (hanswer : ∀ probeId rtt, event = .answered probeId rtt →
      RoundTrip p (s.log ++ [event]) probeId rtt) :
    Sound p { s with clock := clock, up := up, main := .idle, log := s.log ++ [event] } := by
  obtain ⟨hpos, -⟩ := h.current (by rw [hmain]; exact nofun)
  have hlog : s.log <+: s.log ++ [event] := List.prefix_append _ _
  have hsent := h.sent
  have hended := h.ended
  rw [written, hmain] at hsent
  rw [LatencyRun.ended, hmain] at hended
  refine ⟨h.todo_eq, h.probeId_le, fun hidle => absurd rfl hidle, ?_, ?_, ?_, ?_, nofun, nofun,
    nofun, ?_⟩
  · show sentIds (_ ++ _) = List.range' 1 s.probeId
    rw [sentIds_append, hno, List.append_nil]
    exact hsent
  -- It is the next to end.
  · show endedIds (_ ++ _) = List.range' 1 s.probeId
    obtain ⟨k, hk⟩ : ∃ k, s.probeId = k + 1 := ⟨s.probeId - 1, by omega⟩
    dsimp only at hended
    rw [endedIds_append, hids, hended, hk, Nat.add_sub_cancel, List.range'_concat, Nat.one_mul,
      Nat.add_comm 1 k]
  · exact h.down.mono fun f hf => hf.mono hlog hle
  · intro frame hframe
    rw [hup] at hframe
    exact (h.flight frame hframe).mono hlog hle
  · intro probeId rtt hmem
    rcases List.mem_append.mp hmem with hmem | hmem
    · exact (h.answers probeId rtt hmem).mono hlog
    · exact hanswer probeId rtt (List.mem_singleton.mp hmem).symm

theorem Sound.main (h : Sound p s) (hsettled : Settled p s .main) : Sound p (s.mainStep p) := by
  rw [mainStep.eq_def]
  cases hmain : s.main with
  | idle =>
    cases htodo : s.todo with
    | nil => exact h
    | cons size todo => exact h.next hmain htodo (hsettled hmain)
  | ready => exact h.stamp hmain
  | stamped t0 => exact h.write hmain
  | reading t0 buf =>
    dsimp only
    split_ifs
    · exact h
    · exact h.finish hmain rfl le_rfl rfl rfl nofun

/-- **What comes back is the probe that is waited for**, echoed after its time was taken. -/
theorem Sound.roundTrip (h : Sound p s) (hcount : p.plan.length < 4294967296) {t0 : ℕ}
    {buf frame : List UInt8} (hmain : s.main = .reading t0 buf)
    (hframe : Returning p s.log s.clock frame) (hid : probeIdOf frame = some s.probeId) (d : ℕ) :
    RoundTrip p (s.log ++ [.answered s.probeId (s.clock + d - t0)]) s.probeId
      (s.clock + d - t0) := by
  obtain ⟨probeId, t0', te, hprobe, hechoed, hle, hte⟩ := hframe
  rw [hprobe.probeIdOf hcount, Option.some_inj] at hid
  subst hid
  -- A probe is written once, so its time is the one that was taken for it.
  have hnodup : (sentIds s.log).Nodup := by
    rw [h.sent]
    exact List.nodup_range'
  have hsame : LatencyEvent.sent s.probeId t0' = .sent s.probeId t0 :=
    eq_of_nodup_filterMap hnodup (hechoed.subset List.mem_cons_self) (h.reading t0 buf hmain) rfl
      rfl
  cases hsame
  exact ⟨frame, t0, te, hprobe, hechoed.append (List.Sublist.refl [_]), hle, by omega⟩

/-- It has not come back yet. -/
theorem Sound.keepReading (h : Sound p s) {t0 : ℕ} {buf rest : List UInt8}
    (hmain : s.main = .reading t0 buf) {n : ℕ}
    (hport : Carries (Returning p s.log s.clock) rest (s.up.read n)) (d : ℕ) :
    Sound p { s with
      clock := s.clock + d
      up := s.up.read n
      main := .reading t0 rest } := by
  have hcurrent := h.current (by rw [hmain]; exact nofun)
  have hle : s.clock ≤ s.clock + d := Nat.le_add_right _ _
  have hlog : s.log <+: s.log := List.prefix_refl _
  have ht0 : t0 ≤ s.clock := h.t0_le t0 (by rw [hmain]; rfl)
  have hsent := h.sent
  have hended := h.ended
  rw [written, hmain] at hsent
  rw [LatencyRun.ended, hmain] at hended
  refine ⟨h.todo_eq, h.probeId_le, fun _ => hcurrent, hsent, hended,
    h.down.mono fun f hf => hf.mono hlog hle, fun f hf => (h.flight f hf).mono hlog hle, ?_, ?_, ?_,
    h.answers⟩
  · rintro held ⟨⟩
    exact hport.mono fun f hf => hf.mono hlog hle
  · rintro t ⟨⟩
    exact ht0.trans hle
  · intro t buf' hreading
    cases hreading
    exact h.reading t0 buf hmain

theorem Sound.read (h : Sound p s) (hcount : p.plan.length < 4294967296)
    (hwhole : ∀ probeId frame, IsProbe p probeId frame → IsWhole frame) (n d : ℕ) :
    Sound p (s.readStep p n d) := by
  rw [readStep.eq_def]
  cases hmain : s.main with
  | idle | ready | stamped => exact h
  | reading t0 buf =>
    dsimp only
    split_ifs with hread hback
    · -- The frame that is waited for is among those cut off.
      obtain ⟨hcut, -⟩ := (h.port buf (by rw [hmain]; rfl)).read
        (fun frame hframe => isWhole_of_returning hwhole hframe) n
      obtain ⟨frame, hframe, hid⟩ := List.any_eq_true.mp hback
      have hup : (s.up.read n).flight = s.up.flight := rfl
      refine h.finish hmain hup (Nat.le_add_right _ _) ?_ ?_ ?_
      · rfl
      · rfl
      · rintro probeId rtt ⟨⟩
        exact h.roundTrip hcount hmain (hcut frame hframe) (of_decide_eq_true hid) d
    · obtain ⟨-, hport⟩ := (h.port buf (by rw [hmain]; rfl)).read
        (fun frame hframe => isWhole_of_returning hwhole hframe) n
      exact h.keepReading hmain hport d
    · exact h

/-- **Every action keeps the pairing.** -/
theorem Sound.step (h : Sound p s) (hcount : p.plan.length < 4294967296)
    (hwhole : ∀ probeId frame, IsProbe p probeId frame → IsWhole frame) {a : Action}
    (hsettled : Settled p s a) : Sound p (step p s a).1 := by
  cases a with
  | tick d => exact h.tick d
  | down m => exact h.moveDown m
  | up m => exact h.moveUp m
  | echo n => exact h.echo hwhole hsettled
  | main => exact h.main hsettled
  | read n d => exact h.read hcount hwhole n d

theorem Sound.paired (h : Sound p s) : Paired p s.log := by
  have hwritten : s.written ≤ p.plan.length := by
    refine le_trans ?_ h.probeId_le
    rw [written]
    split
    · exact Nat.sub_le _ _
    · exact Nat.sub_le _ _
    · exact le_rfl
  refine ⟨⟨s.written, hwritten, h.sent⟩, ?_, h.answers⟩
  have hcurrent := h.current
  rw [h.sent, h.ended, written, LatencyRun.ended]
  cases hmain : s.main with
  | idle | ready | stamped => exact .inl rfl
  | reading t0 buf =>
    obtain ⟨hpos, -⟩ := hcurrent (by rw [hmain]; exact nofun)
    obtain ⟨k, hk⟩ : ∃ k, s.probeId = k + 1 := ⟨s.probeId - 1, by omega⟩
    refine .inr ⟨s.probeId, ?_⟩
    dsimp only
    rw [hk, Nat.add_sub_cancel, List.range'_concat, Nat.one_mul, Nat.add_comm 1 k]

end LatencyRun

/-- **A time that is measured is that of the probe's own round trip**, in every run of both scripts
in which no frame is cut apart, whatever the channels lose, delay or reorder: the probes are written
in their order, each ends before the next one is written, and one that has come back was echoed
between the time taken and the end of the time measured. -/
theorem paired_afterRun (p : LatencyArgs) (hcount : p.plan.length < 4294967296)
    (hwhole : ∀ probeId frame, IsProbe p probeId frame → IsWhole frame)
    (acts : List LatencyRun.Action)
    (hacts : Along (LatencyRun.step p) (LatencyRun.Settled p) { todo := p.plan } acts) :
    Paired p (LatencyRun.afterRun p acts).log := by
  have hsound : LatencyRun.Sound p (LatencyRun.afterRun p acts) :=
    hacts.stateAfter_induction (LatencyRun.sound_init p)
      fun _ _ h hsettled => h.step hcount hwhole hsettled
  exact hsound.paired

/-- Two probes of the least size. -/
def twoProbes : LatencyArgs where
  station := 1
  sizes := [6]
  rounds := 2
  timeout := 1000
  echoStation := 1
  gap := 20

/-- The first probe comes back when it is lost, while the second one is waited for. -/
def lateEcho : List LatencyRun.Action :=
  [.main, .main, .main, .down (.carry 0), .down (.arrive 9), .tick 3, .echo 8, .down (.arrive 8),
    .tick 2, .echo 7, .tick 995, .main, .main, .main, .tick 1, .main, .up (.carry 0),
    .up (.arrive 17), .read 16 1, .down (.carry 0), .down (.arrive 17), .tick 4, .echo 99,
    .up (.carry 0), .up (.arrive 10), .tick 1, .read 99 1, .up (.arrive 7), .read 99 1]

/-- What was echoed late is not taken for the second probe, which takes 9 ticks. -/
theorem paired_afterRun_late :
    let log := (LatencyRun.afterRun twoProbes lateEcho).log
    Paired twoProbes log ∧ .lost 1 ∈ log ∧ .answered 2 9 ∈ log := by
  intro log
  have hwhole : ∀ probeId frame, IsProbe twoProbes probeId frame → IsWhole frame := by
    rintro probeId frame ⟨hpos, size, hsize, rfl⟩
    have hplan : twoProbes.plan = [6, 6] := rfl
    obtain ⟨hlt, hget⟩ := List.getElem?_eq_some_iff.mp hsize
    simp only [hplan, List.length_cons, List.length_nil] at hlt
    obtain rfl | rfl : probeId = 1 ∨ probeId = 2 := by omega
    · obtain rfl : 6 = size := hget
      decide +kernel
    · obtain rfl : 6 = size := hget
      decide +kernel
  exact ⟨paired_afterRun twoProbes (by decide) hwhole lateEcho (by decide +kernel),
    by decide +kernel, by decide +kernel⟩

end Ds10Script

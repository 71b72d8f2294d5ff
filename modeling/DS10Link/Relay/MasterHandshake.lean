import DS10Link.Relay.MasterLedger

/-!
# The handshake of the relaying script

The callback forwards before it leaves the reply, and sets the event after it has let go of the
lock. So a time-out that falls into a callback that has matched sends the text again although it was
forwarded, and may hand the reply to the next attempt, or wake that attempt with no reply at all.
Where a reply is matched and handled while the main thread waits for it, the handshake is sound:
what is forwarded are the replies to the texts that count as answered, each once and in order, but
for those that are not forwarded by wish of the slave; so a text that counts as failed was not
forwarded.

## Main definitions

* `RelayThreads.Apart`: no time-out falls into a callback that has matched, and a reply is matched
  only while the main thread sleeps
* `RelayThreads.underWay`: a success that is not counted yet
* `RelayThreads.held`: the reply on its way to the main thread
* `RelayThreads.answers`: the replies to the texts that count as answered

## Main results

* `forwardedOnce_afterRun`: what is forwarded are the replies to the texts that count as answered,
  but for those that were not to be forwarded
-/

namespace Ds10Relay

open Transaction RelayMaster

namespace RelayMaster

/-- The main thread sleeps until the event is set. -/
def MainPlace.asleep : MainPlace → Bool
  | .wait _ => true
  | _ => false

/-- The main thread sleeps, or is about to read the reply. -/
def MainPlace.awaiting : MainPlace → Bool
  | .wait _ | .read _ => true
  | _ => false

theorem awaiting_of_asleep {k : MainPlace} (h : k.asleep = true) : k.awaiting = true := by
  cases k with
  | wait => rfl
  | _ => cases h

/-- The callback has matched a reply. -/
def SpinPlace.hasMatched : SpinPlace → Bool
  | .look _ => false
  | _ => true

/-- The payload and the destination of a reply. -/
def replyOf (msg : Frame) : List UInt8 × UInt8 := (msg.data.drop replyHdrLen, msg.data.getD 4 0)

end RelayMaster

namespace RelayThreads

variable {p : MasterParams} {h h' : History} {s s' : RelayThreads} {a : ThreadAction}

/-- The next step of the callback finds that its message is the reply waited for. -/
def accepts (s : RelayThreads) : Bool :=
  match s.spin with
  | some (.look msg) => decide (Matches s msg)
  | _ => false

/-- A reply is matched while the main thread waits for it, and the time is not up before the
callback has ended. -/
def Apart (s : RelayThreads) : ThreadAction → Prop
  | .timeout => s.spin.any SpinPlace.hasMatched = false
  | .spin => s.accepts = true → s.main.asleep = true
  | _ => True

instance (s : RelayThreads) : DecidablePred (Apart s)
  | .timeout => inferInstanceAs (Decidable (_ = _))
  | .spin => inferInstanceAs (Decidable (_ → _))
  | .line _ | .main | .rx _ => inferInstanceAs (Decidable True)

/-- What the main thread is told of a reply that could be forwarded, or was not to be. -/
def reported : Option (List UInt8 × UInt8 × Bool) → List (List UInt8 × UInt8)
  | some (payload, dst, true) => [(payload, dst)]
  | _ => []

@[simp] theorem reported_true (payload : List UInt8) (dst : UInt8) :
    reported (some (payload, dst, true)) = [(payload, dst)] := rfl

@[simp] theorem reported_false (payload : List UInt8) (dst : UInt8) :
    reported (some (payload, dst, false)) = [] := rfl

theorem filter_reported (payload : List UInt8) {dst : UInt8} (hne : dst ≠ 0) :
    ((reported (some (payload, dst, true))).filter fun r => r.2 ≠ 0) = [(payload, dst)] ∧
      ((reported (some (payload, dst, true))).filter fun r => r.2 = 0) = [] := by
  simp [hne]

/-- A success that the main thread has yet to count. -/
def underWay (s : RelayThreads) : List (List UInt8 × UInt8) :=
  match s.spin with
  | some (.book payload dst ok) => reported (some (payload, dst, ok))
  | some .signal => reported s.master.reply
  | _ => if s.main.awaiting && s.master.done then reported s.master.reply else []

/-- The replies to the texts that count as answered, or are about to. -/
def answers (h : History) (s : RelayThreads) : List (List UInt8 × UInt8) :=
  h.successes.map Success.reply ++ s.underWay

/-- The reply on its way to the main thread. -/
def held (s : RelayThreads) : Option (List UInt8 × UInt8) :=
  match s.spin with
  | some (.forward msg) => some (replyOf msg)
  | some (.book payload dst _) => some (payload, dst)
  | some .signal => s.master.reply.map fun r => (r.1, r.2.1)
  | _ =>
    if s.main.awaiting && s.master.done then s.master.reply.map fun r => (r.1, r.2.1) else none

/-- How the event, the reply and the places of the threads go together. -/
structure Handshake (s : RelayThreads) : Prop where
  asleep : s.spin.any SpinPlace.hasMatched = true →
    s.main.asleep = true ∧ s.master.done = false
  booked : s.spin = some .signal → s.master.reply ≠ none ∧ s.master.pending = none
  answered : s.main.awaiting = true → s.master.done = true →
    s.master.reply ≠ none ∧ s.master.pending = none
  awake : ∀ a, s.main = .read a → s.master.done = true
  cleared : ∀ a, s.main = .publish a → s.master.done = false
  alive : s.main ≠ .crashed

theorem accepts_iff : s.accepts = true ↔ ∃ msg, Matches s msg := by
  rw [accepts]
  constructor
  · intro h
    rcases hspin : s.spin with _ | k
    · rw [hspin] at h
      cases h
    · rw [hspin] at h
      cases k with
      | look msg => exact ⟨msg, of_decide_eq_true h⟩
      | _ => cases h
  · rintro ⟨msg, hm⟩
    rw [hm.1]
    exact decide_eq_true hm

/-- The main thread moves while no callback has matched. -/
theorem Handshake.of_main {m : RelayMaster} {next : MainPlace}
    (hidle : s.spin.any SpinPlace.hasMatched = false)
    (hanswered : next.awaiting = true → m.done = true → m.reply ≠ none ∧ m.pending = none)
    (hawake : ∀ a, next = .read a → m.done = true)
    (hcleared : ∀ a, next = .publish a → m.done = false) (halive : next ≠ .crashed) :
    Handshake { s with master := m, main := next } where
  asleep := by
    intro hspin
    rw [hidle] at hspin
    cases hspin
  booked := by
    intro hspin
    rw [show s.spin = some .signal from hspin] at hidle
    cases hidle
  answered := hanswered
  awake := hawake
  cleared := hcleared
  alive := halive

/-- The main thread goes where it does not wait. -/
theorem Handshake.of_next {m : RelayMaster} {next : MainPlace}
    (hidle : s.spin.any SpinPlace.hasMatched = false) (hnext : next.awaiting = false)
    (hcleared : ∀ a, next = .publish a → m.done = false) (halive : next ≠ .crashed) :
    Handshake { s with master := m, main := next } := by
  refine of_main hidle ?_ ?_ hcleared halive
  · intro hawaiting
    rw [hnext] at hawaiting
    cases hawaiting
  · rintro a rfl
    cases hnext

theorem Failed.next_eq {m m' : RelayMaster} {payload : List UInt8} {index : ℕ}
    {next : MainPlace} (hf : Failed p m payload index m' next) :
    next = .begin payload (index + 1) ∨ next = .input := by
  cases hf with
  | retry => exact .inl rfl
  | quit => exact .inr rfl

theorem Handshake.of_failed {m m' : RelayMaster} {payload : List UInt8} {index : ℕ}
    {next : MainPlace} (hidle : s.spin.any SpinPlace.hasMatched = false)
    (hf : Failed p m payload index m' next) :
    Handshake { s with master := m', main := next } := by
  rcases hf.next_eq with rfl | rfl
  · exact of_next hidle rfl nofun nofun
  · exact of_next hidle rfl nofun nofun

/-- A callback that has matched finds the main thread asleep. -/
theorem Handshake.idle (hs : Handshake s) (hmain : s.main.asleep = false) :
    s.spin.any SpinPlace.hasMatched = false := by
  by_contra hspin
  rw [Bool.not_eq_false] at hspin
  rw [(hs.asleep hspin).1] at hmain
  cases hmain

theorem Handshake.move_main (hs : Handshake s)
    (hm : Move p h s .main h' s') : Handshake s' := by
  cases hm with
  | stay => exact hs
  | begin hmain =>
    exact of_next (hs.idle (by rw [hmain]; rfl)) rfl nofun nofun
  | clear hmain =>
    exact of_next (hs.idle (by rw [hmain]; rfl)) rfl (fun _ _ => rfl) nofun
  | publish hmain =>
    -- The event was cleared before, and nothing can have set it since.
    have hdone := hs.cleared _ hmain
    refine of_main (hs.idle (by rw [hmain]; rfl)) ?_ nofun nofun nofun
    intro _ hset
    rw [hdone] at hset
    cases hset
  | wake hmain hdone =>
    refine of_main ?_ ?_ (fun _ _ => hdone) nofun nofun
    · by_contra hspin
      rw [Bool.not_eq_false] at hspin
      rw [(hs.asleep hspin).2] at hdone
      cases hdone
    · exact fun _ _ => hs.answered (by rw [hmain]; rfl) hdone
  | giveUp hmain hfailed | refused hmain _ hfailed =>
    exact of_failed (hs.idle (by rw [hmain]; rfl)) hfailed
  | crash hmain hreply =>
    -- The main thread is awake, so there is a reply to read.
    exact absurd hreply (hs.answered (by rw [hmain]; rfl) (hs.awake _ hmain)).1
  | ok hmain hreply =>
    exact of_next (hs.idle (by rw [hmain]; rfl)) rfl nofun nofun

theorem Handshake.move_spin (hs : Handshake s) (ha : Apart s .spin)
    (hm : Move p h s .spin h' s') : Handshake s' := by
  have hs' := hs
  obtain ⟨hasleep, hbooked, hanswered, hawake, hcleared, halive⟩ := hs
  cases hm with
  | stay => exact hs'
  | ignore hspin | malformed hspin => exact ⟨nofun, nofun, hanswered, hawake, hcleared, halive⟩
  | accept hmatch =>
    have hmain := ha (accepts_iff.mpr ⟨_, hmatch⟩)
    refine ⟨fun _ => ⟨hmain, ?_⟩, nofun, hanswered, hawake, hcleared, halive⟩
    -- The event is not set: it is set after a reply is booked, and then none is waited for.
    by_contra hdone
    rw [Bool.not_eq_false] at hdone
    have hnone := (hanswered (awaiting_of_asleep hmain) hdone).2
    rw [hmatch.2.2] at hnone
    cases hnone
  | forward hspin hsettled =>
    obtain ⟨stats, rfl⟩ := hsettled.exists_eq
    exact ⟨fun _ => hasleep (by rw [hspin]; rfl), nofun, hanswered, hawake, hcleared, halive⟩
  | book hspin =>
    refine ⟨fun _ => hasleep (by rw [hspin]; rfl), fun _ => ⟨nofun, rfl⟩, fun _ _ => ⟨nofun, rfl⟩,
      hawake, hcleared, halive⟩
  | signal hspin =>
    obtain ⟨hmain, hdone⟩ := hasleep (by rw [hspin]; rfl)
    refine ⟨nofun, nofun, fun _ _ => hbooked hspin, fun _ _ => rfl, ?_, halive⟩
    intro a hpublish
    rw [show s.main = .publish a from hpublish] at hmain
    cases hmain

theorem Handshake.move (hs : Handshake s) (ha : Apart s a) (hm : Move p h s a h' s') :
    Handshake s' := by
  cases a with
  | main => exact hs.move_main hm
  | spin => exact hs.move_spin ha hm
  | line payload =>
    cases hm with
    | stay => exact hs
    | line hmain hlen => exact .of_next (hs.idle (by rw [hmain]; rfl)) rfl nofun nofun
  | timeout =>
    cases hm with
    | stay => exact hs
    | timeUp hmain hdone => exact .of_next ha rfl nofun nofun
  | rx msg =>
    cases hm with
    | stay => exact hs
    | stranger hspin hne => exact ⟨nofun, nofun, hs.answered, hs.awake, hs.cleared, hs.alive⟩
    | rx hspin heq => exact ⟨nofun, nofun, hs.answered, hs.awake, hs.cleared, hs.alive⟩

/-! ## What is counted, and what is on its way -/

theorem underWay_of_idle (hidle : s.spin.any SpinPlace.hasMatched = false) :
    s.underWay = if s.main.awaiting && s.master.done then reported s.master.reply else [] := by
  rw [underWay]
  rcases hspin : s.spin with _ | k
  · rfl
  · cases k with
    | look msg | forward msg => rfl
    | _ =>
      rw [hspin] at hidle
      cases hidle

theorem held_of_idle (hidle : s.spin.any SpinPlace.hasMatched = false) :
    s.held =
      if s.main.awaiting && s.master.done then s.master.reply.map fun r => (r.1, r.2.1)
      else none := by
  rw [held]
  rcases hspin : s.spin with _ | k
  · rfl
  · cases k with
    | look msg => rfl
    | _ =>
      rw [hspin] at hidle
      cases hidle

/-- The text that a message forwards, and its station. -/
def destined (f : Frame) : List UInt8 × UInt8 := (f.data, f.stationId)

/-- What was forwarded are the replies to the texts that count as answered, or are about to, but for
those that were not to be forwarded; each of them matched; and the reply on its way is the one that
matched last, for the attempt under way. -/
structure Once (h : History) (s : RelayThreads) : Prop where
  ok_eq : s.master.stats.ok = h.successes.length
  forwarded : h.forwards.map destined = (answers h s).filter fun r => r.2 ≠ 0
  noForward_eq : s.master.stats.noForward = ((answers h s).filter fun r => r.2 = 0).length
  matched : ∀ x ∈ h.successes, ∃ msg, (x.attempt, msg) ∈ h.matched ∧ x.reply = replyOf msg
  origin : ∀ r ∈ s.held, ∃ msg, h.matched.getLast? = some (h.begun.length, msg) ∧ r = replyOf msg

theorem underWay_eq_nil (hidle : s.spin.any SpinPlace.hasMatched = false)
    (hmain : (s.main.awaiting && s.master.done) = false) : s.underWay = [] := by
  rw [underWay_of_idle hidle, hmain]
  rfl

theorem held_eq_none (hidle : s.spin.any SpinPlace.hasMatched = false)
    (hmain : (s.main.awaiting && s.master.done) = false) : s.held = none := by
  rw [held_of_idle hidle, hmain]
  rfl

/-- The main thread moves, and nothing is on its way afterwards. -/
theorem Once.of_main (ho : Once h s) {m : RelayMaster} {next : MainPlace}
    (hidle : s.spin.any SpinPlace.hasMatched = false)
    (hafter : (next.awaiting && m.done) = false) (hforwards : h'.forwards = h.forwards)
    (hnone : m.stats.noForward = s.master.stats.noForward)
    (hok : m.stats.ok = h'.successes.length)
    (hanswers : h'.successes.map Success.reply = answers h s)
    (hmatched : ∀ x ∈ h'.successes, ∃ msg, (x.attempt, msg) ∈ h'.matched ∧
      x.reply = replyOf msg) :
    Once h' { s with master := m, main := next } := by
  have hsame : answers h' { s with master := m, main := next } = answers h s := by
    rw [answers, underWay_eq_nil (s := { s with master := m, main := next }) hidle hafter,
      List.append_nil, hanswers]
  refine ⟨hok, ?_, ?_, hmatched, ?_⟩
  · rw [hsame, hforwards]
    exact ho.forwarded
  · rw [hsame, ← ho.noForward_eq]
    exact hnone
  · rw [held_eq_none (s := { s with master := m, main := next }) hidle hafter]
    exact nofun

/-- The main thread moves, and nothing was on its way before either. -/
theorem Once.of_quiet (ho : Once h s) {m : RelayMaster} {next : MainPlace}
    (hidle : s.spin.any SpinPlace.hasMatched = false) (hnothing : s.underWay = [])
    (hafter : (next.awaiting && m.done) = false) (hforwards : h'.forwards = h.forwards)
    (hmatched : h'.matched = h.matched) (hsuccesses : h'.successes = h.successes)
    (hnone : m.stats.noForward = s.master.stats.noForward)
    (hok : m.stats.ok = s.master.stats.ok) : Once h' { s with master := m, main := next } := by
  refine ho.of_main hidle hafter hforwards hnone ?_ ?_ ?_
  · rw [hok, hsuccesses]
    exact ho.ok_eq
  · rw [answers, hnothing, List.append_nil, hsuccesses]
  · rw [hsuccesses, hmatched]
    exact ho.matched

theorem Failed.awaiting_eq {m m' : RelayMaster} {payload : List UInt8} {index : ℕ}
    {next : MainPlace} (hf : Failed p m payload index m' next) : next.awaiting = false := by
  rcases hf.next_eq with rfl | rfl <;> rfl

/-- The main thread reads the reply that matched last, to the attempt under way. -/
theorem Once.exists_read (ho : Once h s) (hs : Handshake s) {a : Attempt}
    (hmain : s.main = .read a) : ∃ msg ok, h.matched.getLast? = some (h.begun.length, msg) ∧
      s.master.reply = some (msg.data.drop replyHdrLen, msg.data.getD 4 0, ok) := by
  have hawaiting : s.main.awaiting = true := by
    rw [hmain]
    rfl
  have hdone := hs.awake a hmain
  obtain ⟨⟨payload, dst, ok⟩, hreply⟩ :=
    Option.ne_none_iff_exists'.mp (hs.answered hawaiting hdone).1
  have hheld : s.held = some (payload, dst) := by
    rw [held_of_idle (hs.idle (by rw [hmain]; rfl)), hawaiting, hdone, hreply]
    rfl
  obtain ⟨msg, hlast, heq⟩ := ho.origin _ hheld
  obtain ⟨rfl, rfl⟩ := Prod.mk.inj heq
  exact ⟨msg, ok, hlast, hreply⟩

/-- The success that was under way is counted. -/
theorem Once.succeed (ho : Once h s) (hs : Handshake s) {a : Attempt} {payload : List UInt8}
    {dst : UInt8} (hmain : s.main = .read a) (hreply : s.master.reply = some (payload, dst, true))
    {m : RelayMaster} (hnone : m.stats.noForward = s.master.stats.noForward)
    (hok : m.stats.ok = s.master.stats.ok + 1) :
    Once { h with
        successes := h.successes ++
          [⟨s.master.stats.total, a.payload, h.begun.length, (payload, dst)⟩] }
      { s with master := m, main := .input } := by
  have hidle := hs.idle (by rw [hmain]; rfl)
  have hone : s.underWay = [(payload, dst)] := by
    rw [underWay_of_idle hidle, hmain, hs.awake _ hmain, hreply]
    rfl
  refine ho.of_main hidle rfl rfl hnone ?_ ?_ ?_
  · rw [hok, ho.ok_eq, List.length_append, List.length_singleton]
  · rw [answers, hone, List.map_append, List.map_singleton]
  · intro x hx
    rcases List.mem_append.mp hx with hx | hx
    · exact ho.matched x hx
    · -- It was read off the reply that matched last.
      obtain ⟨msg, ok, hlast, hread⟩ := ho.exists_read hs hmain
      rw [List.mem_singleton.mp hx]
      rw [hreply] at hread
      obtain ⟨rfl, hrest⟩ := Prod.mk.inj (Option.some.inj hread)
      obtain ⟨rfl, -⟩ := Prod.mk.inj hrest
      exact ⟨msg, List.mem_of_getLast? hlast, rfl⟩

theorem Once.move_main (hs : Handshake s) (ho : Once h s) (hm : Move p h s .main h' s') :
    Once h' s' := by
  cases hm with
  | stay => exact ho
  | begin hmain | clear hmain =>
    have hidle := hs.idle (by rw [hmain]; rfl)
    exact ho.of_quiet hidle (underWay_eq_nil hidle (by rw [hmain]; rfl)) rfl rfl rfl rfl rfl rfl
  | publish hmain =>
    have hidle := hs.idle (by rw [hmain]; rfl)
    exact ho.of_quiet hidle (underWay_eq_nil hidle (by rw [hmain]; rfl)) (hs.cleared _ hmain)
      rfl rfl rfl rfl rfl
  | wake hmain hdone =>
    -- The event is set, so no callback is before setting it, and what is under way stays so.
    have hidle : s.spin.any SpinPlace.hasMatched = false := by
      by_contra hspin
      rw [Bool.not_eq_false] at hspin
      rw [(hs.asleep hspin).2] at hdone
      cases hdone
    obtain ⟨hok, hforwarded, hnone, hmatched, hheld⟩ := ho
    rw [answers, underWay_of_idle hidle, hmain] at hforwarded hnone
    rw [held_of_idle hidle, hmain] at hheld
    refine ⟨hok, ?_, ?_, hmatched, ?_⟩
    · rw [answers, underWay_of_idle (s := { s with main := .read _ }) hidle]
      exact hforwarded
    · rw [answers, underWay_of_idle (s := { s with main := .read _ }) hidle]
      exact hnone
    · rw [held_of_idle (s := { s with main := .read _ }) hidle]
      exact hheld
  | giveUp hmain hfailed =>
    have hidle := hs.idle (by rw [hmain]; rfl)
    obtain ⟨-, -, hnone, hok⟩ := hfailed.stats_eq
    exact ho.of_quiet hidle (underWay_eq_nil hidle (by rw [hmain]; rfl))
      (by rw [hfailed.awaiting_eq]; rfl) rfl rfl rfl hnone hok
  | crash hmain hreply =>
    exact absurd hreply (hs.answered (by rw [hmain]; rfl) (hs.awake _ hmain)).1
  | @ok _ payload _ hmain hreply =>
    obtain ⟨n, hcompare⟩ := exists_compareReply s.master payload
    rw [hcompare]
    refine ho.succeed hs hmain hreply ?_ ?_ <;> rfl
  | @refused _ payload _ _ _ hmain hreply hfailed =>
    -- A reply that was not forwarded is no success, and nothing is under way.
    have hidle := hs.idle (by rw [hmain]; rfl)
    have hnothing : s.underWay = [] := by
      rw [underWay_of_idle hidle, hmain, hs.awake _ hmain, hreply]
      rfl
    obtain ⟨n, hcompare⟩ := exists_compareReply s.master payload
    rw [hcompare] at hfailed
    obtain ⟨-, -, hnone, hok⟩ := hfailed.stats_eq
    exact ho.of_quiet hidle hnothing (by rw [hfailed.awaiting_eq]; rfl) rfl rfl rfl hnone hok

/-- A reply is settled: what is forwarded for it is what will be reported. -/
theorem Once.forward (ho : Once h s) (hs : Handshake s) {msg : Frame}
    (hspin : s.spin = some (.forward msg)) {m : RelayMaster} {ok : Bool} {out : List Frame}
    (hsettled : Settled p s.master (msg.data.getD 4 0) (msg.data.drop replyHdrLen)
      msg.functionCode m ok out) :
    Once { h with forwards := h.forwards ++ out } { s with
      master := m
      spin := some (.book (msg.data.drop replyHdrLen) (msg.data.getD 4 0) ok) } := by
  -- The main thread still waits, so nothing else is under way.
  have hnothing : s.underWay = [] := by
    obtain ⟨-, hdone⟩ := hs.asleep (by rw [hspin]; rfl)
    rw [underWay, hspin]
    dsimp only
    rw [hdone, Bool.and_false]
    rfl
  obtain ⟨hok, hforwarded, hnone, hmatched, hheld⟩ := ho
  rw [answers, hnothing, List.append_nil] at hforwarded hnone
  rw [held, hspin] at hheld
  have hafter : answers { h with forwards := h.forwards ++ out } { s with
      master := m
      spin := some (.book (msg.data.drop replyHdrLen) (msg.data.getD 4 0) ok) } =
        h.successes.map Success.reply ++
          reported (some (msg.data.drop replyHdrLen, msg.data.getD 4 0, ok)) := rfl
  cases hsettled with
  | noForward hzero =>
    refine ⟨hok, ?_, ?_, hmatched, hheld⟩
    · rw [hafter, List.append_nil, List.filter_append, ← hforwarded, hzero]
      exact (List.append_nil _).symm
    · rw [hafter, List.filter_append, List.length_append, ← hnone, hzero]
      rfl
  | badDst | tooLong =>
    refine ⟨hok, ?_, ?_, hmatched, hheld⟩
    · rw [hafter, List.append_nil, reported_false, List.append_nil]
      exact hforwarded
    · rw [hafter, reported_false, List.append_nil]
      exact hnone
  | forwarded hone =>
    have hne : msg.data.getD 4 0 ≠ 0 := by
      intro hzero
      rw [hzero] at hone
      exact absurd hone (by decide)
    obtain ⟨hkeep, hdrop⟩ := filter_reported (msg.data.drop replyHdrLen) hne
    refine ⟨hok, ?_, ?_, hmatched, hheld⟩
    · rw [hafter, List.filter_append, List.map_append, ← hforwarded, hkeep]
      rfl
    · rw [hafter, List.filter_append, List.length_append, ← hnone, hdrop]
      rfl

theorem Once.move_spin (hs : Handshake s) (ho : Once h s)
    (hm : Move p h s .spin h' s') : Once h' s' := by
  have ho' := ho
  obtain ⟨hok, hforwarded, hnone, hmatched, hheld⟩ := ho
  cases hm with
  | stay => exact ho'
  | ignore hspin | malformed hspin =>
    have hsame := underWay_of_idle (s := s) (by rw [hspin]; rfl)
    have hsame' := held_of_idle (s := s) (by rw [hspin]; rfl)
    rw [answers, hsame] at hforwarded hnone
    rw [hsame'] at hheld
    exact ⟨hok, hforwarded, hnone, hmatched, hheld⟩
  | accept hmatch =>
    have hsame := underWay_of_idle (s := s) (by rw [hmatch.1]; rfl)
    rw [answers, hsame] at hforwarded hnone
    refine ⟨hok, hforwarded, hnone, ?_, ?_⟩
    · intro x hx
      obtain ⟨msg, hmem, heq⟩ := hmatched x hx
      exact ⟨msg, List.mem_append_left _ hmem, heq⟩
    · intro r hr
      obtain rfl := Option.some.inj hr
      exact ⟨_, List.getLast?_concat, rfl⟩
  | forward hspin hsettled => exact ho'.forward hs hspin hsettled
  | book hspin =>
    rw [answers, underWay, hspin] at hforwarded hnone
    rw [held, hspin] at hheld
    exact ⟨hok, hforwarded, hnone, hmatched, hheld⟩
  | signal hspin =>
    -- What was under way in the callback is now for the main thread, which waits for it.
    obtain ⟨hmain, -⟩ := hs.asleep (by rw [hspin]; rfl)
    have hawaiting := awaiting_of_asleep hmain
    rw [answers, underWay, hspin] at hforwarded hnone
    rw [held, hspin] at hheld
    refine ⟨hok, ?_, ?_, hmatched, ?_⟩
    · dsimp only [answers, underWay]
      rw [hawaiting]
      exact hforwarded
    · dsimp only [answers, underWay]
      rw [hawaiting]
      exact hnone
    · dsimp only [held]
      rw [hawaiting]
      exact hheld

theorem Once.move (hs : Handshake s) (ho : Once h s) (ha : Apart s a)
    (hm : Move p h s a h' s') : Once h' s' := by
  cases a with
  | main => exact ho.move_main hs hm
  | spin => exact ho.move_spin hs hm
  | line payload =>
    cases hm with
    | stay => exact ho
    | line hmain hlen =>
      have hidle := hs.idle (by rw [hmain]; rfl)
      exact ho.of_quiet hidle (underWay_eq_nil hidle (by rw [hmain]; rfl)) rfl rfl rfl rfl rfl rfl
  | timeout =>
    cases hm with
    | stay => exact ho
    | timeUp hmain hdone =>
      -- The event is not set, and no callback is about to set it.
      exact ho.of_quiet ha (underWay_eq_nil ha (by rw [hdone, Bool.and_false])) rfl rfl rfl rfl
        rfl rfl
  | rx msg =>
    have ho' := ho
    obtain ⟨hok, hforwarded, hnone, hmatched, hheld⟩ := ho
    cases hm with
    | stay => exact ho'
    | stranger hspin | rx hspin =>
      rw [answers, underWay, hspin] at hforwarded hnone
      rw [held, hspin] at hheld
      exact ⟨hok, hforwarded, hnone, hmatched, hheld⟩

/-- What is under way is on its way to the main thread. -/
theorem Handshake.mem_held (hs : Handshake s) {r : List UInt8 × UInt8} (hr : r ∈ s.underWay) :
    r ∈ s.held := by
  have hreported : ∀ reply, r ∈ reported reply → r ∈ reply.map fun x => (x.1, x.2.1) := by
    rintro (_ | ⟨payload, dst, _ | _⟩) hmem
    · cases hmem
    · cases hmem
    · rw [List.mem_singleton.mp hmem]
      rfl
  rw [underWay] at hr
  rw [held]
  rcases hspin : s.spin with _ | k
  · rw [hspin] at hr
    dsimp only at hr ⊢
    split_ifs at hr ⊢
    · exact hreported _ hr
    · cases hr
  · rw [hspin] at hr
    cases k with
    | book payload dst ok => exact hreported _ hr
    | signal => exact hreported _ hr
    | forward msg =>
      -- The event is not set before the reply is left.
      dsimp only at hr
      rw [(hs.asleep (by rw [hspin]; rfl)).2, Bool.and_false] at hr
      cases hr
    | look msg =>
      dsimp only at hr ⊢
      split_ifs at hr ⊢
      · exact hreported _ hr
      · cases hr

/-- A success is under way only while the main thread waits for it or is about to read it. -/
theorem Handshake.awaiting (hs : Handshake s) (hne : s.underWay ≠ []) :
    s.main.awaiting = true := by
  by_cases hidle : s.spin.any SpinPlace.hasMatched = true
  · exact awaiting_of_asleep (hs.asleep hidle).1
  · rw [underWay_of_idle (Bool.eq_false_iff.mpr hidle)] at hne
    split_ifs at hne with hawaiting
    · exact (Bool.and_eq_true_iff.mp hawaiting).1
    · exact absurd rfl hne

theorem length_underWay_le (s : RelayThreads) : s.underWay.length ≤ 1 := by
  have hreported : ∀ r, (reported r).length ≤ 1 := by
    rintro (_ | ⟨payload, dst, _ | _⟩) <;> simp [reported]
  rw [underWay]
  split
  · exact hreported _
  · exact hreported _
  · split
    · exact hreported _
    · exact Nat.zero_le 1

/-- What holds after a run in which time-outs and callbacks keep apart: the main thread is alive and
reads its own reply; the texts that count as answered are different ones, each with a reply that
matched the attempt that sent it; and what was forwarded are these replies in order, with the one
under way, which is that of a later attempt, but for those that were not to be forwarded. -/
structure Sound (h : History) (s : RelayThreads) : Prop where
  alive : s.main ≠ .crashed
  own : ∀ a, s.main = .read a → ∃ msg ok, h.matched.getLast? = some (h.begun.length, msg) ∧
    s.master.reply = some (msg.data.drop replyHdrLen, msg.data.getD 4 0, ok)
  inTurn : InTurn h s
  ok_eq : s.master.stats.ok = h.successes.length
  matched : ∀ x ∈ h.successes, ∃ msg, (x.attempt, msg) ∈ h.matched ∧ x.reply = replyOf msg
  forwarded : h.forwards.map destined = (answers h s).filter fun r => r.2 ≠ 0
  noForward_eq : s.master.stats.noForward = ((answers h s).filter fun r => r.2 = 0).length
  one : s.underWay.length ≤ 1
  fresh : ∀ r ∈ s.underWay,
    (∃ msg, h.matched.getLast? = some (h.begun.length, msg) ∧ r = replyOf msg) ∧
      ∀ x ∈ h.successes, x.attempt < h.begun.length

theorem sound_of_handshake (hs : Handshake s) (ho : Once h s) (hi : InTurn h s) : Sound h s := by
  refine ⟨hs.alive, fun _ hmain => ho.exists_read hs hmain, hi, ho.ok_eq, ho.matched, ho.forwarded,
    ho.noForward_eq, length_underWay_le s, ?_⟩
  intro r hr
  refine ⟨ho.origin r (hs.mem_held hr), ?_⟩
  intro x hx
  -- The attempt under way is not over, so what was answered are earlier ones.
  have hawaiting := hs.awaiting (List.ne_nil_of_mem hr)
  have hlater := hi.attempts_le x hx
  cases hmain : s.main with
  | wait | read =>
    rw [hmain] at hlater
    exact hlater
  | _ =>
    rw [hmain] at hawaiting
    cases hawaiting

/-- **Forwarded once.** Where no time-out falls into a callback that has matched, and a reply is
matched only while the main thread sleeps, the main thread never fails and reads the reply to the
attempt it has just made; and what was forwarded are, in order and each once, the replies to the
texts that count as answered, but for those that were not to be forwarded. -/
theorem forwardedOnce_afterRun (p : MasterParams) (acts : List ThreadAction)
    (hacts : Automaton.Along (step p) Apart {} acts) :
    Sound (history p acts) (afterRun p acts) := by
  obtain ⟨hs, ho⟩ := afterRun_induction (fun h s => Handshake s ∧ Once h s) hacts
    ⟨⟨nofun, nofun, nofun, nofun, nofun, nofun⟩, rfl, rfl, rfl, nofun, nofun⟩
    fun h s a h' s' hinv ha hm => ⟨hinv.1.move ha hm, hinv.2.move hinv.1 ha hm⟩
  exact sound_of_handshake hs ho (inTurn_history p acts)

/-- A text that is forwarded, and one that is not to be. -/
theorem forwardedOnce_afterRun_hi :
    let reply (txn dst : UInt8) : Frame :=
      { stationId := 1, data := [0xF1, 0xF2, 0, txn, dst, 0x68, 0x69] }
    let acts : List ThreadAction :=
      [.line [0x68, 0x69], .main, .main, .main, .rx (reply 1 2), .spin, .spin, .spin, .spin, .main,
        .main, .line [0x68, 0x69], .main, .main, .main, .rx (reply 2 0), .spin, .spin, .spin, .spin,
        .main, .main]
    Automaton.Along (step {}) Apart {} acts ∧ Sound (history {} acts) (afterRun {} acts) ∧
      (history {} acts).successes.length = 2 ∧ (history {} acts).forwards.length = 1 := by
  intro reply acts
  have hacts : Automaton.Along (step {}) Apart {} acts := by decide
  exact ⟨hacts, forwardedOnce_afterRun {} acts hacts, by decide, by decide⟩

/-- The time is up when the reply is left and the event not yet set: the next attempt is woken with
no reply. -/
example :
    let reply : Frame := { stationId := 1, data := [0xF1, 0xF2, 0, 1, 2, 0x68, 0x69] }
    (afterRun {} [.line [0x68, 0x69], .main, .main, .main, .rx reply, .spin, .spin, .spin, .timeout,
      .main, .main, .main, .spin, .main, .main, .main]).main = .crashed := by
  decide

/-- Or the event is set before the next attempt clears it: the text is forwarded for either
attempt, and counts once. -/
example :
    let reply (txn : UInt8) : Frame :=
      { stationId := 1, data := [0xF1, 0xF2, 0, txn, 2, 0x68, 0x69] }
    let acts : List ThreadAction :=
      [.line [0x68, 0x69], .main, .main, .main, .rx (reply 1), .spin, .spin, .spin, .timeout, .spin,
        .main, .main, .main, .main, .rx (reply 2), .spin, .spin, .spin, .spin, .main, .main]
    (history {} acts).forwards.length = 2 ∧ (afterRun {} acts).master.stats.ok = 1 := by
  decide

end RelayThreads

end Ds10Relay

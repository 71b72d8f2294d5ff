import DS10Link.Relay.LossyLink
import DS10Link.Relay.MasterHandshake

/-!
# The relaying script and its responder

`ds10_relay_master.py` and `ds10_relay_responder.py` over a link that keeps every request and every
reply ever sent and delivers copies of them at any moment and any number of times, or never. A reply
answers the attempt it was asked by, so nothing is matched before the request was published; and as
long as nothing is matched a full turn of the number too late, a reply that matches is the reply to
the attempt under way.

## Main definitions

* `MasterLink`, `MasterLink.step`: the two scripts and the link between them
* `MasterLink.Admissible`: no other station speaks for the slave, and nothing is matched too late
* `MasterLink.Timely`: besides, no time-out falls into a callback that has matched
* `MasterLink.answeredTexts`: the texts that count as answered

## Main results

* `forwards_sublist`: what is forwarded is a subsequence of the texts sent, each to its station
* `sound_link`: and where time-outs keep apart, these are the texts that count as answered
-/

open Word

namespace Ds10Relay

open Transaction RelayMaster RelayThreads

/-- The threads of the relaying script and their history, the requests that the responder has
answered so far, the replies sent with the place of the request that each answers, and the place of
the request that the message in the callback answers. -/
structure MasterLink where
  threads : RelayThreads := {}
  history : History := {}
  answered : ℕ := 0
  replies : List (ℕ × Frame) := []
  origin : ℕ := 0
  deriving DecidableEq, Repr

namespace MasterLink

/-- What happens next: the script acts on its own account or hears another station, a copy of a
request is delivered, or a copy of a reply. -/
inductive Action where
  | thread (a : ThreadAction)
  | deliverRequest (i : ℕ)
  | deliverReply (j : ℕ)
  deriving DecidableEq, Repr

/-- An action of the script. -/
def act (p : MasterParams) (l : MasterLink) (a : ThreadAction) : MasterLink :=
  { l with
    threads := (RelayThreads.step p l.threads a).1
    history := l.history.extend p l.threads a }

/-- One action. -/
def step (p : MasterParams) (r : ResponderParams) (l : MasterLink) :
    Action → MasterLink × List Empty
  | .thread a => (l.act p a, [])
  | .deliverRequest i =>
    match l.history.requests[i]? with
    | none => (l, [])
    | some request =>
      let answer := RelayResponder.onRx r l.answered (LossyLink.received 0 request)
      ({ l with
         answered := answer.1
         replies := l.replies ++ answer.2.map fun f => (i, f) }, [])
  | .deliverReply j =>
    match l.replies[j]? with
    | none => (l, [])
    | some q =>
      ({ l.act p (.rx (LossyLink.received p.slave1 q.2)) with
         origin := if l.threads.spin.isNone then q.1 else l.origin }, [])

/-- The link after a run. -/
def afterRun (p : MasterParams) (r : ResponderParams) (acts : List Action) : MasterLink :=
  Automaton.stateAfter (step p r) {} acts

/-- No other station speaks for the slave, and a reply that matches answers one of the last 65536
attempts. -/
def Admissible (p : MasterParams) (l : MasterLink) : Action → Prop
  | .thread (.rx msg) => msg.stationId ≠ p.slave1
  | .thread .spin => l.threads.accepts = true → l.history.begun.length ≤ l.origin + 65536
  | _ => True

/-- The main thread has run out of time and not given up yet. -/
def givingUp : MainPlace → Bool
  | .giveUp _ => true
  | _ => false

/-- Besides, no time-out falls into a callback that has matched, and no reply is matched between a
time-out and the main thread's giving up. -/
def Timely (p : MasterParams) (l : MasterLink) (a : Action) : Prop :=
  Admissible p l a ∧
    (a = .thread .timeout → l.threads.spin.any SpinPlace.hasMatched = false) ∧
    (a = .thread .spin → l.threads.accepts = true → givingUp l.threads.main = false)

instance (p : MasterParams) (l : MasterLink) : DecidablePred (Admissible p l)
  | .thread (.rx msg) => inferInstanceAs (Decidable (msg.stationId ≠ p.slave1))
  | .thread .spin => inferInstanceAs (Decidable (_ → _))
  | .thread (.line _) | .thread .main | .thread .timeout | .deliverRequest _ | .deliverReply _ =>
    inferInstanceAs (Decidable True)

instance (p : MasterParams) (l : MasterLink) : DecidablePred (Timely p l) :=
  fun _ => inferInstanceAs (Decidable (_ ∧ _))

/-! ## What the link carries -/

/-- The frame is the responder's reply to the request at the place `i`. -/
def Answers (r : ResponderParams) (h : History) (i : ℕ) (f : Frame) : Prop :=
  i < h.requests.length ∧ ∃ text, h.begun[i]? = some text ∧
    f.functionCode = 0x10 ∧
    f.data = Transaction.reply (UInt16.ofNat (i + 1)) (RelayNode.routeFor r text) text

variable {p : MasterParams} {r : ResponderParams} {l : MasterLink}

/-- What happens to the threads only adds to the history. -/
theorem prefix_of_move {h h' : History} {s s' : RelayThreads} {a : ThreadAction}
    (hm : Move p h s a h' s') : h.begun <+: h'.begun ∧ h.requests <+: h'.requests := by
  cases hm with
  | begin => exact ⟨List.prefix_append _ _, List.prefix_refl _⟩
  | publish => exact ⟨List.prefix_refl _, List.prefix_append _ _⟩
  | _ => exact ⟨List.prefix_refl _, List.prefix_refl _⟩

theorem Answers.mono {h h' : History} {i : ℕ} {f : Frame} (ha : Answers r h i f)
    (hbegun : h.begun <+: h'.begun) (hrequests : h.requests <+: h'.requests) :
    Answers r h' i f := by
  obtain ⟨hi, text, htext, hcode, hdata⟩ := ha
  refine ⟨Nat.lt_of_lt_of_le hi hrequests.length_le, text, ?_, hcode, hdata⟩
  obtain ⟨more, hmore⟩ := hbegun
  rw [← hmore, List.getElem?_append_left (List.getElem?_eq_some_iff.mp htext).1, htext]

/-- The message in the callback is the one it was, unless one is delivered. -/
theorem msg_of_move {h h' : History} {s s' : RelayThreads} {a : ThreadAction}
    (hm : Move p h s a h' s') :
    (∀ k ∈ s'.spin, ∀ msg ∈ k.msg?, ∃ k ∈ s.spin, msg ∈ k.msg?) ∨
      ∃ msg, a = .rx msg ∧ msg.stationId = p.slave1 ∧ s.spin = none ∧
        s'.spin = some (.look msg) := by
  cases hm with
  | rx hspin heq => exact .inr ⟨_, rfl, heq, hspin, rfl⟩
  | accept hmatch =>
    refine .inl ?_
    intro k hk msg hmsg
    obtain rfl := Option.some.inj hk
    exact ⟨_, hmatch.1, hmsg⟩
  | stranger | ignore | malformed | signal => exact .inl nofun
  | forward | book =>
    refine .inl ?_
    intro k hk msg hmsg
    obtain rfl := Option.some.inj hk
    cases hmsg
  | _ => exact .inl fun k hk msg hmsg => ⟨k, hk, hmsg⟩

theorem matched_of_move {h h' : History} {s s' : RelayThreads} {a : ThreadAction}
    (hm : Move p h s a h' s') {m : ℕ × Frame} (hmem : m ∈ h'.matched) :
    m ∈ h.matched ∨ a = .spin ∧ Matches s m.2 ∧ m.1 = h.begun.length := by
  cases hm with
  | accept hmatch =>
    rcases List.mem_append.mp hmem with hmem | hmem
    · exact .inl hmem
    · rw [List.mem_singleton.mp hmem]
      exact .inr ⟨rfl, hmatch, rfl⟩
  | _ => exact .inl hmem

/-- Every reply answers its request, the one in the callback too, and a reply that matched answers
the attempt it matched. -/
structure Carries (p : MasterParams) (r : ResponderParams) (l : MasterLink) : Prop where
  paired : Paired p l.history l.threads
  replies : ∀ q ∈ l.replies, Answers r l.history q.1 q.2
  inHand : ∀ k ∈ l.threads.spin, ∀ msg ∈ k.msg?, Answers r l.history l.origin msg
  matched : ∀ m ∈ l.history.matched, Answers r l.history (m.1 - 1) m.2

/-- A reply that matches, and not too late, answers the attempt under way. -/
theorem Carries.origin_eq (hc : Carries p r l) {msg : Frame} (hm : Matches l.threads msg)
    (hfresh : l.history.begun.length ≤ l.origin + 65536) :
    l.origin + 1 = l.history.begun.length := by
  obtain ⟨hi, text, htext, -, hdata⟩ := hc.inHand _ hm.1 msg rfl
  obtain ⟨-, -, dst, payload, htaken⟩ := hc.paired.takenFor hm
  have hle := (List.getElem?_eq_some_iff.mp htext).1
  rw [htaken] at hdata
  obtain ⟨hword, -, -⟩ := reply_inj hdata
  exact ofNat_inj_of_lt hword.symm hle (by omega)

theorem Carries.act (hc : Carries p r l) {a : ThreadAction} (ha : Admissible p l (.thread a)) :
    Carries p r (l.act p a) := by
  have hm := move_step p l.history l.threads a
  obtain ⟨hbegun, hrequests⟩ := prefix_of_move hm
  refine ⟨hc.paired.move hm, ?_, ?_, ?_⟩
  · exact fun q hq => (hc.replies q hq).mono hbegun hrequests
  · intro k hk msg hmsg
    rcases msg_of_move hm with hsame | ⟨msg', rfl, heq, -⟩
    · obtain ⟨k', hk', hmsg'⟩ := hsame k hk msg hmsg
      exact (hc.inHand k' hk' msg hmsg').mono hbegun hrequests
    · exact absurd heq ha
  · intro m hmem
    rcases matched_of_move hm hmem with hold | ⟨rfl, hmatch, heq⟩
    · exact (hc.matched m hold).mono hbegun hrequests
    · have horigin := hc.origin_eq hmatch (ha (accepts_iff.mpr ⟨_, hmatch⟩))
      rw [heq, ← horigin, Nat.add_sub_cancel]
      exact (hc.inHand _ hmatch.1 m.2 rfl).mono hbegun hrequests

/-- The responder's reply to a request answers it. -/
theorem Carries.answers_onRx (hc : Carries p r l) {i : ℕ} {request f : Frame}
    (hrequest : l.history.requests[i]? = some request)
    (hf : f ∈ (RelayResponder.onRx r l.answered (LossyLink.received 0 request)).2) :
    Answers r l.history i f := by
  have hi := (List.getElem?_eq_some_iff.mp hrequest).1
  have hsent : (requestsOf p l.history.begun)[i]? = some request := by
    rw [← hc.paired.requests, List.getElem?_append_left hi, hrequest]
  rw [requestsOf, List.getElem?_mapIdx] at hsent
  obtain ⟨text, htext, rfl⟩ := Option.map_eq_some_iff.mp hsent
  rw [RelayResponder.onRx_request r l.answered _ (UInt16.ofNat (i + 1)) text rfl,
    List.mem_singleton] at hf
  rw [hf]
  exact ⟨hi, text, htext, rfl, rfl⟩

theorem Carries.step (hc : Carries p r l) {a : Action} (ha : Admissible p l a) :
    Carries p r (step p r l a).1 := by
  cases a with
  | thread a => exact hc.act ha
  | deliverRequest i =>
    rcases hrequest : l.history.requests[i]? with _ | request
    · simp only [MasterLink.step, hrequest]
      exact hc
    · simp only [MasterLink.step, hrequest]
      -- What the responder publishes for a request answers that request.
      refine ⟨hc.paired, ?_, hc.inHand, hc.matched⟩
      intro q hq
      rcases List.mem_append.mp hq with hq | hq
      · exact hc.replies q hq
      · obtain ⟨f, hf, rfl⟩ := List.mem_map.mp hq
        exact hc.answers_onRx hrequest hf
  | deliverReply j =>
    rcases hreply : l.replies[j]? with _ | q
    · simp only [MasterLink.step, hreply]
      exact hc
    · simp only [MasterLink.step, hreply]
      have hanswers := hc.replies q (List.mem_of_getElem? hreply)
      have hm := move_step p l.history l.threads (.rx (LossyLink.received p.slave1 q.2))
      obtain ⟨hbegun, hrequests⟩ := prefix_of_move hm
      refine ⟨hc.paired.move hm, ?_, ?_, ?_⟩
      · exact fun q hq => (hc.replies q hq).mono hbegun hrequests
      · intro k hk msg hmsg
        rcases msg_of_move hm with hsame | ⟨msg', heq, -, hnone, hlook⟩
        · obtain ⟨k', hk', hmsg'⟩ := hsame k hk msg hmsg
          rw [hk']
          exact (hc.inHand k' hk' msg hmsg').mono hbegun hrequests
        · -- The callback was idle and takes up the reply.
          obtain rfl : LossyLink.received p.slave1 q.2 = msg' := by injection heq
          have hplace : some k = some (.look (LossyLink.received p.slave1 q.2)) :=
            hk.symm.trans hlook
          obtain rfl := Option.some.inj hplace
          obtain rfl := Option.some.inj hmsg
          rw [hnone]
          exact hanswers.mono hbegun hrequests
      · intro m hmem
        rcases matched_of_move hm hmem with hold | ⟨heq, -⟩
        · exact (hc.matched m hold).mono hbegun hrequests
        · cases heq

theorem carries_afterRun {acts : List Action}
    (hacts : Automaton.Along (MasterLink.step p r) (Admissible p) {} acts) :
    Carries p r (afterRun p r acts) := by
  refine hacts.stateAfter_induction ?_ fun l a hc ha => hc.step ha
  exact ⟨⟨rfl, nofun, rfl, .nil, nofun, nofun, rfl, nofun⟩, nofun, nofun, nofun⟩

/-! ## What is forwarded -/

/-- A text on its way to the station that the responder's table picks for it. -/
def routed (r : ResponderParams) (text : List UInt8) : Frame where
  stationId := RelayNode.routeFor r text
  functionCode := 0x10
  data := text

theorem Answers.forwardOf_eq {h : History} {i : ℕ} {msg f : Frame} (ha : Answers r h i msg)
    (hf : forwardOf p msg = some f) : (h.begun.map (routed r))[i]? = some f := by
  obtain ⟨-, text, htext, hcode, hdata⟩ := ha
  rw [forwardOf, hdata, hcode] at hf
  split_ifs at hf
  rw [List.getElem?_map, htext, ← Option.some.inj hf]
  rfl

/-- What is picked from a list at increasing places is a subsequence of it. -/
theorem filterMap_sublist {α β : Type*} {g : ℕ × α → Option β} {l : List β} {ms : List (ℕ × α)}
    (hincreasing : (ms.map Prod.fst).Pairwise (· < ·))
    (hpick : ∀ m ∈ ms, 1 ≤ m.1 ∧ ∀ f, g m = some f → l[m.1 - 1]? = some f) {n : ℕ}
    (hn : ∀ m ∈ ms, m.1 ≤ n) : (ms.filterMap g).Sublist (l.take n) := by
  induction ms using List.reverseRecOn generalizing n with
  | nil => exact List.nil_sublist _
  | append_singleton ms m ih =>
    rw [List.map_append, List.pairwise_append] at hincreasing
    obtain ⟨hbefore, -, hlt⟩ := hincreasing
    have hlast : m ∈ ms ++ [m] := List.mem_append_right _ (List.mem_singleton_self m)
    obtain ⟨hone, hval⟩ := hpick m hlast
    have hms : (ms.filterMap g).Sublist (l.take (m.1 - 1)) := by
      refine ih hbefore (fun m' hm' => hpick m' (List.mem_append_left _ hm')) ?_
      intro m' hm'
      have := hlt m'.1 (List.mem_map_of_mem hm') m.1 (List.mem_singleton_self _)
      omega
    have hstep : ((ms ++ [m]).filterMap g).Sublist (l.take m.1) := by
      obtain ⟨k, hk⟩ : ∃ k, m.1 = k + 1 := ⟨m.1 - 1, by omega⟩
      rw [hk, Nat.add_sub_cancel] at hms hval
      rw [List.filterMap_append, hk, List.take_add_one]
      refine hms.append ?_
      rw [List.filterMap_cons, List.filterMap_nil]
      cases hg : g m with
      | none => exact List.nil_sublist _
      | some f =>
        rw [hval f hg]
        exact List.Sublist.refl _
    exact hstep.trans (List.take_sublist_take_left (hn m hlast))

theorem Carries.sublist_routed (hc : Carries p r l) :
    l.history.forwards.Sublist (l.history.begun.map (routed r)) := by
  have hpicked : (l.history.matched.filterMap fun m => forwardOf p m.2).Sublist
      ((l.history.begun.map (routed r)).take l.history.begun.length) := by
    refine filterMap_sublist hc.paired.increasing ?_ fun m hm => (hc.paired.matched m hm).2.1
    intro m hm
    exact ⟨(hc.paired.matched m hm).1, fun f hf => (hc.matched m hm).forwardOf_eq hf⟩
  have hsofar : l.history.forwards <+: l.history.matched.filterMap fun m => forwardOf p m.2 :=
    ⟨_, hc.paired.forwards⟩
  exact (hsofar.sublist.trans hpicked).trans (List.take_sublist _ _)

/-- **End to end.** Over a link that loses, delays, reorders and duplicates, and in whichever order
the threads move, what is forwarded is a subsequence of the texts of the attempts, each as it was
entered and on its way to the station that the table picks for it. -/
theorem forwards_sublist (p : MasterParams) (r : ResponderParams) (acts : List Action)
    (hacts : Automaton.Along (MasterLink.step p r) (Admissible p) {} acts) :
    let l := afterRun p r acts
    l.history.forwards.Sublist (l.history.begun.map (routed r)) :=
  (carries_afterRun hacts).sublist_routed

/-- A text whose reply is delivered twice is forwarded once. -/
theorem forwards_sublist_twice :
    let r : ResponderParams := ⟨[⟨[0x68], 2⟩], 0⟩
    let acts : List Action :=
      [.thread (.line [0x68, 0x69]), .thread .main, .thread .main, .thread .main,
        .deliverRequest 0, .deliverReply 0, .thread .spin, .thread .spin, .thread .spin,
        .thread .spin, .deliverReply 0, .thread .spin, .thread .main, .thread .main]
    let l := afterRun {} r acts
    l.history.forwards.Sublist (l.history.begun.map (routed r)) ∧
      l.history.forwards = [{ stationId := 2, functionCode := 0x10, data := [0x68, 0x69] }] := by
  intro r acts l
  exact ⟨forwards_sublist {} r acts (by decide), by decide⟩

/-! ## Time-outs that keep apart -/

/-- The main thread is at an attempt that may still be answered. -/
def offers : MainPlace → Bool
  | .clear _ | .publish _ | .wait _ | .giveUp _ => true
  | _ => false

/-- A number is waited for only while the main thread is at its attempt. -/
def Waits (s : RelayThreads) : Prop := s.master.pending ≠ none → offers s.main = true

theorem Waits.move {h h' : History} {s s' : RelayThreads} {a : ThreadAction} (hw : Waits s)
    (hs : Handshake s) (hm : Move p h s a h' s') : Waits s' := by
  -- Where the main thread is at no attempt, no number is waited for.
  have hnone : offers s.main = false → s.master.pending = none := by
    intro hmain
    by_contra hne
    rw [hw hne] at hmain
    cases hmain
  cases hm with
  | stay | stranger | rx | ignore | malformed | accept | signal => exact hw
  | forward hspin hsettled =>
    obtain ⟨stats, rfl⟩ := hsettled.exists_eq
    exact hw
  | book => exact fun hne => absurd rfl hne
  | begin | clear | publish | timeUp => exact fun _ => rfl
  | line hmain | crash hmain => exact fun hne => absurd (hnone (by rw [hmain]; rfl)) hne
  | wake hmain hdone =>
    exact fun hne => absurd (hs.answered (by rw [hmain]; rfl) hdone).2 hne
  | giveUp hmain hfailed =>
    obtain ⟨stats, rfl, -⟩ := hfailed.exists_eq
    exact fun hne => absurd rfl hne
  | @ok _ payload _ hmain =>
    obtain ⟨n, hcompare⟩ := exists_compareReply s.master payload
    rw [hcompare]
    exact fun hne => absurd (hnone (by rw [hmain]; rfl)) hne
  | @refused _ payload _ _ _ hmain _ hfailed =>
    obtain ⟨n, hcompare⟩ := exists_compareReply s.master payload
    rw [hcompare] at hfailed
    obtain ⟨stats, rfl, -⟩ := hfailed.exists_eq
    exact fun hne => absurd (hnone (by rw [hmain]; rfl)) hne

/-- A reply finds the main thread asleep: it answers the attempt under way, whose request has been
published. -/
theorem Carries.asleep (hc : Carries p r l) (hw : Waits l.threads)
    (hfresh : l.threads.accepts = true → l.history.begun.length ≤ l.origin + 65536)
    (hup : l.threads.accepts = true → givingUp l.threads.main = false)
    (ha : l.threads.accepts = true) : l.threads.main.asleep = true := by
  obtain ⟨msg, hm⟩ := accepts_iff.mp ha
  have horigin := hc.origin_eq hm (hfresh ha)
  have hoffers := hw (by rw [hm.2.2]; exact Option.some_ne_none _)
  have hsent := (hc.inHand _ hm.1 msg rfl).1
  have hlen := congrArg List.length hc.paired.requests
  rw [List.length_append, requestsOf, List.length_mapIdx] at hlen
  have hnot := hup ha
  cases hmain : l.threads.main with
  | wait a => rfl
  | clear a | publish a =>
    rw [hmain, MainPlace.toPublish, List.length_singleton] at hlen
    omega
  | giveUp a =>
    rw [hmain] at hnot
    cases hnot
  | _ =>
    rw [hmain] at hoffers
    cases hoffers

/-- What timely actions keep. -/
structure InStep (p : MasterParams) (r : ResponderParams) (l : MasterLink) : Prop where
  carries : Carries p r l
  handshake : Handshake l.threads
  once : Once l.history l.threads
  inTurn : InTurn l.history l.threads
  waits : Waits l.threads

theorem InStep.threads {a : ThreadAction} (hi : InStep p r l) (ha : Apart l.threads a) :
    Handshake (l.act p a).threads ∧ Once (l.act p a).history (l.act p a).threads ∧
      InTurn (l.act p a).history (l.act p a).threads ∧ Waits (l.act p a).threads := by
  have hm := move_step p l.history l.threads a
  exact ⟨hi.handshake.move ha hm, hi.once.move hi.handshake ha hm, hi.inTurn.move hm,
    hi.waits.move hi.handshake hm⟩

theorem InStep.step (hi : InStep p r l) {a : Action} (ha : Timely p l a) :
    InStep p r (step p r l a).1 := by
  obtain ⟨hadmissible, htimeout, hgiving⟩ := ha
  have hc := hi.carries.step hadmissible
  cases a with
  | thread a =>
    -- A reply that is matched finds the main thread asleep, by the link and not by assumption.
    have hapart : Apart l.threads a := by
      cases a with
      | timeout => exact htimeout rfl
      | spin => exact fun h => hi.carries.asleep hi.waits hadmissible (hgiving rfl) h
      | line | main | rx => trivial
    obtain ⟨hhandshake, honce, hturn, hwaits⟩ := hi.threads (p := p) hapart
    exact ⟨hc, hhandshake, honce, hturn, hwaits⟩
  | deliverRequest i =>
    rcases hrequest : l.history.requests[i]? with _ | request
    · simp only [MasterLink.step, hrequest]
      exact hi
    · simp only [MasterLink.step, hrequest] at hc ⊢
      exact ⟨hc, hi.handshake, hi.once, hi.inTurn, hi.waits⟩
  | deliverReply j =>
    rcases hreply : l.replies[j]? with _ | q
    · simp only [MasterLink.step, hreply]
      exact hi
    · simp only [MasterLink.step, hreply] at hc ⊢
      obtain ⟨hhandshake, honce, hturn, hwaits⟩ :=
        hi.threads (p := p) (a := .rx (LossyLink.received p.slave1 q.2)) trivial
      exact ⟨hc, hhandshake, honce, hturn, hwaits⟩

theorem inStep_afterRun {acts : List Action}
    (hacts : Automaton.Along (MasterLink.step p r) (Timely p) {} acts) :
    InStep p r (afterRun p r acts) := by
  refine hacts.stateAfter_induction ?_ fun l a hi ha => hi.step ha
  refine ⟨⟨⟨rfl, nofun, rfl, .nil, nofun, nofun, rfl, nofun⟩, nofun, nofun, nofun⟩, ?_, ?_, ?_, ?_⟩
  · exact ⟨nofun, nofun, nofun, nofun, nofun, nofun⟩
  · exact ⟨rfl, rfl, rfl, nofun, nofun⟩
  · exact ⟨.nil, nofun, .nil, nofun, nofun, nofun⟩
  · exact fun hne => absurd rfl hne

/-! ## The texts answered -/

/-- The texts that count as answered, and the one that is about to. -/
def answeredTexts (l : MasterLink) : List (List UInt8) :=
  l.history.successes.map Success.payload ++ l.threads.underWay.map Prod.fst

/-- A reply repeats the text and names the station that the table picks. -/
theorem Answers.replyOf_eq {h : History} {i : ℕ} {msg : Frame} (ha : Answers r h i msg) :
    ∃ text, h.begun[i]? = some text ∧ replyOf msg = (text, RelayNode.routeFor r text) := by
  obtain ⟨-, text, htext, -, hdata⟩ := ha
  refine ⟨text, htext, ?_⟩
  rw [replyOf, hdata]
  rfl

/-- The replies that count are to the texts that were entered, with the station that the table
picks. -/
theorem InStep.answers_eq (hi : InStep p r l) :
    answers l.history l.threads =
      l.answeredTexts.map fun text => (text, RelayNode.routeFor r text) := by
  rw [answers, answeredTexts, List.map_append, List.map_map, List.map_map]
  refine congrArg₂ _ (List.map_congr_left ?_) ?_
  · intro x hx
    obtain ⟨msg, hmatched, heq⟩ := hi.once.matched x hx
    obtain ⟨text, htext, hreply⟩ := (hi.carries.matched _ hmatched).replyOf_eq
    obtain ⟨-, hsent⟩ := hi.inTurn.sent x hx
    obtain rfl := Option.some.inj (htext.symm.trans hsent)
    rw [heq, hreply]
    rfl
  · refine (List.map_id _).symm.trans (List.map_congr_left ?_)
    intro u hu
    obtain ⟨msg, hlast, rfl⟩ := hi.once.origin u (hi.handshake.mem_held hu)
    obtain ⟨text, -, hreply⟩ := (hi.carries.matched _ (List.mem_of_getLast? hlast)).replyOf_eq
    rw [Function.comp_apply, hreply]
    rfl

/-- What is forwarded is told by its data and its station. -/
theorem InStep.forwards_eq (hi : InStep p r l) :
    l.history.forwards =
      (l.answeredTexts.filter fun text => RelayNode.routeFor r text ≠ 0).map (routed r) := by
  have hrouted : l.history.forwards.map (fun f => routed r f.data) = l.history.forwards := by
    refine (List.map_congr_left ?_).trans (List.map_id _)
    intro f hf
    obtain ⟨text, -, rfl⟩ := List.mem_map.mp (hi.carries.sublist_routed.subset hf)
    rfl
  have hdata : l.history.forwards.map Frame.data =
      l.answeredTexts.filter fun text => RelayNode.routeFor r text ≠ 0 := by
    have hforwarded := congrArg (List.map Prod.fst) hi.once.forwarded
    rw [hi.answers_eq, List.filter_map, List.map_map, List.map_map] at hforwarded
    exact hforwarded.trans (List.map_id _)
  rw [← hdata, List.map_map]
  exact hrouted.symm

/-- **Once, end to end.** Where besides no time-out falls into a callback that has matched, and no
reply is matched between a time-out and the main thread's giving up, the main thread never fails,
and what is forwarded are the texts that count as answered, in order and each once, as they were
entered and to the station that the table picks, but for those that were not to be forwarded. -/
theorem sound_link (p : MasterParams) (r : ResponderParams) (acts : List Action)
    (hacts : Automaton.Along (MasterLink.step p r) (Timely p) {} acts) :
    let l := afterRun p r acts
    Sound l.history l.threads ∧
      l.history.forwards =
        (l.answeredTexts.filter fun text => RelayNode.routeFor r text ≠ 0).map (routed r) := by
  intro l
  have hi : InStep p r l := inStep_afterRun hacts
  exact ⟨sound_of_handshake hi.handshake hi.once hi.inTurn, hi.forwards_eq⟩

/-- A request that is lost, and the next attempt, which is answered; then a text that is not to be
forwarded. -/
theorem sound_link_retried :
    let r : ResponderParams := ⟨[⟨[0x68], 2⟩], 0⟩
    let acts : List Action :=
      [.thread (.line [0x68, 0x69]), .thread .main, .thread .main, .thread .main,
        .thread .timeout, .thread .main, .thread .main, .thread .main, .thread .main,
        .deliverRequest 1, .deliverReply 0, .thread .spin, .thread .spin, .thread .spin,
        .thread .spin, .thread .main, .thread .main, .thread (.line [0x6F]), .thread .main,
        .thread .main, .thread .main, .deliverRequest 2, .deliverReply 1, .thread .spin,
        .thread .spin, .thread .spin, .thread .spin, .thread .main, .thread .main]
    let l := afterRun {} r acts
    (Sound l.history l.threads ∧
        l.history.forwards =
          (l.answeredTexts.filter fun text => RelayNode.routeFor r text ≠ 0).map (routed r)) ∧
      l.history.requests.length = 3 ∧ l.answeredTexts = [[0x68, 0x69], [0x6F]] ∧
      l.history.forwards.length = 1 := by
  intro r acts l
  exact ⟨sound_link {} r acts (by decide), by decide, by decide, by decide⟩

end MasterLink

end Ds10Relay

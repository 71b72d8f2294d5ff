import DS10Link.Driver.Star
import DS10Link.Relay.LossyLink
import DS10Link.Relay.MasterLink

/-!
# Relaying over a star

The node `RelayNode` or the script `ds10_relay_master.py` runs at the master of a star, and one of
the two responders at the slave that is asked. Their messages go through the driver nodes, the
serial lines and the radio, all of which may lose messages and keep the order; what arrives are
frames that the nodes can cut off whole, as `Hears` says. What any other slave is given then are the
texts that the relay was to send, each as it was and to the station that the table picks for it; and
within 65536 attempts, in their order and each once at most.

## Main definitions

* `AppAt`: an application at a node of a star
* `RelayAt`: a relay at the master, and a responder at a slave
* `Relays`: what a relay publishes, in terms of what it was to send and of what it handled

## Main results

* `relays_node`, `relays_script`: the two relays
* `relayed_star_node`, `relayed_star_script`: who is given what
-/

open Automaton

namespace Ds10Relay

open Transaction Ds10Driver

/-- What an application reads of a message. -/
def Frame.ofMsg (msg : FrameMsg) : Frame where
  stationId := msg.stationId
  functionCode := msg.functionCode
  data := msg.data
  txSeq := msg.txSeq

/-- What a message says. -/
def Frame.content (f : Frame) : UInt8 × List UInt8 := (f.functionCode, f.data)

/-- An application at a node: the node transmits some of what it publishes, and it handles some of
what the node publishes, both in order. -/
structure AppAt (s : Site) (published handled : List Frame) : Prop where
  sends : (s.transmitted.map Frame.ofMsg).Sublist published
  handles : handled.Sublist (s.published.map Frame.ofMsg)

/-! ## The responders -/

/-- The programs that answer requests. -/
inductive Answerer where
  | node
  | script
  deriving DecidableEq, Repr

namespace Answerer

/-- What is answered in a run. -/
def answers (r : ResponderParams) : Answerer → List Frame → List Frame
  | .node, asked => emitted (RelayNode.respond r) RelayNode.new asked
  | .script, asked => emitted (RelayResponder.onRx r) 0 asked

variable {r : ResponderParams} {asked : List Frame} {f : Frame}

/-- The frame answers the request: it repeats the number and the text, and names the station that
the table picks. -/
def AnswerTo (r : ResponderParams) (q f : Frame) : Prop :=
  f.functionCode = q.functionCode ∧ ∃ txn text, q.data = request txn text ∧
    f.data = reply txn (RelayNode.routeFor r text) text

/-- Where only requests come in, everything that goes out is the answer to one. -/
theorem exists_asked {who : Answerer} (hasked : ∀ q ∈ asked, hasHeader q.data = true)
    (hf : f ∈ who.answers r asked) : ∃ q ∈ asked, AnswerTo r q f := by
  cases who with
  | node =>
    obtain ⟨n, q, hq, hout⟩ := exists_of_mem_collect hf
    obtain ⟨txn, text, hdata⟩ := hasHeader_iff.mp (hasked q hq)
    by_cases hlen : text.length ≤ kMaxReplyPayload
    · rw [RelayNode.respond_request hdata hlen, List.mem_singleton] at hout
      subst hout
      exact ⟨q, hq, rfl, txn, text, hdata, rfl⟩
    · -- The longest text leaves no room for the reply header.
      rw [RelayNode.respond_request_oversized hdata (not_le.mp hlen)] at hout
      cases hout
  | script =>
    obtain ⟨n, q, hq, hout⟩ := exists_of_mem_collect hf
    obtain ⟨txn, text, hdata⟩ := hasHeader_iff.mp (hasked q hq)
    rw [RelayResponder.onRx_request r n q txn text hdata, List.mem_singleton] at hout
    subst hout
    exact ⟨q, hq, rfl, txn, text, hdata, rfl⟩

end Answerer

/-! ## A relay and a responder -/

section Star

variable {ι : Type*} [DecidableEq ι]

/-- A relay at the master of a star, and a responder at its slave `i`. -/
structure RelayAt (N : StarNetwork ι) (air : Option ι → List (Option ι × FrameMsg)) (i : ι)
    (who : Answerer) (r : ResponderParams) (published handled asked : List Frame) : Prop where
  hears : ∀ s, Hears N.site s (air s)
  relay : AppAt N.master published handled
  responder : AppAt (N.slave i) (who.answers r asked) asked

/-- What a relay publishes, in terms of what it was to send and of what it handled: its requests are
numbered by attempts; what it publishes to other stations are its forwards; and these are what
replies to different attempts, in their order, ask for. -/
structure Relays (station code : UInt8) (published handled : List Frame) (begun : List (List UInt8))
    (forwards : List Frame) : Prop where
  requests : ∀ f ∈ published, f.stationId = station → ∃ k text, begun[k]? = some text ∧
    f.functionCode = code ∧ f.data = request (UInt16.ofNat (k + 1)) text
  others : ∀ s, s ≠ station →
    published.filter (fun f => f.stationId = s) = forwards.filter fun f => f.stationId = s
  replies : ∃ taken : List (ℕ × Frame), forwards.Sublist (taken.map Prod.snd) ∧
    (taken.map Prod.fst).Pairwise (· < ·) ∧
    ∀ m ∈ taken, 1 ≤ m.1 ∧ m.1 ≤ begun.length ∧ ∃ msg ∈ handled, ∃ dst text,
      msg.stationId = station ∧ msg.data = reply (UInt16.ofNat m.1) dst text ∧
      m.2 = { stationId := dst, functionCode := msg.functionCode, data := text }

/-- A text on its way to the station that the table picks. -/
def relayed (r : ResponderParams) (code : UInt8) (text : List UInt8) : Frame where
  stationId := RelayNode.routeFor r text
  functionCode := code
  data := text

variable {N : StarNetwork ι} {air : Option ι → List (Option ι × FrameMsg)} {i : ι}
  {who : Answerer} {r : ResponderParams} {published handled asked : List Frame} {code : UInt8}
  {begun : List (List UInt8)} {forwards : List Frame}

/-- What a slave hears, the relay has published to it. -/
theorem RelayAt.heard (h : RelayAt N air i who r published handled asked) (k : ι) :
    ((N.slave k).published.map FrameMsg.content).Sublist
      ((published.filter fun f => f.stationId = N.station k).map Frame.content) := by
  have hsent := ((h.relay.sends.filter fun f => f.stationId = N.station k).map Frame.content)
  rw [List.filter_map, List.map_map] at hsent
  exact (StarNetwork.downstream (h.hears (some k))).trans hsent

/-- What the responder is asked, the relay has published to it. -/
theorem RelayAt.exists_published (h : RelayAt N air i who r published handled asked) {q : Frame}
    (hq : q ∈ asked) : ∃ f ∈ published, f.stationId = N.station i ∧ f.content = q.content := by
  obtain ⟨msg, hmsg, rfl⟩ := List.mem_map.mp (h.responder.handles.subset hq)
  obtain ⟨f, hf, hcontent⟩ :=
    List.mem_map.mp ((h.heard i).subset (List.mem_map_of_mem hmsg))
  obtain ⟨hf, hstation⟩ := List.mem_filter.mp hf
  exact ⟨f, hf, of_decide_eq_true hstation, hcontent⟩

/-- What the relay handles from the slave it asks answers one of its requests. -/
theorem RelayAt.exists_request (h : RelayAt N air i who r published handled asked)
    (hr : Relays (N.station i) code published handled begun forwards) {msg : Frame}
    (hmsg : msg ∈ handled) (hstation : msg.stationId = N.station i) :
    ∃ k text, begun[k]? = some text ∧ msg.functionCode = code ∧
      msg.data = reply (UInt16.ofNat (k + 1)) (RelayNode.routeFor r text) text := by
  have hasked : ∀ q ∈ asked, ∃ k text, begun[k]? = some text ∧ q.functionCode = code ∧
      q.data = request (UInt16.ofNat (k + 1)) text := by
    intro q hq
    obtain ⟨f, hf, hto, hcontent⟩ := h.exists_published hq
    obtain ⟨k, text, htext, hcode, hdata⟩ := hr.requests f hf hto
    obtain ⟨hcode', hdata'⟩ := Prod.mk.inj hcontent
    exact ⟨k, text, htext, hcode'.symm.trans hcode, hdata'.symm.trans hdata⟩
  -- Back to the slave's node, and to the responder that published the reply.
  obtain ⟨sent, hsent, rfl⟩ := List.mem_map.mp (h.relay.handles.subset hmsg)
  have hup := (StarNetwork.upstream (h.hears none) i).subset
    (List.mem_map_of_mem (List.mem_filter.mpr ⟨hsent, decide_eq_true hstation⟩))
  obtain ⟨answer, hanswer, hcontent⟩ := List.mem_map.mp hup
  obtain ⟨q, hq, hcode, txn, text, hdata, hreply⟩ := Answerer.exists_asked
    (fun q hq => by
      obtain ⟨k, text, -, -, hdata⟩ := hasked q hq
      exact hasHeader_iff.mpr ⟨_, _, hdata⟩)
    (h.responder.sends.subset (List.mem_map_of_mem hanswer))
  obtain ⟨k, text', htext, hcode', hdata'⟩ := hasked q hq
  obtain ⟨rfl, rfl⟩ := request_inj (hdata.symm.trans hdata')
  obtain ⟨hcode'', hdata''⟩ := Prod.mk.inj hcontent
  exact ⟨k, text, htext, hcode''.symm.trans (hcode.trans hcode'), hdata''.symm.trans hreply⟩

/-- Each forward, with the number of the attempt it was made for. -/
theorem RelayAt.exists_taken (h : RelayAt N air i who r published handled asked)
    (hr : Relays (N.station i) code published handled begun forwards) :
    ∃ taken : List (ℕ × Frame), forwards.Sublist (taken.map Prod.snd) ∧
      (taken.map Prod.fst).Pairwise (· < ·) ∧
      ∀ m ∈ taken, 1 ≤ m.1 ∧ m.1 ≤ begun.length ∧ ∃ k text, begun[k]? = some text ∧
        UInt16.ofNat m.1 = UInt16.ofNat (k + 1) ∧ m.2 = relayed r code text := by
  obtain ⟨taken, hsub, hincreasing, htaken⟩ := hr.replies
  refine ⟨taken, hsub, hincreasing, ?_⟩
  intro m hm
  obtain ⟨hone, hle, msg, hmsg, dst, text, hstation, hdata, hforward⟩ := htaken m hm
  obtain ⟨k, text', htext, hcode, hdata'⟩ := h.exists_request hr hmsg hstation
  obtain ⟨hword, rfl, rfl⟩ := reply_inj (hdata.symm.trans hdata')
  refine ⟨hone, hle, k, text, htext, hword, ?_⟩
  rw [hforward, hcode]
  rfl

/-- What is forwarded are texts that were to be sent, each to the station that the table picks;
within 65536 attempts, in their order and each once at most. -/
theorem RelayAt.forwards_relayed (h : RelayAt N air i who r published handled asked)
    (hr : Relays (N.station i) code published handled begun forwards) :
    (∀ f ∈ forwards, ∃ text ∈ begun, f = relayed r code text) ∧
      (begun.length ≤ 65536 → forwards.Sublist (begun.map (relayed r code))) := by
  obtain ⟨taken, hsub, hincreasing, htaken⟩ := h.exists_taken hr
  constructor
  · intro f hf
    obtain ⟨m, hm, rfl⟩ := List.mem_map.mp (hsub.subset hf)
    obtain ⟨-, -, k, text, htext, -, hrelayed⟩ := htaken m hm
    exact ⟨text, List.mem_of_getElem? htext, hrelayed⟩
  · intro hlen
    have hpicked : (taken.filterMap fun m => some m.2).Sublist
        ((begun.map (relayed r code)).take begun.length) := by
      refine MasterLink.filterMap_sublist hincreasing ?_ fun m hm => (htaken m hm).2.1
      intro m hm
      obtain ⟨hone, hle, k, text, htext, hword, hrelayed⟩ := htaken m hm
      refine ⟨hone, ?_⟩
      rintro f ⟨rfl⟩
      -- So few attempts have different numbers.
      have hk := (List.getElem?_eq_some_iff.mp htext).1
      obtain ⟨n, hn⟩ : ∃ n, m.1 = n + 1 := ⟨m.1 - 1, by omega⟩
      have heq : n = k := by
        rw [hn] at hword
        have := congrArg UInt16.toNat hword
        rw [UInt16.toNat_ofNat', UInt16.toNat_ofNat'] at this
        omega
      rw [hn, Nat.add_sub_cancel, heq, List.getElem?_map, htext, hrelayed]
      rfl
    rw [List.filterMap_eq_map', List.take_of_length_le (by simp)] at hpicked
    exact hsub.trans hpicked

/-- Who is given what: what a slave that is not asked publishes are texts that the relay was to send
and that the table sends to it; within 65536 attempts, in their order and each once at most. -/
def GivenTo (N : StarNetwork ι) (r : ResponderParams) (code : UInt8) (begun : List (List UInt8))
    (k : ι) : Prop :=
  (∀ msg ∈ (N.slave k).published, msg.functionCode = code ∧ msg.data ∈ begun ∧
      RelayNode.routeFor r msg.data = N.station k) ∧
    (begun.length ≤ 65536 → ((N.slave k).published.map FrameMsg.data).Sublist
      (begun.filter fun text => RelayNode.routeFor r text = N.station k))

theorem RelayAt.givenTo (h : RelayAt N air i who r published handled asked)
    (hr : Relays (N.station i) code published handled begun forwards) {k : ι} (hk : k ≠ i) :
    GivenTo N r code begun k := by
  have hstation : N.station k ≠ N.station i := fun heq => hk (N.stations heq)
  have hheard := h.heard k
  rw [hr.others _ hstation] at hheard
  obtain ⟨hall, hinOrder⟩ := h.forwards_relayed hr
  constructor
  · intro msg hmsg
    obtain ⟨f, hf, hcontent⟩ := List.mem_map.mp (hheard.subset (List.mem_map_of_mem hmsg))
    obtain ⟨hf, hto⟩ := List.mem_filter.mp hf
    obtain ⟨text, htext, rfl⟩ := hall f hf
    obtain ⟨hcode, hdata⟩ := Prod.mk.inj hcontent
    rw [← hcode, ← hdata]
    exact ⟨rfl, htext, of_decide_eq_true hto⟩
  · intro hlen
    have hsub := (hheard.map Prod.snd).trans
      ((((hinOrder hlen).filter fun f => f.stationId = N.station k).map Frame.content).map Prod.snd)
    rw [List.filter_map, List.map_map, List.map_map, List.map_map] at hsub
    refine Eq.subst (motive := fun l => List.Sublist _ l) (List.map_id _) hsub

end Star

/-! ## The relay node -/

namespace RelayNode

/-- What a relay publishes in a run. -/
def publishedIn (p : RelayParams) (es : List Event) : List Frame := emitted (step p) new es

/-- What it forwards. -/
def forwardedIn (p : RelayParams) (es : List Event) : List Frame :=
  collect (step p) (forwardedBy p) new es

/-- What it is given by the driver. -/
def handledIn (es : List Event) : List Frame :=
  es.filterMap fun
    | .rx msg => some msg
    | _ => none

variable {p : RelayParams} {n n' : RelayNode} {e : Event} {es : List Event} {out : List Frame}

theorem Transition.functionCode_eq (ht : Transition p n e n' out) {f : Frame} (hf : f ∈ out)
    (hstation : f.stationId = p.slave1Id) : f.functionCode = p.functionCode := by
  cases ht with
  | start | retry =>
    rw [List.mem_singleton.mp hf]
    rfl
  | forward _ htarget =>
    rw [List.mem_singleton.mp hf] at hstation
    exact absurd hstation htarget.ne_slave1Id
  | _ => cases hf

/-- A relay turns busy by starting a transaction only. -/
theorem Transition.busy_or_started (ht : Transition p n e n' out) (h : n'.busy = true) :
    n.busy = true ∨ ∃ payload, startedBy p n e = some payload := by
  cases ht with
  | noDst | keep | refuse | tooLong | forward | giveUp => cases h
  | start hsome hlen => exact .inr ⟨_, startedBy_of_le hsome hlen⟩
  | _ => exact .inl h

/-- The number waited for counts the transactions, and the text is that of the last one. -/
theorem pending_afterRun (p : RelayParams) (es : List Event) (h : (afterRun p es).busy = true) :
    (afterRun p es).pendingTxn = UInt16.ofNat (transactions p es).length ∧
      (transactions p es).getLast? = some (afterRun p es).payload := by
  have hinv : Sound p (afterRun p es) ∧
      (afterRun p es).txn = UInt16.ofNat (transactions p es).length ∧
      ((afterRun p es).busy = true →
        (transactions p es).getLast? = some (afterRun p es).payload) := by
    refine collect_induction (P := fun _ => True) (fun started n => Sound p n ∧
      n.txn = UInt16.ofNat started.length ∧ (n.busy = true → started.getLast? = some n.payload))
      (fun _ _ => trivial) ⟨sound_new p, rfl, nofun⟩ ?_
    rintro started n e ⟨hs, htxn, hpayload⟩ -
    have ht := step_transition hs e
    exact ⟨sound_step hs e, LossyLink.txn_eq_of_transition ht htxn,
      LossyLink.payload_eq_of_transition ht hpayload⟩
  exact ⟨hinv.1.pendingTxn_eq.trans hinv.2.1, hinv.2.2 h⟩

theorem transactions_append (es : List Event) (e : Event) : transactions p (es ++ [e]) =
    transactions p es ++ (startedBy p (afterRun p es) e).toList := by
  rw [transactions, collect_append, collect_cons, collect_nil, List.append_nil]
  rfl

theorem exists_request_of_published (p : RelayParams) (es : List Event) :
    ∀ f ∈ publishedIn p es, f.stationId = p.slave1Id →
      ∃ k text, (transactions p es)[k]? = some text ∧ f.functionCode = p.functionCode ∧
        f.data = request (UInt16.ofNat (k + 1)) text := by
  induction es using List.reverseRecOn with
  | nil => nofun
  | append_singleton es e ih =>
    intro f hf hstation
    rw [publishedIn, emitted_append, emitted_cons, emitted_nil, List.append_nil,
      List.mem_append] at hf
    rcases hf with hf | hf
    · obtain ⟨k, text, htext, hcode, hdata⟩ := ih f hf hstation
      refine ⟨k, text, ?_, hcode, hdata⟩
      rw [transactions_append,
        List.getElem?_append_left (List.getElem?_eq_some_iff.mp htext).1, htext]
    · have hs := sound_afterRun p es
      have hreq := LossyLink.isRequest_of_stationId hs hf hstation
      rw [← afterRun_append_singleton] at hreq
      obtain ⟨hpending, hlast⟩ := pending_afterRun p (es ++ [e]) hreq.busy
      rw [List.getLast?_eq_getElem?] at hlast
      have hlt := (List.getElem?_eq_some_iff.mp hlast).1
      refine ⟨_, _, hlast, (step_transition hs e).functionCode_eq hf hstation, ?_⟩
      rw [hreq.data_eq, hpending, Nat.sub_add_cancel (by omega)]

/-- What is published to another station than that of the slave asked is forwarded. -/
theorem published_others (p : RelayParams) (es : List Event) {s : UInt8} (hs : s ≠ p.slave1Id) :
    (publishedIn p es).filter (fun f => f.stationId = s) =
      (forwardedIn p es).filter fun f => f.stationId = s := by
  induction es using List.reverseRecOn with
  | nil => rfl
  | append_singleton es e ih =>
    rw [publishedIn, forwardedIn, emitted_append, collect_append, List.filter_append,
      List.filter_append, emitted_cons, emitted_nil, collect_cons, collect_nil, List.append_nil,
      List.append_nil]
    refine congrArg₂ _ ih ?_
    have hrequest : ∀ e, (∀ msg, e ≠ .rx msg) →
        (step p (afterRun p es) e).2.filter (fun f => f.stationId = s) = [] := by
      intro e he
      rw [List.filter_eq_nil_iff]
      intro f hf
      rcases (step_transition (sound_afterRun p es) e).mem_out hf with hreq | ⟨msg, heq, -⟩
      · rw [hreq.stationId_eq]
        simpa using hs.symm
      · exact absurd heq (he msg)
    cases e with
    | rx msg => rfl
    | trigger | autoTick | timeout => exact hrequest _ nofun

theorem Transition.forwarded {msg : Frame} (ht : Transition p n (.rx msg) n' out) :
    out = [] ∨ n.busy = true ∧ n'.busy = false ∧ ∃ dst text, Answers p n msg dst text ∧
      out = [{ stationId := dst, functionCode := msg.functionCode, data := text }] := by
  cases ht with
  | forward h => exact .inr ⟨h.busy, rfl, _, _, h, rfl⟩
  | start h => cases h
  | _ => exact .inl rfl

theorem forwardedBy_eq (hs : Sound p n) (e : Event) :
    forwardedBy p n e = [] ∨ n.busy = true ∧ (step p n e).1.busy = false ∧ ∃ msg, e = .rx msg ∧
      ∃ dst text, Answers p n msg dst text ∧ forwardedBy p n e =
        [{ stationId := dst, functionCode := msg.functionCode, data := text }] := by
  cases e with
  | rx msg =>
    rcases (step_transition hs (.rx msg)).forwarded with hnone | ⟨hbusy, hidle, hsome⟩
    · exact .inl hnone
    · exact .inr ⟨hbusy, hidle, msg, rfl, hsome⟩
  | trigger | autoTick | timeout => exact .inl rfl

theorem length_transactions_le (es : List Event) (e : Event) :
    (transactions p es).length ≤ (transactions p (es ++ [e])).length := by
  rw [transactions_append, List.length_append]
  exact Nat.le_add_right _ _

/-- A forward is what a handled reply to the transaction of that number asks for. -/
def Replied (p : RelayParams) (es : List Event) (m : ℕ × Frame) : Prop :=
  1 ≤ m.1 ∧ m.1 ≤ (transactions p es).length ∧ ∃ msg ∈ handledIn es, ∃ dst text,
    msg.stationId = p.slave1Id ∧ msg.data = reply (UInt16.ofNat m.1) dst text ∧
    m.2 = { stationId := dst, functionCode := msg.functionCode, data := text }

/-- The forwards of a run, each with the number of the transaction it was made for: while one is
waited for, it is none of these. -/
structure Takes (p : RelayParams) (es : List Event) (taken : List (ℕ × Frame)) : Prop where
  forwards : forwardedIn p es = taken.map Prod.snd
  increasing : (taken.map Prod.fst).Pairwise (· < ·)
  before : (afterRun p es).busy = true → ∀ m ∈ taken, m.1 < (transactions p es).length
  replied : ∀ m ∈ taken, Replied p es m

theorem handledIn_subset (es : List Event) (e : Event) : handledIn es ⊆ handledIn (es ++ [e]) := by
  rw [handledIn, handledIn, List.filterMap_append]
  exact List.subset_append_left _ _

theorem forwardedIn_append (p : RelayParams) (es : List Event) (e : Event) :
    forwardedIn p (es ++ [e]) = forwardedIn p es ++ forwardedBy p (afterRun p es) e := by
  rw [forwardedIn, collect_append, collect_cons, collect_nil, List.append_nil]
  rfl

/-- What was asked for stays so. -/
theorem Replied.append {es : List Event} {m : ℕ × Frame} (h : Replied p es m) (e : Event) :
    Replied p (es ++ [e]) m := by
  obtain ⟨hone, hlast, msg, hmsg, hreply⟩ := h
  exact ⟨hone, hlast.trans (length_transactions_le es e), msg, handledIn_subset es e hmsg, hreply⟩

/-- An event without a forward. -/
theorem Takes.silent {es : List Event} {taken : List (ℕ × Frame)} (h : Takes p es taken) {e : Event}
    (hnone : forwardedBy p (afterRun p es) e = []) : Takes p (es ++ [e]) taken := by
  have hs := sound_afterRun p es
  refine ⟨?_, h.increasing, ?_, fun m hm => (h.replied m hm).append e⟩
  · rw [forwardedIn_append, hnone, List.append_nil, h.forwards]
  · rw [afterRun_append_singleton]
    intro hafter m hm
    rcases (step_transition hs e).busy_or_started hafter with hbefore | ⟨payload, hstarted⟩
    · exact Nat.lt_of_lt_of_le (h.before hbefore m hm) (length_transactions_le es e)
    · -- A new transaction has a number beyond all those before.
      have := (h.replied m hm).2.1
      rw [transactions_append, hstarted, Option.toList_some, List.length_append,
        List.length_singleton]
      omega

/-- A reply that is taken: it is to the transaction last started, which none was taken for yet. -/
theorem Takes.reply {es : List Event} {taken : List (ℕ × Frame)} (h : Takes p es taken)
    (hbusy : (afterRun p es).busy = true) {msg : Frame} {dst : UInt8} {text : List UInt8}
    (ha : Answers p (afterRun p es) msg dst text)
    (hidle : (step p (afterRun p es) (.rx msg)).1.busy = false)
    (hout : forwardedBy p (afterRun p es) (.rx msg) =
      [{ stationId := dst, functionCode := msg.functionCode, data := text }]) :
    Takes p (es ++ [.rx msg]) (taken ++ [((transactions p es).length,
      { stationId := dst, functionCode := msg.functionCode, data := text })]) := by
  obtain ⟨hnumber, hlast⟩ := pending_afterRun p es hbusy
  rw [List.getLast?_eq_getElem?] at hlast
  have hlt := (List.getElem?_eq_some_iff.mp hlast).1
  refine ⟨?_, ?_, ?_, ?_⟩
  · rw [forwardedIn_append, hout, h.forwards, List.map_append]
    rfl
  · rw [List.map_append, List.pairwise_append]
    refine ⟨h.increasing, List.pairwise_singleton _ _, ?_⟩
    intro k hk k' hk'
    obtain ⟨m, hm, rfl⟩ := List.mem_map.mp hk
    rw [List.mem_singleton.mp hk']
    exact h.before hbusy m hm
  · rw [afterRun_append_singleton, hidle]
    nofun
  · intro m hm
    rcases List.mem_append.mp hm with hm | hm
    · exact (h.replied m hm).append _
    · rw [List.mem_singleton.mp hm]
      refine ⟨by omega, length_transactions_le es _, msg, ?_, dst, text, ha.stationId_eq, ?_, rfl⟩
      · rw [handledIn, List.filterMap_append]
        exact List.mem_append_right _ (List.mem_singleton_self msg)
      · exact hnumber ▸ ha.data_eq

theorem exists_takes (p : RelayParams) (es : List Event) : ∃ taken, Takes p es taken := by
  induction es using List.reverseRecOn with
  | nil => exact ⟨[], rfl, .nil, nofun, nofun⟩
  | append_singleton es e ih =>
    obtain ⟨taken, h⟩ := ih
    rcases forwardedBy_eq (sound_afterRun p es) e with
      hnone | ⟨hbusy, hidle, msg, rfl, dst, text, ha, hout⟩
    · exact ⟨taken, h.silent hnone⟩
    · exact ⟨_, h.reply hbusy ha hidle hout⟩

end RelayNode

/-- The relay node relays. -/
theorem relays_node (p : RelayParams) (es : List RelayNode.Event) :
    Relays p.slave1Id p.functionCode (RelayNode.publishedIn p es) (RelayNode.handledIn es)
      (RelayNode.transactions p es) (RelayNode.forwardedIn p es) := by
  obtain ⟨taken, h⟩ := RelayNode.exists_takes p es
  exact ⟨RelayNode.exists_request_of_published p es, fun s hs => RelayNode.published_others p es hs,
    taken, h.forwards ▸ List.Sublist.refl _, h.increasing, h.replied⟩

/-! ## The relaying script -/

namespace RelayThreads

open RelayMaster

/-- What the script publishes in a run. -/
def publishedIn (p : MasterParams) (acts : List ThreadAction) : List Frame :=
  emitted (step p) {} acts

/-- What it is given by the driver. -/
def handledIn (acts : List ThreadAction) : List Frame :=
  acts.filterMap fun
    | .rx msg => some msg
    | _ => none

variable {p : MasterParams} {h : History} {s : RelayThreads}

/-- What an action publishes goes into the history, as requests or as forwards. -/
def Recorded (p : MasterParams) (h : History) (s : RelayThreads) (a : ThreadAction) : Prop :=
  ∃ requests forwards, (step p s a).2 = requests ++ forwards ∧
    (h.extend p s a).requests = h.requests ++ requests ∧
    (h.extend p s a).forwards = h.forwards ++ forwards

/-- An action that publishes nothing adds to neither. -/
theorem recorded_of_silent {a : ThreadAction} (hout : (step p s a).2 = [])
    (hrequests : (h.extend p s a).requests = h.requests)
    (hforwards : (h.extend p s a).forwards = h.forwards) : Recorded p h s a :=
  ⟨[], [], hout, by rw [hrequests, List.append_nil], by rw [hforwards, List.append_nil]⟩

/-- The main thread publishes requests. -/
theorem recorded_main : Recorded p h s .main := by
  cases hmain : s.main with
  | publish attempt =>
    exact ⟨(step p s .main).2, [], (List.append_nil _).symm, by simp [History.extend, hmain],
      by simp [History.extend, hmain]⟩
  | wait attempt =>
    apply recorded_of_silent
    · simp only [step, hmain, mainStep]
      split <;> rfl
    · simp [History.extend, hmain]
    · simp [History.extend, hmain]
  | read attempt =>
    apply recorded_of_silent
    · -- Whether there is a reply, and whether it was forwarded.
      simp only [step, hmain, mainStep]
      split
      · rfl
      · split <;> rfl
    · simp only [History.extend, hmain]
      split
      · rfl
      · split <;> rfl
    · simp only [History.extend, hmain]
      split
      · rfl
      · split <;> rfl
  | input | begin | clear | giveUp | crashed =>
    exact recorded_of_silent (by simp [step, hmain, mainStep]) (by simp [History.extend, hmain])
      (by simp [History.extend, hmain])

/-- The callback publishes forwards. -/
theorem recorded_spin : Recorded p h s .spin := by
  rcases hspin : s.spin with _ | k
  · exact recorded_of_silent (by simp [step, hspin]) (by simp [History.extend, hspin])
      (by simp [History.extend, hspin])
  · cases k with
    | forward msg =>
      exact ⟨[], (step p s .spin).2, rfl, by simp [History.extend, hspin],
        by simp [History.extend, hspin]⟩
    | look msg =>
      apply recorded_of_silent
      · -- The message is ignored, or malformed, or another's, or it is accepted.
        simp only [step, hspin, spinStep]
        split
        · rfl
        · split
          · rfl
          · split <;> rfl
      · simp only [History.extend, hspin]
        split <;> rfl
      · simp only [History.extend, hspin]
        split <;> rfl
    | book | signal =>
      exact recorded_of_silent (by simp [step, hspin, spinStep]) (by simp [History.extend, hspin])
        (by simp [History.extend, hspin])

theorem recorded_step (p : MasterParams) (h : History) (s : RelayThreads) (a : ThreadAction) :
    Recorded p h s a := by
  cases a with
  | main => exact recorded_main
  | spin => exact recorded_spin
  | line payload | timeout =>
    refine recorded_of_silent ?_ rfl rfl
    rw [step.eq_def]
    dsimp only
    split
    · first | rfl | (split <;> rfl)
    · rfl
  | rx msg =>
    apply recorded_of_silent
    · rw [step.eq_def]
      dsimp only
      split <;> rfl
    · rw [History.extend]
      split <;> rfl
    · rw [History.extend]
      split <;> rfl

theorem history_append (acts : List ThreadAction) (a : ThreadAction) :
    history p (acts ++ [a]) = (history p acts).extend p (afterRun p acts) a := by
  rw [history, accumulate_append]
  rfl

/-- Of what is published, a rule that leaves out the requests picks forwards. -/
theorem published_filter (acts : List ThreadAction) (keep : Frame → Bool)
    (hkeep : ∀ f ∈ (history p acts).requests, keep f = false) :
    (publishedIn p acts).filter keep = (history p acts).forwards.filter keep := by
  induction acts using List.reverseRecOn with
  | nil => rfl
  | append_singleton acts a ih =>
    obtain ⟨requests, forwards, hout, hrequests, hforwards⟩ :=
      recorded_step p (history p acts) (afterRun p acts) a
    rw [history_append, hrequests] at hkeep
    rw [history_append, hforwards, List.filter_append,
      ← ih fun f hf => hkeep f (List.mem_append_left _ hf), publishedIn, emitted_append,
      List.filter_append, emitted_cons, emitted_nil, List.append_nil]
    refine congrArg _ ?_
    rw [show (step p (stateAfter (step p) {} acts) a).2 = _ from hout, List.filter_append,
      List.filter_eq_nil_iff.mpr, List.nil_append]
    intro f hf
    rw [hkeep f (List.mem_append_right _ hf)]
    exact Bool.false_ne_true

theorem mem_requests_or_forwards {acts : List ThreadAction} {f : Frame}
    (hf : f ∈ publishedIn p acts) :
    f ∈ (history p acts).requests ∨ f ∈ (history p acts).forwards := by
  by_cases hrequest : f ∈ (history p acts).requests
  · exact .inl hrequest
  · have hkept := published_filter acts (fun g => decide (g ∉ (history p acts).requests))
      fun g hg => decide_eq_false (not_not.mpr hg)
    have hf' : f ∈ (publishedIn p acts).filter fun g => decide (g ∉ (history p acts).requests) :=
      List.mem_filter.mpr ⟨hf, decide_eq_true hrequest⟩
    rw [hkept] at hf'
    exact .inr (List.mem_of_mem_filter hf')

theorem forwardOf_eq_some {msg f : Frame} (hf : forwardOf p msg = some f) :
    f.stationId ≠ p.slave1 ∧ f = { stationId := msg.data.getD 4 0, functionCode := msg.functionCode,
                                   data := msg.data.drop replyHdrLen } := by
  rw [forwardOf] at hf
  split_ifs at hf with hallowed
  obtain rfl := Option.some.inj hf
  exact ⟨hallowed.2.2.1, rfl⟩

/-- What has matched, and what the callback is at, was given by the driver. -/
theorem matched_handled (p : MasterParams) (acts : List ThreadAction) :
    (∀ m ∈ (history p acts).matched, m.2 ∈ handledIn acts) ∧
      ∀ k ∈ (afterRun p acts).spin, ∀ msg ∈ k.msg?, msg ∈ handledIn acts := by
  induction acts using List.reverseRecOn with
  | nil => exact ⟨nofun, nofun⟩
  | append_singleton acts a ih =>
    obtain ⟨hmatched, hspin⟩ := ih
    have hm := move_step p (history p acts) (afterRun p acts) a
    rw [← history_append] at hm
    have hafter : afterRun p (acts ++ [a]) = (step p (afterRun p acts) a).1 :=
      stateAfter_append _ _ _
    have hmore : handledIn acts ⊆ handledIn (acts ++ [a]) := by
      rw [handledIn, handledIn, List.filterMap_append]
      exact List.subset_append_left _ _
    constructor
    -- What matches is what the callback is at, and that was given by the driver.
    · intro m hmem
      rcases MasterLink.matched_of_move hm hmem with hold | ⟨-, hmatch, -⟩
      · exact hmore (hmatched m hold)
      · exact hmore (hspin _ hmatch.1 m.2 rfl)
    · rw [hafter]
      intro k hk msg hmsg
      rcases MasterLink.msg_of_move hm with hsame | ⟨msg', rfl, -, -, hlook⟩
      · obtain ⟨k', hk', hmsg'⟩ := hsame k hk msg hmsg
        exact hmore (hspin k' hk' msg hmsg')
      · obtain rfl := Option.some.inj (hlook.symm.trans hk)
        obtain rfl := Option.some.inj hmsg
        rw [handledIn, List.filterMap_append]
        exact List.mem_append_right _ (List.mem_singleton_self _)

end RelayThreads

/-- The numbers of what a rule keeps are among the numbers there were, in their order. -/
theorem sublist_map_fst {α β γ : Type*} (f : β → Option γ) (l : List (α × β)) :
    ((l.filterMap fun m => (f m.2).map fun c => (m.1, c)).map Prod.fst).Sublist
      (l.map Prod.fst) := by
  rw [List.map_filterMap]
  induction l with
  | nil => exact List.Sublist.refl _
  | cons m l ih =>
    rw [List.filterMap_cons, List.map_cons]
    cases f m.2 with
    | none => exact ih.cons _
    | some c => exact ih.cons_cons _

/-- The relaying script relays. -/
theorem relays_script (p : MasterParams) (acts : List ThreadAction) :
    Relays p.slave1 0x10 (RelayThreads.publishedIn p acts) (RelayThreads.handledIn acts)
      (RelayThreads.history p acts).begun (RelayThreads.history p acts).forwards := by
  have hp := RelayThreads.paired_history p acts
  have hsofar : (RelayThreads.history p acts).forwards <+:
      (RelayThreads.history p acts).matched.filterMap fun m => RelayMaster.forwardOf p m.2 :=
    ⟨_, hp.forwards⟩
  have hforward : ∀ f ∈ (RelayThreads.history p acts).forwards, f.stationId ≠ p.slave1 := by
    intro f hf
    obtain ⟨m, -, hm⟩ := List.mem_filterMap.mp (hsofar.subset hf)
    exact (RelayThreads.forwardOf_eq_some hm).1
  have hrequest : ∀ f ∈ (RelayThreads.history p acts).requests,
      f ∈ RelayThreads.requestsOf p (RelayThreads.history p acts).begun := by
    intro f hf
    rw [← hp.requests]
    exact List.mem_append_left _ hf
  refine ⟨?_, ?_, ?_⟩
  -- A forward does not go to the slave asked, so what is published to it is a request.
  · intro f hf hstation
    rcases RelayThreads.mem_requests_or_forwards hf with hf | hf
    · obtain ⟨k, hk, rfl⟩ := List.mem_mapIdx.mp (hrequest f hf)
      exact ⟨k, _, List.getElem?_eq_getElem hk, rfl, rfl⟩
    · exact absurd hstation (hforward f hf)
  · intro s hs
    refine RelayThreads.published_filter acts _ ?_
    intro f hf
    obtain ⟨k, hk, rfl⟩ := List.mem_mapIdx.mp (hrequest f hf)
    exact decide_eq_false hs.symm
  -- The replies that matched, each with what it asks to be forwarded.
  · refine ⟨(RelayThreads.history p acts).matched.filterMap fun m =>
      (RelayMaster.forwardOf p m.2).map fun f => (m.1, f), ?_, ?_, ?_⟩
    · rw [List.map_filterMap]
      simp only [Option.map_map, Function.comp_def, Option.map_id']
      exact hsofar.sublist
    · exact hp.increasing.sublist (sublist_map_fst _ _)
    · intro m hm
      obtain ⟨⟨k, msg⟩, hmem, hm⟩ := List.mem_filterMap.mp hm
      obtain ⟨f, hf, rfl⟩ := Option.map_eq_some_iff.mp hm
      obtain ⟨hone, hle, hstation, dst, text, hdata⟩ := hp.matched _ hmem
      refine ⟨hone, hle, msg, (RelayThreads.matched_handled p acts).1 _ hmem, dst, text, hstation,
        hdata, ?_⟩
      rw [(RelayThreads.forwardOf_eq_some hf).2]
      dsimp only at hdata
      rw [hdata]
      rfl

/-! ## Who is given what -/

section Relayed

variable {ι : Type*} [DecidableEq ι] {N : StarNetwork ι}
  {air : Option ι → List (Option ι × FrameMsg)} {i : ι} {who : Answerer} {r : ResponderParams}
  {asked : List Frame}

/-- **Relaying over a star, by the node.** In every run in which each node hears what is on the air
for it, whatever is lost or sent again, the slaves that are not asked are given nothing but texts of
transactions, unchanged and with the code of the relay, each text at the station that the table
picks for it; and within 65536 transactions, in their order and once each at most. -/
theorem relayed_star_node (p : RelayParams) (es : List RelayNode.Event)
    (hstation : N.station i = p.slave1Id)
    (h : RelayAt N air i who r (RelayNode.publishedIn p es) (RelayNode.handledIn es) asked) :
    ∀ k, k ≠ i → GivenTo N r p.functionCode (RelayNode.transactions p es) k := by
  intro k hk
  have hr := relays_node p es
  rw [← hstation] at hr
  exact h.givenTo hr hk

/-- **Relaying over a star, by the script**: the same of the texts of its attempts, in whichever
order its threads move. -/
theorem relayed_star_script (p : MasterParams) (acts : List ThreadAction)
    (hstation : N.station i = p.slave1)
    (h : RelayAt N air i who r (RelayThreads.publishedIn p acts) (RelayThreads.handledIn acts)
      asked) :
    ∀ k, k ≠ i → GivenTo N r 0x10 (RelayThreads.history p acts).begun k := by
  intro k hk
  have hr := relays_script p acts
  rw [← hstation] at hr
  exact h.givenTo hr hk

end Relayed

/-! ## One text -/

/-- A site that opens its port, transmits messages, reads what is there and transmits again. -/
def turnSite (p : NodeParams) (before : List FrameMsg) (chunk : List UInt8)
    (after : List FrameMsg) : Site where
  params := p
  device := StarNetwork.promptDevice
  start := 0
  events :=
    .reader ⟨.opened, .bytes [], 0⟩ :: before.map .tx ++
      [.reader ⟨.opened, .bytes chunk, 0⟩, .reader ⟨.opened, .bytes [], 0⟩] ++ after.map .tx

/-- The request for `hi`; the script does not number its messages. -/
def hiRequest (byScript : Bool) : FrameMsg where
  stationId := 1
  functionCode := 0x10
  data := request 1 [0x68, 0x69]
  txSeq := if byScript then 0 else 1

/-- The reply that sends it to the station 2. -/
def hiReply : FrameMsg := { functionCode := 0x10, data := reply 1 2 [0x68, 0x69] }

/-- The message forwarded. -/
def hiForward : FrameMsg := { stationId := 2, functionCode := 0x10, data := [0x68, 0x69] }

theorem isStation_one : IsStation 1 := by decide

theorem isStation_two : IsStation 2 := by decide

/-- A star whose slaves, `false` and `true`, have the stations 1 and 2. -/
def hiStar (byScript : Bool) : StarNetwork Bool where
  master :=
    turnSite (StarNetwork.masterAt "/dev/ttyUSB0") [hiRequest byScript]
      [0x01, 0x10, 0xF1, 0xF2, 0x00, 0x01, 0x02, 0x68, 0x69, 0xBC, 0x63] [hiForward]
  slave
    | false =>
      turnSite (StarNetwork.slaveAt "/dev/ttyUSB1" 1 isStation_one) []
        [0x01, 0x10, 0xF1, 0xF1, 0x00, 0x01, 0x68, 0x69, 0x46, 0xDC] [hiReply]
    | true =>
      turnSite (StarNetwork.slaveAt "/dev/ttyUSB2" 2 isStation_two) []
        [0x02, 0x10, 0x68, 0x69, 0xEF, 0xB7] []
  master_role := rfl
  slave_role := by decide
  stations := by decide

/-- What is on the air. -/
def hiAir (byScript : Bool) : Option Bool → List (Option Bool × FrameMsg)
  | none => [(some false, hiReply)]
  | some false => [(none, hiRequest byScript)]
  | some true => [(none, hiForward)]

theorem hears_hi (byScript : Bool) (s : Option Bool) :
    Hears (hiStar byScript).site s (hiAir byScript s) := by
  have hall : (∀ i, (((hiAir byScript s).filter fun x => x.1 = i).map Prod.snd).Sublist
        ((hiStar byScript).site i).transmitted) ∧ (∀ x ∈ hiAir byScript s, x.1 ≠ s) ∧
      (∀ x ∈ hiAir byScript s,
        IsStation (Ds10Node.txStation ((hiStar byScript).site x.1).params x.2) ∧
        (((hiStar byScript).site x.1).rawOf x.2).length ≤
          ((hiStar byScript).site s).params.maxFrameLen ∧
        Unambiguous (((hiStar byScript).site x.1).rawOf x.2)) ∧
      ((hiStar byScript).site s).bursts =
        [[], ((hiAir byScript s).map fun x => ((hiStar byScript).site x.1).rawOf x.2).flatten] := by
    revert s
    revert byScript
    decide +kernel
  obtain ⟨hcarried, hother, hlegible, hbursts⟩ := hall
  exact ⟨hcarried, hother, hlegible, exists_groups hbursts⟩

/-- The reply as the relay is given it. -/
def hiAnswer : Frame :=
  { stationId := 1, functionCode := 0x10, data := reply 1 2 [0x68, 0x69] }

/-- The request as the responder is given it. -/
def hiAsked : Frame := { functionCode := 0x10, data := request 1 [0x68, 0x69] }

/-- The node relays `hi` to the second slave, which is given nothing else. -/
theorem relayed_star_node_hi :
    let p : RelayParams := ⟨1, 0x10, 2, none, by decide⟩
    let r : ResponderParams := ⟨[⟨[0x68], 2⟩], 0⟩
    GivenTo (hiStar false) r 0x10
        (RelayNode.transactions p [.trigger [0x68, 0x69], .rx hiAnswer]) true ∧
      (((hiStar false).slave true).published.map FrameMsg.data) = [[0x68, 0x69]] := by
  intro p r
  have h : RelayAt (hiStar false) (hiAir false) false .node r
      (RelayNode.publishedIn p [.trigger [0x68, 0x69], .rx hiAnswer])
      (RelayNode.handledIn [.trigger [0x68, 0x69], .rx hiAnswer]) [hiAsked] :=
    ⟨hears_hi false, ⟨by decide +kernel, by decide +kernel⟩, ⟨by decide +kernel, by decide +kernel⟩⟩
  exact ⟨relayed_star_node p _ rfl h true (by decide), by decide +kernel⟩

/-- The script relays `hi` to it, too. -/
theorem relayed_star_script_hi :
    let r : ResponderParams := ⟨[⟨[0x68], 2⟩], 0⟩
    let acts : List ThreadAction :=
      [.line [0x68, 0x69], .main, .main, .main, .rx hiAnswer, .spin, .spin, .spin, .spin, .main,
        .main]
    GivenTo (hiStar true) r 0x10 (RelayThreads.history {} acts).begun true ∧
      (RelayThreads.history {} acts).forwards.map Frame.data = [[0x68, 0x69]] := by
  intro r acts
  have h : RelayAt (hiStar true) (hiAir true) false .script r (RelayThreads.publishedIn {} acts)
      (RelayThreads.handledIn acts) [hiAsked] :=
    ⟨hears_hi true, ⟨by decide +kernel, by decide +kernel⟩, ⟨by decide +kernel, by decide +kernel⟩⟩
  exact ⟨relayed_star_script {} acts rfl h true (by decide), by decide⟩

end Ds10Relay

import Mathlib.Tactic
import DS10Link.Relay.Ledger

/-!
# Retransmission

A relay repeats the request of its pending transaction at each expiry of its timer, as often as it
may, and then gives the transaction up. The log below keeps the requests it publishes, transaction
by transaction; the attempt counter counts the newest entry, every entry repeats one request, and
the numbers of the requests tell the transactions of one turn apart.

## Main definitions

* `RelayNode.requestedBy`: the requests a callback publishes
* `RelayNode.requestLog`: the requests of each transaction, the newest transaction first
* `RelayNode.Faithful`: every entry of a log repeats one request that carries its number

## Main results

* `RelayNode.logged_afterRun`: the log is faithful and its newest entry is the pending transaction
* `RelayNode.exists_idle_of_count`: enough expiries end a pending transaction
* `RelayNode.bounded_retransmission`: bounded, identical retransmission with a live timer
-/

open Word

namespace Ds10Relay

open Transaction

namespace RelayNode

/-- The requests among published frames: what is addressed to the slave. -/
def requestsIn (p : RelayParams) (out : List Frame) : List Frame :=
  out.filter fun f => f.stationId == p.slave1Id

/-- A log with more requests: in a new entry, or at the end of the newest one. -/
def extendLog (log : List (List Frame)) (starts : Bool) (requests : List Frame) :
    List (List Frame) :=
  if starts then requests :: log
  else
    match log with
    | [] => []
    | newest :: older => (newest ++ requests) :: older

/-- The log after one more callback, with a new entry when it starts a transaction. -/
def logRequests (p : RelayParams) (log : List (List Frame)) (n : RelayNode) (e : Event) :
    List (List Frame) :=
  extendLog log (startedBy p n e).isSome (requestsIn p (step p n e).2)

/-- The requests published in a run, by the transaction they were published for, the newest
transaction first. -/
def requestLog (p : RelayParams) (es : List Event) : List (List Frame) :=
  Automaton.accumulate (step p) (logRequests p) [] new es

/-- The request of the transaction with the given index. -/
def requestOf (p : RelayParams) (txnIndex : ℕ) (payload : List UInt8) : Frame :=
  requestFrame p (UInt16.ofNat txnIndex) (request (UInt16.ofNat txnIndex) payload)

/-- Every entry repeats one request, which carries the number of its transaction, at least once
and at most once more than there are retries. -/
def Faithful (p : RelayParams) : List (List Frame) → Prop
  | [] => True
  | newest :: older =>
    (∃ payload k, 1 ≤ k ∧ k ≤ p.maxRetries + 1 ∧
      newest = List.replicate k (requestOf p (older.length + 1) payload)) ∧ Faithful p older

/-- The log of a relay: faithful, one entry for each transaction, and the newest one, while it is
pending, as long as the attempt counter says. -/
structure Logged (p : RelayParams) (log : List (List Frame)) (n : RelayNode) : Prop where
  sound : Sound p n
  faithful : Faithful p log
  txn_eq : n.txn = UInt16.ofNat log.length
  newest_eq : n.busy = true →
    ∃ older, log = List.replicate n.attempt (pendingRequest p n) :: older

variable {p : RelayParams} {n n' : RelayNode} {e : Event} {out : List Frame}
  {log : List (List Frame)}

/-! ## One callback -/

@[simp] theorem extendLog_nil (log : List (List Frame)) : extendLog log false [] = log := by
  cases log <;> simp [extendLog]

@[simp] theorem extendLog_start (log : List (List Frame)) (requests : List Frame) :
    extendLog log true requests = requests :: log := rfl

@[simp] theorem requestsIn_nil : requestsIn p [] = [] := rfl

@[simp] theorem requestsIn_pendingRequest :
    requestsIn p [pendingRequest p n] = [pendingRequest p n] := by
  simp [requestsIn, pendingRequest, requestFrame]

/-- The pending request is the one of the transaction last started. -/
theorem pendingRequest_eq (hpending : n.pendingTxn = n.txn) {i : ℕ} (h : n.txn = UInt16.ofNat i) :
    pendingRequest p n = requestOf p i n.payload := by
  rw [pendingRequest, requestOf, hpending, h]

/-- A callback that makes no attempt leaves the log as it was. -/
theorem Logged.of_quiet (hl : Logged p log n) (hs : Sound p n') (htxn : n'.txn = n.txn)
    (h : n'.busy = true →
      n.busy = true ∧ n'.attempt = n.attempt ∧ pendingRequest p n' = pendingRequest p n) :
    Logged p log n' := by
  refine ⟨hs, hl.faithful, htxn ▸ hl.txn_eq, ?_⟩
  intro hbusy
  obtain ⟨hbusy, hatt, hreq⟩ := h hbusy
  rw [hatt, hreq]
  exact hl.newest_eq hbusy

theorem Logged.transition (hl : Logged p log n) (ht : Transition p n e n' out) :
    Logged p (extendLog log (startedBy p n e).isSome (requestsIn p out)) n' := by
  have hs := hl.sound.transition ht
  cases ht with
  | ignore => simpa using hl.of_quiet hs rfl fun h => ⟨h, rfl, rfl⟩
  | noDst | keep | refuse | tooLong | giveUp =>
    simpa using hl.of_quiet hs rfl (by simp [settled])
  | forward h htarget =>
    -- A forward goes to another station than the slave.
    simpa [requestsIn, htarget.ne_slave1Id] using hl.of_quiet hs rfl (by simp [settled])
  | decline h => simpa [startedBy_of_none h] using hl
  | oversize h hlen =>
    simpa [startedBy_of_lt h hlen] using hl.of_quiet hs rfl fun h => ⟨h, rfl, rfl⟩
  | idle => simpa using hl.of_quiet hs rfl fun h => ⟨h, rfl, rfl⟩
  | @start e payload h hlen =>
    have htxn : n.txn + 1 = UInt16.ofNat (log.length + 1) := by
      rw [hl.txn_eq, UInt16.ofNat_add]
      rfl
    rw [startedBy_of_le h hlen, requestsIn_pendingRequest, Option.isSome_some, extendLog_start]
    refine ⟨hs, ⟨⟨payload, 1, le_rfl, by omega, ?_⟩, hl.faithful⟩, htxn, ?_⟩
    · exact congrArg (fun f => [f]) (pendingRequest_eq rfl htxn)
    · intro _
      exact ⟨log, rfl⟩
  | retry hbusy hatt =>
    obtain ⟨older, rfl⟩ := hl.newest_eq hbusy
    have hreq : pendingRequest p n = requestOf p (older.length + 1) n.payload :=
      pendingRequest_eq hl.sound.pendingTxn_eq hl.txn_eq
    have hlog : extendLog (List.replicate n.attempt (pendingRequest p n) :: older)
        (startedBy p n .timeout).isSome (requestsIn p [pendingRequest p n]) =
          List.replicate (n.attempt + 1) (pendingRequest p n) :: older := by
      simp [extendLog, List.replicate_succ']
    rw [hlog]
    refine ⟨hs, ⟨⟨n.payload, n.attempt + 1, by omega, by omega, by rw [hreq]⟩, hl.faithful.2⟩,
      hl.txn_eq, ?_⟩
    intro _
    exact ⟨older, rfl⟩

theorem Logged.step (hl : Logged p log n) (e : Event) :
    Logged p (logRequests p log n e) (step p n e).1 :=
  hl.transition (step_transition hl.sound e)

/-! ## Runs -/

/-- **The log after every run** is faithful, and its newest entry is the pending transaction. -/
theorem logged_afterRun (p : RelayParams) (es : List Event) :
    Logged p (requestLog p es) (afterRun p es) := by
  refine Automaton.accumulate_induction (Logged p) es ?_ ?_
  · exact ⟨sound_new p, trivial, rfl, by simp [new]⟩
  · intro log n e hl
    exact hl.step e

theorem length_extendLog (log : List (List Frame)) (started : Option (List UInt8))
    (requests : List Frame) :
    (extendLog log started.isSome requests).length = log.length + started.toList.length := by
  cases started <;> cases log <;> simp [extendLog]

/-- The log has an entry for each transaction started. -/
theorem length_requestLog (p : RelayParams) (es : List Event) :
    (requestLog p es).length = (transactions p es).length := by
  suffices h : ∀ (log : List (List Frame)) (n : RelayNode),
      (Automaton.accumulate (step p) (logRequests p) log n es).length =
        log.length +
          (Automaton.collect (step p) (fun n e => (startedBy p n e).toList) n es).length by
    simpa [requestLog, transactions] using h [] new
  induction es with
  | nil => simp [Automaton.accumulate]
  | cons e es ih =>
    intro log n
    rw [Automaton.accumulate, ih, logRequests, length_extendLog, Automaton.collect_cons,
      List.length_append, Nat.add_assoc]

/-- While a transaction stays pending, an expiry counts as an attempt and nothing else does. -/
theorem Transition.attempt_eq (ht : Transition p n e n' out) (hbusy : n.busy = true)
    (hbusy' : n'.busy = true) : n'.attempt = n.attempt + [e].count .timeout := by
  cases ht with
  | ignore => simp
  | decline h he =>
    rcases he with rfl | ⟨data, rfl⟩ <;> simp
  | oversize h | start h =>
    rw [busy_of_offered h] at hbusy
    cases hbusy
  | retry => simp
  | idle h =>
    rw [h] at hbusy
    cases hbusy
  | noDst | keep | refuse | tooLong | forward | giveUp => cases hbusy'

/-- While a transaction stays pending, the attempts count the expiries. -/
theorem attempt_stateAfter (hs : Sound p n) (later : List Event)
    (h : ∀ pre, pre <+: later → (Automaton.stateAfter (step p) n pre).busy = true) :
    (Automaton.stateAfter (step p) n later).attempt = n.attempt + later.count .timeout := by
  induction later generalizing n with
  | nil => rfl
  | cons e later ih =>
    have hstep := (step_transition hs e).attempt_eq (h [] List.nil_prefix)
      (h [e] ((List.prefix_cons_inj e).mpr List.nil_prefix))
    have hrest := ih (sound_step hs e) fun pre hpre =>
      h (e :: pre) ((List.prefix_cons_inj e).mpr hpre)
    have hcount : (e :: later).count .timeout = [e].count .timeout + later.count .timeout := by
      rw [← List.count_append, List.singleton_append]
    rw [Automaton.stateAfter_cons, hrest, hstep, hcount, Nat.add_assoc]

/-- **Enough expiries end a pending transaction**, whatever else happens in between. -/
theorem exists_idle_of_count (hs : Sound p n) (hbusy : n.busy = true) (later : List Event)
    (hcount : p.maxRetries + 1 ≤ later.count .timeout) :
    ∃ pre, pre <+: later ∧ (Automaton.stateAfter (step p) n pre).busy = false := by
  by_contra hnone
  have hall : ∀ pre, pre <+: later → (Automaton.stateAfter (step p) n pre).busy = true := by
    intro pre hpre
    by_contra hidle
    exact hnone ⟨pre, hpre, Bool.not_eq_true _ ▸ hidle⟩
  -- One attempt was made before, and each expiry would have made another.
  have hatt := attempt_stateAfter hs later hall
  have hend : Sound p (Automaton.stateAfter (step p) n later) :=
    Automaton.stateAfter_induction (Sound p) later hs fun _ e h => sound_step h e
  have hmax := hend.attempt_le (hall later List.prefix_rfl)
  have hone := hs.one_le_attempt hbusy
  omega

/-- A pending transaction ends with the awaited frame, or at an expiry after the last attempt. -/
theorem Transition.ends (ht : Transition p n e n' out) (hs : Sound p n) (hbusy : n.busy = true)
    (hidle : n'.busy = false) :
    (∃ msg, e = .rx msg ∧ Awaits p n msg) ∨ (e = .timeout ∧ n.attempt = p.maxRetries + 1) := by
  cases ht with
  | @noDst msg h => exact .inl ⟨msg, rfl, h⟩
  | @keep msg _ h | @refuse msg _ _ h | @tooLong msg _ _ h | @forward msg _ _ h =>
    exact .inl ⟨msg, rfl, h.toAwaits⟩
  | giveUp _ hatt => exact .inr ⟨rfl, le_antisymm (hs.attempt_le hbusy) hatt⟩
  | ignore | decline | oversize | start | idle | retry => simp_all [openTransaction]

/-! ## What is in a faithful log -/

/-- Every entry repeats the request of its transaction; the index counts from the oldest entry. -/
theorem Faithful.exists_eq_requestOf (h : Faithful p log) {i : ℕ} {requests : List Frame}
    (hi : log[i]? = some requests) :
    ∃ payload k, 1 ≤ k ∧ k ≤ p.maxRetries + 1 ∧
      requests = List.replicate k (requestOf p (log.length - i) payload) := by
  induction log generalizing i with
  | nil => cases hi
  | cons newest older ih =>
    cases i with
    | zero =>
      injection hi with hi
      subst hi
      exact h.1
    | succ i =>
      obtain ⟨payload, k, h₁, h₂, h₃⟩ := ih h.2 hi
      refine ⟨payload, k, h₁, h₂, ?_⟩
      rw [h₃, List.length_cons, Nat.add_sub_add_right]

@[simp] theorem parseTxn_requestOf (i : ℕ) (payload : List UInt8) :
    parseTxn (requestOf p i payload).data = some (UInt16.ofNat i) :=
  parseTxn_request _ _

/-- **Bounded, identical retransmission with a live timer.** After every run: the timer is armed
exactly while a transaction is pending; the attempts, at least one and at most one more than there
are retries, are the requests published for it; the requests of each transaction are one and the
same frame; a pending transaction ends with the awaited frame or at the expiry after its last
attempt; it does end, whatever happens, at the latest when that many expiries were served; and the
requests of transactions less than a full turn apart carry different numbers. -/
theorem bounded_retransmission (p : RelayParams) (es : List Event) :
    let n := afterRun p es
    let log := requestLog p es
    (n.busy = true ↔ n.timerArmed = true) ∧
    log.length = (transactions p es).length ∧
    (n.busy = true → 1 ≤ n.attempt ∧ n.attempt ≤ p.maxRetries + 1 ∧
      ∃ requests ∈ log.head?, n.attempt = requests.length) ∧
    (∀ requests ∈ log, requests ≠ [] ∧ ∀ f ∈ requests, ∀ g ∈ requests, f = g) ∧
    (∀ e, n.busy = true → (step p n e).1.busy = false →
      (∃ msg, e = .rx msg ∧ Awaits p n msg) ∨
        (e = .timeout ∧ ∃ requests ∈ log.head?, requests.length = p.maxRetries + 1)) ∧
    (n.busy = true → ∀ later : List Event, p.maxRetries + 1 ≤ later.count .timeout →
      ∃ pre, pre <+: later ∧ (afterRun p (es ++ pre)).busy = false) ∧
    ∀ i j, i < j → j < i + 65536 → ∀ requests ∈ log[i]?, ∀ requests' ∈ log[j]?,
      ∀ f ∈ requests, ∀ g ∈ requests', parseTxn f.data ≠ parseTxn g.data := by
  intro n log
  have hl : Logged p log n := logged_afterRun p es
  have hs := hl.sound
  have hhead : n.busy = true → ∃ requests ∈ log.head?, n.attempt = requests.length := by
    intro hbusy
    obtain ⟨older, hlog⟩ := hl.newest_eq hbusy
    exact ⟨_, by rw [hlog]; rfl, by rw [List.length_replicate]⟩
  refine ⟨by rw [hs.timerArmed_eq], length_requestLog p es, ?_, ?_, ?_, ?_, ?_⟩
  · intro hbusy
    exact ⟨hs.one_le_attempt hbusy, hs.attempt_le hbusy, hhead hbusy⟩
  · intro requests hmem
    obtain ⟨i, hi⟩ := List.getElem?_of_mem hmem
    obtain ⟨payload, k, hpos, -, rfl⟩ := hl.faithful.exists_eq_requestOf hi
    refine ⟨by simp; omega, ?_⟩
    intro f hf g hg
    rw [List.eq_of_mem_replicate hf, List.eq_of_mem_replicate hg]
  · intro e hbusy hidle
    rcases (step_transition hs e).ends hs hbusy hidle with h | ⟨he, hatt⟩
    · exact .inl h
    · obtain ⟨requests, hmem, hlen⟩ := hhead hbusy
      exact .inr ⟨he, requests, hmem, hlen ▸ hatt⟩
  · intro hbusy later hcount
    obtain ⟨pre, hpre, hidle⟩ := exists_idle_of_count hs hbusy later hcount
    exact ⟨pre, hpre, by rw [afterRun, Automaton.stateAfter_append]; exact hidle⟩
  · intro i j hij hturn requests hi requests' hj f hf g hg heq
    obtain ⟨payload, k, -, -, rfl⟩ := hl.faithful.exists_eq_requestOf hi
    obtain ⟨payload', k', -, -, rfl⟩ := hl.faithful.exists_eq_requestOf hj
    rw [List.eq_of_mem_replicate hf, List.eq_of_mem_replicate hg, parseTxn_requestOf,
      parseTxn_requestOf, Option.some.injEq] at heq
    obtain ⟨hlt, -⟩ := List.getElem?_eq_some_iff.mp hj
    -- The log is newest first: the later entry is the one nearer to its head.
    have := ofNat_inj_of_lt heq.symm (by omega) (by omega)
    omega

end RelayNode

end Ds10Relay

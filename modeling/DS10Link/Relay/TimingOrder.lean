import Mathlib.Data.List.Perm.Basic
import DS10Link.Relay.Timing

/-!
# The order of the three hops

Each hop of a transaction is taken once. A request in flight was published by the transaction under
way or an earlier one, and the number tells which; so is a reply. Hence the stages are stamped one
after the other, and what a transaction returns are the times of the first of them.

## Main definitions

* `TimingRun.Reached`: how far the transaction under way is, and what of it is in flight
* `TimingRun.Ordered`: what every action keeps
* `TimingRun.Prompt`: what the event says of the transaction under way

## Main results

* `timings_afterRun`: whatever a transaction returns are the times of its first stages, in order
* `woken_afterRun`: a transaction that is woken up has all six
-/

open Automaton Word

namespace Ds10Relay

open Transaction RelayMaster

/-! ## What is in flight -/

namespace TimingRun

/-- The messages of the transaction under way that are on a hop. -/
def onHop (hop : Hop) (begun : ℕ) (flying : List Flying) : ℕ :=
  flying.countP fun f => f.hop = hop ∧ f.txnIndex = begun

/-- The request under way is still to be published. -/
def unpublished : TimingMain → ℕ
  | .clear _ | .publish _ => 1
  | _ => 0

/-- A message in flight belongs to its transaction. -/
def Flying.Belongs (f : Flying) : Prop :=
  match f.hop with
  | .slave1 => f.msg.data = request (UInt16.ofNat f.txnIndex) requestText
  | .master => f.msg.stationId = slave1Id ∧
      f.msg.data = reply (UInt16.ofNat f.txnIndex) forwardDst replyText
  | .slave2 => True

/-- How far the transaction under way is, by the number of stages stamped: a hop is taken once. -/
structure Reached (s : TimingRun) (n : ℕ) : Prop where
  count : n = 0 ∧ s.begun = 0 ∨ (n = 1 ∨ n = 3 ∨ n = 5 ∨ n = 6) ∧ 1 ≤ s.begun
  requests : onHop .slave1 s.begun s.flying + unpublished s.main ≤ if n = 1 then 1 else 0
  replies : onHop .master s.begun s.flying ≤ if n = 3 then 1 else 0
  expects : s.test.expectSlave2 = true → n = 5

/-- What holds between the actions. -/
structure Ordered (s : TimingRun) : Prop where
  txn_eq : s.test.txn = s.begun % 65536
  pending : ∀ n ∈ s.test.pending, n = s.test.txn
  numbered : ∀ txn, s.main = .clear txn ∨ s.main = .publish txn → txn = s.test.txn
  begun : s.main ≠ .idle → 1 ≤ s.begun
  stamped : ∃ ts, Stamped s.test.t ts ∧ (∀ x ∈ ts, x ≤ s.clock) ∧ Reached s ts.length
  flying : ∀ f ∈ s.flying, 1 ≤ f.txnIndex ∧ f.txnIndex ≤ s.begun ∧ Flying.Belongs f
  results : ∀ r ∈ s.results, Returned r.2

theorem onHop_append (hop : Hop) (begun : ℕ) (fs gs : List Flying) :
    onHop hop begun (fs ++ gs) = onHop hop begun fs + onHop hop begun gs :=
  List.countP_append

theorem onHop_singleton (hop : Hop) (begun : ℕ) (f : Flying) :
    onHop hop begun [f] = if f.hop = hop ∧ f.txnIndex = begun then 1 else 0 := by
  rw [onHop, List.countP_singleton]
  simp only [decide_eq_true_eq]

/-- What is delivered is in flight no more. -/
theorem onHop_eraseIdx {hop : Hop} {begun i : ℕ} {fs : List Flying} {f : Flying}
    (hf : fs[i]? = some f) : onHop hop begun fs =
      onHop hop begun (fs.eraseIdx i) + if f.hop = hop ∧ f.txnIndex = begun then 1 else 0 := by
  obtain ⟨hi, rfl⟩ := List.getElem?_eq_some_iff.mp hf
  rw [onHop, onHop, ← (List.getElem_cons_eraseIdx_perm hi).countP_eq, List.countP_cons]
  simp only [decide_eq_true_eq]

theorem onHop_eq_zero {hop : Hop} {begun : ℕ} {fs : List Flying}
    (h : ∀ f ∈ fs, f.txnIndex < begun) : onHop hop begun fs = 0 := by
  rw [onHop, List.countP_eq_zero]
  intro f hf
  have := h f hf
  simp only [decide_eq_true_eq, not_and]
  omega

/-! ## The main thread -/

variable {s : TimingRun}

/-- A transaction begins. -/
theorem Ordered.begin (h : Ordered s) : Ordered { s with
    test := s.test.begin s.clock
    main := .clear (s.test.begin s.clock).txn
    begun := s.begun + 1 } := by
  -- The number goes on by one, and back to 0 where the transactions have reached 65536.
  have hword : (s.test.txn + 1) &&& 0xFFFF = (s.begun + 1) % 65536 := by
    rw [show (0xFFFF : ℕ) = 2 ^ 16 - 1 from rfl, Nat.and_two_pow_sub_one_eq_mod, h.txn_eq]
    omega
  -- Whatever is in flight belongs to an earlier transaction.
  have hold : ∀ hop, onHop hop (s.begun + 1) s.flying = 0 := by
    intro hop
    refine onHop_eq_zero ?_
    intro f hf
    have := (h.flying f hf).2.1
    omega
  refine ⟨hword, ?_, ?_, fun _ => Nat.le_add_left _ _, ⟨[s.clock], ?_, ?_, ?_⟩, ?_, h.results⟩
  · rintro n ⟨rfl⟩
    rfl
  · rintro txn (heq | heq)
    · exact (TimingMain.clear.inj heq).symm
    · cases heq
  · exact stamped_none.stamp rfl nofun
  · intro x hx
    rw [List.mem_singleton.mp hx]
  · refine ⟨.inr ⟨.inl rfl, Nat.le_add_left _ _⟩, ?_, ?_, nofun⟩
    · show onHop .slave1 (s.begun + 1) s.flying + 1 ≤ 1
      rw [hold]
    · show onHop .master (s.begun + 1) s.flying ≤ 0
      rw [hold]
  · intro f hf
    obtain ⟨hone, hlast, hbelongs⟩ := h.flying f hf
    exact ⟨hone, Nat.le_succ_of_le hlast, hbelongs⟩

/-- The event is cleared before the request is published. -/
theorem Ordered.clear (h : Ordered s) {txn : ℕ} (hmain : s.main = .clear txn) : Ordered { s with
    test := { s.test with done := false }
    main := .publish txn } := by
  obtain ⟨ts, hstamped, hle, hreached⟩ := h.stamped
  -- The request stays unpublished.
  have hrequests := hreached.requests
  rw [hmain] at hrequests
  refine ⟨h.txn_eq, h.pending, ?_, fun _ => h.begun (by rw [hmain]; nofun), ⟨ts, hstamped, hle, ?_⟩,
    h.flying, h.results⟩
  · rintro txn' (heq | heq)
    · cases heq
    · rw [← TimingMain.publish.inj heq]
      exact h.numbered txn (.inl hmain)
  · exact ⟨hreached.count, hrequests, hreached.replies, hreached.expects⟩

/-- The request is published: it was to be, and now it is in flight. -/
theorem Ordered.publish (h : Ordered s) {txn : ℕ} (hmain : s.main = .publish txn) :
    Ordered { s with
      main := .wait
      flying := s.flying ++ fromMaster s.begun (TimingTest.requestMsg txn) } := by
  obtain ⟨ts, hstamped, hle, hreached⟩ := h.stamped
  have hone : 1 ≤ s.begun := h.begun (by rw [hmain]; nofun)
  have htxn : txn = s.begun % 65536 := (h.numbered txn (.inr hmain)).trans h.txn_eq
  have hpublished : fromMaster s.begun (TimingTest.requestMsg txn) =
      [⟨.slave1, s.begun, LossyLink.received 0 (TimingTest.requestMsg txn)⟩] := rfl
  have hrequests := hreached.requests
  rw [hmain] at hrequests
  refine ⟨h.txn_eq, h.pending, nofun, fun _ => hone, ⟨ts, hstamped, hle, ?_⟩, ?_, h.results⟩
  · refine ⟨hreached.count, ?_, ?_, hreached.expects⟩
    · show onHop .slave1 s.begun (s.flying ++ fromMaster s.begun _) + 0 ≤ _
      rw [onHop_append, hpublished, onHop_singleton, if_pos ⟨rfl, rfl⟩]
      exact hrequests
    · show onHop .master s.begun (s.flying ++ fromMaster s.begun _) ≤ _
      rw [onHop_append, hpublished, onHop_singleton, if_neg (by simp)]
      exact hreached.replies
  · intro f hf
    rcases List.mem_append.mp hf with hf | hf
    · exact h.flying f hf
    · rw [hpublished] at hf
      rw [List.mem_singleton.mp hf]
      refine ⟨hone, le_rfl, ?_⟩
      -- Both name the transaction, the one by its number and the other by how many were begun.
      show requestData txn requestText = request (UInt16.ofNat s.begun) requestText
      rw [htxn, requestData_eq (Nat.mod_lt _ (by decide))]
      apply congrArg fun w => request w requestText
      apply UInt16.toNat_inj.mp
      rw [UInt16.toNat_ofNat', UInt16.toNat_ofNat', Nat.mod_mod]

/-- The wait is over. -/
theorem Ordered.woken (h : Ordered s) (hmain : s.main = .wait) (ok : Bool) :
    Ordered { s with main := .close ok } := by
  obtain ⟨ts, hstamped, hle, hreached⟩ := h.stamped
  have hrequests := hreached.requests
  rw [hmain] at hrequests
  exact ⟨h.txn_eq, h.pending, nofun, fun _ => h.begun (by rw [hmain]; nofun),
    ⟨ts, hstamped, hle, hreached.count, hrequests, hreached.replies, hreached.expects⟩,
    h.flying, h.results⟩

/-- The transaction returns its times. -/
theorem Ordered.close (h : Ordered s) {ok : Bool} (hmain : s.main = .close ok) : Ordered { s with
    test := { s.test with pending := none }
    main := .idle
    results := s.results ++ [(ok, s.test.t)] } := by
  obtain ⟨ts, hstamped, hle, hreached⟩ := h.stamped
  have hone : 1 ≤ s.begun := h.begun (by rw [hmain]; nofun)
  have hrequests := hreached.requests
  rw [hmain] at hrequests
  refine ⟨h.txn_eq, nofun, nofun, fun hne => absurd rfl hne, ⟨ts, hstamped, hle, hreached.count,
    hrequests, hreached.replies, hreached.expects⟩, h.flying, ?_⟩
  intro r hr
  rcases List.mem_append.mp hr with hr | hr
  · exact h.results r hr
  · rw [List.mem_singleton.mp hr]
    refine ⟨ts, hstamped, ?_⟩
    -- A transaction is under way, so its beginning at least was stamped.
    rcases hreached.count with ⟨-, hzero⟩ | ⟨hcount, -⟩
    · omega
    · exact hcount

theorem Ordered.main (h : Ordered s) : Ordered s.mainStep := by
  rw [mainStep.eq_def]
  cases hmain : s.main with
  | idle => exact h.begin
  | clear txn => exact h.clear hmain
  | publish txn => exact h.publish hmain
  | wait =>
    dsimp only
    split
    · exact h.woken hmain true
    · exact h
  | close ok => exact h.close hmain

/-! ## The callbacks -/

theorem gotTxn_request (txn : UInt16) (payload : List UInt8) :
    gotTxn (request txn payload) = txn.toNat := by
  show (hiByte txn).toNat <<< 8 ||| (loByte txn).toNat = txn.toNat
  rw [shiftLeft_or, toNat_hiByte, toNat_loByte]
  omega

theorem replyMarker_append (txn : UInt16) (dst : UInt8) (text : List UInt8) :
    RelayResponder.replyMarker ++ [hiByte txn, loByte txn, dst] ++ text = reply txn dst text := rfl

/-- A request that is taken is answered, with its number. -/
theorem onSlave1Rx_request (t : TimingTest) (now d : ℕ) {msg : Frame} {txn : UInt16}
    (hdata : msg.data = request txn requestText) :
    t.onSlave1Rx now d msg = if t.pending = some txn.toNat then
      ({ t with t := (t.t.stamp .reqRecv now).stamp .replySent (now + d) },
        [{ functionCode := msg.functionCode, data := reply txn forwardDst replyText }])
    else (t, []) := by
  have hkept : ¬ (msg.data.length < RelayResponder.hdrLen ∨
      msg.data.take 2 ≠ RelayResponder.marker) := by
    rw [RelayResponder.dropped_iff, hdata]
    simp
  have hgot : gotTxn msg.data = txn.toNat := by rw [hdata, gotTxn_request]
  rw [TimingTest.onSlave1Rx, if_neg hkept]
  dsimp only
  rw [hgot]
  by_cases hpending : t.pending = some txn.toNat
  · have hnot : ¬ some txn.toNat ≠ t.pending := not_not.mpr hpending.symm
    obtain ⟨hhi, hlo⟩ := headerBytes txn.toNat_lt
    rw [if_neg hnot, if_pos hpending, hhi, hlo, UInt16.ofNat_toNat, replyMarker_append]
  · rw [if_pos (Ne.symm hpending), if_neg hpending]

/-- A reply that is taken is forwarded. -/
theorem onMasterRx_reply (t : TimingTest) (now d : ℕ) {msg : Frame} {txn : UInt16}
    (hstation : msg.stationId = slave1Id) (hdata : msg.data = reply txn forwardDst replyText) :
    t.onMasterRx now d msg = if t.pending = some txn.toNat then
      ({ t with
          t := (t.t.stamp .replyRecv now).stamp .fwdSent (now + d)
          expectSlave2 := true },
        [{ stationId := forwardDst, functionCode := msg.functionCode, data := replyText }])
    else (t, []) := by
  have hgot : gotTxn msg.data = txn.toNat := by rw [hdata, gotTxn_reply]
  have hreply : ¬ ¬ IsReply msg.data := not_not.mpr (isReply_iff.mpr ⟨_, _, _, hdata⟩)
  rw [TimingTest.onMasterRx, if_neg (not_not.mpr hstation), if_neg hreply, hgot]
  by_cases hpending : t.pending = some txn.toNat
  · have hnot : ¬ some txn.toNat ≠ t.pending := not_not.mpr hpending.symm
    rw [if_neg hnot, if_pos hpending, hdata]
    rfl
  · rw [if_pos (Ne.symm hpending), if_neg hpending]

/-- What was stamped before, and within the time `d` since, was stamped by then. -/
theorem forall_le_later {ts new : List ℕ} {clock d : ℕ} (hle : ∀ x ∈ ts, x ≤ clock)
    (hnew : ∀ x ∈ new, x ≤ clock + d) : ∀ x ∈ ts ++ new, x ≤ clock + d :=
  List.forall_mem_append.mpr ⟨fun x hx => (hle x hx).trans (Nat.le_add_right _ _), hnew⟩

/-- A message that changes nothing is in flight no more. -/
theorem Ordered.drop (h : Ordered s) (i d : ℕ) :
    Ordered { s with flying := s.flying.eraseIdx i, clock := s.clock + d } := by
  obtain ⟨htxn, hpending, hnumbered, hbegun, ⟨ts, hstamped, hle, hreached⟩, hflying, hresults⟩ := h
  have hless : ∀ hop, onHop hop s.begun (s.flying.eraseIdx i) ≤ onHop hop s.begun s.flying :=
    fun hop => (List.eraseIdx_sublist _ _).countP_le
  refine ⟨htxn, hpending, hnumbered, hbegun, ⟨ts, hstamped, ?_, ?_⟩, ?_, hresults⟩
  · exact fun x hx => (hle x hx).trans (Nat.le_add_right _ _)
  · exact ⟨hreached.count, (Nat.add_le_add_right (hless _) _).trans hreached.requests,
      (hless _).trans hreached.replies, hreached.expects⟩
  · exact fun f hf => hflying f (List.mem_of_mem_eraseIdx hf)

/-- The event concerns nobody else. -/
theorem Ordered.event (h : Ordered s) (signalling done : Bool) :
    Ordered { s with signalling := signalling, test := { s.test with done := done } } := by
  obtain ⟨ts, hstamped, hle, hreached⟩ := h.stamped
  exact ⟨h.txn_eq, h.pending, h.numbered, h.begun, ⟨ts, hstamped, hle, hreached.count,
    hreached.requests, hreached.replies, hreached.expects⟩, h.flying, h.results⟩

/-- A number that matches, and not too late, is that of the transaction under way. -/
theorem Ordered.index_eq (h : Ordered s) {k : ℕ} (hle : k ≤ s.begun) (hfresh : s.begun < k + 65536)
    (hpending : s.test.pending = some (UInt16.ofNat k).toNat) : k = s.begun := by
  have hnumber := h.pending _ hpending
  rw [h.txn_eq, UInt16.toNat_ofNat'] at hnumber
  omega

theorem Ordered.onSlave1 (h : Ordered s) {i d k : ℕ} {msg : Frame}
    (hf : s.flying[i]? = some ⟨.slave1, k, msg⟩) (hfresh : s.begun < k + 65536) :
    Ordered (callback { s with flying := s.flying.eraseIdx i } d ⟨.slave1, k, msg⟩) := by
  have hdrop := h.drop i d
  obtain ⟨hone, hlast, hdata⟩ := h.flying _ (List.mem_of_getElem? hf)
  rw [callback.eq_def]
  dsimp only
  rw [onSlave1Rx_request s.test s.clock d hdata]
  by_cases hpending : s.test.pending = some (UInt16.ofNat k).toNat
  · rw [if_pos hpending]
    obtain rfl := h.index_eq hlast hfresh hpending
    obtain ⟨ts, hstamped, hle, hreached⟩ := h.stamped
    -- The request was in flight, so nothing but its sending was stamped.
    have hrequests := hreached.requests
    have hreplies := hreached.replies
    rw [onHop_eraseIdx hf, if_pos ⟨rfl, rfl⟩] at hrequests
    rw [onHop_eraseIdx hf, if_neg (by simp)] at hreplies
    have hlen : ts.length = 1 := by
      by_contra hne
      rw [if_neg hne] at hrequests
      omega
    rw [hlen, if_pos rfl] at hrequests
    rw [hlen, if_neg (by decide)] at hreplies
    refine ⟨h.txn_eq, h.pending, h.numbered, h.begun,
      ⟨ts ++ [s.clock, s.clock + d], ?_, ?_, ?_⟩, ?_, h.results⟩
    · exact hstamped.stamp₂ (by rw [hlen]; rfl) (by rw [hlen]; rfl) hle
    · exact forall_le_later hle (by simp)
    · have hthree : (ts ++ [s.clock, s.clock + d]).length = 3 := by
        rw [List.length_append, hlen]
        rfl
      rw [hthree]
      refine ⟨.inr ⟨.inr (.inl rfl), hone⟩, ?_, ?_, ?_⟩
      · show onHop .slave1 s.begun (s.flying.eraseIdx i ++ _) + unpublished s.main ≤ 0
        rw [onHop_append, List.flatMap_singleton, fromSlave1, onHop_singleton, if_neg (by simp)]
        omega
      · show onHop .master s.begun (s.flying.eraseIdx i ++ _) ≤ 1
        rw [onHop_append, List.flatMap_singleton, fromSlave1, onHop_singleton, if_pos ⟨rfl, rfl⟩]
        omega
      · intro hexpect
        have := hreached.expects hexpect
        omega
    · intro f hf'
      rcases List.mem_append.mp hf' with hf' | hf'
      · exact h.flying f (List.mem_of_mem_eraseIdx hf')
      · rw [List.flatMap_singleton, fromSlave1, List.mem_singleton] at hf'
        rw [hf']
        exact ⟨hone, le_rfl, rfl, rfl⟩
  · rw [if_neg hpending]
    simpa using hdrop

theorem Ordered.onMaster (h : Ordered s) {i d k : ℕ} {msg : Frame}
    (hf : s.flying[i]? = some ⟨.master, k, msg⟩) (hfresh : s.begun < k + 65536) :
    Ordered (callback { s with flying := s.flying.eraseIdx i } d ⟨.master, k, msg⟩) := by
  have hdrop := h.drop i d
  obtain ⟨hone, hlast, hstation, hdata⟩ := h.flying _ (List.mem_of_getElem? hf)
  rw [callback.eq_def]
  dsimp only
  rw [onMasterRx_reply s.test s.clock d hstation hdata]
  by_cases hpending : s.test.pending = some (UInt16.ofNat k).toNat
  · rw [if_pos hpending]
    obtain rfl := h.index_eq hlast hfresh hpending
    obtain ⟨ts, hstamped, hle, hreached⟩ := h.stamped
    -- The reply was in flight, so the request had been taken and nothing was stamped since.
    have hrequests := hreached.requests
    have hreplies := hreached.replies
    rw [onHop_eraseIdx hf, if_neg (by simp)] at hrequests
    rw [onHop_eraseIdx hf, if_pos ⟨rfl, rfl⟩] at hreplies
    have hlen : ts.length = 3 := by
      by_contra hne
      rw [if_neg hne] at hreplies
      omega
    rw [hlen, if_neg (by decide)] at hrequests
    rw [hlen, if_pos rfl] at hreplies
    have hforward : ∀ f : Frame, f.stationId = forwardDst →
        fromMaster s.begun f = [⟨.slave2, s.begun, LossyLink.received 0 f⟩] := by
      intro f hto
      rw [fromMaster, hto]
      rfl
    refine ⟨h.txn_eq, h.pending, h.numbered, h.begun,
      ⟨ts ++ [s.clock, s.clock + d], ?_, ?_, ?_⟩, ?_, h.results⟩
    · exact hstamped.stamp₂ (by rw [hlen]; rfl) (by rw [hlen]; rfl) hle
    · exact forall_le_later hle (by simp)
    · have hfive : (ts ++ [s.clock, s.clock + d]).length = 5 := by
        rw [List.length_append, hlen]
        rfl
      rw [hfive]
      refine ⟨.inr ⟨.inr (.inr (.inl rfl)), hone⟩, ?_, ?_, fun _ => rfl⟩
      · show onHop .slave1 s.begun (s.flying.eraseIdx i ++ _) + unpublished s.main ≤ 0
        rw [onHop_append, List.flatMap_singleton, hforward _ rfl, onHop_singleton,
          if_neg (by simp)]
        omega
      · show onHop .master s.begun (s.flying.eraseIdx i ++ _) ≤ 0
        rw [onHop_append, List.flatMap_singleton, hforward _ rfl, onHop_singleton,
          if_neg (by simp)]
        omega
    · intro f hf'
      rcases List.mem_append.mp hf' with hf' | hf'
      · exact h.flying f (List.mem_of_mem_eraseIdx hf')
      · rw [List.flatMap_singleton, hforward _ rfl, List.mem_singleton] at hf'
        rw [hf']
        exact ⟨hone, le_rfl, trivial⟩
  · rw [if_neg hpending]
    simpa using hdrop

theorem Ordered.onSlave2 (h : Ordered s) {i d k : ℕ} {msg : Frame} :
    Ordered (callback { s with flying := s.flying.eraseIdx i } d ⟨.slave2, k, msg⟩) := by
  have hdrop := h.drop i d
  rw [callback.eq_def]
  dsimp only
  rw [TimingTest.onSlave2Rx]
  by_cases hexpect : s.test.expectSlave2 = false
  · rw [if_pos hexpect]
    exact hdrop.event false s.test.done
  · rw [if_neg hexpect]
    by_cases hdata : msg.data ≠ replyText
    · rw [if_pos hdata]
      exact hdrop.event false s.test.done
    · rw [if_neg hdata]
      obtain ⟨ts, hstamped, hle, hreached⟩ := h.stamped
      obtain ⟨hcount, hrequests, hreplies, hexpects⟩ := hreached
      -- The slave 2 listens from the forward on, until the last stage is stamped.
      have hlen : ts.length = 5 := hexpects (by simpa using hexpect)
      have hone : 1 ≤ s.begun := by
        rcases hcount with ⟨hzero, -⟩ | ⟨-, hone⟩
        · omega
        · exact hone
      have hless : ∀ hop, onHop hop s.begun (s.flying.eraseIdx i) ≤ onHop hop s.begun s.flying :=
        fun hop => (List.eraseIdx_sublist _ _).countP_le
      have hsix : (ts ++ [s.clock]).length = 6 := by
        rw [List.length_append, hlen]
        rfl
      rw [hlen] at hrequests hreplies
      refine ⟨h.txn_eq, h.pending, h.numbered, h.begun, ⟨ts ++ [s.clock], ?_, ?_, ?_⟩,
        hdrop.flying, h.results⟩
      · exact hstamped.stamp (by rw [hlen]; rfl) hle
      · exact forall_le_later hle (by simp)
      · rw [hsix]
        exact ⟨.inr ⟨.inr (.inr (.inr rfl)), hone⟩,
          (Nat.add_le_add_right (hless _) _).trans hrequests, (hless _).trans hreplies, nofun⟩

/-! ## Runs -/

theorem Ordered.step (h : Ordered s) {a : Action} (ha : Fresh s a) : Ordered (step s a).1 := by
  cases a with
  | tick d =>
    obtain ⟨ts, hstamped, hle, hreached⟩ := h.stamped
    exact ⟨h.txn_eq, h.pending, h.numbered, h.begun,
      ⟨ts, hstamped, fun x hx => (hle x hx).trans (Nat.le_add_right _ _), hreached.count,
        hreached.requests, hreached.replies, hreached.expects⟩, h.flying, h.results⟩
  | main => exact h.main
  | timeout =>
    rw [TimingRun.step]
    by_cases hwait : s.main = .wait ∧ s.test.done = false
    · rw [if_pos hwait]
      exact h.woken hwait.1 false
    · rw [if_neg hwait]
      exact h
  | deliver i d =>
    simp only [TimingRun.step]
    split
    · exact h
    · next f hf =>
      split
      · exact h
      · have hfresh := ha f hf
        obtain ⟨hop, k, msg⟩ := f
        cases hop with
        | slave1 => exact h.onSlave1 hf hfresh
        | slave2 => exact h.onSlave2
        | master => exact h.onMaster hf hfresh
  | signal =>
    rw [TimingRun.step]
    split
    · exact h.event false true
    · exact h

theorem ordered_init : Ordered {} :=
  ⟨rfl, nofun, nofun, fun hne => absurd rfl hne,
    ⟨[], stamped_none, nofun, .inl ⟨rfl, rfl⟩, le_rfl, le_rfl, nofun⟩, nofun, nofun⟩

theorem ordered_afterRun {acts : List Action} (hacts : Along step Fresh {} acts) :
    Ordered (afterRun acts) :=
  hacts.stateAfter_induction ordered_init fun _ _ h ha => h.step ha

end TimingRun

/-- **The times of the three hops** are in order, in every run in which nothing is delivered 65536
transactions late, whatever is lost, delayed or reordered, and however the callbacks fall between
the steps of the main thread. -/
theorem timings_afterRun (acts : List TimingRun.Action)
    (hacts : Along TimingRun.step TimingRun.Fresh {} acts) :
    ∀ r ∈ (TimingRun.afterRun acts).results, InOrder r.2 :=
  fun r hr => ((TimingRun.ordered_afterRun hacts).results r hr).inOrder

/-- A first transaction whose request is late, and a second one that goes through. -/
def lateRequest : List TimingRun.Action :=
  [.main, .main, .main, .tick 5, .timeout, .main, .main, .main, .main, .deliver 0 1, .deliver 0 1,
    .tick 4, .deliver 0 1, .tick 6, .deliver 0 2, .signal, .main, .main]

/-- The late request is not taken for that of the second transaction. -/
theorem timings_afterRun_late :
    let s := TimingRun.afterRun lateRequest
    (∀ r ∈ s.results, InOrder r.2) ∧ s.results.map (fun r => reportOne r.2) = [none, some 13] := by
  intro s
  exact ⟨timings_afterRun lateRequest (by decide +kernel), by decide +kernel⟩

/-! ## What wakes the main thread -/

namespace TimingRun

/-- The main thread has cleared the event and not gone on. -/
def awaiting : TimingMain → Bool
  | .publish _ | .wait => true
  | _ => false

/-- Where the event is set, or about to be, after it was cleared, the forward has arrived. -/
structure Prompt (s : TimingRun) : Prop where
  waiting : awaiting s.main = true → s.test.done = true ∨ s.signalling = true →
    (s.test.t .fwdRecv).isSome = true
  closing : s.main = .close true → (s.test.t .fwdRecv).isSome = true
  results : ∀ r ∈ s.results, r.1 = true → (r.2 .fwdRecv).isSome = true

variable {s : TimingRun}

theorem isSome_stamp {t : Times} {a b : Stage} {now : ℕ} (h : (t b).isSome = true) :
    ((t.stamp a now) b).isSome = true := by
  rw [Times.stamp]
  by_cases heq : b = a
  · rw [heq, Function.update_self]
    rfl
  · rw [Function.update_of_ne heq]
    exact h

/-- No callback takes a time back. -/
theorem isSome_callback {d : ℕ} {f : Flying} (stage : Stage)
    (h : (s.test.t stage).isSome = true) :
    ((s.callback d f).test.t stage).isSome = true := by
  rw [callback.eq_def]
  cases f.hop with
  | slave1 =>
    dsimp only
    rw [TimingTest.onSlave1Rx]
    split_ifs
    · exact h
    · dsimp only
      split_ifs
      · exact h
      · exact isSome_stamp (isSome_stamp h)
  | master =>
    dsimp only
    rw [TimingTest.onMasterRx]
    -- Three ways to ignore the message, and one to take it.
    split_ifs <;> first | exact h | exact isSome_stamp (isSome_stamp h)
  | slave2 =>
    dsimp only
    rw [TimingTest.onSlave2Rx]
    split_ifs
    · exact h
    · exact h
    · exact isSome_stamp h

/-- What a callback leaves alone, and what it means that it is about to set the event. -/
theorem callback_frame (s : TimingRun) (d : ℕ) (f : Flying) :
    (s.callback d f).main = s.main ∧ (s.callback d f).results = s.results ∧
      (s.callback d f).test.done = s.test.done ∧
      ((s.callback d f).signalling = true → s.signalling = true ∨
        ((s.callback d f).test.t .fwdRecv).isSome = true) := by
  rw [callback.eq_def]
  cases f.hop with
  | slave1 =>
    refine ⟨rfl, rfl, ?_, .inl⟩
    dsimp only
    rw [TimingTest.onSlave1Rx]
    split_ifs
    · rfl
    · dsimp only
      split_ifs <;> rfl
  | master =>
    refine ⟨rfl, rfl, ?_, .inl⟩
    dsimp only
    rw [TimingTest.onMasterRx]
    split_ifs <;> rfl
  | slave2 =>
    dsimp only
    rw [TimingTest.onSlave2Rx]
    split_ifs
    · exact ⟨rfl, rfl, rfl, nofun⟩
    · exact ⟨rfl, rfl, rfl, nofun⟩
    · refine ⟨rfl, rfl, rfl, fun _ => .inr ?_⟩
      show (Function.update s.test.t .fwdRecv (some s.clock) .fwdRecv).isSome = true
      rw [Function.update_self]
      rfl

theorem Prompt.callback (h : Prompt s) (d : ℕ) (f : Flying) : Prompt (s.callback d f) := by
  obtain ⟨hmain, hresults, hdone, hsignalling⟩ := callback_frame s d f
  refine ⟨?_, ?_, ?_⟩
  -- Where the event is about to be set, it was before, or this callback has stamped the forward.
  · rw [hmain, hdone]
    rintro hawaiting (hset | hsoon)
    · exact isSome_callback _ (h.waiting hawaiting (.inl hset))
    · rcases hsignalling hsoon with hbefore | hstamped
      · exact isSome_callback _ (h.waiting hawaiting (.inr hbefore))
      · exact hstamped
  · rw [hmain]
    exact fun hclose => isSome_callback _ (h.closing hclose)
  · rw [hresults]
    exact h.results

theorem Prompt.main (h : Prompt s) (hclear : s.main.clearing = true → s.signalling = false) :
    Prompt s.mainStep := by
  rw [mainStep.eq_def]
  cases hmain : s.main with
  | idle => exact ⟨nofun, nofun, h.results⟩
  | clear txn =>
    -- The event is cleared, and no callback is about to set it.
    refine ⟨?_, nofun, h.results⟩
    rintro - (hset | hsoon)
    · cases hset
    · rw [hmain] at hclear
      exact absurd hsoon (by rw [hclear rfl]; exact Bool.false_ne_true)
  | publish txn =>
    exact ⟨fun _ hset => h.waiting (by rw [hmain]; rfl) hset, nofun, h.results⟩
  | wait =>
    dsimp only
    split
    · next hdone =>
      exact ⟨nofun, fun _ => h.waiting (by rw [hmain]; rfl) (.inl hdone), h.results⟩
    · exact h
  | close ok =>
    refine ⟨nofun, nofun, ?_⟩
    intro r hr hok
    rcases List.mem_append.mp hr with hr | hr
    · exact h.results r hr hok
    · obtain rfl := List.mem_singleton.mp hr
      exact h.closing (hmain.trans (congrArg TimingMain.close hok))

theorem Prompt.step (h : Prompt s) {a : Action} (ha : Settled s a) : Prompt (step s a).1 := by
  cases a with
  | tick d => exact ⟨h.waiting, h.closing, h.results⟩
  | main => exact h.main (ha.2 rfl)
  | timeout =>
    rw [TimingRun.step]
    split
    · exact ⟨nofun, nofun, h.results⟩
    · exact h
  | deliver i d =>
    simp only [TimingRun.step]
    split
    · exact h
    · next f hf =>
      split
      · exact h
      · have hdrop : Prompt { s with flying := s.flying.eraseIdx i } :=
          ⟨h.waiting, h.closing, h.results⟩
        exact hdrop.callback d f
  | signal =>
    rw [TimingRun.step]
    split
    · next hsoon =>
      exact ⟨fun hawaiting _ => h.waiting hawaiting (.inr hsoon), h.closing, h.results⟩
    · exact h

end TimingRun

/-- **A transaction that is woken up has gone through**, in every run in which besides the event is
not cleared while a callback is about to set it: so one that counts as failed has timed out. -/
theorem woken_afterRun (acts : List TimingRun.Action)
    (hacts : Along TimingRun.step TimingRun.Settled {} acts) :
    ∀ r ∈ (TimingRun.afterRun acts).results, reportOne r.2 = none → r.1 = false := by
  have hboth : TimingRun.Ordered (TimingRun.afterRun acts) ∧
      TimingRun.Prompt (TimingRun.afterRun acts) := by
    have hinit : TimingRun.Ordered {} ∧ TimingRun.Prompt {} :=
      ⟨TimingRun.ordered_init, nofun, nofun, nofun⟩
    have hstep : ∀ s a, TimingRun.Ordered s ∧ TimingRun.Prompt s → TimingRun.Settled s a →
        TimingRun.Ordered (TimingRun.step s a).1 ∧ TimingRun.Prompt (TimingRun.step s a).1 :=
      fun _ _ h ha => ⟨h.1.step ha.1, h.2.step ha⟩
    exact hacts.stateAfter_induction hinit hstep
  intro r hr hfailed
  by_contra hok
  have harrived := hboth.2.results r hr (by simpa using hok)
  have hsent := (hboth.1.results r hr).inOrder.sent
  obtain ⟨x, hx⟩ := Option.isSome_iff_exists.mp hsent
  obtain ⟨y, hy⟩ := Option.isSome_iff_exists.mp harrived
  rw [reportOne, between, hx, hy] at hfailed
  cases hfailed

/-- The first transaction has timed out, and the second one was woken up. -/
theorem woken_afterRun_late :
    let s := TimingRun.afterRun lateRequest
    (∀ r ∈ s.results, reportOne r.2 = none → r.1 = false) ∧
      s.results.map Prod.fst = [false, true] := by
  intro s
  exact ⟨woken_afterRun lateRequest (by decide +kernel), by decide +kernel⟩

end Ds10Relay

import DS10Link.Relay.Master

/-!
# The books of the relaying script

What the script counts and publishes, whatever the order in which its two threads move, when the
time is up, and what is delivered. The number of an attempt is its place among all attempts, modulo
`65536`, and a callback that has matched leaves no number to match, so that an attempt is matched
once at most, even where the reply comes too late to count for it.

## Main definitions

* `MainPlace.due`, `MainPlace.unsent`, `MainPlace.open`: what is not booked yet
* `RelayThreads.Balanced`, `RelayThreads.Handled`: the counters against the history
* `RelayThreads.Publishes`: what is published against the attempts and the replies that matched
* `RelayThreads.InTurn`: the texts that count as answered

## Main results

* `publishes_history`: every forward is what one reply asked for, one at most for each attempt
* `inTurn_history`: the texts that count as answered are different ones, each sent in its attempt
* `ledger_afterRun`: the books balance after every run
-/

open Word

namespace Ds10Relay

open Transaction RelayMaster

namespace RelayMaster

/-- An attempt is under way whose request has not been published. -/
def MainPlace.unsent : MainPlace → ℕ
  | .clear _ | .publish _ => 1
  | _ => 0

/-- An attempt is due that has no number yet. -/
def MainPlace.due : MainPlace → ℕ
  | .begin _ _ => 1
  | _ => 0

/-- A request has been published and nothing has come of it yet. -/
def MainPlace.open : MainPlace → ℕ
  | .wait _ | .giveUp _ | .read _ | .crashed => 1
  | _ => 0

/-- The request that the attempt under way has yet to publish. -/
def MainPlace.toPublish (p : MasterParams) : MainPlace → List Frame
  | .clear a | .publish a => [requestMsg p a]
  | _ => []

/-- The text under way. -/
def MainPlace.text : MainPlace → List (List UInt8)
  | .begin payload _ => [payload]
  | .clear a | .publish a | .wait a | .giveUp a | .read a => [a.payload]
  | .input | .crashed => []

/-- The attempt under way. -/
def MainPlace.attempt? : MainPlace → Option Attempt
  | .clear a | .publish a | .wait a | .giveUp a | .read a => some a
  | .begin _ _ | .input | .crashed => none

/-- A message has been delivered and nothing has come of it yet. -/
def SpinPlace.handling : SpinPlace → ℕ
  | .look _ | .forward _ => 1
  | _ => 0

/-- A reply has matched, and the number it matched is still to be withdrawn. -/
def SpinPlace.settling : SpinPlace → Bool
  | .forward _ | .book _ _ _ => true
  | _ => false

/-- What a reply asks to have forwarded. -/
def forwardOf (p : MasterParams) (msg : Frame) : Option Frame :=
  let dst := msg.data.getD 4 0
  let payload := msg.data.drop replyHdrLen
  if 1 ≤ dst ∧ dst ≤ 247 ∧ dst ≠ p.slave1 ∧ payload.length ≤ kMaxData then
    some { stationId := dst, functionCode := msg.functionCode, data := payload }
  else none

/-- What the callback has yet to forward. -/
def SpinPlace.toForward (p : MasterParams) : SpinPlace → List Frame
  | .forward msg => (forwardOf p msg).toList
  | _ => []

/-- The message that the callback is still to read from. -/
def SpinPlace.msg? : SpinPlace → Option Frame
  | .look msg | .forward msg => some msg
  | _ => none

end RelayMaster

namespace RelayThreads

variable {p : MasterParams} {h h' : History} {s s' : RelayThreads} {a : ThreadAction}

/-! ## The books -/

/-- The counters of the main thread against the history. -/
structure Balanced (h : History) (s : RelayThreads) : Prop where
  texts : s.master.stats.total =
    s.master.stats.ok + s.master.stats.failed + (s.main.due + s.main.unsent + s.main.open)
  attempts : s.master.stats.total + s.master.stats.retried = h.begun.length + s.main.due
  requests : h.begun.length = h.requests.length + s.main.unsent
  outcomes : h.requests.length =
    s.master.stats.ok + s.master.stats.timeout + h.refused + s.main.open
  failures : s.master.stats.retried + s.master.stats.failed =
    s.master.stats.timeout + h.refused

theorem exists_compareReply (m : RelayMaster) (payload : List UInt8) :
    ∃ n, m.compareReply payload = { m with stats.mismatch := n } := by
  rw [compareReply]
  split_ifs
  · exact ⟨m.stats.mismatch, rfl⟩
  · exact ⟨m.stats.mismatch + 1, rfl⟩

theorem Balanced.move (hb : Balanced h s) (hm : Move p h s a h' s') : Balanced h' s' := by
  obtain ⟨htexts, hattempts, hrequests, houtcomes, hfailures⟩ := hb
  cases hm with
  | stay | stranger | rx | ignore | malformed | accept | book | signal =>
    exact ⟨htexts, hattempts, hrequests, houtcomes, hfailures⟩
  | forward hspin hsettled =>
    cases hsettled <;> exact ⟨htexts, hattempts, hrequests, houtcomes, hfailures⟩
  | line hmain | clear hmain | wake hmain | timeUp hmain | crash hmain =>
    simp only [hmain, MainPlace.due, MainPlace.unsent, MainPlace.open] at *
    constructor <;> dsimp only [MainPlace.due, MainPlace.unsent, MainPlace.open] <;> omega
  | begin hmain | publish hmain =>
    simp only [hmain, MainPlace.due, MainPlace.unsent, MainPlace.open] at *
    constructor <;>
      simp only [List.length_append, List.length_singleton, MainPlace.due, MainPlace.unsent,
        MainPlace.open] <;>
      omega
  | giveUp hmain hfailed =>
    simp only [hmain, MainPlace.due, MainPlace.unsent, MainPlace.open] at *
    cases hfailed <;> constructor <;>
      dsimp only [MainPlace.due, MainPlace.unsent, MainPlace.open] <;> omega
  | @ok _ payload _ hmain hreply =>
    obtain ⟨n, hcompare⟩ := exists_compareReply s.master payload
    rw [hcompare]
    simp only [hmain, MainPlace.due, MainPlace.unsent, MainPlace.open] at *
    constructor <;> dsimp only [MainPlace.due, MainPlace.unsent, MainPlace.open] <;> omega
  | @refused _ payload _ _ _ hmain hreply hfailed =>
    obtain ⟨n, hcompare⟩ := exists_compareReply s.master payload
    rw [hcompare] at hfailed
    simp only [hmain, MainPlace.due, MainPlace.unsent, MainPlace.open] at *
    cases hfailed <;> constructor <;>
      dsimp only [MainPlace.due, MainPlace.unsent, MainPlace.open] <;> omega

/-! ## Requests, replies and forwards -/

/-- The requests for the attempts of a run, each under its place among them. -/
def requestsOf (p : MasterParams) (begun : List (List UInt8)) : List Frame :=
  begun.mapIdx fun k payload =>
    { stationId := p.slave1, functionCode := 0x10, data := request (UInt16.ofNat (k + 1)) payload }

/-- The reply was taken for the attempt `k`. -/
def TakenFor (p : MasterParams) (k : ℕ) (msg : Frame) : Prop :=
  msg.stationId = p.slave1 ∧
    ∃ dst payload, msg.data = Transaction.reply (UInt16.ofNat k) dst payload

/-- Requests are numbered by attempts, each attempt is matched once at most, and what was forwarded
is what the matched replies asked for. -/
structure Paired (p : MasterParams) (h : History) (s : RelayThreads) : Prop where
  txn_eq : s.master.txn = h.begun.length % 65536
  pending : ∀ n ∈ s.master.pending, n = s.master.txn ∧ 1 ≤ h.begun.length
  requests : h.requests ++ s.main.toPublish p = requestsOf p h.begun
  increasing : (h.matched.map Prod.fst).Pairwise (· < ·)
  matched : ∀ m ∈ h.matched, 1 ≤ m.1 ∧ m.1 ≤ h.begun.length ∧ TakenFor p m.1 m.2
  fresh : s.master.pending ≠ none → s.spin.any SpinPlace.settling = false →
    ∀ m ∈ h.matched, m.1 < h.begun.length
  forwards : h.forwards ++ (s.spin.elim [] fun k => k.toForward p) =
    h.matched.filterMap fun m => forwardOf p m.2
  station : ∀ k ∈ s.spin, ∀ msg ∈ k.msg?, msg.stationId = p.slave1

theorem requestsOf_append (begun : List (List UInt8)) (payload : List UInt8) (index : ℕ) :
    requestsOf p (begun ++ [payload]) =
      requestsOf p begun ++ [requestMsg p ⟨payload, index, (begun.length + 1) % 65536⟩] := by
  have hword : UInt16.ofNat ((begun.length + 1) % 65536) = UInt16.ofNat (begun.length + 1) := by
    apply UInt16.toNat_inj.mp
    rw [UInt16.toNat_ofNat', UInt16.toNat_ofNat', Nat.mod_mod]
  rw [requestsOf, List.mapIdx_concat, requestsOf, requestMsg,
    requestData_eq (Nat.mod_lt _ (by decide)), hword]

/-- What is published for a matched reply. -/
theorem Settled.out_eq {m m' : RelayMaster} {msg : Frame} {ok : Bool} {out : List Frame}
    (hs : Settled p m (msg.data.getD 4 0) (msg.data.drop replyHdrLen) msg.functionCode m' ok out) :
    out = (forwardOf p msg).toList := by
  rw [forwardOf]
  generalize msg.data.getD 4 0 = dst at hs
  cases hs with
  | noForward hzero =>
    rw [if_neg, Option.toList_none]
    rintro ⟨hone, -⟩
    rw [hzero] at hone
    exact absurd hone (by decide)
  | badDst hbad =>
    rw [if_neg, Option.toList_none]
    rintro ⟨hone, hmax, hself, -⟩
    rcases hbad with hrange | hsame
    · exact hrange ⟨hone, hmax⟩
    · exact hself hsame
  | tooLong hlong =>
    rw [if_neg, Option.toList_none]
    rintro ⟨-, -, -, hlen⟩
    exact absurd hlen (Nat.not_le.mpr hlong)
  | forwarded hone hmax hself hlen =>
    rw [if_pos ⟨hone, hmax, hself, hlen⟩, Option.toList_some]

/-- Settling a reply touches nothing but the counters. -/
theorem Settled.exists_eq {m m' : RelayMaster} {dst : UInt8} {payload : List UInt8} {fc : UInt8}
    {ok : Bool} {out : List Frame} (hs : Settled p m dst payload fc m' ok out) :
    ∃ stats, m' = { m with stats := stats } := by
  cases hs with
  | noForward | badDst => exact ⟨_, rfl⟩
  | tooLong | forwarded => exact ⟨m.stats, rfl⟩

theorem Failed.exists_eq {m m' : RelayMaster} {payload : List UInt8} {index : ℕ}
    {next : MainPlace} (hf : Failed p m payload index m' next) :
    ∃ stats, m' = { m with stats := stats } ∧ next.toPublish p = [] := by
  cases hf with
  | retry | quit => exact ⟨_, rfl, rfl⟩

/-- The number of a reply that matches is that of the attempt. -/
theorem Paired.takenFor (hp : Paired p h s) {msg : Frame} (hm : Matches s msg) :
    1 ≤ h.begun.length ∧ TakenFor p h.begun.length msg := by
  obtain ⟨hspin, hreply, hpending⟩ := hm
  obtain ⟨htxn, hone⟩ := hp.pending _ hpending
  obtain ⟨txn, dst, payload, hdata⟩ := isReply_iff.mp hreply
  refine ⟨hone, hp.station _ hspin msg rfl, dst, payload, ?_⟩
  rw [hdata, gotTxn_reply, hp.txn_eq] at htxn
  have hword : txn = UInt16.ofNat h.begun.length := by
    apply UInt16.toNat_inj.mp
    rw [htxn, UInt16.toNat_ofNat']
  rw [hdata, hword]

/-- An attempt is begun: its request is numbered, and still to be published. -/
theorem Paired.begin (hp : Paired p h s) {payload : List UInt8} {index : ℕ}
    (hmain : s.main = .begin payload index) :
    Paired p { h with begun := h.begun ++ [payload] } { s with
      master.txn := (s.master.txn + 1) % 65536
      master.pending := some ((s.master.txn + 1) % 65536)
      master.sentText := some payload
      master.reply := none
      main := .clear ⟨payload, index, (s.master.txn + 1) % 65536⟩ } := by
  have hrequests := hp.requests
  rw [hmain] at hrequests
  have hnumber : (s.master.txn + 1) % 65536 = (h.begun.length + 1) % 65536 := by
    rw [hp.txn_eq]
    omega
  refine ⟨?_, ?_, ?_, hp.increasing, ?_, ?_, hp.forwards, hp.station⟩
  · simpa using hnumber
  · intro n hn
    obtain rfl := Option.some.inj hn
    exact ⟨rfl, by simp⟩
  · have hsofar : h.requests = requestsOf p h.begun := (List.append_nil _).symm.trans hrequests
    rw [hsofar, requestsOf_append _ _ index, ← hnumber, MainPlace.toPublish]
  · intro m hm
    obtain ⟨hone, hle, htaken⟩ := hp.matched m hm
    refine ⟨hone, ?_, htaken⟩
    rw [List.length_append]
    omega
  -- Whatever has matched was for an earlier attempt.
  · intro _ _ m hm
    have hle := (hp.matched m hm).2.1
    rw [List.length_append, List.length_singleton]
    omega

/-- A reply matches: no other has for this attempt, since one is still waited for. -/
theorem Paired.accept (hp : Paired p h s) {msg : Frame} (hmatch : Matches s msg) :
    Paired p { h with matched := h.matched ++ [(h.begun.length, msg)] }
      { s with spin := some (.forward msg) } := by
  have hspin := hmatch.1
  have hforwards := hp.forwards
  have hstation := hp.station
  obtain ⟨hone, htaken⟩ := hp.takenFor hmatch
  have hbefore : ∀ m ∈ h.matched, m.1 < h.begun.length := by
    refine hp.fresh ?_ ?_
    · rw [hmatch.2.2]
      exact Option.some_ne_none _
    · rw [hspin]
      rfl
  rw [hspin] at hforwards hstation
  refine ⟨hp.txn_eq, hp.pending, hp.requests, ?_, ?_, by simp [SpinPlace.settling], ?_, ?_⟩
  · rw [List.map_append, List.pairwise_append]
    refine ⟨hp.increasing, List.pairwise_singleton _ _, ?_⟩
    intro k hk l hl
    obtain ⟨m, hm, rfl⟩ := List.mem_map.mp hk
    rw [List.map_singleton, List.mem_singleton] at hl
    rw [hl]
    exact hbefore m hm
  · intro m hm
    rcases List.mem_append.mp hm with hm | hm
    · exact hp.matched m hm
    · rw [List.mem_singleton.mp hm]
      exact ⟨hone, le_rfl, htaken⟩
  -- The forward it asks for is what the callback has still to publish.
  · have hsofar : h.forwards = h.matched.filterMap fun m => forwardOf p m.2 :=
      (List.append_nil _).symm.trans hforwards
    have hone : (forwardOf p msg).toList =
        [(h.begun.length, msg)].filterMap fun m => forwardOf p m.2 := by
      rw [List.filterMap_cons]
      cases forwardOf p msg <;> rfl
    rw [List.filterMap_append, ← hsofar, ← hone]
    rfl
  · intro k hk msg' hmsg
    obtain rfl := Option.some.inj hk
    obtain rfl := Option.some.inj hmsg
    exact hstation _ rfl msg rfl

theorem Paired.move (hp : Paired p h s) (hm : Move p h s a h' s') : Paired p h' s' := by
  have hp' := hp
  obtain ⟨htxn, hpending, hrequests, hincreasing, hmatched, hfresh, hforwards, hstation⟩ := hp
  cases hm with
  | stay => exact hp'
  | line hmain | clear hmain | wake hmain | timeUp hmain | crash hmain =>
    rw [hmain] at hrequests
    exact ⟨htxn, hpending, hrequests, hincreasing, hmatched, hfresh, hforwards, hstation⟩
  | begin hmain => exact hp'.begin hmain
  | publish hmain =>
    rw [hmain] at hrequests
    refine ⟨htxn, hpending, ?_, hincreasing, hmatched, hfresh, hforwards, hstation⟩
    exact (List.append_nil _).trans hrequests
  | giveUp hmain hfailed =>
    rw [hmain] at hrequests
    obtain ⟨stats, rfl, hnone⟩ := hfailed.exists_eq
    refine ⟨htxn, by simp, ?_, hincreasing, hmatched, by simp, hforwards, hstation⟩
    rw [hnone]
    exact hrequests
  | @ok _ payload _ hmain hreply =>
    rw [hmain] at hrequests
    obtain ⟨n, hcompare⟩ := exists_compareReply s.master payload
    rw [hcompare]
    exact ⟨htxn, hpending, hrequests, hincreasing, hmatched, hfresh, hforwards, hstation⟩
  | @refused _ payload _ _ _ hmain hreply hfailed =>
    rw [hmain] at hrequests
    obtain ⟨n, hcompare⟩ := exists_compareReply s.master payload
    rw [hcompare] at hfailed
    obtain ⟨stats, rfl, hnone⟩ := hfailed.exists_eq
    refine ⟨htxn, hpending, ?_, hincreasing, hmatched, hfresh, hforwards, hstation⟩
    rw [hnone]
    exact hrequests
  | rx hspin heq =>
    rw [hspin] at hforwards hfresh
    refine ⟨htxn, hpending, hrequests, hincreasing, hmatched, hfresh, hforwards, ?_⟩
    intro k hk msg hmsg
    obtain rfl := Option.some.inj hk
    obtain rfl := Option.some.inj hmsg
    exact heq
  | accept hmatch => exact hp'.accept hmatch
  | forward hspin hsettled =>
    obtain ⟨stats, rfl⟩ := hsettled.exists_eq
    rw [hspin] at hforwards
    refine ⟨htxn, hpending, hrequests, hincreasing, hmatched, by simp [SpinPlace.settling], ?_,
      by simp [SpinPlace.msg?]⟩
    rw [hsettled.out_eq]
    exact (List.append_nil _).trans hforwards
  | book hspin =>
    rw [hspin] at hforwards
    exact ⟨htxn, by simp, hrequests, hincreasing, hmatched, by simp, hforwards,
      by simp [SpinPlace.msg?]⟩
  | stranger hspin | ignore hspin | malformed hspin | signal hspin =>
    rw [hspin] at hforwards hfresh
    exact ⟨htxn, hpending, hrequests, hincreasing, hmatched, hfresh, hforwards, by simp⟩

theorem along_true (p : MasterParams) (acts : List ThreadAction) :
    Automaton.Along (step p) (fun _ _ => True) {} acts :=
  Automaton.Along.of_forall (P := fun _ => True) (fun _ _ => trivial) _

theorem paired_history (p : MasterParams) (acts : List ThreadAction) :
    Paired p (history p acts) (afterRun p acts) := by
  refine afterRun_induction (Paired p) (along_true p acts) ?_ fun h s a h' s' hp _ hm => hp.move hm
  exact ⟨rfl, by simp, rfl, .nil, by simp, by simp, rfl, by simp⟩

/-- Every text sent leaves room for the header. -/
def Fits (h : History) (s : RelayThreads) : Prop :=
  ∀ payload ∈ h.begun ++ s.main.text, payload.length ≤ maxText

theorem Failed.text_subset {m m' : RelayMaster} {payload : List UInt8} {index : ℕ}
    {next : MainPlace} (hf : Failed p m payload index m' next) : next.text ⊆ [payload] := by
  cases hf with
  | retry => exact List.Subset.refl _
  | quit => exact List.nil_subset _

theorem Fits.of_subset (hf : Fits h s) (hsub : h'.begun ++ s'.main.text ⊆ h.begun ++ s.main.text) :
    Fits h' s' :=
  fun payload hmem => hf payload (hsub hmem)

theorem Fits.move (hf : Fits h s) (hm : Move p h s a h' s') : Fits h' s' := by
  cases hm with
  | stay | stranger | rx | ignore | malformed | accept | forward | book | signal => exact hf
  | clear hmain | publish hmain | wake hmain | timeUp hmain =>
    rw [Fits, hmain] at hf
    exact hf
  | line hmain hlen =>
    intro payload hmem
    rcases List.mem_append.mp hmem with hmem | hmem
    · exact hf payload (List.mem_append_left _ hmem)
    · rw [List.mem_singleton.mp hmem]
      exact hlen
  | begin hmain =>
    refine hf.of_subset ?_
    rw [hmain]
    intro payload hmem
    simpa [MainPlace.text, or_assoc] using hmem
  | crash hmain | ok hmain =>
    refine hf.of_subset ?_
    exact List.append_subset.mpr ⟨List.subset_append_left _ _, List.nil_subset _⟩
  | giveUp hmain hfailed | refused hmain _ hfailed =>
    refine hf.of_subset ?_
    rw [hmain]
    exact List.append_subset.mpr ⟨List.subset_append_left _ _,
      List.Subset.trans hfailed.text_subset (List.subset_append_right _ _)⟩

/-- What a run publishes, in terms of its attempts and of the replies that matched. -/
structure Publishes (p : MasterParams) (h : History) : Prop where
  requests : h.requests <+: requestsOf p h.begun
  increasing : (h.matched.map Prod.fst).Pairwise (· < ·)
  matched : ∀ m ∈ h.matched, 1 ≤ m.1 ∧ m.1 ≤ h.begun.length ∧ TakenFor p m.1 m.2
  forwards : h.forwards <+: h.matched.filterMap fun m => forwardOf p m.2
  fits : ∀ f ∈ h.requests ++ h.forwards, f.data.length ≤ kMaxData

/-- **What every run publishes**, in whichever order the threads move: requests numbered by
attempts; for each attempt at most one matched reply, with its number; and in their order the
forwards those replies ask for. All of it fits the driver's data field. -/
theorem publishes_history (p : MasterParams) (acts : List ThreadAction) :
    Publishes p (history p acts) := by
  have hp := paired_history p acts
  have hf : Fits (history p acts) (afterRun p acts) := by
    refine afterRun_induction Fits (along_true p acts) ?_ fun h s a h' s' hf _ hm => hf.move hm
    intro payload hmem
    cases hmem
  have hrequests : (history p acts).requests <+: requestsOf p (history p acts).begun :=
    ⟨_, hp.requests⟩
  have hforwards : (history p acts).forwards <+:
      (history p acts).matched.filterMap fun m => forwardOf p m.2 := ⟨_, hp.forwards⟩
  refine ⟨hrequests, hp.increasing, hp.matched, hforwards, ?_⟩
  intro f hmem
  rcases List.mem_append.mp hmem with hmem | hmem
  · obtain ⟨k, hk, heq⟩ := List.mem_mapIdx.mp (hrequests.subset hmem)
    have hlen := hf _ (List.mem_append_left _ (List.getElem_mem hk))
    rw [← heq, length_request]
    exact Nat.add_le_of_le_sub (by decide) hlen
  · obtain ⟨m, -, heq⟩ := List.mem_filterMap.mp (hforwards.subset hmem)
    rw [forwardOf] at heq
    split_ifs at heq with hcond
    rw [← Option.some.inj heq]
    exact hcond.2.2.2

/-! ## The texts answered -/

/-- The text was sent in the attempt `k`. -/
def SentIn (begun : List (List UInt8)) (k : ℕ) (payload : List UInt8) : Prop :=
  1 ≤ k ∧ begun[k - 1]? = some payload

/-- The texts that count as answered are different ones, in the order in which they were entered,
and each of them was sent in the attempt that counts for it. -/
structure InTurn (h : History) (s : RelayThreads) : Prop where
  texts : (h.successes.map Success.text).Pairwise (· < ·)
  texts_le : ∀ x ∈ h.successes,
    x.text + (s.main.due + s.main.unsent + s.main.open) ≤ s.master.stats.total
  attempts : (h.successes.map Success.attempt).Pairwise (· < ·)
  attempts_le : ∀ x ∈ h.successes, x.attempt + (s.main.unsent + s.main.open) ≤ h.begun.length
  sent : ∀ x ∈ h.successes, SentIn h.begun x.attempt x.payload
  current : ∀ a ∈ s.main.attempt?, SentIn h.begun h.begun.length a.payload

theorem SentIn.append {begun : List (List UInt8)} {k : ℕ} {payload : List UInt8}
    (hs : SentIn begun k payload) (next : List UInt8) : SentIn (begun ++ [next]) k payload := by
  obtain ⟨hone, hget⟩ := hs
  exact ⟨hone, by rw [List.getElem?_append_left (List.getElem?_eq_some_iff.mp hget).1, hget]⟩

theorem sentIn_last (begun : List (List UInt8)) (payload : List UInt8) :
    SentIn (begun ++ [payload]) (begun ++ [payload]).length payload := by
  rw [SentIn, List.length_append, List.length_singleton, Nat.add_sub_cancel]
  exact ⟨Nat.le_add_left _ _, List.getElem?_concat_length⟩

/-- The main thread moves, and no attempt begins or is answered. -/
theorem InTurn.of_main (hi : InTurn h s) {m : RelayMaster} {next : MainPlace}
    (hsuccesses : h'.successes = h.successes) (hbegun : h'.begun = h.begun)
    (htexts : s.master.stats.total + (next.due + next.unsent + next.open) ≤
      m.stats.total + (s.main.due + s.main.unsent + s.main.open))
    (hattempts : next.unsent + next.open ≤ s.main.unsent + s.main.open)
    (hcurrent : ∀ a ∈ next.attempt?, a ∈ s.main.attempt?) :
    InTurn h' { s with master := m, main := next } := by
  refine ⟨?_, ?_, ?_, ?_, ?_, ?_⟩
  · rw [hsuccesses]
    exact hi.texts
  · intro x hx
    rw [hsuccesses] at hx
    have := hi.texts_le x hx
    dsimp only
    omega
  · rw [hsuccesses]
    exact hi.attempts
  · intro x hx
    rw [hsuccesses] at hx
    have := hi.attempts_le x hx
    rw [hbegun]
    dsimp only
    omega
  · intro x hx
    rw [hsuccesses] at hx
    rw [hbegun]
    exact hi.sent x hx
  · intro a ha
    rw [hbegun]
    exact hi.current a (hcurrent a ha)

/-- A text that has failed, or is to be sent again. -/
theorem InTurn.of_failed (hi : InTurn h s) {m m' : RelayMaster} {payload : List UInt8}
    {index : ℕ} {next : MainPlace} (hf : Failed p m payload index m' next)
    (hsuccesses : h'.successes = h.successes) (hbegun : h'.begun = h.begun)
    (htotal : m.stats.total = s.master.stats.total)
    (hopen : s.main.due + s.main.unsent + s.main.open = 1) :
    InTurn h' { s with master := m', main := next } := by
  cases hf with
  | retry | quit =>
    refine hi.of_main hsuccesses hbegun ?_ (Nat.zero_le _) nofun
    rw [hopen, ← htotal]
    simp [MainPlace.due, MainPlace.unsent, MainPlace.open]

/-- An attempt begins: whatever was answered, an earlier one was. -/
theorem InTurn.begin (hi : InTurn h s) {payload : List UInt8} {index : ℕ}
    (hmain : s.main = .begin payload index) :
    InTurn { h with begun := h.begun ++ [payload] } { s with
      master.txn := (s.master.txn + 1) % 65536
      master.pending := some ((s.master.txn + 1) % 65536)
      master.sentText := some payload
      master.reply := none
      main := .clear ⟨payload, index, (s.master.txn + 1) % 65536⟩ } := by
  obtain ⟨htexts, htexts_le, hattempts, hattempts_le, hsent, -⟩ := hi
  rw [hmain] at htexts_le hattempts_le
  refine ⟨htexts, htexts_le, hattempts, ?_, fun x hx => (hsent x hx).append payload, ?_⟩
  · intro x hx
    rw [List.length_append, List.length_singleton]
    exact Nat.succ_le_succ (hattempts_le x hx)
  · intro a ha
    obtain rfl := Option.some.inj ha
    exact sentIn_last _ _

/-- A text is answered: the one under way, in the attempt under way. -/
theorem InTurn.succeed (hi : InTurn h s) {a : Attempt} (hmain : s.main = .read a)
    {m : RelayMaster} (htotal : m.stats.total = s.master.stats.total)
    (reply : List UInt8 × UInt8) :
    InTurn { h with
        successes := h.successes ++ [⟨s.master.stats.total, a.payload, h.begun.length, reply⟩] }
      { s with master := m, main := .input } := by
  obtain ⟨htexts, htexts_le, hattempts, hattempts_le, hsent, hcurrent⟩ := hi
  rw [hmain] at htexts_le hattempts_le hcurrent
  have hnow : SentIn h.begun h.begun.length a.payload := hcurrent a rfl
  -- The texts and the attempts answered before lie before these.
  have hlater : ∀ {f : Success → ℕ} {n : ℕ}, (h.successes.map f).Pairwise (· < ·) →
      (∀ x ∈ h.successes, f x + 1 ≤ n) → (h.successes.map f ++ [n]).Pairwise (· < ·) := by
    intro f n hpairwise hle
    refine List.pairwise_append.mpr ⟨hpairwise, List.pairwise_singleton _ _, ?_⟩
    intro k hk l hl
    obtain ⟨x, hx, rfl⟩ := List.mem_map.mp hk
    rw [List.mem_singleton.mp hl]
    exact hle x hx
  refine ⟨?_, ?_, ?_, ?_, ?_, nofun⟩
  · rw [List.map_append]
    exact hlater htexts htexts_le
  · intro x hx
    rcases List.mem_append.mp hx with hx | hx
    · exact (Nat.le_of_succ_le (htexts_le x hx)).trans htotal.ge
    · rw [List.mem_singleton.mp hx]
      exact htotal.ge
  · rw [List.map_append]
    exact hlater hattempts hattempts_le
  · intro x hx
    rcases List.mem_append.mp hx with hx | hx
    · exact Nat.le_of_succ_le (hattempts_le x hx)
    · rw [List.mem_singleton.mp hx]
      exact le_rfl
  · intro x hx
    rcases List.mem_append.mp hx with hx | hx
    · exact hsent x hx
    · rw [List.mem_singleton.mp hx]
      exact hnow

theorem InTurn.move (hi : InTurn h s) (hm : Move p h s a h' s') : InTurn h' s' := by
  cases hm with
  | stay | stranger | rx | ignore | malformed | accept | book | signal =>
    exact ⟨hi.texts, hi.texts_le, hi.attempts, hi.attempts_le, hi.sent, hi.current⟩
  | forward hspin hsettled =>
    cases hsettled <;>
      exact ⟨hi.texts, hi.texts_le, hi.attempts, hi.attempts_le, hi.sent, hi.current⟩
  | begin hmain => exact hi.begin hmain
  | line hmain | clear hmain | publish hmain | wake hmain | timeUp hmain | crash hmain =>
    -- A new text counts among the texts, and the attempt under way stays the same.
    refine hi.of_main rfl rfl ?_ ?_ ?_ <;> rw [hmain]
    · simp [MainPlace.due, MainPlace.unsent, MainPlace.open]
    · simp [MainPlace.unsent, MainPlace.open]
    · simp [MainPlace.attempt?]
  | giveUp hmain hfailed =>
    exact hi.of_failed hfailed rfl rfl rfl (by rw [hmain]; rfl)
  | @ok _ payload dst hmain =>
    obtain ⟨n, hcompare⟩ := exists_compareReply s.master payload
    rw [hcompare]
    refine hi.succeed hmain ?_ (payload, dst)
    rfl
  | @refused _ payload _ _ _ hmain _ hfailed =>
    obtain ⟨n, hcompare⟩ := exists_compareReply s.master payload
    rw [hcompare] at hfailed
    exact hi.of_failed hfailed rfl rfl rfl (by rw [hmain]; rfl)

/-- The texts answered in a run, in whichever order the threads move. -/
theorem inTurn_history (p : MasterParams) (acts : List ThreadAction) :
    InTurn (history p acts) (afterRun p acts) :=
  afterRun_induction InTurn (along_true p acts)
    ⟨.nil, by simp, .nil, by simp, by simp, by simp [MainPlace.attempt?]⟩
    fun _ _ _ _ _ hi _ hm => hi.move hm

/-! ## What was delivered -/

/-- What was delivered, and what came of it. -/
structure Handled (h : History) (s : RelayThreads) : Prop where
  received : h.received = s.master.stats.ignored + s.master.stats.badDst +
    s.master.stats.noForward + h.forwards.length + s.spin.elim 0 SpinPlace.handling
  short : ∀ k ∈ s.spin, ∀ msg ∈ k.msg?, msg.data.length ≤ kMaxData

theorem Failed.stats_eq {m m' : RelayMaster} {payload : List UInt8} {index : ℕ}
    {next : MainPlace} (hf : Failed p m payload index m' next) :
    m'.stats.ignored = m.stats.ignored ∧ m'.stats.badDst = m.stats.badDst ∧
      m'.stats.noForward = m.stats.noForward ∧ m'.stats.ok = m.stats.ok := by
  cases hf with
  | retry | quit => exact ⟨rfl, rfl, rfl, rfl⟩

/-- A reply that matched is counted or forwarded. -/
theorem Handled.forward (hh : Handled h s) {msg : Frame} (hspin : s.spin = some (.forward msg))
    {m : RelayMaster} {ok : Bool} {out : List Frame}
    (hsettled : Settled p s.master (msg.data.getD 4 0) (msg.data.drop replyHdrLen)
      msg.functionCode m ok out) :
    Handled { h with forwards := h.forwards ++ out } { s with
      master := m
      spin := some (.book (msg.data.drop replyHdrLen) (msg.data.getD 4 0) ok) } := by
  have hreceived := hh.received
  have hlen : msg.data.length ≤ kMaxData := hh.short _ hspin msg rfl
  rw [hspin] at hreceived
  refine ⟨?_, by simp [SpinPlace.msg?]⟩
  simp only [Option.elim_some, SpinPlace.handling] at *
  cases hsettled with
  | tooLong hlong =>
    -- What was delivered is too short for this.
    rw [List.length_drop] at hlong
    omega
  | noForward | badDst =>
    dsimp only
    rw [List.append_nil]
    omega
  | forwarded =>
    rw [List.length_append, List.length_singleton]
    omega

theorem Handled.move (hh : Handled h s) (ha : a.Deliverable) (hm : Move p h s a h' s') :
    Handled h' s' := by
  have hh' := hh
  obtain ⟨hreceived, hshort⟩ := hh
  cases hm with
  | stay | line | begin | clear | publish | wake | timeUp | crash => exact ⟨hreceived, hshort⟩
  | giveUp hmain hfailed =>
    obtain ⟨hignored, hbad, hnone, -⟩ := hfailed.stats_eq
    refine ⟨?_, hshort⟩
    rw [hignored, hbad, hnone]
    exact hreceived
  | @ok _ payload _ hmain hreply =>
    obtain ⟨n, hcompare⟩ := exists_compareReply s.master payload
    rw [hcompare]
    exact ⟨hreceived, hshort⟩
  | @refused _ payload _ _ _ hmain hreply hfailed =>
    obtain ⟨n, hcompare⟩ := exists_compareReply s.master payload
    rw [hcompare] at hfailed
    obtain ⟨hignored, hbad, hnone, -⟩ := hfailed.stats_eq
    refine ⟨?_, hshort⟩
    rw [hignored, hbad, hnone]
    exact hreceived
  | stranger hspin hne =>
    rw [hspin] at hreceived
    refine ⟨?_, by simp⟩
    simp only [Option.elim_none] at *
    omega
  | rx hspin heq =>
    -- What is handed to the callback is handled, but counted nowhere yet.
    rw [hspin] at hreceived
    refine ⟨?_, ?_⟩
    · simp only [Option.elim_none, Option.elim_some, SpinPlace.handling] at *
      omega
    · intro k hk msg hmsg
      obtain rfl := Option.some.inj hk
      obtain rfl := Option.some.inj hmsg
      exact ha
  | ignore hspin | malformed hspin =>
    rw [hspin] at hreceived
    refine ⟨?_, by simp⟩
    simp only [Option.elim_none, Option.elim_some, SpinPlace.handling] at *
    omega
  | accept hmatch =>
    rw [hmatch.1] at hreceived hshort
    refine ⟨hreceived, ?_⟩
    intro k hk msg hmsg
    obtain rfl := Option.some.inj hk
    obtain rfl := Option.some.inj hmsg
    exact hshort _ rfl _ rfl
  | forward hspin hsettled => exact hh'.forward hspin hsettled
  | book hspin =>
    rw [hspin] at hreceived
    exact ⟨hreceived, by simp [SpinPlace.msg?]⟩
  | signal hspin =>
    rw [hspin] at hreceived
    exact ⟨hreceived, by simp⟩

/-- **The books balance after every run**, in whichever order the threads move. Every text and every
attempt is answered, given up or under way; an attempt that has failed is followed by another or by
the end of its text; and every message that came is counted once or forwarded. -/
theorem ledger_afterRun (p : MasterParams) (acts : List ThreadAction)
    (hacts : ∀ a ∈ acts, a.Deliverable) :
    Balanced (history p acts) (afterRun p acts) ∧ Handled (history p acts) (afterRun p acts) := by
  refine ⟨?_, ?_⟩
  · exact afterRun_induction Balanced (along_true p acts) ⟨rfl, rfl, rfl, rfl, rfl⟩
      fun h s a h' s' hb _ hm => hb.move hm
  · exact afterRun_induction (G := fun _ a => a.Deliverable) Handled
      (Automaton.Along.of_forall hacts _) ⟨rfl, by simp⟩
      fun h s a h' s' hh ha hm => hh.move ha hm

/-- A text that is answered at its second attempt and forwarded, one whose reply names no legal
station, and a message from another station. -/
theorem ledger_afterRun_hi :
    let reply (txn dst : UInt8) : Frame :=
      { stationId := 1, data := [0xF1, 0xF2, 0, txn, dst, 0x68, 0x69] }
    let acts : List ThreadAction :=
      [.line [0x68, 0x69], .main, .main, .main, .rx { stationId := 7 }, .timeout, .main, .main,
        .main, .main, .rx (reply 2 2), .spin, .spin, .spin, .spin, .main, .main, .line [0x68, 0x69],
        .main, .main, .main, .rx (reply 3 250), .spin, .spin, .spin, .spin, .main, .main]
    let h := history {} acts
    let s := afterRun {} acts
    (Balanced h s ∧ Handled h s) ∧ h.matched.length = 2 ∧ h.forwards.length = 1 ∧
      h.refused = 1 ∧ h.received = 3 := by
  intro reply acts h s
  exact ⟨ledger_afterRun {} acts (by decide), by decide, by decide, by decide, by decide⟩

end RelayThreads

end Ds10Relay

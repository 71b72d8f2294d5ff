import DS10Link.Relay.LossyLink
import DS10Link.Relay.Master

/-!
# The times of the three hops

`ds10_relay_timing.py` plays all three roles of a relayed transaction and stamps its six stages: the
request is sent, it reaches the slave 1, the reply is sent, it reaches the master, the forward is
sent, it reaches the slave 2. The callbacks run beside the main thread, under a lock; only setting
the event at the end is outside of it. Between the roles is a link that may lose, delay and reorder
what was published, and delivers nothing twice.

The report gives the differences of the stamps to 0.1 ms. The differences themselves add up; the
figures that are printed do so but for what was rounded away.

## Main definitions

* `Stage`, `Stamped`: the stages, and times that were stamped in their order
* `TimingTest`: the fields of the script, with the three callbacks
* `TimingRun`, `TimingRun.step`: the two threads, the clock and the link
* `TimingRun.Fresh`: nothing is delivered 65536 transactions late
* `between`, `fmtMs`: the time from one stage to another, as it is and as it is printed
* `InOrder`: times that make sense, and the report on them

## Main results

* `Returned.inOrder`: times of the first stages, stamped in order, make sense
-/

open Automaton Word

namespace Ds10Relay

open Transaction RelayMaster

/-- The stages of a transaction. -/
inductive Stage where
  | reqSent
  | reqRecv
  | replySent
  | replyRecv
  | fwdSent
  | fwdRecv
  deriving DecidableEq, Repr

namespace Stage

/-- The stages in their order. -/
def all : List Stage := [reqSent, reqRecv, replySent, replyRecv, fwdSent, fwdRecv]

/-- The place of a stage in their order. -/
def index : Stage → ℕ
  | reqSent => 0
  | reqRecv => 1
  | replySent => 2
  | replyRecv => 3
  | fwdSent => 4
  | fwdRecv => 5

end Stage

/-- The times that were stamped. -/
abbrev Times := Stage → Option ℕ

/-- Stamp a stage. -/
def Times.stamp (t : Times) (stage : Stage) (now : ℕ) : Times :=
  Function.update t stage (some now)

/-- `REQUEST_TEXT`, as it is sent. -/
def requestText : List UInt8 := bytesOf "上海赛索德智能科技有限公司位于上海市虹口"

/-- `REPLY_TEXT`, as it is sent. -/
def replyText : List UInt8 := bytesOf "好的，已收到贵公司准确地址上海虹口区四川北路"

/-- `SLAVE1_ID`. -/
def slave1Id : UInt8 := 1

/-- `FORWARD_DST`. -/
def forwardDst : UInt8 := 2

/-- What the threads of the script share. -/
structure TimingTest where
  txn : ℕ := 0
  pending : Option ℕ := none
  expectSlave2 : Bool := false
  t : Times := fun _ => none
  done : Bool := false

namespace TimingTest

/-- `_on_slave1_rx`, at the time `now`; the reply is published when `d` more has passed. -/
def onSlave1Rx (s : TimingTest) (now d : ℕ) (msg : Frame) : TimingTest × List Frame :=
  if msg.data.length < RelayResponder.hdrLen ∨ msg.data.take 2 ≠ RelayResponder.marker then (s, [])
  else
    let txn := gotTxn msg.data
    if some txn ≠ s.pending then (s, [])
    else
      ({ s with t := (s.t.stamp .reqRecv now).stamp .replySent (now + d) },
        [{ functionCode := msg.functionCode
           data := RelayResponder.replyMarker ++
             [UInt8.ofNat (txn >>> 8 &&& 0xFF), UInt8.ofNat (txn &&& 0xFF), forwardDst] ++
             replyText }])

/-- `_on_master_rx`. -/
def onMasterRx (s : TimingTest) (now d : ℕ) (msg : Frame) : TimingTest × List Frame :=
  if msg.stationId ≠ slave1Id then (s, [])
  else if ¬ IsReply msg.data then (s, [])
  else if some (gotTxn msg.data) ≠ s.pending then (s, [])
  else
    ({ s with
        t := (s.t.stamp .replyRecv now).stamp .fwdSent (now + d)
        expectSlave2 := true },
      [{ stationId := msg.data.getD 4 0
         functionCode := msg.functionCode
         data := msg.data.drop replyHdrLen }])

/-- `_on_slave2_rx`, up to setting the event, and whether it is to be set. -/
def onSlave2Rx (s : TimingTest) (now : ℕ) (msg : Frame) : TimingTest × Bool :=
  if s.expectSlave2 = false then (s, false)
  else if msg.data ≠ replyText then (s, false)
  else ({ s with t := s.t.stamp .fwdRecv now, expectSlave2 := false }, true)

/-- The first block of `run_once`. -/
def begin (s : TimingTest) (now : ℕ) : TimingTest :=
  let txn := (s.txn + 1) &&& 0xFFFF
  { s with
    txn := txn
    pending := some txn
    expectSlave2 := false
    t := Times.stamp (fun _ => none) .reqSent now }

/-- The request that `run_once` publishes. -/
def requestMsg (txn : ℕ) : Frame where
  stationId := slave1Id
  functionCode := 0x10
  data := requestData txn requestText

end TimingTest

/-! ## The threads and the link -/

/-- Where a message in flight arrives. -/
inductive Hop where
  | slave1
  | slave2
  | master
  deriving DecidableEq, Repr

/-- A message in flight: where it arrives, and how many transactions were begun when it was
published. -/
structure Flying where
  hop : Hop
  txnIndex : ℕ
  msg : Frame
  deriving DecidableEq, Repr

/-- Where the main thread is: between two transactions, about to clear the event, about to publish
the request with a number, waiting for the event, or about to close, with what the wait returned. -/
inductive TimingMain where
  | idle
  | clear (txn : ℕ)
  | publish (txn : ℕ)
  | wait
  | close (ok : Bool)
  deriving DecidableEq, Repr

/-- The main thread is about to clear the event. -/
def TimingMain.clearing : TimingMain → Bool
  | .clear _ => true
  | _ => false

/-- The script and the link. -/
structure TimingRun where
  test : TimingTest := {}
  main : TimingMain := .idle
  signalling : Bool := false
  clock : ℕ := 0
  begun : ℕ := 0
  flying : List Flying := []
  results : List (Bool × Times) := []

namespace TimingRun

/-- What happens next: time passes, the main thread moves, its wait times out, a message in flight
is delivered and its callback runs for a while, or the callback sets the event. -/
inductive Action where
  | tick (d : ℕ)
  | main
  | timeout
  | deliver (i d : ℕ)
  | signal
  deriving DecidableEq, Repr

/-- What the master publishes goes to the slave that it names. -/
def fromMaster (begun : ℕ) (msg : Frame) : List Flying :=
  let received : Frame := LossyLink.received 0 msg
  if msg.stationId = slave1Id then [⟨.slave1, begun, received⟩]
  else if msg.stationId = forwardDst then [⟨.slave2, begun, received⟩]
  else []

/-- What the slave 1 publishes goes to the master. -/
def fromSlave1 (begun : ℕ) (msg : Frame) : List Flying :=
  [⟨.master, begun, LossyLink.received slave1Id msg⟩]

/-- The main thread moves on; it waits on while the event is not set. -/
def mainStep (s : TimingRun) : TimingRun :=
  match s.main with
  | .idle =>
    let test := s.test.begin s.clock
    { s with test := test, main := .clear test.txn, begun := s.begun + 1 }
  | .clear txn => { s with test := { s.test with done := false }, main := .publish txn }
  | .publish txn =>
    { s with
      main := .wait
      flying := s.flying ++ fromMaster s.begun (TimingTest.requestMsg txn) }
  | .wait => if s.test.done then { s with main := .close true } else s
  | .close ok =>
    { s with
      test := { s.test with pending := none }
      main := .idle
      results := s.results ++ [(ok, s.test.t)] }

/-- The callback for a message, which takes the time `d`. -/
def callback (s : TimingRun) (d : ℕ) (f : Flying) : TimingRun :=
  match f.hop with
  | .slave1 =>
    let r := s.test.onSlave1Rx s.clock d f.msg
    { s with
      test := r.1
      clock := s.clock + d
      flying := s.flying ++ r.2.flatMap (fromSlave1 s.begun) }
  | .master =>
    let r := s.test.onMasterRx s.clock d f.msg
    { s with
      test := r.1
      clock := s.clock + d
      flying := s.flying ++ r.2.flatMap (fromMaster s.begun) }
  | .slave2 =>
    let r := s.test.onSlave2Rx s.clock f.msg
    { s with test := r.1, signalling := r.2, clock := s.clock + d }

/-- One action. Messages are not delivered while a callback has yet to set the event. -/
def step (s : TimingRun) : Action → TimingRun × List Empty
  | .tick d => ({ s with clock := s.clock + d }, [])
  | .main => (s.mainStep, [])
  | .timeout =>
    (if s.main = .wait ∧ s.test.done = false then { s with main := .close false } else s, [])
  | .deliver i d =>
    match s.flying[i]? with
    | none => (s, [])
    | some f =>
      if s.signalling then (s, [])
      else (callback { s with flying := s.flying.eraseIdx i } d f, [])
  | .signal =>
    (if s.signalling then { s with test := { s.test with done := true }, signalling := false }
      else s, [])

/-- The script after a run. -/
def afterRun (acts : List Action) : TimingRun := stateAfter step {} acts

/-- Nothing is delivered 65536 transactions late. -/
def Fresh (s : TimingRun) : Action → Prop
  | .deliver i _ => ∀ f ∈ s.flying[i]?, s.begun < f.txnIndex + 65536
  | _ => True

instance (s : TimingRun) : DecidablePred (Fresh s)
  | .deliver i _ => inferInstanceAs (Decidable (∀ f ∈ s.flying[i]?, s.begun < f.txnIndex + 65536))
  | .tick _ | .main | .timeout | .signal => inferInstanceAs (Decidable True)

/-- Besides, the event is not cleared while a callback is about to set it. -/
def Settled (s : TimingRun) (a : Action) : Prop :=
  Fresh s a ∧ (a = .main → s.main.clearing = true → s.signalling = false)

instance (s : TimingRun) : DecidablePred (Settled s) := fun _ => inferInstanceAs (Decidable (_ ∧ _))

end TimingRun

/-! ## The report -/

/-- Times that were stamped one after the other: those of the first stages. -/
def Stamped (t : Times) (ts : List ℕ) : Prop :=
  (∀ stage, t stage = ts[stage.index]?) ∧ ts.Pairwise (· ≤ ·)

/-- The time from one stage to another in clock ticks, if both were reached: what `fmt_ms` takes
before it rounds. -/
def between (t : Times) (a b : Stage) : Option ℤ :=
  match t a, t b with
  | some x, some y => some ((y : ℤ) - x)
  | _, _ => none

/-- To the nearest multiple of `unit`, and where two are as near, to the even one. -/
def roundEven (unit : ℕ) (d : ℤ) : ℤ :=
  let q := d / unit
  if 2 * (d % unit) < unit ∨ 2 * (d % unit) = unit ∧ q % 2 = 0 then q else q + 1

/-- `fmt_ms`, in tenths of a millisecond; one tenth is `unit` clock ticks. -/
def fmtMs (unit : ℕ) (t : Times) (a b : Stage) : Option ℤ := (between t a b).map (roundEven unit)

/-- The stages between which `report_one` prints a line. -/
def reportLines : List (Stage × Stage) :=
  [(.reqSent, .reqRecv), (.reqRecv, .replySent), (.replySent, .replyRecv), (.replyRecv, .fwdSent),
    (.fwdSent, .fwdRecv)]

/-- The five lines of `report_one`, before rounding. -/
def segments (t : Times) : List (Option ℤ) := reportLines.map fun l => between t l.1 l.2

/-- The five lines as they are printed. -/
def printed (unit : ℕ) (t : Times) : List (Option ℤ) :=
  reportLines.map fun l => fmtMs unit t l.1 l.2

/-- The total of `report_one`, which it returns before rounding. -/
def reportOne (t : Times) : Option ℤ := between t .reqSent .fwdRecv

/-- The furthest stage that `report_one` names. -/
def furthest (t : Times) : Option Stage := (Stage.all.filter fun stage => (t stage).isSome).getLast?

/-! ## Times that are stamped in order -/

theorem Stage.index_inj {a b : Stage} (h : a.index = b.index) : a = b := by
  cases a <;> cases b <;> first | rfl | cases h

theorem Stamped.stamp {t : Times} {ts : List ℕ} (h : Stamped t ts) {stage : Stage} {now : ℕ}
    (hindex : stage.index = ts.length) (hle : ∀ x ∈ ts, x ≤ now) :
    Stamped (t.stamp stage now) (ts ++ [now]) := by
  constructor
  · intro other
    rw [Times.stamp]
    by_cases heq : other = stage
    · rw [heq, Function.update_self, hindex, List.getElem?_concat_length]
    · rw [Function.update_of_ne heq, h.1]
      have hne : other.index ≠ ts.length := by
        rw [← hindex]
        exact fun hsame => heq (Stage.index_inj hsame)
      rcases Nat.lt_or_gt_of_ne hne with hlt | hgt
      · rw [List.getElem?_append_left hlt]
      · rw [List.getElem?_eq_none hgt.le, List.getElem?_eq_none]
        rw [List.length_append, List.length_singleton]
        exact hgt
  · rw [List.pairwise_append]
    refine ⟨h.2, List.pairwise_singleton _ _, ?_⟩
    intro x hx y hy
    rw [List.mem_singleton.mp hy]
    exact hle x hx

/-- Two stages that follow one another. -/
theorem Stamped.stamp₂ {t : Times} {ts : List ℕ} (h : Stamped t ts) {a b : Stage} {now d : ℕ}
    (ha : a.index = ts.length) (hb : b.index = ts.length + 1) (hle : ∀ x ∈ ts, x ≤ now) :
    Stamped ((t.stamp a now).stamp b (now + d)) (ts ++ [now, now + d]) := by
  have hone := h.stamp ha hle
  have hlast : ∀ x ∈ ts ++ [now], x ≤ now + d := by
    intro x hx
    rcases List.mem_append.mp hx with hx | hx
    · exact (hle x hx).trans (Nat.le_add_right _ _)
    · rw [List.mem_singleton.mp hx]
      exact Nat.le_add_right _ _
  have hindex : b.index = (ts ++ [now]).length := by
    rw [hb, List.length_append, List.length_singleton]
  have htwo := hone.stamp hindex hlast
  rwa [List.append_assoc] at htwo

theorem stamped_none : Stamped (fun _ => none) [] := ⟨fun _ => rfl, .nil⟩

/-- Times that a transaction may return: those of the first stages, in order. -/
def Returned (t : Times) : Prop :=
  ∃ ts, Stamped t ts ∧ (ts.length = 1 ∨ ts.length = 3 ∨ ts.length = 5 ∨ ts.length = 6)

/-! ## What is reported -/

/-- The times of a transaction make sense: it was sent; what comes before a stage that was reached
was reached, and not later; the furthest stage reached is the one that is named; and the total is
the sum of the five segments, none of which is negative; and the figures printed add up to the total
printed but for 0.3 ms. -/
structure InOrder (t : Times) : Prop where
  sent : (t .reqSent).isSome = true
  reached : ∀ a b x, a.index ≤ b.index → t b = some x → ∃ y ≤ x, t a = some y
  furthest : ∃ stage, furthest t = some stage ∧
    ∀ other, (t other).isSome = true ↔ other.index ≤ stage.index
  total : ∀ total, reportOne t = some total →
    ∃ ds : List ℤ, segments t = ds.map some ∧ (∀ d ∈ ds, 0 ≤ d) ∧ ds.sum = total
  shown : ∀ unit total, 0 < unit → reportOne t = some total →
    ∃ ds : List ℤ, printed unit t = ds.map some ∧ (∀ d ∈ ds, 0 ≤ d) ∧
      |ds.sum - roundEven unit total| ≤ 3

/-! ## Rounding -/

/-- Rounding is off by at most half a unit. -/
theorem roundEven_bounds {unit : ℕ} (hunit : 0 < unit) (d : ℤ) :
    2 * d - unit ≤ 2 * (roundEven unit d * unit) ∧
      2 * (roundEven unit d * unit) ≤ 2 * d + unit := by
  have hdiv := Int.mul_ediv_add_emod d unit
  have hnonneg := Int.emod_nonneg d (by omega : (unit : ℤ) ≠ 0)
  have hlt := Int.emod_lt_of_pos d (by omega : 0 < (unit : ℤ))
  rw [roundEven]
  split_ifs with hdown
  -- Down by less than half a unit, or by half of one.
  · have hle : 2 * (d % unit) ≤ unit := by omega
    rw [mul_comm (d / unit)]
    omega
  · have hge : (unit : ℤ) ≤ 2 * (d % unit) := by omega
    rw [add_mul, one_mul, mul_comm (d / unit)]
    omega

theorem roundEven_nonneg {unit : ℕ} {d : ℤ} (hd : 0 ≤ d) : 0 ≤ roundEven unit d := by
  have hq : 0 ≤ d / unit := Int.ediv_nonneg hd (Int.natCast_nonneg unit)
  rw [roundEven]
  split_ifs
  · exact hq
  · omega

/-- The sum of rounded figures is off by at most half a unit each. -/
theorem sum_roundEven_bounds {unit : ℕ} (hunit : 0 < unit) (ds : List ℤ) :
    2 * ds.sum - ds.length * unit ≤ 2 * ((ds.map (roundEven unit)).sum * unit) ∧
      2 * ((ds.map (roundEven unit)).sum * unit) ≤ 2 * ds.sum + ds.length * unit := by
  induction ds with
  | nil => simp
  | cons d ds ih =>
    obtain ⟨hlo, hhi⟩ := roundEven_bounds hunit d
    rw [List.map_cons, List.sum_cons, List.sum_cons, List.length_cons, Nat.cast_succ, add_mul,
      add_mul, one_mul]
    omega

/-- Five figures and their sum, each of them rounded. -/
theorem abs_sum_roundEven_sub_le {unit : ℕ} (hunit : 0 < unit) {ds : List ℤ}
    (hlen : ds.length = 5) :
    |(ds.map (roundEven unit)).sum - roundEven unit ds.sum| ≤ 3 := by
  obtain ⟨hlo, hhi⟩ := sum_roundEven_bounds hunit ds
  obtain ⟨hlo', hhi'⟩ := roundEven_bounds hunit ds.sum
  rw [hlen] at hlo hhi
  have hpos : (0 : ℤ) < unit := by omega
  have hle : |(ds.map (roundEven unit)).sum - roundEven unit ds.sum| * unit ≤ 3 * unit := by
    rw [← abs_of_pos hpos, ← abs_mul, abs_of_pos hpos, sub_mul, abs_le]
    push_cast at hlo hhi
    constructor <;> omega
  exact le_of_mul_le_mul_right hle hpos

/-- Five segments of 10.04 ms are printed as 10.0 each, and their sum as 50.2. -/
example :
    let ds : List ℤ := List.replicate 5 1004
    ds.map (roundEven 10) = List.replicate 5 100 ∧ roundEven 10 ds.sum = 502 := by
  decide

theorem Stamped.isSome_iff {t : Times} {ts : List ℕ} (h : Stamped t ts) (stage : Stage) :
    (t stage).isSome = true ↔ stage.index < ts.length := by
  rw [h.1]
  simp

theorem Stamped.le {t : Times} {ts : List ℕ} (h : Stamped t ts) {a b : Stage} {x y : ℕ}
    (hab : a.index ≤ b.index) (hx : t a = some x) (hy : t b = some y) : x ≤ y := by
  rw [h.1] at hx hy
  obtain ⟨ha, rfl⟩ := List.getElem?_eq_some_iff.mp hx
  obtain ⟨hb, rfl⟩ := List.getElem?_eq_some_iff.mp hy
  exact h.2.rel_get_of_le (a := ⟨_, ha⟩) (b := ⟨_, hb⟩) hab

/-- The furthest of the stages that were stamped. -/
theorem Stamped.furthest_eq {t : Times} {ts : List ℕ} (h : Stamped t ts) {stage : Stage}
    (hlen : ts.length = stage.index + 1) : furthest t = some stage := by
  have hfilter : Stage.all.filter (fun other => (t other).isSome) =
      Stage.all.filter fun other => other.index < stage.index + 1 := by
    refine List.filter_congr ?_
    intro other _
    rw [Bool.eq_iff_iff, h.isSome_iff, hlen, decide_eq_true_eq]
  rw [furthest, hfilter]
  cases stage <;> rfl

theorem Stamped.exists_time {t : Times} {ts : List ℕ} (h : Stamped t ts) (stage : Stage)
    (hstage : stage.index < ts.length) : ∃ x, t stage = some x :=
  Option.isSome_iff_exists.mp ((h.isSome_iff stage).mpr hstage)

/-- A total is reported where the last stage was reached, and so all of them. -/
theorem Stamped.length_of_reported {t : Times} {ts : List ℕ} (h : Stamped t ts)
    (hlen : ts.length ≤ 6) {total : ℤ} (htotal : reportOne t = some total) : ts.length = 6 := by
  by_contra hne
  have hnone : t .fwdRecv = none := by
    rw [← Option.not_isSome_iff_eq_none, h.isSome_iff]
    show ¬ 5 < ts.length
    omega
  rw [reportOne, between, hnone] at htotal
  cases ht : t .reqSent <;> rw [ht] at htotal <;> cases htotal

/-- The segments between the six stages add up to the total. -/
theorem Stamped.exists_segments {t : Times} {ts : List ℕ} (h : Stamped t ts)
    (hall : ts.length = 6) {total : ℤ} (htotal : reportOne t = some total) :
    ∃ ds : List ℤ, segments t = ds.map some ∧ (∀ d ∈ ds, 0 ≤ d) ∧ ds.sum = total := by
  obtain ⟨t₀, h₀⟩ := h.exists_time .reqSent (by rw [hall]; decide)
  obtain ⟨t₁, h₁⟩ := h.exists_time .reqRecv (by rw [hall]; decide)
  obtain ⟨t₂, h₂⟩ := h.exists_time .replySent (by rw [hall]; decide)
  obtain ⟨t₃, h₃⟩ := h.exists_time .replyRecv (by rw [hall]; decide)
  obtain ⟨t₄, h₄⟩ := h.exists_time .fwdSent (by rw [hall]; decide)
  obtain ⟨t₅, h₅⟩ := h.exists_time .fwdRecv (by rw [hall]; decide)
  -- The stages are in order, so none of the segments is negative.
  have hle₁ := h.le (by decide) h₀ h₁
  have hle₂ := h.le (by decide) h₁ h₂
  have hle₃ := h.le (by decide) h₂ h₃
  have hle₄ := h.le (by decide) h₃ h₄
  have hle₅ := h.le (by decide) h₄ h₅
  refine ⟨[(t₁ : ℤ) - t₀, (t₂ : ℤ) - t₁, (t₃ : ℤ) - t₂, (t₄ : ℤ) - t₃, (t₅ : ℤ) - t₄], ?_, ?_, ?_⟩
  · simp [segments, reportLines, between, h₀, h₁, h₂, h₃, h₄, h₅]
  · intro d hd
    simp only [List.mem_cons, List.not_mem_nil, or_false] at hd
    omega
  · simp only [reportOne, between, h₀, h₅, Option.some_inj] at htotal
    simp only [List.sum_cons, List.sum_nil]
    omega

theorem printed_eq (unit : ℕ) (t : Times) :
    printed unit t = (segments t).map (Option.map (roundEven unit)) := by
  rw [printed, segments, List.map_map]
  rfl

theorem Returned.inOrder {t : Times} (h : Returned t) : InOrder t := by
  obtain ⟨ts, hstamped, hlen⟩ := h
  have hpos : 0 < ts.length := by omega
  -- A transaction ends after its request, or after a callback that stamps two stages, or the last.
  obtain ⟨stage, hstage⟩ : ∃ stage : Stage, ts.length = stage.index + 1 := by
    rcases hlen with hlen | hlen | hlen | hlen
    · exact ⟨.reqSent, hlen⟩
    · exact ⟨.replySent, hlen⟩
    · exact ⟨.fwdSent, hlen⟩
    · exact ⟨.fwdRecv, hlen⟩
  -- Where there is a total there are six stages.
  have htotals : ∀ total, reportOne t = some total →
      ∃ ds : List ℤ, segments t = ds.map some ∧ (∀ d ∈ ds, 0 ≤ d) ∧ ds.sum = total :=
    fun total htotal =>
      hstamped.exists_segments (hstamped.length_of_reported (by omega) htotal) htotal
  refine ⟨(hstamped.isSome_iff _).mpr hpos, ?_, ⟨stage, hstamped.furthest_eq hstage, ?_⟩, htotals,
    ?_⟩
  · intro a b x hab hx
    have hb := (hstamped.isSome_iff b).mp (by rw [hx]; rfl)
    obtain ⟨y, hy⟩ := hstamped.exists_time a (by omega)
    exact ⟨y, hstamped.le hab hy hx, hy⟩
  · intro other
    rw [hstamped.isSome_iff, hstage]
    exact Nat.lt_succ_iff
  · intro unit total hunit htotal
    obtain ⟨ds, hsegments, hnonneg, rfl⟩ := htotals total htotal
    have hfive : ds.length = 5 := by
      have hlength := congrArg List.length hsegments
      rw [List.length_map] at hlength
      exact hlength.symm
    refine ⟨ds.map (roundEven unit), ?_, ?_, abs_sum_roundEven_sub_le hunit hfive⟩
    · rw [printed_eq, hsegments]
      simp
    · intro d hd
      obtain ⟨d', hd', rfl⟩ := List.mem_map.mp hd
      exact roundEven_nonneg (hnonneg d' hd')

end Ds10Relay

import DS10Link.Driver.Star

/-!
# The soak test

`ds10_soak_test.py` talks to the three driver nodes of a master and two slaves. In each round it
publishes one message on each link of the round, waits, and counts the links on which something has
arrived; whatever arrives is attributed to a link by the place, the source station and the text. The
receive callbacks run beside the main thread, and a lock guards the boxes they share.

## Main definitions

* `Link`, `Place`: the links, and where messages arrive
* `SoakTester.linkOf`: the link a message is attributed to
* `SoakTester`, `SoakTester.onRx`: the boxes, and what a callback puts into them
* `SoakRun`, `SoakRun.step`: the main thread and the callbacks
* `schedule n`: the rounds of `n` cycles

## Main results

* `linkOf_message`: a message is attributed to the link it was sent on
* `books_afterRun`: the counts of the main thread against what was sent and what has arrived
-/

open Automaton

namespace Ds10Script

open Ds10Driver

/-! ## Links -/

/-- The links between the master and the two slaves. -/
inductive Link where
  | m1
  | m2
  | s1
  | s2
  deriving DecidableEq, Repr

/-- Where a message arrives. -/
inductive Place where
  | slave1
  | slave2
  | master
  deriving DecidableEq, Repr

/-- The topics the test publishes on. -/
inductive Topic where
  | masterTx
  | slave1Tx
  | slave2Tx
  deriving DecidableEq, Repr

/-- `TEXT_MASTER`. -/
def textMaster : List Char := "主机123456789".toList

/-- `TEXT_SLAVE1`. -/
def textSlave1 : List Char := "从机1：123456789".toList

/-- `TEXT_SLAVE2`. -/
def textSlave2 : List Char := "从机2：123456789".toList

namespace Link

/-- The topic of the sender. -/
def topic : Link → Topic
  | m1 | m2 => .masterTx
  | s1 => .slave1Tx
  | s2 => .slave2Tx

/-- The station the message names: the target of the master's; a slave's driver puts in its own. -/
def station : Link → UInt8
  | m1 => 1
  | m2 => 2
  | s1 | s2 => 0

/-- The text that is sent. -/
def text : Link → List Char
  | m1 | m2 => textMaster
  | s1 => textSlave1
  | s2 => textSlave2

/-- Where the message arrives. -/
def arrive : Link → Place
  | m1 => .slave1
  | m2 => .slave2
  | s1 | s2 => .master

end Link

/-! ## The tester -/

/-- What the callbacks share with the main thread. -/
structure SoakTester where
  inbox : Link → List (List Char) := fun _ => []
  corrupted : List (Place × List UInt8) := []
  unexpected : List (Link × Place) := []
  expected : List Link := []

namespace SoakTester

/-- The bytes of a text. -/
def encodeText (text : List Char) : List UInt8 := text.flatMap String.utf8EncodeChar

/-- `decode`: the text of the bytes, where they are one. -/
def decode (data : List UInt8) : Option (List Char) :=
  (ByteArray.mk data.toArray).utf8Decode?.map Array.toList

/-- The link a text belongs to, by where it has arrived and by the station its frame names. -/
def linkAt (appendSeq : Bool) (place : Place) (stationId : UInt8) (text : List Char) :
    Option Link :=
  -- What may follow a `#` is the number.
  let base := if appendSeq then text.takeWhile (· ≠ '#') else text
  match place with
  | .slave1 => if base = textMaster then some .m1 else none
  | .slave2 => if base = textMaster then some .m2 else none
  | .master =>
    if stationId = 1 ∧ base = textSlave1 then some .s1
    else if stationId = 2 ∧ base = textSlave2 then some .s2
    else none

/-- The link a message is attributed to, if it is to any. -/
def linkOf (appendSeq : Bool) (place : Place) (msg : FrameMsg) : Option Link :=
  (decode msg.data).bind (linkAt appendSeq place msg.stationId)

/-- `_classify`. -/
def onRx (appendSeq : Bool) (s : SoakTester) (place : Place) (msg : FrameMsg) : SoakTester :=
  match decode msg.data with
  | none => { s with corrupted := s.corrupted ++ [(place, msg.data)] }
  | some text =>
    match linkAt appendSeq place msg.stationId text with
    | none => { s with corrupted := s.corrupted ++ [(place, msg.data)] }
    | some link =>
      if link ∉ s.expected then { s with unexpected := s.unexpected ++ [(link, place)] }
      else { s with inbox := Function.update s.inbox link (s.inbox link ++ [text]) }

/-- `begin_round`. What has come since the last count is thrown away with the rest. -/
def beginRound (s : SoakTester) (links : List Link) : SoakTester :=
  { s with inbox := fun _ => [], expected := links }

/-- The message of a link, with the number behind the text if it is asked for. -/
def message (appendSeq : Bool) (link : Link) (seq : ℕ) : FrameMsg where
  stationId := link.station
  functionCode := 0x10
  data := encodeText (if appendSeq then link.text ++ '#' :: (toString seq).toList else link.text)
  txSeq := UInt32.ofNat seq

/-- How much there is in each box. -/
def got (s : SoakTester) (link : Link) : ℕ := (s.inbox link).length

/-- `collect` empties the lists of what was corrupted or unexpected, not the boxes. -/
def collected (s : SoakTester) : SoakTester := { s with corrupted := [], unexpected := [] }

/-! ### Attribution -/

@[simp] theorem decode_encodeText (text : List Char) : decode (encodeText text) = some text := by
  have hbytes : ByteArray.mk (encodeText text).toArray = text.utf8Encode := by
    rw [encodeText, List.utf8Encode]
    exact ByteArray.ext (by simp)
  rw [decode, hbytes, List.utf8Decode?_utf8Encode]
  simp

theorem takeWhile_text (link : Link) (rest : List Char) :
    (link.text ++ '#' :: rest).takeWhile (· ≠ '#') = link.text := by
  have htext : link.text.all (· ≠ '#') = true := by
    cases link <;> rfl
  rw [List.takeWhile_append_of_pos (List.all_eq_true.mp htext),
    List.takeWhile_cons_of_neg (by simp), List.append_nil]

/-- **A message is attributed to the link it was sent on**, where it arrives, if the frame of a
slave names its station. -/
theorem linkOf_message (appendSeq : Bool) (link : Link) (seq : ℕ) {msg : FrameMsg}
    (hdata : msg.data = (message appendSeq link seq).data)
    (hs1 : link = .s1 → msg.stationId = 1) (hs2 : link = .s2 → msg.stationId = 2) :
    linkOf appendSeq link.arrive msg = some link := by
  have hbase : (if appendSeq then
        (if appendSeq then link.text ++ '#' :: (toString seq).toList else link.text).takeWhile
          (· ≠ '#')
      else if appendSeq then link.text ++ '#' :: (toString seq).toList else link.text) =
      link.text := by
    cases appendSeq with
    | true => exact takeWhile_text link _
    | false => rfl
  rw [linkOf, hdata, message, decode_encodeText, Option.bind_some]
  simp only [linkAt, hbase]
  cases link with
  | m1 | m2 => rfl
  | s1 =>
    rw [hs1 rfl]
    rfl
  | s2 =>
    rw [hs2 rfl]
    rfl

theorem onRx_eq (appendSeq : Bool) (s : SoakTester) (place : Place) (msg : FrameMsg) :
    onRx appendSeq s place msg =
      match linkOf appendSeq place msg with
      | none => { s with corrupted := s.corrupted ++ [(place, msg.data)] }
      | some link =>
        if link ∉ s.expected then { s with unexpected := s.unexpected ++ [(link, place)] }
        else
          { s with
            inbox := Function.update s.inbox link
              (s.inbox link ++ [(decode msg.data).getD []]) } := by
  rw [onRx, linkOf]
  cases decode msg.data with
  | none => rfl
  | some text => rfl

end SoakTester

/-! ## The main thread -/

/-- A round: its cycle, its place in the cycle, and the links on which something is sent. -/
structure Round where
  cycle : ℕ
  index : ℕ
  links : List Link
  deriving DecidableEq, Repr

/-- `ROUNDS`. -/
def rounds : List (List Link) := [[.m1, .m2], [.s1, .s2], [.m1, .s2], [.m2, .s1]]

/-- The rounds of `n` cycles. -/
def schedule (n : ℕ) : List Round :=
  (List.range' 1 n).flatMap fun cycle => rounds.mapIdx fun index links => ⟨cycle, index, links⟩

/-- Where the main thread is: between two rounds, or in one of which so many links are served. -/
inductive MainAt where
  | between
  | sending (round : Round) (served : ℕ)
  deriving DecidableEq, Repr

/-- The state of a run: the tester, the main thread with the rounds left to it, and its counts. -/
structure SoakRun where
  tester : SoakTester := {}
  main : MainAt := .between
  todo : List Round
  seqNo : ℕ := 0
  sentCnt : Link → ℕ := fun _ => 0
  recvCnt : Link → ℕ := fun _ => 0
  roundLost : ℕ → ℕ := fun _ => 0
  lostDetail : List (ℕ × ℕ × Link) := []
  corruptedAll : List (Place × List UInt8) := []
  unexpectedAll : List (Link × Place) := []
  doneRounds : ℕ := 0

namespace SoakRun

/-- The count of one link at the end of a round. -/
def countLink (round : Round) (got : Link → ℕ) (s : SoakRun) (link : Link) : SoakRun :=
  let s := { s with
    recvCnt := Function.update s.recvCnt link (s.recvCnt link + min (got link) 1) }
  if got link = 0 then
    { s with
      roundLost := Function.update s.roundLost round.index (s.roundLost round.index + 1)
      lostDetail := s.lostDetail ++ [(round.cycle, round.index, link)] }
  else s

/-- The end of a round: collect, and count the links of the round. -/
def closeRound (s : SoakRun) (round : Round) : SoakRun :=
  let got := s.tester.got
  let counted := round.links.foldl (countLink round got)
    { s with tester := s.tester.collected, doneRounds := s.doneRounds + 1 }
  { counted with
    main := .between
    corruptedAll := counted.corruptedAll ++ s.tester.corrupted
    unexpectedAll := counted.unexpectedAll ++ s.tester.unexpected }

/-- The next step of the main thread. -/
def mainStep (appendSeq : Bool) (s : SoakRun) : SoakRun × List (Topic × FrameMsg) :=
  match s.main with
  | .between =>
    match s.todo with
    | [] => (s, [])
    | round :: todo =>
      ({ s with
          tester := s.tester.beginRound round.links
          main := .sending round 0
          todo := todo
          seqNo := s.seqNo + 1 }, [])
  | .sending round served =>
    match round.links[served]? with
    | some link =>
      ({ s with
          main := .sending round (served + 1)
          sentCnt := Function.update s.sentCnt link (s.sentCnt link + 1) },
        [(link.topic, SoakTester.message appendSeq link s.seqNo)])
    | none => (s.closeRound round, [])

/-- The main thread makes a step, or a callback handles a message. -/
inductive Action where
  | main
  | rx (place : Place) (msg : FrameMsg)

/-- One step of a run. -/
def step (appendSeq : Bool) (s : SoakRun) : Action → SoakRun × List (Topic × FrameMsg)
  | .main => s.mainStep appendSeq
  | .rx place msg => ({ s with tester := s.tester.onRx appendSeq place msg }, [])

/-- A run through the rounds. -/
def afterRun (appendSeq : Bool) (todo : List Round) (acts : List Action) : SoakRun :=
  stateAfter (step appendSeq) { todo := todo } acts

/-- What a run publishes. -/
def publishedIn (appendSeq : Bool) (todo : List Round) (acts : List Action) :
    List (Topic × FrameMsg) :=
  emitted (step appendSeq) { todo := todo } acts

/-- What the callbacks of a run have handled. -/
def handled (acts : List Action) : List (Place × FrameMsg) :=
  acts.filterMap fun
    | .main => none
    | .rx place msg => some (place, msg)

/-- The handled messages that are attributed to a link. -/
def attributed (appendSeq : Bool) (link : Option Link) (arrivals : List (Place × FrameMsg)) : ℕ :=
  arrivals.countP fun a => SoakTester.linkOf appendSeq a.1 a.2 = link

/-- A message published for the link. -/
def IsFor (link : Link) (out : Topic × FrameMsg) : Prop :=
  out.1 = link.topic ∧ out.2.stationId = link.station

instance (link : Link) : DecidablePred (IsFor link) := fun _ => inferInstanceAs (Decidable (_ ∧ _))

/-! ### The counts -/

/-- How often a link was served in the round under way. -/
def underWay (link : Link) : MainAt → ℕ
  | .between => 0
  | .sending round served => (round.links.take served).count link

/-- What waits to be counted at the end of the round under way. -/
def waiting (s : SoakRun) (link : Link) : ℕ :=
  match s.main with
  | .between => 0
  | .sending _ _ => s.tester.got link

/-- The rounds in which a link was lost. -/
def lostOn (detail : List (ℕ × ℕ × Link)) (link : Link) : ℕ := detail.countP (·.2.2 = link)

/-- The counts of the main thread against what was published and what was handled: a link that was
served is counted as received or as lost at the end of the round; one that is counted as received
has a message of its own that was handled; and what is no message of a link is corrupted. -/
structure Books (appendSeq : Bool) (arrivals : List (Place × FrameMsg))
    (published : List (Topic × FrameMsg)) (s : SoakRun) : Prop where
  sent_eq : ∀ link, s.sentCnt link = published.countP fun out => IsFor link out
  balance : ∀ link,
    s.sentCnt link = s.recvCnt link + lostOn s.lostDetail link + underWay link s.main
  roundLost_eq : ∀ index, s.roundLost index = s.lostDetail.countP (·.2.1 = index)
  arrived : ∀ link,
    s.recvCnt link + s.waiting link +
        (s.unexpectedAll ++ s.tester.unexpected).countP (·.1 = link) ≤
      attributed appendSeq (some link) arrivals
  corrupted_eq : (s.corruptedAll ++ s.tester.corrupted).length = attributed appendSeq none arrivals
  nodup : ∀ round ∈ s.todo, round.links.Nodup
  nodup_main : ∀ round served, s.main = .sending round served → round.links.Nodup

variable {appendSeq : Bool} {arrivals : List (Place × FrameMsg)}
  {published : List (Topic × FrameMsg)} {s : SoakRun}

/-- The topic tells the slaves apart, and the station the two links of the master. -/
theorem link_eq {link link' : Link} (htopic : link'.topic = link.topic)
    (hstation : link'.station = link.station) : link' = link := by
  cases link <;> cases link' <;>
    first | rfl | exact absurd hstation (by decide) | exact absurd htopic (by decide)

theorem isFor_message (link link' : Link) (seq : ℕ) :
    IsFor link (link'.topic, SoakTester.message appendSeq link' seq) ↔ link' = link := by
  constructor
  · rintro ⟨htopic, hstation⟩
    exact link_eq htopic hstation
  · rintro rfl
    exact ⟨rfl, rfl⟩

/-- The count of a link touches three fields. -/
theorem countLinks_eq (round : Round) (got : Link → ℕ) (links : List Link) (s : SoakRun) :
    ∃ recvCnt roundLost lostDetail, links.foldl (countLink round got) s =
      { s with recvCnt := recvCnt, roundLost := roundLost, lostDetail := lostDetail } := by
  induction links generalizing s with
  | nil => exact ⟨_, _, _, rfl⟩
  | cons link links ih =>
    obtain ⟨recvCnt, roundLost, lostDetail, hrest⟩ := ih (countLink round got s link)
    refine ⟨recvCnt, roundLost, lostDetail, ?_⟩
    rw [List.foldl_cons, hrest, countLink]
    split_ifs <;> rfl

/-- A link is counted as received once, if its box holds anything. -/
theorem recvCnt_countLink (round : Round) (got : Link → ℕ) (next link : Link) (s : SoakRun) :
    (countLink round got s next).recvCnt link =
      s.recvCnt link + if next = link then min (got link) 1 else 0 := by
  have hupdate : (countLink round got s next).recvCnt =
      Function.update s.recvCnt next (s.recvCnt next + min (got next) 1) := by
    rw [countLink]
    split_ifs <;> rfl
  rw [hupdate]
  by_cases heq : next = link
  · subst heq
    rw [Function.update_self, if_pos rfl]
  · rw [Function.update_of_ne (Ne.symm heq), if_neg heq, Nat.add_zero]

/-- It is counted as received or as lost. -/
theorem balance_countLink (round : Round) (got : Link → ℕ) (next link : Link) (s : SoakRun) :
    (countLink round got s next).recvCnt link +
        lostOn (countLink round got s next).lostDetail link =
      s.recvCnt link + lostOn s.lostDetail link + if next = link then 1 else 0 := by
  rw [recvCnt_countLink]
  by_cases hgot : got next = 0
  · simp only [countLink, if_pos hgot, lostOn, List.countP_append, List.countP_singleton,
      decide_eq_true_eq]
    split_ifs with heq
    · subst heq
      omega
    · rfl
  · simp only [countLink, if_neg hgot]
    split_ifs with heq
    · subst heq
      omega
    · rfl

/-- The figure for the round goes on with the details. -/
theorem roundLost_countLink (round : Round) (got : Link → ℕ) (next : Link) {s : SoakRun}
    (h : ∀ index, s.roundLost index = s.lostDetail.countP (·.2.1 = index)) (index : ℕ) :
    (countLink round got s next).roundLost index =
      (countLink round got s next).lostDetail.countP (·.2.1 = index) := by
  by_cases hgot : got next = 0
  · simp only [countLink, if_pos hgot, List.countP_append, List.countP_singleton,
      decide_eq_true_eq]
    by_cases heq : round.index = index
    · subst heq
      rw [Function.update_self, h, if_pos rfl]
    · rw [Function.update_of_ne (Ne.symm heq), h, if_neg heq, Nat.add_zero]
  · simp only [countLink, if_neg hgot]
    exact h index

/-- Each link of the round is counted, as received if there was anything in its box and as lost
otherwise. -/
theorem countLinks (round : Round) (got : Link → ℕ) (links : List Link) (s : SoakRun) :
    let s' := links.foldl (countLink round got) s
    (∀ link, s'.recvCnt link = s.recvCnt link + links.count link * min (got link) 1) ∧
      (∀ link, s'.recvCnt link + lostOn s'.lostDetail link =
        s.recvCnt link + lostOn s.lostDetail link + links.count link) ∧
      ((∀ index, s.roundLost index = s.lostDetail.countP (·.2.1 = index)) →
        ∀ index, s'.roundLost index = s'.lostDetail.countP (·.2.1 = index)) := by
  induction links generalizing s with
  | nil => exact ⟨fun _ => by simp, fun _ => rfl, fun h => h⟩
  | cons next links ih =>
    obtain ⟨hrecv, hsum, hlost⟩ := ih (countLink round got s next)
    refine ⟨?_, ?_, fun h => hlost (roundLost_countLink round got next h)⟩
    · intro link
      rw [List.foldl_cons, hrecv, recvCnt_countLink, List.count_cons]
      split_ifs with h h' h'
      · rw [Nat.add_mul, Nat.one_mul]
        omega
      · exact absurd (beq_iff_eq.mpr h) h'
      · exact absurd (beq_iff_eq.mp h') h
      · rw [Nat.add_zero, Nat.add_zero]
    · intro link
      rw [List.foldl_cons, hsum, balance_countLink, List.count_cons]
      simp only [beq_iff_eq]
      omega

/-- A message is handled. -/
theorem Books.rx (h : Books appendSeq arrivals published s) (place : Place) (msg : FrameMsg) :
    Books appendSeq (arrivals ++ [(place, msg)]) published
      { s with tester := s.tester.onRx appendSeq place msg } := by
  obtain ⟨hsent, hbalance, hlost, harrived, hcorrupted, hnodup, hmain⟩ := h
  have hattributed : ∀ link, attributed appendSeq link (arrivals ++ [(place, msg)]) =
      attributed appendSeq link arrivals +
        if SoakTester.linkOf appendSeq place msg = link then 1 else 0 := by
    intro link
    rw [attributed, List.countP_append, List.countP_singleton]
    simp only [decide_eq_true_eq]
    rfl
  refine ⟨hsent, hbalance, hlost, ?_, ?_, hnodup, hmain⟩
  · intro link
    have hbefore := harrived link
    rw [hattributed, SoakTester.onRx_eq]
    cases hlink : SoakTester.linkOf appendSeq place msg with
    | none => simpa [waiting, SoakTester.got] using hbefore
    | some link' =>
      dsimp only
      by_cases hexpected : link' ∈ s.tester.expected
      · -- Into the box of its link.
        rw [if_neg (not_not.mpr hexpected)]
        have hbox : ({ s with
              tester := { s.tester with
                inbox := Function.update s.tester.inbox link'
                  (s.tester.inbox link' ++ [(SoakTester.decode msg.data).getD []]) } } :
              SoakRun).waiting link ≤
            s.waiting link + if some link' = some link then 1 else 0 := by
          simp only [waiting]
          cases s.main with
          | between => exact Nat.zero_le _
          | sending round served =>
            simp only [SoakTester.got, Option.some_inj]
            by_cases heq : link' = link
            · subst heq
              rw [Function.update_self, if_pos rfl, List.length_append]
              exact le_rfl
            · rw [Function.update_of_ne (Ne.symm heq), if_neg heq]
              exact le_rfl
        dsimp only at hbox hbefore ⊢
        omega
      · -- Among the unexpected ones, and the boxes stay.
        rw [if_pos hexpected]
        have hbox : ({ s with
              tester := { s.tester with
                unexpected := s.tester.unexpected ++ [(link', place)] } } : SoakRun).waiting link =
            s.waiting link := rfl
        rw [hbox]
        simp only [← List.append_assoc, List.countP_append, List.countP_singleton,
          decide_eq_true_eq, Option.some_inj] at hbefore ⊢
        omega
  · rw [hattributed, ← hcorrupted, SoakTester.onRx_eq]
    cases hlink : SoakTester.linkOf appendSeq place msg with
    | none => simp [Nat.add_assoc]
    | some link' =>
      rw [if_neg (Option.some_ne_none link'), Nat.add_zero]
      dsimp only
      split_ifs <;> rfl

/-- The round under way is closed. -/
theorem Books.close (h : Books appendSeq arrivals published s) {round : Round} {served : ℕ}
    (hat : s.main = .sending round served) (hall : round.links[served]? = none) :
    Books appendSeq arrivals published (s.closeRound round) := by
  obtain ⟨hsent, hbalance, hlost, harrived, hcorrupted, hnodup, hmain⟩ := h
  obtain ⟨recvCnt, roundLost, lostDetail, heq⟩ := countLinks_eq round s.tester.got round.links
    { s with tester := s.tester.collected, doneRounds := s.doneRounds + 1 }
  obtain ⟨hrecv, hsum, hlosts⟩ := countLinks round s.tester.got round.links
    { s with tester := s.tester.collected, doneRounds := s.doneRounds + 1 }
  rw [heq] at hrecv hsum hlosts
  simp only [closeRound, heq]
  refine ⟨hsent, ?_, hlosts hlost, ?_, ?_, hnodup, fun _ _ h => by cases h⟩
  · intro link
    have hbefore := hbalance link
    have hcounted := hsum link
    -- Every link of the round was served.
    rw [hat, underWay, List.take_of_length_le (List.getElem?_eq_none_iff.mp hall)] at hbefore
    dsimp only [underWay] at hcounted ⊢
    omega
  · intro link
    have hbefore := harrived link
    have hcounted := hrecv link
    rw [waiting, hat] at hbefore
    have hone : round.links.count link * min (s.tester.got link) 1 ≤ s.tester.got link := by
      have hcount : round.links.count link ≤ 1 :=
        List.nodup_iff_count_le_one.mp (hmain round served hat) link
      calc round.links.count link * min (s.tester.got link) 1
          ≤ 1 * min (s.tester.got link) 1 := Nat.mul_le_mul_right _ hcount
        _ ≤ s.tester.got link := by omega
    dsimp only [waiting, SoakTester.collected] at hbefore hcounted ⊢
    rw [List.append_nil]
    omega
  · dsimp only [SoakTester.collected]
    rw [List.append_nil]
    exact hcorrupted

/-- A round begins: nothing of it is served yet, and nothing is in the boxes for it. -/
theorem Books.begin (h : Books appendSeq arrivals published s) (hat : s.main = .between)
    {round : Round} {todo : List Round} (htodo : s.todo = round :: todo) :
    Books appendSeq arrivals published { s with
      tester := s.tester.beginRound round.links
      main := .sending round 0
      todo := todo
      seqNo := s.seqNo + 1 } := by
  refine ⟨h.sent_eq, ?_, h.roundLost_eq, ?_, h.corrupted_eq, ?_, ?_⟩
  · intro link
    rw [h.balance, hat]
    simp [underWay]
  · intro link
    have hbefore := h.arrived link
    have hidle : s.waiting link = 0 := by rw [waiting, hat]
    rw [hidle] at hbefore
    exact hbefore
  · intro r hr
    exact h.nodup r (by rw [htodo]; exact List.mem_cons_of_mem round hr)
  · rintro r served heq
    obtain ⟨rfl, -⟩ := MainAt.sending.inj heq
    exact h.nodup round (by rw [htodo]; exact List.mem_cons_self)

/-- A link of the round is served: one more is sent on it, and it is under way. -/
theorem Books.serve (h : Books appendSeq arrivals published s) {round : Round} {served : ℕ}
    (hat : s.main = .sending round served) {link' : Link}
    (hlink : round.links[served]? = some link') :
    Books appendSeq arrivals
      (published ++ [(link'.topic, SoakTester.message appendSeq link' s.seqNo)]) { s with
        main := .sending round (served + 1)
        sentCnt := Function.update s.sentCnt link' (s.sentCnt link' + 1) } := by
  have htake : round.links.take (served + 1) = round.links.take served ++ [link'] := by
    rw [List.take_add_one, hlink]
    rfl
  refine ⟨?_, ?_, h.roundLost_eq, ?_, h.corrupted_eq, h.nodup, ?_⟩
  · intro link
    rw [List.countP_append, List.countP_singleton]
    simp only [decide_eq_true_eq, isFor_message]
    by_cases heq : link' = link
    · subst heq
      rw [Function.update_self, h.sent_eq, if_pos rfl]
    · rw [Function.update_of_ne (Ne.symm heq), h.sent_eq, if_neg heq, Nat.add_zero]
  · intro link
    have hbefore := h.balance link
    rw [hat] at hbefore
    simp only [underWay, htake, List.count_append, List.count_singleton, beq_iff_eq] at hbefore ⊢
    by_cases heq : link' = link
    · subst heq
      rw [Function.update_self, if_pos rfl, hbefore]
      omega
    · rw [Function.update_of_ne (Ne.symm heq), if_neg heq, hbefore]
      omega
  -- Serving a link touches no box.
  · intro link
    have hbefore := h.arrived link
    rw [waiting, hat] at hbefore
    exact hbefore
  · rintro r n heq
    obtain ⟨rfl, -⟩ := MainAt.sending.inj heq
    exact h.nodup_main round served hat

/-- The main thread makes a step. -/
theorem Books.main (h : Books appendSeq arrivals published s) :
    Books appendSeq arrivals (published ++ (s.mainStep appendSeq).2) (s.mainStep appendSeq).1 := by
  rw [mainStep]
  cases hat : s.main with
  | between =>
    cases htodo : s.todo with
    | nil =>
      rw [List.append_nil]
      exact h
    | cons round todo =>
      rw [List.append_nil]
      exact h.begin hat htodo
  | sending round served =>
    dsimp only
    cases hlink : round.links[served]? with
    | some link' => exact h.serve hat hlink
    | none =>
      rw [List.append_nil]
      exact h.close hat hlink

theorem handled_append (acts acts' : List Action) :
    handled (acts ++ acts') = handled acts ++ handled acts' := List.filterMap_append

theorem books_run (appendSeq : Bool) {todo : List Round} (htodo : ∀ r ∈ todo, r.links.Nodup)
    (acts : List Action) :
    Books appendSeq (handled acts) (publishedIn appendSeq todo acts)
      (afterRun appendSeq todo acts) := by
  induction acts using List.reverseRecOn with
  | nil =>
    exact ⟨fun _ => rfl, fun _ => rfl, fun _ => rfl, fun _ => le_rfl, rfl, htodo, fun _ _ h => by
      cases h⟩
  | append_singleton acts a ih =>
    rw [handled_append, publishedIn, afterRun, emitted_append, stateAfter_append, emitted_cons,
      emitted_nil, List.append_nil]
    cases a with
    | main =>
      rw [show handled [Action.main] = [] from rfl, List.append_nil]
      exact ih.main
    | rx place msg =>
      show Books appendSeq _ (publishedIn appendSeq todo acts ++ []) _
      rw [List.append_nil]
      exact ih.rx place msg

/-- **The books of every run**, however the callbacks fall between the steps of the main thread:
what was served on a link is received or lost by the end of its round, in the figures for the links
as in those for the rounds; for each link received in a round a message of its own was handled,
besides the unexpected ones; and the messages booked as corrupted are those of no link. -/
theorem books_afterRun (appendSeq : Bool) (todo : List Round)
    (htodo : ∀ r ∈ todo, r.links.Nodup) (acts : List Action) :
    Books appendSeq (handled acts) (publishedIn appendSeq todo acts)
      (afterRun appendSeq todo acts) :=
  books_run appendSeq htodo acts

theorem nodup_schedule (n : ℕ) : ∀ r ∈ schedule n, r.links.Nodup := by
  intro r hr
  obtain ⟨cycle, -, hr⟩ := List.mem_flatMap.mp hr
  obtain ⟨index, hindex, rfl⟩ := List.mem_mapIdx.mp hr
  have hall : ∀ links ∈ rounds, links.Nodup := by decide
  exact hall _ (List.getElem_mem hindex)

/-- The first round of a cycle: the message to the slave 1 arrives twice, the one to the slave 2
does not. -/
theorem books_afterRun_lost :
    let msg : FrameMsg := { data := SoakTester.encodeText textMaster }
    let acts : List Action :=
      [.main, .main, .rx .slave1 msg, .main, .rx .slave1 msg, .main]
    Books false (handled acts) (publishedIn false (schedule 1) acts)
        (afterRun false (schedule 1) acts) ∧
      (afterRun false (schedule 1) acts).lostDetail = [(1, 0, .m2)] := by
  intro msg acts
  exact ⟨books_afterRun false (schedule 1) (nodup_schedule 1) acts, by decide +kernel⟩

end SoakRun

end Ds10Script

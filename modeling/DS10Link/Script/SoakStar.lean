import DS10Link.Script.SoakTest

/-!
# The soak test on a star

The soak test talks to the nodes of a star: what it publishes on a topic is offered to the node of
the sender, and its callbacks handle what the nodes publish; the topics may lose messages, as the
radio may, but deliver in order. Then every message that is handled belongs to the link it was sent
on, so nothing is ever booked as corrupted, and the verdict that nothing was lost means that every
message made its way through all the nodes, once.

All this is about frames that the nodes can cut off whole, which those sent without `--seq` are; a
number behind the text may well make a shorter prefix pass the CRC.

## Main definitions

* `SoakRun.Attached`: a soak test whose messages go through the nodes of a star
* `SoakRun.NothingLost`: the verdict at the end

## Main results

* `SoakRun.hears_plain`: without `--seq` every frame can be cut off whole
* `SoakRun.attributes_star`: every message handled is attributed to a link it was sent on
* `SoakRun.delivered_of_nothingLost`: what the verdict means
-/

open Automaton

namespace Ds10Script

open Ds10Driver Ds10Node

/-- The node that a topic goes to. -/
def Topic.site : Topic → Option (Fin 2)
  | .masterTx => none
  | .slave1Tx => some 0
  | .slave2Tx => some 1

/-- The node whose messages arrive at a place. -/
def Place.site : Place → Option (Fin 2)
  | .master => none
  | .slave1 => some 0
  | .slave2 => some 1

namespace SoakRun

/-- What is published on a topic. -/
def onTopic (topic : Topic) (published : List (Topic × FrameMsg)) : List FrameMsg :=
  (published.filter fun out => out.1 = topic).map Prod.snd

/-- What has arrived at a place. -/
def arrivedAt (place : Place) (arrivals : List (Place × FrameMsg)) : List FrameMsg :=
  (arrivals.filter fun a => a.1 = place).map Prod.snd

/-- A soak test whose messages go through the nodes of a star with the stations 1 and 2. -/
structure Attached (N : StarNetwork (Fin 2))
    (air : Option (Fin 2) → List (Option (Fin 2) × FrameMsg)) (published : List (Topic × FrameMsg))
    (arrivals : List (Place × FrameMsg)) : Prop where
  station_zero : N.station 0 = 1
  station_one : N.station 1 = 2
  hears : ∀ r, Hears N.site r (air r)
  sends : ∀ topic, (N.site topic.site).transmitted.Sublist (onTopic topic published)
  handles : ∀ place, (arrivedAt place arrivals).Sublist (N.site place.site).published

/-! ## What is published, and what arrives -/

variable {appendSeq : Bool} {todo : List Round} {acts : List Action} {N : StarNetwork (Fin 2)}
  {air : Option (Fin 2) → List (Option (Fin 2) × FrameMsg)} {arrivals : List (Place × FrameMsg)}

theorem mainStep_published (s : SoakRun) {out : Topic × FrameMsg}
    (h : out ∈ (s.mainStep appendSeq).2) :
    ∃ link seq, out = (link.topic, SoakTester.message appendSeq link seq) := by
  rw [mainStep] at h
  cases hat : s.main with
  | between =>
    cases htodo : s.todo with
    | nil => simp [hat, htodo] at h
    | cons round rest => simp [hat, htodo] at h
  | sending round served =>
    cases hlink : round.links[served]? with
    | some link =>
      simp only [hat, hlink, List.mem_singleton] at h
      exact ⟨link, s.seqNo, h⟩
    | none => simp [hat, hlink] at h

/-- Everything published is the message of a link, on its topic. -/
theorem exists_link_of_published {out : Topic × FrameMsg}
    (h : out ∈ publishedIn appendSeq todo acts) :
    ∃ link seq, out = (link.topic, SoakTester.message appendSeq link seq) := by
  induction acts using List.reverseRecOn with
  | nil => cases h
  | append_singleton acts a ih =>
    rw [publishedIn, emitted_append, List.mem_append] at h
    rcases h with h | h
    · exact ih h
    · rw [emitted_cons, emitted_nil, List.append_nil] at h
      cases a with
      | main => exact mainStep_published _ h
      | rx place msg => cases h

theorem mem_onTopic {topic : Topic} {msg : FrameMsg}
    (h : msg ∈ onTopic topic (publishedIn appendSeq todo acts)) :
    ∃ link seq, link.topic = topic ∧ msg = SoakTester.message appendSeq link seq := by
  obtain ⟨⟨topic', msg'⟩, hmem, rfl⟩ := List.mem_map.mp h
  obtain ⟨hpublished, htopic⟩ := List.mem_filter.mp hmem
  obtain ⟨link, seq, hout⟩ := exists_link_of_published hpublished
  obtain ⟨rfl, rfl⟩ := Prod.mk.inj hout
  exact ⟨link, seq, by simpa using htopic, rfl⟩

/-! ## Without `--seq` -/

/-- The station that the frame of a link bears. -/
def airStation : Link → UInt8
  | .m1 | .s1 => 1
  | .m2 | .s2 => 2

/-- The frame of a link, without a number behind the text. -/
def plainFrame (link : Link) : List UInt8 :=
  let body := airStation link :: 0x10 :: SoakTester.encodeText link.text
  body ++ crcBytes (crc16 body)

theorem plainFrame_legible (link : Link) :
    IsStation (airStation link) ∧ (plainFrame link).length ≤ 23 ∧
      Unambiguous (plainFrame link) := by
  cases link <;> decide +kernel

/-- A message that a node of the star transmits goes out as the frame of its link. -/
theorem exists_plainFrame (hzero : N.station 0 = 1) (hone : N.station 1 = 2)
    (hsends : ∀ topic, (N.site topic.site).transmitted.Sublist
      (onTopic topic (publishedIn false todo acts)))
    {s : Option (Fin 2)} {msg : FrameMsg} (hmsg : msg ∈ (N.site s).transmitted) :
    ∃ link, txStation (N.site s).params msg = airStation link ∧
      (N.site s).rawOf msg = plainFrame link := by
  obtain ⟨topic, rfl⟩ : ∃ topic : Topic, topic.site = s := by
    rcases s with _ | i
    · exact ⟨.masterTx, rfl⟩
    · by_cases hi : i = 0
      · exact ⟨.slave1Tx, by rw [hi]; rfl⟩
      · exact ⟨.slave2Tx, congrArg some (by omega)⟩
  obtain ⟨link, seq, rfl, rfl⟩ := mem_onTopic ((hsends topic).subset hmsg)
  have hstation : txStation (N.site link.topic.site).params
      (SoakTester.message false link seq) = airStation link := by
    have hmaster : ¬ N.master.params.role = .kSlave := by
      rw [N.master_role]
      decide
    cases link with
    | m1 | m2 => exact if_neg hmaster
    | s1 => exact (if_pos (N.slave_role 0)).trans hzero
    | s2 => exact (if_pos (N.slave_role 1)).trans hone
  refine ⟨link, hstation, ?_⟩
  obtain ⟨frame, hframe⟩ := encode_of_transmitted hmsg
  rw [Site.rawOf, hframe, Option.getD_some, (ModbusFrameCodec.encode_eq_some.mp hframe).2, hstation]
  rfl

/-- **Without `--seq` every frame can be cut off whole** by a node that takes frames of 23 bytes. -/
theorem hears_plain (hzero : N.station 0 = 1) (hone : N.station 1 = 2)
    (hsends : ∀ topic, (N.site topic.site).transmitted.Sublist
      (onTopic topic (publishedIn false todo acts)))
    {r : Option (Fin 2)} {onAir : List (Option (Fin 2) × FrameMsg)}
    (hcap : 23 ≤ (N.site r).params.maxFrameLen)
    (hcarried : ∀ s, ((onAir.filter fun x => x.1 = s).map Prod.snd).Sublist (N.site s).transmitted)
    (hother : ∀ x ∈ onAir, x.1 ≠ r)
    (hread : ∃ groups, groups.flatten = onAir ∧
      List.Forall₂ (ReadOff N.site (N.site r).params.maxFrameLen) (N.site r).bursts groups) :
    Hears N.site r onAir := by
  refine ⟨hcarried, hother, ?_, hread⟩
  intro x hx
  have hsent : x.2 ∈ (N.site x.1).transmitted := by
    refine (hcarried x.1).subset (List.mem_map_of_mem ?_)
    simp [hx]
  obtain ⟨link, hstation, hraw⟩ := exists_plainFrame hzero hone hsends hsent
  obtain ⟨hlegal, hshort, hunamb⟩ := plainFrame_legible link
  rw [hstation, hraw]
  exact ⟨hlegal, hshort.trans hcap, hunamb⟩

/-- With `#141` behind the text, a shorter prefix of the frame to the first slave passes. -/
example :
    let body := 1 :: 0x10 :: (SoakTester.message true .m1 141).data
    ¬ Unambiguous (body ++ crcBytes (crc16 body)) := by
  decide +kernel

/-! ## Where a message belongs -/

theorem linkOf_of_content {link : Link} {seq : ℕ} {msg : FrameMsg}
    (hcontent : msg.content = (SoakTester.message appendSeq link seq).content)
    (hs1 : link = .s1 → msg.stationId = 1) (hs2 : link = .s2 → msg.stationId = 2) :
    SoakTester.linkOf appendSeq link.arrive msg = some link :=
  SoakTester.linkOf_message appendSeq link seq (congrArg Prod.snd hcontent) hs1 hs2

/-- What arrives at a slave, the master was given for it. -/
theorem Attached.linkOf_slave (h : Attached N air (publishedIn appendSeq todo acts) arrivals)
    {place : Place} {i : Fin 2} (hsite : place.site = some i) {msg : FrameMsg}
    (hmsg : msg ∈ arrivedAt place arrivals) :
    ∃ link, link.arrive = place ∧ SoakTester.linkOf appendSeq place msg = some link := by
  have hpublished := (h.handles place).subset hmsg
  rw [hsite] at hpublished
  obtain ⟨sent, hsent, hcontent⟩ := List.mem_map.mp
    ((StarNetwork.downstream (h.hears (some i))).subset (List.mem_map_of_mem hpublished))
  obtain ⟨hsent, hstation⟩ := List.mem_filter.mp hsent
  rw [decide_eq_true_eq] at hstation
  obtain ⟨link, seq, htopic, rfl⟩ := mem_onTopic ((h.sends .masterTx).subset hsent)
  have hzero := h.station_zero
  have hone := h.station_one
  -- The station of the message says which of the master's links it is.
  have harrive : link.arrive = place := by
    cases link with
    | s1 | s2 => cases htopic
    | m1 =>
      cases place with
      | slave1 => rfl
      | master => cases hsite
      | slave2 =>
        obtain rfl : 1 = i := Option.some.inj hsite
        exact absurd (show (1 : UInt8) = 2 from hstation.trans hone) (by decide)
    | m2 =>
      cases place with
      | slave2 => rfl
      | master => cases hsite
      | slave1 =>
        obtain rfl : 0 = i := Option.some.inj hsite
        exact absurd (show (2 : UInt8) = 1 from hstation.trans hzero) (by decide)
  refine ⟨link, harrive, ?_⟩
  rw [← harrive]
  refine linkOf_of_content hcontent.symm ?_ ?_
  · rintro rfl
    cases htopic
  · rintro rfl
    cases htopic

/-- What arrives at the master with the station of a slave, that slave was given. -/
theorem Attached.linkOf_master (h : Attached N air (publishedIn appendSeq todo acts) arrivals)
    {msg : FrameMsg} (hmsg : msg ∈ arrivedAt .master arrivals) :
    ∃ link, link.arrive = .master ∧ SoakTester.linkOf appendSeq .master msg = some link := by
  have hpublished : msg ∈ N.master.published := (h.handles .master).subset hmsg
  obtain ⟨i, hstation⟩ := StarNetwork.exists_station (h.hears none) hpublished
  obtain ⟨sent, hsent, hcontent⟩ := List.mem_map.mp
    ((StarNetwork.upstream (h.hears none) i).subset
      (List.mem_map_of_mem (List.mem_filter.mpr ⟨hpublished, by simpa using hstation⟩)))
  by_cases hi : i = 0
  · subst hi
    rw [h.station_zero] at hstation
    obtain ⟨link, seq, htopic, rfl⟩ := mem_onTopic ((h.sends .slave1Tx).subset hsent)
    obtain rfl : link = .s1 := by
      cases link <;> first | rfl | cases htopic
    exact ⟨.s1, rfl, linkOf_of_content hcontent.symm (fun _ => hstation) nofun⟩
  · obtain rfl : i = 1 := by omega
    rw [h.station_one] at hstation
    obtain ⟨link, seq, htopic, rfl⟩ := mem_onTopic ((h.sends .slave2Tx).subset hsent)
    obtain rfl : link = .s2 := by
      cases link <;> first | rfl | cases htopic
    exact ⟨.s2, rfl, linkOf_of_content hcontent.symm nofun fun _ => hstation⟩

/-- Every message handled is attributed to a link on which such messages are sent to its place. -/
theorem Attached.exists_linkOf
    (h : Attached N air (publishedIn appendSeq todo acts) (handled acts))
    {place : Place} {msg : FrameMsg} (hmsg : (place, msg) ∈ handled acts) :
    ∃ link, link.arrive = place ∧ SoakTester.linkOf appendSeq place msg = some link := by
  have harrived : msg ∈ arrivedAt place (handled acts) :=
    List.mem_map.mpr ⟨(place, msg), List.mem_filter.mpr ⟨hmsg, by simp⟩, rfl⟩
  cases place with
  | master => exact h.linkOf_master harrived
  | slave1 => exact h.linkOf_slave rfl harrived
  | slave2 => exact h.linkOf_slave rfl harrived

/-! ## Nothing lost -/

/-- A figure summed over the links on which something was sent. -/
def total (s : SoakRun) (figure : Link → ℕ) : ℕ :=
  (([Link.m1, .m2, .s1, .s2].filter fun link => s.sentCnt link ≠ 0).map figure).sum

/-- The verdict that all has arrived. -/
def NothingLost (s : SoakRun) : Prop :=
  s.total s.sentCnt ≠ 0 ∧ s.total s.sentCnt = s.total s.recvCnt ∧ s.corruptedAll = [] ∧
    s.unexpectedAll = []

theorem total_eq (s : SoakRun) (figure : Link → ℕ)
    (hzero : ∀ link, s.sentCnt link = 0 → figure link = 0) :
    s.total figure = figure .m1 + figure .m2 + figure .s1 + figure .s2 := by
  have hsum : ∀ links : List Link,
      ((links.filter fun link => s.sentCnt link ≠ 0).map figure).sum = (links.map figure).sum := by
    intro links
    induction links with
    | nil => rfl
    | cons link links ih =>
      rw [List.filter_cons, List.map_cons, List.sum_cons, ← ih]
      by_cases hsent : s.sentCnt link = 0
      · rw [if_neg (by simpa using hsent), hzero link hsent, Nat.zero_add]
      · rw [if_pos (by simpa using hsent), List.map_cons, List.sum_cons]
  rw [total, hsum]
  simp [Nat.add_assoc]

/-- Where nothing is lost, every link has received what was sent on it. -/
theorem NothingLost.recv_eq {s : SoakRun} (h : NothingLost s)
    (hle : ∀ link, s.recvCnt link ≤ s.sentCnt link) (link : Link) :
    s.recvCnt link = s.sentCnt link := by
  have hlost := h.2.1
  have hzero : ∀ link, s.sentCnt link = 0 → s.recvCnt link = 0 := by
    intro link hsent
    have := hle link
    omega
  rw [s.total_eq s.sentCnt fun _ h => h, s.total_eq s.recvCnt hzero] at hlost
  have hm1 := hle .m1
  have hm2 := hle .m2
  have hs1 := hle .s1
  have hs2 := hle .s2
  cases link <;> omega

theorem arrive_of_linkOf {place : Place} {msg : FrameMsg} {link : Link}
    (h : SoakTester.linkOf appendSeq place msg = some link) :
    link.arrive = place ∧ (link = .s1 → msg.stationId = 1) ∧ (link = .s2 → msg.stationId = 2) := by
  obtain ⟨text, -, hlink⟩ := Option.bind_eq_some_iff.mp h
  rw [SoakTester.linkAt.eq_def] at hlink
  dsimp only at hlink
  generalize (if appendSeq = true then _ else text) = base at hlink
  cases place with
  | slave1 =>
    by_cases hbase : base = textMaster
    · obtain rfl := Option.some.inj ((if_pos hbase).symm.trans hlink)
      exact ⟨rfl, nofun, nofun⟩
    · cases (if_neg hbase).symm.trans hlink
  | slave2 =>
    by_cases hbase : base = textMaster
    · obtain rfl := Option.some.inj ((if_pos hbase).symm.trans hlink)
      exact ⟨rfl, nofun, nofun⟩
    · cases (if_neg hbase).symm.trans hlink
  | master =>
    by_cases h₁ : msg.stationId = 1 ∧ base = textSlave1
    · obtain rfl := Option.some.inj ((if_pos h₁).symm.trans hlink)
      exact ⟨rfl, fun _ => h₁.1, nofun⟩
    · replace hlink := (if_neg h₁).symm.trans hlink
      by_cases h₂ : msg.stationId = 2 ∧ base = textSlave2
      · obtain rfl := Option.some.inj ((if_pos h₂).symm.trans hlink)
        exact ⟨rfl, nofun, fun _ => h₂.1⟩
      · cases (if_neg h₂).symm.trans hlink

/-- What the node of the sender transmitted for a link. -/
def transmittedOn (N : StarNetwork (Fin 2)) (link : Link) : List FrameMsg :=
  (N.site link.topic.site).transmitted.filter fun m => m.stationId = link.station

/-- What was published for a link. -/
def publishedOn (link : Link) (published : List (Topic × FrameMsg)) : List FrameMsg :=
  (published.filter fun out => IsFor link out).map Prod.snd

theorem publishedOn_eq (link : Link) (published : List (Topic × FrameMsg)) :
    publishedOn link published =
      (onTopic link.topic published).filter fun m => m.stationId = link.station := by
  rw [publishedOn, onTopic, List.filter_map, List.filter_filter]
  refine congrArg _ (List.filter_congr ?_)
  intro out _
  rw [Function.comp_apply, ← Bool.decide_and, decide_eq_decide, IsFor, and_comm]

theorem Attached.sublist_publishedOn {published : List (Topic × FrameMsg)}
    (h : Attached N air published arrivals) (link : Link) :
    (transmittedOn N link).Sublist (publishedOn link published) := by
  rw [publishedOn_eq]
  exact (h.sends link.topic).filter _

theorem attributed_le (place : Place) (link : Link) (keep : FrameMsg → Bool)
    (hkeep : ∀ a ∈ arrivals, SoakTester.linkOf appendSeq a.1 a.2 = some link →
      a.1 = place ∧ keep a.2 = true) :
    attributed appendSeq (some link) arrivals ≤
      ((arrivedAt place arrivals).filter keep).length := by
  rw [attributed, arrivedAt, List.filter_map, List.length_map, List.filter_filter,
    ← List.countP_eq_length_filter]
  refine List.countP_mono_left ?_
  intro a ha hlink
  rw [decide_eq_true_eq] at hlink
  obtain ⟨hplace, hkept⟩ := hkeep a ha hlink
  rw [Function.comp_apply, hkept, hplace, decide_eq_true rfl, Bool.true_and]

section Counts

variable (h : Attached N air (publishedIn appendSeq todo acts) arrivals) {link : Link} {i : Fin 2}

include h

theorem Attached.attributed_le_of_master (htopic : link.topic = .masterTx)
    (hsite : link.arrive.site = some i) (hstation : link.station = N.station i) :
    attributed appendSeq (some link) arrivals ≤ (transmittedOn N link).length := by
  have hmaster : N.site link.topic.site = N.master := by rw [htopic]; rfl
  have hhandled := h.handles link.arrive
  rw [hsite] at hhandled
  have hdown := (StarNetwork.downstream (h.hears (some i))).length_le
  rw [List.length_map, List.length_map] at hdown
  calc attributed appendSeq (some link) arrivals
      ≤ ((arrivedAt link.arrive arrivals).filter fun _ => true).length :=
        attributed_le _ _ _ fun a _ hlink => ⟨(arrive_of_linkOf hlink).1.symm, rfl⟩
    _ ≤ (N.slave i).published.length := (List.filter_sublist.trans hhandled).length_le
    _ ≤ (transmittedOn N link).length := by
        rw [transmittedOn, hmaster, hstation]
        exact hdown

theorem Attached.attributed_le_of_slave (htopic : link.topic.site = some i)
    (harrive : link.arrive = .master)
    (hstation : ∀ a ∈ arrivals, SoakTester.linkOf appendSeq a.1 a.2 = some link →
      a.2.stationId = N.station i)
    (hsame : ∀ link', link'.topic = link.topic → link' = link) :
    attributed appendSeq (some link) arrivals ≤ (transmittedOn N link).length := by
  have hup := (StarNetwork.upstream (h.hears none) i).length_le
  rw [List.length_map, List.length_map] at hup
  -- A slave sends on its link alone.
  have hall : transmittedOn N link = (N.slave i).transmitted := by
    have hslave : N.site link.topic.site = N.slave i := by rw [htopic]; rfl
    rw [transmittedOn, hslave]
    refine List.filter_eq_self.mpr ?_
    intro m hm
    obtain ⟨link', seq, htopic', rfl⟩ :=
      mem_onTopic ((h.sends link.topic).subset (by rw [hslave]; exact hm))
    rw [hsame link' htopic', decide_eq_true_eq]
    rfl
  calc attributed appendSeq (some link) arrivals
      ≤ ((arrivedAt .master arrivals).filter fun m => m.stationId = N.station i).length :=
        attributed_le _ _ _ fun a ha hlink =>
          ⟨(arrive_of_linkOf hlink).1.symm.trans harrive, by simpa using hstation a ha hlink⟩
    _ ≤ (N.master.published.filter fun m => m.stationId = N.station i).length :=
        ((h.handles .master).filter _).length_le
    _ ≤ (transmittedOn N link).length := by
        rw [hall]
        exact hup

/-- No more messages of a link arrive than were transmitted on it. -/
theorem Attached.attributed_le_transmitted (link : Link) :
    attributed appendSeq (some link) arrivals ≤ (transmittedOn N link).length := by
  cases link with
  | m1 => exact h.attributed_le_of_master rfl rfl h.station_zero.symm
  | m2 => exact h.attributed_le_of_master rfl rfl h.station_one.symm
  | s1 =>
    refine h.attributed_le_of_slave (i := 0) rfl rfl ?_ ?_
    · intro a _ hlink
      rw [h.station_zero]
      exact (arrive_of_linkOf hlink).2.1 rfl
    · intro link htopic
      cases link <;> first | rfl | cases htopic
  | s2 =>
    refine h.attributed_le_of_slave (i := 1) rfl rfl ?_ ?_
    · intro a _ hlink
      rw [h.station_one]
      exact (arrive_of_linkOf hlink).2.2 rfl
    · intro link htopic
      cases link <;> first | rfl | cases htopic

end Counts

/-- **Every message handled is attributed to a link** on which messages are sent to its place, in
every run of a soak test on a star; so nothing is ever booked as corrupted. -/
theorem attributes_star
    (h : Attached N air (publishedIn appendSeq todo acts) (handled acts))
    (htodo : ∀ r ∈ todo, r.links.Nodup) :
    (∀ place msg, (place, msg) ∈ handled acts →
        ∃ link, link.arrive = place ∧ SoakTester.linkOf appendSeq place msg = some link) ∧
      (afterRun appendSeq todo acts).corruptedAll = [] ∧
      (afterRun appendSeq todo acts).tester.corrupted = [] := by
  have hall : ∀ place msg, (place, msg) ∈ handled acts →
      ∃ link, link.arrive = place ∧ SoakTester.linkOf appendSeq place msg = some link :=
    fun place msg hmsg => h.exists_linkOf hmsg
  refine ⟨hall, ?_⟩
  have hnone : attributed appendSeq none (handled acts) = 0 := by
    rw [attributed, List.countP_eq_zero]
    rintro ⟨place, msg⟩ hmsg
    obtain ⟨link, -, hlink⟩ := hall place msg hmsg
    simp [hlink]
  have hcorrupted := (books_run appendSeq htodo acts).corrupted_eq
  rw [hnone, List.length_eq_zero_iff] at hcorrupted
  exact List.append_eq_nil_iff.mp hcorrupted

/-- **What the verdict means**: where the soak test finds nothing lost on a star, every message it
published on a link was transmitted by the node of the sender and handled where it arrives, once. -/
theorem delivered_of_nothingLost
    (h : Attached N air (publishedIn appendSeq todo acts) (handled acts))
    (htodo : ∀ r ∈ todo, r.links.Nodup)
    (hverdict : NothingLost (afterRun appendSeq todo acts)) (link : Link) :
    transmittedOn N link = publishedOn link (publishedIn appendSeq todo acts) ∧
      attributed appendSeq (some link) (handled acts) =
        (publishedOn link (publishedIn appendSeq todo acts)).length := by
  have hbooks := books_run appendSeq htodo acts
  have hlength : (publishedOn link (publishedIn appendSeq todo acts)).length =
      (afterRun appendSeq todo acts).sentCnt link := by
    rw [hbooks.sent_eq, publishedOn, List.length_map, List.countP_eq_length_filter]
  have hrecv : (afterRun appendSeq todo acts).recvCnt link =
      (afterRun appendSeq todo acts).sentCnt link := by
    refine hverdict.recv_eq ?_ link
    intro link
    rw [hbooks.balance]
    omega
  -- Received, arrived, transmitted, published: none of these exceeds the next.
  have harrived := hbooks.arrived link
  have htransmitted := h.attributed_le_transmitted link
  have hpublished := h.sublist_publishedOn link
  have hle := hpublished.length_le
  refine ⟨hpublished.eq_of_length (by omega), by omega⟩

/-! ## One round -/

/-- The first round, with both messages handled before it is counted. -/
def soakActs : List Action :=
  let msg : FrameMsg :=
    { frameId := "/dev/ttyUSB1", functionCode := 0x10, data := SoakTester.encodeText textMaster,
      rxSeq := 1 }
  [.main, .main, .main, .rx .slave1 msg, .rx .slave2 { msg with frameId := "/dev/ttyUSB2" }, .main]

/-- A star on which the first round goes through. -/
def soakStar : StarNetwork (Fin 2) where
  master :=
    StarNetwork.briefSite (StarNetwork.masterAt "/dev/ttyUSB0")
      [SoakTester.message false .m1 1, SoakTester.message false .m2 1] []
  slave
    | 0 =>
      StarNetwork.briefSite (StarNetwork.slaveAt "/dev/ttyUSB1" 1 (by decide)) []
        [1, 16, 228, 184, 187, 230, 156, 186, 49, 50, 51, 52, 53, 54, 55, 56, 57, 134, 77]
    | 1 =>
      StarNetwork.briefSite (StarNetwork.slaveAt "/dev/ttyUSB2" 2 (by decide)) []
        [2, 16, 228, 184, 187, 230, 156, 186, 49, 50, 51, 52, 53, 54, 55, 56, 57, 118, 189]
  master_role := rfl
  slave_role := by decide
  stations := by decide

/-- What is on the air in the first round. -/
def soakAir : Option (Fin 2) → List (Option (Fin 2) × FrameMsg)
  | none => []
  | some 0 => [(none, SoakTester.message false .m1 1)]
  | some 1 => [(none, SoakTester.message false .m2 1)]

theorem sends_soak (topic : Topic) :
    (soakStar.site topic.site).transmitted.Sublist
      (onTopic topic (publishedIn false [⟨1, 0, [.m1, .m2]⟩] soakActs)) := by
  cases topic <;> decide +kernel

theorem hears_soak (r : Option (Fin 2)) : Hears soakStar.site r (soakAir r) := by
  have hall : 23 ≤ (soakStar.site r).params.maxFrameLen ∧
      (∀ s, (((soakAir r).filter fun x => x.1 = s).map Prod.snd).Sublist
        (soakStar.site s).transmitted) ∧ (∀ x ∈ soakAir r, x.1 ≠ r) ∧
      (soakStar.site r).bursts =
        [[], ((soakAir r).map fun x => (soakStar.site x.1).rawOf x.2).flatten] := by
    revert r
    decide +kernel
  obtain ⟨hcap, hcarried, hother, hbursts⟩ := hall
  exact hears_plain rfl rfl sends_soak hcap hcarried hother (exists_groups hbursts)

theorem attached_soak :
    Attached soakStar soakAir (publishedIn false [⟨1, 0, [.m1, .m2]⟩] soakActs)
      (handled soakActs) where
  station_zero := rfl
  station_one := rfl
  hears := hears_soak
  sends := sends_soak
  handles
    | .slave1 | .slave2 | .master => by decide +kernel

/-- Both messages of the round are attributed. -/
theorem attributes_star_round :
    (afterRun false [⟨1, 0, [.m1, .m2]⟩] soakActs).corruptedAll = [] :=
  (attributes_star attached_soak (by decide)).2.1

/-- In the round nothing is lost, so the message to the second slave was transmitted. -/
theorem delivered_of_nothingLost_round :
    transmittedOn soakStar .m2 =
      publishedOn .m2 (publishedIn false [⟨1, 0, [.m1, .m2]⟩] soakActs) :=
  (delivered_of_nothingLost attached_soak (by decide)
    ⟨by decide +kernel, by decide +kernel, by decide +kernel, by decide +kernel⟩ .m2).1

end SoakRun

end Ds10Script

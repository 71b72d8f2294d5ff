import DS10Link.Driver.Reader
import DS10Link.Driver.Wire

/-!
# From driver to driver

A master and its slaves each run a driver node. What the transmit callbacks of one node put on the
wire whole, the radio brings to the ports of others as whole frames, in the order of the sender,
except for those it loses; the frames of several senders mix. A node then publishes what arrived,
filtered and numbered, with the function code and the data as they were sent. The station field is
the driver's own on both ends, and the number `txSeq` stays behind.

This rests on what the decoder can cut off whole: a frame that arrives has a legal station, is no
longer than the receiver allows, and no shorter prefix of it passes the CRC; and no burst ends
inside it. `Hears` says so of everything that a node is brought.

## Main definitions

* `Site`: a node with its parameters, its device and what it meets
* `Site.transmitted`: the messages of the calls that were counted
* `Hears site r air`: what the radio brings to the port of `r`
* `StarNetwork`: a master and slaves with different stations

## Main results

* `published_air`: what a node publishes of what is on the air
* `StarNetwork.faithful`: who hears whom in a star
-/

open Automaton

namespace Ds10Driver

/-- A node with its parameters, its device and what it meets. -/
structure Site where
  params : NodeParams
  device : Device
  start : ℤ
  events : List Ds10Node.Event

namespace Ds10Node

/-- The message of a call that is counted. -/
def transmits (p : NodeParams) (d : Device) (n : Ds10Node) : Event → List FrameMsg
  | .reader _ => []
  | .tx msg => if (n.onTx p d msg).txFrames = n.txFrames then [] else [msg]

/-- The messages of the calls that are counted in a run. -/
def transmittedIn (p : NodeParams) (d : Device) (start : ℤ) (es : List Event) : List FrameMsg :=
  collect (step p d) (transmits p d) (new p start) es

/-- Every message of a counted call was encoded. -/
theorem encode_of_transmitted {p : NodeParams} {d : Device} {start : ℤ} {es : List Event}
    {msg : FrameMsg} (h : msg ∈ transmittedIn p d start es) :
    ∃ frame, (ModbusFrameCodec.new p.maxFrameLen).encode (txStation p msg) msg.functionCode
      msg.data = some frame := by
  induction es using List.reverseRecOn with
  | nil => cases h
  | append_singleton es e ih =>
    rw [transmittedIn, collect_append] at h
    rcases List.mem_append.mp h with h | h
    · exact ih h
    · cases e with
      | reader env => cases h
      | tx msg' =>
        have hcap := (fed_afterRun p d start es).cap
        rw [collect_cons, collect_nil, List.append_nil, transmits] at h
        obtain ⟨ending, part, hsends⟩ := sends_onTx p d (afterRun p d start es) msg'
        have hcounted := hsends.txFrames
        rw [afterRun] at hcounted
        rw [hcounted] at h
        by_cases hending : ending = .counted
        · subst hending
          obtain rfl : msg = msg' := by simpa using h
          obtain ⟨-, hencode⟩ := hsends.allows
          obtain ⟨hfit, hframe⟩ := ModbusFrameCodec.encode_eq_some.mp hencode
          rw [hcap] at hfit
          have hnew : (ModbusFrameCodec.new p.maxFrameLen).maxFrameLen = p.maxFrameLen :=
            max_eq_left p.min_le
          exact ⟨part, ModbusFrameCodec.encode_eq_some.mpr ⟨by rwa [hnew], hframe⟩⟩
        · rw [if_neg hending] at h
          simp at h

end Ds10Node

open Ds10Node

namespace Site

/-- The node after its run. -/
def node (s : Site) : Ds10Node := afterRun s.params s.device s.start s.events

/-- The messages of the calls that were counted. -/
def transmitted (s : Site) : List FrameMsg :=
  transmittedIn s.params s.device s.start s.events

/-- The messages published. -/
def published (s : Site) : List FrameMsg := publishedIn s.params s.device s.start s.events

/-- The bursts read. -/
def bursts (s : Site) : List (List UInt8) := (burstsOf s.params s.device s.start s.events).all

/-- The frame a message goes out as. -/
def frameOf (s : Site) (msg : FrameMsg) : DecodedFrame :=
  ⟨txStation s.params msg, msg.functionCode, msg.data⟩

/-- The bytes of the frame. -/
def rawOf (s : Site) (msg : FrameMsg) : List UInt8 :=
  ((ModbusFrameCodec.new s.params.maxFrameLen).encode (txStation s.params msg) msg.functionCode
    msg.data).getD []

/-- The message a frame is published as, the `k`-th of its node from 0. -/
def heardAs (s : Site) (frame : DecodedFrame) (k : ℕ) : FrameMsg :=
  message s.params frame (UInt32.ofNat (k + 1))

/-- A site's filter lets the frame pass. -/
def Surfaces (s : Site) (frame : DecodedFrame) : Prop :=
  s.params.role = .kSlave → frame.station = s.params.stationId

instance (s : Site) : DecidablePred s.Surfaces := fun _ => inferInstanceAs (Decidable (_ → _))

end Site

/-! ## What is on the air -/

variable {ι : Type*}

/-- The message of a sender is cut off as it was encoded. -/
structure Legible (site : ι → Site) (cap : ℕ) (x : ι × FrameMsg) : Prop where
  encoded : (ModbusFrameCodec.new (site x.1).params.maxFrameLen).encode
    (txStation (site x.1).params x.2) x.2.functionCode x.2.data = some ((site x.1).rawOf x.2)
  station : IsStation (txStation (site x.1).params x.2)
  fits : ((site x.1).rawOf x.2).length ≤ cap
  unambiguous : Unambiguous ((site x.1).rawOf x.2)

/-- A burst is read off the air: whole frames, and at most the beginning of one more. -/
def ReadOff (site : ι → Site) (cap : ℕ) (burst : List UInt8) (group : List (ι × FrameMsg)) :
    Prop :=
  ∃ part, burst = (group.map fun x => (site x.1).rawOf x.2).flatten ++ part ∧
    (part = [] ∨ ∃ x, Legible site cap x ∧ part <+: (site x.1).rawOf x.2 ∧
      part.length < ((site x.1).rawOf x.2).length)

/-- What the radio brings to the port of the site `r`: of what each other site transmitted, some, in
its order. Each frame is one that the receiver cuts off whole: its station is legal, it is not too
long, and no shorter prefix passes the CRC. The bytes read begin anew with a frame in each burst,
and no burst ends inside a frame that arrives. -/
structure Hears [DecidableEq ι] (site : ι → Site) (r : ι) (air : List (ι × FrameMsg)) : Prop where
  carried : ∀ i, ((air.filter fun x => x.1 = i).map Prod.snd).Sublist (site i).transmitted
  other : ∀ x ∈ air, x.1 ≠ r
  legible : ∀ x ∈ air, IsStation (txStation (site x.1).params x.2) ∧
    ((site x.1).rawOf x.2).length ≤ (site r).params.maxFrameLen ∧
    Unambiguous ((site x.1).rawOf x.2)
  read : ∃ groups, groups.flatten = air ∧
    List.Forall₂ (ReadOff site (site r).params.maxFrameLen) (site r).bursts groups

/-- All that is on the air is read in one burst, behind an empty one. -/
theorem exists_groups {site : ι → Site} {s : Site} {cap : ℕ} {air : List (ι × FrameMsg)}
    (hbursts : s.bursts = [[], (air.map fun x => (site x.1).rawOf x.2).flatten]) :
    ∃ groups, groups.flatten = air ∧ List.Forall₂ (ReadOff site cap) s.bursts groups := by
  refine ⟨[[], air], by simp, ?_⟩
  rw [hbursts]
  exact .cons ⟨[], rfl, .inl rfl⟩ (.cons ⟨[], (List.append_nil _).symm, .inl rfl⟩ .nil)

/-- The frames on the air. -/
def airFrames (site : ι → Site) (air : List (ι × FrameMsg)) : List DecodedFrame :=
  air.map fun x => (site x.1).frameOf x.2

section Reading

variable {site : ι → Site} {cap : ℕ} {x : ι × FrameMsg}

theorem Legible.verdict (h : Legible site cap x) :
    frameVerdict cap ((site x.1).rawOf x.2) =
      .take ((site x.1).rawOf x.2).length ((site x.1).frameOf x.2) := by
  obtain ⟨hencode, hst, hfits, hunamb⟩ := h
  have hat := ModbusFrameCodec.frameAt_of_encode hst hencode
  refine verdict_eq_take.mpr ⟨⟨hat.station, hat.min_le, hfits, le_rfl, hat.crc⟩, hunamb, ?_⟩
  exact (ModbusFrameCodec.decodeCandidate_encode hencode).symm

/-- **A burst is cut into the frames that are in it.** -/
theorem scan_readOff {burst : List UInt8} {group : List (ι × FrameMsg)}
    (hgroup : ∀ x ∈ group, Legible site cap x) (h : ReadOff site cap burst group) :
    Piece.outs ((frameScanner cap).scan burst).1 = airFrames site group := by
  obtain ⟨part, rfl, hpart⟩ := h
  have htokens : List.Forall₂ (fun raw f => (frameScanner cap).verdict raw = .take raw.length f)
      (group.map fun x => (site x.1).rawOf x.2) (airFrames site group) := by
    rw [airFrames, List.forall₂_map_left_iff, List.forall₂_map_right_iff, List.forall₂_same]
    intro x hx
    exact (hgroup x hx).verdict
  have hwait : (frameScanner cap).verdict part = .wait := by
    rcases hpart with rfl | ⟨x, hx, hinit, hlt⟩
    · exact (frameScanner cap).verdict_nil
    · exact Scanner.verdict_of_prefix _ hx.verdict hinit hlt
  rw [(frameScanner cap).scan_tokens_append htokens hwait]
  exact Piece.outs_zipWith_token htokens.length_eq

end Reading

theorem airFrames_flatten (site : ι → Site) (groups : List (List (ι × FrameMsg))) :
    airFrames site groups.flatten = groups.flatMap (airFrames site) := by
  rw [airFrames, List.map_flatten, List.flatMap_def]
  rfl

section Receiver

variable [DecidableEq ι] {site : ι → Site} {r : ι} {air : List (ι × FrameMsg)}

theorem Hears.legible_of_mem (h : Hears site r air) {x : ι × FrameMsg} (hx : x ∈ air) :
    Legible site (site r).params.maxFrameLen x := by
  obtain ⟨hst, hfits, hunamb⟩ := h.legible x hx
  have hmem : x.2 ∈ (site x.1).transmitted := by
    refine (h.carried x.1).subset (List.mem_map_of_mem ?_)
    simp [hx]
  obtain ⟨frame, hframe⟩ := encode_of_transmitted hmem
  refine ⟨?_, hst, hfits, hunamb⟩
  rw [Site.rawOf, hframe]
  rfl

/-- What was decoded are the first frames on the air, and all of them when no chunk is in flight. -/
theorem decoded_air (h : Hears site r air) :
    decodedIn (site r).params (site r).device (site r).start (site r).events <+:
        airFrames site air ∧
      ((site r).node.inFlight = [] →
        decodedIn (site r).params (site r).device (site r).start (site r).events =
          airFrames site air) := by
  obtain ⟨groups, rfl, hread⟩ := h.read
  have hframes : (site r).bursts.flatMap (framesOf (site r).params) =
      airFrames site groups.flatten := by
    have hlegible : ∀ group ∈ groups, ∀ x ∈ group,
        Legible site (site r).params.maxFrameLen x := by
      intro group hgroup x hx
      exact h.legible_of_mem (List.mem_flatten_of_mem hgroup hx)
    rw [airFrames_flatten]
    clear h
    -- Each burst on its own.
    generalize (site r).bursts = bursts at hread ⊢
    induction hread with
    | nil => rfl
    | @cons burst group bursts groups hburst _ ih =>
      rw [List.flatMap_cons, List.flatMap_cons,
        ih fun g hg => hlegible g (List.mem_cons_of_mem group hg)]
      exact congrArg (· ++ _) (scan_readOff (hlegible group List.mem_cons_self) hburst)
  obtain ⟨fed, hcurrent, -, hdecoded⟩ :=
    (fed_afterRun (site r).params (site r).device (site r).start (site r).events).read
  rw [Site.bursts, Bursts.all, List.flatMap_append, List.flatMap_singleton, hcurrent] at hframes
  rw [hdecoded, ← hframes]
  constructor
  · -- What is in flight can only add frames.
    rw [List.prefix_append_right_inj]
    show framesOf _ fed <+: framesOf _ (fed ++ _)
    rw [framesOf, framesOf, Scanner.scan_append, Piece.outs_append]
    exact List.prefix_append _ _
  · intro hidle
    rw [show inFlight (afterRun _ _ _ _) = [] from hidle, List.append_nil]

/-- What the node at `r` publishes of what is on the air. -/
def heard (site : ι → Site) (r : ι) (air : List (ι × FrameMsg)) : List FrameMsg :=
  ((airFrames site air).filter fun f => (site r).Surfaces f).mapIdx fun k f => (site r).heardAs f k

theorem prefix_heard (h : Hears site r air) :
    (site r).published <+: heard site r air ∧
      ((site r).node.inFlight = [] → (site r).published = heard site r air) := by
  obtain ⟨hinit, hall⟩ := decoded_air h
  have hpublished :=
    (published_afterRun (site r).params (site r).device (site r).start (site r).events).published_eq
  constructor
  · obtain ⟨more, hmore⟩ := hinit
    rw [heard, ← hmore, List.filter_append, List.mapIdx_append, Site.published, hpublished]
    exact List.prefix_append _ _
  · intro hidle
    rw [heard, ← hall hidle, Site.published, hpublished]
    rfl

/-- **What a node publishes of what is on the air**, where it hears all of it: the frames that pass
its filter, in order and numbered from 1, with the function code and the data of the message sent;
so far no others, and all of them when no chunk is in flight. -/
theorem published_air (h : Hears site r air) :
    (site r).published <+: heard site r air ∧
      ((site r).node.inFlight = [] →
        (site r).published = heard site r air ∧
          (site r).node.rxFrames + (site r).node.rxFiltered = air.length) := by
  obtain ⟨hinit, hall⟩ := prefix_heard h
  refine ⟨hinit, ?_⟩
  intro hidle
  refine ⟨hall hidle, ?_⟩
  have hframes :=
    (published_afterRun (site r).params (site r).device (site r).start (site r).events).frames
  rw [(decoded_air h).2 hidle, airFrames, List.length_map] at hframes
  exact hframes

end Receiver

/-! ## A star -/

/-- A master and its slaves, each with a station of its own. -/
structure StarNetwork (ι : Type*) where
  master : Site
  slave : ι → Site
  master_role : master.params.role = .kMaster
  slave_role : ∀ i, (slave i).params.role = .kSlave
  stations : Function.Injective fun i => (slave i).params.stationId

/-- What a message says. -/
def FrameMsg.content (msg : FrameMsg) : UInt8 × List UInt8 := (msg.functionCode, msg.data)

namespace StarNetwork

variable (N : StarNetwork ι)

/-- The sites of a star; the master has no index. -/
def site : Option ι → Site
  | none => N.master
  | some i => N.slave i

/-- The station of a slave. -/
def station (i : ι) : UInt8 := (N.slave i).params.stationId

variable {N}

/-- Numbering does not touch what is kept or said of the elements. -/
theorem map_filter_mapIdx {α β γ : Type*} (l : List α) (f : ℕ → α → β) (keep : β → Bool)
    (say : β → γ) (keep' : α → Bool) (say' : α → γ) (hkeep : ∀ k a, keep (f k a) = keep' a)
    (hsay : ∀ k a, say (f k a) = say' a) :
    ((l.mapIdx f).filter keep).map say = (l.filter keep').map say' := by
  induction l using List.reverseRecOn with
  | nil => rfl
  | append_singleton l a ih =>
    rw [List.mapIdx_append, List.filter_append, List.map_append, ih, List.filter_append,
      List.map_append]
    refine congrArg _ ?_
    rw [List.mapIdx_singleton, List.filter_singleton, List.filter_singleton, hkeep]
    cases keep' a with
    | true => exact congrArg (fun c => [c]) (hsay _ a)
    | false => rfl

section Faithful

variable {air : List (Option ι × FrameMsg)} {i : ι}

theorem content_heard (site : Option ι → Site) (r : Option ι) (keep : FrameMsg → Bool)
    (keep' : DecodedFrame → Bool) (hkeep : ∀ k f, keep ((site r).heardAs f k) = keep' f) :
    ((heard site r air).filter keep).map FrameMsg.content =
      ((airFrames site air).filter fun f => decide ((site r).Surfaces f) && keep' f).map
        fun f => (f.functionCode, f.data) := by
  rw [heard, map_filter_mapIdx _ _ keep FrameMsg.content keep'
    (fun f => (f.functionCode, f.data)) hkeep fun _ _ => rfl, List.filter_filter]
  simp only [Bool.and_comm]

variable [DecidableEq ι]

/-- The messages of a site on the air are some of those it transmitted. -/
theorem sublist_transmitted {site : Option ι → Site} {r : Option ι} (h : Hears site r air)
    (s : Option ι) (keep : FrameMsg → Bool) :
    ((airFrames site (air.filter fun x => decide (x.1 = s) && keep x.2)).map
        fun f => (f.functionCode, f.data)).Sublist
      (((site s).transmitted.filter keep).map FrameMsg.content) := by
  have hsub := ((h.carried s).filter keep).map FrameMsg.content
  rw [List.filter_map, List.filter_filter, List.map_map] at hsub
  rw [airFrames, List.map_map]
  refine Eq.subst (motive := fun l => List.Sublist l _) ?_ hsub
  refine congrArg₂ List.map ?_ (List.filter_congr ?_)
  · rfl
  · intro x _
    exact Bool.and_comm _ _

/-- The master publishes every frame on the air; those of a slave bear its station. -/
theorem heard_master (h : Hears N.site none air) (i : ι) :
    ((heard N.site none air).filter fun m => decide (m.stationId = N.station i)).map
        FrameMsg.content =
      (airFrames N.site (air.filter fun x => decide (x.1 = some i) && true)).map
        fun f => (f.functionCode, f.data) := by
  have hrole : N.master.params.role = .kMaster := N.master_role
  rw [content_heard N.site none _ fun f => decide (f.station = N.station i)]
  · rw [airFrames, List.filter_map, airFrames]
    refine congrArg _ (congrArg _ (List.filter_congr ?_))
    rintro ⟨_ | j, msg⟩ hx
    · exact absurd rfl (h.other _ hx)
    · have hsurfaces : (N.site none).Surfaces ((N.site (some j)).frameOf msg) := by
        intro hslave
        cases hrole.symm.trans hslave
      have hstation : ((N.site (some j)).frameOf msg).station = N.station j := by
        show txStation (N.slave j).params msg = _
        rw [txStation, if_pos (N.slave_role j)]
        rfl
      rw [Function.comp_apply, decide_eq_true hsurfaces, Bool.true_and, Bool.and_true,
        decide_eq_decide, hstation, Option.some_inj]
      exact ⟨fun heq => N.stations heq, congrArg _⟩
  · intro k f
    rw [Site.heardAs, message, if_pos (show (N.site none).params.role = .kMaster from hrole)]

/-- A slave publishes the frames of the master that bear its station; those of other slaves bear
other ones. -/
theorem heard_slave (h : Hears N.site (some i) air) :
    ((heard N.site (some i) air).filter fun _ => true).map FrameMsg.content =
      (airFrames N.site (air.filter fun x =>
        decide (x.1 = none) && decide (x.2.stationId = N.station i))).map
        fun f => (f.functionCode, f.data) := by
  rw [content_heard N.site (some i) _ fun _ => true]
  · rw [airFrames, List.filter_map, airFrames]
    refine congrArg _ (congrArg _ (List.filter_congr ?_))
    rintro ⟨_ | j, msg⟩ hx
    · have hstation : ((N.site none).frameOf msg).station = msg.stationId := by
        have hnot : ¬ N.master.params.role = .kSlave := by
          rw [N.master_role]
          decide
        exact if_neg hnot
      rw [Function.comp_apply, Bool.and_true, decide_eq_true rfl, Bool.true_and, decide_eq_decide,
        Site.Surfaces, hstation]
      exact ⟨fun hpass => hpass (N.slave_role i), fun heq _ => heq⟩
    · have hne : j ≠ i := fun heq => h.other _ hx (congrArg some heq)
      have hstation : ((N.site (some j)).frameOf msg).station = N.station j := by
        show txStation (N.slave j).params msg = _
        rw [txStation, if_pos (N.slave_role j)]
        rfl
      have hnot : ¬ (N.site (some i)).Surfaces ((N.site (some j)).frameOf msg) := by
        intro hpass
        have heq := hpass (N.slave_role i)
        rw [hstation] at heq
        exact hne (N.stations heq)
      rw [Function.comp_apply, decide_eq_false hnot]
      rfl
  · exact fun _ _ => rfl

/-- What the master publishes with the station of a slave, that slave has transmitted. -/
theorem upstream (h : Hears N.site none air) (i : ι) :
    ((N.master.published.filter fun m => m.stationId = N.station i).map
      FrameMsg.content).Sublist ((N.slave i).transmitted.map FrameMsg.content) := by
  have hheard := ((prefix_heard h).1.filter fun m => decide (m.stationId = N.station i)).map
    FrameMsg.content
  have hsub := sublist_transmitted h (some i) fun _ => true
  rw [List.filter_true] at hsub
  rw [heard_master h] at hheard
  exact hheard.sublist.trans hsub

/-- What a slave publishes, the master has transmitted to it. -/
theorem downstream (h : Hears N.site (some i) air) :
    ((N.slave i).published.map FrameMsg.content).Sublist
      ((N.master.transmitted.filter fun m => m.stationId = N.station i).map
        FrameMsg.content) := by
  have hheard := ((prefix_heard h).1.filter fun _ => true).map FrameMsg.content
  rw [heard_slave h, List.filter_true] at hheard
  exact hheard.sublist.trans
    (sublist_transmitted h none fun m => decide (m.stationId = N.station i))

/-- What the master publishes bears the station of a slave. -/
theorem exists_station (h : Hears N.site none air) {msg : FrameMsg}
    (hmsg : msg ∈ N.master.published) : ∃ i, msg.stationId = N.station i := by
  obtain ⟨k, hk, rfl⟩ := List.mem_mapIdx.mp ((prefix_heard h).1.subset hmsg)
  obtain ⟨⟨_ | i, sent⟩, hx, hframe⟩ :=
    List.mem_map.mp (List.mem_of_mem_filter (List.getElem_mem hk))
  · exact absurd rfl (h.other _ hx)
  · refine ⟨i, ?_⟩
    rw [← hframe, Site.heardAs, message, if_pos (show (N.site none).params.role = .kMaster from
      N.master_role)]
    show txStation (N.slave i).params sent = _
    rw [txStation, if_pos (N.slave_role i)]
    rfl

/-- **Who hears whom in a star**, in every run of its nodes, whatever the radio loses and however
the frames of the slaves mix, where each node hears what is on the air for it: what the master
publishes with the station of a slave are messages that this slave transmitted, in its order; what a
slave publishes are messages that the master transmitted to it, in its order. None is heard twice,
and none with another content. -/
theorem faithful (N : StarNetwork ι) (air : Option ι → List (Option ι × FrameMsg))
    (h : ∀ r, Hears N.site r (air r)) (i : ι) :
    ((N.master.published.filter fun m => m.stationId = N.station i).map
        FrameMsg.content).Sublist ((N.slave i).transmitted.map FrameMsg.content) ∧
      ((N.slave i).published.map FrameMsg.content).Sublist
        ((N.master.transmitted.filter fun m => m.stationId = N.station i).map
          FrameMsg.content) :=
  ⟨upstream (h none) i, downstream (h (some i))⟩

end Faithful

/-! ## A star with two slaves -/

/-- A device that takes what it is asked to. -/
def promptDevice : Device where
  write _ request := ⟨request.length, .eagain⟩
  write_le _ _ := le_rfl
  settledFrom := 0
  settled _ request _ := by
    have hnot : ¬ ((request.length : ℤ) < 0) := by omega
    simp [SysWrite.isTransient, hnot]

/-- A site that opens its port, transmits messages and reads what is there. -/
def briefSite (p : NodeParams) (msgs : List FrameMsg) (chunk : List UInt8) : Site where
  params := p
  device := promptDevice
  start := 0
  events :=
    .reader ⟨.opened, .bytes [], 0⟩ :: msgs.map .tx ++
      [.reader ⟨.opened, .bytes chunk, 0⟩, .reader ⟨.opened, .bytes [], 0⟩]

/-- The parameters of a master at a port. -/
def masterAt (port : String) : NodeParams :=
  { port := port, baud := 115200, role := .kMaster, stationId := 0, frameTimeoutMs := 20,
    maxFrameLen := 4095, isStation := by decide, min_le := by decide, le_max := by decide }

/-- The parameters of a slave at a port. -/
def slaveAt (port : String) (station : UInt8) (h : IsStation station) : NodeParams :=
  { port := port, baud := 115200, role := .kSlave, stationId := station, frameTimeoutMs := 20,
    maxFrameLen := 4095, isStation := fun _ => h, min_le := by decide, le_max := by decide }

/-- The master sends `hi` to the slave 5 and `ok` to the slave 7, and each sends it a request
without data. The first hears everything, the second only what is for it. -/
def trio : StarNetwork Bool where
  master :=
    briefSite (masterAt "/dev/ttyUSB0")
      [{ stationId := 5, functionCode := 0x10, data := [0x68, 0x69] },
        { stationId := 7, functionCode := 0x10, data := [0x6F, 0x6B] }]
      [0x07, 0x04, 0x02, 0x43, 0x05, 0x03, 0x42, 0xE1]
  slave
    | false =>
      briefSite (slaveAt "/dev/ttyUSB1" 5 (by decide)) [{ functionCode := 0x03, data := [] }]
        [0x05, 0x10, 0x68, 0x69, 0xEE, 0xC3, 0x07, 0x04, 0x02, 0x43, 0x07, 0x10, 0x6F, 0x6B, 0x6C,
          0x8A]
    | true =>
      briefSite (slaveAt "/dev/ttyUSB2" 7 (by decide)) [{ functionCode := 0x04, data := [] }]
        [0x07, 0x10, 0x6F, 0x6B, 0x6C, 0x8A]
  master_role := rfl
  slave_role := by decide
  stations := by decide

/-- What is on the air for each of the three. -/
def trioAir : Option Bool → List (Option Bool × FrameMsg)
  | none =>
    [(some true, { functionCode := 0x04, data := [] }),
      (some false, { functionCode := 0x03, data := [] })]
  | some false =>
    [(none, { stationId := 5, functionCode := 0x10, data := [0x68, 0x69] }),
      (some true, { functionCode := 0x04, data := [] }),
      (none, { stationId := 7, functionCode := 0x10, data := [0x6F, 0x6B] })]
  | some true => [(none, { stationId := 7, functionCode := 0x10, data := [0x6F, 0x6B] })]

theorem hears_trio (r : Option Bool) : Hears trio.site r (trioAir r) := by
  have hall : (∀ i, (((trioAir r).filter fun x => x.1 = i).map Prod.snd).Sublist
        (trio.site i).transmitted) ∧ (∀ x ∈ trioAir r, x.1 ≠ r) ∧
      (∀ x ∈ trioAir r, IsStation (txStation (trio.site x.1).params x.2) ∧
        ((trio.site x.1).rawOf x.2).length ≤ (trio.site r).params.maxFrameLen ∧
        Unambiguous ((trio.site x.1).rawOf x.2)) ∧
      (trio.site r).bursts =
        [[], ((trioAir r).map fun x => (trio.site x.1).rawOf x.2).flatten] := by
    revert r
    decide +kernel
  obtain ⟨hcarried, hother, hlegible, hbursts⟩ := hall
  exact ⟨hcarried, hother, hlegible, exists_groups hbursts⟩

/-- The second slave and the master hear each other, and the frames of the two slaves are told
apart, as are those for them. -/
theorem faithful_trio :
    (((trio.master.published.filter fun m => m.stationId = trio.station true).map
          FrameMsg.content).Sublist ((trio.slave true).transmitted.map FrameMsg.content) ∧
        ((trio.slave true).published.map FrameMsg.content).Sublist
          ((trio.master.transmitted.filter fun m => m.stationId = trio.station true).map
            FrameMsg.content)) ∧
      trio.master.published.map (fun m => (m.stationId, m.functionCode)) = [(7, 4), (5, 3)] ∧
      (trio.slave false).published.map FrameMsg.data = [[0x68, 0x69]] ∧
      (trio.slave true).published.map FrameMsg.data = [[0x6F, 0x6B]] :=
  ⟨faithful trio trioAir hears_trio true, by decide +kernel, by decide +kernel, by decide +kernel⟩

end StarNetwork

/-- The first slave has published what is on the air and is for it. -/
theorem published_air_trio :
    (StarNetwork.trio.slave false).published =
      heard StarNetwork.trio.site (some false) (StarNetwork.trioAir (some false)) :=
  ((published_air (StarNetwork.hears_trio (some false))).2 (by decide +kernel)).1

end Ds10Driver

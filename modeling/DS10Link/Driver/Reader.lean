import DS10Link.Driver.Accounting
import DS10Link.Driver.Node

/-!
# What the reader makes of what it reads

The bytes the reader thread reads fall into bursts: a successful open starts a new one, and so does
the flush after a silence. On a failed read the codec keeps what it holds back, and the flag that
says so stays with it; both go at the next successful open. So a frame never spans two bursts, and
at all times the bytes read are those of the frames, the dropped ones and the buffered ones.

## Main definitions

* `Ds10Node.Bursts`: the bytes read, cut where the port was opened or a silence was noticed
* `Ds10Node.ReadIn c burst ps`: the burst is read as the pieces `ps`
* `Ds10Node.Reception`: what holds of the reader at all times

## Main results

* `Ds10Node.Fed.step`, `Ds10Node.Published.step`: every block keeps the account
* `Ds10Node.reception_afterRun`: the account after every run
-/

open Automaton

namespace Ds10Driver

namespace Ds10Node

/-! ## The record of a run -/

/-- The bytes a block reads. -/
def bytesRead (n : Ds10Node) : Event → List UInt8
  | .reader env =>
    match n.reader with
    | .toRead => (n.serial.read env.reading).2.2
    | _ => []
  | .tx _ => []

/-- The frames a block decodes. -/
def decodes (n : Ds10Node) : Event → List DecodedFrame
  | .reader _ =>
    match n.reader with
    | .toHandle chunk => if chunk ≠ [] then (n.codec.feed chunk).2 else []
    | _ => []
  | .tx _ => []

/-- A block that opens the port, or an empty read that ends the burst. -/
def cutsBurst (p : NodeParams) (n : Ds10Node) : Event → Bool
  | .reader env =>
    match n.reader with
    | .loopHead => !n.connected && (n.serial.openDevice p.port p.baud env.opening).2
    | .toHandle chunk => decide (chunk = []) && n.endsBurst p env.now
    | _ => false
  | .tx _ => false

/-- The bursts of a run: those that are over and the current one. -/
structure Bursts where
  past : List (List UInt8) := []
  current : List UInt8 := []

/-- The bursts, in order. -/
def Bursts.all (b : Bursts) : List (List UInt8) := b.past ++ [b.current]

/-- The bursts after one more block. -/
def Bursts.extend (p : NodeParams) (b : Bursts) (n : Ds10Node) (e : Event) : Bursts :=
  if n.cutsBurst p e then { past := b.past ++ [b.current] }
  else { b with current := b.current ++ n.bytesRead e }

/-- The burst is cut from its front into the pieces `ps` and a rest, and every frame among them is
where its encoding is. -/
def ReadIn (c : ModbusFrameCodec) (burst : List UInt8) (ps : List (Piece UInt8 DecodedFrame)) :
    Prop :=
  (∃ rest, ps.flatMap Piece.raw ++ rest = burst) ∧
    ∀ raw f, .token raw f ∈ ps → c.encode f.station f.functionCode f.data = some raw

/-- **What holds of the reader**, given the bursts it read, the bytes it read, the frames it decoded
and the messages it published: each frame lies within a burst, the flag says whether bytes are held
back, every byte and every frame is accounted for, and what is published are the frames that pass
the filter, in order and numbered. -/
structure Reception (p : NodeParams) (n : Ds10Node) (bursts : List (List UInt8))
    (received : List UInt8) (decoded : List DecodedFrame) (published : List FrameMsg) : Prop where
  bursts_flatten : bursts.flatten = received
  within_burst : ∃ readings, List.Forall₂ (ReadIn (.new p.maxFrameLen)) bursts readings ∧
    decoded = readings.flatMap Piece.outs
  havePending_eq : n.havePending = decide (0 < n.codec.buffered)
  bytes : n.reader = .loopHead → received.length =
    (decoded.map fun f => 4 + f.data.length).sum + n.codec.resyncDropped + n.codec.buffered
  frames : n.rxFrames + n.rxFiltered = decoded.length
  published_eq : published =
    (decoded.filter fun f => p.role = .kSlave → f.station = p.stationId).mapIdx fun i f =>
      message p f (UInt32.ofNat (i + 1))

variable {p : NodeParams} {n n' : Ds10Node} {b : Bursts} {decoded : List DecodedFrame}

/-! ## Bytes and frames -/

/-- The bytes that have been read and not yet handled; none at the head of the loop. -/
def inFlight (n : Ds10Node) : List UInt8 :=
  match n.reader with
  | .toHandle chunk => chunk
  | _ => []

/-- The frames in a burst. -/
def framesOf (p : NodeParams) (burst : List UInt8) : List DecodedFrame :=
  Piece.outs ((frameScanner p.maxFrameLen).scan burst).1

/-- The codec has read the current burst, as far as it was handled. -/
structure Fed (p : NodeParams) (n : Ds10Node) (b : Bursts) (decoded : List DecodedFrame) :
    Prop where
  cap : n.codec.maxFrameLen = p.maxFrameLen
  read : ∃ fed, b.current = fed ++ n.inFlight ∧
    n.codec.buffer = ((frameScanner p.maxFrameLen).scan fed).2 ∧
    decoded = b.past.flatMap (framesOf p) ++ framesOf p fed
  havePending_eq : n.havePending = decide (0 < n.codec.buffered)
  bytes : b.all.flatten.length = (decoded.map fun f => 4 + f.data.length).sum +
    n.codec.resyncDropped + n.codec.buffered + n.inFlight.length

theorem fed_new (p : NodeParams) (start : ℤ) : Fed p (new p start) {} [] where
  cap := max_eq_left p.min_le
  read := by
    have hscan := (frameScanner p.maxFrameLen).scan_of_wait (frameScanner _).verdict_nil
    exact ⟨[], rfl, by rw [hscan]; rfl, by rw [framesOf, hscan]; rfl⟩
  havePending_eq := rfl
  bytes := rfl

/-- Nothing that concerns the codec happens. -/
theorem Fed.quiet (h : Fed p n b decoded) (hcodec : n'.codec = n.codec)
    (hpending : n'.havePending = n.havePending) (hflight : n'.inFlight = n.inFlight) :
    Fed p n' b decoded where
  cap := by rw [hcodec, h.cap]
  read := by rw [hcodec, hflight]; exact h.read
  havePending_eq := by rw [hcodec, hpending, h.havePending_eq]
  bytes := by rw [hcodec, hflight, h.bytes]

/-- A chunk arrives. -/
theorem Fed.arrive (h : Fed p n b decoded) (hcodec : n'.codec = n.codec)
    (hpending : n'.havePending = n.havePending) (hidle : n.inFlight = []) :
    Fed p n' { b with current := b.current ++ n'.inFlight } decoded where
  cap := by rw [hcodec, h.cap]
  read := by
    obtain ⟨fed, hcurrent, hbuffer, hdecoded⟩ := h.read
    rw [hidle, List.append_nil] at hcurrent
    exact ⟨fed, by rw [hcurrent], by rw [hcodec, hbuffer], hdecoded⟩
  havePending_eq := by rw [hcodec, hpending, h.havePending_eq]
  bytes := by
    have hbytes := h.bytes
    simp only [Bursts.all, List.flatten_append, List.flatten_singleton, List.length_append, hidle,
      hcodec, List.length_nil] at hbytes ⊢
    omega

/-- A burst ends and what the codec holds back is dropped. -/
theorem Fed.cut (h : Fed p n b decoded) (hcodec : n'.codec = n.codec.flushPartial)
    (hpending : n'.havePending = false) (hidle : n.inFlight = []) (hidle' : n'.inFlight = []) :
    Fed p n' { past := b.past ++ [b.current] } decoded where
  cap := by rw [hcodec, ModbusFrameCodec.flushPartial_maxFrameLen, h.cap]
  read := by
    obtain ⟨fed, hcurrent, -, hdecoded⟩ := h.read
    rw [hidle, List.append_nil] at hcurrent
    have hscan := (frameScanner p.maxFrameLen).scan_of_wait (frameScanner _).verdict_nil
    refine ⟨[], by rw [hidle']; rfl, by rw [hcodec, hscan]; rfl, ?_⟩
    have hnone : framesOf p [] = [] := by rw [framesOf, hscan]; rfl
    rw [List.flatMap_append, List.flatMap_singleton, hcurrent, hnone, List.append_nil, hdecoded]
  havePending_eq := by rw [hcodec, hpending]; rfl
  bytes := by
    have hbytes := h.bytes
    simp only [Bursts.all, List.flatten_append, List.flatten_singleton, List.length_append, hidle,
      hidle', hcodec, List.length_nil, ModbusFrameCodec.buffered,
      ModbusFrameCodec.flushPartial_resyncDropped, ModbusFrameCodec.flushPartial_buffer] at hbytes ⊢
    omega

/-- The codec is fed with the chunk that was read. -/
theorem Fed.feed (h : Fed p n b decoded) (hcodec : n'.codec = (n.codec.feed n.inFlight).1)
    (hpending : n'.havePending = decide (0 < (n.codec.feed n.inFlight).1.buffered))
    (hidle : n'.inFlight = []) : Fed p n' b (decoded ++ (n.codec.feed n.inFlight).2) where
  cap := by rw [hcodec, ModbusFrameCodec.maxFrameLen_feed, h.cap]
  read := by
    obtain ⟨fed, hcurrent, hbuffer, hdecoded⟩ := h.read
    -- The scan of the burst resumes at what the codec holds back.
    have hscan := (frameScanner p.maxFrameLen).scan_append fed n.inFlight
    rw [← hbuffer] at hscan
    refine ⟨b.current, by rw [hidle, List.append_nil], ?_, ?_⟩
    · rw [hcodec, ModbusFrameCodec.buffer_feed, h.cap, hcurrent, hscan]
    · rw [ModbusFrameCodec.frames_feed, h.cap, hdecoded, framesOf, framesOf, hcurrent, hscan,
        Piece.outs_append, List.append_assoc]
  havePending_eq := by rw [hcodec, hpending]
  bytes := by
    have hfeed := n.codec.length_feed n.inFlight
    rw [h.bytes, hcodec, hidle, List.map_append, List.sum_append, List.length_nil]
    omega

/-! ## Frames and messages -/

/-- The frames that pass the filter. -/
def surfaced (p : NodeParams) (frames : List DecodedFrame) : List DecodedFrame :=
  frames.filter fun f => p.role = .kSlave → f.station = p.stationId

theorem surfaced_append_singleton (p : NodeParams) (frames : List DecodedFrame)
    (frame : DecodedFrame) :
    surfaced p (frames ++ [frame]) =
      if p.role = .kSlave → frame.station = p.stationId then surfaced p frames ++ [frame]
      else surfaced p frames := by
  rw [surfaced, List.filter_append, List.filter_cons, List.filter_nil]
  simp only [decide_eq_true_eq]
  split <;> simp [surfaced]

/-- The counters and the messages published, for the frames decoded. -/
structure Published (p : NodeParams) (n : Ds10Node) (decoded : List DecodedFrame)
    (published : List FrameMsg) : Prop where
  rxFrames_eq : n.rxFrames = (surfaced p decoded).length
  frames : n.rxFrames + n.rxFiltered = decoded.length
  rxSeq_eq : n.rxSeq = UInt32.ofNat n.rxFrames
  published_eq : published =
    (surfaced p decoded).mapIdx fun i f => message p f (UInt32.ofNat (i + 1))

variable {published : List FrameMsg}

theorem Published.quiet (h : Published p n decoded published) (hframes : n'.rxFrames = n.rxFrames)
    (hfiltered : n'.rxFiltered = n.rxFiltered) (hseq : n'.rxSeq = n.rxSeq) :
    Published p n' decoded published where
  rxFrames_eq := by rw [hframes, h.rxFrames_eq]
  frames := by rw [hframes, hfiltered, h.frames]
  rxSeq_eq := by rw [hseq, hframes, h.rxSeq_eq]
  published_eq := h.published_eq

theorem Published.publishFrame (h : Published p n decoded published) (frame : DecodedFrame) :
    Published p (publishFrame p n frame).1 (decoded ++ [frame])
      (published ++ (publishFrame p n frame).2) := by
  by_cases hpass : p.role = .kSlave → frame.station = p.stationId
  · -- The frame passes: one more message, with the next number.
    have hsurfaced : surfaced p (decoded ++ [frame]) = surfaced p decoded ++ [frame] := by
      rw [surfaced_append_singleton, if_pos hpass]
    have hkeep : ¬ (p.role = .kSlave ∧ frame.station ≠ p.stationId) := fun ⟨hrole, hne⟩ =>
      hne (hpass hrole)
    have hseq : n.rxSeq + 1 = UInt32.ofNat (n.rxFrames + 1) := by
      rw [h.rxSeq_eq, UInt32.ofNat_add]
      rfl
    rw [Ds10Node.publishFrame, if_neg hkeep]
    constructor
    · rw [hsurfaced, List.length_append, ← h.rxFrames_eq]
      rfl
    · have hframes := h.frames
      simp only [List.length_append, List.length_singleton]
      omega
    · exact hseq
    · rw [hsurfaced, List.mapIdx_append, ← h.published_eq, List.mapIdx_singleton, hseq,
        h.rxFrames_eq, Nat.zero_add]
  · have hsurfaced : surfaced p (decoded ++ [frame]) = surfaced p decoded := by
      rw [surfaced_append_singleton, if_neg hpass]
    have hdrop : p.role = .kSlave ∧ frame.station ≠ p.stationId := Classical.not_imp.mp hpass
    rw [Ds10Node.publishFrame, if_pos hdrop]
    constructor
    · rw [hsurfaced, ← h.rxFrames_eq]
    · have hframes := h.frames
      simp only [List.length_append, List.length_singleton]
      omega
    · exact h.rxSeq_eq
    · rw [hsurfaced, List.append_nil, h.published_eq]

theorem Published.publishFrames (h : Published p n decoded published)
    (frames : List DecodedFrame) :
    Published p (publishFrames p n frames).1 (decoded ++ frames)
      (published ++ (publishFrames p n frames).2) := by
  induction frames generalizing n decoded published with
  | nil => simpa [Ds10Node.publishFrames] using h
  | cons frame frames ih =>
    have hrest := ih (h.publishFrame frame)
    rw [List.append_assoc, List.append_assoc] at hrest
    exact hrest

/-! ## Every block keeps the account -/

theorem Bursts.extend_tx (b : Bursts) (n : Ds10Node) (msg : FrameMsg) :
    b.extend p n (.tx msg) = b := by
  simp [extend, cutsBurst, bytesRead]

theorem Bursts.extend_reader (b : Bursts) (n : Ds10Node) (env : Env) :
    b.extend p n (.reader env) =
      match n.reader with
      | .loopHead =>
        if !n.connected && (n.serial.openDevice p.port p.baud env.opening).2 then
          { past := b.past ++ [b.current] }
        else b
      | .toRead => { b with current := b.current ++ (n.serial.read env.reading).2.2 }
      | .toClose => b
      | .toHandle chunk =>
        if decide (chunk = []) && n.endsBurst p env.now then { past := b.past ++ [b.current] }
        else b := by
  rcases hreader : n.reader with _ | _ | _ | chunk <;>
    simp only [extend, cutsBurst, bytesRead, hreader, List.append_nil, Bool.false_eq_true, if_false]

theorem inFlight_of_ne (h : ∀ chunk, n.reader ≠ .toHandle chunk) : n.inFlight = [] := by
  unfold inFlight
  split
  · next chunk hreader => exact absurd hreader (h chunk)
  · rfl

theorem Fed.connect (h : Fed p n b decoded) (hreader : n.reader = .loopHead) (r : SysOpen) :
    Fed p (n.connect p r)
      (if (n.serial.openDevice p.port p.baud r).2 then { past := b.past ++ [b.current] } else b)
      decoded := by
  have hidle : n.inFlight = [] := inFlight_of_ne (by simp [hreader])
  cases hopen : (n.serial.openDevice p.port p.baud r).2 with
  | true =>
    simp only [Ds10Node.connect, hopen, if_true]
    exact h.cut rfl rfl hidle rfl
  | false =>
    simp only [Ds10Node.connect, hopen, Bool.false_eq_true, if_false]
    exact h.quiet rfl rfl rfl

theorem Fed.poll (h : Fed p n b decoded) (hreader : n.reader = .toRead) (r : SysRead) :
    Fed p (n.poll r) { b with current := b.current ++ (n.serial.read r).2.2 } decoded := by
  have hidle : n.inFlight = [] := inFlight_of_ne (by simp [hreader])
  cases hstatus : (n.serial.read r).2.1 with
  | kOk =>
    simp only [Ds10Node.poll, hstatus]
    exact h.arrive rfl rfl hidle
  | kDisconnected =>
    simp only [Ds10Node.poll, hstatus, SerialPort.read_of_disconnected hstatus, List.append_nil]
    exact h.quiet rfl rfl hidle.symm

theorem Fed.handle (h : Fed p n b decoded) {chunk : List UInt8}
    (hreader : n.reader = .toHandle chunk) (now : ℤ) :
    Fed p (n.handle p chunk now).1
      (if decide (chunk = []) && n.endsBurst p now then { past := b.past ++ [b.current] } else b)
      (decoded ++ if chunk ≠ [] then (n.codec.feed chunk).2 else []) := by
  have hflight : n.inFlight = chunk := by rw [inFlight, hreader]
  by_cases hchunk : chunk = []
  · have hidle : n.inFlight = [] := hflight.trans hchunk
    cases hends : n.endsBurst p now with
    | true =>
      simp only [Ds10Node.handle, hchunk, hends, ne_eq, not_true_eq_false, if_false, if_true,
        decide_true, Bool.and_true, List.append_nil]
      exact h.cut rfl rfl hidle rfl
    | false =>
      simp only [Ds10Node.handle, hchunk, hends, ne_eq, not_true_eq_false, if_false,
        Bool.and_false, Bool.false_eq_true, List.append_nil]
      exact h.quiet rfl rfl hidle.symm
  · simp only [Ds10Node.handle, hchunk, ne_eq, not_false_eq_true, if_true, decide_false,
      Bool.false_and, Bool.false_eq_true, if_false]
    rw [← hflight]
    obtain ⟨rxFrames, rxFiltered, rxSeq, hpublish⟩ := publishFrames_eq p
      { n with codec := (n.codec.feed n.inFlight).1 } (n.codec.feed n.inFlight).2
    refine h.feed ?_ rfl rfl
    rw [hpublish]

theorem Fed.step (h : Fed p n b decoded) (d : Device) (e : Event) :
    Fed p (step p d n e).1 (b.extend p n e) (decoded ++ n.decodes e) := by
  cases e with
  | tx msg =>
    obtain ⟨serial, txFrames, txRejected, htx⟩ := onTx_eq p d n msg
    simp only [Ds10Node.step, htx, Bursts.extend_tx, decodes, List.append_nil]
    exact h.quiet rfl rfl rfl
  | reader env =>
    simp only [Ds10Node.step, readerBlock, Bursts.extend_reader, decodes]
    rcases hreader : n.reader with _ | _ | _ | chunk
    · rw [List.append_nil]
      cases hconn : n.connected with
      | true => exact h.quiet rfl rfl (inFlight_of_ne (by simp [hreader])).symm
      | false => exact h.connect hreader env.opening
    · rw [List.append_nil]
      exact h.poll hreader env.reading
    · rw [List.append_nil]
      exact h.quiet rfl rfl (inFlight_of_ne (by simp [hreader])).symm
    · exact h.handle hreader env.now

theorem Published.handle (h : Published p n decoded published) (chunk : List UInt8) (now : ℤ) :
    Published p (n.handle p chunk now).1
      (decoded ++ if chunk ≠ [] then (n.codec.feed chunk).2 else [])
      (published ++ (n.handle p chunk now).2) := by
  by_cases hchunk : chunk = []
  · simp only [Ds10Node.handle, hchunk, ne_eq, not_true_eq_false, if_false, List.append_nil]
    split
    · simp only [List.append_nil]
      exact h.quiet rfl rfl rfl
    · simp only [List.append_nil]
      exact h.quiet rfl rfl rfl
  · simp only [Ds10Node.handle, hchunk, ne_eq, not_false_eq_true, if_true]
    have hfed : Published p { n with codec := (n.codec.feed chunk).1 } decoded published :=
      h.quiet rfl rfl rfl
    exact (hfed.publishFrames (n.codec.feed chunk).2).quiet rfl rfl rfl

theorem Published.step (h : Published p n decoded published) (d : Device) (e : Event) :
    Published p (step p d n e).1 (decoded ++ n.decodes e)
      (published ++ (step p d n e).2) := by
  cases e with
  | tx msg =>
    obtain ⟨serial, txFrames, txRejected, htx⟩ := onTx_eq p d n msg
    simp only [Ds10Node.step, htx, decodes, List.append_nil]
    exact h.quiet rfl rfl rfl
  | reader env =>
    simp only [Ds10Node.step, readerBlock, decodes]
    rcases n.reader with _ | _ | _ | chunk
    · obtain ⟨connected, codec, havePending, reader, hconnect⟩ := connect_eq p n env.opening
      cases n.connected with
      | true =>
        simp only [Bool.not_true, Bool.false_eq_true, if_false, List.append_nil]
        exact h.quiet rfl rfl rfl
      | false =>
        simp only [Bool.not_false, if_true, List.append_nil, hconnect]
        exact h.quiet rfl rfl rfl
    · obtain ⟨reader, hpoll⟩ := poll_eq n env.reading
      simp only [List.append_nil, hpoll]
      exact h.quiet rfl rfl rfl
    · simp only [List.append_nil]
      exact h.quiet rfl rfl rfl
    · exact h.handle chunk env.now

/-! ## Runs -/

/-- The bursts of a run. -/
def burstsOf (p : NodeParams) (d : Device) (start : ℤ) (es : List Event) : Bursts :=
  accumulate (step p d) (Bursts.extend p) {} (new p start) es

/-- The bytes read in a run. -/
def receivedIn (p : NodeParams) (d : Device) (start : ℤ) (es : List Event) : List UInt8 :=
  collect (step p d) bytesRead (new p start) es

/-- The frames decoded in a run. -/
def decodedIn (p : NodeParams) (d : Device) (start : ℤ) (es : List Event) : List DecodedFrame :=
  collect (step p d) decodes (new p start) es

/-- The messages published in a run. -/
def publishedIn (p : NodeParams) (d : Device) (start : ℤ) (es : List Event) : List FrameMsg :=
  emitted (step p d) (new p start) es

theorem fed_afterRun (p : NodeParams) (d : Device) (start : ℤ) (es : List Event) :
    Fed p (afterRun p d start es) (burstsOf p d start es) (decodedIn p d start es) := by
  induction es using List.reverseRecOn with
  | nil => exact fed_new p start
  | append_singleton es e ih =>
    rw [afterRun, burstsOf, decodedIn, stateAfter_append, accumulate_append, collect_append]
    have h := ih.step d e
    rw [← List.append_nil (decodes _ _)] at h
    exact h

theorem published_afterRun (p : NodeParams) (d : Device) (start : ℤ) (es : List Event) :
    Published p (afterRun p d start es) (decodedIn p d start es) (publishedIn p d start es) := by
  induction es using List.reverseRecOn with
  | nil => exact ⟨rfl, rfl, rfl, rfl⟩
  | append_singleton es e ih =>
    rw [afterRun, decodedIn, publishedIn, stateAfter_append, collect_append, emitted_append]
    have h := ih.step d e
    rw [← List.append_nil (decodes _ _), ← List.append_nil (Ds10Node.step _ _ _ _).2] at h
    exact h

/-- Nothing is read in a block that cuts. -/
theorem bytesRead_of_cuts {e : Event} (h : n.cutsBurst p e = true) : n.bytesRead e = [] := by
  cases e with
  | tx msg => cases h
  | reader env =>
    rcases hreader : n.reader with _ | _ | _ | chunk
    · simp only [bytesRead, hreader]
    · simp [cutsBurst, hreader] at h
    · simp only [bytesRead, hreader]
    · simp only [bytesRead, hreader]

theorem flatten_extend (p : NodeParams) (b : Bursts) (n : Ds10Node) (e : Event) :
    (b.extend p n e).all.flatten = b.all.flatten ++ n.bytesRead e := by
  cases hcuts : n.cutsBurst p e with
  | true => simp [Bursts.extend, hcuts, Bursts.all, bytesRead_of_cuts hcuts]
  | false => simp [Bursts.extend, hcuts, Bursts.all]

/-- **The bursts are the bytes read**, cut. -/
theorem flatten_burstsOf (p : NodeParams) (d : Device) (start : ℤ) (es : List Event) :
    (burstsOf p d start es).all.flatten = receivedIn p d start es := by
  induction es using List.reverseRecOn with
  | nil => rfl
  | append_singleton es e ih =>
    rw [burstsOf, receivedIn, accumulate_append, collect_append]
    refine (flatten_extend p _ _ e).trans ?_
    rw [← List.append_nil (bytesRead _ _)]
    exact congrArg (· ++ _) ih

/-- The scanner's reading of a burst, whatever else arrives in it. -/
theorem readIn_scan (p : NodeParams) (w t : List UInt8) :
    ReadIn (.new p.maxFrameLen) (w ++ t) ((frameScanner p.maxFrameLen).scan w).1 := by
  have hreads := (frameScanner p.maxFrameLen).reads_scan w
  refine ⟨⟨((frameScanner p.maxFrameLen).scan w).2 ++ t, ?_⟩, ?_⟩
  · rw [← List.append_assoc, hreads.raw]
  · intro raw f hmem
    exact ((readsAs_of_reads hreads).token_mem hmem (.new p.maxFrameLen)
      (max_eq_left p.min_le)).1

/-- **The reader's account, after every run**: blocks of the reader and transmit callbacks in any
order, whatever the port answers. -/
theorem reception_afterRun (p : NodeParams) (d : Device) (start : ℤ) (es : List Event) :
    Reception p (afterRun p d start es) (burstsOf p d start es).all (receivedIn p d start es)
      (decodedIn p d start es) (publishedIn p d start es) where
  bursts_flatten := flatten_burstsOf p d start es
  within_burst := by
    obtain ⟨fed, hcurrent, -, hdecoded⟩ := (fed_afterRun p d start es).read
    let pieces := fun w => ((frameScanner p.maxFrameLen).scan w).1
    refine ⟨(burstsOf p d start es).past.map pieces ++ [pieces fed], ?_, ?_⟩
    · refine List.rel_append ?_ (.cons ?_ .nil)
      · rw [List.forall₂_map_right_iff, List.forall₂_same]
        intro w _
        have hread := readIn_scan p w []
        rwa [List.append_nil] at hread
      · rw [hcurrent]
        exact readIn_scan p fed _
    · rw [hdecoded, List.flatMap_append, List.flatMap_map, List.flatMap_singleton]
      rfl
  havePending_eq := (fed_afterRun p d start es).havePending_eq
  bytes hhead := by
    have hidle : (afterRun p d start es).inFlight = [] := inFlight_of_ne (by simp [hhead])
    rw [← flatten_burstsOf, (fed_afterRun p d start es).bytes, hidle]
    rfl
  frames := (published_afterRun p d start es).frames
  published_eq := (published_afterRun p d start es).published_eq

end Ds10Node

end Ds10Driver

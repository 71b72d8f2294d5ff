import DS10Link.Stream.Automaton
import DS10Link.Script.TrialCut

/-!
# The loop of the receiving scripts

`ds10_slave_recv.py` and `ds10_master_recv.py` run the same loop. A turn appends the bytes that wait
at the port to the buffer and cuts frames off it; a turn that finds none, a gap after the last
bytes, throws away what could not be cut. The two keep different statistics, so the loop is stated
for any: what a script does for a byte it slides over, for a frame, and for bytes thrown away.

## Main definitions

* `Receiver`: what a script does, and its `--gap`
* `RecvLoop`, `Receiver.turn`: the state of the loop, and one turn of it
* `Receiver.burstsOf`: the bytes of a run, cut where a gap emptied the buffer
* `Receiver.logger`: a script that logs what it does

## Main results

* `follows_afterRun`: the statistics are those of each burst cut on its own
* `afterRun_rel`: two scripts on the same port cut the same frames
* `logged_afterRun`: what a run cuts, and where every byte goes
-/

namespace Ds10Script

open Automaton

/-- What a receiving script does, with statistics `σ`. -/
structure Receiver (σ : Type*) where
  gap : ℤ
  skip : σ → σ
  take : σ → List UInt8 → σ
  discard : σ → ℕ → σ

/-- The state of the loop: the bytes not yet cut, the time of the last read in a burst, and the
statistics. Times are in nanoseconds. -/
structure RecvLoop (σ : Type*) where
  buf : List UInt8 := []
  lastRx : Option ℤ := none
  stats : σ

/-- What one turn of the loop meets: the bytes that wait at the port, and the time. -/
structure LoopTurn where
  chunk : List UInt8
  now : ℤ

/-- The bytes of a run in bursts: those ended by a gap, and the one in progress. -/
structure Bursts where
  past : List (List UInt8) := []
  current : List UInt8 := []

namespace Receiver

variable {σ τ : Type*} (R : Receiver σ)

/-- `try_extract_frames`: the statistics after the frames that can be cut, and the bytes left. -/
def tryExtractFrames (stats : σ) (buf : List UInt8) : σ × List UInt8 :=
  cutLoop R.skip R.take buf 0 stats

/-- A turn without bytes ends a burst when something is left of it and the gap has passed. -/
def endsBurst (s : RecvLoop σ) (t : LoopTurn) : Bool :=
  t.chunk.isEmpty && !s.buf.isEmpty && s.lastRx.any fun last => decide (R.gap ≤ t.now - last)

/-- One turn of the loop. -/
def turn (s : RecvLoop σ) (t : LoopTurn) : RecvLoop σ :=
  if t.chunk ≠ [] then
    let r := R.tryExtractFrames s.stats (s.buf ++ t.chunk)
    { buf := r.2, lastRx := some t.now, stats := r.1 }
  else if R.endsBurst s t then
    let r := R.tryExtractFrames s.stats s.buf
    -- What is left now is half a frame or noise.
    { buf := [], lastRx := none, stats := if r.2 ≠ [] then R.discard r.1 r.2.length else r.1 }
  else s

/-- The loop as an automaton without outputs. -/
def step (s : RecvLoop σ) (t : LoopTurn) : RecvLoop σ × List Empty := (R.turn s t, [])

/-- The loop after a run, from the statistics `init`. -/
def afterRun (init : σ) (ts : List LoopTurn) : RecvLoop σ :=
  stateAfter R.step { stats := init } ts

end Receiver

/-- The bursts after one more turn. -/
def Bursts.extend {σ : Type*} (R : Receiver σ) (b : Bursts) (s : RecvLoop σ) (t : LoopTurn) :
    Bursts :=
  if R.endsBurst s t then ⟨b.past ++ [b.current], []⟩ else ⟨b.past, b.current ++ t.chunk⟩

/-- All bursts, the one in progress last. -/
def Bursts.all (b : Bursts) : List (List UInt8) := b.past ++ [b.current]

namespace Receiver

variable {σ τ : Type*} (R : Receiver σ)

/-- The bursts of a run. -/
def burstsOf (init : σ) (ts : List LoopTurn) : Bursts :=
  accumulate R.step (Bursts.extend R) {} { stats := init } ts

/-- What a script makes of a stream: the statistics, and the bytes left. -/
def reading (stats : σ) (w : List UInt8) : σ × List UInt8 :=
  trialScanner.replay (Ds10Script.turn R.skip R.take) stats w

theorem tryExtractFrames_eq (stats : σ) (buf : List UInt8) :
    R.tryExtractFrames stats buf = R.reading stats buf := by
  rw [tryExtractFrames, cutLoop_eq, List.drop_zero, reading]

/-- What is left of a reading is not read any further. -/
theorem reading_rest (stats stats' : σ) (w : List UInt8) :
    R.reading stats' (R.reading stats w).2 = (stats', (R.reading stats w).2) := by
  have hwait : trialScanner.verdict (R.reading stats w).2 = .wait := trialScanner.verdict_scan w
  rw [reading, Scanner.replay, trialScanner.scan_of_wait hwait]
  rfl

theorem reading_append (stats : σ) (w v : List UInt8) :
    R.reading stats (w ++ v) =
      R.reading (R.reading stats w).1 ((R.reading stats w).2 ++ v) :=
  trialScanner.replay_append _ _ _ _

/-- What a script makes of a whole burst: the frames in it, and what is left thrown away. -/
def burst (stats : σ) (w : List UInt8) : σ :=
  let r := R.reading stats w
  if r.2 ≠ [] then R.discard r.1 r.2.length else r.1

/-- The statistics are those of the past bursts, each cut on its own, and of the frames in the one
in progress; the buffer is what is left of that one. -/
def Follows (init : σ) (b : Bursts) (s : RecvLoop σ) : Prop :=
  (s.stats, s.buf) = R.reading (b.past.foldl R.burst init) b.current

variable {R} {init : σ} {b : Bursts} {s : RecvLoop σ}

theorem endsBurst_of_ne {t : LoopTurn} (h : t.chunk ≠ []) : R.endsBurst s t = false := by
  simp [endsBurst, h]

theorem Follows.turn (h : R.Follows init b s) (t : LoopTurn) :
    R.Follows init (b.extend R s t) (R.turn s t) := by
  have hstats : s.stats = (R.reading (b.past.foldl R.burst init) b.current).1 :=
    congrArg Prod.fst h
  have hbuf : s.buf = (R.reading (b.past.foldl R.burst init) b.current).2 := congrArg Prod.snd h
  by_cases hchunk : t.chunk ≠ []
  · rw [Receiver.turn, if_pos hchunk, Bursts.extend, endsBurst_of_ne hchunk, Follows,
      tryExtractFrames_eq]
    -- Reading resumes at what was left.
    simp only [Bool.false_eq_true, if_false]
    rw [reading_append _ _ b.current, ← hstats, ← hbuf]
  · rw [not_not] at hchunk
    rw [Receiver.turn, if_neg (not_not.mpr hchunk), Bursts.extend]
    cases hends : R.endsBurst s t with
    | false => simpa [Follows, hchunk] using h
    | true =>
      simp only [if_true, Follows, List.foldl_append, List.foldl_cons, List.foldl_nil]
      have hrest : R.reading s.stats s.buf = (s.stats, s.buf) := by
        rw [hbuf]
        exact R.reading_rest _ _ _
      have hnil : ∀ stats, R.reading stats [] = (stats, []) := by
        intro stats
        rw [reading, Scanner.replay, trialScanner.scan_of_wait trialScanner.verdict_nil]
        rfl
      rw [hnil, tryExtractFrames_eq, hrest, burst, ← h]

/-- **The statistics are those of each burst cut on its own**, however the burst was cut into
reads. -/
theorem follows_afterRun (R : Receiver σ) (init : σ) (ts : List LoopTurn) :
    R.Follows init (R.burstsOf init ts) (R.afterRun init ts) := by
  refine accumulate_induction (R.Follows init) ts ?_ fun b s t h => h.turn t
  rw [Follows, reading, Scanner.replay, trialScanner.scan_of_wait trialScanner.verdict_nil]
  rfl

/-- Reads that follow one another without a gap are one read of their bytes. -/
theorem stateAfter_reads {s : RecvLoop σ} (hrest : R.reading s.stats s.buf = (s.stats, s.buf))
    {us : List LoopTurn} (hus : ∀ u ∈ us, u.chunk ≠ []) :
    ((stateAfter R.step s us).stats, (stateAfter R.step s us).buf) =
      R.reading s.stats (s.buf ++ us.flatMap LoopTurn.chunk) := by
  induction us generalizing s with
  | nil => simpa using hrest.symm
  | cons u us ih =>
    have hturn : R.turn s u =
        ⟨(R.reading s.stats (s.buf ++ u.chunk)).2, some u.now,
          (R.reading s.stats (s.buf ++ u.chunk)).1⟩ := by
      rw [Receiver.turn, if_pos (hus u List.mem_cons_self), tryExtractFrames_eq]
    have hnext : R.reading (R.turn s u).stats (R.turn s u).buf =
        ((R.turn s u).stats, (R.turn s u).buf) := by
      rw [hturn]
      exact R.reading_rest s.stats _ (s.buf ++ u.chunk)
    have hlater := ih hnext fun v hv => hus v (List.mem_cons_of_mem u hv)
    rw [stateAfter_cons, List.flatMap_cons, ← List.append_assoc, reading_append]
    rw [hturn] at hlater
    show ((stateAfter R.step (R.turn s u) us).stats, (stateAfter R.step (R.turn s u) us).buf) = _
    rw [hturn]
    exact hlater

theorem reading_afterRun (R : Receiver σ) (init : σ) (ts : List LoopTurn) :
    R.reading (R.afterRun init ts).stats (R.afterRun init ts).buf =
      ((R.afterRun init ts).stats, (R.afterRun init ts).buf) := by
  have h := follows_afterRun R init ts
  have hbuf := congrArg Prod.snd h
  dsimp only at hbuf
  rw [hbuf]
  exact R.reading_rest _ _ (R.burstsOf init ts).current

theorem flatten_extend (b : Bursts) (s : RecvLoop σ) (t : LoopTurn) :
    (b.extend R s t).all.flatten = b.all.flatten ++ t.chunk := by
  cases hends : R.endsBurst s t with
  | true =>
    have hnil : t.chunk = [] := by
      by_contra hne
      rw [endsBurst_of_ne hne] at hends
      cases hends
    simp [Bursts.extend, hends, Bursts.all, hnil]
  | false => simp [Bursts.extend, hends, Bursts.all]

/-- The bursts are the bytes read, cut. -/
theorem flatten_burstsOf (R : Receiver σ) (init : σ) (ts : List LoopTurn) :
    (R.burstsOf init ts).all.flatten = ts.flatMap LoopTurn.chunk := by
  induction ts using List.reverseRecOn with
  | nil => rfl
  | append_singleton ts t ih =>
    rw [burstsOf, accumulate_append, List.flatMap_append, List.flatMap_singleton]
    exact (flatten_extend _ _ t).trans (congrArg (· ++ _) ih)

/-! ## Two scripts on the same port -/

section Rel

variable {Q : Receiver τ} {T : σ → τ → Prop}

/-- What the scripts do keeps their statistics in the relation `T`. -/
structure Keeps (R : Receiver σ) (Q : Receiver τ) (T : σ → τ → Prop) : Prop where
  gap_eq : R.gap = Q.gap
  skip : ∀ s t, T s t → T (R.skip s) (Q.skip t)
  take : ∀ s t frame, IsCut frame → T s t → T (R.take s frame) (Q.take t frame)
  discard : ∀ s t n, T s t → T (R.discard s n) (Q.discard t n)

/-- The loops hold the same bytes, and statistics in the relation `T`. -/
structure SameLoop (T : σ → τ → Prop) (s : RecvLoop σ) (t : RecvLoop τ) : Prop where
  buf_eq : s.buf = t.buf
  lastRx_eq : s.lastRx = t.lastRx
  stats : T s.stats t.stats

theorem Keeps.reading (h : Keeps R Q T) {s : σ} {t : τ} (hT : T s t) (w : List UInt8) :
    T (R.reading s w).1 (Q.reading t w).1 ∧ (R.reading s w).2 = (Q.reading t w).2 := by
  refine ⟨List.foldl_rel hT ?_, rfl⟩
  intro piece hmem s t hT
  cases piece with
  | token raw frame => exact h.take s t frame (isCut_of_token (trialScanner.reads_scan w) hmem).2 hT
  | junk a => exact h.skip s t hT

theorem SameLoop.endsBurst_eq {s : RecvLoop σ} {t : RecvLoop τ} (h : Keeps R Q T)
    (hs : SameLoop T s t) (u : LoopTurn) : R.endsBurst s u = Q.endsBurst t u := by
  rw [endsBurst, endsBurst, hs.buf_eq, hs.lastRx_eq, h.gap_eq]

theorem SameLoop.turn {s : RecvLoop σ} {t : RecvLoop τ} (h : Keeps R Q T) (hs : SameLoop T s t)
    (u : LoopTurn) : SameLoop T (R.turn s u) (Q.turn t u) := by
  have hends := hs.endsBurst_eq h u
  simp only [Receiver.turn, tryExtractFrames_eq, hends, hs.buf_eq]
  by_cases hchunk : u.chunk ≠ []
  · obtain ⟨hT, hrest⟩ := h.reading hs.stats (t.buf ++ u.chunk)
    rw [if_pos hchunk, if_pos hchunk]
    exact ⟨hrest, rfl, hT⟩
  · rw [if_neg hchunk, if_neg hchunk]
    cases Q.endsBurst t u with
    | false => exact hs
    | true =>
      obtain ⟨hT, hrest⟩ := h.reading hs.stats t.buf
      refine ⟨rfl, rfl, ?_⟩
      simp only [if_true, hrest]
      split
      · exact h.discard _ _ _ hT
      · exact hT

/-- **Two scripts on the same port** cut the same bursts and hold the same bytes, and what they do
for each frame decides how their statistics are related. -/
theorem afterRun_rel (h : Keeps R Q T) {init : σ} {init' : τ} (hT : T init init')
    (ts : List LoopTurn) :
    SameLoop T (R.afterRun init ts) (Q.afterRun init' ts) ∧
      R.burstsOf init ts = Q.burstsOf init' ts := by
  induction ts using List.reverseRecOn with
  | nil => exact ⟨⟨rfl, rfl, hT⟩, rfl⟩
  | append_singleton ts u ih =>
    obtain ⟨hsame, hbursts⟩ := ih
    rw [afterRun, afterRun, burstsOf, burstsOf, stateAfter_append, stateAfter_append,
      accumulate_append, accumulate_append]
    refine ⟨hsame.turn h u, ?_⟩
    show Bursts.extend R (R.burstsOf init ts) (R.afterRun init ts) u =
      Bursts.extend Q (Q.burstsOf init' ts) (Q.afterRun init' ts) u
    rw [hbursts, Bursts.extend, Bursts.extend, hsame.endsBurst_eq h u]

end Rel

end Receiver

/-! ## The log of a run -/

/-- The frames in a burst. -/
def framesIn (burst : List UInt8) : List (List UInt8) := Piece.outs (trialScanner.scan burst).1

/-- The frames that a script has cut, and the bytes it has given up. -/
structure Log where
  frames : List (List UInt8) := []
  recovered : ℕ := 0

/-- The log of a run says what the bursts are cut into, and where every byte went. -/
structure Logged (bursts : List (List UInt8)) (s : RecvLoop Log) : Prop where
  frames_eq : s.stats.frames = bursts.flatMap framesIn
  conserved : bursts.flatten.length =
    (s.stats.frames.map List.length).sum + s.stats.recovered + s.buf.length

namespace Receiver

/-- A script that logs what it does. -/
def logger (gap : ℤ) : Receiver Log where
  gap := gap
  skip l := { l with recovered := l.recovered + 1 }
  take l frame := { l with frames := l.frames ++ [frame] }
  discard l n := { l with recovered := l.recovered + n }

theorem reading_logger (gap : ℤ) (l : Log) (w : List UInt8) :
    ((logger gap).reading l w).1.frames = l.frames ++ framesIn w ∧
      ((logger gap).reading l w).1.recovered =
        l.recovered + Piece.drops (trialScanner.scan w).1 ∧
      ((logger gap).reading l w).2 = (trialScanner.scan w).2 := by
  have hfold : ∀ (ps : List (Piece UInt8 (List UInt8))) (l : Log),
      ps.foldl (Ds10Script.turn (logger gap).skip (logger gap).take) l =
        ⟨l.frames ++ Piece.outs ps, l.recovered + Piece.drops ps⟩ := by
    intro ps
    induction ps with
    | nil => exact fun l => by simp
    | cons piece ps ih =>
      intro l
      rw [List.foldl_cons, ih]
      cases piece with
      | token raw frame => simp [Ds10Script.turn, logger]
      | junk a => simp [Ds10Script.turn, logger, Nat.add_assoc, Nat.add_comm 1]
  rw [reading, Scanner.replay, hfold]
  exact ⟨rfl, rfl, rfl⟩

/-- A whole burst goes into the log. -/
theorem burst_logger (gap : ℤ) (l : Log) (w : List UInt8) :
    ((logger gap).burst l w).frames = l.frames ++ framesIn w ∧
      ((logger gap).burst l w).recovered + ((framesIn w).map List.length).sum =
        l.recovered + w.length := by
  obtain ⟨hframes, hdrops, hrest⟩ := reading_logger gap l w
  have hlen := length_scan w
  rw [← framesIn] at hlen
  rw [burst, hrest]
  split_ifs with hne
  · refine ⟨hframes, ?_⟩
    show ((logger gap).reading l w).1.recovered + _ + _ = _
    rw [hdrops]
    omega
  · rw [not_not] at hne
    refine ⟨hframes, ?_⟩
    rw [hne, List.length_nil] at hlen
    rw [hdrops]
    omega

/-- **The log of every run.** -/
theorem logged_afterRun (gap : ℤ) (ts : List LoopTurn) :
    Logged ((logger gap).burstsOf {} ts).all ((logger gap).afterRun {} ts) := by
  have hfollows := follows_afterRun (logger gap) {} ts
  generalize (logger gap).burstsOf {} ts = b at hfollows
  generalize (logger gap).afterRun {} ts = s at hfollows
  -- The past bursts first.
  have hpast : ∀ past : List (List UInt8),
      (past.foldl (logger gap).burst {}).frames = past.flatMap framesIn ∧
        ((past.flatMap framesIn).map List.length).sum +
          (past.foldl (logger gap).burst {}).recovered = past.flatten.length := by
    intro past
    induction past using List.reverseRecOn with
    | nil => exact ⟨rfl, rfl⟩
    | append_singleton past w ih =>
      obtain ⟨hframes, hsum⟩ := burst_logger gap (past.foldl (logger gap).burst {}) w
      rw [List.foldl_append, List.foldl_cons, List.foldl_nil, hframes, ih.1]
      refine ⟨by simp, ?_⟩
      simp only [List.flatMap_append, List.flatMap_singleton, List.map_append, List.sum_append,
        List.flatten_append, List.length_append, List.flatten_singleton]
      omega
  obtain ⟨hframes, hsum⟩ := hpast b.past
  obtain ⟨hlog, hdrops, hrest⟩ :=
    reading_logger gap (b.past.foldl (logger gap).burst {}) b.current
  have hlen := length_scan b.current
  rw [← framesIn] at hlen
  rw [Follows] at hfollows
  have hstats := congrArg Prod.fst hfollows
  have hbuf := congrArg Prod.snd hfollows
  dsimp only at hstats hbuf
  refine ⟨?_, ?_⟩
  · rw [hstats, hlog, hframes, Bursts.all, List.flatMap_append, List.flatMap_singleton]
  · rw [hbuf, hrest, hstats, hlog, hdrops, hframes, Bursts.all]
    simp only [List.flatten_append, List.length_append, List.map_append, List.sum_append,
      List.flatten_singleton]
    omega

end Receiver

end Ds10Script

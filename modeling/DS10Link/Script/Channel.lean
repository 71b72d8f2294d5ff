import DS10Link.Script.NumberedFrames

/-!
# A channel of frames

What a script writes to a port goes out by radio and comes in at another port. A channel carries
whole frames, and may lose, delay and reorder them; at the port they come in one after the other,
byte by byte. A script that reads there, any number of bytes at a time, and cuts what it holds after
each read, cuts the frames that came in.

## Main definitions

* `IsWhole`: a frame is cut off as it is
* `Channel`: frames in flight, the one that is coming in, and the bytes that wait to be read
* `Carries`: what is held and what comes in are whole frames

## Main results

* `Carries.read`: a read cuts some of these frames off, the first ones, and leaves the others
* `Carries.nothing_held`: nothing is held of frames that have all been read
-/

namespace Ds10Script

/-- The frame is cut off as it is: no shorter piece of it passes the frame check. -/
def IsWhole (frame : List UInt8) : Prop := trialVerdict frame = .take frame.length frame

instance : DecidablePred IsWhole := fun frame =>
  inferInstanceAs (Decidable (trialVerdict frame = .take frame.length frame))

/-- A channel: the frames in flight, the rest of the one that is coming in at the port, and the
bytes that wait there. -/
structure Channel where
  flight : List (List UInt8) := []
  arriving : List UInt8 := []
  waiting : List UInt8 := []

/-- What the channel does by itself: a frame in flight starts to come in, or bytes of it do. -/
inductive Channel.Move where
  | carry (i : ℕ)
  | arrive (n : ℕ)
  deriving DecidableEq, Repr

namespace Channel

/-- Frames are written at the other end. -/
def send (c : Channel) (frames : List (List UInt8)) : Channel :=
  { c with flight := c.flight ++ frames }

/-- A move of the channel. Frames come in one after the other. -/
def move (c : Channel) : Move → Channel
  | .carry i =>
    match c.flight[i]? with
    | none => c
    | some frame =>
      if c.arriving = [] then { c with flight := c.flight.eraseIdx i, arriving := frame } else c
  | .arrive n =>
    { c with arriving := c.arriving.drop n, waiting := c.waiting ++ c.arriving.take n }

/-- The bytes that a script reads, at most `n + 1` and none only if none wait. -/
def chunk (c : Channel) (n : ℕ) : List UInt8 := c.waiting.take (n + 1)

/-- The channel after that read. -/
def read (c : Channel) (n : ℕ) : Channel := { c with waiting := c.waiting.drop (n + 1) }

/-- `reset_input_buffer`. -/
def reset (c : Channel) : Channel := { c with waiting := [] }

end Channel

/-- What a script holds, what waits and what comes in are whole frames, of the kind `P`, as are
those in flight. -/
structure Carries (P : List UInt8 → Prop) (held : List UInt8) (c : Channel) : Prop where
  flight : ∀ frame ∈ c.flight, P frame
  ahead : ∃ frames : List (List UInt8), held ++ c.waiting ++ c.arriving = frames.flatten ∧
    ∀ frame ∈ frames, P frame
  wait : trialVerdict held = .wait

section Carries

variable {P Q : List UInt8 → Prop} {held : List UInt8} {c : Channel}

theorem Carries.mono (h : Carries P held c) (hPQ : ∀ frame, P frame → Q frame) :
    Carries Q held c := by
  obtain ⟨frames, hbytes, hframes⟩ := h.ahead
  exact ⟨fun f hf => hPQ f (h.flight f hf), ⟨frames, hbytes, fun f hf => hPQ f (hframes f hf)⟩,
    h.wait⟩

theorem carries_new (P : List UInt8 → Prop) : Carries P [] {} :=
  ⟨nofun, ⟨[], rfl, nofun⟩, rfl⟩

theorem Carries.send (h : Carries P held c) {frames : List (List UInt8)}
    (hframes : ∀ frame ∈ frames, P frame) : Carries P held (c.send frames) := by
  refine ⟨?_, h.ahead, h.wait⟩
  intro frame hframe
  rcases List.mem_append.mp hframe with hframe | hframe
  · exact h.flight frame hframe
  · exact hframes frame hframe

theorem Carries.move (h : Carries P held c) (m : Channel.Move) : Carries P held (c.move m) := by
  cases m with
  | carry i =>
    rw [Channel.move]
    split
    · exact h
    · next frame hframe =>
      split_ifs with hnone
      -- Nothing else is arriving, so the frame goes behind what waits, in one piece.
      · obtain ⟨frames, hbytes, hframes⟩ := h.ahead
        refine ⟨fun f hf => h.flight f (List.mem_of_mem_eraseIdx hf), ?_, h.wait⟩
        refine ⟨frames ++ [frame], ?_, ?_⟩
        · rw [hnone, List.append_nil] at hbytes
          rw [List.flatten_append, List.flatten_singleton, ← hbytes]
        · intro f hf
          rcases List.mem_append.mp hf with hf | hf
          · exact hframes f hf
          · rw [List.mem_singleton.mp hf]
            exact h.flight frame (List.mem_of_getElem? hframe)
      · exact h
  | arrive n =>
    obtain ⟨frames, hbytes, hframes⟩ := h.ahead
    refine ⟨h.flight, ⟨frames, ?_, hframes⟩, h.wait⟩
    rw [← hbytes, Channel.move]
    simp only [List.append_assoc, List.take_append_drop]

/-- An empty port carries what is in flight. -/
theorem carries_reset (h : ∀ frame ∈ c.flight, P frame) (hnone : c.arriving = []) :
    Carries P [] c.reset :=
  ⟨h, ⟨[], by rw [Channel.reset, hnone]; rfl, nofun⟩, rfl⟩

/-- **A read cuts the frames that are complete**: the first of those held and coming in. -/
theorem Carries.read (h : Carries P held c) (hwhole : ∀ frame, P frame → IsWhole frame) (n : ℕ) :
    (∀ frame ∈ (extractFrames (held ++ c.chunk n)).1, P frame) ∧
      Carries P (extractFrames (held ++ c.chunk n)).2 (c.read n) := by
  obtain ⟨frames, hbytes, hframes⟩ := h.ahead
  have hsplit : held ++ c.chunk n ++ ((c.read n).waiting ++ (c.read n).arriving) =
      frames.flatten := by
    rw [← hbytes, Channel.chunk, Channel.read]
    simp only [List.append_assoc]
    rw [← List.append_assoc (List.take (n + 1) c.waiting), List.take_append_drop]
  -- What was read are so many frames and a part of the next.
  obtain ⟨k, rest, hread, hrest⟩ := exists_prefix_flatten ⟨_, hsplit⟩
  have htokens : List.Forall₂ (fun w b => trialScanner.verdict w = .take w.length b)
      (frames.take k) (frames.take k) := by
    rw [List.forall₂_same]
    exact fun w hw => hwhole w (hframes w (List.mem_of_mem_take hw))
  have hwait : trialScanner.verdict rest = .wait := by
    rcases hrest with rfl | ⟨frame, hframe, hprefix, hlt⟩
    · exact trialScanner.verdict_nil
    · -- Less than a frame waits for the rest of it.
      exact trialScanner.verdict_of_prefix
        (hwhole frame (hframes frame (List.mem_of_getElem? hframe))) hprefix hlt
  have hcut : extractFrames (held ++ c.chunk n) = (frames.take k, rest) := by
    rw [extractFrames_eq, hread, trialScanner.scan_tokens_append htokens hwait,
      Piece.outs_zipWith_token rfl]
  rw [hcut]
  refine ⟨fun f hf => hframes f (List.mem_of_mem_take hf), h.flight, ⟨frames.drop k, ?_, ?_⟩, hwait⟩
  · rw [hread] at hsplit
    have hflat : (frames.take k).flatten ++ (frames.drop k).flatten = frames.flatten := by
      rw [← List.flatten_append, List.take_append_drop]
    rw [← hflat, List.append_assoc] at hsplit
    exact (List.append_assoc _ _ _).trans (List.append_cancel_left hsplit)
  · exact fun f hf => hframes f (List.mem_of_mem_drop hf)

/-- **Nothing is held** of frames that have come in and been read. -/
theorem Carries.nothing_held (h : Carries P held c) (hwhole : ∀ frame, P frame → IsWhole frame)
    (hwaiting : c.waiting = []) (harriving : c.arriving = []) : held = [] := by
  obtain ⟨frames, hbytes, hframes⟩ := h.ahead
  rw [hwaiting, harriving, List.append_nil, List.append_nil] at hbytes
  cases frames with
  | nil => exact hbytes
  | cons frame frames =>
    -- The first frame would have been cut off.
    have hfirst := hwhole frame (hframes frame List.mem_cons_self)
    have hheld : trialScanner.verdict held = .take frame.length frame := by
      rw [hbytes, List.flatten_cons]
      have hne : trialScanner.verdict frame ≠ .wait := by
        rw [show trialScanner.verdict frame = _ from hfirst]
        exact nofun
      exact (trialScanner.stable _ hne).trans hfirst
    rw [show trialScanner.verdict held = .wait from h.wait] at hheld
    cases hheld

end Carries

end Ds10Script

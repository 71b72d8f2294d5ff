import DS10Link.Driver.Crc
import DS10Link.File.Extract

/-!
# Cutting frames by CRC trial

The receiving scripts cut frames off a buffer as the driver's decoder does, by trying one length
after the other from a legal station byte. They differ from it in the bounds of the trial and in
one branch: where the trial comes to nothing they wait, however much is in the buffer. So their
loop is a scanner too, it reads what the driver reads up to the bytes the driver gives up on, and
from a full trial on it waits until something empties the buffer.

## Main definitions

* `trialHit`: the CRC trial of the scripts
* `cutLoop`: their loop, with what a script does for a byte it slides over and for a frame
* `trialScanner`: one turn of the loop as a scanner
* `DriverCutsAlike`: what a reading of the driver's has to be like for the scripts to share it

## Main results

* `cutLoop_eq`: the loop keeps its state along the scanner's reading
* `silent_iff`: when a waiting script has stopped reading for good
* `extractFrames_eq_feed_iff`: when the scripts cut a stream as the driver does
-/

open Word

namespace Ds10Script

open Ds10Driver Ds10File

/-- `MIN_FRAME`. -/
def minFrame : ℕ := 6

/-- `MAX_FRAME`. -/
def maxFrame : ℕ := 4200

/-! ## The loop -/

/-- The candidate of length `flen` at the front of `w` ends in the CRC of what precedes it. -/
def isHit (w : List UInt8) (flen : ℕ) : Bool :=
  let frame := w.take flen
  modbusCrc16 (frame.take (frame.length - 2)) == frame.drop (frame.length - 2)

/-- The CRC trial: the first length in `MIN_FRAME..max_try` that is a hit. -/
def trialHit (w : List UInt8) (maxTry : ℕ) : Option ℕ :=
  (List.range' minFrame (maxTry + 1 - minFrame)).find? (isHit w)

theorem trialHit_eq_some {w : List UInt8} {maxTry flen : ℕ} :
    trialHit w maxTry = some flen ↔
      (minFrame ≤ flen ∧ flen ≤ maxTry) ∧ isHit w flen = true ∧
        ∀ len, minFrame ≤ len → len < flen → isHit w len = false := by
  rw [trialHit, List.find?_range'_eq_some]
  simp only [List.mem_range'_1, Bool.not_eq_eq_eq_not, Bool.not_true]
  constructor
  · rintro ⟨h, ⟨h₁, h₂⟩, h₃⟩
    exact ⟨⟨h₁, by omega⟩, h, h₃⟩
  · rintro ⟨⟨h₁, h₂⟩, h, h₃⟩
    exact ⟨h, ⟨h₁, by omega⟩, h₃⟩

theorem trialHit_eq_none {w : List UInt8} {maxTry : ℕ} :
    trialHit w maxTry = none ↔
      ∀ len, minFrame ≤ len → len ≤ maxTry → isHit w len = false := by
  rw [trialHit, List.find?_range'_eq_none]
  simp only [Bool.not_eq_eq_eq_not, Bool.not_true]
  refine forall₂_congr ?_
  intro len hmin
  constructor
  · intro h hmax
    exact h (by omega)
  · intro h hlt
    exact h (by omega)

variable {σ : Type*}

/-- The loop that cuts frames off `out` from position `pos` on: the state after `skip` for each byte
slid over and `take` for each frame, and the bytes left. -/
def cutLoop (skip : σ → σ) (take : σ → List UInt8 → σ) (out : List UInt8) (pos : ℕ) (s : σ) :
    σ × List UInt8 :=
  if h : pos < out.length then
    if ¬ (1 ≤ out[pos].toNat ∧ out[pos].toNat ≤ 247) then cutLoop skip take out (pos + 1) (skip s)
    else
      match _hit : trialHit (out.drop pos) (min (out.length - pos) maxFrame) with
      -- A half frame or noise: wait for more bytes.
      | none => (s, out.drop pos)
      | some flen =>
        cutLoop skip take out (pos + flen) (take s ((out.drop pos).take flen))
  else (s, out.drop pos)
termination_by out.length - pos
decreasing_by
  · omega
  · have := (trialHit_eq_some.mp _hit).1.1
    simp only [minFrame] at this
    omega

/-! ## The loop as a scanner -/

theorem isStation_iff_toNat {b : UInt8} : IsStation b ↔ 1 ≤ b.toNat ∧ b.toNat ≤ 247 := by
  rw [IsStation, UInt8.le_iff_toNat_le, UInt8.le_iff_toNat_le]
  rfl

/-- A hit is a candidate that passes the driver's frame check. -/
theorem isHit_eq {w : List UInt8} {flen : ℕ} (h₂ : 2 ≤ flen) (h : flen ≤ w.length) :
    isHit w flen = crcMatches w flen := by
  obtain ⟨n, rfl⟩ : ∃ n, flen = n + 2 := ⟨flen - 2, by omega⟩
  rw [Bool.eq_iff_iff, ← modbusCrc16_eq_drop_iff h, isHit, beq_iff_eq, List.length_take_of_le h,
    Nat.add_sub_cancel, List.take_take, min_eq_left (by omega)]

theorem isHit_append {w : List UInt8} {flen : ℕ} (v : List UInt8) (h₂ : 2 ≤ flen)
    (h : flen ≤ w.length) : isHit (w ++ v) flen = isHit w flen := by
  rw [isHit_eq h₂ h, isHit_eq h₂ (by rw [List.length_append]; omega), crcMatches_append v h₂ h]

/-- One turn of the loop, on the bytes from its position on. -/
def trialVerdict (w : List UInt8) : Verdict (List UInt8) :=
  match w with
  | [] => .wait
  | station :: _ =>
    if ¬ (1 ≤ station.toNat ∧ station.toNat ≤ 247) then .drop
    else
      match trialHit w (min w.length maxFrame) with
      | none => .wait
      | some flen => .take flen (w.take flen)

section Verdict

variable {w : List UInt8} {b : UInt8} {n : ℕ} {frame : List UInt8}

/-- A byte is slid over exactly when it is no station byte. -/
theorem trialVerdict_eq_drop : trialVerdict (b :: w) = .drop ↔ ¬ IsStation b := by
  rw [isStation_iff_toNat, trialVerdict]
  by_cases hst : 1 ≤ b.toNat ∧ b.toNat ≤ 247
  · rw [if_neg (not_not.mpr hst)]
    refine iff_of_false ?_ (not_not.mpr hst)
    cases trialHit (b :: w) (min (b :: w).length maxFrame) <;> simp
  · rw [if_pos hst]
    exact iff_of_true rfl hst

/-- The shortest hit within the bounds is taken. -/
theorem trialVerdict_eq_take :
    trialVerdict w = .take n frame ↔
      (∃ b ∈ w.head?, IsStation b) ∧ trialHit w (min w.length maxFrame) = some n ∧
        frame = w.take n := by
  rcases w with _ | ⟨b, w⟩
  · simp [trialVerdict]
  · rw [trialVerdict]
    simp only [List.head?_cons, Option.mem_def, Option.some.injEq, exists_eq_left',
      isStation_iff_toNat]
    by_cases hst : 1 ≤ b.toNat ∧ b.toNat ≤ 247
    · rw [if_neg (not_not.mpr hst)]
      cases trialHit (b :: w) (min (b :: w).length maxFrame) with
      | none => simp
      | some flen =>
        simp only [Verdict.take.injEq, Option.some.injEq, hst, true_and, and_self]
        constructor
        · rintro ⟨rfl, rfl⟩
          exact ⟨rfl, rfl⟩
        · rintro ⟨rfl, rfl⟩
          exact ⟨rfl, rfl⟩
    · simp [hst]

/-- The loop waits where nothing is left, or at a station byte with no hit in sight. -/
theorem trialVerdict_eq_wait :
    trialVerdict w = .wait ↔
      ∀ b ∈ w.head?, IsStation b ∧
        ∀ len, minFrame ≤ len → len ≤ min w.length maxFrame → isHit w len = false := by
  rcases w with _ | ⟨b, w⟩
  · simp [trialVerdict]
  · rw [trialVerdict, ← trialHit_eq_none]
    simp only [List.head?_cons, Option.mem_def, Option.some.injEq, forall_eq',
      isStation_iff_toNat]
    by_cases hst : 1 ≤ b.toNat ∧ b.toNat ≤ 247
    · rw [if_neg (not_not.mpr hst)]
      cases trialHit (b :: w) (min (b :: w).length maxFrame) with
      | none => exact iff_of_true rfl ⟨hst, rfl⟩
      | some flen => simp
    · simp [hst]

theorem trialVerdict_append (v : List UInt8) (h : trialVerdict w ≠ .wait) :
    trialVerdict (w ++ v) = trialVerdict w := by
  cases hv : trialVerdict w with
  | wait => exact absurd hv h
  | drop =>
    rcases w with _ | ⟨b, w⟩
    · cases hv
    · exact trialVerdict_eq_drop.mpr (trialVerdict_eq_drop.mp hv)
  | take n frame =>
    -- The trial stops at its first hit, and none of the lengths up to it sees `v`.
    obtain ⟨⟨b, hb, hst⟩, hhit, rfl⟩ := trialVerdict_eq_take.mp hv
    obtain ⟨⟨hmin, hmax⟩, hcrc, hshort⟩ := trialHit_eq_some.mp hhit
    have hn : n ≤ w.length := by omega
    have htwo : 2 ≤ n := le_trans (by decide) hmin
    refine trialVerdict_eq_take.mpr ⟨⟨b, List.mem_head?_append_of_mem_head? hb, hst⟩, ?_, ?_⟩
    · refine trialHit_eq_some.mpr ⟨⟨hmin, ?_⟩, ?_, ?_⟩
      · rw [List.length_append]
        omega
      · rw [isHit_append v htwo hn, hcrc]
      · intro len h₁ h₂
        rw [isHit_append v (le_trans (by decide) h₁) (by omega)]
        exact hshort len h₁ h₂
    · rw [List.take_append_of_le_length hn]

end Verdict

/-- **The turns of the scripts' loop form a scanner**: it reports each frame by its bytes. -/
def trialScanner : Scanner UInt8 (List UInt8) where
  verdict := trialVerdict
  verdict_nil := rfl
  take_bound h := by
    obtain ⟨-, hhit, -⟩ := trialVerdict_eq_take.mp h
    obtain ⟨⟨hmin, hmax⟩, -⟩ := trialHit_eq_some.mp hhit
    rw [minFrame] at hmin
    omega
  stable := trialVerdict_append

@[simp] theorem trialScanner_verdict (w : List UInt8) :
    trialScanner.verdict w = trialVerdict w := rfl

/-- A frame that was cut starts with a legal station byte, and its length is within the bounds. -/
structure IsCut (frame : List UInt8) : Prop where
  station : ∃ b ∈ frame.head?, IsStation b
  min_le : minFrame ≤ frame.length
  le_max : frame.length ≤ maxFrame

/-- A token is reported by its bytes. -/
theorem isCut_of_token {w r raw frame : List UInt8} {ps : List (Piece UInt8 (List UInt8))}
    (h : trialScanner.Reads w ps r) (hmem : .token raw frame ∈ ps) : raw = frame ∧ IsCut frame := by
  induction h with
  | wait _ => cases hmem
  | drop _ _ ih =>
    rcases List.mem_cons.mp hmem with heq | hmem
    · cases heq
    · exact ih hmem
  | @take w r n out ps hv _ ih =>
    rcases List.mem_cons.mp hmem with heq | hmem
    · injection heq with hraw hout
      obtain ⟨⟨b, hb, hst⟩, hhit, htake⟩ := trialVerdict_eq_take.mp hv
      obtain ⟨⟨hmin, hmax⟩, -⟩ := trialHit_eq_some.mp hhit
      have hlen : (w.take n).length = n := List.length_take_of_le (by omega)
      have hpos : 0 < n := Nat.zero_lt_of_lt hmin
      rw [hraw, hout, htake]
      refine ⟨rfl, ⟨b, ?_, hst⟩, by omega, by omega⟩
      rw [List.head?_take, if_neg (Nat.ne_of_gt hpos)]
      exact hb
    · exact ih hmem

/-- The bytes of a stream: those of the frames, those slid over, and those left. -/
theorem length_scan (w : List UInt8) :
    w.length = ((Piece.outs (trialScanner.scan w).1).map List.length).sum +
      Piece.drops (trialScanner.scan w).1 + (trialScanner.scan w).2.length := by
  have hsum : ∀ {ps : List (Piece UInt8 (List UInt8))},
      (∀ raw frame, .token raw frame ∈ ps → raw = frame) →
        (ps.flatMap Piece.raw).length =
          ((Piece.outs ps).map List.length).sum + Piece.drops ps := by
    intro ps
    induction ps with
    | nil => exact fun _ => rfl
    | cons p ps ih =>
      intro htok
      have hrest := ih fun raw frame hmem => htok raw frame (List.mem_cons_of_mem _ hmem)
      rw [List.flatMap_cons, List.length_append, hrest]
      cases p with
      | token raw frame =>
        rw [Piece.raw_token, htok raw frame List.mem_cons_self, Piece.outs_token,
          Piece.drops_token, List.map_cons, List.sum_cons, Nat.add_assoc]
      | junk a =>
        rw [Piece.raw_junk, Piece.outs_junk, Piece.drops_junk, List.length_singleton]
        omega
  have hreads := trialScanner.reads_scan w
  have hraw := congrArg List.length hreads.raw
  rw [List.length_append, hsum fun raw frame hmem => (isCut_of_token hreads hmem).1] at hraw
  exact hraw.symm

/-- What a script does for a piece of the stream. -/
def turn (skip : σ → σ) (take : σ → List UInt8 → σ) (s : σ) :
    Piece UInt8 (List UInt8) → σ
  | .token _ frame => take s frame
  | .junk _ => skip s

/-- **The loop keeps its state along the scanner's reading.** -/
theorem cutLoop_eq (skip : σ → σ) (take : σ → List UInt8 → σ) (out : List UInt8) (pos : ℕ)
    (s : σ) :
    cutLoop skip take out pos s = trialScanner.replay (turn skip take) s (out.drop pos) := by
  fun_induction cutLoop skip take out pos s with
  | case1 pos s h hst ih =>
    -- No station byte: one byte is slid over.
    have hcut : out.drop pos = out[pos] :: out.drop (pos + 1) := List.drop_eq_getElem_cons h
    have hv : trialScanner.verdict (out[pos] :: out.drop (pos + 1)) = .drop :=
      trialVerdict_eq_drop.mpr (mt isStation_iff_toNat.mp hst)
    rw [ih, hcut, Scanner.replay, Scanner.replay, trialScanner.scan_of_drop hv]
    rfl
  | case2 pos s h hst hit =>
    -- No candidate passes: the loop ends.
    have hhead : (out.drop pos).head? = some out[pos] := by
      rw [List.head?_drop, List.getElem?_eq_getElem h]
    have hv : trialVerdict (out.drop pos) = .wait := by
      refine trialVerdict_eq_wait.mpr ?_
      intro b hb
      obtain rfl : out[pos] = b := by simpa [hhead] using hb
      rw [List.length_drop]
      exact ⟨isStation_iff_toNat.mpr (not_not.mp hst), trialHit_eq_none.mp hit⟩
    rw [Scanner.replay, trialScanner.scan_of_wait hv]
    rfl
  | case3 pos s h hst flen hit ih =>
    -- The first candidate that passes is a frame.
    have hhead : (out.drop pos).head? = some out[pos] := by
      rw [List.head?_drop, List.getElem?_eq_getElem h]
    have hv : trialVerdict (out.drop pos) = .take flen ((out.drop pos).take flen) :=
      trialVerdict_eq_take.mpr ⟨⟨out[pos], hhead, isStation_iff_toNat.mpr (not_not.mp hst)⟩,
        by rw [List.length_drop, hit], rfl⟩
    rw [ih, Scanner.replay, Scanner.replay, trialScanner.scan_of_take hv, List.drop_drop]
    rfl
  | case4 pos s h =>
    -- All of it is read.
    have hnil : out.drop pos = [] := List.drop_eq_nil_of_le (by omega)
    rw [hnil, Scanner.replay, trialScanner.scan_of_wait trialScanner.verdict_nil]
    rfl

/-- `extract_frames`: the frames in the buffer, and the bytes left. -/
def extractFrames (buf : List UInt8) : List (List UInt8) × List UInt8 :=
  cutLoop id (fun frames frame => frames ++ [frame]) buf 0 []

theorem extractFrames_eq (buf : List UInt8) :
    extractFrames buf = (Piece.outs (trialScanner.scan buf).1, (trialScanner.scan buf).2) := by
  have hfold : ∀ (ps : List (Piece UInt8 (List UInt8))) (frames : List (List UInt8)),
      ps.foldl (turn id fun frames frame => frames ++ [frame]) frames =
        frames ++ Piece.outs ps := by
    intro ps
    induction ps with
    | nil => exact fun frames => (List.append_nil frames).symm
    | cons p ps ih =>
      intro frames
      cases p with
      | token raw frame =>
        rw [List.foldl_cons, turn, ih, Piece.outs_token, List.append_assoc, List.singleton_append]
      | junk a => rw [List.foldl_cons, turn, id, ih, Piece.outs_junk]
  rw [extractFrames, cutLoop_eq, List.drop_zero, Scanner.replay, hfold, List.nil_append]

/-! ## Waiting for good -/

/-- With a full trial in sight, or all of it but a last byte that cannot complete it, no byte that
follows makes a difference. -/
def Stalled (held : List UInt8) : Prop :=
  maxFrame ≤ held.length ∨ held.length + 1 = maxFrame ∧
    held.getD (maxFrame - 2) 0 ≠ loByte (crc16 (held.take (maxFrame - 2)))

instance (held : List UInt8) : Decidable (Stalled held) := inferInstanceAs (Decidable (_ ∨ _))

variable {held : List UInt8}

/-- The scripts go on waiting where they have stalled. -/
theorem Stalled.wait (h : Stalled held) (hwait : trialVerdict held = .wait) (more : List UInt8) :
    trialVerdict (held ++ more) = .wait := by
  refine trialVerdict_eq_wait.mpr ?_
  intro b hb
  have hne : held ≠ [] := by
    rintro rfl
    rcases h with h | ⟨h, -⟩ <;> simp [maxFrame] at h
  obtain ⟨a, t, rfl⟩ := List.exists_cons_of_ne_nil hne
  obtain ⟨hst, hno⟩ := trialVerdict_eq_wait.mp hwait a rfl
  obtain rfl : a = b := by simpa using hb
  refine ⟨hst, ?_⟩
  intro len hmin hmax
  have htwo : 2 ≤ len := le_trans (by decide) hmin
  by_cases hin : len ≤ (a :: t).length
  · rw [isHit_append more htwo hin]
    exact hno len hmin (by omega)
  · -- Only the longest candidate reaches beyond what is held, and its first CRC byte is wrong.
    rcases h with h | ⟨hlen, hlo⟩
    · omega
    · obtain rfl : len = maxFrame := by omega
      have hfull : maxFrame ≤ (a :: t ++ more).length := by omega
      by_contra hhit
      rw [Bool.not_eq_false, isHit_eq htwo hfull] at hhit
      obtain ⟨n, hn⟩ : ∃ n, maxFrame = n + 2 := ⟨4198, rfl⟩
      rw [hn] at hhit hlo hlen
      rw [crcMatches_add_two, List.take_append_of_le_length (by omega)] at hhit
      have hget : (a :: t ++ more).getD n 0 = (a :: t).getD n 0 :=
        List.getD_append _ _ _ _ (by omega)
      rw [Nat.add_sub_cancel] at hlo
      rw [hhit, loByte_wordOf, hget] at hlo
      exact hlo rfl

/-- A hit within the bounds brings out a frame. -/
theorem outs_ne_nil_of_isHit {w : List UInt8} {n : ℕ} (hst : ∃ b ∈ w.head?, IsStation b)
    (hmin : minFrame ≤ n) (hmax : n ≤ min w.length maxFrame) (hhit : isHit w n = true) :
    Piece.outs (trialScanner.scan w).1 ≠ [] := by
  cases htrial : trialHit w (min w.length maxFrame) with
  | none =>
    rw [trialHit_eq_none.mp htrial n hmin hmax] at hhit
    cases hhit
  | some m =>
    have hv : trialScanner.verdict w = .take m (w.take m) :=
      trialVerdict_eq_take.mpr ⟨hst, htrial, rfl⟩
    rw [trialScanner.scan_of_take hv, Piece.outs_token]
    exact List.cons_ne_nil _ _

/-- The last byte of the longest candidate can complete its CRC. -/
theorem exists_outs_of_last {a : UInt8} {t : List UInt8} (hst : IsStation a)
    (hlen : (a :: t).length + 1 = maxFrame)
    (hlo : (a :: t).getD (maxFrame - 2) 0 = loByte (crc16 ((a :: t).take (maxFrame - 2)))) :
    ∃ more, Piece.outs (trialScanner.scan (a :: t ++ more)).1 ≠ [] := by
  obtain ⟨n, hn⟩ : ∃ n, maxFrame = n + 2 := ⟨4198, rfl⟩
  rw [hn, Nat.add_sub_cancel] at hlo
  rw [hn] at hlen
  refine ⟨[hiByte (crc16 ((a :: t).take n))], ?_⟩
  refine outs_ne_nil_of_isHit ⟨a, rfl, hst⟩ (n := n + 2) ?_ ?_ ?_
  · rw [← hn]
    decide
  · rw [hn, List.length_append, List.length_singleton]
    omega
  · rw [isHit_eq (by omega) (by rw [List.length_append, List.length_singleton]; omega),
      crcMatches_add_two, List.take_append_of_le_length (by omega),
      List.getD_append _ _ _ n (by omega), hlo]
    have hhi : (a :: t ++ [hiByte (crc16 ((a :: t).take n))]).getD (n + 1) 0 =
        hiByte (crc16 ((a :: t).take n)) := by
      rw [List.getD_append_right _ _ _ _ (by omega)]
      have hzero : n + 1 - (a :: t).length = 0 := by omega
      rw [hzero]
      rfl
    rw [hhi, wordOf_bytes]

/-- What leaves room for a CRC can be filled up and completed to a frame. -/
theorem exists_outs_of_short {a : UInt8} {t : List UInt8} (hst : IsStation a)
    (hshort : (a :: t).length + 2 ≤ maxFrame) :
    ∃ more, Piece.outs (trialScanner.scan (a :: t ++ more)).1 ≠ [] := by
  let front := a :: t ++ List.replicate (4 - (a :: t).length) 0
  have hfront : front = a :: t ++ List.replicate (4 - (a :: t).length) 0 := rfl
  have hflen : front.length = max (a :: t).length 4 := by
    rw [hfront, List.length_append, List.length_replicate]
    omega
  have hclen : (front ++ crcBytes (crc16 front)).length = front.length + 2 := by
    rw [List.length_append]
    rfl
  refine ⟨List.replicate (4 - (a :: t).length) 0 ++ crcBytes (crc16 front), ?_⟩
  rw [← List.append_assoc, ← hfront]
  refine outs_ne_nil_of_isHit ⟨a, rfl, hst⟩ (n := front.length + 2) ?_ ?_ ?_
  · rw [minFrame]
    omega
  · rw [hclen, maxFrame] at *
    omega
  · rw [isHit_eq (by omega) hclen.ge, crcMatches_iff (by omega) hclen.ge, Nat.add_sub_cancel,
      ← hclen, List.take_length, List.take_left]

/-- **When a waiting script has stopped reading for good**: no continuation brings out a frame
exactly when the bytes held leave no candidate open. -/
theorem silent_iff (hne : held ≠ []) (hwait : trialVerdict held = .wait) :
    (∀ more, Piece.outs (trialScanner.scan (held ++ more)).1 = []) ↔ Stalled held := by
  obtain ⟨a, t, rfl⟩ := List.exists_cons_of_ne_nil hne
  obtain ⟨hst, -⟩ := trialVerdict_eq_wait.mp hwait a rfl
  constructor
  · intro h
    by_contra hopen
    rw [Stalled, not_or, not_le, not_and, not_not] at hopen
    obtain ⟨hlt, hlast⟩ := hopen
    have hframe : ∃ more, Piece.outs (trialScanner.scan (a :: t ++ more)).1 ≠ [] := by
      by_cases hlen : (a :: t).length + 1 = maxFrame
      · exact exists_outs_of_last hst hlen (hlast hlen)
      · exact exists_outs_of_short hst (by omega)
    obtain ⟨more, hmore⟩ := hframe
    exact hmore (h more)
  · intro h more
    have hv : trialScanner.verdict (a :: t ++ more) = .wait := h.wait hwait more
    rw [trialScanner.scan_of_wait hv, Piece.outs_nil]

/-- Zeros behind bytes that are no frame make none of them either. -/
theorem crc16_append_zeros_ne {f : List UInt8} (h : crc16 f ≠ 0) (n : ℕ) :
    crc16 (f ++ List.replicate n 0) ≠ 0 := by
  induction n with
  | zero => simpa using h
  | succ n ih =>
    intro hzero
    rw [List.replicate_succ', ← List.append_assoc, ← UInt16.toBitVec_inj, crc16_toBitVec,
      bits_append, ShiftRegister.feed_append, ← crc16_toBitVec] at hzero
    have hbyte : bits [0] = List.replicate 8 false := rfl
    rw [hbyte, ShiftRegister.feed_replicate_false] at hzero
    exact ih (UInt16.toBitVec_inj.mp (ShiftRegister.iterate_shift_eq_zero msb_crcPoly hzero))

/-- A station byte and zeros: the scripts wait, however many there are. -/
theorem trialVerdict_zeros (n : ℕ) : trialVerdict (1 :: List.replicate n 0) = .wait := by
  refine trialVerdict_eq_wait.mpr ?_
  intro b hb
  obtain rfl : 1 = b := by simpa using hb
  refine ⟨by decide, ?_⟩
  intro len hmin hmax
  have hlen : 6 ≤ len := hmin
  have hle : len ≤ (1 :: List.replicate n (0 : UInt8)).length := hmax.trans (min_le_left _ _)
  rw [List.length_cons, List.length_replicate] at hle
  have htake : (1 :: List.replicate n (0 : UInt8)).take len =
      [1] ++ List.replicate (len - 1) 0 := by
    obtain ⟨k, rfl⟩ : ∃ k, len = k + 1 := ⟨len - 1, by omega⟩
    rw [List.take_succ_cons, List.take_replicate, min_eq_left (by omega), Nat.add_sub_cancel,
      List.singleton_append]
  have hfull : ((1 :: List.replicate n (0 : UInt8)).take len).length = len := by
    rw [List.length_take, List.length_cons, List.length_replicate]
    omega
  -- A candidate passes exactly when its CRC leaves nothing, and zeros never make up for the 1.
  have hne : crc16 ((1 :: List.replicate n (0 : UInt8)).take len) ≠ 0 := by
    rw [htake]
    exact crc16_append_zeros_ne (by decide) _
  rw [isHit_eq (by omega) (by simpa using hle), ← Bool.not_eq_true]
  intro hcrc
  rw [← List.take_append_drop len (1 :: List.replicate n (0 : UInt8)),
    crcMatches_append _ (by omega) hfull.ge] at hcrc
  rw [Ne, crc16_eq_zero_iff (by omega), hfull] at hne
  exact hne hcrc

/-! ## The scripts and the driver -/

/-- A frame as it went over the wire. -/
def wireBytes (f : DecodedFrame) : List UInt8 :=
  let front := f.station :: f.functionCode :: f.data
  front ++ crcBytes (crc16 front)

theorem wireBytes_decodeCandidate {cap n : ℕ} {w : List UInt8} (h : FrameAt cap w n) :
    wireBytes (decodeCandidate w n) = w.take n := by
  have hcap : kMinFrameLen ≤ cap := h.min_le.trans h.le_cap
  have hat : FrameAt (⟨cap, [], 0, hcap⟩ : ModbusFrameCodec).maxFrameLen w n := h
  exact ((ModbusFrameCodec.encode_eq_some.mp (ModbusFrameCodec.encode_decodeCandidate hat)).2).symm

/-- The driver's reading of a stream that the scripts share: each frame is long enough for their
trial, and no byte is given up that could be a station. -/
structure DriverCutsAlike (ps : List (Piece UInt8 DecodedFrame)) : Prop where
  min_le : ∀ f ∈ Piece.outs ps, minFrame ≤ f.data.length + 4
  not_isStation : ∀ a, .junk a ∈ ps → ¬ IsStation a

section Driver

variable {cap : ℕ} {w : List UInt8}

/-- The driver's frame is the scripts' frame where it is long enough for their trial. -/
theorem trialVerdict_of_take {n : ℕ} {f : DecodedFrame} (hcap : cap ≤ maxFrame)
    (h : frameVerdict cap w = .take n f) (hmin : minFrame ≤ n) :
    trialVerdict w = .take n (w.take n) := by
  obtain ⟨hf, hshort, -⟩ := verdict_eq_take.mp h
  have hle := hf.le_length
  have hlecap := hf.le_cap
  refine trialVerdict_eq_take.mpr ⟨hf.station, trialHit_eq_some.mpr ⟨⟨hmin, ?_⟩, ?_, ?_⟩, rfl⟩
  · omega
  · rw [isHit_eq (two_le_of_min_le hf.min_le) hle, hf.crc]
  · intro len h₁ h₂
    have htwo : 2 ≤ len := le_trans (by decide) h₁
    rw [isHit_eq htwo (by omega)]
    exact hshort len (le_trans (by decide) h₁) h₂

theorem trialVerdict_of_wait (h : frameVerdict cap w = .wait) : trialVerdict w = .wait := by
  refine trialVerdict_eq_wait.mpr ?_
  intro b hb
  obtain ⟨hst, -, hno⟩ := verdict_eq_wait.mp h b hb
  refine ⟨hst, ?_⟩
  intro len h₁ h₂
  have hle : len ≤ w.length := h₂.trans (min_le_left _ _)
  rw [isHit_eq (le_trans (by decide) h₁) hle]
  exact hno len (le_trans (by decide) h₁) hle

/-- A frame the driver takes, by the data it reports. -/
theorem length_of_verdict {n : ℕ} {f : DecodedFrame} (h : frameVerdict cap w = .take n f) :
    f.data.length + 4 = n ∧ n ≤ cap ∧ wireBytes f = w.take n := by
  obtain ⟨hf, -, rfl⟩ := verdict_eq_take.mp h
  have hlen := hf.le_length
  have hmin := hf.min_le
  rw [kMinFrameLen] at hmin
  refine ⟨?_, hf.le_cap, wireBytes_decodeCandidate hf⟩
  simp only [decodeCandidate, List.length_drop, List.length_take]
  omega

/-- What the driver's reading of `w` says of the frames and of the bytes left. -/
def SameCut (ps : List (Piece UInt8 DecodedFrame)) (r w : List UInt8) : Prop :=
  extractFrames w = ((Piece.outs ps).map wireBytes, r)

theorem extractFrames_of_drop {b : UInt8} (h : ¬ IsStation b) :
    extractFrames (b :: w) = extractFrames w := by
  have hv : trialScanner.verdict (b :: w) = .drop := trialVerdict_eq_drop.mpr h
  rw [extractFrames_eq, extractFrames_eq, trialScanner.scan_of_drop hv, Piece.outs_junk]

theorem extractFrames_of_take {n : ℕ} (h : trialVerdict w = .take n (w.take n)) :
    extractFrames w =
      (w.take n :: (extractFrames (w.drop n)).1, (extractFrames (w.drop n)).2) := by
  have hv : trialScanner.verdict w = .take n (w.take n) := h
  rw [extractFrames_eq, extractFrames_eq, trialScanner.scan_of_take hv, Piece.outs_token]

theorem extractFrames_of_wait (h : trialVerdict w = .wait) : extractFrames w = ([], w) := by
  have hv : trialScanner.verdict w = .wait := h
  rw [extractFrames_eq, trialScanner.scan_of_wait hv, Piece.outs_nil]

/-- A reading that the scripts share, piece by piece. -/
theorem sameCut_of_cutsAlike {ps : List (Piece UInt8 DecodedFrame)} {r : List UInt8}
    (hcap : cap ≤ maxFrame) (h : (frameScanner cap).Reads w ps r) (halike : DriverCutsAlike ps) :
    SameCut ps r w := by
  induction h with
  | wait hv => exact extractFrames_of_wait (trialVerdict_of_wait hv)
  | @drop a w r ps hv _ ih =>
    have hrest : DriverCutsAlike ps :=
      ⟨halike.min_le, fun b hb => halike.not_isStation b (List.mem_cons_of_mem _ hb)⟩
    rw [SameCut, extractFrames_of_drop (halike.not_isStation a (by simp))]
    exact ih hrest
  | @take w r n f ps hv _ ih =>
    have hrest : DriverCutsAlike ps :=
      ⟨fun g hg => halike.min_le g (List.mem_cons_of_mem _ hg),
        fun b hb => halike.not_isStation b (List.mem_cons_of_mem _ hb)⟩
    obtain ⟨hlen, -, hwire⟩ := length_of_verdict hv
    have hmin : minFrame ≤ n := hlen ▸ halike.min_le f (by simp)
    rw [SameCut, extractFrames_of_take (trialVerdict_of_take hcap hv hmin), ih hrest,
      Piece.outs_token, List.map_cons, hwire]

/-- Where the first piece is not shared, the frames or the bytes left tell. -/
theorem cutsAlike_of_sameCut {ps : List (Piece UInt8 DecodedFrame)} {r : List UInt8}
    (h : (frameScanner cap).Reads w ps r) (hsame : SameCut ps r w) : DriverCutsAlike ps := by
  induction h with
  | wait _ => exact ⟨by simp, by simp⟩
  | @drop a w r ps hv hread ih =>
    by_cases hst : IsStation a
    · exfalso
      rcases verdict_eq_drop.mp hv with hnot | ⟨hlen, hno⟩
      · exact hnot hst
      cases htrial : trialVerdict (a :: w) with
      | wait =>
        -- The script stands where the driver has gone on.
        rw [SameCut, extractFrames_of_wait htrial, Prod.mk.injEq] at hsame
        have hraw := congrArg List.length hread.raw
        rw [List.length_append, ← hsame.2, List.length_cons] at hraw
        omega
      | drop => exact trialVerdict_eq_drop.mp htrial hst
      | take n frame =>
        -- The script has found a frame longer than any of the driver's.
        obtain ⟨-, hhit, rfl⟩ := trialVerdict_eq_take.mp htrial
        obtain ⟨⟨hmin, hmax⟩, hcrc, -⟩ := trialHit_eq_some.mp hhit
        have hn : n ≤ (a :: w).length := hmax.trans (min_le_left _ _)
        have hlong : cap < n := by
          by_contra hle
          rw [isHit_eq (le_trans (by decide) hmin) hn,
            hno n (le_trans (by decide) hmin) (not_lt.mp hle)] at hcrc
          cases hcrc
        rw [SameCut, extractFrames_of_take htrial, Prod.mk.injEq, Piece.outs_junk] at hsame
        obtain ⟨f, hf, hwire⟩ : ∃ f ∈ Piece.outs ps, wireBytes f = (a :: w).take n := by
          have hmem : (a :: w).take n ∈ (Piece.outs ps).map wireBytes := by
            rw [← hsame.1]
            exact List.mem_cons_self
          exact List.mem_map.mp hmem
        obtain ⟨raw, hmem⟩ := Piece.mem_outs hf
        obtain ⟨v, htake⟩ := hread.exists_verdict hmem
        obtain ⟨hflen, hfcap, hfwire⟩ := length_of_verdict htake
        have hbytes := congrArg List.length hwire
        rw [List.length_take_of_le hn] at hbytes
        have hfl : (wireBytes f).length = f.data.length + 4 := by simp [wireBytes, crcBytes]
        omega
    · rw [SameCut, extractFrames_of_drop hst] at hsame
      obtain ⟨hmin, hnot⟩ := ih hsame
      refine ⟨hmin, ?_⟩
      intro b hb
      rcases List.mem_cons.mp hb with heq | hb
      · injection heq with heq
        exact heq ▸ hst
      · exact hnot b hb
  | @take w r n f ps hv hread ih =>
    obtain ⟨hflen, -, hwire⟩ := length_of_verdict hv
    have hle := (verdict_eq_take.mp hv).1.le_length
    rw [SameCut, Piece.outs_token, List.map_cons, hwire] at hsame
    cases htrial : trialVerdict w with
    | wait =>
      rw [extractFrames_of_wait htrial] at hsame
      cases congrArg Prod.fst hsame
    | drop =>
      obtain ⟨b, hb, hst⟩ := (verdict_eq_take.mp hv).1.station
      rcases w with _ | ⟨a, w⟩
      · cases hb
      · obtain rfl : a = b := by simpa using hb
        exact absurd hst (trialVerdict_eq_drop.mp htrial)
    | take m frame =>
      obtain ⟨-, hhit, rfl⟩ := trialVerdict_eq_take.mp htrial
      obtain ⟨⟨hmin, hmax⟩, -⟩ := trialHit_eq_some.mp hhit
      rw [extractFrames_of_take htrial, Prod.mk.injEq, List.cons.injEq] at hsame
      obtain ⟨⟨hfirst, hlater⟩, hrest⟩ := hsame
      -- Both took a front of the same bytes, so they took as many.
      obtain rfl : m = n := by
        have hlen := congrArg List.length hfirst
        rw [List.length_take_of_le (by omega), List.length_take_of_le hle] at hlen
        exact hlen
      obtain ⟨hall, hnot⟩ := ih (Prod.ext hlater hrest)
      refine ⟨?_, ?_⟩
      · intro g hg
        rcases List.mem_cons.mp hg with rfl | hg
        · rw [hflen]
          exact hmin
        · exact hall g hg
      · intro b hb
        rcases List.mem_cons.mp hb with heq | hb
        · cases heq
        · exact hnot b hb

/-- **When the scripts and the driver cut a stream alike**: a script that is given the bytes of a
stream finds the driver's frames and is left with the driver's bytes exactly when each of those
frames has two bytes of data or more and the driver gave up no byte that could be a station. -/
theorem extractFrames_eq_feed_iff (c : ModbusFrameCodec) (hcap : c.maxFrameLen ≤ kMaxFrameLen)
    (hempty : c.buffer = []) (w : List UInt8) :
    extractFrames w = ((c.feed w).2.map wireBytes, (c.feed w).1.buffer) ↔
      (∀ f ∈ (c.feed w).2, 2 ≤ f.data.length) ∧
        ∀ a, .junk a ∈ ((frameScanner c.maxFrameLen).scan w).1 → ¬ IsStation a := by
  have hread := (frameScanner c.maxFrameLen).reads_scan w
  have hle : c.maxFrameLen ≤ maxFrame := hcap.trans (by decide)
  rw [ModbusFrameCodec.frames_feed, ModbusFrameCodec.buffer_feed, hempty, List.nil_append]
  constructor
  · intro hsame
    obtain ⟨hmin, hnot⟩ := cutsAlike_of_sameCut hread hsame
    refine ⟨?_, hnot⟩
    intro f hf
    have hlong : 6 ≤ f.data.length + 4 := hmin f hf
    omega
  · rintro ⟨hmin, hnot⟩
    refine sameCut_of_cutsAlike hle hread ⟨?_, hnot⟩
    intro f hf
    exact Nat.add_le_add_right (hmin f hf) 4

/-- The frame of `hi` is found by both; a frame without data is one for the driver alone. -/
theorem extractFrames_eq_feed_iff_hi :
    let c := ModbusFrameCodec.new 4095
    let hi : List UInt8 := [0x05, 0x10, 0x68, 0x69, 0xEE, 0xC3]
    let ping : List UInt8 := [0x01, 0x03, 0x40, 0x21]
    extractFrames hi = ((c.feed hi).2.map wireBytes, (c.feed hi).1.buffer) ∧
      extractFrames ping ≠ ((c.feed ping).2.map wireBytes, (c.feed ping).1.buffer) := by
  intro c hi ping
  have hnil : (frameScanner 4095).scan [] = ([], []) :=
    (frameScanner 4095).scan_of_wait (frameScanner 4095).verdict_nil
  have hlong : (frameScanner 4095).scan hi = ([.token hi ⟨0x05, 0x10, [0x68, 0x69]⟩], []) := by
    have hv : (frameScanner 4095).verdict hi = .take 6 ⟨0x05, 0x10, [0x68, 0x69]⟩ := by
      decide +kernel
    have hrest : hi.drop 6 = [] := rfl
    rw [(frameScanner 4095).scan_of_take hv, hrest, hnil]
    rfl
  have hshort : (frameScanner 4095).scan ping = ([.token ping ⟨0x01, 0x03, []⟩], []) := by
    have hv : (frameScanner 4095).verdict ping = .take 4 ⟨0x01, 0x03, []⟩ := by decide +kernel
    have hrest : ping.drop 4 = [] := rfl
    rw [(frameScanner 4095).scan_of_take hv, hrest, hnil]
    rfl
  have hframes : ∀ w, (c.feed w).2 = Piece.outs ((frameScanner 4095).scan w).1 := by
    intro w
    rw [ModbusFrameCodec.frames_feed]
    rfl
  constructor
  · refine (extractFrames_eq_feed_iff c (by decide) rfl hi).mpr ⟨?_, ?_⟩
    · rw [hframes, hlong]
      simp
    · change ∀ a, .junk a ∈ ((frameScanner 4095).scan hi).1 → _
      rw [hlong]
      simp
  · rw [Ne, extractFrames_eq_feed_iff c (by decide) rfl ping, hframes, hshort]
    simp

end Driver

end Ds10Script

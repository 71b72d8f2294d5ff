import Mathlib.Data.List.Basic

/-!
# Incremental scanners

A scanner cuts a stream into tokens while the stream is still arriving. From its position it
sees the elements received so far and waits, drops one element, or takes a token off the front.
A scanner is *stable*: what it decides without waiting, it would decide with more elements in
sight as well. Stability is what makes the reading of a stream independent of the chunks the
stream arrives in.

## Main definitions

* `Scanner`: a stable decision on the elements in sight
* `Scanner.Reads S w ps r`: read greedily, `w` is cut into the pieces `ps` and the rest `r`
* `Scanner.scan S w`: the greedy reading, computed
* `Scanner.replay S f s w`: a state kept along the reading

## Main results

* `Scanner.reads_iff`: `scan` computes the greedy reading
* `Scanner.scan_append`, `Scanner.replay_append`: scanning resumes at the rest, wherever the stream
  was cut
* `Scanner.Reads.raw`: the pieces and the rest are the stream
* `Scanner.Reads.spaced`: how far tokens of a kind reach that lie apart
* `Scanner.scan_tokens`, `Scanner.scan_tokens_append`: a stream glued from tokens is cut back into
  them
-/

universe u v

/-- What a scanner decides on the elements in sight. -/
inductive Verdict (β : Type v) where
  | wait
  | drop
  | take (len : ℕ) (out : β)
  deriving DecidableEq

/-- A stable decision on the elements in sight: a token lies within sight and is not empty, and
further elements change nothing that was decided without waiting. -/
structure Scanner (α : Type u) (β : Type v) where
  verdict : List α → Verdict β
  verdict_nil : verdict [] = .wait
  take_bound : ∀ {w : List α} {n : ℕ} {b : β}, verdict w = .take n b → 0 < n ∧ n ≤ w.length
  stable : ∀ {w : List α} (v : List α), verdict w ≠ .wait → verdict (w ++ v) = verdict w

/-- A piece of a scanned stream: a token with its elements, or a dropped element. -/
inductive Piece (α : Type u) (β : Type v) where
  | token (raw : List α) (out : β)
  | junk (a : α)

namespace Piece

variable {α : Type u} {β : Type v}

/-- The elements of a piece. -/
def raw : Piece α β → List α
  | token w _ => w
  | junk a => [a]

/-- The token of a piece. -/
def out? : Piece α β → Option β
  | token _ b => some b
  | junk _ => none

/-- A piece is a dropped element. -/
def isJunk : Piece α β → Bool
  | token _ _ => false
  | junk _ => true

@[simp] theorem raw_token (w : List α) (b : β) : (token w b).raw = w := rfl
@[simp] theorem raw_junk (a : α) : (junk a : Piece α β).raw = [a] := rfl
@[simp] theorem out?_token (w : List α) (b : β) : (token w b).out? = some b := rfl
@[simp] theorem out?_junk (a : α) : (junk a : Piece α β).out? = none := rfl
@[simp] theorem isJunk_token (w : List α) (b : β) : (token w b).isJunk = false := rfl
@[simp] theorem isJunk_junk (a : α) : (junk a : Piece α β).isJunk = true := rfl

/-- The tokens among the pieces, in order. -/
def outs (ps : List (Piece α β)) : List β := ps.filterMap out?

/-- The number of dropped elements among the pieces. -/
def drops (ps : List (Piece α β)) : ℕ := ps.countP isJunk

/-- The number of tokens of a kind among the pieces. -/
def tokens (kind : β → Bool) (ps : List (Piece α β)) : ℕ := (outs ps).countP kind

variable (w : List α) (a : α) (b : β) (ps qs : List (Piece α β)) {kind : β → Bool}

@[simp] theorem outs_nil : outs ([] : List (Piece α β)) = [] := rfl
@[simp] theorem outs_token : outs (token w b :: ps) = b :: outs ps := rfl
@[simp] theorem outs_junk : outs (junk a :: ps) = outs ps := rfl
@[simp] theorem outs_append : outs (ps ++ qs) = outs ps ++ outs qs := List.filterMap_append
@[simp] theorem drops_nil : drops ([] : List (Piece α β)) = 0 := rfl
@[simp] theorem drops_token : drops (token w b :: ps) = drops ps :=
  List.countP_cons_of_neg (by simp)
@[simp] theorem drops_junk : drops (junk a :: ps) = drops ps + 1 := List.countP_cons_of_pos rfl
@[simp] theorem drops_append : drops (ps ++ qs) = drops ps + drops qs := List.countP_append

@[simp] theorem tokens_nil : tokens kind ([] : List (Piece α β)) = 0 := rfl
@[simp] theorem tokens_junk : tokens kind (junk a :: ps) = tokens kind ps := rfl
@[simp] theorem tokens_append : tokens kind (ps ++ qs) = tokens kind ps + tokens kind qs := by
  rw [tokens, outs_append, List.countP_append, tokens, tokens]

variable {b} in
theorem tokens_of_kind (h : kind b = true) :
    tokens kind (token w b :: ps) = tokens kind ps + 1 := by
  rw [tokens, outs_token, List.countP_cons_of_pos h, tokens]

variable {b} in
theorem tokens_of_not_kind (h : kind b ≠ true) :
    tokens kind (token w b :: ps) = tokens kind ps := by
  rw [tokens, outs_token, List.countP_cons_of_neg h, tokens]

@[simp] theorem raw_map_junk : (w.map (junk : α → Piece α β)).flatMap raw = w := by
  simp [List.flatMap_map]

@[simp] theorem outs_map_junk : outs (w.map (junk : α → Piece α β)) = [] := by
  simp [outs]

@[simp] theorem drops_map_junk : drops (w.map (junk : α → Piece α β)) = w.length := by
  rw [drops, List.countP_eq_length.mpr (by simp), List.length_map]

theorem mem_outs {ps : List (Piece α β)} {b : β} (h : b ∈ outs ps) : ∃ w, token w b ∈ ps := by
  obtain ⟨piece, hmem, hout⟩ := List.mem_filterMap.mp h
  cases piece with
  | token w b' =>
    injection hout with hout
    exact ⟨w, hout ▸ hmem⟩
  | junk a => cases hout

theorem outs_zipWith_token {ws : List (List α)} {bs : List β} (h : ws.length = bs.length) :
    outs (List.zipWith token ws bs) = bs := by
  induction ws generalizing bs with
  | nil => rw [List.eq_nil_of_length_eq_zero h.symm]; rfl
  | cons w ws ih =>
    rcases bs with _ | ⟨b, bs⟩
    · cases h
    · rw [List.zipWith_cons_cons, outs_token, ih (Nat.succ.inj h)]

theorem drops_zipWith_token (ws : List (List α)) (bs : List β) :
    drops (List.zipWith token ws bs) = 0 := by
  induction ws generalizing bs with
  | nil => rfl
  | cons w ws ih =>
    rcases bs with _ | ⟨b, bs⟩
    · rfl
    · rw [List.zipWith_cons_cons, drops_token, ih]

end Piece

namespace Scanner

variable {α : Type u} {β : Type v} (S : Scanner α β)

/-- **The greedy reading** of `w`: the pieces `ps`, and the rest `r` the scanner waits at. -/
inductive Reads : List α → List (Piece α β) → List α → Prop
  | wait {w : List α} : S.verdict w = .wait → Reads w [] w
  | drop {a : α} {w r : List α} {ps : List (Piece α β)} :
      S.verdict (a :: w) = .drop → Reads w ps r → Reads (a :: w) (.junk a :: ps) r
  | take {w r : List α} {n : ℕ} {b : β} {ps : List (Piece α β)} :
      S.verdict w = .take n b → Reads (w.drop n) ps r →
        Reads w (.token (w.take n) b :: ps) r

/-- The greedy reading, computed: the pieces and the rest. -/
def scan (w : List α) : List (Piece α β) × List α :=
  match w with
  | [] => ([], [])
  | a :: w =>
    match _hv : S.verdict (a :: w) with
    | .wait => ([], a :: w)
    | .drop =>
      let r := scan w
      (.junk a :: r.1, r.2)
    | .take n b =>
      let r := scan ((a :: w).drop n)
      (.token ((a :: w).take n) b :: r.1, r.2)
termination_by w.length
decreasing_by
  · simp
  · have := (S.take_bound _hv).1
    simp only [List.length_drop, List.length_cons]
    omega

variable {S}

theorem Reads.unique {w : List α} {ps qs : List (Piece α β)} {r t : List α}
    (h : S.Reads w ps r) (h' : S.Reads w qs t) : ps = qs ∧ r = t := by
  induction h generalizing qs t with
  | wait hv =>
    cases h' with
    | wait _ => exact ⟨rfl, rfl⟩
    | drop hv' _ => simp [hv] at hv'
    | take hv' _ => simp [hv] at hv'
  | drop hv _ ih =>
    cases h' with
    | wait hv' => simp [hv] at hv'
    | drop _ h' =>
      obtain ⟨rfl, rfl⟩ := ih h'
      exact ⟨rfl, rfl⟩
    | take hv' _ => simp [hv] at hv'
  | take hv _ ih =>
    cases h' with
    | wait hv' => simp [hv] at hv'
    | drop hv' _ => simp [hv] at hv'
    | take hv' h' =>
      rw [hv] at hv'
      obtain ⟨rfl, rfl⟩ : _ = _ ∧ _ = _ := by simpa using hv'
      obtain ⟨rfl, rfl⟩ := ih h'
      exact ⟨rfl, rfl⟩

variable (S)

theorem reads_scan (w : List α) : S.Reads w (S.scan w).1 (S.scan w).2 := by
  fun_induction S.scan w with
  | case1 => exact .wait S.verdict_nil
  | case2 a w h => exact .wait h
  | case3 a w h r ih => exact .drop h ih
  | case4 a w n b h r ih => exact .take h ih

/-- **`scan` computes the greedy reading.** -/
theorem reads_iff {w : List α} {ps : List (Piece α β)} {r : List α} :
    S.Reads w ps r ↔ S.scan w = (ps, r) := by
  constructor
  · intro h
    obtain ⟨h₁, h₂⟩ := (S.reads_scan w).unique h
    exact Prod.ext h₁ h₂
  · intro h
    simpa [h] using S.reads_scan w

theorem scan_of_wait {w : List α} (h : S.verdict w = .wait) : S.scan w = ([], w) :=
  S.reads_iff.mp (.wait h)

theorem scan_of_drop {a : α} {w : List α} (h : S.verdict (a :: w) = .drop) :
    S.scan (a :: w) = (.junk a :: (S.scan w).1, (S.scan w).2) :=
  S.reads_iff.mp (.drop h (S.reads_scan w))

theorem scan_of_take {w : List α} {n : ℕ} {b : β} (h : S.verdict w = .take n b) :
    S.scan w = (.token (w.take n) b :: (S.scan (w.drop n)).1, (S.scan (w.drop n)).2) :=
  S.reads_iff.mp (.take h (S.reads_scan _))

variable {S}

/-- The scanner waits at the rest. -/
theorem Reads.verdict_rest {w r : List α} {ps : List (Piece α β)} (h : S.Reads w ps r) :
    S.verdict r = .wait := by
  induction h with
  | wait hv => exact hv
  | drop _ _ ih => exact ih
  | take _ _ ih => exact ih

/-- The pieces and the rest are the stream. -/
theorem Reads.raw {w r : List α} {ps : List (Piece α β)} (h : S.Reads w ps r) :
    ps.flatMap Piece.raw ++ r = w := by
  induction h with
  | wait _ => rfl
  | drop _ _ ih => simpa using ih
  | take _ _ ih => simp [ih]

/-- A token was decided on somewhere. -/
theorem Reads.exists_verdict {w r raw : List α} {b : β} {ps : List (Piece α β)}
    (h : S.Reads w ps r) (hmem : Piece.token raw b ∈ ps) :
    ∃ v, S.verdict v = .take raw.length b := by
  induction h with
  | wait _ => cases hmem
  | drop _ _ ih =>
    rcases List.mem_cons.mp hmem with heq | hmem
    · cases heq
    · exact ih hmem
  | @take w r n b' ps hv _ ih =>
    rcases List.mem_cons.mp hmem with heq | hmem
    · injection heq with hraw hout
      refine ⟨w, ?_⟩
      rw [hraw, hout, List.length_take_of_le (S.take_bound hv).2, hv]
    · exact ih hmem

/-- **Tokens that lie apart.** Let the tokens of a kind have `n` elements or more, let none of them
start before the stream's element `d + 1`, and none at the element `d` of a stretch of `n + 1`.
Then each of them starts behind the element `d` of a stretch of its own, so that with `m` of them
the reading has come to the element `d` of the stretch behind. -/
theorem Reads.spaced {stream w r : List α} {ps qs : List (Piece α β)} {kind : β → Bool} {n d m : ℕ}
    (hm : 0 < m)
    (hstart : ∀ p k b, S.verdict (stream.drop p) = .take k b → kind b = true →
      n ≤ k ∧ d < p ∧ ∀ j < m, p ≠ (n + 1) * j + d)
    (h : S.Reads w ps r) {p j : ℕ} (hw : w = stream.drop p) (hqs : qs <+: ps)
    (hj : j = 0 ∨ (n + 1) * j + d ≤ p) (hle : j ≤ m) (hcount : m ≤ j + Piece.tokens kind qs) :
    (n + 1) * m + d ≤ p + (qs.flatMap Piece.raw).length := by
  -- With all `m` of them behind it, nothing is left to show.
  have hend : ∀ {p j}, j = 0 ∨ (n + 1) * j + d ≤ p → j ≤ m → m ≤ j → (n + 1) * m + d ≤ p := by
    intro p j hj hle hmj
    obtain rfl : j = m := by omega
    omega
  induction h generalizing p j qs with
  | wait _ =>
    obtain rfl := List.prefix_nil.mp hqs
    rw [Piece.tokens_nil] at hcount
    exact hend hj hle hcount
  | @drop a w r ps hv _ ih =>
    rcases List.prefix_cons_iff.mp hqs with rfl | ⟨qs, rfl, hrest⟩
    · rw [Piece.tokens_nil] at hcount
      exact hend hj hle hcount
    · have hnext : w = stream.drop (p + 1) := by rw [← List.drop_drop, ← hw]; rfl
      rw [Piece.tokens_junk] at hcount
      have hlater := ih hnext hrest (by omega) hle hcount
      rw [List.flatMap_cons, List.length_append, Piece.raw_junk, List.length_singleton]
      omega
  | @take w r k b ps hv _ ih =>
    rcases List.prefix_cons_iff.mp hqs with rfl | ⟨qs, rfl, hrest⟩
    · rw [Piece.tokens_nil] at hcount
      exact hend hj hle hcount
    · obtain ⟨hpos, hk⟩ := S.take_bound hv
      have hnext : w.drop k = stream.drop (p + k) := by rw [← List.drop_drop, ← hw]
      rw [List.flatMap_cons, List.length_append, Piece.raw_token, List.length_take_of_le hk]
      by_cases hkind : kind b = true
      · rw [Piece.tokens_of_kind _ _ hkind] at hcount
        rw [hw] at hv
        obtain ⟨hlong, hfirst, hmiss⟩ := hstart p k b hv hkind
        by_cases hjm : j = m
        · have hdone := hend hj hle (Nat.le_of_eq hjm.symm)
          omega
        · -- It starts behind the element `d` of its stretch, so what follows it, at least `n`
          -- elements later, is at the element `d` of the next one or behind it.
          have hp := hmiss j (by omega)
          have hstretch : (n + 1) * (j + 1) = (n + 1) * j + (n + 1) := Nat.mul_succ _ _
          have hzero : j = 0 → (n + 1) * j = 0 := fun h => by rw [h, Nat.mul_zero]
          have hlater := ih (j := j + 1) hnext hrest (.inr (by omega)) (by omega) (by omega)
          omega
      · rw [Piece.tokens_of_not_kind _ _ hkind] at hcount
        have hlater := ih (j := j) hnext hrest (by omega) hle hcount
        omega

/-- **Reading resumes at the rest**: more elements extend the reading from the rest on, and leave
the pieces already cut alone. -/
theorem Reads.append {w r v t : List α} {ps qs : List (Piece α β)} (h : S.Reads w ps r)
    (h' : S.Reads (r ++ v) qs t) : S.Reads (w ++ v) (ps ++ qs) t := by
  induction h with
  | wait _ => exact h'
  -- What was decided without waiting stands by stability.
  | @drop a w r ps hv _ ih =>
    have hv' : S.verdict (a :: w ++ v) = .drop := by rw [S.stable v (by simp [hv]), hv]
    exact .drop hv' (ih h')
  | @take w r n b ps hv _ ih =>
    have hn : n ≤ w.length := (S.take_bound hv).2
    have hv' : S.verdict (w ++ v) = .take n b := by rw [S.stable v (by simp [hv]), hv]
    have := Reads.take hv' (by rw [List.drop_append_of_le_length hn]; exact ih h')
    rwa [List.take_append_of_le_length hn] at this

variable (S)

/-- **Scanning resumes at the rest**, wherever the stream was cut. -/
theorem scan_append (w v : List α) :
    S.scan (w ++ v) =
      ((S.scan w).1 ++ (S.scan ((S.scan w).2 ++ v)).1, (S.scan ((S.scan w).2 ++ v)).2) :=
  S.reads_iff.mp ((S.reads_scan w).append (S.reads_scan _))

/-- What `f` makes of a state along the pieces of the reading, and the rest. -/
def replay {γ : Type*} (f : γ → Piece α β → γ) (s : γ) (w : List α) : γ × List α :=
  ((S.scan w).1.foldl f s, (S.scan w).2)

/-- **A state kept along the reading** comes to the same wherever the stream was cut. -/
theorem replay_append {γ : Type*} (f : γ → Piece α β → γ) (s : γ) (w v : List α) :
    S.replay f s (w ++ v) = S.replay f (S.replay f s w).1 ((S.replay f s w).2 ++ v) := by
  simp only [replay, S.scan_append w v, List.foldl_append]

theorem verdict_scan (w : List α) : S.verdict (S.scan w).2 = .wait :=
  (S.reads_scan w).verdict_rest

/-- **A stream glued from tokens is cut back into them.** By stability it is enough that each
token is recognised on its own. -/
theorem scan_tokens {ws : List (List α)} {bs : List β}
    (h : List.Forall₂ (fun w b => S.verdict w = .take w.length b) ws bs) :
    S.scan ws.flatten = (List.zipWith Piece.token ws bs, []) := by
  induction h with
  | nil => exact S.scan_of_wait S.verdict_nil
  | @cons w b ws bs hw _ ih =>
    -- The tokens behind this one do not change how it is read.
    have hv : S.verdict (w ++ ws.flatten) = .take w.length b := by
      rw [S.stable _ (by simp [hw]), hw]
    rw [List.flatten_cons, S.scan_of_take hv, List.take_left, List.drop_left, ih]
    rfl

/-- Tokens, and a rest at which the scanner waits. -/
theorem scan_tokens_append {ws : List (List α)} {bs : List β} {r : List α}
    (h : List.Forall₂ (fun w b => S.verdict w = .take w.length b) ws bs)
    (hr : S.verdict r = .wait) :
    S.scan (ws.flatten ++ r) = (List.zipWith Piece.token ws bs, r) := by
  rw [S.scan_append, S.scan_tokens h, List.nil_append, S.scan_of_wait hr, List.append_nil]

/-- Less than a token waits for the rest of it. -/
theorem verdict_of_prefix {w r : List α} {b : β} (h : S.verdict w = .take w.length b)
    (hr : r <+: w) (hlt : r.length < w.length) : S.verdict r = .wait := by
  by_contra hwait
  obtain ⟨v, rfl⟩ := hr
  -- Whatever was decided on `r` would have been decided on the token as well.
  rw [S.stable v hwait] at h
  have hle := (S.take_bound h).2
  omega

end Scanner

/-- A stream of tokens, parted at one of them. -/
theorem flatten_eq_of_getElem? {α : Type u} {ws : List (List α)} {k : ℕ} {u : List α}
    (h : ws[k]? = some u) :
    ws.flatten = (ws.take k).flatten ++ (u ++ (ws.drop (k + 1)).flatten) := by
  obtain ⟨hk, rfl⟩ := List.getElem?_eq_some_iff.mp h
  rw [← List.flatten_cons, ← List.drop_eq_getElem_cons hk, ← List.flatten_append,
    List.take_append_drop]

/-- What has arrived of a stream of tokens: the complete ones, and less than the next. -/
theorem exists_prefix_flatten {α : Type u} {ws : List (List α)} {w : List α}
    (h : w <+: ws.flatten) :
    ∃ k r, w = (ws.take k).flatten ++ r ∧
      (r = [] ∨ ∃ u, ws[k]? = some u ∧ r <+: u ∧ r.length < u.length) := by
  induction ws generalizing w with
  | nil => exact ⟨0, [], List.prefix_nil.mp h, .inl rfl⟩
  | cons u ws ih =>
    rw [List.flatten_cons] at h
    obtain hlt | hle := Nat.lt_or_ge w.length u.length
    · have hprefix := List.prefix_of_prefix_length_le h (List.prefix_append u _)
        (Nat.le_of_lt hlt)
      exact ⟨0, w, rfl, .inr ⟨u, rfl, hprefix, hlt⟩⟩
    · obtain ⟨w, rfl⟩ := List.prefix_of_prefix_length_le (List.prefix_append u _) h hle
      obtain ⟨k, r, rfl, hr⟩ := ih ((List.prefix_append_right_inj u).mp h)
      exact ⟨k + 1, r, by rw [List.take_succ_cons, List.flatten_cons, List.append_assoc], hr⟩

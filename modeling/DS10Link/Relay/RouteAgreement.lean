import DS10Link.Relay.RouteScript

/-!
# One route map for two responders

On a text without the things that only one of the two parsers knows, either both responders refuse
it or both read the same table; with the same default they then answer alike.

## Main definitions

* `Plain`: a text that both parsers read
* `nodeAnswers`, `scriptAnswers`: what a responder answers, if it starts

## Main results

* `entriesOf_encode`, `parseEntry_iff`: the entries, and what one of them denotes
* `parseRoute_eq_ok_iff`: the two parsers accept the same plain texts, with the same tables
* `responders_agree`: on a plain text the two responders are interchangeable
-/

open Automaton Coding

namespace Ds10Relay

open Transaction RelayResponder

/-! ## Plain texts -/

/-- The entries of the script, stripped, without the empty ones. -/
def entries (spec : List Char) : List (List Char) :=
  ((spec.splitOn ',').map strip).filter (· ≠ [])

/-- What stands behind the last colon. -/
def stationText (entry : List Char) : List Char := entry.rtakeWhile (· ≠ ':')

/-- A text that both parsers read: the only white space in it are blanks and tabs, all its digits
are those of ASCII, and its station numbers have no underscores and at most 4300 characters. -/
structure Plain (decimal : Char → Option ℕ) (spec : List Char) : Prop where
  blank : ∀ c ∈ spec, isWhitespace c = true → c = ' ' ∨ c = '\t'
  ascii : ∀ c ∈ spec, (decimal c).isSome = true → c.toNat < 0x80
  number : ∀ entry ∈ entries spec, '_' ∉ stationText entry ∧
    (stationText entry).length ≤ maxStrDigits

/-! ## The entries -/

section Plain

variable {decimal : Char → Option ℕ} {c : Char} {text spec entry : List Char}

theorem isBlank_iff {b : UInt8} : isBlank b = true ↔ b = 0x20 ∨ b = 0x09 := by
  rw [isBlank, Bool.or_eq_true, beq_iff_eq, beq_iff_eq]

theorem isWhitespace_blank (h : c = ' ' ∨ c = '\t') : isWhitespace c = true := by
  rcases h with rfl | rfl <;> rfl

/-- The blanks of a plain text are the white space that the script knows. -/
theorem showsThrough_blank (h : ∀ c ∈ text, isWhitespace c = true → c = ' ' ∨ c = '\t') :
    ShowsThrough String.utf8EncodeChar isWhitespace isBlank text := by
  refine showsThrough_encode ?_ ?_
  · intro b hb
    rcases isBlank_iff.mp hb with rfl | rfl <;> exact Nat.lt_of_sub_pos (by decide)
  · intro c hc
    rw [isBlank_iff]
    constructor
    · intro hwhite
      rcases h c hc hwhite with rfl | rfl
      · exact ⟨by decide, .inl rfl⟩
      · exact ⟨by decide, .inr rfl⟩
    · rintro ⟨hascii, hb | hb⟩
      · exact isWhitespace_blank (.inl ((asciiByte_eq_iff (by decide) rfl).mpr ⟨hascii, hb⟩))
      · exact isWhitespace_blank (.inr ((asciiByte_eq_iff (by decide) rfl).mpr ⟨hascii, hb⟩))

theorem strip_subset (text : List Char) : strip text ⊆ text :=
  fun _ hc => (List.dropWhile_sublist _).subset ((List.rdropWhile_prefix _ _).subset hc)

theorem trim_encode (h : ∀ c ∈ text, isWhitespace c = true → c = ' ' ∨ c = '\t') :
    trim (encode text) = encode (strip text) := by
  have hshows := showsThrough_blank h
  have hrest : text.dropWhile isWhitespace ⊆ text := (List.dropWhile_sublist _).subset
  rw [trim, encode, hshows.dropWhile, (hshows.of_subset hrest).rdropWhile]
  rfl

theorem mem_of_mem_entries (h : entry ∈ entries spec) : entry ⊆ spec := by
  rw [entries, List.mem_filter, List.mem_map] at h
  obtain ⟨⟨piece, hpiece, rfl⟩, -⟩ := h
  exact List.Subset.trans (strip_subset piece) (subset_of_mem_splitOnP hpiece)

/-- **A plain text has the same entries** for both parsers. -/
theorem entriesOf_encode (h : ∀ c ∈ spec, isWhitespace c = true → c = ' ' ∨ c = '\t') :
    entriesOf (encode spec) = (entries spec).map encode := by
  have hcomma : (encode spec).splitOn 0x2C = (spec.splitOn ',').map encode := by
    have hshows : ShowsThrough String.utf8EncodeChar (· == ',') (· == 0x2C) spec :=
      showsThrough_char (by decide) rfl
    rw [List.splitOn_eq_splitOnP, List.splitOn_eq_splitOnP]
    exact hshows.splitOnP
  have htrim : ((spec.splitOn ',').map encode).map trim =
      ((spec.splitOn ',').map strip).map encode := by
    rw [List.map_map, List.map_map]
    refine List.map_congr_left ?_
    intro piece hpiece
    exact trim_encode fun c hc => h c (subset_of_mem_splitOnP hpiece hc)
  rw [entriesOf, hcomma, htrim, entries, List.filter_map]
  refine congrArg (List.map encode) (List.filter_congr ?_)
  intro piece _
  rw [Function.comp_apply, decide_eq_decide, ne_eq, encode_eq_nil_iff]

/-- The loop takes the entries one by one. -/
theorem parseEntries_eq_ok_iff {pieces : List (List Char)} {before routes : List Route} :
    parseEntries decimal before pieces = .ok routes ↔
      ∃ new, routes = before ++ new ∧
        List.Forall₂ (fun entry route => RelayResponder.parseEntry decimal entry = .ok route)
          ((pieces.map strip).filter (· ≠ [])) new := by
  induction pieces generalizing before with
  | nil =>
    rw [parseEntries, Except.ok.injEq]
    constructor
    · rintro rfl
      exact ⟨[], (List.append_nil _).symm, .nil⟩
    · rintro ⟨new, rfl, hnew⟩
      cases hnew
      exact (List.append_nil _).symm
  | cons piece pieces ih =>
    rw [parseEntries, List.map_cons, List.filter_cons]
    by_cases hempty : strip piece = []
    · rw [if_pos hempty, ih, if_neg (by simpa using hempty)]
    · rw [if_neg hempty, if_pos (by simpa using hempty)]
      cases hparse : RelayResponder.parseEntry decimal (strip piece) with
      | error e =>
        -- The first entry that is refused ends the loop.
        refine ⟨nofun, ?_⟩
        rintro ⟨new, -, hnew⟩
        rcases hnew with _ | ⟨hroute, -⟩
        rw [hparse] at hroute
        cases hroute
      | ok route =>
        dsimp only
        rw [ih]
        constructor
        · rintro ⟨new, rfl, hnew⟩
          exact ⟨route :: new, List.append_assoc _ _ _, .cons hparse hnew⟩
        · rintro ⟨new, rfl, hnew⟩
          rcases hnew with _ | @⟨_, route', _, rest, hroute, hrest⟩
          rw [hparse, Except.ok.injEq] at hroute
          subst hroute
          exact ⟨rest, (List.append_assoc before [route] rest).symm, hrest⟩

/-! ## One entry -/

variable {front back : List Char} {route : Route}

/-- Behind the last colon. -/
theorem stationText_append (h : ':' ∉ back) : stationText (front ++ ':' :: back) = back := by
  have hback : ∀ c ∈ back.reverse, decide (c ≠ ':') = true := fun c hc =>
    decide_eq_true (fun heq => h (heq ▸ List.mem_reverse.mp hc))
  rw [stationText, List.rtakeWhile, List.reverse_append, List.reverse_cons, List.append_assoc,
    List.takeWhile_append_of_pos hback, List.singleton_append,
    List.takeWhile_cons_of_neg (by decide), List.append_nil, List.reverse_reverse]

theorem rpartition_append (h : ':' ∉ back) :
    rpartition (front ++ ':' :: back) ':' = some (front, back) := by
  have hback : ∀ c ∈ back.reverse, decide (c ≠ ':') = true := fun c hc =>
    decide_eq_true (fun heq => h (heq ▸ List.mem_reverse.mp hc))
  have hmem : ':' ∈ front ++ ':' :: back := List.mem_append_right _ List.mem_cons_self
  have hfront : (front ++ ':' :: back).rdropWhile (· ≠ ':') = front ++ [':'] := by
    rw [List.rdropWhile, List.reverse_append, List.reverse_cons, List.append_assoc,
      List.dropWhile_append_of_pos hback, List.singleton_append,
      List.dropWhile_cons_of_neg (by decide), List.reverse_cons, List.reverse_reverse]
  rw [rpartition, if_pos hmem, hfront, List.dropLast_concat]
  exact congrArg (fun text => some (front, text)) (stationText_append h)

/-- A letter that occurs occurs a last time. -/
theorem exists_last_colon (h : ':' ∈ text) :
    ∃ front back, text = front ++ ':' :: back ∧ ':' ∉ back := by
  obtain ⟨before, after, hsplit, hbefore⟩ :=
    List.eq_append_cons_of_mem (List.mem_reverse.mpr h)
  refine ⟨after.reverse, before.reverse, ?_, fun hmem => hbefore (List.mem_reverse.mp hmem)⟩
  rw [← List.reverse_reverse text, hsplit, List.reverse_append, List.reverse_cons,
    List.append_assoc, List.singleton_append]

theorem colon_mem_encode_iff : (0x3A ∈ encode text) ↔ ':' ∈ text := by
  have hshows : ShowsThrough String.utf8EncodeChar (· == ':') (· == 0x3A) text :=
    showsThrough_char (by decide) rfl
  have h := not_congr hshows.forall_not_iff
  push Not at h
  simpa [encode] using h

theorem encode_split (front : List Char) (h : ':' ∉ back) :
    encode (front ++ ':' :: back) = encode front ++ 0x3A :: encode back ∧
      0x3A ∉ encode back :=
  ⟨encode_append front (':' :: back), fun hmem => h (colon_mem_encode_iff.mp hmem)⟩

/-- Nothing else stands behind the last colon of the bytes. -/
theorem entryOf_encode_iff (h : ':' ∉ back) :
    EntryOf (encode (front ++ ':' :: back)) route ↔
      front ≠ [] ∧ back ≠ [] ∧ route.keyword = encode front ∧
        ∃ value, IntText (encode back) value ∧ 1 ≤ value ∧ value ≤ 247 ∧
          value = route.station.toNat := by
  obtain ⟨hsplit, hcolon⟩ := encode_split front h
  constructor
  · rintro ⟨hkeyword, stationText, value, hentry, hlast, hne, hint, hmin, hmax, hvalue⟩
    rw [hsplit] at hentry
    have hlen := rfind_append (encode front) hcolon
    rw [hentry, rfind_append _ hlast, Option.some_inj] at hlen
    obtain ⟨hfront, hback⟩ := List.append_inj hentry hlen.symm
    rw [List.cons.injEq] at hback
    rw [← hfront] at hkeyword
    rw [← hback.2] at hne hint
    exact ⟨fun hnil => hkeyword (encode_eq_nil_iff.mpr hnil),
      fun hnil => hne (encode_eq_nil_iff.mpr hnil), hfront.symm, value, hint, hmin, hmax, hvalue⟩
  · rintro ⟨hfront, hback, hkeyword, value, hint, hmin, hmax, hvalue⟩
    refine ⟨?_, encode back, value, ?_, hcolon, ?_, hint, hmin, hmax, hvalue⟩
    · rw [hkeyword]
      exact fun hnil => hfront (encode_eq_nil_iff.mp hnil)
    · rw [hkeyword, hsplit]
    · exact fun hnil => hback (encode_eq_nil_iff.mp hnil)

/-- An entry of the script does not end in white space. -/
theorem getLast_of_mem_entries (h : entry ∈ entries spec) :
    ∀ c ∈ entry.getLast?, isWhitespace c = false := by
  rw [entries, List.mem_filter, List.mem_map] at h
  obtain ⟨⟨piece, -, rfl⟩, -⟩ := h
  intro c hc
  have hne : strip piece ≠ [] := by
    intro hnil
    rw [hnil] at hc
    cases hc
  rw [List.getLast?_eq_some_getLast hne, Option.mem_some_iff] at hc
  rw [← hc, ← Bool.not_eq_true]
  exact List.rdropWhile_last_not _ _ hne

/-- What the script reads from an entry: the keyword before the last colon, the number behind it. -/
theorem parseEntry_append_iff (h : ':' ∉ back) :
    RelayResponder.parseEntry decimal (front ++ ':' :: back) = .ok route ↔
      front ≠ [] ∧ back ≠ [] ∧ route.keyword = encode front ∧
        ∃ value, toInt decimal back = some value ∧ 1 ≤ value ∧ value ≤ 247 ∧
          value = route.station.toNat := by
  rw [RelayResponder.parseEntry, rpartition_append h]
  dsimp only
  by_cases hends : front = [] ∨ back = []
  · rw [if_pos hends]
    refine ⟨nofun, ?_⟩
    rintro ⟨hfront, hne, -⟩
    exact absurd hends (not_or.mpr ⟨hfront, hne⟩)
  · rw [if_neg hends]
    obtain ⟨hfront, hne⟩ := not_or.mp hends
    have hmin : (kMinStation.toNat : ℤ) = 1 := rfl
    have hmax : (kMaxStation.toNat : ℤ) = 247 := rfl
    cases hread : toInt decimal back with
    | none =>
      refine ⟨nofun, ?_⟩
      rintro ⟨-, -, -, value, hvalue, -⟩
      cases hvalue
    | some station =>
      dsimp only
      rw [hmin, hmax]
      constructor
      -- A number from 1 to 247 is the station it is converted to.
      · intro hok
        split_ifs at hok with hlegal
        rw [Except.ok.injEq] at hok
        subst hok
        refine ⟨hfront, hne, rfl, station, rfl, hlegal.1, hlegal.2, ?_⟩
        rw [UInt8.toNat_ofNat']
        omega
      · rintro ⟨-, -, hkeyword, value, hvalue, hlow, hhigh, hroute⟩
        rw [Option.some_inj] at hvalue
        subst hvalue
        rw [if_pos ⟨hlow, hhigh⟩, hroute, Int.toNat_natCast, UInt8.ofNat_toNat, ← hkeyword]

/-- **An entry of a plain text** is read by the script as the route that its bytes denote. -/
theorem parseEntry_iff (hdecimal : AsciiDigits decimal) (hplain : Plain decimal spec)
    (hentry : entry ∈ entries spec) :
    RelayResponder.parseEntry decimal entry = .ok route ↔ EntryOf (encode entry) route := by
  by_cases hcolon : ':' ∈ entry
  · obtain ⟨front, back, rfl, hback⟩ := exists_last_colon hcolon
    have hsub : back ⊆ spec := fun c hc =>
      mem_of_mem_entries hentry (List.mem_append_right _ (List.mem_cons_of_mem _ hc))
    have hblank := fun c hc => hplain.blank c (hsub hc)
    have hascii := fun c hc => hplain.ascii c (hsub hc)
    have hnumber := hplain.number _ hentry
    rw [stationText_append hback] at hnumber
    -- The white space behind the number was stripped with that of the entry.
    have hend : ∀ c ∈ back.getLast?, isWhitespace c = false := by
      intro c hc
      refine getLast_of_mem_entries hentry c ?_
      rw [← List.singleton_append, List.getLast?_append, List.getLast?_append,
        Option.mem_def.mp hc]
      rfl
    have hint : ∀ value, toInt decimal back = some value ↔ IntChars decimal back value :=
      fun _ => toInt_eq_some_iff hdecimal hascii hend hnumber.1 hnumber.2
    rw [entryOf_encode_iff hback, parseEntry_append_iff hback]
    simp only [intText_encode_iff hdecimal hblank hascii, ← hint]
    -- The node bounds the number besides by the width of its integers, which 247 is well within.
    refine and_congr_right fun _ => and_congr_right fun _ => and_congr_right fun _ => ?_
    refine exists_congr fun value => ?_
    constructor
    · rintro ⟨hvalue, hlow, hhigh, hroute⟩
      exact ⟨⟨hvalue, by omega, by omega⟩, hlow, hhigh, hroute⟩
    · rintro ⟨⟨hvalue, -⟩, hlegal⟩
      exact ⟨hvalue, hlegal⟩
  · -- Without a colon neither reads anything.
    rw [RelayResponder.parseEntry, rpartition, if_neg hcolon]
    refine ⟨nofun, ?_⟩
    rintro ⟨-, stationText, value, hsplit, -⟩
    refine absurd (colon_mem_encode_iff.mp ?_) hcolon
    rw [hsplit]
    exact List.mem_append_right _ List.mem_cons_self

/-! ## The two responders -/

/-- **One table from a plain text**: both parsers accept it, and read the same table, or both refuse
it. -/
theorem parseRoute_eq_ok_iff (hdecimal : AsciiDigits decimal) (hplain : Plain decimal spec)
    {routes : List Route} :
    parseRoute decimal spec = .ok routes ↔ parseRouteMap (encode spec) = .ok routes := by
  rw [parseRoute, parseEntries_eq_ok_iff, parseRouteMap_eq_mapM, mapM_parseEntry_eq_ok_iff,
    entriesOf_encode hplain.blank, List.forall₂_map_left_iff]
  have hentries : ∀ {es : List (List Char)} {new : List Route}, es ⊆ entries spec →
      (List.Forall₂ (fun e r => RelayResponder.parseEntry decimal e = .ok r) es new ↔
        List.Forall₂ (fun e r => EntryOf (encode e) r) es new) := by
    intro es new hes
    induction es generalizing new with
    | nil => rw [List.forall₂_nil_left_iff, List.forall₂_nil_left_iff]
    | cons e es ih =>
      have he : e ∈ entries spec := hes List.mem_cons_self
      rw [List.forall₂_cons_left_iff, List.forall₂_cons_left_iff]
      simp only [parseEntry_iff hdecimal hplain he, ih (List.cons_subset.mp hes).2]
  constructor
  · rintro ⟨new, rfl, hnew⟩
    exact (hentries (List.Subset.refl _)).mp hnew
  · intro hnew
    exact ⟨routes, rfl, (hentries (List.Subset.refl _)).mpr hnew⟩

/-- The default destination that the node accepts. -/
theorem checkedDefault_eq_ok_iff {value : ℤ} {dst : UInt8} :
    checkedDefault value = .ok dst ↔
      (value = 0 ∨ 1 ≤ value ∧ value ≤ 247) ∧ value = dst.toNat := by
  have hzero : (kNoForward.toNat : ℤ) = 0 := rfl
  rw [checkedDefault, hzero]
  by_cases hvalue : value = 0
  · rw [if_neg (not_not.mpr hvalue), Except.ok.injEq, hvalue, ← UInt8.toNat_inj]
    have hnone : kNoForward.toNat = 0 := rfl
    omega
  · rw [if_pos hvalue]
    cases hchecked : checkedStation value "default_dst" with
    | error e =>
      -- A legal value would have passed the check.
      refine ⟨nofun, ?_⟩
      rintro ⟨hlegal, hdst⟩
      have hforwardable : isForwardable dst := by
        rw [isForwardable_iff, UInt8.le_iff_toNat_le, UInt8.le_iff_toNat_le]
        simp only [kMinStation, kMaxStation, UInt8.reduceToNat]
        omega
      have hok : checkedStation value "default_dst" = .ok ⟨dst, hforwardable⟩ :=
        checkedStation_eq_ok_iff.mpr ⟨by omega, by omega, hdst⟩
      rw [hok] at hchecked
      cases hchecked
    | ok station =>
      obtain ⟨hmin, hmax, hstation⟩ := checkedStation_eq_ok_iff.mp hchecked
      dsimp only
      rw [Except.ok.injEq, ← UInt8.toNat_inj]
      omega

theorem mainParams_eq_ok_iff {defaultDst : ℤ} {r : ResponderParams} :
    mainParams decimal spec defaultDst = .ok r ↔
      parseRoute decimal spec = .ok r.routes ∧
        (defaultDst = 0 ∨ 1 ≤ defaultDst ∧ defaultDst ≤ 247) ∧
        defaultDst = r.defaultDst.toNat := by
  have hzero : (kNoForward.toNat : ℤ) = 0 := rfl
  have hmin : (kMinStation.toNat : ℤ) = 1 := rfl
  have hmax : (kMaxStation.toNat : ℤ) = 247 := rfl
  rw [mainParams, hzero, hmin, hmax]
  cases parseRoute decimal spec with
  | error e => exact ⟨nofun, fun h => nomatch h.1⟩
  | ok routes =>
    dsimp only
    by_cases hbad : defaultDst ≠ 0 ∧ ¬ (1 ≤ defaultDst ∧ defaultDst ≤ 247)
    · rw [if_pos hbad]
      refine ⟨nofun, ?_⟩
      rintro ⟨-, hlegal, -⟩
      omega
    · rw [if_neg hbad, Except.ok.injEq, Except.ok.injEq]
      constructor
      · rintro rfl
        refine ⟨rfl, by omega, ?_⟩
        rw [UInt8.toNat_ofNat']
        omega
      · rintro ⟨rfl, -, hdst⟩
        rw [hdst, Int.toNat_natCast, UInt8.ofNat_toNat]

/-- A node that is told to respond, with legal values where a responder reads none. -/
structure Responds (o : Options) : Prop where
  role : o.role = bytesOf "responder"
  timeoutMs : 0 < o.timeoutMs
  maxRetries : 0 ≤ o.maxRetries
  functionCode : 0 ≤ o.functionCode ∧ o.functionCode ≤ 0xFF

theorem configure_eq_ok_iff {o : Options} (ho : Responds o) {role : Role} :
    configure o = .ok role ↔
      ∃ r, role = .responder r ∧ parseRouteMap o.routeMap = .ok r.routes ∧
        checkedDefault o.defaultDst = .ok r.defaultDst := by
  have hrelay : o.role ≠ bytesOf "relay" := by
    rw [ho.role]
    decide
  -- None of the checks before the parameters of a responder fails.
  rw [configure, if_neg (fun h => h.2 ho.role), if_neg (not_le.mpr ho.timeoutMs),
    if_neg (not_lt.mpr ho.maxRetries),
    if_neg (not_or.mpr ⟨not_lt.mpr ho.functionCode.1, not_lt.mpr ho.functionCode.2⟩),
    if_neg hrelay]
  cases checkedDefault o.defaultDst with
  | error e =>
    refine ⟨nofun, ?_⟩
    rintro ⟨r, -, -, hdefault⟩
    cases hdefault
  | ok defaultDst =>
    cases parseRouteMap o.routeMap with
    | error e =>
      refine ⟨nofun, ?_⟩
      rintro ⟨r, -, hroutes, -⟩
      cases hroutes
    | ok routes =>
      dsimp only
      rw [Except.ok.injEq]
      constructor
      · rintro rfl
        exact ⟨_, rfl, rfl, rfl⟩
      · rintro ⟨r, rfl, hroutes, hdefault⟩
        rw [Except.ok.injEq] at hroutes hdefault
        rw [hroutes, hdefault]

/-- What a node started with these options answers, if it starts. -/
def nodeAnswers (o : Options) (msgs : List Frame) : Option (List Frame) :=
  match configure o with
  | .ok (.responder r) => some (emitted (RelayNode.respond r) RelayNode.new msgs)
  | _ => none

/-- What the script answers, if it starts. -/
def scriptAnswers (decimal : Char → Option ℕ) (route : List Char) (defaultDst : ℤ)
    (msgs : List Frame) : Option (List Frame) :=
  match mainParams decimal route defaultDst with
  | .ok r => some (emitted (onRx r) 0 msgs)
  | .error _ => none

/-- With one table, the answers to messages that are no replies are the same. -/
theorem emitted_respond_eq (r : ResponderParams) {msgs : List Frame}
    (hmsgs : ∀ msg ∈ msgs, msg.data.length ≤ 4090 ∧ hasReplyHeader msg.data = false)
    (n : RelayNode) (count : ℕ) :
    emitted (RelayNode.respond r) n msgs = emitted (onRx r) count msgs := by
  induction msgs generalizing n count with
  | nil => rfl
  | cons msg msgs ih =>
    obtain ⟨hlen, hreply⟩ := hmsgs msg List.mem_cons_self
    have hrest := ih fun m hm => hmsgs m (List.mem_cons_of_mem msg hm)
    rw [emitted_cons, emitted_cons]
    cases hheader : hasHeader msg.data with
    | true =>
      obtain ⟨txn, payload, hdata⟩ := hasHeader_iff.mp hheader
      have hpayload : payload.length ≤ kMaxReplyPayload := by
        rw [hdata, length_request] at hlen
        exact Nat.le_of_add_le_add_right hlen
      rw [RelayNode.respond_request hdata hpayload, onRx_request r count msg txn payload hdata,
        hrest]
    | false =>
      have hnode : n.respond r msg = ({ n with ignored := n.ignored + 1 }, []) := by
        simp [RelayNode.respond, parseTxn, hheader, hreply]
      rw [hnode, onRx_dropped r count msg hheader, hrest]

end Plain

/-- **The two responders are interchangeable** on a plain text and with the same default: either
neither starts, or both do and answer every run of messages alike, as long as none is a reply. -/
theorem responders_agree (decimal : Char → Option ℕ) (hdecimal : AsciiDigits decimal)
    (spec : List Char) (hplain : Plain decimal spec) (o : Options) (ho : Responds o)
    (hroute : o.routeMap = encode spec) (msgs : List Frame)
    (hmsgs : ∀ msg ∈ msgs, msg.data.length ≤ 4090 ∧ hasReplyHeader msg.data = false) :
    nodeAnswers o msgs = scriptAnswers decimal spec o.defaultDst msgs := by
  have hsame : ∀ r, configure o = .ok (.responder r) ↔
      mainParams decimal spec o.defaultDst = .ok r := by
    intro r
    rw [configure_eq_ok_iff ho, mainParams_eq_ok_iff, parseRoute_eq_ok_iff hdecimal hplain,
      ← checkedDefault_eq_ok_iff, hroute]
    constructor
    · rintro ⟨r', hr, hread⟩
      cases hr
      exact hread
    · exact fun hread => ⟨r, rfl, hread⟩
  -- Where the script starts, the node starts with the same table and default.
  cases hscript : mainParams decimal spec o.defaultDst with
  | ok r =>
    rw [nodeAnswers, scriptAnswers, (hsame r).mpr hscript, hscript]
    exact congrArg some (emitted_respond_eq r hmsgs _ _)
  | error e =>
    have hnode : ∀ r, configure o ≠ .ok (.responder r) := by
      intro r hr
      rw [(hsame r).mp hr] at hscript
      cases hscript
    rw [nodeAnswers, scriptAnswers, hscript]
    split
    · next r hr => exact absurd hr (hnode r)
    · rfl

/-- The digits of ASCII alone. -/
def asciiDecimal (c : Char) : Option ℕ :=
  if 0x30 ≤ c.toNat ∧ c.toNat ≤ 0x39 then some (c.toNat - 0x30) else none

/-- A map with keywords in two scripts. -/
def twoRoutes : List Char := "temp_in:2,\t湿度: +3 ,".toList

theorem plain_twoRoutes : Plain asciiDecimal twoRoutes := by
  have hall : twoRoutes.all (fun c => (!isWhitespace c || c == ' ' || c == '\t') &&
      (!(asciiDecimal c).isSome || decide (c.toNat < 0x80))) = true := by decide +kernel
  have hentries : entries twoRoutes = ["temp_in:2".toList, "湿度: +3".toList] := by decide +kernel
  rw [List.all_eq_true] at hall
  refine ⟨?_, ?_, ?_⟩
  · intro c hc hwhite
    have h := hall c hc
    rw [Bool.and_eq_true, hwhite] at h
    simpa using h.1
  · intro c hc hdigit
    have h := hall c hc
    rw [Bool.and_eq_true, hdigit] at h
    simpa using h.2
  · intro entry hentry
    rw [hentries] at hentry
    rcases List.mem_pair.mp hentry with rfl | rfl <;> exact ⟨by decide +kernel, by decide +kernel⟩

/-- Both send the text `湿度` to the station 3, and both answer it. -/
theorem responders_agree_two :
    let o : Options := { role := bytesOf "responder", routeMap := encode twoRoutes }
    let msg : Frame := { functionCode := 0x10, data := request 7 (bytesOf "湿度") }
    nodeAnswers o [msg] = scriptAnswers asciiDecimal twoRoutes 0 [msg] ∧
      nodeAnswers o [msg] =
        some [{ functionCode := 0x10, data := reply 7 3 (bytesOf "湿度") }] := by
  intro o msg
  have hdecimal : AsciiDigits asciiDecimal := fun _ _ => rfl
  refine ⟨responders_agree asciiDecimal hdecimal twoRoutes plain_twoRoutes o
    ⟨rfl, by decide, by decide, by decide⟩ rfl [msg] ?_, by decide +kernel⟩
  intro m hm
  rw [List.mem_singleton.mp hm]
  exact ⟨by decide +kernel, by decide +kernel⟩

/-- An underscore in a number is read by the script only. -/
example : (∃ r, mainParams asciiDecimal "a:1_0".toList 0 = .ok r) ∧
    ¬ ∃ routes, parseRouteMap (encode "a:1_0".toList) = .ok routes := by
  have hnode : parseRouteMap (encode "a:1_0".toList) = .error (.invalidArgument
      (bytesOf "route_map station must be an integer, got: '1_0' in entry 'a:1_0'")) := by
    decide +kernel
  rw [hnode]
  exact ⟨⟨⟨[⟨[0x61], 10⟩], 0⟩, by rfl⟩, nofun⟩

end Ds10Relay

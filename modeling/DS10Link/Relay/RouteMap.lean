import Mathlib.Tactic
import Mathlib.Data.Nat.Digits.Defs
import DS10Link.Relay.Config

/-!
# The grammar of a route map

A route map is a list of entries between commas, with blanks around them that do not count and
empty entries that are passed over. An entry is a keyword and a station number, parted by the last
colon. The parser accepts exactly such texts, and refuses all others with one kind of exception.

## Main definitions

* `entriesOf spec`: the entries of a route map
* `IntText text value`: the text is a decimal number that fits an `int`
* `EntryOf entry route`: the entry denotes the route
* `render routes`: a table as a route map

## Main results

* `stoi_eq_ok_iff`: `stoi` consumes a whole text exactly when it is such a number
* `parseEntry_eq_ok_iff`, `parseRouteMap_eq_mapM`: one entry, and the loop over the entries
* `parseRouteMap_grammar`: the parser accepts exactly its grammar
-/

namespace Ds10Relay

open Transaction

/-! ## The grammar -/

/-- The entries: the pieces between commas, without the blanks at their ends, unless nothing is
left of them. -/
def entriesOf (spec : List UInt8) : List (List UInt8) :=
  ((spec.splitOn 0x2C).map trim).filter (· ≠ [])

/-- A decimal number as `std::stoi` reads it: white space, a sign, digits, and no overflow. -/
def IntText (text : List UInt8) (value : ℤ) : Prop :=
  ∃ spaces sign digits, text = spaces ++ sign ++ digits ∧
    (∀ c ∈ spaces, isSpace c) ∧ (sign = [] ∨ sign = [0x2B] ∨ sign = [0x2D]) ∧
    digits ≠ [] ∧ (∀ c ∈ digits, isDigit c) ∧
    value = (if sign = [0x2D] then -(digitsValue digits : ℤ) else digitsValue digits) ∧
    -2147483648 ≤ value ∧ value ≤ 2147483647

/-- The entry is a keyword, a colon and the number of a station, without another colon behind. -/
structure EntryOf (entry : List UInt8) (route : Route) : Prop where
  keyword_ne_nil : route.keyword ≠ []
  exists_station : ∃ stationText value, entry = route.keyword ++ 0x3A :: stationText ∧
    0x3A ∉ stationText ∧ stationText ≠ [] ∧ IntText stationText value ∧
    1 ≤ value ∧ value ≤ 247 ∧ value = route.station.toNat

/-! ## Numbers -/

theorem takeWhile_of_head {f : UInt8 → Bool} {front back : List UInt8} (hfront : ∀ c ∈ front, f c)
    (hback : ∀ c ∈ back.head?, f c = false) : (front ++ back).takeWhile f = front := by
  rw [List.takeWhile_append_of_pos hfront]
  rcases back with _ | ⟨c, t⟩
  · simp
  · simp [hback c rfl]

theorem dropWhile_of_head {f : UInt8 → Bool} {front back : List UInt8} (hfront : ∀ c ∈ front, f c)
    (hback : ∀ c ∈ back.head?, f c = false) : (front ++ back).dropWhile f = back := by
  rw [List.dropWhile_append_of_pos hfront]
  rcases back with _ | ⟨c, t⟩
  · simp
  · simp [hback c rfl]

/-- What is no digit is no part of the digits. -/
theorem isSpace_of_isDigit {c : UInt8} (h : isDigit c) : isSpace c = false := by
  simp only [isDigit, isSpace, Bool.and_eq_true, decide_eq_true_eq, Bool.or_eq_false_iff,
    Bool.and_eq_false_iff, beq_eq_false_iff_ne, decide_eq_false_iff_not, UInt8.le_iff_toNat_le,
    ← UInt8.toNat_inj, ne_eq, UInt8.reduceToNat] at h ⊢
  omega

/-- The sign that `stoi` skips is a plus or a minus in front. -/
theorem exists_sign (rest : List UInt8) :
    ∃ sign, (sign = [] ∨ sign = [0x2B] ∨ sign = [0x2D]) ∧
      sign.length = (if rest.head? = some 0x2D ∨ rest.head? = some 0x2B then 1 else 0) ∧
      rest = sign ++ rest.drop sign.length ∧ (rest.head? = some 0x2D ↔ sign = [0x2D]) := by
  rcases rest with _ | ⟨c, t⟩
  · exact ⟨[], .inl rfl, by simp⟩
  · by_cases hminus : c = 0x2D
    · exact ⟨[0x2D], by simp [hminus]⟩
    · by_cases hplus : c = 0x2B
      · exact ⟨[0x2B], by simp [hplus]⟩
      · exact ⟨[], by simp [hminus, hplus]⟩

/-- **`stoi` consumes a whole text exactly when it is a number that fits.** -/
theorem stoi_eq_ok_iff {text : List UInt8} {value : ℤ} :
    stoi text = .ok (value, text.length) ↔ IntText text value := by
  constructor
  · intro h
    unfold stoi at h
    dsimp only at h
    have htext : text.takeWhile isSpace ++ text.dropWhile isSpace = text :=
      List.takeWhile_append_dropWhile
    have hspaces : ∀ c ∈ text.takeWhile isSpace, isSpace c := fun c hc => List.mem_takeWhile_imp hc
    obtain ⟨sign, hsign, hlen, hrest, hminus⟩ := exists_sign (text.dropWhile isSpace)
    generalize text.takeWhile isSpace = spaces at *
    generalize text.dropWhile isSpace = rest at *
    rw [← hlen] at h
    simp only [hminus] at h
    generalize hdigits : (rest.drop sign.length).takeWhile isDigit = digits at h
    generalize hvalue :
      (if sign = [0x2D] then -(digitsValue digits : ℤ) else digitsValue digits) = v at h
    split_ifs at h with hnil hover
    injection h with h
    injection h with hv hconsumed
    subst hv
    -- All of the text was consumed, so the digits reach to its end.
    have hall : digits = rest.drop sign.length := by
      have hpre : digits <+: rest.drop sign.length := hdigits ▸ List.takeWhile_prefix _
      refine hpre.eq_of_length ?_
      have hlen' := congrArg List.length hrest
      have htext' := congrArg List.length htext
      simp only [List.length_append] at hlen' htext'
      omega
    refine ⟨spaces, sign, digits, ?_, hspaces, hsign, hnil, ?_, hvalue.symm, by omega, by omega⟩
    · rw [hall, List.append_assoc, ← hrest, htext]
    · intro c hc
      rw [← hdigits] at hc
      exact List.mem_takeWhile_imp hc
  · rintro ⟨spaces, sign, digits, rfl, hspaces, hsign, hnil, hdigits, hvalue, hmin, hmax⟩
    obtain ⟨d, ds, rfl⟩ := List.exists_cons_of_ne_nil hnil
    have hd : isDigit d := hdigits d (by simp)
    have hhead : ∀ c ∈ (sign ++ d :: ds).head?, isSpace c = false := by
      rcases hsign with rfl | rfl | rfl
      · simpa using isSpace_of_isDigit hd
      · simp [isSpace]
      · simp [isSpace]
    have hne : d ≠ 0x2D ∧ d ≠ 0x2B := by
      refine ⟨?_, ?_⟩ <;> rintro rfl <;> exact absurd hd (by decide)
    have hminus : (sign ++ d :: ds).head? = some 0x2D ↔ sign = [0x2D] := by
      rcases hsign with rfl | rfl | rfl <;> simp [hne.1]
    have hlen : sign.length =
        (if (sign ++ d :: ds).head? = some 0x2D ∨ (sign ++ d :: ds).head? = some 0x2B then 1
          else 0) := by
      rcases hsign with rfl | rfl | rfl <;> simp [hne.1, hne.2]
    have htake : (d :: ds).takeWhile isDigit = d :: ds := List.takeWhile_eq_self_iff.mpr hdigits
    rw [List.append_assoc]
    unfold stoi
    dsimp only
    rw [takeWhile_of_head hspaces hhead, dropWhile_of_head hspaces hhead, ← hlen,
      List.drop_left, htake, if_neg hnil]
    simp only [hminus]
    rw [← hvalue, if_neg (by omega)]
    simp [Nat.add_assoc]

/-! ## Entries -/

theorem rfind_append (front : List UInt8) {back : List UInt8} {c : UInt8} (h : c ∉ back) :
    rfind (front ++ c :: back) c = some front.length := by
  have hback : back.reverse.findIdx? (· == c) = none := by
    rw [List.findIdx?_eq_none_iff]
    intro x hx
    rw [List.mem_reverse] at hx
    exact beq_eq_false_iff_ne.mpr fun hxc => h (hxc ▸ hx)
  have hreverse : (front ++ c :: back).reverse = back.reverse ++ c :: front.reverse := by simp
  rw [rfind, hreverse, List.findIdx?_append, hback]
  simp [List.findIdx?_cons]

theorem rfind_of_not_mem {text : List UInt8} {c : UInt8} (h : c ∉ text) : rfind text c = none := by
  rw [rfind, Option.map_eq_none_iff, List.findIdx?_eq_none_iff]
  intro x hx
  rw [List.mem_reverse] at hx
  exact beq_eq_false_iff_ne.mpr fun hxc => h (hxc ▸ hx)

/-- `rfind` finds the last occurrence. -/
theorem rfind_eq_some {text : List UInt8} {c : UInt8} {i : ℕ} (h : rfind text c = some i) :
    ∃ front back, text = front ++ c :: back ∧ c ∉ back ∧ i = front.length := by
  by_cases hmem : c ∈ text
  · obtain ⟨before, after, hsplit, hbefore⟩ :=
      List.eq_append_cons_of_mem (List.mem_reverse.mpr hmem)
    have htext : text = after.reverse ++ c :: before.reverse := by
      rw [← List.reverse_reverse text, hsplit]
      simp
    have hlast : c ∉ before.reverse := fun hc => hbefore (List.mem_reverse.mp hc)
    refine ⟨after.reverse, before.reverse, htext, hlast, ?_⟩
    rw [htext, rfind_append _ hlast, Option.some.injEq] at h
    exact h.symm
  · rw [rfind_of_not_mem hmem] at h
    cases h

theorem checkedStation_eq_ok_iff {value : ℤ} {name : String} {station : Station} :
    checkedStation value name = .ok station ↔
      1 ≤ value ∧ value ≤ 247 ∧ value = station.val.toNat := by
  have hmin : (kMinStation.toNat : ℤ) = 1 := rfl
  have hmax : (kMaxStation.toNat : ℤ) = 247 := rfl
  unfold checkedStation
  dsimp only
  split
  · next h =>
    rw [hmin, hmax] at h
    rw [Except.ok.injEq, Subtype.ext_iff, ← UInt8.toNat_inj, UInt8.toNat_ofNat']
    omega
  · next h =>
    rw [hmin, hmax] at h
    simp only [reduceCtorEq, false_iff]
    omega

theorem checkedStation_eq_error {value : ℤ} {name : String} {e : Exception}
    (h : checkedStation value name = .error e) : ∃ what, e = .invalidArgument what := by
  unfold checkedStation at h
  dsimp only at h
  split at h
  · cases h
  · injection h with h
    exact ⟨_, h.symm⟩

/-- An entry that is refused is refused with one kind of exception. -/
theorem parseEntry_eq_error {entry : List UInt8} {e : Exception} (h : parseEntry entry = .error e) :
    ∃ what, e = .invalidArgument what := by
  unfold parseEntry at h
  dsimp only at h
  split at h
  · injection h with h
    exact ⟨_, h.symm⟩
  · split at h
    · injection h with h
      exact ⟨_, h.symm⟩
    · split at h
      · -- Whatever the conversion threw is not passed on.
        injection h with h
        exact ⟨_, h.symm⟩
      · split at h
        · injection h with h
          exact ⟨_, h.symm⟩
        · split at h
          · next e' he =>
            injection h with h
            exact h ▸ checkedStation_eq_error he
          · cases h

theorem drop_colon (front back : List UInt8) (c : UInt8) :
    (front ++ c :: back).drop (front.length + 1) = back := by
  rw [← List.drop_drop, List.drop_left, List.drop_one, List.tail_cons]

/-- **An entry is accepted exactly when it denotes a route.** -/
theorem parseEntry_eq_ok_iff {entry : List UInt8} {route : Route} :
    parseEntry entry = .ok route ↔ EntryOf entry route := by
  constructor
  · intro h
    unfold parseEntry at h
    dsimp only at h
    split at h
    · cases h
    · next colon hcolon =>
      obtain ⟨front, back, rfl, hlast, rfl⟩ := rfind_eq_some hcolon
      split at h
      · cases h
      · next hends =>
        split at h
        · cases h
        · next value consumed hstoi =>
          split at h
          · cases h
          · next hconsumed =>
            split at h
            · cases h
            · next station hstation =>
              injection h with h
              subst h
              rw [drop_colon] at hstoi hconsumed
              rw [not_not.mp hconsumed] at hstoi
              obtain ⟨hmin, hmax, hvalue⟩ := checkedStation_eq_ok_iff.mp hstation
              rw [not_or] at hends
              refine ⟨?_, back, value, ?_, hlast, ?_, stoi_eq_ok_iff.mp hstoi, hmin, hmax, hvalue⟩
              · rw [List.take_left]
                exact fun hnil => hends.1 (List.length_eq_zero_iff.mpr hnil)
              · rw [List.take_left]
              · rintro rfl
                exact hends.2 (by simp)
  · rintro ⟨hkeyword, stationText, value, rfl, hlast, hne, hint, hmin, hmax, hvalue⟩
    have hends : ¬ (route.keyword.length = 0 ∨
        route.keyword.length + 1 = (route.keyword ++ 0x3A :: stationText).length) := by
      rw [← List.length_pos_iff_ne_nil] at hkeyword hne
      simp only [List.length_append, List.length_cons]
      omega
    have hstation : isForwardable route.station := by
      rw [isForwardable_iff, UInt8.le_iff_toNat_le, UInt8.le_iff_toNat_le]
      simp only [kMinStation, kMaxStation, UInt8.reduceToNat]
      omega
    have hchecked : checkedStation value "route_map station" = .ok ⟨route.station, hstation⟩ :=
      checkedStation_eq_ok_iff.mpr ⟨hmin, hmax, hvalue⟩
    unfold parseEntry
    simp only [rfind_append _ hlast, if_neg hends, drop_colon, List.take_left,
      stoi_eq_ok_iff.mpr hint, ne_eq, not_true_eq_false, if_false, hchecked]

/-! ## The loop over the entries -/

theorem entriesOf_nil : entriesOf [] = [] := by
  simp [entriesOf, trim]

theorem findIdx_of_not_mem {w : List UInt8} {c : UInt8} (h : c ∉ w) :
    w.findIdx (· == c) = w.length := by
  rw [List.findIdx_eq_length]
  intro x hx
  exact beq_eq_false_iff_ne.mpr fun heq => h (heq ▸ hx)

/-- The first entry ends at the first comma. -/
theorem entriesOf_eq (w : List UInt8) :
    entriesOf w =
      (if trim (w.take (w.findIdx (· == 0x2C))) = [] then []
        else [trim (w.take (w.findIdx (· == 0x2C)))]) ++
      entriesOf (w.drop (w.findIdx (· == 0x2C) + 1)) := by
  by_cases hmem : 0x2C ∈ w
  · obtain ⟨before, after, rfl, hbefore⟩ := List.eq_append_cons_of_mem hmem
    have hidx : (before ++ 0x2C :: after).findIdx (· == 0x2C) = before.length := by
      rw [List.findIdx_append, findIdx_of_not_mem hbefore, if_neg (lt_irrefl _), List.findIdx_cons]
      simp
    rw [hidx, List.take_left, drop_colon, entriesOf, entriesOf,
      List.splitOn_append_cons_self_of_not_mem hbefore, List.map_cons, List.filter_cons]
    split_ifs <;> simp_all
  · rw [findIdx_of_not_mem hmem, List.take_length, List.drop_eq_nil_of_le (Nat.le_succ _),
      entriesOf_nil, entriesOf, List.splitOn_eq_singleton hmem]
    split_ifs <;> simp_all

/-- The first entry from a position on, as the loop computes it. -/
theorem entriesOf_next (spec : List UInt8) (pos : ℕ) :
    let comma := pos + (spec.drop pos).findIdx (· == 0x2C)
    let entry := trim ((spec.drop pos).take ((spec.drop pos).findIdx (· == 0x2C)))
    entriesOf (spec.drop pos) =
      (if entry = [] then [] else [entry]) ++ entriesOf (spec.drop (comma + 1)) := by
  intro comma entry
  rw [entriesOf_eq, List.drop_drop, ← Nat.add_assoc]

/-- The loop parses the entries from its position on, and stops at the first exception. -/
theorem parseRouteMapFrom_eq (spec : List UInt8) (pos : ℕ) (routes : List Route) :
    parseRouteMapFrom spec pos routes =
      ((entriesOf (spec.drop pos)).mapM parseEntry).map (routes ++ ·) := by
  fun_induction parseRouteMapFrom spec pos routes with
  | case1 pos routes hpos comma entry hempty ih =>
    rw [ih, entriesOf_next spec pos, if_pos (by simpa [entry, comma] using hempty), List.nil_append]
  | case2 pos routes hpos comma entry hempty e he =>
    rw [entriesOf_next spec pos, if_neg (by simpa [entry, comma] using hempty)]
    simp only [entry, comma, Nat.add_sub_cancel_left] at he
    rw [List.singleton_append, List.mapM_cons, he]
    rfl
  | case3 pos routes hpos comma entry hempty route hroute ih =>
    rw [ih, entriesOf_next spec pos, if_neg (by simpa [entry, comma] using hempty)]
    simp only [entry, comma, Nat.add_sub_cancel_left] at hroute
    rw [List.singleton_append, List.mapM_cons, hroute]
    simp only [comma]
    cases (entriesOf (spec.drop (pos + (spec.drop pos).findIdx (· == 0x2C) + 1))).mapM parseEntry
    · rfl
    · simp [Except.map, bind, Except.bind, pure, Except.pure]
  | case4 pos routes hpos =>
    rw [List.drop_eq_nil_of_le (not_lt.mp hpos), entriesOf_nil]
    simp [Except.map, pure, Except.pure]

/-- **A route map is parsed entry by entry.** -/
theorem parseRouteMap_eq_mapM (spec : List UInt8) :
    parseRouteMap spec = (entriesOf spec).mapM parseEntry := by
  rw [parseRouteMap, parseRouteMapFrom_eq, List.drop_zero]
  cases (entriesOf spec).mapM parseEntry <;> rfl

theorem mapM_parseEntry_eq_ok_iff {entries : List (List UInt8)} {routes : List Route} :
    entries.mapM parseEntry = .ok routes ↔ List.Forall₂ EntryOf entries routes := by
  induction entries generalizing routes with
  | nil => simp [pure, Except.pure, eq_comm]
  | cons entry entries ih =>
    rw [List.mapM_cons, List.forall₂_cons_left_iff]
    cases hentry : parseEntry entry with
    | error e =>
      simp only [bind, Except.bind, reduceCtorEq, false_iff, not_exists, not_and]
      intro route _ hroute
      rw [parseEntry_eq_ok_iff.mpr hroute] at hentry
      cases hentry
    | ok route =>
      constructor
      · intro h
        cases hrest : entries.mapM parseEntry with
        | error e =>
          rw [hrest] at h
          cases h
        | ok rest =>
          rw [hrest] at h
          injection h with h
          exact ⟨route, rest, parseEntry_eq_ok_iff.mp hentry, ih.mp hrest, h.symm⟩
      · rintro ⟨route', rest, hroute, hrest, rfl⟩
        rw [parseEntry_eq_ok_iff.mpr hroute] at hentry
        injection hentry with hentry
        subst hentry
        rw [ih.mpr hrest]
        rfl

/-- A map that is refused is refused with one kind of exception. -/
theorem mapM_parseEntry_eq_error {entries : List (List UInt8)} {e : Exception}
    (h : entries.mapM parseEntry = .error e) : ∃ what, e = .invalidArgument what := by
  induction entries with
  | nil => cases h
  | cons entry entries ih =>
    rw [List.mapM_cons] at h
    cases hentry : parseEntry entry with
    | error e' =>
      rw [hentry] at h
      injection h with h
      exact h ▸ parseEntry_eq_error hentry
    | ok route =>
      rw [hentry] at h
      cases hrest : entries.mapM parseEntry with
      | error e' =>
        rw [hrest] at h
        injection h with h
        exact ih (h ▸ hrest)
      | ok routes =>
        rw [hrest] at h
        cases h

/-! ## A table as a text -/

/-- The decimal digits of a number. -/
def decimal (n : ℕ) : List UInt8 :=
  (Nat.digits 10 n).reverse.map fun d => UInt8.ofNat (0x30 + d)

/-- An entry as it is written, `keyword:station`. -/
def renderRoute (route : Route) : List UInt8 :=
  route.keyword ++ 0x3A :: decimal route.station.toNat

/-- A table as a route map. -/
def render (routes : List Route) : List UInt8 :=
  [0x2C].intercalate (routes.map renderRoute)

/-- An entry that can be written: a keyword without commas that starts with no blank, and a legal
station. -/
structure Renderable (route : Route) : Prop where
  keyword_ne_nil : route.keyword ≠ []
  no_comma : 0x2C ∉ route.keyword
  no_blank : ∀ c ∈ route.keyword.head?, isBlank c = false
  isForwardable : isForwardable route.station

theorem digitsValue_decimal (n : ℕ) : digitsValue (decimal n) = n := by
  have h : ∀ ds : List ℕ, (∀ d ∈ ds, d < 10) →
      digitsValue (ds.reverse.map fun d => UInt8.ofNat (0x30 + d)) = Nat.ofDigits 10 ds := by
    intro ds hds
    rw [digitsValue, List.foldl_map, List.foldl_reverse]
    induction ds with
    | nil => rfl
    | cons d ds ih =>
      have hd := hds d (by simp)
      have hdigit : (UInt8.ofNat (0x30 + d)).toNat - 0x30 = d := by
        rw [UInt8.toNat_ofNat']
        omega
      rw [List.foldr_cons, ih fun d' hd' => hds d' (by simp [hd']), hdigit, Nat.ofDigits_cons]
      simp [Nat.add_comm]
  rw [decimal, h _ fun d hd => Nat.digits_lt_base (by omega) hd, Nat.ofDigits_digits]

theorem isDigit_of_mem_decimal {n : ℕ} {c : UInt8} (h : c ∈ decimal n) : isDigit c := by
  obtain ⟨d, hd, rfl⟩ := List.mem_map.mp h
  have hlt : d < 10 := Nat.digits_lt_base (by omega) (List.mem_reverse.mp hd)
  simp only [isDigit, Bool.and_eq_true, decide_eq_true_eq, UInt8.le_iff_toNat_le,
    UInt8.toNat_ofNat', UInt8.reduceToNat]
  omega

theorem decimal_ne_nil {n : ℕ} (h : 0 < n) : decimal n ≠ [] := by
  simp [decimal, Nat.digits_ne_nil_iff_ne_zero, h.ne']

theorem intText_decimal {n : ℕ} (hpos : 0 < n) (hmax : n ≤ 2147483647) : IntText (decimal n) n := by
  refine ⟨[], [], decimal n, rfl, by simp, .inl rfl, decimal_ne_nil hpos, ?_, ?_, by omega,
    by omega⟩
  · intro c hc
    exact isDigit_of_mem_decimal hc
  · rw [digitsValue_decimal]
    rfl

/-- A written entry denotes the route it was written for. -/
theorem entryOf_renderRoute {route : Route} (h : Renderable route) :
    EntryOf (renderRoute route) route := by
  obtain ⟨hmin, hmax⟩ := isForwardable_iff.mp h.isForwardable
  rw [UInt8.le_iff_toNat_le] at hmin hmax
  simp only [kMinStation, kMaxStation, UInt8.reduceToNat] at hmin hmax
  refine ⟨h.keyword_ne_nil, _, _, rfl, ?_, decimal_ne_nil (by omega),
    intText_decimal (by omega) (by omega), by omega, by omega, rfl⟩
  intro hcolon
  exact absurd (isDigit_of_mem_decimal hcolon) (by decide)

/-- A written entry has no blanks at its ends. -/
theorem trim_renderRoute {route : Route} (h : Renderable route) :
    trim (renderRoute route) = renderRoute route := by
  obtain ⟨hmin, -⟩ := isForwardable_iff.mp h.isForwardable
  have hpos : 0 < route.station.toNat := hmin
  have hfront : (renderRoute route).dropWhile isBlank = renderRoute route := by
    obtain ⟨c, t, hkeyword⟩ := List.exists_cons_of_ne_nil h.keyword_ne_nil
    have hc : isBlank c = false := h.no_blank c (by rw [hkeyword]; rfl)
    rw [renderRoute, hkeyword, List.cons_append, List.dropWhile_cons_of_neg (by simp [hc])]
  rw [trim, hfront, List.rdropWhile_eq_self_iff]
  intro hne
  -- The last character is a digit.
  have hlast : (renderRoute route).getLast hne ∈ decimal route.station.toNat := by
    have hsplit : renderRoute route = (route.keyword ++ [0x3A]) ++ decimal route.station.toNat := by
      simp [renderRoute]
    simp only [hsplit, List.getLast_append_of_ne_nil _ (decimal_ne_nil hpos), List.getLast_mem]
  have hdigit := isDigit_of_mem_decimal hlast
  generalize (renderRoute route).getLast hne = c at hdigit
  simp only [isDigit, isBlank, Bool.and_eq_true, decide_eq_true_eq, Bool.or_eq_true, beq_iff_eq,
    UInt8.le_iff_toNat_le, ← UInt8.toNat_inj, UInt8.reduceToNat] at hdigit ⊢
  omega

theorem not_mem_renderRoute {route : Route} (h : Renderable route) :
    0x2C ∉ renderRoute route := by
  simp only [renderRoute, List.mem_append, List.mem_cons, not_or]
  refine ⟨h.no_comma, by decide, ?_⟩
  intro hcomma
  exact absurd (isDigit_of_mem_decimal hcomma) (by decide)

theorem entriesOf_render {routes : List Route} (h : ∀ route ∈ routes, Renderable route) :
    entriesOf (render routes) = routes.map renderRoute := by
  rcases routes with _ | ⟨route, routes⟩
  · exact entriesOf_nil
  · have hsplit : (render (route :: routes)).splitOn 0x2C = (route :: routes).map renderRoute := by
      refine List.splitOn_intercalate _ ?_ (by simp)
      intro entry hentry
      obtain ⟨r, hr, rfl⟩ := List.mem_map.mp hentry
      exact not_mem_renderRoute (h r hr)
    have htrim : ((route :: routes).map renderRoute).map trim =
        (route :: routes).map renderRoute := by
      rw [List.map_map]
      exact List.map_congr_left fun r hr => trim_renderRoute (h r hr)
    rw [entriesOf, hsplit, htrim, List.filter_eq_self]
    intro entry hentry
    obtain ⟨r, hr, rfl⟩ := List.mem_map.mp hentry
    simp [renderRoute]

/-- **The grammar of a route map.** A text is parsed to a table exactly when its entries denote the
routes of the table, in order; any other text is refused as an invalid argument; and a table whose
keywords can be written is what its text is parsed to. -/
theorem parseRouteMap_grammar :
    (∀ spec : List UInt8,
      (∀ routes, parseRouteMap spec = .ok routes ↔
        List.Forall₂ EntryOf (entriesOf spec) routes) ∧
      ((¬ ∃ routes, List.Forall₂ EntryOf (entriesOf spec) routes) →
        ∃ what, parseRouteMap spec = .error (.invalidArgument what))) ∧
    ∀ routes : List Route, (∀ route ∈ routes, Renderable route) →
      parseRouteMap (render routes) = .ok routes := by
  have hok : ∀ spec routes, parseRouteMap spec = .ok routes ↔
      List.Forall₂ EntryOf (entriesOf spec) routes := by
    intro spec routes
    rw [parseRouteMap_eq_mapM, mapM_parseEntry_eq_ok_iff]
  refine ⟨?_, ?_⟩
  · intro spec
    refine ⟨hok spec, ?_⟩
    intro hnone
    cases hparse : parseRouteMap spec with
    | ok routes => exact absurd ⟨routes, (hok spec routes).mp hparse⟩ hnone
    | error e =>
      rw [parseRouteMap_eq_mapM] at hparse
      obtain ⟨what, rfl⟩ := mapM_parseEntry_eq_error hparse
      exact ⟨what, rfl⟩
  · intro routes hroutes
    rw [hok, entriesOf_render hroutes, List.forall₂_map_left_iff, List.forall₂_same]
    intro route hroute
    exact entryOf_renderRoute (hroutes route hroute)

end Ds10Relay

import Mathlib.Tactic
import DS10Link.Rules.FirstMatch
import DS10Link.Relay.Config

/-!
# The order of the routing table

The table of a responder is an ordered list of rules: an entry matches the payloads its keyword
occurs in, and the first entry that matches is selected. An entry behind one whose keyword occurs
in its own is selected for no payload; such entries can be dropped from the table.

## Main definitions

* `Route.matches`: the keyword of an entry occurs in a payload
* `selectedEntry`: the position of the entry that `routeLookup` selects

## Main results

* `routeLookup_eq_select`: `routeLookup` selects the first entry that matches
* `covers_iff`: an entry covers those whose keywords its own occurs in
* `shadowed_routes`: which entries are selected for some payload, and which can be dropped
-/

namespace Ds10Relay

/-- The keyword of the entry occurs in the payload. -/
def Route.matches (route : Route) (payload : List UInt8) : Bool :=
  (find payload route.keyword).isSome

/-- The position of the entry that is selected for a payload. -/
def selectedEntry (routes : List Route) (payload : List UInt8) : Option ℕ :=
  FirstMatch.index Route.matches routes payload

theorem Route.matches_iff {route : Route} {payload : List UInt8} :
    route.matches payload = true ↔ route.keyword <:+: payload :=
  find_isSome

/-- The lookup selects the first entry that matches. -/
theorem routeLookup_eq_select (routes : List Route) (payload : List UInt8) (defaultDst : UInt8) :
    routeLookup routes payload defaultDst =
      (FirstMatch.select Route.matches routes payload).elim defaultDst Route.station := by
  induction routes with
  | nil => rfl
  | cons route routes ih =>
    rw [FirstMatch.select] at ih
    rw [routeLookup, ih, FirstMatch.select, List.find?_cons]
    cases hm : route.matches payload with
    | true => simp only [Route.matches] at hm; simp [hm]
    | false => simp only [Route.matches] at hm; simp [hm]

/-- An entry covers exactly those whose keywords its own occurs in. -/
theorem covers_iff {route route' : Route} :
    FirstMatch.Covers Route.matches route route' ↔ route.keyword <:+: route'.keyword := by
  constructor
  · intro h
    -- A keyword is a payload that it occurs in.
    exact Route.matches_iff.mp (h route'.keyword (Route.matches_iff.mpr (List.infix_refl _)))
  · intro h payload hmatch
    exact Route.matches_iff.mpr (h.trans (Route.matches_iff.mp hmatch))

/-- An entry is shadowed exactly when an earlier keyword occurs in its own. -/
theorem shadowed_iff {routes : List Route} {j : ℕ} :
    FirstMatch.Shadowed Route.matches routes j ↔
      ∃ i < j, ∃ route ∈ routes[i]?, ∃ route' ∈ routes[j]?, route.keyword <:+: route'.keyword := by
  simp only [FirstMatch.Shadowed, covers_iff]

/-- Each keyword, taken as a payload, is matched by the entries that cover its own entry only. -/
theorem exists_principal (route : Route) :
    ∃ payload, route.matches payload = true ∧
      ∀ route' : Route, route'.matches payload = true →
        FirstMatch.Covers Route.matches route' route := by
  refine ⟨route.keyword, Route.matches_iff.mpr (List.infix_refl _), ?_⟩
  intro route' hmatch
  exact covers_iff.mpr (Route.matches_iff.mp hmatch)

/-- **Shadowed routes.** The lookup answers with the station of the entry it selects. An entry is
selected for some payload if and only if no earlier keyword occurs in its own; and without any set
of entries of which this fails, the lookup answers as it did. -/
theorem shadowed_routes (routes : List Route) :
    (∀ payload defaultDst, routeLookup routes payload defaultDst =
      ((selectedEntry routes payload).bind (routes[·]?)).elim defaultDst Route.station) ∧
    (∀ j : Fin routes.length, (∃ payload, selectedEntry routes payload = some j.val) ↔
      ∀ i < j, ¬ routes[i].keyword <:+: routes[j].keyword) ∧
    ∀ removed : ℕ → Bool,
      (∀ j : Fin routes.length, removed j = true →
        ∃ i < j, routes[i].keyword <:+: routes[j].keyword) →
      ∀ payload defaultDst, routeLookup (FirstMatch.without removed routes) payload defaultDst =
        routeLookup routes payload defaultDst := by
  have hshadowed : ∀ j : Fin routes.length, FirstMatch.Shadowed Route.matches routes j ↔
      ∃ i < j, routes[i].keyword <:+: routes[j].keyword := by
    intro j
    rw [shadowed_iff]
    constructor
    · rintro ⟨i, hi, route, hr, route', hr', h⟩
      obtain ⟨hlt, rfl⟩ := List.getElem?_eq_some_iff.mp hr
      obtain ⟨hlt', rfl⟩ := List.getElem?_eq_some_iff.mp hr'
      exact ⟨⟨i, hlt⟩, hi, h⟩
    · rintro ⟨i, hi, h⟩
      exact ⟨i, hi, _, List.getElem?_eq_getElem i.isLt, _, List.getElem?_eq_getElem j.isLt, h⟩
  refine ⟨?_, ?_, ?_⟩
  · intro payload defaultDst
    rw [routeLookup_eq_select, FirstMatch.select_eq_bind_index, selectedEntry]
  · intro j
    have hindex : (∃ payload, selectedEntry routes payload = some j.val) ↔
        ¬ FirstMatch.Shadowed Route.matches routes j :=
      FirstMatch.exists_index_iff exists_principal j.isLt
    rw [hindex, hshadowed j, not_exists]
    exact forall_congr' fun i => not_and
  · intro removed hremoved payload defaultDst
    have hselect : FirstMatch.select Route.matches (FirstMatch.without removed routes) payload =
        FirstMatch.select Route.matches routes payload := by
      refine FirstMatch.select_without ?_ payload
      intro j hj hrem
      exact (hshadowed ⟨j, hj⟩).mpr (hremoved ⟨j, hj⟩ hrem)
    rw [routeLookup_eq_select, routeLookup_eq_select, hselect]

example : selectedEntry [⟨bytesOf "temp", 2⟩, ⟨bytesOf "temperature", 3⟩] (bytesOf "temperature") =
    some 0 := by
  decide +kernel

end Ds10Relay

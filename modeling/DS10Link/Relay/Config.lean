import Mathlib.Tactic
import Mathlib.Data.List.DropRight
import DS10Link.Relay.Transaction

/-!
# Configuration of the relay node

One executable serves both ends of the relay; its parameters choose the role. A relay knows the
station it asks. A responder knows a routing table, keywords and the stations they select, and a
station to fall back on. The constructor refuses parameters that could not work.

## Main definitions

* `parseRouteMap`, `routeLookup`: the routing table and what it selects
* `Options`, `Role`, `configure`: the constructor's checks

## Main results

* `find_isSome`: a search finds a keyword when it occurs
* `parseRouteMap_isForwardable`: a parsed table names legal stations only
* `configure_responder`: so does everything a configured responder can answer with
-/

namespace Ds10Relay

open Transaction

/-- The bytes of a text. -/
def bytesOf (s : String) : List UInt8 := s.toUTF8.data.toList

/-- The exceptions of the standard library that parsing can meet, with their texts. -/
inductive Exception where
  | invalidArgument (what : List UInt8)
  | outOfRange (what : List UInt8)
  deriving DecidableEq, Repr

/-! ## Strings -/

/-- `std::string::find` of a substring. -/
def find (text pat : List UInt8) : Option ℕ :=
  (List.range (text.length + 1)).find? fun i => pat.isPrefixOf (text.drop i)

theorem find_isSome {text pat : List UInt8} : (find text pat).isSome ↔ pat <:+: text := by
  rw [find, List.find?_isSome]
  constructor
  · rintro ⟨i, -, h⟩
    exact (List.isPrefixOf_iff_prefix.mp h).isInfix.trans (List.drop_suffix i text).isInfix
  · rintro ⟨s, t, rfl⟩
    -- The search need not stop here, but it passes here.
    refine ⟨s.length, by simp, ?_⟩
    rw [List.isPrefixOf_iff_prefix, List.append_assoc, List.drop_left]
    exact List.prefix_append pat t

/-- `std::string::rfind` of a character. -/
def rfind (text : List UInt8) (c : UInt8) : Option ℕ :=
  (text.reverse.findIdx? (· == c)).map fun i => text.length - 1 - i

/-- A space or a tab. -/
def isBlank (c : UInt8) : Bool := c == 0x20 || c == 0x09

/-- Cut blanks off both ends. -/
def trim (text : List UInt8) : List UInt8 := (text.dropWhile isBlank).rdropWhile isBlank

/-- White space as `std::stoi` skips it. -/
def isSpace (c : UInt8) : Bool := c == 0x20 || (0x09 ≤ c && c ≤ 0x0D)

def isDigit (c : UInt8) : Bool := 0x30 ≤ c && c ≤ 0x39

/-- The value of a string of decimal digits. -/
def digitsValue (digits : List UInt8) : ℕ :=
  digits.foldl (fun v c => 10 * v + (c.toNat - 0x30)) 0

/-- `std::stoi` in base ten: the value and the number of characters consumed. -/
def stoi (text : List UInt8) : Except Exception (ℤ × ℕ) :=
  let spaces := text.takeWhile isSpace
  let rest := text.dropWhile isSpace
  let signLen := if rest.head? = some 0x2D ∨ rest.head? = some 0x2B then 1 else 0
  let digits := (rest.drop signLen).takeWhile isDigit
  if digits = [] then .error (.invalidArgument (bytesOf "stoi"))
  else
    let value : ℤ := if rest.head? = some 0x2D then -digitsValue digits else digitsValue digits
    if value < -2147483648 ∨ value > 2147483647 then .error (.outOfRange (bytesOf "stoi"))
    else .ok (value, spaces.length + signLen + digits.length)

/-! ## The routing table -/

/-- A Modbus station id. -/
abbrev Station := { id : UInt8 // isForwardable id }

/-- One keyword and the station it selects. -/
structure Route where
  keyword : List UInt8
  station : UInt8
  deriving DecidableEq, Repr

/-- Reject a station id outside 1..247, naming the parameter. -/
def checkedStation (value : ℤ) (name : String) : Except Exception Station :=
  let station := UInt8.ofNat value.toNat
  if h : kMinStation.toNat ≤ value ∧ value ≤ kMaxStation.toNat then
    .ok ⟨station, by
      have hs : station.toNat = value.toNat := by
        rw [UInt8.toNat_ofNat']
        simp only [kMaxStation, UInt8.reduceToNat] at h
        omega
      rw [isForwardable_iff, UInt8.le_iff_toNat_le, UInt8.le_iff_toNat_le, hs]
      omega⟩
  else .error (.invalidArgument (bytesOf name ++
    bytesOf " must be in 1..247 (Modbus station id), got: " ++ bytesOf (toString value)))

/-- One entry of a route map, already trimmed. -/
def parseEntry (entry : List UInt8) : Except Exception Route :=
  let malformed : Except Exception Route := .error (.invalidArgument
    (bytesOf "route_map entry must be 'keyword:station', got: '" ++ entry ++ bytesOf "'"))
  match rfind entry 0x3A with
  | none => malformed
  | some colon =>
    if colon = 0 ∨ colon + 1 = entry.length then malformed
    else
      let keyword := entry.take colon
      let stationText := entry.drop (colon + 1)
      let notInteger : Except Exception Route := .error (.invalidArgument
        (bytesOf "route_map station must be an integer, got: '" ++ stationText ++
          bytesOf "' in entry '" ++ entry ++ bytesOf "'"))
      -- Whatever the conversion throws is caught and reported as one kind of error.
      match stoi stationText with
      | .error _ => notInteger
      | .ok (station, consumed) =>
        if consumed ≠ stationText.length then notInteger
        else
          match checkedStation station "route_map station" with
          | .error e => .error e
          | .ok station => .ok ⟨keyword, station.val⟩

/-- The loop of `parse_route_map` from `pos` on. -/
def parseRouteMapFrom (spec : List UInt8) (pos : ℕ) (routes : List Route) :
    Except Exception (List Route) :=
  if pos < spec.length then
    let comma := pos + (spec.drop pos).findIdx (· == 0x2C)
    let entry := trim ((spec.drop pos).take (comma - pos))
    -- An empty entry, such as a trailing comma, is passed over.
    if entry = [] then parseRouteMapFrom spec (comma + 1) routes
    else
      match parseEntry entry with
      | .error e => .error e
      | .ok route => parseRouteMapFrom spec (comma + 1) (routes ++ [route])
  else .ok routes
termination_by spec.length - pos

/-- Parse a `route_map` parameter, `keyword:station,keyword:station,...`. -/
def parseRouteMap (spec : List UInt8) : Except Exception (List Route) :=
  parseRouteMapFrom spec 0 []

/-- The station the table selects for a payload: the first keyword that occurs wins. -/
def routeLookup (routes : List Route) (payload : List UInt8) (defaultDst : UInt8) : UInt8 :=
  match routes with
  | [] => defaultDst
  | route :: routes =>
    if (find payload route.keyword).isSome then route.station
    else routeLookup routes payload defaultDst

theorem parseEntry_isForwardable {entry : List UInt8} {route : Route}
    (h : parseEntry entry = .ok route) : isForwardable route.station := by
  unfold parseEntry at h
  -- Every way out but the last one throws.
  split at h
  · cases h
  · split at h
    · cases h
    · dsimp only at h
      split at h
      · cases h
      · split at h
        · cases h
        · split at h
          · cases h
          · next station _ =>
            injection h with h
            subst h
            exact station.property

theorem parseRouteMapFrom_isForwardable {spec : List UInt8} {pos : ℕ} {routes parsed : List Route}
    (hroutes : ∀ route ∈ routes, isForwardable route.station)
    (h : parseRouteMapFrom spec pos routes = .ok parsed) :
    ∀ route ∈ parsed, isForwardable route.station := by
  fun_induction parseRouteMapFrom spec pos routes with
  | case1 pos routes hpos comma entry hempty ih => exact ih hroutes h
  | case2 => cases h
  | case3 pos routes hpos comma entry hempty route hroute ih =>
    -- One more entry: the route at the end of the table is the one just parsed.
    refine ih ?_ h
    intro r hr
    rcases List.mem_append.mp hr with hr | hr
    · exact hroutes r hr
    · rw [List.mem_singleton.mp hr]
      exact parseEntry_isForwardable hroute
  | case4 =>
    injection h with h
    exact h ▸ hroutes

/-- **A parsed table names legal stations only.** -/
theorem parseRouteMap_isForwardable {spec : List UInt8} {routes : List Route}
    (h : parseRouteMap spec = .ok routes) : ∀ route ∈ routes, isForwardable route.station :=
  parseRouteMapFrom_isForwardable (by simp) h

example : parseRouteMap (bytesOf " temp:2,  sensor:humid:+3 ,") =
    .ok [⟨bytesOf "temp", 2⟩, ⟨bytesOf "sensor:humid", 3⟩] := by
  decide +kernel

/-- A lookup answers with the default or with a station of the table. -/
theorem routeLookup_mem (routes : List Route) (payload : List UInt8) (defaultDst : UInt8) :
    routeLookup routes payload defaultDst = defaultDst ∨
      ∃ route ∈ routes, routeLookup routes payload defaultDst = route.station := by
  induction routes with
  | nil => exact .inl rfl
  | cons route routes ih =>
    rw [routeLookup]
    split
    · exact .inr ⟨route, by simp, rfl⟩
    · rcases ih with ih | ⟨r, hr, ih⟩
      · exact .inl ih
      · exact .inr ⟨r, by simp [hr], ih⟩

/-- A table of legal stations and a legal default select a legal station or none. -/
theorem routeLookup_legal {routes : List Route} {defaultDst : UInt8} (payload : List UInt8)
    (hroutes : ∀ route ∈ routes, isForwardable route.station)
    (hdefault : defaultDst = kNoForward ∨ isForwardable defaultDst) :
    routeLookup routes payload defaultDst = kNoForward ∨
      isForwardable (routeLookup routes payload defaultDst) := by
  rcases routeLookup_mem routes payload defaultDst with h | ⟨route, hroute, h⟩
  · rwa [h]
  · rw [h]
    exact .inr (hroutes route hroute)

/-! ## The constructor -/

/-- The parameters as declared, with their defaults. -/
structure Options where
  role : List UInt8 := bytesOf "relay"
  slave1Id : ℤ := 1
  functionCode : ℤ := 0x10
  timeoutMs : ℤ := 1500
  maxRetries : ℤ := 2
  autoIntervalMs : ℤ := 0
  autoPayload : List UInt8 := bytesOf "ds10_relay auto probe"
  routeMap : List UInt8 := []
  defaultDst : ℤ := 0

/-- What a node in the relay role keeps of its parameters. The auto timer exists when its payload
does. -/
structure RelayParams where
  slave1Id : UInt8
  functionCode : UInt8
  maxRetries : ℕ
  autoPayload : Option (List UInt8)
  slave1Id_isForwardable : isForwardable slave1Id

/-- What a node in the responder role keeps of its parameters. -/
structure ResponderParams where
  routes : List Route
  defaultDst : UInt8

/-- The role of a node, with its parameters. -/
inductive Role where
  | relay (params : RelayParams)
  | responder (params : ResponderParams)

/-- A parameter out of range: its name, what is asked of it, and the value it had. -/
def badParameter (requirement : String) (value : ℤ) : Except Exception Role :=
  .error (.invalidArgument (bytesOf requirement ++ bytesOf ", got: " ++ bytesOf (toString value)))

/-- The default destination: zero stands for no forwarding, anything else must be a station. -/
def checkedDefault (value : ℤ) : Except Exception UInt8 :=
  if value ≠ kNoForward.toNat then
    match checkedStation value "default_dst" with
    | .error e => .error e
    | .ok station => .ok station.val
  else .ok kNoForward

theorem checkedDefault_legal {value : ℤ} {dst : UInt8} (h : checkedDefault value = .ok dst) :
    dst = kNoForward ∨ isForwardable dst := by
  unfold checkedDefault at h
  split at h
  · split at h
    · cases h
    · next station _ =>
      injection h with h
      exact .inr (h ▸ station.property)
  · injection h with h
    exact .inl h.symm

/-- The constructor: check the parameters in their order and resolve the role. -/
def configure (o : Options) : Except Exception Role :=
  if o.role ≠ bytesOf "relay" ∧ o.role ≠ bytesOf "responder" then
    .error (.invalidArgument
      (bytesOf "role must be 'relay' or 'responder', got: " ++ o.role))
  else if o.timeoutMs ≤ 0 then badParameter "timeout_ms must be positive" o.timeoutMs
  else if o.maxRetries < 0 then badParameter "max_retries must be >= 0" o.maxRetries
  else if o.functionCode < 0 ∨ o.functionCode > 0xFF then
    badParameter "function_code must be in 0..255" o.functionCode
  else if o.role = bytesOf "relay" then
    match checkedStation o.slave1Id "slave1_id" with
    | .error e => .error e
    | .ok slave1 =>
      .ok (.relay
        { slave1Id := slave1.val
          functionCode := UInt8.ofNat o.functionCode.toNat
          maxRetries := o.maxRetries.toNat
          autoPayload := if o.autoIntervalMs > 0 then some o.autoPayload else none
          slave1Id_isForwardable := slave1.property })
  else
    match checkedDefault o.defaultDst with
    | .error e => .error e
    | .ok defaultDst =>
      match parseRouteMap o.routeMap with
      | .error e => .error e
      | .ok routes => .ok (.responder { routes := routes, defaultDst := defaultDst })

/-- **A configured responder answers with legal stations only**, or asks for no forwarding. -/
theorem configure_responder {o : Options} {r : ResponderParams}
    (h : configure o = .ok (.responder r)) (payload : List UInt8) :
    routeLookup r.routes payload r.defaultDst = kNoForward ∨
      isForwardable (routeLookup r.routes payload r.defaultDst) := by
  have hr : (∀ route ∈ r.routes, isForwardable route.station) ∧
      (r.defaultDst = kNoForward ∨ isForwardable r.defaultDst) := by
    unfold configure badParameter at h
    split_ifs at h with hrole htimeout hretries hcode hrelay hauto
    · -- In the relay role, with an auto timer or without, nothing else than a relay is returned.
      split at h <;> cases h
    · split at h <;> cases h
    · split at h
      · cases h
      · next dst hdst =>
        split at h
        · cases h
        · next routes hroutes =>
          injection h with h
          injection h with h
          subst h
          exact ⟨parseRouteMap_isForwardable hroutes, checkedDefault_legal hdst⟩
  exact routeLookup_legal payload hr.1 hr.2

/-- The declared defaults pass their own checks. -/
theorem configure_default : ∃ p, configure {} = .ok (.relay p) := by
  refine ⟨⟨1, 0x10, 2, none, by decide⟩, ?_⟩
  rfl

end Ds10Relay

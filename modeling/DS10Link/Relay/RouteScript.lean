import DS10Link.Stream.Coding
import DS10Link.Relay.Responder
import DS10Link.Relay.RouteMap

/-!
# The route map of the script

The script `ds10_relay_responder.py` reads its table from a text, the node from the bytes of it. The
script cuts off more kinds of white space, and `int` takes more for a number than `stoi`: digits of
other alphabets, and underscores between digits.

## Main definitions

* `encode`: a text as it is sent
* `RelayResponder.toInt`: `int` of a text
* `RelayResponder.parseRoute`: the script's parser
* `RelayResponder.mainParams`: what the script makes of its arguments

## Main results

* `showsThrough_encode`: ASCII characters show through
* `toInt_eq_some_iff`, `intText_encode_iff`: where a text has no digits but those of ASCII, no
  underscores and no white space but blanks, `int` and `stoi` read the same numbers
-/

open Coding

namespace Ds10Relay

open Transaction

/-- A text as it is sent: its letters in UTF-8. -/
def encode (text : List Char) : List UInt8 := text.flatMap String.utf8EncodeChar

namespace RelayResponder

/-! ## Strings of the script -/

/-- White space, as `strip` cuts it off. -/
def isWhitespace (c : Char) : Bool :=
  let n := c.toNat
  (0x09 ≤ n && n ≤ 0x0D) || (0x1C ≤ n && n ≤ 0x20) || n == 0x85 || n == 0xA0 || n == 0x1680 ||
    (0x2000 ≤ n && n ≤ 0x200A) || n == 0x2028 || n == 0x2029 || n == 0x202F || n == 0x205F ||
    n == 0x3000

/-- White space around a number: `int` does not know the separators among the control characters. -/
def isNumberSpace (c : Char) : Bool := isWhitespace c && !(0x1C ≤ c.toNat && c.toNat ≤ 0x1F)

def strip (text : List Char) : List Char := (text.dropWhile isWhitespace).rdropWhile isWhitespace

/-- `rpartition`: what stands before and behind the last occurrence of a letter. -/
def rpartition (text : List Char) (c : Char) : Option (List Char × List Char) :=
  if c ∈ text then some ((text.rdropWhile (· ≠ c)).dropLast, text.rtakeWhile (· ≠ c)) else none

/-- The digits that `int` converts at most. -/
def maxStrDigits : ℕ := 4300

/-- The value of a string of decimal digits of any script. -/
def decimalValue (decimal : Char → Option ℕ) (digits : List Char) : ℕ :=
  digits.foldl (fun v c => 10 * v + (decimal c).getD 0) 0

/-- `int` of a text, where `decimal` tells which characters are digits. -/
def toInt (decimal : Char → Option ℕ) (text : List Char) : Option ℤ :=
  let body := (text.dropWhile isNumberSpace).rdropWhile isNumberSpace
  let signed := body.head? = some '-' ∨ body.head? = some '+'
  let groups := (if signed then body.tail else body).splitOn '_'
  if groups.all (fun g => !g.isEmpty && g.all fun c => (decimal c).isSome) ∧
      groups.flatten.length ≤ maxStrDigits then
    let value := decimalValue decimal groups.flatten
    some (if body.head? = some '-' then -value else value)
  else none

/-! ## The parser of the script -/

/-- What the script refuses, with what its message quotes. -/
inductive RouteError where
  | malformed (entry : List Char)
  | notInteger (stationText entry : List Char)
  | outOfRange (station : ℤ) (entry : List Char)
  | badDefault (defaultDst : ℤ)
  deriving DecidableEq, Repr

/-- An entry of the table, already stripped. -/
def parseEntry (decimal : Char → Option ℕ) (entry : List Char) : Except RouteError Route :=
  match rpartition entry ':' with
  | none => .error (.malformed entry)
  | some (keyword, stationText) =>
    if keyword = [] ∨ stationText = [] then .error (.malformed entry)
    else
      match toInt decimal stationText with
      | none => .error (.notInteger stationText entry)
      | some station =>
        if kMinStation.toNat ≤ station ∧ station ≤ kMaxStation.toNat then
          .ok ⟨encode keyword, UInt8.ofNat station.toNat⟩
        else .error (.outOfRange station entry)

/-- The loop of `parse_route`. -/
def parseEntries (decimal : Char → Option ℕ) (routes : List Route) :
    List (List Char) → Except RouteError (List Route)
  | [] => .ok routes
  | entry :: entries =>
    let entry := strip entry
    if entry = [] then parseEntries decimal routes entries
    else
      match parseEntry decimal entry with
      | .error e => .error e
      | .ok route => parseEntries decimal (routes ++ [route]) entries

/-- `parse_route`. -/
def parseRoute (decimal : Char → Option ℕ) (spec : List Char) : Except RouteError (List Route) :=
  parseEntries decimal [] (spec.splitOn ',')

/-- What `main` makes of `--route` and `--default-dst`. -/
def mainParams (decimal : Char → Option ℕ) (route : List Char) (defaultDst : ℤ) :
    Except RouteError ResponderParams :=
  match parseRoute decimal route with
  | .error e => .error e
  | .ok routes =>
    if defaultDst ≠ kNoForward.toNat ∧
        ¬ (kMinStation.toNat ≤ defaultDst ∧ defaultDst ≤ kMaxStation.toNat) then
      .error (.badDefault defaultDst)
    else .ok { routes := routes, defaultDst := UInt8.ofNat defaultDst.toNat }

end RelayResponder

open RelayResponder

/-! ## Texts and their bytes -/

/-- The byte of an ASCII character. -/
def asciiByte (c : Char) : UInt8 := UInt8.ofNat c.toNat

variable {c : Char} {text : List Char}

theorem toNat_asciiByte (h : c.toNat < 0x80) : (asciiByte c).toNat = c.toNat := by
  rw [asciiByte, UInt8.toNat_ofNat']
  omega

theorem utf8EncodeChar_of_lt (h : c.toNat < 0x80) : String.utf8EncodeChar c = [asciiByte c] :=
  if_pos (Nat.le_of_lt_succ h)

theorem utf8EncodeChar_ne_nil (c : Char) : String.utf8EncodeChar c ≠ [] := by
  rw [String.utf8EncodeChar]
  split_ifs <;> exact List.cons_ne_nil _ _

/-- The bytes of any other character are no ASCII characters. -/
theorem le_of_mem_utf8EncodeChar (h : 0x80 ≤ c.toNat) :
    ∀ b ∈ String.utf8EncodeChar c, 0x80 ≤ b.toNat := by
  intro b hb
  have hone : ¬ c.val.toNat ≤ 0x7F := not_le.mpr h
  rw [String.utf8EncodeChar, if_neg hone] at hb
  split_ifs at hb <;> simp only [List.mem_cons, List.not_mem_nil, or_false] at hb <;>
    rcases hb with rfl | rfl | rfl | rfl <;> rw [UInt8.toNat_ofNat'] <;> omega

/-- ASCII characters show through. -/
theorem showsThrough_encode {p : Char → Bool} {q : UInt8 → Bool}
    (hq : ∀ b, q b = true → b.toNat < 0x80)
    (h : ∀ c ∈ text, p c = true ↔ c.toNat < 0x80 ∧ q (asciiByte c) = true) :
    ShowsThrough String.utf8EncodeChar p q text := by
  intro c hc
  by_cases hascii : c.toNat < 0x80
  · rw [utf8EncodeChar_of_lt hascii]
    cases hp : p c with
    | true => exact .inl ⟨rfl, asciiByte c, rfl, ((h c hc).mp hp).2⟩
    | false =>
      refine .inr ⟨rfl, List.cons_ne_nil _ _, ?_⟩
      intro b hb
      rw [List.mem_singleton.mp hb, ← Bool.not_eq_true]
      intro hmarked
      rw [(h c hc).mpr ⟨hascii, hmarked⟩] at hp
      cases hp
  · refine .inr ⟨?_, utf8EncodeChar_ne_nil c, ?_⟩
    · rw [← Bool.not_eq_true]
      exact fun hp => hascii ((h c hc).mp hp).1
    · intro b hb
      rw [← Bool.not_eq_true]
      exact fun hmarked => absurd (hq b hmarked)
        (not_lt.mpr (le_of_mem_utf8EncodeChar (not_lt.mp hascii) b hb))

theorem encode_append (front back : List Char) :
    encode (front ++ back) = encode front ++ encode back :=
  List.flatMap_append

theorem encode_eq_map (h : ∀ c ∈ text, c.toNat < 0x80) : encode text = text.map asciiByte := by
  induction text with
  | nil => rfl
  | cons c text ih =>
    rw [encode, List.flatMap_cons, utf8EncodeChar_of_lt (h c List.mem_cons_self), List.map_cons]
    exact congrArg (asciiByte c :: ·) (ih fun d hd => h d (List.mem_cons_of_mem c hd))

theorem ascii_of_encode (h : ∀ b ∈ encode text, b.toNat < 0x80) : ∀ c ∈ text, c.toNat < 0x80 := by
  have hshows : ShowsThrough String.utf8EncodeChar (fun c => decide (c.toNat < 0x80))
      (fun b => decide (b.toNat < 0x80)) text := by
    refine showsThrough_encode (fun b hb => of_decide_eq_true hb) ?_
    intro c _
    rw [decide_eq_true_eq, decide_eq_true_eq]
    exact ⟨fun hc => ⟨hc, by rwa [toNat_asciiByte hc]⟩, And.left⟩
  intro c hc
  exact of_decide_eq_true (hshows.forall_iff.mp (fun b hb => decide_eq_true (h b hb)) c hc)

theorem encode_eq_nil_iff : encode text = [] ↔ text = [] := by
  rw [encode, List.flatMap_eq_nil_iff]
  constructor
  · intro h
    cases text with
    | nil => rfl
    | cons c text => exact absurd (h c List.mem_cons_self) (utf8EncodeChar_ne_nil c)
  · rintro rfl
    exact nofun

/-- An ASCII character and its byte. -/
theorem asciiByte_eq_iff {b : UInt8} {d : Char} (hd : d.toNat < 0x80) (hb : asciiByte d = b) :
    c = d ↔ c.toNat < 0x80 ∧ asciiByte c = b := by
  constructor
  · rintro rfl
    exact ⟨hd, hb⟩
  · rintro ⟨hc, rfl⟩
    have h := congrArg UInt8.toNat hb
    rw [toNat_asciiByte hd, toNat_asciiByte hc] at h
    exact (Char.toNat_inj.mp h).symm

/-- An ASCII character shows through. -/
theorem showsThrough_char {b : UInt8} {d : Char} (hd : d.toNat < 0x80) (hb : asciiByte d = b) :
    ShowsThrough String.utf8EncodeChar (· == d) (· == b) text := by
  refine showsThrough_encode ?_ ?_
  · intro b' hb'
    rw [beq_iff_eq] at hb'
    rw [hb', ← hb, toNat_asciiByte hd]
    exact hd
  · intro c _
    rw [beq_iff_eq, beq_iff_eq]
    exact asciiByte_eq_iff hd hb

/-! ## Numbers -/

variable {decimal : Char → Option ℕ}

/-- The digits of ASCII are digits, and no other ASCII character is one. -/
def AsciiDigits (decimal : Char → Option ℕ) : Prop :=
  ∀ c : Char, c.toNat < 0x80 →
    decimal c = if 0x30 ≤ c.toNat ∧ c.toNat ≤ 0x39 then some (c.toNat - 0x30) else none

/-- A number as `int` reads it, of characters: white space, a sign, digits. -/
def IntChars (decimal : Char → Option ℕ) (text : List Char) (value : ℤ) : Prop :=
  ∃ spaces sign digits, text = spaces ++ sign ++ digits ∧
    (∀ c ∈ spaces, isNumberSpace c = true) ∧ (sign = [] ∨ sign = ['+'] ∨ sign = ['-']) ∧
    digits ≠ [] ∧ (∀ c ∈ digits, (decimal c).isSome = true) ∧
    value = if sign = ['-'] then -(decimalValue decimal digits : ℤ) else decimalValue decimal digits

/-- A digit of ASCII. -/
theorem isSome_decimal_iff (hdecimal : AsciiDigits decimal) (hc : c.toNat < 0x80) :
    (decimal c).isSome = true ↔ 0x30 ≤ c.toNat ∧ c.toNat ≤ 0x39 := by
  rw [hdecimal c hc]
  split_ifs with h
  · exact ⟨fun _ => h, fun _ => rfl⟩
  · exact ⟨nofun, fun hdigit => absurd hdigit h⟩

theorem isWhitespace_of_isNumberSpace (h : isNumberSpace c = true) : isWhitespace c = true := by
  rw [isNumberSpace, Bool.and_eq_true] at h
  exact h.1

/-- A digit of ASCII is neither white space nor a sign. -/
theorem isNumberSpace_digit (h : 0x30 ≤ c.toNat ∧ c.toNat ≤ 0x39) : isNumberSpace c = false := by
  obtain ⟨hmin, hmax⟩ := h
  rw [isNumberSpace, isWhitespace]
  simp only [Bool.and_eq_false_iff, Bool.or_eq_false_iff, beq_eq_false_iff_ne,
    decide_eq_false_iff_not]
  refine .inl ?_
  omega

theorem ne_sign_of_digit {d : Char} (h : 0x30 ≤ c.toNat ∧ c.toNat ≤ 0x39) (hd : d.toNat < 0x30) :
    c ≠ d := by
  rintro rfl
  omega

/-- The sign that `int` skips is a plus or a minus in front. -/
theorem exists_signChar (body : List Char) : ∃ sign digits, body = sign ++ digits ∧
    (sign = [] ∨ sign = ['+'] ∨ sign = ['-']) ∧
    digits = (if body.head? = some '-' ∨ body.head? = some '+' then body.tail else body) ∧
    (body.head? = some '-' ↔ sign = ['-']) := by
  rcases body with _ | ⟨c, body⟩
  · exact ⟨[], [], rfl, .inl rfl, rfl, by simp⟩
  · by_cases hminus : c = '-'
    · exact ⟨['-'], body, by simp [hminus]⟩
    · by_cases hplus : c = '+'
      · exact ⟨['+'], body, by simp [hplus]⟩
      · exact ⟨[], c :: body, by simp [hminus, hplus]⟩

/-- One group of digits, with nothing between them. -/
theorem all_singleton_iff {digits : List Char} :
    [digits].all (fun g => !g.isEmpty && g.all fun c => (decimal c).isSome) = true ↔
      digits ≠ [] ∧ ∀ c ∈ digits, (decimal c).isSome = true := by
  rw [List.all_cons, List.all_nil, Bool.and_true, Bool.and_eq_true, List.all_eq_true,
    Bool.not_eq_true', List.isEmpty_eq_false_iff]

/-- **`int` reads the numbers**, in a text without underscores that does not end in white space. -/
theorem toInt_eq_some_iff {value : ℤ} (hdecimal : AsciiDigits decimal)
    (hascii : ∀ c ∈ text, (decimal c).isSome = true → c.toNat < 0x80)
    (hlast : ∀ c ∈ text.getLast?, isWhitespace c = false) (hunderscore : '_' ∉ text)
    (hlen : text.length ≤ maxStrDigits) :
    toInt decimal text = some value ↔ IntChars decimal text value := by
  have hbody : (text.dropWhile isNumberSpace).rdropWhile isNumberSpace =
      text.dropWhile isNumberSpace := by
    rw [List.rdropWhile_eq_self_iff]
    intro hne hspace
    have hend : text.getLast? = some ((text.dropWhile isNumberSpace).getLast hne) := by
      conv_lhs => rw [← List.takeWhile_append_dropWhile (p := isNumberSpace) (l := text)]
      rw [List.getLast?_append_of_ne_nil _ hne, List.getLast?_eq_some_getLast hne]
    have hwhite := hlast _ (by rw [hend]; rfl)
    rw [isWhitespace_of_isNumberSpace hspace] at hwhite
    cases hwhite
  rw [toInt]
  dsimp only
  rw [hbody]
  constructor
  · intro h
    obtain ⟨sign, digits, hsplit, hsign, hdigits, hminus⟩ :=
      exists_signChar (text.dropWhile isNumberSpace)
    have htext : text = text.takeWhile isNumberSpace ++ sign ++ digits := by
      rw [List.append_assoc, ← hsplit, List.takeWhile_append_dropWhile]
    have hmem : '_' ∉ digits := by
      intro h'
      rw [htext] at hunderscore
      exact hunderscore (List.mem_append_right _ h')
    rw [← hdigits, List.splitOn_eq_singleton hmem] at h
    simp only [hminus, all_singleton_iff, List.flatten_singleton] at h
    by_cases hnumber : (digits ≠ [] ∧ ∀ c ∈ digits, (decimal c).isSome = true) ∧
        digits.length ≤ maxStrDigits
    · rw [if_pos hnumber, Option.some_inj] at h
      exact ⟨_, sign, digits, htext, fun c hc => List.mem_takeWhile_imp hc, hsign, hnumber.1.1,
        hnumber.1.2, h.symm⟩
    · rw [if_neg hnumber] at h
      cases h
  · rintro ⟨spaces, sign, digits, rfl, hspaces, hsign, hnil, hdigits, rfl⟩
    obtain ⟨d, ds, rfl⟩ := List.exists_cons_of_ne_nil hnil
    have hmem : d ∈ spaces ++ sign ++ d :: ds := List.mem_append_right _ List.mem_cons_self
    have hd := (isSome_decimal_iff hdecimal (hascii d hmem (hdigits d List.mem_cons_self))).mp
      (hdigits d List.mem_cons_self)
    have hdrop : (spaces ++ sign ++ d :: ds).dropWhile isNumberSpace = sign ++ d :: ds := by
      rw [List.append_assoc, List.dropWhile_append_of_pos hspaces]
      rcases hsign with rfl | rfl | rfl
      · exact List.dropWhile_cons_of_neg (by rw [isNumberSpace_digit hd]; exact Bool.false_ne_true)
      · rfl
      · rfl
    have hplus : d ≠ '+' := ne_sign_of_digit hd (by decide)
    have hminus : d ≠ '-' := ne_sign_of_digit hd (by decide)
    have hfits : (d :: ds).length ≤ maxStrDigits := by
      refine le_trans ?_ hlen
      rw [List.length_append]
      exact Nat.le_add_left _ _
    have hsplit : (d :: ds).splitOn '_' = [d :: ds] :=
      List.splitOn_eq_singleton fun h => hunderscore (List.mem_append_right _ h)
    have hnumber : [d :: ds].all (fun g => !g.isEmpty && g.all fun c => (decimal c).isSome) ∧
        [d :: ds].flatten.length ≤ maxStrDigits := by
      rw [List.flatten_singleton]
      exact ⟨all_singleton_iff.mpr ⟨List.cons_ne_nil d ds, hdigits⟩, hfits⟩
    -- The sign, if there is one, is the first character.
    have hunsigned :
        (if (sign ++ d :: ds).head? = some '-' ∨ (sign ++ d :: ds).head? = some '+' then
          (sign ++ d :: ds).tail else sign ++ d :: ds) = d :: ds := by
      rcases hsign with rfl | rfl | rfl
      · exact if_neg (by simp [hplus, hminus])
      · exact if_pos (.inr rfl)
      · exact if_pos (.inl rfl)
    have hnegative : (sign ++ d :: ds).head? = some '-' ↔ sign = ['-'] := by
      rcases hsign with rfl | rfl | rfl <;> simp [hminus]
    rw [hdrop, hunsigned, hsplit, if_pos hnumber, List.flatten_singleton]
    simp only [hnegative]

theorem isSpace_asciiByte (hc : c.toNat < 0x80) : isSpace (asciiByte c) = isNumberSpace c := by
  have hbyte := toNat_asciiByte hc
  rw [Bool.eq_iff_iff, isSpace, isNumberSpace, isWhitespace]
  simp only [Bool.or_eq_true, Bool.and_eq_true, beq_iff_eq, decide_eq_true_eq, Bool.not_eq_true',
    Bool.and_eq_false_iff, decide_eq_false_iff_not, UInt8.le_iff_toNat_le, ← UInt8.toNat_inj,
    UInt8.reduceToNat, hbyte]
  omega

theorem isDigit_asciiByte (hc : c.toNat < 0x80) :
    isDigit (asciiByte c) = true ↔ 0x30 ≤ c.toNat ∧ c.toNat ≤ 0x39 := by
  rw [isDigit, Bool.and_eq_true, decide_eq_true_eq, decide_eq_true_eq, UInt8.le_iff_toNat_le,
    UInt8.le_iff_toNat_le, toNat_asciiByte hc]
  rfl

theorem toNat_lt_of_isSpace {b : UInt8} (h : isSpace b = true) : b.toNat < 0x80 := by
  simp only [isSpace, Bool.or_eq_true, Bool.and_eq_true, beq_iff_eq, decide_eq_true_eq,
    UInt8.le_iff_toNat_le, ← UInt8.toNat_inj, UInt8.reduceToNat] at h
  omega

theorem toNat_lt_of_isDigit {b : UInt8} (h : isDigit b = true) : b.toNat < 0x80 := by
  simp only [isDigit, Bool.and_eq_true, decide_eq_true_eq, UInt8.le_iff_toNat_le,
    UInt8.reduceToNat] at h
  omega

theorem digitsValue_map_asciiByte {digits : List Char} (hdecimal : AsciiDigits decimal)
    (hascii : ∀ c ∈ digits, c.toNat < 0x80)
    (hdigits : ∀ c ∈ digits, (decimal c).isSome = true) :
    digitsValue (digits.map asciiByte) = decimalValue decimal digits := by
  rw [digitsValue, decimalValue, List.foldl_map]
  refine List.foldl_ext _ _ 0 ?_
  intro v c hc
  have hdigit := (isSome_decimal_iff hdecimal (hascii c hc)).mp (hdigits c hc)
  rw [hdecimal c (hascii c hc), if_pos hdigit, toNat_asciiByte (hascii c hc), Option.getD_some]

/-- The bytes of a sign are those of a sign. -/
theorem map_asciiByte_sign {sign : List Char} (hascii : ∀ c ∈ sign, c.toNat < 0x80) :
    (sign.map asciiByte = [0x2B] ↔ sign = ['+']) ∧
      (sign.map asciiByte = [0x2D] ↔ sign = ['-']) := by
  have hone : ∀ (d : Char) (b : UInt8), d.toNat < 0x80 → asciiByte d = b →
      (sign.map asciiByte = [b] ↔ sign = [d]) := by
    intro d b hd hb
    rw [List.map_eq_singleton_iff]
    constructor
    · rintro ⟨c, rfl, hc⟩
      rw [(asciiByte_eq_iff hd hb).mpr ⟨hascii c (List.mem_singleton_self c), hc⟩]
    · rintro rfl
      exact ⟨d, rfl, hb⟩
  exact ⟨hone '+' 0x2B (by decide) rfl, hone '-' 0x2D (by decide) rfl⟩

/-- **`stoi` reads the same numbers** in a plain text, if they fit an `int`. -/
theorem intText_encode_iff {value : ℤ} (hdecimal : AsciiDigits decimal)
    (hblank : ∀ c ∈ text, isWhitespace c = true → c = ' ' ∨ c = '\t')
    (hascii : ∀ c ∈ text, (decimal c).isSome = true → c.toNat < 0x80) :
    IntText (encode text) value ↔
      IntChars decimal text value ∧ -2147483648 ≤ value ∧ value ≤ 2147483647 := by
  constructor
  · rintro ⟨spaces, sign, digits, htext, hspaces, hsign, hnil, hdigits, hvalue, hmin, hmax⟩
    -- All bytes are those of ASCII characters, so the text can be cut where its bytes are.
    have hbytes : ∀ b ∈ encode text, b.toNat < 0x80 := by
      intro b hb
      rw [htext, List.append_assoc] at hb
      rcases List.mem_append.mp hb with hb | hb
      · exact toNat_lt_of_isSpace (hspaces b hb)
      · rcases List.mem_append.mp hb with hb | hb
        · rcases hsign with rfl | rfl | rfl
          · cases hb
          · rw [List.mem_singleton.mp hb]
            decide
          · rw [List.mem_singleton.mp hb]
            decide
        · exact toNat_lt_of_isDigit (hdigits b hb)
    have hchars := ascii_of_encode hbytes
    rw [encode_eq_map hchars] at htext
    obtain ⟨front, digitChars, rfl, hfront, rfl⟩ := List.map_eq_append_iff.mp htext
    obtain ⟨spaceChars, signChars, rfl, rfl, rfl⟩ := List.map_eq_append_iff.mp hfront
    have hspaceAscii : ∀ c ∈ spaceChars, c.toNat < 0x80 := fun c hc =>
      hchars c (List.mem_append_left _ (List.mem_append_left _ hc))
    have hsignAscii : ∀ c ∈ signChars, c.toNat < 0x80 := fun c hc =>
      hchars c (List.mem_append_left _ (List.mem_append_right _ hc))
    have hdigitAscii : ∀ c ∈ digitChars, c.toNat < 0x80 := fun c hc =>
      hchars c (List.mem_append_right _ hc)
    obtain ⟨hplus, hminus⟩ := map_asciiByte_sign hsignAscii
    have hdecimals : ∀ c ∈ digitChars, (decimal c).isSome = true := fun c hc =>
      (isSome_decimal_iff hdecimal (hdigitAscii c hc)).mpr
        ((isDigit_asciiByte (hdigitAscii c hc)).mp (hdigits _ (List.mem_map_of_mem hc)))
    refine ⟨⟨spaceChars, signChars, digitChars, rfl, ?_, ?_, ?_, hdecimals, ?_⟩, hmin, hmax⟩
    · intro c hc
      rw [← isSpace_asciiByte (hspaceAscii c hc)]
      exact hspaces _ (List.mem_map_of_mem hc)
    · rw [List.map_eq_nil_iff, hplus, hminus] at hsign
      exact hsign
    · rwa [ne_eq, List.map_eq_nil_iff] at hnil
    · rw [hvalue, digitsValue_map_asciiByte hdecimal hdigitAscii hdecimals]
      simp only [hminus]
  · rintro ⟨⟨spaces, sign, digits, rfl, hspaces, hsign, hnil, hdigits, hvalue⟩, hmin, hmax⟩
    have hspaceAscii : ∀ c ∈ spaces, c.toNat < 0x80 := by
      intro c hc
      rcases hblank c (List.mem_append_left _ (List.mem_append_left _ hc))
        (isWhitespace_of_isNumberSpace (hspaces c hc)) with rfl | rfl <;> decide
    have hsignAscii : ∀ c ∈ sign, c.toNat < 0x80 := by
      intro c hc
      rcases hsign with rfl | rfl | rfl
      · cases hc
      · rw [List.mem_singleton.mp hc]
        decide
      · rw [List.mem_singleton.mp hc]
        decide
    have hdigitAscii : ∀ c ∈ digits, c.toNat < 0x80 := fun c hc =>
      hascii c (List.mem_append_right _ hc) (hdigits c hc)
    obtain ⟨hplus, hminus⟩ := map_asciiByte_sign hsignAscii
    refine ⟨spaces.map asciiByte, sign.map asciiByte, digits.map asciiByte, ?_, ?_, ?_, ?_, ?_, ?_,
      hmin, hmax⟩
    · rw [encode_append, encode_append, encode_eq_map hspaceAscii, encode_eq_map hsignAscii,
        encode_eq_map hdigitAscii]
    · intro b hb
      obtain ⟨c, hc, rfl⟩ := List.mem_map.mp hb
      rw [isSpace_asciiByte (hspaceAscii c hc)]
      exact hspaces c hc
    · rw [List.map_eq_nil_iff, hplus, hminus]
      exact hsign
    · rwa [ne_eq, List.map_eq_nil_iff]
    · intro b hb
      obtain ⟨c, hc, rfl⟩ := List.mem_map.mp hb
      exact (isDigit_asciiByte (hdigitAscii c hc)).mpr
        ((isSome_decimal_iff hdecimal (hdigitAscii c hc)).mp (hdigits c hc))
    · rw [hvalue, digitsValue_map_asciiByte hdecimal hdigitAscii hdigits]
      simp only [hminus]

end Ds10Relay

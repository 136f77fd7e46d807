import StackProfile.Binary64
import StackProfile.Json.Value
import StackProfile.Utf8

/-!
# Reading JSON

A text is read as far as it goes. What comes out is a draft: the value, with the place
where the text breaks off, if it does. A reader of a draft takes values in the order of
the text and reports the first thing that is wrong for it, so a wrong type before the
place where the text breaks off is found first. Strings and numbers that cannot be
represented only matter to a reader that wants them, not where they are skipped.
-/

namespace StackProfile.Json

/-- What is wrong with a text: it ends too early, it is no JSON, or its values are not
those that are asked for. -/
inductive Fault where
  | eof
  | malformed
  | mismatch
  deriving DecidableEq, Repr

def Fault.name : Fault → String
  | eof => "eof"
  | malformed => "syntax"
  | mismatch => "data"

/-- A place where a text breaks off, as a fault for a reader that wants the value there,
one that skips it, and one that wants a name. -/
structure Cut where
  wanted : Fault
  skipped : Fault
  named : Fault
  deriving DecidableEq, Repr

/-- A cut that is the same fault for everyone. -/
def Cut.of (f : Fault) : Cut := ⟨f, f, f⟩

/-- A value as far as its text goes. `flawed` is a whole string or number that cannot be
represented. -/
inductive Draft where
  | null
  | bool (b : Bool)
  | int (n : Int)
  | float (x : Float)
  | str (s : String)
  | flawed
  | arr (items : List Draft) (cut : Option Cut)
  | obj (members : List (Option String × Draft)) (cut : Option Cut)
  | broken (cut : Cut)

/-- A character of a text, `none` where bytes encode no character. -/
abbrev Glyph := Option Char

/-- The characters that bytes encode. -/
def glyphs (bytes : ByteArray) : List Glyph :=
  match String.fromUTF8? bytes with
  | some s => s.toList.map some
  | none => (Utf8.pieces bytes).map fun p => match p with
    | .char c => some c
    | _ => none

def isBlank (g : Glyph) : Bool :=
  g == some ' ' || g == some '\n' || g == some '\t' || g == some '\r'

/-- A part of a text with the rest after it, which is `none` if the text breaks off. -/
structure Found (τ : Type) where
  value : τ
  rest : Option (List Glyph)

/-! ## Strings -/

/-- A string under construction: its characters in reverse, the high surrogate that was
escaped last, whether a surrogate was found alone, and whether some bytes are no text. -/
structure StringSoFar where
  reversed : List Char := []
  high : Option Nat := none
  lone : Bool := false
  undecodable : Bool := false

namespace StringSoFar

def push (s : StringSoFar) (c : Char) : StringSoFar :=
  { s with reversed := c :: s.reversed, high := none, lone := s.lone || s.high.isSome }

/-- The string with one more escaped unit of 16 bits. -/
def pushUnit (s : StringSoFar) (unit : Nat) : StringSoFar :=
  if 0xDC00 ≤ unit ∧ unit < 0xE000 then
    match s.high with
    | some high =>
      { s with
        reversed := Char.ofNat (0x10000 + (high - 0xD800) * 0x400 + (unit - 0xDC00)) :: s.reversed
        high := none }
    | none => { s with lone := true }
  else if 0xD800 ≤ unit ∧ unit < 0xDC00 then
    { s with high := some unit, lone := s.lone || s.high.isSome }
  else s.push (Char.ofNat unit)

/-- The finished string. -/
def finish (s : StringSoFar) : Draft :=
  if s.lone || s.high.isSome || s.undecodable then .flawed
  else .str (String.ofList s.reversed.reverse)

/-- A cut in the string. A surrogate that stands alone was noticed before it. -/
def cut (s : StringSoFar) (f : Fault) : Draft :=
  let wanted := if s.lone then .malformed else f
  .broken ⟨wanted, f, wanted⟩

end StringSoFar

def escapedChar? : Char → Option Char
  | '"' => some '"'
  | '\\' => some '\\'
  | '/' => some '/'
  | 'b' => some (Char.ofNat 8)
  | 'f' => some (Char.ofNat 12)
  | 'n' => some '\n'
  | 'r' => some '\r'
  | 't' => some '\t'
  | _ => none

def hexDigit? : Glyph → Option Nat
  | none => none
  | some c =>
    if '0' ≤ c ∧ c ≤ '9' then some (c.toNat - 48)
    else if 'a' ≤ c ∧ c ≤ 'f' then some (c.toNat - 87)
    else if 'A' ≤ c ∧ c ≤ 'F' then some (c.toNat - 55)
    else none

/-- The unit that four hexadecimal digits stand for. -/
def hexUnit? (a b c d : Glyph) : Option Nat := do
  return (((← hexDigit? a) * 16 + (← hexDigit? b)) * 16 + (← hexDigit? c)) * 16 + (← hexDigit? d)

/-- Whether the text ends within four bytes. -/
def endsWithinFour (gs : List Glyph) : Bool :=
  let bytes := (gs.take 4).foldl (fun n g => match g with
    | some c => n + c.utf8Size
    | none => n + 1) 0
  bytes < 4

/-- The rest of a string, its opening quote and `s` having been read. -/
def readString (s : StringSoFar) : List Glyph → Found Draft
  | [] => ⟨s.cut .eof, none⟩
  | some '"' :: rest => ⟨s.finish, some rest⟩
  | some '\\' :: some 'u' :: a :: b :: c :: d :: rest =>
    match hexUnit? a b c d with
    | some unit => readString (s.pushUnit unit) rest
    | none => ⟨s.cut .malformed, none⟩
  | some '\\' :: some 'u' :: rest =>
    ⟨s.cut (if endsWithinFour rest then .eof else .malformed), none⟩
  | some '\\' :: some e :: rest =>
    match escapedChar? e with
    | some c => readString (s.push c) rest
    | none => ⟨s.cut .malformed, none⟩
  | some '\\' :: none :: _ => ⟨s.cut .malformed, none⟩
  | some '\\' :: [] => ⟨s.cut .eof, none⟩
  | some c :: rest =>
    if c.toNat < 32 then ⟨s.cut .malformed, none⟩
    else readString (s.push c) rest
  | none :: rest =>
    readString { s with undecodable := true, lone := s.lone || s.high.isSome, high := none } rest

/-! ## Numbers -/

/-- The digits at the start of a text as numbers, and the rest. -/
def spanDigits : List Glyph → List Nat × List Glyph
  | some c :: rest =>
    if '0' ≤ c ∧ c ≤ '9' then
      let (ds, after) := spanDigits rest
      ((c.toNat - 48) :: ds, after)
    else ([], some c :: rest)
  | gs => ([], gs)

/-- The greatest significand that digits are added to. -/
def significandLimit : Nat := Nat.pow 2 64 - 1

/-- A significand with a power of ten, and whether a digit did not fit any more. -/
structure Scaled where
  significand : Nat
  exponent : Int
  full : Bool := false

/-- One more digit before the point. Once one does not fit, all are zeros. -/
def Scaled.addWhole (s : Scaled) (d : Nat) : Scaled :=
  if s.full || significandLimit < 10 * s.significand + d then
    { s with exponent := s.exponent + 1, full := true }
  else { s with significand := 10 * s.significand + d }

/-- One more digit after the point. Once one does not fit, all are dropped. -/
def Scaled.addPlace (s : Scaled) (d : Nat) : Scaled :=
  if s.full || significandLimit < 10 * s.significand + d then { s with full := true }
  else { s with significand := 10 * s.significand + d, exponent := s.exponent - 1 }

/-- A power of ten as a `Float`. -/
def powerOfTen (n : Nat) : Float := Binary64.ofRatio ⟨false, Nat.pow 10 n, 1⟩

/-- A number times a power of ten, `none` past the greatest number. Powers below the least
are taken in steps, three of which lead to 0. -/
def scaleBy : Nat → Float → Int → Option Float
  | 0, _, _ => some 0.0
  | steps + 1, x, e =>
    if e.natAbs ≤ 308 then
      if 0 ≤ e then
        let y := x * powerOfTen e.toNat
        if y.isInf then none else some y
      else some (x / powerOfTen e.natAbs)
    else if x == 0.0 then some x
    else if 0 ≤ e then none
    else scaleBy steps (x / powerOfTen 308) (e + 308)

/-- The greatest exponent that is told apart from larger ones. -/
def exponentLimit : Nat := Nat.pow 2 31 - 1

/-- A number by its sign, the digits of its parts, and the sign of its exponent. Without a
point and an exponent it is an integer, unless it is `-0` or does not fit. -/
def numberOf (negative : Bool) (whole : List Nat) (places : Option (List Nat))
    (power : Option (Bool × List Nat)) : Draft :=
  let signed (x : Float) : Draft := .float (if negative then -x else x)
  let w := whole.foldl Scaled.addWhole ⟨0, 0, false⟩
  if places.isNone && power.isNone && !w.full then
    if !negative then .int w.significand
    else if w.significand = 0 || Nat.pow 2 63 < w.significand then
      signed (Binary64.ofInt w.significand)
    else .int (-w.significand)
  else
    let s := (places.getD []).foldl Scaled.addPlace { w with full := false }
    let (down, digits) := power.getD (false, [])
    let size := digits.foldl (fun n d => 10 * n + d) 0
    if exponentLimit < size then
      if s.significand ≠ 0 && !down then .flawed else signed 0.0
    else
      let exponent := if down then s.exponent - size else s.exponent + size
      match scaleBy 4 (Binary64.ofInt s.significand) exponent with
      | some x => signed x
      | none => .flawed

/-- A number that breaks off. At the end of the text a reader that skips it takes it for
malformed, and one that wants a name does not read it. -/
def numberCut (rest : List Glyph) : Found Draft :=
  ⟨.broken ⟨if rest.isEmpty then .eof else .malformed, .malformed, .malformed⟩, none⟩

/-- The exponent at the start of a text. `none` if there is none, or the text where it
breaks off. -/
def readPower : List Glyph → Except (List Glyph) (Option (Bool × List Nat) × List Glyph)
  | some c :: rest =>
    if c == 'e' || c == 'E' then
      let (down, rest) := match rest with
        | some '+' :: rest => (false, rest)
        | some '-' :: rest => (true, rest)
        | rest => (false, rest)
      match spanDigits rest with
      | ([], rest) => .error rest
      | (ds, rest) => .ok (some (down, ds), rest)
    else .ok (none, some c :: rest)
  | gs => .ok (none, gs)

/-- A number whose sign was read. -/
def readNumber (negative : Bool) (gs : List Glyph) : Found Draft :=
  match spanDigits gs with
  | ([], rest) => numberCut rest
  | (0 :: _ :: _, _) => ⟨.broken (.of .malformed), none⟩
  | (whole, some '.' :: rest) =>
    match spanDigits rest with
    | ([], rest) => numberCut rest
    | (places, rest) =>
      match readPower rest with
      | .ok (power, rest) => ⟨numberOf negative whole (some places) power, some rest⟩
      | .error rest => numberCut rest
  | (whole, rest) =>
    match readPower rest with
    | .ok (power, rest) => ⟨numberOf negative whole none power, some rest⟩
    | .error rest => numberCut rest

/-! ## Values -/

/-- A literal whose first letter was read: the letters to come and what it stands for. -/
def readLiteral (value : Draft) : List Char → List Glyph → Found Draft
  | [], rest => ⟨value, some rest⟩
  | _ :: _, [] => ⟨.broken ⟨.eof, .eof, .malformed⟩, none⟩
  | c :: cs, g :: rest =>
    if g == some c then readLiteral value cs rest else ⟨.broken (.of .malformed), none⟩

/-- The items or members up to the closing bracket, and the cut between them. -/
structure Listed (τ : Type) where
  values : List τ
  cut : Option Cut
  rest : Option (List Glyph)

def Listed.stopped {τ : Type} (f : Fault) : Listed τ := ⟨[], some (.of f), none⟩

/-- One more value before the others, if the text went on after it. -/
def Listed.after {τ : Type} (v : τ) (rest : Option (List Glyph))
    (more : List Glyph → Listed τ) : Listed τ :=
  match rest with
  | none => ⟨[v], none, none⟩
  | some gs => let l := more gs; { l with values := v :: l.values }

mutual

/-- A value with the blanks before it. Every step reads a character. -/
def readValue : Nat → List Glyph → Found Draft
  | 0, _ => ⟨.broken (.of .eof), none⟩
  | fuel + 1, gs =>
    match gs.dropWhile isBlank with
    | [] => ⟨.broken (.of .eof), none⟩
    | some '"' :: rest => readString {} rest
    | some '[' :: rest =>
      let l := readItems fuel true rest
      ⟨.arr l.values l.cut, l.rest⟩
    | some '\x7b' :: rest =>
      let l := readMembers fuel true rest
      ⟨.obj l.values l.cut, l.rest⟩
    | some 'n' :: rest => readLiteral .null ['u', 'l', 'l'] rest
    | some 't' :: rest => readLiteral (.bool true) ['r', 'u', 'e'] rest
    | some 'f' :: rest => readLiteral (.bool false) ['a', 'l', 's', 'e'] rest
    | some '-' :: rest => readNumber true rest
    | some c :: rest =>
      if c.isDigit then readNumber false (some c :: rest) else ⟨.broken (.of .malformed), none⟩
    | none :: _ => ⟨.broken (.of .malformed), none⟩

/-- The items of an array, from the start or from after an item on. -/
def readItems : Nat → Bool → List Glyph → Listed Draft
  | 0, _, _ => .stopped .eof
  | fuel + 1, first, gs =>
    match gs.dropWhile isBlank with
    | [] => .stopped .eof
    | some ']' :: rest => ⟨[], none, some rest⟩
    | g :: rest =>
      if first then
        let v := readValue fuel (g :: rest)
        .after v.value v.rest (readItems fuel false)
      else if g == some ',' then
        match rest.dropWhile isBlank with
        | some ']' :: _ => .stopped .malformed
        | gs =>
          let v := readValue fuel gs
          .after v.value v.rest (readItems fuel false)
      else .stopped .malformed

/-- The members of an object, from the start or from after a member on. -/
def readMembers : Nat → Bool → List Glyph → Listed (Option String × Draft)
  | 0, _, _ => .stopped .eof
  | fuel + 1, first, gs =>
    match gs.dropWhile isBlank with
    | [] => .stopped .eof
    | some '\x7d' :: rest => ⟨[], none, some rest⟩
    | g :: rest =>
      if first then readMember fuel (g :: rest)
      else if g == some ',' then readMember fuel (rest.dropWhile isBlank)
      else .stopped .malformed

/-- A member and those after it. A key that cannot be represented is `none`. -/
def readMember : Nat → List Glyph → Listed (Option String × Draft)
  | 0, _ => .stopped .eof
  | fuel + 1, gs =>
    match gs with
    | [] => .stopped .eof
    | some '"' :: rest =>
      match readString {} rest with
      | ⟨.broken cut, _⟩ => ⟨[], some cut, none⟩
      | ⟨_, none⟩ => .stopped .eof
      | ⟨key, some rest⟩ =>
        let key := match key with
          | .str s => some s
          | _ => none
        match rest.dropWhile isBlank with
        | some ':' :: rest =>
          let v := readValue fuel rest
          .after (key, v.value) v.rest (readMembers fuel false)
        | [] => ⟨[(key, .broken (.of .eof))], none, none⟩
        | _ => ⟨[(key, .broken (.of .malformed))], none, none⟩
    | _ => .stopped .malformed

end

/-- A text that was read: its value, and whether anything but blanks comes after it. -/
structure Document where
  value : Draft
  trailing : Bool

/-- A text as a value. Three steps for each character are enough. -/
def readDocument (gs : List Glyph) : Document :=
  let v := readValue (3 * gs.length + 3) gs
  ⟨v.value, (v.rest.getD []).any fun g => !isBlank g⟩

end StackProfile.Json

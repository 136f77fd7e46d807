import StackProfile.Pattern.Folding
import StackProfile.Pattern.Property
import StackProfile.Pattern.Regex
import StackProfile.Text

/-!
# Reading patterns

Patterns have alternation, sequences, groups, greedy and lazy repetition, classes with
set operations, escapes, assertions and inline flags. Look-around and back references
do not exist. A reader either gets an expression or nothing: why a pattern is wrong is
not reported.
-/

namespace StackProfile.Pattern

/-- Flags that hold for a part of a pattern: `i m s R u x`. -/
structure Flags where
  ignoreCase : Bool := false
  multiLine : Bool := false
  dotAll : Bool := false
  carried : Bool := false
  unicode : Bool := true
  spaced : Bool := false

/-- The rest of a pattern, the flags that hold there and the group names used so far. -/
structure Cursor where
  rest : List Char
  flags : Flags := {}
  names : List (List Char) := []

/-- A step of reading. -/
abbrev Reader := StateT Cursor Option

namespace Reader

def peek : Reader (Option Char) := do return (← get).rest.head?

def peekPair : Reader (List Char) := do return (← get).rest.take 2

def flags : Reader Flags := do return (← get).flags

def setFlags (f : Flags) : Reader Unit := modify fun c => { c with flags := f }

def advance (n : Nat) : Reader Unit := modify fun c => { c with rest := c.rest.drop n }

def next : Reader Char := do
  match (← get).rest with
  | c :: cs =>
    modify fun s => { s with rest := cs }
    return c
  | [] => failure

def expect (c : Char) : Reader Unit := do
  if (← next) == c then return () else failure

/-- The characters up to the next `c`, which is dropped. -/
def upTo (c : Char) : Reader (List Char) := do
  match (← get).rest.span (· != c) with
  | (before, _ :: after) =>
    modify fun s => { s with rest := after }
    return before
  | (_, []) => failure

/-- A pattern without the blanks and comments at its start. -/
def dropBlanks (inComment : Bool) : List Char → List Char
  | [] => []
  | c :: cs =>
    if inComment then dropBlanks (c != '\n') cs
    else if Text.isSpace c then dropBlanks false cs
    else if c == '#' then dropBlanks true cs
    else c :: cs

/-- Skips blanks and comments where the flags say that they do not count. -/
def skipBlanks : Reader Unit := modify fun s =>
  if s.flags.spaced then { s with rest := dropBlanks false s.rest } else s

end Reader

open Reader

/-! ## Sets of single characters -/

/-- A set under the flags: with letters of the other case, if case does not matter. -/
def underCase (f : Flags) (s : CharSet) : CharSet :=
  if f.ignoreCase then (if f.unicode then s.folded else s.foldedAscii) else s

/-- The expression for a set. Without the Unicode flag a set must not hold single bytes
of longer characters, which only ASCII sets are sure not to. -/
def negatable (f : Flags) (negated : Bool) (s : CharSet) : Reader CharSet :=
  if negated then (if f.unicode then return s.compl else failure) else return s

def wordsOf (f : Flags) : CharSet :=
  if f.unicode then wordSet else ⟨[(48, 57), (65, 90), (95, 95), (97, 122)]⟩

def digitsOf (f : Flags) : CharSet := if f.unicode then digitSet else ⟨[(48, 57)]⟩

def spacesOf (f : Flags) : CharSet := if f.unicode then spaceSet else ⟨[(9, 13), (32, 32)]⟩

/-- The class of an escape such as `\d`, and whether the escape stands for all others. -/
def escapedClass? (f : Flags) : Char → Option (Bool × CharSet)
  | 'd' => some (false, digitsOf f)
  | 'D' => some (true, digitsOf f)
  | 's' => some (false, spacesOf f)
  | 'S' => some (true, spacesOf f)
  | 'w' => some (false, wordsOf f)
  | 'W' => some (true, wordsOf f)
  | _ => none

/-- The class with a name like `[:alpha:]`. -/
def namedClass? : String → Option CharSet
  | "alnum" => some ⟨[(48, 57), (65, 90), (97, 122)]⟩
  | "alpha" => some ⟨[(65, 90), (97, 122)]⟩
  | "ascii" => some ⟨[(0, 127)]⟩
  | "blank" => some ⟨[(9, 9), (32, 32)]⟩
  | "cntrl" => some ⟨[(0, 31), (127, 127)]⟩
  | "digit" => some ⟨[(48, 57)]⟩
  | "graph" => some ⟨[(33, 126)]⟩
  | "lower" => some ⟨[(97, 122)]⟩
  | "print" => some ⟨[(32, 126)]⟩
  | "punct" => some ⟨[(33, 47), (58, 64), (91, 96), (123, 126)]⟩
  | "space" => some ⟨[(9, 13), (32, 32)]⟩
  | "upper" => some ⟨[(65, 90)]⟩
  | "word" => some ⟨[(48, 57), (65, 90), (95, 95), (97, 122)]⟩
  | "xdigit" => some ⟨[(48, 57), (65, 70), (97, 102)]⟩
  | _ => none

/-- Whether an escaped character stands for itself: punctuation and blanks of ASCII,
except for what is reserved. -/
def isEscapable (c : Char) : Bool :=
  c.toNat < 128 && !c.isAlphanum && c != '<' && c != '>'

def hexValue? (c : Char) : Option Nat :=
  if c.isDigit then some (c.toNat - 48)
  else if 'a' ≤ c ∧ c ≤ 'f' then some (c.toNat - 87)
  else if 'A' ≤ c ∧ c ≤ 'F' then some (c.toNat - 55)
  else none

/-- The character of a code point in hexadecimal digits. -/
def codePoint? (digits : List Char) : Option Char := do
  let values ← digits.mapM hexValue?
  if values.isEmpty then none
  else
    let n := values.foldl (fun n v => 16 * n + v) 0
    if n.isValidChar then some (Char.ofNat n) else none

/-- A code point: in braces, or with a fixed number of digits. -/
def readCode (width : Nat) : Reader Char := do
  skipBlanks
  if (← peek) == some '\x7b' then
    advance 1
    let digits ← upTo '\x7d'
    let kept := if (← flags).spaced then digits.filter fun c => !Text.isSpace c else digits
    match codePoint? kept with
    | some c => return c
    | none => failure
  else
    let digits := (← get).rest.take width
    advance width
    match (if digits.length = width then codePoint? digits else none) with
    | some c => return c
    | none => failure

/-- The set of `\p` and what follows it. -/
def readProperty (negated : Bool) : Reader CharSet := do
  let f ← flags
  if !f.unicode then failure
  skipBlanks
  let named (text : List Char) : Reader CharSet :=
    match text with
    | '^' :: name =>
      match propertySet? name with
      | some s => return (if negated then s else s.compl)
      | none => failure
    | name =>
      match propertySet? name with
      | some s => return (if negated then s.compl else s)
      | none => failure
  if (← peek) == some '\x7b' then
    advance 1
    named (← upTo '\x7d')
  else named [← next]

/-- What an escape stands for, the backslash having been read. -/
inductive Escape where
  | char (c : Char)
  | set (s : CharSet)
  | look (a : Assertion)

/-- `\b` on its own, or with the kind of word boundary in braces. Braces that name no
kind are left for a repetition. -/
def readBoundary (words : CharSet) : Reader Escape := do
  let rest := (← get).rest
  let kind : Option (String × Assertion) :=
    [("\x7bstart\x7d", .wordStart words), ("\x7bend\x7d", .wordEnd words),
      ("\x7bstart-half\x7d", .notAfterWord words), ("\x7bend-half\x7d", .notBeforeWord words)].find?
      fun k => k.1.toList.isPrefixOf rest
  match kind with
  | some (text, a) =>
    advance text.length
    return .look a
  | none =>
    match rest with
    | '\x7b' :: c :: _ => if c.isAlpha || c == '-' then failure else return .look (.boundary words)
    | _ => return .look (.boundary words)

def readEscape : Reader Escape := do
  let f ← flags
  let c ← next
  match c with
  | 'x' => return .char (← readCode 2)
  | 'u' => return .char (← readCode 4)
  | 'U' => return .char (← readCode 8)
  | 'p' => return .set (← readProperty false)
  | 'P' => return .set (← readProperty true)
  | 'a' => return .char (Char.ofNat 7)
  | 'f' => return .char (Char.ofNat 12)
  | 't' => return .char '\t'
  | 'n' => return .char '\n'
  | 'r' => return .char '\r'
  | 'v' => return .char (Char.ofNat 11)
  | 'A' => return .look .textStart
  | 'z' => return .look .textEnd
  | 'b' => readBoundary (wordsOf f)
  | 'B' => return .look (.notBoundary (wordsOf f))
  | '<' => return .look (.wordStart (wordsOf f))
  | '>' => return .look (.wordEnd (wordsOf f))
  | _ =>
    match escapedClass? f c with
    | some (negated, s) => return .set (← negatable f negated s)
    | none => if isEscapable c then return .char c else failure

/-! ## Bracketed classes -/

/-- How the sets on both sides of an operator make one. -/
inductive SetOp where
  | inter
  | diff
  | symmDiff

def SetOp.apply : SetOp → CharSet → CharSet → CharSet
  | inter, a, b => a.inter b
  | diff, a, b => a.diff b
  | symmDiff, a, b => a.symmDiff b

/-- The set operator written as two equal characters. -/
def setOp? : List Char → Option SetOp
  | ['&', '&'] => some .inter
  | ['-', '-'] => some .diff
  | ['~', '~'] => some .symmDiff
  | _ => none

/-- A class under construction: the operator and the set to the left of the members. -/
structure ClassSoFar where
  left : Option (SetOp × CharSet) := none
  members : CharSet := .none

/-- The class, case set aside where it does not matter, since members that differ in case
only have to be there before an operator looks. -/
def ClassSoFar.result (f : Flags) (k : ClassSoFar) : CharSet :=
  match k.left with
  | none => k.members
  | some (op, left) => op.apply (underCase f left) (underCase f k.members)

/-- A class name in brackets and colons, if there is one. -/
def readNamedClass : Reader (Option CharSet) := do
  match (← get).rest with
  | '[' :: ':' :: rest =>
    let (negated, rest) : Bool × List Char := match rest with
      | '^' :: rest => (true, rest)
      | rest => (false, rest)
    match rest.span Char.isAlpha with
    | (name, ':' :: ']' :: after) =>
      match namedClass? (String.ofList name) with
      | some s =>
        modify fun c => { c with rest := after }
        return some (← negatable (← flags) negated s)
      | none => return none
    | _ => return none
  | _ => return none

/-- One member of a class: a character, or a set by escape. -/
def readMember : Reader (Char ⊕ CharSet) := do
  match ← next with
  | '\\' =>
    match ← readEscape with
    | .char c => return .inl c
    | .set s => return .inr s
    | .look _ => failure
  | c => return .inl c

/-- Whether a dash that comes next joins two ends of a range. -/
def dashJoins : Reader Bool := do
  let s ← get
  match s.rest with
  | '-' :: rest =>
    let after := if s.flags.spaced then dropBlanks false rest else rest
    return after.head? != some ']' && after.head? != some '-'
  | _ => return false

/-- A member or a range. -/
def readRange : Reader CharSet := do
  let first ← readMember
  skipBlanks
  if ← dashJoins then
    advance 1
    skipBlanks
    match first, ← readMember with
    | .inl a, .inl b => if a ≤ b then return ⟨[(a.toNat, b.toNat)]⟩ else failure
    | _, _ => failure
  else
    match first with
    | .inl c => return .single c
    | .inr s => return s

/-- Without the Unicode flag a class holds ASCII only. -/
def asciiUnlessUnicode (s : CharSet) : Reader CharSet := do
  if (← flags).unicode || s.isAscii then return s else failure

mutual

/-- A class, its opening bracket having been read. -/
def readClass : Nat → Reader CharSet
  | 0 => failure
  | fuel + 1 => do
    skipBlanks
    let negated := (← peek) == some '^'
    if negated then
      advance 1
      skipBlanks
    let s ← get
    let dashes := s.rest.takeWhile (· == '-')
    advance dashes.length
    skipBlanks
    let bracket := dashes.isEmpty && (← peek) == some ']'
    if bracket then advance 1
    let start : CharSet :=
      if bracket then .single ']' else if dashes.isEmpty then .none else .single '-'
    let found ← readMembers fuel { members := start }
    let f ← flags
    negatable f negated (underCase f (← asciiUnlessUnicode found))

/-- The members of a class up to its closing bracket. -/
def readMembers : Nat → ClassSoFar → Reader CharSet
  | 0, _ => failure
  | fuel + 1, k => do
    skipBlanks
    match setOp? (← peekPair) with
    | some op =>
      advance 2
      readMembers fuel { left := some (op, k.result (← flags)) }
    | none =>
      match ← peek with
      | none => failure
      | some ']' =>
        advance 1
        return k.result (← flags)
      | some '[' =>
        match ← readNamedClass with
        | some s => readMembers fuel { k with members := k.members.union s }
        | none =>
          advance 1
          let inner ← readClass fuel
          readMembers fuel { k with members := k.members.union inner }
      | some _ =>
        let s ← readRange
        readMembers fuel { k with members := k.members.union s }

end

/-! ## Repetition -/

/-- Drops a question mark that makes a repetition lazy: whether there is a match does not
depend on it. -/
def skipLazy : Reader Unit := do
  if (← peek) == some '?' then advance 1

/-- A number in braces, possibly between blanks. -/
def readBound : Reader (Option Nat) := do
  let s ← get
  let rest := s.rest.dropWhile Text.isSpace
  let digits := rest.takeWhile Char.isDigit
  modify fun s => { s with rest := (rest.drop digits.length).dropWhile Text.isSpace }
  match Text.readNat? digits with
  | none => return none
  | some n => if n < Nat.pow 2 32 then return some n else failure

/-- The repetition of `r` by the bounds in braces, the opening one having been read. -/
def readCounted (r : Regex) : Reader Regex := do
  skipBlanks
  let low ← readBound
  skipBlanks
  let found ← match ← next, low with
    | '\x7d', some n => pure (.times r n 0)
    | ',', some n => do
      skipBlanks
      if (← peek) == some '\x7d' then
        advance 1
        pure (Regex.andThen (.times r n 0) (.star r))
      else
        match ← readBound with
        | some m =>
          skipBlanks
          expect '\x7d'
          if n ≤ m then pure (Regex.times r n (m - n)) else failure
        | none => failure
    | _, _ => failure
  skipBlanks
  skipLazy
  return found

/-! ## Flags -/

/-- The flags after one more letter is switched on or off. -/
def withFlag? (f : Flags) (on : Bool) : Char → Option Flags
  | 'i' => some { f with ignoreCase := on }
  | 'm' => some { f with multiLine := on }
  | 's' => some { f with dotAll := on }
  | 'R' => some { f with carried := on }
  | 'u' => some { f with unicode := on }
  | 'x' => some { f with spaced := on }
  | 'U' => some f
  | _ => none

/-- The flags that letters make, those after a dash being off. No letter may come twice,
and a dash needs letters after it. -/
def readFlagLetters (f : Flags) (letters : List Char) : Option Flags :=
  let (on, off) := letters.span (· != '-')
  let listed := on ++ off.drop 1
  if listed.eraseDups.length != listed.length || off == ['-'] then none
  else do
    let f ← on.foldlM (fun f c => withFlag? f true c) f
    (off.drop 1).foldlM (fun f c => withFlag? f false c) f

/-! ## Expressions -/

/-- A character under the flags. -/
def literal (f : Flags) (c : Char) : Regex := .set (underCase f (.single c))

/-- What a dot stands for. -/
def dot (f : Flags) : Reader Regex :=
  if !f.unicode then failure
  else if f.dotAll then return .set .any
  else if f.carried then return .set (CharSet.compl ⟨[(10, 10), (13, 13)]⟩)
  else return .set (CharSet.compl ⟨[(10, 10)]⟩)

def lineStart (f : Flags) : Assertion :=
  if f.multiLine then (if f.carried then .carriedLineStart else .lineStart) else .textStart

def lineEnd (f : Flags) : Assertion :=
  if f.multiLine then (if f.carried then .carriedLineEnd else .lineEnd) else .textEnd

/-- What an escape outside brackets stands for. A named property is subject to case, a
class such as `\w` is closed under it already. -/
def escaped (f : Flags) (letter : Option Char) : Escape → Reader Regex
  | .char c => if f.unicode || c.toNat < 128 then return literal f c else failure
  | .look a => return .look a
  | .set s =>
    if letter == some 'p' || letter == some 'P' then return .set (underCase f s)
    else return .set s

/-- A group name: a letter or underscore, then also digits, dots and brackets. -/
def isGroupName : List Char → Bool
  | [] => false
  | c :: cs =>
    let starts := c == '_' || c.isAlpha || (128 ≤ c.toNat && wordSet.has c)
    starts && cs.all fun c =>
      c == '_' || c == '.' || c == '[' || c == ']' || c.isAlphanum ||
        (128 ≤ c.toNat && wordSet.has c)

/-- Records a group name, which must be new. -/
def takeName (name : List Char) : Reader Unit := do
  if isGroupName name && !(← get).names.contains name then
    modify fun s => { s with names := name :: s.names }
  else failure

/-- What comes after an opening parenthesis: a group whose inside is read next under the
given flags, or flags for the rest of the group around it. -/
inductive Opening where
  | group (f : Flags)
  | directive (f : Flags)

/-- The part of a group between its opening parenthesis and its inside. -/
def readOpening : Reader Opening := do
  let f ← flags
  skipBlanks
  match (← get).rest with
  | '?' :: 'P' :: '<' :: _ =>
    advance 3
    takeName (← upTo '>')
    return .group f
  | '?' :: '<' :: c :: _ =>
    if c == '=' || c == '!' then failure
    else
      advance 2
      takeName (← upTo '>')
      return .group f
  | '?' :: rest =>
    let letters := rest.takeWhile fun c => c.isAlpha || c == '-'
    advance (letters.length + 1)
    match readFlagLetters f letters, ← next with
    | some g, ':' => return .group g
    | some g, ')' => if letters.isEmpty then failure else return .directive g
    | _, _ => failure
  | _ => return .group f

/-- The sequence of some expressions, given in reverse. -/
def sequence (items : List (Option Regex)) : Regex :=
  items.foldl (fun r item => match item with
    | some s => s.andThen r
    | none => r) .empty

/-- Replaces the last item by a repetition of it. Flags cannot be repeated. -/
def repeatLast (items : List (Option Regex)) (f : Regex → Reader Regex) :
    Reader (List (Option Regex)) := do
  match items with
  | some r :: rest => return some (← f r) :: rest
  | _ => failure

mutual

/-- Alternatives up to a closing parenthesis or the end. -/
def readChoice : Nat → Reader Regex
  | 0 => failure
  | fuel + 1 => do
    let first ← readItems fuel []
    if (← peek) == some '|' then
      advance 1
      let rest ← readChoice fuel
      return .alt first rest
    else return first

/-- The items of one alternative, in reverse those before them. `none` stands for an
item that matches nothing by itself. -/
def readItems : Nat → List (Option Regex) → Reader Regex
  | 0, _ => failure
  | fuel + 1, items => do
    skipBlanks
    let f ← flags
    match ← peek with
    | none => return sequence items
    | some '|' => return sequence items
    | some ')' => return sequence items
    | some '(' =>
      advance 1
      match ← readOpening with
      | .directive g =>
        setFlags g
        readItems fuel (none :: items)
      | .group g =>
        setFlags g
        let inner ← readChoice fuel
        expect ')'
        setFlags f
        readItems fuel (some inner :: items)
    | some '[' =>
      advance 1
      let s ← readClass fuel
      readItems fuel (some (.set s) :: items)
    | some '\x7b' =>
      advance 1
      readItems fuel (← repeatLast items readCounted)
    | some '*' =>
      advance 1
      skipLazy
      readItems fuel (← repeatLast items fun r => return .star r)
    | some '+' =>
      advance 1
      skipLazy
      readItems fuel (← repeatLast items fun r => return r.andThen (.star r))
    | some '?' =>
      advance 1
      skipLazy
      readItems fuel (← repeatLast items fun r => return .times r 0 1)
    | some '\\' =>
      advance 1
      let letter ← peek
      let r ← escaped f letter (← readEscape)
      readItems fuel (some r :: items)
    | some '.' =>
      advance 1
      let r ← dot f
      readItems fuel (some r :: items)
    | some '^' =>
      advance 1
      readItems fuel (some (.look (lineStart f)) :: items)
    | some '$' =>
      advance 1
      readItems fuel (some (.look (lineEnd f)) :: items)
    | some c =>
      advance 1
      readItems fuel (some (literal f c) :: items)

end

/-- The most bytes an automaton may take. -/
def footprintLimit : Nat := 10 * Nat.pow 2 20

/-- The expression of a pattern, `none` if the pattern is malformed or stands for an
automaton that is too large. Every step reads a character or ends a part, so a few
steps for each character are enough. -/
def read? (pattern : String) : Option Regex :=
  let cs := pattern.toList
  match (readChoice (4 * cs.length + 4)).run { rest := cs } with
  | some (r, ⟨[], _, _⟩) => if r.footprint ≤ footprintLimit then some r else none
  | _ => none

/-- The predicate on texts that a pattern stands for. -/
def compile? (pattern : String) : Option (String → Bool) := (read? pattern).map Regex.matchesIn

end StackProfile.Pattern

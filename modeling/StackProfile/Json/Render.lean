import StackProfile.Binary64
import StackProfile.Json.Value

/-!
# Writing JSON

Compact, or indented by two spaces a level. Only what has to be escaped is.
-/

namespace StackProfile.Json

/-- A character inside a string. -/
def escape (c : Char) : List Char :=
  if c == '"' then ['\\', '"']
  else if c == '\\' then ['\\', '\\']
  else if c.toNat = 8 then ['\\', 'b']
  else if c.toNat = 12 then ['\\', 'f']
  else if c == '\n' then ['\\', 'n']
  else if c == '\r' then ['\\', 'r']
  else if c == '\t' then ['\\', 't']
  else if c.toNat < 32 then
    ['\\', 'u', '0', '0', Nat.digitChar (c.toNat / 16), Nat.digitChar (c.toNat % 16)]
  else [c]

def quoted (s : String) : List Char := '"' :: s.toList.flatMap escape ++ ['"']

mutual

/-- The text of a value without any blanks. -/
def chars : Json → List Char
  | null => ['n', 'u', 'l', 'l']
  | bool true => ['t', 'r', 'u', 'e']
  | bool false => ['f', 'a', 'l', 's', 'e']
  | int n => (toString n).toList
  | float x => (Binary64.toShortest x).toList
  | str s => quoted s
  | arr [] => ['[', ']']
  | arr (v :: vs) => '[' :: chars v ++ itemChars vs
  | obj [] => ['\x7b', '\x7d']
  | obj ((k, v) :: ms) => '\x7b' :: quoted k ++ ':' :: chars v ++ memberChars ms

/-- The items after the first one, and the closing bracket. -/
def itemChars : List Json → List Char
  | [] => [']']
  | v :: vs => ',' :: chars v ++ itemChars vs

/-- The members after the first one, and the closing brace. -/
def memberChars : List (String × Json) → List Char
  | [] => ['\x7d']
  | (k, v) :: ms => ',' :: quoted k ++ ':' :: chars v ++ memberChars ms

end

/-- The text of a value on one line. -/
def render (v : Json) : String := String.ofList v.chars

/-- A line break and the indentation of a level. -/
def indent (level : Nat) : List Char := '\n' :: List.replicate (2 * level) ' '

mutual

/-- The text of a value whose first line is indented already. -/
def lines (level : Nat) : Json → List Char
  | arr [] => ['[', ']']
  | arr (v :: vs) => '[' :: indent (level + 1) ++ lines (level + 1) v ++ itemLines level vs
  | obj [] => ['\x7b', '\x7d']
  | obj ((k, v) :: ms) =>
    '\x7b' :: indent (level + 1) ++ quoted k ++ ':' :: ' ' :: lines (level + 1) v ++
      memberLines level ms
  | null => chars null
  | bool b => chars (bool b)
  | int n => chars (int n)
  | float x => chars (float x)
  | str s => quoted s

def itemLines (level : Nat) : List Json → List Char
  | [] => indent level ++ [']']
  | v :: vs => ',' :: indent (level + 1) ++ lines (level + 1) v ++ itemLines level vs

def memberLines (level : Nat) : List (String × Json) → List Char
  | [] => indent level ++ ['\x7d']
  | (k, v) :: ms =>
    ',' :: indent (level + 1) ++ quoted k ++ ':' :: ' ' :: lines (level + 1) v ++
      memberLines level ms

end

/-- The text of a value over several lines. -/
def pretty (v : Json) : String := String.ofList (lines 0 v)

end StackProfile.Json

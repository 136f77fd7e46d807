import StackProfile.Saturate

/-!
# Text as lists of characters

Cutting lines into words, trimming them, and reading decimal integers. White space is
the Unicode property `White_Space`.
-/

namespace StackProfile.Text

/-- Whether a character has the Unicode property `White_Space`. -/
def isSpace (c : Char) : Bool :=
  let n := c.toNat
  (9 ≤ n && n ≤ 13) || n == 0x20 || n == 0x85 || n == 0xA0 || n == 0x1680 ||
    (0x2000 ≤ n && n ≤ 0x200A) || n == 0x2028 || n == 0x2029 || n == 0x202F ||
    n == 0x205F || n == 0x3000

/-- The text without the characters at its end that satisfy `p`. -/
def dropEndWhile (p : Char → Bool) (cs : List Char) : List Char :=
  (cs.reverse.dropWhile p).reverse

/-- The text without white space at its ends. -/
def trim (cs : List Char) : List Char := dropEndWhile isSpace (cs.dropWhile isSpace)

/-- The pieces of a text between occurrences of `sep`: one more than there are of them. -/
def splitOn (sep : Char) (cs : List Char) : List (List Char) :=
  cs.foldr
    (fun c pieces =>
      if c == sep then [] :: pieces
      else
        match pieces with
        | [] => [[c]]
        | w :: ws => (c :: w) :: ws)
    [[]]

/-- What stands before and after the last white space of a text, if it has any. -/
def splitAtLastSpace? (cs : List Char) : Option (List Char × List Char) :=
  match cs.reverse.span fun c => !isSpace c with
  | (_, []) => none
  | (last, _ :: before) => some (before.reverse, last.reverse)

/-- The number a run of decimal digits stands for, `none` for anything else. -/
def readNat? (cs : List Char) : Option Nat :=
  if cs.isEmpty || !cs.all Char.isDigit then none
  else some (cs.foldl (fun n c => 10 * n + (c.toNat - 48)) 0)

/-- A decimal integer with an optional sign, without regard to its size. -/
def readSigned? : List Char → Option Int
  | '-' :: ds => (readNat? ds).map fun n => -(n : Int)
  | '+' :: ds => (readNat? ds).map fun n => (n : Int)
  | ds => (readNat? ds).map fun n => (n : Int)

/-- A decimal integer of the 64-bit range, with an optional sign. -/
def readInt? (cs : List Char) : Option Int :=
  (readSigned? cs).filter fun n => minTime ≤ n && n ≤ maxTime

/-- A decimal number below `2 ^ 64`, with an optional plus sign. -/
def readIndex? (cs : List Char) : Option Nat :=
  let digits := match cs with
    | '+' :: ds => ds
    | ds => ds
  (readNat? digits).filter fun n => n < Nat.pow 2 64

end StackProfile.Text

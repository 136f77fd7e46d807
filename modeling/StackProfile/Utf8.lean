/-!
# UTF-8

Bytes are read as text where they are well formed. Where they are not, `pieces` cuts
them into characters and the longest starts of characters that break off, which says
how far the text is good and how many bytes are wrong.
-/

namespace StackProfile.Utf8

/-- A character that has begun: how many bytes of it were read and how many are to
come, its bits so far, and the range the next byte must lie in. -/
structure Begun where
  seen : Nat
  missing : Nat
  bits : Nat
  low : Nat
  high : Nat

/-- A stretch of bytes: a character, a start of one that another byte breaks off, or
one that the end of the bytes breaks off. -/
inductive Piece where
  | char (c : Char)
  | bad (length : Nat)
  | cut (length : Nat)
  deriving DecidableEq, Repr

def Piece.length : Piece → Nat
  | char c => c.utf8Size
  | bad n => n
  | cut n => n

/-- What a byte begins: a whole character, a longer one, or nothing. -/
inductive Start where
  | ascii (c : Char)
  | lead (p : Begun)
  | stray

/-- The second byte is restricted so that no character has two encodings and none is a
surrogate or past the last code point. -/
def start (b : UInt8) : Start :=
  let n := b.toNat
  if n < 0x80 then .ascii (Char.ofNat n)
  else if n < 0xC2 then .stray
  else if n < 0xE0 then .lead ⟨1, 1, n - 0xC0, 0x80, 0xBF⟩
  else if n = 0xE0 then .lead ⟨1, 2, 0, 0xA0, 0xBF⟩
  else if n = 0xED then .lead ⟨1, 2, 0xD, 0x80, 0x9F⟩
  else if n < 0xF0 then .lead ⟨1, 2, n - 0xE0, 0x80, 0xBF⟩
  else if n = 0xF0 then .lead ⟨1, 3, 0, 0x90, 0xBF⟩
  else if n < 0xF4 then .lead ⟨1, 3, n - 0xF0, 0x80, 0xBF⟩
  else if n = 0xF4 then .lead ⟨1, 3, 4, 0x80, 0x8F⟩
  else .stray

/-- The pieces of the bytes, given what has begun before them. -/
def scan : Option Begun → List UInt8 → List Piece
  | none, [] => []
  | some p, [] => [.cut p.seen]
  | pending, b :: bs =>
    let fresh : List Piece × Option Begun := match start b with
      | .ascii c => ([.char c], none)
      | .lead p => ([], some p)
      | .stray => ([.bad 1], none)
    let (found, next) : List Piece × Option Begun := match pending with
      | none => fresh
      | some p =>
        if p.low ≤ b.toNat ∧ b.toNat ≤ p.high then
          let bits := 64 * p.bits + (b.toNat - 0x80)
          if p.missing = 1 then ([.char (Char.ofNat bits)], none)
          else ([], some ⟨p.seen + 1, p.missing - 1, bits, 0x80, 0xBF⟩)
        else (.bad p.seen :: fresh.1, fresh.2)
    found ++ scan next bs

def pieces (bytes : ByteArray) : List Piece := scan none bytes.toList

/-- Why bytes are no text: the bytes before `index` are good, and the `length` bytes
from there on are not, or the bytes end before their last character does. -/
inductive Error where
  | invalid (length index : Nat)
  | incomplete (index : Nat)
  deriving DecidableEq, Repr

def Error.message : Error → String
  | invalid length index => s!"invalid utf-8 sequence of {length} bytes from index {index}"
  | incomplete index => s!"incomplete utf-8 byte sequence from index {index}"

/-- The first piece that is no character. -/
def firstError (index : Nat) : List Piece → Option Error
  | [] => none
  | .char c :: ps => firstError (index + c.utf8Size) ps
  | .bad n :: _ => some (.invalid n index)
  | .cut _ :: _ => some (.incomplete index)

/-- The text the bytes encode. -/
def decode (bytes : ByteArray) : Except Error String :=
  match String.fromUTF8? bytes with
  | some s => .ok s
  | none => .error ((firstError 0 (pieces bytes)).getD (.incomplete 0))

end StackProfile.Utf8

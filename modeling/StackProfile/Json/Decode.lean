import StackProfile.Json.Draft

/-!
# Reading drafts

Readers of values of a known type. The members of a record are taken in the order of the
text: unknown ones are skipped, and a member that comes twice is a mismatch. A record may
also stand as an array of the values of its members.
-/

namespace StackProfile.Json

/-- A reader of a draft. -/
abbrev Decoder (τ : Type) := Draft → Except Fault τ

namespace Draft

/-- What is wrong with a draft where a value of another type is wanted. A string or number
is read before its type is looked at, an array or object is not. -/
def clash : Draft → Fault
  | broken cut => cut.wanted
  | flawed => .malformed
  | _ => .mismatch

mutual

/-- The first thing that is wrong with a value that is skipped. -/
def skipFault : Draft → Option Fault
  | broken cut => some cut.skipped
  | arr items cut => (skipItems items).orElse fun _ => cut.map Cut.skipped
  | obj members cut => (skipMembers members).orElse fun _ => cut.map Cut.skipped
  | _ => none

def skipItems : List Draft → Option Fault
  | [] => none
  | v :: vs => (skipFault v).orElse fun _ => skipItems vs

def skipMembers : List (Option String × Draft) → Option Fault
  | [] => none
  | (_, v) :: ms => (skipFault v).orElse fun _ => skipMembers ms

end

/-- Stops at a cut. -/
def checkCut (cut : Option Cut) : Except Fault Unit :=
  match cut with
  | some c => .error c.wanted
  | none => .ok ()

end Draft

namespace Decoder

open Draft

/-- An integer from `low` to `high`. -/
def int (low high : Int) : Decoder Int
  | .int n => if low ≤ n ∧ n ≤ high then .ok n else .error .mismatch
  | d => .error d.clash

/-- A time, weight or id. -/
def time : Decoder Int := int minTime maxTime

/-- A size or position. -/
def index : Decoder Nat := fun d => (int 0 ((Nat.pow 2 64 - 1 : Nat) : Int) d).map Int.toNat

def byte : Decoder UInt8 := fun d => (int 0 255 d).map fun n => UInt8.ofNat n.toNat

def string : Decoder String
  | .str s => .ok s
  | d => .error d.clash

/-- A value or `null`. -/
def optional {τ : Type} (read : Decoder τ) : Decoder (Option τ)
  | .null => .ok none
  | d => (read d).map some

def lookupName {τ : Type} (values : List (String × τ)) (name : String) : Except Fault τ :=
  match values.lookup name with
  | some v => .ok v
  | none => .error .mismatch

/-- Stops at anything but `null`. -/
def checkNull : Draft → Except Fault Unit
  | .null => .ok ()
  | d => .error d.clash

/-- One of some names, as a string or as the only member of an object, with `null`. Anything
that does not begin like one of these is malformed. -/
def name {τ : Type} (values : List (String × τ)) : Decoder τ
  | .str s => lookupName values s
  | .broken cut => .error cut.named
  | .obj ((some k, d) :: ms) cut => do
    let v ← lookupName values k
    checkNull d
    checkCut cut
    if ms.isEmpty then return v else throw .malformed
  | .obj [] (some cut) => .error cut.wanted
  | _ => .error .malformed

def readAll {τ : Type} (read : Decoder τ) : List Draft → Except Fault (List τ)
  | [] => .ok []
  | d :: ds =>
    match read d with
    | .error f => .error f
    | .ok v => (readAll read ds).map (v :: ·)

def list {τ : Type} (read : Decoder τ) : Decoder (List τ)
  | .arr items cut => do
    let values ← readAll read items
    checkCut cut
    return values
  | d => .error d.clash

def readEntries {τ : Type} (read : Decoder τ) (found : List (String × τ)) :
    List (Option String × Draft) → Except Fault (List (String × τ))
  | [] => .ok found
  | (none, _) :: _ => .error .malformed
  | (some k, d) :: ms =>
    match read d with
    | .error f => .error f
    | .ok v => readEntries read (setKey k v found) ms

/-- A map from strings, sorted by key. Of values for one key the last one counts. -/
def map {τ : Type} (read : Decoder τ) : Decoder (List (String × τ))
  | .obj members cut => do
    let found ← readEntries read [] members
    checkCut cut
    return found
  | d => .error d.clash

/-- What to do with a member: nothing if it is unknown. -/
abbrev Field (σ : Type) := σ → String → Option (Decoder σ)

/-- A member for a slot that must be empty. -/
def into {σ τ : Type} (slot : Option τ) (read : Decoder τ) (fill : τ → σ) : Option (Decoder σ) :=
  some fun d => if slot.isSome then .error .mismatch else (read d).map fill

def readFields {σ : Type} (field : Field σ) (s : σ) :
    List (Option String × Draft) → Except Fault σ
  | [] => .ok s
  | (none, _) :: _ => .error .malformed
  | (some k, d) :: ms =>
    match field s k with
    | some read =>
      match read d with
      | .error f => .error f
      | .ok t => readFields field t ms
    | none =>
      match d.skipFault with
      | some f => .error f
      | none => readFields field s ms

/-- Values of members in the order of their keys. Values at the end may be left out. -/
def readPositions {σ : Type} (field : Field σ) (s : σ) :
    List String → List Draft → Except Fault σ
  | _, [] => .ok s
  | [], _ :: _ => .error .malformed
  | k :: ks, d :: ds =>
    match field s k with
    | none => readPositions field s ks ds
    | some read =>
      match read d with
      | .error f => .error f
      | .ok t => readPositions field t ks ds

/-- The members of a record, taken one by one. In an array they stand in the order of
`keys`. -/
def fields {σ : Type} (keys : List String) (field : Field σ) (start : σ) : Decoder σ
  | .obj members cut => do
    let s ← readFields field start members
    checkCut cut
    return s
  | .arr items cut => do
    let s ← readPositions field start keys items
    checkCut cut
    return s
  | d => .error d.clash

/-- A slot that must have been filled. -/
def required {τ : Type} : Option τ → Except Fault τ
  | some v => .ok v
  | none => .error .mismatch

/-- How deep values may be nested where their types are not known. -/
def nestingLimit : Nat := 128

mutual

/-- A value of any type, nested less than `room` deep. Of members with one key the last
one counts. -/
def any (room : Nat) : Decoder Json
  | .null => .ok .null
  | .bool b => .ok (.bool b)
  | .int n => .ok (.int n)
  | .float x => .ok (.float x)
  | .str s => .ok (.str s)
  | .flawed => .error .malformed
  | .broken cut => .error cut.wanted
  | .arr items cut =>
    if room ≤ 1 then .error .malformed
    else do
      let values ← anyItems (room - 1) items
      checkCut cut
      return .arr values
  | .obj members cut =>
    if room ≤ 1 then .error .malformed
    else do
      let found ← anyMembers (room - 1) [] members
      checkCut cut
      return .obj found

def anyItems (room : Nat) : List Draft → Except Fault (List Json)
  | [] => .ok []
  | d :: ds =>
    match any room d with
    | .error f => .error f
    | .ok v => (anyItems room ds).map (v :: ·)

def anyMembers (room : Nat) (found : List (String × Json)) :
    List (Option String × Draft) → Except Fault (List (String × Json))
  | [] => .ok found
  | (none, _) :: _ => .error .malformed
  | (some k, d) :: ms =>
    match any room d with
    | .error f => .error f
    | .ok v => anyMembers room (setKey k v found) ms

end

/-- A whole text. -/
def ofGlyphs {τ : Type} (read : Decoder τ) (gs : List Glyph) : Except Fault τ := do
  let document := readDocument gs
  let v ← read document.value
  if document.trailing then .error .malformed else .ok v

def ofText {τ : Type} (read : Decoder τ) (text : String) : Except Fault τ :=
  ofGlyphs read (text.toList.map some)

def ofBytes {τ : Type} (read : Decoder τ) (bytes : ByteArray) : Except Fault τ :=
  ofGlyphs read (glyphs bytes)

end Decoder

end StackProfile.Json

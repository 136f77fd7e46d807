import StackProfile.Json.Decode
import StackProfile.Palette

/-!
# Settings
-/

namespace StackProfile

open Json (Decoder)

/-- The settings of an engine, usually read from a file. -/
structure Config where
  traceName : String := "trace"
  paletteSize : Nat := Palette.defaultSize
  deriving DecidableEq, Repr

namespace Config

def withTraceName (c : Config) (name : String) : Config := { c with traceName := name }

def toJson (c : Config) : Json :=
  .obj [("trace_name", .str c.traceName), ("palette_size", .int c.paletteSize)]

/-- The keys of the members, in order. -/
def keys : List String := ["trace_name", "palette_size"]

structure Slots where
  traceName : Option String := none
  paletteSize : Option Nat := none

/-- Settings that are not given have their defaults. -/
def decoder : Decoder Config := fun d => do
  let s ← Decoder.fields keys (fun (s : Slots) key => match key with
    | "trace_name" => Decoder.into s.traceName .string fun v => { s with traceName := some v }
    | "palette_size" => Decoder.into s.paletteSize .index fun v => { s with paletteSize := some v }
    | _ => none) {} d
  let defaults : Config := {}
  return {
    traceName := s.traceName.getD defaults.traceName
    paletteSize := s.paletteSize.getD defaults.paletteSize }

/-- The settings in a file. -/
def read (bytes : ByteArray) : Except Json.Fault Config := Decoder.ofBytes decoder bytes

end Config

end StackProfile

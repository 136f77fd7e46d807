import StackProfile.Command.Arguments
import StackProfile.Text

/-!
# Invocations

What the program is asked to do: which profile to read with which settings, and what to
show of it. Settings may stand before and after the name of the command, and count from the
inside out.
-/

namespace StackProfile

/-- What to show of a profile. -/
inductive Command where
  | tree (level : Option Nat)
  | rows (level : Option Nat) (times items : List Int) (filters : List (Int × String))
  | tooltip (level : Option Nat) (item time : Int)
  | styles
  | diff (other : String) (samples : Nat)
  deriving DecidableEq, Repr

/-- What the program is asked to do. -/
structure Invocation where
  config : Option String := none
  traceName : Option String := none
  byFirstFrame : Bool := false
  profile : String
  command : Command
  deriving DecidableEq, Repr

/-! ## Filters -/

/-- Why a text is no filter. -/
inductive FilterError where
  | noDepth (text : String)
  | badDepth (depth : String)
  deriving DecidableEq, Repr

def FilterError.message : FilterError → String
  | noDepth text => s!"expected DEPTH=REGEX, got `{text}`"
  | badDepth depth => s!"invalid depth `{depth}`"

/-- A depth and a pattern with the first `=` between them. -/
def Command.readFilter (text : String) : Except FilterError (Int × String) :=
  match text.toList.span (· != '=') with
  | (_, []) => .error (.noDepth text)
  | (depth, _ :: pattern) =>
    match Text.readInt? (Text.trim depth) with
    | some n => .ok (n, String.ofList pattern)
    | none => .error (.badDepth (String.ofList depth))

namespace Invocation

/-! ## Values -/

/-- A path. -/
def path? (text : String) : Option String := if text.isEmpty then none else some text

def size? (text : String) : Option Nat := Text.readIndex? text.toList

def time? (text : String) : Option Int := Text.readInt? text.toList

/-- Integers with commas between them. -/
def times? (text : String) : Option (List Int) :=
  (Text.splitOn ',' text.toList).mapM Text.readInt?

def filter? (text : String) : Option (Int × String) := (Command.readFilter text).toOption

/-! ## Usage -/

/-- Options that may be given at either level. -/
def shared : List (String × Arity) :=
  [("verbose", .flag), ("config", .single), ("trace-name", .single), ("by-first-frame", .flag)]

/-- Flags of one letter that may be given at either level. -/
def sharedLetters : List Char := ['v']

/-- The outer level: the profile and a command. -/
def usage : Usage :=
  { options := shared, letters := sharedLetters, operands := ["FILE"],
    commands := ["tree", "rows", "tooltip", "styles", "diff"] }

/-- The level of a command. -/
def commandUsage (options : List (String × Arity)) (operands : List String := []) : Usage :=
  { options := options ++ shared, letters := sharedLetters, operands }

/-! ## Reading -/

/-- The settings that a level gives. -/
structure Settings where
  config : Option String := none
  traceName : Option String := none
  byFirstFrame : Bool := false

def settings (a : Arguments) : Except Misuse Settings := do
  let config ← a.one? "config" path?
  let traceName ← a.one? "trace-name" some
  let byFirstFrame ← a.isSet "by-first-frame"
  return { config, traceName, byFirstFrame }

/-- The settings of two levels. Where both give a value, that of the inner one counts. -/
def Settings.within (inner outer : Settings) : Settings where
  config := inner.config.orElse fun _ => outer.config
  traceName := inner.traceName.orElse fun _ => outer.traceName
  byFirstFrame := inner.byFirstFrame || outer.byFirstFrame

def groupBy : String × Arity := ("group-by", .single)

def treeUsage : Usage := commandUsage [groupBy]

def rowsUsage : Usage :=
  commandUsage [groupBy, ("times", .several), ("items", .several), ("filter", .single)]

def tooltipUsage : Usage := commandUsage [groupBy, ("item", .single), ("time", .single)]

def diffUsage : Usage := commandUsage [("samples", .single)] ["OTHER"]

/-- The number of times that a comparison is sampled at if nothing else is said. -/
def defaultSamples : Nat := 512

def readTree (a : Arguments) : Except Misuse Command := do
  return .tree (← a.one? "group-by" size?)

/-- At least one time has to be given. -/
def readRows (a : Arguments) : Except Misuse Command := do
  let level ← a.one? "group-by" size?
  let times ← a.all "times" times?
  let items ← a.all "items" times?
  let filters ← a.all "filter" filter?
  if times.isEmpty then throw (.missing "times")
  return .rows level times.flatten items.flatten filters

def readTooltip (a : Arguments) : Except Misuse Command := do
  let level ← a.one? "group-by" size?
  return .tooltip level (← a.one "item" time?) (← a.one "time" time?)

def readDiff (a : Arguments) : Except Misuse Command := do
  let samples ← a.one? "samples" size?
  match a.operands.filterMap path? with
  | [other] => return .diff other (samples.getD defaultSamples)
  | _ => throw (.missing "OTHER")

/-- A command by name and arguments, with the settings among them. -/
def readCommand (name : String) (args : List String) : Except Misuse (Command × Settings) := do
  let level (u : Usage) (read : Arguments → Except Misuse Command) := do
    let a ← Arguments.read u args
    return (← read a, ← settings a)
  match name with
  | "tree" => level treeUsage readTree
  | "rows" => level rowsUsage readRows
  | "tooltip" => level tooltipUsage readTooltip
  | "styles" => level (commandUsage []) fun _ => .ok .styles
  | "diff" => level diffUsage readDiff
  | _ => throw (.surplus name)

/-- What the arguments of the program ask for. -/
def read (args : List String) : Except Misuse Invocation := do
  let a ← Arguments.read usage args
  let outer ← settings a
  match a.operands.filterMap path?, a.command with
  | [profile], some (name, rest) =>
    let (command, inner) ← readCommand name rest
    let s := inner.within outer
    return { config := s.config, traceName := s.traceName, byFirstFrame := s.byFirstFrame,
             profile, command }
  | [_], none => throw (.missing "command")
  | _, _ => throw (.missing "FILE")

/-- The files that an invocation names. -/
def files (i : Invocation) : List String :=
  let others := match i.command with
    | .diff other _ => [other]
    | _ => []
  i.config.toList ++ i.profile :: others

end Invocation

end StackProfile

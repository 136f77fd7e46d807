/-!
# Arguments

The arguments of one level of a command line: options that begin with `--`, operands, and
the name of a command, which ends the level. An option takes its values from the arguments
that follow it, or after a `=` in its own. After a bare `--` everything is an operand.
-/

namespace StackProfile

/-- Why arguments cannot be used. -/
inductive Misuse where
  | unknownOption (name : String)
  | valueForFlag (option : String)
  | missingValue (option : String)
  | invalidValue (option value : String)
  | repeated (option : String)
  | missing (what : String)
  | surplus (operand : String)
  deriving DecidableEq, Repr

namespace Misuse

def message : Misuse → String
  | unknownOption name => s!"unexpected option `{name}`"
  | valueForFlag option => s!"`{option}` takes no value"
  | missingValue option => s!"`{option}` needs a value"
  | invalidValue option value => s!"invalid value `{value}` for `{option}`"
  | repeated option => s!"`{option}` is given more than once"
  | missing what => s!"missing {what}"
  | surplus operand => s!"unexpected argument `{operand}`"

end Misuse

/-- How many values an option takes at a time. -/
inductive Arity where
  | flag
  | single
  | several
  deriving DecidableEq, Repr

/-- What is known at a level: options by name, flags of one letter, the names of its
operands, and commands. -/
structure Usage where
  options : List (String × Arity)
  letters : List Char
  operands : List String := []
  commands : List String := []

/-- The arguments of a level. Each occurrence of an option stands with its values, and the
command with the arguments of its own level. -/
structure Arguments where
  options : List (String × List String) := []
  operands : List String := []
  command : Option (String × List String) := none

namespace Arguments

/-- What an argument looks like. -/
inductive Form where
  | escape
  | option (name : String) (value : Option String)
  | letters (letters : List Char)
  | value
  deriving DecidableEq, Repr

/-- The form of an argument. A hyphen on its own is a value. -/
def formOf (arg : String) : Form :=
  match arg.toList with
  | ['-', '-'] => .escape
  | '-' :: '-' :: rest =>
    match rest.span (· != '=') with
    | (name, []) => .option (String.ofList name) none
    | (name, _ :: value) => .option (String.ofList name) (some (String.ofList value))
  | '-' :: c :: rest => .letters (c :: rest)
  | _ => .value

/-- An option that may take the next values. -/
structure Pending where
  name : String
  arity : Arity
  values : List String := []

/-- One more occurrence of an option. -/
def record (a : Arguments) (name : String) (values : List String) : Arguments :=
  { a with options := a.options ++ [(name, values)] }

/-- Ends an option, which must have got a value. -/
def close (a : Arguments) : Option Pending → Except Misuse Arguments
  | none => .ok a
  | some p =>
    if p.values.isEmpty then .error (.missingValue p.name) else .ok (a.record p.name p.values)

/-- One more operand, if the level has a place for it. -/
def operand (u : Usage) (a : Arguments) (arg : String) : Except Misuse Arguments :=
  if a.operands.length < u.operands.length then .ok { a with operands := a.operands ++ [arg] }
  else .error (.surplus arg)

/-- A value: of the option that takes it, or else an operand. -/
def value (u : Usage) (a : Arguments) (pending : Option Pending) (arg : String) :
    Except Misuse (Arguments × Option Pending) :=
  match pending with
  | some p =>
    let values := p.values ++ [arg]
    if p.arity = .several then .ok (a, some { p with values })
    else .ok (a.record p.name values, none)
  | none => (operand u a arg).map fun a => (a, none)

/-- An option, with the value attached to it if there is one. An attached value is the
only one. -/
def option (u : Usage) (a : Arguments) (name : String) (attached : Option String) :
    Except Misuse (Arguments × Option Pending) :=
  match u.options.lookup name, attached with
  | none, _ => .error (.unknownOption name)
  | some .flag, none => .ok (a.record name [], none)
  | some .flag, some _ => .error (.valueForFlag name)
  | some _, some v => .ok (a.record name [v], none)
  | some arity, none => .ok (a, some { name, arity })

/-- Flags of one letter. -/
def letters (u : Usage) (a : Arguments) : List Char → Except Misuse Arguments
  | [] => .ok a
  | c :: cs =>
    if u.letters.contains c then letters u a cs
    else .error (.unknownOption (String.singleton c))

/-- The arguments of a level, after those that were read already. -/
def readFrom (u : Usage) (a : Arguments) (pending : Option Pending) :
    List String → Except Misuse Arguments
  | [] => close a pending
  | arg :: rest =>
    if pending.isNone && u.commands.contains arg then .ok { a with command := some (arg, rest) }
    else
      match formOf arg with
      | .escape => do rest.foldlM (operand u) (← close a pending)
      | .option name attached => do
        let (a, pending) ← option u (← close a pending) name attached
        readFrom u a pending rest
      | .letters cs => do
        let a ← letters u (← close a pending) cs
        readFrom u a none rest
      | .value => do
        let (a, pending) ← value u a pending arg
        readFrom u a pending rest

/-- The arguments of a level. -/
def read (u : Usage) (args : List String) : Except Misuse Arguments := do
  let a ← readFrom u {} none args
  match u.operands[a.operands.length]? with
  | some what => throw (.missing what)
  | none => return a

/-! ## Values -/

/-- The values of the occurrences of an option. -/
def valuesOf (a : Arguments) (name : String) : List (List String) :=
  (a.options.filter fun o => o.1 == name).map Prod.snd

/-- Whether a flag is given, at most once. -/
def isSet (a : Arguments) (name : String) : Except Misuse Bool :=
  match a.valuesOf name with
  | [] => .ok false
  | [_] => .ok true
  | _ => .error (.repeated name)

/-- The value of an option that is given at most once. -/
def one? {τ : Type} (a : Arguments) (name : String) (read : String → Option τ) :
    Except Misuse (Option τ) :=
  match a.valuesOf name with
  | [] => .ok none
  | [[text]] =>
    match read text with
    | some v => .ok (some v)
    | none => .error (.invalidValue name text)
  | _ => .error (.repeated name)

/-- The value of an option that is given once. -/
def one {τ : Type} (a : Arguments) (name : String) (read : String → Option τ) :
    Except Misuse τ := do
  match ← a.one? name read with
  | some v => return v
  | none => throw (.missing name)

/-- The values of all occurrences of an option. -/
def all {τ : Type} (a : Arguments) (name : String) (read : String → Option τ) :
    Except Misuse (List τ) :=
  (a.valuesOf name).flatten.mapM fun text =>
    match read text with
    | some v => .ok v
    | none => .error (.invalidValue name text)

end Arguments

end StackProfile

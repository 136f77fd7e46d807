import StackProfile.Frame
import StackProfile.Profile
import StackProfile.Text
import StackProfile.Utf8

/-!
# Folded stacks

One stack a line: frames from the outermost to the innermost with `;` between them,
then white space and the number of samples. Blank lines and lines that start with `#`
say nothing. A line without a number at its end is one sample.
-/

namespace StackProfile.Folded

/-- The frames of a line, outermost first, and its number of samples. -/
structure Stack where
  frames : List Frame
  count : Int
  deriving DecidableEq, Repr

/-- The element of all stacks when they are not grouped. -/
def ungrouped : Frame := ⟨"all"⟩

/-- The stack part of a trimmed line and its number of samples. -/
def splitCount (line : List Char) : List Char × Int :=
  match Text.splitAtLastSpace? line with
  | none => (line, 1)
  | some (stack, count) =>
    match Text.readInt? count with
    | some n => (Text.trim stack, n)
    | none => (line, 1)

/-- The trimmed pieces between semicolons, without the empty ones. -/
def framesOf (stack : List Char) : List Frame :=
  (((Text.splitOn ';' stack).map Text.trim).filter fun f => !f.isEmpty).map
    fun f => ⟨String.ofList f⟩

/-- The stack of a line, `none` for a line that says nothing. -/
def stackOf? (line : List Char) : Option Stack :=
  match Text.trim line with
  | [] => none
  | '#' :: _ => none
  | text => let (stack, count) := splitCount text; some ⟨framesOf stack, count⟩

/-- The stacks of a text, line by line. -/
def stacksOf (text : List Char) : List Stack := (Text.splitOn '\n' text).filterMap stackOf?

/-- The tree with one node per frame, each the only child of the one before it. -/
def chain (count : Int) : List Frame → Option (CallTree Frame)
  | [] => none
  | f :: fs =>
    match chain count fs with
    | none => some (CallTree.leaf f count)
    | some inner => some ((CallTree.leaf f count).graft inner)

/-- The profile with the samples of a path added to an element, which becomes known
even if the path is empty. -/
def addPath (p : Profile Frame Frame) (e : Frame) (path : List Frame) (count : Int) :
    Profile Frame Frame :=
  match chain count path with
  | none => p.addRoot e
  | some t => p.addTree e t

/-- The element and the path of a stack. Grouped stacks belong to their first frame, so
a stack without frames belongs nowhere. -/
def placement (byFirstFrame : Bool) (s : Stack) : Option (Frame × List Frame) :=
  match byFirstFrame, s.frames with
  | false, fs => some (ungrouped, fs)
  | true, [] => none
  | true, f :: fs => some (f, fs)

/-- The profile with the samples of a stack added. -/
def addStack (byFirstFrame : Bool) (p : Profile Frame Frame) (s : Stack) : Profile Frame Frame :=
  match placement byFirstFrame s with
  | none => p
  | some (e, path) => addPath p e path s.count

/-- Whether a stack has a frame to attribute its samples to. -/
def isSample (byFirstFrame : Bool) (s : Stack) : Bool :=
  match placement byFirstFrame s with
  | some (_, _ :: _) => true
  | _ => false

/-- Why a folded profile cannot be read. -/
inductive Error where
  | encoding (e : Utf8.Error)
  | empty
  deriving DecidableEq, Repr

def Error.message : Error → String
  | encoding e => s!"invalid UTF-8: {e.message}"
  | empty => "no valid stack lines found"

/-- The profile of a text. There has to be a stack with a path. -/
def readText (byFirstFrame : Bool) (text : String) : Except Error (Profile Frame Frame) :=
  let ss := stacksOf text.toList
  if ss.any (isSample byFirstFrame) then .ok (ss.foldl (addStack byFirstFrame) {})
  else .error .empty

/-- The profile of a file. -/
def read (byFirstFrame : Bool) (bytes : ByteArray) : Except Error (Profile Frame Frame) :=
  match Utf8.decode bytes with
  | .ok text => readText byFirstFrame text
  | .error e => .error (.encoding e)

end StackProfile.Folded

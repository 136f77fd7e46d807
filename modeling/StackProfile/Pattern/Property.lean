import StackProfile.Pattern.Category
import StackProfile.Pattern.Script

/-!
# Named properties

The sets that a pattern can name: general categories, scripts and a few binary
properties. Case, blanks, `_`, `-` and a leading `is` do not matter in a name.
-/

namespace StackProfile.Pattern

/-- A name in the form in which names are compared. -/
def plainName (name : List Char) : String :=
  let counts (c : Char) := c != ' ' && c != '_' && c != '-' && c.toNat < 128
  let kept := (name.filter counts).map Char.toLower
  match kept with
  | 'i' :: 's' :: rest => String.ofList rest
  | all => String.ofList all

/-- Lowercase characters that are no lowercase letters. -/
def otherLower : List (Nat × Nat) :=
  [(0xAA, 0xAA), (0xBA, 0xBA), (0x2B0, 0x2B8), (0x2C0, 0x2C1), (0x2E0, 0x2E4), (0x345, 0x345),
   (0x37A, 0x37A), (0x10FC, 0x10FC), (0x1D2C, 0x1D6A), (0x1D78, 0x1D78), (0x1D9B, 0x1DBF),
   (0x2071, 0x2071), (0x207F, 0x207F), (0x2090, 0x209C), (0x2170, 0x217F), (0x24D0, 0x24E9),
   (0x2C7C, 0x2C7D), (0xA69C, 0xA69D), (0xA770, 0xA770), (0xA7F2, 0xA7F4), (0xA7F8, 0xA7F9),
   (0xAB5C, 0xAB5F), (0xAB69, 0xAB69), (0x10780, 0x10780), (0x10783, 0x10785),
   (0x10787, 0x107B0), (0x107B2, 0x107BA), (0x1E030, 0x1E06D)]

/-- Uppercase characters that are no uppercase letters. -/
def otherUpper : List (Nat × Nat) :=
  [(0x2160, 0x216F), (0x24B6, 0x24CF), (0x1F130, 0x1F149), (0x1F150, 0x1F169),
   (0x1F170, 0x1F189)]

def categoryNamed? (name : String) : Option CharSet :=
  let short := categoryNames.find? fun n => plainName n.2.toList == name
  match categoryNames.lookup name, short with
  | some code, _ => some (categorySet code)
  | none, some n => some (categorySet n.2)
  | none, none =>
    match name with
    | "any" => some .any
    | "assigned" => some (categorySet "Cn").compl
    | "ascii" => some ⟨[(0, 127)]⟩
    | _ => none

def scriptNamed? (name : String) : Option CharSet :=
  let short := scriptNames.find? fun n => plainName n.2.toList == name
  match scriptNames.lookup name, short with
  | some code, _ => some (scriptSet code)
  | none, some n => some (scriptSet n.2)
  | none, none => none

def binaryNamed? (name : String) : Option CharSet :=
  match name with
  | "whitespace" | "wspace" | "space" => some spaceSet
  | "uppercase" | "upper" => some ((categorySet "Lu").union (.ofRanges otherUpper))
  | "lowercase" | "lower" => some ((categorySet "Ll").union (.ofRanges otherLower))
  | _ => none

/-- The set a property stands for: a name alone, or a kind of property and a value. -/
def propertySet? (text : List Char) : Option CharSet :=
  let valueOf (kind value : List Char) : Option CharSet :=
    match plainName kind with
    | "gc" | "generalcategory" => categoryNamed? (plainName value)
    | "sc" | "script" => scriptNamed? (plainName value)
    | _ => none
  match text.span fun c => c != '=' && c != ':' && c != '!' with
  | (kind, '!' :: '=' :: value) => (valueOf kind value).map CharSet.compl
  | (kind, '=' :: value) => valueOf kind value
  | (kind, ':' :: value) => valueOf kind value
  | (name, []) =>
    let name := plainName name
    ((binaryNamed? name).orElse fun _ => categoryNamed? name).orElse fun _ => scriptNamed? name
  | _ => none

end StackProfile.Pattern

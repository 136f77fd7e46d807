import StackProfile.Saturate

/-!
# JSON values

Integers are kept apart from other numbers. The members of an object that was read or
built key by key are sorted by key.
-/

namespace StackProfile

/-- A JSON value. Integers lie between `-2 ^ 63` and `2 ^ 64 - 1`. -/
inductive Json where
  | null
  | bool (b : Bool)
  | int (n : Int)
  | float (x : Float)
  | str (s : String)
  | arr (items : List Json)
  | obj (members : List (String × Json))

namespace Json

instance : Inhabited Json := ⟨null⟩

mutual

/-- Equal structure. An integer and another number differ even if they are equal in
value. -/
def same : Json → Json → Bool
  | null, null => true
  | bool a, bool b => a == b
  | int a, int b => a == b
  | float a, float b => a == b
  | str a, str b => a == b
  | arr a, arr b => sameItems a b
  | obj a, obj b => sameMembers a b
  | _, _ => false

def sameItems : List Json → List Json → Bool
  | [], [] => true
  | a :: as, b :: bs => same a b && sameItems as bs
  | _, _ => false

def sameMembers : List (String × Json) → List (String × Json) → Bool
  | [], [] => true
  | (k, a) :: as, (l, b) :: bs => k == l && same a b && sameMembers as bs
  | _, _ => false

end

instance : BEq Json := ⟨same⟩

def asString? : Json → Option String
  | str s => some s
  | _ => none

def asItems? : Json → Option (List Json)
  | arr items => some items
  | _ => none

def asMembers? : Json → Option (List (String × Json))
  | obj members => some members
  | _ => none

/-- An integer in the 64-bit range. -/
def asInt? : Json → Option Int
  | int n => if minTime ≤ n ∧ n ≤ maxTime then some n else none
  | _ => none

/-- An integer that is not negative. -/
def asNat? : Json → Option Nat
  | int n => if 0 ≤ n then some n.toNat else none
  | _ => none

end Json

/-- A sorted list of keys with values, with another value for one key. -/
def setKey {β : Type} (key : String) (value : β) : List (String × β) → List (String × β)
  | [] => [(key, value)]
  | (k, v) :: rest =>
    if key < k then (key, value) :: (k, v) :: rest
    else if key = k then (key, value) :: rest
    else (k, v) :: setKey key value rest

end StackProfile

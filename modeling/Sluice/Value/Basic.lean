import Sluice.Keyed
import Sluice.Number.Basic

/-!
# Values

The values of the language are those of JSON and one more: `missing` stands for a key or an
index that does not exist, and is never the same as an explicit `null`.
-/
namespace Sluice

/-- A value. Objects keep the order of their entries. -/
inductive Value where
  | null
  | bool (b : Bool)
  | number (x : Number)
  | string (s : String)
  | array (items : List Value)
  | object (entries : List (String × Value))
  | missing

instance : Inhabited Value := ⟨.missing⟩

namespace Value

/-- The number that stands for a failed coercion. -/
def nan : Value :=
  .number .nan

/-- The number of things in a list. -/
def ofCount (n : Nat) : Value :=
  .number (Float.ofNat n)

def isMissing : Value → Bool
  | .missing => true
  | _ => false

def isNull : Value → Bool
  | .null => true
  | _ => false

/-- Null and missing are the two ways to be absent. -/
def isAbsent : Value → Bool
  | .null | .missing => true
  | _ => false

def isNaN : Value → Bool
  | .number x => x.isNaN
  | _ => false

/-- The name of the kind of a value. -/
def typeName : Value → String
  | .null => "null"
  | .bool _ => "boolean"
  | .number _ => "number"
  | .string _ => "string"
  | .array _ => "array"
  | .object _ => "object"
  | .missing => "missing"

def float? : Value → Option Number
  | .number x => some x
  | _ => none

def string? : Value → Option String
  | .string s => some s
  | _ => none

def array? : Value → Option (List Value)
  | .array items => some items
  | _ => none

def object? : Value → Option (Keyed Value)
  | .object entries => some entries
  | _ => none

/-- The entry of an object. -/
def get? (v : Value) (key : String) : Option Value :=
  v.object?.bind fun entries => entries.get? key

/-- The entry of an object, missing where there is none. -/
def property (v : Value) (name : String) : Value :=
  (v.get? name).getD .missing

/-- False, zero, not-a-number, the empty string, null and missing do not hold; all else
does, empty lists and objects too. -/
def isTruthy : Value → Bool
  | .null | .missing => false
  | .bool b => b
  | .number x => x != 0 && !x.isNaN
  | .string s => !s.isEmpty
  | .array _ | .object _ => true

mutual

/-- The names of every object inside the value are distinct. -/
def WellFormed : Value → Prop
  | .array items => allWellFormed items
  | .object entries => (Keyed.keys entries).Nodup ∧ entriesWellFormed entries
  | _ => True

def allWellFormed : List Value → Prop
  | [] => True
  | v :: rest => v.WellFormed ∧ allWellFormed rest

def entriesWellFormed : List (String × Value) → Prop
  | [] => True
  | (_, v) :: rest => v.WellFormed ∧ entriesWellFormed rest

end

mutual

/-- Structural identity: no coercion, a list in its order, an object whatever the order of
its entries. Not-a-number is not identical to itself. -/
def same : Value → Value → Bool
  | .null, .null => true
  | .missing, .missing => true
  | .bool a, .bool b => a == b
  | .number x, .number y => x == y
  | .string s, .string t => s == t
  | .array xs, .array ys => sameItems xs ys
  | .object xs, .object ys => xs.length == ys.length && sameEntries xs ys
  | _, _ => false

def sameItems : List Value → List Value → Bool
  | [], [] => true
  | x :: xs, y :: ys => x.same y && sameItems xs ys
  | _, _ => false

/-- Every entry of the first table has an identical one in the second. -/
def sameEntries : List (String × Value) → List (String × Value) → Bool
  | [], _ => true
  | (k, v) :: rest, ys =>
      (match Keyed.get? ys k with
        | some w => v.same w
        | none => false) && sameEntries rest ys

end

instance : BEq Value := ⟨same⟩

end Value

end Sluice

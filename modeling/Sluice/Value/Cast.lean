import Sluice.Value.Coercion

/-!
# Casts

A cast gives the value of a wanted kind that another one stands for, or a fallback where
there is none. A fallback that is missing is null.
-/
namespace Sluice.Value

def orNull : Value → Value
  | .missing => .null
  | v => v

/-- Numbers, booleans and text that looks like a finite number, without their fraction. -/
def toInt (v fallback : Value) : Value :=
  match v.toNumber? with
  | some x => if x.isFinite then .number (Number.trunc x) else fallback.orNull
  | none => fallback.orNull

/-- Numbers as they are, booleans, and text that looks like a finite number. -/
def toFloat (v fallback : Value) : Value :=
  match v with
  | .number x => .number x
  | .bool b => .number (if b then 1 else 0)
  | .string s =>
      match Number.read? s with
      | some x => if x.isFinite then .number x else fallback.orNull
      | none => fallback.orNull
  | _ => fallback.orNull

/-- The text of everything that is not absent. -/
def toStringValue (v fallback : Value) : Value :=
  if v.isAbsent then fallback.orNull else .string v.toText

/-- Numbers other than zero and not-a-number hold, and so does text other than `false`, `0`
and the empty text. -/
def toBool (v fallback : Value) : Value :=
  match v with
  | .bool b => .bool b
  | .number x => .bool (x != 0 && !x.isNaN)
  | .string s =>
      let word := Text.asciiLower (Text.trim s.toList)
      .bool !(word == "false".toList || word == "0".toList || word.isEmpty)
  | _ => fallback.orNull

end Sluice.Value

import Sluice.Json.Basic
import Sluice.Decimal.Reading

/-!
# Reading JSON

The grammar of RFC 8259 and no more: no leading zeros or plus signs, no trailing commas, no
lone surrogates, no bare control characters in strings, and nothing but blanks after the
document. Lists and objects nest at most `depthLimit` deep, and a number past the largest
`Float` is refused. A reading step gives what it read and the rest, which is shorter.
-/
namespace Sluice.Json

open Sluice.Text Sluice.Decimal

/-- How deep lists and objects may nest. -/
def depthLimit : Nat := 127

/-- The blanks of JSON. -/
def isSpace (c : Char) : Bool :=
  c == ' ' || c == '\n' || c == '\r' || c == '\t'

def skipSpace (cs : List Char) : List Char :=
  cs.dropWhile isSpace

theorem length_skipSpace_le (cs : List Char) : (skipSpace cs).length ≤ cs.length :=
  (List.dropWhile_suffix isSpace).length_le

theorem length_lt_of_skipSpace {c : Char} {cs rest : List Char} (h : skipSpace cs = c :: rest) :
    rest.length < cs.length := by
  have hle := length_skipSpace_le cs
  rw [h, List.length_cons] at hle
  exact hle

/-- What a step read, and a rest that is shorter than the text it started on. -/
structure Step (α : Type) (cs : List Char) where
  value : α
  rest : List Char
  shorter : rest.length < cs.length

/-- The value of a hexadecimal digit. -/
def hexValue (c : Char) : Option Nat :=
  if '0' ≤ c ∧ c ≤ '9' then some (c.toNat - '0'.toNat)
  else if 'a' ≤ c ∧ c ≤ 'f' then some (c.toNat - 'a'.toNat + 10)
  else if 'A' ≤ c ∧ c ≤ 'F' then some (c.toNat - 'A'.toNat + 10)
  else none

/-- The code unit written by four hexadecimal digits. -/
def hexUnit (a b c d : Char) : Option Nat := do
  return ((← hexValue a) * 16 + (← hexValue b)) * 256 + ((← hexValue c) * 16 + (← hexValue d))

/-- The character of a simple escape. -/
def simpleEscape : Char → Option Char
  | '"' => some '"'
  | '\\' => some '\\'
  | '/' => some '/'
  | 'b' => some '\x08'
  | 'f' => some '\x0c'
  | 'n' => some '\n'
  | 'r' => some '\r'
  | 't' => some '\t'
  | _ => none

/-- The character of a surrogate pair. -/
def joinSurrogates (high low : Nat) : Option Char :=
  if 0xdc00 ≤ low ∧ low < 0xe000 then
    some (Char.ofNat (0x10000 + (high - 0xd800) * 0x400 + (low - 0xdc00)))
  else none

/-- Reads the characters of a string up to its closing quote. -/
def readChars : List Char → Option (List Char × List Char)
  | [] => none
  | '"' :: rest => some ([], rest)
  | '\\' :: 'u' :: a :: b :: c :: d :: rest => do
      let unit ← hexUnit a b c d
      if 0xdc00 ≤ unit ∧ unit < 0xe000 then none
      else if 0xd800 ≤ unit ∧ unit < 0xdc00 then
        match rest with
        | '\\' :: 'u' :: e :: f :: g :: h :: rest => do
            let ch ← joinSurrogates unit (← hexUnit e f g h)
            let (s, rest) ← readChars rest
            return (ch :: s, rest)
        | _ => none
      else do
        let (s, rest) ← readChars rest
        return (Char.ofNat unit :: s, rest)
  | '\\' :: e :: rest => do
      let ch ← simpleEscape e
      let (s, rest) ← readChars rest
      return (ch :: s, rest)
  | c :: rest =>
      if c = '\\' ∨ c.toNat < 32 then none
      else do
        let (s, rest) ← readChars rest
        return (c :: s, rest)

/-- The digits of the part before the point: a zero alone, or no zero in front. -/
def readWhole : List Char → Option (List Char × List Char)
  | '0' :: rest => some (['0'], rest)
  | cs =>
      let digits := cs.takeWhile isAsciiDigit
      if digits.isEmpty then none else some (digits, cs.dropWhile isAsciiDigit)

/-- The digits after a point, if there is one. -/
def readFraction : List Char → Option (List Char × List Char)
  | '.' :: rest =>
      let digits := rest.takeWhile isAsciiDigit
      if digits.isEmpty then none else some (digits, rest.dropWhile isAsciiDigit)
  | cs => some ([], cs)

/-- The exponent, if there is one, with whether there is. -/
def readPower (cs : List Char) : Option (Option Int × List Char) :=
  match cs with
  | c :: rest =>
      if c = 'e' ∨ c = 'E' then
        let (negative, body) := signed rest
        let digits := body.takeWhile isAsciiDigit
        if digits.isEmpty then none
        else
          let n : Int := digitsValue digits
          some (some (if negative then -n else n), body.dropWhile isAsciiDigit)
      else some (none, cs)
  | [] => some (none, [])

/-- Integers are kept as such while they fit 64 bits, with or without a sign; minus zero and
all other numbers are floating-point. -/
def numberOf (negative : Bool) (whole fraction : List Char) (power : Option Int) : Option Json :=
  let n := digitsValue whole
  if fraction.isEmpty ∧ power.isNone ∧ !negative ∧ n < Nat.pow 2 64 then some (.int n)
  else if fraction.isEmpty ∧ power.isNone ∧ negative ∧ 0 < n ∧ n ≤ Nat.pow 2 63 then some (.int (-n))
  else
    let x := (Numeral.mk whole fraction (power.getD 0)).value
    if x.isInf then none else some (.float (if negative then -x else x))

/-- Reads a number. -/
def readNumber (cs : List Char) : Option (Json × List Char) := do
  let (negative, body) := match cs with
    | '-' :: rest => (true, rest)
    | _ => (false, cs)
  let (whole, rest) ← readWhole body
  let (fraction, rest) ← readFraction rest
  let (power, rest) ← readPower rest
  let j ← numberOf negative whole fraction power
  return (j, rest)

/-- Reads one of the three words. -/
def readWord (cs : List Char) : Option (Json × List Char) :=
  match cs with
  | 'n' :: 'u' :: 'l' :: 'l' :: rest => some (.null, rest)
  | 't' :: 'r' :: 'u' :: 'e' :: rest => some (.bool true, rest)
  | 'f' :: 'a' :: 'l' :: 's' :: 'e' :: rest => some (.bool false, rest)
  | _ => none

/-- A step that is known to be shorter only when it is looked at. -/
def checked {α : Type} (cs : List Char) : Option (α × List Char) → Option (Step α cs)
  | some (a, rest) => if h : rest.length < cs.length then some ⟨a, rest, h⟩ else none
  | none => none

mutual

/-- Reads a document after its leading blanks; lists and objects may nest `depth` deep. -/
def readValue (depth : Nat) (cs : List Char) : Option (Step Json cs) :=
  match cs with
  | [] => none
  | '"' :: rest => checked _ ((readChars rest).map fun (s, rest) => (.string (String.ofList s), rest))
  | '[' :: rest =>
      match depth with
      | 0 => none
      | depth + 1 =>
          match h : skipSpace rest with
          | ']' :: rest' =>
              some ⟨.array [], rest', Nat.lt_succ_of_lt (length_lt_of_skipSpace h)⟩
          | _ =>
              (readItems depth (skipSpace rest)).map fun s =>
                ⟨.array s.value, s.rest, by
                  have := s.shorter; have := length_skipSpace_le rest
                  simp only [List.length_cons]; omega⟩
  | '\x7b' :: rest =>
      match depth with
      | 0 => none
      | depth + 1 =>
          match h : skipSpace rest with
          | '\x7d' :: rest' =>
              some ⟨.object [], rest', Nat.lt_succ_of_lt (length_lt_of_skipSpace h)⟩
          | _ =>
              (readMembers depth (skipSpace rest)).map fun s =>
                ⟨.object s.value, s.rest, by
                  have := s.shorter; have := length_skipSpace_le rest
                  simp only [List.length_cons]; omega⟩
  | c :: rest =>
      if c = '-' ∨ isAsciiDigit c then checked _ (readNumber (c :: rest))
      else checked _ (readWord (c :: rest))
termination_by 2 * cs.length
decreasing_by
  all_goals
    have := length_skipSpace_le rest
    simp only [List.length_cons]
    omega

/-- Reads the items of a list, at least one, and its closing bracket. -/
def readItems (depth : Nat) (cs : List Char) : Option (Step (List Json) cs) :=
  match readValue depth cs with
  | none => none
  | some first =>
      match h : skipSpace first.rest with
      | ']' :: rest =>
          some ⟨[first.value], rest, Nat.lt_trans (length_lt_of_skipSpace h) first.shorter⟩
      | ',' :: rest =>
          have hlt : (skipSpace rest).length < cs.length := by
            have := first.shorter; have := length_lt_of_skipSpace h
            have := length_skipSpace_le rest
            omega
          (readItems depth (skipSpace rest)).map fun s =>
            ⟨first.value :: s.value, s.rest, Nat.lt_trans s.shorter hlt⟩
      | _ => none
termination_by 2 * cs.length + 1
decreasing_by all_goals omega

/-- Reads the members of an object, at least one, and its closing brace. -/
def readMembers (depth : Nat) (cs : List Char) : Option (Step (List (String × Json)) cs) :=
  match cs with
  | '"' :: rest =>
      match checked rest (readChars rest) with
      | none => none
      | some key =>
          match h : skipSpace key.rest with
          | ':' :: rest' =>
              have hlt : (skipSpace rest').length < rest.length := by
                have := key.shorter; have := length_lt_of_skipSpace h
                have := length_skipSpace_le rest'
                omega
              match readValue depth (skipSpace rest') with
              | none => none
              | some first =>
                  let entry := (String.ofList key.value, first.value)
                  match h' : skipSpace first.rest with
                  | '\x7d' :: rest'' =>
                      some ⟨[entry], rest'', by
                        have := first.shorter; have := length_lt_of_skipSpace h'
                        simp only [List.length_cons]; omega⟩
                  | ',' :: rest'' =>
                      have hlt' : (skipSpace rest'').length < ('"' :: rest).length := by
                        have := first.shorter; have := length_lt_of_skipSpace h'
                        have := length_skipSpace_le rest''
                        simp only [List.length_cons]; omega
                      (readMembers depth (skipSpace rest'')).map fun s =>
                        ⟨entry :: s.value, s.rest, Nat.lt_trans s.shorter hlt'⟩
                  | _ => none
          | _ => none
  | _ => none
termination_by 2 * cs.length + 1
decreasing_by all_goals (simp only [List.length_cons] at *; omega)

end

/-- Reads a text that holds one document and blanks around it. -/
def read? (text : String) : Option Json :=
  match readValue depthLimit (skipSpace text.toList) with
  | some s => if (skipSpace s.rest).isEmpty then some s.value else none
  | none => none

end Sluice.Json

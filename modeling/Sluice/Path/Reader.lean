import Sluice.Path.Step
import Sluice.ParseError

/-!
# Reading paths

A path text is cut into steps. A dollar sign at the start is the root. Outside brackets a
point ends a word, which names a property. What stands in brackets is a wildcard, a quoted
key, a slice, a number or a bare key.
-/
namespace Sluice.Path

open Sluice.Text

/-- The greatest number that an index can be. -/
def maxIndex : Nat := Nat.pow 2 64 - 1

/-- A bound of a slice: an integer of 64 bits with a sign, or nothing. -/
def sliceBound (cs : List Char) : Except PathFault (Option Int) :=
  let cs := trim cs
  if cs.isEmpty then .ok none
  else match readInt cs with
    | some n =>
        if -(Nat.pow 2 63) ≤ n ∧ n < Nat.pow 2 63 then .ok (some n)
        else .error (.sliceBound (String.ofList cs))
    | none => .error (.sliceBound (String.ofList cs))

/-- The step that a bracketed text stands for. -/
def classify (inner : List Char) : Except PathFault Step :=
  let inner := trim inner
  if inner.isEmpty then .error .emptyBrackets
  else if inner = ['*'] then .ok .wildcard
  else
    let key := stripQuotes inner
    if key.length ≠ inner.length then .ok (.key (String.ofList key))
    else match cutAt ':' inner with
      | some (start, stop) =>
          match sliceBound start with
          | .error e => .error e
          | .ok start =>
              match sliceBound stop with
              | .error e => .error e
              | .ok stop => .ok (.slice (start.getD 0) stop)
      | none =>
          if inner.all isAsciiDigit then
            if digitsValue inner ≤ maxIndex then .ok (.index (digitsValue inner))
            else .error .indexOutOfRange
          else .ok (.key (String.ofList inner))

/-- The text up to the bracket that closes, and the text after it. Quotes shield brackets. -/
def readBracket (quote : Option Char) : List Char → Option (List Char × List Char)
  | [] => none
  | c :: rest =>
      match quote with
      | some q => (readBracket (if c = q then none else some q) rest).map (cons c)
      | none =>
          if c = ']' then some ([], rest)
          else (readBracket (if isQuote c then some c else none) rest).map (cons c)
where
  cons (c : Char) (p : List Char × List Char) : List Char × List Char := (c :: p.1, p.2)

theorem length_readBracket_lt {quote : Option Char} {cs inner rest : List Char}
    (h : readBracket quote cs = some (inner, rest)) : rest.length < cs.length := by
  induction cs generalizing quote inner with
  | nil => simp [readBracket] at h
  | cons c cs ih =>
      simp only [readBracket] at h
      split at h
      · obtain ⟨p, hp, he⟩ := Option.map_eq_some_iff.1 h
        cases he
        exact Nat.lt_succ_of_lt (ih hp)
      · split at h
        · cases h; simp
        · obtain ⟨p, hp, he⟩ := Option.map_eq_some_iff.1 h
          cases he
          exact Nat.lt_succ_of_lt (ih hp)

/-- The step of a word between points: a star is a wildcard, and no word is no step. -/
def wordSteps (word : List Char) : List Step :=
  let name := trim word
  if name = ['*'] then [.wildcard]
  else if name.isEmpty then []
  else [.property (String.ofList name)]

/-- The steps of the rest of a path, where `word` is the word that has begun. -/
def stepsFrom (word : List Char) (cs : List Char) : Except PathFault (List Step) :=
  match cs with
  | [] => .ok (wordSteps word)
  | c :: rest =>
      if c = '.' then
        match stepsFrom [] rest with
        | .error e => .error e
        | .ok steps => .ok (wordSteps word ++ steps)
      else if c = '[' then
        match h : readBracket none rest with
        | none => .error .unterminatedBracket
        | some (inner, rest') =>
            match classify inner with
            | .error e => .error e
            | .ok step =>
                have := length_readBracket_lt h
                match stepsFrom [] rest' with
                | .error e => .error e
                | .ok steps => .ok (wordSteps word ++ step :: steps)
      else if c = ']' then .error .unmatchedBracket
      else stepsFrom (word ++ [c]) rest
termination_by cs.length
decreasing_by all_goals (simp only [List.length_cons]; omega)

/-- The steps of a trimmed path. -/
def stepsOf : List Char → Except PathFault (List Step)
  | '$' :: rest => (stepsFrom [] rest).map (Step.root :: ·)
  | cs => stepsFrom [] cs

/-- Reads a path, blanks at its ends aside. -/
def ofText (text : String) : Except ParseError Path :=
  let cs := trim text.toList
  match stepsOf cs with
  | .ok steps => .ok ⟨String.ofList cs, steps⟩
  | .error e => .error (.invalidPath (String.ofList cs) e)

end Sluice.Path

import Sluice.Text.Blank
import Sluice.Text.Casing
import Sluice.Text.Word

/-!
# Patterns

A pattern matches stretches of a text. Whether a quantifier is greedy or lazy does not
matter to whether there is a match, so patterns do not record it. The size of a pattern is
an estimate of what its automaton takes up, to be compared with a budget: an approximation,
which is not to be relied on near the budget.
-/
namespace Sluice

/-- A set of characters. -/
inductive CharSet where
  /-- The characters between two; whatever their case, if so told. -/
  | range (lo hi : Char) (anyCase : Bool)
  | word
  | decimal
  | blank
  | none
  | compl (s : CharSet)
  | union (s t : CharSet)
  | inter (s t : CharSet)

namespace CharSet

open Sluice.Text

def single (c : Char) (anyCase : Bool) : CharSet :=
  range c c anyCase

def diff (s t : CharSet) : CharSet :=
  inter s (compl t)

def symmDiff (s t : CharSet) : CharSet :=
  union (diff s t) (diff t s)

def mem : CharSet → Char → Bool
  | range lo hi anyCase, c =>
      (lo ≤ c && c ≤ hi) || (anyCase && (caseVariants c).any fun d => lo ≤ d && d ≤ hi)
  | word, c => isWord c
  | decimal, c => isDecimal c
  | blank, c => isBlank c
  | none, _ => false
  | compl s, c => !s.mem c
  | union s t, c => s.mem c || t.mem c
  | inter s t, c => s.mem c && t.mem c

/-- Every character but the line feed. -/
def notNewline : CharSet :=
  compl (single '\n' false)

/-- Every character. -/
def all : CharSet :=
  compl none

/-- The estimated size of an automaton for one character of the set. -/
def size : CharSet → Nat
  | range _ hi anyCase => if hi.toNat < 128 && !anyCase then 40 else 160
  | word => 8000
  | decimal => 2000
  | blank => 500
  | none => 40
  | compl s => s.size + 400
  | union s t => s.size + t.size
  | inter s t => s.size + t.size

end CharSet

/-- A condition on the characters before and after a place in a text. -/
inductive Look where
  | textStart
  | textEnd
  | lineStart
  | lineEnd
  | wordBoundary
  | notWordBoundary
  | wordStart
  | wordEnd
  deriving DecidableEq, Repr

/-- The condition holds between two characters, or at an end of the text. -/
def Look.holds (look : Look) (before after : Option Char) : Bool :=
  let left := before.any Text.isWord
  let right := after.any Text.isWord
  match look with
  | textStart => before.isNone
  | textEnd => after.isNone
  | lineStart => before.all (· == '\n')
  | lineEnd => after.all (· == '\n')
  | wordBoundary => left != right
  | notWordBoundary => left == right
  | wordStart => !left && right
  | wordEnd => left && !right

/-- A pattern. -/
inductive Pattern where
  | empty
  | set (s : CharSet)
  | look (l : Look)
  | seq (p q : Pattern)
  | alt (p q : Pattern)
  /-- At least so many times, and at most so many if there is a bound. -/
  | times (p : Pattern) (least : Nat) (most : Option Nat)

namespace Pattern

/-- The estimated size of an automaton for the pattern. -/
def size : Pattern → Nat
  | empty => 8
  | set s => s.size
  | look _ => 40
  | seq p q => p.size + q.size
  | alt p q => p.size + q.size + 40
  | times p least most => (p.size + 40) * max 1 (most.getD least)

end Pattern

end Sluice

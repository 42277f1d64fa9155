import Sluice.Pattern.Basic

/-!
# Matching

The places of a text are numbered from its start to its end. A set of places is a number
whose bits are its members, and a pattern takes a set of places to the set of those where a
match that began in it can end. All matches are followed at once, so none is tried twice.
-/
namespace Sluice.Pattern

/-- The places at which a condition on the characters around holds. -/
def placesWhere (p : Option Char → Option Char → Bool) (before : Option Char) :
    List Char → Nat
  | [] => if p before none then 1 else 0
  | c :: rest =>
      (if p before (some c) then 1 else 0) + 2 * placesWhere p (some c) rest

/-- Repeats a step on sets of places until nothing changes, at most so many times. -/
def iterate (step : Nat → Nat) : Nat → Nat → Nat
  | 0, s => s
  | n + 1, s =>
      let s' := step s
      if s' = s then s else iterate step n s'

/-- The places where matches end that begin in a set of places. -/
def run (text : List Char) : Pattern → Nat → Nat
  | empty, s => s
  | set cs, s => (s &&& placesWhere (fun _ after => after.any cs.mem) none text) <<< 1
  | look l, s => s &&& placesWhere l.holds none text
  | seq p q, s => run text q (run text p s)
  | alt p q, s => run text p s ||| run text q s
  | times p least most, s =>
      let more := match most with
        | some n => min (n - least) (text.length + 1)
        | none => text.length + 1
      iterate (fun t => t ||| run text p t) more (iterate (run text p) least s)

/-- A match begins somewhere in the text. -/
def matchesIn (p : Pattern) (text : List Char) : Bool :=
  run text p (Nat.pow 2 (text.length + 1) - 1) != 0

end Sluice.Pattern

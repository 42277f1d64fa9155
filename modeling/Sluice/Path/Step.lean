import Sluice.Text.Basic

/-!
# Paths

A path is a list of steps, applied from left to right to a running value, and the text it
was read from. Each step has a text of its own, in which a key stands between single quotes.
-/
namespace Sluice

/-- A step of a path. -/
inductive Path.Step where
  /-- The value that the path starts from. -/
  | root
  /-- A property of an object. -/
  | property (name : String)
  /-- An item of a list, or an entry of an object named by a number. -/
  | index (n : Nat)
  /-- An entry of an object, or an item of a list by its number. -/
  | key (name : String)
  /-- All items of a list, or all entries of an object. -/
  | wildcard
  /-- The items from one bound up to another. A negative bound counts from the end. -/
  | slice (start : Int) (stop : Option Int)
  deriving DecidableEq, Repr

/-- A path that has been read. -/
structure Path where
  source : String
  steps : List Path.Step
  deriving DecidableEq, Repr

namespace Path

open Sluice.Text

def Step.isProperty : Step → Bool
  | property _ => true
  | _ => false

/-- The text of a step. -/
def Step.chars : Step → List Char
  | root => ['$']
  | property name => '.' :: name.toList
  | index n => '[' :: (natDigits n ++ [']'])
  | key name => '[' :: '\'' :: (name.toList ++ ['\'', ']'])
  | wildcard => ['[', '*', ']']
  | slice start none => '[' :: (intDigits start ++ [':', ']'])
  | slice start (some stop) => '[' :: (intDigits start ++ ':' :: (intDigits stop ++ [']']))

/-- The texts of the steps, joined. -/
def display (steps : List Step) : String :=
  String.ofList (steps.flatMap Step.chars)

end Path

end Sluice

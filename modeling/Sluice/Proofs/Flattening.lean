import Mathlib.Data.List.Basic
import Sluice.Function.Stage

/-!
# Flattening

To flatten a list is to put the items of the lists inside of it in their places, down to a
depth. One depth after another is their sum, what is joined is flattened piece by piece, and no
value that is not a list is lost or moved. The lists inside of lists lose as many levels as the
depth says, so none is left exactly if the depth is at least the nesting of the list.
-/
namespace Sluice

namespace Value

mutual

/-- The values in a list that are no lists, at any depth and from left to right. A value that is
no list is its own leaf. -/
def leaves : Value → List Value
  | .array items => leavesOf items
  | v => [v]

def leavesOf : List Value → List Value
  | [] => []
  | v :: rest => v.leaves ++ leavesOf rest

end

mutual

/-- How many lists are inside of one another, at most. -/
def nesting : Value → Nat
  | .array items => nestingOf items + 1
  | _ => 0

/-- The same inside of a list, which is not counted itself. -/
def nestingOf : List Value → Nat
  | [] => 0
  | v :: rest => max v.nesting (nestingOf rest)

end

variable {v : Value} {xs : List Value}

theorem nesting_eq_zero_iff : v.nesting = 0 ↔ v.array? = none := by
  cases v <;> simp [nesting, array?]

theorem leavesOf_append (xs ys : List Value) :
    leavesOf (xs ++ ys) = leavesOf xs ++ leavesOf ys := by
  induction xs with
  | nil => rw [leavesOf, List.nil_append, List.nil_append]
  | cons v xs ih => rw [List.cons_append, leavesOf, leavesOf, ih, List.append_assoc]

theorem nestingOf_append (xs ys : List Value) :
    nestingOf (xs ++ ys) = max (nestingOf xs) (nestingOf ys) := by
  induction xs with
  | nil => simp [nestingOf]
  | cons v xs ih => rw [List.cons_append, nestingOf, nestingOf, ih, Nat.max_assoc]

/-- Nothing is nested in a list without lists. -/
theorem nestingOf_eq_zero_iff : nestingOf xs = 0 ↔ ∀ v ∈ xs, v.array? = none := by
  induction xs with
  | nil => simp [nestingOf]
  | cons v xs ih =>
      rw [nestingOf, Nat.max_eq_zero_iff, ih, nesting_eq_zero_iff, List.forall_mem_cons]

end Value

namespace Items

open Value

/-! ## One item after the other -/

@[simp] theorem flatten_zero (xs : List Value) : flatten 0 xs = xs := rfl

@[simp] theorem flatten_nil (depth : Nat) : flatten depth [] = [] := by
  cases depth <;> rfl

theorem flatten_cons_array (depth : Nat) (inner rest : List Value) :
    flatten (depth + 1) (.array inner :: rest) = flatten depth inner ++ flatten (depth + 1) rest :=
  rfl

theorem flatten_cons_of_not_array {v : Value} (h : v.array? = none) (depth : Nat)
    (rest : List Value) : flatten depth (v :: rest) = v :: flatten depth rest := by
  cases depth with
  | zero => rfl
  | succ depth =>
      cases v with
      | array items => cases h
      | _ => rfl

/-- Induction over what is flattened: the items of the list, and for each of them that is a list
what is inside of it, one level less deep. -/
@[elab_as_elim]
theorem flatten_inductionOn {motive : Nat → List Value → Prop} (zero : ∀ xs, motive 0 xs)
    (nil : ∀ depth, motive (depth + 1) [])
    (array : ∀ depth inner rest, motive depth inner → motive (depth + 1) rest →
      motive (depth + 1) (.array inner :: rest))
    (other : ∀ depth v rest, v.array? = none → motive (depth + 1) rest →
      motive (depth + 1) (v :: rest))
    (depth : Nat) (xs : List Value) : motive depth xs := by
  induction depth generalizing xs with
  | zero => exact zero xs
  | succ depth ihdepth =>
      induction xs with
      | nil => exact nil depth
      | cons v rest ihrest =>
          cases v with
          | array inner => exact array depth inner rest (ihdepth inner) ihrest
          | _ => exact other depth _ rest rfl ihrest

/-! ## What flattening does -/

theorem flatten_append (depth : Nat) (xs ys : List Value) :
    flatten depth (xs ++ ys) = flatten depth xs ++ flatten depth ys := by
  induction depth, xs using flatten_inductionOn with
  | zero xs => rfl
  | nil depth => rfl
  | array depth inner rest _ ih =>
      rw [List.cons_append, flatten_cons_array, flatten_cons_array, ih, List.append_assoc]
  | other depth v rest hv ih =>
      rw [List.cons_append, flatten_cons_of_not_array hv, flatten_cons_of_not_array hv, ih,
        List.cons_append]

theorem flatten_flatten (a b : Nat) (xs : List Value) :
    flatten b (flatten a xs) = flatten (a + b) xs := by
  induction a, xs using flatten_inductionOn with
  | zero xs => rw [flatten_zero, Nat.zero_add]
  | nil a => simp
  | array a inner rest ihinner ihrest =>
      have hdepth : a + 1 + b = a + b + 1 := Nat.add_right_comm a 1 b
      rw [flatten_cons_array, flatten_append, ihinner, ihrest, hdepth, flatten_cons_array]
  | other a v rest hv ih =>
      rw [flatten_cons_of_not_array hv, flatten_cons_of_not_array hv, ih,
        flatten_cons_of_not_array hv]

theorem leavesOf_flatten (depth : Nat) (xs : List Value) :
    leavesOf (flatten depth xs) = leavesOf xs := by
  induction depth, xs using flatten_inductionOn with
  | zero xs => rfl
  | nil depth => rfl
  | array depth inner rest ihinner ihrest =>
      rw [flatten_cons_array, leavesOf_append, ihinner, ihrest, leavesOf, leaves]
  | other depth v rest hv ih => rw [flatten_cons_of_not_array hv, leavesOf, leavesOf, ih]

theorem nestingOf_flatten (depth : Nat) (xs : List Value) :
    nestingOf (flatten depth xs) = nestingOf xs - depth := by
  induction depth, xs using flatten_inductionOn with
  | zero xs => rfl
  | nil depth => simp [nestingOf]
  | array depth inner rest ihinner ihrest =>
      rw [flatten_cons_array, nestingOf_append, ihinner, ihrest, nestingOf, nesting]
      omega
  | other depth v rest hv ih =>
      rw [flatten_cons_of_not_array hv, nestingOf, nestingOf, ih, nesting_eq_zero_iff.2 hv]
      omega

/-- No list is left exactly if the depth is at least the nesting. -/
theorem flatten_flat_iff (depth : Nat) (xs : List Value) :
    (∀ v ∈ flatten depth xs, v.array? = none) ↔ nestingOf xs ≤ depth := by
  rw [← nestingOf_eq_zero_iff, nestingOf_flatten, Nat.sub_eq_zero_iff_le]

end Items

/-- Flattening composes and loses nothing. Two flattenings, one after the other, are one by the
sum of their depths; lists that are joined are flattened one by one; the leaves are those of the
list, in their order; and no list is left exactly if the depth is at least the nesting of the
list. The stage flattens its list like this, down to the depth that its argument says. -/
theorem StageFunction.flatten_composes :
    (∀ a b xs, Items.flatten b (Items.flatten a xs) = Items.flatten (a + b) xs) ∧
    (∀ depth xs ys,
      Items.flatten depth (xs ++ ys) = Items.flatten depth xs ++ Items.flatten depth ys) ∧
    (∀ depth xs, Value.leavesOf (Items.flatten depth xs) = Value.leavesOf xs) ∧
    (∀ depth xs,
      (∀ v ∈ Items.flatten depth xs, v.array? = none) ↔ Value.nestingOf xs ≤ depth) ∧
    ∀ nested xs args, flatten.apply nested (.array xs) args =
      pure (.array (Items.flatten (flattenDepth (args.value 0)) xs)) :=
  ⟨Items.flatten_flatten, Items.flatten_append, Items.leavesOf_flatten, Items.flatten_flat_iff,
    fun _ _ _ => rfl⟩

/-- Lists of three levels beside each other, an empty one, and one in an object, which is a
leaf. -/
theorem StageFunction.flatten_composes_of_ragged :
    let deep := Value.array [.null, .array [], .array [.array [.missing]]]
    let entry := Value.object [("a", .array [.null])]
    let xs := [Value.bool true, deep, entry]
    Items.flatten 2 (Items.flatten 1 xs) = [.bool true, .null, .missing, entry] ∧
    (∀ v ∈ Items.flatten 3 xs, v.array? = none) ∧
    ¬ (∀ v ∈ Items.flatten 2 xs, v.array? = none) ∧
    Value.leavesOf (Items.flatten 1 xs) = [.bool true, .null, .missing, entry] := by
  intro deep entry xs
  obtain ⟨hcompose, -, hleaves, hflat, -⟩ := flatten_composes
  have hnesting : Value.nestingOf xs = 3 := by decide
  refine ⟨?_, (hflat 3 xs).2 ?_, mt (hflat 2 xs).1 ?_, ?_⟩
  · rw [hcompose]
    rfl
  · exact Nat.le_of_eq hnesting
  · rw [hnesting]
    decide
  · rw [hleaves]
    simp [xs, deep, entry, Value.leavesOf, Value.leaves]

end Sluice

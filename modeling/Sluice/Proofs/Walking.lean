import Sluice.Path.Follow

/-!
# Walking in parts

A walk looks one step ahead: a property after a list is read from every item of it. Taken from
left to right instead, a walk has to remember one thing besides the value, and that is how its
last step was done. With this memory it is a fold over the steps, so it can be cut anywhere: a
walk goes on from a cut as from the value alone, but where the step before the cut gave a list
and a property comes next.
-/
namespace Sluice.Path

/-- How the last step of a walk was done. -/
inductive Manner where
  /-- There was no step yet. -/
  | start
  /-- The step was applied to the value before it. -/
  | alone
  /-- The step is a property, read from every item of the list that the step before it gave. -/
  | itemwise
  /-- The step was left out, as nothing can be found in an absent value. -/
  | stopped
  deriving DecidableEq, Repr

/-- Where a walk has come to. -/
structure Stand where
  value : Value
  manner : Manner

namespace Stand

/-- Where a walk begins. -/
def start (v : Value) : Stand :=
  ⟨v, .start⟩

/-- One step further. -/
def advance (s : Stand) (step : Step) : Stand :=
  if s.value.isAbsent then ⟨.missing, .stopped⟩
  else
    match s.value, s.manner, step with
    | .array items, .alone, .property name =>
        ⟨.array (items.map fun item => item.property name), .itemwise⟩
    | v, _, step => ⟨step.apply v, .alone⟩

/-- Where a walk comes to by a list of steps. -/
def run (s : Stand) (steps : List Step) : Stand :=
  steps.foldl advance s

@[simp] theorem run_nil (s : Stand) : s.run [] = s := rfl

@[simp] theorem run_cons (s : Stand) (step : Step) (steps : List Step) :
    s.run (step :: steps) = (s.advance step).run steps := rfl

theorem run_append (s : Stand) (steps steps' : List Step) :
    s.run (steps ++ steps') = (s.run steps).run steps' :=
  List.foldl_append

/-- The last step gave a list, and a property comes next. -/
def GoesItemwise (s : Stand) (steps : List Step) : Prop :=
  s.manner = .alone ∧ (∃ items, s.value = .array items) ∧
    ∃ name rest, steps = .property name :: rest

variable {s : Stand} {steps : List Step}

theorem not_goesItemwise (h : s.manner ≠ .alone) : ¬ s.GoesItemwise steps :=
  fun hgoes => h hgoes.1

theorem advance_of_isAbsent (h : s.value.isAbsent = true) (step : Step) :
    s.advance step = ⟨.missing, .stopped⟩ := by
  unfold advance
  rw [if_pos h]

theorem advance_alone {step : Step} (habsent : ¬ s.value.isAbsent = true)
    (h : ¬ s.GoesItemwise (step :: steps)) : s.advance step = ⟨step.apply s.value, .alone⟩ := by
  unfold advance
  rw [if_neg habsent]
  split
  · next items name hvalue hmanner =>
      exact absurd ⟨hmanner, ⟨items, hvalue⟩, name, steps, rfl⟩ h
  · rfl

theorem run_of_isAbsent (h : s.value.isAbsent = true) (hne : steps ≠ []) :
    (s.run steps).value = .missing := by
  induction steps generalizing s with
  | nil => exact absurd rfl hne
  | cons step steps ih =>
      rw [run_cons, advance_of_isAbsent h]
      by_cases hsteps : steps = []
      · rw [hsteps, run_nil]
      · exact ih rfl hsteps

/-- Unless a property comes after a list, a walk goes on as from the value alone. -/
theorem run_of_not_goesItemwise (h : ¬ s.GoesItemwise steps) :
    (s.run steps).value = ((start s.value).run steps).value := by
  cases steps with
  | nil => rfl
  | cons step steps =>
      have hstart : ¬ (start s.value).GoesItemwise (step :: steps) := not_goesItemwise nofun
      by_cases habsent : s.value.isAbsent = true
      · rw [run_of_isAbsent habsent (List.cons_ne_nil _ _),
          run_of_isAbsent (s := start s.value) habsent (List.cons_ne_nil _ _)]
      · rw [run_cons, run_cons, advance_alone habsent h,
          advance_alone (s := start s.value) habsent hstart]
        rfl

theorem run_advance_itemwise (items : List Value) (name : String) (steps : List Step) :
    ((advance ⟨.array items, .alone⟩ (.property name)).run steps).value =
      ((start (.array (items.map fun item => item.property name))).run steps).value :=
  run_of_not_goesItemwise (not_goesItemwise nofun)

end Stand

/-- A walk is a fold over its steps that remembers how the last step was done. -/
theorem walk_eq_run (steps : List Step) (v : Value) :
    walk steps v = ((Stand.start v).run steps).value := by
  fun_induction walk steps v with
  | case1 v => rfl
  | case2 step rest v habsent =>
      rw [Stand.run_of_isAbsent (s := .start v) habsent (List.cons_ne_nil step rest)]
  | case3 step v habsent items name rest happly ih =>
      have hstart : ¬ (Stand.start v).GoesItemwise (step :: .property name :: rest) :=
        Stand.not_goesItemwise nofun
      rw [ih, Stand.run_cons, Stand.advance_alone (s := .start v) habsent hstart, Stand.run_cons]
      dsimp only [Stand.start]
      rw [happly, Stand.run_advance_itemwise]
      rfl
  | case4 step v habsent rest hahead ih =>
      have hstart : ¬ (Stand.start v).GoesItemwise (step :: rest) := Stand.not_goesItemwise nofun
      have halone : ¬ Stand.GoesItemwise ⟨step.apply v, .alone⟩ rest := by
        rintro ⟨-, ⟨items, hitems⟩, name, rest', hrest⟩
        exact hahead items name rest' hitems hrest
      rw [ih, Stand.run_cons, Stand.advance_alone (s := .start v) habsent hstart]
      exact (Stand.run_of_not_goesItemwise halone).symm

/-- A walk by two lists of steps is a walk by the first and from there a walk by the second,
unless the last step of the first was applied alone and gave a list, and the second begins with
a property. Then that property is read from every item of the list. -/
theorem walk_append (steps steps' : List Step) (v : Value) :
    ((steps = [] ∨ steps' = [] ∨ (∀ name rest, steps' ≠ .property name :: rest) ∨
        (∀ items, walk steps v ≠ .array items) ∨
        ((Stand.start v).run steps).manner = .itemwise) →
      walk (steps ++ steps') v = walk steps' (walk steps v)) ∧
    ∀ items name rest, (Stand.start v).run steps = ⟨.array items, .alone⟩ →
      steps' = .property name :: rest →
      walk (steps ++ steps') v = walk rest (.array (items.map fun item => item.property name)) := by
  constructor
  · intro h
    have hcut : ¬ ((Stand.start v).run steps).GoesItemwise steps' := by
      rintro ⟨hmanner, ⟨items, hvalue⟩, name, rest, rfl⟩
      rcases h with rfl | h | h | h | h
      · cases hmanner
      · cases h
      · exact h name rest rfl
      · exact h items (by rw [walk_eq_run, hvalue])
      · rw [hmanner] at h
        cases h
    rw [walk_eq_run, Stand.run_append, Stand.run_of_not_goesItemwise hcut, ← walk_eq_run,
      ← walk_eq_run]
  · intro items name rest hlast hrest
    rw [walk_eq_run, Stand.run_append, hlast, hrest, Stand.run_cons, Stand.run_advance_itemwise,
      ← walk_eq_run]

/-- A property of the items of a list, and after it a property of the list that this gives. -/
theorem walk_append_of_items :
    ((Stand.start (.array [.object [("id", .bool true)], .null])).run
        [.root, .property "id"]).manner = .itemwise ∧
      walk ([.root, .property "id"] ++ [.property "id"])
          (.array [.object [("id", .bool true)], .null]) =
        walk [.property "id"] (walk [.root, .property "id"]
          (.array [.object [("id", .bool true)], .null])) ∧
      (Stand.start (.array [.object [("id", .bool true)], .null])).run [.root] =
        ⟨.array [.object [("id", .bool true)], .null], .alone⟩ ∧
      walk ([.root] ++ [.property "id", .index 0])
          (.array [.object [("id", .bool true)], .null]) =
        walk [.index 0] (.array [.bool true, .missing]) := by
  have hlist := walk_append [.root, .property "id"] [.property "id"]
    (.array [.object [("id", .bool true)], .null])
  have hitems := walk_append [.root] [.property "id", .index 0]
    (.array [.object [("id", .bool true)], .null])
  exact ⟨rfl, hlist.1 (.inr (.inr (.inr (.inr rfl)))), rfl, hitems.2 _ "id" [.index 0] rfl rfl⟩

end Sluice.Path

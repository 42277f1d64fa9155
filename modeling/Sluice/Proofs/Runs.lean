import Sluice.Function.Stage

/-!
# Runs taken apart

A run that begins with another has a result exactly if the other one has, and the rest has
one from there on.
-/
namespace Sluice.Run

variable {α β : Type} {memo : PathMemo}

theorem bind_apply (x : Run α) (f : α → Run β) :
    (x >>= f) memo = (x memo).bind fun r => f r.1 r.2 := rfl

theorem bind_eq_some {x : Run α} {f : α → Run β} {r : β × PathMemo} :
    (x >>= f) memo = some r ↔ ∃ a memo', x memo = some (a, memo') ∧ f a memo' = some r := by
  rw [bind_apply, Option.bind_eq_some_iff]
  exact Prod.exists

theorem bind_eq_none {x : Run α} {f : α → Run β} (h : x memo = none) : (x >>= f) memo = none := by
  rw [bind_apply, h]
  rfl

theorem infallible_eq_none {x : Run α} (h : x memo = none) :
    (Run.infallible x).run memo = none :=
  bind_eq_none (f := fun a => pure (Except.ok a)) h

theorem infallible_bind_apply (x : Run α) (f : α → FallibleRun β) :
    (Run.infallible x >>= f).run memo = (x memo).bind fun r => (f r.1).run r.2 := by
  change ((x >>= fun a => pure (Except.ok a)) memo).bind _ = _
  rw [bind_apply]
  cases x memo <;> rfl

theorem andThen_eq_ok {x : FallibleRun α} {f : α → FallibleRun β} {b : β} {memo' : PathMemo}
    (h : (x >>= f).run memo = some (.ok b, memo')) :
    ∃ a memo₁, x.run memo = some (.ok a, memo₁) ∧ (f a).run memo₁ = some (.ok b, memo') := by
  obtain ⟨outcome, memo₁, hx, h⟩ := bind_eq_some (x := x.run).1 h
  cases outcome with
  | ok a => exact ⟨a, memo₁, hx, h⟩
  | error e => cases h

theorem length_of_mapM {f : α → Run β} {items : List α} {found : List β} {memo memo' : PathMemo}
    (h : items.mapM f memo = some (found, memo')) : found.length = items.length := by
  induction items generalizing found memo memo' with
  | nil =>
      cases h
      rfl
  | cons a items ih =>
      rw [List.mapM_cons] at h
      obtain ⟨b, memo₁, -, h⟩ := bind_eq_some.1 h
      obtain ⟨bs, memo₂, hbs, h⟩ := bind_eq_some.1 h
      cases h
      exact congrArg (· + 1) (ih hbs)

end Sluice.Run

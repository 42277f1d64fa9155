import Sluice.Proofs.StageCalls

/-!
# Operators called by name

The symbol of an operator is also the name of a builtin. Between two operands, a conjunction or a
disjunction that the left operand decides does not look at the right one; in a call both operands
are evaluated first. So the two forms have the same result, and the same failure, wherever the
right operand has a value, and for the other operators wherever they are written.
-/
namespace Sluice

/-! ## Outcomes -/

namespace Run

variable {α β : Type}

/-- What a run comes to, a value or a failure, whatever memo it leaves. -/
def outcome? (x : FallibleRun α) (memo : PathMemo) : Option (Except Failure α) :=
  (x.run memo).map Prod.fst

theorem outcome?_bind (x : FallibleRun α) (f : α → FallibleRun β) (memo : PathMemo) :
    outcome? (x >>= f) memo =
      match x.run memo with
      | none => none
      | some (.error e, _) => some (.error e)
      | some (.ok a, memo') => outcome? (f a) memo' := by
  change Option.map Prod.fst ((x.run >>= ExceptT.bindCont f) memo) = _
  rw [bind_apply]
  cases x.run memo with
  | none => rfl
  | some r =>
      obtain ⟨e | a, memo'⟩ := r
      · rfl
      · rfl

/-- Memos that hold nothing false do not show in what an inquiry comes to. -/
theorem IsInquiry.outcome?_eq {x : FallibleRun α} {memo memo' : PathMemo} (hx : IsInquiry x.run)
    (hmemo : memo.Sound) (hmemo' : memo'.Sound) : outcome? x memo = outcome? x memo' := by
  obtain ⟨t, ht⟩ := hx
  simp only [outcome?, ht, t.run_eq hmemo, t.run_eq hmemo', Option.map_map]
  rfl

theorem Gives.outcome?_eq {x : FallibleRun α} {a : α} {memo : PathMemo}
    (hx : Gives x.run (.ok a)) (hmemo : memo.Sound) : outcome? x memo = some (.ok a) := by
  obtain ⟨memo', -, hrun⟩ := hx memo hmemo
  rw [outcome?, hrun]
  rfl

end Run

open Run

/-! ## The two forms -/

namespace Operator

/-- The right operand is looked at only if the left one does not decide. -/
def IsLazy (op : Operator) : Prop :=
  op = .and ∨ op = .or

/-- The value of the left operand decides. -/
def decidedBy (op : Operator) (a : Value) : Bool :=
  match op with
  | .and => !a.isTruthy
  | .or => a.isTruthy
  | _ => false

theorem IsLazy.apply_eq {op : Operator} (h : op.IsLazy) (patternBudget : Nat) (a b : Value) :
    op.apply patternBudget a b = if op.decidedBy a then a else b := by
  rcases h with rfl | rfl
  · cases ha : a.isTruthy <;> simp [apply, decidedBy, ha]
  · rfl

end Operator

namespace Scope

variable (s : Scope) (nested : Nested) {op : Operator} (l r : Expr) (data : Value)

/-- Called by its symbol, an operator is applied to the values of its operands. -/
theorem evalExpr_call_symbol (op : Operator) :
    s.evalExpr nested (.call op.symbol [l, r]) data = (do
      let a ← s.evalExpr nested l data
      let b ← s.evalExpr nested r data
      return op.apply s.patternBudget a b) := by
  have hcall (a b : Value) : Function.call nested s.patternBudget op.symbol [a, b] =
      pure (op.apply s.patternBudget a b) := Function.call_builtin (.operator op)
  simp only [evalExpr, evalArgs, bind_assoc, pure_bind, hcall]

theorem evalExpr_binary_of_not_isLazy (h : ¬ op.IsLazy) :
    s.evalExpr nested (.binary l op r) data =
      s.evalExpr nested (.call op.symbol [l, r]) data := by
  rw [evalExpr_call_symbol]
  simp only [Operator.IsLazy, not_or] at h
  cases op <;> first | rfl | exact absurd rfl h.1 | exact absurd rfl h.2

theorem evalExpr_binary_of_isLazy (h : op.IsLazy) :
    s.evalExpr nested (.binary l op r) data = (do
      let a ← s.evalExpr nested l data
      if op.decidedBy a then return a else s.evalExpr nested r data) := by
  rcases h with rfl | rfl
  · simp only [evalExpr]
    refine congrArg _ (funext fun a => ?_)
    cases ha : a.isTruthy <;> simp [Operator.decidedBy, ha]
  · rfl

variable {s l r data} {depth k : Nat} {memo memo' : PathMemo}

theorem evalExpr_isInquiry (s : Scope) (k : Nat) (e : Expr) (data : Value) :
    IsInquiry (s.evalExpr (s.nestedAt k) e data).run :=
  s.evalExpr_closed closed_isInquiry (s.nestedAt_isInquiry k) e data

/-- What an expression comes to, it comes to at every greater depth and with every memo that
holds nothing false. -/
theorem gives_of_evalExpr {e : Expr} {v : Value} (hmemo : memo.Sound)
    (h : (s.evalExpr (s.nestedAt depth) e data).run memo = some (.ok v, memo')) (hk : depth ≤ k) :
    Gives (s.evalExpr (s.nestedAt k) e data).run (.ok v) :=
  (s.evalExpr_isInquiry k e data).gives hmemo
    (s.evalExpr_closed closed_extends (s.nestedAt_mono depth k hk) e data memo _ h)

/-- Where the right operand has a value, it does not show whether it was looked at. -/
theorem outcome?_binary_of_isLazy (h : op.IsLazy) {v : Value}
    (hr : Gives (s.evalExpr (s.nestedAt k) r data).run (.ok v)) (hmemo : memo.Sound) :
    outcome? (s.evalExpr (s.nestedAt k) (.binary l op r) data) memo =
      outcome? (s.evalExpr (s.nestedAt k) (.call op.symbol [l, r]) data) memo := by
  rw [evalExpr_binary_of_isLazy s _ l r data h, evalExpr_call_symbol, outcome?_bind, outcome?_bind]
  cases hl : (s.evalExpr (s.nestedAt k) l data).run memo with
  | none => rfl
  | some result =>
      obtain ⟨e | a, memo₁⟩ := result
      · rfl
      · have hmemo₁ : memo₁.Sound := (s.evalExpr_isInquiry k l data).sound hmemo hl
        have hboth := Gives.andThen (f := fun b => pure (op.apply s.patternBudget a b)) hr (.ok _)
        dsimp only
        rw [hboth.outcome?_eq hmemo₁, h.apply_eq]
        split
        · rfl
        · exact hr.outcome?_eq hmemo₁

/-- An operator between two operands and the call of its symbol with them have the same result or
the same failure, if the operator is neither conjunction nor disjunction or the right operand has
a value. -/
theorem evalExpr_infix_eq_call (s : Scope) (op : Operator) (l r : Expr) (data : Value)
    {depth k : Nat} {memo memo' : PathMemo}
    (h : op ≠ .and ∧ op ≠ .or ∨ ∃ (v : Value) (known known' : PathMemo), known.Sound ∧
      (s.evalExpr (s.nestedAt depth) r data).run known = some (.ok v, known'))
    (hk : depth ≤ k) (hmemo : memo.Sound) (hmemo' : memo'.Sound) :
    outcome? (s.evalExpr (s.nestedAt k) (.binary l op r) data) memo =
      outcome? (s.evalExpr (s.nestedAt k) (.call op.symbol [l, r]) data) memo' := by
  have hcall := (s.evalExpr_isInquiry k (.call op.symbol [l, r]) data).outcome?_eq hmemo hmemo'
  rw [← hcall]
  by_cases hop : op.IsLazy
  · obtain ⟨v, known, known', hknown, hr⟩ :=
      h.resolve_left fun hne => hop.elim hne.1 hne.2
    exact outcome?_binary_of_isLazy hop (gives_of_evalExpr hknown hr hk) hmemo
  · rw [evalExpr_binary_of_not_isLazy s _ l r data hop]

/-- A disjunction that its left operand decides, with a path on the right. -/
theorem evalExpr_infix_eq_call_of_decided :
    let s := Scope.mk {} Template.resolve 1
    let data := Value.object [("a", .string "x"), ("b", .null)]
    (∃ (v : Value) (known known' : PathMemo), known.Sound ∧
      (s.evalExpr (s.nestedAt 0) (.path "$.b") data).run known = some (.ok v, known')) ∧
    outcome? (s.evalExpr (s.nestedAt 0) (.binary (.identifier "a") .or (.path "$.b")) data)
        (.fresh true) =
      outcome? (s.evalExpr (s.nestedAt 0) (.call "||" [.identifier "a", .path "$.b"]) data)
        (.fresh false) := by
  intro s data
  have hsound (enabled : Bool) : (PathMemo.fresh enabled).Sound :=
    (PathMemo.holds_fresh enabled).sound
  have hright : ∃ (v : Value) (known known' : PathMemo), known.Sound ∧
      (s.evalExpr (s.nestedAt 0) (.path "$.b") data).run known = some (.ok v, known') := by
    obtain ⟨w, known', hfollow⟩ : ∃ w known', Run.follow "$.b" data (.fresh true) =
      some (w, known') := ⟨_, _, rfl⟩
    refine ⟨w, .fresh true, known', hsound true, ?_⟩
    rw [evalExpr]
    exact bind_eq_some (f := fun a => pure (Except.ok a)) |>.2 ⟨w, known', hfollow, rfl⟩
  exact ⟨hright, s.evalExpr_infix_eq_call .or (.identifier "a") (.path "$.b") data (.inr hright)
    (Nat.le_refl 0) (hsound true) (hsound false)⟩

end Scope

end Sluice

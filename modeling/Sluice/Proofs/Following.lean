import Sluice.Proofs.Printing

/-!
# Expressions before other tokens

A reader looks at no position, and at no more than one token after what it reads. So what is read
from some tokens is read from them wherever they stand and whatever comes after, provided that
nothing goes on with the expression where the tokens come to their end.
-/
namespace Sluice

/-- The token stands at another byte. -/
def Token.moved (f : Nat → Nat) (t : Token) : Token :=
  { t with position := f t.position }

@[simp] theorem Token.kind_moved (f : Nat → Nat) (t : Token) : (t.moved f).kind = t.kind := rfl

@[simp] theorem Token.map_moved_id (ts : List Token) : ts.map (Token.moved id) = ts :=
  List.map_id ts

namespace Expr

open Token

variable {f : Nat → Nat} {rest tail : List Token}

/-- The tokens go on with no expression before them. -/
structure EndsExpr (tail : List Token) : Prop where
  stopsAt : ∀ floor, StopsAt floor tail
  notCalled : NotCalled tail

theorem endsExpr_nil : EndsExpr [] :=
  ⟨fun floor => by simp [StopsAt], by simp [NotCalled]⟩

theorem EndsArgument.endsExpr {t : Token} (h : EndsArgument t) (more : List Token) :
    EndsExpr (t :: more) :=
  ⟨fun floor => h.stopsAt floor more, h.notCalled more⟩

theorem StopsAt.followed {floor : Nat} (h : StopsAt floor rest)
    (htail : rest = [] → EndsExpr tail) : StopsAt floor (rest.map (moved f) ++ tail) := by
  cases rest with
  | nil => exact (htail rfl).stopsAt floor
  | cons t rest =>
      intro t' ht' op hop
      obtain rfl : moved f t = t' := by simpa using ht'
      exact h t (by simp) op hop

theorem not_callFollows_followed {name : String} (h : ¬ CallFollows name rest)
    (htail : rest = [] → EndsExpr tail) : ¬ CallFollows name (rest.map (moved f) ++ tail) := by
  rintro ⟨hword, t', ht', hparen⟩
  cases rest with
  | nil => exact (htail rfl).notCalled t' ht' hparen
  | cons t rest =>
      obtain rfl : moved f t = t' := by simpa using ht'
      exact h ⟨hword, t, by simp, hparen⟩

theorem Climbs.rest_eq_nil {floor : Nat} {left e : Expr} (h : Climbs floor left [] e rest) :
    rest = [] := by
  cases h
  rfl

mutual

/-- Elsewhere, and before tokens that do not go on with it, an expression is the same
expression. -/
theorem ReadsExpr.followed {floor : Nat} {ts rest tail : List Token} {e : Expr} (f : Nat → Nat)
    (h : ReadsExpr floor ts e rest) (htail : rest = [] → EndsExpr tail) :
    ReadsExpr floor (ts.map (moved f) ++ tail) e (rest.map (moved f) ++ tail) := by
  match h with
  | .mk operand more =>
      refine .mk (operand.followed f ?_) (more.followed f htail)
      rintro rfl
      exact htail more.rest_eq_nil

theorem Climbs.followed {floor : Nat} {left e : Expr} {ts rest tail : List Token}
    (f : Nat → Nat) (h : Climbs floor left ts e rest) (htail : rest = [] → EndsExpr tail) :
    Climbs floor left (ts.map (moved f) ++ tail) e (rest.map (moved f) ++ tail) := by
  match h with
  | .done h => exact .done (h.followed htail)
  | .step hop hfloor operand more =>
      refine .step hop hfloor (operand.followed f ?_) (more.followed f htail)
      rintro rfl
      exact htail more.rest_eq_nil

theorem ReadsOperand.followed {ts rest tail : List Token} {e : Expr} (f : Nat → Nat)
    (h : ReadsOperand ts e rest) (htail : rest = [] → EndsExpr tail) :
    ReadsOperand (ts.map (moved f) ++ tail) e (rest.map (moved f) ++ tail) := by
  match h with
  | .not hkind htext operand => exact .not hkind htext (operand.followed f htail)
  | .minus hkind htext operand => exact .minus hkind htext (operand.followed f htail)
  | .paren hkind inner hclose => exact .paren hkind (inner.followed f nofun) hclose
  | .atom h => exact .atom h
  | .word (t := t) hkind h =>
      exact ReadsOperand.word (t := moved f t) hkind (not_callFollows_followed h htail)
  | .call (t := t) hkind hword hparen inner =>
      exact ReadsOperand.call (t := moved f t) hkind hword hparen (inner.followed f tail)

theorem ReadsArgs.followed {ts rest : List Token} {args : List Expr} (f : Nat → Nat)
    (tail : List Token) (h : ReadsArgs ts args rest) :
    ReadsArgs (ts.map (moved f) ++ tail) args (rest.map (moved f) ++ tail) := by
  match h with
  | .none hclose => exact .none hclose
  | .some inner => exact .some (inner.followed f tail)

theorem ReadsSomeArgs.followed {ts rest : List Token} {args : List Expr} (f : Nat → Nat)
    (tail : List Token) (h : ReadsSomeArgs ts args rest) :
    ReadsSomeArgs (ts.map (moved f) ++ tail) args (rest.map (moved f) ++ tail) := by
  match h with
  | .last arg hclose => exact .last (arg.followed f nofun) hclose
  | .more arg hcomma others =>
      exact .more (arg.followed f nofun) hcomma (others.followed f tail)

end

theorem ReadsExpr.append {floor : Nat} {ts rest tail : List Token} {e : Expr}
    (h : ReadsExpr floor ts e rest) (htail : rest = [] → EndsExpr tail) :
    ReadsExpr floor (ts ++ tail) e (rest ++ tail) := by
  simpa using h.followed id htail

theorem ReadsOperand.append {ts rest tail : List Token} {e : Expr} (h : ReadsOperand ts e rest)
    (htail : rest = [] → EndsExpr tail) : ReadsOperand (ts ++ tail) e (rest ++ tail) := by
  simpa using h.followed id htail

end Expr

end Sluice

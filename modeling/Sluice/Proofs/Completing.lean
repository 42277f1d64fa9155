import Sluice.Proofs.Refusals

/-!
# Expressions that are not complete

Tokens that are refused for coming to an end are the beginning of an expression: a name where an
operand is missing, and a closing parenthesis for each open one, complete it. Tokens that are
refused for another cause are the beginning of none.
-/
namespace Sluice.Expr

/-- A name, where an operand is missing. -/
def missingName : Token :=
  ⟨.identifier, "x", 0⟩

/-- A closing parenthesis, where one is missing. -/
def missingParen : Token :=
  ⟨.rightParen, ")", 0⟩

theorem endsExpr_missingParen (tail : List Token) : EndsExpr (missingParen :: tail) :=
  EndsArgument.endsExpr (.inl rfl) tail

theorem not_isEnd_unexpectedToken (text : String) (position : Nat) :
    ¬ (ParseError.unexpectedToken text position).IsEnd := by
  simp [ParseError.IsEnd]

mutual

/-- An expression whose tokens come to an end is complete after some more, before anything that
does not go on with it. -/
theorem FailsExpr.completed {floor : Nat} {ts : List Token} {e : ParseError}
    (h : FailsExpr floor ts e) (hend : e.IsEnd) :
    ∃ us, ∀ tail, EndsExpr tail → ∃ x, ReadsExpr floor (ts ++ (us ++ tail)) x tail := by
  match h with
  | .operand h =>
      obtain ⟨us, hus⟩ := h.completed hend
      refine ⟨us, fun tail htail => ?_⟩
      obtain ⟨x, hx⟩ := hus tail htail
      exact ⟨x, .mk hx (.done (htail.stopsAt floor))⟩
  | .more operand h =>
      obtain ⟨us, hus⟩ := h.completed hend
      refine ⟨us, fun tail htail => ?_⟩
      obtain ⟨x, hx⟩ := hus tail htail _
      exact ⟨x, .mk (operand.append fun hmid => absurd hmid h.ne_nil) hx⟩

theorem FailsClimbs.completed {floor : Nat} {ts : List Token} {e : ParseError}
    (h : FailsClimbs floor ts e) (hend : e.IsEnd) :
    ∃ us, ∀ tail, EndsExpr tail → ∀ left, ∃ x, Climbs floor left (ts ++ (us ++ tail)) x tail := by
  match h with
  | .right hop hfloor h =>
      obtain ⟨us, hus⟩ := h.completed hend
      refine ⟨us, fun tail htail left => ?_⟩
      obtain ⟨x, hx⟩ := hus tail htail
      exact ⟨_, .step hop hfloor hx (.done (htail.stopsAt floor))⟩
  | .more hop hfloor operand h =>
      obtain ⟨us, hus⟩ := h.completed hend
      refine ⟨us, fun tail htail left => ?_⟩
      obtain ⟨x, hx⟩ := hus tail htail _
      exact ⟨x, .step hop hfloor (operand.append fun hmid => absurd hmid h.ne_nil) hx⟩

theorem FailsOperand.completed {ts : List Token} {e : ParseError} (h : FailsOperand ts e)
    (hend : e.IsEnd) :
    ∃ us, ∀ tail, EndsExpr tail → ∃ x, ReadsOperand (ts ++ (us ++ tail)) x tail := by
  match h with
  | .nil =>
      refine ⟨[missingName], fun tail htail => ⟨word "x", ?_⟩⟩
      refine ReadsOperand.word (t := missingName) rfl ?_
      rintro ⟨-, t, ht, hparen⟩
      exact htail.notCalled t ht hparen
  | .none ht => exact absurd hend (not_isEnd_unexpectedToken _ _)
  | .number hkind h =>
      obtain rfl := numberLiteral_eq_error h
      simp [ParseError.IsEnd] at hend
  | .unary hkind htext h =>
      obtain ⟨us, hus⟩ := h.completed hend
      refine ⟨us, fun tail htail => ?_⟩
      obtain ⟨x, hx⟩ := hus tail htail
      rcases htext with htext | htext
      · exact ⟨_, .not hkind htext hx⟩
      · exact ⟨_, .minus hkind htext hx⟩
  | .inner hkind h =>
      obtain ⟨us, hus⟩ := h.completed hend
      refine ⟨us ++ [missingParen], fun tail _ => ?_⟩
      obtain ⟨x, hx⟩ := hus _ (endsExpr_missingParen tail)
      exact ⟨x, .paren hkind (by simpa using hx) rfl⟩
  | .unclosed (x := x) hkind inner =>
      refine ⟨[missingParen], fun tail _ => ⟨x, ?_⟩⟩
      exact .paren hkind (inner.append fun _ => endsExpr_missingParen tail) rfl
  | .notClosed _ _ _ => exact absurd hend (not_isEnd_unexpectedToken _ _)
  | .call hkind hword hparen _ h =>
      obtain ⟨us, hus⟩ := h.completed hend
      refine ⟨us, fun tail _ => ?_⟩
      obtain ⟨args, hargs⟩ := hus tail
      exact ⟨_, .call hkind hword hparen (.some hargs)⟩

theorem FailsSomeArgs.completed {name : String} {ts : List Token} {e : ParseError}
    (h : FailsSomeArgs name ts e) (hend : e.IsEnd) :
    ∃ us, ∀ tail, ∃ args, ReadsSomeArgs (ts ++ (us ++ tail)) args tail := by
  match h with
  | .arg h =>
      obtain ⟨us, hus⟩ := h.completed ((isEnd_argumentError name _).1 hend)
      refine ⟨us ++ [missingParen], fun tail => ?_⟩
      obtain ⟨x, hx⟩ := hus _ (endsExpr_missingParen tail)
      exact ⟨[x], .last (by simpa using hx) rfl⟩
  | .unclosed (x := x) arg =>
      refine ⟨[missingParen], fun tail => ⟨[x], ?_⟩⟩
      exact .last (arg.append fun _ => endsExpr_missingParen tail) rfl
  | .notSeparated _ _ => simp [ParseError.IsEnd] at hend
  | .more arg hcomma h =>
      obtain ⟨us, hus⟩ := h.completed hend
      refine ⟨us, fun tail => ?_⟩
      obtain ⟨args, hargs⟩ := hus tail
      exact ⟨_, .more (arg.append nofun) hcomma hargs⟩

end

/-- Tokens that are refused for coming to an end are an expression with some more. -/
theorem exists_ofTokens_append {ts : List Token} {e : ParseError} (h : ofTokens ts = .error e)
    (hend : e.IsEnd) : ∃ us x, ofTokens (ts ++ us) = .ok x := by
  rcases ofTokens_eq_error.1 h with hfails | ⟨_, t, _, -, rfl⟩
  · obtain ⟨us, hus⟩ := hfails.completed hend
    obtain ⟨x, hx⟩ := hus [] endsExpr_nil
    exact ⟨us, x, ofTokens_eq_ok.2 (by simpa using hx)⟩
  · exact absurd hend (not_isEnd_unexpectedToken _ _)

/-- Tokens that are refused for another cause are refused for it whatever comes after them. -/
theorem ofTokens_append_eq_error {ts : List Token} {e : ParseError} (h : ofTokens ts = .error e)
    (hend : ¬ e.IsEnd) (us : List Token) : ofTokens (ts ++ us) = .error e := by
  refine ofTokens_eq_error.2 ?_
  rcases ofTokens_eq_error.1 h with hfails | ⟨x, t, rest, hreads, rfl⟩
  · exact .inl (hfails.append fun he => absurd he hend)
  · exact .inr ⟨x, t, rest ++ us, hreads.append nofun, rfl⟩

/-- Tokens are refused for coming to an end exactly if they are no expression and are one with
some more. -/
theorem ofTokens_incomplete_iff (ts : List Token) :
    (ofTokens ts = .error .unexpectedEnd ∨ ofTokens ts = .error .unclosedParenthesis) ↔
      (¬ ∃ x, ofTokens ts = .ok x) ∧ ∃ us x, ofTokens (ts ++ us) = .ok x := by
  constructor
  · intro h
    obtain ⟨e, he, hend⟩ : ∃ e, ofTokens ts = .error e ∧ e.IsEnd := by
      rcases h with h | h
      · exact ⟨_, h, .inl rfl⟩
      · exact ⟨_, h, .inr rfl⟩
    exact ⟨by simp [he], exists_ofTokens_append he hend⟩
  · rintro ⟨hnone, us, x, hx⟩
    cases h : ofTokens ts with
    | ok x' => exact absurd ⟨x', h⟩ hnone
    | error e =>
        by_contra hcause
        have hend : ¬ e.IsEnd := by simpa [ParseError.IsEnd] using hcause
        rw [ofTokens_append_eq_error h hend us] at hx
        cases hx

end Sluice.Expr

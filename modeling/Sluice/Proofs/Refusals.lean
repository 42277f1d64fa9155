import Sluice.Proofs.Following

/-!
# Why tokens are refused

What the readers refuse, as rules beside those of the grammar: at which token, and for what
cause. The rules say the same as the readers (`readExpr_eq_error`). A cause other than that the
tokens come to an end is found in the tokens read so far, so it stays whatever comes after them.
-/
namespace Sluice

/-- The cause is that the tokens come to an end. -/
def ParseError.IsEnd (e : ParseError) : Prop :=
  e = .unexpectedEnd ∨ e = .unclosedParenthesis

/-- The cause is found at another byte. -/
def ParseError.moved (f : Nat → Nat) : ParseError → ParseError
  | .unexpectedCharacter c position => .unexpectedCharacter c (f position)
  | .unexpectedToken token position => .unexpectedToken token (f position)
  | e => e

@[simp] theorem ParseError.moved_id (e : ParseError) : e.moved id = e := by
  cases e <;> rfl

namespace Expr

open Token

/-- No operand begins with the token. -/
def BeginsNone (t : Token) : Prop :=
  (t.kind = .operator ∧ t.text ≠ "!" ∧ t.text ≠ "-") ∨ t.kind = .rightParen ∨ t.kind = .comma

mutual

/-- The tokens begin with no expression whose operators all bind tighter than `floor`. -/
inductive FailsExpr : Nat → List Token → ParseError → Prop where
  | operand {floor : Nat} {ts : List Token} {e : ParseError} (h : FailsOperand ts e) :
      FailsExpr floor ts e
  | more {floor : Nat} {ts mid : List Token} {left : Expr} {e : ParseError}
      (operand : ReadsOperand ts left mid) (h : FailsClimbs floor mid e) :
      FailsExpr floor ts e

/-- After an operator that binds tighter than `floor`, there is no operand. -/
inductive FailsClimbs : Nat → List Token → ParseError → Prop where
  | right {floor : Nat} {t : Token} {ts : List Token} {op : Operator} {e : ParseError}
      (hop : binaryOperator? t = some op) (hfloor : floor < op.precedence)
      (h : FailsExpr op.precedence ts e) : FailsClimbs floor (t :: ts) e
  | more {floor : Nat} {t : Token} {ts mid : List Token} {op : Operator} {right : Expr}
      {e : ParseError} (hop : binaryOperator? t = some op) (hfloor : floor < op.precedence)
      (operand : ReadsExpr op.precedence ts right mid) (h : FailsClimbs floor mid e) :
      FailsClimbs floor (t :: ts) e

/-- The tokens begin with no operand. -/
inductive FailsOperand : List Token → ParseError → Prop where
  | nil : FailsOperand [] .unexpectedEnd
  | none {t : Token} {ts : List Token} (ht : BeginsNone t) :
      FailsOperand (t :: ts) (.unexpectedToken t.text t.position)
  | number {t : Token} {ts : List Token} {e : ParseError} (hkind : t.kind = .number)
      (h : numberLiteral t.text = .error e) : FailsOperand (t :: ts) e
  | unary {t : Token} {ts : List Token} {e : ParseError} (hkind : t.kind = .operator)
      (htext : t.text = "!" ∨ t.text = "-") (h : FailsOperand ts e) : FailsOperand (t :: ts) e
  | inner {t : Token} {ts : List Token} {e : ParseError} (hkind : t.kind = .leftParen)
      (h : FailsExpr 0 ts e) : FailsOperand (t :: ts) e
  | unclosed {t : Token} {ts : List Token} {x : Expr} (hkind : t.kind = .leftParen)
      (inner : ReadsExpr 0 ts x []) : FailsOperand (t :: ts) .unclosedParenthesis
  | notClosed {t u : Token} {ts rest : List Token} {x : Expr} (hkind : t.kind = .leftParen)
      (inner : ReadsExpr 0 ts x (u :: rest)) (hother : u.kind ≠ .rightParen) :
      FailsOperand (t :: ts) (.unexpectedToken u.text u.position)
  | call {t paren : Token} {ts : List Token} {e : ParseError} (hkind : t.kind = .identifier)
      (hword : isLiteralWord t.text = false) (hparen : paren.kind = .leftParen)
      (hclose : ∀ t ∈ ts.head?, t.kind ≠ .rightParen) (h : FailsSomeArgs t.text ts e) :
      FailsOperand (t :: paren :: ts) e

/-- The tokens do not begin with arguments of a call and its closing parenthesis. -/
inductive FailsSomeArgs : String → List Token → ParseError → Prop where
  | arg {name : String} {ts : List Token} {e : ParseError} (h : FailsExpr 0 ts e) :
      FailsSomeArgs name ts (argumentError name e)
  | unclosed {name : String} {ts : List Token} {x : Expr} (arg : ReadsExpr 0 ts x []) :
      FailsSomeArgs name ts .unclosedParenthesis
  | notSeparated {name : String} {t : Token} {ts rest : List Token} {x : Expr}
      (arg : ReadsExpr 0 ts x (t :: rest)) (ht : ¬ EndsArgument t) :
      FailsSomeArgs name ts (.malformedArguments name)
  | more {name : String} {comma : Token} {ts mid : List Token} {x : Expr} {e : ParseError}
      (arg : ReadsExpr 0 ts x (comma :: mid)) (hcomma : comma.kind = .comma)
      (h : FailsSomeArgs name mid e) : FailsSomeArgs name ts e

end

/-! ## The rules and the readers -/

mutual

theorem failsExpr_of_readExpr {floor : Nat} {ts : List Token} {e : ParseError}
    (h : readExpr floor ts = .error e) : FailsExpr floor ts e := by
  rw [readExpr] at h
  split at h
  · next hleft =>
      cases h
      exact .operand (failsOperand_of_readOperand hleft)
  · next left hleft =>
      have := left.shorter
      split at h
      · next hmore =>
          cases h
          exact .more (readsOperand_of_readOperand hleft) (failsClimbs_of_climb hmore)
      · cases h
termination_by 3 * ts.length + 1

theorem failsClimbs_of_climb {floor : Nat} {left : Expr} {ts : List Token} {e : ParseError}
    (h : climb floor left ts = .error e) : FailsClimbs floor ts e := by
  match ts, h with
  | [], h =>
      rw [climb] at h
      cases h
  | t :: ts, h =>
      rw [climb] at h
      split at h
      · cases h
      · next op hop =>
          split at h
          · cases h
          · next hfloor =>
              split at h
              · next hright =>
                  cases h
                  exact .right hop (by omega) (failsExpr_of_readExpr hright)
              · next right hright =>
                  have := right.shorter
                  split at h
                  · next hmore =>
                      cases h
                      exact .more hop (by omega) (readsExpr_of_readExpr hright)
                        (failsClimbs_of_climb hmore)
                  · cases h
termination_by 3 * ts.length

theorem failsOperand_of_readOperand {ts : List Token} {e : ParseError}
    (h : readOperand ts = .error e) : FailsOperand ts e := by
  match ts, h with
  | [], h =>
      rw [readOperand] at h
      cases h
      exact .nil
  | t :: ts, h =>
      rw [readOperand.eq_def] at h
      dsimp only at h
      split at h
      · next hkind =>
          split at h
          · next htext =>
              split at h
              · next hoperand =>
                  cases h
                  exact .unary hkind (.inl htext) (failsOperand_of_readOperand hoperand)
              · cases h
          · next hnot =>
              split at h
              · next htext =>
                  split at h
                  · next hoperand =>
                      cases h
                      exact .unary hkind (.inr htext) (failsOperand_of_readOperand hoperand)
                  · cases h
              · next hminus =>
                  cases h
                  exact .none (.inl ⟨hkind, hnot, hminus⟩)
      · next hkind =>
          split at h
          · next hinner =>
              cases h
              exact .inner hkind (failsExpr_of_readExpr hinner)
          · next hinner =>
              cases h
              exact .unclosed hkind (readsExpr_of_readExpr hinner)
          · next hinner =>
              split at h
              · cases h
              · next hother =>
                  cases h
                  exact .notClosed hkind (readsExpr_of_readExpr hinner) hother
      · cases h
      · cases h
      · cases h
      · cases h
      · next hkind =>
          split at h
          · next hnumber =>
              cases h
              exact .number hkind hnumber
          · cases h
      · cases h
      · next hkind =>
          split at h
          · next paren ts =>
              split at h
              · next hcall =>
                  simp only [Bool.and_eq_true, decide_eq_true_eq, Bool.not_eq_true'] at hcall
                  split at h
                  · next hargs =>
                      cases h
                      obtain ⟨hclose, hfails⟩ := failsSomeArgs_of_readArgs hargs
                      exact .call hkind hcall.2 hcall.1 hclose hfails
                  · cases h
              · cases h
          · cases h
      · next hkind =>
          cases h
          exact .none (.inr (.inl hkind))
      · next hkind =>
          cases h
          exact .none (.inr (.inr hkind))
termination_by 3 * ts.length

theorem failsSomeArgs_of_readArgs {name : String} {ts : List Token} {e : ParseError}
    (h : readArgs name ts = .error e) :
    (∀ t ∈ ts.head?, t.kind ≠ .rightParen) ∧ FailsSomeArgs name ts e := by
  match ts, h with
  | [], h =>
      rw [readArgs] at h
      cases h
      exact ⟨by simp, .arg (.operand .nil)⟩
  | t :: ts, h =>
      rw [readArgs] at h
      split at h
      · cases h
      · next hclose => exact ⟨by simpa using hclose, failsSomeArgs_of_readSomeArgs h⟩
termination_by 3 * ts.length + 3

theorem failsSomeArgs_of_readSomeArgs {name : String} {ts : List Token} {e : ParseError}
    (h : readSomeArgs name ts = .error e) : FailsSomeArgs name ts e := by
  rw [readSomeArgs] at h
  split at h
  · next harg =>
      cases h
      exact .arg (failsExpr_of_readExpr harg)
  · next harg =>
      cases h
      exact .unclosed (readsExpr_of_readExpr harg)
  · next x t rest hlt hexpr =>
      have harg := readsExpr_of_readExpr hexpr
      split at h
      · cases h
      · next hclose =>
          split at h
          · next hcomma =>
              split at h
              · next hothers =>
                  have := Nat.lt_of_succ_lt hlt
                  cases h
                  exact .more harg hcomma (failsSomeArgs_of_readSomeArgs hothers)
              · cases h
          · next hcomma =>
              cases h
              exact .notSeparated harg (not_or.2 ⟨hclose, hcomma⟩)
termination_by 3 * ts.length + 2

end

theorem readArgs_eq_error {name : String} {ts : List Token} {e : ParseError}
    (h : readSomeArgs name ts = .error e) (hclose : ∀ t ∈ ts.head?, t.kind ≠ .rightParen) :
    readArgs name ts = .error e := by
  cases ts with
  | nil =>
      have hend : readExpr 0 [] = .error .unexpectedEnd := by rw [readExpr, readOperand]
      rw [readSomeArgs, hend] at h
      rw [readArgs, ← h]
      rfl
  | cons t ts => rw [readArgs, if_neg (hclose t (by simp)), h]

mutual

theorem FailsExpr.complete {floor : Nat} {ts : List Token} {e : ParseError}
    (h : FailsExpr floor ts e) : readExpr floor ts = .error e := by
  match h with
  | .operand h => rw [readExpr, h.complete]
  | .more operand h =>
      obtain ⟨hlt, hoperand⟩ := operand.complete
      rw [readExpr, hoperand]
      dsimp only
      rw [h.complete]

theorem FailsClimbs.complete {floor : Nat} {ts : List Token} {e : ParseError}
    (h : FailsClimbs floor ts e) (left : Expr) : climb floor left ts = .error e := by
  match h with
  | .right hop hfloor h =>
      rw [climb, hop]
      dsimp only
      rw [if_neg (by omega), h.complete]
  | .more hop hfloor operand h =>
      obtain ⟨hlt, hoperand⟩ := operand.complete
      rw [climb, hop]
      dsimp only
      rw [if_neg (by omega), hoperand]
      dsimp only
      rw [h.complete]

theorem FailsOperand.complete {ts : List Token} {e : ParseError} (h : FailsOperand ts e) :
    readOperand ts = .error e := by
  match h with
  | .nil => rw [readOperand]
  | .none ht =>
      rw [readOperand.eq_def]
      rcases ht with ⟨hkind, hnot, hminus⟩ | hkind | hkind
      · simp [hkind, hnot, hminus]
      · simp [hkind]
      · simp [hkind]
  | .number hkind h =>
      rw [readOperand.eq_def]
      simp [hkind, h]
  | .unary hkind htext h =>
      rw [readOperand.eq_def]
      rcases htext with htext | htext
      · simp [hkind, htext, h.complete]
      · simp [hkind, htext, h.complete]
  | .inner hkind h =>
      rw [readOperand.eq_def]
      simp [hkind, h.complete]
  | .unclosed hkind inner =>
      obtain ⟨hlt, hinner⟩ := inner.complete
      rw [readOperand.eq_def]
      simp [hkind, hinner]
  | .notClosed hkind inner hother =>
      obtain ⟨hlt, hinner⟩ := inner.complete
      rw [readOperand.eq_def]
      simp [hkind, hinner, hother]
  | .call hkind hword hparen hclose h =>
      rw [readOperand.eq_def]
      simp [hkind, hword, hparen, readArgs_eq_error h.complete hclose]

theorem FailsSomeArgs.complete {name : String} {ts : List Token} {e : ParseError}
    (h : FailsSomeArgs name ts e) : readSomeArgs name ts = .error e := by
  match h with
  | .arg h => rw [readSomeArgs, h.complete]
  | .unclosed arg =>
      obtain ⟨hlt, harg⟩ := arg.complete
      rw [readSomeArgs, harg]
  | .notSeparated arg ht =>
      obtain ⟨hlt, harg⟩ := arg.complete
      obtain ⟨hclose, hcomma⟩ := not_or.1 ht
      rw [readSomeArgs, harg]
      simp [hclose, hcomma]
  | .more arg hcomma h =>
      obtain ⟨hlt, harg⟩ := arg.complete
      rw [readSomeArgs, harg]
      simp [hcomma, h.complete]

end

/-- The reader refuses what the rules refuse. -/
theorem readExpr_eq_error {floor : Nat} {ts : List Token} {e : ParseError} :
    readExpr floor ts = .error e ↔ FailsExpr floor ts e :=
  ⟨failsExpr_of_readExpr, FailsExpr.complete⟩

theorem ofTokens_eq_error {ts : List Token} {e : ParseError} :
    ofTokens ts = .error e ↔ FailsExpr 0 ts e ∨
      ∃ x t rest, ReadsExpr 0 ts x (t :: rest) ∧ e = .unexpectedToken t.text t.position := by
  rw [← readExpr_eq_error]
  simp only [← readExpr_eq_ok, ofTokens]
  split
  · next h => simp [h]
  · next h => simp [h]
  · next x t rest hlt h =>
      constructor
      · intro he
        cases he
        exact .inr ⟨x, t, rest, ⟨hlt, h⟩, rfl⟩
      · rintro (he | ⟨x', t', rest', ⟨hlt', h'⟩, rfl⟩)
        · simp [h] at he
        · rw [h] at h'
          cases h'
          rfl

/-! ## Refusals before other tokens -/

@[simp] theorem isEnd_argumentError (name : String) (e : ParseError) :
    (argumentError name e).IsEnd ↔ e.IsEnd := by
  cases e <;> simp [argumentError, ParseError.IsEnd]

@[simp] theorem argumentError_moved (name : String) (f : Nat → Nat) (e : ParseError) :
    argumentError name (e.moved f) = (argumentError name e).moved f := by
  cases e <;> rfl

theorem numberLiteral_eq_error {text : String} {e : ParseError}
    (h : numberLiteral text = .error e) : e = .invalidNumber text := by
  revert h
  fun_cases numberLiteral text <;> simp [eq_comm]

theorem FailsClimbs.ne_nil {floor : Nat} {ts : List Token} {e : ParseError}
    (h : FailsClimbs floor ts e) : ts ≠ [] := by
  cases h <;> simp

theorem ReadsExpr.ne_nil {floor : Nat} {ts rest : List Token} {x : Expr}
    (h : ReadsExpr floor ts x rest) : ts ≠ [] := by
  cases h with
  | mk operand =>
      obtain ⟨t, ts, rfl, -⟩ := operand.exists_cons
      simp

/-- Where there are no tokens, the cause is that they come to an end. -/
theorem FailsSomeArgs.isEnd_of_nil {name : String} {e : ParseError}
    (h : FailsSomeArgs name [] e) : e.IsEnd := by
  cases h with
  | arg h =>
      cases h with
      | operand h =>
          cases h
          exact .inr rfl
      | more operand =>
          obtain ⟨t, ts, he, -⟩ := operand.exists_cons
          cases he
  | unclosed => exact .inr rfl
  | notSeparated arg => exact absurd rfl arg.ne_nil
  | more arg => exact absurd rfl arg.ne_nil

theorem FailsSomeArgs.not_closed_followed {f : Nat → Nat} {name : String} {ts tail : List Token}
    {e : ParseError} (h : FailsSomeArgs name ts e) (hclose : ∀ t ∈ ts.head?, t.kind ≠ .rightParen)
    (htail : e.IsEnd → tail = []) :
    ∀ t ∈ (ts.map (moved f) ++ tail).head?, t.kind ≠ .rightParen := by
  cases ts with
  | nil => simp [htail h.isEnd_of_nil]
  | cons t ts => simpa using hclose

mutual

/-- What is refused is refused elsewhere, for the same cause, and whatever comes after, unless
the cause is that the tokens come to an end. -/
theorem FailsExpr.followed {floor : Nat} {ts tail : List Token} {e : ParseError} (f : Nat → Nat)
    (h : FailsExpr floor ts e) (htail : e.IsEnd → tail = []) :
    FailsExpr floor (ts.map (moved f) ++ tail) (e.moved f) := by
  match h with
  | .operand h => exact .operand (h.followed f htail)
  | .more operand h =>
      exact .more (operand.followed f fun hmid => absurd hmid h.ne_nil) (h.followed f htail)

theorem FailsClimbs.followed {floor : Nat} {ts tail : List Token} {e : ParseError}
    (f : Nat → Nat) (h : FailsClimbs floor ts e) (htail : e.IsEnd → tail = []) :
    FailsClimbs floor (ts.map (moved f) ++ tail) (e.moved f) := by
  match h with
  | .right hop hfloor h => exact .right hop hfloor (h.followed f htail)
  | .more hop hfloor operand h =>
      exact .more hop hfloor (operand.followed f fun hmid => absurd hmid h.ne_nil)
        (h.followed f htail)

theorem FailsOperand.followed {ts tail : List Token} {e : ParseError} (f : Nat → Nat)
    (h : FailsOperand ts e) (htail : e.IsEnd → tail = []) :
    FailsOperand (ts.map (moved f) ++ tail) (e.moved f) := by
  match h with
  | .nil =>
      obtain rfl := htail (.inl rfl)
      exact .nil
  | .none (t := t) ht => exact FailsOperand.none (t := moved f t) ht
  | .number (t := t) hkind h =>
      obtain rfl := numberLiteral_eq_error h
      exact FailsOperand.number (t := moved f t) hkind h
  | .unary hkind htext h => exact .unary hkind htext (h.followed f htail)
  | .inner hkind h => exact .inner hkind (h.followed f htail)
  | .unclosed hkind inner =>
      obtain rfl := htail (.inr rfl)
      exact .unclosed hkind (inner.followed f fun _ => endsExpr_nil)
  | .notClosed (u := u) hkind inner hother =>
      exact FailsOperand.notClosed (u := moved f u) hkind (inner.followed f nofun) hother
  | .call (t := t) hkind hword hparen hclose h =>
      exact FailsOperand.call (t := moved f t) hkind hword hparen
        (h.not_closed_followed hclose htail) (h.followed f htail)

theorem FailsSomeArgs.followed {name : String} {ts tail : List Token} {e : ParseError}
    (f : Nat → Nat) (h : FailsSomeArgs name ts e) (htail : e.IsEnd → tail = []) :
    FailsSomeArgs name (ts.map (moved f) ++ tail) (e.moved f) := by
  match h with
  | .arg h =>
      rw [← argumentError_moved]
      exact .arg (h.followed f fun he => htail ((isEnd_argumentError name _).2 he))
  | .unclosed arg =>
      obtain rfl := htail (.inr rfl)
      exact .unclosed (arg.followed f fun _ => endsExpr_nil)
  | .notSeparated (t := t) arg ht =>
      exact FailsSomeArgs.notSeparated (t := moved f t) (arg.followed f nofun) ht
  | .more arg hcomma h => exact .more (arg.followed f nofun) hcomma (h.followed f htail)

end

theorem FailsExpr.append {floor : Nat} {ts tail : List Token} {e : ParseError}
    (h : FailsExpr floor ts e) (htail : e.IsEnd → tail = []) : FailsExpr floor (ts ++ tail) e := by
  simpa using h.followed id htail

/-- Where tokens stand does not matter for what is read, and for why they are refused. -/
theorem ofTokens_moved (f : Nat → Nat) (ts : List Token) :
    ofTokens (ts.map (moved f)) = (ofTokens ts).mapError (·.moved f) := by
  cases h : ofTokens ts with
  | ok x =>
      have hmoved := (ofTokens_eq_ok.1 h).followed f fun _ => endsExpr_nil
      refine ofTokens_eq_ok.2 ?_
      simpa using hmoved
  | error e =>
      refine ofTokens_eq_error.2 ?_
      rcases ofTokens_eq_error.1 h with hfails | ⟨x, t, rest, hreads, rfl⟩
      · have hmoved := hfails.followed f fun _ => rfl
        exact .inl (by simpa using hmoved)
      · have hmoved : ReadsExpr 0 (ts.map (moved f) ++ []) x ((t :: rest).map (moved f) ++ []) :=
          hreads.followed f nofun
        exact .inr ⟨x, moved f t, rest.map (moved f), by simpa using hmoved, rfl⟩

end Expr

end Sluice

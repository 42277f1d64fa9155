import Sluice.Expr.Parser

/-!
# The grammar of expressions

What the readers accept, as rules: which tokens at the start of a list make an expression,
and which tokens are left. The rules say the same as the readers (`readExpr_eq_ok`), so that
facts about accepted tokens are inductions over derivations, and a text is shown to be
accepted by giving its derivation.
-/
namespace Sluice.Expr

open Sluice.Text

/-- The expression that a token is by itself. -/
def atom? (t : Token) : Option Expr :=
  match t.kind with
  | .quotedTemplate | .singleQuotedTemplate | .bareTemplate => some (.template t.text)
  | .path => some (.path t.text)
  | .number => (numberLiteral t.text).toOption
  | .string => some (.literal (.string (String.ofList (unquote t.text.toList))))
  | _ => none

/-- The first token, if there is one, is no operator that binds tighter than `floor`. -/
def StopsAt (floor : Nat) (ts : List Token) : Prop :=
  ∀ t ∈ ts.head?, ∀ op ∈ binaryOperator? t, op.precedence ≤ floor

/-- The word before these tokens is called. -/
def CallFollows (name : String) (ts : List Token) : Prop :=
  isLiteralWord name = false ∧ ∃ t ∈ ts.head?, t.kind = .leftParen

mutual

/-- The tokens are an expression whose operators all bind tighter than `floor`, and others
after it. -/
inductive ReadsExpr : Nat → List Token → Expr → List Token → Prop where
  | mk {floor : Nat} {ts mid rest : List Token} {left e : Expr}
      (operand : ReadsOperand ts left mid) (more : Climbs floor left mid e rest) :
      ReadsExpr floor ts e rest

/-- An expression goes on over the tokens while operators bind tighter than `floor`. -/
inductive Climbs : Nat → Expr → List Token → Expr → List Token → Prop where
  | done {floor : Nat} {left : Expr} {ts : List Token} (h : StopsAt floor ts) :
      Climbs floor left ts left ts
  | step {floor : Nat} {left right e : Expr} {t : Token} {ts mid rest : List Token}
      {op : Operator} (hop : binaryOperator? t = some op) (hfloor : floor < op.precedence)
      (operand : ReadsExpr op.precedence ts right mid)
      (more : Climbs floor (.binary left op right) mid e rest) :
      Climbs floor left (t :: ts) e rest

/-- The tokens are one operand and others after it. -/
inductive ReadsOperand : List Token → Expr → List Token → Prop where
  | not {t : Token} {ts rest : List Token} {e : Expr} (hkind : t.kind = .operator)
      (htext : t.text = "!") (operand : ReadsOperand ts e rest) :
      ReadsOperand (t :: ts) (.unary .not e) rest
  | minus {t : Token} {ts rest : List Token} {e : Expr} (hkind : t.kind = .operator)
      (htext : t.text = "-") (operand : ReadsOperand ts e rest) :
      ReadsOperand (t :: ts) (negated e) rest
  | paren {t close : Token} {ts rest : List Token} {e : Expr} (hkind : t.kind = .leftParen)
      (inner : ReadsExpr 0 ts e (close :: rest)) (hclose : close.kind = .rightParen) :
      ReadsOperand (t :: ts) e rest
  | atom {t : Token} {ts : List Token} {e : Expr} (h : atom? t = some e) :
      ReadsOperand (t :: ts) e ts
  | word {t : Token} {ts : List Token} (hkind : t.kind = .identifier)
      (h : ¬ CallFollows t.text ts) : ReadsOperand (t :: ts) (word t.text) ts
  | call {t paren : Token} {ts rest : List Token} {args : List Expr}
      (hkind : t.kind = .identifier) (hword : isLiteralWord t.text = false)
      (hparen : paren.kind = .leftParen) (inner : ReadsArgs ts args rest) :
      ReadsOperand (t :: paren :: ts) (.call t.text args) rest

/-- The tokens are the arguments of a call, its closing parenthesis, and others after it. -/
inductive ReadsArgs : List Token → List Expr → List Token → Prop where
  | none {close : Token} {ts : List Token} (hclose : close.kind = .rightParen) :
      ReadsArgs (close :: ts) [] ts
  | some {ts rest : List Token} {args : List Expr} (inner : ReadsSomeArgs ts args rest) :
      ReadsArgs ts args rest

/-- The same with one argument or more. -/
inductive ReadsSomeArgs : List Token → List Expr → List Token → Prop where
  | last {ts rest : List Token} {e : Expr} {close : Token} (arg : ReadsExpr 0 ts e (close :: rest))
      (hclose : close.kind = .rightParen) : ReadsSomeArgs ts [e] rest
  | more {ts mid rest : List Token} {e : Expr} {args : List Expr} {comma : Token}
      (arg : ReadsExpr 0 ts e (comma :: mid)) (hcomma : comma.kind = .comma)
      (others : ReadsSomeArgs mid args rest) : ReadsSomeArgs ts (e :: args) rest

end

mutual

theorem readsExpr_of_readExpr {floor : Nat} {ts : List Token} {r : Reading ts}
    (h : readExpr floor ts = .ok r) : ReadsExpr floor ts r.expr r.rest := by
  rw [readExpr] at h
  split at h
  · cases h
  · next left hleft =>
      have := left.shorter
      split at h
      · cases h
      · next whole hwhole =>
          cases h
          exact .mk (readsOperand_of_readOperand hleft) (climbs_of_climb hwhole)
termination_by 3 * ts.length + 1

theorem climbs_of_climb {floor : Nat} {left : Expr} {ts : List Token} {r : Extension ts}
    (h : climb floor left ts = .ok r) : Climbs floor left ts r.expr r.rest := by
  match ts, r, h with
  | [], r, h =>
      rw [climb] at h
      cases h
      exact .done (by simp [StopsAt])
  | t :: ts, r, h =>
      rw [climb] at h
      split at h
      · next hop =>
          cases h
          exact .done (by simp [StopsAt, hop])
      · next op hop =>
          split at h
          · next hfloor =>
              cases h
              exact .done (by simpa [StopsAt, hop] using hfloor)
          · next hfloor =>
              split at h
              · cases h
              · next right hright =>
                  have := right.shorter
                  split at h
                  · cases h
                  · next whole hwhole =>
                      cases h
                      exact .step hop (by omega) (readsExpr_of_readExpr hright)
                        (climbs_of_climb hwhole)
termination_by 3 * ts.length

theorem readsOperand_of_readOperand {ts : List Token} {r : Reading ts}
    (h : readOperand ts = .ok r) : ReadsOperand ts r.expr r.rest := by
  match ts, r, h with
  | [], r, h => simp [readOperand] at h
  | t :: ts, r, h =>
      rw [readOperand.eq_def] at h
      dsimp only at h
      split at h
      · next hkind =>
          split at h
          · next htext =>
              split at h
              · cases h
              · next operand hoperand =>
                  cases h
                  exact .not hkind htext (readsOperand_of_readOperand hoperand)
          · split at h
            · next htext =>
                split at h
                · cases h
                · next operand hoperand =>
                    cases h
                    exact .minus hkind htext (readsOperand_of_readOperand hoperand)
            · cases h
      · next hkind =>
          split at h
          · cases h
          · cases h
          · next e close rest hlt hinner =>
              split at h
              · next hclose =>
                  cases h
                  exact .paren hkind (readsExpr_of_readExpr hinner) hclose
              · cases h
      · next hkind =>
          cases h
          exact .atom (by simp [atom?, hkind])
      · next hkind =>
          cases h
          exact .atom (by simp [atom?, hkind])
      · next hkind =>
          cases h
          exact .atom (by simp [atom?, hkind])
      · next hkind =>
          cases h
          exact .atom (by simp [atom?, hkind])
      · next hkind =>
          split at h
          · cases h
          · next e hnumber =>
              cases h
              exact .atom (by simp [atom?, hkind, hnumber, Except.toOption])
      · next hkind =>
          cases h
          exact .atom (by simp [atom?, hkind])
      · next hkind =>
          split at h
          · next paren ts =>
              split at h
              · next hcall =>
                  simp only [Bool.and_eq_true, decide_eq_true_eq, Bool.not_eq_true'] at hcall
                  split at h
                  · cases h
                  · next args hargs =>
                      cases h
                      exact .call hkind hcall.2 hcall.1 (readsArgs_of_readArgs hargs)
              · next hcall =>
                  cases h
                  refine .word hkind ?_
                  rintro ⟨hword, t', ht', hparen⟩
                  cases ht'
                  simp [hword, hparen] at hcall
          · cases h
            exact .word hkind (by simp [CallFollows])
      · cases h
      · cases h
termination_by 3 * ts.length

theorem readsArgs_of_readArgs {name : String} {ts : List Token} {r : ArgsReading ts}
    (h : readArgs name ts = .ok r) : ReadsArgs ts r.args r.rest := by
  match ts, r, h with
  | [], r, h => simp [readArgs] at h
  | t :: ts, r, h =>
      rw [readArgs] at h
      split at h
      · next hclose =>
          cases h
          exact .none hclose
      · exact .some (readsSomeArgs_of_readSomeArgs h)
termination_by 3 * ts.length + 3

theorem readsSomeArgs_of_readSomeArgs {name : String} {ts : List Token} {r : ArgsReading ts}
    (h : readSomeArgs name ts = .ok r) : ReadsSomeArgs ts r.args r.rest := by
  rw [readSomeArgs] at h
  split at h
  · cases h
  · cases h
  · next e t rest hlt hexpr =>
      have harg := readsExpr_of_readExpr hexpr
      split at h
      · next hclose =>
          cases h
          exact .last harg hclose
      · split at h
        · next hcomma =>
            split at h
            · cases h
            · next others hothers =>
                have := Nat.lt_of_succ_lt hlt
                cases h
                exact .more harg hcomma (readsSomeArgs_of_readSomeArgs hothers)
        · cases h
termination_by 3 * ts.length + 2

end

theorem climb_of_stopsAt {floor : Nat} {left : Expr} {ts : List Token} (h : StopsAt floor ts) :
    climb floor left ts = .ok ⟨left, ts, Nat.le_refl _⟩ := by
  cases ts with
  | nil => rw [climb]
  | cons t ts =>
      rw [climb]
      split
      · rfl
      · next op hop => rw [if_pos (h t (by simp) op (by simp [hop]))]

theorem readOperand_of_atom? {t : Token} {e : Expr} (ts : List Token) (h : atom? t = some e) :
    readOperand (t :: ts) = .ok ⟨e, ts, Nat.lt_succ_self _⟩ := by
  rw [readOperand.eq_def]
  dsimp only
  unfold atom? at h
  cases hkind : t.kind <;> simp only [hkind] at h ⊢
  case number =>
      cases hnumber : numberLiteral t.text with
      | error => simp [hnumber, Except.toOption] at h
      | ok => simpa [hnumber, Except.toOption] using h
  all_goals simp_all

theorem readOperand_of_word {t : Token} {ts : List Token} (hkind : t.kind = .identifier)
    (h : ¬ CallFollows t.text ts) : readOperand (t :: ts) = .ok ⟨word t.text, ts, Nat.lt_succ_self _⟩ := by
  rw [readOperand.eq_def]
  dsimp only
  rw [hkind]
  cases ts with
  | nil => rfl
  | cons paren ts =>
      have hcall : ¬ (paren.kind = .leftParen ∧ isLiteralWord t.text = false) :=
        fun hc => h ⟨hc.2, paren, by simp, hc.1⟩
      simp [hcall]

/-- No operand begins with a closing parenthesis. -/
theorem ReadsOperand.exists_cons {ts rest : List Token} {e : Expr} (h : ReadsOperand ts e rest) :
    ∃ t ts', ts = t :: ts' ∧ t.kind ≠ .rightParen := by
  cases h with
  | not hkind => exact ⟨_, _, rfl, by simp [hkind]⟩
  | minus hkind => exact ⟨_, _, rfl, by simp [hkind]⟩
  | paren hkind => exact ⟨_, _, rfl, by simp [hkind]⟩
  | atom h => exact ⟨_, _, rfl, fun hkind => by simp [atom?, hkind] at h⟩
  | word hkind => exact ⟨_, _, rfl, by simp [hkind]⟩
  | call hkind => exact ⟨_, _, rfl, by simp [hkind]⟩

theorem ReadsSomeArgs.exists_cons {ts rest : List Token} {args : List Expr}
    (h : ReadsSomeArgs ts args rest) : ∃ t ts', ts = t :: ts' ∧ t.kind ≠ .rightParen := by
  cases h with
  | last arg => cases arg with | mk operand => exact operand.exists_cons
  | more arg => cases arg with | mk operand => exact operand.exists_cons

mutual

theorem ReadsExpr.complete {floor : Nat} {ts rest : List Token} {e : Expr}
    (h : ReadsExpr floor ts e rest) : ∃ hlt, readExpr floor ts = .ok ⟨e, rest, hlt⟩ := by
  match h with
  | .mk operand more =>
      obtain ⟨hlt, hoperand⟩ := operand.complete
      obtain ⟨hle, hmore⟩ := more.complete
      exact ⟨Nat.lt_of_le_of_lt hle hlt, by rw [readExpr, hoperand]; dsimp only; rw [hmore]⟩

theorem Climbs.complete {floor : Nat} {left e : Expr} {ts rest : List Token}
    (h : Climbs floor left ts e rest) : ∃ hle, climb floor left ts = .ok ⟨e, rest, hle⟩ := by
  match h with
  | .done h => exact ⟨Nat.le_refl _, climb_of_stopsAt h⟩
  | .step hop hfloor operand more =>
      obtain ⟨hlt, hoperand⟩ := operand.complete
      obtain ⟨hle, hmore⟩ := more.complete
      refine ⟨by simp only [List.length_cons]; omega, ?_⟩
      rw [climb, hop]
      dsimp only
      rw [if_neg (by omega), hoperand]
      dsimp only
      rw [hmore]

theorem ReadsOperand.complete {ts rest : List Token} {e : Expr} (h : ReadsOperand ts e rest) :
    ∃ hlt, readOperand ts = .ok ⟨e, rest, hlt⟩ := by
  match h with
  | .not hkind htext operand =>
      obtain ⟨hlt, hoperand⟩ := operand.complete
      exact ⟨Nat.lt_succ_of_lt hlt, by rw [readOperand.eq_def]; simp [hkind, htext, hoperand]⟩
  | .minus hkind htext operand =>
      obtain ⟨hlt, hoperand⟩ := operand.complete
      exact ⟨Nat.lt_succ_of_lt hlt, by rw [readOperand.eq_def]; simp [hkind, htext, hoperand]⟩
  | .paren hkind inner hclose =>
      obtain ⟨hlt, hinner⟩ := inner.complete
      exact ⟨by simp at hlt ⊢; omega, by rw [readOperand.eq_def]; simp [hkind, hinner, hclose]⟩
  | .atom h => exact ⟨Nat.lt_succ_self _, readOperand_of_atom? _ h⟩
  | .word hkind h => exact ⟨Nat.lt_succ_self _, readOperand_of_word hkind h⟩
  | .call (t := t) hkind hword hparen inner =>
      obtain ⟨hlt, hinner⟩ := inner.complete t.text
      exact ⟨by simp; omega, by rw [readOperand.eq_def]; simp [hkind, hword, hparen, hinner]⟩

theorem ReadsArgs.complete {ts rest : List Token} {args : List Expr}
    (h : ReadsArgs ts args rest) (name : String) :
    ∃ hlt, readArgs name ts = .ok ⟨args, rest, hlt⟩ := by
  match h with
  | .none hclose => exact ⟨by simp, by rw [readArgs, if_pos hclose]⟩
  | .some inner =>
      obtain ⟨hlt, hinner⟩ := inner.complete name
      obtain ⟨t, ts, rfl, ht⟩ := inner.exists_cons
      exact ⟨hlt, by rw [readArgs, if_neg ht, hinner]⟩

theorem ReadsSomeArgs.complete {ts rest : List Token} {args : List Expr}
    (h : ReadsSomeArgs ts args rest) (name : String) :
    ∃ hlt, readSomeArgs name ts = .ok ⟨args, rest, hlt⟩ := by
  match h with
  | .last arg hclose =>
      obtain ⟨hlt, harg⟩ := arg.complete
      exact ⟨Nat.lt_of_succ_lt hlt, by rw [readSomeArgs, harg]; simp [hclose]⟩
  | .more arg hcomma others =>
      obtain ⟨hlt, harg⟩ := arg.complete
      obtain ⟨hlt', hothers⟩ := others.complete name
      refine ⟨by simp at hlt; omega, ?_⟩
      rw [readSomeArgs, harg]
      simp [hcomma, hothers]

end

/-- The reader accepts what the rules accept. -/
theorem readExpr_eq_ok {floor : Nat} {ts rest : List Token} {e : Expr} :
    (∃ hlt, readExpr floor ts = .ok ⟨e, rest, hlt⟩) ↔ ReadsExpr floor ts e rest :=
  ⟨fun ⟨_, h⟩ => readsExpr_of_readExpr h, ReadsExpr.complete⟩

theorem ofTokens_eq_ok {ts : List Token} {e : Expr} :
    ofTokens ts = .ok e ↔ ReadsExpr 0 ts e [] := by
  rw [← readExpr_eq_ok, ofTokens]
  split
  · next h => simp [h]
  · next hlt h => simpa [h] using fun _ => hlt
  · next h => simp [h]

/-- A text is accepted if it is not blank and its tokens are one expression. -/
theorem parse_eq_ok {text : String} {e : Expr} :
    parse text = .ok e ↔ trimmed text ≠ "" ∧
      ∃ ts, Token.tokenize (trimmed text) = .ok ts ∧ ReadsExpr 0 ts e [] := by
  simp only [parse, ← ofTokens_eq_ok, String.isEmpty_iff]
  split
  · next h => simp [h]
  · next h =>
      split
      · next htokens => simp [htokens]
      · next htokens => simp [h, htokens]

/-- A text whose tokens have been found is read by a derivation from them. -/
theorem parse_of_tokens {text : String} {ts : List Token} {e : Expr}
    (htrimmed : trimmed text = text) (hne : text ≠ "")
    (htokens : (Token.tokenize text).toOption = some ts) (hreads : ReadsExpr 0 ts e []) :
    parse text = .ok e := by
  refine parse_eq_ok.2 ⟨by rwa [htrimmed], ts, ?_, hreads⟩
  rw [htrimmed]
  cases hts : Token.tokenize text with
  | error failure => simp [hts, Except.toOption] at htokens
  | ok ts' => simpa [hts, Except.toOption] using htokens

end Sluice.Expr

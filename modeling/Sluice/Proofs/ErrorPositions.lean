import Sluice.Proofs.Refusals
import Sluice.Proofs.TokenNesting

/-!
# Where an error stands

A refused character or token is reported with the byte at which it stands. The bytes are counted
in the text without the blanks around it: in the text that was handed in, the character or the
token stands as many bytes further on as there are before the first character that is no blank.
-/
namespace Sluice

open Text

/-- A piece stands in a text from a byte on. -/
def Text.StandsAt (piece : List Char) (byte : Nat) (cs : List Char) : Prop :=
  ∃ before after, cs = before ++ (piece ++ after) ∧ byteLength before = byte

/-- The bytes of the blanks that a text begins with. -/
def Text.leadingBytes (text : String) : Nat :=
  byteLength (text.toList.takeWhile isBlank)

theorem Text.standsAt_zero {piece cs : List Char} : StandsAt piece 0 cs ↔ piece <+: cs := by
  constructor
  · rintro ⟨before, after, rfl, hbefore⟩
    cases before with
    | nil => exact List.prefix_append piece after
    | cons c before =>
        have hpos := c.utf8Size_pos
        rw [byteLength_cons] at hbefore
        omega
  · rintro ⟨after, rfl⟩
    exact ⟨[], after, rfl, rfl⟩

theorem Text.standsAt_cons {piece cs : List Char} {c : Char} {byte : Nat} :
    StandsAt piece (c.utf8Size + byte) (c :: cs) ↔ StandsAt piece byte cs := by
  constructor
  · rintro ⟨before, after, hcs, hbefore⟩
    cases before with
    | nil =>
        have hpos := c.utf8Size_pos
        rw [byteLength_nil] at hbefore
        omega
    | cons d before =>
        cases hcs
        rw [byteLength_cons] at hbefore
        exact ⟨before, after, rfl, Nat.add_left_cancel hbefore⟩
  · rintro ⟨before, after, rfl, rfl⟩
    exact ⟨c :: before, after, rfl, byteLength_cons c before⟩

theorem Text.leadingBytes_eq_zero {text : String} :
    leadingBytes text = 0 ↔ ∀ c ∈ text.toList.head?, isBlank c = false := by
  rw [leadingBytes]
  cases text.toList with
  | nil => simp
  | cons c cs =>
      cases hc : isBlank c with
      | true =>
          have hpos := c.utf8Size_pos
          simp [hc]
          omega
      | false => simp [hc]

/-- What stands in the trimmed text stands in the whole text, after the leading blanks. -/
theorem Text.StandsAt.of_trim {piece : List Char} {byte : Nat} {text : String}
    (h : StandsAt piece byte (trim text.toList)) :
    StandsAt piece (leadingBytes text + byte) text.toList := by
  obtain ⟨before, after, htrim, rfl⟩ := h
  obtain ⟨blanks, hend, -⟩ := exists_trimEnd (trimStart text.toList)
  rw [← trim, htrim] at hend
  have hstart : text.toList.takeWhile isBlank ++ trimStart text.toList = text.toList :=
    List.takeWhile_append_dropWhile
  refine ⟨text.toList.takeWhile isBlank ++ before, after ++ blanks, ?_, byteLength_append _ _⟩
  conv_lhs => rw [← hstart, hend]
  simp

/-! ## Which token is refused -/

/-- An error of the readers is about no character, and if it is about a token, then about one
of these. -/
def ParseError.AmongTokens (ts : List Token) : ParseError → Prop
  | .unexpectedCharacter .. => False
  | .unexpectedToken token position => ∃ t ∈ ts, t.text = token ∧ t.position = position
  | _ => True

theorem ParseError.AmongTokens.of_subset {ts us : List Token} {e : ParseError}
    (h : e.AmongTokens ts) (hsubset : ts ⊆ us) : e.AmongTokens us := by
  cases e with
  | unexpectedToken token position =>
      obtain ⟨t, ht, hstands⟩ := h
      exact ⟨t, hsubset ht, hstands⟩
  | unexpectedCharacter c position => exact h
  | _ => trivial

theorem ParseError.AmongTokens.cons {ts : List Token} {e : ParseError} (h : e.AmongTokens ts)
    (t : Token) : e.AmongTokens (t :: ts) :=
  h.of_subset (List.subset_cons_self t ts)

theorem ParseError.AmongTokens.append {ts : List Token} {e : ParseError} (h : e.AmongTokens ts)
    (us : List Token) : e.AmongTokens (us ++ ts) :=
  h.of_subset (List.subset_append_right us ts)

theorem ParseError.amongTokens_token {t : Token} {ts : List Token} (ht : t ∈ ts) :
    (ParseError.unexpectedToken t.text t.position).AmongTokens ts :=
  ⟨t, ht, rfl, rfl⟩

namespace Expr

/-- The cause that a call gives instead is about no token, unless it is the same. -/
theorem amongTokens_argumentError {ts : List Token} {e : ParseError} (h : e.AmongTokens ts)
    (name : String) : (argumentError name e).AmongTokens ts := by
  cases e with
  | unexpectedCharacter c position => exact h
  | _ => trivial

mutual

/-- A token that is refused is one of those that were to be read. -/
theorem FailsExpr.amongTokens {floor : Nat} {ts : List Token} {e : ParseError}
    (h : FailsExpr floor ts e) : e.AmongTokens ts := by
  match h with
  | .operand h => exact h.amongTokens
  | .more operand h =>
      obtain ⟨us, hts, -⟩ := operand.nests
      rw [hts]
      exact h.amongTokens.append us

theorem FailsClimbs.amongTokens {floor : Nat} {ts : List Token} {e : ParseError}
    (h : FailsClimbs floor ts e) : e.AmongTokens ts := by
  match h with
  | .right (t := t) _ _ h => exact h.amongTokens.cons t
  | .more (t := t) _ _ operand h =>
      obtain ⟨us, hts, -⟩ := operand.nests
      rw [hts]
      exact (h.amongTokens.append us).cons t

theorem FailsOperand.amongTokens {ts : List Token} {e : ParseError} (h : FailsOperand ts e) :
    e.AmongTokens ts := by
  match h with
  | .nil => trivial
  | .none _ => exact ParseError.amongTokens_token List.mem_cons_self
  | .number _ h =>
      obtain rfl := numberLiteral_eq_error h
      trivial
  | .unary (t := t) _ _ h => exact h.amongTokens.cons t
  | .inner (t := t) _ h => exact h.amongTokens.cons t
  | .unclosed _ _ => trivial
  | .notClosed _ inner _ =>
      obtain ⟨us, rfl, -⟩ := inner.nests
      exact ParseError.amongTokens_token (by simp)
  | @FailsOperand.call t paren _ _ _ _ _ _ h => exact (h.amongTokens.cons paren).cons t

theorem FailsSomeArgs.amongTokens {name : String} {ts : List Token} {e : ParseError}
    (h : FailsSomeArgs name ts e) : e.AmongTokens ts := by
  match h with
  | .arg h => exact amongTokens_argumentError h.amongTokens name
  | .unclosed _ => trivial
  | .notSeparated _ _ => trivial
  | @FailsSomeArgs.more _ comma _ _ _ _ arg _ h =>
      obtain ⟨us, hts, -⟩ := arg.nests
      rw [hts]
      exact (h.amongTokens.cons comma).append us

end

theorem amongTokens_of_ofTokens {ts : List Token} {e : ParseError} (h : ofTokens ts = .error e) :
    e.AmongTokens ts := by
  rcases ofTokens_eq_error.1 h with hfails | ⟨x, t, rest, hreads, rfl⟩
  · exact hfails.amongTokens
  · obtain ⟨us, rfl, -⟩ := hreads.nests
    exact ParseError.amongTokens_token (by simp)

end Expr

/-! ## Errors in a text -/

/-- The character or token that an error is about stands in the text, where bytes are counted
from `start` on. -/
def ParseError.PointsInto (start : Nat) (cs : List Char) : ParseError → Prop
  | .unexpectedCharacter c position => StandsAt [c] (start + position) cs
  | .unexpectedToken token position => StandsAt token.toList (start + position) cs
  | _ => True

theorem Token.pointsInto_of_tokenize {text : String} {e : ParseError}
    (h : tokenize text = .error e) : e.PointsInto 0 text.toList := by
  obtain ⟨before, c, after, htext, rfl, -⟩ := (scanned_scan 0 text.toList).stuck_at h
  exact ⟨before, after, htext, (Nat.zero_add _).symm.trans (Nat.zero_add _).symm⟩

theorem ParseError.AmongTokens.pointsInto {cs : List Char} {ts : List Token} {e : ParseError}
    (h : e.AmongTokens ts) (htokens : Token.Tokenizes 0 cs ts) : e.PointsInto 0 cs := by
  cases e with
  | unexpectedCharacter c position => exact h.elim
  | unexpectedToken token position =>
      obtain ⟨t, ht, rfl, rfl⟩ := h
      obtain ⟨before, after, hcs, hposition, -⟩ := htokens.lexemes t ht
      exact ⟨before, after, hcs, by omega⟩
  | _ => trivial

/-- In the trimmed text, errors stand where they are reported. -/
theorem Expr.pointsInto_of_parse {text : String} {e : ParseError} (h : parse text = .error e) :
    e.PointsInto 0 (trim text.toList) := by
  rw [← toList_trimmed]
  rw [parse] at h
  split at h
  · cases h
    trivial
  · cases htokens : Token.tokenize (trimmed text) with
    | error e' =>
        rw [htokens] at h
        cases h
        exact Token.pointsInto_of_tokenize htokens
    | ok ts =>
        rw [htokens] at h
        exact (amongTokens_of_ofTokens h).pointsInto (Token.tokenizes_of_scan htokens)

/-- A refused token or character stands at its position, counted from the first character of the
text that is no blank. Counted from the first character of the text it stands there if the text
does not begin with a blank. -/
theorem Expr.parse_points_after_blanks {text : String} {e : ParseError}
    (h : parse text = .error e) :
    e.PointsInto (leadingBytes text) text.toList ∧
      ((∀ c ∈ text.toList.head?, isBlank c = false) → e.PointsInto 0 text.toList) := by
  have hpoints : e.PointsInto (leadingBytes text) text.toList := by
    have htrimmed := pointsInto_of_parse h
    cases e with
    | unexpectedCharacter c position =>
        rw [ParseError.PointsInto, Nat.zero_add] at htrimmed
        exact htrimmed.of_trim
    | unexpectedToken token position =>
        rw [ParseError.PointsInto, Nat.zero_add] at htrimmed
        exact htrimmed.of_trim
    | _ => trivial
  refine ⟨hpoints, fun hhead => ?_⟩
  rwa [leadingBytes_eq_zero.2 hhead] at hpoints

theorem Expr.parse_eq_error_of_tokens {text : String} {ts : List Token} {e : ParseError}
    (hne : (trimmed text).isEmpty = false) (htokens : Token.tokenize (trimmed text) = .ok ts)
    (h : ofTokens ts = .error e) : parse text = .error e := by
  rw [parse, if_neg (by simpa using hne), htokens]
  exact h

/-- A misplaced token after blanks and a wide character. -/
theorem Expr.parse_points_after_blanks_of_wide :
    parse "\t'é' b" = .error (.unexpectedToken "b" 5) ∧
      (ParseError.unexpectedToken "b" 5).PointsInto (leadingBytes "\t'é' b") "\t'é' b".toList ∧
      ((∀ c ∈ "\t'é' b".toList.head?, isBlank c = false) →
        (ParseError.unexpectedToken "b" 5).PointsInto 0 "\t'é' b".toList) := by
  have hnext : binaryOperator? ⟨.identifier, "b", 5⟩ = none := by decide
  have hreads : ReadsExpr 0 [⟨.string, "'é'", 0⟩, ⟨.identifier, "b", 5⟩]
      (.literal (.string (String.ofList (unquote "'é'".toList)))) [⟨.identifier, "b", 5⟩] :=
    .mk (.atom rfl) (.done (by simp [StopsAt, hnext]))
  have h : parse "\t'é' b" = .error (.unexpectedToken "b" 5) :=
    parse_eq_error_of_tokens (by decide +kernel) (by decide +kernel)
      (ofTokens_eq_error.2 (.inr ⟨_, _, _, hreads, rfl⟩))
  exact ⟨h, parse_points_after_blanks h⟩

/-- Two blanks before a misplaced token: at the byte that is reported, another token stands. -/
theorem Expr.not_forall_parse_points :
    ¬ ∀ text e, parse text = .error e → e.PointsInto 0 text.toList := by
  intro h
  have hnext : binaryOperator? ⟨.identifier, "b", 2⟩ = none := by decide
  have hreads : ReadsExpr 0 [⟨.identifier, "a", 0⟩, ⟨.identifier, "b", 2⟩] (.identifier "a")
      [⟨.identifier, "b", 2⟩] :=
    .mk (.word rfl (by simp [CallFollows])) (.done (by simp [StopsAt, hnext]))
  have hparse : parse "  a b" = .error (.unexpectedToken "b" 2) :=
    parse_eq_error_of_tokens (by decide +kernel) (by decide +kernel)
      (ofTokens_eq_error.2 (.inr ⟨_, _, _, hreads, rfl⟩))
  have hstands : StandsAt ['b'] 2 [' ', ' ', 'a', ' ', 'b'] := h _ _ hparse
  have hprefix : ['b'] <+: ['a', ' ', 'b'] :=
    standsAt_zero.1 (standsAt_cons.1 (standsAt_cons.1 hstands))
  exact absurd hprefix (by decide)

end Sluice

import Sluice.Proofs.Embedding
import Sluice.Proofs.Nesting
import Sluice.Proofs.PlainText
import Sluice.Proofs.StageTexts

/-!
# Casts at the start of a pipeline

A pipeline that starts with a cast starts from the cast of its data, and not from the value of
an expression. The text is looked at as a stage for this: a name, and what stands in the
parentheses after it. On plain texts this finds casts only: the name of one, or an expression
that is a call of one as a whole.
-/
namespace Sluice

open Sluice.Text Sluice.Pipeline Sluice.Token Sluice.Expr

/-- The text is the name of a cast or a single call of one. -/
def IsCast (text : String) : Prop :=
  ∃ b : Builtin, b.isCast = true ∧ (trimmed text = b.name ∨
    ((trimmed text).toList.head? ≠ some '(' ∧ ∃ args, parse text = .ok (.call b.name args)))

variable {cs : List Char} {position : Nat} {ts us mid : List Token} {e : Expr}

/-- A closing parenthesis is the first token after blanks. -/
theorem Token.exists_of_scan_rightParen {close : Token} (h : scan position cs = .ok (close :: ts))
    (hclose : close.kind = .rightParen) :
    ∃ blanks after position', cs = blanks ++ ')' :: after ∧ (∀ c ∈ blanks, isBlank c = true) ∧
      scan position' after = .ok ts := by
  obtain ⟨blanks, after, position', rfl, hblanks, hmatch, hafter⟩ := exists_of_scan_cons h
  have hlexeme := hmatch.lexeme
  rw [hclose, lexeme_rightParen] at hlexeme
  exact ⟨blanks, after, position', by simp [hlexeme], hblanks, hafter⟩

/-- If there are tokens after the parenthesis that closes a call, then what stands in front of
the last character has this parenthesis and is not balanced. -/
theorem not_balanced_dropLast {close : Token} (hscan : scan position cs = .ok (us ++ close :: mid))
    (hclose : close.kind = .rightParen) (hmid : mid ≠ []) (hnests : Nests 1 1 us 1)
    (hopening : '\x7b' ∉ cs) (hclosing : '\x7d' ∉ cs)
    (hpaths : ∀ t ∈ us, t.kind = .path → PlainPath t.text.toList) :
    balanced cs.dropLast = false := by
  have hsep : '|' ∈ separators := by decide
  obtain ⟨as, bs, p, rfl, hbs, has⟩ := exists_carried_of_scan hsep 0 hscan hopening hclosing hpaths
    hnests (Nat.le_refl 1)
  obtain ⟨blanks, after, p', rfl, hblanks, hafter⟩ := exists_of_scan_rightParen hbs hclose
  -- The tokens after the parenthesis are in the text, so the last character is none before it.
  have hne : after ≠ [] := by
    rintro rfl
    rw [scan] at hafter
    exact hmid (Except.ok.inj hafter).symm
  have hdrop : (as ++ (blanks ++ ')' :: after)).dropLast =
      as ++ (blanks ++ ')' :: after.dropLast) := by
    simp [List.dropLast_append_of_ne_nil, List.dropLast_cons_of_ne_nil hne]
  have hcarried : Carried '|' ⟨1, 0, none⟩ blanks ⟨1, 0, none⟩ :=
    carried_blanks hsep (by simp) hblanks
  calc balanced (as ++ (blanks ++ ')' :: after)).dropLast
      = balancedFrom 0 none (as ++ (blanks ++ ')' :: after.dropLast)) := by rw [hdrop, balanced]
    _ = balancedFrom 0 none (blanks ++ ')' :: after.dropLast) := has.balance _
    _ = balancedFrom 0 none (')' :: after.dropLast) := hcarried.balance _
    _ = false := by simp [balancedFrom, isQuote]

/-- A name and a parenthesis begin a call. -/
theorem Expr.ReadsExpr.exists_call {t paren : Token} {rest : List Token}
    (h : ReadsExpr 0 (t :: paren :: us) e rest) (hkind : t.kind = .identifier)
    (hword : isLiteralWord t.text = false) (hparen : paren.kind = .leftParen) :
    ∃ args mid, ReadsArgs us args mid ∧ Climbs 0 (.call t.text args) mid e rest := by
  cases h with
  | mk operand more =>
      cases operand with
      | call _ _ _ inner => exact ⟨_, _, inner, more⟩
      | word _ hcall => exact absurd ⟨hword, paren, rfl, hparen⟩ hcall
      | atom hatom => simp [atom?, hkind] at hatom
      | not hother => simp [hkind] at hother
      | minus hother => simp [hkind] at hother
      | paren hother => simp [hkind] at hother

theorem Builtin.name_of_ofName? {name : String} {b : Builtin} (h : ofName? name = some b) :
    b.name = name := by
  unfold ofName? at h
  split at h
  · next op hop =>
      cases h
      simpa only [Builtin.name, beq_iff_eq] using List.find?_some hop
  · simpa using List.find?_some h

theorem Builtin.isName_of_isCast {b : Builtin} (h : b.isCast = true) : IsName b.name := by
  cases b <;> first | exact ⟨by decide, by decide⟩ | cases h

theorem Expr.IsName.head?_append_ne {name : String} (h : IsName name) (rest : List Char) :
    (name.toList ++ rest).head? ≠ some '(' := by
  have hspelling := h.spelling
  obtain ⟨c, cs, hcs⟩ := List.exists_cons_of_ne_nil (ne_nil_of_identifierLength hspelling)
  rw [hcs] at hspelling ⊢
  rw [List.cons_append, List.head?_cons, ne_eq, Option.some.injEq]
  rintro rfl
  exact absurd hspelling (by simp [identifierLength, isNameStart])

/-- The tokens of a name with a parenthesis after it. -/
theorem Token.exists_scan_of_name {name : String} {gap rest : List Char} (hname : IsName name)
    (hgap : ∀ c ∈ gap, isBlank c = true)
    (h : scan 0 (name.toList ++ (gap ++ '(' :: rest)) = .ok ts) :
    ∃ p p' us, scan p' rest = .ok us ∧
      ts = ⟨.identifier, name, 0⟩ :: ⟨.leftParen, "(", p⟩ :: us := by
  have hword : ∀ c ∈ (gap ++ '(' :: rest).head?, isWord c = false := by
    cases gap with
    | nil => simpa using (by decide : isWord '(' = false)
    | cons c gap =>
        have hc : c ∈ ')' :: ',' :: blanks := by simp [mem_blanks (hgap c (by simp))]
        exact (stops_cons hc).notWord
  have hfirst := ScansTo.token 0 (ne_nil_of_identifierLength hname.spelling)
    (first?_identifier hname.spelling hword)
  have hblanks := ScansTo.blanks (0 + byteLength name.toList) hgap ('(' :: rest)
  have hopen := ScansTo.leftParen (0 + byteLength name.toList + byteLength gap) rest
  have hall := hfirst.trans (hblanks.trans hopen)
  rw [ScansTo, h] at hall
  cases hrest : scan (0 + byteLength name.toList + byteLength gap + 1) rest with
  | error e =>
      rw [hrest] at hall
      cases hall
  | ok us =>
      rw [hrest] at hall
      exact ⟨_, _, us, hrest, by simpa [Except.map] using hall⟩

theorem Pipeline.balanced_of_readStage {stage : String} {call : Stage}
    (h : readStage stage = .ok call) : balanced call.args.toList = true := by
  simp only [readStage] at h
  split at h
  · split at h
    · next hcheck =>
        cases h
        simpa using (Bool.and_eq_true_iff.1 hcheck).2
    · cases h
  · cases h

/-- An expression that is read from a name with parentheses is a call of the name, if what
stands in front of the last character is balanced. -/
theorem Expr.eq_call_of_balanced {text name : String} {gap rest : List Char}
    (htext : PlainText text) (hname : IsName name) (hgap : ∀ c ∈ gap, isBlank c = true)
    (hsplit : trim text.toList = name.toList ++ (gap ++ '(' :: rest))
    (hbalanced : balanced rest.dropLast = true) :
    ∃ args, parse text = .ok (.call name args) := by
  obtain ⟨e, he⟩ := htext.parses
  obtain ⟨-, ts, hscan, hreads⟩ := parse_eq_ok.1 he
  have hpaths := htext.paths ts hscan
  rw [tokenize, toList_trimmed, hsplit] at hscan
  obtain ⟨p, p', us, hus, rfl⟩ := exists_scan_of_name hname hgap hscan
  obtain ⟨args, mid, hargs, hmore⟩ := hreads.exists_call rfl hname.notLiteral rfl
  obtain ⟨vs, close, rfl, hclose, hnests⟩ := hargs.nests
  have hmem (c : Char) (hc : c ∉ text.toList) : c ∉ rest := fun hrest => by
    refine hc (mem_of_mem_trim ?_)
    simp [hsplit, hrest]
  have hmid : mid = [] := by
    by_contra hne
    have hnot := not_balanced_dropLast hus hclose hne (hnests 1 1 (Nat.le_refl 1) Nat.one_pos)
      (hmem _ htext.noOpening) (hmem _ htext.noClosing)
      fun t ht => hpaths t (by simp [ht])
    rw [hbalanced] at hnot
    cases hnot
  subst hmid
  cases hmore with
  | done => exact ⟨args, he⟩

/-- A plain text that is looked at as a cast is one. -/
theorem isCast_of_castStage? {text args : String} {b : Builtin} (htext : PlainText text)
    (h : Scope.castStage? (trimmed text) = some (b, args)) : IsCast text := by
  obtain ⟨name, hread, hofName, hcast⟩ := Scope.readStage_of_castStage? h
  obtain rfl := Builtin.name_of_ofName? hofName
  have hname := Builtin.isName_of_isCast hcast
  have hbalanced := balanced_of_readStage hread
  have hparts := nameAndArgs_of_readStage hread
  rw [toList_trimmed, trim_trim, nameAndArgs] at hparts
  refine ⟨b, hcast, ?_⟩
  split at hparts
  · obtain ⟨hall, -⟩ := Prod.mk.inj (Option.some.inj hparts)
    left
    rw [trimmed, hall, String.ofList_toList]
  · next before rest hcut =>
      right
      obtain ⟨hsplit, -⟩ := eq_of_cutAt hcut
      split at hparts
      · obtain ⟨hbefore, hargs⟩ := Prod.mk.inj (Option.some.inj hparts)
        obtain ⟨start, gap, he, hstart, hgap⟩ := exists_trim before
        rw [hbefore] at he
        -- The whole text is trimmed, so blanks are between the name and the parenthesis only.
        have hnil : start = [] := by
          by_contra hne
          obtain ⟨c, start, rfl⟩ := List.exists_cons_of_ne_nil hne
          have hc := head?_trim text.toList c (by simp [hsplit, he])
          simp [hstart c (by simp)] at hc
        have hwhole : trim text.toList = b.name.toList ++ (gap ++ '(' :: rest) := by
          rw [hsplit, he, hnil]
          simp
        rw [← hargs, balanced_trim] at hbalanced
        refine ⟨?_, eq_call_of_balanced htext hname hgap hwhole hbalanced⟩
        rw [toList_trimmed, hwhole]
        exact hname.head?_append_ne _
      · cases hparts

end Sluice

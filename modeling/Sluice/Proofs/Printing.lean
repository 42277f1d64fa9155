import Sluice.Proofs.Blanks
import Sluice.Proofs.Grammar
import Sluice.Proofs.Tokens

/-!
# Printing expressions

An expression is written with as few parentheses as the precedence of operators and their
grouping to the left allow. Numbers have many spellings and arguments may stand apart, so
printing is a relation. Reading a printed expression gives the expression back.
-/
namespace Sluice.Expr

open Sluice.Text Sluice.Token

/-- How tightly an expression holds together: as tightly as its operator binds, or more
tightly than any operator. -/
def level : Expr → Nat
  | .binary _ op _ => op.precedence
  | _ => 7

/-- The text of an expression where only those of a level may stand. -/
def enclosed (floor : Nat) (e : Expr) (cs : List Char) : List Char :=
  if e.level < floor then '(' :: (cs ++ [')']) else cs

/-- An ASCII letter or an underscore and word characters, and not a word for a literal. -/
structure IsName (name : String) : Prop where
  spelling : identifierLength name.toList = some name.toList.length
  notLiteral : isLiteralWord name = false

/-- The text is one number token, and it is read as the number. -/
structure Spells (token : List Char) (x : Float) : Prop where
  whole : numberLength token = some token.length
  value : Decimal.readFloat token = some x

mutual

/-- The text is the expression, printed with as few parentheses as it needs. -/
inductive Printed : Expr → List Char → Prop where
  | null : Printed (.literal .null) "null".toList
  | bool (b : Bool) : Printed (.literal (.bool b)) (if b then "true" else "false").toList
  | string {s : String} (hslash : '\\' ∉ s.toList) (hbrace : '\x7b' ∉ s.toList) :
      Printed (.literal (.string s)) (singleQuoted s.toList)
  | number {token : List Char} {x : Float} (h : Spells token x) :
      Printed (.literal (.number x)) token
  | negative {token : List Char} {x : Float} (h : Spells token x) :
      Printed (.literal (.number (-x))) ('-' :: token)
  | identifier {name : String} (h : IsName name) : Printed (.identifier name) name.toList
  | path {text : String} (h : pathLength text.toList = some text.toList.length) :
      Printed (.path text) text.toList
  | template {body : List Char} (h : '\x7d' ∉ body) :
      Printed (.template (String.ofList (bareTemplate body))) (bareTemplate body)
  | quotedTemplate {body : List Char} {q : Char} (hq : isQuote q = true) (h : '\x7d' ∉ body) :
      Printed (.template (String.ofList (q :: (bareTemplate body ++ [q]))))
        (q :: (bareTemplate body ++ [q]))
  | unary {op : UnaryOperator} {e : Expr} {cs : List Char} (operand : Printed e cs)
      (hnumber : op = .negate → ∀ x, e ≠ .literal (.number x)) :
      Printed (.unary op e) (op.symbol.toList ++ enclosed 7 e cs)
  | binary {op : Operator} {l r : Expr} {cs ds : List Char} (left : Printed l cs)
      (right : Printed r ds) :
      Printed (.binary l op r) (enclosed op.precedence l cs ++
        ' ' :: (op.symbol.toList ++ ' ' :: enclosed (op.precedence + 1) r ds))
  | call {name : String} {args : List Expr} {cs : List Char} (h : IsName name)
      (inner : PrintedArgs args cs) :
      Printed (.call name args) (name.toList ++ '(' :: (cs ++ [')']))

/-- The text is the arguments with commas between them, and spaces after the commas. -/
inductive PrintedArgs : List Expr → List Char → Prop where
  | none : PrintedArgs [] []
  | last {e : Expr} {cs : List Char} (arg : Printed e cs) : PrintedArgs [e] cs
  | more {e e' : Expr} {rest : List Expr} {cs ds : List Char} (arg : Printed e cs) (gap : Nat)
      (others : PrintedArgs (e' :: rest) ds) :
      PrintedArgs (e :: e' :: rest) (cs ++ ',' :: (List.replicate gap ' ' ++ ds))

end

/-- The next token opens no parenthesis. -/
def NotCalled (ts : List Token) : Prop :=
  ∀ t ∈ ts.head?, t.kind ≠ .leftParen

/-- The tokens are the expression as an operand. -/
def Operand (e : Expr) (ts : List Token) : Prop :=
  ∀ more, NotCalled more → ReadsOperand (ts ++ more) e more

/-- The tokens are the expression wherever operators of a level or looser stand around it. -/
def Holds (floor : Nat) (e : Expr) (ts : List Token) : Prop :=
  ∀ f more e' rest, f < floor → StopsAt floor more → NotCalled more →
    Climbs f e more e' rest → ReadsExpr f (ts ++ more) e' rest

theorem Operand.holds {e : Expr} {ts : List Token} (h : Operand e ts) (floor : Nat) :
    Holds floor e ts :=
  fun _ more _ _ _ _ hcalled hclimbs => .mk (h more hcalled) hclimbs

theorem StopsAt.mono {floor floor' : Nat} {ts : List Token} (h : StopsAt floor ts)
    (hle : floor ≤ floor') : StopsAt floor' ts :=
  fun t ht op hop => Nat.le_trans (h t ht op hop) hle

theorem Holds.mono {floor floor' : Nat} {e : Expr} {ts : List Token} (h : Holds floor' e ts)
    (hle : floor ≤ floor') : Holds floor e ts :=
  fun f more e' rest hf hstop => h f more e' rest (Nat.lt_of_lt_of_le hf hle) (hstop.mono hle)

/-- An operator between two operands that it holds makes an expression of its own level. -/
theorem Holds.binary {op : Operator} {l r : Expr} {ts us : List Token} {t : Token}
    (ht : binaryOperator? t = some op) (hkind : t.kind ≠ .leftParen)
    (hl : Holds op.precedence l ts) (hr : Holds (op.precedence + 1) r us) :
    Holds op.precedence (.binary l op r) (ts ++ t :: us) := by
  intro f more e' rest hf hstop hcalled hclimbs
  rw [List.append_assoc, List.cons_append]
  refine hl f _ e' rest hf ?_ ?_ (.step ht hf ?_ hclimbs)
  · simp [StopsAt, ht]
  · simpa [NotCalled] using hkind
  · exact hr op.precedence more r more (Nat.lt_succ_self _) (hstop.mono (Nat.le_succ _)) hcalled
      (.done hstop)

/-- Parentheses make an operand of any expression. -/
theorem Holds.parens {floor : Nat} {e : Expr} {ts : List Token} {t close : Token}
    (h : Holds floor e ts) (hfloor : 0 < floor) (ht : t.kind = .leftParen)
    (hclose : close.kind = .rightParen) : Operand e (t :: (ts ++ [close])) := by
  intro more _
  rw [List.cons_append, List.append_assoc]
  have hstop (f : Nat) : StopsAt f (close :: more) := by
    simp [StopsAt, binaryOperator?, hclose]
  exact .paren ht (h 0 _ e _ hfloor (hstop floor) (by simp [NotCalled, hclose]) (.done (hstop 0)))
    hclose

/-- However the text goes on, scanning the characters gives tokens with a property. -/
def Scans (cs : List Char) (good : List Token → Prop) : Prop :=
  ∀ position rest, Stops rest →
    ∃ ts position', good ts ∧ ScansTo position (cs ++ rest) ts position' rest

/-- The tokens are the expression, alone and between operators. -/
def Makes (e : Expr) (ts : List Token) : Prop :=
  Holds e.level e ts ∧ (e.level = 7 → Operand e ts)

theorem Operand.makes {e : Expr} {ts : List Token} (h : Operand e ts) : Makes e ts :=
  ⟨h.holds _, fun _ => h⟩

theorem level_pos (e : Expr) : 0 < e.level := by
  cases e <;> simp [level, Operator.precedence_pos]

theorem precedence_lt (op : Operator) : op.precedence < 7 := by
  cases op <;> decide

theorem level_le (e : Expr) : e.level ≤ 7 := by
  cases e with
  | binary l op r => exact Nat.le_of_lt (precedence_lt op)
  | _ => exact Nat.le_refl 7

theorem scans_token {cs : List Char} {e : Expr} (kind : Kind) (hne : cs ≠ [])
    (hfirst : ∀ rest, Stops rest → first? (cs ++ rest) = some (kind, cs.length))
    (h : ∀ position, Operand e [⟨kind, String.ofList cs, position⟩]) : Scans cs (Makes e) :=
  fun position rest hrest =>
    ⟨_, _, (h position).makes, ScansTo.token position hne (hfirst rest hrest)⟩

theorem operand_of_atom? {t : Token} {e : Expr} (h : atom? t = some e) : Operand e [t] :=
  fun _ _ => .atom h

theorem operand_of_word {t : Token} (hkind : t.kind = .identifier) : Operand (word t.text) [t] := by
  intro more hmore
  refine .word hkind ?_
  rintro ⟨-, t', ht', hparen⟩
  exact hmore t' ht' hparen

theorem Scans.mono {cs : List Char} {good good' : List Token → Prop} (h : Scans cs good)
    (hgood : ∀ ts, good ts → good' ts) : Scans cs good' := by
  intro position rest hrest
  obtain ⟨ts, position', hts, hscan⟩ := h position rest hrest
  exact ⟨ts, position', hgood ts hts, hscan⟩

/-- Tokens in parentheses. -/
inductive InParens (good : List Token → Prop) : List Token → Prop where
  | mk {t close : Token} {ts : List Token} (ht : t.kind = .leftParen) (h : good ts)
      (hclose : close.kind = .rightParen) : InParens good (t :: (ts ++ [close]))

theorem Scans.inParens {cs : List Char} {good : List Token → Prop} (h : Scans cs good) :
    Scans ('(' :: (cs ++ [')'])) (InParens good) := by
  intro position rest hrest
  have hopen := ScansTo.leftParen position (cs ++ ')' :: rest)
  obtain ⟨ts, position', hts, hscan⟩ := h (position + 1) (')' :: rest) (stops_cons (by decide))
  have hclose := ScansTo.rightParen position' rest
  refine ⟨⟨.leftParen, "(", position⟩ :: (ts ++ [⟨.rightParen, ")", position'⟩]),
    position' + 1, .mk rfl hts rfl, ?_⟩
  simpa using hopen.trans (hscan.trans hclose)

theorem Scans.parens {cs : List Char} {e : Expr} (h : Scans cs (Makes e)) :
    Scans ('(' :: (cs ++ [')'])) (Operand e) :=
  h.inParens.mono fun _ hparens => match hparens with
    | .mk ht hts hclose => hts.1.parens (level_pos e) ht hclose

/-- Where it is enclosed if it is looser than a level, an expression holds at that level. -/
theorem Scans.enclosed {cs : List Char} {e : Expr} (h : Scans cs (Makes e)) (floor : Nat) :
    Scans (enclosed floor e cs) (Holds floor e) := by
  intro position rest hrest
  unfold Expr.enclosed
  split
  · obtain ⟨ts, position', hts, hscan⟩ := h.parens position rest hrest
    exact ⟨ts, position', hts.holds floor, hscan⟩
  · next hlevel =>
      obtain ⟨ts, position', hts, hscan⟩ := h position rest hrest
      exact ⟨ts, position', hts.1.mono (by omega), hscan⟩

theorem Scans.enclosed_operand {cs : List Char} {e : Expr} (h : Scans cs (Makes e)) :
    Scans (Expr.enclosed 7 e cs) (Operand e) := by
  intro position rest hrest
  unfold Expr.enclosed
  split
  · exact h.parens position rest hrest
  · next hlevel =>
      obtain ⟨ts, position', hts, hscan⟩ := h position rest hrest
      have := level_le e
      exact ⟨ts, position', hts.2 (by omega), hscan⟩

theorem binaryOperator?_symbol (op : Operator) (position : Nat) :
    binaryOperator? ⟨symbolKind op, String.ofList op.symbol.toList, position⟩ = some op := by
  rw [String.ofList_toList]
  cases op <;> rfl

/-- Tokens with an operator between them. -/
inductive Between (op : Operator) (good good' : List Token → Prop) : List Token → Prop where
  | mk {t : Token} {ts us : List Token} (h : good ts) (ht : binaryOperator? t = some op)
      (hkind : t.kind = symbolKind op) (h' : good' us) : Between op good good' (ts ++ t :: us)

theorem Scans.between {cs ds : List Char} {good good' : List Token → Prop} (op : Operator)
    (h : Scans cs good) (h' : Scans ds good') :
    Scans (cs ++ ' ' :: (op.symbol.toList ++ ' ' :: ds)) (Between op good good') := by
  intro position rest hrest
  obtain ⟨ts, p₁, hts, hscan₁⟩ :=
    h position (' ' :: (op.symbol.toList ++ ' ' :: (ds ++ rest))) (stops_cons (by decide))
  have hspace₁ := ScansTo.space p₁ (op.symbol.toList ++ ' ' :: (ds ++ rest))
  have hsymbol := ScansTo.token (p₁ + 1) (by cases op <;> decide)
    (first?_symbol op (rfl : (' ' :: (ds ++ rest)).head? = some ' '))
  have hspace₂ := ScansTo.space (p₁ + 1 + byteLength op.symbol.toList) (ds ++ rest)
  obtain ⟨us, p₂, hus, hscan₂⟩ := h' (p₁ + 1 + byteLength op.symbol.toList + 1) rest hrest
  refine ⟨ts ++ ⟨symbolKind op, String.ofList op.symbol.toList, p₁ + 1⟩ :: us, p₂,
    .mk hts (binaryOperator?_symbol op (p₁ + 1)) rfl hus, ?_⟩
  simpa using hscan₁.trans (hspace₁.trans (hsymbol.trans (hspace₂.trans hscan₂)))

theorem symbolKind_ne_leftParen (op : Operator) : symbolKind op ≠ .leftParen := by
  cases op <;> decide

/-- An operator between two operands that it holds makes an expression. -/
theorem Between.makes {op : Operator} {l r : Expr} {ts : List Token}
    (h : Between op (Holds op.precedence l) (Holds (op.precedence + 1) r) ts) :
    Makes (.binary l op r) ts := by
  obtain ⟨hl, ht, hkind, hr⟩ := h
  refine ⟨hl.binary ht ?_ hr, fun hlevel => absurd hlevel (Nat.ne_of_lt (precedence_lt op))⟩
  rw [hkind]
  exact symbolKind_ne_leftParen op

theorem Scans.binary {op : Operator} {l r : Expr} {cs ds : List Char}
    (hl : Scans cs (Holds op.precedence l)) (hr : Scans ds (Holds (op.precedence + 1) r)) :
    Scans (cs ++ ' ' :: (op.symbol.toList ++ ' ' :: ds)) (Makes (.binary l op r)) :=
  (hl.between op hr).mono fun _ => Between.makes

theorem negated_of_ne {e : Expr} (h : ∀ x, e ≠ .literal (.number x)) :
    negated e = .unary .negate e := by
  unfold negated
  split
  · next x => exact absurd rfl (h x)
  · rfl

theorem Scans.minus {cs : List Char} {e : Expr} (h : Scans cs (Operand e)) :
    Scans ('-' :: cs) (Operand (negated e)) := by
  intro position rest hrest
  obtain ⟨ts, position', hts, hscan⟩ := h (position + 1) rest hrest
  have hminus := ScansTo.minus position (cs ++ rest)
  refine ⟨⟨.operator, "-", position⟩ :: ts, position', fun more hmore => ?_, hminus.trans hscan⟩
  exact .minus rfl rfl (hts more hmore)

theorem Scans.not {cs : List Char} {e : Expr} (h : Scans cs (Operand e)) (hne : cs ≠ [])
    (hhead : ∀ c ∈ cs.head?, c ≠ '=') : Scans ('!' :: cs) (Operand (.unary .not e)) := by
  intro position rest hrest
  obtain ⟨ts, position', hts, hscan⟩ := h (position + 1) rest hrest
  have hnot : ScansTo position ('!' :: (cs ++ rest)) _ _ _ := ScansTo.not position <| by
    obtain ⟨c, cs, rfl⟩ := List.exists_cons_of_ne_nil hne
    simpa using hhead c (by simp)
  refine ⟨⟨.operator, "!", position⟩ :: ts, position', fun more hmore => ?_, hnot.trans hscan⟩
  exact .not rfl rfl (hts more hmore)

/-- Before a closing parenthesis, scanning the characters gives tokens that are arguments. -/
def ScansArgs (reads : List Token → List Expr → List Token → Prop) (cs : List Char)
    (args : List Expr) : Prop :=
  ∀ position rest, ∃ ts position', (∀ more, reads (ts ++ more) args more) ∧
    ScansTo position (cs ++ ')' :: rest) ts position' rest

/-- The token comes after an argument. -/
def EndsArgument (t : Token) : Prop :=
  t.kind = .rightParen ∨ t.kind = .comma

theorem EndsArgument.stopsAt {t : Token} (h : EndsArgument t) (floor : Nat) (more : List Token) :
    StopsAt floor (t :: more) := by
  rcases h with h | h <;> simp [StopsAt, binaryOperator?, h]

theorem EndsArgument.notCalled {t : Token} (h : EndsArgument t) (more : List Token) :
    NotCalled (t :: more) := by
  rcases h with h | h <;> simp [NotCalled, h]

/-- The tokens are the expression as an argument. -/
def Argument (e : Expr) (ts : List Token) : Prop :=
  ∀ t more, EndsArgument t → ReadsExpr 0 (ts ++ t :: more) e (t :: more)

theorem Makes.argument {e : Expr} {ts : List Token} (h : Makes e ts) : Argument e ts :=
  fun _ more ht => h.1 0 _ _ _ (level_pos e) (ht.stopsAt _ more) (ht.notCalled more)
    (.done (ht.stopsAt 0 more))

theorem Scans.lastArg {cs : List Char} {e : Expr} (h : Scans cs (Argument e)) :
    ScansArgs ReadsSomeArgs cs [e] := by
  intro position rest
  obtain ⟨ts, position', hts, hscan⟩ := h position (')' :: rest) (stops_cons (by decide))
  have hclose := ScansTo.rightParen position' rest
  refine ⟨ts ++ [⟨.rightParen, ")", position'⟩], position' + 1, fun more => ?_, hscan.trans hclose⟩
  rw [List.append_assoc]
  exact .last (hts _ _ (.inl rfl)) rfl

theorem Scans.moreArgs {cs ds : List Char} {e : Expr} {args : List Expr}
    (h : Scans cs (Argument e)) (gap : Nat) (hargs : ScansArgs ReadsSomeArgs ds args) :
    ScansArgs ReadsSomeArgs (cs ++ ',' :: (List.replicate gap ' ' ++ ds)) (e :: args) := by
  intro position rest
  obtain ⟨ts, p₁, hts, hscan₁⟩ :=
    h position (',' :: (List.replicate gap ' ' ++ (ds ++ ')' :: rest))) (stops_cons (by decide))
  have hcomma := ScansTo.comma p₁ (List.replicate gap ' ' ++ (ds ++ ')' :: rest))
  have hblank : ∀ c ∈ List.replicate gap ' ', isBlank c = true := fun c hc => by
    rw [List.eq_of_mem_replicate hc]
    decide
  have hspaces := ScansTo.blanks (p₁ + 1) hblank (ds ++ ')' :: rest)
  obtain ⟨us, p₂, hus, hscan₂⟩ := hargs (p₁ + 1 + byteLength (List.replicate gap ' ')) rest
  refine ⟨ts ++ ⟨.comma, ",", p₁⟩ :: us, p₂, fun more => ?_, ?_⟩
  · rw [List.append_assoc]
    exact .more (hts _ _ (.inr rfl)) rfl (hus more)
  · simpa using hscan₁.trans (hcomma.trans (hspaces.trans hscan₂))

theorem ScansArgs.some {cs : List Char} {args : List Expr} (h : ScansArgs ReadsSomeArgs cs args) :
    ScansArgs ReadsArgs cs args := by
  intro position rest
  obtain ⟨ts, position', hts, hscan⟩ := h position rest
  exact ⟨ts, position', fun more => .some (hts more), hscan⟩

theorem scansArgs_nil : ScansArgs ReadsArgs [] [] :=
  fun position rest =>
    ⟨[⟨.rightParen, ")", position⟩], position + 1, fun _ => .none rfl,
      ScansTo.rightParen position rest⟩

theorem ne_nil_of_identifierLength {cs : List Char} (h : identifierLength cs = some cs.length) :
    cs ≠ [] := by
  rintro rfl
  simp [identifierLength] at h

theorem ScansArgs.call {name : String} {args : List Expr} {cs : List Char} (hname : IsName name)
    (h : ScansArgs ReadsArgs cs args) :
    Scans (name.toList ++ '(' :: (cs ++ [')'])) (Operand (.call name args)) := by
  intro position rest hrest
  have hparen : isWord '(' = false := by decide
  have hname' := ScansTo.token position (ne_nil_of_identifierLength hname.spelling)
    (first?_identifier hname.spelling (by simpa using hparen :
      ∀ c ∈ ('(' :: (cs ++ ')' :: rest)).head?, isWord c = false))
  have hopen := ScansTo.leftParen (position + byteLength name.toList) (cs ++ ')' :: rest)
  obtain ⟨ts, position', hts, hscan⟩ := h (position + byteLength name.toList + 1) rest
  rw [String.ofList_toList] at hname'
  refine ⟨⟨.identifier, name, position⟩ :: ⟨.leftParen, "(", position + byteLength name.toList⟩ :: ts,
    position', fun more _ => .call rfl hname.notLiteral rfl (hts more), ?_⟩
  simpa using hname'.trans (hopen.trans hscan)

theorem scans_word {name : String} (h : identifierLength name.toList = some name.toList.length) :
    Scans name.toList (Makes (word name)) := by
  refine scans_token .identifier (ne_nil_of_identifierLength h) (fun rest hrest => ?_) fun position => ?_
  · exact first?_identifier h hrest.notWord
  · rw [String.ofList_toList]
    exact operand_of_word rfl

theorem IsName.word_eq {name : String} (h : IsName name) : word name = .identifier name := by
  have hne := h.notLiteral
  simp only [isLiteralWord, Bool.or_eq_false_iff, beq_eq_false_iff_ne] at hne
  simp [word, hne]

theorem Spells.ne_nil {token : List Char} {x : Float} (h : Spells token x) : token ≠ [] := by
  rintro rfl
  simpa [numberLength, someRun, runLength] using h.whole

theorem Spells.scans {token : List Char} {x : Float} (h : Spells token x) :
    Scans token (Makes (.literal (.number x))) := by
  refine scans_token .number h.ne_nil (fun rest hrest => ?_) fun position => operand_of_atom? ?_
  · exact first?_number h.whole hrest.notNumeric
  · simp [atom?, numberLiteral, h.value, Except.toOption]

theorem scans_string {s : String} (hslash : '\\' ∉ s.toList) (hbrace : '\x7b' ∉ s.toList) :
    Scans (singleQuoted s.toList) (Makes (.literal (.string s))) := by
  refine scans_token .string (List.cons_ne_nil _ _)
    (fun rest _ => first?_singleQuoted hslash hbrace) fun position => operand_of_atom? ?_
  simp [atom?, unquote_singleQuoted hslash]

theorem scans_path {text : String} (h : pathLength text.toList = some text.toList.length) :
    Scans text.toList (Makes (.path text)) := by
  refine scans_token .path ?_ (fun rest hrest => first?_path h hrest.endsPath) fun position =>
    operand_of_atom? (by simp [atom?])
  intro he
  simp [he, pathLength] at h

theorem scans_template {body : List Char} (h : '\x7d' ∉ body) :
    Scans (bareTemplate body) (Makes (.template (String.ofList (bareTemplate body)))) :=
  scans_token .bareTemplate (List.cons_ne_nil _ _) (fun _ _ => first?_bareTemplate h)
    fun _ => operand_of_atom? rfl

theorem scans_quotedTemplate {body : List Char} {q : Char} (hq : isQuote q = true)
    (h : '\x7d' ∉ body) :
    Scans (q :: (bareTemplate body ++ [q]))
      (Makes (.template (String.ofList (q :: (bareTemplate body ++ [q]))))) := by
  refine scans_token _ (List.cons_ne_nil _ _) (fun _ _ => first?_quotedTemplate hq h)
    fun position => operand_of_atom? ?_
  by_cases hdouble : q = '"' <;> simp [atom?, hdouble]

/-- A text without blanks at its ends, and that does not begin with an equals sign. -/
structure Solid (cs : List Char) : Prop where
  ne_nil : cs ≠ []
  head : ∀ c ∈ cs.head?, isBlank c = false ∧ c ≠ '='
  last : ∀ c ∈ cs.getLast?, isBlank c = false

theorem Solid.around {as cs : List Char} (has : Solid as) (bs : List Char) (hcs : cs ≠ [])
    (hlast : ∀ c ∈ cs.getLast?, isBlank c = false) : Solid (as ++ (bs ++ cs)) where
  ne_nil := by simp [has.ne_nil]
  head := by
    obtain ⟨a, as, rfl⟩ := List.exists_cons_of_ne_nil has.ne_nil
    simpa using has.head
  last := by
    have hc := List.getLast?_eq_some_getLast hcs
    rw [hc] at hlast
    simpa [List.getLast?_append, hc] using hlast

theorem Solid.append {as cs : List Char} (has : Solid as) (hcs : Solid cs) : Solid (as ++ cs) :=
  has.around [] hcs.ne_nil hcs.last

theorem solid_of_class (p : Char → Bool) (hp : blanks.all (fun c => !p c) = true)
    (hequals : p '=' = false) {cs : List Char} (hne : cs ≠ []) (h : ∀ c ∈ cs, p c = true) :
    Solid cs where
  ne_nil := hne
  head := by
    intro c hc
    have hclass := h c (List.mem_of_mem_head? hc)
    refine ⟨isBlank_of_class p hp hclass, ?_⟩
    rintro rfl
    simp [hequals] at hclass
  last := fun c hc => isBlank_of_class p hp (h c (List.mem_of_mem_getLast? hc))

theorem solid_symbol (op : UnaryOperator) : Solid op.symbol.toList := by
  refine solid_of_class "!-".toList.contains (by decide) (by decide) ?_ fun c hc => ?_
  · cases op <;> decide
  · cases op <;> simp_all [UnaryOperator.symbol]

theorem solid_name {name : String} (h : identifierLength name.toList = some name.toList.length) :
    Solid name.toList := by
  refine solid_of_class (fun c => isNameStart c || isWord c) (by decide +kernel)
    (by decide) (ne_nil_of_identifierLength h) fun c hc => ?_
  simpa using isNameStart_or_isWord_of_mem h (by rwa [List.take_length])

/-- A text between two characters that may stand at its ends. -/
theorem solid_between {first last : Char} (hfirst : isBlank first = false) (hequals : first ≠ '=')
    (hlast : isBlank last = false) (body : List Char) : Solid (first :: (body ++ [last])) where
  ne_nil := List.cons_ne_nil _ _
  head := by simpa using ⟨hfirst, hequals⟩
  last := by
    rw [← List.cons_append, List.getLast?_concat]
    simpa using hlast

theorem Spells.solid {token : List Char} {x : Float} (h : Spells token x) : Solid token := by
  refine solid_of_class isNumeric (by decide) (by decide) h.ne_nil fun c hc => ?_
  exact isNumeric_of_mem_number h.whole (by rwa [List.take_length])

theorem Solid.enclosed {cs : List Char} (h : Solid cs) (floor : Nat) (e : Expr) :
    Solid (Expr.enclosed floor e cs) := by
  unfold Expr.enclosed
  split
  · exact solid_between (by decide) (by decide) (by decide) cs
  · exact h

theorem last_of_isSegment {s : List Char} (h : IsSegment s) :
    ∀ c ∈ s.getLast?, isBlank c = false := by
  have hword {w : List Char} (hw : ∀ c ∈ w, isWord c = true) :
      ∀ c ∈ w.getLast?, isBlank c = false := fun c hc =>
    isBlank_of_isWord (hw c (List.mem_of_mem_getLast? hc))
  have hclose : isBlank ']' = false := by decide
  cases h with
  | wildcard => exact last_append (last_singleton (by decide)) (last_singleton (by decide))
  | word hw => exact hword hw
  | property hw => exact last_append (last_singleton (by decide)) (hword hw)
  | quoted hq h => simpa [List.getLast?_cons] using hclose
  | brackets h => simpa [List.getLast?_cons] using hclose

theorem solid_path {cs : List Char} (h : pathLength cs = some cs.length) : Solid cs := by
  obtain ⟨path, rfl⟩ := exists_of_pathLength h
  have hlength : segmentsLength path = path.length := by simpa [pathLength] using h
  have hpath : (segments path).flatten = path := by
    rw [flatten_segments, hlength, List.take_length]
  refine ⟨List.cons_ne_nil _ _, by simp; decide, ?_⟩
  have hpieces (pieces : List (List Char)) (hp : ∀ s ∈ pieces, IsSegment s) :
      ∀ c ∈ pieces.flatten.getLast?, isBlank c = false := by
    induction pieces with
    | nil => simp
    | cons s pieces ih =>
        exact last_append (last_of_isSegment (hp s (by simp))) (ih fun s hs => hp s (by simp [hs]))
  have hlast := hpieces (segments path) fun s hs => isSegment_of_mem_segments hs
  rw [hpath] at hlast
  exact last_append (last_singleton (by decide)) hlast

/-- A printed expression has no blanks at its ends. -/
theorem Printed.solid {e : Expr} {cs : List Char} (h : Printed e cs) : Solid cs := by
  cases h with
  | null => exact solid_name (by decide)
  | bool b => cases b <;> exact solid_name (by decide)
  | string _ _ => exact solid_between (by decide) (by decide) (by decide) _
  | number hx => exact hx.solid
  | negative hx => exact (solid_symbol .negate).append hx.solid
  | identifier hname => exact solid_name hname.spelling
  | path hpath => exact solid_path hpath
  | @template body _ =>
      have hbody : Solid ('\x7b' :: (('\x7b' :: (body ++ ['\x7d'])) ++ ['\x7d'])) :=
        solid_between (by decide) (by decide) (by decide) _
      simpa [bareTemplate] using hbody
  | quotedTemplate hq _ =>
      have hquote := isBlank_of_class isQuote (by decide) hq
      exact solid_between hquote (by rintro rfl; exact absurd hq (by decide)) hquote _
  | unary operand _ => exact (solid_symbol _).append (operand.solid.enclosed 7 _)
  | @binary op l r cs ds left right =>
      have hl := left.solid.enclosed op.precedence l
      have hr := right.solid.enclosed (op.precedence + 1) r
      simpa using hl.around (' ' :: (op.symbol.toList ++ [' '])) hr.ne_nil hr.last
  | call hname inner =>
      exact (solid_name hname.spelling).around ('(' :: _) (List.cons_ne_nil _ _)
        (last_singleton (by decide))

mutual

/-- Scanning a printed expression gives tokens that are the expression. -/
theorem Printed.scans {e : Expr} {cs : List Char} (h : Printed e cs) : Scans cs (Makes e) := by
  match h with
  | .null => exact scans_word (by decide)
  | .bool b => cases b <;> exact scans_word (by decide)
  | .string hslash hbrace => exact scans_string hslash hbrace
  | .number hx => exact hx.scans
  | .negative hx => exact (hx.scans.mono fun _ hts => hts.2 rfl).minus.mono fun _ hts => hts.makes
  | .identifier hname =>
      rw [← hname.word_eq]
      exact scans_word hname.spelling
  | .path hpath => exact scans_path hpath
  | .template hbody => exact scans_template hbody
  | .quotedTemplate hq hbody => exact scans_quotedTemplate hq hbody
  | @Printed.unary .not e cs operand _ =>
      have hsolid := operand.solid.enclosed 7 e
      have hhead : ∀ c ∈ (Expr.enclosed 7 e cs).head?, c ≠ '=' := fun c hc => (hsolid.head c hc).2
      exact (operand.scans.enclosed_operand.not hsolid.ne_nil hhead).mono fun _ hts => hts.makes
  | @Printed.unary .negate e cs operand hnumber =>
      rw [← negated_of_ne (hnumber rfl)]
      exact operand.scans.enclosed_operand.minus.mono fun _ hts => hts.makes
  | .binary left right => exact (left.scans.enclosed _).binary (right.scans.enclosed _)
  | .call hname inner => exact (inner.scans.1.call hname).mono fun _ hts => hts.makes

theorem PrintedArgs.scans {args : List Expr} {cs : List Char} (h : PrintedArgs args cs) :
    ScansArgs ReadsArgs cs args ∧ (args ≠ [] → ScansArgs ReadsSomeArgs cs args) := by
  match h with
  | .none => exact ⟨scansArgs_nil, fun hne => absurd rfl hne⟩
  | .last arg =>
      have hlast := (arg.scans.mono fun _ hts => hts.argument).lastArg
      exact ⟨hlast.some, fun _ => hlast⟩
  | .more arg gap others =>
      have harg := arg.scans.mono fun _ hts => hts.argument
      have hmore := harg.moreArgs gap (others.scans.2 (List.cons_ne_nil _ _))
      exact ⟨hmore.some, fun _ => hmore⟩

end

/-- Reading undoes printing: every printed expression is accepted, and is the expression that
was printed. -/
theorem parse_printed {e : Expr} {cs : List Char} (h : Printed e cs) :
    parse (String.ofList cs) = .ok e := by
  have hsolid := h.solid
  have htrim : trimmed (String.ofList cs) = String.ofList cs := by
    rw [trimmed, String.toList_ofList, trim_eq_self (fun c hc => (hsolid.head c hc).1) hsolid.last]
  obtain ⟨ts, position', hts, hscan⟩ := h.scans 0 [] stops_nil
  refine parse_eq_ok.2 ⟨?_, ts, ?_, ?_⟩
  · rw [htrim]
    simpa using hsolid.ne_nil
  · rw [htrim, tokenize, String.toList_ofList]
    simpa [ScansTo, scan, Except.map] using hscan
  · have hend : StopsAt 0 [] := by simp [StopsAt]
    simpa using hts.1 0 [] e [] (level_pos e) (by simp [StopsAt]) (by simp [NotCalled]) (.done hend)

/-- A looser operator in parentheses, an operator spelled as a word beside a name of the same
spelling, and a shielded quote. -/
theorem parse_printed_of_mixed :
    Printed (.binary (.binary (.literal (.number 1.5)) .or (.identifier "contains")) .contains
      (.unary .not (.call "max" [.literal (.string "it's"), .path "$.x[0]"])))
      "(1.50 || contains) contains !max('it\\'s', $.x[0])".toList ∧
    parse (String.ofList "(1.50 || contains) contains !max('it\\'s', $.x[0])".toList) =
      .ok (.binary (.binary (.literal (.number 1.5)) .or (.identifier "contains")) .contains
        (.unary .not (.call "max" [.literal (.string "it's"), .path "$.x[0]"]))) := by
  have hnumber : Spells "1.50".toList 1.5 := ⟨by decide +kernel, by decide +kernel⟩
  have hname : IsName "contains" := ⟨by decide +kernel, by decide⟩
  have hmax : IsName "max" := ⟨by decide +kernel, by decide⟩
  have hpath : Printed (.path "$.x[0]") _ := .path (by decide +kernel)
  have hstring : Printed (.literal (.string "it's")) _ := .string (by decide) (by decide)
  have hcall := Printed.call hmax (.more hstring 1 (.last hpath))
  have hright : Printed (.unary .not _) _ := .unary hcall (by simp)
  have hleft : Printed (.binary _ .or _) _ := .binary (.number hnumber) (.identifier hname)
  have hprinted : Printed (.binary _ .contains _)
      "(1.50 || contains) contains !max('it\\'s', $.x[0])".toList := .binary hleft hright
  exact ⟨hprinted, parse_printed hprinted⟩

end Sluice.Expr

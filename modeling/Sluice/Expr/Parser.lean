import Sluice.Expr.Basic
import Sluice.Token.Scan
import Sluice.Decimal.Reading

/-!
# Reading expressions

Operators are grouped by precedence climbing; operators of one precedence group to the
left, and the unary ones apply to the shortest expression after them. Each reading step
gives an expression and the tokens after it, which are fewer than before.
-/
namespace Sluice.Expr

open Sluice.Text

/-- An expression read from the start of a list of tokens, and the tokens after it. -/
structure Reading (tokens : List Token) where
  expr : Expr
  rest : List Token
  shorter : rest.length < tokens.length

/-- An expression extended over some tokens, and the tokens after it. -/
structure Extension (tokens : List Token) where
  expr : Expr
  rest : List Token
  noLonger : rest.length ≤ tokens.length

/-- The arguments of a call, and the tokens after its closing parenthesis. -/
structure ArgsReading (tokens : List Token) where
  args : List Expr
  rest : List Token
  shorter : rest.length < tokens.length

/-- The binary operator that a token stands for after an operand. -/
def binaryOperator? (t : Token) : Option Operator :=
  match t.kind with
  | .operator => Operator.ofSymbol? t.text
  | .identifier => (Operator.ofSymbol? t.text).filter Operator.isKeyword
  | _ => none

/-- A minus before a number literal makes the negative number. -/
def negated : Expr → Expr
  | .literal (.number x) => .literal (.number (-x))
  | e => .unary .negate e

/-- The literal that a number token stands for. Digits of other scripts make a token, but
no number. -/
def numberLiteral (text : String) : Except ParseError Expr :=
  match Decimal.readFloat text.toList with
  | some x => .ok (.literal (.number x))
  | none => .error (.invalidNumber text)

/-- A word that is not called. -/
def word (name : String) : Expr :=
  if name = "true" then .literal (.bool true)
  else if name = "false" then .literal (.bool false)
  else if name = "null" then .literal .null
  else .identifier name

/-- The words that are literals, called or not. -/
def isLiteralWord (name : String) : Bool :=
  name == "true" || name == "false" || name == "null"

/-- What an error inside an argument means for the call. -/
def argumentError (name : String) : ParseError → ParseError
  | .unexpectedEnd => .unclosedParenthesis
  | .unexpectedToken .. => .malformedArguments name
  | e => e

mutual

/-- Reads an expression whose operators all bind tighter than `floor`. -/
def readExpr (floor : Nat) (ts : List Token) : Except ParseError (Reading ts) :=
  match readOperand ts with
  | .error e => .error e
  | .ok left =>
      match climb floor left.expr left.rest with
      | .error e => .error e
      | .ok whole =>
          .ok ⟨whole.expr, whole.rest, Nat.lt_of_le_of_lt whole.noLonger left.shorter⟩
termination_by 3 * ts.length + 1
decreasing_by
  · omega
  · have := left.shorter; omega

/-- Extends an expression to the right while operators bind tighter than `floor`. -/
def climb (floor : Nat) (left : Expr) (ts : List Token) : Except ParseError (Extension ts) :=
  match ts with
  | [] => .ok ⟨left, [], Nat.le_refl _⟩
  | t :: rest =>
      match binaryOperator? t with
      | none => .ok ⟨left, t :: rest, Nat.le_refl _⟩
      | some op =>
          if op.precedence ≤ floor then .ok ⟨left, t :: rest, Nat.le_refl _⟩
          else
            match readExpr op.precedence rest with
            | .error e => .error e
            | .ok right =>
                have shorter := right.shorter
                match climb floor (.binary left op right.expr) right.rest with
                | .error e => .error e
                | .ok whole =>
                    .ok ⟨whole.expr, whole.rest, by
                      have := whole.noLonger; simp only [List.length_cons]; omega⟩
termination_by 3 * ts.length
decreasing_by all_goals (simp only [List.length_cons]; omega)

/-- Reads one operand: a literal, a name, a path, a template, a call, an expression in
parentheses, or a unary operator and its operand. -/
def readOperand (ts : List Token) : Except ParseError (Reading ts) :=
  match ts with
  | [] => .error .unexpectedEnd
  | t :: rest =>
      match t.kind with
      | .operator =>
          if t.text = "!" then
            match readOperand rest with
            | .error e => .error e
            | .ok r => .ok ⟨.unary .not r.expr, r.rest, by have := r.shorter; simp; omega⟩
          else if t.text = "-" then
            match readOperand rest with
            | .error e => .error e
            | .ok r => .ok ⟨negated r.expr, r.rest, by have := r.shorter; simp; omega⟩
          else .error (.unexpectedToken t.text t.position)
      | .leftParen =>
          match readExpr 0 rest with
          | .error e => .error e
          | .ok ⟨e, [], _⟩ => .error .unclosedParenthesis
          | .ok ⟨e, close :: rest', h⟩ =>
              if close.kind = .rightParen then .ok ⟨e, rest', by simp at h ⊢; omega⟩
              else .error (.unexpectedToken close.text close.position)
      | .quotedTemplate | .singleQuotedTemplate | .bareTemplate =>
          .ok ⟨.template t.text, rest, by simp⟩
      | .path => .ok ⟨.path t.text, rest, by simp⟩
      | .number =>
          match numberLiteral t.text with
          | .error e => .error e
          | .ok e => .ok ⟨e, rest, by simp⟩
      | .string =>
          .ok ⟨.literal (.string (String.ofList (unquote t.text.toList))), rest, by simp⟩
      | .identifier =>
          match rest with
          | open' :: rest' =>
              if open'.kind = .leftParen && !isLiteralWord t.text then
                match readArgs t.text rest' with
                | .error e => .error e
                | .ok r =>
                    .ok ⟨.call t.text r.args, r.rest, by have := r.shorter; simp; omega⟩
              else .ok ⟨word t.text, open' :: rest', by simp⟩
          | [] => .ok ⟨word t.text, [], by simp⟩
      | .rightParen | .comma => .error (.unexpectedToken t.text t.position)
termination_by 3 * ts.length
decreasing_by all_goals (simp only [List.length_cons]; omega)

/-- Reads the arguments of a call after its opening parenthesis. -/
def readArgs (name : String) (ts : List Token) : Except ParseError (ArgsReading ts) :=
  match ts with
  | [] => .error .unclosedParenthesis
  | t :: rest =>
      if t.kind = .rightParen then .ok ⟨[], rest, by simp⟩
      else readSomeArgs name (t :: rest)
termination_by 3 * ts.length + 3
decreasing_by omega

/-- Reads one argument or more, up to the closing parenthesis. -/
def readSomeArgs (name : String) (ts : List Token) : Except ParseError (ArgsReading ts) :=
  match readExpr 0 ts with
  | .error e => .error (argumentError name e)
  | .ok ⟨_, [], _⟩ => .error .unclosedParenthesis
  | .ok ⟨e, t :: rest, h⟩ =>
      if t.kind = .rightParen then .ok ⟨[e], rest, by simp at h; omega⟩
      else if t.kind = .comma then
        match readSomeArgs name rest with
        | .error e => .error e
        | .ok r => .ok ⟨e :: r.args, r.rest, by have := r.shorter; simp at h; omega⟩
      else .error (.malformedArguments name)
termination_by 3 * ts.length + 2
decreasing_by
  · omega
  · simp at h; omega

end

/-- Reads a list of tokens that is one whole expression. -/
def ofTokens (ts : List Token) : Except ParseError Expr :=
  match readExpr 0 ts with
  | .error e => .error e
  | .ok ⟨e, [], _⟩ => .ok e
  | .ok ⟨_, t :: _, _⟩ => .error (.unexpectedToken t.text t.position)

/-- Reads the text of an expression, blanks at its ends aside. -/
def parse (text : String) : Except ParseError Expr :=
  let text := trimmed text
  if text.isEmpty then .error .emptyExpression
  else match Token.tokenize text with
    | .error e => .error e
    | .ok ts => ofTokens ts

end Sluice.Expr

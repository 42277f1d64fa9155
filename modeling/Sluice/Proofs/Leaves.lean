import Sluice.Proofs.Blanks
import Sluice.Proofs.Grammar
import Sluice.Proofs.Tokenizing

/-!
# Leaves of expressions

The leaves of an expression are its literals, names, paths and templates. Those of a text that is
read are made of single tokens, which are pieces of the text; so what is true of every token that
can stand in a text holds of all leaves.
-/
namespace Sluice

open Sluice.Text

namespace Expr

mutual

/-- Every leaf of the expression has the property. -/
def Leaves (p : Expr → Prop) : Expr → Prop
  | .literal v => p (.literal v)
  | .identifier name => p (.identifier name)
  | .path text => p (.path text)
  | .template text => p (.template text)
  | .unary _ e => e.Leaves p
  | .binary l _ r => l.Leaves p ∧ r.Leaves p
  | .call _ args => ArgsLeaves p args

/-- The same of every argument. -/
def ArgsLeaves (p : Expr → Prop) : List Expr → Prop
  | [] => True
  | e :: rest => e.Leaves p ∧ ArgsLeaves p rest

end

/-- A property of leaves that words have, and that a minus keeps on numbers. -/
structure LeafProperty (p : Expr → Prop) : Prop where
  word : ∀ name, p (word name)
  minus : ∀ x, p (.literal (.number x)) → p (.literal (.number (-x)))

variable {p : Expr → Prop}

theorem leaves_of_atom? {t : Token} {e : Expr} (h : atom? t = some e) (hp : p e) : e.Leaves p := by
  unfold atom? at h
  split at h
  · cases h
    exact hp
  · cases h
    exact hp
  · cases h
    exact hp
  · cases h
    exact hp
  · unfold numberLiteral at h
    split at h
    · cases h
      exact hp
    · cases h
  · cases h
    exact hp
  · cases h

theorem leaves_word (hp : LeafProperty p) (name : String) : (word name).Leaves p := by
  have hname := hp.word name
  unfold word at hname ⊢
  split
  · simpa [*, Leaves] using hname
  · split
    · simpa [*, Leaves] using hname
    · split
      · simpa [*, Leaves] using hname
      · simpa [*, Leaves] using hname

theorem leaves_negated (hp : LeafProperty p) {e : Expr} (h : e.Leaves p) :
    (negated e).Leaves p := by
  unfold negated
  split
  · exact hp.minus _ h
  · exact h

mutual

/-- Where the property holds of all leaves that are tokens, it holds of the expression read, and
the tokens after it are some of the tokens. -/
theorem ReadsExpr.leaves (hp : LeafProperty p) {floor : Nat} {ts rest : List Token} {e : Expr}
    (h : ReadsExpr floor ts e rest) (hts : ∀ t ∈ ts, ∀ leaf, atom? t = some leaf → p leaf) :
    e.Leaves p ∧ rest ⊆ ts := by
  match h with
  | .mk operand more =>
      obtain ⟨hleft, hmid⟩ := operand.leaves hp hts
      obtain ⟨he, hrest⟩ := more.leaves hp hleft fun t ht => hts t (hmid ht)
      exact ⟨he, List.Subset.trans hrest hmid⟩

theorem Climbs.leaves (hp : LeafProperty p) {floor : Nat} {left e : Expr} {ts rest : List Token}
    (h : Climbs floor left ts e rest) (hleft : left.Leaves p)
    (hts : ∀ t ∈ ts, ∀ leaf, atom? t = some leaf → p leaf) : e.Leaves p ∧ rest ⊆ ts := by
  match h with
  | .done _ => exact ⟨hleft, List.Subset.refl _⟩
  | .step (t := t) _ _ operand more =>
      obtain ⟨hright, hmid⟩ := operand.leaves hp fun t ht => hts t (List.mem_cons_of_mem _ ht)
      have htail := List.subset_cons_of_subset t hmid
      obtain ⟨he, hrest⟩ := more.leaves hp ⟨hleft, hright⟩ fun t ht => hts t (htail ht)
      exact ⟨he, List.Subset.trans hrest htail⟩

theorem ReadsOperand.leaves (hp : LeafProperty p) {ts rest : List Token} {e : Expr}
    (h : ReadsOperand ts e rest) (hts : ∀ t ∈ ts, ∀ leaf, atom? t = some leaf → p leaf) :
    e.Leaves p ∧ rest ⊆ ts := by
  match h with
  | .not (t := t) _ _ operand =>
      obtain ⟨he, hrest⟩ := operand.leaves hp fun t ht => hts t (List.mem_cons_of_mem _ ht)
      exact ⟨he, List.subset_cons_of_subset t hrest⟩
  | .minus (t := t) _ _ operand =>
      obtain ⟨he, hrest⟩ := operand.leaves hp fun t ht => hts t (List.mem_cons_of_mem _ ht)
      exact ⟨leaves_negated hp he, List.subset_cons_of_subset t hrest⟩
  | .paren (t := t) _ inner _ =>
      obtain ⟨he, hrest⟩ := inner.leaves hp fun t ht => hts t (List.mem_cons_of_mem _ ht)
      exact ⟨he, List.subset_cons_of_subset t (List.subset_of_cons_subset hrest)⟩
  | .atom (t := t) h =>
      exact ⟨leaves_of_atom? h (hts t List.mem_cons_self e h), List.subset_cons_self _ _⟩
  | .word _ _ => exact ⟨leaves_word hp _, List.subset_cons_self _ _⟩
  | .call _ _ _ inner =>
      obtain ⟨hargs, hrest⟩ := inner.leaves hp fun t ht =>
        hts t (List.mem_cons_of_mem _ (List.mem_cons_of_mem _ ht))
      exact ⟨hargs, List.subset_cons_of_subset _ (List.subset_cons_of_subset _ hrest)⟩

theorem ReadsArgs.leaves (hp : LeafProperty p) {ts rest : List Token} {args : List Expr}
    (h : ReadsArgs ts args rest) (hts : ∀ t ∈ ts, ∀ leaf, atom? t = some leaf → p leaf) :
    ArgsLeaves p args ∧ rest ⊆ ts := by
  match h with
  | .none _ => exact ⟨trivial, List.subset_cons_self _ _⟩
  | .some inner => exact inner.leaves hp hts

theorem ReadsSomeArgs.leaves (hp : LeafProperty p) {ts rest : List Token} {args : List Expr}
    (h : ReadsSomeArgs ts args rest) (hts : ∀ t ∈ ts, ∀ leaf, atom? t = some leaf → p leaf) :
    ArgsLeaves p args ∧ rest ⊆ ts := by
  match h with
  | .last arg _ =>
      obtain ⟨he, hrest⟩ := arg.leaves hp hts
      exact ⟨⟨he, trivial⟩, List.subset_of_cons_subset hrest⟩
  | .more arg _ others =>
      obtain ⟨he, hmid⟩ := arg.leaves hp hts
      have htail := List.subset_of_cons_subset hmid
      obtain ⟨hargs, hrest⟩ := others.leaves hp fun t ht => hts t (htail ht)
      exact ⟨⟨he, hargs⟩, List.Subset.trans hrest htail⟩

end

/-- A leaf of a text that is read is a word, or a token whose text is a piece of the text, or a
number token of which a minus has made another number. -/
theorem leaves_of_parse (hp : LeafProperty p) {text : String} {e : Expr} (h : parse text = .ok e)
    (hatom : ∀ t : Token, Token.Lexeme t.kind t.text.toList →
      t.text.toList <:+: (trimmed text).toList → ∀ leaf, atom? t = some leaf → p leaf) :
    e.Leaves p := by
  obtain ⟨-, ts, htokens, hreads⟩ := parse_eq_ok.1 h
  refine (hreads.leaves hp fun t ht => ?_).1
  obtain ⟨before, after, he, -, hmatch⟩ := (Token.tokenizes_of_scan htokens).lexemes t ht
  exact hatom t hmatch.lexeme ⟨before, after, by rw [he, List.append_assoc]⟩

end Expr

end Sluice

import Sluice.Proofs.Carrying
import Sluice.Proofs.Grammar
import Sluice.Proofs.Tokenizing

/-!
# Tokens and the scans for separators

Every token but a parenthesis leaves the scan for separators and the check of parentheses
where they were, templates and paths that are not plain aside. The reader of expressions closes
the parentheses that it opens and never lets the depth go below where it began, and a comma
stands inside of parentheses. So the text of an expression is carried over as a whole.
-/
namespace Sluice

open Sluice.Text Sluice.Pipeline

namespace Token

/-- Parentheses take the depth from one number to another and never below a floor. Commas stand
inside of parentheses only. -/
inductive Nests (floor : Nat) : Nat → List Token → Nat → Prop where
  | nil {d : Nat} : Nests floor d [] d
  | leftParen {d d' : Nat} {t : Token} {ts : List Token} (hkind : t.kind = .leftParen)
      (h : Nests floor (d + 1) ts d') : Nests floor d (t :: ts) d'
  | rightParen {d d' : Nat} {t : Token} {ts : List Token} (hkind : t.kind = .rightParen)
      (hd : floor ≤ d) (h : Nests floor d ts d') : Nests floor (d + 1) (t :: ts) d'
  | comma {d d' : Nat} {t : Token} {ts : List Token} (hkind : t.kind = .comma) (hd : 0 < d)
      (h : Nests floor d ts d') : Nests floor d (t :: ts) d'
  | other {d d' : Nat} {t : Token} {ts : List Token}
      (hkind : t.kind ∉ [.leftParen, .rightParen, .comma]) (h : Nests floor d ts d') :
      Nests floor d (t :: ts) d'

theorem Nests.append {floor d d' d'' : Nat} {ts us : List Token} (h : Nests floor d ts d')
    (h' : Nests floor d' us d'') : Nests floor d (ts ++ us) d'' := by
  induction h with
  | nil => exact h'
  | leftParen hkind _ ih => exact .leftParen hkind (ih h')
  | rightParen hkind hd _ ih => exact .rightParen hkind hd (ih h')
  | comma hkind hd _ ih => exact .comma hkind hd (ih h')
  | other hkind _ ih => exact .other hkind (ih h')

end Token

namespace Expr

open Token (Nests)

theorem kind_of_binaryOperator? {t : Token} {op : Operator} (h : binaryOperator? t = some op) :
    t.kind ∉ [.leftParen, .rightParen, .comma] := by
  unfold binaryOperator? at h
  cases hkind : t.kind <;> simp_all

theorem kind_of_atom? {t : Token} {e : Expr} (h : atom? t = some e) :
    t.kind ∉ [.leftParen, .rightParen, .comma] := by
  unfold atom? at h
  cases hkind : t.kind <;> simp_all

mutual

/-- Reading an expression closes the parentheses that it opens, and no others. -/
theorem ReadsExpr.nests {floor : Nat} {ts rest : List Token} {e : Expr}
    (h : ReadsExpr floor ts e rest) :
    ∃ us, ts = us ++ rest ∧ ∀ low d, low ≤ d → Nests low d us d := by
  match h with
  | .mk operand more =>
      obtain ⟨us, rfl, hus⟩ := operand.nests
      obtain ⟨vs, rfl, hvs⟩ := more.nests
      exact ⟨us ++ vs, by simp, fun low d hd => (hus low d hd).append (hvs low d hd)⟩

theorem Climbs.nests {floor : Nat} {left e : Expr} {ts rest : List Token}
    (h : Climbs floor left ts e rest) :
    ∃ us, ts = us ++ rest ∧ ∀ low d, low ≤ d → Nests low d us d := by
  match h with
  | .done _ => exact ⟨[], rfl, fun _ _ _ => .nil⟩
  | .step (t := t) hop _ operand more =>
      obtain ⟨us, rfl, hus⟩ := operand.nests
      obtain ⟨vs, rfl, hvs⟩ := more.nests
      exact ⟨t :: (us ++ vs), by simp, fun low d hd =>
        .other (kind_of_binaryOperator? hop) ((hus low d hd).append (hvs low d hd))⟩

theorem ReadsOperand.nests {ts rest : List Token} {e : Expr} (h : ReadsOperand ts e rest) :
    ∃ us, ts = us ++ rest ∧ ∀ low d, low ≤ d → Nests low d us d := by
  match h with
  | .not (t := t) hkind _ operand =>
      obtain ⟨us, rfl, hus⟩ := operand.nests
      exact ⟨t :: us, rfl, fun low d hd => .other (by simp [hkind]) (hus low d hd)⟩
  | .minus (t := t) hkind _ operand =>
      obtain ⟨us, rfl, hus⟩ := operand.nests
      exact ⟨t :: us, rfl, fun low d hd => .other (by simp [hkind]) (hus low d hd)⟩
  | @ReadsOperand.paren t close _ _ _ hkind inner hclose =>
      obtain ⟨us, rfl, hus⟩ := inner.nests
      refine ⟨t :: (us ++ [close]), by simp, fun low d hd => .leftParen hkind ?_⟩
      exact (hus low (d + 1) (by omega)).append (.rightParen hclose hd .nil)
  | .atom (t := t) h => exact ⟨[t], rfl, fun _ _ _ => .other (kind_of_atom? h) .nil⟩
  | .word (t := t) hkind _ => exact ⟨[t], rfl, fun _ _ _ => .other (by simp [hkind]) .nil⟩
  | @ReadsOperand.call t paren _ _ _ hkind _ hparen inner =>
      obtain ⟨us, close, rfl, hclose, hus⟩ := inner.nests
      refine ⟨t :: paren :: (us ++ [close]), by simp, fun low d hd => ?_⟩
      have hinner := hus low (d + 1) (by omega) (Nat.succ_pos d)
      exact .other (by simp [hkind]) (.leftParen hparen
        (hinner.append (.rightParen hclose hd .nil)))

/-- Reading arguments comes to the parenthesis that closes them. -/
theorem ReadsArgs.nests {ts rest : List Token} {args : List Expr} (h : ReadsArgs ts args rest) :
    ∃ us close, ts = us ++ close :: rest ∧ close.kind = .rightParen ∧
      ∀ low d, low ≤ d → 0 < d → Nests low d us d := by
  match h with
  | @ReadsArgs.none close _ hclose => exact ⟨[], close, rfl, hclose, fun _ _ _ _ => .nil⟩
  | .some inner => exact inner.nests

theorem ReadsSomeArgs.nests {ts rest : List Token} {args : List Expr}
    (h : ReadsSomeArgs ts args rest) :
    ∃ us close, ts = us ++ close :: rest ∧ close.kind = .rightParen ∧
      ∀ low d, low ≤ d → 0 < d → Nests low d us d := by
  match h with
  | @ReadsSomeArgs.last _ _ _ close arg hclose =>
      obtain ⟨us, rfl, hus⟩ := arg.nests
      exact ⟨us, close, rfl, hclose, fun low d hd _ => hus low d hd⟩
  | @ReadsSomeArgs.more _ _ _ _ _ comma arg hcomma others =>
      obtain ⟨us, rfl, hus⟩ := arg.nests
      obtain ⟨vs, close, rfl, hclose, hvs⟩ := others.nests
      exact ⟨us ++ comma :: vs, close, by simp, hclose, fun low d hd hpos =>
        (hus low d hd).append (.comma hcomma hpos (hvs low d hd hpos))⟩

end

end Expr

namespace Token

/-- The characters that the scan for bars looks at, outside quotes. -/
def barSpecials : List Char :=
  ['\'', '"', '(', '[', '\x7b', ')', ']', '\x7d', '|']

/-- The separators of stages and of arguments. -/
def separators : List Char :=
  ['|', ',']

variable {sep c : Char}

theorem isPlain_of_not_mem (h : c ∉ sep :: barSpecials) : IsPlain sep c := by
  simp only [barSpecials, List.mem_cons, List.not_mem_nil, or_false, not_or] at h
  constructor <;> simp [isQuote, isOpening, isClosing, h]

theorem isPlain_of_class (p : Char → Bool)
    (hp : (',' :: barSpecials).all (fun c => !p c) = true) (hsep : sep ∈ separators)
    (h : p c = true) : IsPlain sep c := by
  have hc : c ∉ ',' :: barSpecials := not_mem_of_class p hp h
  refine isPlain_of_not_mem fun hmem => hc ?_
  rcases List.mem_cons.1 hmem with rfl | hmem
  · exact List.Sublist.subset (by decide : [',', '|'].Sublist (',' :: barSpecials)) (by
      simpa [separators, or_comm] using hsep)
  · exact List.mem_cons_of_mem _ hmem

theorem isPlain_of_isWord (hsep : sep ∈ separators) (h : isWord c = true) : IsPlain sep c :=
  isPlain_of_class isWord (by decide) hsep h

theorem isPlain_of_isBlank (hsep : sep ∈ separators) (h : isBlank c = true) : IsPlain sep c :=
  isPlain_of_class isBlank (by decide) hsep h

theorem isPlain_of_isNumeric (hsep : sep ∈ separators) (h : isNumeric c = true) : IsPlain sep c :=
  isPlain_of_class isNumeric (by decide) hsep h

theorem isPlain_of_isNameStart (hsep : sep ∈ separators) (h : isNameStart c = true) :
    IsPlain sep c :=
  isPlain_of_class isNameStart (by decide) hsep h

variable {d : Int} {cs : List Char} {m n : Nat}

section

variable (hsep : sep ∈ separators)
include hsep

theorem carried_number (h : numberLength cs = some n) :
    Carried sep ⟨d, m, none⟩ (cs.take n) ⟨d, m, none⟩ :=
  carried_of_forall_isPlain fun _ hc => isPlain_of_isNumeric hsep (isNumeric_of_mem_number h hc)

theorem carried_identifier (h : identifierLength cs = some n) :
    Carried sep ⟨d, m, none⟩ (cs.take n) ⟨d, m, none⟩ := by
  refine carried_of_forall_isPlain fun c hc => ?_
  rcases isNameStart_or_isWord_of_mem h hc with hc | hc
  · exact isPlain_of_isNameStart hsep hc
  · exact isPlain_of_isWord hsep hc

theorem carried_operator (h : operatorLength cs = some n) :
    Carried sep ⟨d, m, none⟩ (cs.take n) ⟨d, m, none⟩ := by
  have hone (c : Char) (hc : c ∈ "<>+-*/%!".toList) : IsPlain sep c :=
    isPlain_of_class "<>+-*/%!".toList.contains (by decide) hsep (by simpa using hc)
  have hsign (c : Char) (hc : c ∈ ['=', '!', '>', '<', '&']) : IsPlain sep c :=
    isPlain_of_class ['=', '!', '>', '<', '&'].contains (by decide) hsep (by simpa using hc)
  have htwo (c e : Char) (hc : c ∈ ['=', '!', '>', '<', '&'])
      (he : e ∈ ['=', '!', '>', '<', '&']) : Carried sep ⟨d, m, none⟩ [c, e] ⟨d, m, none⟩ :=
    (carried_of_isPlain (hsign c hc)).cons (carried_of_isPlain (hsign e he))
  revert h
  fun_cases operatorLength cs with
  | case6 =>
      rintro ⟨⟩
      exact carried_bars
  | case7 c rest _ _ _ _ _ _ hc =>
      rintro ⟨⟩
      exact carried_of_isPlain (hone c (by simpa using hc))
  | case8 => simp
  | case9 => simp
  | _ =>
      rintro ⟨⟩
      exact htwo _ _ (by decide) (by decide)

/-- Blanks are carried over, also inside of quotes. -/
theorem carried_blanks {q : Option Char} (hq : ∀ c ∈ q, isQuote c = true)
    (h : ∀ c ∈ cs, isBlank c = true) : Carried sep ⟨d, m, q⟩ cs ⟨d, m, q⟩ := by
  induction cs with
  | nil => exact .nil
  | cons c cs ih =>
      have hc := h c (by simp)
      refine Carried.cons ?_ (ih fun c hc => h c (by simp [hc]))
      cases q with
      | none => exact carried_of_isPlain (isPlain_of_isBlank hsep hc)
      | some q =>
          have hmem : c ∉ ['\'', '"', '\\'] := not_mem_of_class isBlank (by decide) hc
          simp only [List.mem_cons, List.not_mem_nil, or_false, not_or] at hmem
          have hne : c ≠ q := by
            rintro rfl
            have hquote := hq c rfl
            simp [isQuote, hmem] at hquote
          exact carried_inQuote hmem.2.2 hne

omit hsep in
theorem carried_stringTail {q : Char} (hq : isQuote q = true) (h : stringTail q cs = some n) :
    Carried sep ⟨d, m, some q⟩ (cs.take n) ⟨d, m, none⟩ := by
  fun_induction stringTail q cs generalizing n with
  | case2 =>
      cases h
      exact carried_closeQuote hq
  | case4 =>
      cases h
      exact carried_closeQuote hq
  | case6 e rest _ _ ih =>
      obtain ⟨k, hk, rfl⟩ := Option.map_eq_some_iff.1 h
      exact carried_escaped.append (ih hk)
  | case7 c e rest hc hslash ih =>
      obtain ⟨k, hk, rfl⟩ := Option.map_eq_some_iff.1 h
      exact (carried_inQuote hslash hc).cons (ih hk)
  | _ => simp at h

omit hsep in
theorem carried_string (h : stringLength cs = some n) :
    Carried sep ⟨d, m, none⟩ (cs.take n) ⟨d, m, none⟩ := by
  revert h
  fun_cases stringLength cs with
  | case1 q rest hq =>
      intro h
      obtain ⟨k, hk, rfl⟩ := Option.map_eq_some_iff.1 h
      exact (carried_openQuote hq).cons (carried_stringTail hq hk)
  | _ => simp

end

/-- A path without backslashes, and without parentheses and opening brackets where brackets
are not quoted. -/
structure PlainPath (path : List Char) : Prop where
  noBackslash : '\\' ∉ path
  bare : ∀ inside, '[' :: inside ∈ segments path.tail →
    (∀ c ∈ inside.head?, isQuote c = false) → '(' ∉ inside ∧ ')' ∉ inside ∧ '[' ∉ inside

section

variable (hsep : sep ∈ separators)
include hsep

theorem carried_segment {s : List Char} (hd : 0 ≤ d) (hs : IsSegment s) (hslash : '\\' ∉ s)
    (hopen : '\x7b' ∉ s) (hclose : '\x7d' ∉ s)
    (hbare : ∀ inside, s = '[' :: inside → (∀ c ∈ inside.head?, isQuote c = false) →
      '(' ∉ inside ∧ ')' ∉ inside ∧ '[' ∉ inside) :
    Carried sep ⟨d, m, none⟩ s ⟨d, m, none⟩ := by
  have hpair : ('[', ']') ∈ bracketPairs := by decide
  have hpoint : IsPlain sep '.' := isPlain_of_class (· == '.') (by decide) hsep (by decide)
  cases hs with
  | wildcard =>
      have hstar : IsPlain sep '*' := isPlain_of_class (· == '*') (by decide) hsep (by decide)
      exact (carried_of_isPlain hpoint).cons (carried_of_isPlain hstar)
  | word h => exact carried_of_forall_isPlain fun c hc => isPlain_of_isWord hsep (h c hc)
  | property h =>
      refine (carried_of_isPlain hpoint).cons ?_
      exact carried_of_forall_isPlain fun c hc => isPlain_of_isWord hsep (h c hc)
  | @quoted q body hq h =>
      simp only [List.mem_cons, List.mem_append, not_or] at hslash
      simpa using carried_group hpair fun n => carried_quoted hq hslash.2.2.1 h
  | @brackets body h =>
      have hquote : ∀ c ∈ (body ++ [']']).head?, isQuote c = false := by
        cases body with
        | nil => simp [isQuote]
        | cons c body => simpa using (h c (by simp)).2
      obtain ⟨hleft, hright, hbracket⟩ := hbare _ rfl hquote
      refine carried_group hpair fun n => carried_of_forall_inside (by omega) fun c hc => ?_
      simp only [isOpening, isClosing, Bool.or_eq_false_iff, beq_eq_false_iff_ne]
      have hne (x : Char) (hx : x ∉ body) : c ≠ x := ne_of_mem_of_not_mem hc hx
      simp only [List.mem_cons, List.mem_append, not_or] at hleft hright hbracket hopen hclose
      exact ⟨(h c hc).2, ⟨⟨hne _ hleft.1, hne _ hbracket.1⟩, hne _ hopen.2.1⟩,
        ⟨hne _ hright.1, (h c hc).1⟩, hne _ hclose.2.1⟩

theorem carried_path (hd : 0 ≤ d) (h : pathLength cs = some n) (hplain : PlainPath (cs.take n))
    (hopen : '\x7b' ∉ cs.take n) (hclose : '\x7d' ∉ cs.take n) :
    Carried sep ⟨d, m, none⟩ (cs.take n) ⟨d, m, none⟩ := by
  have hdollar : IsPlain sep '$' := isPlain_of_class (· == '$') (by decide) hsep (by decide)
  revert h
  fun_cases pathLength cs with
  | case1 rest =>
      rintro ⟨⟩
      rw [List.take_succ_cons] at hplain hopen hclose ⊢
      have hslash := hplain.noBackslash
      have hbare := hplain.bare
      rw [List.tail_cons, segments_take] at hbare
      rw [← flatten_segments] at hslash hopen hclose ⊢
      simp only [List.mem_cons, List.mem_flatten, not_or, not_exists, not_and] at hslash hopen hclose
      refine (carried_of_isPlain hdollar).cons (Carried.flatten fun s hs => ?_)
      refine carried_segment hsep hd (isSegment_of_mem_segments hs) (hslash.2 s hs) (hopen.2 s hs)
        (hclose.2 s hs) ?_
      rintro inside rfl
      exact hbare inside hs
  | case2 => simp

omit hsep in
theorem take_of_charLength (h : charLength c cs = some n) : cs.take n = [c] := by
  revert h
  fun_cases charLength c cs with
  | case1 rest =>
      rintro ⟨⟩
      rfl
  | _ => simp

/-- How the scans get over a token that is not a template, and a plain path if it is a path. -/
theorem carried_of_first? {kind : Kind} (hd : 0 ≤ d) (hopen : '\x7b' ∉ cs) (hclose : '\x7d' ∉ cs)
    (h : first? cs = some (kind, n)) (hpath : kind = .path → PlainPath (cs.take n)) :
    if kind ∈ [.leftParen, .rightParen, .comma]
      then cs.take n = [if kind = .leftParen then '(' else if kind = .comma then ',' else ')']
      else Carried sep ⟨d, m, none⟩ (cs.take n) ⟨d, m, none⟩ := by
  obtain ⟨rule, hmem, hrule⟩ := exists_rule_of_first? h
  simp only [rules, List.mem_cons, Prod.mk.injEq, List.not_mem_nil, or_false] at hmem
  rcases hmem with ⟨rfl, rfl⟩ | ⟨rfl, rfl⟩ | ⟨rfl, rfl⟩ | ⟨rfl, rfl⟩ | ⟨rfl, rfl⟩ | ⟨rfl, rfl⟩ |
    ⟨rfl, rfl⟩ | ⟨rfl, rfl⟩ | ⟨rfl, rfl⟩ | ⟨rfl, rfl⟩ | ⟨rfl, rfl⟩ <;>
    simp only [List.mem_cons, List.not_mem_nil, reduceCtorEq, or_false, or_true, if_false, if_true]
  · exact absurd (mem_of_quotedTemplateLength hrule) hopen
  · exact absurd (mem_of_quotedTemplateLength hrule) hopen
  · exact absurd (mem_of_templateLength hrule) hopen
  · exact carried_path hsep hd hrule (hpath rfl) (fun hc => hopen (List.mem_of_mem_take hc))
      (fun hc => hclose (List.mem_of_mem_take hc))
  · exact carried_operator hsep hrule
  · exact carried_identifier hsep hrule
  · exact carried_string hrule
  · exact carried_number hsep hrule
  · exact take_of_charLength hrule
  · exact take_of_charLength hrule
  · exact take_of_charLength hrule

/-- One token, with the depth of parentheses after it. The parentheses that the check counts are
those above the floor, and some more that are open all the time. -/
theorem Nests.exists_carried {t : Token} {ts : List Token} {floor depth depth' : Nat} (more : Nat)
    (hopen : '\x7b' ∉ cs) (hclose : '\x7d' ∉ cs) (h : first? cs = some (t.kind, n))
    (hpath : t.kind = .path → PlainPath (cs.take n)) (hnests : Nests floor depth (t :: ts) depth')
    (hfloor : floor ≤ depth) :
    ∃ depth₁, floor ≤ depth₁ ∧ Nests floor depth₁ ts depth' ∧
      Carried sep ⟨depth, depth - floor + more, none⟩ (cs.take n)
        ⟨depth₁, depth₁ - floor + more, none⟩ := by
  have hcarried (m : Nat) := carried_of_first? (m := m) hsep (Int.natCast_nonneg depth) hopen
    hclose h hpath
  cases hnests with
  | leftParen hkind hrest =>
      have hlexeme : cs.take n = ['('] := by simpa [hkind] using hcarried 0
      have hparens : depth + 1 - floor + more = depth - floor + more + 1 := by omega
      refine ⟨depth + 1, by omega, hrest, ?_⟩
      rw [hlexeme, hparens, Int.natCast_succ]
      exact carried_leftParen
  | @rightParen d _ _ _ hkind hd hrest =>
      have hlexeme : cs.take n = [')'] := by simpa [hkind] using hcarried 0
      have hparens : d + 1 - floor + more = d - floor + more + 1 := by omega
      have hback : (d : Int) = (d + 1 : Nat) - 1 := by simp
      refine ⟨d, hd, hrest, ?_⟩
      rw [hlexeme, hparens, hback]
      exact carried_rightParen
  | comma hkind hd hrest =>
      have hlexeme : cs.take n = [','] := by simpa [hkind] using hcarried 0
      refine ⟨depth, hfloor, hrest, ?_⟩
      rw [hlexeme]
      exact carried_inside (Int.natCast_pos.2 hd) (by decide) (by decide) (by decide)
  | other hkind hrest =>
      refine ⟨depth, hfloor, hrest, ?_⟩
      simpa only [hkind, if_false] using hcarried (depth - floor + more)

/-- Tokens at the start of a text are a piece of it that the scans carry over. -/
theorem exists_carried_of_scan {cs : List Char} {position floor depth depth' : Nat}
    {ts us : List Token} (more : Nat) (hscan : scan position cs = .ok (ts ++ us))
    (hopen : '\x7b' ∉ cs) (hclose : '\x7d' ∉ cs)
    (hpaths : ∀ t ∈ ts, t.kind = .path → PlainPath t.text.toList)
    (hnests : Nests floor depth ts depth') (hfloor : floor ≤ depth) :
    ∃ as bs position', cs = as ++ bs ∧ scan position' bs = .ok us ∧
      Carried sep ⟨depth, depth - floor + more, none⟩ as ⟨depth', depth' - floor + more, none⟩ := by
  induction ts generalizing cs position depth with
  | nil =>
      cases hnests
      exact ⟨[], cs, position, rfl, hscan, .nil⟩
  | cons t ts ihts =>
      obtain ⟨blanks, rest, position', rfl, hblanks, hmatch, hrest⟩ := exists_of_scan_cons hscan
      simp only [List.mem_append, not_or] at hopen hclose
      obtain ⟨hpath, hpaths⟩ := List.forall_mem_cons.1 hpaths
      obtain ⟨depth₁, hfloor₁, hnests₁, hcarried⟩ := hnests.exists_carried hsep more
        (by simpa using hopen.2) (by simpa using hclose.2) hmatch.first?_eq
        (by simpa using hpath) hfloor
      rw [List.take_left] at hcarried
      obtain ⟨as, bs, position'', rfl, hbs, has⟩ :=
        ihts hrest hopen.2.2 hclose.2.2 hpaths hnests₁ hfloor₁
      have hstart : Carried sep ⟨depth, depth - floor + more, none⟩ blanks
          ⟨depth, depth - floor + more, none⟩ := carried_blanks hsep (by simp) hblanks
      exact ⟨blanks ++ (t.text.toList ++ as), bs, position'', by simp, hbs,
        hstart.append (hcarried.append has)⟩

/-- The text of tokens that close what they open is carried over. -/
theorem carried_of_scan {cs : List Char} {position depth : Nat} {ts : List Token}
    (hscan : scan position cs = .ok ts) (hopen : '\x7b' ∉ cs) (hclose : '\x7d' ∉ cs)
    (hpaths : ∀ t ∈ ts, t.kind = .path → PlainPath t.text.toList)
    (hnests : Nests depth depth ts depth) :
    Carried sep ⟨depth, n, none⟩ cs ⟨depth, n, none⟩ := by
  rw [← List.append_nil ts] at hscan
  obtain ⟨as, bs, position', rfl, hbs, has⟩ := exists_carried_of_scan hsep n hscan hopen hclose
    hpaths hnests (Nat.le_refl depth)
  simpa using has.append (carried_blanks hsep (by simp) (isBlank_of_scan_nil hbs))

end

end Token

end Sluice

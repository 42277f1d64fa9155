import Sluice.Proofs.Lexicon

/-!
# Texts cut into tokens

The token at the start of a text is the longest text of the first kind of which one stands there
(`first?_eq_some`). From this it is said of a whole text what its tokens are: they stand in the
text one after the other, each is the first match where it stands, and there are only blanks
between them. Scanning gives the tokens of a text if it has any, and else comes to a character
that begins none.
-/
namespace Sluice.Token

open Sluice.Text

variable {c : Char} {cs w rest : List Char} {n position : Nat} {kind : Kind} {t : Token}
  {ts : List Token}

/-- The place of a kind in the order in which kinds are tried. The parentheses share one. -/
def Kind.rank : Kind → Nat
  | .quotedTemplate => 0
  | .singleQuotedTemplate => 1
  | .bareTemplate => 2
  | .path => 3
  | .operator => 4
  | .identifier => 5
  | .string => 6
  | .number => 7
  | .leftParen | .rightParen => 8
  | .comma => 9

/-- The longest text of a kind at the start of a text, where no text of a kind that is tried
before stands. -/
structure FirstMatch (kind : Kind) (w cs : List Char) : Prop where
  lexeme : Lexeme kind w
  atStart : w <+: cs
  longest : ∀ w', Lexeme kind w' → w' <+: cs → w'.length ≤ w.length
  first : ∀ kind' w', Lexeme kind' w' → w' <+: cs → kind.rank ≤ kind'.rank

theorem exists_rule (kind : Kind) : ∃ rule, (kind, rule) ∈ rules := by
  have h : kind ∈ rules.map Prod.fst := by cases kind <;> decide
  obtain ⟨⟨_, rule⟩, hrule, rfl⟩ := List.mem_map.1 h
  exact ⟨rule, hrule⟩

theorem exists_rule_of_lexeme (h : Lexeme kind w) (hw : w <+: cs) :
    ∃ rule n, (kind, rule) ∈ rules ∧ rule cs = some n ∧ w.length ≤ n := by
  obtain ⟨rest, rfl⟩ := hw
  obtain ⟨rule, hrule⟩ := exists_rule kind
  obtain ⟨n, hn, hle⟩ := (measures_of_mem_rules hrule).maximal h rest
  exact ⟨rule, n, hrule, hn, hle⟩

/-- There is no token at the start of a text exactly if no text of any kind stands there. -/
theorem first?_eq_none : first? cs = none ↔ ∀ kind w, Lexeme kind w → ¬ w <+: cs := by
  constructor
  · intro h kind w hw hstart
    obtain ⟨rule, n, hrule, hn, -⟩ := exists_rule_of_lexeme hw hstart
    have hnone := List.findSome?_eq_none_iff.1 h _ hrule
    simp [hn] at hnone
  · intro h
    cases hfirst : first? cs with
    | none => rfl
    | some match' =>
        obtain ⟨rule, hrule, hn⟩ := exists_rule_of_first? hfirst
        obtain ⟨w, rest, rfl, hw, -⟩ := (measures_of_mem_rules hrule).sound hn
        exact absurd (List.prefix_append w rest) (h _ w hw)

theorem firstMatch_of_first? (h : first? cs = some (kind, n)) :
    ∃ w, FirstMatch kind w cs ∧ w.length = n := by
  have hsorted : rules.Pairwise fun a b => a.1.rank ≤ b.1.rank := by decide
  obtain ⟨before, ⟨kind', rule⟩, after, hrules, hrule, hbefore⟩ := List.findSome?_eq_some_iff.1 h
  obtain ⟨m, hm, he⟩ := Option.map_eq_some_iff.1 hrule
  cases he
  have hmem : (kind, rule) ∈ rules := by simp [hrules]
  have hmeasures := measures_of_mem_rules hmem
  obtain ⟨w, rest, rfl, hw, hlength⟩ := hmeasures.sound hm
  refine ⟨w, ⟨hw, List.prefix_append w rest, ?_, ?_⟩, hlength⟩
  · rintro w' hw' ⟨rest', he⟩
    obtain ⟨n', hn', hle⟩ := hmeasures.maximal hw' rest'
    rw [he, hm] at hn'
    cases hn'
    omega
  · intro kind' w' hw' hstart
    obtain ⟨rule', n', hrule', hn', -⟩ := exists_rule_of_lexeme hw' hstart
    rw [hrules] at hrule' hsorted
    rcases List.mem_append.1 hrule' with hmem | hmem
    · have hnone := hbefore _ hmem
      simp [hn'] at hnone
    · rcases List.mem_cons.1 hmem with he | hmem
      · cases he
        exact Nat.le_refl _
      · exact (List.pairwise_cons.1 (List.pairwise_append.1 hsorted).2.1).1 _ hmem

theorem Kind.eq_of_rank_eq {kind kind' : Kind} (h : kind.rank = kind'.rank) :
    kind = kind' ∨ (kind = .leftParen ∧ kind' = .rightParen) ∨
      (kind = .rightParen ∧ kind' = .leftParen) := by
  cases kind <;> cases kind' <;> simp_all [rank]

/-- There is one first match at most. -/
theorem FirstMatch.unique {kind' : Kind} {w' : List Char} (h : FirstMatch kind w cs)
    (h' : FirstMatch kind' w' cs) : kind = kind' ∧ w = w' := by
  have hrank := Nat.le_antisymm (h.first _ _ h'.lexeme h'.atStart)
    (h'.first _ _ h.lexeme h.atStart)
  have hstart := List.prefix_or_prefix_of_prefix h.atStart h'.atStart
  rcases Kind.eq_of_rank_eq hrank with rfl | ⟨rfl, rfl⟩ | ⟨rfl, rfl⟩
  · have hlength := Nat.le_antisymm (h'.longest _ h.lexeme h.atStart)
      (h.longest _ h'.lexeme h'.atStart)
    rcases hstart with hstart | hstart
    · exact ⟨rfl, hstart.eq_of_length hlength⟩
    · exact ⟨rfl, (hstart.eq_of_length hlength.symm).symm⟩
  · rw [lexeme_leftParen.1 h.lexeme, lexeme_rightParen.1 h'.lexeme] at hstart
    simp at hstart
  · rw [lexeme_rightParen.1 h.lexeme, lexeme_leftParen.1 h'.lexeme] at hstart
    simp at hstart

/-- The token at the start of a text is the first match. -/
theorem first?_eq_some :
    first? cs = some (kind, n) ↔ ∃ w, FirstMatch kind w cs ∧ w.length = n := by
  constructor
  · exact firstMatch_of_first?
  · rintro ⟨w, hw, rfl⟩
    cases hfirst : first? cs with
    | none => exact absurd hw.atStart (first?_eq_none.1 hfirst _ w hw.lexeme)
    | some match' =>
        obtain ⟨w', hw', hlength⟩ := firstMatch_of_first? hfirst
        obtain ⟨hkind, rfl⟩ := hw.unique hw'
        rw [hkind, hlength]

/-! ## Scanning -/

theorem FirstMatch.first?_eq (h : FirstMatch kind w cs) : first? cs = some (kind, w.length) :=
  first?_eq_some.2 ⟨w, h, rfl⟩

theorem FirstMatch.ne_nil (h : FirstMatch kind w cs) : w ≠ [] :=
  List.length_pos_iff.1 (pos_of_first? h.first?_eq)

/-- A first match is one in any shorter text that it is still in. -/
theorem FirstMatch.of_prefix {cs' : List Char} (h : FirstMatch kind w cs) (hw : w <+: cs')
    (hcs : cs' <+: cs) : FirstMatch kind w cs' where
  lexeme := h.lexeme
  atStart := hw
  longest w' hw' hstart := h.longest w' hw' (hstart.trans hcs)
  first kind' w' hw' hstart := h.first kind' w' hw' (hstart.trans hcs)

/-- What scanning a text from a byte position on comes to. -/
inductive Scanned : Nat → List Char → Except ParseError (List Token) → Prop where
  | nil {position : Nat} : Scanned position [] (.ok [])
  | blank {position : Nat} {c : Char} {cs : List Char} {result : Except ParseError (List Token)}
      (h : isBlank c = true) (others : Scanned (position + c.utf8Size) cs result) :
      Scanned position (c :: cs) result
  | token {position : Nat} {kind : Kind} {w cs : List Char}
      {result : Except ParseError (List Token)} (h : FirstMatch kind w (w ++ cs))
      (others : Scanned (position + byteLength w) cs result) :
      Scanned position (w ++ cs) (result.map (⟨kind, String.ofList w, position⟩ :: ·))
  | stuck {position : Nat} {c : Char} {cs : List Char} (hblank : isBlank c = false)
      (hnone : ∀ kind w, Lexeme kind w → ¬ w <+: c :: cs) :
      Scanned position (c :: cs) (.error (.unexpectedCharacter c position))

theorem scanned_scan (position : Nat) (cs : List Char) :
    Scanned position cs (scan position cs) := by
  induction hlength : cs.length using Nat.strong_induction_on generalizing cs position with
  | _ n ih =>
      subst hlength
      cases cs with
      | nil =>
          rw [scan]
          exact .nil
      | cons c cs =>
          cases hfirst : first? (c :: cs) with
          | some match' =>
              obtain ⟨w, hw, -⟩ := firstMatch_of_first? hfirst
              obtain ⟨rest, he⟩ := hw.atStart
              have hlt : rest.length < (c :: cs).length := by
                have hpos := List.length_pos_iff.2 hw.ne_nil
                rw [← he, List.length_append]
                omega
              have hothers := ih _ hlt (position + byteLength w) rest rfl
              rw [← he] at hw ⊢
              rw [scan_of_first? position hw.ne_nil hw.first?_eq]
              exact .token hw hothers
          | none =>
              cases hblank : isBlank c with
              | true =>
                  have hothers := ih _ (Nat.lt_succ_self _) (position + c.utf8Size) cs rfl
                  rw [scan, hfirst]
                  simp only [hblank, if_true]
                  exact .blank hblank hothers
              | false =>
                  rw [scan, hfirst]
                  simp only [hblank]
                  exact .stuck hblank (first?_eq_none.1 hfirst)

theorem Scanned.scan_eq {result : Except ParseError (List Token)}
    (h : Scanned position cs result) : scan position cs = result := by
  induction h with
  | nil => rw [scan]
  | blank hblank others ih => rw [scan_of_isBlank _ hblank, ih]
  | token hmatch others ih => rw [scan_of_first? _ hmatch.ne_nil hmatch.first?_eq, ih]
  | stuck hblank hnone =>
      rw [scan, first?_eq_none.2 hnone]
      simp [hblank]

/-- The steps of scanning a text that has tokens. -/
@[elab_as_elim]
theorem scan_induction {motive : ∀ position cs ts, scan position cs = .ok ts → Prop}
    (nil : ∀ {position} h, motive position [] [] h)
    (blank : ∀ {position c cs ts} (_ : isBlank c = true)
      (others : scan (position + c.utf8Size) cs = .ok ts) h,
      motive (position + c.utf8Size) cs ts others → motive position (c :: cs) ts h)
    (token : ∀ {position kind w cs ts} (_ : FirstMatch kind w (w ++ cs))
      (others : scan (position + byteLength w) cs = .ok ts) h,
      motive (position + byteLength w) cs ts others →
        motive position (w ++ cs) (⟨kind, String.ofList w, position⟩ :: ts) h)
    {position : Nat} {cs : List Char} {ts : List Token} (h : scan position cs = .ok ts) :
    motive position cs ts h := by
  have hscanned := scanned_scan position cs
  generalize hresult : scan position cs = result at hscanned
  induction hscanned generalizing ts with
  | nil =>
      cases hresult.symm.trans h
      exact nil h
  | blank hblank others ih =>
      have hothers := (scan_of_isBlank _ hblank _).symm.trans h
      exact blank hblank hothers h (ih hothers others.scan_eq)
  | @token position kind w cs result hmatch others ih =>
      cases result with
      | error e => cases hresult.symm.trans h
      | ok us =>
          cases hresult.symm.trans h
          exact token hmatch others.scan_eq h (ih others.scan_eq others.scan_eq)
  | stuck => cases hresult.symm.trans h

/-- Where there are no tokens, there are only blanks. -/
theorem isBlank_of_scan_nil (h : scan position cs = .ok []) : ∀ c ∈ cs, isBlank c = true := by
  generalize hts : [] = ts at h
  induction h using scan_induction with
  | nil => simp
  | blank hblank _ _ ih => exact List.forall_mem_cons.2 ⟨hblank, ih hts⟩
  | token => cases hts

/-- The first token of a text, and what is scanned after it. -/
theorem exists_of_scan_cons (h : scan position cs = .ok (t :: ts)) :
    ∃ blanks rest position', cs = blanks ++ (t.text.toList ++ rest) ∧
      (∀ c ∈ blanks, isBlank c = true) ∧
      FirstMatch t.kind t.text.toList (t.text.toList ++ rest) ∧
      scan position' rest = .ok ts := by
  generalize hts : t :: ts = us at h
  induction h using scan_induction with
  | nil => cases hts
  | @blank _ c _ _ hblank _ _ ih =>
      obtain ⟨blanks, rest, position', rfl, hblanks, hmatch, hrest⟩ := ih hts
      exact ⟨c :: blanks, rest, position', rfl, List.forall_mem_cons.2 ⟨hblank, hblanks⟩, hmatch,
        hrest⟩
  | @token _ _ _ cs _ hmatch others _ _ =>
      cases hts
      exact ⟨[], cs, _, by simp, by simp, by simpa using hmatch, others⟩

/-! ## Tokens in their text -/

/-- The byte after a token. -/
def stop (t : Token) : Nat :=
  t.position + byteLength t.text.toList

/-- A token stands over a byte. -/
def Covers (t : Token) (byte : Nat) : Prop :=
  t.position ≤ byte ∧ byte < t.stop

/-- These are the tokens of a text that begins at a byte position: they are not empty and come
one after the other; where a token begins, its text stands and is the first match; and outside
the tokens there are blanks only. -/
structure Tokenizes (position : Nat) (cs : List Char) (ts : List Token) : Prop where
  nonempty : ∀ t ∈ ts, t.position < t.stop
  ordered : ts.Pairwise fun t t' => t.stop ≤ t'.position
  lexemes : ∀ t ∈ ts, ∃ before after, cs = before ++ (t.text.toList ++ after) ∧
    t.position = position + byteLength before ∧
    FirstMatch t.kind t.text.toList (t.text.toList ++ after)
  gaps : ∀ before c after, cs = before ++ c :: after →
    (∀ t ∈ ts, ¬ t.Covers (position + byteLength before)) → isBlank c = true

theorem byteLength_pos (h : w ≠ []) : 0 < byteLength w := by
  obtain ⟨c, w, rfl⟩ := List.exists_cons_of_ne_nil h
  have hpos := c.utf8Size_pos
  rw [byteLength_cons]
  omega

/-- A text cut at two places, of which the second is not before the first. -/
theorem exists_of_append_eq {before after : List Char} (h : w ++ cs = before ++ after)
    (hle : byteLength w ≤ byteLength before) :
    ∃ between, before = w ++ between ∧ cs = between ++ after := by
  rcases List.append_eq_append_iff.1 h with hlater | ⟨between, hw, hafter⟩
  · exact hlater
  · have hnil : between = [] := by
      by_contra hne
      have hpos := byteLength_pos hne
      rw [hw, byteLength_append] at hle
      omega
    rw [hnil, List.append_nil] at hw
    rw [hnil, List.nil_append] at hafter
    exact ⟨[], by simp [hw], by simp [hafter]⟩

theorem Tokenizes.blank (hblank : isBlank c = true)
    (h : Tokenizes (position + c.utf8Size) cs ts) : Tokenizes position (c :: cs) ts where
  nonempty := h.nonempty
  ordered := h.ordered
  lexemes t ht := by
    obtain ⟨before, after, rfl, hposition, hmatch⟩ := h.lexemes t ht
    exact ⟨c :: before, after, rfl, by rw [hposition, byteLength_cons, Nat.add_assoc], hmatch⟩
  gaps before d after he hcovers := by
    cases before with
    | nil =>
        cases he
        exact hblank
    | cons b before =>
        cases he
        rw [byteLength_cons, ← Nat.add_assoc] at hcovers
        exact h.gaps before d after rfl hcovers

theorem Tokenizes.token (hmatch : FirstMatch kind w (w ++ cs))
    (h : Tokenizes (position + byteLength w) cs ts) :
    Tokenizes position (w ++ cs) (⟨kind, String.ofList w, position⟩ :: ts) where
  nonempty t ht := by
    rcases List.mem_cons.1 ht with rfl | ht
    · simpa [stop] using byteLength_pos hmatch.ne_nil
    · exact h.nonempty t ht
  ordered := by
    refine List.pairwise_cons.2 ⟨fun t ht => ?_, h.ordered⟩
    obtain ⟨before, after, -, hposition, -⟩ := h.lexemes t ht
    simp only [hposition, stop, String.toList_ofList]
    omega
  lexemes t ht := by
    rcases List.mem_cons.1 ht with rfl | ht
    · exact ⟨[], cs, by simp, by simp, by simpa using hmatch⟩
    · obtain ⟨before, after, rfl, hposition, hmatch'⟩ := h.lexemes t ht
      refine ⟨w ++ before, after, by simp, ?_, hmatch'⟩
      rw [hposition, byteLength_append, Nat.add_assoc]
  gaps before c after he hcovers := by
    have hle : byteLength w ≤ byteLength before := by
      by_contra hlt
      refine hcovers _ List.mem_cons_self ⟨by simp, ?_⟩
      rw [stop, String.toList_ofList]
      dsimp only
      omega
    obtain ⟨between, rfl, rfl⟩ := exists_of_append_eq he hle
    rw [byteLength_append, ← Nat.add_assoc] at hcovers
    exact h.gaps between c after rfl fun t ht => hcovers t (List.mem_cons_of_mem _ ht)

theorem tokenizes_of_scan (h : scan position cs = .ok ts) : Tokenizes position cs ts := by
  induction h using scan_induction with
  | nil => exact ⟨by simp, .nil, by simp, by simp⟩
  | blank hblank _ _ ih => exact ih.blank hblank
  | token hmatch _ _ ih => exact ih.token hmatch

/-! ## The tokens of a text are scanned -/

theorem Tokenizes.position_le (h : Tokenizes position cs ts) (ht : t ∈ ts) :
    position ≤ t.position := by
  obtain ⟨before, after, -, hposition, -⟩ := h.lexemes t ht
  omega

theorem Tokenizes.of_blank (h : Tokenizes position (c :: cs) ts)
    (hstart : ∀ t ∈ ts, t.position ≠ position) :
    isBlank c = true ∧ Tokenizes (position + c.utf8Size) cs ts := by
  constructor
  · refine h.gaps [] c cs rfl fun t ht hcovers => hstart t ht ?_
    have hle := h.position_le ht
    have hge : t.position ≤ position := hcovers.1
    omega
  · refine ⟨h.nonempty, h.ordered, fun t ht => ?_, fun before d after he hcovers => ?_⟩
    · obtain ⟨before, after, he, hposition, hmatch⟩ := h.lexemes t ht
      cases before with
      | nil => exact absurd hposition (hstart t ht)
      | cons b before =>
          cases he
          exact ⟨before, after, rfl, by rw [hposition, byteLength_cons, Nat.add_assoc], hmatch⟩
    · refine h.gaps (c :: before) d after (by rw [he, List.cons_append]) ?_
      rwa [byteLength_cons, ← Nat.add_assoc]

theorem Tokenizes.of_token (h : Tokenizes position cs (t :: ts)) (hstart : t.position = position) :
    ∃ rest, cs = t.text.toList ++ rest ∧ FirstMatch t.kind t.text.toList cs ∧
      Tokenizes (position + byteLength t.text.toList) rest ts := by
  obtain ⟨before, rest, hcs, hposition, hmatch⟩ := h.lexemes t List.mem_cons_self
  have hbefore : before = [] := by
    by_contra hne
    have hpos := byteLength_pos hne
    omega
  rw [hbefore, List.nil_append] at hcs
  subst hcs
  refine ⟨rest, rfl, hmatch, fun t' ht' => h.nonempty t' (List.mem_cons_of_mem _ ht'),
    (List.pairwise_cons.1 h.ordered).2, fun t' ht' => ?_, fun before' c after he hcovers => ?_⟩
  · obtain ⟨before', after, hcs, hposition', hmatch'⟩ := h.lexemes t' (List.mem_cons_of_mem _ ht')
    have hstop := (List.pairwise_cons.1 h.ordered).1 t' ht'
    rw [stop, hposition'] at hstop
    obtain ⟨between, rfl, rfl⟩ := exists_of_append_eq hcs (by omega)
    exact ⟨between, after, rfl, by rw [hposition', byteLength_append, Nat.add_assoc], hmatch'⟩
  · refine h.gaps (t.text.toList ++ before') c after (by rw [he, List.append_assoc]) ?_
    rw [byteLength_append, ← Nat.add_assoc]
    intro t' ht'
    rcases List.mem_cons.1 ht' with rfl | ht'
    · intro hcover
      have hlt := hcover.2
      rw [stop] at hlt
      omega
    · exact hcovers t' ht'

theorem Tokenizes.scan_eq (h : Tokenizes position cs ts) : scan position cs = .ok ts := by
  induction hlength : cs.length using Nat.strong_induction_on generalizing position cs ts with
  | _ n ih =>
      subst hlength
      by_cases hstart : ∃ t us, ts = t :: us ∧ t.position = position
      · obtain ⟨t, us, rfl, hposition⟩ := hstart
        obtain ⟨rest, rfl, hmatch, hothers⟩ := h.of_token hposition
        have hpos := List.length_pos_iff.2 hmatch.ne_nil
        have hrest := ih _ (by rw [List.length_append]; omega) hothers rfl
        rw [scan_of_first? position hmatch.ne_nil hmatch.first?_eq, hrest]
        simp [Except.map, ← hposition]
      · have hnone : ∀ t ∈ ts, t.position ≠ position := by
          intro t ht hposition
          cases ts with
          | nil => simp at ht
          | cons first us =>
              rcases List.mem_cons.1 ht with rfl | ht
              · exact hstart ⟨t, us, rfl, hposition⟩
              · have hle := h.position_le List.mem_cons_self
                have hlt := h.nonempty first List.mem_cons_self
                have hstop := (List.pairwise_cons.1 h.ordered).1 t ht
                omega
        cases cs with
        | nil =>
            cases ts with
            | nil => rw [scan]
            | cons t ts =>
                obtain ⟨before, after, he, hposition, -⟩ := h.lexemes t List.mem_cons_self
                simp_all
        | cons c cs =>
            obtain ⟨hblank, hothers⟩ := h.of_blank hnone
            have hrest := ih _ (Nat.lt_succ_self _) hothers rfl
            rw [scan_of_isBlank position hblank, hrest]

/-- The tokens of a text are those that scanning finds. -/
theorem scan_eq_ok : scan position cs = .ok ts ↔ Tokenizes position cs ts :=
  ⟨tokenizes_of_scan, Tokenizes.scan_eq⟩

/-! ## Where scanning comes to an end -/

theorem Scanned.stuck_at {result : Except ParseError (List Token)} {e : ParseError}
    (h : Scanned position cs result) (hresult : result = .error e) :
    ∃ before c after, cs = before ++ c :: after ∧
      e = .unexpectedCharacter c (position + byteLength before) ∧ isBlank c = false ∧
      (∀ kind w, Lexeme kind w → ¬ w <+: c :: after) ∧
      ∃ ts, scan position before = .ok ts := by
  induction h with
  | nil => cases hresult
  | @blank position b cs result hblank others ih =>
      obtain ⟨before, c, after, rfl, rfl, hc, hnone, ts, hts⟩ := ih hresult
      refine ⟨b :: before, c, after, rfl, by rw [byteLength_cons, Nat.add_assoc], hc, hnone, ts, ?_⟩
      rw [scan_of_isBlank position hblank, hts]
  | @token position kind w cs result hmatch others ih =>
      cases result with
      | ok us => cases hresult
      | error e' =>
          cases hresult
          obtain ⟨before, c, after, rfl, rfl, hc, hnone, ts, hts⟩ := ih rfl
          have hbefore : FirstMatch kind w (w ++ before) := by
            refine hmatch.of_prefix (List.prefix_append w before) ?_
            rw [← List.append_assoc]
            exact List.prefix_append (w ++ before) (c :: after)
          refine ⟨w ++ before, c, after, by simp, by rw [byteLength_append, Nat.add_assoc], hc,
            hnone, ⟨kind, String.ofList w, position⟩ :: ts, ?_⟩
          rw [scan_of_first? position hbefore.ne_nil hbefore.first?_eq, hts]
          rfl
  | @stuck position c cs hblank hnone =>
      cases hresult
      exact ⟨[], c, cs, rfl, rfl, hblank, hnone, [], by rw [scan]⟩

/-- Tokenizing gives the tokens of a text. Where a text has none, it comes to a character that is
no blank and begins no token, and the text before this character has tokens. -/
theorem tokenize_by_grammar (text : String) :
    (∀ ts, tokenize text = .ok ts ↔ Tokenizes 0 text.toList ts) ∧
    ∀ e, tokenize text = .error e → ∃ before c after, text.toList = before ++ c :: after ∧
      e = .unexpectedCharacter c (byteLength before) ∧ isBlank c = false ∧
      (∀ kind w, Lexeme kind w → ¬ w <+: c :: after) ∧
      ∃ ts, tokenize (String.ofList before) = .ok ts := by
  constructor
  · intro ts
    exact scan_eq_ok
  · intro e he
    obtain ⟨before, c, after, htext, rfl, hc, hnone, ts, hts⟩ :=
      (scanned_scan 0 text.toList).stuck_at he
    refine ⟨before, c, after, htext, by rw [Nat.zero_add], hc, hnone, ts, ?_⟩
    rw [tokenize, String.toList_ofList, hts]

/-- A string that begins as a template does, a template, and a string that is not closed. -/
theorem tokenize_by_grammar_of_open_quote :
    tokenize "\"\x7b\x7ba\" \x7b\x7bb\x7d\x7d 'c" = .error (.unexpectedCharacter '\'' 12) ∧
    ∃ before c after, "\"\x7b\x7ba\" \x7b\x7bb\x7d\x7d 'c".toList = before ++ c :: after ∧
      .unexpectedCharacter '\'' 12 = ParseError.unexpectedCharacter c (byteLength before) ∧
      isBlank c = false ∧ (∀ kind w, Lexeme kind w → ¬ w <+: c :: after) ∧
      ∃ ts, tokenize (String.ofList before) = .ok ts := by
  have h : tokenize "\"\x7b\x7ba\" \x7b\x7bb\x7d\x7d 'c" =
      .error (.unexpectedCharacter '\'' 12) := by
    decide +kernel
  exact ⟨h, (tokenize_by_grammar _).2 _ h⟩

end Sluice.Token

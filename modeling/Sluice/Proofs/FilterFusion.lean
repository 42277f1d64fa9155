import Sluice.Proofs.OperatorCalls

/-!
# Filters that fuse

A list that is filtered by one condition and then by another is filtered by their conjunction. The
conjunction of two texts is read as the conjunction of their expressions, and it is a plain text
if they are. An element is kept by it exactly if the first condition holds of the element and then
the second one does, where a condition that fails does not hold. The two filters ask in another
order what their conjunction asks, but no memo that holds nothing false shows in what they find.
-/
namespace Sluice

open Sluice.Text Sluice.Pipeline

/-! ## The conjunction of two texts -/

/-- The conjunction of two texts, each in parentheses. -/
def conjoined (a b : String) : String :=
  "(" ++ a ++ ") && (" ++ b ++ ")"

variable {a b text : String} {e l r : Expr}

theorem toList_conjoined (a b : String) :
    (conjoined a b).toList = '(' :: (a.toList ++ [')']) ++
      ' ' :: (Operator.and.symbol.toList ++ ' ' :: ('(' :: (b.toList ++ [')']))) := by
  have hsymbol : Operator.and.symbol.toList = ['&', '&'] := by decide
  simp [conjoined, hsymbol]

/-- What is in a conjunction is in one of the two texts, or is one of a few other characters. -/
theorem mem_conjoined {c : Char} (h : c ∈ (conjoined a b).toList) :
    c ∈ a.toList ∨ c ∈ b.toList ∨ c ∈ ['(', ')', ' ', '&'] := by
  have hsymbol : Operator.and.symbol.toList = ['&', '&'] := by decide
  rw [toList_conjoined, hsymbol] at h
  simp only [List.cons_append, List.mem_cons, List.mem_append, List.not_mem_nil] at h ⊢
  tauto

theorem trimmed_conjoined (a b : String) : trimmed (conjoined a b) = conjoined a b := by
  rw [trimmed, trim_eq_self, String.ofList_toList]
  · rw [toList_conjoined]
    intro c hc
    cases hc
    decide
  · have hlast : (conjoined a b).toList.getLast? = some ')' := by
      simp [toList_conjoined, List.getLast?_append, List.getLast?_cons]
    rw [hlast]
    intro c hc
    cases hc
    decide

namespace Expr

open Token

/-- All paths among the tokens are plain. -/
def PlainPaths (ts : List Token) : Prop :=
  ∀ t ∈ ts, t.kind = .path → PlainPath t.text.toList

/-- The tokens are the expression as an argument, and their paths are plain. -/
def PlainArgument (e : Expr) (ts : List Token) : Prop :=
  Argument e ts ∧ PlainPaths ts

theorem Makes.readsExpr {ts : List Token} (h : Makes e ts) : ReadsExpr 0 ts e [] := by
  have hread := h.1 0 [] e [] (level_pos e) (endsExpr_nil.stopsAt _) endsExpr_nil.notCalled
    (.done (endsExpr_nil.stopsAt 0))
  rwa [List.append_nil] at hread

theorem InParens.operand {ts : List Token} (h : InParens (PlainArgument e) ts) : Operand e ts := by
  obtain ⟨ht, ⟨harg, -⟩, hclose⟩ := h
  intro more _
  rw [List.cons_append, List.append_assoc]
  exact .paren ht (harg _ more (.inl hclose)) hclose

theorem InParens.plainPaths {ts : List Token} (h : InParens (PlainArgument e) ts) :
    PlainPaths ts := by
  obtain ⟨ht, ⟨-, hplain⟩, hclose⟩ := h
  intro t hmem hkind
  rcases List.mem_cons.1 hmem with rfl | hmem
  · cases ht.symm.trans hkind
  · rcases List.mem_append.1 hmem with hmem | hmem
    · exact hplain t hmem hkind
    · rw [List.mem_singleton.1 hmem] at hkind
      cases hclose.symm.trans hkind

/-- Tokens of a conjunction in parentheses are read as the conjunction. -/
theorem Between.conjunction {ts : List Token}
    (h : Between .and (InParens (PlainArgument l)) (InParens (PlainArgument r)) ts) :
    ReadsExpr 0 ts (.binary l .and r) [] ∧ PlainPaths ts := by
  obtain ⟨hl, ht, hkind, hr⟩ := h
  refine ⟨(Between.makes (.mk (hl.operand.holds _) ht hkind (hr.operand.holds _))).readsExpr, ?_⟩
  intro t hmem hpath
  rcases List.mem_append.1 hmem with hmem | hmem
  · exact hl.plainPaths t hmem hpath
  · rcases List.mem_cons.1 hmem with rfl | hmem
    · cases hkind.symm.trans hpath
    · exact hr.plainPaths t hmem hpath

end Expr

namespace PlainText

open Sluice.Token Sluice.Expr

theorem scans (h : PlainText text) (hparse : Expr.parse text = .ok e) :
    Scans text.toList (PlainArgument e) := by
  obtain ⟨-, ts, hscan, hreads⟩ := Expr.parse_eq_ok.1 hparse
  refine (scans_of_tokenize hscan h.noOpening).mono fun us hus => ?_
  obtain ⟨f, rfl⟩ := hus
  refine ⟨hreads.argument f, fun t ht hkind => ?_⟩
  obtain ⟨t, hmem, rfl⟩ := List.mem_map.1 ht
  exact h.paths ts hscan t hmem hkind

theorem exists_tokens_conjoined (ha : PlainText a) (hb : PlainText b)
    (hl : Expr.parse a = .ok l) (hr : Expr.parse b = .ok r) :
    ∃ ts, tokenize (trimmed (conjoined a b)) = .ok ts ∧
      ReadsExpr 0 ts (.binary l .and r) [] ∧ PlainPaths ts := by
  have hscans := ((ha.scans hl).inParens).between .and (hb.scans hr).inParens
  obtain ⟨ts, position, hts, hscan⟩ := hscans 0 [] stops_nil
  refine ⟨ts, ?_, hts.conjunction⟩
  rw [trimmed_conjoined, tokenize, toList_conjoined]
  rw [List.append_nil, ScansTo] at hscan
  simpa only [scan, Except.map, List.append_nil] using hscan

/-- The conjunction of plain texts is read as the conjunction of their expressions. -/
theorem parse_conjoined (ha : PlainText a) (hb : PlainText b)
    (hl : Expr.parse a = .ok l) (hr : Expr.parse b = .ok r) :
    Expr.parse (conjoined a b) = .ok (.binary l .and r) := by
  obtain ⟨ts, htokens, hreads, -⟩ := exists_tokens_conjoined ha hb hl hr
  refine Expr.parse_eq_ok.2 ⟨?_, ts, htokens, hreads⟩
  rw [trimmed_conjoined]
  intro he
  have hchars := congrArg String.toList he
  simp [toList_conjoined] at hchars

theorem conjoined (ha : PlainText a) (hb : PlainText b) : PlainText (conjoined a b) := by
  obtain ⟨l, hl⟩ := ha.parses
  obtain ⟨r, hr⟩ := hb.parses
  obtain ⟨ts, htokens, -, hplain⟩ := exists_tokens_conjoined ha hb hl hr
  have hbrace {c : Char} (hother : c ∉ ['(', ')', ' ', '&']) (hca : c ∉ a.toList)
      (hcb : c ∉ b.toList) : c ∉ (Sluice.conjoined a b).toList := fun hmem =>
    (mem_conjoined hmem).elim hca fun hmem => hmem.elim hcb hother
  refine ⟨⟨_, parse_conjoined ha hb hl hr⟩, hbrace (by decide) ha.noOpening hb.noOpening,
    hbrace (by decide) ha.noClosing hb.noClosing, fun us hus => ?_⟩
  obtain rfl := Except.ok.inj (htokens.symm.trans hus)
  exact hplain

/-- A text whose tokens have been found is plain by its tokens. -/
theorem of_tokens {ts : List Token} (htrimmed : trimmed text = text) (hne : text ≠ "")
    (htokens : (tokenize text).toOption = some ts) (hreads : ReadsExpr 0 ts e [])
    (hopen : '\x7b' ∉ text.toList) (hclose : '\x7d' ∉ text.toList) (hplain : PlainPaths ts) :
    PlainText text := by
  refine ⟨⟨e, parse_of_tokens htrimmed hne htokens hreads⟩, hopen, hclose, fun us hus => ?_⟩
  rw [htrimmed] at hus
  rw [hus] at htokens
  obtain rfl := Option.some.inj htokens
  exact hplain

end PlainText

/-! ## One condition after the other -/

namespace Run

variable {α β : Type} {memo memo' : PathMemo}

/-- What a run comes to, whatever memo it leaves. -/
def value? (x : Run α) (memo : PathMemo) : Option α :=
  (x memo).map Prod.fst

/-- Memos that hold nothing false do not show in what an inquiry comes to. -/
theorem IsInquiry.value?_eq {x : Run α} (hx : x.IsInquiry) (hmemo : memo.Sound)
    (hmemo' : memo'.Sound) : value? x memo = value? x memo' := by
  obtain ⟨t, rfl⟩ := hx
  simp only [value?, t.run_eq hmemo, t.run_eq hmemo', Option.map_map]
  rfl

theorem IsInquiry.value?_bind {x : Run α} {f : α → Run β} (hx : x.IsInquiry)
    (hf : ∀ a, (f a).IsInquiry) (hmemo : memo.Sound) :
    value? (x >>= f) memo = (value? x memo).bind fun a => value? (f a) memo := by
  rw [value?, bind_apply, value?]
  cases hrun : x memo with
  | none => rfl
  | some r => exact (hf r.1).value?_eq (hx.sound hmemo hrun) hmemo

end Run

/-! What is kept so far can be set aside. -/

section Filter

variable {α : Type} {m : Type → Type} [Monad m] [LawfulMonad m] (p : α → m Bool)

theorem filterAuxM_eq (items kept : List α) :
    items.filterAuxM p kept = (· ++ kept) <$> items.filterAuxM p [] := by
  induction items generalizing kept with
  | nil => simp [List.filterAuxM]
  | cons a items ih =>
      simp only [List.filterAuxM, map_bind]
      refine congrArg _ (funext fun b => ?_)
      cases b with
      | false => exact ih kept
      | true =>
          rw [cond_true, cond_true, ih (a :: kept), ih [a], Functor.map_map]
          simp

theorem filterM_cons (a : α) (items : List α) :
    (a :: items).filterM p = do
      let keep ← p a
      let kept ← items.filterM p
      return if keep then a :: kept else kept := by
  simp only [List.filterM, List.filterAuxM, bind_assoc, pure_bind]
  refine congrArg _ (funext fun b => ?_)
  cases b with
  | false => simp
  | true =>
      rw [cond_true, filterAuxM_eq]
      simp

end Filter

namespace Run

variable {α : Type} {memo : PathMemo}

/-- Filters in the order of the conditions and filters in the order of the elements find the
same, because none of them does anything but find something or nothing. -/
theorem filterM_filterM (p q : α → Option Bool) (items : List α) :
    ((items.filterM p).bind fun kept => kept.filterM q) =
      items.filterM fun a => (p a).bind fun keep => if keep then q a else some false := by
  induction items with
  | nil => rfl
  | cons a items ih =>
      rw [filterM_cons, filterM_cons, ← ih]
      cases hp : p a with
      | none => rfl
      | some keep =>
          cases keep with
          | false => cases items.filterM p <;> simp
          | true =>
              cases hq : q a with
              | none => cases items.filterM p <;> simp [filterM_cons, hq]
              | some keep' => cases items.filterM p <;> simp [filterM_cons, hq]

theorem isInquiry_filterM {p : α → Run Bool} (hp : ∀ a, (p a).IsInquiry) (items : List α) :
    (items.filterM p).IsInquiry :=
  closed_isInquiry.filterM (f := fun _ => p) items fun a _ => hp a

theorem value?_filterM {p : α → Run Bool} (hp : ∀ a, (p a).IsInquiry) (hmemo : memo.Sound)
    (items : List α) :
    value? (items.filterM p) memo = items.filterM fun a => value? (p a) memo := by
  have hadd (keep : Bool) (a : α) (kept : List α) :
      IsInquiry (pure (if keep then a :: kept else kept)) := closed_isInquiry.pure _
  have hrest (keep : Bool) (a : α) (items : List α) :
      IsInquiry (do
        let kept ← items.filterM p
        return if keep then a :: kept else kept) :=
    closed_isInquiry.bind (x := fun _ => items.filterM p)
      (f := fun _ kept => pure (if keep then a :: kept else kept)) (isInquiry_filterM hp items)
      (hadd keep a)
  induction items with
  | nil => rfl
  | cons a items ih =>
      rw [filterM_cons, filterM_cons, (hp a).value?_bind (fun keep => hrest keep a items) hmemo]
      refine congrArg _ (funext fun keep => ?_)
      rw [(isInquiry_filterM hp items).value?_bind (hadd keep a) hmemo, ih]
      rfl

/-- The run has a value that is truthy. A failure is null, which is not. -/
def holds (x : FallibleRun Value) : Run Bool := do
  return (← orElse .null x).isTruthy

theorem holds_apply (x : FallibleRun Value) (memo : PathMemo) :
    holds x memo = (x.run memo).map fun r => ((r.1.toOption.getD .null).isTruthy, r.2) := by
  rw [holds, bind_apply, orElse_apply]
  cases x.run memo <;> rfl

/-- What gives the value of a second run if that of a first one is truthy, holds if both do. -/
theorem holds_conjunction (x y : FallibleRun Value) :
    holds (do
      let a ← x
      if a.isTruthy then y else return a) = (do
      if ← holds x then holds y else return false) := by
  funext memo
  rw [bind_apply, holds_apply, holds_apply]
  change Option.map _ ((x.run >>= _) memo) = _
  rw [bind_apply]
  cases x.run memo with
  | none => rfl
  | some r =>
      obtain ⟨e | a, memo'⟩ := r
      · rfl
      · simp only [Option.bind_some, Option.map_some, ExceptT.bindCont, Except.toOption,
          Option.getD_some]
        cases ha : a.isTruthy with
        | true => exact (holds_apply y memo').symm
        | false =>
            change some (a.isTruthy, memo') = some (false, memo')
            rw [ha]

/-- A run that cannot fail and what is made of its value. -/
theorem outcome?_infallible {β : Type} (x : Run α) (f : α → β) (memo : PathMemo) :
    outcome? (do return f (← infallible x)) memo = (value? x memo).map fun a => .ok (f a) := by
  rw [outcome?, value?]
  change Option.map Prod.fst (((infallible x) >>= fun a => pure (f a)).run memo) = _
  rw [infallible_bind_apply]
  cases x memo <;> rfl

theorem infallible_bind {β : Type} (x : Run α) (f : α → Run β) :
    infallible (x >>= f) = infallible x >>= fun a => infallible (f a) :=
  ExceptT.ext (by simp [infallible])

end Run

namespace Scope

variable (s : Scope) (depth : Nat)

theorem holds_eq (text : String) (data : Value) :
    (s.nestedAt (depth + 1)).holds (.ofText text) data =
      Run.holds (s.evalPrepared (s.nestedAt depth) (.ofText text) data) := rfl

theorem holds_isInquiry (text : String) (data : Value) :
    Run.IsInquiry ((s.nestedAt depth).holds (.ofText text) data) :=
  (s.nestedAt_isInquiry depth).holds _ ⟨text, rfl⟩ data

/-- A conjunction holds if its first text holds and then its second one does. -/
theorem holds_conjoined (ha : PlainText a) (hb : PlainText b) (data : Value) :
    (s.nestedAt depth).holds (.ofText (conjoined a b)) data = (do
      if ← (s.nestedAt depth).holds (.ofText a) data then
        (s.nestedAt depth).holds (.ofText b) data
      else return false) := by
  cases depth with
  | zero => rfl
  | succ depth =>
      obtain ⟨l, hl⟩ := ha.parses
      obtain ⟨r, hr⟩ := hb.parses
      have hboth := PlainText.parse_conjoined ha hb hl hr
      simp only [holds_eq, ha.evalPrepared_eq hl, hb.evalPrepared_eq hr,
        (ha.conjoined hb).evalPrepared_eq hboth, evalExpr, Run.holds_conjunction]

theorem value?_holds_conjoined (ha : PlainText a) (hb : PlainText b) (data : Value)
    {memo : PathMemo} (hmemo : memo.Sound) :
    Run.value? ((s.nestedAt depth).holds (.ofText (conjoined a b)) data) memo =
      (Run.value? ((s.nestedAt depth).holds (.ofText a) data) memo).bind fun keep =>
        if keep then Run.value? ((s.nestedAt depth).holds (.ofText b) data) memo
        else some false := by
  have hrest (keep : Bool) : Run.IsInquiry
      (if keep then (s.nestedAt depth).holds (.ofText b) data else pure false) := by
    cases keep with
    | true => exact s.holds_isInquiry depth b data
    | false => exact Run.closed_isInquiry.pure false
  rw [s.holds_conjoined depth ha hb, (s.holds_isInquiry depth a data).value?_bind hrest hmemo]
  refine congrArg _ (funext fun keep => ?_)
  cases keep <;> rfl

end Scope

namespace StageFunction

/-- A stage that filters by a text that is given to it. -/
theorem runStage_filter (s : Scope) {nested : Nested} (h : PlainText text) (input data : Value) :
    s.runStage nested (callForm "where" [text]) input data =
      filter.apply nested input (.expression (.ofText text)) := by
  have hread : readStage (callForm filter.name [text]) =
      .ok ⟨filter.name, trimmed (", ".intercalate [text])⟩ :=
    readStage_callForm (by decide) (List.forall_mem_singleton.2 h)
  have hargs : filter.readArgs nested (trimmed text) data =
      pure (.expression (.ofText (trimmed text))) := by
    have hempty : (trimmed text).isEmpty = false := by
      obtain ⟨e, he⟩ := h.parses
      simpa using (Expr.parse_eq_ok.1 he).1
    simp [readArgs, trimmed_trimmed, hempty]
  have hone : ", ".intercalate [text] = text := String.toList_injective (by simp)
  rw [hone] at hread
  have hrun : s.runStage nested (callForm filter.name [text]) input data =
      filter.readArgs nested (trimmed text) data >>= fun args => filter.apply nested input args :=
    s.runStage_stageFunction hread
  rw [hargs, pure_bind, Prepared.ofText_trimmed] at hrun
  exact hrun

theorem filter_filter (nested : Nested) (items : List Value) (p q : Prepared) :
    (filter.apply nested (.array items) (.expression p) >>= fun v =>
      filter.apply nested v (.expression q)) = (do
        return .array (← Run.infallible (items.filterM (nested.holds p) >>= fun kept =>
          kept.filterM (nested.holds q)))) := by
  simp only [apply, keepItems, Run.infallible_bind, bind_assoc, pure_bind]

theorem outcome?_filter (nested : Nested) (items : List Value) (p : Prepared)
    (memo : PathMemo) :
    Run.outcome? (filter.apply nested (.array items) (.expression p)) memo =
      (Run.value? (items.filterM (nested.holds p)) memo).map fun kept => .ok (.array kept) :=
  Run.outcome?_infallible _ _ memo

/-- Done with two texts, one after the other, a run comes to what it comes to done with their
conjunction. No memo that holds nothing false shows. -/
def Fuses (run : String → Value → FallibleRun Value) (a b : String) (input : Value) : Prop :=
  ∀ memo memo' : PathMemo, memo.Sound → memo'.Sound →
    Run.outcome? (run a input >>= run b) memo = Run.outcome? (run (conjoined a b) input) memo'

theorem fuses_apply (s : Scope) (depth : Nat) (ha : PlainText a) (hb : PlainText b)
    (input : Value) :
    Fuses (fun text v => filter.apply (s.nestedAt depth) v (.expression (.ofText text)))
      a b input := by
  intro memo memo' hmemo hmemo'
  cases input with
  | array items =>
      have hfilter (text : String) (items : List Value) :
          (items.filterM ((s.nestedAt depth).holds (.ofText text))).IsInquiry :=
        Run.isInquiry_filterM (s.holds_isInquiry depth text) items
      dsimp only
      rw [filter_filter, outcome?_filter, Run.outcome?_infallible,
        (hfilter a items).value?_bind (hfilter b) hmemo, (hfilter _ items).value?_eq hmemo' hmemo]
      simp only [Run.value?_filterM (s.holds_isInquiry depth _) hmemo, Run.filterM_filterM,
        s.value?_holds_conjoined depth ha hb _ hmemo]
  | _ => rfl

/-- Filters fuse. A list that is filtered by one plain text and then by another comes to what it
comes to filtered by the conjunction of the two: the same elements in the same order, or nothing
if a condition that is looked at goes deeper than it may. It does not matter whether a condition
fails on some elements, as it does where it calls an unknown function: it does not hold of these.
The texts are given to the function, or written in stages, or are values of calls. -/
theorem filters_fuse (s : Scope) (depth : Nat) {a b : String} (ha : PlainText a)
    (hb : PlainText b) (input data : Value) :
    Fuses (fun text v => filter.apply (s.nestedAt depth) v (.expression (.ofText text)))
      a b input ∧
    Fuses (fun text v => s.runStage (s.nestedAt depth) (callForm "where" [text]) v data)
      a b input ∧
    Fuses (fun text v => Function.call (s.nestedAt depth) s.patternBudget "where" [v, .string text])
      a b input := by
  have hfuses := fuses_apply s depth ha hb input
  refine ⟨hfuses, fun memo memo' hmemo hmemo' => ?_, hfuses⟩
  have hstage {text : String} (h : PlainText text) (v : Value) :
      s.runStage (s.nestedAt depth) (callForm "where" [text]) v data =
        filter.apply (s.nestedAt depth) v (.expression (.ofText text)) :=
    runStage_filter s h v data
  have hboth := hfuses memo memo' hmemo hmemo'
  simp only [hstage ha, hstage hb, hstage (ha.conjoined hb)]
  exact hboth

/-- A condition that calls an unknown function on elements that are not to be kept. -/
theorem filters_fuse_of_unknown :
    let s := Scope.mk {} Template.resolve 1
    let kept := Value.object [("keep", .bool true)]
    let gone := Value.object [("keep", .bool true), ("gone", .string "yes")]
    let items := [kept, .object [("keep", .null)], gone, .missing, kept]
    PlainText "keep || nope()" ∧ PlainText "!gone" ∧
    Run.outcome? (s.runStage (s.nestedAt 1) (callForm "where" ["keep || nope()"]) (.array items)
        .null >>= fun v => s.runStage (s.nestedAt 1) (callForm "where" ["!gone"]) v .null)
      (.fresh true) = some (.ok (.array [kept, kept])) := by
  intro s kept gone items
  have hkeepTokens : (Token.tokenize "keep || nope()").toOption =
      some [⟨.identifier, "keep", 0⟩, ⟨.operator, "||", 5⟩, ⟨.identifier, "nope", 8⟩,
        ⟨.leftParen, "(", 12⟩, ⟨.rightParen, ")", 13⟩] := by
    decide +kernel
  have hgoneTokens : (Token.tokenize "!gone").toOption =
      some [⟨.operator, "!", 0⟩, ⟨.identifier, "gone", 1⟩] := by
    decide +kernel
  have hkeepReads : Expr.ReadsExpr 0
      [⟨.identifier, "keep", 0⟩, ⟨.operator, "||", 5⟩, ⟨.identifier, "nope", 8⟩,
        ⟨.leftParen, "(", 12⟩, ⟨.rightParen, ")", 13⟩]
      (.binary (.identifier "keep") .or (.call "nope" [])) [] :=
    .mk (.word rfl (by simp [Expr.CallFollows]))
      (.step rfl (by decide)
        (.mk (.call rfl (by decide) rfl (.none rfl)) (.done (by simp [Expr.StopsAt])))
        (.done (by simp [Expr.StopsAt])))
  have hgoneReads : Expr.ReadsExpr 0 [⟨.operator, "!", 0⟩, ⟨.identifier, "gone", 1⟩]
      (.unary .not (.identifier "gone")) [] :=
    .mk (.not rfl rfl (.word rfl (by simp [Expr.CallFollows]))) (.done (by simp [Expr.StopsAt]))
  have hkeepTrimmed : trimmed "keep || nope()" = "keep || nope()" := by decide +kernel
  have hgoneTrimmed : trimmed "!gone" = "!gone" := by decide +kernel
  have hkeep : PlainText "keep || nope()" :=
    .of_tokens hkeepTrimmed (by decide) hkeepTokens hkeepReads (by decide) (by decide)
      (by simp [Expr.PlainPaths])
  have hgone : PlainText "!gone" :=
    .of_tokens hgoneTrimmed (by decide) hgoneTokens hgoneReads (by decide) (by decide)
      (by simp [Expr.PlainPaths])
  refine ⟨hkeep, hgone, ?_⟩
  have hsound := (PathMemo.holds_fresh true).sound
  obtain ⟨-, hfuses, -⟩ := filters_fuse s 1 hkeep hgone (.array items) .null
  have hboth := PlainText.parse_conjoined hkeep hgone
    (Expr.parse_of_tokens hkeepTrimmed (by decide) hkeepTokens hkeepReads)
    (Expr.parse_of_tokens hgoneTrimmed (by decide) hgoneTokens hgoneReads)
  have hholds (item : Value) := (hkeep.conjoined hgone).evalPrepared_eq hboth s (s.nestedAt 0) item
  refine (hfuses _ _ hsound hsound).trans ?_
  dsimp only
  rw [runStage_filter s (hkeep.conjoined hgone), outcome?_filter]
  simp only [Run.value?_filterM (s.holds_isInquiry 1 _) hsound, s.holds_eq 0, hholds]
  rfl

end StageFunction

end Sluice

import Sluice.Proofs.Grammar
import Sluice.Proofs.StageTexts

/-!
# Where evaluation ends

Texts are evaluated inside of texts on two routes. A stage evaluates texts out of its own
text, which are shorter, so this route ends by itself. A call is handed texts as values, and
these may be anything, even the text that the call stands in. An evaluation has a result if
and only if the texts that calls are handed nest only so deep; how deep those of stages nest
never matters.
-/
namespace Sluice

open Sluice.Pipeline Sluice.Text

/-- No text is evaluated. -/
def Nested.outOfDepth : Nested :=
  ⟨fun _ _ => Run.outOfDepth, fun _ _ => Run.outOfDepth⟩

/-- Evaluates each text as is right for texts of its length. -/
def Nested.ofLength (nested : Nat → Nested) : Nested :=
  ⟨fun p => (nested (p.source.toList.length + 1)).evaluate p,
    fun p => (nested (p.source.toList.length + 1)).holds p⟩

namespace Scope

/-! The evaluators with the two routes apart: `calls` evaluates what a call is handed, and
`stages` what stands in the text of a stage. -/

def initialBy (s : Scope) (calls stages : Nested) (stage : String) (data : Value) : Run Value :=
  if stage = "data" then return data
  else if stage.toList.head? = some '$' then stages.evaluate (.ofText stage) data
  else match castStage? stage with
    | some (b, args) => s.callBuiltin stages b args data data
    | none => Run.orElse .null (s.evalText calls stage data)

def runPipelineBy (s : Scope) (calls stages : Nested) (source : String) (data : Value) :
    Run Value :=
  match (Pipeline.stages source.toList).map String.ofList with
  | [] => return .null
  | first :: rest => do
      s.runStages stages data rest (← s.initialBy calls stages first data)

def evalPreparedBy (s : Scope) (calls stages : Nested) (p : Prepared) (data : Value) :
    FallibleRun Value :=
  match p with
  | .empty => return .null
  | .pipeline source => Run.infallible (s.runPipelineBy calls stages source data)
  | .path text => Run.infallible (Run.follow text data)
  | .parsed _ e => s.evalExpr calls e data
  | .invalid _ e => Run.fail (.parse e)

theorem evalPreparedBy_self (s : Scope) (nested : Nested) (p : Prepared) (data : Value) :
    s.evalPreparedBy nested nested p data = s.evalPrepared nested p data := by
  cases p <;> rfl

/-- The evaluation of texts by that of the texts inside of them. -/
def level (s : Scope) (calls stages : Nested) : Nested :=
  let evaluate (p : Prepared) (data : Value) : Run Value :=
    Run.orElse .null (s.evalPreparedBy calls stages p data)
  ⟨evaluate, fun p data => return (← evaluate p data).isTruthy⟩

theorem level_evaluate (s : Scope) (calls stages : Nested) (p : Prepared) (data : Value) :
    (s.level calls stages).evaluate p data =
      Run.orElse .null (s.evalPreparedBy calls stages p data) := rfl

/-- The evaluation of texts in which so many texts of stages may stand inside of each other.
What a call is handed is evaluated by `calls`. -/
def stagesAt (s : Scope) (calls : Nested) : Nat → Nested
  | 0 => .outOfDepth
  | n + 1 => s.level calls (s.stagesAt calls n)

/-- The evaluation of texts in which so many texts that calls are handed may stand inside of
each other. The texts of stages may nest as deep as the length of the text around them. -/
def callsAt (s : Scope) : Nat → Nested
  | 0 => .outOfDepth
  | k + 1 => .ofLength (s.stagesAt (s.callsAt k))

theorem nestedAt_succ (s : Scope) (depth : Nat) :
    s.nestedAt (depth + 1) = s.level (s.nestedAt depth) (s.nestedAt depth) := by
  simp only [level, evalPreparedBy_self]
  rfl

end Scope

theorem Prepared.shorterThan_source {p : Prepared} (h : p.IsText) :
    p.ShorterThan (p.source.toList.length + 1) := by
  obtain ⟨text, rfl⟩ := h
  exact ⟨text, rfl, by simp [source_ofText]⟩

/-! ## Both routes in families -/

variable {ι : Type} {P : ∀ α : Type, (ι → Run α) → Prop} {calls stages : ι → Nested} {n : Nat}

theorem Serves.zero (nested : ι → Nested) : Serves P nested (Prepared.ShorterThan 0) := by
  constructor
  · rintro p ⟨text, -, hlength⟩
    exact absurd hlength (Nat.not_lt_zero _)
  · rintro p ⟨text, -, hlength⟩
    exact absurd hlength (Nat.not_lt_zero _)

theorem Serves.ofLength {nested : Nat → ι → Nested}
    (h : ∀ n, Serves P (nested n) (Prepared.ShorterThan n)) :
    Serves P (fun i => .ofLength fun n => nested n i) Prepared.IsText :=
  ⟨fun p hp => (h _).evaluate p (Prepared.shorterThan_source hp),
    fun p hp => (h _).holds p (Prepared.shorterThan_source hp)⟩

section

variable (hP : Run.Closed P) (hcalls : Serves P calls Prepared.IsText)
include hP hcalls

theorem Scope.initialBy_closed (s : Scope) {stage : String}
    (hstages : Serves P stages fun q => q = .ofText stage ∨ q.InStage stage) (data : Value) :
    P Value fun i => s.initialBy (calls i) (stages i) stage data := by
  unfold Scope.initialBy
  by_cases hdata : stage = "data"
  · simp only [hdata, if_true]
    exact hP.pure data
  by_cases hpath : stage.toList.head? = some '$'
  · simp only [hdata, hpath, if_false, if_true]
    exact hstages.evaluate _ (.inl rfl) data
  simp only [hdata, hpath, if_false]
  cases hcast : Scope.castStage? stage with
  | none => exact hP.orElse _ (s.evalText_closed hP hcalls stage data)
  | some cast =>
      obtain ⟨name, hread, -⟩ := Scope.readStage_of_castStage? hcast
      have hargs : Serves P stages (Prepared.IsPieceOf cast.2.toList) :=
        hstages.mono fun q hq => .inr ⟨_, hread, hq⟩
      exact s.callBuiltin_closed hP cast.1 data data hargs

theorem Scope.runPipelineBy_closed (s : Scope) {source : String}
    (hstages : Serves P stages (Prepared.pipeline source).Contains) (data : Value) :
    P Value fun i => s.runPipelineBy (calls i) (stages i) source data := by
  have hstage (stage : String)
      (hmem : stage ∈ (Pipeline.stages source.toList).map String.ofList) :
      Serves P stages fun q => q = .ofText stage ∨ q.InStage stage :=
    hstages.mono fun q hq => ⟨source, stage, rfl, hmem, hq⟩
  unfold Scope.runPipelineBy
  cases hlist : (Pipeline.stages source.toList).map String.ofList with
  | nil => exact hP.pure _
  | cons first rest =>
      rw [hlist] at hstage
      refine hP.bind (s.initialBy_closed hP hcalls (hstage first (by simp)) data) fun v => ?_
      refine s.runStages_closed hP data (fun stage hmem => ?_) v
      exact (hstage stage (by simp [hmem])).mono fun q hq => .inr hq

/-- Out of its own text a prepared text evaluates nothing but what it contains. -/
theorem Scope.evalPreparedBy_closed (s : Scope) {p : Prepared}
    (hstages : Serves P stages p.Contains) (data : Value) :
    P (Except Failure Value) fun i => (s.evalPreparedBy (calls i) (stages i) p data).run := by
  cases p with
  | empty => exact hP.ok _
  | pipeline source => exact hP.infallible (s.runPipelineBy_closed hP hcalls hstages data)
  | path text => exact hP.infallible (hP.follow text data)
  | parsed source e => exact s.evalExpr_closed hP hcalls e data
  | invalid source e => exact hP.fail _

/-- A level has the property on texts that contain only texts on which `stages` has it. -/
theorem Scope.level_closed (s : Scope) {allowed inner : Prepared → Prop}
    (hstages : Serves P stages inner) (hinner : ∀ p q, allowed p → p.Contains q → inner q) :
    Serves P (fun i => s.level (calls i) (stages i)) allowed := by
  have hevaluate (p : Prepared) (hp : allowed p) (v : Value) :
      P Value fun i => (s.level (calls i) (stages i)).evaluate p v :=
    hP.orElse _ (s.evalPreparedBy_closed hP hcalls (hstages.mono fun q => hinner p q hp) v)
  exact ⟨hevaluate, fun p hp v => hP.bind (hevaluate p hp v) fun _ => hP.pure _⟩

theorem Scope.level_closed_shorterThan (s : Scope)
    (hstages : Serves P stages (Prepared.ShorterThan n)) :
    Serves P (fun i => s.level (calls i) (stages i)) (Prepared.ShorterThan (n + 1)) :=
  s.level_closed hP hcalls hstages fun _ _ hp hq => hp.of_contains hq

end

/-! Where one evaluation serves both routes. -/

section

variable {nested : ι → Nested} (hP : Run.Closed P) (hnested : Serves P nested Prepared.IsText)
include hP hnested

theorem Scope.evalPrepared_closed (s : Scope) (p : Prepared) (data : Value) :
    P (Except Failure Value) fun i => (s.evalPrepared (nested i) p data).run := by
  have hinner := hnested.mono fun q (hq : p.Contains q) => Prepared.isText_of_contains hq
  simpa only [Scope.evalPreparedBy_self] using s.evalPreparedBy_closed hP hnested hinner data

theorem Scope.level_closed_self (s : Scope) :
    Serves P (fun i => s.level (nested i) (nested i)) Prepared.IsText :=
  s.level_closed hP hnested hnested fun _ _ _ => Prepared.isText_of_contains

theorem Scope.initial_closed (s : Scope) (stage : String) (data : Value) :
    P Value fun i => s.initial (nested i) stage data := by
  refine s.initialBy_closed hP hnested (hnested.mono fun q hq => ?_) data
  rcases hq with hq | hq
  · exact ⟨stage, hq⟩
  · exact hq.isText

theorem Scope.runStages_closed_self (s : Scope) (stages : List String) (v data : Value) :
    P Value fun i => s.runStages (nested i) data stages v :=
  s.runStages_closed hP data (fun _ _ => hnested.mono fun _ hq => hq.isText) v

end

/-! ## Having a result, extending, and being the limit -/

/-- The run has a result, whatever is remembered. -/
def Run.Ends {α : Type} (x : Run α) : Prop :=
  ∀ memo, ∃ r, x memo = some r

/-- The second run has every result of the first. -/
def Run.Extends {α : Type} (x : Bool → Run α) : Prop :=
  ∀ memo r, x false memo = some r → x true memo = some r

/-- A result of the first run is one of all other runs from some place on. -/
def Run.Limit {α : Type} (x : Option Nat → Run α) : Prop :=
  ∀ memo r, x none memo = some r → ∃ d, ∀ d' ≥ d, x (some d') memo = some r

theorem Run.closed_ends : Run.Closed fun _ (x : Unit → Run _) => (x ()).Ends where
  pure a memo := ⟨(a, memo), rfl⟩
  follow text v memo := ⟨memo.follow text v, rfl⟩
  bind hx hf memo := by
    obtain ⟨⟨a, memo'⟩, ha⟩ := hx memo
    obtain ⟨r, hr⟩ := hf a memo'
    exact ⟨r, bind_eq_some.2 ⟨a, memo', ha, hr⟩⟩

theorem Run.closed_extends : Run.Closed fun _ x => Run.Extends x where
  pure a memo r hr := hr
  follow text v memo r hr := hr
  bind hx hf memo r hr := by
    obtain ⟨a, memo', ha, hr⟩ := bind_eq_some.1 hr
    exact bind_eq_some.2 ⟨a, memo', hx memo _ ha, hf a memo' r hr⟩

theorem Run.closed_limit : Run.Closed fun _ x => Run.Limit x where
  pure a memo r hr := ⟨0, fun _ _ => hr⟩
  follow text v memo r hr := ⟨0, fun _ _ => hr⟩
  bind hx hf memo r hr := by
    obtain ⟨a, memo', ha, hr⟩ := bind_eq_some.1 hr
    obtain ⟨d, hd⟩ := hx memo _ ha
    obtain ⟨d₁, hd₁⟩ := hf a memo' r hr
    refine ⟨max d d₁, fun d' hd' => bind_eq_some.2 ⟨a, memo', hd d' ?_, hd₁ d' ?_⟩⟩
    · omega
    · omega

theorem Run.extends_outOfDepth {α : Type} {x : Bool → Run α} (h : x false = Run.outOfDepth) :
    Run.Extends x := by
  intro memo r hr
  rw [h] at hr
  cases hr

theorem Run.limit_outOfDepth {α : Type} {x : Option Nat → Run α} (h : x none = Run.outOfDepth) :
    Run.Limit x := by
  intro memo r hr
  rw [h] at hr
  cases hr

theorem Run.Limit.ofNext {α : Type} {x y : Option Nat → Run α} (h : Run.Limit y)
    (hnone : x none = y none) (hsome : ∀ d, x (some (d + 1)) = y (some d)) : Run.Limit x := by
  intro memo r hr
  rw [hnone] at hr
  obtain ⟨d, hd⟩ := h memo r hr
  refine ⟨d + 1, fun d' hd' => ?_⟩
  obtain ⟨d₁, rfl⟩ : ∃ d₁, d' = d₁ + 1 := ⟨d' - 1, by omega⟩
  rw [hsome]
  exact hd d₁ (by omega)

/-- The texts that calls are handed have results. -/
def Nested.Answers (calls : Nested) : Prop :=
  Serves (fun _ (x : Unit → Run _) => (x ()).Ends) (fun _ => calls) Prepared.IsText

namespace Scope

variable (s : Scope)

/-- The route of the stages ends. -/
theorem stagesAt_ends {calls : Nested} (hcalls : calls.Answers) (n : Nat) :
    Serves (fun _ (x : Unit → Run _) => (x ()).Ends) (fun _ => s.stagesAt calls n)
      (Prepared.ShorterThan n) := by
  induction n with
  | zero => exact Serves.zero _
  | succ n ih => exact s.level_closed_shorterThan Run.closed_ends hcalls ih

/-- What has a result at some depth has it with as many levels of texts that calls are handed,
and the texts of stages nest no deeper than there is room for them. -/
theorem nestedAt_extends (d : Nat) : ∀ k ≥ d,
    Serves (fun _ x => Run.Extends x) (fun b => cond b (s.callsAt k) (s.nestedAt d))
      Prepared.IsText ∧
    ∀ n, Serves (fun _ x => Run.Extends x)
      (fun b => cond b (s.stagesAt (s.callsAt k) n) (s.nestedAt d)) (Prepared.ShorterThan n) := by
  induction d with
  | zero =>
      intro k _
      constructor
      · exact ⟨fun _ _ _ => Run.extends_outOfDepth rfl, fun _ _ _ => Run.extends_outOfDepth rfl⟩
      · intro n
        exact ⟨fun _ _ _ => Run.extends_outOfDepth rfl, fun _ _ _ => Run.extends_outOfDepth rfl⟩
  | succ d ih =>
      have hstages (k : Nat) (hk : d ≤ k) (n : Nat) : Serves (fun _ x => Run.Extends x)
          (fun b => cond b (s.stagesAt (s.callsAt k) n) (s.nestedAt (d + 1)))
          (Prepared.ShorterThan n) := by
        cases n with
        | zero => exact Serves.zero _
        | succ n =>
            have hlevel := s.level_closed_shorterThan Run.closed_extends (ih k hk).1 ((ih k hk).2 n)
            rw [nestedAt_succ]
            convert hlevel using 2 with b
            cases b <;> rfl
      intro k hk
      refine ⟨?_, hstages k (by omega)⟩
      obtain ⟨k, rfl⟩ : ∃ k', k = k' + 1 := ⟨k - 1, by omega⟩
      have hcalls := Serves.ofLength (hstages k (by omega))
      convert hcalls using 2 with b
      cases b <;> rfl

/-- A result with so many levels of texts that calls are handed is one at every depth that is
great enough. -/
theorem callsAt_limit (k : Nat) :
    Serves (fun _ x => Run.Limit x) (fun i => i.elim (s.callsAt k) s.nestedAt)
      Prepared.IsText := by
  induction k with
  | zero => exact ⟨fun _ _ _ => Run.limit_outOfDepth rfl, fun _ _ _ => Run.limit_outOfDepth rfl⟩
  | succ k ih =>
      have hstages (n : Nat) : Serves (fun _ x => Run.Limit x)
          (fun i => i.elim (s.stagesAt (s.callsAt k) n) s.nestedAt) (Prepared.ShorterThan n) := by
        induction n with
        | zero => exact Serves.zero _
        | succ n hstages =>
            have hlevel := s.level_closed_shorterThan Run.closed_limit ih hstages
            have hsucc (d : Nat) := s.nestedAt_succ d
            constructor
            · intro p hp v
              refine (hlevel.evaluate p hp v).ofNext rfl fun d => ?_
              simp only [Option.elim_some, hsucc]
            · intro p hp v
              refine (hlevel.holds p hp v).ofNext rfl fun d => ?_
              simp only [Option.elim_some, hsucc]
      have hcalls := Serves.ofLength hstages
      convert hcalls using 2 with i
      cases i <;> rfl

/-- Evaluation ends but for the texts that calls are handed as values. If these have results,
the text has one, and the texts of its stages nest no deeper than the text is long. And it has
a result at some depth exactly if it has that result with finitely many levels of texts that
calls are handed, whatever the depth of the texts of stages. -/
theorem evaluate_ends_iff (text : String) (data : Value) :
    (∀ calls : Nested, calls.Answers → ∀ n > (trim text.toList).length,
      ((s.stagesAt calls n).evaluate (.ofText text) data).Ends) ∧
    ∀ memo r, (∃ depth, s.evaluate depth text data memo = some r) ↔
      ∃ k, (s.callsAt k).evaluate (.ofText text) data memo = some r := by
  have htext : (Prepared.ofText text).IsText := ⟨text, rfl⟩
  constructor
  · intro calls hcalls n hn
    exact (s.stagesAt_ends hcalls n).evaluate _ ⟨text, rfl, hn⟩ data
  · intro memo r
    constructor
    · rintro ⟨depth, hr⟩
      have hextends := (s.nestedAt_extends (depth + 1) (depth + 1) (Nat.le_refl _)).1
      exact ⟨depth + 1, hextends.evaluate _ htext data memo r hr⟩
    · rintro ⟨k, hr⟩
      obtain ⟨d, hd⟩ := (s.callsAt_limit k).evaluate _ htext data memo r hr
      exact ⟨d, hd (d + 1) (by omega)⟩

/-- A text with a stage in it has a result if all texts that calls are handed have one. -/
theorem evaluate_ends_iff_of_map :
    Nested.Answers ⟨fun _ _ => pure .null, fun _ _ => pure false⟩ ∧
    (((Scope.mk {} Template.resolve 1).stagesAt ⟨fun _ _ => pure .null, fun _ _ => pure false⟩
      13).evaluate (.ofText "$ | map($.x)") .null).Ends := by
  have hanswers : Nested.Answers ⟨fun _ _ => pure .null, fun _ _ => pure false⟩ :=
    ⟨fun _ _ _ memo => ⟨(.null, memo), rfl⟩, fun _ _ _ memo => ⟨(false, memo), rfl⟩⟩
  exact ⟨hanswers, ((Scope.mk {} Template.resolve 1).evaluate_ends_iff "$ | map($.x)" .null).1 _
    hanswers 13 (by decide)⟩

end Scope

/-! ## A text that is handed itself -/

/-- For each item of a list, evaluates a text; both are parameters. -/
def selfCall : String :=
  "map(\x7b\x7bparam:xs\x7d\x7d, \x7b\x7bparam:e\x7d\x7d)"

/-- Parameters with the text itself as the one to evaluate. -/
def selfBindings : Bindings :=
  { parameters := [("xs", .array [.number 1]), ("e", .string selfCall)] }

open Sluice.Expr Sluice.Token in
theorem Prepared.ofText_selfCall : ofText selfCall = .parsed selfCall
    (.call "map" [.template "\x7b\x7bparam:xs\x7d\x7d", .template "\x7b\x7bparam:e\x7d\x7d"]) := by
  have htrimmed : trimmed selfCall = selfCall := by decide +kernel
  have htokens : (tokenize selfCall).toOption =
      some [⟨.identifier, "map", 0⟩, ⟨.leftParen, "(", 3⟩,
        ⟨.bareTemplate, "\x7b\x7bparam:xs\x7d\x7d", 4⟩, ⟨.comma, ",", 16⟩,
        ⟨.bareTemplate, "\x7b\x7bparam:e\x7d\x7d", 18⟩, ⟨.rightParen, ")", 29⟩] := by
    decide +kernel
  have harg {t next : Token} {rest : List Token} (ht : t.kind = .bareTemplate)
      (hnext : binaryOperator? next = none) :
      ReadsExpr 0 (t :: next :: rest) (.template t.text) (next :: rest) :=
    .mk (.atom (by simp [atom?, ht])) (.done (by simp [StopsAt, hnext]))
  refine ofText_of_parse htrimmed (by decide) (by decide +kernel) (by decide +kernel) ?_
  refine parse_of_tokens htrimmed (by decide) htokens ?_
  exact .mk (.call rfl rfl rfl (.some (.more (harg rfl rfl) rfl (.last (harg rfl rfl) rfl))))
    (.done (by simp [StopsAt]))

/-- At every depth the text asks for itself one level down. -/
theorem Scope.nestedAt_selfCall (budget depth : Nat) (data : Value) (memo : PathMemo) :
    ((Scope.mk selfBindings Template.resolve budget).nestedAt depth).evaluate (.ofText selfCall)
      data memo = none := by
  induction depth generalizing data memo with
  | zero => rfl
  | succ depth ih =>
      have hlist : Template.value Template.resolve selfBindings
          "\x7b\x7bparam:xs\x7d\x7d" = .array [.number 1] := rfl
      have htext : Template.value Template.resolve selfBindings
          "\x7b\x7bparam:e\x7d\x7d" = .string selfCall := rfl
      have hmap : Builtin.ofName? "map" = none ∧ StageFunction.ofName? "map" = some .map := by
        decide
      have hitems (nested : Nested)
          (h : ∀ data memo, nested.evaluate (.ofText selfCall) data memo = none) :
          (StageFunction.map.apply nested (.array [.number 1])
            (.expression (.ofText selfCall))).run memo = none :=
        Run.bind_eq_none (Run.infallible_eq_none (Run.bind_eq_none (h _ _)))
      rw [Prepared.ofText_selfCall]
      refine Run.bind_eq_none ?_
      simp only [evalPrepared, evalExpr, evalArgs, hlist, htext, pure_bind, Function.call, hmap]
      exact hitems _ ih

/-- Not every evaluation ends. -/
theorem Scope.not_forall_evaluate_ends :
    ¬ ∀ (b : Bindings) (budget : Nat) (text : String) (data : Value) (memo : PathMemo),
      ∃ depth r, (Scope.mk b Template.resolve budget).evaluate depth text data memo = some r := by
  intro h
  obtain ⟨depth, r, hr⟩ := h selfBindings 1 selfCall .null (.fresh true)
  have hnone := nestedAt_selfCall 1 (depth + 1) .null (.fresh true)
  exact Option.some_ne_none r (hr.symm.trans hnone)

end Sluice

import Mathlib.Data.Finset.Card
import Mathlib.Data.Finset.Dedup
import Sluice.Engine.Session
import Sluice.Proofs.Termination

/-!
# Remembered paths

An evaluation does nothing to the memo but look paths up: it follows a path text from a value
and goes on with what this leads to, until it has a result. With a memo that holds nothing
false the result is the one without a memo, and afterwards the memo holds those of the texts
that are paths. So the memo of an engine shows in nothing but its size.
-/
namespace Sluice

open Sluice.Text

/-- A computation that follows path texts, each from a value, until it has a result. -/
inductive Inquiry (α : Type) where
  | done (a : α)
  | outOfDepth
  | follow (text : String) (v : Value) (next : Value → Inquiry α)

namespace Inquiry

variable {α β : Type}

/-- The inquiry with a memo. -/
def run : Inquiry α → Run α
  | done a => pure a
  | outOfDepth => Run.outOfDepth
  | follow text v next => Run.follow text v >>= fun w => (next w).run

/-- The result of the inquiry without a memo. -/
def result? : Inquiry α → Option α
  | done a => some a
  | outOfDepth => none
  | follow text v next => (next (v.follow text)).result?

/-- The path texts that the inquiry follows, in order. -/
def asked : Inquiry α → List String
  | follow text v next => text :: (next (v.follow text)).asked
  | _ => []

/-- One inquiry after another. -/
def bind : Inquiry α → (α → Inquiry β) → Inquiry β
  | done a, f => f a
  | outOfDepth, _ => outOfDepth
  | follow text v next, f => follow text v fun w => (next w).bind f

theorem run_bind (t : Inquiry α) (f : α → Inquiry β) :
    (t.bind f).run = t.run >>= fun a => (f a).run := by
  induction t with
  | done a => rfl
  | outOfDepth => rfl
  | follow text v next ih => simp only [bind, run, ih, bind_assoc]

end Inquiry

/-- The run is an inquiry. -/
def Run.IsInquiry {α : Type} (x : Run α) : Prop :=
  ∃ t : Inquiry α, x = t.run

theorem Run.closed_isInquiry : Run.Closed fun _ (x : Unit → Run _) => (x ()).IsInquiry where
  pure a := ⟨.done a, rfl⟩
  follow text v := ⟨.follow text v .done, (bind_pure _).symm⟩
  bind {α β x f} hx hf := by
    obtain ⟨t, ht⟩ := hx
    choose u hu using hf
    refine ⟨t.bind u, ?_⟩
    calc x () >>= f () = t.run >>= f () := by rw [ht]
      _ = t.run >>= fun a => (u a).run := congrArg (t.run >>= ·) (funext hu)
      _ = (t.bind u).run := (t.run_bind u).symm

namespace Scope

/-- Whatever is evaluated, nothing happens to the memo but that paths are looked up. -/
theorem nestedAt_isInquiry (s : Scope) (depth : Nat) :
    Serves (fun _ (x : Unit → Run _) => (x ()).IsInquiry) (fun _ => s.nestedAt depth)
      Prepared.IsText := by
  induction depth with
  | zero => exact ⟨fun _ _ _ => ⟨.outOfDepth, rfl⟩, fun _ _ _ => ⟨.outOfDepth, rfl⟩⟩
  | succ depth ih =>
      rw [nestedAt_succ]
      exact s.level_closed_self Run.closed_isInquiry ih

theorem tryEvaluate_isInquiry (s : Scope) (depth : Nat) (text : String) (data : Value) :
    Run.IsInquiry (s.tryEvaluate depth text data).run :=
  s.evalPrepared_closed Run.closed_isInquiry (s.nestedAt_isInquiry depth) (.ofText text) data

end Scope

namespace PathMemo

variable {m : PathMemo} {asked : List String} {text : String}

/-- The memo after the texts have been asked for. -/
def learn (m : PathMemo) (texts : List String) : PathMemo :=
  texts.foldl (fun m text => (m.path text).2) m

/-- The memo holds exactly those of the texts asked for that are paths, each once and as what
it would be read as. -/
structure Holds (m : PathMemo) (asked : List String) : Prop where
  sound : m.Sound
  nodup : m.entries.keys.Nodup
  mem_keys : ∀ text, text ∈ m.entries.keys ↔
    m.enabled = true ∧ text ∈ asked ∧ (Path.ofText text).isOk = true

theorem holds_fresh (enabled : Bool) : (fresh enabled).Holds [] where
  sound := by simp [Sound, fresh]
  nodup := by simp [fresh]
  mem_keys := by simp [fresh]

theorem Holds.clear (m : PathMemo) : m.clear.Holds [] where
  sound := by simp [Sound, PathMemo.clear]
  nodup := by simp [PathMemo.clear]
  mem_keys := by simp [PathMemo.clear]

@[simp] theorem enabled_path (m : PathMemo) (text : String) :
    (m.path text).2.enabled = m.enabled := by
  unfold path
  split
  · split
    · rfl
    · split <;> rfl
  · rfl

@[simp] theorem enabled_learn (m : PathMemo) (texts : List String) :
    (m.learn texts).enabled = m.enabled := by
  induction texts generalizing m with
  | nil => rfl
  | cons text texts ih => simpa [learn] using ih (m.path text).2

theorem Sound.path_eq (h : m.Sound) (text : String) : (m.path text).1 = Path.ofText text := by
  unfold path
  split
  · split
    · next p hp => exact (h text p (Keyed.mem_of_get? hp)).symm
    · split
      · next p hp => exact hp.symm
      · next e he => exact he.symm
  · rfl

theorem Sound.insert {p : Path} (h : m.Sound) (hp : Path.ofText text = .ok p) :
    Sound { m with entries := m.entries.insert text p } := by
  intro t q hq
  rcases Keyed.mem_of_mem_insert hq with he | hq
  · cases he
    exact hp
  · exact h t q hq

theorem Sound.path (h : m.Sound) (text : String) : (m.path text).2.Sound := by
  unfold PathMemo.path
  split
  · split
    · exact h
    · split
      · next p hp => exact h.insert hp
      · exact h
  · exact h

theorem Sound.learn {texts : List String} (h : m.Sound) : (m.learn texts).Sound := by
  induction texts generalizing m with
  | nil => exact h
  | cons text texts ih => exact ih (h.path text)

/-- Asking a memo for one more text. -/
theorem Holds.path (h : m.Holds asked) (text : String) :
    (m.path text).2.Holds (asked ++ [text]) := by
  have hkeys := h.mem_keys text
  unfold PathMemo.path
  split
  · next henabled =>
      split
      · next p hp =>
          have hmem : text ∈ m.entries.keys := by
            by_contra hnot
            rw [Keyed.get?_eq_none_iff.2 hnot] at hp
            cases hp
          refine ⟨h.sound, h.nodup, fun t => ?_⟩
          by_cases ht : t = text
          · simpa [ht, henabled, hmem] using (hkeys.1 hmem).2.2
          · simpa [ht] using h.mem_keys t
      · next hnone =>
          have hnot := Keyed.get?_eq_none_iff.1 hnone
          split
          · next p hp =>
              refine ⟨h.sound.insert hp, Keyed.nodup_keys_insert _ _ _ h.nodup, fun t => ?_⟩
              rw [Keyed.keys_insert, if_neg hnot]
              by_cases ht : t = text
              · simp [ht, henabled, hp, Except.isOk, Except.toBool]
              · simpa [ht] using h.mem_keys t
          · next e he =>
              refine ⟨h.sound, h.nodup, fun t => ?_⟩
              by_cases ht : t = text
              · simp [ht, hnot, he, Except.isOk, Except.toBool]
              · simpa [ht] using h.mem_keys t
  · next hdisabled =>
      refine ⟨h.sound, h.nodup, fun t => ?_⟩
      simpa [hdisabled] using h.mem_keys t

theorem Holds.learn {texts : List String} (h : m.Holds asked) :
    (m.learn texts).Holds (asked ++ texts) := by
  induction texts generalizing m asked with
  | nil => simpa [PathMemo.learn] using h
  | cons text texts ih => simpa [PathMemo.learn] using ih (h.path text)

/-- Those of the texts that are paths, each once. -/
def pathsAmong (texts : List String) : Finset String :=
  (texts.filter fun text => (Path.ofText text).isOk).toFinset

theorem Holds.size_eq (h : m.Holds asked) :
    m.size = if m.enabled then (pathsAmong asked).card else 0 := by
  have hsize : m.size = m.entries.keys.toFinset.card := by
    rw [List.toFinset_card_of_nodup h.nodup]
    simp [size, Keyed.keys]
  rw [hsize]
  split
  · next henabled =>
      congr 1
      ext text
      simp [pathsAmong, h.mem_keys, henabled]
  · next hdisabled =>
      rw [Finset.card_eq_zero, List.toFinset_eq_empty_iff, List.eq_nil_iff_forall_not_mem]
      intro text
      simp [h.mem_keys, hdisabled]

theorem Sound.follow_eq (h : m.Sound) (text : String) (v : Value) :
    m.follow text v = (v.follow text, (m.path text).2) := by
  have hpath := h.path_eq text
  unfold PathMemo.follow Value.follow
  split
  · next p m' he =>
      rw [he] at hpath ⊢
      simp [← hpath]
  · next e m' he =>
      rw [he] at hpath ⊢
      simp [← hpath]

end PathMemo

/-- With a memo that holds nothing false an inquiry has the result that it has without, and the
memo learns what was asked for. -/
theorem Inquiry.run_eq {α : Type} {m : PathMemo} (t : Inquiry α) (h : m.Sound) :
    t.run m = t.result?.map fun a => (a, m.learn t.asked) := by
  induction t generalizing m with
  | done a => rfl
  | outOfDepth => rfl
  | follow text v next ih =>
      have hfollow : (Inquiry.follow text v next).run m =
          (next (v.follow text)).run (m.path text).2 := by
        rw [run, Run.bind_apply, Run.follow, h.follow_eq]
        rfl
      rw [hfollow, ih _ (h.path text)]
      rfl

/-- The text that a request has evaluated, and against which data. -/
def Request.subject? : Request → Option (String × Value)
  | .evaluate text data => some (text, data)
  | .evaluateJson text data => some (text, .ofJson data)
  | .holds text data => some (text, data)
  | .tryEvaluate text data => some (text, data)
  | _ => none

/-- The answer to a request whose text has been evaluated with this outcome. -/
def Request.answered : Request → Except Failure Value → Answer
  | .evaluate .., outcome => .value (outcome.toOption.getD .null)
  | .evaluateJson .., outcome => .document (outcome.toOption.getD .null).toJson
  | .holds .., outcome => .condition (outcome.toOption.getD .null).isTruthy
  | .tryEvaluate .., outcome => .outcome (outcome.mapError .evaluation)
  | _, _ => .done

theorem Run.orElse_apply {α : Type} (default : α) (x : FallibleRun α) (memo : PathMemo) :
    Run.orElse default x memo =
      (x.run memo).map fun r => (r.1.toOption.getD default, r.2) := by
  rw [Run.orElse, Run.bind_apply]
  cases x.run memo with
  | none => rfl
  | some r =>
      obtain ⟨outcome, memo'⟩ := r
      cases outcome <;> rfl

namespace Engine

variable {e e' start : Engine} {r : Request} {text : String} {data : Value}

/-- What the engine makes of a text: a value or a failure. -/
def outcome (e : Engine) (text : String) (data : Value) : Run (Except Failure Value) :=
  (e.scope.tryEvaluate e.depth text data).run

theorem evaluate_eq (e : Engine) (text : String) (data : Value) :
    e.evaluate text data =
      (e.run (e.outcome text data)).map fun x => (x.1.toOption.getD .null, x.2) := by
  simp only [evaluate, run, Scope.evaluate, Run.orElse_apply, Option.map_map]
  rfl

theorem answer_of_subject? (h : r.subject? = some (text, data)) :
    e.answer r = (e.run (e.outcome text data)).map fun x => (r.answered x.1, x.2) := by
  cases r <;> cases h
  · simp only [answer, evaluate_eq, Option.map_map]
    rfl
  · simp only [answer, evaluateJson, evaluate_eq, Option.map_map]
    rfl
  · simp only [answer, holds, evaluate_eq, Option.map_map]
    rfl
  · simp only [answer, tryEvaluate, Option.map_map]
    rfl

/-- The path texts that a request follows, in order. -/
def Asks (e : Engine) (r : Request) (texts : List String) : Prop :=
  match r.subject? with
  | some (text, data) =>
      ∃ t : Inquiry (Except Failure Value), e.outcome text data = t.run ∧ t.asked = texts
  | none => texts = []

/-- The path texts followed since the paths were forgotten, after one more request. -/
def askedAfter (asked : List String) (r : Request) (texts : List String) : List String :=
  match r with
  | .clearPaths => []
  | _ => asked ++ texts

/-- The engine is reached by requests that have been answered, and these path texts have been
followed since the paths were last forgotten. -/
inductive Reaches (start : Engine) : List String → Engine → Prop where
  | start : Reaches start [] start
  | answer {asked texts : List String} {e e' : Engine} {r : Request} {a : Answer}
      (before : Reaches start asked e) (h : e.answer r = some (a, e')) (htexts : e.Asks r texts) :
      Reaches start (askedAfter asked r texts) e'

/-- What the requests of a session leave as it is, and what the memo holds. -/
structure Continues (start : Engine) (asked : List String) (e : Engine) : Prop where
  config : e.config = start.config
  resolver : e.resolver = start.resolver
  depth : e.depth = start.depth
  enabled : e.memo.enabled = start.memo.enabled
  holds : e.memo.Holds asked

theorem exists_asks (e : Engine) (r : Request) : ∃ texts, e.Asks r texts := by
  unfold Asks
  split
  · next text data _ =>
      obtain ⟨t, ht⟩ := e.scope.tryEvaluate_isInquiry e.depth text data
      exact ⟨t.asked, t, ht, rfl⟩
  · exact ⟨[], rfl⟩

/-- A request that has a text evaluated, on an engine that has been asked for some texts. -/
theorem answer_eq {asked : List String} {t : Inquiry (Except Failure Value)}
    (h : e.memo.Holds asked) (hsubject : r.subject? = some (text, data))
    (ht : e.outcome text data = t.run) :
    e.answer r = t.result?.map fun o =>
      (r.answered o, { e with memo := e.memo.learn t.asked }) := by
  rw [answer_of_subject? hsubject, run, ht, t.run_eq h.sound, Option.map_map, Option.map_map]
  rfl

/-- Engines that differ in what they remember give the same answers. -/
theorem answer_fst_congr {asked asked' : List String} (hscope : e.scope = e'.scope)
    (hdepth : e.depth = e'.depth) (hbindings : e.bindings = e'.bindings)
    (h : e.memo.Holds asked) (h' : e'.memo.Holds asked') :
    (e.answer r).map Prod.fst = (e'.answer r).map Prod.fst := by
  cases hsubject : r.subject? with
  | some subject =>
      obtain ⟨text, data⟩ := subject
      obtain ⟨t, ht⟩ := e.scope.tryEvaluate_isInquiry e.depth text data
      have ht' : e'.outcome text data = t.run := by rw [outcome, ← hscope, ← hdepth, ht]
      rw [answer_eq h hsubject ht, answer_eq h' hsubject ht', Option.map_map, Option.map_map]
      rfl
  | none =>
      cases r with
      | setBindings b => rfl
      | mergeBindings b => simp [answer, mergeBindings, hbindings]
      | clearPaths => rfl
      | _ => cases hsubject

/-- One request: the engine is the same but for its bindings and its memo, and the memo has
learnt what was asked for. -/
theorem Continues.answer {asked texts : List String} {a : Answer} (h : Continues start asked e)
    (hanswer : e.answer r = some (a, e')) (htexts : e.Asks r texts) :
    Continues start (askedAfter asked r texts) e' := by
  cases hsubject : r.subject? with
  | some subject =>
      obtain ⟨text, data⟩ := subject
      have hafter : askedAfter asked r texts = asked ++ texts := by
        cases r <;> first | rfl | cases hsubject
      simp only [Asks, hsubject] at htexts
      obtain ⟨t, ht, rfl⟩ := htexts
      rw [answer_eq h.holds hsubject ht] at hanswer
      obtain ⟨o, -, he⟩ := Option.map_eq_some_iff.1 hanswer
      cases he
      rw [hafter]
      exact ⟨h.config, h.resolver, h.depth, by simpa using h.enabled, h.holds.learn⟩
  | none =>
      simp only [Asks, hsubject] at htexts
      subst htexts
      have hholds : e.memo.Holds (asked ++ []) := by simpa using h.holds
      cases r with
      | setBindings b =>
          cases hanswer
          exact ⟨h.config, h.resolver, h.depth, h.enabled, hholds⟩
      | mergeBindings b =>
          cases hanswer
          exact ⟨h.config, h.resolver, h.depth, h.enabled, hholds⟩
      | clearPaths =>
          cases hanswer
          exact ⟨h.config, h.resolver, h.depth, h.enabled, .clear _⟩
      | _ => cases hsubject

theorem Reaches.continues {asked : List String} (h : Reaches start asked e)
    (hstart : start.memo.Holds []) : Continues start asked e := by
  induction h with
  | start => exact ⟨rfl, rfl, rfl, rfl, hstart⟩
  | answer _ hanswer htexts ih => exact ih.answer hanswer htexts

theorem reaches_of_answerAll {asked : List String} {requests : List Request}
    {answers : List (Answer × Engine)} (hreach : Reaches start asked e)
    (h : e.answerAll requests = some answers) :
    ∀ x ∈ answers, ∃ asked, Reaches start asked x.2 := by
  induction requests generalizing e asked answers with
  | nil =>
      cases h
      simp
  | cons r requests ih =>
      simp only [answerAll] at h
      split at h
      · cases h
      · next a e' hanswer =>
          obtain ⟨rest, hrest, rfl⟩ := Option.map_eq_some_iff.1 h
          obtain ⟨texts, htexts⟩ := e.exists_asks r
          have hnext := hreach.answer hanswer htexts
          exact List.forall_mem_cons.2 ⟨⟨_, hnext⟩, ih hnext hrest⟩

/-- An engine built the same way but with these bindings, and without a memo. -/
theorem build_without_memo {config : Config} {b : Bindings} {resolver : Resolver} {depth : Nat}
    (b' : Bindings) (h : build config b resolver depth = .ok start) :
    start = ⟨config, b, resolver, .fresh config.rememberPaths, depth⟩ ∧
      build { config with rememberPaths := false } b' resolver depth =
        .ok ⟨{ config with rememberPaths := false }, b', resolver, .fresh false, depth⟩ := by
  unfold build at h ⊢
  split at h
  · next hvalid =>
      cases h
      have hplain : ({ config with rememberPaths := false } : Config).validate = .ok () := hvalid
      rw [hplain]
      exact ⟨rfl, rfl⟩
  · cases h

/-- The memo of an engine shows in nothing but its size. Whatever requests an engine has
answered, what it remembers are paths as they would be read; it remembers as many as there are
distinct ones among the texts that were followed since the paths were last forgotten, and none
if it has no memo; and it answers every request as a fresh engine without a memo does that has
the same bindings. All engines along a session are reached like this. -/
theorem answer_without_memo {config : Config} {b : Bindings} {resolver : Resolver} {depth : Nat}
    {start : Engine} (hbuild : build config b resolver depth = .ok start) :
    (∀ asked e, Reaches start asked e →
      e.memo.Sound ∧
      (∀ text ∈ e.memo.entries.keys, (Path.ofText text).isOk = true) ∧
      e.pathCount = (if config.rememberPaths then (PathMemo.pathsAmong asked).card else 0) ∧
      ∀ r, ∃ plain,
        build { config with rememberPaths := false } e.bindings resolver depth = .ok plain ∧
        (e.answer r).map Prod.fst = (plain.answer r).map Prod.fst) ∧
    ∀ requests answers, start.answerAll requests = some answers →
      ∀ x ∈ answers, ∃ asked, Reaches start asked x.2 := by
  constructor
  · intro asked e hreach
    obtain ⟨rfl, hplain⟩ := build_without_memo e.bindings hbuild
    have h := hreach.continues (PathMemo.holds_fresh _)
    refine ⟨h.holds.sound, fun text htext => ((h.holds.mem_keys text).1 htext).2.2, ?_, ?_⟩
    · rw [pathCount, h.holds.size_eq, h.enabled]
      rfl
    · intro r
      refine ⟨_, hplain, answer_fst_congr ?_ h.depth rfl h.holds (PathMemo.holds_fresh false)⟩
      rw [scope, h.config, h.resolver]
      rfl
  · intro requests answers h
    exact reaches_of_answerAll .start h

/-- An engine that has been asked for the same path twice remembers it once. -/
theorem answer_without_memo_of_repeats :
    ∃ start e : Engine,
      build {} {} Template.resolve 0 = .ok start ∧
      Reaches start ["$.a", "$.a"] e ∧
      e.pathCount = 1 ∧
      ∃ plain,
        build { rememberPaths := false } e.bindings Template.resolve 0 = .ok plain ∧
        (e.answer (.evaluate "$.a" .null)).map Prod.fst =
          (plain.answer (.evaluate "$.a" .null)).map Prod.fst := by
  have htrimmed : trimmed "$.a" = "$.a" := by decide +kernel
  have hempty : ("$.a" : String).isEmpty = false := by decide
  have hpipe : Prepared.isPipeline "$.a" = false := by decide +kernel
  have hpath : Prepared.isPath "$.a" = true := by decide +kernel
  have hread : (Path.ofText "$.a").isOk = true := by decide +kernel
  have hprepared : Prepared.ofText "$.a" = .path "$.a" := by
    simp [Prepared.ofText, htrimmed, hempty, hpipe, hpath]
  have houtcome (e : Engine) : e.outcome "$.a" .null =
      (Inquiry.follow "$.a" .null fun v => .done (.ok v)).run := by
    rw [outcome, Scope.tryEvaluate, hprepared]
    rfl
  have hasks (e : Engine) : e.Asks (.evaluate "$.a" .null) ["$.a"] :=
    ⟨_, houtcome e, rfl⟩
  have hbuild : build {} {} Template.resolve 0 =
      .ok ⟨{}, {}, Template.resolve, .fresh true, 0⟩ := rfl
  have hanswer {e : Engine} {asked : List String} (h : e.memo.Holds asked) :
      ∃ a e', e.answer (.evaluate "$.a" .null) = some (a, e') :=
    ⟨_, _, answer_eq h rfl (houtcome e)⟩
  obtain ⟨a₁, e₁, h₁⟩ := hanswer (e := ⟨{}, {}, Template.resolve, .fresh true, 0⟩)
    (PathMemo.holds_fresh true)
  have hreach₁ := Reaches.start.answer h₁ (hasks _)
  obtain ⟨a₂, e₂, h₂⟩ := hanswer (hreach₁.continues (PathMemo.holds_fresh true)).holds
  have hreach₂ := hreach₁.answer h₂ (hasks _)
  obtain ⟨-, -, hcount, hplain⟩ := (answer_without_memo hbuild).1 _ _ hreach₂
  refine ⟨_, e₂, hbuild, hreach₂, ?_, ?_⟩
  · rw [hcount]
    simp [askedAfter, PathMemo.pathsAmong, hread]
  · exact hplain _

end Engine

end Sluice

import Sluice.Proofs.Remembering
import Sluice.Proofs.Tables

/-!
# The last bindings of a name

Merging is associative, and empty bindings change nothing. After any session every name is bound
to what the last bindings to mention it say, of those that were set last and those merged since; a
name that none of them mentions is not bound. Evaluations do not show.

The five tables hold things of two types. What is the same for all of them is said of a table that
is named.
-/
namespace Sluice

/-! ## Tables written one after another -/

namespace Keyed

variable {α : Type} {written : List (Keyed α)} {t u : Keyed α}

/-- The table is what these tables come to, written one after another: their names, each once and
in the order in which they first come, and under each what the last table that mentions it has. -/
structure LastWrites (written : List (Keyed α)) (t : Keyed α) : Prop where
  nodup : t.keys.Nodup
  keys_eq : t.keys = (written.flatMap keys).eraseDups
  get?_eq : ∀ name, t.get? name = written.reverse.findSome? fun u => u.get? name

theorem LastWrites.single (h : t.keys.Nodup) : LastWrites [t] t where
  nodup := h
  keys_eq := by
    have hwritten : ofList t = t := ofList_eq_self h
    rw [List.flatMap_singleton, ← keys_ofList, hwritten]
  get?_eq name := by simp

theorem LastWrites.extend (h : LastWrites written t) (hu : u.keys.Nodup) :
    LastWrites (written ++ [u]) (t.extend u) where
  nodup := nodup_keys_extend u t h.nodup
  keys_eq := by
    have hone : ofList t = t := ofList_eq_self h.nodup
    rw [keys_extend h.nodup, List.flatMap_append, List.flatMap_singleton, List.eraseDups_append,
      List.eraseDups_append, ← keys_ofList, hone, h.keys_eq]
    simp [List.removeAll]
  get?_eq name := by
    rw [get?_extend t hu, List.reverse_append, List.reverse_singleton, List.singleton_append,
      List.findSome?_cons, h.get?_eq]
    cases u.get? name <;> rfl

end Keyed

/-! ## Bindings -/

namespace Bindings

variable {a b c : Bindings} {written : List Bindings}

/-- The five tables of bindings. -/
inductive Space where
  | responses | transformed | parameters | environment | functions
  deriving DecidableEq, Repr

/-- What the names in a table are bound to. -/
def Space.Bound : Space → Type
  | functions => List Value → Value
  | _ => Value

def table (b : Bindings) : (space : Space) → Keyed space.Bound
  | .responses => b.responses
  | .transformed => b.transformed
  | .parameters => b.parameters
  | .environment => b.environment
  | .functions => b.functions

theorem eq_of_table_eq (h : ∀ space, a.table space = b.table space) : a = b := by
  cases a
  cases b
  congr 1
  · exact h .responses
  · exact h .transformed
  · exact h .parameters
  · exact h .environment
  · exact h .functions

@[simp] theorem table_merge (b c : Bindings) (space : Space) :
    (b.merge c).table space = (b.table space).extend (c.table space) := by
  cases space <;> rfl

@[simp] theorem table_empty (space : Space) : empty.table space = [] := by
  cases space <;> rfl

/-- No table has a name twice. -/
def WellNamed (b : Bindings) : Prop :=
  ∀ space, (b.table space).keys.Nodup

theorem wellNamed_iff : b.WellNamed ↔ b.responses.keys.Nodup ∧ b.transformed.keys.Nodup ∧
    b.parameters.keys.Nodup ∧ b.environment.keys.Nodup ∧ b.functions.keys.Nodup := by
  constructor
  · intro h
    exact ⟨h .responses, h .transformed, h .parameters, h .environment, h .functions⟩
  · rintro ⟨hresponses, htransformed, hparameters, henvironment, hfunctions⟩ space
    cases space <;> assumption

theorem merge_assoc (a : Bindings) (hb : b.WellNamed) (c : Bindings) :
    (a.merge b).merge c = a.merge (b.merge c) :=
  eq_of_table_eq fun space => by
    simp only [table_merge]
    exact (Keyed.extend_extend _ (hb space) _).symm

theorem merge_empty (a : Bindings) : a.merge empty = a :=
  eq_of_table_eq fun space => by
    rw [table_merge, table_empty]
    rfl

theorem empty_merge (ha : a.WellNamed) : empty.merge a = a :=
  eq_of_table_eq fun space => by
    rw [table_merge, table_empty]
    exact Keyed.ofList_eq_self (ha space)

/-- In every table, the bindings are what these come to, written one after another. -/
def LastWrites (written : List Bindings) (b : Bindings) : Prop :=
  ∀ space, Keyed.LastWrites (written.map (·.table space)) (b.table space)

theorem LastWrites.single (h : b.WellNamed) : LastWrites [b] b :=
  fun space => .single (h space)

theorem LastWrites.merge (h : LastWrites written b) (hc : c.WellNamed) :
    LastWrites (written ++ [c]) (b.merge c) := by
  intro space
  rw [List.map_append, table_merge]
  exact (h space).extend (hc space)

end Bindings

/-! ## Requests -/

namespace Request

variable {requests rest : List Request} {written : List Bindings}

/-- The bindings that a request brings. -/
def bindings? : Request → Option Bindings
  | .setBindings b | .mergeBindings b => some b
  | _ => none

/-- The bindings that a request merges into those of the engine. -/
def merged? : Request → Option Bindings
  | .mergeBindings b => some b
  | _ => none

/-- The request replaces the bindings of the engine. -/
def isReplacing : Request → Bool
  | .setBindings _ => true
  | _ => false

/-- The bindings that count after a request, if these did before. -/
def inForce (written : List Bindings) : Request → List Bindings
  | .setBindings b => [b]
  | .mergeBindings b => written ++ [b]
  | _ => written

theorem foldl_inForce (h : ∀ r ∈ requests, r.isReplacing = false) :
    requests.foldl inForce written = written ++ requests.filterMap merged? := by
  induction requests generalizing written with
  | nil => simp
  | cons r requests ih =>
      obtain ⟨hr, hrequests⟩ := List.forall_mem_cons.1 h
      rw [List.foldl_cons, ih hrequests]
      cases r with
      | setBindings b => cases hr
      | mergeBindings b => simp [inForce, merged?]
      | _ => rfl

/-- What was in force before bindings were replaced no longer counts. -/
theorem foldl_inForce_replaced (before : List Request) (b : Bindings)
    (h : ∀ r ∈ rest, r.isReplacing = false) :
    (before ++ .setBindings b :: rest).foldl inForce written = b :: rest.filterMap merged? := by
  rw [List.foldl_append, List.foldl_cons, foldl_inForce h]
  rfl

end Request

namespace Engine

variable {e e' : Engine} {r : Request} {a : Answer} {requests : List Request}
  {answers : List (Answer × Engine)} {written : List Bindings}

/-- The engine that a session leaves. -/
def after (e : Engine) (answers : List (Answer × Engine)) : Engine :=
  (answers.map Prod.snd).getLastD e

/-- Evaluations, and forgetting paths, leave the bindings as they are. -/
theorem bindings_of_answer (hr : r.bindings? = none) (h : e.answer r = some (a, e')) :
    e'.bindings = e.bindings := by
  cases hsubject : r.subject? with
  | some subject =>
      rw [answer_of_subject? hsubject, run, Option.map_map] at h
      obtain ⟨o, -, he⟩ := Option.map_eq_some_iff.1 h
      cases he
      rfl
  | none =>
      cases r with
      | clearPaths =>
          cases h
          rfl
      | setBindings b => cases hr
      | mergeBindings b => cases hr
      | _ => cases hsubject

/-- One request. -/
theorem lastWrites_of_answer (h : Bindings.LastWrites written e.bindings)
    (hr : ∀ b ∈ r.bindings?, b.WellNamed) (hanswer : e.answer r = some (a, e')) :
    Bindings.LastWrites (r.inForce written) e'.bindings := by
  cases r with
  | setBindings b =>
      cases hanswer
      exact .single (hr b rfl)
  | mergeBindings b =>
      cases hanswer
      exact h.merge (hr b rfl)
  | _ =>
      rw [bindings_of_answer rfl hanswer]
      exact h

/-- A session. -/
theorem lastWrites_of_answerAll (h : Bindings.LastWrites written e.bindings)
    (hrequests : ∀ r ∈ requests, ∀ b ∈ r.bindings?, b.WellNamed)
    (hanswers : e.answerAll requests = some answers) :
    Bindings.LastWrites (requests.foldl Request.inForce written) (e.after answers).bindings := by
  induction requests generalizing e written answers with
  | nil =>
      cases hanswers
      exact h
  | cons r requests ih =>
      obtain ⟨hr, hrest⟩ := List.forall_mem_cons.1 hrequests
      simp only [answerAll] at hanswers
      split at hanswers
      · cases hanswers
      · next a e' hanswer =>
          obtain ⟨found, hfound, rfl⟩ := Option.map_eq_some_iff.1 hanswers
          have hafter : e.after ((a, e') :: found) = e'.after found := by
            rw [after, List.map_cons, List.getLastD_cons, after]
          rw [List.foldl_cons, hafter]
          exact ih (lastWrites_of_answer h hr hanswer) hrest hfound

/-- Requests that bring bindings are always answered. -/
theorem isSome_answerAll (h : ∀ r ∈ requests, r.bindings? ≠ none) :
    (e.answerAll requests).isSome = true := by
  induction requests generalizing e with
  | nil => rfl
  | cons r requests ih =>
      obtain ⟨hr, hrest⟩ := List.forall_mem_cons.1 h
      cases r with
      | setBindings b => simpa [answerAll, answer] using ih hrest
      | mergeBindings b => simpa [answerAll, answer] using ih hrest
      | _ => exact absurd rfl hr

/-- Merging bindings is associative and has the empty ones as identity. After a session, in every
table, the names are those of the bindings that were set last and of those merged since, or of the
first ones and all that were merged if none were set: each once, in the order in which they first
come, and bound to what the last of these that mention it say. Requests that bring bindings are
always answered, and all others leave the bindings as they are. -/
theorem bindings_lastWrites (he : e.bindings.WellNamed) :
    (∀ a b c : Bindings, (b.WellNamed → (a.merge b).merge c = a.merge (b.merge c)) ∧
      a.merge .empty = a ∧ (a.WellNamed → Bindings.empty.merge a = a)) ∧
    (∀ requests answers, (∀ r ∈ requests, ∀ b ∈ r.bindings?, b.WellNamed) →
      e.answerAll requests = some answers →
      ((∀ r ∈ requests, r.isReplacing = false) →
        Bindings.LastWrites (e.bindings :: requests.filterMap Request.merged?)
          (e.after answers).bindings) ∧
      ∀ before b rest, requests = before ++ .setBindings b :: rest →
        (∀ r ∈ rest, r.isReplacing = false) →
        Bindings.LastWrites (b :: rest.filterMap Request.merged?) (e.after answers).bindings) ∧
    (∀ requests, (∀ r ∈ requests, r.bindings? ≠ none) → (e.answerAll requests).isSome = true) ∧
    ∀ (e e' : Engine) r a, r.bindings? = none → e.answer r = some (a, e') →
      e'.bindings = e.bindings := by
  refine ⟨fun a b c =>
    ⟨fun hb => Bindings.merge_assoc a hb c, a.merge_empty, Bindings.empty_merge⟩, ?_,
    fun requests => isSome_answerAll, fun e e' r a => bindings_of_answer⟩
  intro requests answers hrequests hanswers
  have hlast := lastWrites_of_answerAll (.single he) hrequests hanswers
  constructor
  · intro hkept
    rw [Request.foldl_inForce hkept] at hlast
    exact hlast
  · rintro before b rest rfl hkept
    rw [Request.foldl_inForce_replaced before b hkept] at hlast
    exact hlast

/-- A session that sets bindings after it has merged some, with names that come again. -/
theorem bindings_lastWrites_of_session :
    let first : Bindings := { parameters := [("a", .null), ("b", .bool true)] }
    let more : Bindings := { parameters := [("c", .missing), ("a", .bool false)] }
    let second : Bindings := { environment := [("a", .string "x")], functions := [("f", .array)] }
    let last : Bindings := { environment := [("b", .null), ("a", .null)] }
    let e : Engine := ⟨{}, first, Template.resolve, .fresh true, 0⟩
    let kept : List Request := [.mergeBindings more, .evaluate "" .null, .clearPaths]
    let replaced : List Request := kept ++ [.setBindings second, .mergeBindings last]
    first.WellNamed ∧
    (∃ answers, e.answerAll kept = some answers ∧
      Bindings.LastWrites [first, more] (e.after answers).bindings) ∧
    ∃ answers, e.answerAll replaced = some answers ∧
      Bindings.LastWrites [second, last] (e.after answers).bindings := by
  intro first more second last e kept replaced
  have hnames : first.WellNamed ∧ more.WellNamed ∧ second.WellNamed ∧ last.WellNamed := by
    simp [first, more, second, last, Bindings.wellNamed_iff]
  obtain ⟨hfirst, hmore, hsecond, hlast⟩ := hnames
  obtain ⟨-, hsessions, -⟩ := bindings_lastWrites (e := e) hfirst
  refine ⟨hfirst, ⟨_, rfl, ?_⟩, ⟨_, rfl, ?_⟩⟩
  · refine (hsessions kept _ ?_ rfl).1 ?_
    · simp [kept, Request.bindings?, hmore]
    · simp [kept, Request.isReplacing]
  · refine (hsessions replaced _ ?_ rfl).2 kept second [.mergeBindings last] rfl ?_
    · simp [replaced, kept, Request.bindings?, hmore, hsecond, hlast]
    · simp [Request.isReplacing]

end Engine

end Sluice

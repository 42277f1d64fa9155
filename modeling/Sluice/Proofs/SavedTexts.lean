import Sluice.Proofs.JsonReading
import Sluice.Proofs.Leaves
import Sluice.Proofs.Numbers
import Sluice.Saved.Expr

/-!
# Expressions, saved and loaded

The saved text of an expression is loaded as the expression with null in place of the literals that
are numbers and not finite. It is refused if the expression nests too deep. So of the expressions
that are read from a text, those with finite literals come back, up to a depth.
-/
namespace Sluice

open Sluice.Text

namespace Value

/-- The values that literals can have. -/
def IsScalar : Value → Bool
  | .null | .bool _ | .number _ | .string _ => true
  | .array _ | .object _ | .missing => false

theorem ofJson_written_save {v : Value} (hv : v.IsScalar = true) :
    ofJson v.save.written = v.normalized := by
  cases v with
  | number x =>
      cases hx : x.isFinite with
      | false =>
          have hfloat : x.toFloat.isFinite = false := hx
          simp [save, Json.written, normalized, ofJson, hx, hfloat]
      | true =>
          have hfloat : x.toFloat.isFinite = true := hx
          have hback := Number.ofFloat_toFloat (Number.isNaN_of_isFinite hx)
          simp [save, Json.written, normalized, ofJson, hx, hfloat, hback]
  | null | bool | string => rfl
  | array | object | missing => cases hv

end Value

namespace Expr

mutual

/-- The expression with null in place of the literals that JSON cannot say. -/
def normalized : Expr → Expr
  | .literal v => .literal v.normalized
  | .unary op e => .unary op e.normalized
  | .binary l op r => .binary l.normalized op r.normalized
  | .call name args => .call name (normalizedArgs args)
  | e => e

def normalizedArgs : List Expr → List Expr
  | [] => []
  | e :: rest => e.normalized :: normalizedArgs rest

end

/-! ## Literals -/

def IsScalarLeaf (leaf : Expr) : Prop :=
  ∀ v, leaf = .literal v → v.IsScalar = true

def IsFiniteLeaf (leaf : Expr) : Prop :=
  ∀ x, leaf = .literal (.number x) → x.isFinite = true

/-- A finite number as a literal is read back from its JSON text. -/
def ReadsBackLeaf (leaf : Expr) : Prop :=
  ∀ x, leaf = .literal (.number x) → x.isFinite = true → Json.FloatReadsBack x

/-- The literals of a text are words, numbers and strings. -/
theorem leaves_isScalarLeaf {text : String} {e : Expr} (h : parse text = .ok e) :
    e.Leaves IsScalarLeaf := by
  refine leaves_of_parse ⟨?_, ?_⟩ h ?_
  · intro name v he
    unfold word at he
    split at he
    · cases he
      rfl
    · split at he
      · cases he
        rfl
      · split at he
        · cases he
          rfl
        · cases he
  · intro x _ v he
    cases he
    rfl
  · intro t _ _ leaf hleaf v he
    subst he
    unfold atom? at hleaf
    split at hleaf
    all_goals try cases hleaf
    · unfold numberLiteral at hleaf
      split at hleaf <;> cases hleaf
      rfl
    · rfl

theorem readable_save_literal {v : Value} (hscalar : v.IsScalar = true)
    (hreads : ReadsBackLeaf (.literal v)) : v.save.Readable := by
  cases v with
  | number x => exact hreads x rfl
  | null | bool | string => trivial
  | array | object | missing => cases hscalar

mutual

theorem readable_save {e : Expr} (hscalar : e.Leaves IsScalarLeaf)
    (hreads : e.Leaves ReadsBackLeaf) : e.save.Readable := by
  match e with
  | .literal v => exact ⟨readable_save_literal (hscalar v rfl) hreads, trivial⟩
  | .identifier name => exact ⟨trivial, trivial⟩
  | .path text => exact ⟨trivial, trivial⟩
  | .template text => exact ⟨trivial, trivial⟩
  | .unary op e =>
      have he := readable_save (e := e) hscalar hreads
      exact ⟨⟨trivial, he, trivial⟩, trivial⟩
  | .binary l op r =>
      have hl := readable_save hscalar.1 hreads.1
      have hr := readable_save hscalar.2 hreads.2
      exact ⟨⟨hl, trivial, hr, trivial⟩, trivial⟩
  | .call name args =>
      have hargs : Json.itemsReadable (saveArgs args) := itemsReadable_saveArgs hscalar hreads
      exact ⟨⟨trivial, hargs, trivial⟩, trivial⟩

theorem itemsReadable_saveArgs {args : List Expr} (hscalar : ArgsLeaves IsScalarLeaf args)
    (hreads : ArgsLeaves ReadsBackLeaf args) : Json.itemsReadable (saveArgs args) := by
  match args with
  | [] => trivial
  | e :: rest => exact ⟨readable_save hscalar.1 hreads.1, itemsReadable_saveArgs hscalar.2 hreads.2⟩

end

mutual

/-- What the saved text says is loaded as the expression, up to literals that are not finite. -/
theorem load?_written_save {e : Expr} (hscalar : e.Leaves IsScalarLeaf) :
    load? e.save.written = some e.normalized := by
  match e with
  | .literal v =>
      have hv := Value.ofJson_written_save (hscalar v rfl)
      simp [save, Json.written, Json.writtenMembers, load?, only?, field?, normalized, hv]
  | .identifier name =>
      simp [save, Json.written, Json.writtenMembers, load?, only?, field?, normalized]
  | .path text =>
      simp [save, Json.written, Json.writtenMembers, load?, only?, field?, normalized]
  | .template text =>
      simp [save, Json.written, Json.writtenMembers, load?, only?, field?, normalized]
  | .unary op e =>
      have he := load?_written_save (e := e) hscalar
      simp [save, Json.written, Json.writtenMembers, load?, only?, field?, normalized, savedWord?,
        UnaryOperator.ofSavedName?_savedName, he]
  | .binary l op r =>
      have hl := load?_written_save hscalar.1
      have hr := load?_written_save hscalar.2
      simp [save, Json.written, Json.writtenMembers, load?, only?, field?, normalized, savedWord?,
        Operator.ofSavedName?_savedName, hl, hr]
  | .call name args =>
      have hargs : loadArgs? (Json.writtenItems (saveArgs args)) = some (normalizedArgs args) :=
        loadArgs?_writtenItems_saveArgs hscalar
      simp [save, Json.written, Json.writtenMembers, load?, only?, field?, normalized, string?,
        hargs]

theorem loadArgs?_writtenItems_saveArgs {args : List Expr}
    (hscalar : ArgsLeaves IsScalarLeaf args) :
    loadArgs? (Json.writtenItems (saveArgs args)) = some (normalizedArgs args) := by
  match args with
  | [] => simp [saveArgs, Json.writtenItems, loadArgs?, normalizedArgs]
  | e :: rest =>
      have he := load?_written_save hscalar.1
      have hrest := loadArgs?_writtenItems_saveArgs hscalar.2
      simp [saveArgs, Json.writtenItems, loadArgs?, he, hrest, normalizedArgs]

end

theorem normalized_literal_iff {v : Value} (hv : v.IsScalar = true) :
    v.normalized = v ↔ IsFiniteLeaf (.literal v) := by
  cases v with
  | number x =>
      cases hx : x.isFinite <;> simp [Value.normalized, IsFiniteLeaf, hx]
  | null | bool | string => simp [Value.normalized, IsFiniteLeaf]
  | array | object | missing => cases hv

mutual

/-- Nothing is lost exactly if all literals are finite. -/
theorem normalized_eq_self_iff {e : Expr} (hscalar : e.Leaves IsScalarLeaf) :
    e.normalized = e ↔ e.Leaves IsFiniteLeaf := by
  match e with
  | .literal v => simpa [normalized, Leaves] using normalized_literal_iff (hscalar v rfl)
  | .identifier name => simp [normalized, Leaves, IsFiniteLeaf]
  | .path text => simp [normalized, Leaves, IsFiniteLeaf]
  | .template text => simp [normalized, Leaves, IsFiniteLeaf]
  | .unary op e => simpa [normalized, Leaves] using normalized_eq_self_iff (e := e) hscalar
  | .binary l op r =>
      simp [normalized, Leaves, normalized_eq_self_iff hscalar.1, normalized_eq_self_iff hscalar.2]
  | .call name args =>
      have hargs : normalizedArgs args = args ↔ ArgsLeaves IsFiniteLeaf args :=
        normalizedArgs_eq_self_iff hscalar
      simpa [normalized, Leaves] using hargs

theorem normalizedArgs_eq_self_iff {args : List Expr} (hscalar : ArgsLeaves IsScalarLeaf args) :
    normalizedArgs args = args ↔ ArgsLeaves IsFiniteLeaf args := by
  match args with
  | [] => simp [normalizedArgs, ArgsLeaves]
  | e :: rest =>
      simp [normalizedArgs, ArgsLeaves, normalized_eq_self_iff hscalar.1,
        normalizedArgs_eq_self_iff hscalar.2]

end

/-- The saved text of an expression with scalar literals is loaded, or refused if it nests too
deep. -/
theorem loadText?_render_save {e : Expr} (hscalar : e.Leaves IsScalarLeaf)
    (hreads : e.Leaves ReadsBackLeaf) : loadText? e.save.render =
      if e.save.nesting ≤ Json.depthLimit then some e.normalized else none := by
  rw [loadText?, Json.read?_render (readable_save hscalar hreads)]
  split
  · exact load?_written_save hscalar
  · rfl

/-- An expression that is read from a text comes back from its saved text exactly if its number
literals are finite and it does not nest too deep. -/
theorem loadText?_saved_iff {text : String} {e : Expr} (h : parse text = .ok e)
    (hreads : e.Leaves ReadsBackLeaf) : loadText? e.save.render = some e ↔
      e.Leaves IsFiniteLeaf ∧ e.save.nesting ≤ Json.depthLimit := by
  have hscalar := leaves_isScalarLeaf h
  rw [loadText?_render_save hscalar hreads, ← normalized_eq_self_iff hscalar]
  split
  · next hdepth => simp [hdepth]
  · next hdepth => simp [hdepth]

theorem loadText?_saved_of_product : ∃ e, parse "-1.5 * !a" = .ok e ∧
    e.Leaves ReadsBackLeaf ∧ loadText? e.save.render = some e := by
  have htokens : (Token.tokenize "-1.5 * !a").toOption = some
      [⟨.operator, "-", 0⟩, ⟨.number, "1.5", 1⟩, ⟨.operator, "*", 5⟩, ⟨.operator, "!", 7⟩,
        ⟨.identifier, "a", 8⟩] := by decide +kernel
  have hnumber : atom? ⟨.number, "1.5", 1⟩ = some (.literal (.number 1.5)) := by
    with_unfolding_all rfl
  have hend (floor : Nat) (left : Expr) : Climbs floor left [] left [] := .done (by simp [StopsAt])
  have hright : ReadsOperand [⟨.operator, "!", 7⟩, ⟨.identifier, "a", 8⟩]
      (.unary .not (.identifier "a")) [] := .not rfl rfl (.word rfl (by simp [CallFollows]))
  have hproduct : Climbs 0 (.literal (.number (-1.5)))
      [⟨.operator, "*", 5⟩, ⟨.operator, "!", 7⟩, ⟨.identifier, "a", 8⟩]
      (.binary (.literal (.number (-1.5))) .mul (.unary .not (.identifier "a"))) [] :=
    .step rfl (by decide) (.mk hright (hend _ _)) (hend _ _)
  have hparse : parse "-1.5 * !a" =
      .ok (.binary (.literal (.number (-1.5))) .mul (.unary .not (.identifier "a"))) :=
    parse_of_tokens (by decide +kernel) (by decide) htokens
      (.mk (.minus rfl rfl (.atom hnumber)) hproduct)
  have hback : Json.FloatReadsBack (-1.5) :=
    Json.floatReadsBack_of_readNumber (by with_unfolding_all rfl)
  have hfinite : (-1.5 : Float).isFinite = true := by decide +kernel
  have hreads : (Expr.binary (.literal (.number (-1.5))) .mul
      (.unary .not (.identifier "a"))).Leaves ReadsBackLeaf := by
    refine ⟨fun x he _ => ?_, fun x he => ?_⟩
    · cases he
      exact hback
    · cases he
  refine ⟨_, hparse, hreads, (loadText?_saved_iff hparse hreads).2 ⟨⟨?_, ?_⟩, by decide⟩⟩
  · intro x he
    cases he
    exact hfinite
  · intro x he
    cases he

/-- A number past the largest `Float` is read as infinite, and is lost. -/
theorem not_forall_loadText?_saved : ¬ ∀ (text : String) (e : Expr), parse text = .ok e →
    e.Leaves ReadsBackLeaf → loadText? e.save.render = some e := by
  intro h
  have htokens : (Token.tokenize "1e999").toOption = some [⟨.number, "1e999", 0⟩] := by
    decide +kernel
  have hread : Decimal.readFloat "1e999".toList = some (1 / 0) := by decide +kernel
  have hatom : atom? ⟨.number, "1e999", 0⟩ = some (.literal (.number (1 / 0))) := by
    simp only [atom?, numberLiteral, hread]
    rfl
  have hparse : parse "1e999" = .ok (.literal (.number (1 / 0))) :=
    parse_of_tokens (by decide +kernel) (by decide) htokens
      (.mk (.atom hatom) (.done (by simp [StopsAt])))
  have hinfinite : (1 / 0 : Number).isFinite = false := by decide +kernel
  have hreads : (Expr.literal (.number (1 / 0))).Leaves ReadsBackLeaf := by
    intro x hx hfinite
    cases hx
    rw [hinfinite] at hfinite
    cases hfinite
  have hloaded := h "1e999" _ hparse hreads
  rw [loadText?_render_save (leaves_isScalarLeaf hparse) hreads, if_pos (by decide)] at hloaded
  simp [normalized, Value.normalized, hinfinite] at hloaded

end Expr

end Sluice

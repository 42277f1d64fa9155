import Sluice.Proofs.PathTexts
import Sluice.Proofs.Tokens
import Sluice.Proofs.Walking
import Sluice.Template.Resolve

/-!
# Templates that read stored values

A template for a stored value has two parts: the name of an entry, and what leads further inside
of it. It is resolved in two steps, first in the table and then by a path from the entry. One path
from the object of all entries, with the name as its first property, leads to the same value.
-/
namespace Sluice

open Sluice.Text

variable {name rest space key : List Char} {steps : List Path.Step}

/-! ## The path through a table -/

namespace Path

/-- A property that stands first has its own step, and what comes after it is read by itself. -/
theorem stepsOf_property (hname : IsPropertyName name) (hrest : EndsWord rest) :
    stepsOf ('$' :: '.' :: (name ++ rest)) =
      (stepsFrom [] rest).map fun steps => .root :: .property (String.ofList name) :: steps := by
  change (stepsFrom [] ('.' :: (name ++ rest))).map (Step.root :: ·) = _
  rw [stepsFrom_nil_point, hname.stepsFrom_append hrest]
  cases stepsFrom [] rest <;> rfl

/-- A walk from an object by one of its properties goes on as from the entry, if it goes on. -/
theorem walk_root_property (entries : Keyed Value) (name : String) (hne : steps ≠ []) :
    walk (.root :: .property name :: steps) (.object entries) =
      ((entries.get? name).map (walk (.root :: steps))).getD .missing := by
  have hwalk : walk (.root :: .property name :: steps) (.object entries) =
      (Stand.run ⟨(Value.object entries).property name, .alone⟩ steps).value := walk_eq_run _ _
  have hproperty : (Value.object entries).property name = (entries.get? name).getD .missing := rfl
  rw [hwalk, hproperty]
  cases entries.get? name with
  | none => exact Stand.run_of_isAbsent rfl hne
  | some v =>
      rw [Option.getD_some, Option.map_some, Option.getD_some, walk_eq_run, Stand.run_cons]
      by_cases habsent : v.isAbsent = true
      · have hstop : (Stand.start v).advance .root = ⟨.missing, .stopped⟩ :=
          Stand.advance_of_isAbsent habsent .root
        rw [Stand.run_of_isAbsent habsent hne, hstop, Stand.run_of_isAbsent rfl hne]
      · have hitems : ¬ (Stand.start v).GoesItemwise (.root :: steps) :=
          Stand.not_goesItemwise nofun
        rw [Stand.advance_alone habsent hitems]
        rfl

end Path

/-- Following a text without blanks at its ends. -/
theorem Value.follow_of_trimmed {cs : List Char} (hcs : trim cs = cs) (v : Value) :
    v.follow (String.ofList cs) =
      match Path.stepsOf cs with
      | .ok steps => Path.walk steps v
      | .error _ => .missing := by
  simp only [Value.follow, Path.ofText, String.toList_ofList, hcs]
  cases Path.stepsOf cs <;> rfl

/-! ## Resolving -/

namespace Template

open Sluice.Path

/-- The rest of a key after the name of an entry. There is none, or it begins with a point or a
bracket and, as a path, either has a step after its root or cannot be read. -/
def LeadsFurther (rest : List Char) : Prop :=
  rest = [] ∨ (rest.head? = some '.' ∨ rest.head? = some '[') ∧
    (ofText (String.ofList ('$' :: rest))).map Path.steps ≠ .ok [.root]

theorem LeadsFurther.endsWord (h : LeadsFurther rest) : EndsWord rest := by
  intro c hc
  rcases h with rfl | ⟨hhead, -⟩
  · cases hc
  · simpa [Option.mem_def.1 hc] using hhead

theorem LeadsFurther.stepsFrom_ne (h : LeadsFurther rest) (hne : rest ≠ [])
    (htrim : trim ('$' :: rest) = '$' :: rest) : stepsFrom [] rest ≠ .ok [] := by
  intro hnone
  refine (h.resolve_left hne).2 ?_
  simp only [ofText, String.toList_ofList, htrim, stepsOf, hnone, Except.map]

theorem entryAt_append (entries : Keyed Value) (hname : ∀ c ∈ name, isWord c = true)
    (hrest : EndsWord rest) :
    entryAt entries (name ++ rest) =
      (entries.get? (String.ofList name)).map fun v =>
        if rest.isEmpty then v else v.follow (String.ofList ('$' :: rest)) := by
  have hword : ∀ c ∈ name, (c != '.' && c != '[') = true := fun c hc => by
    simpa using ⟨ne_of_class isWord (hname c hc) (by decide),
      ne_of_class isWord (hname c hc) (by decide)⟩
  have hends : ∀ c ∈ rest.head?, (c != '.' && c != '[') = false := fun c hc => by
    rcases hrest c hc with rfl | rfl <;> rfl
  have htake : (name ++ rest).takeWhile (fun c => c != '.' && c != '[') = name := by
    rw [List.takeWhile_append_of_pos hword]
    cases rest with
    | nil => simp
    | cons c rest => rw [List.takeWhile_cons, hends c rfl]; simp
  have hdrop : (name ++ rest).dropWhile (fun c => c != '.' && c != '[') = rest := by
    rw [List.dropWhile_append_of_pos hword]
    cases rest with
    | nil => rfl
    | cons c rest => rw [List.dropWhile_cons, hends c rfl]; simp
  unfold entryAt
  dsimp only
  rw [htake, hdrop]
  cases entries.get? (String.ofList name) with
  | none => rfl
  | some v => cases rest <;> rfl

/-- What is found under a key is what one path leads to, and nothing is found where that path
leads nowhere. -/
theorem entryAt_eq_follow (entries : Keyed Value) (hne : name ≠ [])
    (hname : ∀ c ∈ name, isWord c = true) (hrest : LeadsFurther rest)
    (hlast : ∀ c ∈ rest.getLast?, isBlank c = false) :
    (entryAt entries (name ++ rest)).getD .missing =
      (Value.object entries).follow (String.ofList ('$' :: '.' :: (name ++ rest))) := by
  have hproperty := isPropertyName_of_isWord hne hname
  have hdollar : isBlank '$' = false := by decide
  have hnamelast : ∀ c ∈ name.getLast?, isBlank c = false := fun c hc =>
    isBlank_of_isWord (hname c (List.mem_of_getLast? hc))
  have htrim : trim ('$' :: '.' :: (name ++ rest)) = '$' :: '.' :: (name ++ rest) :=
    trim_eq_self (by simpa using hdollar)
      (last_append (last_singleton hdollar)
        (last_append (last_singleton (by decide)) (last_append hnamelast hlast)))
  have htrimrest : trim ('$' :: rest) = '$' :: rest :=
    trim_eq_self (by simpa using hdollar) (last_append (last_singleton hdollar) hlast)
  rw [entryAt_append entries hname hrest.endsWord, Value.follow_of_trimmed htrim,
    stepsOf_property hproperty hrest.endsWord]
  by_cases hnil : rest = []
  · subst hnil
    rw [stepsFrom_nil]
    have hwalk : walk [.root, .property (String.ofList name)] (.object entries) =
        (entries.get? (String.ofList name)).getD .missing := walk_eq_run _ _
    simp [Except.map, hwalk]
  · have hsteps := hrest.stepsFrom_ne hnil htrimrest
    have hempty : rest.isEmpty = false := by simpa using hnil
    simp only [hempty, Bool.false_eq_true, if_false, Value.follow_of_trimmed htrimrest, stepsOf]
    cases hread : stepsFrom [] rest with
    | error e => cases entries.get? (String.ofList name) <;> rfl
    | ok steps =>
        have hmore : steps ≠ [] := by
          rintro rfl
          exact hsteps hread
        simp only [Except.map, walk_root_property entries _ hmore]

/-- A bare template with a namespace and a key that have no blanks at their ends. -/
theorem resolve_bareTemplate (b : Bindings) (hspace : trim space = space) (hcolon : ':' ∉ space)
    (hkey : trim key = key) :
    resolve b (String.ofList (Token.bareTemplate (space ++ ':' :: key))) =
      (find b space key).filter fun v => !v.isMissing := by
  have hopen : isBlank '\x7b' = false := by decide
  have hclose : isBlank '\x7d' = false := by decide
  have htrim : trim (Token.bareTemplate (space ++ ':' :: key)) =
      Token.bareTemplate (space ++ ':' :: key) :=
    trim_eq_self (by simpa [Token.bareTemplate] using hopen)
      (by simpa [Token.bareTemplate, List.getLast?_cons] using hclose)
  have hquote : between? '"' (Token.bareTemplate (space ++ ':' :: key)) = none := by
    simp [Token.bareTemplate, between?]
  have hbody : body? (Token.bareTemplate (space ++ ':' :: key)) = some (space ++ ':' :: key) := by
    simp [Token.bareTemplate, body?]
  simp only [resolve, String.toList_ofList, htrim, hquote, hbody, Option.bind_some,
    cutAt_append hcolon, hspace, hkey]
  cases find b space key with
  | none => rfl
  | some v => cases hv : v.isMissing <;> simp [Option.filter, hv]

/-- The same of a namespace of stored values: it is resolved by a path through their table. -/
theorem resolve_eq_some_iff (b : Bindings) (space : List Char) {entries : Keyed Value}
    (hspace : trim space = space) (hcolon : ':' ∉ space)
    (hfind : ∀ key, find b space key = entryAt entries key)
    (hne : name ≠ []) (hname : ∀ c ∈ name, isWord c = true) (hrest : LeadsFurther rest)
    (hlast : ∀ c ∈ rest.getLast?, isBlank c = false) (v : Value) :
    resolve b (String.ofList (Token.bareTemplate (space ++ ':' :: (name ++ rest)))) = some v ↔
      (Value.object entries).follow (String.ofList ('$' :: '.' :: (name ++ rest))) = v ∧
        v.isMissing = false := by
  have hkey : trim (name ++ rest) = name ++ rest := by
    have hblank {c : Char} (hc : c ∈ name) : isBlank c = false := isBlank_of_isWord (hname c hc)
    obtain ⟨c, name, rfl⟩ := List.exists_cons_of_ne_nil hne
    refine trim_eq_self ?_ (last_append (fun d hd => ?_) hlast)
    · simpa using hblank List.mem_cons_self
    · exact hblank (List.mem_of_getLast? hd)
  rw [resolve_bareTemplate b hspace hcolon hkey, hfind,
    ← entryAt_eq_follow entries hne hname hrest hlast]
  cases entryAt entries (name ++ rest) with
  | none =>
      constructor
      · nofun
      · rintro ⟨rfl, hmissing⟩
        cases hmissing
  | some w =>
      rw [Option.filter_eq_some_iff, Option.getD_some, Option.some.injEq]
      refine and_congr_right ?_
      rintro rfl
      simp

/-- A template for a stored response, or for the data of a transformation, is resolved to what the
path with the same name and the same rest leads to from the object of all of them, and it is not
resolved where that path leads nowhere. -/
theorem resolve_stored_iff (b : Bindings) (hne : name ≠ []) (hname : ∀ c ∈ name, isWord c = true)
    (hrest : LeadsFurther rest) (hlast : ∀ c ∈ rest.getLast?, isBlank c = false) (v : Value) :
    (resolve b (String.ofList (Token.bareTemplate ("res:".toList ++ (name ++ rest)))) = some v ↔
      (Value.object b.responses).follow (String.ofList ("$.".toList ++ (name ++ rest))) = v ∧
        v.isMissing = false) ∧
    (resolve b (String.ofList (Token.bareTemplate ("proc:".toList ++ (name ++ rest)))) = some v ↔
      (Value.object b.transformed).follow (String.ofList ("$.".toList ++ (name ++ rest))) = v ∧
        v.isMissing = false) :=
  ⟨resolve_eq_some_iff b "res".toList (by decide) (by decide) (fun _ => rfl) hne hname
      hrest hlast v,
    resolve_eq_some_iff b "proc".toList (by decide) (by decide) (fun _ => rfl) hne hname
      hrest hlast v⟩

/-- A property that is read from every item of a stored list, and one that is looked for in a
stored null. -/
theorem resolve_stored_of_items :
    let b : Bindings :=
      { responses := [("login", .array [.object [("id", .bool true)], .null])]
        transformed := [("login", .null)] }
    LeadsFurther ".id".toList ∧
      resolve b "\x7b\x7bres:login.id\x7d\x7d" = some (.array [.bool true, .missing]) ∧
      ∀ v, resolve b "\x7b\x7bproc:login.id\x7d\x7d" ≠ some v := by
  intro b
  have hrest : LeadsFurther ".id".toList := .inr ⟨.inl (by decide), by decide +kernel⟩
  have hlast : ∀ c ∈ ".id".toList.getLast?, isBlank c = false := by
    rintro c ⟨⟩
    decide
  have hname : ∀ c ∈ "login".toList, isWord c = true := List.all_eq_true.1 (by decide +kernel)
  have hread : ofText "$.login.id" =
      .ok ⟨"$.login.id", [.root, .property "login", .property "id"]⟩ := by decide +kernel
  have hfollow (v : Value) :
      v.follow (String.ofList ("$.".toList ++ ("login".toList ++ ".id".toList))) =
        ((Stand.start v).run [.root, .property "login", .property "id"]).value := by
    change v.follow "$.login.id" = _
    rw [Value.follow, hread, ← walk_eq_run]
    rfl
  have hfound :=
    (resolve_stored_iff b (by decide) hname hrest hlast (.array [.bool true, .missing])).1
  have hnone (v : Value) := (resolve_stored_iff b (by decide) hname hrest hlast v).2
  refine ⟨hrest, hfound.2 ⟨?_, rfl⟩, fun v hv => ?_⟩
  · rw [hfollow]
    rfl
  · obtain ⟨hpath, hmissing⟩ := (hnone v).1 hv
    rw [hfollow] at hpath
    rw [← hpath] at hmissing
    cases hmissing

end Template

end Sluice

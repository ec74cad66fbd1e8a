import EdgecaseForge.ResponseSchemas
import Mathlib.Logic.Relation

namespace EdgecaseForge

open Text Relation

namespace ResponseSchema

/-- A value leads to its parts outside `$defs`, and a reference to what stands for it. -/
inductive Part (definitions : Json) : Json → Json → Prop
  | item {items : List Json} {x : Json} (mem : x ∈ items) : Part definitions (.list items) x
  | field {fields : List (Str × Json)} {key : Str} {x : Json} (plain : reference? fields = none)
      (mem : (key, x) ∈ fields) (outside : key ≠ lit "$defs") : Part definitions (.obj fields) x
  | target {fields target : List (Str × Json)} {reference : Json} {name : Str}
      (refers : reference? fields = some reference) (named : localName reference = some name)
      (defined : definitions.get name = .obj target) :
      Part definitions (.obj fields) (.obj (merged target fields))

def RefersTo (fields : List (Str × Json)) (name : Str) : Prop :=
  ∃ reference, reference? fields = some reference ∧ localName reference = some name

def outsideDefs (fields : List (Str × Json)) : List (Str × Json) :=
  fields.filter fun field => field.1 ≠ lit "$defs"

def ObjectDefinitions (definitions : Json) : Prop :=
  ∃ entries, definitions = .obj entries ∧ ∀ entry ∈ entries, entry.2.isObj = true

def definedNames : Json → List Str
  | .obj entries => entries.map Prod.fst
  | _ => []

section Definitions

variable {definitions reference value : Json} {active : List Str} {fields : List (Str × Json)} {name : Str}

theorem mem_definedNames (defined : definitions.get name ≠ .null) : name ∈ definedNames definitions := by
  cases definitions with
  | obj entries =>
    by_contra absent
    have none : entries.lookup name = none := by
      rw [List.lookup_eq_none_iff]
      intro entry mem
      rw [bne_iff_ne]
      exact fun same => absent (same ▸ List.mem_map_of_mem mem)
    exact defined (by rw [Json.get, Json.get?, none, Option.getD_none])
  | _ => exact absurd rfl defined

theorem ObjectDefinitions.get (objects : ObjectDefinitions definitions) (name : Str) :
    definitions.get name = .null ∨ ∃ target, definitions.get name = .obj target := by
  obtain ⟨entries, rfl, each⟩ := objects
  rw [Json.get, Json.get?]
  cases found : entries.lookup name with
  | none => exact Or.inl rfl
  | some value =>
    obtain ⟨before, after, split, -⟩ := List.lookup_eq_some_iff.mp found
    have object := each (name, value) (by simp [split])
    cases value with
    | obj target => exact Or.inr ⟨target, rfl⟩
    | _ => cases object

theorem dereference_ok : dereference definitions active fields reference = .ok (name, value) ↔
    localName reference = some name ∧ name ∉ active ∧
      ∃ target, definitions.get name = .obj target ∧ value = .obj (merged target fields) := by
  unfold dereference
  cases named : localName reference with
  | none => simp
  | some other =>
    dsimp only
    split
    next repeated =>
      have mem : other ∈ active := by simpa using repeated
      simp only [reduceCtorEq, Option.some.injEq, false_iff, not_and]
      rintro rfl fresh
      exact absurd mem fresh
    next fresh =>
      have absent : other ∉ active := by simpa using fresh
      cases definitions with
      | obj entries =>
        dsimp only
        cases found : (Json.obj entries).get other with
        | obj target =>
          simp only [Except.ok.injEq, Prod.mk.injEq, Option.some.injEq]
          constructor
          · rintro ⟨rfl, rfl⟩
            exact ⟨rfl, absent, target, found, rfl⟩
          · rintro ⟨rfl, -, target', found', rfl⟩
            cases found.symm.trans found'
            exact ⟨rfl, rfl⟩
        | _ =>
          simp only [reduceCtorEq, Option.some.injEq, false_iff, not_and, not_exists]
          rintro rfl - target found'
          cases found.symm.trans found'
      | _ =>
        simp only [reduceCtorEq, Option.some.injEq, false_iff, not_and, not_exists]
        rintro rfl - target found'
        cases found'

end Definitions

section Body

variable {follow : List Str → Json → Except PyError Json} {definitions reference value result : Json}
  {active : List Str} {items : List Json} {fields : List (Str × Json)}

theorem resolveFields_eq : resolveFields follow definitions active fields =
    (outsideDefs fields).mapM fun field =>
      (resolveBody follow definitions active field.2).map fun new => (field.1, new) := by
  induction fields with
  | nil => rfl
  | cons field fields ih =>
    obtain ⟨key, item⟩ := field
    rw [resolveFields, outsideDefs, List.filter_cons]
    by_cases inside : key = lit "$defs"
    · rw [if_pos inside, if_neg (by simpa using inside)]
      exact ih
    · rw [if_neg inside, if_pos (by simpa using inside), List.mapM_cons, ih]
      cases resolveBody follow definitions active item <;> rfl

theorem resolveBody_plain (plain : reference? fields = none) :
    resolveBody follow definitions active (.obj fields) =
      (resolveFields follow definitions active fields).map .obj := by
  rw [resolveBody, plain]

theorem resolveBody_plain_ok (plain : reference? fields = none) :
    resolveBody follow definitions active (.obj fields) = .ok result ↔
      ∃ resolved, List.Forall₂ (fun field new => field.1 = new.1 ∧
        resolveBody follow definitions active field.2 = .ok new.2) (outsideDefs fields) resolved ∧
        result = .obj resolved := by
  rw [resolveBody_plain plain, Except.map_eq_ok, resolveFields_eq]
  exact exists_congr fun _ => and_congr Except.mapM_entry_eq_ok eq_comm

theorem resolveBody_reference (refers : reference? fields = some reference) :
    resolveBody follow definitions active (.obj fields) = (dereference definitions active fields reference >>=
      fun entry => follow (active ++ [entry.1]) entry.2) := by
  rw [resolveBody, refers]

theorem resolveBody_reference_ok (refers : reference? fields = some reference) :
    resolveBody follow definitions active (.obj fields) = .ok result ↔ ∃ name target,
      localName reference = some name ∧ name ∉ active ∧ definitions.get name = .obj target ∧
        follow (active ++ [name]) (.obj (merged target fields)) = .ok result := by
  rw [resolveBody_reference refers, Except.bind_eq_ok]
  constructor
  · rintro ⟨⟨name, value⟩, there, h⟩
    obtain ⟨named, fresh, target, defined, rfl⟩ := dereference_ok.mp there
    exact ⟨name, target, named, fresh, defined, h⟩
  · rintro ⟨name, target, named, fresh, defined, h⟩
    exact ⟨_, dereference_ok.mpr ⟨named, fresh, target, defined, rfl⟩, h⟩

end Body

end ResponseSchema

end EdgecaseForge

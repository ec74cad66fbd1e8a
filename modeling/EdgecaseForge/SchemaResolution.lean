import EdgecaseForge.SchemaReferences
import Mathlib.Data.List.Perm.Subperm

namespace EdgecaseForge

open Text Relation

namespace ResponseSchema

/-- The resolver is at a value with the names of the references that it is behind. -/
structure Trail (definitions source : Json) (active : List Str) (value : Json) : Prop where
  reached : ReflTransGen (Part definitions) source value
  behind : ∀ name ∈ active, ∃ fields, ReflTransGen (Part definitions) source (.obj fields) ∧
    RefersTo fields name ∧ TransGen (Part definitions) (.obj fields) value
  nodup : active.Nodup
  defined : active ⊆ definedNames definitions

section Trails

variable {definitions source value target reference : Json} {active : List Str} {name : Str}
  {fields : List (Str × Json)} {depth depth' : Nat}

theorem Trail.start : Trail definitions source [] source :=
  ⟨.refl, nofun, List.nodup_nil, List.nil_subset _⟩

theorem Trail.length_le (trail : Trail definitions source active value) :
    active.length ≤ (definedNames definitions).length :=
  (trail.nodup.subperm trail.defined).length_le

theorem Trail.parts (trail : Trail definitions source active value) {part : Json}
    (path : ReflTransGen (Part definitions) value part) : Trail definitions source active part where
  reached := trail.reached.trans path
  behind name mem := by
    obtain ⟨fields, reached, refers, behind⟩ := trail.behind name mem
    exact ⟨fields, reached, refers, behind.trans_left path⟩
  nodup := trail.nodup
  defined := trail.defined

/-- Behind a reference its name joins the names. -/
theorem Trail.follow (trail : Trail definitions source active (.obj fields))
    (refers : reference? fields = some reference)
    (there : dereference definitions active fields reference = .ok (name, target)) :
    Trail definitions source (active ++ [name]) target := by
  obtain ⟨named, fresh, target, defined, rfl⟩ := dereference_ok.mp there
  have step : Part definitions (.obj fields) (.obj (merged target fields)) := .target refers named defined
  have known : name ∈ definedNames definitions := mem_definedNames (by rw [defined]; nofun)
  refine ⟨trail.reached.tail step, fun other mem => ?_, ?_, ?_⟩
  · rcases List.mem_append.mp mem with old | new
    · obtain ⟨above, reached, refers', behind⟩ := trail.behind other old
      exact ⟨above, reached, refers', behind.tail step⟩
    · cases List.mem_singleton.mp new
      exact ⟨fields, trail.reached, ⟨reference, refers, named⟩, .single step⟩
  · exact List.nodup_append.mpr ⟨trail.nodup, List.nodup_singleton _, by
      rintro other old new mem rfl
      exact fresh (List.mem_singleton.mp mem ▸ old)⟩
  · exact List.append_subset.mpr ⟨trail.defined, by simpa using known⟩

end Trails

section Succeeding

variable {definitions source value part resolved : Json} {active : List Str} {name : Str}
  {fields : List (Str × Json)} {depth : Nat}

end Succeeding

end ResponseSchema

end EdgecaseForge

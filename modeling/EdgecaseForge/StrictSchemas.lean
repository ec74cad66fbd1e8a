import EdgecaseForge.SchemaPositions

namespace EdgecaseForge

open Text Relation

namespace ResponseSchema

def kept (fields : List (Str × Json)) : List (Str × Json) :=
  fields.filter fun field => !removedKeywords.contains field.1

section Fields

variable {fields news : List (Str × Json)} {key : Str} {R : Str × Json → Json → Prop}

theorem get?_setField (field : Str × Json) (key : Str) : (Json.obj (Json.setField fields field)).get? key =
    if key = field.1 then some field.2 else (Json.obj fields).get? key := by
  have dict (entries : List (Str × Json)) :
      (Json.obj entries).get? key = @List.lookup Str Json instBEqOfDecidableEq key entries := by
    rw [lawful_beq_subsingleton instBEqOfDecidableEq (List.instBEq : BEq Str)]
    rfl
  obtain ⟨name, value⟩ := field
  rw [dict, dict, Json.setField]
  split
  next present => exact Dict.lookup_replace present
  next fresh => exact Dict.lookup_append_new fresh

end Fields

section Close

variable {fields : List (Str × Json)} {result : Json}

/-- The fields of a closed object type. -/
def withRequired (fields : List (Str × Json)) : List (Str × Json) :=
  Json.setField (Json.setField fields (lit "required", .list ((propertyNames fields).map .str)))
    (lit "additionalProperties", .bool false)

theorem close_ok (h : close fields = .ok result) : (isObjectType fields = false ∧ result = .obj fields) ∨
    (isObjectType fields = true ∧ result = .obj (withRequired fields)) := by
  unfold close at h
  split at h
  next object =>
    refine Or.inr ⟨object, ?_⟩
    rw [withRequired, propertyNames]
    cases found : (Json.obj fields).get? (lit "properties") with
    | none =>
      rw [found] at h
      exact (Except.ok.inj h).symm
    | some value =>
      rw [found] at h
      cases value with
      | obj properties =>
        simp only [List.map_map]
        exact (Except.ok.inj h).symm
      | _ => cases h
  next other => exact Or.inl ⟨by simpa using other, (Except.ok.inj h).symm⟩

theorem get?_withRequired {key : Str} (required : key ≠ lit "required") (additional : key ≠ lit "additionalProperties") :
    (Json.obj (withRequired fields)).get? key = (Json.obj fields).get? key := by
  rw [withRequired, get?_setField, if_neg additional, get?_setField, if_neg required]

theorem isObjectType_withRequired : isObjectType (withRequired fields) = isObjectType fields := by
  rw [isObjectType, Json.get, get?_withRequired (by simp) (by simp), isObjectType, Json.get]

end Close

section Normalize

variable {items : List Json} {fields inner : List (Str × Json)} {key : Str} {x value normalized : Json}

theorem normalizeValue_of_schema (schema : key = lit "properties" → x.isObj = false) :
    normalizeValue key x = normalize x := by
  cases x with
  | obj fields =>
    have other : key ≠ lit "properties" := fun same => by cases schema same
    rw [normalizeValue, if_neg other, normalize]
  | list items => rw [normalizeValue, normalize]
  | _ => rfl

/-- An object below `properties` stays one, and nothing else becomes one. -/
theorem normalizeValue_isObj (h : normalizeValue key x = .ok value) : value.isObj = x.isObj := by
  cases x with
  | obj fields =>
    rw [normalizeValue] at h
    split at h
    next =>
      obtain ⟨_, -, rfl⟩ := Except.map_eq_ok.mp h
      rfl
    next =>
      obtain ⟨news, -, h⟩ := Except.bind_eq_ok.mp h
      rcases close_ok h with ⟨-, rfl⟩ | ⟨-, rfl⟩ <;> rfl
  | list items =>
    obtain ⟨_, -, rfl⟩ := Except.map_eq_ok.mp h
    rfl
  | _ =>
    cases h
    rfl

end Normalize

section Strict

variable {items news : List Json} {fields : List (Str × Json)} {value normalized : Json} {path : List SchemaStep}

end Strict

section Flat

variable {definitions resolved normalized value : Json} {active : List Str} {depth : Nat} {fields : List (Str × Json)}

theorem resolveLocalRefs_isObj (h : resolveLocalRefs definitions depth active (.obj fields) = .ok resolved) :
    resolved.isObj = true := by
  induction depth generalizing active fields with
  | zero => cases h
  | succ depth ih =>
    cases refers : reference? fields with
    | some reference =>
      obtain ⟨name, target, -, -, -, later⟩ := (resolveBody_reference_ok refers).mp h
      exact ih later
    | none =>
      obtain ⟨news, -, rfl⟩ := (resolveBody_plain_ok refers).mp h
      rfl

theorem normalize_isObj (h : normalize value = .ok normalized) : normalized.isObj = value.isObj := by
  have other : ([] : Str) = lit "properties" → value.isObj = false := fun same => by cases same
  rw [← normalizeValue_of_schema other] at h
  exact normalizeValue_isObj h

/-- The last check never fails: an object stays an object. -/
theorem flatStrictSchema_eq (depth : Nat) (source : List (Str × Json)) : flatStrictSchema depth source =
    resolveLocalRefs (((Json.obj source).get? (lit "$defs")).getD (.obj [])) depth [] (.obj source) >>= normalize := by
  unfold flatStrictSchema
  refine Except.bind_congr_ok fun resolved hr => ?_
  cases hn : normalize resolved with
  | error e => rfl
  | ok normalized =>
    rw [Except.ok_bind, normalize_isObj hn, resolveLocalRefs_isObj hr, if_pos rfl]

end Flat

section Titled

end Titled

end ResponseSchema

end EdgecaseForge

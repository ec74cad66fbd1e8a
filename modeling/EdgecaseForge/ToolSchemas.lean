import EdgecaseForge.ExceptCore
import EdgecaseForge.JsonRepr
import EdgecaseForge.ProviderErrors
import Mathlib.Logic.Relation

namespace EdgecaseForge

open Text Relation

section Tools

def toolSchemaError (message : Str) : ProviderError where
  kind := .toolSchema
  message := message

/-- `str(value.get(key, "")).strip()`. -/
def strippedText (value : Json) (key : String) : Str :=
  match value.get? (lit key) with
  | some text => strip text.pyStr
  | none => []

/-- `value.get("type") == type_`. -/
def hasType (value : Json) (type_ : String) : Bool :=
  (value.get (lit "type")).pyEq (.str (lit type_))

def childPath (path name : Str) : Str :=
  path ++ lit "." ++ name

/-- What is checked of each property. -/
def checkChild (child : Json) (path : Str) : Except ProviderError Unit :=
  if child.isObj = false then .error (toolSchemaError (path ++ lit " must be a schema object"))
  else if strippedText child "description" = [] then
    .error (toolSchemaError (path ++ lit " description is required"))
  else if (child.get? (lit "type")).isNone then
    .error (toolSchemaError (path ++ lit " type is required"))
  else .ok ()

mutual

/-- `_validate_property_descriptions`, which is called on objects alone. -/
def validatePropertyDescriptions : Json → Str → Except ProviderError Unit
  | .obj fields, path => validateFields fields path
  | _, _ => .ok ()

/-- The entry `properties` of a schema, which is empty where there is none. -/
def validateFields : List (Str × Json) → Str → Except ProviderError Unit
  | [], _ => .ok ()
  | (key, value) :: fields, path =>
    if key = lit "properties" then validateProperties value path else validateFields fields path

def validateProperties : Json → Str → Except ProviderError Unit
  | .obj properties, path => validateChildren properties path
  | _, path => .error (toolSchemaError (path ++ lit ".properties must be an object"))

def validateChildren : List (Str × Json) → Str → Except ProviderError Unit
  | [], _ => .ok ()
  | (name, child) :: children, path => do
    checkChild child (childPath path name)
    (if hasType child "object" then validatePropertyDescriptions child (childPath path name) else .ok ())
    validateChildren children path

end

def validateToolSchema (tool : Json) : Except ProviderError Unit :=
  let function := tool.get (lit "function")
  let parameters := function.get (lit "parameters")
  if function.isObj = false then .error (toolSchemaError (lit "Tool must contain a function object"))
  else if strippedText function "name" = [] then
    .error (toolSchemaError (lit "Tool function name is required"))
  else if strippedText function "description" = [] then
    .error (toolSchemaError (lit "Tool function description is required"))
  else if parameters.isObj = false ∨ hasType parameters "object" = false then
    .error (toolSchemaError (lit "Tool parameters must be an object schema"))
  else validatePropertyDescriptions parameters (lit "parameters")

end Tools

def propertiesOf (schema : Json) : List (Str × Json) :=
  match schema.get? (lit "properties") with
  | some (.obj properties) => properties
  | _ => []

/-- A property of an object schema. -/
def PropertyEdge (schema child : Json) : Prop :=
  hasType schema "object" = true ∧ ∃ name, (name, child) ∈ propertiesOf schema

/-- The items of an array schema. -/
def ItemsEdge (schema item : Json) : Prop :=
  hasType schema "array" = true ∧ schema.get? (lit "items") = some item

/-- A schema below another one, through properties and array items. -/
def Below : Json → Json → Prop :=
  ReflTransGen fun schema child => PropertyEdge schema child ∨ ItemsEdge schema child

/-- A schema object with a type and a description that is not blank. -/
structure Documented (child : Json) : Prop where
  schema : child.isObj = true
  description : strippedText child "description" ≠ []
  typed : (child.get? (lit "type")).isSome = true

def DocumentedProperties (schema : Json) : Prop :=
  ∀ child, PropertyEdge schema child → Documented child

/-- The properties of a schema are in an object, and each is documented. -/
def Described (schema : Json) : Prop :=
  (∀ value, schema.get? (lit "properties") = some value → value.isObj = true) ∧ DocumentedProperties schema

section Checks

variable {schema child : Json} {fields children : List (Str × Json)} {path : Str}

theorem checkChild_ok : checkChild child path = .ok () ↔ Documented child := by
  unfold checkChild
  constructor
  · intro h
    split_ifs at h with plain blank untyped
    rw [Option.isNone_iff_eq_none] at untyped
    exact ⟨by simpa using plain, blank, Option.isSome_iff_ne_none.mpr untyped⟩
  · rintro ⟨object, described, typed⟩
    have present := Option.isSome_iff_ne_none.mp typed
    rw [if_neg (by simp [object]), if_neg described, if_neg (by simpa using present)]

theorem validateFields_eq : validateFields fields path =
    match fields.lookup (lit "properties") with
    | some value => validateProperties value path
    | none => .ok () := by
  induction fields with
  | nil => rw [validateFields, List.lookup_nil]
  | cons field fields ih =>
    rw [validateFields, List.lookup_cons, ih]
    by_cases named : field.1 = lit "properties"
    · rw [if_pos named, beq_iff_eq.mpr named.symm]
    · rw [if_neg named, beq_eq_false_iff_ne.mpr (Ne.symm named)]

theorem validateChildren_ok : validateChildren children path = .ok () ↔
    ∀ entry ∈ children, Documented entry.2 ∧ (hasType entry.2 "object" = true →
      validatePropertyDescriptions entry.2 (childPath path entry.1) = .ok ()) := by
  induction children with
  | nil => simp [validateChildren]
  | cons entry children ih =>
    rw [validateChildren, List.forall_mem_cons, ← ih]
    constructor
    · intro h
      obtain ⟨_, checked, h⟩ := Except.bind_eq_ok.mp h
      obtain ⟨_, below, rest⟩ := Except.bind_eq_ok.mp h
      refine ⟨⟨checkChild_ok.mp checked, fun object => ?_⟩, rest⟩
      rwa [if_pos object] at below
    · rintro ⟨⟨documented, below⟩, rest⟩
      refine Except.bind_eq_ok.mpr ⟨(), checkChild_ok.mpr documented, Except.bind_eq_ok.mpr ⟨(), ?_, rest⟩⟩
      split
      next object => exact below object
      next => rfl

theorem validatePropertyDescriptions_ok (object : hasType schema "object" = true) :
    validatePropertyDescriptions schema path = .ok () ↔
      (∀ value, schema.get? (lit "properties") = some value → value.isObj = true) ∧
      ∀ entry ∈ propertiesOf schema, Documented entry.2 ∧ (hasType entry.2 "object" = true →
        validatePropertyDescriptions entry.2 (childPath path entry.1) = .ok ()) := by
  cases schema with
  | obj fields =>
    rw [validatePropertyDescriptions, validateFields_eq, propertiesOf, Json.get?]
    cases found : fields.lookup (lit "properties") with
    | none => simp
    | some value =>
      cases value with
      | obj properties =>
        simp [validateProperties, validateChildren_ok, Json.isObj]
      | _ => simp [validateProperties, Json.isObj]
  | _ => cases object

theorem described_of_ok (object : hasType schema "object" = true)
    (h : validatePropertyDescriptions schema path = .ok ()) : Described schema := by
  obtain ⟨properties, each⟩ := (validatePropertyDescriptions_ok object).mp h
  refine ⟨properties, ?_⟩
  rintro child ⟨-, name, mem⟩
  exact (each _ mem).1

/-- The object schemas that are reached through properties alone are described. -/
theorem described_of_reached {reached : Json} (below : ReflTransGen PropertyEdge schema reached)
    (h : hasType schema "object" = true → ∃ path, validatePropertyDescriptions schema path = .ok ())
    (object : hasType reached "object" = true) : Described reached := by
  induction below using ReflTransGen.head_induction_on with
  | refl =>
    obtain ⟨path, checked⟩ := h object
    exact described_of_ok object checked
  | head edge _ ih =>
    obtain ⟨outer, name, mem⟩ := edge
    obtain ⟨path, checked⟩ := h outer
    obtain ⟨-, each⟩ := (validatePropertyDescriptions_ok outer).mp checked
    exact ih fun inner => ⟨_, (each _ mem).2 inner⟩

theorem ok_of_described (object : hasType schema "object" = true)
    (h : ∀ reached, ReflTransGen PropertyEdge schema reached → hasType reached "object" = true →
      Described reached) : validatePropertyDescriptions schema path = .ok () := by
  induction schema using Json.nestedInduction generalizing path with
  | atom schema _ plain =>
    cases schema with
    | obj fields => exact absurd rfl (plain fields)
    | _ => rfl
  | list items _ => rfl
  | obj fields _ ih =>
    obtain ⟨properties, documented⟩ := h _ .refl object
    refine (validatePropertyDescriptions_ok object).mpr ⟨properties, fun entry mem => ?_⟩
    have edge : PropertyEdge (.obj fields) entry.2 := ⟨object, entry.1, mem⟩
    refine ⟨documented _ edge, fun inner => ?_⟩
    unfold propertiesOf at mem
    split at mem
    next children found =>
      obtain ⟨before, after, split, -⟩ := List.lookup_eq_some_iff.mp found
      have field : (lit "properties", Json.obj children) ∈ fields := by simp [split]
      exact ih _ field children rfl entry mem inner fun reached below => h reached (.head edge below)
    next => cases mem

theorem validatePropertyDescriptions_iff (object : hasType schema "object" = true) :
    validatePropertyDescriptions schema path = .ok () ↔
      ∀ reached, ReflTransGen PropertyEdge schema reached → hasType reached "object" = true →
        Described reached :=
  ⟨fun h _ below => described_of_reached below fun _ => ⟨path, h⟩, ok_of_described object⟩

theorem validateChildren_error {e : ProviderError} (h : validateChildren children path = .error e) :
    ∃ entry ∈ children, checkChild entry.2 (childPath path entry.1) = .error e ∨
      validatePropertyDescriptions entry.2 (childPath path entry.1) = .error e := by
  induction children with
  | nil => cases h
  | cons entry children ih =>
    rw [validateChildren] at h
    rcases Except.bind_eq_error.mp h with failed | ⟨_, -, h⟩
    · exact ⟨entry, List.mem_cons_self, Or.inl failed⟩
    · rcases Except.bind_eq_error.mp h with failed | ⟨_, -, h⟩
      · split at failed
        next => exact ⟨entry, List.mem_cons_self, Or.inr failed⟩
        next => cases failed
      · obtain ⟨later, mem, failed⟩ := ih h
        exact ⟨later, List.mem_cons_of_mem entry mem, failed⟩

theorem checkChild_error {e : ProviderError} (h : checkChild child path = .error e) :
    ∃ rest, e = toolSchemaError (path ++ rest) := by
  unfold checkChild at h
  split_ifs at h <;> exact ⟨_, (Except.error.inj h).symm⟩

/-- An error names a place below the one that is checked. -/
theorem validatePropertyDescriptions_error {e : ProviderError}
    (h : validatePropertyDescriptions schema path = .error e) :
    ∃ rest, e = toolSchemaError (path ++ rest) := by
  induction schema using Json.nestedInduction generalizing path with
  | atom schema _ plain =>
    cases schema with
    | obj fields => exact absurd rfl (plain fields)
    | _ => cases h
  | list items _ => cases h
  | obj fields _ ih =>
    rw [validatePropertyDescriptions, validateFields_eq] at h
    split at h
    next value found =>
      obtain ⟨before, after, split, -⟩ := List.lookup_eq_some_iff.mp found
      cases value with
      | obj properties =>
        rw [validateProperties] at h
        obtain ⟨entry, mem, failed⟩ := validateChildren_error h
        have named : ∃ rest, e = toolSchemaError (childPath path entry.1 ++ rest) := by
          rcases failed with failed | failed
          · exact checkChild_error failed
          · have field : (lit "properties", Json.obj properties) ∈ fields := by simp [split]
            exact ih _ field properties rfl entry mem failed
        obtain ⟨rest, named⟩ := named
        refine ⟨lit "." ++ (entry.1 ++ rest), ?_⟩
        rw [named, childPath, List.append_assoc, List.append_assoc]
      | _ =>
        cases h
        exact ⟨_, rfl⟩
    next => cases h

end Checks

section Accepted

variable {α : Type*} {R S : α → α → Prop} {tool : Json}

/-- A path either keeps to one relation, or there is a first step of the other one. -/
theorem reflTransGen_or {x y : α} : ReflTransGen (fun a b => R a b ∨ S a b) x y ↔
    ReflTransGen R x y ∨ ∃ a b, ReflTransGen R x a ∧ S a b ∧
      ReflTransGen (fun a b => R a b ∨ S a b) b y := by
  constructor
  · intro h
    induction h using ReflTransGen.head_induction_on with
    | refl => exact Or.inl .refl
    | head edge rest ih =>
      rcases edge with kept | other
      · rcases ih with along | ⟨a, b, before, step, after⟩
        · exact Or.inl (.head kept along)
        · exact Or.inr ⟨a, b, .head kept before, step, after⟩
      · exact Or.inr ⟨_, _, .refl, other, rest⟩
  · rintro (along | ⟨a, b, before, step, after⟩)
    · exact ReflTransGen.mono (fun _ _ => Or.inl) x y along
    · exact (ReflTransGen.mono (fun _ _ => Or.inl) x a before).trans (.head (Or.inr step) after)

def toolParameters (tool : Json) : Json :=
  (tool.get (lit "function")).get (lit "parameters")

theorem validateToolSchema_ok (h : validateToolSchema tool = .ok ()) :
    hasType (toolParameters tool) "object" = true ∧
      validatePropertyDescriptions (toolParameters tool) (lit "parameters") = .ok () := by
  unfold validateToolSchema at h
  dsimp only at h
  split_ifs at h with function name description parameters
  rw [not_or] at parameters
  exact ⟨Bool.not_eq_false _ ▸ parameters.2, h⟩

/-- The properties of an accepted tool are documented at every depth exactly if those below array
items are. -/
theorem validateToolSchema_documented (accepted : validateToolSchema tool = .ok ()) :
    (∀ schema, Below (toolParameters tool) schema → DocumentedProperties schema) ↔
      ∀ array item schema, ReflTransGen PropertyEdge (toolParameters tool) array →
        ItemsEdge array item → Below item schema → DocumentedProperties schema := by
  obtain ⟨object, checked⟩ := validateToolSchema_ok accepted
  have described := (validatePropertyDescriptions_iff object).mp checked
  constructor
  · intro documented array item schema above edge below
    exact documented schema (reflTransGen_or.mpr (Or.inr ⟨array, item, above, edge, below⟩))
  · intro items schema below
    rcases reflTransGen_or.mp below with along | ⟨array, item, above, edge, rest⟩
    · rintro child ⟨inner, mem⟩
      exact (described schema along inner).2 child ⟨inner, mem⟩
    · exact items array item schema above edge rest

end Accepted

section Rows

def rowId : Json :=
  .object [("type", .str (lit "string"))]

def rowSchema : Json :=
  .object [("type", .str (lit "object")), ("properties", .object [("id", rowId)])]

def rowsParameter : Json :=
  .object [("type", .str (lit "array")), ("description", .str (lit "Rows to add")), ("items", rowSchema)]

/-- A tool with one parameter, whose items are objects. -/
def rowsTool : Json :=
  .object [("function", .object [("name", .str (lit "add_rows")), ("description", .str (lit "Add rows")),
    ("parameters", .object [("type", .str (lit "object")), ("properties", .object [("rows", rowsParameter)])])])]

theorem validateToolSchema_documented_rows :
    (∀ schema, Below (toolParameters rowsTool) schema → DocumentedProperties schema) ↔
      ∀ array item schema, ReflTransGen PropertyEdge (toolParameters rowsTool) array →
        ItemsEdge array item → Below item schema → DocumentedProperties schema :=
  validateToolSchema_documented (by rfl)

/-- The property of the items of an accepted tool has no description. -/
theorem validateToolSchema_undocumented : validateToolSchema rowsTool = .ok () ∧
    Below (toolParameters rowsTool) rowSchema ∧ PropertyEdge rowSchema rowId ∧ ¬ Documented rowId := by
  have listed : propertiesOf (toolParameters rowsTool) = [(lit "rows", rowsParameter)] := by rfl
  have listed' : propertiesOf rowSchema = [(lit "id", rowId)] := by rfl
  have rows : PropertyEdge (toolParameters rowsTool) rowsParameter :=
    ⟨by rfl, lit "rows", by rw [listed, List.mem_singleton]⟩
  have items : ItemsEdge rowsParameter rowSchema := ⟨by rfl, by rfl⟩
  have row : PropertyEdge rowSchema rowId := ⟨by rfl, lit "id", by rw [listed', List.mem_singleton]⟩
  have below : Below (toolParameters rowsTool) rowSchema :=
    .tail (.single (Or.inl rows)) (Or.inr items)
  exact ⟨by rfl, below, row, fun documented => documented.description (by rfl)⟩

end Rows

end EdgecaseForge

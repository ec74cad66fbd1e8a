import EdgecaseForge.FloatCore
import EdgecaseForge.TextCore

open Text

/-- A decoded JSON value. The fields of an object keep their order. -/
inductive Json
  | null
  | bool (b : Bool)
  | int (n : Int)
  | float (x : Binary64.Double)
  | str (s : Str)
  | list (items : List Json)
  | obj (fields : List (Str × Json))

namespace Json

theorem inductionOn {P : Json → Prop} (j : Json) (atom : ∀ j, (∀ items, j ≠ .list items) →
    (∀ fields, j ≠ .obj fields) → P j) (list : ∀ items, (∀ x ∈ items, P x) → P (.list items))
    (obj : ∀ fields, (∀ field ∈ fields, P field.2) → P (.obj fields)) : P j := by
  refine Json.rec (motive_1 := P) (motive_2 := fun items => ∀ x ∈ items, P x)
    (motive_3 := fun fields => ∀ field ∈ fields, P field.2) (motive_4 := fun field => P field.2)
    ?_ ?_ ?_ ?_ ?_ list obj ?_ ?_ ?_ ?_ ?_ j
  · exact atom _ nofun nofun
  · exact fun b => atom _ nofun nofun
  · exact fun n => atom _ nofun nofun
  · exact fun x => atom _ nofun nofun
  · exact fun s => atom _ nofun nofun
  · nofun
  · exact fun x items hx hs => List.forall_mem_cons.mpr ⟨hx, hs⟩
  · nofun
  · exact fun field fields hf hs => List.forall_mem_cons.mpr ⟨hf, hs⟩
  · exact fun key x hx => hx

theorem nestedInduction {P : Json → Prop} (j : Json) (atom : ∀ j, (∀ items, j ≠ .list items) →
    (∀ fields, j ≠ .obj fields) → P j) (list : ∀ items, (∀ x ∈ items, P x) → P (.list items))
    (obj : ∀ fields, (∀ field ∈ fields, P field.2) →
      (∀ field ∈ fields, ∀ inner, field.2 = .obj inner → ∀ entry ∈ inner, P entry.2) → P (.obj fields)) :
    P j := by
  suffices both : P j ∧ ∀ inner, j = .obj inner → ∀ entry ∈ inner, P entry.2 from both.1
  induction j using inductionOn with
  | atom j single plain => exact ⟨atom j single plain, fun inner same => absurd same (plain inner)⟩
  | list items ih => exact ⟨list items fun x mem => (ih x mem).1, nofun⟩
  | obj fields ih =>
    refine ⟨obj fields (fun field mem => (ih field mem).1) fun field mem => (ih field mem).2, ?_⟩
    rintro inner same entry mem
    cases same
    exact (ih entry mem).1

def get? (j : Json) (key : Str) : Option Json :=
  match j with
  | .obj fields => fields.lookup key
  | _ => none

/-- `dict.get`: an absent entry reads as `None`. -/
def get (j : Json) (key : Str) : Json :=
  (j.get? key).getD .null

/-- The value of a dictionary display. -/
def object (fields : List (String × Json)) : Json :=
  .obj (fields.map fun field => (lit field.1, field.2))

@[simp] theorem get?_object (fields : List (String × Json)) (key : String) :
    (object fields).get? (lit key) = fields.lookup key := by
  induction fields with
  | nil => rfl
  | cons field fields ih =>
    obtain ⟨name, value⟩ := field
    change List.lookup (lit key) ((lit name, value) :: _) = List.lookup key ((name, value) :: fields)
    rw [List.lookup_cons, List.lookup_cons]
    by_cases h : key = name
    · simp [h]
    · have h' : lit key ≠ lit name := fun he => h (lit_inj.mp he)
      rw [beq_eq_false_iff_ne.mpr h, beq_eq_false_iff_ne.mpr h']
      exact ih

@[simp] theorem get_object (fields : List (String × Json)) (key : String) :
    (object fields).get (lit key) = (fields.lookup key).getD .null := by
  rw [get, get?_object]

def isObj : Json → Bool
  | .obj _ => true
  | _ => false

@[simp] theorem isObj_object (fields : List (String × Json)) : (object fields).isObj = true := rfl

/-- The number a value counts as in arithmetic comparisons. -/
def rat? : Json → Option ℚ
  | .bool b => some (if b then 1 else 0)
  | .int n => some n
  | .float (.finite f) => some f.value
  | _ => none

/-- `bool(value)`. -/
def truthy : Json → Bool
  | .null => false
  | .bool b => b
  | .int n => n != 0
  | .float (.finite f) => f.mag != 0
  | .float _ => true
  | .str s => !s.isEmpty
  | .list items => !items.isEmpty
  | .obj fields => !fields.isEmpty

def isNaN : Json → Bool
  | .float .nan => true
  | _ => false

mutual

/-- `==` on decoded values: numbers by value, objects without regard to order. -/
def pyEq : Json → Json → Bool
  | .null, .null => true
  | .str s, .str t => s == t
  | .list xs, .list ys => pyEqItems xs ys
  | .obj xs, .obj ys => xs.length == ys.length && pyEqFields xs ys
  | .float (.infinite a), .float (.infinite b) => a == b
  | a, b =>
    match a.rat?, b.rat? with
    | some p, some q => p == q
    | _, _ => false

/-- An entry of a container is equal to itself even where `==` says otherwise, and the decoder
has one NaN only. -/
def pyEqItems : List Json → List Json → Bool
  | [], [] => true
  | x :: xs, y :: ys => (x.isNaN && y.isNaN || pyEq x y) && pyEqItems xs ys
  | _, _ => false

/-- Every field of the first object has an equal one in the second. -/
def pyEqFields : List (Str × Json) → List (Str × Json) → Bool
  | [], _ => true
  | (key, x) :: xs, ys =>
    (match ys.lookup key with
      | some y => x.isNaN && y.isNaN || pyEq x y
      | none => false) && pyEqFields xs ys

end

mutual

/-- No object has a key twice. -/
def distinct : Json → Bool
  | .list items => distinctItems items
  | .obj fields => decide (fields.map Prod.fst).Nodup && distinctFields fields
  | _ => true

def distinctItems : List Json → Bool
  | [] => true
  | x :: xs => distinct x && distinctItems xs

def distinctFields : List (Str × Json) → Bool
  | [] => true
  | (_, x) :: xs => distinct x && distinctFields xs

end

mutual

/-- The texts in a value, keys included. -/
def strings : Json → List Str
  | .str s => [s]
  | .list items => stringsItems items
  | .obj fields => stringsFields fields
  | _ => []

def stringsItems : List Json → List Str
  | [] => []
  | x :: xs => strings x ++ stringsItems xs

def stringsFields : List (Str × Json) → List Str
  | [] => []
  | (key, x) :: xs => key :: (strings x ++ stringsFields xs)

end

section Objects

theorem distinctItems_eq_true {items : List Json} :
    distinctItems items = true ↔ ∀ x ∈ items, x.distinct = true := by
  induction items with
  | nil => simp [distinctItems]
  | cons x xs ih => simp [distinctItems, ih]

theorem distinctFields_eq_true {fields : List (Str × Json)} :
    distinctFields fields = true ↔ ∀ field ∈ fields, field.2.distinct = true := by
  induction fields with
  | nil => simp [distinctFields]
  | cons field fields ih => simp [distinctFields, ih]

@[simp] theorem distinct_null : null.distinct = true := rfl

@[simp] theorem distinct_bool (b : Bool) : (bool b).distinct = true := rfl

@[simp] theorem distinct_int (n : Int) : (int n).distinct = true := rfl

@[simp] theorem distinct_float (x : Binary64.Double) : (float x).distinct = true := rfl

@[simp] theorem distinct_str (s : Str) : (str s).distinct = true := rfl

theorem distinct_map {α : Type} {f : α → Json} (h : ∀ a, (f a).distinct = true) (xs : List α) :
    (list (xs.map f)).distinct = true := by
  simp only [distinct, distinctItems_eq_true]
  intro x hx
  obtain ⟨a, -, rfl⟩ := List.mem_map.mp hx
  exact h a

theorem distinct_object {fields : List (String × Json)} (hn : (fields.map Prod.fst).Nodup)
    (h : ∀ field ∈ fields, field.2.distinct = true) : (object fields).distinct = true := by
  have keys : ((fields.map fun field => (lit field.1, field.2)).map Prod.fst).Nodup := by
    rw [List.map_map, show (Prod.fst ∘ fun field : String × Json => (lit field.1, field.2)) =
      lit ∘ Prod.fst from rfl, ← List.map_map]
    exact hn.map fun a b hab => lit_inj.mp hab
  simp only [object, distinct, Bool.and_eq_true, decide_eq_true_eq, distinctFields_eq_true]
  refine ⟨keys, fun field hf => ?_⟩
  obtain ⟨entry, he, rfl⟩ := List.mem_map.mp hf
  exact h entry he

theorem mem_stringsItems {items : List Json} {s : Str} :
    s ∈ stringsItems items ↔ ∃ x ∈ items, s ∈ x.strings := by
  induction items with
  | nil => simp [stringsItems]
  | cons x xs ih => simp [stringsItems, ih]

theorem mem_stringsFields {fields : List (Str × Json)} {s : Str} :
    s ∈ stringsFields fields ↔ ∃ field ∈ fields, s = field.1 ∨ s ∈ field.2.strings := by
  induction fields with
  | nil => simp [stringsFields]
  | cons field fields ih =>
    obtain ⟨key, x⟩ := field
    simp [stringsFields, ih, or_assoc]

theorem mem_strings_object {fields : List (String × Json)} {s : Str} :
    s ∈ (object fields).strings ↔ ∃ field ∈ fields, s = lit field.1 ∨ s ∈ field.2.strings := by
  simp only [object, strings, mem_stringsFields, List.mem_map]
  constructor
  · rintro ⟨_, ⟨field, hf, rfl⟩, h⟩
    exact ⟨field, hf, h⟩
  · rintro ⟨field, hf, h⟩
    exact ⟨_, ⟨field, hf, rfl⟩, h⟩

end Objects

end Json

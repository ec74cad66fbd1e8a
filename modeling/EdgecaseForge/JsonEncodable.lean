import EdgecaseForge.JsonLines

namespace Text

theorem isUnicode_lit (s : String) : isUnicode (lit s) = true := by
  rw [lit_eq]
  refine List.all_eq_true.mpr fun c hc => ?_
  obtain ⟨char, -, rfl⟩ := List.mem_map.mp hc
  have scalar : char.val.toNat < 0xD800 ∨ 0xDFFF < char.val.toNat ∧ char.val.toNat < 0x110000 := char.valid
  have value : (ofChar char).val = char.val.toNat := rfl
  simp only [isSurrogate, Bool.not_eq_true', Bool.and_eq_false_iff, decide_eq_false_iff_not, value]
  omega

end Text

namespace Json

open Text

/-- A value that has a text in UTF-8: its integers can be written, and its strings have no surrogates. -/
def encodable (j : Json) : Bool :=
  j.printable && j.strings.all isUnicode

section Encodable

variable {L : Layout} {j : Json} {depth : Nat}

theorem encodable_printable (h : j.encodable = true) : j.printable = true :=
  (Bool.and_eq_true_iff.mp h).1

theorem encodable_strings (h : j.encodable = true) : ∀ s ∈ j.strings, isUnicode s = true :=
  List.all_eq_true.mp (Bool.and_eq_true_iff.mp h).2

theorem isPlain_scalar {c : CodePoint} (h : isPlain c = true) : isSurrogate c.val = false := by
  simp only [isPlain, Bool.and_eq_true, decide_eq_true_eq] at h
  simp only [isSurrogate, Bool.and_eq_false_iff, decide_eq_false_iff_not]
  omega

/-- A layout that escapes as Python does writes no surrogate of its own. -/
theorem encode_isUnicode (prints : L.Prints fun c => isSurrogate c.val = false) (escapes : L.escape = escape)
    (h : j.encodable = true) : isUnicode (encode L depth j) = true := by
  refine List.all_eq_true.mpr fun c hc => ?_
  rw [Bool.not_eq_true']
  refine encode_forall prints j depth (fun s hs c hc e he => ?_) c hc
  rw [escapes] at he
  rcases escape_cases c e he with plain | ⟨rfl, -⟩
  · exact isPlain_scalar plain
  · have scalar := List.all_eq_true.mp (encodable_strings h s hs) e hc
    rwa [Bool.not_eq_true'] at scalar

theorem encode_compact_isUnicode (h : j.encodable = true) : isUnicode (encode compact depth j) = true := by
  refine encode_isUnicode ⟨fun c => isPlain_scalar, ?_, ?_, ?_⟩ rfl h
  · intro depth c hc
    cases hc
  · exact List.forall_mem_singleton.mpr (by decide)
  · exact List.forall_mem_singleton.mpr (by decide)

theorem encode_indented_isUnicode (h : j.encodable = true) : isUnicode (encode indented depth j) = true := by
  refine encode_isUnicode ⟨fun c => isPlain_scalar, ?_, ?_, ?_⟩ rfl h
  · intro depth c hc
    rcases List.mem_cons.mp hc with rfl | hc
    · decide
    · cases List.eq_of_mem_replicate hc
      decide
  · intro c hc
    cases hc
  · exact List.forall_mem_singleton.mpr (by decide)

theorem encodable_obj {fields : List (Str × Json)} : (obj fields).encodable = true ↔
    ∀ field ∈ fields, isUnicode field.1 = true ∧ field.2.encodable = true := by
  simp only [encodable, printable, Bool.and_eq_true, printableFields_eq_true, strings, List.all_eq_true,
    mem_stringsFields]
  constructor
  · rintro ⟨printed, unicode⟩ field hf
    exact ⟨unicode _ ⟨field, hf, Or.inl rfl⟩, printed field hf, fun s hs => unicode s ⟨field, hf, Or.inr hs⟩⟩
  · intro h
    refine ⟨fun field hf => (h field hf).2.1, ?_⟩
    rintro s ⟨field, hf, rfl | hs⟩
    · exact (h field hf).1
    · exact (h field hf).2.2 s hs

theorem encodable_object {fields : List (String × Json)} : (object fields).encodable = true ↔
    ∀ value ∈ fields.map Prod.snd, value.encodable = true := by
  simp only [object, encodable_obj, List.forall_mem_map]
  exact forall₂_congr fun field _ => and_iff_right (isUnicode_lit field.1)

theorem encodable_list {items : List Json} :
    (list items).encodable = true ↔ ∀ x ∈ items, x.encodable = true := by
  simp only [encodable, printable, Bool.and_eq_true, printableItems_eq_true, strings, List.all_eq_true,
    mem_stringsItems]
  constructor
  · rintro ⟨printed, unicode⟩ x hx
    exact ⟨printed x hx, fun s hs => unicode s ⟨x, hx, hs⟩⟩
  · intro h
    refine ⟨fun x hx => (h x hx).1, ?_⟩
    rintro s ⟨x, hx, hs⟩
    exact (h x hx).2 s hs

@[simp] theorem encodable_str {s : Str} : (str s).encodable = isUnicode s := by
  simp [encodable, printable, strings]

@[simp] theorem encodable_bool (b : Bool) : (bool b).encodable = true := rfl

@[simp] theorem encodable_null : null.encodable = true := rfl

@[simp] theorem encodable_float (x : Binary64.Double) : (float x).encodable = true := rfl

end Encodable

section SortKeys

theorem mem_sortKeysItems {items : List Json} {x : Json} :
    x ∈ sortKeysItems items ↔ ∃ y ∈ items, x = y.sortKeys := by
  induction items with
  | nil => simp [sortKeysItems]
  | cons y items ih => simp [sortKeysItems, ih]

theorem mem_sortKeysFields {fields : List (Str × Json)} {field : Str × Json} :
    field ∈ sortKeysFields fields ↔ ∃ f ∈ fields, field = (f.1, f.2.sortKeys) := by
  induction fields with
  | nil => simp [sortKeysFields]
  | cons f fields ih => simp [sortKeysFields, ih]

theorem printable_sortKeys {j : Json} (h : j.printable = true) : j.sortKeys.printable = true := by
  induction j using Json.inductionOn with
  | atom j single plain =>
    cases j with
    | list items => exact absurd rfl (single items)
    | obj fields => exact absurd rfl (plain fields)
    | _ => exact h
  | list items ih =>
    simp only [sortKeys, printable, printableItems_eq_true, mem_sortKeysItems] at h ⊢
    rintro x ⟨y, hy, rfl⟩
    exact ih y hy (h y hy)
  | obj fields ih =>
    simp only [sortKeys, printable, printableFields_eq_true, List.mem_insertionSort, mem_sortKeysFields] at h ⊢
    rintro field ⟨f, hf, rfl⟩
    exact ih f hf (h f hf)

end SortKeys

section Ascii

variable {L : Layout}

theorem asciiEscape_plain {c e : CodePoint} (he : e ∈ asciiEscape c) : isPlain e = true := by
  have hex : ∀ n, ∀ e ∈ hexEscape n, isPlain e = true := by
    intro n e he
    simp only [hexEscape, List.mem_cons, List.not_mem_nil, or_false] at he
    rcases he with rfl | rfl | rfl | rfl | rfl | rfl
    · decide
    · decide
    all_goals exact hexDigit_plain _
  unfold asciiEscape at he
  split at he
  next letter short =>
    simp only [List.mem_cons, List.not_mem_nil, or_false] at he
    rcases he with rfl | rfl
    · decide
    · exact shortEscape_plain short
  next =>
    split at he
    next visible =>
      cases List.mem_singleton.mp he
      simpa [isPlain] using visible
    next =>
      split at he
      · exact hex _ e he
      · rcases List.mem_append.mp he with he | he
        · exact hex _ e he
        · exact hex _ e he

/-- ASCII escapes leave no surrogate. -/
theorem encode_ascii_isUnicode (prints : L.Prints fun c => isSurrogate c.val = false) (escapes : L.escape = asciiEscape)
    (j : Json) (depth : Nat) : isUnicode (encode L depth j) = true := by
  refine List.all_eq_true.mpr fun c hc => ?_
  rw [Bool.not_eq_true']
  refine encode_forall prints j depth (fun s hs c hc e he => ?_) c hc
  rw [escapes] at he
  exact isPlain_scalar (asciiEscape_plain he)

theorem encode_minimal_isUnicode (j : Json) (depth : Nat) : isUnicode (encode minimal depth j) = true := by
  refine encode_ascii_isUnicode ⟨fun c => isPlain_scalar, ?_, ?_, ?_⟩ rfl j depth
  · intro depth c hc
    cases hc
  · intro c hc
    cases hc
  · intro c hc
    cases hc

end Ascii

end Json

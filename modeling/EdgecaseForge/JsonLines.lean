import EdgecaseForge.JsonRoundTrip
import EdgecaseForge.TextUtf8

namespace Json

open Text Decimal

/-- Visible ASCII and the space. -/
def isPlain (c : CodePoint) : Bool :=
  0x20 ≤ c.val && c.val ≤ 0x7E

/-- What holds of the code points that a layout itself writes. -/
structure Layout.Prints (L : Layout) (P : CodePoint → Prop) : Prop where
  plain : ∀ c, isPlain c = true → P c
  pad : ∀ depth, ∀ c ∈ L.pad depth, P c
  afterComma : ∀ c ∈ L.afterComma, P c
  afterColon : ∀ c ∈ L.afterColon, P c

section Printed

variable {L : Layout} {P : CodePoint → Prop}

theorem isPlain_digit {c : CodePoint} (h : isDigit c = true) : isPlain c = true := by
  simp only [isDigit, isPlain, Bool.and_eq_true, decide_eq_true_eq] at h ⊢
  omega

theorem plain_of_all {s : Str} (h : s.all isPlain = true) : ∀ c ∈ s, isPlain c = true :=
  List.all_eq_true.mp h

theorem literal_plain {l : Literal} (wf : l.Wf) : ∀ c ∈ l.text, isPlain c = true := by
  have whole : ∀ c ∈ l.whole, isDigit c = true := by
    rcases wf.whole with zero | ⟨d, tail, he, _, hd, ht⟩
    · rw [zero]
      exact List.forall_mem_singleton.mpr (by decide)
    · rw [he]
      intro c hc
      rcases List.mem_cons.mp hc with rfl | hc
      · exact hd
      · exact ht c hc
  intro c hc
  simp only [Literal.text, List.mem_append] at hc
  rcases hc with ((hc | hc) | hc) | hc
  · split at hc
    · cases List.mem_singleton.mp hc
      decide
    · simp at hc
  · exact isPlain_digit (whole c hc)
  · split at hc
    · simp at hc
    · rcases List.mem_cons.mp hc with rfl | hc
      · decide
      · exact isPlain_digit (wf.frac c hc)
  · cases hx : l.exp with
    | none =>
      rw [hx] at hc
      simp [Literal.expText] at hc
    | some e =>
      obtain ⟨neg, digits⟩ := e
      rw [hx] at hc
      rcases List.mem_cons.mp hc with rfl | hc
      · decide
      · rcases List.mem_cons.mp hc with rfl | hc
        · cases neg <;> decide
        · exact isPlain_digit ((wf.exp neg digits hx).2 c hc)

theorem floatText_plain (x : Binary64.Double) : ∀ c ∈ floatText x, isPlain c = true := by
  cases x with
  | finite f => exact literal_plain f.literal_wf
  | infinite neg => cases neg <;> exact plain_of_all (by decide)
  | nan => exact plain_of_all (by decide)

theorem quote_forall (hP : L.Prints P) {s : Str} (h : ∀ c ∈ s, ∀ e ∈ L.escape c, P e) :
    ∀ c ∈ L.quote s, P c := by
  have mark : P quoteMark := hP.plain _ (by decide)
  intro c hc
  simp only [Layout.quote, List.mem_cons, List.mem_append, List.mem_flatMap, List.not_mem_nil,
    or_false] at hc
  rcases hc with rfl | ⟨d, hd, hc⟩ | rfl
  · exact mark
  · exact h d hd c hc
  · exact mark

theorem next_forall (hP : L.Prints P) (d : Nat) : ∀ c ∈ L.next d, P c := by
  intro c hc
  simp only [Layout.next, List.mem_cons, List.mem_append] at hc
  rcases hc with rfl | hc | hc
  · exact hP.plain _ (by decide)
  · exact hP.afterComma c hc
  · exact hP.pad d c hc

theorem colon_forall (hP : L.Prints P) : ∀ c ∈ colon :: L.afterColon, P c := by
  intro c hc
  rcases List.mem_cons.mp hc with rfl | hc
  · exact hP.plain _ (by decide)
  · exact hP.afterColon c hc

mutual

/-- What holds of the layout and of the escaped strings holds of the whole text. -/
theorem encode_forall (hP : L.Prints P) (j : Json) (d : Nat)
    (h : ∀ s ∈ j.strings, ∀ c ∈ s, ∀ e ∈ L.escape c, P e) : ∀ c ∈ encode L d j, P c := by
  have plain : ∀ t : Str, (∀ c ∈ t, isPlain c = true) → ∀ c ∈ t, P c :=
    fun t ht c hc => hP.plain c (ht c hc)
  cases j with
  | null => exact plain (lit "null") (plain_of_all (by decide))
  | bool b =>
    cases b with
    | true => exact plain (lit "true") (plain_of_all (by decide))
    | false => exact plain (lit "false") (plain_of_all (by decide))
  | int n =>
    rw [encode, ← intLiteral_text]
    exact plain _ (literal_plain (intLiteral_wf n))
  | float x => exact plain _ (floatText_plain x)
  | str s => exact quote_forall hP (h s List.mem_cons_self)
  | list items =>
    cases items with
    | nil => exact plain [openBracket, closeBracket] (plain_of_all (by decide))
    | cons x xs =>
      have hx := encode_forall hP x (d + 1) fun s hs => h s (List.mem_append_left _ hs)
      have hxs := encodeItems_forall hP xs (d + 1) fun s hs => h s (List.mem_append_right _ hs)
      simp only [encode, List.mem_cons, List.mem_append, List.not_mem_nil, or_false]
      rintro c (rfl | hc | hc | hc | hc | rfl)
      · exact hP.plain _ (by decide)
      · exact hP.pad _ c hc
      · exact hx c hc
      · exact hxs c hc
      · exact hP.pad _ c hc
      · exact hP.plain _ (by decide)
  | obj fields =>
    cases fields with
    | nil => exact plain [openBrace, closeBrace] (plain_of_all (by decide))
    | cons field xs =>
      rcases hfield : field with ⟨key, x⟩
      subst hfield
      have hk := quote_forall hP (h key List.mem_cons_self)
      have hx := encode_forall hP x (d + 1) fun s hs =>
        h s (List.mem_cons_of_mem _ (List.mem_append_left _ hs))
      have hxs := encodeFields_forall hP xs (d + 1) fun s hs =>
        h s (List.mem_cons_of_mem _ (List.mem_append_right _ hs))
      have hc := colon_forall hP
      simp only [encode, List.mem_cons, List.mem_append, List.not_mem_nil, or_false]
      rintro c (rfl | hm | hm | rfl | hm | hm | hm | hm | rfl)
      · exact hP.plain _ (by decide)
      · exact hP.pad _ c hm
      · exact hk c hm
      · exact hc _ List.mem_cons_self
      · exact hc c (List.mem_cons_of_mem _ hm)
      · exact hx c hm
      · exact hxs c hm
      · exact hP.pad _ c hm
      · exact hP.plain _ (by decide)
termination_by sizeOf j

theorem encodeItems_forall (hP : L.Prints P) (xs : List Json) (d : Nat)
    (h : ∀ s ∈ stringsItems xs, ∀ c ∈ s, ∀ e ∈ L.escape c, P e) :
    ∀ c ∈ encodeItems L d xs, P c := by
  cases xs with
  | nil => simp [encodeItems]
  | cons x xs =>
    have hx := encode_forall hP x d fun s hs => h s (List.mem_append_left _ hs)
    have hxs := encodeItems_forall hP xs d fun s hs => h s (List.mem_append_right _ hs)
    simp only [encodeItems, List.mem_append]
    rintro c (hc | hc | hc)
    · exact next_forall hP d c hc
    · exact hx c hc
    · exact hxs c hc
termination_by sizeOf xs

theorem encodeFields_forall (hP : L.Prints P) (xs : List (Str × Json)) (d : Nat)
    (h : ∀ s ∈ stringsFields xs, ∀ c ∈ s, ∀ e ∈ L.escape c, P e) :
    ∀ c ∈ encodeFields L d xs, P c := by
  cases xs with
  | nil => simp [encodeFields]
  | cons field xs =>
    rcases hfield : field with ⟨key, x⟩
    subst hfield
    have hk := quote_forall hP (h key List.mem_cons_self)
    have hx := encode_forall hP x d fun s hs =>
      h s (List.mem_cons_of_mem _ (List.mem_append_left _ hs))
    have hxs := encodeFields_forall hP xs d fun s hs =>
      h s (List.mem_cons_of_mem _ (List.mem_append_right _ hs))
    have hc := colon_forall hP
    simp only [encodeFields, List.mem_cons, List.mem_append]
    rintro c (hm | hm | rfl | hm | hm | hm)
    · exact next_forall hP d c hm
    · exact hk c hm
    · exact hc _ List.mem_cons_self
    · exact hc c (List.mem_cons_of_mem _ hm)
    · exact hx c hm
    · exact hxs c hm
termination_by sizeOf xs

end

end Printed

section Contained

variable {L : Layout} {c : CodePoint}

theorem mem_quote {s : Str} (hc : c ∈ s) (he : L.escape c = [c]) : c ∈ L.quote s := by
  have escaped : c ∈ s.flatMap L.escape :=
    List.mem_flatMap.mpr ⟨c, hc, he ▸ List.mem_singleton_self c⟩
  exact List.mem_cons_of_mem _ (List.mem_append_left _ escaped)

mutual

/-- What a string holds unescaped is in the text. -/
theorem mem_encode (he : L.escape c = [c]) (j : Json) (d : Nat)
    (h : ∃ s ∈ j.strings, c ∈ s) : c ∈ encode L d j := by
  obtain ⟨s, hs, hc⟩ := h
  cases j with
  | null => simp [strings] at hs
  | bool b => simp [strings] at hs
  | int n => simp [strings] at hs
  | float x => simp [strings] at hs
  | str t =>
    cases List.mem_singleton.mp hs
    exact mem_quote hc he
  | list items =>
    cases items with
    | nil => simp [strings, stringsItems] at hs
    | cons x xs =>
      simp only [encode, List.mem_cons, List.mem_append]
      rcases List.mem_append.mp hs with hs | hs
      · exact .inr (.inr (.inl (mem_encode he x (d + 1) ⟨s, hs, hc⟩)))
      · exact .inr (.inr (.inr (.inl (mem_encodeItems he xs (d + 1) ⟨s, hs, hc⟩))))
  | obj fields =>
    cases fields with
    | nil => simp [strings, stringsFields] at hs
    | cons field xs =>
      rcases hfield : field with ⟨key, x⟩
      subst hfield
      simp only [encode, List.mem_cons, List.mem_append]
      rcases List.mem_cons.mp hs with rfl | hs
      · exact .inr (.inr (.inl (mem_quote hc he)))
      · rcases List.mem_append.mp hs with hs | hs
        · have hx := mem_encode he x (d + 1) ⟨s, hs, hc⟩
          exact .inr (.inr (.inr (.inr (.inr (.inl hx)))))
        · have hxs := mem_encodeFields he xs (d + 1) ⟨s, hs, hc⟩
          exact .inr (.inr (.inr (.inr (.inr (.inr (.inl hxs))))))
termination_by sizeOf j

theorem mem_encodeItems (he : L.escape c = [c]) (xs : List Json) (d : Nat)
    (h : ∃ s ∈ stringsItems xs, c ∈ s) : c ∈ encodeItems L d xs := by
  obtain ⟨s, hs, hc⟩ := h
  cases xs with
  | nil => simp [stringsItems] at hs
  | cons x xs =>
    simp only [encodeItems, List.mem_append]
    rcases List.mem_append.mp hs with hs | hs
    · exact .inr (.inl (mem_encode he x d ⟨s, hs, hc⟩))
    · exact .inr (.inr (mem_encodeItems he xs d ⟨s, hs, hc⟩))
termination_by sizeOf xs

theorem mem_encodeFields (he : L.escape c = [c]) (xs : List (Str × Json)) (d : Nat)
    (h : ∃ s ∈ stringsFields xs, c ∈ s) : c ∈ encodeFields L d xs := by
  obtain ⟨s, hs, hc⟩ := h
  cases xs with
  | nil => simp [stringsFields] at hs
  | cons field xs =>
    rcases hfield : field with ⟨key, x⟩
    subst hfield
    simp only [encodeFields, List.mem_append, List.mem_cons]
    rcases List.mem_cons.mp hs with rfl | hs
    · exact .inr (.inl (mem_quote hc he))
    · rcases List.mem_append.mp hs with hs | hs
      · exact .inr (.inr (.inr (.inr (.inl (mem_encode he x d ⟨s, hs, hc⟩)))))
      · exact .inr (.inr (.inr (.inr (.inr (mem_encodeFields he xs d ⟨s, hs, hc⟩)))))
termination_by sizeOf xs

end

end Contained

section Lines

theorem hexDigit_plain (n : Nat) : isPlain (hexDigit n) = true := by
  unfold hexDigit isPlain
  split <;> simp <;> omega

theorem shortEscape_plain {c letter : CodePoint} (h : shortEscape c = some letter) :
    isPlain letter = true := by
  unfold shortEscape at h
  split_ifs at h <;> cases h <;> decide

/-- Escaping leaves nothing below the space, and past ASCII only what was there. -/
theorem escape_cases (c : CodePoint) :
    ∀ e ∈ escape c, isPlain e = true ∨ e = c ∧ 0x7F ≤ c.val := by
  intro e he
  unfold escape at he
  cases hs : shortEscape c with
  | some letter =>
    rw [hs] at he
    simp only [List.mem_cons, List.not_mem_nil, or_false] at he
    rcases he with rfl | rfl
    · exact .inl (by decide)
    · exact .inl (shortEscape_plain hs)
  | none =>
    rw [hs] at he
    dsimp only at he
    split at he
    next =>
      simp only [hexEscape, List.mem_cons, List.not_mem_nil, or_false] at he
      rcases he with rfl | rfl | rfl | rfl | rfl | rfl
      · exact .inl (by decide)
      · exact .inl (by decide)
      all_goals exact .inl (hexDigit_plain _)
    next low =>
      cases List.mem_singleton.mp he
      by_cases high : 0x7F ≤ c.val
      · exact .inr ⟨rfl, high⟩
      · refine .inl ?_
        simp only [isPlain, Bool.and_eq_true, decide_eq_true_eq]
        omega

theorem escape_high {c : CodePoint} (h : 0x7F ≤ c.val) : escape c = [c] := by
  have short : shortEscape c = none := by
    cases hs : shortEscape c with
    | none => rfl
    | some letter =>
      unfold shortEscape at hs
      split_ifs at hs <;> subst_vars <;> exact absurd h (by decide)
  have low : ¬ c.val < 0x20 := by omega
  unfold escape
  rw [short]
  simp [low]

/-- The text of a value on one line: ASCII from the space on, and what its strings hold. -/
theorem encode_compact (j : Json) (d : Nat) : ∀ c ∈ encode compact d j,
    isPlain c = true ∨ 0x7F ≤ c.val ∧ ∃ s ∈ j.strings, c ∈ s := by
  have prints : compact.Prints fun c =>
      isPlain c = true ∨ 0x7F ≤ c.val ∧ ∃ s ∈ j.strings, c ∈ s :=
    ⟨fun c hc => .inl hc, by simp [compact], by simp [compact]; decide, by simp [compact]; decide⟩
  apply encode_forall prints
  intro s hs c hc e he
  rcases escape_cases c e he with plain | ⟨rfl, high⟩
  · exact .inl plain
  · exact .inr ⟨high, s, hs, hc⟩

/-- A text file with a written value reads the same under universal newlines. -/
theorem encode_indented (j : Json) (d : Nat) :
    ∀ c ∈ encode indented d j, c ≠ carriageReturn := by
  have plain : ∀ c, isPlain c = true → c ≠ carriageReturn := by
    rintro c hc rfl
    exact absurd hc (by decide)
  have prints : indented.Prints (· ≠ carriageReturn) := by
    refine ⟨plain, ?_, by simp [indented], by simp [indented]; decide⟩
    intro depth c hc
    rcases List.mem_cons.mp hc with rfl | hc
    · decide
    · cases List.eq_of_mem_replicate hc
      decide
  apply encode_forall prints
  intro s hs c hc e he
  rcases escape_cases c e he with hp | ⟨rfl, high⟩
  · exact plain e hp
  · rintro rfl
    exact absurd high (by decide)

/-- A text holds no code point past ASCII that ends a line. -/
def KeepsLine (s : Str) : Prop :=
  ∀ c ∈ s, c ≠ 0x85 ∧ c ≠ 0x2028 ∧ c ≠ 0x2029

instance (s : Str) : Decidable (KeepsLine s) :=
  decidable_of_iff (s.all (fun c => c != 0x85 && (c != 0x2028 && c != 0x2029)) = true)
    (by simp [KeepsLine])

theorem keepsLine_of_ascii {s : Str} (h : ∀ c ∈ s, c.val < 0x80) : KeepsLine s := by
  intro c hc
  have low := h c hc
  refine ⟨?_, ?_, ?_⟩ <;> rintro rfl <;> exact absurd low (by decide)

/-- All strings of a value stay on their line. -/
def LineSafe (j : Json) : Prop :=
  ∀ s ∈ j.strings, KeepsLine s

theorem isLineBreak_plain {c : CodePoint} (h : isPlain c = true) : isLineBreak c = false := by
  simp only [isPlain, Bool.and_eq_true, decide_eq_true_eq] at h
  have below : ∀ d : CodePoint, d.val < 0x20 ∨ 0x7E < d.val → c ≠ d := by
    rintro d hd rfl
    omega
  have low : ∀ d : CodePoint, d.val < 0x20 → ¬ c ≤ d := by
    intro d hd hc
    have : c.val ≤ d.val := hc
    omega
  simp [isLineBreak, below 0x85 (by decide), below 0x2028 (by decide), below 0x2029 (by decide),
    low 0x0D (by decide), low 0x1E (by decide)]

theorem isLineBreak_high {c : CodePoint} (h : 0x7F ≤ c.val) (hc : isLineBreak c = true) :
    c = 0x85 ∨ c = 0x2028 ∨ c = 0x2029 := by
  have low : ∀ d : CodePoint, d.val < 0x7F → ¬ c ≤ d := by
    intro d hd hle
    have : c.val ≤ d.val := hle
    omega
  simpa [isLineBreak, low 0x0D (by decide), low 0x1E (by decide), or_assoc] using hc

/-- A value is written on one line exactly if its strings end none. -/
theorem lineSafe_iff (j : Json) (d : Nat) :
    j.LineSafe ↔ ∀ c ∈ encode compact d j, isLineBreak c = false := by
  constructor
  · intro safe c hc
    rcases encode_compact j d c hc with plain | ⟨high, s, hs, hm⟩
    · exact isLineBreak_plain plain
    · by_contra broken
      obtain ⟨h1, h2, h3⟩ := safe s hs c hm
      rcases isLineBreak_high high (by simpa using broken) with rfl | rfl | rfl
      · exact h1 rfl
      · exact h2 rfl
      · exact h3 rfl
  · intro unbroken s hs c hc
    have written : 0x7F ≤ c.val → isLineBreak c = false := fun high =>
      unbroken c (mem_encode (escape_high high) j d ⟨s, hs, hc⟩)
    refine ⟨?_, ?_, ?_⟩ <;> rintro rfl <;> exact absurd (written (by decide)) (by decide)

theorem lineBreak_ne_carriageReturn {j : Json} {d : Nat} {c : CodePoint}
    (h : c ∈ encode compact d j) : c ≠ carriageReturn := by
  rintro rfl
  rcases encode_compact j d _ h with plain | ⟨high, _⟩
  · exact absurd plain (by decide)
  · exact absurd high (by decide)

@[simp] theorem lineSafe_null : null.LineSafe := by
  simp [LineSafe, strings]

@[simp] theorem lineSafe_bool (b : Bool) : (bool b).LineSafe := by
  simp [LineSafe, strings]

@[simp] theorem lineSafe_int (n : Int) : (int n).LineSafe := by
  simp [LineSafe, strings]

@[simp] theorem lineSafe_float (x : Binary64.Double) : (float x).LineSafe := by
  simp [LineSafe, strings]

@[simp] theorem lineSafe_str {s : Str} : (str s).LineSafe ↔ KeepsLine s := by
  simp [LineSafe, strings]

theorem lineSafe_list {items : List Json} : (list items).LineSafe ↔ ∀ x ∈ items, x.LineSafe := by
  simp only [LineSafe, strings, mem_stringsItems]
  constructor
  · intro h x hx s hs
    exact h s ⟨x, hx, hs⟩
  · rintro h s ⟨x, hx, hs⟩
    exact h x hx s hs

theorem lineSafe_object {fields : List (String × Json)} : (object fields).LineSafe ↔
    (∀ name ∈ fields.map Prod.fst, KeepsLine (lit name)) ∧
      ∀ value ∈ fields.map Prod.snd, value.LineSafe := by
  simp only [LineSafe, mem_strings_object, List.mem_map]
  constructor
  · intro h
    refine ⟨?_, ?_⟩
    · rintro name ⟨field, hf, rfl⟩
      exact h _ ⟨field, hf, Or.inl rfl⟩
    · rintro value ⟨field, hf, rfl⟩ s hs
      exact h s ⟨field, hf, Or.inr hs⟩
  · rintro ⟨names, values⟩ s ⟨field, hf, rfl | hs⟩
    · exact names _ ⟨field, hf, rfl⟩
    · exact values _ ⟨field, hf, rfl⟩ s hs

end Lines

end Json

import EdgecaseForge.CaseBuilds

namespace EdgecaseForge

open Text Occurrences

section Edits

/-- Edits that are made one after the other, each where its target stands first in a text that has it once. -/
inductive Edited : List Json → Str → Str → Prop
  | nil (s : Str) : Edited [] s s
  | cons {edit : Json} {edits : List Json} {needle replacement before after out : Str}
      (find : subscript edit "find" = .ok (.str needle))
      (replace : subscript edit "replace" = .ok (.str replacement))
      (once : count needle (before ++ (needle ++ after)) = 1)
      (first : ∀ left right, before ++ (needle ++ after) = left ++ (needle ++ right) → before.length ≤ left.length)
      (rest : Edited edits (before ++ (replacement ++ after)) out) :
      Edited (edit :: edits) (before ++ (needle ++ after)) out

theorem textOf_ok {value : Json} {text : Str} (h : textOf value = .ok text) : value = .str text := by
  cases value with
  | str other =>
    cases h
    rfl
  | _ => cases h

theorem exists_cut {needle text : Str} (once : count needle text = 1) :
    ∃ before after, cut needle text = some (before, after) := by
  by_cases filled : needle = []
  · subst filled
    rw [count_nil] at once
    obtain rfl := List.length_eq_zero_iff.mp (by omega : text.length = 0)
    exact ⟨[], [], rfl⟩
  · obtain ⟨before, after, found, -⟩ := (count_eq_one filled).mp once
    exact ⟨before, after, found⟩

theorem applyEdit_ok {caseId text out : Str} {edit : Json} : applyEdit caseId edit text = .ok out ↔
    ∃ needle replacement before after, subscript edit "find" = .ok (.str needle) ∧
      subscript edit "replace" = .ok (.str replacement) ∧ count needle text = 1 ∧
      cut needle text = some (before, after) ∧ before ++ (replacement ++ after) = out := by
  constructor
  · intro h
    obtain ⟨value, found, h⟩ := Except.bind_eq_ok.mp h
    obtain ⟨needle, isText, h⟩ := Except.bind_eq_ok.mp h
    rw [textOf_ok isText] at found
    dsimp only at h
    split at h
    next => cases h
    next once =>
      obtain ⟨value, given, h⟩ := Except.bind_eq_ok.mp h
      obtain ⟨replacement, isText, h⟩ := Except.bind_eq_ok.mp h
      rw [textOf_ok isText] at given
      rw [ne_eq, not_not] at once
      obtain ⟨before, after, at_⟩ := exists_cut once
      cases h
      exact ⟨needle, replacement, before, after, found, given, once, at_, (replaceFirst_of_cut at_).symm⟩
  · rintro ⟨needle, replacement, before, after, found, given, once, at_, rfl⟩
    simp only [applyEdit, found, given, textOf, Except.ok_bind, once, ne_eq, not_true_eq_false, if_false,
      replaceFirst_of_cut at_]
    rfl

theorem applyEdits_ok {caseId text out : Str} {edits : List Json} :
    applyEdits caseId edits text = .ok out ↔ Edited edits text out := by
  induction edits generalizing text with
  | nil =>
    constructor
    · intro h
      cases h
      exact .nil _
    · intro h
      cases h
      rfl
  | cons edit edits ih =>
    rw [applyEdits, Except.bind_eq_ok]
    constructor
    · rintro ⟨mutated, hm, h⟩
      obtain ⟨needle, replacement, before, after, found, given, once, at_, rfl⟩ := applyEdit_ok.mp hm
      obtain rfl := cut_append at_
      exact .cons found given once (fun left right other => cut_first at_ other) (ih.mp h)
    · intro h
      cases h with
      | cons found given once first rest =>
        obtain ⟨left, right, at_⟩ := exists_cut once
        obtain ⟨rfl, rfl⟩ := cut_unique at_ rfl first
        exact ⟨_, applyEdit_ok.mpr ⟨_, _, _, _, found, given, once, at_, rfl⟩, ih.mpr rest⟩

end Edits

section Variants

variable {source : Str} {mutants : List (Str × Json)} {variants : List (Str × Str)}

/-- The texts of the cases of a mutation map. -/
def caseVariants (source : Str) : List (Str × Json) → Except PyError (List (Str × Str))
  | [] => .ok []
  | mutant :: mutants => do
    let mutated ← mutatedSource source mutant
    let variants ← caseVariants source mutants
    pure ((mutant.1, mutated) :: variants)

theorem caseVariants_cons {mutant : Str × Json} : caseVariants source (mutant :: mutants) = .ok variants ↔
    ∃ mutated rest, mutatedSource source mutant = .ok mutated ∧ caseVariants source mutants = .ok rest ∧
      (mutant.1, mutated) :: rest = variants := by
  rw [caseVariants, Except.bind_eq_ok]
  constructor
  · rintro ⟨mutated, hm, h⟩
    obtain ⟨rest, hr, h⟩ := Except.bind_eq_ok.mp h
    exact ⟨mutated, rest, hm, hr, Except.ok.inj h⟩
  · rintro ⟨mutated, rest, hm, hr, rfl⟩
    exact ⟨mutated, hm, Except.bind_eq_ok.mpr ⟨rest, hr, rfl⟩⟩

/-- The text of a case is the source with the edits of the case. -/
def CaseText (source : Str) (mutant : Str × Json) (variant : Str × Str) : Prop :=
  variant.1 = mutant.1 ∧ ∃ edits, iterated mutant.2 = .ok edits ∧ Edited edits source variant.2

theorem caseVariants_ok : caseVariants source mutants = .ok variants ↔
    List.Forall₂ (CaseText source) mutants variants := by
  induction mutants generalizing variants with
  | nil =>
    rw [List.forall₂_nil_left_iff, caseVariants]
    simp [eq_comm]
  | cons mutant mutants ih =>
    rw [caseVariants_cons, List.forall₂_cons_left_iff]
    constructor
    · rintro ⟨mutated, rest, hm, hr, rfl⟩
      obtain ⟨edits, listed, edited⟩ := Except.bind_eq_ok.mp hm
      exact ⟨_, rest, ⟨rfl, edits, listed, applyEdits_ok.mp edited⟩, ih.mp hr, rfl⟩
    · rintro ⟨⟨caseId, mutated⟩, rest, ⟨same, edits, listed, edited⟩, hr, rfl⟩
      cases same
      exact ⟨mutated, rest, Except.bind_eq_ok.mpr ⟨edits, listed, applyEdits_ok.mpr edited⟩, ih.mpr hr, rfl⟩

theorem caseVariants_ids (h : caseVariants source mutants = .ok variants) :
    variants.map Prod.fst = mutants.map Prod.fst := by
  induction mutants generalizing variants with
  | nil =>
    cases h
    rfl
  | cons mutant mutants ih =>
    obtain ⟨mutated, rest, -, hr, rfl⟩ := caseVariants_cons.mp h
    rw [List.map_cons, List.map_cons, ih hr]

end Variants

end EdgecaseForge

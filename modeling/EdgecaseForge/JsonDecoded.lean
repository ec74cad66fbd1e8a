import EdgecaseForge.JsonLocal

namespace Json

open Text

section Fields

variable {fields pairs : List (Str × Json)} {field : Str × Json}

theorem keys_setField (fields : List (Str × Json)) (field : Str × Json) :
    (setField fields field).map Prod.fst =
      if field.1 ∈ fields.map Prod.fst then fields.map Prod.fst else fields.map Prod.fst ++ [field.1] := by
  unfold setField
  split
  next =>
    rw [List.map_map]
    refine List.map_congr_left fun old _ => ?_
    rw [Function.comp_apply]
    split
    next h => exact h.symm
    next => rfl
  next => simp

theorem setField_nodup (h : (fields.map Prod.fst).Nodup) :
    ((setField fields field).map Prod.fst).Nodup := by
  rw [keys_setField]
  split
  next => exact h
  next fresh => exact List.nodup_append.mpr ⟨h, by simp, fun a ha b hb => by
    rw [List.mem_singleton.mp hb]
    exact fun same => fresh (same ▸ ha)⟩

theorem mem_setField {entry : Str × Json} (h : entry ∈ setField fields field) :
    entry = field ∨ entry ∈ fields := by
  unfold setField at h
  split at h
  next =>
    obtain ⟨old, ho, rfl⟩ := List.mem_map.mp h
    split
    next => exact Or.inl rfl
    next => exact Or.inr ho
  next =>
    rcases List.mem_append.mp h with h | h
    · exact Or.inr h
    · exact Or.inl (List.mem_singleton.mp h)

/-- A decoded object has each key once. -/
theorem ofPairs_distinct (h : ∀ pair ∈ pairs, pair.2.distinct = true) :
    (ofPairs pairs).distinct = true := by
  have all : ∀ (fields : List (Str × Json)), (fields.map Prod.fst).Nodup →
      (∀ pair ∈ fields, pair.2.distinct = true) →
      ((pairs.foldl setField fields).map Prod.fst).Nodup ∧
        ∀ pair ∈ pairs.foldl setField fields, pair.2.distinct = true := by
    induction pairs with
    | nil => exact fun fields hn hd => ⟨hn, hd⟩
    | cons pair pairs ih =>
      intro fields hn hd
      refine ih (fun p hp => h p (List.mem_cons_of_mem pair hp)) _ (setField_nodup hn) ?_
      intro entry he
      rcases mem_setField he with rfl | he
      · exact h _ List.mem_cons_self
      · exact hd entry he
  obtain ⟨keys, values⟩ := all [] List.nodup_nil (by simp)
  rw [ofPairs, distinct, Bool.and_eq_true]
  exact ⟨decide_eq_true keys, distinctFields_eq_true.mpr values⟩

end Fields

section Scan

variable {s r : Str} {j : Json}

theorem scanAtom_distinct (h : scanAtom s = .ok (j, r)) : j.distinct = true := by
  unfold scanAtom at h
  split at h
  next name value found =>
    cases h
    have listed := List.mem_of_find?_eq_some found
    revert listed
    simp only [constants, List.mem_cons, List.not_mem_nil, or_false]
    rintro (h | h | h | h | h | h) <;> rw [(Prod.mk.inj h).2] <;> rfl
  next =>
    unfold scanNumber at h
    split at h
    · cases h
    · split at h
      · split at h
        · cases h
          rfl
        · cases h
      · cases h
        rfl

theorem scan_distinct (fuel : Nat) :
    (∀ depth s j r, scanValue fuel depth s = .ok (j, r) → j.distinct = true) ∧
    (∀ depth s items r, scanItems fuel depth s = .ok (items, r) → ∀ x ∈ items, x.distinct = true) ∧
    ∀ depth s pairs r, scanFields fuel depth s = .ok (pairs, r) → ∀ p ∈ pairs, p.2.distinct = true := by
  induction fuel with
  | zero =>
    refine ⟨?_, ?_, ?_⟩
    · intro depth s j r h
      rw [scanValue.eq_def] at h
      cases h
    · intro depth s items r h
      rw [scanItems] at h
      cases h
    · intro depth s pairs r h
      rw [scanFields] at h
      cases h
  | succ fuel ih =>
    obtain ⟨values, items, fields⟩ := ih
    refine ⟨?_, ?_, ?_⟩
    · intro depth s j r h
      cases scanValue_cases h with
      | string => rfl
      | noFields => rfl
      | fields _ hf => exact ofPairs_distinct (fields _ _ _ _ hf)
      | noItems => rfl
      | items _ hi => exact distinctItems_eq_true.mpr (items _ _ _ _ hi)
      | atom _ _ _ ha => exact scanAtom_distinct ha
    · intro depth s xs r h
      obtain ⟨x, t, hx, ⟨-, rfl⟩ | ⟨u, rest, -, hr, rfl⟩⟩ := scanItems_cases h
      · simpa using values _ _ _ _ hx
      · exact List.forall_mem_cons.mpr ⟨values _ _ _ _ hx, items _ _ _ _ hr⟩
    · intro depth s xs r h
      obtain ⟨key, v, w, x, t, -, -, -, hx, ⟨-, rfl⟩ | ⟨u, rest, -, hr, rfl⟩⟩ := scanFields_cases h
      · simpa using values _ _ _ _ hx
      · exact List.forall_mem_cons.mpr ⟨values _ _ _ _ hx, fields _ _ _ _ hr⟩

/-- What the decoder reads has no key twice in an object. -/
theorem loads_distinct (h : loads s = .ok j) : j.distinct = true := by
  unfold loads loadsWithin at h
  split at h
  · cases h
  · obtain ⟨⟨value, rest⟩, hv, h⟩ := Except.bind_eq_ok.mp h
    dsimp only at h
    split at h
    · cases h
      exact (scan_distinct _).1 _ _ _ _ hv
    · cases h

end Scan

end Json

import EdgecaseForge.CheckedManifests
import EdgecaseForge.FrozenSuites
import EdgecaseForge.RebuiltCases

namespace EdgecaseForge

open Text Effect Program

section Hashes

variable {hashes : Dict Str Sha256.Digest} {fields : List (Str × Json)} {expected : Json} {u : Unit}

/-- The hashes are equal to decoded ones exactly if they are the same for every case. -/
theorem hashesPayload_pyEq (once : (fields.map Prod.fst).Nodup) :
    (hashesPayload hashes).pyEq (.obj fields) = true ↔
      ∀ id, fields.lookup id = (hashes.get? id).map fun digest => .str digest.text := by
  constructor
  · intro h id
    rw [← hashesPayload_eq]
    cases found : (hashesPayload hashes).get? id with
    | some value =>
      obtain ⟨y, hy, same⟩ := Json.get?_right_of_pyEq h rfl found
      rw [hashesPayload_eq, Option.map_eq_some_iff] at found
      obtain ⟨digest, -, rfl⟩ := found
      rw [← Json.str_matchesEntry same]
      exact hy
    | none =>
      cases other : fields.lookup id with
      | none => rfl
      | some y =>
        obtain ⟨x, hx, -⟩ := Json.get?_left_of_pyEq h (hashesPayload_distinct hashes) rfl other
        rw [found] at hx
        cases hx
  · intro same
    have listed : ∀ id, id ∈ hashes.keys ↔ id ∈ fields.map Prod.fst := by
      intro id
      rw [← not_iff_not, ← Dict.get?_eq_none_iff, ← lookup_eq_none, same id, Option.map_eq_none_iff]
    have perm : hashes.keys.Perm (fields.map Prod.fst) :=
      (List.perm_ext_iff_of_nodup hashes.nodup once).mpr listed
    rw [hashesPayload, Json.pyEq, Bool.and_eq_true, Json.pyEqFields_eq_true, beq_iff_eq]
    refine ⟨by simpa [Dict.keys] using perm.length_eq, fun field hf => ?_⟩
    obtain ⟨entry, hm, rfl⟩ := List.mem_map.mp hf
    refine ⟨.str entry.2.text, ?_, by simp [Json.matchesEntry, Json.pyEq]⟩
    have found : hashes.get? entry.1 = some entry.2 := Dict.get?_of_mem hm
    rw [same, found, Option.map_some]

theorem sameIds_iff {ids : List Str} : sameIds (ids.map .str) = true ↔ ∀ id, id ∈ ids ↔ id ∈ caseIds := by
  simp only [sameIds, Bool.and_eq_true, List.all_eq_true, List.any_eq_true, pyEq_text, List.mem_map]
  constructor
  · rintro ⟨complete, known⟩ id
    constructor
    · intro hm
      obtain ⟨other, listed, same⟩ := known (.str id) ⟨id, hm, rfl⟩
      cases same
      exact listed
    · intro hm
      obtain ⟨key, ⟨other, listed, rfl⟩, same⟩ := complete id hm
      cases same
      exact listed
  · intro same
    refine ⟨fun id hm => ⟨.str id, ⟨id, (same id).mpr hm, rfl⟩, rfl⟩, ?_⟩
    rintro _ ⟨id, hm, rfl⟩
    exact ⟨id, (same id).mp hm, rfl⟩

/-- The hashes that pass are those of the cases of the benchmark, and no others. -/
theorem expected_ok (distinct : expected.distinct = true) :
    checkExpected expected = .ok u ∧ (hashesPayload hashes).pyEq expected = true ↔
      ∃ fields, expected = .obj fields ∧ (∀ id, id ∈ hashes.keys ↔ id ∈ caseIds) ∧
        ∀ id, fields.lookup id = (hashes.get? id).map fun digest => .str digest.text := by
  have keys : ∀ {fields : List (Str × Json)},
      (∀ id, fields.lookup id = (hashes.get? id).map fun digest => .str digest.text) →
      ∀ id, id ∈ fields.map Prod.fst ↔ id ∈ hashes.keys := by
    intro fields same id
    rw [← not_iff_not, ← Dict.get?_eq_none_iff, ← lookup_eq_none, same id, Option.map_eq_none_iff]
  simp only [checkExpected, Except.bind_eq_ok, Except.check_eq_ok]
  constructor
  · rintro ⟨⟨items, listed, -, -, -, complete, values, given, -⟩, equal⟩
    cases expected with
    | obj fields =>
      cases listed
      rw [Json.distinct, Bool.and_eq_true, decide_eq_true_eq] at distinct
      have same := (hashesPayload_pyEq distinct.1).mp equal
      refine ⟨fields, rfl, fun id => ?_, same⟩
      rw [← keys same id]
      refine sameIds_iff.mp ?_ id
      rwa [List.map_map]
    | _ => cases given
  · rintro ⟨fields, rfl, complete, same⟩
    rw [Json.distinct, Bool.and_eq_true, decide_eq_true_eq] at distinct
    refine ⟨⟨_, rfl, (), ?_, (), ?_, _, rfl, ?_⟩, (hashesPayload_pyEq distinct.1).mpr same⟩
    · simp [isHashable]
    · have ids := sameIds_iff.mpr fun id => (keys same id).trans (complete id)
      rwa [List.map_map] at ids
    · refine List.all_eq_true.mpr fun value hv => ?_
      obtain ⟨field, hf, rfl⟩ := List.mem_map.mp hv
      have found := (Json.lookup_of_mem distinct.1 hf).symm.trans (same field.1)
      obtain ⟨digest, -, text⟩ := Option.map_eq_some_iff.mp found.symm
      rw [← text, isHashText, digest.length]
      rfl

end Hashes

section Ids

variable {root output : Path} {source : Str} {mutants : List (Str × Json)}
  {hashes result : Dict Str Sha256.Digest} {t t' : FileTree}

/-- Every mutant of the mutation map is among the hashes, whatever its name. -/
theorem buildMutants_ids (h : (buildMutants output source mutants hashes).Returns t result t') :
    (∀ id ∈ hashes.keys, id ∈ result.keys) ∧ ∀ m ∈ mutants, m.1 ∈ result.keys := by
  induction mutants generalizing hashes t with
  | nil =>
    obtain ⟨rfl, -⟩ := returns_pure.mp h
    exact ⟨fun id hm => hm, List.forall_mem_nil _⟩
  | cons mutant mutants ih =>
    rw [buildMutants] at h
    obtain ⟨mutated, _, -, h⟩ := returns_bind.mp h
    obtain ⟨digest, _, -, h⟩ := returns_bind.mp h
    obtain ⟨kept, listed⟩ := ih h
    have set_ : ∀ id, id = mutant.1 ∨ id ∈ hashes.keys → id ∈ (hashes.set mutant.1 digest).keys := by
      intro id hid
      rw [← Dict.get?_isSome_iff, Dict.get?_set]
      split
      next => rfl
      next other => exact Dict.get?_isSome_iff.mpr (hid.resolve_left other)
    exact ⟨fun id hm => kept id (set_ id (Or.inr hm)),
      List.forall_mem_cons.mpr ⟨kept mutant.1 (set_ mutant.1 (Or.inl rfl)), listed⟩⟩

theorem buildAll_ids (h : (buildAll root).Returns t result t') {fields : List (Str × Json)}
    (read : readJson (mutationsPath root) t = .ok (.obj fields)) : ∀ f ∈ fields, f.1 ∈ result.keys := by
  rw [buildAll] at h
  obtain ⟨_, _, hr, h⟩ := returns_bind.mp h
  obtain ⟨-, rfl⟩ := returns_inspect.mp hr
  obtain ⟨value, _, hr, h⟩ := returns_bind.mp h
  obtain ⟨loaded, rfl⟩ := returns_inspect.mp hr
  rw [read] at loaded
  cases loaded
  obtain ⟨_, _, -, h⟩ := returns_bind.mp h
  obtain ⟨_, _, -, h⟩ := returns_bind.mp h
  obtain ⟨_, _, -, h⟩ := returns_bind.mp h
  obtain ⟨items, _, hl, h⟩ := returns_bind.mp h
  obtain ⟨listed, -⟩ := returns_lift.mp hl
  cases listed
  obtain ⟨hashes, _, hb, h⟩ := returns_bind.mp h
  obtain ⟨_, _, -, h⟩ := returns_bind.mp h
  obtain ⟨_, _, -, h⟩ := returns_bind.mp h
  obtain ⟨rfl, -⟩ := returns_pure.mp h
  exact (buildMutants_ids hb).2

theorem caseIds_safe : ∀ id ∈ caseIds, SafeName id := by
  have plain : ∀ id ∈ caseIds, id ≠ [] ∧ id ≠ lit "." ∧ id ≠ lit ".." ∧ slash ∉ id ∧
      (checkName id).isOk = true := by decide
  intro id hm
  obtain ⟨filled, dot, dots, flat, usable⟩ := plain id hm
  refine ⟨filled, dot, dots, flat, ?_⟩
  cases checked : checkName id with
  | ok u => rfl
  | error e =>
    rw [checked] at usable
    cases usable

end Ids

section Oracle

variable {oracle : Oracle} {fingerprint : Str} {cache cache' : OracleCache} {t t' : FileTree}

/-- The oracle tests need not run, or they run and pass. -/
def OraclePasses (oracle : Oracle) (fingerprint : Str) (cache : OracleCache) (t t' : FileTree) : Prop :=
  (cache.get? fingerprint = some () ∧ t = t') ∨
    (cache.get? fingerprint = none ∧ ∃ completed, oracle t = (t', .ok completed) ∧ completed.returncode = 0)

theorem runOraclePreflight_returns : (runOraclePreflight oracle fingerprint cache).Returns t cache' t' ↔
    OraclePasses oracle fingerprint cache t t' ∧ cache.touch fingerprint () = cache' := by
  rw [runOraclePreflight, OraclePasses]
  cases found : cache.get? fingerprint with
  | some passed =>
    dsimp only
    rw [returns_pure]
    simp [and_comm]
  | none =>
    constructor
    · intro h
      obtain ⟨completed, _, hr, h⟩ := returns_bind.mp h
      split at h
      next =>
        obtain ⟨failed, -⟩ := returns_lift.mp h
        cases failed
      next passed =>
        obtain ⟨rfl, rfl⟩ := returns_pure.mp h
        exact ⟨Or.inr ⟨rfl, completed, returns_act.mp hr, not_not.mp passed⟩, rfl⟩
    · rintro ⟨⟨⟨⟩, -⟩ | ⟨-, completed, ran, passed⟩, rfl⟩
      refine returns_bind.mpr ⟨completed, t', returns_act.mpr ran, ?_⟩
      rw [if_neg (not_not.mpr passed)]
      exact returns_pure.mpr ⟨rfl, rfl⟩

end Oracle

end EdgecaseForge

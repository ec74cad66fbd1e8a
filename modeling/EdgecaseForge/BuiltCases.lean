import EdgecaseForge.CaseEdits
import EdgecaseForge.WrittenFiles

namespace EdgecaseForge

open Text Effect Program Occurrences

/-- The bytes of a text that can be encoded. -/
def encoded (s : Str) : Bytes :=
  (utf8Encode s).getD []

/-- What the directory of a case holds. -/
def caseNode (source : Str) : Path → Option Node
  | [] => some .dir
  | [name] =>
    if name = lit "main.py" then some (.file (encoded source))
    else if name = lit "README.md" then some (.file (encoded neutralReadme))
    else if name = lit "pyproject.toml" then some (.file (encoded pyproject))
    else none
  | _ => none

theorem caseNode_readme (source : Str) :
    caseNode source [lit "README.md"] = some (.file (encoded neutralReadme)) := by
  simp [caseNode]

theorem caseNode_project (source : Str) :
    caseNode source [lit "pyproject.toml"] = some (.file (encoded pyproject)) := by
  simp [caseNode]

/-- What the output directory holds: the cases, and perhaps their hashes. -/
def builtNode (variants : List (Str × Str)) (hashes : Option Bytes) : Path → Option Node
  | [] => some .dir
  | name :: rest =>
    match variants.lookup name with
    | some source => caseNode source rest
    | none => if name = lit "hashes.json" ∧ rest = [] then hashes.map .file else none

/-- A directory holds what `node` tells, and nothing else. -/
def Shows (root : Path) (node : Path → Option Node) (t : FileTree) : Prop :=
  ∀ rest, t.get? (root ++ rest) = node rest

/-- A tree with the directory of a case in it. -/
def caseTree (output : Path) (t : FileTree) (variant : Str × Str) : FileTree :=
  let caseDir := output ++ [variant.1]
  Dict.set (Dict.set (Dict.set (Dict.set t caseDir .dir)
    (caseDir ++ [lit "main.py"]) (.file (encoded variant.2)))
    (caseDir ++ [lit "README.md"]) (.file (encoded neutralReadme)))
    (caseDir ++ [lit "pyproject.toml"]) (.file (encoded pyproject))

section Encoding

variable {s : Str} {bytes : Bytes}

theorem utf8Encode_eq_some : utf8Encode s = some bytes ↔ isUnicode s = true ∧ encoded s = bytes := by
  rw [encoded, ← utf8Encode_isSome]
  cases utf8Encode s <;> simp

theorem readText_file {p : Path} {t : FileTree} (unicode : isUnicode s = true)
    (file : t.get? p = some (.file (encoded s))) : readText p t = .ok (universalNewlines s) := by
  have decoded := utf8Decode_encode (utf8Encode_eq_some.mpr ⟨unicode, rfl⟩)
  simp only [readText, FileTree.readBytes, file, Except.ok_bind, decoded]

/-- A text without carriage returns is read as it was written. -/
theorem readText_plain {p : Path} {t : FileTree} (unicode : isUnicode s = true)
    (plain : ∀ c ∈ s, c ≠ carriageReturn) (file : t.get? p = some (.file (encoded s))) :
    readText p t = .ok s := by
  rw [readText_file unicode file, universalNewlines_of_forall plain]

theorem lineFeed_isUnicode : isUnicode [lineFeed] = true := by
  decide

theorem neutralReadme_isUnicode : isUnicode neutralReadme = true :=
  isUnicode_lit _

theorem pyproject_isUnicode : isUnicode pyproject = true :=
  isUnicode_lit _

theorem encode_asciiIndented_isUnicode (j : Json) (depth : Nat) :
    isUnicode (Json.encode asciiIndented depth j) = true := by
  refine Json.encode_ascii_isUnicode ⟨fun c => Json.isPlain_scalar, ?_, ?_, ?_⟩ rfl j depth
  · intro depth c hc
    rcases List.mem_cons.mp hc with rfl | hc
    · decide
    · cases List.eq_of_mem_replicate hc
      decide
  · intro c hc
    cases hc
  · exact List.forall_mem_singleton.mpr (by decide)

end Encoding

section Cases

variable {output : Path} {t t' : FileTree} {variants : List (Str × Str)} {caseId source : Str}
  {digest : Sha256.Digest}

theorem makeDir_returns {p : Path} {u : Unit} : (Disk.write (FileTree.makeDir p)).Returns t u t' ↔
    t.exists_ p = false ∧ t.isDir p.dropLast = true ∧ t.set p .dir = t' := by
  rw [Disk.write, returns_act]
  unfold FileTree.makeDir
  cases t.exists_ p <;> cases t.isDir p.dropLast <;> cases t.isFile p.dropLast <;> simp

theorem Shows.isDir {node : Path → Option Node} (shows_ : Shows output node t) (top : node [] = some .dir) :
    t.isDir output = true := by
  have at_ := shows_ []
  rw [List.append_nil, top] at at_
  exact isDir_of_get? at_

/-- The directory of a case is written where there is none yet. -/
theorem writeCase_returns (shows_ : Shows output (builtNode variants none) t) (safe : SafeName caseId) :
    (writeCase output caseId source).Returns t digest t' ↔ variants.lookup caseId = none ∧
      isUnicode source = true ∧ digest = Sha256.digest (encoded source) ∧
      caseTree output t (caseId, source) = t' := by
  have top : t.isDir output = true := shows_.isDir rfl
  rw [writeCase, safe.joinPath]
  constructor
  · intro h
    obtain ⟨_, made, hm, h⟩ := returns_bind.mp h
    obtain ⟨absent, -, rfl⟩ := makeDir_returns.mp hm
    obtain ⟨_, _, hw, h⟩ := returns_bind.mp h
    obtain ⟨-, bytes, unicode, rfl⟩ := writeText_returns.mp hw
    obtain ⟨known, rfl⟩ := utf8Encode_eq_some.mp unicode
    obtain ⟨_, _, hw, h⟩ := returns_bind.mp h
    obtain ⟨-, readme, hr, rfl⟩ := writeText_returns.mp hw
    obtain ⟨-, rfl⟩ := utf8Encode_eq_some.mp hr
    obtain ⟨_, _, hw, h⟩ := returns_bind.mp h
    obtain ⟨-, project, hp, rfl⟩ := writeText_returns.mp hw
    obtain ⟨-, rfl⟩ := utf8Encode_eq_some.mp hp
    obtain ⟨again, _, hl, h⟩ := returns_bind.mp h
    obtain ⟨he, rfl⟩ := returns_lift.mp hl
    obtain ⟨rfl, rfl⟩ := returns_pure.mp h
    have noEntry := FileTree.get?_of_not_exists absent
    rw [shows_ [caseId]] at noEntry
    refine ⟨?_, known, ?_, rfl⟩
    · cases found : variants.lookup caseId with
      | none => rfl
      | some other => simp [builtNode, found, caseNode] at noEntry
    · rw [(utf8Encode_eq_some.mp (encodeUtf8_ok he)).2]
  · rintro ⟨new, known, rfl, rfl⟩
    have free : ∀ rest, t.get? (output ++ caseId :: rest) = none := by
      intro rest
      rw [shows_ (caseId :: rest)]
      simp [builtNode, new]
    have openable : ∀ {T : FileTree} {name : Str}, T.get? (output ++ [caseId]) = some .dir →
        T.get? (output ++ [caseId] ++ [name]) = none → T.openable (output ++ [caseId] ++ [name]) = .ok () :=
      fun there none => openable_child (isDir_of_get? there) (isDir_child none)
    have inside : ∀ name, t.get? (output ++ [caseId] ++ [name]) = none := by
      intro name
      rw [List.append_assoc]
      exact free [name]
    refine returns_bind.mpr ⟨(), _, makeDir_returns.mpr ⟨exists_child (free []), ?_, rfl⟩, ?_⟩
    · rw [List.dropLast_concat]
      exact top
    refine returns_bind.mpr ⟨(), _, writeText_returns.mpr ⟨openable ?_ ?_, encoded source,
      utf8Encode_eq_some.mpr ⟨known, rfl⟩, rfl⟩, ?_⟩
    · exact Dict.get?_set_self _ _ _
    · rw [Dict.get?_set_ne (by simp), inside]
    refine returns_bind.mpr ⟨(), _, writeText_returns.mpr ⟨openable ?_ ?_, encoded neutralReadme,
      utf8Encode_eq_some.mpr ⟨neutralReadme_isUnicode, rfl⟩, rfl⟩, ?_⟩
    · rw [Dict.get?_set_ne (by simp), Dict.get?_set_self]
    · rw [Dict.get?_set_ne (by simp), Dict.get?_set_ne (by simp), inside]
    refine returns_bind.mpr ⟨(), _, writeText_returns.mpr ⟨openable ?_ ?_, encoded pyproject,
      utf8Encode_eq_some.mpr ⟨pyproject_isUnicode, rfl⟩, rfl⟩, ?_⟩
    · rw [Dict.get?_set_ne (by simp), Dict.get?_set_ne (by simp), Dict.get?_set_self]
    · rw [Dict.get?_set_ne (by simp), Dict.get?_set_ne (by simp), Dict.get?_set_ne (by simp), inside]
    refine returns_bind.mpr ⟨encoded source, _, returns_lift.mpr ⟨?_, rfl⟩, returns_pure.mpr ⟨rfl, rfl⟩⟩
    rw [encodeUtf8, utf8Encode_eq_some.mpr ⟨known, rfl⟩]

theorem caseTree_frame {q : Path} (h : ¬ output <+: q) (variant : Str × Str) :
    (caseTree output t variant).get? q = t.get? q := by
  have differ : ∀ rest, q ≠ output ++ rest := by
    rintro rest rfl
    exact h (List.prefix_append output rest)
  simp only [caseTree, List.append_assoc]
  rw [Dict.get?_set_ne (differ _), Dict.get?_set_ne (differ _), Dict.get?_set_ne (differ _),
    Dict.get?_set_ne (differ _)]

theorem shows_caseTree (shows_ : Shows output (builtNode variants none) t)
    (new : variants.lookup caseId = none) :
    Shows output (builtNode (variants ++ [(caseId, source)]) none) (caseTree output t (caseId, source)) := by
  intro rest
  have before := shows_ rest
  simp only [caseTree, List.append_assoc, List.cons_append, List.nil_append, Dict.get?_set,
    List.append_cancel_left_eq]
  cases rest with
  | nil => simpa [builtNode] using before
  | cons name rest =>
    have looked : (variants ++ [(caseId, source)]).lookup name =
        if name = caseId then some source else variants.lookup name := by
      rw [List.lookup_append]
      by_cases same : name = caseId
      · simp [same, new]
      · simp [List.lookup_cons, same, beq_eq_false_iff_ne.mpr same]
    by_cases same : name = caseId
    · subst same
      have none : t.get? (output ++ name :: rest) = none := by
        rw [before]
        simp [builtNode, new]
      rw [none]
      simp only [builtNode, looked, if_pos]
      rcases rest with _ | ⟨file, _ | ⟨_, _⟩⟩
      · simp [caseNode]
      · by_cases main : file = lit "main.py"
        · simp [caseNode, main]
        · by_cases readme : file = lit "README.md"
          · simp [caseNode, readme]
          · simp [caseNode, main, readme]
      · simp [caseNode]
    · simp only [builtNode, looked, if_neg same] at before ⊢
      simp [same, before]

end Cases

section Mutants

variable {output : Path} {t t' : FileTree} {done variants : List (Str × Str)} {source : Str}
  {mutants : List (Str × Json)} {hashes result : Dict Str Sha256.Digest}

def addHash (hashes : Dict Str Sha256.Digest) (variant : Str × Str) : Dict Str Sha256.Digest :=
  hashes.set variant.1 (Sha256.digest (encoded variant.2))

theorem lookup_eq_none {ν : Type} {entries : List (Str × ν)} {id : Str} :
    entries.lookup id = none ↔ id ∉ entries.map Prod.fst := by
  rw [List.lookup_eq_none_iff]
  constructor
  · intro h hm
    obtain ⟨entry, he, rfl⟩ := List.mem_map.mp hm
    simpa using h entry he
  · intro h entry he
    rw [bne_iff_ne]
    rintro rfl
    exact h (List.mem_map_of_mem he)

theorem lookup_append_one {id caseId text : Str} :
    (done ++ [(caseId, text)]).lookup id = none ↔ done.lookup id = none ∧ id ≠ caseId := by
  rw [List.lookup_append]
  by_cases same : id = caseId
  · simp [same]
  · simp [List.lookup_cons, same, beq_eq_false_iff_ne.mpr same]

/-- The loop over the mutation map writes the cases one after the other. -/
theorem buildMutants_returns (shows_ : Shows output (builtNode done none) t)
    (safe : ∀ m ∈ mutants, SafeName m.1) (once : (mutants.map Prod.fst).Nodup) :
    (buildMutants output source mutants hashes).Returns t result t' ↔
      ∃ variants, caseVariants source mutants = .ok variants ∧ (∀ m ∈ mutants, done.lookup m.1 = none) ∧
        (∀ v ∈ variants, isUnicode v.2 = true) ∧ result = variants.foldl addHash hashes ∧
        variants.foldl (caseTree output) t = t' := by
  induction mutants generalizing done t hashes with
  | nil =>
    rw [buildMutants, returns_pure]
    constructor
    · rintro ⟨rfl, rfl⟩
      exact ⟨[], rfl, by simp, by simp, rfl, rfl⟩
    · rintro ⟨variants, hv, -, -, rfl, rfl⟩
      cases hv
      exact ⟨rfl, rfl⟩
  | cons mutant mutants ih =>
    rw [List.map_cons, List.nodup_cons] at once
    have others : ∀ m ∈ mutants, m.1 ≠ mutant.1 := fun m hm same =>
      once.1 (same ▸ List.mem_map_of_mem hm)
    have safe' : ∀ m ∈ mutants, SafeName m.1 := fun m hm => safe m (List.mem_cons_of_mem mutant hm)
    rw [buildMutants]
    constructor
    · intro h
      obtain ⟨mutated, _, hl, h⟩ := returns_bind.mp h
      obtain ⟨hm, rfl⟩ := returns_lift.mp hl
      obtain ⟨digest, _, hw, h⟩ := returns_bind.mp h
      obtain ⟨new, unicode, rfl, rfl⟩ := (writeCase_returns shows_ (safe mutant List.mem_cons_self)).mp hw
      obtain ⟨rest, hr, fresh, texts, rfl, rfl⟩ := (ih (shows_caseTree shows_ new) safe' once.2).mp h
      refine ⟨(mutant.1, mutated) :: rest, caseVariants_cons.mpr ⟨mutated, rest, hm, hr, rfl⟩, ?_, ?_, rfl, rfl⟩
      · intro m hm
        rcases List.mem_cons.mp hm with rfl | hm
        · exact new
        · exact (lookup_append_one.mp (fresh m hm)).1
      · intro v hv
        rcases List.mem_cons.mp hv with rfl | hv
        · exact unicode
        · exact texts v hv
    · rintro ⟨variants, hv, fresh, texts, rfl, rfl⟩
      obtain ⟨mutated, rest, hm, hr, rfl⟩ := caseVariants_cons.mp hv
      have new := fresh mutant List.mem_cons_self
      have unicode := texts _ List.mem_cons_self
      refine returns_bind.mpr ⟨mutated, t, returns_lift.mpr ⟨hm, rfl⟩, ?_⟩
      refine returns_bind.mpr ⟨_, _, (writeCase_returns shows_ (safe mutant List.mem_cons_self)).mpr
        ⟨new, unicode, rfl, rfl⟩, ?_⟩
      refine (ih (shows_caseTree shows_ new) safe' once.2).mpr ⟨rest, hr, fun m hm => ?_, ?_, rfl, rfl⟩
      · exact lookup_append_one.mpr ⟨fresh m (List.mem_cons_of_mem mutant hm), others m hm⟩
      · exact fun v hv => texts v (List.mem_cons_of_mem _ hv)

theorem shows_foldl (shows_ : Shows output (builtNode done none) t) (once : (variants.map Prod.fst).Nodup)
    (fresh : ∀ v ∈ variants, done.lookup v.1 = none) :
    Shows output (builtNode (done ++ variants) none) (variants.foldl (caseTree output) t) := by
  induction variants generalizing done t with
  | nil => rwa [List.append_nil]
  | cons variant variants ih =>
    rw [List.map_cons, List.nodup_cons] at once
    have new := fresh variant List.mem_cons_self
    have step : Shows output (builtNode (done ++ [variant]) none) (caseTree output t variant) :=
      shows_caseTree shows_ new
    have rest := ih step once.2 fun v hv => lookup_append_one.mpr
      ⟨fresh v (List.mem_cons_of_mem variant hv), fun same => once.1 (same ▸ List.mem_map_of_mem hv)⟩
    rwa [List.append_assoc] at rest

/-- The output directory after the last of its cases. -/
theorem shows_variants {variant : Str × Str} (empty : Shows output (builtNode [] none) t)
    (once : ((variant :: variants).map Prod.fst).Nodup) :
    Shows output (builtNode (variant :: variants) none)
      (variants.foldl (caseTree output) (caseTree output t variant)) := by
  have whole := shows_foldl empty once fun v _ => rfl
  rwa [List.nil_append, List.foldl_cons] at whole

theorem foldl_caseTree_frame {q : Path} (h : ¬ output <+: q) :
    (variants.foldl (caseTree output) t).get? q = t.get? q := by
  induction variants generalizing t with
  | nil => rfl
  | cons variant variants ih => exact ih.trans (caseTree_frame h variant)

end Mutants

end EdgecaseForge

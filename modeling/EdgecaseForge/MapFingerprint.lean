import EdgecaseForge.RepositoryMaps

namespace EdgecaseForge

open Text RepositoryContext RouteMap

namespace RouteMap

/-- The path and the source text of an entry, if it is analysed. -/
def analyzedSource (py : PythonSource) (entry : Path × Option Bytes) : Option (Str × Str) :=
  if ignored entry.1 then none
  else
    match entry.2 with
    | none => none
    | some content =>
      if maxFileBytes < content.length then none
      else
        match decodeText content with
        | none => none
        | some source =>
          match py.parse source with
          | .error _ => none
          | .ok _ => some (asPosix entry.1, source)

/-- The analysed files of a repository with their source texts, in order. -/
def analyzedSources (py : PythonSource) (r : Repository) : List (Str × Str) :=
  (pythonEntries r).filterMap (analyzedSource py)

/-- The number of bytes of a path and of its source. -/
def extent (file : Str × Str) : Nat × Nat :=
  (((utf8Encode file.1).getD []).length, ((utf8Encode file.2).getD []).length)

/-- What a file adds to the stream that is hashed. -/
def digestedBytes (file : Str × Str) : Bytes :=
  (utf8Encode file.1).getD [] ++ (utf8Encode file.2).getD []

def Encodable (file : Str × Str) : Prop :=
  (utf8Encode file.1).isSome ∧ (utf8Encode file.2).isSome

section Findings

variable {py : PythonSource} {r r' : Repository} {m m' : RepositoryMap}

/-- What the loop finds in an entry. -/
theorem analyzeEntry_ok {entry : Path × Option Bytes} {finding : Finding}
    (h : analyzeEntry py entry = .ok finding) :
    finding.path = (analyzedSource py entry).toList.map Prod.fst ∧
      finding.digested = (analyzedSource py entry).toList.flatMap digestedBytes ∧
      ∀ file ∈ analyzedSource py entry, Encodable file := by
  obtain ⟨path, content⟩ := entry
  unfold analyzeEntry at h
  unfold analyzedSource
  by_cases skipped : ignored path = true
  · rw [if_pos skipped] at h ⊢
    cases h
    exact ⟨rfl, rfl, by simp⟩
  · rw [if_neg skipped] at h ⊢
    cases content with
    | none => cases h
    | some content =>
      dsimp only at h ⊢
      by_cases large : maxFileBytes < content.length
      · rw [if_pos large] at h ⊢
        cases h
        exact ⟨rfl, rfl, by simp⟩
      · rw [if_neg large] at h ⊢
        cases hd : decodeText content with
        | none =>
          rw [hd] at h
          cases h
          exact ⟨rfl, rfl, by simp⟩
        | some source =>
          rw [hd] at h
          dsimp only at h ⊢
          cases hp : py.parse source with
          | error problem =>
            rw [hp] at h
            cases h
            exact ⟨rfl, rfl, by simp⟩
          | ok body =>
            rw [hp] at h
            obtain ⟨name, hn, h⟩ := Except.bind_eq_ok.mp h
            obtain ⟨text, ht, h⟩ := Except.bind_eq_ok.mp h
            cases h
            have path := encodeUtf8_ok hn
            have bytes := encodeUtf8_ok ht
            refine ⟨rfl, ?_, fun file hf => ?_⟩
            · simp [Finding.digested, digestedBytes, path, bytes]
            · cases hf
              exact ⟨by rw [path]; rfl, by rw [bytes]; rfl⟩

theorem flatMap_filterMap {α β γ : Type} (f : α → Option β) (g : β → List γ) (xs : List α) :
    (xs.filterMap f).flatMap g = xs.flatMap fun x => (f x).toList.flatMap g := by
  induction xs with
  | nil => rfl
  | cons x xs ih =>
    rw [List.filterMap_cons, List.flatMap_cons, ← ih]
    cases f x <;> simp

theorem flatMap_findings {α : Type} {g : Finding → List α} {f : Str × Str → List α}
    {entries : List (Path × Option Bytes)} {findings : List Finding}
    (made : entries.mapM (analyzeEntry py) = .ok findings)
    (each : ∀ entry finding, analyzeEntry py entry = .ok finding →
      g finding = (analyzedSource py entry).toList.flatMap f) :
    findings.flatMap g = (entries.filterMap (analyzedSource py)).flatMap f := by
  rw [flatMap_filterMap]
  have pairs := Except.mapM_eq_ok.mp made
  clear made
  induction pairs with
  | nil => rfl
  | cons first _ ih => rw [List.flatMap_cons, List.flatMap_cons, each _ _ first, ih]

/-- The files of a map, and the stream that its hash is of. -/
theorem build_ok (h : build py r = .ok m) :
    m.analyzedFiles = (analyzedSources py r).map Prod.fst ∧
      m.repositorySha256 = Sha256.sha256 ((analyzedSources py r).flatMap digestedBytes) ∧
      ∀ file ∈ analyzedSources py r, Encodable file := by
  obtain ⟨findings, made, h⟩ := Except.bind_eq_ok.mp h
  cases h
  have paths : findings.flatMap Finding.path = (analyzedSources py r).flatMap fun file => [file.1] :=
    flatMap_findings made fun entry finding he => by
      rw [(analyzeEntry_ok he).1, ← List.map_eq_flatMap]
  have stream : findings.flatMap Finding.digested = (analyzedSources py r).flatMap digestedBytes :=
    flatMap_findings made fun entry finding he => (analyzeEntry_ok he).2.1
  refine ⟨?_, ?_, fun file hf => ?_⟩
  · rw [List.map_eq_flatMap, ← paths]
    rfl
  · rw [← stream]
    rfl
  · obtain ⟨entry, he, found⟩ := List.mem_filterMap.mp hf
    obtain ⟨finding, hfinding⟩ := Except.ok_of_mem_mapM made he
    exact (analyzeEntry_ok hfinding).2.2 file found

end Findings

section Streams

theorem utf8Encode_getD_inj {s s' : Str} (h : (utf8Encode s).isSome) (h' : (utf8Encode s').isSome)
    (same : (utf8Encode s).getD [] = (utf8Encode s').getD []) : s = s' := by
  obtain ⟨bytes, hb⟩ := Option.isSome_iff_exists.mp h
  obtain ⟨bytes', hb'⟩ := Option.isSome_iff_exists.mp h'
  rw [hb, hb', Option.getD_some, Option.getD_some] at same
  have decoded := utf8Decode_encode hb
  rw [same, utf8Decode_encode hb'] at decoded
  exact (Option.some.inj decoded).symm

/-- A stream splits in only one way into paths and sources of given sizes. -/
theorem digestedBytes_inj {files files' : List (Str × Str)} (h : ∀ file ∈ files, Encodable file)
    (h' : ∀ file ∈ files', Encodable file) (sizes : files.map extent = files'.map extent)
    (same : files.flatMap digestedBytes = files'.flatMap digestedBytes) : files = files' := by
  induction files generalizing files' with
  | nil => exact (List.map_eq_nil_iff.mp sizes.symm).symm
  | cons file files ih =>
    cases files' with
    | nil => cases sizes
    | cons file' files' =>
      obtain ⟨⟨path, source⟩, others⟩ := List.forall_mem_cons.mp h
      obtain ⟨⟨path', source'⟩, others'⟩ := List.forall_mem_cons.mp h'
      obtain ⟨size, rest⟩ := List.cons.inj sizes
      obtain ⟨first, second⟩ := Prod.mk.inj size
      simp only [List.flatMap_cons, digestedBytes, List.append_assoc] at same
      obtain ⟨names, same⟩ := List.append_inj same first
      obtain ⟨texts, same⟩ := List.append_inj same second
      have here : file = file' :=
        Prod.ext (utf8Encode_getD_inj path path' names) (utf8Encode_getD_inj source source' texts)
      rw [here, ih others others' rest same]

end Streams

/-- SHA-256 tells what is hashed of two repositories apart. -/
def FingerprintsApart (py : PythonSource) (r r' : Repository) : Prop :=
  Sha256.sha256 ((analyzedSources py r).flatMap digestedBytes) =
      Sha256.sha256 ((analyzedSources py r').flatMap digestedBytes) →
    (analyzedSources py r).flatMap digestedBytes = (analyzedSources py r').flatMap digestedBytes

/-- Repositories with the same hash have the same analysed sources exactly if the paths and the
sources have the same sizes in both. -/
theorem repositorySha256_identifies {py : PythonSource} {r r' : Repository} {m m' : RepositoryMap}
    (built : build py r = .ok m) (built' : build py r' = .ok m')
    (apart : FingerprintsApart py r r') (same : m.repositorySha256 = m'.repositorySha256) :
    (m.analyzedFiles = m'.analyzedFiles ∧ analyzedSources py r = analyzedSources py r') ↔
      (analyzedSources py r).map extent = (analyzedSources py r').map extent := by
  obtain ⟨files, hash, encodable⟩ := build_ok built
  obtain ⟨files', hash', encodable'⟩ := build_ok built'
  rw [hash, hash'] at same
  constructor
  · rintro ⟨-, sources⟩
    rw [sources]
  · intro sizes
    have sources := digestedBytes_inj encodable encodable' sizes (apart same)
    exact ⟨by rw [files, files', sources], sources⟩

/-- The library on an empty module and on one that only reads an attribute. -/
def attributeModules : PythonSource where
  parse := fun source =>
    if source = [] then .ok []
    else if source = lit "b.py" then
      .ok [.other ⟨1, lit "Expr", some (lit "b.py")⟩
        [.attribute ⟨1, lit "Attribute", some (lit "b.py")⟩ .load (lit "py")
          (.name ⟨1, lit "Name", some (lit "b")⟩ (lit "b"))]]
    else .error (lit "SyntaxError")
  lower := Text.lower

/-- One module whose text is the name of the second module of `twoModules`. -/
def oneModule : Repository where
  files := ⟨[([lit "a.py"], [0x62, 0x2E, 0x70, 0x79])], by decide⟩
  named := by decide
  apart := by decide

def twoModules : Repository where
  files := ⟨[([lit "a.py"], []), ([lit "b.py"], [])], by decide⟩
  named := by decide
  apart := by decide

theorem streams_modules : (analyzedSources attributeModules oneModule).flatMap digestedBytes =
    (analyzedSources attributeModules twoModules).flatMap digestedBytes := by
  decide

theorem build_modules : ∃ m m', build attributeModules oneModule = .ok m ∧
    build attributeModules twoModules = .ok m' ∧ m.repositorySha256 = m'.repositorySha256 := by
  obtain ⟨m, built⟩ : ∃ m, build attributeModules oneModule = .ok m := ⟨_, rfl⟩
  obtain ⟨m', built'⟩ : ∃ m, build attributeModules twoModules = .ok m := ⟨_, rfl⟩
  refine ⟨m, m', built, built', ?_⟩
  rw [(build_ok built).2.1, (build_ok built').2.1, streams_modules]

theorem repositorySha256_identifies_modules : ∃ m m' : RepositoryMap,
    (m.analyzedFiles = m'.analyzedFiles ∧
      analyzedSources attributeModules oneModule = analyzedSources attributeModules twoModules) ↔
      (analyzedSources attributeModules oneModule).map extent =
        (analyzedSources attributeModules twoModules).map extent := by
  obtain ⟨m, m', built, built', same⟩ := build_modules
  exact ⟨m, m', repositorySha256_identifies built built' (fun _ => streams_modules) same⟩

/-- A module can spell the path and the text of the one after it. -/
theorem repositorySha256_ambiguous : ∃ m m', build attributeModules oneModule = .ok m ∧
    build attributeModules twoModules = .ok m' ∧ m.repositorySha256 = m'.repositorySha256 ∧
      m.analyzedFiles ≠ m'.analyzedFiles := by
  obtain ⟨m, m', built, built', same⟩ := build_modules
  refine ⟨m, m', built, built', same, ?_⟩
  rw [(build_ok built).1, (build_ok built').1]
  decide

end RouteMap

end EdgecaseForge

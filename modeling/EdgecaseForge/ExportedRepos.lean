import EdgecaseForge.FencedAnswers
import EdgecaseForge.RebuiltCases

namespace EdgecaseForge

open Text Effect Program Occurrences

/-- What an agent is given of a case. -/
def agentText (caseDir : Path) (t : FileTree) : Except PyError Str := do
  let source ← readText (caseDir ++ [lit "main.py"]) t
  agentSource source

/-- What a repository holds that has been exported. -/
def repoNode (source : Str) (readme project : Bytes) : Path → Option Node
  | [] => some .dir
  | [name] =>
    if name = lit "main.py" then some (.file (encoded source))
    else if name = lit "README.md" then some (.file readme)
    else if name = lit "pyproject.toml" then some (.file project)
    else none
  | _ => none

/-- The files of a case that are exported. -/
structure CaseFiles (caseDir : Path) (t : FileTree) (source : Str) (readme project : Bytes) : Prop where
  text : agentText caseDir t = .ok source
  readme : t.readBytes (caseDir ++ [lit "README.md"]) = .ok readme
  project : t.readBytes (caseDir ++ [lit "pyproject.toml"]) = .ok project

/-- A tree with a new directory, and those above it. -/
def madeTree (p : Path) (t : FileTree) : FileTree :=
  p.inits.tail.foldl FileTree.addDir t

def exportedTree (destination : Path) (source : Str) (readme project : Bytes) (t : FileTree) : FileTree :=
  Dict.set (Dict.set (Dict.set (madeTree destination t)
    (destination ++ [lit "main.py"]) (.file (encoded source)))
    (destination ++ [lit "README.md"]) (.file readme))
    (destination ++ [lit "pyproject.toml"]) (.file project)

section Made

variable {t : FileTree} {p q : Path} {content : Bytes}

theorem get?_addDir_file : (t.addDir p).get? q = some (.file content) ↔ t.get? q = some (.file content) := by
  unfold FileTree.addDir
  split
  next absent =>
    by_cases same : q = p
    · subst same
      rw [Dict.get?_set_self, absent]
      simp
    · rw [Dict.get?_set_ne same]
  next => rfl

/-- Directories are made beside the files that are there. -/
theorem get?_madeTree_file : (madeTree p t).get? q = some (.file content) ↔ t.get? q = some (.file content) := by
  unfold madeTree
  induction p.inits.tail generalizing t with
  | nil => rfl
  | cons p ps ih => rw [List.foldl_cons, ih, get?_addDir_file]

theorem readBytes_iff : t.readBytes q = .ok content ↔ t.get? q = some (.file content) := by
  rw [FileTree.readBytes]
  cases t.get? q with
  | none => simp
  | some node => cases node <;> simp

theorem readText_iff {s : Str} : readText q t = .ok s ↔
    ∃ content raw, t.get? q = some (.file content) ∧ utf8Decode content = some raw ∧ universalNewlines raw = s := by
  rw [readText, Except.bind_eq_ok]
  constructor
  · rintro ⟨content, read, decoded⟩
    cases raw : utf8Decode content with
    | none =>
      rw [raw] at decoded
      cases decoded
    | some text =>
      rw [raw] at decoded
      cases decoded
      exact ⟨content, text, readBytes_iff.mp read, raw, rfl⟩
  · rintro ⟨content, raw, file, decoded, rfl⟩
    exact ⟨content, readBytes_iff.mpr file, by rw [decoded]⟩

theorem madeTree_outside (h : ¬ q <+: p) : (madeTree p t).get? q = t.get? q :=
  FileTree.get?_foldl_addDir_ne fun hm => h (FileTree.mem_inits_tail hm).1

theorem get?_madeTree_self (absent : t.exists_ p = false) : (madeTree p t).get? p = some .dir := by
  have listed : p ∈ p.inits.tail := by
    cases p with
    | nil => simp [FileTree.exists_, FileTree.isDir] at absent
    | cons name p => simp
  exact FileTree.get?_foldl_addDir_mem listed (Or.inl (FileTree.get?_of_not_exists absent))

/-- A directory can be made where there is nothing, and no file above. -/
theorem mkdir_new_returns {u : Unit} {t' : FileTree} : (Disk.mkdir false p).Returns t u t' ↔
    t.exists_ p = false ∧ p.inits.any t.isFile = false ∧ madeTree p t = t' := by
  rw [Disk.mkdir, Disk.write, returns_act, FileTree.mkdir, FileTree.exists_, madeTree]
  cases t.isDir p <;> cases t.isFile p <;> cases p.inits.any t.isFile <;> simp

end Made

section Copies

variable {t T T' : FileTree} {destination caseDir p : Path} {taken : List Str} {name : Str} {content : Bytes}
  {u : Unit}

/-- A tree with a new directory that holds nothing but files of these names. The other files are as in `t`. -/
structure Receiving (destination : Path) (taken : List Str) (t T : FileTree) : Prop where
  dir : T.get? destination = some .dir
  free : ∀ name ∉ taken, T.get? (destination ++ [name]) = none
  files : ∀ p name content, name ∉ taken →
    (T.get? (p ++ [name]) = some (.file content) ↔ t.get? (p ++ [name]) = some (.file content))

theorem receiving_made (rooted : t.Rooted) (absent : t.exists_ destination = false) :
    Receiving destination [] t (madeTree destination t) where
  dir := get?_madeTree_self absent
  free := by
    intro name _
    rw [madeTree_outside (not_prefix_child destination name)]
    exact rooted.absent absent (List.prefix_append _ _)
  files := fun _ _ _ _ => get?_madeTree_file

theorem Receiving.set (h : Receiving destination taken t T) (name : Str) (node : Node) :
    Receiving destination (name :: taken) t (Dict.set T (destination ++ [name]) node) where
  dir := by
    rw [Dict.get?_set_ne (by simp), h.dir]
  free := by
    intro other hn
    rw [List.mem_cons, not_or] at hn
    rw [Dict.get?_set_ne (by simpa using hn.1), h.free other hn.2]
  files := by
    intro p other content hn
    rw [List.mem_cons, not_or] at hn
    have differ : p ++ [other] ≠ destination ++ [name] := fun same =>
      hn.1 (List.singleton_inj.mp (List.append_inj' same rfl).2)
    rw [Dict.get?_set_ne differ, h.files p other content hn.2]

theorem Receiving.openable (h : Receiving destination taken t T) (new : name ∉ taken) :
    T.openable (destination ++ [name]) = .ok () :=
  openable_child (isDir_of_get? h.dir) (isDir_child (h.free name new))

theorem Receiving.readBytes (h : Receiving destination taken t T) (new : name ∉ taken) :
    T.readBytes (p ++ [name]) = .ok content ↔ t.readBytes (p ++ [name]) = .ok content := by
  rw [readBytes_iff, readBytes_iff, h.files p name content new]

theorem Receiving.readText {s : Str} (h : Receiving destination taken t T) (new : name ∉ taken) :
    EdgecaseForge.readText (p ++ [name]) T = .ok s ↔ EdgecaseForge.readText (p ++ [name]) t = .ok s := by
  rw [readText_iff, readText_iff]
  simp only [h.files p name _ new]

/-- A file is copied into the directory. -/
theorem Receiving.copyFile (h : Receiving destination taken t T) (new : name ∉ taken) :
    (Disk.write (FileTree.copyFile (caseDir ++ [name]) (destination ++ [name]))).Returns T u T' ↔
      ∃ content, t.readBytes (caseDir ++ [name]) = .ok content ∧
        Dict.set T (destination ++ [name]) (.file content) = T' := by
  rw [Disk.write, returns_act, FileTree.copyFile]
  simp only [isDir_child (h.free name new), Bool.false_eq_true, if_false, ← h.readBytes new]
  cases T.readBytes (caseDir ++ [name]) with
  | error e => simp
  | ok content => simp [FileTree.writeBytes, h.openable new]

end Copies

section Texts

variable {t : FileTree} {caseDir : Path} {text source before after : Str}

theorem agentSource_ok : agentSource source = .ok text ↔
    ∃ before after, cut privateHook source = some (before, after) ∧ rstrip before ++ [lineFeed] = text := by
  rw [agentSource]
  cases h : cut privateHook source with
  | none => simp
  | some parts =>
    obtain ⟨before, after⟩ := parts
    simp

theorem isUnicode_of_isPrefix {s s' : Str} (h : s <+: s') (unicode : isUnicode s' = true) : isUnicode s = true := by
  rw [isUnicode, List.all_eq_true] at unicode ⊢
  exact fun c hc => unicode c (h.subset hc)

/-- What is exported can be written. -/
theorem agentText_isUnicode (h : agentText caseDir t = .ok text) : isUnicode text = true := by
  obtain ⟨source, read, cut_⟩ := Except.bind_eq_ok.mp h
  obtain ⟨content, raw, -, decoded, rfl⟩ := readText_iff.mp read
  obtain ⟨before, after, parts, rfl⟩ := agentSource_ok.mp cut_
  have whole := universalNewlines_isUnicode (utf8Decode_isUnicode decoded)
  have first : before <+: universalNewlines raw := ⟨_, (cut_append parts).symm⟩
  exact isUnicode_append (isUnicode_of_isPrefix ((rstrip_isPrefix before).trans first) whole) lineFeed_isUnicode

/-- The first line of the hook. -/
def hookHeader : Str :=
  lit "\ndef evaluator_snapshot() -> dict:"

theorem privateHook_eq : privateHook = hookHeader ++ [lineFeed] := by
  rfl

/-- The export shows the line of the hook only if what stands before it ends with the same line, and blanks. -/
theorem agentSource_hook (h : cut privateHook source = some (before, after)) :
    privateHook <:+: rstrip before ++ [lineFeed] ↔ hookHeader <:+ rstrip before := by
  have clean : ¬ privateHook <:+: rstrip before := fun inside =>
    not_infix_before (by simp [privateHook_eq]) h (inside.trans (rstrip_isPrefix before).isInfix)
  constructor
  · rintro ⟨left, right, whole⟩
    rcases List.eq_nil_or_concat right with rfl | ⟨right, last, rfl⟩
    · rw [List.append_nil, privateHook_eq, ← List.append_assoc] at whole
      exact ⟨left, (List.append_inj' whole rfl).1⟩
    · rw [List.concat_eq_append, ← List.append_assoc] at whole
      exact absurd ⟨left, right, (List.append_inj' whole rfl).1⟩ clean
  · rintro ⟨left, whole⟩
    exact ⟨left, [], by rw [← whole, privateHook_eq, List.append_nil, List.append_assoc]⟩

end Texts

section Export

variable {t t' : FileTree} {root destination repo : Path} {caseId source : Str} {readme project : Bytes}

theorem requireAbsent_returns {u : Unit} : (requireAbsent destination).Returns t u t' ↔
    t.exists_ destination = false ∧ t = t' := by
  rw [requireAbsent, returns_bind]
  constructor
  · rintro ⟨taken, _, read, h⟩
    obtain ⟨rfl, rfl⟩ : t.exists_ destination = taken ∧ _ := by simpa using returns_inspect.mp read
    cases absent : t.exists_ destination with
    | true =>
      rw [absent, if_pos rfl] at h
      cases (returns_lift.mp h).1
    | false =>
      rw [absent, if_neg Bool.false_ne_true] at h
      exact ⟨rfl, (returns_pure.mp h).2⟩
  · rintro ⟨absent, rfl⟩
    refine ⟨false, t, returns_inspect.mpr ⟨congrArg _ absent, rfl⟩, ?_⟩
    rw [if_neg Bool.false_ne_true]
    exact returns_pure.mpr ⟨rfl, rfl⟩

theorem ensureBuilt_built {u : Unit} {caseDir : Path} (built : t.exists_ caseDir = true) :
    (ensureBuilt root caseDir).Returns t u t' ↔ t = t' := by
  rw [ensureBuilt, returns_bind]
  constructor
  · rintro ⟨there, _, read, h⟩
    obtain ⟨rfl, rfl⟩ : t.exists_ caseDir = there ∧ _ := by simpa using returns_inspect.mp read
    rw [built, if_pos rfl] at h
    exact (returns_pure.mp h).2
  · rintro rfl
    refine ⟨true, t, returns_inspect.mpr ⟨congrArg _ built, rfl⟩, ?_⟩
    rw [if_pos rfl]
    exact returns_pure.mpr ⟨rfl, rfl⟩

/-- The files of a case that has been built are exported to a new directory. -/
theorem exportAgentRepo_returns (rooted : t.Rooted) {caseDir : Path}
    (hc : caseDir = joinPath (generatedPath root) caseId) (built : t.exists_ caseDir = true) :
    (exportAgentRepo root caseId destination).Returns t repo t' ↔ repo = destination ∧
      t.exists_ destination = false ∧ destination.inits.any t.isFile = false ∧
      ∃ source readme project, CaseFiles caseDir t source readme project ∧
        exportedTree destination source readme project t = t' := by
  rw [exportAgentRepo, ← hc]
  constructor
  · intro h
    obtain ⟨_, _, ensured, h⟩ := returns_bind.mp h
    obtain rfl := (ensureBuilt_built built).mp ensured
    obtain ⟨_, _, required, h⟩ := returns_bind.mp h
    obtain ⟨absent, rfl⟩ := requireAbsent_returns.mp required
    obtain ⟨_, _, made, h⟩ := returns_bind.mp h
    obtain ⟨-, noFile, rfl⟩ := mkdir_new_returns.mp made
    have empty := receiving_made rooted absent
    obtain ⟨source, _, read, h⟩ := returns_bind.mp h
    obtain ⟨main, rfl⟩ := returns_inspect.mp read
    obtain ⟨text, _, lifted, h⟩ := returns_bind.mp h
    obtain ⟨agent, rfl⟩ := returns_lift.mp lifted
    obtain ⟨_, _, wrote, h⟩ := returns_bind.mp h
    obtain ⟨-, bytes, known, rfl⟩ := writeText_returns.mp wrote
    obtain ⟨-, rfl⟩ := utf8Encode_eq_some.mp known
    have first := empty.set (lit "main.py") (.file (encoded text))
    obtain ⟨_, _, copied, h⟩ := returns_bind.mp h
    obtain ⟨readme, found, rfl⟩ := (first.copyFile (by decide)).mp copied
    have second := first.set (lit "README.md") (.file readme)
    obtain ⟨_, _, copied, h⟩ := returns_bind.mp h
    obtain ⟨project, found', rfl⟩ := (second.copyFile (by decide)).mp copied
    obtain ⟨rfl, rfl⟩ := returns_pure.mp h
    refine ⟨rfl, absent, noFile, text, readme, project, ⟨?_, found, found'⟩, rfl⟩
    rw [agentText, (empty.readText (by simp)).mp main, Except.ok_bind, agent]
  · rintro ⟨rfl, absent, noFile, text, readme, project, files, rfl⟩
    have empty := receiving_made rooted absent
    have first := empty.set (lit "main.py") (.file (encoded text))
    have second := first.set (lit "README.md") (.file readme)
    obtain ⟨source, read, agent⟩ := Except.bind_eq_ok.mp files.text
    have known := agentText_isUnicode files.text
    refine returns_bind.mpr ⟨(), t, (ensureBuilt_built built).mpr rfl, ?_⟩
    refine returns_bind.mpr ⟨(), t, requireAbsent_returns.mpr ⟨absent, rfl⟩, ?_⟩
    refine returns_bind.mpr ⟨(), _, mkdir_new_returns.mpr ⟨absent, noFile, rfl⟩, ?_⟩
    refine returns_bind.mpr ⟨source, _, returns_inspect.mpr ⟨(empty.readText (by simp)).mpr read, rfl⟩, ?_⟩
    refine returns_bind.mpr ⟨text, _, returns_lift.mpr ⟨agent, rfl⟩, ?_⟩
    refine returns_bind.mpr ⟨(), _, writeText_returns.mpr
      ⟨empty.openable (by simp), _, utf8Encode_eq_some.mpr ⟨known, rfl⟩, rfl⟩, ?_⟩
    refine returns_bind.mpr ⟨(), _, (first.copyFile (by decide)).mpr ⟨readme, files.readme, rfl⟩, ?_⟩
    exact returns_bind.mpr ⟨(), _, (second.copyFile (by decide)).mpr ⟨project, files.project, rfl⟩,
      returns_pure.mpr ⟨rfl, rfl⟩⟩

theorem exportedTree_shows (rooted : t.Rooted) (absent : t.exists_ destination = false) :
    Shows destination (repoNode source readme project) (exportedTree destination source readme project t) := by
  have empty := receiving_made rooted absent
  intro rest
  simp only [exportedTree, Dict.get?_set, List.append_cancel_left_eq]
  rcases rest with _ | ⟨name, _ | ⟨sub, rest⟩⟩
  · simpa [repoNode] using empty.dir
  · by_cases main : name = lit "main.py"
    · simp [repoNode, main]
    · by_cases readme_ : name = lit "README.md"
      · simp [repoNode, readme_]
      · simp [repoNode, main, readme_, empty.free name (by simp)]
  · have below : ¬ destination ++ name :: sub :: rest <+: destination := by
      intro hp
      have long := hp.length_le
      simp only [List.length_append, List.length_cons] at long
      omega
    simpa [repoNode, madeTree_outside below] using rooted.absent absent (List.prefix_append _ _)

theorem exportedTree_frame {q : Path} (below : ¬ destination <+: q) (above : ¬ q <+: destination) :
    (exportedTree destination source readme project t).get? q = t.get? q := by
  have differ : ∀ rest, q ≠ destination ++ rest := by
    rintro rest rfl
    exact below (List.prefix_append destination rest)
  rw [exportedTree, Dict.get?_set_ne (differ _), Dict.get?_set_ne (differ _), Dict.get?_set_ne (differ _),
    madeTree_outside above]

/-- What the export of a case does: it succeeds where the text of the case has the hook and nothing is in the way,
and then the destination holds the three files and nothing else. -/
structure ExportExact (root : Path) (caseId : Str) (destination : Path) (t : FileTree) : Prop where
  succeeds : ∀ repo t', (exportAgentRepo root caseId destination).Returns t repo t' ↔ repo = destination ∧
    t.exists_ destination = false ∧ destination.inits.any t.isFile = false ∧
    ∃ source readme project, CaseFiles (joinPath (generatedPath root) caseId) t source readme project ∧
      exportedTree destination source readme project t = t'
  leaves : ∀ repo t', (exportAgentRepo root caseId destination).Returns t repo t' → ∃ source readme project,
    CaseFiles (joinPath (generatedPath root) caseId) t source readme project ∧
      Shows destination (repoNode source readme project) t'
  frame : ∀ repo t' q, (exportAgentRepo root caseId destination).Returns t repo t' → ¬ destination <+: q →
    ¬ q <+: destination → t'.get? q = t.get? q
  hook : ∀ source before after, readText (joinPath (generatedPath root) caseId ++ [lit "main.py"]) t = .ok source →
    cut privateHook source = some (before, after) → ∃ text,
      agentText (joinPath (generatedPath root) caseId) t = .ok text ∧
        (privateHook <:+: text ↔ hookHeader <:+ rstrip before)

theorem export_exact (rooted : t.Rooted) (built : t.exists_ (joinPath (generatedPath root) caseId) = true) :
    ExportExact root caseId destination t where
  succeeds := fun repo t' => exportAgentRepo_returns rooted rfl built
  leaves := by
    intro repo t' h
    obtain ⟨-, absent, -, source, readme, project, files, rfl⟩ := (exportAgentRepo_returns rooted rfl built).mp h
    exact ⟨source, readme, project, files, exportedTree_shows rooted absent⟩
  frame := by
    intro repo t' q h below above
    obtain ⟨-, -, -, source, readme, project, -, rfl⟩ := (exportAgentRepo_returns rooted rfl built).mp h
    exact exportedTree_frame below above
  hook := by
    intro source before after read parts
    refine ⟨rstrip before ++ [lineFeed], ?_, agentSource_hook parts⟩
    rw [agentText, read, Except.ok_bind, agentSource_ok.mpr ⟨before, after, parts, rfl⟩]

end Export

section Built

variable {root : Path} {caseId source : Str} {t : FileTree} {variants : List (Str × Str)} {hashes : Option Bytes}

/-- What a built case exports. -/
theorem agentText_built (safe : SafeName caseId) (unicode : isUnicode source = true)
    (shows_ : Shows (generatedPath root) (builtNode variants hashes) t)
    (listed : variants.lookup caseId = some source) :
    agentText (joinPath (generatedPath root) caseId) t = agentSource (universalNewlines source) := by
  have file : t.get? (generatedPath root ++ [caseId] ++ [lit "main.py"]) = some (.file (encoded source)) := by
    rw [List.append_assoc, shows_ ([caseId] ++ [lit "main.py"])]
    simp [builtNode, listed, caseNode]
  rw [safe.joinPath, agentText, readText_file unicode file]
  rfl

theorem readBytes_built (safe : SafeName caseId) {file : Str} {content : Bytes}
    (held : caseNode source [file] = some (.file content))
    (shows_ : Shows (generatedPath root) (builtNode variants hashes) t)
    (listed : variants.lookup caseId = some source) :
    t.readBytes (joinPath (generatedPath root) caseId ++ [file]) = .ok content := by
  have at_ : t.get? (generatedPath root ++ [caseId] ++ [file]) = some (.file content) := by
    rw [List.append_assoc, shows_ ([caseId] ++ [file])]
    simpa [builtNode, listed] using held
  rw [safe.joinPath, FileTree.readBytes, at_]

end Built

section Hook

def hookSource : Str :=
  lit "price = 1\n\ndef evaluator_snapshot() -> dict:\n    return 1\n"

def hookMutated : Str :=
  lit "price = 1\n\ndef evaluator_snapshot() -> dict:\n    return 2\n"

/-- A mutation of the hook of the evaluator. -/
def hookMutations : Json :=
  .object [("M01", .list [.object [("find", .str (lit "return 1")), ("replace", .str (lit "return 2"))]])]

def hookBench : FileTree where
  entries :=
    [([lit "source_app.py"], .file (encoded hookSource)), ([lit "mutations"], .dir),
      ([lit "mutations", lit "mutations.json"], .file (encoded (Json.encode Json.compact 0 hookMutations ++ []))),
      ([lit "work"], .dir)]
  nodup := by simp

def hookVariants : List (Str × Str) :=
  [(cleanControl, hookSource), (lit "M01", hookMutated)]

theorem hookBench_rooted : hookBench.Rooted :=
  FileTree.rooted_of_keys (by decide)

theorem hook_edited : CaseText hookSource
    (lit "M01", .list [.object [("find", .str (lit "return 1")), ("replace", .str (lit "return 2"))]])
    (lit "M01", hookMutated) :=
  ⟨rfl, _, rfl, (@applyEdits_ok (lit "M01") _ _ _).mp (by rfl)⟩

theorem hookBench_text : readText (sourcePath []) hookBench = .ok hookSource :=
  readText_plain (isUnicode_lit _) (List.forall_iff_forall_mem.mp (by decide))
    (Dict.get?_of_mem (by simp [hookBench, sourcePath]))

theorem hookBench_json : readJson (mutationsPath []) hookBench = .ok hookMutations :=
  readJson_encoded (List.forall_mem_nil _) rfl
    (by simp [hookMutations, Json.encodable_object, Json.encodable_list, isUnicode_lit])
    (Dict.get?_of_mem (by simp [hookBench, mutationsPath, encoded]))

theorem hookBench_variants : Variants [] hookBench hookVariants where
  made := ⟨hookSource, _, _, hookBench_text, hookBench_json, .cons hook_edited .nil, rfl⟩
  once := by simp [hookVariants, cleanControl]
  apart := by simp [hookVariants, cleanControl]
  texts := by simp [hookVariants, hookSource, hookMutated, isUnicode_lit]

/-- The tree that the build leaves. -/
def hookTree : FileTree :=
  builtTree (generatedPath []) hookVariants hookBench

theorem hookTree_shows :
    Shows (generatedPath []) (builtNode hookVariants (some (hashesText hookVariants))) hookTree :=
  shows_builtTree hookBench_rooted hookBench_variants.once hookBench_variants.apart

theorem hookTree_outside {q : Path} (h : ¬ generatedPath [] <+: q) : hookTree.get? q = hookBench.get? q :=
  builtTree_frame h

theorem safeName_hook : SafeName (lit "M01") :=
  ⟨by decide, by decide, by decide, by decide, rfl⟩

theorem hook_control : hookVariants.lookup cleanControl = some hookSource := by
  simp [hookVariants]

theorem hook_listed : hookVariants.lookup (lit "M01") = some hookMutated := by
  have differ : lit "M01" ≠ cleanControl := by decide
  simp [hookVariants, List.lookup_cons, beq_eq_false_iff_ne.mpr differ]

theorem hook_text : agentText (joinPath (generatedPath []) (lit "M01")) hookTree = .ok (lit "price = 1\n") := by
  have parts : cut privateHook hookMutated = some (lit "price = 1\n", lit "    return 2\n") := by decide
  rw [agentText_built safeName_hook (isUnicode_lit _) hookTree_shows hook_listed,
    universalNewlines_of_forall (List.forall_iff_forall_mem.mp (by decide))]
  exact agentSource_ok.mpr ⟨_, _, parts, by decide⟩

theorem hook_files : CaseFiles (joinPath (generatedPath []) (lit "M01")) hookTree (lit "price = 1\n")
    (encoded neutralReadme) (encoded pyproject) where
  text := hook_text
  readme := readBytes_built safeName_hook (caseNode_readme _) hookTree_shows hook_listed
  project := readBytes_built safeName_hook (caseNode_project _) hookTree_shows hook_listed

theorem hookTree_rooted : hookTree.Rooted :=
  rooted_builtTree hookBench_rooted hookBench_variants

theorem export_exact_hook : ExportExact [] (lit "M01") [lit "work", lit "repo"] hookTree ∧
    ∃ t', (exportAgentRepo [] (lit "M01") [lit "work", lit "repo"]).Returns hookTree [lit "work", lit "repo"] t' := by
  have built : hookTree.exists_ (joinPath (generatedPath []) (lit "M01")) = true := by
    rw [FileTree.exists_, isDir_of_get?, Bool.or_true]
    rw [safeName_hook.joinPath, hookTree_shows [lit "M01"]]
    simp only [builtNode, hook_listed, caseNode]
  have exactly : ExportExact [] (lit "M01") [lit "work", lit "repo"] hookTree := export_exact hookTree_rooted built
  have noEntry : hookTree.get? ([lit "work"] ++ [lit "repo"]) = none :=
    (hookTree_outside (by decide)).trans (Dict.get?_eq_none_iff.mpr (by simp [Dict.keys, hookBench]))
  refine ⟨exactly, _, (exactly.succeeds _ _).mpr ⟨rfl, exists_child noEntry, ?_, _, _, _, hook_files, rfl⟩⟩
  rw [List.any_eq_false]
  intro q hq
  have outside : ¬ generatedPath [] <+: q := fun h =>
    absurd (h.trans ((List.mem_inits q _).mp hq)) (by decide)
  rw [FileTree.isFile, hookTree_outside outside]
  revert q
  decide

end Hook

end EdgecaseForge

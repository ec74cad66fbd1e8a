import EdgecaseForge.BuiltCases

namespace EdgecaseForge

open Text Effect Program Occurrences

section Builds

variable {root p : Path} {t t' : FileTree} {source : Str} {fields : List (Str × Json)}
  {variants : List (Str × Str)} {hashes : Dict Str Sha256.Digest}

def hashesOf (variants : List (Str × Str)) : Dict Str Sha256.Digest :=
  variants.foldl addHash Dict.empty

/-- What `hashes.json` holds. -/
def hashesText (variants : List (Str × Str)) : Bytes :=
  encoded (Json.encode asciiIndented 0 (hashesPayload (hashesOf variants)).sortKeys ++ [lineFeed])

/-- A tree with an empty output directory. -/
def emptied (output : Path) (t : FileTree) : FileTree :=
  Dict.set (if t.exists_ output then t.clear output else t) output .dir

def builtTree (output : Path) (variants : List (Str × Str)) (t : FileTree) : FileTree :=
  Dict.set (variants.foldl (caseTree output) (emptied output t)) (output ++ [lit "hashes.json"])
    (.file (hashesText variants))

theorem builtTree_cons {output : Path} {variant : Str × Str} :
    builtTree output (variant :: variants) t =
      Dict.set (variants.foldl (caseTree output) (caseTree output (emptied output t) variant))
        (output ++ [lit "hashes.json"]) (.file (hashesText (variant :: variants))) := by
  rw [builtTree, List.foldl_cons]

/-- What `build_all` makes its cases of: the source, and the cases of the mutation map. -/
structure Variants (root : Path) (t : FileTree) (variants : List (Str × Str)) : Prop where
  made : ∃ source fields rest, readText (sourcePath root) t = .ok source ∧
    readJson (mutationsPath root) t = .ok (.obj fields) ∧ List.Forall₂ (CaseText source) fields rest ∧
    variants = (cleanControl, source) :: rest
  once : (variants.map Prod.fst).Nodup
  apart : lit "hashes.json" ∉ variants.map Prod.fst
  texts : ∀ v ∈ variants, isUnicode v.2 = true

theorem removeExisting_returns {u : Unit} (noFile : t.isFile p = false) :
    (removeExisting p).Returns t u t' ↔ (if t.exists_ p then t.clear p else t) = t' := by
  rw [removeExisting]
  constructor
  · intro h
    obtain ⟨there, _, hr, h⟩ := returns_bind.mp h
    obtain ⟨hb, rfl⟩ := returns_inspect.mp hr
    cases hb
    split at h
    next present =>
      rw [if_pos present]
      have removed := returns_act.mp h
      unfold FileTree.rmtree at removed
      split at removed
      next => exact (Prod.mk.inj removed).1
      next => simp [noFile] at removed
    next absent =>
      rw [if_neg absent]
      exact (returns_pure.mp h).2
  · rintro rfl
    refine returns_bind.mpr ⟨t.exists_ p, t, returns_inspect.mpr ⟨rfl, rfl⟩, ?_⟩
    split
    next present =>
      refine returns_act.mpr ?_
      rw [FileTree.exists_, noFile, Bool.false_or] at present
      rw [FileTree.rmtree, if_pos present]
    next absent => exact returns_pure.mpr ⟨rfl, rfl⟩

/-- What stands at the place of a directory that is removed is no file. -/
theorem removeExisting_noFile {u : Unit} (rooted : t.Rooted) (h : (removeExisting p).Returns t u t') :
    t.isFile p = false := by
  rw [removeExisting] at h
  obtain ⟨there, _, hr, h⟩ := returns_bind.mp h
  obtain ⟨hb, rfl⟩ := returns_inspect.mp hr
  cases hb
  split at h
  next =>
    have removed := returns_act.mp h
    unfold FileTree.rmtree at removed
    split at removed
    next dir => exact rooted.isFile_of_isDir dir
    next => split at removed <;> cases removed
  next absent =>
    rw [Bool.not_eq_true, FileTree.exists_, Bool.or_eq_false_iff] at absent
    exact absent.1

theorem isDir_of_read {name s : Str} (rooted : t.Rooted) (h : readText (p ++ [name]) t = .ok s) :
    t.isDir p = true := by
  obtain ⟨bytes, read, -⟩ := Except.bind_eq_ok.mp h
  unfold FileTree.readBytes at read
  split at read
  next found => exact rooted.parent p name _ found
  next => cases read
  next => cases read

theorem Variants.there (rooted : t.Rooted) (made : Variants root t variants) : t.isDir root = true := by
  obtain ⟨source, fields, rest, read, -⟩ := made.made
  exact isDir_of_read rooted read

theorem mutationItems_ok {value : Json} (h : mutationItems value = .ok fields) : value = .obj fields := by
  cases value with
  | obj other =>
    cases h
    rfl
  | _ => cases h

theorem keys_of_read (h : readJson p t = .ok (.obj fields)) : (fields.map Prod.fst).Nodup := by
  have distinct := readJson_distinct h
  rw [Json.distinct, Bool.and_eq_true, decide_eq_true_eq] at distinct
  exact distinct.1

theorem safeName_cleanControl : SafeName cleanControl :=
  ⟨by decide, by decide, by decide, by decide, rfl⟩

theorem hashesPayload_printable (hashes : Dict Str Sha256.Digest) : (hashesPayload hashes).printable = true := by
  rw [hashesPayload, Json.printable, Json.printableFields_eq_true]
  intro field hf
  obtain ⟨entry, -, rfl⟩ := List.mem_map.mp hf
  rfl

/-- The output directory when it has been made, whatever it held before. -/
theorem shows_emptied (rooted : t.Rooted) (output : Path) :
    Shows output (builtNode [] none) (emptied output t) := by
  intro rest
  rw [emptied, Dict.get?_set]
  cases rest with
  | nil => simp [builtNode]
  | cons name rest =>
    rw [if_neg (by simp)]
    split
    next =>
      rw [FileTree.get?_clear_below (List.prefix_append output (name :: rest))]
      simp [builtNode]
    next absent =>
      rw [rooted.absent (by simpa using absent) (List.prefix_append output (name :: rest))]
      simp [builtNode]

theorem emptied_frame {output q : Path} (h : ¬ output <+: q) : (emptied output t).get? q = t.get? q := by
  have differ : q ≠ output := by
    rintro rfl
    exact h (List.prefix_refl q)
  rw [emptied, Dict.get?_set_ne differ]
  split
  · exact FileTree.get?_clear_ne h
  · rfl

theorem not_prefix_child (root : Path) (name : Str) : ¬ root ++ [name] <+: root := by
  intro h
  have long := h.length_le
  rw [List.length_append, List.length_singleton] at long
  omega

theorem mkdir_emptied (rooted : t.Rooted) (there : t.isDir root = true) (name : Str) :
    FileTree.mkdir false (root ++ [name])
      (if t.exists_ (root ++ [name]) then t.clear (root ++ [name]) else t) =
      (emptied (root ++ [name]) t, .ok ()) := by
  have outside := not_prefix_child root name
  rw [emptied]
  split
  next =>
    refine FileTree.mkdir_new (rooted.clear _) ?_ (exists_child ?_)
    · rcases isDir_iff.mp there with rfl | made
      · exact isDir_iff.mpr (Or.inl rfl)
      · exact isDir_iff.mpr (Or.inr (by rw [FileTree.get?_clear_ne outside, made]))
    · exact FileTree.get?_clear_below (List.prefix_refl _)
  next absent => exact FileTree.mkdir_new rooted there (by simpa using absent)

theorem openable_hashes {output : Path} (shows_ : Shows output (builtNode variants none) t) :
    t.openable (output ++ [lit "hashes.json"]) = .ok () ↔ lit "hashes.json" ∉ variants.map Prod.fst := by
  have at_ := shows_ [lit "hashes.json"]
  rw [← lookup_eq_none]
  cases found : variants.lookup (lit "hashes.json") with
  | none =>
    simp only [builtNode, found, Option.map_none, ite_self] at at_
    simp [openable_child (shows_.isDir rfl) (isDir_child at_)]
  | some other =>
    simp only [builtNode, found, caseNode] at at_
    simp [FileTree.openable, isDir_of_get? at_]

/-- `build_all` succeeds exactly on a source and a mutation map that make cases, and leaves those cases. -/
theorem buildAll_returns (rooted : t.Rooted)
    (safe : ∀ fields, readJson (mutationsPath root) t = .ok (.obj fields) → ∀ f ∈ fields, SafeName f.1) :
    (buildAll root).Returns t hashes t' ↔ t.isFile (generatedPath root) = false ∧ ∃ variants,
      Variants root t variants ∧ hashes = hashesOf variants ∧
      builtTree (generatedPath root) variants t = t' := by
  have made : t.isDir root = true → FileTree.mkdir false (generatedPath root)
      (if t.exists_ (generatedPath root) then t.clear (generatedPath root) else t) =
      (emptied (generatedPath root) t, .ok ()) := fun there => mkdir_emptied rooted there (lit "generated")
  have empty := shows_emptied rooted (generatedPath root)
  constructor
  · intro h
    obtain ⟨source, _, hr, h⟩ := returns_bind.mp h
    obtain ⟨read, rfl⟩ := returns_inspect.mp hr
    obtain ⟨value, _, hr, h⟩ := returns_bind.mp h
    obtain ⟨loaded, rfl⟩ := returns_inspect.mp hr
    obtain ⟨_, _, hr, h⟩ := returns_bind.mp h
    have noFile := removeExisting_noFile rooted hr
    have removed := (removeExisting_returns noFile).mp hr
    subst removed
    obtain ⟨_, _, hm, h⟩ := returns_bind.mp h
    have made' := mkdir_returns.mp hm
    rw [made (isDir_of_read rooted read)] at made'
    cases made'
    obtain ⟨digest, _, hw, h⟩ := returns_bind.mp h
    obtain ⟨-, unicode, rfl, rfl⟩ := (writeCase_returns empty safeName_cleanControl).mp hw
    obtain ⟨fields, _, hl, later⟩ := returns_bind.mp h
    obtain ⟨items, rfl⟩ := returns_lift.mp hl
    rw [mutationItems_ok items] at loaded
    obtain ⟨result, _, hb, h⟩ := returns_bind.mp later
    obtain ⟨rest, listed, fresh, texts, rfl, rfl⟩ :=
      (buildMutants_returns (shows_caseTree empty rfl) (safe fields loaded) (keys_of_read loaded)).mp hb
    obtain ⟨dumped, _, hl, h⟩ := returns_bind.mp h
    obtain ⟨hd, rfl⟩ := returns_lift.mp hl
    obtain ⟨-, rfl⟩ := jsonDumps_eq_ok.mp hd
    obtain ⟨_, _, hw, h⟩ := returns_bind.mp h
    obtain ⟨opened, bytes, hu, rfl⟩ := writeText_returns.mp hw
    obtain ⟨-, rfl⟩ := utf8Encode_eq_some.mp hu
    obtain ⟨rfl, rfl⟩ := returns_pure.mp h
    have once : (((cleanControl, source) :: rest).map Prod.fst).Nodup := by
      rw [List.map_cons, List.nodup_cons, caseVariants_ids listed]
      refine ⟨fun hm => ?_, keys_of_read loaded⟩
      obtain ⟨m, hm, same⟩ := List.mem_map.mp hm
      simpa [same] using fresh m hm
    have whole := shows_variants empty once
    refine ⟨noFile, (cleanControl, source) :: rest, ⟨⟨source, fields, rest, read, loaded, caseVariants_ok.mp listed, rfl⟩,
      once, (openable_hashes whole).mp opened, ?_⟩, rfl, builtTree_cons⟩
    intro v hv
    rcases List.mem_cons.mp hv with rfl | hv
    · exact unicode
    · exact texts v hv
  · rintro ⟨noFile, variants, ⟨⟨source, fields, rest, read, loaded, listed, rfl⟩, once, apart, texts⟩, rfl, rfl⟩
    rw [builtTree_cons]
    rw [← caseVariants_ok] at listed
    have whole := shows_variants empty once
    have ids := once
    rw [List.map_cons, List.nodup_cons, caseVariants_ids listed] at ids
    refine returns_bind.mpr ⟨source, t, returns_inspect.mpr ⟨read, rfl⟩, ?_⟩
    refine returns_bind.mpr ⟨.obj fields, t, returns_inspect.mpr ⟨loaded, rfl⟩, ?_⟩
    refine returns_bind.mpr ⟨(), _, (removeExisting_returns noFile).mpr rfl, ?_⟩
    refine returns_bind.mpr ⟨(), _, mkdir_returns.mpr (made (isDir_of_read rooted read)), ?_⟩
    refine returns_bind.mpr ⟨_, _, (writeCase_returns empty safeName_cleanControl).mpr
      ⟨rfl, texts _ List.mem_cons_self, rfl, rfl⟩, ?_⟩
    refine returns_bind.mpr ⟨fields, _, returns_lift.mpr ⟨rfl, rfl⟩, ?_⟩
    refine returns_bind.mpr ⟨_, _, (buildMutants_returns (shows_caseTree empty rfl) (safe fields loaded)
      (keys_of_read loaded)).mpr ⟨rest, listed, ?_, fun v hv => texts v (List.mem_cons_of_mem _ hv), rfl, rfl⟩, ?_⟩
    · intro m hm
      refine lookup_append_one.mpr ⟨rfl, ?_⟩
      rintro same
      exact ids.1 (same ▸ List.mem_map_of_mem hm)
    refine returns_bind.mpr ⟨_, _, returns_lift.mpr ⟨jsonDumps_eq_ok.mpr ⟨?_, rfl⟩, rfl⟩, ?_⟩
    · exact Json.printable_sortKeys (hashesPayload_printable _)
    refine returns_bind.mpr ⟨(), _, writeText_returns.mpr ⟨(openable_hashes whole).mpr apart, _,
      utf8Encode_eq_some.mpr ⟨?_, rfl⟩, rfl⟩, returns_pure.mpr ⟨rfl, rfl⟩⟩
    exact isUnicode_append (encode_asciiIndented_isUnicode _ _) lineFeed_isUnicode

theorem shows_builtTree (rooted : t.Rooted) {output : Path} (once : (variants.map Prod.fst).Nodup)
    (apart : lit "hashes.json" ∉ variants.map Prod.fst) :
    Shows output (builtNode variants (some (hashesText variants))) (builtTree output variants t) := by
  have whole := shows_foldl (shows_emptied rooted output) once fun v _ => rfl
  rw [List.nil_append] at whole
  intro rest
  rw [builtTree, Dict.get?_set]
  by_cases at_ : output ++ rest = output ++ [lit "hashes.json"]
  · obtain rfl := List.append_cancel_left at_
    rw [if_pos rfl]
    simp [builtNode, lookup_eq_none.mpr apart]
  · rw [if_neg at_, whole rest]
    have differ : rest ≠ [lit "hashes.json"] := fun same => at_ (by rw [same])
    cases rest with
    | nil => rfl
    | cons name rest =>
      simp only [builtNode]
      cases variants.lookup name with
      | some source => rfl
      | none =>
        have other : ¬ (name = lit "hashes.json" ∧ rest = []) := fun h => differ (by rw [h.1, h.2])
        rw [if_neg other, if_neg other]

theorem builtTree_frame {output q : Path} (h : ¬ output <+: q) :
    (builtTree output variants t).get? q = t.get? q := by
  have differ : q ≠ output ++ [lit "hashes.json"] := by
    rintro rfl
    exact h (List.prefix_append output _)
  rw [builtTree, Dict.get?_set_ne differ, foldl_caseTree_frame h, emptied_frame h]

theorem get?_hashesOf (once : (variants.map Prod.fst).Nodup) (id : Str) :
    (hashesOf variants).get? id = (variants.lookup id).map fun source => Sha256.digest (encoded source) := by
  have from_ : ∀ hashes : Dict Str Sha256.Digest, (variants.foldl addHash hashes).get? id =
      ((variants.lookup id).map fun source => Sha256.digest (encoded source)).or (hashes.get? id) := by
    induction variants with
    | nil => simp
    | cons variant variants ih =>
      intro hashes
      rw [List.map_cons, List.nodup_cons] at once
      rw [List.foldl_cons, ih once.2, addHash, Dict.get?_set, List.lookup_cons]
      by_cases same : id = variant.1
      · have absent : variants.lookup variant.1 = none := lookup_eq_none.mpr once.1
        simp [same, absent]
      · simp [same, beq_eq_false_iff_ne.mpr same]
  rw [hashesOf, from_, Dict.get?_empty, Option.or_none]

end Builds

section Rebuilds

variable {root output : Path} {t t' : FileTree} {variants : List (Str × Str)} {caseId source : Str}
  {hashes : Dict Str Sha256.Digest}

theorem rooted_emptied (rooted : t.Rooted) (there : t.isDir root = true) (name : Str) :
    (emptied (root ++ [name]) t).Rooted := by
  have outside := not_prefix_child root name
  have kept : (if t.exists_ (root ++ [name]) then t.clear (root ++ [name]) else t).Rooted ∧
      (if t.exists_ (root ++ [name]) then t.clear (root ++ [name]) else t).isDir root = true ∧
      (if t.exists_ (root ++ [name]) then t.clear (root ++ [name]) else t).get? (root ++ [name]) = none := by
    split
    next =>
      refine ⟨rooted.clear _, ?_, FileTree.get?_clear_below (List.prefix_refl _)⟩
      rcases isDir_iff.mp there with rfl | made
      · exact isDir_iff.mpr (Or.inl rfl)
      · exact isDir_iff.mpr (Or.inr (by rw [FileTree.get?_clear_ne outside, made]))
    next absent => exact ⟨rooted, there, FileTree.get?_of_not_exists (by simpa using absent)⟩
  exact kept.1.set kept.2.1 (by rw [kept.2.2]; simp) .dir

theorem rooted_caseTree (rooted : t.Rooted) (shows_ : Shows output (builtNode variants none) t)
    (new : variants.lookup caseId = none) : (caseTree output t (caseId, source)).Rooted := by
  have free : ∀ rest, t.get? (output ++ caseId :: rest) = none := by
    intro rest
    rw [shows_ (caseId :: rest)]
    simp [builtNode, new]
  have inside : ∀ name, t.get? (output ++ [caseId] ++ [name]) = none := by
    intro name
    rw [List.append_assoc]
    exact free [name]
  have first := rooted.set (shows_.isDir rfl) (by rw [free []]; simp) .dir
  have child : ∀ {T : FileTree}, T.Rooted → T.get? (output ++ [caseId]) = some .dir → ∀ name,
      T.get? (output ++ [caseId] ++ [name]) = none → ∀ node,
      FileTree.Rooted (Dict.set T (output ++ [caseId] ++ [name]) node) := by
    intro T ok there name free node
    exact ok.set (isDir_of_get? there) (by rw [free]; simp) node
  have main := child first (Dict.get?_set_self _ _ _) (lit "main.py")
    (by rw [Dict.get?_set_ne (by simp), inside]) (.file (encoded source))
  have readme := child main (by rw [Dict.get?_set_ne (by simp), Dict.get?_set_self]) (lit "README.md")
    (by rw [Dict.get?_set_ne (by simp), Dict.get?_set_ne (by simp), inside]) (.file (encoded neutralReadme))
  exact child readme (by rw [Dict.get?_set_ne (by simp), Dict.get?_set_ne (by simp), Dict.get?_set_self])
    (lit "pyproject.toml")
    (by rw [Dict.get?_set_ne (by simp), Dict.get?_set_ne (by simp), Dict.get?_set_ne (by simp), inside])
    (.file (encoded pyproject))

theorem rooted_foldl {done : List (Str × Str)} (rooted : t.Rooted) (shows_ : Shows output (builtNode done none) t)
    (once : (variants.map Prod.fst).Nodup) (fresh : ∀ v ∈ variants, done.lookup v.1 = none) :
    (variants.foldl (caseTree output) t).Rooted := by
  induction variants generalizing done t with
  | nil => exact rooted
  | cons variant variants ih =>
    rw [List.map_cons, List.nodup_cons] at once
    have new := fresh variant List.mem_cons_self
    refine ih (rooted_caseTree rooted shows_ new) (shows_caseTree shows_ new) once.2 fun v hv => ?_
    exact lookup_append_one.mpr ⟨fresh v (List.mem_cons_of_mem variant hv),
      fun same => once.1 (same ▸ List.mem_map_of_mem hv)⟩

theorem rooted_builtTree (rooted : t.Rooted) (made : Variants root t variants) :
    (builtTree (generatedPath root) variants t).Rooted := by
  have there := made.there rooted
  have empty := shows_emptied rooted (generatedPath root)
  have cases_ := rooted_foldl (rooted_emptied rooted there (lit "generated")) empty made.once fun v _ => rfl
  have whole := shows_foldl empty made.once fun v _ => rfl
  rw [List.nil_append] at whole
  refine cases_.set (whole.isDir rfl) ?_ _
  rw [← generatedPath, whole [lit "hashes.json"]]
  simp [builtNode, lookup_eq_none.mpr made.apart]

theorem outside_generated (root : Path) : ¬ generatedPath root <+: sourcePath root ∧
    ¬ generatedPath root <+: mutationsPath root := by
  constructor
  · intro h
    have same := (List.prefix_append_right_inj root).mp h
    simp at same
  · intro h
    have same := (List.prefix_append_right_inj root).mp h
    simp at same

theorem readText_kept {p : Path} (same : t'.get? p = t.get? p) : readText p t' = readText p t := by
  rw [readText, readText, FileTree.readBytes, FileTree.readBytes, same]

theorem readJson_kept (same : ∀ q, ¬ generatedPath root <+: q → t'.get? q = t.get? q) :
    readJson (mutationsPath root) t' = readJson (mutationsPath root) t := by
  rw [readJson, readJson, readText_kept (same _ (outside_generated root).2)]

/-- The same cases are made of trees with the same source and the same mutation map. -/
theorem Variants.congr (h : Variants root t variants)
    (same : ∀ q, ¬ generatedPath root <+: q → t'.get? q = t.get? q) : Variants root t' variants := by
  obtain ⟨⟨source, fields, rest, read, loaded, listed, rfl⟩, once, apart, texts⟩ := h
  exact ⟨⟨source, fields, rest, (readText_kept (same _ (outside_generated root).1)).trans read,
    (readJson_kept same).trans loaded, listed, rfl⟩, once, apart, texts⟩

end Rebuilds

section Small

end Small

end EdgecaseForge

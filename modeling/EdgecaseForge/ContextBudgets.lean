import EdgecaseForge.GreedyPrefix
import EdgecaseForge.IgnoredFiles

namespace EdgecaseForge

open Text RepositoryContext RouteMap Greedy

section Included

variable {lower : Str → Str} {maxChars total : Nat} {files : List (Path × Bytes)}
  {file : Path × Bytes}

/-- The file passes the filters of the collector. -/
def eligible (lower : Str → Str) (file : Path × Bytes) : Bool :=
  (fileSection lower file).isSome

def sectionOf (lower : Str → Str) (file : Path × Bytes) : Str :=
  (fileSection lower file).getD []

def sectionLength (lower : Str → Str) (file : Path × Bytes) : Nat :=
  (sectionOf lower file).length

/-- The files whose sections the loop appends. -/
def includedFrom (lower : Str → Str) (maxChars : Nat) : Nat → List (Path × Bytes) → List (Path × Bytes)
  | _, [] => []
  | total, file :: rest =>
    match fileSection lower file with
    | none => includedFrom lower maxChars total rest
    | some text =>
      if maxChars < total + text.length then []
      else file :: includedFrom lower maxChars (total + text.length) rest

theorem collectFrom_included (lower : Str → Str) (maxChars total : Nat) (files : List (Path × Bytes)) :
    collectFrom lower maxChars total files =
      (includedFrom lower maxChars total files).map (sectionOf lower) := by
  induction files generalizing total with
  | nil => rfl
  | cons file files ih =>
    unfold collectFrom includedFrom
    cases hs : fileSection lower file with
    | none => exact ih total
    | some text =>
      dsimp only
      split
      · rfl
      · rw [List.map_cons, ih, sectionOf, hs, Option.getD_some]

/-- The loop is the greedy one over the eligible files. -/
theorem includedFrom_eq_takeWithin (lower : Str → Str) (maxChars total : Nat)
    (files : List (Path × Bytes)) :
    includedFrom lower maxChars total files =
      takeWithin (sectionLength lower) maxChars total (files.filter (eligible lower)) := by
  induction files generalizing total with
  | nil => rfl
  | cons file files ih =>
    unfold includedFrom
    cases hs : fileSection lower file with
    | none => rw [List.filter_cons_of_neg (by simp [eligible, hs])]; exact ih total
    | some text =>
      have size : sectionLength lower file = text.length := by
        rw [sectionLength, sectionOf, hs, Option.getD_some]
      rw [List.filter_cons_of_pos (by simp [eligible, hs]), takeWithin, size]
      dsimp only
      rw [ih]

/-- The files whose sections `collect` joins. -/
def included (lower : Str → Str) (priority : List Str) (maxChars : Nat) (r : Repository) :
    List (Path × Bytes) :=
  includedFrom lower maxChars 0 (orderedFiles priority r)

/-- The eligible files in the order in which they are read. -/
def candidates (lower : Str → Str) (priority : List Str) (r : Repository) : List (Path × Bytes) :=
  (orderedFiles priority r).filter (eligible lower)

theorem included_eq (lower : Str → Str) (priority : List Str) (maxChars : Nat) (r : Repository) :
    included lower priority maxChars r =
      takeWithin (sectionLength lower) maxChars 0 (candidates lower priority r) :=
  includedFrom_eq_takeWithin lower maxChars 0 _

theorem collect_included (lower : Str → Str) (priority : List Str) (maxChars : Nat) (r : Repository) :
    collect lower priority maxChars r =
      ((included lower priority maxChars r).map (sectionOf lower)).flatten := by
  rw [collect, collectFrom_included, included]

theorem collect_length (lower : Str → Str) (priority : List Str) (maxChars : Nat) (r : Repository) :
    (collect lower priority maxChars r).length =
      load (sectionLength lower) (included lower priority maxChars r) := by
  rw [collect_included, List.length_flatten, List.map_map]
  rfl

/-- The collector keeps to its budget. -/
theorem collect_length_le (lower : Str → Str) (priority : List Str) (maxChars : Nat) (r : Repository) :
    (collect lower priority maxChars r).length ≤ maxChars := by
  have within : 0 + load (sectionLength lower) _ ≤ maxChars :=
    load_takeWithin_le (Nat.zero_le maxChars) (candidates lower priority r)
  rw [collect_length, included_eq]
  omega

/-- Headers alone exceed a budget of one character. -/
theorem one_lt_sectionLength (h : eligible lower file = true) : 1 < sectionLength lower file := by
  obtain ⟨text, ht⟩ := Option.isSome_iff_exists.mp h
  have shape : ∃ content, text = header file.1 ++ content := by
    unfold fileSection at ht
    split at ht
    · cases ht
    · split at ht
      · cases ht
      · split at ht
        · cases ht
        · obtain ⟨content, -, rfl⟩ := Option.map_eq_some_iff.mp ht
          exact ⟨content, rfl⟩
  obtain ⟨content, rfl⟩ := shape
  have front : (lit "\n--- FILE: ").length = 11 := by decide
  rw [sectionLength, sectionOf, ht, Option.getD_some, header]
  simp only [List.length_append, front]
  omega

theorem collect_length_one (lower : Str → Str) (priority : List Str) (r : Repository) :
    (collect lower priority 1 r).length = 0 := by
  have none : takeWithin (sectionLength lower) 1 0 (candidates lower priority r) = [] := by
    apply takeWithin_eq_nil
    intro file hf
    have := one_lt_sectionLength (List.mem_filter.mp hf).2
    omega
  rw [collect_length, included_eq, none, load_nil]

/-- Where a file without priority is included, all eligible files with priority are. -/
theorem included_priority {priority : List Str} {r : Repository} {f g : Path × Bytes}
    (hf : f ∈ included lower priority maxChars r) (later : priority.contains (asPosix f.1) = false)
    (hg : g ∈ r.files.entries) (he : eligible lower g = true)
    (first : priority.contains (asPosix g.1) = true) : g ∈ included lower priority maxChars r := by
  have sorted : (candidates lower priority r).Pairwise fun a b => keyLe priority a b = true :=
    (List.pairwise_insertionSort _ _).filter _
  have member : g ∈ candidates lower priority r :=
    List.mem_filter.mpr ⟨(List.mem_insertionSort _).mpr hg, he⟩
  rw [included_eq] at hf ⊢
  refine mem_takeWithin_of_pairwise sorted hf member ?_
  unfold keyLe
  rw [later, first]
  simp

end Included

section Bounds

variable {py : PythonSource} {r : Repository} {m : RepositoryMap}

def routeSources (m : RepositoryMap) : List Str :=
  m.routes.map (·.source)

/-- What the contract scanner leaves for the source. -/
def sourceBudget (m : RepositoryMap) : Nat :=
  max 1 (maxContextChars - (RouteMap.render m).length - 40)

/-- The files whose source the context has beside this map. -/
def contextFiles (py : PythonSource) (r : Repository) (m : RepositoryMap) : List (Path × Bytes) :=
  included py.lower (routeSources m) (sourceBudget m) r

theorem contractContext_included (py : PythonSource) (r : Repository) (m : RepositoryMap) :
    contractContext py r m = RouteMap.render m ++ separator ++
      ((contextFiles py r m).map (sectionOf py.lower)).flatten := by
  rw [contractContext, collect_included, contextFiles, routeSources, sourceBudget]

theorem contractContext_length (py : PythonSource) (r : Repository) (m : RepositoryMap) :
    (contractContext py r m).length = (RouteMap.render m).length + 27 +
      (collect py.lower (routeSources m) (sourceBudget m) r).length := by
  have size : separator.length = 27 := by decide
  rw [contractContext, List.length_append, List.length_append, size, routeSources, sourceBudget]

/-- What is asked of a prepared context. -/
structure WithinBudget (py : PythonSource) (r : Repository) (prepared : Prepared) : Prop where
  bounded : prepared.context.length ≤ maxContextChars
  routesFirst : ∀ m, prepared.repositoryMap = some m → ∀ f ∈ contextFiles py r m,
    asPosix f.1 ∉ routeSources m → ∀ g ∈ r.files.entries, eligible py.lower g = true →
      asPosix g.1 ∈ routeSources m → g ∈ contextFiles py r m

/-- When the context of an agent fits: always; with a map short enough; with a plan that fits
beside all leading runs of files that the budget admits. -/
def Fits (py : PythonSource) (r : Repository) : Agent → Prop
  | .baseline => True
  | .contract => ∀ m, RouteMap.build py r = .ok m → (RouteMap.render m).length ≤ 179973
  | .stateful => ∀ m, RouteMap.build py r = .ok m →
    ∀ files, files <+: candidates py.lower (routeSources m) r →
      load (sectionLength py.lower) files ≤ sourceBudget m →
        (AttackPlan.build m).render.length + (RouteMap.render m).length + 29 +
          load (sectionLength py.lower) files ≤ maxContextChars

theorem routesFirst (py : PythonSource) (r : Repository) (m : RepositoryMap) :
    ∀ f ∈ contextFiles py r m, asPosix f.1 ∉ routeSources m → ∀ g ∈ r.files.entries,
      eligible py.lower g = true → asPosix g.1 ∈ routeSources m → g ∈ contextFiles py r m := by
  intro f hf later g hg he first
  have later : (routeSources m).contains (asPosix f.1) = false := by simpa using later
  have first : (routeSources m).contains (asPosix g.1) = true := by simpa using first
  exact included_priority hf later hg he first

theorem contractContext_bounded_iff (py : PythonSource) (r : Repository) (m : RepositoryMap) :
    (contractContext py r m).length ≤ maxContextChars ↔ (RouteMap.render m).length ≤ 179973 := by
  have limit : maxContextChars = 180000 := rfl
  have within := collect_length_le py.lower (routeSources m) (sourceBudget m) r
  rw [contractContext_length, limit]
  by_cases short : (RouteMap.render m).length ≤ 179959
  · have budget : sourceBudget m = 179960 - (RouteMap.render m).length := by
      rw [sourceBudget, limit]
      omega
    omega
  · have budget : sourceBudget m = 1 := by
      rw [sourceBudget, limit]
      omega
    rw [budget, collect_length_one]
    omega

theorem statefulContext_bounded_iff (py : PythonSource) (r : Repository) (m : RepositoryMap) :
    ((AttackPlan.build m).render ++ lit "\n\n" ++ contractContext py r m).length ≤ maxContextChars ↔
      ∀ files, files <+: candidates py.lower (routeSources m) r →
        load (sectionLength py.lower) files ≤ sourceBudget m →
          (AttackPlan.build m).render.length + (RouteMap.render m).length + 29 +
            load (sectionLength py.lower) files ≤ maxContextChars := by
  have size : (lit "\n\n").length = 2 := by decide
  have taken := included_eq py.lower (routeSources m) (sourceBudget m) r
  rw [List.length_append, List.length_append, contractContext_length, size, collect_length, taken]
  constructor
  · intro bounded files hp fits
    have fits : 0 + load (sectionLength py.lower) files ≤ sourceBudget m := by omega
    obtain ⟨rest, split⟩ := isPrefix_takeWithin hp fits
    rw [← split, load_append] at bounded
    omega
  · intro all
    have within : 0 + load (sectionLength py.lower) _ ≤ sourceBudget m :=
      load_takeWithin_le (Nat.zero_le (sourceBudget m)) (candidates py.lower (routeSources m) r)
    rw [Nat.zero_add] at within
    have := all _ (takeWithin_isPrefix 0 _) within
    omega

/-- What an agent prepares is within its budget if and only if its context fits. -/
theorem prepareRepository_withinBudget (py : PythonSource) (r : Repository) (agent : Agent) :
    (∀ prepared, prepareRepository py r agent = .ok prepared → WithinBudget py r prepared) ↔
      Fits py r agent := by
  cases agent with
  | baseline =>
    refine iff_of_true ?_ trivial
    rintro _ ⟨⟩
    refine ⟨collect_length_le py.lower [] maxContextChars r, fun m hm => ?_⟩
    cases hm
  | contract =>
    cases hb : RouteMap.build py r with
    | error e =>
      rw [Fits, prepareRepository, hb]
      refine iff_of_true ?_ ?_ <;> rintro _ ⟨⟩
    | ok m =>
      rw [Fits, hb, prepareRepository, hb]
      constructor
      · rintro within _ ⟨⟩
        exact (contractContext_bounded_iff py r m).mp (within _ rfl).bounded
      · rintro fits _ ⟨⟩
        exact ⟨(contractContext_bounded_iff py r m).mpr (fits m rfl), by rintro _ ⟨⟩; exact routesFirst py r m⟩
  | stateful =>
    cases hb : RouteMap.build py r with
    | error e =>
      rw [Fits, prepareRepository, hb]
      refine iff_of_true ?_ ?_ <;> rintro _ ⟨⟩
    | ok m =>
      rw [Fits, hb, prepareRepository, hb]
      constructor
      · rintro within _ ⟨⟩
        exact (statefulContext_bounded_iff py r m).mp (within _ rfl).bounded
      · rintro fits _ ⟨⟩
        exact ⟨(statefulContext_bounded_iff py r m).mpr (fits m rfl), by rintro _ ⟨⟩; exact routesFirst py r m⟩

end Bounds

section Notes

theorem utf8Decode_replicate (n : Nat) :
    utf8Decode (List.replicate n 0x61) = some (List.replicate n 0x61) := by
  induction n with
  | zero => rfl
  | succ n ih =>
    rw [List.replicate_succ, List.replicate_succ]
    exact (utf8Decode_one (List.replicate n 0x61) (c := 0x61) (by decide)).trans (by rw [ih]; rfl)

theorem decodeText_replicate (n : Nat) :
    decodeText (List.replicate n 0x61) = some (List.replicate n 0x61) := by
  rw [decodeText, utf8Decode_replicate, Option.map_some, universalNewlines_of_forall]
  intro c hc
  rw [List.eq_of_mem_replicate hc]
  decide

/-- A text file of one directory with a name of one letter. -/
def note (letter : CodePoint) (size : Nat) : Path × Bytes :=
  ([[letter, 0x2E, 0x6D, 0x64]], List.replicate size 0x61)

def notes : Repository where
  files := ⟨[note 0x61 59924, note 0x62 59924, note 0x63 59925], by decide⟩
  named := by decide
  apart := by decide

theorem build_notes : RouteMap.build emptyModules notes = .ok (mapOf emptyModules []) := rfl

theorem fileSection_note {letter : CodePoint} {size : Nat} (small : size ≤ maxFileBytes)
    (allowed : allowedSuffixes.contains (Text.lower (suffix [[letter, 0x2E, 0x6D, 0x64]])) = true)
    (free : ignored [[letter, 0x2E, 0x6D, 0x64]] = false) :
    fileSection Text.lower (note letter size) =
      some (header [[letter, 0x2E, 0x6D, 0x64]] ++ List.replicate size 0x61) := by
  rw [fileSection, note, allowed, free]
  simp only [List.length_replicate, decodeText_replicate, Option.map_some]
  rw [if_neg (by simp), if_neg (by simp), if_neg (by omega)]

theorem sectionLength_note {letter : CodePoint} {size : Nat} (small : size ≤ maxFileBytes)
    (allowed : allowedSuffixes.contains (Text.lower (suffix [[letter, 0x2E, 0x6D, 0x64]])) = true)
    (free : ignored [[letter, 0x2E, 0x6D, 0x64]] = false) :
    eligible Text.lower (note letter size) = true ∧
      sectionLength Text.lower (note letter size) = 20 + size := by
  have text := fileSection_note small allowed free
  have front : (lit "\n--- FILE: ").length = 11 := by decide
  have back : (lit " ---\n").length = 5 := by decide
  refine ⟨by rw [eligible, text]; rfl, ?_⟩
  rw [sectionLength, sectionOf, text, Option.getD_some, header]
  simp only [List.length_append, List.length_replicate, front, back]
  simp only [asPosix, join, List.length_cons, List.length_nil]

theorem notes_eligible {file : Path × Bytes} (h : file ∈ notes.files.entries) :
    eligible Text.lower file = true := by
  simp only [notes, List.mem_cons, List.not_mem_nil, or_false] at h
  rcases h with rfl | rfl | rfl <;>
    exact (sectionLength_note (by decide) (by decide) (by decide)).1

theorem candidates_notes : candidates Text.lower [] notes = notes.files.entries := by
  have sorted : notes.files.entries.Pairwise fun a b => keyLe [] a b = true := by
    simp only [notes, List.pairwise_cons]
    decide
  rw [candidates, orderedFiles, sorted.insertionSort_eq, List.filter_eq_self]
  exact fun file => notes_eligible

theorem load_notes : load (sectionLength Text.lower) notes.files.entries = 179833 := by
  have a : _ ∧ sectionLength Text.lower (note 0x61 59924) = _ :=
    sectionLength_note (by decide) (by decide) (by decide)
  have b : _ ∧ sectionLength Text.lower (note 0x62 59924) = _ :=
    sectionLength_note (by decide) (by decide) (by decide)
  have c : _ ∧ sectionLength Text.lower (note 0x63 59925) = _ :=
    sectionLength_note (by decide) (by decide) (by decide)
  have shape : notes.files.entries = [note 0x61 59924, note 0x62 59924, note 0x63 59925] := rfl
  rw [shape, load_cons, load_cons, load_cons, load_nil, a.2, b.2, c.2]

/-- Three files that the budget admits leave no room for the plan. -/
theorem prepareRepository_notes : ∃ prepared, prepareRepository emptyModules notes .stateful = .ok prepared ∧
    maxContextChars < prepared.context.length := by
  have map : (RouteMap.render (mapOf emptyModules [])).length = 127 := by decide +kernel
  have plan : (AttackPlan.build (mapOf emptyModules [])).render.length = 86 := by decide
  have budget : sourceBudget (mapOf emptyModules []) = 179833 := by rw [sourceBudget, map]; rfl
  refine ⟨_, by rw [prepareRepository, build_notes]; rfl, ?_⟩
  by_contra within
  have all := (statefulContext_bounded_iff emptyModules notes _).mp (Nat.le_of_not_lt within)
  have beyond := all notes.files.entries (candidates_notes ▸ List.prefix_refl _)
    (load_notes.trans budget.symm).le
  rw [map, plan, show load (sectionLength emptyModules.lower) _ = _ from load_notes] at beyond
  exact absurd beyond (by decide)

end Notes

end EdgecaseForge

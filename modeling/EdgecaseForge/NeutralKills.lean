import EdgecaseForge.NeutralRuns

namespace EdgecaseForge

open Text Effect Program Occurrences

section Verdicts

variable {clean mutant : NeutralExecution} {nodes nodes' : List PytestNodeResult} {key : Str}

end Verdicts

section Isolation

variable {root parent caseDir caseDir' : Path} {name caseId caseId' : Str} {t t' : FileTree}

end Isolation

section Built

variable {root parent : Path} {name caseId source mutated : Str} {t t' : FileTree} {variants : List (Str × Str)}
  {hashes hashes' : Option Bytes}

/-- Where a case is run: a directory that may be removed, apart from the cases. -/
structure RunsAt (root parent : Path) (name : Str) (t : FileTree) : Prop where
  rooted : t.Rooted
  there : t.isDir parent = true
  noFile : t.isFile (parent ++ [name]) = false
  below : ¬ parent ++ [name] <+: generatedPath root
  above : ¬ generatedPath root <+: parent ++ [name]

theorem RunsAt.outside (h : RunsAt root parent name t) (rest : Path) :
    ¬ parent ++ [name] <+: generatedPath root ++ rest := by
  intro hp
  rcases List.prefix_or_prefix_of_prefix hp (List.prefix_append _ _) with hq | hq
  · exact h.below hq
  · exact h.above hq

theorem RunsAt.staged (h : RunsAt root parent name t) (safe : SafeName caseId)
    (shows_ : Shows (generatedPath root) (builtNode variants hashes) t)
    (listed : variants.lookup caseId = some source) :
    Staged parent name (joinPath (generatedPath root) caseId) t := by
  have made : t.get? (generatedPath root ++ [caseId]) = some .dir := by
    rw [shows_ [caseId]]
    simp only [builtNode, listed, caseNode]
  rw [safe.joinPath]
  refine ⟨h.rooted, h.there, h.noFile, ?_, fun file => ?_, h.outside [caseId]⟩
  · rw [FileTree.exists_, isDir_of_get? made, Bool.or_true]
  · rw [List.append_assoc]
    exact h.outside _

end Built

section Hook

theorem hookTree_runs : RunsAt [] [lit "work"] (lit "neutral-execution") hookTree where
  rooted := rooted_builtTree hookBench_rooted hookBench_variants
  there := isDir_of_get? ((hookTree_outside (by decide)).trans (Dict.get?_of_mem (by simp [hookBench])))
  noFile := by
    have absent : hookBench.get? ([lit "work"] ++ [lit "neutral-execution"]) = none :=
      Dict.get?_eq_none_iff.mpr (by simp [Dict.keys, hookBench])
    rw [FileTree.isFile, hookTree_outside (by decide), absent]
  below := by decide
  above := by decide

end Hook

end EdgecaseForge

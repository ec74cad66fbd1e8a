import EdgecaseForge.OverlayRuns

namespace EdgecaseForge

open Text Effect Program

/-- A value has a text of its own as a file. -/
def Printed (payload : Json) : Prop :=
  ∃ bytes, Prints payload bytes

/-- A write-once that makes the file. -/
structure Writable (directory : Path) (name : Str) (payload : Json) (t : FileTree) : Prop where
  absent : t.get? (directory ++ [name]) = none
  openable : t.isDir (directory ++ [name ++ lit ".tmp"]) = false
  printed : Printed payload

/-- A write-once that opens its temporary file and cannot encode the text. -/
structure Interrupted (directory : Path) (name : Str) (payload : Json) (t : FileTree) : Prop where
  absent : t.get? (directory ++ [name]) = none
  openable : t.isDir (directory ++ [name ++ lit ".tmp"]) = false
  printable : payload.printable = true
  unprinted : ¬ Printed payload

section WriteOnce

variable {directory : Path} {name s : Str} {payload : Json} {t t' : FileTree} {e : PyError}

theorem child_ne_temporary (directory : Path) (name : Str) :
    directory ++ [name] ≠ directory ++ [name ++ lit ".tmp"] := by
  have differ := ne_temporaryPath (directory ++ [name])
  rwa [temporaryPath_child] at differ

/-- What an atomic write does where there is no file. -/
theorem replaceText_absent (there : t.isDir directory = true) (absent : t.get? (directory ++ [name]) = none)
    (openable : t.isDir (directory ++ [name ++ lit ".tmp"]) = false) :
    replaceText (directory ++ [name]) s t = match utf8Encode s with
      | some bytes => (((t.set (directory ++ [name ++ lit ".tmp"]) (.file bytes)).set (directory ++ [name])
          (.file bytes)).erase (directory ++ [name ++ lit ".tmp"]), .ok ())
      | none => (t.set (directory ++ [name ++ lit ".tmp"]) (.file []), .error .unicodeEncodeError) := by
  unfold replaceText
  rw [temporaryPath_child, writeText, openable_child there openable, encodeUtf8]
  cases utf8Encode s with
  | none => rfl
  | some bytes =>
    have still : FileTree.isDir (t.set (directory ++ [name ++ lit ".tmp"]) (.file bytes))
        (directory ++ [name]) = false := by
      rw [FileTree.isDir, Dict.get?_set_ne (child_ne_temporary directory name)]
      exact isDir_child absent
    simp only [still, Dict.get?_set_self, Bool.false_eq_true, if_false]

theorem mkdir_there (there : t.isDir directory = true) :
    FileTree.mkdir true (directory ++ [name]).dropLast t = (t, .ok ()) := by
  rw [List.dropLast_concat, FileTree.mkdir, if_pos there]
  rfl

theorem writeOnce_absent_ran {x : Except PyError Unit} (there : t.isDir directory = true)
    (absent : t.get? (directory ++ [name]) = none) (printable : payload.printable = true)
    (h : replaceText (directory ++ [name]) (Json.encode Json.indented 0 payload ++ [lineFeed]) t = (t', x)) :
    Program.Ran (writeOnce directory name payload) t [Note.wrote, Note.wrote] t' x := by
  have dumped := jsonDumps_eq_ok.mpr ⟨printable, (rfl : Json.encode Json.indented 0 payload = _)⟩
  have written : Program.Ran (writeJsonAtomic (directory ++ [name]) payload) t [Note.wrote, Note.wrote] t' x := by
    have made : Program.Ran (Disk.mkdir true (directory ++ [name]).dropLast) t [Note.wrote] t (.ok ()) :=
      Program.Ran.of_act (mkdir_there there)
    refine made.bind (?_ : Program.Ran _ t [Note.wrote] t' x)
    rw [dumped]
    exact Program.Ran.lift_bind (Program.Ran.of_act h)
  exact Program.Ran.inspect_bind (congrArg Except.ok (exists_child absent)) written

/-- The temporary file of an interrupted write stays behind. -/
theorem Interrupted.ran (there : t.isDir directory = true) (h : Interrupted directory name payload t) :
    ∃ e, Program.Ran (writeOnce directory name payload) t [Note.wrote, Note.wrote]
      (t.set (directory ++ [name ++ lit ".tmp"]) (.file [])) (.error e) := by
  have unencoded : utf8Encode (Json.encode Json.indented 0 payload ++ [lineFeed]) = none := by
    cases encoded : utf8Encode (Json.encode Json.indented 0 payload ++ [lineFeed]) with
    | none => rfl
    | some bytes => exact absurd ⟨bytes, h.printable, encoded⟩ h.unprinted
  have replaced := replaceText_absent (s := Json.encode Json.indented 0 payload ++ [lineFeed]) there h.absent
    h.openable
  rw [unencoded] at replaced
  exact ⟨_, writeOnce_absent_ran there h.absent h.printable replaced⟩

theorem Writable.ran (there : t.isDir directory = true) (h : Writable directory name payload t) :
    ∃ t' bytes, Program.Ran (writeOnce directory name payload) t [Note.wrote, Note.wrote] t' (.ok ()) ∧
      t'.get? (directory ++ [name]) = some (.file bytes) := by
  obtain ⟨bytes, printable, encoded⟩ := h.printed
  have replaced := replaceText_absent (s := Json.encode Json.indented 0 payload ++ [lineFeed]) there h.absent
    h.openable
  rw [encoded] at replaced
  refine ⟨_, bytes, writeOnce_absent_ran there h.absent printable replaced, ?_⟩
  rw [Dict.get?_erase, if_neg (child_ne_temporary directory name), Dict.get?_set_self]

end WriteOnce

/-- The write of an overlay is not stopped at its encoding, or has been stopped there before. -/
def Resumable (suiteDir : Path) (name : Str) (payload : Json) (t : FileTree) : Prop :=
  Interrupted suiteDir name payload t → t.get? (suiteDir ++ [name ++ lit ".tmp"]) = some (.file [])

/-- Once the adjudication of a review is made, nothing is left to fail. -/
structure Settled (suiteDir : Path) (review : Review) (t : FileTree) : Prop where
  adjudication : Resumable suiteDir adjudicationName review.adjudication.payload t
  made : Writable suiteDir adjudicationName review.adjudication.payload t → Summarisable review ∧
    ∀ sha256 summary, jsonSha256 review.adjudication.payload = .ok sha256 →
      buildAdjudicatedSummary review sha256 = .ok summary →
        Holds suiteDir adjudicatedName summary t ∨ Writable suiteDir adjudicatedName summary t
  found : Holds suiteDir adjudicationName review.adjudication.payload t →
    ∀ sha256 summary, jsonSha256 review.adjudication.payload = .ok sha256 →
      buildAdjudicatedSummary review sha256 = .ok summary → Resumable suiteDir adjudicatedName summary t

section Failures

variable {decode : DecisionReader} {suiteDir decisionsPath : Path} {t t' middle : FileTree} {name other : Str}
  {payload : Json} {e : PyError}

theorem Writable.of_get? (h : Writable suiteDir name payload t)
    (file : t'.get? (suiteDir ++ [name]) = t.get? (suiteDir ++ [name]))
    (scratch : t'.get? (suiteDir ++ [name ++ lit ".tmp"]) = t.get? (suiteDir ++ [name ++ lit ".tmp"])) :
    Writable suiteDir name payload t' := by
  refine ⟨file.trans h.absent, ?_, h.printed⟩
  have before := h.openable
  rw [FileTree.isDir] at before ⊢
  rwa [scratch]

end Failures

section Bare

end Bare

end EdgecaseForge

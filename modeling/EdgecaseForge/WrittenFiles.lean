import EdgecaseForge.JsonDecoded
import EdgecaseForge.JsonEncodable
import EdgecaseForge.ScanArtifacts

namespace EdgecaseForge

open Text Effect Program

section Encoded

variable {payload : Json} {s : Str} {p : Path} {t : FileTree}

theorem exists_bytes (unicode : isUnicode s = true) : ∃ bytes, utf8Encode s = some bytes := by
  rw [← utf8Encode_isSome] at unicode
  exact Option.isSome_iff_exists.mp unicode

theorem isUnicode_append {u : Str} (h : isUnicode s = true) (h' : isUnicode u = true) : isUnicode (s ++ u) = true := by
  rw [isUnicode, List.all_append]
  exact Bool.and_eq_true_iff.mpr ⟨h, h'⟩

theorem exists_jsonSha256 (h : payload.printable = true) :
    ∃ sha256, jsonSha256 payload = .ok sha256 ∧ isUnicode sha256 = true := by
  have dumped : canonicalJson payload = .ok (Json.encode Json.minimal 0 payload.sortKeys) :=
    jsonDumps_eq_ok.mpr ⟨Json.printable_sortKeys h, rfl⟩
  obtain ⟨bytes, encoded⟩ := exists_bytes (Json.encode_minimal_isUnicode payload.sortKeys 0)
  refine ⟨Sha256.sha256 bytes, ?_, Sha256.sha256_isUnicode bytes⟩
  rw [jsonSha256, dumped, Except.ok_bind, encodeUtf8, encoded]
  rfl

theorem isUnicode_blank {blank : Str} (h : ∀ c ∈ blank, c = lineFeed) : isUnicode blank = true :=
  List.all_eq_true.mpr fun c hc => by
    rw [h c hc]
    decide

/-- The text of a value on one line is read from a file as it was written. -/
theorem readText_encoded {blank : Str} (feeds : ∀ c ∈ blank, c = lineFeed) (h : payload.encodable = true)
    (file : t.get? p = some (.file ((utf8Encode (Json.encode Json.compact 0 payload ++ blank)).getD []))) :
    readText p t = .ok (Json.encode Json.compact 0 payload ++ blank) := by
  obtain ⟨bytes, encoded⟩ := exists_bytes
    (isUnicode_append (Json.encode_compact_isUnicode  h) (isUnicode_blank feeds))
  have plain : ∀ c ∈ Json.encode Json.compact 0 payload ++ blank, c ≠ carriageReturn := by
    intro c hc
    rcases List.mem_append.mp hc with hc | hc
    · exact Json.lineBreak_ne_carriageReturn hc
    · rw [feeds c hc]
      decide
  rw [encoded, Option.getD_some] at file
  rw [readText, FileTree.readBytes, file]
  simp only [Except.ok_bind, utf8Decode_encode encoded, universalNewlines_of_forall plain]

theorem readJson_encoded {blank : Str} (feeds : ∀ c ∈ blank, c = lineFeed) (distinct : payload.distinct = true)
    (h : payload.encodable = true)
    (file : t.get? p = some (.file ((utf8Encode (Json.encode Json.compact 0 payload ++ blank)).getD []))) :
    readJson p t = .ok payload := by
  have spaces : ∀ c ∈ blank, Json.isJsonSpace c = true := by
    intro c hc
    rw [feeds c hc]
    decide
  rw [readJson, readText_encoded feeds h file, Except.ok_bind]
  exact jsonLoads_encode Json.compact_readable distinct (Json.encodable_printable h) spaces

theorem jsonLoads_distinct {value : Json} (h : jsonLoads s = .ok value) : value.distinct = true := by
  unfold jsonLoads at h
  cases hl : Json.loads s with
  | error failure =>
    rw [hl] at h
    cases h
  | ok loaded =>
    rw [hl] at h
    cases h
    exact Json.loads_distinct hl

theorem readJson_distinct {value : Json} (h : readJson p t = .ok value) :
    value.distinct = true := by
  obtain ⟨s, -, h⟩ := Except.bind_eq_ok.mp h
  exact jsonLoads_distinct h

end Encoded

section Total

variable {directory : Path} {name s : Str} {payload : Json} {t : FileTree}

theorem isDir_of_get? {p : Path} (h : t.get? p = some .dir) : t.isDir p = true := by
  simp [FileTree.isDir, h]

theorem isDir_of_file {content : Bytes} (h : t.get? (directory ++ [name]) = some (.file content)) :
    t.isDir (directory ++ [name]) = false := by
  simp [FileTree.isDir, h]

theorem isDir_child (h : t.get? (directory ++ [name]) = none) : t.isDir (directory ++ [name]) = false := by
  simp [FileTree.isDir, h]

theorem exists_child (h : t.get? (directory ++ [name]) = none) : t.exists_ (directory ++ [name]) = false := by
  rw [FileTree.exists_, isDir_child h, FileTree.isFile, h]
  rfl

theorem openable_child (there : t.isDir directory = true) (free : t.isDir (directory ++ [name]) = false) :
    t.openable (directory ++ [name]) = .ok () := by
  rw [FileTree.openable, free, List.dropLast_concat, there]
  rfl

theorem temporaryPath_child (directory : Path) (name : Str) :
    temporaryPath (directory ++ [name]) = directory ++ [name ++ lit ".tmp"] := by
  simp [temporaryPath]

/-- A text replaces a file where neither it nor its temporary file is a directory. -/
theorem replaceText_total (there : t.isDir directory = true) (free : t.isDir (directory ++ [name]) = false)
    (scratch : t.isDir (directory ++ [name ++ lit ".tmp"]) = false) (unicode : isUnicode s = true) :
    ∃ t', replaceText (directory ++ [name]) s t = (t', .ok ()) := by
  obtain ⟨bytes, encoded⟩ := exists_bytes unicode
  have written : writeText (directory ++ [name ++ lit ".tmp"]) s t =
      (t.set (directory ++ [name ++ lit ".tmp"]) (.file bytes), .ok ()) := by
    rw [writeText, openable_child there scratch, encodeUtf8, encoded]
  have differ : directory ++ [name] ≠ directory ++ [name ++ lit ".tmp"] := by
    intro same
    have lengths := congrArg List.length (List.cons.inj (List.append_cancel_left same)).1
    rw [List.length_append] at lengths
    have long : (lit ".tmp").length = 4 := rfl
    omega
  have still : FileTree.isDir (t.set (directory ++ [name ++ lit ".tmp"]) (.file bytes)) (directory ++ [name]) = false := by
    rw [FileTree.isDir, Dict.get?_set_ne differ]
    exact free
  unfold replaceText
  rw [temporaryPath_child, written]
  simp only [still, Dict.get?_set_self, Bool.false_eq_true, if_false]
  exact ⟨_, rfl⟩

theorem writeJsonAtomic_total (there : t.isDir directory = true) (free : t.isDir (directory ++ [name]) = false)
    (scratch : t.isDir (directory ++ [name ++ lit ".tmp"]) = false) (h : payload.encodable = true) :
    ∃ t', (writeJsonAtomic (directory ++ [name]) payload).Returns t () t' := by
  have unicode : isUnicode (Json.encode Json.indented 0 payload ++ [lineFeed]) = true :=
    isUnicode_append (Json.encode_indented_isUnicode h) (by decide)
  obtain ⟨t', replaced⟩ := replaceText_total there free scratch unicode
  have made : FileTree.mkdir true (directory ++ [name]).dropLast t = (t, .ok ()) := by
    rw [List.dropLast_concat, FileTree.mkdir, if_pos there]
    rfl
  have dumped : jsonDumps Json.indented payload = .ok (Json.encode Json.indented 0 payload) :=
    jsonDumps_eq_ok.mpr ⟨Json.encodable_printable h, rfl⟩
  refine ⟨t', returns_bind.mpr ⟨(), t, returns_act.mpr made, ?_⟩⟩
  exact returns_bind.mpr ⟨_, t, returns_lift.mpr ⟨dumped, rfl⟩, returns_act.mpr replaced⟩

end Total

end EdgecaseForge

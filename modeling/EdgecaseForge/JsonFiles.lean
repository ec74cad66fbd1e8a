import EdgecaseForge.FileTree
import EdgecaseForge.JsonLines
import EdgecaseForge.JsonLocal

namespace EdgecaseForge

open Text

def digitsMessage : Str :=
  lit "Exceeds the limit (4300 digits) for integer string conversion"

/-- The exception of a failed `json.loads`. -/
def failureError (s : Str) : Json.Failure → PyError
  | .malformed rest => .jsonDecodeError (s.length - rest.length)
  | .digits => .valueError digitsMessage
  | .recursion => .recursionError

def jsonLoads (s : Str) : Except PyError Json :=
  (Json.loads s).mapError (failureError s)

def jsonDumps (L : Json.Layout) (j : Json) : Except PyError Str :=
  match Json.dumps L j with
  | some s => .ok s
  | none => .error (.valueError digitsMessage)

/-- `path.read_text(encoding="utf-8")`. -/
def readText (p : Path) (t : FileTree) : Except PyError Str := do
  let bytes ← t.readBytes p
  match utf8Decode bytes with
  | some s => .ok (universalNewlines s)
  | none => .error .unicodeDecodeError

def readJson (p : Path) (t : FileTree) : Except PyError Json := do
  let s ← readText p t
  jsonLoads s

/-- `path.write_text(s, encoding="utf-8")`, which has opened the file when encoding fails. -/
def writeText (p : Path) (s : Str) (t : FileTree) : FileTree × Except PyError Unit :=
  match t.openable p with
  | .error e => (t, .error e)
  | .ok () =>
    match encodeUtf8 s with
    | .ok bytes => (t.set p (.file bytes), .ok ())
    | .error e => (t.set p (.file []), .error e)

def Disk.writeText (p : Path) (s : Str) : Disk Unit :=
  Disk.write (EdgecaseForge.writeText p s)

/-- `path.with_suffix(path.suffix + ".tmp")`. -/
def temporaryPath (p : Path) : Path :=
  p.dropLast ++ [p.getLast?.getD [] ++ lit ".tmp"]

/-- The temporary file is written and then takes the place of `p`. -/
def replaceText (p : Path) (s : Str) (t : FileTree) : FileTree × Except PyError Unit :=
  match writeText (temporaryPath p) s t with
  | (t, .error e) => (t, .error e)
  | (t, .ok ()) =>
    if t.isDir p then (t, .error .isADirectoryError)
    else
      match t.get? (temporaryPath p) with
      | some node => ((t.set p node).erase (temporaryPath p), .ok ())
      | none => (t, .error .fileNotFoundError)

def writeJsonAtomic (p : Path) (payload : Json) : Disk Unit := do
  Disk.mkdir true p.dropLast
  let s ← Effect.Program.lift (jsonDumps Json.indented payload)
  Disk.write (replaceText p (s ++ [lineFeed]))

def contentOrEmpty (p : Path) (t : FileTree) : Bytes :=
  match t.get? p with
  | some (.file content) => content
  | _ => []

def jsonLine (payload : Json) : Except PyError Bytes := do
  let s ← jsonDumps Json.compact payload
  encodeUtf8 (s ++ [lineFeed])

/-- Opening for appending makes the file, whether or not a line follows. -/
def appendLine (p : Path) (payload : Json) (t : FileTree) : FileTree × Except PyError Unit :=
  match t.openable p with
  | .error e => (t, .error e)
  | .ok () =>
    match jsonLine payload with
    | .ok line => (t.set p (.file (contentOrEmpty p t ++ line)), .ok ())
    | .error e => (t.set p (.file (contentOrEmpty p t)), .error e)

def appendJsonl (p : Path) (payload : Json) : Disk Unit :=
  Disk.write (appendLine p payload)

section Frame

variable {p q : Path} {s : Str} {t : FileTree}

theorem writeText_ne (h : q ≠ p) : (writeText p s t).1.get? q = t.get? q := by
  unfold writeText
  split
  next => rfl
  next =>
    split
    next => exact Dict.get?_set_ne h
    next => exact Dict.get?_set_ne h

theorem replaceText_ne (h : q ≠ p) (ht : q ≠ temporaryPath p) :
    (replaceText p s t).1.get? q = t.get? q := by
  have written : (writeText (temporaryPath p) s t).1.get? q = t.get? q := writeText_ne ht
  unfold replaceText
  split
  next t' e he =>
    rw [he] at written
    exact written
  next t' he =>
    rw [he] at written
    split
    next => exact written
    next =>
      split
      next => rw [Dict.get?_erase, if_neg ht, Dict.get?_set_ne h, written]
      next => exact written

theorem appendLine_ne {payload : Json} (h : q ≠ p) :
    (appendLine p payload t).1.get? q = t.get? q := by
  unfold appendLine
  split
  next => rfl
  next =>
    split
    next => exact Dict.get?_set_ne h
    next => exact Dict.get?_set_ne h

theorem ne_temporaryPath (p : Path) : p ≠ temporaryPath p := by
  intro he
  have last := congrArg (fun path : Path => (path.getLast?.getD []).length) he
  simp [temporaryPath, lit_eq] at last

/-- An atomic write that fails leaves the file as it was. -/
theorem replaceText_error {e : PyError} (h : (replaceText p s t).2 = .error e) :
    (replaceText p s t).1.get? p = t.get? p := by
  have written : (writeText (temporaryPath p) s t).1.get? p = t.get? p :=
    writeText_ne (ne_temporaryPath p)
  unfold replaceText at h ⊢
  split
  next t' e' he =>
    rw [he] at written
    exact written
  next t' he =>
    simp only [he] at h written
    split
    next => exact written
    next hd =>
      rw [if_neg hd] at h
      split
      next node hn =>
        rw [hn] at h
        cases h
      next => exact written

/-- What an atomic write leaves where it succeeds. -/
theorem replaceText_ok (h : (replaceText p s t).2 = .ok ()) :
    ∃ bytes, utf8Encode s = some bytes ∧
      (replaceText p s t).1.get? p = some (.file bytes) := by
  have differ := ne_temporaryPath p
  unfold replaceText writeText encodeUtf8 at h ⊢
  cases ho : t.openable (temporaryPath p) with
  | error e => simp [ho] at h
  | ok u =>
    cases hu : utf8Encode s with
    | none => simp [ho, hu] at h
    | some bytes =>
      refine ⟨bytes, rfl, ?_⟩
      simp only [ho, hu] at h ⊢
      split
      next hd =>
        rw [if_pos hd] at h
        cases h
      next hd => simp [Dict.get?_erase, differ]

/-- An atomic write that succeeds leaves no temporary file. -/
theorem replaceText_erased {t' : FileTree} {u : Unit} (h : replaceText p s t = (t', .ok u)) :
    t'.get? (temporaryPath p) = none := by
  unfold replaceText at h
  split at h
  next => cases h
  next =>
    split at h
    next => cases h
    next =>
      split at h
      next =>
        cases h
        rw [Dict.get?_erase, if_pos rfl]
      next => cases h

end Frame

section RoundTrip

theorem jsonLoads_encode {L : Json.Layout} (hL : L.Readable) {j : Json} (hd : j.distinct = true)
    (hp : j.printable = true) {blank : Str} (hb : ∀ c ∈ blank, Json.isJsonSpace c = true) :
    jsonLoads (Json.encode L 0 j ++ blank) = .ok j := by
  rw [jsonLoads, Json.loads_encode hL hd hp hb]
  rfl

theorem encodeUtf8_ok {s : Str} {bytes : Bytes} (h : encodeUtf8 s = .ok bytes) :
    utf8Encode s = some bytes := by
  unfold encodeUtf8 at h
  split at h
  next found =>
    cases h
    assumption
  next => cases h

theorem jsonDumps_eq_ok {L : Json.Layout} {j : Json} {s : Str} :
    jsonDumps L j = .ok s ↔ j.printable = true ∧ s = Json.encode L 0 j := by
  unfold jsonDumps Json.dumps
  cases j.printable <;> simp [eq_comm]

theorem lineFeed_blank : ∀ c ∈ [lineFeed], Json.isJsonSpace c = true := by
  simp
  decide

/-- A file that `write_json_atomic` wrote reads as what was written. -/
theorem readJson_written {p : Path} {t : FileTree} {j : Json} {bytes : Bytes}
    (hd : j.distinct = true) (hp : j.printable = true)
    (he : utf8Encode (Json.encode Json.indented 0 j ++ [lineFeed]) = some bytes)
    (ht : t.get? p = some (.file bytes)) : readJson p t = .ok j := by
  have plain : ∀ c ∈ Json.encode Json.indented 0 j ++ [lineFeed], c ≠ carriageReturn := by
    intro c hc
    rcases List.mem_append.mp hc with hc | hc
    · exact Json.encode_indented j 0 c hc
    · cases List.mem_singleton.mp hc
      decide
  have text : readText p t = .ok (Json.encode Json.indented 0 j ++ [lineFeed]) := by
    simp only [readText, FileTree.readBytes, ht, Except.ok_bind, utf8Decode_encode he,
      universalNewlines_of_forall plain]
  rw [readJson, text, Except.ok_bind]
  exact jsonLoads_encode Json.indented_readable hd hp lineFeed_blank

theorem jsonLine_eq_ok {payload : Json} {line : Bytes} : jsonLine payload = .ok line ↔
    payload.printable = true ∧
      utf8Encode (Json.encode Json.compact 0 payload ++ [lineFeed]) = some line := by
  have encoded : ∀ s : Str, encodeUtf8 s = .ok line ↔ utf8Encode s = some line := by
    intro s
    unfold encodeUtf8
    cases utf8Encode s <;> simp
  rw [jsonLine, Except.bind_eq_ok]
  constructor
  · rintro ⟨s, hs, he⟩
    obtain ⟨hp, rfl⟩ := jsonDumps_eq_ok.mp hs
    exact ⟨hp, (encoded _).mp he⟩
  · rintro ⟨hp, he⟩
    exact ⟨_, jsonDumps_eq_ok.mpr ⟨hp, rfl⟩, (encoded _).mpr he⟩

end RoundTrip

end EdgecaseForge

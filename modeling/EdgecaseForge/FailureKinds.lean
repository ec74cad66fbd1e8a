import Mathlib.Data.List.TakeWhile
import EdgecaseForge.CrashLocations
import EdgecaseForge.ExecutionResults

namespace EdgecaseForge

open Text Regex

/-- What `_parse_junit` reads of a `failure`, `error` or `skipped` element. -/
structure Element where
  message : Str
  text : Str

/-- What `_parse_junit` reads of a `testcase` element. -/
structure Testcase where
  classname : Str
  name : Option Str
  seconds : Double
  failure : Option Element
  error : Option Element
  skipped : Option Element

/-- `value[-limit:]`. -/
def tail (limit : Nat) (value : Str) : Str :=
  value.drop (value.length - limit)

def Element.content (element : Element) : Str :=
  join lineFeed ([element.message, element.text].filter fun value => value ≠ [])

def xmlMessage (element : Element) : Str :=
  tail 4000 element.content

def parseTestcase (k : CharClasses) (testcase : Testcase) : PytestNodeResult :=
  let testName := testcase.name.getD (lit "unknown")
  let nodeId := if testcase.classname = [] then testName else testcase.classname ++ lit "::" ++ testName
  let node := fun (outcome : String) (failureKind : Option String) (message : Str) =>
    { nodeId, testName, outcome := lit outcome, failureKind := failureKind.map lit, message,
      durationSeconds := testcase.seconds : PytestNodeResult }
  match testcase.error, testcase.failure, testcase.skipped with
  | some error, _, _ => node "error" (some "infrastructure_or_test_error") (xmlMessage error)
  | none, some failure, _ =>
    let message := xmlMessage failure
    if isAssertionFailure k message then node "failed" (some "assertion_failure") message
    else node "error" (some "test_exception") message
  | none, none, some skipped => node "skipped" none (xmlMessage skipped)
  | none, none, none => node "passed" none []

/-- `_parse_junit`, with the reader that finds the test cases of an XML text. -/
def parseJunit (k : CharClasses) (testcases : Str → Option (List Testcase)) (xmlText : Str) :
    List PytestNodeResult :=
  if xmlText = [] then []
  else
    match testcases xmlText with
    | none => []
    | some cases => cases.map (parseTestcase k)

def space : CodePoint := 0x20

/-- A type name as the pattern has it. -/
def IsTypeName (k : CharClasses) (name : Str) : Prop :=
  ∃ c tail, name = c :: tail ∧ nameStart c = true ∧ ∀ d ∈ tail, k.nameChar d = true

/-- The line `<path>.py:<digits>: <TypeName>`. -/
def IsCrashLine (k : CharClasses) (line name : Str) : Prop :=
  ∃ path suffix digits, lineFeed ∉ path ∧ Location k suffix digits ∧ IsTypeName k name ∧
    line = path ++ (locationText suffix digits [space] ++ name)

def lineText (lines : List Str) : Str :=
  lines.flatMap fun line => line ++ [lineFeed]

/-- The lines that a text ends, one for each line feed. -/
def endedLines (s : Str) : List Str :=
  (split lineFeed s).dropLast

/-- The start of a location that is still without its name. -/
def openLocation (k : CharClasses) : Pattern Unit := do
  let _ ← many notLineFeed
  text [dot]
  either (text (lit "py")) (text (lit "pyw"))
  text [colon]
  let _ ← many1 k.isDecimal
  text [colon]
  let _ ← many isSpace
  pure ()

def opensLocation (k : CharClasses) (line : Str) : Bool :=
  (openLocation k line).any fun way => way.2.isEmpty

def startsName (s : Str) : Bool :=
  match s.dropWhile isSpace with
  | c :: _ => nameStart c
  | [] => false

def leadingName (k : CharClasses) (s : Str) : Str :=
  (s.dropWhile isSpace).takeWhile k.nameChar

/-- Whether an open location of these lines takes its name from the line after them. -/
def awaitsName (k : CharClasses) : Bool → List Str → Bool
  | pending, [] => pending
  | pending, line :: lines =>
    if pending && line.all isSpace then awaitsName k true lines
    else awaitsName k (opensLocation k line && !(pending && startsName line)) lines

section Lines

variable {k : CharClasses} {line s u name rest x : Str} {lines blanks : List Str} {c : CodePoint}

theorem lineText_cons (line : Str) (lines : List Str) :
    lineText (line :: lines) = line ++ lineFeed :: lineText lines := by
  simp [lineText]

theorem lineText_append (lines others : List Str) :
    lineText (lines ++ others) = lineText lines ++ lineText others := by
  simp [lineText]

/-- A text that is empty or ends with a line feed is made of the lines it ends. -/
theorem lineText_endedLines (h : s = [] ∨ s.getLast? = some lineFeed) :
    lineText (endedLines s) = s ∧ ∀ line ∈ endedLines s, lineFeed ∉ line := by
  induction hn : s.length using Nat.strong_induction_on generalizing s with
  | _ n ih =>
    by_cases feed : lineFeed ∈ s
    · obtain ⟨line, rest, rfl, plain⟩ := List.eq_append_cons_of_mem feed
      have ends : rest = [] ∨ rest.getLast? = some lineFeed := by
        cases rest with
        | nil => exact Or.inl rfl
        | cons d rest =>
          refine Or.inr ?_
          simpa [List.getLast?_append, List.getLast?_cons] using h
      have shorter : rest.length < n := by
        rw [← hn, List.length_append, List.length_cons]
        omega
      obtain ⟨same, others⟩ := ih _ shorter ends rfl
      have cut : endedLines (line ++ lineFeed :: rest) = line :: endedLines rest := by
        rw [endedLines, split, splitAt_append plain]
        rfl
      rw [cut, lineText_cons, same]
      exact ⟨rfl, List.forall_mem_cons.mpr ⟨plain, others⟩⟩
    · have empty : s = [] := by
        rcases h with h | h
        · exact h
        · exact absurd (List.mem_of_getLast? h) feed
      subst empty
      exact ⟨rfl, fun line hm => absurd hm (by simp [endedLines, split, splitAt])⟩

theorem opensLocation_iff (plain : lineFeed ∉ line) : opensLocation k line = true ↔
    ∃ path suffix digits blank, Location k suffix digits ∧ (∀ c ∈ blank, isSpace c = true) ∧
      line = path ++ locationText suffix digits blank := by
  have way : opensLocation k line = true ↔ ((), []) ∈ openLocation k line := by
    simp only [opensLocation, List.any_eq_true, List.isEmpty_iff, Prod.exists]
    exact ⟨fun ⟨_, _, hm, he⟩ => he ▸ hm, fun hm => ⟨(), [], hm, rfl⟩⟩
  rw [way]
  unfold openLocation
  simp only [mem_bind, mem_many, mem_text, mem_either, mem_many1, mem_pure]
  constructor
  · rintro ⟨path, _, ⟨rfl, -⟩, _, _, rfl, _, _, hs, _, _, rfl, digits, _, ⟨rfl, some, decimal⟩,
      _, _, rfl, blank, _, ⟨rfl, spaces⟩, -, rfl⟩
    rcases hs with rfl | rfl
    · exact ⟨path, lit "py", digits, blank, ⟨Or.inl rfl, some, decimal⟩, spaces, by simp [locationText]⟩
    · exact ⟨path, lit "pyw", digits, blank, ⟨Or.inr rfl, some, decimal⟩, spaces, by simp [locationText]⟩
  · rintro ⟨path, suffix, digits, blank, h, spaces, rfl⟩
    have hp : ∀ d ∈ path, notLineFeed d = true := by
      intro d hd
      rw [notLineFeed, bne_iff_ne]
      rintro rfl
      exact plain (List.mem_append_left _ hd)
    refine ⟨path, _, ⟨rfl, hp⟩, (), _, rfl, (), colon :: (digits ++ colon :: blank), ?_, (), _, rfl,
      digits, colon :: blank, ⟨rfl, h.some, h.decimal⟩, (), blank, rfl, blank, [], ⟨by simp, spaces⟩, trivial, rfl⟩
    rcases h.suffix with rfl | rfl
    · exact Or.inl rfl
    · exact Or.inr rfl

theorem dropWhile_space (hs : ∀ c ∈ s, isSpace c = true) : (s ++ u).dropWhile isSpace = u.dropWhile isSpace := by
  induction s with
  | nil => rfl
  | cons d s ih =>
    obtain ⟨hd, others⟩ := List.forall_mem_cons.mp hs
    rw [List.cons_append, List.dropWhile_cons, if_pos hd, ih others]

theorem startsName_space (hs : ∀ c ∈ s, isSpace c = true) : startsName (s ++ u) = startsName u := by
  rw [startsName, dropWhile_space hs, startsName]

theorem startsName_append (h : line.all isSpace = false) : startsName (line ++ u) = startsName line := by
  induction line with
  | nil => simp at h
  | cons d line ih =>
    by_cases hd : isSpace d = true
    · have others : line.all isSpace = false := by simpa [hd] using h
      have one := startsName_space (s := [d]) (u := line) (by simpa using hd)
      have two := startsName_space (s := [d]) (u := line ++ u) (by simpa using hd)
      rw [List.singleton_append] at one two
      rw [List.cons_append, one, two, ih others]
    · simp [startsName, hd]

/-- A text that starts with a name, cut after it. -/
theorem startsName_split (h : startsName s = true) :
    ∃ blank c tail rest, s = blank ++ (c :: tail ++ rest) ∧ leadingName k s = c :: tail ∧
      (∀ d ∈ blank, isSpace d = true) ∧ nameStart c = true ∧ (∀ d ∈ tail, k.nameChar d = true) ∧
      ∀ d, rest.head? = some d → k.nameChar d = false := by
  have parts := List.takeWhile_append_dropWhile (p := isSpace) (l := s)
  cases hd : s.dropWhile isSpace with
  | nil => simp [startsName, hd] at h
  | cons c after =>
    have start : nameStart c = true := by simpa [startsName, hd] using h
    have name := List.takeWhile_append_dropWhile (p := k.nameChar) (l := after)
    refine ⟨s.takeWhile isSpace, c, after.takeWhile k.nameChar, after.dropWhile k.nameChar, ?_, ?_, ?_,
      start, ?_, ?_⟩
    · rw [List.cons_append, name, ← hd, parts]
    · rw [leadingName, hd, List.takeWhile_cons, if_pos (nameStart_nameChar k start)]
    · exact fun d hm => List.mem_takeWhile_imp hm
    · exact fun d hm => List.mem_takeWhile_imp hm
    · intro d hh
      have := List.head?_dropWhile_not k.nameChar after
      rw [hh] at this
      simpa using this

end Lines

end EdgecaseForge

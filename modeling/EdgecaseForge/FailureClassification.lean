import EdgecaseForge.FailureKinds

namespace EdgecaseForge

open Text Regex

/-- The scan of a text from the start of a line ends with this name. -/
def LastName (k : CharClasses) (s x : Str) : Prop :=
  ∀ fuel, s.length ≤ fuel → (findAllFrom (crashLocation k) fuel true s).getLast? = some x

section Scan

variable {k : CharClasses} {line s u name rest x feeds : Str} {lines blanks : List Str} {c : CodePoint}

theorem mem_crashLocation (h : (name, rest) ∈ crashLocation k s) :
    ∃ path suffix digits blank, lineFeed ∉ path ∧ Location k suffix digits ∧
      (∀ c ∈ blank, isSpace c = true) ∧ IsTypeName k name ∧
      s = path ++ (locationText suffix digits blank ++ (name ++ rest)) := by
  obtain ⟨path, u, hm, hu⟩ := mem_bind.mp h
  obtain ⟨rfl, all⟩ := mem_many.mp hm
  obtain ⟨suffix, digits, blank, hl, -, spaces, rfl, named⟩ := mem_afterPath hu
  refine ⟨path, suffix, digits, blank, ?_, hl, spaces, named, rfl⟩
  intro hf
  have := all _ hf
  simp [notLineFeed] at this

theorem IsTypeName.ne_nil (h : IsTypeName k name) : name ≠ [] := by
  obtain ⟨c, tail, rfl, -⟩ := h
  simp

theorem IsTypeName.nameChar (h : IsTypeName k name) : ∀ d ∈ name, k.nameChar d = true := by
  obtain ⟨c, tail, rfl, start, all⟩ := h
  exact List.forall_mem_cons.mpr ⟨nameStart_nameChar k start, all⟩

theorem IsTypeName.no_lineFeed (h : IsTypeName k name) : lineFeed ∉ name :=
  fun hm => (k.nameChar_ne (h.nameChar _ hm)).2 rfl

theorem mem_crashLocation_dot (h : (name, rest) ∈ crashLocation k s) : dot ∈ s := by
  obtain ⟨path, suffix, digits, blank, -, -, -, -, rfl⟩ := mem_crashLocation h
  simp [locationText]

/-- No name is found where no path ends. -/
theorem findAllFrom_no_dot {fuel : Nat} {start : Bool} (h : dot ∉ s) :
    findAllFrom (crashLocation k) fuel start s = [] := by
  induction fuel generalizing start s with
  | zero => rfl
  | succ fuel ih =>
    cases s with
    | nil => rfl
    | cons c s =>
      have others : dot ∉ s := fun hm => h (List.mem_cons_of_mem c hm)
      cases start with
      | false => exact ih others
      | true =>
        have none : first (crashLocation k) (c :: s) = none :=
          first_eq_none.mpr fun name rest hm => h (mem_crashLocation_dot hm)
        rw [findAllFrom, none]
        exact ih others

/-- Nothing more is found on a line once a name of it is taken. -/
theorem findAllFrom_rest {fuel : Nat} (plain : lineFeed ∉ rest) (h : dot ∉ feeds) :
    findAllFrom (crashLocation k) fuel false (rest ++ feeds) = [] := by
  induction rest generalizing fuel with
  | nil => exact findAllFrom_no_dot h
  | cons c rest ih =>
    rw [List.mem_cons, not_or] at plain
    cases fuel with
    | zero => rfl
    | succ fuel =>
      have other : (c == lineFeed) = false := beq_eq_false_iff_ne.mpr (Ne.symm plain.1)
      rw [List.cons_append, findAllFrom, other]
      exact ih plain.2

/-- A match ends inside its first line, or that line opens a location that takes its name from
what follows. -/
theorem mem_crashLocation_line (plain : lineFeed ∉ line)
    (h : (name, rest) ∈ crashLocation k (line ++ lineFeed :: u)) :
    (∃ taken r, line = taken ++ r ∧ taken.getLast? ≠ some lineFeed ∧ taken ≠ [] ∧
      rest = r ++ lineFeed :: u) ∨ (opensLocation k line = true ∧ startsName u = true) := by
  obtain ⟨path, suffix, digits, blank, hp, hl, spaces, named, hs⟩ := mem_crashLocation h
  by_cases hb : lineFeed ∈ blank
  · right
    obtain ⟨before, after, rfl, hbefore⟩ := List.eq_append_cons_of_mem hb
    have sp : ∀ c ∈ before, isSpace c = true := fun c hc => spaces c (by simp [hc])
    have sa : ∀ c ∈ after, isSpace c = true := fun c hc => spaces c (by simp [hc])
    have free : lineFeed ∉ path ++ locationText suffix digits before := by
      rw [List.mem_append, not_or]
      exact ⟨hp, hl.no_lineFeed hbefore⟩
    have cut : line ++ lineFeed :: u = (path ++ locationText suffix digits before) ++
        lineFeed :: (after ++ (name ++ rest)) := by
      rw [hs]
      simp [locationText]
    have parts := congrArg (splitAt lineFeed) cut
    rw [splitAt_append plain, splitAt_append free] at parts
    have same : line = path ++ locationText suffix digits before := (Prod.mk.inj parts).1
    subst same
    refine ⟨(opensLocation_iff plain).mpr ⟨path, suffix, digits, before, hl, sp, rfl⟩, ?_⟩
    have hu : u = after ++ (name ++ rest) := by
      simpa using List.append_cancel_left cut
    obtain ⟨c, tail, rfl, start, -⟩ := named
    rw [hu, startsName_space sa]
    simp [startsName, nameStart_not_space start, start]
  · left
    have free : lineFeed ∉ path ++ (locationText suffix digits blank ++ name) := by
      simp only [List.mem_append, not_or]
      exact ⟨hp, hl.no_lineFeed hb, named.no_lineFeed⟩
    have cut : line ++ lineFeed :: u = (path ++ (locationText suffix digits blank ++ name)) ++ rest := by
      rw [hs]
      simp
    obtain ⟨d, tail, hn, -⟩ := named
    have ends : (path ++ (locationText suffix digits blank ++ name)).getLast? ≠ some lineFeed :=
      fun hl => free (List.mem_of_getLast? hl)
    rcases List.append_eq_append_iff.mp cut with ⟨more, hm, hr⟩ | ⟨more, hm, hr⟩
    · cases more with
      | nil =>
        rw [List.append_nil] at hm
        exact ⟨line, [], by simp, hm ▸ ends, by rw [← hm, hn]; simp, by simpa using hr.symm⟩
      | cons e more =>
        rw [List.cons_append, List.cons.injEq] at hr
        exact absurd (by rw [hm, ← hr.1]; simp) free
    · exact ⟨_, more, hm, ends, by rw [hn]; simp, hr⟩

/-- A line from which no name is missing leaves the later lines as they are. -/
theorem LastName.pass (h : LastName k u x) (plain : lineFeed ∉ line)
    (apart : opensLocation k line = true → startsName u = false) :
    LastName k (line ++ lineFeed :: u) x := by
  intro fuel enough
  have hline : ∀ c ∈ line, c ≠ lineFeed := fun c hc he => plain (he ▸ hc)
  cases hf : first (crashLocation k) (line ++ lineFeed :: u) with
  | none =>
    obtain ⟨fuel', left, same⟩ := findAllFrom_none hline hf enough
    rw [same]
    exact h fuel' left
  | some way =>
    obtain ⟨name, rest⟩ := way
    rcases mem_crashLocation_line plain (mem_of_first hf) with ⟨taken, r, rfl, ends, some, rfl⟩ | ⟨ho, hs⟩
    · have inside : endsLine (taken ++ (r ++ lineFeed :: u)) (r ++ lineFeed :: u) = false := by
        rw [endsLine_append]
        simpa using ends
      rw [List.append_assoc] at hf enough ⊢
      have shorter : (r ++ lineFeed :: u).length < (taken ++ (r ++ lineFeed :: u)).length := by
        have := List.length_pos_of_ne_nil some
        rw [@List.length_append _ taken]
        omega
      obtain ⟨fuel', left, same⟩ := findAllFrom_match (by simp) hf inside shorter enough
      obtain ⟨fuel'', left', same'⟩ := findAllFrom_skip (m := crashLocation k)
        (fun c hc => hline c (List.mem_append_right taken hc)) left
      rw [same, same', List.getLast?_cons, h fuel'' left']
      rfl
    · exact absurd hs (by rw [apart ho]; simp)

theorem opensLocation_blank (h : line.all isSpace = true) (plain : lineFeed ∉ line) :
    opensLocation k line = false := by
  by_contra ho
  rw [Bool.not_eq_false, opensLocation_iff plain] at ho
  obtain ⟨path, suffix, digits, blank, -, -, rfl⟩ := ho
  have := List.all_eq_true.mp h dot (by simp [locationText])
  exact (space_ne_dot this).1 rfl

/-- Blank lines change nothing. -/
theorem LastName.over_blanks (h : LastName k u x)
    (hb : ∀ blank ∈ blanks, blank.all isSpace = true ∧ lineFeed ∉ blank) :
    LastName k (lineText blanks ++ u) x := by
  induction blanks with
  | nil => exact h
  | cons blank blanks ih =>
    obtain ⟨⟨spaces, plain⟩, others⟩ := List.forall_mem_cons.mp hb
    rw [lineText_cons, List.append_assoc, List.cons_append]
    refine (ih others).pass plain fun ho => ?_
    rw [opensLocation_blank spaces plain] at ho
    cases ho

theorem lineText_space (hb : ∀ blank ∈ blanks, blank.all isSpace = true ∧ lineFeed ∉ blank) :
    ∀ c ∈ lineText blanks, isSpace c = true := by
  intro c hc
  rw [lineText, List.mem_flatMap] at hc
  obtain ⟨blank, hm, hc⟩ := hc
  rcases List.mem_append.mp hc with hc | hc
  · exact List.all_eq_true.mp (hb blank hm).1 c hc
  · rw [List.mem_singleton.mp hc]
    exact lineFeed_space

/-- An open location takes the name that the next line with any text starts with. -/
theorem findAllFrom_cross {fuel : Nat} (plain : lineFeed ∉ line) (opens : opensLocation k line = true)
    (hb : ∀ blank ∈ blanks, blank.all isSpace = true ∧ lineFeed ∉ blank) {next after : Str}
    (starts : startsName next = true)
    (stop : ∀ d, after.head? = some d → k.nameChar d = false)
    (enough : (line ++ lineFeed :: (lineText blanks ++ (next ++ after))).length ≤ fuel) :
    ∃ r fuel', (∃ before, next = before ++ r) ∧ (r ++ after).length ≤ fuel' ∧
      findAllFrom (crashLocation k) fuel true (line ++ lineFeed :: (lineText blanks ++ (next ++ after))) =
        leadingName k next :: findAllFrom (crashLocation k) fuel' false (r ++ after) := by
  obtain ⟨path, suffix, digits, blank, hl, spaces, rfl⟩ := (opensLocation_iff plain).mp opens
  obtain ⟨sp, c, tail, r, rfl, leading, hsp, start, all, hr⟩ := startsName_split (k := k) starts
  have noFeed : lineFeed ∉ path := fun hm => plain (List.mem_append_left _ hm)
  have whole : path ++ locationText suffix digits blank ++ lineFeed ::
      (lineText blanks ++ (sp ++ (c :: tail ++ r) ++ after)) =
      path ++ (locationText suffix digits (blank ++ lineFeed :: (lineText blanks ++ sp)) ++
        (c :: tail ++ (r ++ after))) := by
    simp [locationText]
  have hstop : ∀ d, (r ++ after).head? = some d → k.nameChar d = false := by
    intro d hd
    cases r with
    | nil => exact stop d hd
    | cons e r => exact hr d hd
  have hspaces : ∀ d ∈ blank ++ lineFeed :: (lineText blanks ++ sp), isSpace d = true := by
    intro d hd
    simp only [List.mem_append, List.mem_cons] at hd
    rcases hd with hd | rfl | hd | hd
    · exact spaces d hd
    · exact lineFeed_space
    · exact lineText_space hb d hd
    · exact hsp d hd
  have found := first_crashLocation hl (by simp) hspaces start all hstop (Or.inl (by simp)) noFeed
  rw [whole] at enough ⊢
  have taken : path ++ (locationText suffix digits (blank ++ lineFeed :: (lineText blanks ++ sp)) ++
      (c :: tail ++ (r ++ after))) =
      (path ++ (locationText suffix digits (blank ++ lineFeed :: (lineText blanks ++ sp)) ++
        c :: tail)) ++ (r ++ after) := by
    simp
  rw [taken] at found enough ⊢
  have named : IsTypeName k (c :: tail) := ⟨c, tail, rfl, start, all⟩
  have inside : endsLine ((path ++ (locationText suffix digits
      (blank ++ lineFeed :: (lineText blanks ++ sp)) ++ c :: tail)) ++ (r ++ after)) (r ++ after) = false := by
    rw [endsLine_append, beq_eq_false_iff_ne, List.getLast?_append_of_ne_nil _ (by simp),
      List.getLast?_append_of_ne_nil _ (by simp)]
    exact fun hf => named.no_lineFeed (List.mem_of_getLast? hf)
  obtain ⟨fuel', left, same⟩ := findAllFrom_match (by simp) found inside
    (by simp only [List.length_append, List.length_cons]; omega) enough
  refine ⟨r, fuel', ⟨sp ++ (c :: tail), by simp⟩, left, ?_⟩
  rw [same, leading]

end Scan

/-- The name that the scan of a crash line ends with, after the lines that come before it. -/
def lastName (k : CharClasses) (pending : Bool) (lines : List Str) (line name : Str) : Str :=
  if awaitsName k pending lines && startsName line then leadingName k line else name

section CrashLine

variable {k : CharClasses} {line name feeds first : Str} {lines blanks : List Str}

theorem space_blank : ∀ c ∈ [space], isSpace c = true := by
  intro c hc
  rw [List.mem_singleton.mp hc]
  decide

theorem IsCrashLine.no_lineFeed (h : IsCrashLine k line name) : lineFeed ∉ line := by
  obtain ⟨path, suffix, digits, hp, hl, named, rfl⟩ := h
  simp only [List.mem_append, not_or]
  exact ⟨hp, hl.no_lineFeed (by decide), named.no_lineFeed⟩

theorem IsCrashLine.not_blank (h : IsCrashLine k line name) : line.all isSpace = false := by
  obtain ⟨path, suffix, digits, hp, hl, named, rfl⟩ := h
  rw [List.all_eq_false]
  exact ⟨dot, by simp [locationText], by decide⟩

theorem feeds_no_dot (hf : ∀ c ∈ feeds, c = lineFeed) : dot ∉ feeds := by
  intro hm
  exact absurd (hf _ hm) (by decide)

theorem feeds_stop (hf : ∀ c ∈ feeds, c = lineFeed) :
    ∀ d, feeds.head? = some d → k.nameChar d = false := by
  intro d hd
  by_contra hc
  rw [Bool.not_eq_false] at hc
  exact (k.nameChar_ne hc).2 (hf d (List.mem_of_mem_head? hd))

/-- On its own the crash line gives its type name. -/
theorem IsCrashLine.lastName_own (h : IsCrashLine k line name) (hf : ∀ c ∈ feeds, c = lineFeed) :
    LastName k (line ++ feeds) name := by
  obtain ⟨path, suffix, digits, hp, hl, named, rfl⟩ := h
  intro fuel enough
  have noFeed := named.no_lineFeed
  obtain ⟨c, tail, rfl, start, all⟩ := named
  have whole : path ++ (locationText suffix digits [space] ++ (c :: tail)) ++ feeds =
      path ++ (locationText suffix digits [space] ++ (c :: tail ++ feeds)) := by
    simp
  have found := first_crashLocation hl (List.cons_ne_nil space []) space_blank start all
    (feeds_stop hf) (Or.inr fun d hd => hf d (List.mem_of_mem_head? hd)) hp
  rw [← whole] at found
  have inside : endsLine (path ++ (locationText suffix digits [space] ++ (c :: tail)) ++ feeds)
      feeds = false := by
    rw [endsLine_append, beq_eq_false_iff_ne, List.getLast?_append_of_ne_nil _ (by simp),
      List.getLast?_append_of_ne_nil _ (by simp)]
    exact fun hl => noFeed (List.mem_of_getLast? hl)
  obtain ⟨fuel', left, same⟩ := findAllFrom_match (by simp) found inside
    (by simp only [List.length_append, List.length_cons]; omega) enough
  have rest : findAllFrom (crashLocation k) fuel' false ([] ++ feeds) = [] :=
    findAllFrom_rest (by simp) (feeds_no_dot hf)
  rw [List.nil_append] at rest
  rw [same, rest]
  rfl

/-- After an open location the crash line gives the name it starts with, if it starts with one. -/
theorem IsCrashLine.lastName_open (h : IsCrashLine k line name) (hf : ∀ c ∈ feeds, c = lineFeed)
    (plain : lineFeed ∉ first) (opens : opensLocation k first = true)
    (hb : ∀ blank ∈ blanks, blank.all isSpace = true ∧ lineFeed ∉ blank) :
    LastName k (first ++ lineFeed :: (lineText blanks ++ (line ++ feeds)))
      (lastName k true [] line name) := by
  by_cases starts : startsName line = true
  · intro fuel enough
    obtain ⟨r, fuel', ⟨before, hr⟩, -, same⟩ :=
      findAllFrom_cross plain opens hb starts (feeds_stop hf) enough
    have rPlain : lineFeed ∉ r := fun hm => h.no_lineFeed (by rw [hr]; exact List.mem_append_right _ hm)
    rw [same, findAllFrom_rest rPlain (feeds_no_dot hf), lastName, awaitsName, starts]
    rfl
  · rw [Bool.not_eq_true] at starts
    have value : lastName k true [] line name = name := by
      rw [lastName, starts, Bool.and_false]
      rfl
    rw [value]
    refine LastName.pass ((h.lastName_own hf).over_blanks hb) plain fun _ => ?_
    rw [startsName_space (lineText_space hb), startsName_append h.not_blank, starts]

/-- The name that the scan ends with, by the lines before the crash line: they leave no location
open, or they leave one open. -/
theorem IsCrashLine.lastName_lines (h : IsCrashLine k line name) (hf : ∀ c ∈ feeds, c = lineFeed)
    (plain : ∀ l ∈ lines, lineFeed ∉ l) :
    LastName k (lineText lines ++ (line ++ feeds)) (lastName k false lines line name) ∧
    ∀ first blanks, lineFeed ∉ first → opensLocation k first = true →
      (∀ blank ∈ blanks, blank.all isSpace = true ∧ lineFeed ∉ blank) →
      LastName k (first ++ lineFeed :: (lineText blanks ++ (lineText lines ++ (line ++ feeds))))
        (lastName k true lines line name) := by
  induction lines with
  | nil =>
    refine ⟨?_, fun first blanks hp opens hb => h.lastName_open hf hp opens hb⟩
    exact h.lastName_own hf
  | cons l lines ih =>
    obtain ⟨hl, others⟩ := List.forall_mem_cons.mp plain
    obtain ⟨fresh, pending⟩ := ih others
    have text : lineText (l :: lines) ++ (line ++ feeds) =
        l ++ lineFeed :: (lineText lines ++ (line ++ feeds)) := by
      simp [lineText_cons]
    have closed : lastName k false (l :: lines) line name =
        lastName k (opensLocation k l) lines line name := by
      simp [lastName, awaitsName]
    have start : LastName k (lineText (l :: lines) ++ (line ++ feeds))
        (lastName k false (l :: lines) line name) := by
      rw [text, closed]
      by_cases opens : opensLocation k l = true
      · rw [opens]
        exact pending l [] hl opens (by simp)
      · rw [Bool.not_eq_true] at opens
        rw [opens]
        refine fresh.pass hl fun ho => ?_
        rw [opens] at ho
        cases ho
    refine ⟨start, fun first blanks hp opens hb => ?_⟩
    by_cases blank : l.all isSpace = true
    · -- A blank line is taken with the blanks of the open location.
      have more := pending first (blanks ++ [l]) hp opens (by
        intro b hm
        rcases List.mem_append.mp hm with hm | hm
        · exact hb b hm
        · rw [List.mem_singleton.mp hm]
          exact ⟨blank, hl⟩)
      have value : lastName k true (l :: lines) line name = lastName k true lines line name := by
        simp [lastName, awaitsName, blank]
      rw [value]
      rw [lineText_append, List.append_assoc, lineText_cons] at more
      rw [text]
      simpa [lineText] using more
    · rw [Bool.not_eq_true] at blank
      have value : lastName k true (l :: lines) line name =
          lastName k (opensLocation k l && !startsName l) lines line name := by
        simp [lastName, awaitsName, blank]
      by_cases starts : startsName l = true
      · intro fuel enough
        rw [text] at enough ⊢
        have stop : ∀ d, (lineFeed :: (lineText lines ++ (line ++ feeds))).head? = some d →
            k.nameChar d = false := fun d hd => feeds_stop (by simp) d (show [lineFeed].head? = _ from hd)
        obtain ⟨r, fuel', ⟨before, hr⟩, left, same⟩ :=
          findAllFrom_cross hp opens hb starts stop enough
        have rPlain : ∀ c ∈ r, c ≠ lineFeed := by
          rintro c hm rfl
          rw [hr] at hl
          exact hl (List.mem_append_right before hm)
        obtain ⟨fuel'', left', same'⟩ := findAllFrom_skip (m := crashLocation k) rPlain left
        rw [same, same', List.getLast?_cons, value, starts, Bool.not_true, Bool.and_false,
          fresh fuel'' left']
        rfl
      · rw [Bool.not_eq_true] at starts
        rw [value, starts, Bool.not_false, Bool.and_true, ← closed]
        refine LastName.pass (start.over_blanks hb) hp fun _ => ?_
        rw [startsName_space (lineText_space hb), text, startsName_append blank, starts]

/-- The failure text ends with a crash line, and the message keeps that line whole. -/
structure EndsWithCrash (k : CharClasses) (content before line name feeds : Str) : Prop where
  whole : content = before ++ (line ++ feeds)
  starts : before = [] ∨ before.getLast? = some lineFeed
  crash : IsCrashLine k line name
  ends : ∀ c ∈ feeds, c = lineFeed
  short : (line ++ feeds).length ≤ 4000

/-- What the message keeps of the text before the crash line. -/
def keptBefore (before after : Str) : Str :=
  tail (4000 - after.length) before

end CrashLine

section Classification

variable {k : CharClasses} {content before line name feeds : Str}

theorem tail_append {limit : Nat} {after : Str} (h : after.length ≤ limit) :
    tail limit (before ++ after) = tail (limit - after.length) before ++ after := by
  have length : (before ++ after).length - limit = before.length - (limit - after.length) := by
    rw [List.length_append]
    omega
  rw [tail, length, List.drop_append_of_le_length (by omega), tail]

theorem tail_starts (limit : Nat) (h : before = [] ∨ before.getLast? = some lineFeed) :
    tail limit before = [] ∨ (tail limit before).getLast? = some lineFeed := by
  rcases Nat.eq_zero_or_pos limit with rfl | some
  · left
    simp [tail]
  · rcases h with rfl | h
    · left
      simp [tail]
    · right
      rw [tail, List.getLast?_drop, if_neg, h]
      have := List.length_pos_of_mem (List.mem_of_getLast? h)
      omega

/-- The type name by which the message of such a failure is classified. -/
theorem EndsWithCrash.isAssertionFailure (h : EndsWithCrash k content before line name feeds) :
    isAssertionFailure k (tail 4000 content) = assertionTypes.contains
      (lastName k false (endedLines (keptBefore before (line ++ feeds))) line name) := by
  obtain ⟨same, plain⟩ := lineText_endedLines (tail_starts (4000 - (line ++ feeds).length) h.starts)
  have scan := (h.crash.lastName_lines h.ends plain).1 _ (Nat.le_refl _)
  rw [same, ← tail_append h.short, ← h.whole] at scan
  unfold EdgecaseForge.isAssertionFailure
  rw [findAll, scan]
  rfl

/-- A failure is classified by the type of its crash. -/
def ClassifiedBy (name : Str) (node : PytestNodeResult) : Prop :=
  (node.failureKind = some (lit "assertion_failure") ↔ name ∈ assertionTypes) ∧
    (name ∉ assertionTypes → node.failureKind = some (lit "test_exception"))

theorem parseTestcase_failureKind {testcase : Testcase} {failure : Element}
    (he : testcase.error = none) (hf : testcase.failure = some failure) :
    (parseTestcase k testcase).failureKind = some (if isAssertionFailure k (xmlMessage failure)
      then lit "assertion_failure" else lit "test_exception") := by
  unfold parseTestcase
  rw [he, hf]
  dsimp only
  split <;> rfl

theorem classifiedBy_iff {node : PytestNodeResult} {read : Str}
    (h : node.failureKind = some (if assertionTypes.contains read then lit "assertion_failure"
      else lit "test_exception")) :
    ClassifiedBy name node ↔ (read ∈ assertionTypes ↔ name ∈ assertionTypes) := by
  have apart : (lit "test_exception" : Str) ≠ lit "assertion_failure" := by
    rw [Ne, lit_inj]
    decide
  have kind : node.failureKind = some (lit "assertion_failure") ↔ read ∈ assertionTypes := by
    rw [h, Option.some_inj]
    split
    next hr => simpa using List.contains_iff_mem.mp hr
    next hr => simpa [apart] using hr
  rw [ClassifiedBy, kind]
  refine ⟨fun hc => hc.1, fun hc => ⟨hc, fun hn => ?_⟩⟩
  have other : assertionTypes.contains read = false := by
    by_contra hr
    rw [Bool.not_eq_false, List.contains_iff_mem] at hr
    exact hn (hc.mp hr)
  rw [h, other]
  rfl

/-- A failure whose text ends with a crash line is classified by the type name there, unless an open
location before it takes the start of that line for its own name. -/
theorem parseJunit_classifiedBy {testcases : Str → Option (List Testcase)} {xmlText : Str}
    {cases : List Testcase} {i : Nat} {testcase : Testcase} {failure : Element}
    (hx : xmlText ≠ []) (hp : testcases xmlText = some cases) (hi : cases[i]? = some testcase)
    (he : testcase.error = none) (hf : testcase.failure = some failure)
    (h : EndsWithCrash k failure.content before line name feeds) :
    (∃ node, (parseJunit k testcases xmlText)[i]? = some node ∧ ClassifiedBy name node) ↔
      (awaitsName k false (endedLines (keptBefore before (line ++ feeds))) = true →
        startsName line = true → (leadingName k line ∈ assertionTypes ↔ name ∈ assertionTypes)) := by
  have node : (parseJunit k testcases xmlText)[i]? = some (parseTestcase k testcase) := by
    rw [parseJunit, if_neg hx, hp]
    simp [hi]
  have kind := parseTestcase_failureKind (k := k) he hf
  rw [xmlMessage, h.isAssertionFailure] at kind
  have one : (∃ node, (parseJunit k testcases xmlText)[i]? = some node ∧ ClassifiedBy name node) ↔
      ClassifiedBy name (parseTestcase k testcase) := by
    rw [node]
    exact ⟨fun ⟨_, hs, hc⟩ => Option.some.inj hs ▸ hc, fun hc => ⟨_, rfl, hc⟩⟩
  rw [one, classifiedBy_iff kind, lastName]
  split
  next taken =>
    rw [Bool.and_eq_true] at taken
    exact ⟨fun hr _ _ => hr, fun hr => hr taken.1 taken.2⟩
  next own =>
    rw [Bool.and_eq_true] at own
    exact ⟨fun _ ha hs => absurd ⟨ha, hs⟩ own, fun _ => Iff.rfl⟩

/-- A failed assertion whose text ends with its crash line. -/
def assertedFailure : Element where
  message := lit "assert 1 == 2"
  text := lit "E       assert 1 == 2\n\ntest_a.py:2: AssertionError"

/-- A failed assertion whose own message ends like the start of a location. -/
def citingFailure : Element where
  message := lit "AssertionError: see foo.py:3:"
  text := lit ">       check_stock()\nE       AssertionError: see foo.py:3:\n\ntest_a.py:2: AssertionError"

def failedTestcase (failure : Element) : Testcase where
  classname := lit "test_a"
  name := some (lit "test_a")
  seconds := Binary64.zero
  failure := some failure
  error := none
  skipped := none

theorem assertionCrash : IsCrashLine .ascii (lit "test_a.py:2: AssertionError") (lit "AssertionError") := by
  have located : Location .ascii (lit "py") (lit "2") := ⟨Or.inl rfl, by decide, List.all_eq_true.mp (by decide)⟩
  have named : IsTypeName .ascii (lit "AssertionError") :=
    ⟨0x41, lit "ssertionError", by decide, by decide, List.all_eq_true.mp (by decide)⟩
  exact ⟨lit "test_a", lit "py", lit "2", by decide, located, named, rfl⟩

theorem parseJunit_classifiedBy_asserted :
    ∃ node, (parseJunit .ascii (fun _ => some [failedTestcase assertedFailure]) [0x3C])[0]? = some node ∧
      ClassifiedBy (lit "AssertionError") node := by
  have ends : EndsWithCrash .ascii assertedFailure.content
      (lit "assert 1 == 2\nE       assert 1 == 2\n\n") (lit "test_a.py:2: AssertionError")
      (lit "AssertionError") [] :=
    ⟨by decide, Or.inr (by decide), assertionCrash, by simp, by decide⟩
  exact (parseJunit_classifiedBy (by simp) rfl rfl rfl rfl ends).mpr (by decide)

/-- The failed assertion that cites a location is classified as an exception of the test. -/
theorem parseJunit_citing :
    EndsWithCrash .ascii citingFailure.content
      (lit "AssertionError: see foo.py:3:\n>       check_stock()\nE       AssertionError: see foo.py:3:\n\n")
      (lit "test_a.py:2: AssertionError") (lit "AssertionError") [] ∧
    ¬ ∃ node, (parseJunit .ascii (fun _ => some [failedTestcase citingFailure]) [0x3C])[0]? = some node ∧
      ClassifiedBy (lit "AssertionError") node := by
  refine ⟨⟨by decide, Or.inr (by decide), assertionCrash, by simp, by decide⟩, ?_⟩
  rintro ⟨node, hn, kind, -⟩
  have read : ((parseJunit .ascii (fun _ => some [failedTestcase citingFailure]) [0x3C])[0]?.bind
      (·.failureKind)) = some (lit "test_exception") := by decide +kernel
  rw [hn, Option.bind_some] at read
  rw [read] at kind
  exact absurd (kind.mpr (by decide)) (by decide)

end Classification

end EdgecaseForge

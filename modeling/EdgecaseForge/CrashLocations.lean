import EdgecaseForge.DecimalDigits
import EdgecaseForge.RegexCore

namespace EdgecaseForge

open Text Regex

def dot : CodePoint := 0x2E

def colon : CodePoint := 0x3A

def underscore : CodePoint := 0x5F

/-- `[A-Za-z]`. -/
def isLetter (c : CodePoint) : Bool :=
  (0x41 ≤ c.val && c.val ≤ 0x5A) || (0x61 ≤ c.val && c.val ≤ 0x7A)

/-- The classes of `\d` and of `str.isalnum`, which both go past ASCII. -/
structure CharClasses where
  isDecimal : CodePoint → Bool
  isAlnum : CodePoint → Bool
  decimal_ascii : ∀ c, c.val < 0x80 → isDecimal c = Decimal.isDigit c
  alnum_ascii : ∀ c, c.val < 0x80 → isAlnum c = (isLetter c || Decimal.isDigit c)

/-- The classes without what lies past ASCII. -/
def CharClasses.ascii : CharClasses where
  isDecimal := Decimal.isDigit
  isAlnum := fun c => isLetter c || Decimal.isDigit c
  decimal_ascii := fun _ _ => rfl
  alnum_ascii := fun _ _ => rfl

/-- `[A-Za-z_]`. -/
def nameStart (c : CodePoint) : Bool :=
  isLetter c || c == underscore

/-- `[\w.]`. -/
def CharClasses.nameChar (k : CharClasses) (c : CodePoint) : Bool :=
  k.isAlnum c || c == underscore || c == dot

def notLineFeed (c : CodePoint) : Bool :=
  c != lineFeed

/-- `([A-Za-z_][\w.]*)`. -/
def typeName (k : CharClasses) : Pattern Str := do
  let c ← char nameStart
  let rest ← many k.nameChar
  pure (c :: rest)

/-- `\.(?:py|pyw):\d+:\s+([A-Za-z_][\w.]*)`. -/
def afterPath (k : CharClasses) : Pattern Str := do
  text [dot]
  either (text (lit "py")) (text (lit "pyw"))
  text [colon]
  let _ ← many1 k.isDecimal
  text [colon]
  let _ ← many1 isSpace
  typeName k

/-- `^.*\.(?:py|pyw):\d+:\s+([A-Za-z_][\w.]*)`. -/
def crashLocation (k : CharClasses) : Pattern Str :=
  many notLineFeed >>= fun _ => afterPath k

/-- `^(?:E\s+)?name(?::|$)`. -/
def namedFailure (name : String) : Pattern Unit := do
  optional (text (lit "E") >>= fun _ => many1 isSpace >>= fun _ => pure ())
  text (lit name)
  either (text [colon]) lineEnd

/-- The exceptions that count as a failed assertion. -/
def assertionTypes : List Str :=
  [lit "AssertionError", lit "Failed"]

def isAssertionFailure (k : CharClasses) (message : Str) : Bool :=
  match (findAll (crashLocation k) message).getLast? with
  | some name => assertionTypes.contains name
  | none => search (namedFailure "AssertionError") message || search (namedFailure "Failed") message

/-- The text of a crash location between its path and its type name. -/
def locationText (suffix digits blank : Str) : Str :=
  dot :: (suffix ++ colon :: (digits ++ colon :: blank))

/-- The parts of a crash location after its path. -/
structure Location (k : CharClasses) (suffix digits : Str) : Prop where
  suffix : suffix = lit "py" ∨ suffix = lit "pyw"
  some : digits ≠ []
  decimal : ∀ c ∈ digits, k.isDecimal c = true

section Characters

variable {k : CharClasses} {c : CodePoint}

theorem CharClasses.decimal_ne (k : CharClasses) (h : k.isDecimal c = true) :
    c ≠ dot ∧ c ≠ colon ∧ c ≠ lineFeed := by
  refine ⟨?_, ?_, ?_⟩
  all_goals
    rintro rfl
    rw [k.decimal_ascii _ (by decide)] at h
    exact absurd h (by decide)

theorem CharClasses.nameChar_ne (k : CharClasses) (h : k.nameChar c = true) :
    c ≠ colon ∧ c ≠ lineFeed := by
  refine ⟨?_, ?_⟩
  all_goals
    rintro rfl
    rw [CharClasses.nameChar, k.alnum_ascii _ (by decide)] at h
    exact absurd h (by decide)

theorem nameStart_low (h : nameStart c = true) : 0x41 ≤ c.val ∧ c.val ≤ 0x7A := by
  have line : underscore.val = 0x5F := rfl
  simp only [nameStart, isLetter, Bool.or_eq_true, Bool.and_eq_true, decide_eq_true_eq,
    beq_iff_eq, Fin.ext_iff] at h
  omega

theorem nameStart_nameChar (k : CharClasses) (h : nameStart c = true) : k.nameChar c = true := by
  have low := nameStart_low h
  rw [CharClasses.nameChar, k.alnum_ascii c (by omega)]
  rw [nameStart, Bool.or_eq_true] at h
  rcases h with h | h <;> simp [h]

theorem nameStart_not_space (h : nameStart c = true) : isSpace c = false := by
  have low := nameStart_low h
  by_contra space
  rw [Bool.not_eq_false] at space
  simp only [isSpace, Bool.or_eq_true, Bool.and_eq_true, decide_eq_true_eq, beq_iff_eq,
    Fin.le_def, Fin.ext_iff] at space
  have values : (0x09 : CodePoint).val = 0x09 ∧ (0x0D : CodePoint).val = 0x0D ∧
      (0x1C : CodePoint).val = 0x1C ∧ (0x20 : CodePoint).val = 0x20 ∧
      (0x85 : CodePoint).val = 0x85 ∧ (0xA0 : CodePoint).val = 0xA0 ∧
      (0x1680 : CodePoint).val = 0x1680 ∧ (0x2000 : CodePoint).val = 0x2000 ∧
      (0x200A : CodePoint).val = 0x200A ∧ (0x2028 : CodePoint).val = 0x2028 ∧
      (0x2029 : CodePoint).val = 0x2029 ∧ (0x202F : CodePoint).val = 0x202F ∧
      (0x205F : CodePoint).val = 0x205F ∧ (0x3000 : CodePoint).val = 0x3000 := by decide
  omega

theorem space_ne_dot (h : isSpace c = true) : c ≠ dot ∧ c ≠ colon := by
  constructor
  all_goals
    rintro rfl
    exact absurd h (by decide)

theorem lineFeed_space : isSpace lineFeed = true := by decide

/-- No dot comes after the first one of a location. -/
theorem Location.no_dot {suffix digits blank : Str} (h : Location k suffix digits)
    (spaces : ∀ c ∈ blank, isSpace c = true) :
    dot ∉ suffix ++ colon :: (digits ++ colon :: blank) := by
  intro hm
  simp only [List.mem_append, List.mem_cons] at hm
  rcases hm with hm | hm | hm | hm | hm
  · rcases h.suffix with rfl | rfl <;> exact absurd hm (by decide)
  · exact absurd hm (by decide)
  · exact (k.decimal_ne (h.decimal _ hm)).1 rfl
  · exact absurd hm (by decide)
  · exact (space_ne_dot (spaces _ hm)).1 rfl

theorem Location.no_lineFeed {suffix digits blank : Str} (h : Location k suffix digits)
    (line : lineFeed ∉ blank) : lineFeed ∉ locationText suffix digits blank := by
  intro hm
  simp only [locationText, List.mem_append, List.mem_cons] at hm
  rcases hm with hm | hm | hm | hm | hm | hm
  · exact absurd hm (by decide)
  · rcases h.suffix with rfl | rfl <;> exact absurd hm (by decide)
  · exact absurd hm (by decide)
  · exact (k.decimal_ne (h.decimal _ hm)).2.2 rfl
  · exact absurd hm (by decide)
  · exact line hm

end Characters

section Ways

variable {k : CharClasses} {s rest name path suffix digits blank : Str} {c : CodePoint} {tail : Str}

theorem mem_typeName : (name, rest) ∈ typeName k s ↔ s = name ++ rest ∧
    ∃ c tail, name = c :: tail ∧ nameStart c = true ∧ ∀ d ∈ tail, k.nameChar d = true := by
  unfold typeName
  simp only [mem_bind, mem_char, mem_many, mem_pure]
  constructor
  · rintro ⟨c, _, ⟨rfl, start⟩, tail, _, ⟨rfl, all⟩, rfl, rfl⟩
    exact ⟨rfl, c, tail, rfl, start, all⟩
  · rintro ⟨rfl, c, tail, rfl, start, all⟩
    exact ⟨c, tail ++ rest, ⟨rfl, start⟩, tail, rest, ⟨rfl, all⟩, rfl, rfl⟩

/-- What the pattern takes after a path. -/
theorem mem_afterPath (h : (name, rest) ∈ afterPath k s) :
    ∃ suffix digits blank, Location k suffix digits ∧ blank ≠ [] ∧
      (∀ c ∈ blank, isSpace c = true) ∧ s = locationText suffix digits blank ++ (name ++ rest) ∧
      ∃ c tail, name = c :: tail ∧ nameStart c = true ∧ ∀ d ∈ tail, k.nameChar d = true := by
  unfold afterPath at h
  simp only [mem_bind, mem_text, mem_either, mem_many1, mem_typeName] at h
  obtain ⟨_, _, rfl, _, _, hs, _, _, rfl, digits, _, ⟨rfl, some, decimal⟩, _, _, rfl, blank, _,
    ⟨rfl, wide, spaces⟩, rfl, named⟩ := h
  rcases hs with rfl | rfl
  · exact ⟨lit "py", digits, blank, ⟨Or.inl rfl, some, decimal⟩, wide, spaces,
      by simp [locationText], named⟩
  · exact ⟨lit "pyw", digits, blank, ⟨Or.inr rfl, some, decimal⟩, wide, spaces,
      by simp [locationText], named⟩

theorem first_typeName (start : nameStart c = true) (all : ∀ d ∈ tail, k.nameChar d = true)
    (stop : ∀ d, rest.head? = some d → k.nameChar d = false) :
    first (typeName k) (c :: tail ++ rest) = some (c :: tail, rest) := by
  have head : first (char nameStart) (c :: tail ++ rest) = some (c, tail ++ rest) := by
    rw [first, List.cons_append, char, if_pos start]
    rfl
  exact first_bind head (first_bind (first_many all stop) rfl)

/-- After a path the pattern takes a location with the whole name that follows it. -/
theorem first_afterPath (h : Location k suffix digits) (wide : blank ≠ [])
    (spaces : ∀ c ∈ blank, isSpace c = true) (start : nameStart c = true)
    (all : ∀ d ∈ tail, k.nameChar d = true)
    (stop : ∀ d, rest.head? = some d → k.nameChar d = false) :
    first (afterPath k) (locationText suffix digits blank ++ (c :: tail ++ rest)) =
      some (c :: tail, rest) := by
  have decimalStop : k.isDecimal colon = false := by
    rw [k.decimal_ascii _ (by decide)]
    decide
  have line : first (do
      text [colon]
      let _ ← many1 k.isDecimal
      text [colon]
      let _ ← many1 isSpace
      typeName k : Pattern Str) (colon :: (digits ++ colon :: (blank ++ (c :: tail ++ rest)))) =
      some (c :: tail, rest) := by
    refine first_bind (first_text [colon] _) (first_bind (first_many1 h.some h.decimal ?_)
      (first_bind (first_text [colon] _) (first_bind (first_many1 wide spaces ?_)
        (first_typeName start all stop))))
    · rintro d ⟨rfl⟩
      exact decimalStop
    · rintro d ⟨rfl⟩
      exact nameStart_not_space start
  have whole : locationText suffix digits blank ++ (c :: tail ++ rest) =
      [dot] ++ (suffix ++ colon :: (digits ++ colon :: (blank ++ (c :: tail ++ rest)))) := by
    simp [locationText]
  rw [whole]
  refine first_bind (first_text [dot] _) ?_
  rcases h.suffix with rfl | rfl
  · exact first_bind (first_either_left (first_text (lit "py") _)) line
  · -- The shorter suffix is tried first, and no colon comes after it.
    rw [first_either_bind]
    · exact first_bind (first_text (lit "pyw") _) line
    · intro u between hb name rest hm
      rw [mem_text] at hb
      obtain ⟨_, _, hc, -⟩ := mem_bind.mp hm
      rw [mem_text] at hc
      subst hc
      have long : lit "pyw" = [0x70, 0x79, 0x77] := rfl
      have short : lit "py" = [0x70, 0x79] := rfl
      rw [long, short] at hb
      simp only [List.cons_append, List.nil_append, List.cons.injEq] at hb
      exact absurd hb.2.2.1 (by decide)

/-- Nothing of a location after its first dot looks like one. -/
theorem afterPath_beyond (h : Location k suffix digits) (spaces : ∀ c ∈ blank, isSpace c = true)
    (start : nameStart c = true) (all : ∀ d ∈ tail, k.nameChar d = true)
    (line : lineFeed ∈ blank ∨ ∀ d, rest.head? = some d → d = lineFeed) {skipped v name after : Str}
    (hu : locationText suffix digits blank ++ (c :: tail ++ rest) = skipped ++ v)
    (hne : skipped ≠ []) (plain : lineFeed ∉ skipped) : (name, after) ∉ afterPath k v := by
  intro hm
  obtain ⟨suffix', digits', blank', other, -, -, hs, -⟩ := mem_afterPath hm
  have dotted : v = dot :: (suffix' ++ colon :: (digits' ++ colon :: blank') ++ (name ++ after)) := hs
  rw [dotted] at hu
  rcases List.append_eq_append_iff.mp hu with ⟨more, rfl, hv⟩ | ⟨more, hl, hv⟩
  · -- The dot comes after the blanks, so these hold no line feed.
    have noFeed : lineFeed ∉ blank := fun hb => plain (by simp [locationText, hb])
    have ends := line.resolve_left noFeed
    rcases List.append_eq_append_iff.mp hv with ⟨more', rfl, hw⟩ | ⟨more', ht, hw⟩
    · cases more' with
      | nil =>
        have feed := ends dot (by rw [hw]; rfl)
        exact absurd feed (by decide)
      | cons d more' =>
        have feed := ends d (by rw [hw]; rfl)
        exact plain (by simp [feed])
    · cases more' with
      | nil =>
        rw [List.nil_append] at hw
        have feed := ends dot (by rw [← hw]; rfl)
        exact absurd feed (by decide)
      | cons d more' =>
        rw [List.cons_append, List.cons.injEq] at hw
        obtain ⟨-, hw⟩ := hw
        have chars : ∀ e ∈ more', k.nameChar e = true := by
          intro e he
          have mem : e ∈ c :: tail := by rw [ht]; simp [he]
          rcases List.mem_cons.mp mem with rfl | mem
          · exact nameStart_nameChar k start
          · exact all e mem
        rw [List.append_assoc] at hw
        rcases List.append_eq_append_iff.mp hw with ⟨more'', rfl, hq⟩ | ⟨more'', hs, hq⟩
        · cases more'' with
          | nil =>
            rw [List.nil_append] at hq
            have feed := ends colon (by rw [← hq]; rfl)
            exact absurd feed (by decide)
          | cons e more'' =>
            rw [List.cons_append, List.cons_append, List.cons.injEq] at hq
            exact (k.nameChar_ne (chars e (by simp))).1 hq.1.symm
        · cases more'' with
          | nil =>
            have feed := ends colon (by rw [hq]; rfl)
            exact absurd feed (by decide)
          | cons e more'' =>
            have feed := ends e (by rw [hq]; rfl)
            have mem : lineFeed ∈ suffix' := by rw [hs, feed]; simp
            rcases other.suffix with rfl | rfl <;> exact absurd mem (by decide)
  · cases more with
    | nil =>
      rw [List.nil_append, List.cons_append, List.cons.injEq] at hv
      have low := nameStart_low start
      rw [← hv.1] at low
      exact absurd low (by decide)
    | cons d more =>
      rw [List.cons_append, List.cons_append, List.cons.injEq] at hv
      obtain ⟨e, skipped, rfl⟩ := List.exists_cons_of_ne_nil hne
      rw [locationText, List.cons_append, List.cons.injEq] at hl
      have none := h.no_dot spaces
      rw [hl.2, ← hv.1] at none
      exact none (by simp)

/-- A location is taken with the path in front of it and the whole name that follows it. -/
theorem first_crashLocation (h : Location k suffix digits) (wide : blank ≠ [])
    (spaces : ∀ c ∈ blank, isSpace c = true) (start : nameStart c = true)
    (all : ∀ d ∈ tail, k.nameChar d = true)
    (stop : ∀ d, rest.head? = some d → k.nameChar d = false)
    (line : lineFeed ∈ blank ∨ ∀ d, rest.head? = some d → d = lineFeed) (plain : lineFeed ∉ path) :
    first (crashLocation k) (path ++ (locationText suffix digits blank ++ (c :: tail ++ rest))) =
      some (c :: tail, rest) := by
  have notFeed : ∀ {s : Str}, lineFeed ∉ s ↔ ∀ d ∈ s, notLineFeed d = true := by
    intro s
    simp only [notLineFeed, bne_iff_ne]
    exact ⟨fun hs d hd he => hs (he ▸ hd), fun hs hd => hs _ hd rfl⟩
  refine first_many_skip (notFeed.mp plain) (first_afterPath h wide spaces start all stop) ?_
  intro skipped v hu hne hs name after
  exact afterPath_beyond h spaces start all line hu hne (notFeed.mpr hs)

end Ways

end EdgecaseForge

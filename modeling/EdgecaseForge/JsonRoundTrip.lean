import EdgecaseForge.JsonScan

namespace Json

open Text Decimal

/-- A layout whose blanks are blanks to the decoder and whose strings are written by `escape`. -/
structure Layout.Readable (L : Layout) : Prop where
  pad : ∀ depth, ∀ c ∈ L.pad depth, isJsonSpace c = true
  afterComma : ∀ c ∈ L.afterComma, isJsonSpace c = true
  afterColon : ∀ c ∈ L.afterColon, isJsonSpace c = true
  escape : L.escape = Json.escape

theorem compact_readable : compact.Readable where
  pad := by simp [compact]
  afterComma := by simp [compact]; decide
  afterColon := by simp [compact]; decide
  escape := rfl

theorem indented_readable : indented.Readable where
  pad := by
    intro depth c hc
    rcases List.mem_cons.mp hc with rfl | hc
    · decide
    · cases List.eq_of_mem_replicate hc
      decide
  afterComma := by simp [indented]
  afterColon := by simp [indented]; decide
  escape := rfl

section Strings

/-- A code point that is not written as it is. -/
def escaped (c : CodePoint) : Bool :=
  (shortEscape c).isSome || c.val < 0x20

theorem hexValue_hexDigit (n : Nat) : hexValue (hexDigit n) = some (n % 16) := by
  unfold hexDigit hexValue
  split
  next h => rw [if_pos (by simp; omega)]; simp
  next h =>
    rw [if_neg (by simp; omega), if_neg (by simp; omega), if_pos (by simp; omega)]
    simp

theorem hexUnit_hexDigit (c : CodePoint) (h : c.val < 0x10000) :
    hexUnit (hexDigit (c.val / 0x1000)) (hexDigit (c.val / 0x100)) (hexDigit (c.val / 0x10))
      (hexDigit c.val) = some c := by
  have value : c.val / 0x1000 % 16 * 0x1000 + c.val / 0x100 % 16 * 0x100 +
      c.val / 0x10 % 16 * 0x10 + c.val % 16 = c.val := by omega
  simp only [hexUnit, hexValue_hexDigit, value, c.isLt, dif_pos]

theorem unescape_shortEscape {c letter : CodePoint} (h : shortEscape c = some letter) :
    letter ≠ 0x75 ∧ unescape letter = some c := by
  unfold shortEscape at h
  split_ifs at h with h1 h2 h3 h4 h5 h6 h7 <;> cases h <;>
    first
    | (subst h1; decide)
    | (subst h2; decide)
    | (subst h3; decide)
    | (subst h4; decide)
    | (subst h5; decide)
    | (subst h6; decide)
    | (subst h7; decide)

theorem scanPieces_close (start rest : Str) :
    scanPieces start (quoteMark :: rest) = .ok ([], rest) := by
  rw [scanPieces.eq_def]
  simp

theorem scanPieces_short (start : Str) {letter c : CodePoint} (rest : Str) (hu : letter ≠ 0x75)
    (hc : unescape letter = some c) :
    scanPieces start (backslash :: letter :: rest) = consPiece (c, true) (scanPieces start rest) := by
  rw [scanPieces.eq_def]
  simp [hu, hc, show backslash ≠ quoteMark by decide]

theorem scanPieces_hex (start : Str) {c : CodePoint} {rest : Str} (hc : c.val < 0x10000)
    (hr : rest ≠ []) :
    scanPieces start (hexEscape c.val ++ rest) = consPiece (c, true) (scanPieces start rest) := by
  rw [scanPieces.eq_def]
  simp [hexEscape, hexUnit_hexDigit c hc, hr, show backslash ≠ quoteMark by decide]

theorem scanPieces_plain (start : Str) {c : CodePoint} (rest : Str) (hq : c ≠ quoteMark)
    (hb : c ≠ backslash) (hc : ¬ c.val < 0x20) :
    scanPieces start (c :: rest) = consPiece (c, false) (scanPieces start rest) := by
  rw [scanPieces.eq_def]
  simp [hq, hb, hc]

/-- A code point is read back as it was written. -/
theorem scanPieces_escape (start : Str) (c : CodePoint) {rest : Str} (hr : rest ≠ []) :
    scanPieces start (escape c ++ rest) = consPiece (c, escaped c) (scanPieces start rest) := by
  unfold escape escaped
  cases hs : shortEscape c with
  | some letter =>
    obtain ⟨hu, hc⟩ := unescape_shortEscape hs
    exact scanPieces_short start rest hu hc
  | none =>
    dsimp only
    split
    next h =>
      rw [scanPieces_hex start (by omega) hr]
      simp [h]
    next h =>
      have hq : c ≠ quoteMark := by
        rintro rfl
        simp [shortEscape] at hs
      have hb : c ≠ backslash := by
        rintro rfl
        revert hs
        decide
      rw [List.singleton_append, scanPieces_plain start rest hq hb h]
      simp [h]

def pieces (s : Str) : List Piece :=
  s.map fun c => (c, escaped c)

theorem scanPieces_quote (start s rest : Str) :
    scanPieces start (s.flatMap escape ++ quoteMark :: rest) = .ok (pieces s, rest) := by
  induction s with
  | nil => exact scanPieces_close start rest
  | cons c s ih =>
    rw [List.flatMap_cons, List.append_assoc, scanPieces_escape start c (by simp), ih]
    rfl

theorem escaped_low {c : CodePoint} (h : escaped c = true) : c.val < 0xD800 := by
  unfold escaped shortEscape at h
  by_contra hc
  have high : 0xD800 ≤ c.val := by omega
  have small : ¬ c.val < 0x20 := by omega
  have differ : ∀ d : CodePoint, d.val < 0xD800 → c ≠ d := by
    rintro d hd rfl
    omega
  simp [small, differ quoteMark (by decide), differ backslash (by decide),
    differ 0x08 (by decide), differ 0x0C (by decide), differ 0x0A (by decide),
    differ 0x0D (by decide), differ 0x09 (by decide)] at h

theorem joinPieces_pieces (s : Str) : joinPieces (pieces s) = s := by
  induction s with
  | nil => rfl
  | cons c s ih =>
    cases s with
    | nil => rfl
    | cons d s =>
      change joinPieces ((c, escaped c) :: (d, escaped d) :: pieces s) = _
      rw [joinPieces, dif_neg]
      · exact congrArg (c :: ·) ih
      · rintro ⟨hc, _, high, _⟩
        have := escaped_low hc
        omega

theorem scanString_quote {L : Layout} (hL : L.Readable) (s rest : Str) :
    scanString (L.quote s ++ rest) = .ok (s, rest) := by
  have text : (L.quote s ++ rest).tail = s.flatMap escape ++ quoteMark :: rest := by
    simp [Layout.quote, hL.escape]
  rw [scanString, text, scanPieces_quote]
  simp [Except.map, joinPieces_pieces]

end Strings

section Atoms

theorem isDigit_ne {c d : CodePoint} (hc : isDigit c = true) (hd : isDigit d = false) : c ≠ d := by
  rintro rfl
  exact absurd hc (by simp [hd])

/-- A text that begins with a digit, or with a minus and a digit. -/
def numberLike : Str → Bool
  | c :: d :: _ => isDigit c || c == minus && isDigit d
  | [c] => isDigit c
  | [] => false

theorem numberLike_literal {l : Literal} (wf : l.Wf) (rest : Str) :
    numberLike (l.text ++ rest) = true := by
  have whole : ∃ c tail, l.whole = c :: tail ∧ isDigit c = true := by
    rcases wf.whole with zero | ⟨c, tail, he, _, hd, _⟩
    · exact ⟨_, _, zero, by decide⟩
    · exact ⟨c, tail, he, hd⟩
  obtain ⟨c, tail, he, hd⟩ := whole
  have digit : ∀ more, numberLike (c :: more) = true := by
    intro more
    cases more <;> simp [numberLike, hd]
  unfold Literal.text
  rw [he]
  cases l.neg with
  | true => simp [numberLike, hd]
  | false => exact digit _

theorem numberLike_constant {constant : Str × Json} (h : constant ∈ constants) (rest : Str) :
    numberLike (constant.1 ++ rest) = false := by
  simp only [constants, List.mem_cons, List.not_mem_nil, or_false] at h
  rcases h with rfl | rfl | rfl | rfl | rfl | rfl <;> rfl

/-- No constant begins like a number. -/
theorem scanAtom_number {s : Str} (h : numberLike s = true) : scanAtom s = scanNumber s := by
  have none : (constants.find? fun constant => startsWith s constant.1) = none := by
    apply List.find?_eq_none.mpr
    intro constant hc hp
    obtain ⟨more, he⟩ := List.isPrefixOf_iff_prefix.mp hp
    rw [← he, numberLike_constant hc] at h
    exact absurd h (by simp)
  unfold scanAtom
  rw [none]

def intLiteral (n : Int) : Literal :=
  ⟨decide (n < 0), natText n.natAbs, [], none⟩

theorem intLiteral_text (n : Int) : (intLiteral n).text = intText n := by
  unfold intText intLiteral Literal.text
  by_cases h : n < 0 <;> simp [h, Literal.expText]

theorem intLiteral_wf (n : Int) : (intLiteral n).Wf :=
  ⟨natText_wf _, by simp [intLiteral], by simp [intLiteral]⟩

theorem scanAtom_intText {n : Int} (hn : (Json.int n).printable = true) {rest : Str}
    (hr : Ends rest) : scanAtom (intText n ++ rest) = .ok (.int n, rest) := by
  rw [← intLiteral_text, scanAtom_number (numberLike_literal (intLiteral_wf n) rest), scanNumber,
    scanLiteral_text (intLiteral_wf n) hr]
  have few : (natText n.natAbs).length ≤ maxIntDigits := by simpa [printable] using hn
  have value : (if (intLiteral n).neg then -(natValue (intLiteral n).whole : Int)
      else natValue (intLiteral n).whole) = n := by
    by_cases h : n < 0
    · simp only [intLiteral, h, decide_true, if_true, natValue_natText]
      omega
    · simp only [intLiteral, h, decide_false, Bool.false_eq_true, if_false, natValue_natText]
      omega
  have whole : (intLiteral n).isInt = true := rfl
  dsimp only
  rw [if_pos whole, if_pos (show (intLiteral n).whole.length ≤ maxIntDigits from few), value]

theorem scanAtom_constant {name : Str} {value : Json} (rest : Str)
    (h : (constants.find? fun constant => startsWith (name ++ rest) constant.1) =
      some (name, value)) : scanAtom (name ++ rest) = .ok (value, rest) := by
  unfold scanAtom
  rw [h]
  simp

theorem scanAtom_floatText (x : Binary64.Double) {rest : Str} (hr : Ends rest) :
    scanAtom (floatText x ++ rest) = .ok (.float x, rest) := by
  cases x with
  | finite f =>
    have wf := f.literal_wf
    have double : f.literal.isInt = false := f.literal_isInt
    rw [floatText, scanAtom_number (numberLike_literal wf rest), scanNumber, scanLiteral_text wf hr]
    dsimp only
    rw [double, f.literal_double]
    rfl
  | infinite neg => cases neg <;> exact scanAtom_constant rest rfl
  | nan => exact scanAtom_constant rest rfl

end Atoms

section Blanks

theorem skipSpace_append {blank : Str} (h : ∀ c ∈ blank, isJsonSpace c = true) (s : Str) :
    skipSpace (blank ++ s) = skipSpace s := by
  induction blank with
  | nil => rfl
  | cons c blank ih =>
    have hc := h c List.mem_cons_self
    have rest := ih fun d hd => h d (List.mem_cons_of_mem c hd)
    simpa [skipSpace, hc] using rest

theorem skipSpace_cons {c : CodePoint} (h : isJsonSpace c = false) (s : Str) :
    skipSpace (c :: s) = c :: s := by
  simp [skipSpace, h]

theorem ends_cons {c : CodePoint} (h : isDigit c = false ∧ c ≠ point ∧ c ≠ 0x65 ∧ c ≠ 0x45)
    (s : Str) : Ends (c :: s) := by
  intro d hd
  cases Option.some.inj hd
  exact h

theorem ends_blank {c : CodePoint} (h : isJsonSpace c = true) (s : Str) : Ends (c :: s) := by
  apply ends_cons
  simp only [isJsonSpace, Bool.or_eq_true, beq_iff_eq] at h
  rcases h with ((rfl | rfl) | rfl) | rfl <;> decide

theorem ends_append {blank : Str} (h : ∀ c ∈ blank, isJsonSpace c = true) {s : Str}
    (hs : Ends s) : Ends (blank ++ s) := by
  cases blank with
  | nil => exact hs
  | cons c blank => exact ends_blank (h c List.mem_cons_self) _

theorem ends_items (L : Layout) (d : Nat) (items : List Json) {s : Str} (hs : Ends s) :
    Ends (encodeItems L d items ++ s) := by
  cases items with
  | nil => exact hs
  | cons x xs => exact ends_cons (by decide) _

theorem ends_fields (L : Layout) (d : Nat) (fields : List (Str × Json)) {s : Str} (hs : Ends s) :
    Ends (encodeFields L d fields ++ s) := by
  cases fields with
  | nil => exact hs
  | cons x xs => exact ends_cons (by decide) _

theorem literal_cons {l : Literal} (wf : l.Wf) :
    ∃ c s, l.text = c :: s ∧ isJsonSpace c = false ∧ c ≠ closeBracket ∧ c ≠ quoteMark ∧
      c ≠ openBrace ∧ c ≠ openBracket ∧ c ≠ byteOrderMark := by
  have number := numberLike_literal wf []
  rw [List.append_nil] at number
  cases ht : l.text with
  | nil =>
    rw [ht] at number
    exact absurd number (by simp [numberLike])
  | cons c s =>
    have head : isDigit c = true ∨ c = minus := by
      rw [ht] at number
      cases s with
      | nil => exact .inl number
      | cons d s =>
        simp only [numberLike, Bool.or_eq_true, Bool.and_eq_true, beq_iff_eq] at number
        exact number.imp_right And.left
    refine ⟨c, s, rfl, ?_⟩
    rcases head with digit | rfl
    · have differ : ∀ d : CodePoint, isDigit d = false → c ≠ d := fun d hd => isDigit_ne digit hd
      have space : isJsonSpace c = false := by
        simp [isJsonSpace, differ 0x20 (by decide), differ 0x09 (by decide),
          differ 0x0A (by decide), differ 0x0D (by decide)]
      exact ⟨space, differ _ (by decide), differ _ (by decide), differ _ (by decide),
        differ _ (by decide), differ _ (by decide)⟩
    · decide

/-- What a written value can begin with. -/
theorem encode_cons (L : Layout) (d : Nat) (j : Json) :
    ∃ c s, encode L d j = c :: s ∧ isJsonSpace c = false ∧ c ≠ closeBracket ∧
      c ≠ byteOrderMark := by
  cases j with
  | null => exact ⟨_, _, rfl, by decide⟩
  | bool b => cases b <;> exact ⟨_, _, rfl, by decide⟩
  | int n =>
    obtain ⟨c, s, he, space, close, _, _, _, mark⟩ := literal_cons (intLiteral_wf n)
    rw [encode, ← intLiteral_text]
    exact ⟨c, s, he, space, close, mark⟩
  | float x =>
    cases x with
    | finite f =>
      obtain ⟨c, s, he, space, close, _, _, _, mark⟩ := literal_cons f.literal_wf
      exact ⟨c, s, he, space, close, mark⟩
    | infinite neg => cases neg <;> exact ⟨_, _, rfl, by decide⟩
    | nan => exact ⟨_, _, rfl, by decide⟩
  | str s => exact ⟨_, _, rfl, by decide⟩
  | list items => cases items <;> exact ⟨_, _, rfl, by decide⟩
  | obj fields => cases fields <;> exact ⟨_, _, rfl, by decide⟩

end Blanks

section Steps

variable {fuel depth : Nat} {s t u rest : Str}

theorem scanValue_atom (fuel depth : Nat)
    (h : ∃ c t, s = c :: t ∧ c ≠ quoteMark ∧ c ≠ openBrace ∧ c ≠ openBracket) :
    scanValue (fuel + 1) depth s = scanAtom s := by
  obtain ⟨c, t, rfl, quote, brace, bracket⟩ := h
  rw [scanValue.eq_def]
  simp [quote, brace, bracket]

theorem scanValue_quote (fuel depth : Nat) {text : Str} (hs : s.head? = some quoteMark)
    (h : scanString s = .ok (text, rest)) :
    scanValue (fuel + 1) depth s = .ok (.str text, rest) := by
  rw [scanValue.eq_def]
  simp only [if_pos hs, h]
  rfl

theorem scanValue_bracket {items : List Json} (hb : (skipSpace s).head? ≠ some closeBracket)
    (h : scanItems fuel depth (skipSpace s) = .ok (items, rest)) :
    scanValue (fuel + 1) (depth + 1) (openBracket :: s) = .ok (.list items, rest) := by
  rw [scanValue.eq_def]
  simp only [List.head?_cons, List.tail_cons, if_neg hb, h]
  rfl

theorem scanValue_brace {pairs : List (Str × Json)} (hb : (skipSpace s).head? ≠ some closeBrace)
    (h : scanFields fuel depth (skipSpace s) = .ok (pairs, rest)) :
    scanValue (fuel + 1) (depth + 1) (openBrace :: s) = .ok (ofPairs pairs, rest) := by
  rw [scanValue.eq_def]
  simp only [List.head?_cons, List.tail_cons, if_neg hb, h]
  rfl

theorem expect_cons (c : CodePoint) (s : Str) : expect c (c :: s) = .ok s := by
  simp [expect]

theorem scanItems_last {x : Json} (h : scanValue fuel depth s = .ok (x, t))
    (ht : skipSpace t = closeBracket :: rest) :
    scanItems (fuel + 1) depth s = .ok ([x], rest) := by
  rw [scanItems, h]
  simp only [bind, Except.bind, ht, List.head?_cons]
  rfl

theorem scanItems_more {x : Json} {xs : List Json} (h : scanValue fuel depth s = .ok (x, t))
    (ht : skipSpace t = comma :: u) (hm : scanItems fuel depth (skipSpace u) = .ok (xs, rest)) :
    scanItems (fuel + 1) depth s = .ok (x :: xs, rest) := by
  have other : some comma ≠ some closeBracket := by decide
  rw [scanItems, h]
  simp only [bind, Except.bind, ht, List.head?_cons, if_neg other, expect_cons, hm]
  rfl

theorem scanFields_last {key : Str} {x : Json} {v w : Str} (hs : s.head? = some quoteMark)
    (hk : scanString s = .ok (key, v)) (hv : skipSpace v = colon :: w)
    (h : scanValue fuel depth (skipSpace w) = .ok (x, t))
    (ht : skipSpace t = closeBrace :: rest) :
    scanFields (fuel + 1) depth s = .ok ([(key, x)], rest) := by
  rw [scanFields]
  simp only [scanKey, if_pos hs, hk, bind, Except.bind, hv, expect_cons, h, ht, List.head?_cons]
  rfl

theorem scanFields_more {key : Str} {x : Json} {xs : List (Str × Json)} {v w : Str}
    (hs : s.head? = some quoteMark) (hk : scanString s = .ok (key, v))
    (hv : skipSpace v = colon :: w) (h : scanValue fuel depth (skipSpace w) = .ok (x, t))
    (ht : skipSpace t = comma :: u) (hm : scanFields fuel depth (skipSpace u) = .ok (xs, rest)) :
    scanFields (fuel + 1) depth s = .ok ((key, x) :: xs, rest) := by
  have other : some comma ≠ some closeBrace := by decide
  rw [scanFields]
  simp only [scanKey, if_pos hs, hk, bind, Except.bind, hv, expect_cons, h, ht, List.head?_cons,
    if_neg other, hm]
  rfl

end Steps

section Values

variable {L : Layout}

theorem foldl_setField {fields done : List (Str × Json)}
    (h : ((done ++ fields).map Prod.fst).Nodup) :
    fields.foldl setField done = done ++ fields := by
  induction fields generalizing done with
  | nil => simp
  | cons field fields ih =>
    have new : field.1 ∉ done.map Prod.fst := by
      rw [List.map_append, List.map_cons] at h
      intro hm
      exact (List.nodup_append.mp h).2.2 _ hm _ List.mem_cons_self rfl
    have one : setField done field = done ++ [field] := by
      unfold setField
      rw [if_neg new]
    rw [List.foldl_cons, one, ih (by simpa using h)]
    simp

theorem ofPairs_nodup {fields : List (Str × Json)} (h : (fields.map Prod.fst).Nodup) :
    ofPairs fields = .obj fields := by
  have same := @foldl_setField fields [] h
  rw [ofPairs, same, List.nil_append]

theorem skipSpace_encode {blank : Str} (hb : ∀ c ∈ blank, isJsonSpace c = true) (d : Nat)
    (j : Json) (s : Str) :
    skipSpace (blank ++ (encode L d j ++ s)) = encode L d j ++ s := by
  obtain ⟨c, t, he, space, _⟩ := encode_cons L d j
  rw [skipSpace_append hb, he, List.cons_append, skipSpace_cons space]

theorem skipSpace_quote {blank : Str} (hb : ∀ c ∈ blank, isJsonSpace c = true) (key s : Str) :
    skipSpace (blank ++ (L.quote key ++ s)) = L.quote key ++ s := by
  rw [skipSpace_append hb, Layout.quote, List.cons_append, skipSpace_cons (by decide)]

theorem Layout.Readable.next (hL : L.Readable) (d : Nat) :
    ∀ c ∈ L.afterComma ++ L.pad d, isJsonSpace c = true := by
  intro c hc
  rcases List.mem_append.mp hc with hc | hc
  · exact hL.afterComma c hc
  · exact hL.pad d c hc

mutual

/-- A written value is read back. -/
theorem scanValue_encode (hL : L.Readable) (j : Json) (fuel depth d : Nat) (rest : Str)
    (hd : j.distinct = true) (hp : j.printable = true)
    (hf : 2 * (encode L d j).length < fuel) (hn : (encode L d j).length ≤ depth)
    (hr : Ends rest) : scanValue fuel depth (encode L d j ++ rest) = .ok (j, rest) := by
  obtain ⟨fuel, rfl⟩ : ∃ n, fuel = n + 1 := ⟨fuel - 1, by omega⟩
  have pos : 0 < (encode L d j).length := by
    obtain ⟨c, s, he, _⟩ := encode_cons L d j
    rw [he]
    simp
  obtain ⟨depth, rfl⟩ : ∃ n, depth = n + 1 := ⟨depth - 1, by omega⟩
  cases j with
  | null => exact scanValue_atom fuel _ ⟨_, _, rfl, by decide⟩
  | bool b => cases b <;> exact scanValue_atom fuel _ ⟨_, _, rfl, by decide⟩
  | int n =>
    obtain ⟨c, s, he, _, _, quote, brace, bracket, _⟩ := literal_cons (intLiteral_wf n)
    rw [encode, scanValue_atom fuel, scanAtom_intText hp hr]
    rw [← intLiteral_text, he]
    exact ⟨c, _, rfl, quote, brace, bracket⟩
  | float x =>
    rw [encode, scanValue_atom fuel, scanAtom_floatText x hr]
    cases x with
    | finite f =>
      obtain ⟨c, s, he, _, _, quote, brace, bracket, _⟩ := literal_cons f.literal_wf
      rw [floatText, he]
      exact ⟨c, _, rfl, quote, brace, bracket⟩
    | infinite neg => cases neg <;> exact ⟨_, _, rfl, by decide⟩
    | nan => exact ⟨_, _, rfl, by decide⟩
  | str s => exact scanValue_quote fuel _ rfl (scanString_quote hL s rest)
  | list items =>
    cases items with
    | nil => rfl
    | cons x xs =>
      simp only [encode, List.length_cons, List.length_append] at hf hn
      have body := scanItems_encode hL x xs fuel depth (d + 1) (L.pad d) rest hd hp
        (by omega) (by omega) (hL.pad d)
      obtain ⟨c, s, he, _, close, _⟩ := encode_cons L (d + 1) x
      simp only [encode, List.cons_append, List.append_assoc, List.nil_append]
      apply scanValue_bracket
      · rw [skipSpace_encode (hL.pad _), he]
        simpa using close
      · rw [skipSpace_encode (hL.pad _)]
        exact body
  | obj fields =>
    cases fields with
    | nil => rfl
    | cons field xs =>
      rcases hx : field with ⟨key, x⟩
      subst hx
      simp only [encode, List.length_cons, List.length_append] at hf hn
      simp only [distinct, Bool.and_eq_true, decide_eq_true_eq] at hd
      have body := scanFields_encode hL key x xs fuel depth (d + 1) (L.pad d) rest hd.2 hp
        (by omega) (by omega) (hL.pad d)
      simp only [encode, List.cons_append, List.append_assoc, List.nil_append]
      rw [← ofPairs_nodup hd.1]
      apply scanValue_brace
      · rw [skipSpace_quote (hL.pad _)]
        exact (by decide : some quoteMark ≠ some closeBrace)
      · rw [skipSpace_quote (hL.pad _)]
        exact body
termination_by sizeOf j

theorem scanItems_encode (hL : L.Readable) (x : Json) (xs : List Json) (fuel depth d : Nat)
    (blank rest : Str) (hd : distinctItems (x :: xs) = true)
    (hp : printableItems (x :: xs) = true)
    (hf : 2 * ((encode L d x).length + (encodeItems L d xs).length) + 1 < fuel)
    (hn : (encode L d x).length + (encodeItems L d xs).length ≤ depth)
    (hb : ∀ c ∈ blank, isJsonSpace c = true) :
    scanItems fuel depth (encode L d x ++ (encodeItems L d xs ++ (blank ++ closeBracket :: rest))) =
      .ok (x :: xs, rest) := by
  obtain ⟨fuel, rfl⟩ : ∃ n, fuel = n + 1 := ⟨fuel - 1, by omega⟩
  rw [distinctItems, Bool.and_eq_true] at hd
  rw [printableItems, Bool.and_eq_true] at hp
  have close : Ends (blank ++ closeBracket :: rest) := ends_append hb (ends_cons (by decide) _)
  have one := scanValue_encode hL x fuel depth d _ hd.1 hp.1 (by omega) (by omega)
    (ends_items L d xs close)
  cases xs with
  | nil =>
    apply scanItems_last one
    rw [encodeItems, List.nil_append, skipSpace_append hb, skipSpace_cons (by decide)]
  | cons y ys =>
    simp only [encodeItems, Layout.next, List.length_cons, List.length_append] at hf hn
    apply scanItems_more (u := L.afterComma ++ L.pad d ++ (encode L d y ++ (encodeItems L d ys ++
      (blank ++ closeBracket :: rest)))) one
    · simp only [encodeItems, Layout.next, List.cons_append, List.append_assoc]
      exact skipSpace_cons (by decide) _
    · rw [skipSpace_encode (hL.next d)]
      exact scanItems_encode hL y ys fuel depth d blank rest hd.2 hp.2 (by omega) (by omega) hb
termination_by sizeOf x + sizeOf xs + 1

theorem scanFields_encode (hL : L.Readable) (key : Str) (x : Json) (xs : List (Str × Json))
    (fuel depth d : Nat) (blank rest : Str) (hd : distinctFields ((key, x) :: xs) = true)
    (hp : printableFields ((key, x) :: xs) = true)
    (hf : 2 * ((encode L d x).length + (encodeFields L d xs).length) + 1 < fuel)
    (hn : (encode L d x).length + (encodeFields L d xs).length ≤ depth)
    (hb : ∀ c ∈ blank, isJsonSpace c = true) :
    scanFields fuel depth (L.quote key ++ (colon :: (L.afterColon ++ (encode L d x ++
      (encodeFields L d xs ++ (blank ++ closeBrace :: rest)))))) = .ok ((key, x) :: xs, rest) := by
  obtain ⟨fuel, rfl⟩ : ∃ n, fuel = n + 1 := ⟨fuel - 1, by omega⟩
  rw [distinctFields, Bool.and_eq_true] at hd
  rw [printableFields, Bool.and_eq_true] at hp
  have close : Ends (blank ++ closeBrace :: rest) := ends_append hb (ends_cons (by decide) _)
  have one := scanValue_encode hL x fuel depth d _ hd.1 hp.1 (by omega) (by omega)
    (ends_fields L d xs close)
  rw [← skipSpace_encode hL.afterColon] at one
  cases xs with
  | nil =>
    apply scanFields_last rfl (scanString_quote hL key _) (skipSpace_cons (by decide) _) one
    rw [encodeFields, List.nil_append, skipSpace_append hb, skipSpace_cons (by decide)]
  | cons field ys =>
    rcases hy : field with ⟨key', y⟩
    subst hy
    simp only [encodeFields, Layout.next, List.length_cons, List.length_append] at hf hn
    apply scanFields_more (u := L.afterComma ++ L.pad d ++ (L.quote key' ++ (colon ::
      (L.afterColon ++ (encode L d y ++ (encodeFields L d ys ++ (blank ++ closeBrace :: rest)))))))
      rfl (scanString_quote hL key _) (skipSpace_cons (by decide) _) one
    · simp only [encodeFields, Layout.next, List.cons_append, List.append_assoc]
      exact skipSpace_cons (by decide) _
    · rw [skipSpace_quote (hL.next d)]
      exact scanFields_encode hL key' y ys fuel depth d blank rest hd.2 hp.2 (by omega) (by omega) hb
termination_by sizeOf x + sizeOf xs + 1

end

/-- Decoding takes a written text back, whatever blank space is after it. -/
theorem loads_encode (hL : L.Readable) {j : Json} (hd : j.distinct = true)
    (hp : j.printable = true) {blank : Str} (hb : ∀ c ∈ blank, isJsonSpace c = true) :
    loads (encode L 0 j ++ blank) = .ok j := by
  obtain ⟨c, s, he, _, _, mark⟩ := encode_cons L 0 j
  have first : (encode L 0 j ++ blank).head? ≠ some byteOrderMark := by
    rw [he]
    simpa using mark
  have ends : Ends blank := by
    have := ends_append hb ends_nil
    rwa [List.append_nil] at this
  have skip : skipSpace blank = [] := by
    have := skipSpace_append hb []
    rwa [List.append_nil] at this
  have noBlank : skipSpace (encode L 0 j ++ blank) = encode L 0 j ++ blank :=
    skipSpace_encode (List.forall_mem_nil _) 0 j blank
  have decoded := scanValue_encode hL j (2 * (encode L 0 j ++ blank).length + 1)
    ((encode L 0 j ++ blank).length + 1) 0 blank hd hp
    (by rw [List.length_append]; omega) (by rw [List.length_append]; omega) ends
  rw [loads, loadsWithin, if_neg first, noBlank, rawDecode, decoded]
  simp [bind, Except.bind, skip, pure, Except.pure]

end Values

end Json

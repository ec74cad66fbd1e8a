import EdgecaseForge.JsonLocal
import EdgecaseForge.ProviderAnswers

namespace Json

open Text Decimal

section Objects

variable {fuel depth limit : Nat} {s r : Str} {fields : List (Str × Json)} {j : Json}

theorem skipSpace_suffix (s : Str) : skipSpace s <:+ s :=
  List.dropWhile_suffix isJsonSpace

/-- The fields of an object end with its closing brace. -/
theorem scanFields_closes (h : scanFields fuel depth s = .ok (fields, r)) : closeBrace :: r <:+ s := by
  induction fuel generalizing s fields with
  | zero =>
    rw [scanFields] at h
    cases h
  | succ fuel ih =>
    obtain ⟨key, v, w, x, t, hs, hk, hv, hx, ht⟩ := scanFields_cases h
    have toColon : colon :: w <:+ s := by
      obtain ⟨k, split, -⟩ := scanString_takes hs hk
      have after : v <:+ s := ⟨k, split.symm⟩
      exact hv ▸ (skipSpace_suffix v).trans after
    have toValue : t <:+ s := by
      obtain ⟨p, split, -⟩ := (scan_takes fuel depth).1 _ _ _ hx
      have after : t <:+ skipSpace w := ⟨p, split.symm⟩
      exact after.trans ((skipSpace_suffix w).trans ((List.suffix_cons colon w).trans toColon))
    rcases ht with ⟨close, -⟩ | ⟨u, xs, next, more, -⟩
    · exact close ▸ (skipSpace_suffix t).trans toValue
    · have rest : u <:+ t := (List.suffix_cons comma u).trans (next ▸ skipSpace_suffix t)
      exact (ih more).trans ((skipSpace_suffix u).trans (rest.trans toValue))

theorem scanAtom_not_obj (h : scanAtom s = .ok (j, r)) : j ≠ .obj fields := by
  unfold scanAtom at h
  split at h
  next name value found =>
    cases h
    have listed := List.mem_of_find?_eq_some found
    simp only [constants, List.mem_cons, Prod.mk.injEq, List.not_mem_nil, or_false] at listed
    rcases listed with ⟨-, rfl⟩ | ⟨-, rfl⟩ | ⟨-, rfl⟩ | ⟨-, rfl⟩ | ⟨-, rfl⟩ | ⟨-, rfl⟩ <;>
      exact Json.noConfusion
  next =>
    unfold scanNumber at h
    split at h
    next => cases h
    next =>
      split_ifs at h <;> cases h <;> exact Json.noConfusion

/-- An object stands between its braces. -/
theorem rawDecode_braces (h : rawDecode limit s = .ok (.obj fields, r)) :
    s.head? = some openBrace ∧ closeBrace :: r <:+ s.tail := by
  rw [rawDecode] at h
  generalize hj : Json.obj fields = j at h
  cases scanValue_cases h with
  | string => cases hj
  | noFields close => exact ⟨rfl, close ▸ skipSpace_suffix _⟩
  | fields _ inner => exact ⟨rfl, (scanFields_closes inner).trans (skipSpace_suffix _)⟩
  | noItems => cases hj
  | items => cases hj
  | atom _ _ _ single => exact absurd hj.symm (scanAtom_not_obj single)

/-- An object is decoded the same whatever follows it. -/
theorem rawDecode_append (h : rawDecode limit s = .ok (.obj fields, r)) (more : Str) :
    rawDecode limit (s ++ more) = .ok (.obj fields, r ++ more) := by
  obtain ⟨p, split, -, again⟩ := (scan_takes _ _).1 _ _ _ h
  have longer := again (r ++ more) (fun number => nomatch number)
  rw [← List.append_assoc, ← split] at longer
  refine (scan_mono ?_ (Nat.le_refl limit)).1 _ _ _ longer
  rw [List.length_append]
  omega

end Objects

end Json

namespace Text

section Stripping

variable {c a b : CodePoint} {s pre rest f middle suf : Str}

theorem lstrip_append (solid : isSpace c = false) :
    lstrip (pre ++ c :: rest) = lstrip pre ++ c :: rest := by
  induction pre with
  | nil => simp [lstrip, solid]
  | cons d pre ih =>
    unfold lstrip at ih ⊢
    rw [List.cons_append, List.dropWhile_cons, List.dropWhile_cons]
    split
    next => exact ih
    next => rfl

theorem rstrip_eq (s : Str) : rstrip s = (lstrip s.reverse).reverse :=
  rfl

theorem rstrip_append (solid : isSpace c = false) :
    rstrip (pre ++ c :: rest) = pre ++ c :: rstrip rest := by
  rw [rstrip_eq, rstrip_eq, List.reverse_append, List.reverse_cons, List.append_assoc,
    List.singleton_append, lstrip_append solid]
  simp

/-- Blank space is stripped outside two characters that are none. -/
theorem strip_between (left : isSpace a = false) (right : isSpace b = false) :
    strip (pre ++ a :: (middle ++ b :: suf)) = lstrip pre ++ a :: (middle ++ b :: rstrip suf) := by
  rw [strip, lstrip_append left, ← List.cons_append, ← List.append_assoc, rstrip_append right,
    List.append_assoc, List.cons_append]

theorem startsWith_append (outside : c ∉ f) : startsWith (pre ++ c :: rest) f = startsWith pre f := by
  induction f generalizing pre with
  | nil => cases pre <;> rfl
  | cons d f ih =>
    rw [List.mem_cons, not_or] at outside
    unfold startsWith at ih ⊢
    cases pre with
    | nil => simp [List.isPrefixOf, Ne.symm outside.1]
    | cons e pre =>
      rw [List.cons_append, List.isPrefixOf, List.isPrefixOf, ih outside.2]

theorem endsWith_append (outside : c ∉ f) : endsWith (pre ++ c :: rest) f = endsWith rest f := by
  have back : startsWith (rest.reverse ++ c :: pre.reverse) f.reverse = startsWith rest.reverse f.reverse :=
    startsWith_append fun mem => outside (List.mem_reverse.mp mem)
  unfold endsWith List.isSuffixOf
  rw [List.reverse_append, List.reverse_cons, List.append_assoc, List.singleton_append]
  exact back

theorem prefix_of_startsWith (h : startsWith s f = true) : f <+: s :=
  List.isPrefixOf_iff_prefix.mp h

theorem suffix_of_endsWith (h : endsWith s f = true) : f <:+ s :=
  List.isSuffixOf_iff_suffix.mp h

theorem mem_lstrip (solid : isSpace c = false) : c ∈ lstrip s ↔ c ∈ s := by
  refine ⟨fun mem => (List.dropWhile_suffix isSpace).mem mem, fun mem => ?_⟩
  obtain ⟨before, after, rfl⟩ := List.append_of_mem mem
  rw [lstrip_append solid]
  simp

theorem lstrip_suffix (s : Str) : lstrip s <:+ s :=
  List.dropWhile_suffix isSpace

theorem rstrip_isPrefix (s : Str) : rstrip s <+: s := by
  have suffix := List.reverse_prefix.mpr (lstrip_suffix s.reverse)
  rwa [List.reverse_reverse] at suffix

end Stripping

end Text

namespace EdgecaseForge

open Text

section Fences

variable {pre suf middle rest content text : Str} {c a b : CodePoint}

/-- The opening fence is taken off. -/
def withoutOpening (value : Str) : Str :=
  if startsWith value (lit "```json") then value.drop 7
  else if startsWith value fence then value.drop 3
  else value

def withoutClosing (value : Str) : Str :=
  if endsWith value fence then value.take (value.length - 3) else value

theorem stripJsonFence_eq (content : Str) :
    stripJsonFence content = strip (withoutClosing (withoutOpening (strip content))) :=
  rfl

theorem withoutOpening_append (outside : c ∉ lit "```json") :
    withoutOpening (pre ++ c :: rest) = withoutOpening pre ++ c :: rest := by
  have plain : c ∉ fence := fun mem => outside (List.mem_append_left (lit "json") mem)
  unfold withoutOpening
  rw [startsWith_append outside, startsWith_append plain]
  split
  next opened =>
    have long : 7 ≤ pre.length := (prefix_of_startsWith opened).length_le
    rw [List.drop_append_of_le_length long]
  next =>
    split
    next opened =>
      have long : 3 ≤ pre.length := (prefix_of_startsWith opened).length_le
      rw [List.drop_append_of_le_length long]
    next => rfl

theorem withoutClosing_append (outside : c ∉ fence) :
    withoutClosing (pre ++ c :: rest) = pre ++ c :: withoutClosing rest := by
  unfold withoutClosing
  rw [endsWith_append outside]
  split
  next closed =>
    have long : 3 ≤ rest.length := (suffix_of_endsWith closed).length_le
    have count : (pre ++ c :: rest).length - 3 = (pre ++ [c]).length + (rest.length - 3) := by
      simp
      omega
    rw [count, show pre ++ c :: rest = (pre ++ [c]) ++ rest by simp, List.take_length_add_append]
    simp
  next => rfl

theorem withoutOpening_suffix (value : Str) : withoutOpening value <:+ value := by
  unfold withoutOpening
  split
  next => exact List.drop_suffix 7 value
  next =>
    split
    next => exact List.drop_suffix 3 value
    next => exact List.suffix_rfl

theorem mem_withoutOpening (outside : c ∉ lit "```json") : c ∈ withoutOpening pre ↔ c ∈ pre := by
  refine ⟨fun mem => (withoutOpening_suffix pre).mem mem, fun mem => ?_⟩
  obtain ⟨before, after, rfl⟩ := List.append_of_mem mem
  rw [withoutOpening_append outside]
  simp

theorem withoutClosing_isPrefix (value : Str) : withoutClosing value <+: value := by
  unfold withoutClosing
  split
  next => exact List.take_prefix _ value
  next => exact List.prefix_rfl

/-- Stripping leaves what stands between two braces, and no brace before them is lost. -/
theorem stripJsonFence_between (pre middle suf : Str) : ∃ before after,
    stripJsonFence (pre ++ Json.openBrace :: (middle ++ Json.closeBrace :: suf)) =
      before ++ Json.openBrace :: (middle ++ Json.closeBrace :: after) ∧
    before <:+ pre ∧ after <+: suf ∧ (Json.openBrace ∈ before ↔ Json.openBrace ∈ pre) := by
  have left : isSpace Json.openBrace = false := by decide
  have right : isSpace Json.closeBrace = false := by decide
  have outside : Json.openBrace ∉ lit "```json" := by decide
  have outside' : Json.closeBrace ∉ fence := by decide
  refine ⟨lstrip (withoutOpening (lstrip pre)), rstrip (withoutClosing (rstrip suf)), ?_, ?_, ?_, ?_⟩
  · rw [stripJsonFence_eq, strip_between left right, withoutOpening_append outside,
      ← List.cons_append, ← List.append_assoc, withoutClosing_append outside', List.append_assoc,
      List.cons_append, strip_between left right]
  · exact (lstrip_suffix _).trans ((withoutOpening_suffix _).trans (lstrip_suffix pre))
  · exact (rstrip_isPrefix _).trans ((withoutClosing_isPrefix _).trans (rstrip_isPrefix suf))
  · rw [mem_lstrip left, mem_withoutOpening outside, mem_lstrip left]

theorem find_append {s : Str} (h : c ∈ s) : ∃ i < s.length, ∀ rest, find (s ++ rest) c = some i := by
  have found : (s.findIdx? (· == c)).isSome := by
    rw [List.findIdx?_isSome, List.any_eq_true]
    exact ⟨c, h, beq_self_eq_true c⟩
  obtain ⟨i, here⟩ := Option.isSome_iff_exists.mp found
  refine ⟨i, (List.findIdx?_eq_some_iff_getElem.mp here).1, fun rest => ?_⟩
  rw [find, List.findIdx?_append, here]
  rfl

theorem find_first {s : Str} (h : c ∉ s) (rest : Str) : find (s ++ c :: rest) c = some s.length := by
  have none : s.findIdx? (· == c) = none := by
    rw [List.findIdx?_eq_none_iff]
    intro d hd
    exact beq_eq_false_iff_ne.mpr fun same => h (same ▸ hd)
  rw [find, List.findIdx?_append, none, List.findIdx?_cons]
  simp

theorem extractFirstJsonValue_ok {nesting : Nat} {value : Json} : extractFirstJsonValue nesting content = .ok value ↔
    ∃ i rest, find (stripJsonFence content) Json.openBrace = some i ∧
      Json.rawDecode nesting ((stripJsonFence content).drop i) = .ok (value, rest) := by
  unfold extractFirstJsonValue
  dsimp only
  cases find (stripJsonFence content) Json.openBrace with
  | none => simp
  | some i =>
    cases decoded : Json.rawDecode nesting ((stripJsonFence content).drop i) with
    | error e => simp [Except.map, Except.mapError, decoded]
    | ok found => simp [Except.map, Except.mapError, decoded, Prod.ext_iff]

/-- The position does not start an object. -/
def NoObjectAt (nesting : Nat) (content : Str) (i : Nat) : Prop :=
  ∀ fields rest, Json.rawDecode nesting (content.drop i) ≠ .ok (.obj fields, rest)

theorem noObjectAt_of_head {nesting i : Nat} (h : (content.drop i).head? ≠ some Json.openBrace) :
    NoObjectAt nesting content i :=
  fun _ _ decoded => h (Json.rawDecode_braces decoded).1

theorem noObjectAt_plain {nesting i : Nat} (plain : Json.openBrace ∉ pre) (inside : i < pre.length) :
    NoObjectAt nesting (pre ++ rest) i := by
  refine noObjectAt_of_head ?_
  rw [List.head?_drop, List.getElem?_append_left inside]
  intro here
  exact plain (List.mem_of_getElem? here)

/-- The first object of an answer is returned exactly if no brace is opened before it. -/
theorem extractFirstJsonValue_object {nesting : Nat} {fields : List (Str × Json)}
    (decodes : Json.rawDecode nesting text = .ok (.obj fields, []))
    (first : ∀ i < pre.length, NoObjectAt nesting (pre ++ text ++ suf) i) :
    extractFirstJsonValue nesting (pre ++ text ++ suf) = .ok (.obj fields) ↔ Json.openBrace ∉ pre := by
  obtain ⟨middle, rfl⟩ : ∃ middle, text = Json.openBrace :: (middle ++ [Json.closeBrace]) := by
    obtain ⟨opened, middle, closed⟩ := Json.rawDecode_braces decodes
    exact ⟨middle, by rw [closed]; exact List.eq_cons_of_mem_head? opened⟩
  have whole (rest : Str) : pre ++ (Json.openBrace :: (middle ++ [Json.closeBrace])) ++ rest =
      pre ++ Json.openBrace :: (middle ++ Json.closeBrace :: rest) := by simp
  obtain ⟨before, after, stripped, ⟨cut, hcut⟩, ⟨more, hmore⟩, kept⟩ := stripJsonFence_between pre middle suf
  rw [whole] at first ⊢
  rw [extractFirstJsonValue_ok, stripped, ← kept]
  constructor
  · rintro ⟨i, rest, found, decoded⟩ mem
    obtain ⟨j, inside, here⟩ := find_append mem
    rw [here] at found
    cases found
    have longer := Json.rawDecode_append decoded more
    have place : (before ++ Json.openBrace :: (middle ++ Json.closeBrace :: after)).drop i ++ more =
        (pre ++ Json.openBrace :: (middle ++ Json.closeBrace :: suf)).drop (cut.length + i) := by
      rw [List.drop_append_of_le_length inside.le, ← hcut, List.append_assoc cut, ← List.drop_drop,
        List.drop_left, List.drop_append_of_le_length inside.le, ← hmore]
      simp
    rw [place] at longer
    refine first (cut.length + i) ?_ fields (rest ++ more) longer
    rw [← hcut, List.length_append]
    omega
  · intro plain
    refine ⟨before.length, after, find_first plain _, ?_⟩
    rw [List.drop_left]
    simpa using Json.rawDecode_append decodes after

theorem extractFirstJsonValue_object_fenced :
    extractFirstJsonValue 1 (lit "```json\nThe answer: " ++ lit "\x7b\x7d" ++ lit "\n```") = .ok (.obj []) ↔
      Json.openBrace ∉ lit "```json\nThe answer: " :=
  extractFirstJsonValue_object (by rfl) fun i inside => by
    rw [List.append_assoc]
    exact noObjectAt_plain (by decide) inside

/-- A brace in the commentary hides the object after it. -/
theorem extractFirstJsonValue_hidden :
    Json.rawDecode 1 (lit "\x7b\x7d") = .ok (.obj [], []) ∧
      (∀ i < (lit "\x7bid\x7d: ").length, NoObjectAt 1 (lit "\x7bid\x7d: " ++ lit "\x7b\x7d" ++ []) i) ∧
      extractFirstJsonValue 1 (lit "\x7bid\x7d: " ++ lit "\x7b\x7d" ++ []) = .error (.jsonDecodeError 1) := by
  have later : ∀ k < 5, ((lit "\x7bid\x7d: " ++ lit "\x7b\x7d" ++ []).drop (k + 1)).head? ≠
      some Json.openBrace := by decide
  refine ⟨by rfl, fun i inside => ?_, by rfl⟩
  cases i with
  | zero =>
    intro fields rest decoded
    cases decoded
  | succ i =>
    have short : i < 5 := Nat.lt_of_succ_lt_succ inside
    exact noObjectAt_of_head (later i short)

end Fences

end EdgecaseForge

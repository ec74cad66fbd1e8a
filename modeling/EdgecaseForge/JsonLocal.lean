import EdgecaseForge.ExceptCore
import EdgecaseForge.JsonRoundTrip

namespace Json

open Text Decimal

section Numbers

theorem digits_split (s : Str) : s = s.takeWhile isDigit ++ s.dropWhile isDigit ∧
    (∀ c ∈ s.takeWhile isDigit, isDigit c = true) := by
  refine ⟨List.takeWhile_append_dropWhile.symm, ?_⟩
  exact List.all_eq_true.mp List.all_takeWhile

theorem scanSign_takes (s : Str) : ∃ g, s = g ++ (scanSign s).2 ∧
    ∀ u : Str, u.head? ≠ some minus → scanSign (g ++ u) = ((scanSign s).1, u) := by
  have unsigned : ∀ u : Str, u.head? ≠ some minus → scanSign ([] ++ u) = (false, u) := by
    intro u hu
    cases u with
    | nil => rfl
    | cons c u =>
      have hc : c ≠ minus := fun h => hu (by rw [h]; rfl)
      simp [scanSign, hc]
  cases s with
  | nil => exact ⟨[], rfl, unsigned⟩
  | cons c rest =>
    by_cases hm : c = minus
    · exact ⟨[c], by simp [scanSign, hm], fun u _ => by simp [scanSign, hm]⟩
    · refine ⟨[], by simp [scanSign, hm], fun u hu => ?_⟩
      rw [unsigned u hu]
      simp [scanSign, hm]

theorem scanExpSign_takes (s : Str) : ∃ g, s = g ++ (scanExpSign s).2 ∧
    ∀ d u, isDigit d = true → scanExpSign (g ++ d :: u) = ((scanExpSign s).1, d :: u) := by
  have unsigned : ∀ d u, isDigit d = true → scanExpSign ([] ++ d :: u) = (false, d :: u) := by
    intro d u hd
    have h1 : d ≠ minus := isDigit_ne hd (by decide)
    have h2 : d ≠ plus := isDigit_ne hd (by decide)
    simp [scanExpSign, h1, h2]
  cases s with
  | nil => exact ⟨[], rfl, unsigned⟩
  | cons c rest =>
    by_cases hm : c = minus
    · exact ⟨[c], by simp [scanExpSign, hm], fun d u _ => by simp [scanExpSign, hm]⟩
    · by_cases hp : c = plus
      · have other : plus ≠ minus := by decide
        exact ⟨[c], by simp [scanExpSign, hp, other], fun d u _ => by simp [scanExpSign, hp, other]⟩
      · refine ⟨[], by simp [scanExpSign, hm, hp], fun d u hd => ?_⟩
        rw [unsigned d u hd]
        simp [scanExpSign, hm, hp]

theorem scanExp_takes (s : Str) : ∃ p, s = p ++ (scanExp s).2 ∧
    (p = [] ∨ p.head? = some 0x65 ∨ p.head? = some 0x45) ∧
    ∀ r', Ends r' → scanExp (p ++ r') = ((scanExp s).1, r') := by
  have nothing : ∀ r', Ends r' → scanExp ([] ++ r') = (none, r') := by
    intro r' hr
    cases r' with
    | nil => rfl
    | cons c rest =>
      obtain ⟨_, _, he, hE⟩ := hr c rfl
      simp [scanExp, he, hE]
  cases s with
  | nil => exact ⟨[], rfl, .inl rfl, nothing⟩
  | cons c rest =>
    by_cases h : (c = 0x65 ∨ c = 0x45) ∧ (scanExpSign rest).2.takeWhile isDigit ≠ []
    · obtain ⟨g, hg, sign⟩ := scanExpSign_takes rest
      obtain ⟨split, digits⟩ := digits_split (scanExpSign rest).2
      have value : scanExp (c :: rest) = (some ((scanExpSign rest).1,
          (scanExpSign rest).2.takeWhile isDigit), (scanExpSign rest).2.dropWhile isDigit) := by
        rw [scanExp]
        exact if_pos h
      rw [value]
      generalize (scanExpSign rest).2.takeWhile isDigit = t at h split digits
      obtain ⟨d, v, rfl⟩ := List.exists_cons_of_ne_nil h.2
      refine ⟨c :: (g ++ d :: v), ?_, .inr (h.1.imp (congrArg some) (congrArg some)), ?_⟩
      · rw [List.cons_append, List.append_assoc, ← split, ← hg]
      · intro r' hr'
        obtain ⟨take, drop⟩ := span_digits digits fun e he => (hr' e he).1
        have signed := sign d (v ++ r') (digits d List.mem_cons_self)
        rw [← List.cons_append] at signed
        rw [List.cons_append, List.append_assoc]
        simp only [scanExp, signed, take, drop]
        exact if_pos ⟨h.1, by simp⟩
    · have value : scanExp (c :: rest) = (none, c :: rest) := by
        rw [scanExp]
        exact if_neg h
      rw [value]
      exact ⟨[], rfl, .inl rfl, nothing⟩

theorem scanFrac_takes (s : Str) : ∃ p, s = p ++ (scanFrac s).2 ∧
    (p = [] ∨ p.head? = some point) ∧
    ∀ r', (∀ c, r'.head? = some c → isDigit c = false ∧ c ≠ point) →
      scanFrac (p ++ r') = ((scanFrac s).1, r') := by
  have nothing : ∀ r' : Str, (∀ c, r'.head? = some c → isDigit c = false ∧ c ≠ point) →
      scanFrac ([] ++ r') = ([], r') := by
    intro r' hr
    cases r' with
    | nil => rfl
    | cons c rest => simp [scanFrac, (hr c rfl).2]
  cases s with
  | nil => exact ⟨[], rfl, .inl rfl, nothing⟩
  | cons c rest =>
    by_cases h : c = point ∧ rest.takeWhile isDigit ≠ []
    · obtain ⟨split, digits⟩ := digits_split rest
      have value : scanFrac (c :: rest) = (rest.takeWhile isDigit, rest.dropWhile isDigit) := by
        rw [scanFrac]
        exact if_pos h
      rw [value]
      generalize rest.takeWhile isDigit = t at h split digits
      refine ⟨c :: t, ?_, .inr (congrArg some h.1), ?_⟩
      · rw [List.cons_append, ← split]
      · intro r' hr'
        obtain ⟨take, drop⟩ := span_digits digits fun e he => (hr' e he).1
        rw [List.cons_append]
        simp only [scanFrac, take, drop]
        exact if_pos h
    · have value : scanFrac (c :: rest) = ([], c :: rest) := by
        rw [scanFrac]
        exact if_neg h
      rw [value]
      exact ⟨[], rfl, .inl rfl, nothing⟩

theorem scanWhole_takes {s w r : Str} (h : scanWhole s = some (w, r)) : ∃ p, s = p ++ r ∧
    (∃ c, p.head? = some c ∧ isDigit c = true) ∧
    ∀ r', (∀ c, r'.head? = some c → isDigit c = false) → scanWhole (p ++ r') = some (w, r') := by
  cases s with
  | nil => simp [scanWhole] at h
  | cons c rest =>
    dsimp only [scanWhole] at h
    split at h
    next hz =>
      cases Option.some.inj h
      exact ⟨[c], rfl, ⟨c, rfl, by rw [hz]; decide⟩, fun r' _ => by simp [scanWhole, hz]⟩
    next hz =>
      split at h
      next hd =>
        cases Option.some.inj h
        obtain ⟨split, digits⟩ := digits_split rest
        generalize rest.takeWhile isDigit = t at split digits ⊢
        refine ⟨c :: t, congrArg (c :: ·) split, ⟨c, rfl, hd⟩, ?_⟩
        intro r' hr'
        obtain ⟨take, drop⟩ := span_digits digits hr'
        simp [scanWhole, hz, hd, take, drop]
      next => cases h

theorem scanLiteral_eq (s : Str) : scanLiteral s = (scanWhole (scanSign s).2).map fun w =>
    (⟨(scanSign s).1, w.1, (scanFrac w.2).1, (scanExp (scanFrac w.2).2).1⟩,
      (scanExp (scanFrac w.2).2).2) := by
  rw [scanLiteral]
  rcases scanSign s with ⟨neg, unsigned⟩
  dsimp only
  cases scanWhole unsigned <;> rfl

/-- A scanned number is scanned the same in front of anything that ends it. -/
theorem scanLiteral_takes {s r : Str} {l : Literal} (h : scanLiteral s = some (l, r)) :
    ∃ p, s = p ++ r ∧ p ≠ [] ∧ ∀ r', Ends r' → scanLiteral (p ++ r') = some (l, r') := by
  rw [scanLiteral_eq] at h
  obtain ⟨⟨w, r1⟩, hw, h⟩ := Option.map_eq_some_iff.mp h
  obtain ⟨rfl, rfl⟩ := Prod.mk.inj h
  obtain ⟨g, hg, sign⟩ := scanSign_takes s
  obtain ⟨p1, h1, ⟨d, hd, digit⟩, whole⟩ := scanWhole_takes hw
  obtain ⟨p2, h2, head2, frac⟩ := scanFrac_takes r1
  obtain ⟨p3, h3, head3, exp⟩ := scanExp_takes (scanFrac r1).2
  refine ⟨g ++ (p1 ++ (p2 ++ p3)), ?_, ?_, ?_⟩
  · rw [List.append_assoc, List.append_assoc, List.append_assoc, ← h3, ← h2, ← h1, ← hg]
  · intro he
    rw [(List.append_eq_nil_iff.mp (List.append_eq_nil_iff.mp he).2).1] at hd
    cases hd
  · intro r' hr'
    have after3 : ∀ c, (p3 ++ r').head? = some c → isDigit c = false ∧ c ≠ point := by
      intro c hc
      cases p3 with
      | nil => exact ⟨(hr' c hc).1, (hr' c hc).2.1⟩
      | cons e p3 =>
        cases Option.some.inj hc
        rcases head3 with hn | he | he
        · cases hn
        · cases Option.some.inj he
          decide
        · cases Option.some.inj he
          decide
    have after2 : ∀ c, (p2 ++ (p3 ++ r')).head? = some c → isDigit c = false := by
      intro c hc
      cases p2 with
      | nil => exact (after3 c hc).1
      | cons e p2 =>
        cases Option.some.inj hc
        rcases head2 with hn | he
        · cases hn
        · cases Option.some.inj he
          decide
    have after1 : (p1 ++ (p2 ++ (p3 ++ r'))).head? ≠ some minus := by
      intro hm
      cases p1 with
      | nil => cases hd
      | cons e p1 =>
        cases Option.some.inj hd
        cases Option.some.inj hm
        exact absurd digit (by decide)
    simp only [scanLiteral_eq, List.append_assoc, sign _ after1, whole _ after2, Option.map_some,
      frac _ after3, exp r' hr']

theorem numberLike_of_scanLiteral {s r : Str} {l : Literal} (h : scanLiteral s = some (l, r)) :
    numberLike s = true := by
  rw [scanLiteral_eq] at h
  obtain ⟨⟨w, r1⟩, hw, _⟩ := Option.map_eq_some_iff.mp h
  obtain ⟨p, hp, ⟨d, hd, digit⟩, _⟩ := scanWhole_takes hw
  obtain ⟨q, rfl⟩ : ∃ q, p = d :: q := by
    cases p with
    | nil => cases hd
    | cons e q => exact ⟨q, by cases Option.some.inj hd; rfl⟩
  cases s with
  | nil => simp [scanSign] at hp
  | cons c rest =>
    by_cases hm : c = minus
    · have : rest = d :: (q ++ r1) := by simpa [scanSign, hm] using hp
      simp [this, numberLike, hm, digit]
    · have : c :: rest = d :: (q ++ r1) := by simpa [scanSign, hm] using hp
      rw [this]
      cases q ++ r1 <;> simp [numberLike, digit]

end Numbers

section Strings

theorem consPiece_ok {u : Piece} {x : Except Failure (List Piece × Str)} {ps : List Piece}
    {r : Str} (h : consPiece u x = .ok (ps, r)) : ∃ qs, x = .ok (qs, r) ∧ ps = u :: qs := by
  cases x with
  | error e => cases h
  | ok v =>
    obtain ⟨qs, t⟩ := v
    cases h
    exact ⟨qs, rfl, rfl⟩

/-- A scanned string ends at its closing quote, whatever comes after. -/
theorem scanPieces_takes {start s r : Str} {ps : List Piece}
    (h : scanPieces start s = .ok (ps, r)) : ∃ p, s = p ++ r ∧ p ≠ [] ∧
      ∀ start' r', scanPieces start' (p ++ r') = .ok (ps, r') := by
  induction hn : s.length using Nat.strong_induction_on generalizing s ps with
  | _ n ih =>
    have step : ∀ {t u : Str} {piece : Piece}, s = t ++ u → t ≠ [] →
        consPiece piece (scanPieces start u) = .ok (ps, r) →
        (∀ start' r', r' ≠ [] →
          scanPieces start' (t ++ r') = consPiece piece (scanPieces start' r')) →
        ∃ p, s = p ++ r ∧ p ≠ [] ∧ ∀ start' r', scanPieces start' (p ++ r') = .ok (ps, r') := by
      intro t u piece hs ht hu again
      obtain ⟨qs, hq, rfl⟩ := consPiece_ok hu
      have shorter : u.length < n := by
        have := List.length_pos_of_ne_nil ht
        rw [← hn, hs, List.length_append]
        omega
      obtain ⟨p, hp, hne, same⟩ := ih u.length shorter hq rfl
      refine ⟨t ++ p, by rw [hs, hp, List.append_assoc], by simp [ht], fun start' r' => ?_⟩
      rw [List.append_assoc, again start' (p ++ r') (by simp [hne]), same]
      rfl
    cases s with
    | nil =>
      rw [scanPieces.eq_def] at h
      cases h
    | cons c rest =>
      rw [scanPieces.eq_def] at h
      dsimp only at h
      split at h
      next hq =>
        cases h
        refine ⟨[c], rfl, by simp, fun start' r' => ?_⟩
        rw [hq]
        exact scanPieces_close start' r'
      next hq =>
        split at h
        next hb =>
          cases rest with
          | nil => cases h
          | cons e body =>
            dsimp only at h
            split at h
            next he =>
              rcases body with _ | ⟨x, _ | ⟨y, _ | ⟨z, _ | ⟨w, more⟩⟩⟩⟩
              case nil => cases h
              case cons.nil => cases h
              case cons.cons.nil => cases h
              case cons.cons.cons.nil => cases h
              dsimp only at h
              split at h
              next u hu =>
                split at h
                next => cases h
                next hm =>
                  refine step (t := [c, e, x, y, z, w]) rfl (by simp) h fun start' r' hr => ?_
                  rw [hb, he, scanPieces.eq_def]
                  simp [hu, hr, show backslash ≠ quoteMark by decide]
              next => cases h
            next he =>
              split at h
              next u hu =>
                refine step (t := [c, e]) rfl (by simp) h fun start' r' _ => ?_
                rw [hb]
                exact scanPieces_short start' r' he hu
              next => cases h
        next hb =>
          split at h
          next => cases h
          next hc =>
            exact step (t := [c]) rfl (by simp) h fun start' r' _ =>
              scanPieces_plain start' r' hq hb hc

theorem scanString_takes {s r text : Str} (hs : s.head? = some quoteMark)
    (h : scanString s = .ok (text, r)) : ∃ p, s = p ++ r ∧ p.head? = some quoteMark ∧
      ∀ r', scanString (p ++ r') = .ok (text, r') := by
  cases s with
  | nil => cases hs
  | cons c rest =>
    unfold scanString at h
    cases hp : scanPieces (c :: rest) rest with
    | error e =>
      rw [List.tail_cons, hp] at h
      cases h
    | ok v =>
      obtain ⟨ps, t⟩ := v
      rw [List.tail_cons, hp] at h
      cases h
      obtain ⟨p, rfl, _, same⟩ := scanPieces_takes hp
      refine ⟨c :: p, rfl, hs, fun r' => ?_⟩
      rw [scanString, List.cons_append, List.tail_cons, same]
      rfl

end Strings

/-- The ways in which a value is read. -/
inductive Reads (fuel : Nat) : Nat → Str → Json → Str → Prop
  | string {depth s text r} : s.head? = some quoteMark → scanString s = .ok (text, r) →
      Reads fuel depth s (.str text) r
  | noFields {depth s r} : skipSpace s = closeBrace :: r →
      Reads fuel (depth + 1) (openBrace :: s) (.obj []) r
  | fields {depth s pairs r} : (skipSpace s).head? ≠ some closeBrace →
      scanFields fuel depth (skipSpace s) = .ok (pairs, r) →
      Reads fuel (depth + 1) (openBrace :: s) (ofPairs pairs) r
  | noItems {depth s r} : skipSpace s = closeBracket :: r →
      Reads fuel (depth + 1) (openBracket :: s) (.list []) r
  | items {depth s items r} : (skipSpace s).head? ≠ some closeBracket →
      scanItems fuel depth (skipSpace s) = .ok (items, r) →
      Reads fuel (depth + 1) (openBracket :: s) (.list items) r
  | atom {depth s j r} : s.head? ≠ some quoteMark → s.head? ≠ some openBrace →
      s.head? ≠ some openBracket → scanAtom s = .ok (j, r) → Reads fuel depth s j r

section Cases

variable {fuel depth : Nat} {s r : Str}

theorem expect_eq_ok {c : CodePoint} : expect c s = .ok r ↔ s = c :: r := by
  unfold expect
  split
  next h =>
    have hs := List.eq_cons_of_mem_head? h
    refine ⟨fun he => ?_, fun he => ?_⟩
    · cases he
      exact hs
    · rw [he]
      rfl
  next h =>
    refine ⟨fun he => (by cases he), fun he => ?_⟩
    rw [he] at h
    exact absurd rfl h

/-- How an item, and with it a list, is read. -/
theorem scanItems_cases {items : List Json} (h : scanItems (fuel + 1) depth s = .ok (items, r)) :
    ∃ x t, scanValue fuel depth s = .ok (x, t) ∧
      (skipSpace t = closeBracket :: r ∧ items = [x] ∨
        ∃ u xs, skipSpace t = comma :: u ∧ scanItems fuel depth (skipSpace u) = .ok (xs, r) ∧
          items = x :: xs) := by
  rw [scanItems] at h
  obtain ⟨⟨x, t⟩, hv, h⟩ := Except.bind_eq_ok.mp h
  refine ⟨x, t, hv, ?_⟩
  dsimp only at h
  split at h
  next hc =>
    cases h
    exact .inl ⟨List.eq_cons_of_mem_head? hc, rfl⟩
  next =>
    obtain ⟨u, hu, h⟩ := Except.bind_eq_ok.mp h
    obtain ⟨⟨xs, r'⟩, hm, h⟩ := Except.bind_eq_ok.mp h
    cases h
    exact .inr ⟨u, xs, expect_eq_ok.mp hu, hm, rfl⟩

theorem scanFields_cases {fields : List (Str × Json)}
    (h : scanFields (fuel + 1) depth s = .ok (fields, r)) :
    ∃ key v w x t, s.head? = some quoteMark ∧ scanString s = .ok (key, v) ∧
      skipSpace v = colon :: w ∧ scanValue fuel depth (skipSpace w) = .ok (x, t) ∧
      (skipSpace t = closeBrace :: r ∧ fields = [(key, x)] ∨
        ∃ u xs, skipSpace t = comma :: u ∧ scanFields fuel depth (skipSpace u) = .ok (xs, r) ∧
          fields = (key, x) :: xs) := by
  rw [scanFields] at h
  obtain ⟨⟨key, v⟩, hk, h⟩ := Except.bind_eq_ok.mp h
  have hs : s.head? = some quoteMark := by
    by_contra hs
    rw [scanKey, if_neg hs] at hk
    cases hk
  rw [scanKey, if_pos hs] at hk
  obtain ⟨w, hw, h⟩ := Except.bind_eq_ok.mp h
  obtain ⟨⟨x, t⟩, hv, h⟩ := Except.bind_eq_ok.mp h
  refine ⟨key, v, w, x, t, hs, hk, expect_eq_ok.mp hw, hv, ?_⟩
  dsimp only at h
  split at h
  next hc =>
    cases h
    exact .inl ⟨List.eq_cons_of_mem_head? hc, rfl⟩
  next =>
    obtain ⟨u, hu, h⟩ := Except.bind_eq_ok.mp h
    obtain ⟨⟨xs, r'⟩, hm, h⟩ := Except.bind_eq_ok.mp h
    cases h
    exact .inr ⟨u, xs, expect_eq_ok.mp hu, hm, rfl⟩

theorem scanValue_cases {j : Json} (h : scanValue (fuel + 1) depth s = .ok (j, r)) :
    Reads fuel depth s j r := by
  rw [scanValue.eq_def] at h
  dsimp only at h
  split at h
  next hq =>
    obtain ⟨⟨text, t⟩, hs, h⟩ := Except.bind_eq_ok.mp h
    cases h
    exact .string hq hs
  next hq =>
    split at h
    next hb =>
      obtain ⟨t, rfl⟩ : ∃ t, s = openBrace :: t := ⟨_, List.eq_cons_of_mem_head? hb⟩
      cases depth with
      | zero => cases h
      | succ depth =>
        dsimp only at h
        by_cases hc : (skipSpace (openBrace :: t).tail).head? = some closeBrace
        · rw [if_pos hc] at h
          cases h
          exact .noFields (List.eq_cons_of_mem_head? hc)
        · rw [if_neg hc] at h
          obtain ⟨⟨pairs, t'⟩, hf, h⟩ := Except.bind_eq_ok.mp h
          cases h
          exact .fields hc hf
    next hb =>
      split at h
      next hl =>
        obtain ⟨t, rfl⟩ : ∃ t, s = openBracket :: t := ⟨_, List.eq_cons_of_mem_head? hl⟩
        cases depth with
        | zero => cases h
        | succ depth =>
          dsimp only at h
          by_cases hc : (skipSpace (openBracket :: t).tail).head? = some closeBracket
          · rw [if_pos hc] at h
            cases h
            exact .noItems (List.eq_cons_of_mem_head? hc)
          · rw [if_neg hc] at h
            obtain ⟨⟨items, t'⟩, hf, h⟩ := Except.bind_eq_ok.mp h
            cases h
            exact .items hc hf
      next hl => exact .atom hq hb hl h

theorem scanValue_of_reads {j : Json} (h : Reads fuel depth s j r) :
    scanValue (fuel + 1) depth s = .ok (j, r) := by
  cases h with
  | string hq hs => exact scanValue_quote fuel depth hq hs
  | noFields hc =>
    rw [scanValue.eq_def]
    simp only [List.head?_cons, List.tail_cons, hc]
    rfl
  | fields hc hf => exact scanValue_brace hc hf
  | noItems hc =>
    rw [scanValue.eq_def]
    simp only [List.head?_cons, List.tail_cons, hc]
    rfl
  | items hc hf => exact scanValue_bracket hc hf
  | atom hq hb hl ha =>
    rw [scanValue.eq_def]
    simp only [if_neg hq, if_neg hb, if_neg hl, ha]

end Cases

section Fuel

/-- More fuel and more depth change nothing about what is read. -/
theorem scan_mono {fuel more depth deeper : Nat} (hf : fuel ≤ more) (hd : depth ≤ deeper) :
    (∀ s j r, scanValue fuel depth s = .ok (j, r) → scanValue more deeper s = .ok (j, r)) ∧
    (∀ s xs r, scanItems fuel depth s = .ok (xs, r) → scanItems more deeper s = .ok (xs, r)) ∧
    (∀ s xs r, scanFields fuel depth s = .ok (xs, r) →
      scanFields more deeper s = .ok (xs, r)) := by
  induction fuel generalizing more depth deeper with
  | zero =>
    refine ⟨fun s j r h => ?_, fun s xs r h => ?_, fun s xs r h => ?_⟩
    · rw [scanValue] at h
      cases h
    · rw [scanItems] at h
      cases h
    · rw [scanFields] at h
      cases h
  | succ fuel ih =>
    obtain ⟨more, rfl⟩ : ∃ n, more = n + 1 := ⟨more - 1, by omega⟩
    have same := ih (by omega : fuel ≤ more) hd
    refine ⟨fun s j r h => ?_, fun s xs r h => ?_, fun s xs r h => ?_⟩
    · apply scanValue_of_reads
      cases scanValue_cases h with
      | string hq hs => exact .string hq hs
      | noFields hc =>
        obtain ⟨deeper, rfl⟩ : ∃ n, deeper = n + 1 := ⟨deeper - 1, by omega⟩
        exact .noFields hc
      | fields hc hs =>
        obtain ⟨deeper, rfl⟩ : ∃ n, deeper = n + 1 := ⟨deeper - 1, by omega⟩
        have inner := ih (by omega : fuel ≤ more) (Nat.le_of_succ_le_succ hd)
        exact .fields hc (inner.2.2 _ _ _ hs)
      | noItems hc =>
        obtain ⟨deeper, rfl⟩ : ∃ n, deeper = n + 1 := ⟨deeper - 1, by omega⟩
        exact .noItems hc
      | items hc hs =>
        obtain ⟨deeper, rfl⟩ : ∃ n, deeper = n + 1 := ⟨deeper - 1, by omega⟩
        have inner := ih (by omega : fuel ≤ more) (Nat.le_of_succ_le_succ hd)
        exact .items hc (inner.2.1 _ _ _ hs)
      | atom hq hb hl ha => exact .atom hq hb hl ha
    · obtain ⟨x, t, hx, ⟨ht, rfl⟩ | ⟨u, xs, ht, hm, rfl⟩⟩ := scanItems_cases h
      · exact scanItems_last (same.1 _ _ _ hx) ht
      · exact scanItems_more (same.1 _ _ _ hx) ht (same.2.1 _ _ _ hm)
    · obtain ⟨key, v, w, x, t, hs, hk, hv, hx, ⟨ht, rfl⟩ | ⟨u, xs, ht, hm, rfl⟩⟩ :=
        scanFields_cases h
      · exact scanFields_last hs hk hv (same.1 _ _ _ hx) ht
      · exact scanFields_more hs hk hv (same.1 _ _ _ hx) ht (same.2.2 _ _ _ hm)

end Fuel

section Takes

def isNumber : Json → Bool
  | .int _ => true
  | .float _ => true
  | _ => false

theorem skipSpace_split (s : Str) : ∃ b, s = b ++ skipSpace s ∧ ∀ c ∈ b, isJsonSpace c = true :=
  ⟨s.takeWhile isJsonSpace, List.takeWhile_append_dropWhile.symm,
    List.all_eq_true.mp List.all_takeWhile⟩

/-- Blank space in front of a delimiter is skipped the same whatever follows the delimiter. -/
theorem skipSpace_delimiter {t u : Str} {c : CodePoint} (h : skipSpace t = c :: u)
    (hc : isJsonSpace c = false)
    (he : isDigit c = false ∧ c ≠ point ∧ c ≠ 0x65 ∧ c ≠ 0x45) :
    ∃ b, t = b ++ c :: u ∧
      ∀ u', skipSpace (b ++ c :: u') = c :: u' ∧ Ends (b ++ c :: u') := by
  obtain ⟨b, hb, blank⟩ := skipSpace_split t
  refine ⟨b, by rw [← h]; exact hb, fun u' => ⟨?_, ends_append blank (ends_cons he u')⟩⟩
  rw [skipSpace_append blank, skipSpace_cons hc]

theorem skipSpace_again {u p r : Str} (h : skipSpace u = p ++ r) (hp : p ≠ []) :
    ∃ b, u = b ++ (p ++ r) ∧ ∀ r', skipSpace (b ++ (p ++ r')) = p ++ r' := by
  obtain ⟨b, hb, blank⟩ := skipSpace_split u
  obtain ⟨c, q, rfl⟩ := List.exists_cons_of_ne_nil hp
  have solid : isJsonSpace c = false := by
    have := List.head?_dropWhile_not isJsonSpace u
    rw [show u.dropWhile isJsonSpace = c :: (q ++ r) from h] at this
    simpa using this
  refine ⟨b, by rw [← h]; exact hb, fun r' => ?_⟩
  rw [skipSpace_append blank, List.cons_append, skipSpace_cons solid]

theorem head?_append {p : Str} (hp : p ≠ []) (r : Str) : (p ++ r).head? = p.head? := by
  obtain ⟨c, q, rfl⟩ := List.exists_cons_of_ne_nil hp
  rfl

theorem scanAtom_takes {s r : Str} {j : Json} (h : scanAtom s = .ok (j, r)) :
    ∃ p, s = p ++ r ∧ p ≠ [] ∧
      ∀ r', (isNumber j = true → Ends r') → scanAtom (p ++ r') = .ok (j, r') := by
  unfold scanAtom at h
  split at h
  next name value hc =>
    cases h
    have member := List.mem_of_find?_eq_some hc
    have first := List.find?_some hc
    dsimp only [startsWith] at first
    obtain ⟨rest, rfl⟩ := List.isPrefixOf_iff_prefix.mp first
    have again : ∀ r', scanAtom (name ++ r') = .ok (j, r') := by
      intro r'
      simp only [constants, List.mem_cons, List.not_mem_nil, or_false, Prod.mk.injEq] at member
      rcases member with ⟨rfl, rfl⟩ | ⟨rfl, rfl⟩ | ⟨rfl, rfl⟩ | ⟨rfl, rfl⟩ | ⟨rfl, rfl⟩ | ⟨rfl, rfl⟩
      all_goals exact scanAtom_constant r' rfl
    have some : name ≠ [] := by
      rintro rfl
      simp [constants, lit_eq] at member
    refine ⟨name, by simp, some, fun r' _ => again r'⟩
  next =>
    unfold scanNumber at h
    split at h
    next => cases h
    next l rest hl =>
      obtain ⟨p, rfl, hp, again⟩ := scanLiteral_takes hl
      have same : ∀ r', Ends r' → scanAtom (p ++ r') = scanNumber (p ++ r') := fun r' hr =>
        scanAtom_number (numberLike_of_scanLiteral (again r' hr))
      split at h
      next hi =>
        split at h
        next hd =>
          cases h
          refine ⟨p, rfl, hp, fun r' hr => ?_⟩
          rw [same r' (hr rfl), scanNumber, again r' (hr rfl)]
          dsimp only
          rw [if_pos hi, if_pos hd]
        next => cases h
      next hi =>
        cases h
        refine ⟨p, rfl, hp, fun r' hr => ?_⟩
        rw [same r' (hr rfl), scanNumber, again r' (hr rfl)]
        dsimp only
        rw [if_neg hi]

/-- What is read is read the same in front of any other text, save that a number has to end. -/
theorem scan_takes (fuel depth : Nat) :
    (∀ s j r, scanValue fuel depth s = .ok (j, r) → ∃ p, s = p ++ r ∧ p ≠ [] ∧
      ∀ r', (isNumber j = true → Ends r') → scanValue fuel depth (p ++ r') = .ok (j, r')) ∧
    (∀ s xs r, scanItems fuel depth s = .ok (xs, r) → ∃ p, s = p ++ r ∧ p ≠ [] ∧
      ∀ r', scanItems fuel depth (p ++ r') = .ok (xs, r')) ∧
    (∀ s xs r, scanFields fuel depth s = .ok (xs, r) → ∃ p, s = p ++ r ∧ p ≠ [] ∧
      ∀ r', scanFields fuel depth (p ++ r') = .ok (xs, r')) := by
  induction fuel generalizing depth with
  | zero =>
    refine ⟨fun s j r h => ?_, fun s xs r h => ?_, fun s xs r h => ?_⟩
    · rw [scanValue] at h
      cases h
    · rw [scanItems] at h
      cases h
    · rw [scanFields] at h
      cases h
  | succ fuel ih =>
    refine ⟨fun s j r h => ?_, fun s xs r h => ?_, fun s xs r h => ?_⟩
    · cases scanValue_cases h with
      | string hq hs =>
        obtain ⟨p, rfl, hp, again⟩ := scanString_takes hq hs
        have hne : p ≠ [] := by
          rintro rfl
          cases hp
        refine ⟨p, rfl, hne, fun r' _ => scanValue_quote fuel depth ?_ (again r')⟩
        rw [head?_append hne, hp]
      | @noFields depth s r hc =>
        obtain ⟨b, rfl, skip⟩ := skipSpace_delimiter hc (by decide) (by decide)
        refine ⟨openBrace :: (b ++ [closeBrace]), by simp, by simp, fun r' _ => ?_⟩
        rw [List.cons_append, List.append_assoc]
        exact scanValue_of_reads (.noFields (skip r').1)
      | @fields depth s pairs r hc hs =>
        obtain ⟨p, hp, hne, again⟩ := (ih depth).2.2 _ _ _ hs
        obtain ⟨b, rfl, skip⟩ := skipSpace_again hp hne
        refine ⟨openBrace :: (b ++ p), by simp, by simp, fun r' _ => ?_⟩
        rw [List.cons_append, List.append_assoc]
        apply scanValue_of_reads
        refine .fields ?_ ?_
        · rw [skip, head?_append hne, ← head?_append hne r, ← hp]
          exact hc
        · rw [skip]
          exact again r'
      | @noItems depth s r hc =>
        obtain ⟨b, rfl, skip⟩ := skipSpace_delimiter hc (by decide) (by decide)
        refine ⟨openBracket :: (b ++ [closeBracket]), by simp, by simp, fun r' _ => ?_⟩
        rw [List.cons_append, List.append_assoc]
        exact scanValue_of_reads (.noItems (skip r').1)
      | @items depth s items r hc hs =>
        obtain ⟨p, hp, hne, again⟩ := (ih depth).2.1 _ _ _ hs
        obtain ⟨b, rfl, skip⟩ := skipSpace_again hp hne
        refine ⟨openBracket :: (b ++ p), by simp, by simp, fun r' _ => ?_⟩
        rw [List.cons_append, List.append_assoc]
        apply scanValue_of_reads
        refine .items ?_ ?_
        · rw [skip, head?_append hne, ← head?_append hne r, ← hp]
          exact hc
        · rw [skip]
          exact again r'
      | atom hq hb hl ha =>
        obtain ⟨p, rfl, hne, again⟩ := scanAtom_takes ha
        rw [head?_append hne] at hq hb hl
        refine ⟨p, rfl, hne, fun r' hr => scanValue_of_reads (.atom ?_ ?_ ?_ (again r' hr))⟩
        all_goals rw [head?_append hne]
        · exact hq
        · exact hb
        · exact hl
    · obtain ⟨x, t, hx, ht⟩ := scanItems_cases h
      obtain ⟨p, rfl, hne, again⟩ := (ih depth).1 _ _ _ hx
      rcases ht with ⟨ht, rfl⟩ | ⟨u, xs, ht, hm, rfl⟩
      · obtain ⟨b, rfl, skip⟩ := skipSpace_delimiter ht (by decide) (by decide)
        refine ⟨p ++ (b ++ [closeBracket]), by simp, by simp [hne], fun r' => ?_⟩
        rw [List.append_assoc, List.append_assoc, List.singleton_append]
        exact scanItems_last (again _ fun _ => (skip r').2) (skip r').1
      · obtain ⟨b, rfl, skip⟩ := skipSpace_delimiter ht (by decide) (by decide)
        obtain ⟨q, hq, hqne, more⟩ := (ih depth).2.1 _ _ _ hm
        obtain ⟨b', rfl, skip'⟩ := skipSpace_again hq hqne
        refine ⟨p ++ (b ++ comma :: (b' ++ q)), by simp, by simp [hne], fun r' => ?_⟩
        rw [List.append_assoc, List.append_assoc, List.cons_append, List.append_assoc]
        apply scanItems_more (again _ fun _ => (skip _).2) (skip _).1
        rw [skip']
        exact more r'
    · obtain ⟨key, v, w, x, t, hs, hk, hv, hx, ht⟩ := scanFields_cases h
      obtain ⟨k, rfl, hkq, keyAgain⟩ := scanString_takes hs hk
      have hkne : k ≠ [] := by
        rintro rfl
        cases hkq
      obtain ⟨bk, rfl, colonSkip⟩ := skipSpace_delimiter hv (by decide) (by decide)
      obtain ⟨p, hp, hne, again⟩ := (ih depth).1 _ _ _ hx
      obtain ⟨bw, rfl, valueSkip⟩ := skipSpace_again hp hne
      have quoted : ∀ z : Str, (k ++ z).head? = some quoteMark := fun z => by
        rw [head?_append hkne, hkq]
      rcases ht with ⟨ht, rfl⟩ | ⟨u, xs, ht, hm, rfl⟩
      · obtain ⟨b, rfl, skip⟩ := skipSpace_delimiter ht (by decide) (by decide)
        refine ⟨k ++ (bk ++ colon :: (bw ++ (p ++ (b ++ [closeBrace])))), by simp, by simp [hkne],
          fun r' => ?_⟩
        simp only [List.append_assoc, List.cons_append, List.nil_append]
        refine scanFields_last (quoted _) (keyAgain _) (colonSkip _).1 ?_ (skip r').1
        rw [valueSkip]
        exact again _ fun _ => (skip r').2
      · obtain ⟨b, rfl, skip⟩ := skipSpace_delimiter ht (by decide) (by decide)
        obtain ⟨q, hq, hqne, more⟩ := (ih depth).2.2 _ _ _ hm
        obtain ⟨b', rfl, skip'⟩ := skipSpace_again hq hqne
        refine ⟨k ++ (bk ++ colon :: (bw ++ (p ++ (b ++ comma :: (b' ++ q))))), by simp,
          by simp [hkne], fun r' => ?_⟩
        simp only [List.append_assoc, List.cons_append]
        refine scanFields_more (u := b' ++ (q ++ r')) (quoted _) (keyAgain _) (colonSkip _).1 ?_
          (skip _).1 ?_
        · rw [valueSkip]
          exact again _ fun _ => (skip _).2
        · rw [skip']
          exact more r'

end Takes

section Whole

theorem ofPairs_isNumber (pairs : List (Str × Json)) : isNumber (ofPairs pairs) = false := rfl

/-- A text that was cut short inside an object does not decode. -/
theorem loads_cut {L : Layout} (hL : L.Readable) {fields : List (Str × Json)} {p q : Str}
    (hd : (Json.obj fields).distinct = true) (hp : (Json.obj fields).printable = true)
    (he : encode L 0 (.obj fields) = p ++ q) (hpne : p ≠ []) (hq : q ≠ []) (v : Json) :
    loads p ≠ .ok v := by
  intro h
  have brace : (encode L 0 (.obj fields)).head? = some openBrace := by
    cases fields <;> rfl
  rw [he, head?_append hpne] at brace
  obtain ⟨p', rfl⟩ : ∃ p', p = openBrace :: p' := ⟨_, List.eq_cons_of_mem_head? brace⟩
  have mark : (openBrace :: p').head? ≠ some byteOrderMark := by
    rw [List.head?_cons]
    decide
  rw [loads, loadsWithin, if_neg mark, skipSpace_cons (by decide)] at h
  obtain ⟨⟨v', r⟩, hv, _⟩ := Except.bind_eq_ok.mp h
  rw [rawDecode] at hv
  have notNumber : isNumber v' = false := by
    cases scanValue_cases hv with
    | string hq => cases hq
    | noFields => rfl
    | fields => rfl
    | atom _ hb => exact absurd rfl hb
  obtain ⟨t, ht, _, again⟩ := (scan_takes _ _).1 _ _ _ hv
  have left := again (r ++ q) (by simp [notNumber])
  rw [← List.append_assoc, ← ht, ← he] at left
  have right := scanValue_encode hL (.obj fields) (2 * (encode L 0 (.obj fields)).length + 1)
    (encode L 0 (.obj fields)).length 0 [] hd hp (by omega) (by omega) ends_nil
  rw [List.append_nil] at right
  have length : (openBrace :: p').length ≤ (encode L 0 (.obj fields)).length := by
    rw [he, List.length_append]
    omega
  have fuel : 2 * (openBrace :: p').length + 1 ≤ 2 * (encode L 0 (.obj fields)).length + 1 := by
    omega
  have depth : (openBrace :: p').length + 1 ≤ (encode L 0 (.obj fields)).length + 1 := by omega
  have mono := (scan_mono fuel depth).1 _ _ _ left
  have mono' := (scan_mono (Nat.le_refl (2 * (encode L 0 (.obj fields)).length + 1))
    (Nat.le_succ (encode L 0 (.obj fields)).length)).1 _ _ _ right
  rw [mono] at mono'
  have rest : r ++ q = [] := (Prod.mk.inj (Except.ok.inj mono')).2
  exact hq (List.append_eq_nil_iff.mp rest).2

end Whole

end Json

import EdgecaseForge.AttemptErrors

namespace EdgecaseForge

open Text Effect

/-- A usage tells a number of tokens, or leaves it out. -/
def Counts (i : Interpreter) (usage : Json) (key : String) : Prop :=
  ∃ count tokens, dictGet usage key (.int 0) = .ok count ∧ pyInt i.digits count = .ok tokens

/-- The content of a response, in the choice it stands in. -/
def Response.Delivers (r : Response) (choice content : Json) : Prop :=
  ∃ payload, r.json = .ok payload ∧ messageContent payload = .ok (choice, content)

/-- The provider says that it stopped before the end. -/
def CutOff (choice : Json) : Prop :=
  ∃ reason, dictGet choice "finish_reason" .null = .ok reason ∧ reason ≠ .null ∧
    isTruncatedFinishReason (some (Json.pyStr reason)) = true

theorem Response.Delivers.unique {r : Response} {choice content choice' content' : Json}
    (h : r.Delivers choice content) (h' : r.Delivers choice' content') :
    choice = choice' ∧ content = content' := by
  obtain ⟨payload, hp, hm⟩ := h
  obtain ⟨payload', hp', hm'⟩ := h'
  cases Except.ok.inj (hp.symm.trans hp')
  cases Except.ok.inj (hm.symm.trans hm')
  exact ⟨rfl, rfl⟩

namespace Provider

section Reading

variable {p : Provider} {i : Interpreter} {elapsed : Seconds} {attempts : Nat} {r : Response}

end Reading

section Checking

variable {α β : Type} {p : Provider} {i : Interpreter} {model : ResponseModel α} {result : LLMResult}
  {choice content : Json}

/-- The scan of a text stops neither for its depth nor for its digits. -/
def Scans (p : Provider) (i : Interpreter) (s : Str) : Prop :=
  if p.structuredOutput = .jsonSchema then
    ∀ failure, Json.loadsWithin i.nesting s = .error failure → ∃ rest, failure = .malformed rest
  else
    ∀ at_ failure, find (stripJsonFence s) Json.openBrace = some at_ →
      Json.rawDecode i.nesting ((stripJsonFence s).drop at_) = .error failure →
      ∃ rest, failure = .malformed rest

/-- A content is a text that can be scanned. -/
def Understood (p : Provider) (i : Interpreter) (content : Json) : Prop :=
  ∃ s, content = .str s ∧ p.Scans i s

/-- A content has a payload that the response model takes for this value. -/
def Accepts (p : Provider) (i : Interpreter) (model : ResponseModel α) (content : Json) (parsed : α) :
    Prop :=
  ∃ payload, p.loadContent i content = .ok payload ∧ model.validate payload = .ok parsed

/-- An answer is complete and its content accepted. -/
def Valid (p : Provider) (i : Interpreter) (model : ResponseModel α) (choice content : Json) : Prop :=
  ¬ CutOff choice ∧ ∃ parsed, p.Accepts i model content parsed

/-- An answer can be told valid or not. -/
def Judgeable (p : Provider) (i : Interpreter) (choice content : Json) : Prop :=
  CutOff choice ∨ p.Understood i content

/-- How a payload is loaded where a condition says whether it is decoded or refused. -/
inductive Loaded (understood : Prop) : Except PyError β → Prop
  | loaded (payload : β) (h : understood) : Loaded understood (.ok payload)
  | refused (position : Nat) (h : understood) : Loaded understood (.error (.jsonDecodeError position))
  | lost {e : PyError} (foreign : e.isProvider = false) (same : undecodable e = e) (h : ¬ understood) :
      Loaded understood (.error e)

theorem Loaded.of_iff {P Q : Prop} {x : Except PyError β} (h : Loaded P x) (same : P ↔ Q) : Loaded Q x := by
  rwa [propext same] at h

theorem Loaded.of_scan (s : Str) (x : Except Json.Failure β) :
    Loaded (∀ failure, x = .error failure → ∃ rest, failure = .malformed rest)
      (x.mapError (failureError s)) := by
  cases x with
  | ok payload => exact .loaded payload fun _ h => (nomatch h)
  | error failure =>
    cases failure with
    | malformed rest =>
      refine .refused (s.length - rest.length) fun failure h => ?_
      cases h
      exact ⟨rest, rfl⟩
    | digits => exact .lost rfl rfl fun h => (nomatch h .digits rfl)
    | recursion => exact .lost rfl rfl fun h => (nomatch h .recursion rfl)

theorem Loaded.map {γ : Type} {P : Prop} {x : Except PyError β} (f : β → γ) (h : Loaded P x) :
    Loaded P (x.map f) := by
  cases h with
  | loaded payload h => exact .loaded (f payload) h
  | refused position h => exact .refused position h
  | lost foreign same h => exact .lost foreign same h

theorem loadContent_loaded (p : Provider) (i : Interpreter) (content : Json) :
    Loaded (p.Understood i content) (p.loadContent i content) := by
  cases content with
  | str s =>
    have text : p.Understood i (.str s) ↔ p.Scans i s := by
      constructor
      · rintro ⟨s', hs, scans⟩
        cases hs
        exact scans
      · exact fun scans => ⟨s, rfl, scans⟩
    unfold loadContent
    dsimp only
    split
    next mode =>
      refine (Loaded.of_scan s _).of_iff ?_
      rw [text, Scans, if_pos mode]
    next mode =>
      unfold extractFirstJsonValue
      dsimp only
      rw [Scans, if_neg mode] at text
      split
      next missing => exact .refused 0 (text.mpr fun at_ _ found => (nomatch missing.symm.trans found))
      next at_ found =>
        rw [Except.mapError_map]
        refine ((Loaded.of_scan _ _).map Prod.fst).of_iff ?_
        rw [text]
        constructor
        · intro scans at' failure found'
          cases Option.some.inj (found.symm.trans found')
          exact scans failure
        · exact fun scans failure => scans at_ failure found
  | _ =>
    unfold loadContent
    dsimp only
    split
    all_goals
      refine .lost rfl rfl ?_
      rintro ⟨s, ⟨⟩, -⟩

/-- How an answer is judged, and why. -/
inductive Checked (p : Provider) (i : Interpreter) (model : ResponseModel α) (choice content : Json) :
    Except PyError α → Prop
  | valid {parsed : α} (uncut : ¬ CutOff choice) (accepts : p.Accepts i model content parsed) :
      Checked p i model choice content (.ok parsed)
  | refused {e : ProviderError} (kind : e.kind.isModelOutput = true) (judgeable : p.Judgeable i choice content)
      (invalid : ¬ p.Valid i model choice content) : Checked p i model choice content (.error (.provider e))
  | lost {e : PyError} (foreign : e.isProvider = false) (unjudgeable : ¬ p.Judgeable i choice content) :
      Checked p i model choice content (.error e)

end Checking

end Provider

end EdgecaseForge

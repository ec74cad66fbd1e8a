import EdgecaseForge.ProviderAnswers

namespace EdgecaseForge

open Text Effect

/-- A computation that raises no provider error. -/
def NoProviderError {α : Type} (x : Except PyError α) : Prop :=
  ∀ e, x = .error e → e.isProvider = false

/-- An exception leaves the error contract of the provider. -/
def Escapes {α : Type} (x : Except PyError α) : Prop :=
  ∃ e, x = .error e ∧ e.isProvider = false

section Errors

variable {α β : Type}

theorem NoProviderError.ok (a : α) : NoProviderError (.ok a : Except PyError α) := by
  rintro e ⟨⟩

theorem NoProviderError.error {e : PyError} (h : e.isProvider = false) :
    NoProviderError (.error e : Except PyError α) := by
  rintro e' ⟨⟩
  exact h

theorem NoProviderError.bind {x : Except PyError α} {f : α → Except PyError β}
    (hx : NoProviderError x) (hf : ∀ a, NoProviderError (f a)) : NoProviderError (x >>= f) := by
  cases x with
  | error e => exact NoProviderError.error (hx e rfl)
  | ok a => exact hf a

theorem NoProviderError.foreign (x : Except OtherError α) :
    NoProviderError (x.mapError OtherError.error) := by
  cases x with
  | error e => exact NoProviderError.error e.foreign
  | ok a => exact NoProviderError.ok a

theorem NoProviderError.map {x : Except PyError α} (f : α → β) (h : NoProviderError x) :
    NoProviderError (x.map f) := by
  cases x with
  | error e => exact NoProviderError.error (h e rfl)
  | ok a => exact NoProviderError.ok (f a)

theorem subscript_noProviderError (value : Json) (key : String) :
    NoProviderError (subscript value key) := by
  unfold subscript
  split
  · split
    · exact NoProviderError.ok _
    · exact NoProviderError.error rfl
  · exact NoProviderError.error rfl

theorem firstItem_noProviderError (value : Json) : NoProviderError (firstItem value) := by
  unfold firstItem
  split
  · exact NoProviderError.ok _
  · exact NoProviderError.ok _
  · exact NoProviderError.error rfl
  · exact NoProviderError.error rfl
  · exact NoProviderError.error rfl
  · exact NoProviderError.error rfl

theorem dictGet_noProviderError (value : Json) (key : String) (default : Json) :
    NoProviderError (dictGet value key default) := by
  unfold dictGet
  split
  · exact NoProviderError.ok _
  · exact NoProviderError.error rfl

theorem messageContent_noProviderError (payload : Json) : NoProviderError (messageContent payload) :=
  (subscript_noProviderError _ _).bind fun _ => (firstItem_noProviderError _).bind fun _ =>
    (subscript_noProviderError _ _).bind fun _ => (subscript_noProviderError _ _).bind fun _ =>
      NoProviderError.ok _

theorem pyIntText_noProviderError (k : DigitTable) (s : Str) : NoProviderError (pyIntText k s) := by
  intro e h
  unfold pyIntText at h
  dsimp only at h
  generalize split digitSeparator _ = parts at h
  split at h
  · cases h
    rfl
  · split at h
    · cases h
      rfl
    · split at h
      · cases h
        rfl
      · cases h

theorem pyInt_noProviderError (k : DigitTable) (value : Json) : NoProviderError (pyInt k value) := by
  unfold pyInt
  split
  case h_6 => exact pyIntText_noProviderError k _
  all_goals first
    | exact NoProviderError.ok _
    | exact NoProviderError.error rfl

theorem parseRetryAfter_noProviderError (now : Moment) (value : Option Str) :
    NoProviderError (parseRetryAfter now value) := by
  unfold parseRetryAfter
  split
  · exact NoProviderError.ok _
  · split
    · exact NoProviderError.ok _
    · split
      · exact NoProviderError.ok _
      · exact NoProviderError.ok _
      · next h _ _ =>
        split
        · exact NoProviderError.ok _
        · exact NoProviderError.error h

theorem Provider.backoff_noProviderError (p : Provider) (attempt : Nat) :
    NoProviderError (p.backoff attempt) := by
  unfold Provider.backoff
  split
  · exact NoProviderError.ok _
  · exact NoProviderError.error rfl

end Errors

/-- The accounting of a single round of so many posts. -/
structure RoundAccounting (accounting : AttemptAccounting) (posts : Nat) : Prop where
  transport : accounting.transportAttempts = posts
  semantic : accounting.semanticAttempts = 1
  repair : accounting.repairUsed = false

theorem requestAccounting_round (elapsed : Seconds) (attempts : Nat) (response : Option Response) :
    RoundAccounting (requestAccounting elapsed attempts response) attempts :=
  ⟨rfl, rfl, rfl⟩

/-- The outcomes of a post after which another one is made. -/
def Retriable (now : Moment) : HttpOutcome → Prop
  | .timeout => True
  | .httpError => False
  | .response r => 500 ≤ r.status ∨ (r.status = 429 ∧ isHardQuota r = false ∧
      ∃ delay, parseRetryAfter now r.retryAfter = .ok (some delay) ∧ withinMinute delay = true)

/-- The response of a post that is parsed. -/
def HttpOutcome.answer? : HttpOutcome → Option Response
  | .response r => if r.status < 400 then some r else none
  | _ => none

/-- The content of a message stands in its place. -/
def Response.readable (r : Response) : Bool :=
  match r.json with
  | .ok payload => (messageContent payload).isOk
  | .error _ => false

/-- An exception is a foreign one, or a provider error with the accounting of its round. -/
def RaisedAfter (e : PyError) (posts : Nat) : Prop :=
  e.isProvider = false ∨ ∃ error, e = .provider error ∧ RoundAccounting error.accounting posts

/-- An exception of an attempt is a foreign one, or it counts the posts up to one without an answer. -/
def RaisedBy (now : Moment) (attempt : Nat) (outcome : HttpOutcome) (e : PyError) : Prop :=
  e.isProvider = false ∨ ∃ error, e = .provider error ∧ outcome.answer? = none ∧
    ∃ response, error.accounting = requestAccounting now.elapsed (attempt + 1) response

theorem RaisedBy.raisedAfter {now : Moment} {attempt : Nat} {outcome : HttpOutcome} {e : PyError}
    (h : RaisedBy now attempt outcome e) : RaisedAfter e (attempt + 1) := by
  rcases h with foreign | ⟨error, rfl, -, response, counted⟩
  · exact Or.inl foreign
  · refine Or.inr ⟨error, rfl, ?_⟩
    rw [counted]
    exact requestAccounting_round _ _ _

theorem HttpOutcome.answer?_high {r : Response} (high : 400 ≤ r.status) :
    (HttpOutcome.response r).answer? = none :=
  if_neg (by omega)

namespace Provider

variable {p : Provider} {now : Moment} {attempt : Nat} {previous : Option Response}
  {outcome : HttpOutcome}

theorem error_raised (kind : ProviderErrorKind) (problem : Str) (response : Option Response)
    (unanswered : outcome.answer? = none) : RaisedBy now attempt outcome
      (p.error kind problem (requestAccounting now.elapsed (attempt + 1) response)) :=
  Or.inr ⟨_, rfl, unanswered, response, rfl⟩

/-- What the three ways out of an attempt come from. -/
theorem judge_cases (now : Moment) (previous : Option Response) (outcome : HttpOutcome)
    (h : attempt ≤ p.maxTransportRetries) :
    match p.judge now attempt previous outcome with
    | .ok (.again _) => Retriable now outcome ∧ attempt < p.maxTransportRetries
    | .ok (.done r) => outcome = .response r ∧ r.status < 400
    | .error e => RaisedBy now attempt outcome e := by
  cases outcome with
  | timeout =>
    unfold judge
    dsimp only
    split
    next hx =>
      split at hx
      · cases hx
      · next other =>
        exact ⟨trivial, by omega⟩
    next hx =>
      split at hx
      · cases hx
      · obtain ⟨_, -, hv⟩ := Except.map_eq_ok.mp hx
        cases hv
    next e hx =>
      split at hx
      · cases hx
        exact error_raised _ _ _ rfl
      · exact Or.inl ((p.backoff_noProviderError attempt).map _ e hx)
  | httpError => exact error_raised _ _ _ rfl
  | response r =>
    unfold judge
    dsimp only
    by_cases key : r.status = 401 ∨ r.status = 403
    · rw [if_pos key]
      exact error_raised _ _ _ (HttpOutcome.answer?_high (by omega))
    rw [if_neg key]
    by_cases quota : r.status = 429
    · have unanswered : (HttpOutcome.response r).answer? = none := HttpOutcome.answer?_high (by omega)
      rw [if_pos quota]
      cases hr : parseRetryAfter now r.retryAfter with
      | error e => exact Or.inl (parseRetryAfter_noProviderError _ _ e hr)
      | ok retryAfter =>
        cases retryAfter with
        | none => exact error_raised _ _ _ unanswered
        | some delay =>
          simp only [Except.ok_bind]
          by_cases retry : (!isHardQuota r && withinMinute delay &&
              decide (attempt < p.maxTransportRetries)) = true
          · rw [if_pos retry]
            simp only [Bool.and_eq_true, Bool.not_eq_true', decide_eq_true_eq] at retry
            obtain ⟨⟨soft, within⟩, more⟩ := retry
            exact ⟨Or.inr ⟨quota, soft, delay, hr, within⟩, more⟩
          · rw [if_neg retry]
            exact error_raised _ _ _ unanswered
    rw [if_neg quota]
    by_cases server : 500 ≤ r.status
    · rw [if_pos server]
      cases hr : parseRetryAfter now r.retryAfter with
      | error e => exact Or.inl (parseRetryAfter_noProviderError _ _ e hr)
      | ok retryAfter =>
        simp only [Except.ok_bind]
        by_cases more : attempt < p.maxTransportRetries
        · rw [if_pos more]
          cases retryAfter.filter withinMinute with
          | some delay => exact ⟨Or.inl server, more⟩
          | none =>
            cases hb : p.backoff attempt with
            | error e => exact Or.inl (p.backoff_noProviderError attempt e hb)
            | ok delay => exact ⟨Or.inl server, more⟩
        · rw [if_neg more]
          exact error_raised _ _ _ (HttpOutcome.answer?_high (by omega))
    rw [if_neg server]
    by_cases client : 400 ≤ r.status
    · rw [if_pos client]
      exact error_raised _ _ _ (HttpOutcome.answer?_high client)
    · rw [if_neg client]
      exact ⟨rfl, by omega⟩

end Provider

section Reading

def RaisesAfter {α : Type} (x : Except PyError α) (posts : Nat) : Prop :=
  ∀ e, x = .error e → RaisedAfter e posts

end Reading

namespace Provider

variable {α : Type} {p : Provider} {i : Interpreter} {env : Exchange} {messages : List Message}
  {elapsed : Seconds} {attempts : Nat} {response : Response} {result : LLMResult}

theorem readResponse_ok (h : p.readResponse i elapsed attempts response = .ok result) :
    RoundAccounting result.accounting attempts := by
  unfold readResponse at h
  obtain ⟨payload, -, h⟩ := Except.bind_eq_ok.mp h
  obtain ⟨⟨choice, content⟩, -, h⟩ := Except.bind_eq_ok.mp h
  obtain ⟨usage, -, h⟩ := Except.bind_eq_ok.mp h
  obtain ⟨reason, -, h⟩ := Except.bind_eq_ok.mp h
  obtain ⟨prompt, -, h⟩ := Except.bind_eq_ok.mp h
  obtain ⟨input, -, h⟩ := Except.bind_eq_ok.mp h
  obtain ⟨completion, -, h⟩ := Except.bind_eq_ok.mp h
  obtain ⟨output, -, h⟩ := Except.bind_eq_ok.mp h
  cases h
  exact ⟨rfl, rfl, rfl⟩

/-- The provider errors of reading are those of a response without a content. -/
theorem readResponse_error {e : ProviderError}
    (h : p.readResponse i elapsed attempts response = .error (.provider e)) :
    response.readable = false ∧ e.accounting = requestAccounting elapsed attempts (some response) := by
  unfold readResponse at h
  rw [Response.readable]
  cases hj : response.json with
  | error raised =>
    simp only [hj, Except.mapError, Except.error_bind, Except.error.injEq] at h
    split at h
    · cases h
      exact ⟨rfl, rfl⟩
    · have foreign := raised.foreign
      rw [h] at foreign
      cases foreign
  | ok payload =>
    simp only [hj, Except.mapError, Except.ok_bind] at h
    cases hm : messageContent payload with
    | error raised =>
      simp only [hm, Except.error_bind, Except.error.injEq] at h
      split at h
      · cases h
        refine ⟨?_, rfl⟩
        change (messageContent payload).isOk = false
        rw [hm]
        rfl
      · have foreign := messageContent_noProviderError payload raised hm
        rw [h] at foreign
        cases foreign
    | ok found =>
      obtain ⟨choice, content⟩ := found
      simp only [hm, Except.ok_bind] at h
      have foreign : (PyError.provider e).isProvider = false := by
        refine NoProviderError.bind (dictGet_noProviderError _ _ _) (fun usage => ?_) _ h
        refine (dictGet_noProviderError _ _ _).bind fun reason => ?_
        refine (dictGet_noProviderError _ _ _).bind fun prompt => ?_
        refine (pyInt_noProviderError _ _).bind fun input => ?_
        refine (dictGet_noProviderError _ _ _).bind fun completion => ?_
        exact (pyInt_noProviderError _ _).bind fun output => NoProviderError.ok _
      cases foreign

theorem readResponse_raises (p : Provider) (i : Interpreter) (elapsed : Seconds) (attempts : Nat)
    (response : Response) : RaisesAfter (p.readResponse i elapsed attempts response) attempts := by
  intro e h
  cases e with
  | provider error =>
    refine Or.inr ⟨error, rfl, ?_⟩
    rw [(readResponse_error h).2]
    exact requestAccounting_round _ _ _
  | _ => exact Or.inl rfl

end Provider

theorem encodeUtf8_noProviderError (s : Str) : NoProviderError (encodeUtf8 s) := by
  unfold encodeUtf8
  split
  · exact NoProviderError.ok _
  · exact NoProviderError.error rfl

theorem excerpt_noProviderError (response : Json) : NoProviderError (excerpt response) := by
  unfold excerpt
  split
  · exact (encodeUtf8_noProviderError _).map _
  · exact NoProviderError.error rfl

theorem mapM_noProviderError {α β : Type} {f : α → Except PyError β}
    (hf : ∀ a, NoProviderError (f a)) (xs : List α) : NoProviderError (xs.mapM f) := by
  induction xs with
  | nil => exact NoProviderError.ok _
  | cons x xs ih =>
    rw [List.mapM_cons]
    exact (hf x).bind fun y => ih.bind fun ys => NoProviderError.ok _

theorem preserveModelResponses_noProviderError (e : ProviderError) (responses : List Json) :
    NoProviderError (e.preserveModelResponses responses) :=
  (mapM_noProviderError excerpt_noProviderError responses).map _

theorem sliceContent_noProviderError (content : Json) : NoProviderError (sliceContent content) := by
  unfold sliceContent
  split
  · exact NoProviderError.ok _
  · exact NoProviderError.ok _
  · exact NoProviderError.error rfl

theorem failureError_noProvider (s : Str) (failure : Json.Failure) :
    (failureError s failure).isProvider = false := by
  cases failure <;> rfl

/-- An exception is a foreign one, or a provider error that is repaired. -/
def IsModelOutput (e : PyError) : Prop :=
  e.isProvider = false ∨ ∃ error, e = .provider error ∧ error.kind.isModelOutput = true

namespace Provider

variable {α : Type} {p : Provider} {i : Interpreter} {model : ResponseModel α}

theorem loadContent_noProviderError (p : Provider) (i : Interpreter) (content : Json) :
    NoProviderError (p.loadContent i content) := by
  have decoded : ∀ {β : Type} (s : Str) (x : Except Json.Failure β),
      NoProviderError (x.mapError (failureError s)) := by
    intro β s x
    cases x with
    | error failure => exact NoProviderError.error (failureError_noProvider s failure)
    | ok value => exact NoProviderError.ok value
  unfold loadContent
  split
  · split
    · exact decoded _ _
    · unfold extractFirstJsonValue
      dsimp only
      split
      · exact NoProviderError.error rfl
      · exact decoded _ _
  · split
    · exact NoProviderError.error rfl
    · exact NoProviderError.error rfl

theorem undecodable_isModelOutput {e : PyError} (h : e.isProvider = false) :
    IsModelOutput (undecodable e) := by
  unfold undecodable
  split
  · exact Or.inr ⟨_, rfl, rfl⟩
  · exact Or.inl h

theorem truncatedIfCut_isModelOutput {e : PyError} (result : LLMResult) (h : IsModelOutput e) :
    IsModelOutput (truncatedIfCut result e) := by
  unfold truncatedIfCut
  split
  · split
    · exact Or.inr ⟨_, rfl, rfl⟩
    · exact h
  · exact h

theorem validate_isModelOutput {content : Json} {e : PyError}
    (h : p.validate i model content = .error e) : IsModelOutput e := by
  unfold validate at h
  cases hl : p.loadContent i content with
  | error raised =>
    rw [hl] at h
    cases h
    exact undecodable_isModelOutput (loadContent_noProviderError p i content raised hl)
  | ok payload =>
    rw [hl] at h
    change (model.validate payload).mapError invalid = .error e at h
    cases hv : model.validate payload with
    | error details =>
      rw [hv] at h
      cases h
      exact Or.inr ⟨_, rfl, rfl⟩
    | ok value =>
      rw [hv] at h
      cases h

/-- The provider errors of a validation are those that are repaired. -/
theorem validateResult_isModelOutput {result : LLMResult} {e : PyError}
    (h : p.validateResult i model result = .error e) : IsModelOutput e := by
  unfold validateResult at h
  split at h
  · cases h
    exact Or.inr ⟨_, rfl, rfl⟩
  · cases hv : p.validate i model result.content with
    | error raised =>
      rw [hv] at h
      cases h
      exact truncatedIfCut_isModelOutput result (validate_isModelOutput hv)
    | ok value =>
      rw [hv] at h
      cases h

end Provider

end EdgecaseForge

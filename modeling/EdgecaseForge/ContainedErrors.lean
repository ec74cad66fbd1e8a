import EdgecaseForge.AnswerShapes
import EdgecaseForge.AttemptWaits
import EdgecaseForge.AttemptAccounts

namespace EdgecaseForge

open Text Effect

namespace Provider

variable {α : Type} {p : Provider} {i : Interpreter} {env : Exchange} {model : ResponseModel α}
  {messages : List Message} {n : Nat}

/-- What a round brings after so many retries: a content, in its choice. -/
def Brings (p : Provider) (env : Exchange) (n k : Nat) (choice content : Json) : Prop :=
  ∃ r, Answered p env 0 n k r ∧ r.Delivers choice content

theorem Brings.unique {k k' : Nat} {choice content choice' content' : Json}
    (h : Brings p env n k choice content) (h' : Brings p env n k' choice' content') :
    k = k' ∧ choice = choice' ∧ content = content' := by
  obtain ⟨r, answered, delivers⟩ := h
  obtain ⟨r', answered', delivers'⟩ := h'
  obtain ⟨rfl, rfl⟩ := answered.unique answered'
  exact ⟨rfl, delivers.unique delivers'⟩

/-- A call that ended after so many posts kept to the contract of provider errors: it raised one, or it
returned what the response model makes of the content of the last response. -/
def Contained (p : Provider) (i : Interpreter) (env : Exchange) (model : ResponseModel α) (n' : Nat)
    (result : Except PyError (α × LLMResult)) : Prop :=
  (∃ e, result = .error (.provider e)) ∨
    ∃ parsed returned last r choice, result = .ok (parsed, returned) ∧ n' = last + 1 ∧
      env.outcome last = .response r ∧ r.Delivers choice returned.content ∧
      p.Accepts i model returned.content parsed

/-- A condition tells whether a call keeps to the contract. -/
def Told (p : Provider) (i : Interpreter) (env : Exchange) (model : ResponseModel α) (condition : Prop)
    (n' : Nat) (result : Except PyError (α × LLMResult)) : Prop :=
  condition ∧ p.Contained i env model n' result ∨ ¬ condition ∧ Escapes result

theorem Told.of_iff {condition condition' : Prop} {n' : Nat} {result : Except PyError (α × LLMResult)}
    (h : p.Told i env model condition n' result) (same : condition ↔ condition') :
    p.Told i env model condition' n' result := by
  rwa [propext same] at h

theorem Told.lost {condition : Prop} {n' : Nat} {e : PyError} (foreign : e.isProvider = false)
    (fails : ¬ condition) : p.Told i env model condition n' (.error e) :=
  Or.inr ⟨fails, e, rfl, foreign⟩

theorem Told.raised {condition : Prop} {n' : Nat} (e : ProviderError) (holds : condition) :
    p.Told i env model condition n' (.error (.provider e)) :=
  Or.inl ⟨holds, Or.inl ⟨e, rfl⟩⟩

theorem Brings.answer {k : Nat} {choice content : Json} (h : Brings p env n k choice content) :
    ∃ r, env.outcome (n + k) = .response r ∧ r.Delivers choice content := by
  obtain ⟨r, answered, delivers⟩ := h
  have answer := answered.answer
  cases ho : env.outcome (n + k) with
  | response r' =>
    rw [ho] at answer
    by_cases low : r'.status < 400
    · cases (if_pos low).symm.trans answer
      exact ⟨r, rfl, delivers⟩
    · cases (if_neg low).symm.trans answer
  | _ =>
    rw [ho] at answer
    cases answer

theorem Told.returned {condition : Prop} {k : Nat} {choice content : Json} {parsed : α}
    {returned : LLMResult} (holds : condition) (brings : Brings p env n k choice content)
    (same : returned.content = content) (accepts : p.Accepts i model content parsed) :
    p.Told i env model condition (n + k + 1) (.ok (parsed, returned)) := by
  subst same
  obtain ⟨r, response, delivers⟩ := brings.answer
  exact Or.inl ⟨holds, Or.inr ⟨parsed, returned, n + k, r, choice, rfl, rfl, response, delivers, accepts⟩⟩

theorem Accepts.judgeable {choice content : Json} {parsed : α} (h : p.Accepts i model content parsed) :
    p.Judgeable i choice content := by
  obtain ⟨payload, hl, -⟩ := h
  have loaded := loadContent_loaded p i content
  rw [hl] at loaded
  cases loaded with
  | loaded _ understood => exact Or.inr understood

end Provider

end EdgecaseForge

import EdgecaseForge.AttemptRounds

namespace EdgecaseForge

open Text Effect

/-- The response whose Retry-After header is read. -/
def HttpOutcome.throttled? : HttpOutcome → Option Response
  | .response r => if r.status = 429 ∨ 500 ≤ r.status then some r else none
  | _ => none

theorem Retriable.throttled {now : Moment} {r : Response} (h : Retriable now (.response r)) :
    r.status = 429 ∨ 500 ≤ r.status := by
  rcases h with server | ⟨quota, -⟩
  · exact Or.inr server
  · exact Or.inl quota

theorem Retriable.unanswered {now : Moment} {outcome : HttpOutcome} (h : Retriable now outcome) :
    outcome.answer? = none := by
  cases outcome with
  | response r =>
    have high := h.throttled
    exact HttpOutcome.answer?_high (by omega)
  | _ => rfl

namespace Provider

/-- The wait before the attempt after an outcome. -/
inductive Waits (p : Provider) (now : Moment) (attempt : Nat) : HttpOutcome → Double → Prop
  | timeout {delay : Double} (h : p.backoff attempt = .ok delay) : Waits p now attempt .timeout delay
  | quota {r : Response} {delay : Double} (status : r.status = 429)
      (h : parseRetryAfter now r.retryAfter = .ok (some delay)) : Waits p now attempt (.response r) delay
  | server {r : Response} {asked : Option Double} {delay : Double} (status : 500 ≤ r.status)
      (h : parseRetryAfter now r.retryAfter = .ok asked) (within : asked.filter withinMinute = some delay) :
      Waits p now attempt (.response r) (delay.min sixty)
  | backoff {r : Response} {asked : Option Double} {delay : Double} (status : 500 ≤ r.status)
      (h : parseRetryAfter now r.retryAfter = .ok asked) (without : asked.filter withinMinute = none)
      (hb : p.backoff attempt = .ok delay) : Waits p now attempt (.response r) (delay.min sixty)

/-- An attempt meets no exception of its own: it understands the header it reads, and makes the wait
it has to make. -/
structure Calm (p : Provider) (now : Moment) (attempt : Nat) (outcome : HttpOutcome) : Prop where
  header : ∀ r, outcome.throttled? = some r → ∃ asked, parseRetryAfter now r.retryAfter = .ok asked
  wait : Retriable now outcome → attempt < p.maxTransportRetries →
    ∃ delay, p.Waits now attempt outcome delay ∧ p.sleep delay = .ok ()

section Judging

variable {p : Provider} {now : Moment} {attempt : Nat} {previous : Option Response}
  {outcome : HttpOutcome}

theorem Waits.unique {delay delay' : Double} (h : p.Waits now attempt outcome delay)
    (h' : p.Waits now attempt outcome delay') : delay = delay' := by
  cases h with
  | timeout hb =>
    cases h' with
    | timeout hb' => exact Except.ok.inj (hb.symm.trans hb')
  | quota status h =>
    cases h' with
    | quota status' h' => exact Option.some.inj (Except.ok.inj (h.symm.trans h'))
    | server status' => omega
    | backoff status' => omega
  | server status h within =>
    cases h' with
    | quota status' => omega
    | server status' h' within' =>
      cases Except.ok.inj (h.symm.trans h')
      cases Option.some.inj (within.symm.trans within')
      rfl
    | backoff status' h' without =>
      cases Except.ok.inj (h.symm.trans h')
      cases within.symm.trans without
  | backoff status h without hb =>
    cases h' with
    | quota status' => omega
    | server status' h' within =>
      cases Except.ok.inj (h.symm.trans h')
      cases without.symm.trans within
    | backoff status' h' without' hb' =>
      cases Except.ok.inj (hb.symm.trans hb')
      rfl

end Judging

section Rounds

variable {p : Provider} {env : Exchange} {messages : List Message} {first n : Nat}

/-- The posts up to a place were each retried for a reason. -/
def Reaches (env : Exchange) (n k : Nat) : Prop :=
  ∀ j, j < k → Retriable (env.moment (n + j + 1)) (env.outcome (n + j))

/-- The round that begins at an attempt with a post meets no exception of its own. -/
def RoundCalm (p : Provider) (env : Exchange) (first n : Nat) : Prop :=
  ∀ k, first + k ≤ p.maxTransportRetries → Reaches env n k →
    p.Calm (env.moment (n + k + 1)) (first + k) (env.outcome (n + k))

/-- The round has this answer after so many retries. -/
structure Answered (p : Provider) (env : Exchange) (first n k : Nat) (r : Response) : Prop where
  within : first + k ≤ p.maxTransportRetries
  reached : Reaches env n k
  answer : (env.outcome (n + k)).answer? = some r

theorem Reaches.unshift {k : Nat} (why : Retriable (env.moment (n + 1)) (env.outcome n))
    (h : Reaches env (n + 1) k) : Reaches env n (k + 1) := by
  intro j hj
  cases j with
  | zero => exact why
  | succ j =>
    have later := h j (by omega)
    rwa [show n + 1 + j = n + (j + 1) by omega] at later

theorem Reaches.retried {k : Nat} (h : Reaches env n (k + 1)) :
    Retriable (env.moment (n + 1)) (env.outcome n) :=
  h 0 (Nat.succ_pos k)

theorem Answered.le {k k' : Nat} {r r' : Response} (h : Answered p env first n k r)
    (h' : Answered p env first n k' r') : k ≤ k' := by
  by_contra before
  have none := (h.reached k' (by omega)).unanswered
  cases none.symm.trans h'.answer

theorem Answered.unique {k k' : Nat} {r r' : Response} (h : Answered p env first n k r)
    (h' : Answered p env first n k' r') : k = k' ∧ r = r' := by
  have same : k = k' := le_antisymm (h.le h') (h'.le h)
  subst same
  exact ⟨rfl, Option.some.inj (h.answer.symm.trans h'.answer)⟩

theorem RoundCalm.head (within : first ≤ p.maxTransportRetries) (h : RoundCalm p env first n) :
    p.Calm (env.moment (n + 1)) first (env.outcome n) :=
  h 0 within fun j hj => absurd hj (Nat.not_lt_zero j)

theorem RoundCalm.rest (why : Retriable (env.moment (n + 1)) (env.outcome n))
    (h : RoundCalm p env first n) : RoundCalm p env (first + 1) (n + 1) := by
  intro k within reached
  have rest := h (k + 1) (by omega) (reached.unshift why)
  rwa [show n + (k + 1) = n + 1 + k by omega, show first + (k + 1) = first + 1 + k by omega] at rest

end Rounds

end Provider

end EdgecaseForge

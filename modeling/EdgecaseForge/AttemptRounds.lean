import EdgecaseForge.AttemptErrors

namespace EdgecaseForge

open Text Effect

/-- One call of `_request` up to its answer: the posts that were retried with the waits after them,
the last post, and the response that was parsed. -/
structure Round where
  start : Nat
  messages : List Message
  retries : List (HttpOutcome × Double)
  last : HttpOutcome
  parsed : Option Response

namespace Round

def posts (r : Round) : Nat :=
  r.retries.length + 1

def retryEvents (messages : List Message) (retries : List (HttpOutcome × Double)) : List HttpEvent :=
  retries.flatMap fun retry => [.post messages retry.1, .sleep retry.2]

def events (r : Round) : List HttpEvent :=
  .request :: (retryEvents r.messages r.retries ++
    .post r.messages r.last :: r.parsed.toList.map .parse)

/-- The posts from a place on were each retried for a reason. -/
def Retried (env : Exchange) (start : Nat) (retries : List (HttpOutcome × Double)) : Prop :=
  ∀ j retry, retries[j]? = some retry → retry.1 = env.outcome (start + j) ∧
    Retriable (env.moment (start + j + 1)) retry.1

structure Stands (p : Provider) (env : Exchange) (r : Round) : Prop where
  bounded : r.retries.length ≤ p.maxTransportRetries
  retried : Retried env r.start r.retries
  last : r.last = env.outcome (r.start + r.retries.length)
  parsed : ∀ response, r.parsed = some response → r.last = .response response ∧ response.status < 400

end Round

namespace Provider

variable {α : Type} {p : Provider} {i : Interpreter} {env : Exchange} {messages : List Message}

theorem post_ran (n : Nat) :
    Program.Ran (post env messages) n [.post messages (env.outcome n)] (n + 1) (.ok (env.outcome n)) :=
  ⟨rfl, rfl, rfl⟩

theorem pause_ran (n : Nat) (delay : Double) : Program.Ran (p.pause delay) n [.sleep delay] n
    ((p.sleep delay).mapError OtherError.error) :=
  ⟨rfl, rfl, rfl⟩

section Attempts

variable {attempt n n' : Nat} {rest : List Nat} {last : Nat × Option Response} {delay : Double}
  {events : List HttpEvent} {result : Except PyError (Nat × Option Response)}

theorem attempts_error {e : PyError}
    (h : p.judge (env.moment (n + 1)) attempt last.2 (env.outcome n) = .error e) :
    Program.Ran (p.attempts env messages (attempt :: rest) last) n
      [.post messages (env.outcome n)] (n + 1) (.error e) := by
  unfold attempts
  refine (post_ran n).bind_quiet ?_
  refine Program.Ran.inspect_bind rfl ?_
  rw [h]
  exact Program.Ran.lift.bind_error

theorem attempts_done {r : Response}
    (h : p.judge (env.moment (n + 1)) attempt last.2 (env.outcome n) = .ok (.done r)) :
    Program.Ran (p.attempts env messages (attempt :: rest) last) n
      [.post messages (env.outcome n)] (n + 1) (.ok (attempt, some r)) := by
  unfold attempts
  refine (post_ran n).bind_quiet ?_
  refine Program.Ran.inspect_bind rfl ?_
  rw [h]
  exact Program.Ran.lift_bind Program.Ran.pure

theorem attempts_again
    (h : p.judge (env.moment (n + 1)) attempt last.2 (env.outcome n) = .ok (.again delay))
    (slept : p.sleep delay = .ok ())
    (next : Program.Ran (p.attempts env messages rest
      (attempt, (env.outcome n).response?.or last.2)) (n + 1) events n' result) :
    Program.Ran (p.attempts env messages (attempt :: rest) last) n
      (.post messages (env.outcome n) :: .sleep delay :: events) n' result := by
  have pause := pause_ran (p := p) (n + 1) delay
  rw [slept] at pause
  unfold attempts
  refine Program.Ran.bind (post_ran n) ?_
  refine Program.Ran.inspect_bind rfl ?_
  rw [h]
  exact Program.Ran.lift_bind (pause.bind next)

theorem attempts_asleep {e : OtherError}
    (h : p.judge (env.moment (n + 1)) attempt last.2 (env.outcome n) = .ok (.again delay))
    (slept : p.sleep delay = .error e) :
    Program.Ran (p.attempts env messages (attempt :: rest) last) n
      [.post messages (env.outcome n), .sleep delay] (n + 1) (.error e.error) := by
  have pause := pause_ran (p := p) (n + 1) delay
  rw [slept] at pause
  unfold attempts
  refine Program.Ran.bind (post_ran n) ?_
  refine Program.Ran.inspect_bind rfl ?_
  rw [h]
  exact Program.Ran.lift_bind pause.bind_error

end Attempts

end Provider

theorem Round.Retried.cons {env : Exchange} {start : Nat} {outcome : HttpOutcome} {delay : Double}
    {retries : List (HttpOutcome × Double)} (first : outcome = env.outcome start)
    (why : Retriable (env.moment (start + 1)) outcome) (h : Round.Retried env (start + 1) retries) :
    Round.Retried env start ((outcome, delay) :: retries) := by
  intro j retry hj
  cases j with
  | zero =>
    cases hj
    exact ⟨first, why⟩
  | succ j =>
    have later := h j retry hj
    rwa [show start + 1 + j = start + (j + 1) by omega] at later

namespace Provider

variable {α : Type} {p : Provider} {i : Interpreter} {env : Exchange} {messages : List Message}

/-- The loop over the attempts settles after some retries, with a response or with an error that
counts them. -/
inductive Settled (p : Provider) (env : Exchange) (first n : Nat)
    (retries : List (HttpOutcome × Double)) : Except PyError (Nat × Option Response) → Prop
  | response (r : Response) (h : env.outcome (n + retries.length) = .response r)
      (low : r.status < 400) : Settled p env first n retries (.ok (first + retries.length, some r))
  | error (e : ProviderError) (h : RoundAccounting e.accounting (first + retries.length + 1)) :
      Settled p env first n retries (.error (.provider e))

theorem Settled.next {first n : Nat} {retry : HttpOutcome × Double}
    {retries : List (HttpOutcome × Double)} {result : Except PyError (Nat × Option Response)}
    (h : Settled p env (first + 1) (n + 1) retries result) :
    Settled p env first n (retry :: retries) result := by
  have count : first + 1 + retries.length = first + (retry :: retries).length := by
    rw [List.length_cons]
    omega
  have place : n + 1 + retries.length = n + (retry :: retries).length := by
    rw [List.length_cons]
    omega
  cases h with
  | response r h low =>
    rw [count]
    exact .response r (place ▸ h) low
  | error e h => exact .error e (count ▸ h)

/-- How a run of the loop over at most so many attempts ends. -/
def EndsWith (p : Provider) (env : Exchange) (messages : List Message) (len first n : Nat)
    (events : List HttpEvent) (n' : Nat) (result : Except PyError (Nat × Option Response)) : Prop :=
  Escapes result ∨ ∃ retries, Round.Retried env n retries ∧ retries.length ≤ len ∧
    n' = n + retries.length + 1 ∧
    events = Round.retryEvents messages retries ++ [.post messages (env.outcome (n + retries.length))] ∧
    Settled p env first n retries result

theorem EndsWith.error {len first n : Nat} {e : PyError} (h : RaisedAfter e (first + 1)) :
    EndsWith p env messages len first n [.post messages (env.outcome n)] (n + 1) (.error e) := by
  rcases h with foreign | ⟨error, rfl, counted⟩
  · exact Or.inl ⟨e, rfl, foreign⟩
  · exact Or.inr ⟨[], by rintro j retry ⟨⟩, Nat.zero_le _, rfl, rfl, .error error counted⟩

theorem EndsWith.response {len first n : Nat} {r : Response} (h : env.outcome n = .response r)
    (low : r.status < 400) :
    EndsWith p env messages len first n [.post messages (env.outcome n)] (n + 1)
      (.ok (first, some r)) :=
  Or.inr ⟨[], by rintro j retry ⟨⟩, Nat.zero_le _, rfl, rfl, .response r h low⟩

/-- Every run of the loop over the attempts escapes or settles after some retries. -/
theorem attempts_ran {len first n : Nat} (h : first + len = p.maxTransportRetries)
    (last : Nat × Option Response) :
    ∃ events n' result,
      Program.Ran (p.attempts env messages (List.range' first (len + 1)) last) n events n' result ∧
      EndsWith p env messages len first n events n' result := by
  induction len generalizing first n last with
  | zero =>
    have within : first ≤ p.maxTransportRetries := by omega
    have way := judge_cases (env.moment (n + 1)) last.2 (env.outcome n) within
    cases hv : p.judge (env.moment (n + 1)) first last.2 (env.outcome n) with
    | error e =>
      rw [hv] at way
      exact ⟨_, _, _, attempts_error hv, .error way.raisedAfter⟩
    | ok verdict =>
      rw [hv] at way
      cases verdict with
      | again delay => exact absurd way.2 (by omega)
      | done r => exact ⟨_, _, _, attempts_done hv, .response way.1 way.2⟩
  | succ len ih =>
    have within : first ≤ p.maxTransportRetries := by omega
    have way := judge_cases (env.moment (n + 1)) last.2 (env.outcome n) within
    rw [List.range'_succ]
    cases hv : p.judge (env.moment (n + 1)) first last.2 (env.outcome n) with
    | error e =>
      rw [hv] at way
      exact ⟨_, _, _, attempts_error hv, .error way.raisedAfter⟩
    | ok verdict =>
      rw [hv] at way
      cases verdict with
      | done r => exact ⟨_, _, _, attempts_done hv, .response way.1 way.2⟩
      | again delay =>
        cases hs : p.sleep delay with
        | error e => exact ⟨_, _, _, attempts_asleep hv hs, Or.inl ⟨_, rfl, e.foreign⟩⟩
        | ok u =>
          have left : first + 1 + len = p.maxTransportRetries := by omega
          obtain ⟨events, n', result, run, ends⟩ := ih left (first, (env.outcome n).response?.or last.2)
          refine ⟨_, _, _, attempts_again hv hs run, ?_⟩
          rcases ends with escapes | ⟨retries, retried, few, rfl, rfl, settled⟩
          · exact Or.inl escapes
          · refine Or.inr ⟨(env.outcome n, delay) :: retries, retried.cons rfl way.1, ?_, ?_, ?_,
              settled.next⟩
            · rw [List.length_cons]
              omega
            · rw [List.length_cons]
              omega
            · rw [List.length_cons, show n + 1 + retries.length = n + (retries.length + 1) by omega]
              rfl

end Provider

end EdgecaseForge

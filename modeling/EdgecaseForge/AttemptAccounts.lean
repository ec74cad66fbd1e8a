import EdgecaseForge.AttemptRounds

namespace EdgecaseForge

open Text Effect

/-- What a round gives back for its caller to validate. -/
def Round.Returned (p : Provider) (i : Interpreter) (env : Exchange) (r : Round) (result : LLMResult) :
    Prop :=
  ∃ response, r.parsed = some response ∧
    p.readResponse i (env.moment (r.start + r.posts)).elapsed r.posts response = .ok result

/-- How a round ends: with a result, or with an error that counts its posts. -/
inductive Round.Ends (p : Provider) (i : Interpreter) (env : Exchange) (r : Round) :
    Except PyError LLMResult → Prop
  | returned (result : LLMResult) (h : r.Returned p i env result)
      (counted : RoundAccounting result.accounting r.posts) : r.Ends p i env (.ok result)
  | raised (e : ProviderError) (counted : RoundAccounting e.accounting r.posts)
      (nothing : ∀ result, ¬ r.Returned p i env result) : r.Ends p i env (.error (.provider e))

/-- A run of `_request` escapes, or it is a round. -/
def RequestEnds (p : Provider) (i : Interpreter) (env : Exchange) (messages : List Message) (n : Nat)
    (events : List HttpEvent) (n' : Nat) (result : Except PyError LLMResult) : Prop :=
  Escapes result ∨ ∃ r : Round, r.start = n ∧ r.messages = messages ∧ r.Stands p env ∧
    events = r.events ∧ n' = n + r.posts ∧ r.Ends p i env result

namespace Provider

variable {α : Type} {p : Provider} {i : Interpreter} {env : Exchange} {messages : List Message}

theorem request_ran (p : Provider) (i : Interpreter) (env : Exchange) (messages : List Message)
    (n : Nat) : ∃ events n' result, Program.Ran (p.request i env messages) n events n' result ∧
      RequestEnds p i env messages n events n' result := by
  obtain ⟨events, n', result, run, ends⟩ : ∃ events n' result,
      Program.Ran (p.attempts env messages (List.range' 0 (p.maxTransportRetries + 1)) (0, none)) n
        events n' result ∧ EndsWith p env messages p.maxTransportRetries 0 n events n' result :=
    attempts_ran (Nat.zero_add _) (0, none)
  rw [← List.range_eq_range'] at run
  have begun : Program.Ran (Program.mark HttpEvent.request : Http Unit) n [.request] n (.ok ()) :=
    Program.Ran.mark
  rcases ends with ⟨e, rfl, foreign⟩ | ⟨retries, retried, few, rfl, rfl, settled⟩
  · exact ⟨_, _, _, begun.bind run.bind_error, Or.inl ⟨e, rfl, foreign⟩⟩
  · cases settled with
    | error e counted =>
      refine ⟨_, _, _, begun.bind run.bind_error, Or.inr ⟨⟨n, messages, retries,
        env.outcome (n + retries.length), none⟩, rfl, rfl, ⟨few, retried, rfl, ?_⟩, ?_, rfl, ?_⟩⟩
      · rintro response ⟨⟩
      · simp [Round.events]
      · refine .raised e ?_ ?_
        · simpa [Round.posts] using counted
        · rintro result ⟨response, ⟨⟩, -⟩
    | response r h low =>
      have parsed : Program.Ran (Program.mark (HttpEvent.parse r) : Http Unit) (n + retries.length + 1)
          [.parse r] (n + retries.length + 1) (.ok ()) := Program.Ran.mark
      have read : Program.Ran (p.request i env messages) n _ _ _ :=
        begun.bind (run.bind (Program.Ran.inspect.bind (parsed.bind Program.Ran.lift)))
      refine ⟨_, _, _, read, ?_⟩
      let round : Round := ⟨n, messages, retries, env.outcome (n + retries.length), some r⟩
      have stands : round.Stands p env := ⟨few, retried, rfl, by
        rintro response ⟨⟩
        exact ⟨h, low⟩⟩
      have shape : round.events = [.request] ++ (Round.retryEvents messages retries ++
          [.post messages (env.outcome (n + retries.length))] ++ ([] ++ ([.parse r] ++ []))) := by
        simp [round, Round.events]
      cases hr : p.readResponse i (env.moment (n + retries.length + 1)).elapsed (0 + retries.length + 1) r with
      | ok result =>
        refine Or.inr ⟨round, rfl, rfl, stands, shape.symm, rfl, .returned result ?_ ?_⟩
        · refine ⟨r, rfl, ?_⟩
          rw [← hr]
          simp [round, Round.posts, Nat.add_assoc]
        · simpa [round, Round.posts] using readResponse_ok hr
      | error e =>
        rcases readResponse_raises _ _ _ _ _ e hr with foreign | ⟨error, rfl, counted⟩
        · exact Or.inl ⟨e, rfl, foreign⟩
        · refine Or.inr ⟨round, rfl, rfl, stands, shape.symm, rfl, .raised error ?_ ?_⟩
          · simpa [round, Round.posts] using counted
          · rintro result ⟨response, ⟨⟩, hok⟩
            simp only [round, Round.posts, Nat.zero_add, ← Nat.add_assoc] at hok hr
            rw [hr] at hok
            cases hok

theorem raisePreserving_ran (e : ProviderError) (responses : List Json) (n : Nat) :
    ∃ result, Program.Ran (raisePreserving e responses : Http α) n [] n result ∧
      (Escapes result ∨ ∃ kept, result = .error (.provider kept) ∧ kept.accounting = e.accounting) := by
  unfold raisePreserving
  cases hp : e.preserveModelResponses responses with
  | error raised =>
    refine ⟨_, Program.Ran.lift.bind_error, Or.inl ⟨raised, rfl, ?_⟩⟩
    exact preserveModelResponses_noProviderError e responses raised hp
  | ok kept =>
    refine ⟨.error (.provider kept), Program.Ran.lift_bind Program.Ran.lift, Or.inr ⟨kept, rfl, ?_⟩⟩
    unfold ProviderError.preserveModelResponses at hp
    obtain ⟨excerpts, -, rfl⟩ := Except.map_eq_ok.mp hp
    rfl

end Provider

/-- The accounting that comes with a result or with a provider error. -/
def Accounts {α : Type} (result : Except PyError (α × LLMResult)) (accounting : AttemptAccounting) :
    Prop :=
  (∃ parsed returned, result = .ok (parsed, returned) ∧ accounting = returned.accounting) ∨
    ∃ e, result = .error (.provider e) ∧ accounting = e.accounting

theorem Escapes.not_accounts {α : Type} {result : Except PyError (α × LLMResult)}
    {accounting : AttemptAccounting} (h : Escapes result) : ¬ Accounts result accounting := by
  obtain ⟨e, rfl, foreign⟩ := h
  rintro (⟨parsed, returned, ⟨⟩, -⟩ | ⟨error, he, -⟩)
  cases he
  cases foreign

/-- The accounting of a first round and its repair. -/
structure RepairAccounting (accounting : AttemptAccounting) (posts : Nat) : Prop where
  transport : accounting.transportAttempts = posts
  semantic : accounting.semanticAttempts = 2
  repair : accounting.repairUsed = true

theorem combineAccounting_repair {first second : AttemptAccounting} {posts later : Nat}
    (h : RoundAccounting first posts) (h' : RoundAccounting second later) :
    RepairAccounting (combineAccounting first second) (posts + later) :=
  ⟨congrArg₂ (· + ·) h.transport h'.transport, rfl, rfl⟩

/-- How the repair ends after a first round of so many posts. -/
def RepairEnds {α : Type} (p : Provider) (env : Exchange) (posts n : Nat) (events : List HttpEvent)
    (n' : Nat) (result : Except PyError (α × LLMResult)) : Prop :=
  Escapes result ∨ ∃ r : Round, r.start = n ∧ r.Stands p env ∧ events = r.events ∧
    n' = n + r.posts ∧ ∃ accounting, Accounts result accounting ∧
      RepairAccounting accounting (posts + r.posts)

namespace Provider

variable {α : Type} {p : Provider} {i : Interpreter} {env : Exchange} {messages : List Message}
  {model : ResponseModel α}

/-- An answer is raised with the answers before it, or the exception escapes. -/
theorem raise_ends {n n' posts : Nat} {r : Round} {e : ProviderError} {responses : List Json}
    (hs : r.start = n) (stands : r.Stands p env) (hn : n' = n + r.posts)
    (counted : RepairAccounting e.accounting (posts + r.posts)) :
    ∃ result : Except PyError (α × LLMResult),
      Program.Ran (raisePreserving e responses) n' [] n' result ∧
      RepairEnds p env posts n r.events n' result := by
  obtain ⟨result, run, escapes | ⟨kept, rfl, same⟩⟩ := raisePreserving_ran (α := α × LLMResult) e responses n'
  · exact ⟨result, run, Or.inl escapes⟩
  · refine ⟨_, run, Or.inr ⟨r, hs, stands, rfl, hn, kept.accounting, Or.inr ⟨kept, rfl, rfl⟩, ?_⟩⟩
    rwa [same]

theorem concludeRepair_ran (model : ResponseModel α) {first : LLMResult} {posts n n' : Nat} {r : Round}
    {answer : Except PyError LLMResult} (counted : RoundAccounting first.accounting posts)
    (hs : r.start = n) (stands : r.Stands p env) (hn : n' = n + r.posts) (ends : r.Ends p i env answer) :
    ∃ result, Program.Ran (p.concludeRepair i model first answer) n' [] n' result ∧
      RepairEnds p env posts n r.events n' result := by
  cases ends with
  | raised failure counted' nothing =>
    exact raise_ends hs stands hn (combineAccounting_repair counted counted')
  | returned repaired returned counted' =>
    have both := combineAccounting_repair counted counted'
    unfold concludeRepair
    dsimp only
    cases hv : p.validateResult i model repaired with
    | ok parsed =>
      refine ⟨_, Program.Ran.pure, Or.inr ⟨r, hs, stands, rfl, hn, _, Or.inl ⟨parsed, _, rfl, rfl⟩, ?_⟩⟩
      exact ⟨both.transport, rfl, rfl⟩
    | error e =>
      rcases validateResult_isModelOutput hv with foreign | ⟨error, rfl, kind⟩
      · cases e with
        | provider error => cases foreign
        | _ => exact ⟨_, Program.Ran.lift, Or.inl ⟨_, rfl, foreign⟩⟩
      · dsimp only
        rw [if_pos kind]
        exact raise_ends hs stands hn ⟨both.transport, rfl, rfl⟩

theorem repair_ran (model : ResponseModel α) (messages : List Message) {first : LLMResult}
    (refused : ProviderError) {posts : Nat} (counted : RoundAccounting first.accounting posts) (n : Nat) :
    ∃ events n' result, Program.Ran (p.repair i env model messages first refused) n events n' result ∧
      RepairEnds p env posts n events n' result := by
  unfold repair
  cases hc : sliceContent first.content with
  | error raised =>
    refine ⟨_, _, _, Program.Ran.lift.bind_error, Or.inl ⟨raised, rfl, ?_⟩⟩
    exact sliceContent_noProviderError first.content raised hc
  | ok content =>
    obtain ⟨events, n', answer, run, ends⟩ :=
      request_ran p i env (repairMessages messages content refused) n
    rcases ends with ⟨e, rfl, foreign⟩ | ⟨r, hs, -, stands, rfl, hn, ends⟩
    · have concluded : p.concludeRepair i model first (.error e) = Program.lift (.error e) := by
        cases e with
        | provider error => cases foreign
        | _ => rfl
      refine ⟨events, n', .error e, ?_, Or.inl ⟨e, rfl, foreign⟩⟩
      refine Program.Ran.lift_bind (run.attempt.bind_quiet ?_)
      rw [concluded]
      exact Program.Ran.lift
    · obtain ⟨result, concluded, repaired⟩ :=
        concludeRepair_ran model counted hs stands hn ends
      refine ⟨r.events, n', result, ?_, repaired⟩
      exact Program.Ran.lift_bind (run.attempt.bind_quiet concluded)

end Provider

def isPost : HttpEvent → Bool
  | .post _ _ => true
  | _ => false

def isRequest : HttpEvent → Bool
  | .request => true
  | _ => false

/-- The rounds of a call and what its accounting says of them. -/
structure Accounted {α : Type} (p : Provider) (i : Interpreter) (env : Exchange)
    (model : ResponseModel α) (n : Nat) (events : List HttpEvent) (rounds : List Round)
    (accounting : AttemptAccounting) : Prop where
  shape : events = rounds.flatMap Round.events
  stands : ∀ r ∈ rounds, r.Stands p env
  starts : ∀ j r, rounds[j]? = some r → r.start = n + ((rounds.take j).map Round.posts).sum
  transport : accounting.transportAttempts = events.countP isPost
  semantic : accounting.semanticAttempts = events.countP isRequest
  bounded : events.countP isRequest ≤ 2
  repair : accounting.repairUsed = true ↔ events.countP isRequest = 2
  second : events.countP isRequest = 2 ↔ ∃ first result, rounds.head? = some first ∧
    first.Returned p i env result ∧ (p.validateResult i model result).isOk = false

section Counting

variable {α : Type} {p : Provider} {i : Interpreter} {env : Exchange} {model : ResponseModel α}
  {n : Nat} {first : Round} {accounting : AttemptAccounting}

theorem countP_retryEvents (messages : List Message) (retries : List (HttpOutcome × Double)) :
    (Round.retryEvents messages retries).countP isPost = retries.length ∧
      (Round.retryEvents messages retries).countP isRequest = 0 := by
  induction retries with
  | nil => exact ⟨rfl, rfl⟩
  | cons retry retries ih =>
    have cons : Round.retryEvents messages (retry :: retries) =
        .post messages retry.1 :: .sleep retry.2 :: Round.retryEvents messages retries := rfl
    rw [cons, List.countP_cons, List.countP_cons, List.countP_cons, List.countP_cons, ih.1, ih.2]
    exact ⟨rfl, rfl⟩

theorem Round.countP_events (r : Round) :
    r.events.countP isPost = r.posts ∧ r.events.countP isRequest = 1 := by
  have counts := countP_retryEvents r.messages r.retries
  have parsed : (r.parsed.toList.map HttpEvent.parse).countP isPost = 0 ∧
      (r.parsed.toList.map HttpEvent.parse).countP isRequest = 0 := by
    cases r.parsed <;> exact ⟨rfl, rfl⟩
  rw [Round.events, List.countP_cons, List.countP_append, List.countP_cons, List.countP_cons,
    List.countP_append, List.countP_cons, counts.1, counts.2, parsed.1, parsed.2]
  exact ⟨rfl, rfl⟩

/-- The accounting of a call that made one round. -/
theorem accounted_one (hs : first.start = n) (stands : first.Stands p env)
    (counted : RoundAccounting accounting first.posts)
    (fine : ∀ result, first.Returned p i env result → (p.validateResult i model result).isOk = true) :
    Accounted p i env model n first.events [first] accounting := by
  have counts := first.countP_events
  refine ⟨by simp, by simpa using stands, ?_, ?_, ?_, ?_, ?_, ?_⟩
  · intro j r hj
    cases j with
    | zero =>
      cases hj
      simpa using hs
    | succ j => simp at hj
  · rw [counts.1, counted.transport]
  · rw [counts.2, counted.semantic]
  · omega
  · rw [counts.2, counted.repair]
    simp
  · rw [counts.2]
    constructor
    · intro h
      omega
    · rintro ⟨r, result, hr, returned, refused⟩
      cases hr
      rw [fine result returned] at refused
      cases refused

/-- The accounting of a call that made two rounds. -/
theorem accounted_two {second : Round} {result : LLMResult} (hs : first.start = n)
    (hs' : second.start = n + first.posts) (stands : first.Stands p env)
    (stands' : second.Stands p env)
    (counted : RepairAccounting accounting (first.posts + second.posts))
    (returned : first.Returned p i env result)
    (refused : (p.validateResult i model result).isOk = false) :
    Accounted p i env model n (first.events ++ second.events) [first, second] accounting := by
  have counts := first.countP_events
  have counts' := second.countP_events
  refine ⟨by simp, by simp [stands, stands'], ?_, ?_, ?_, ?_, ?_, ?_⟩
  · intro j r hj
    match j with
    | 0 =>
      cases hj
      simpa using hs
    | 1 =>
      cases hj
      simpa using hs'
    | j + 2 => simp at hj
  · rw [List.countP_append, counts.1, counts'.1, counted.transport]
  · rw [List.countP_append, counts.2, counts'.2, counted.semantic]
  · rw [List.countP_append, counts.2, counts'.2]
  · rw [List.countP_append, counts.2, counts'.2, counted.repair]
    simp
  · rw [List.countP_append, counts.2, counts'.2]
    exact ⟨fun _ => ⟨first, result, rfl, returned, refused⟩, fun _ => rfl⟩

/-- The accounting of a call that made no round. -/
theorem accounted_none (accounting : AttemptAccounting) (h : accounting = {}) :
    Accounted p i env model n [] [] accounting := by
  subst h
  refine ⟨rfl, by simp, by simp, rfl, rfl, Nat.zero_le _, by simp, ?_⟩
  simp

end Counting

namespace Provider

variable {α : Type} {p : Provider} {i : Interpreter} {env : Exchange} {model : ResponseModel α}
  {messages : List Message} {n : Nat}

/-- How a call ends: it escapes, or its rounds account for what it returns or raises. -/
def CallEnds (p : Provider) (i : Interpreter) (env : Exchange) (model : ResponseModel α) (n : Nat)
    (events : List HttpEvent) (result : Except PyError (α × LLMResult)) : Prop :=
  Escapes result ∨ ∃ rounds accounting, Accounts result accounting ∧
    Accounted p i env model n events rounds accounting

theorem concludeRound_ran (messages : List Message) {first : LLMResult} {r : Round}
    (hs : r.start = n) (stands : r.Stands p env) (returned : r.Returned p i env first)
    (counted : RoundAccounting first.accounting r.posts) :
    ∃ events n' result,
      Program.Ran (p.concludeRound i env model messages first) (n + r.posts) events n' result ∧
      CallEnds p i env model n (r.events ++ events) result := by
  have only : ∀ result, r.Returned p i env result → result = first := by
    rintro result ⟨response, hr, hok⟩
    obtain ⟨response', hr', hok'⟩ := returned
    rw [hr] at hr'
    cases hr'
    rw [hok] at hok'
    exact Except.ok.inj hok'
  unfold concludeRound
  cases hv : p.validateResult i model first with
  | ok parsed =>
    refine ⟨_, _, _, Program.Ran.pure, Or.inr ⟨[r], _, Or.inl ⟨parsed, first, rfl, rfl⟩, ?_⟩⟩
    rw [List.append_nil]
    refine accounted_one hs stands counted fun result hr => ?_
    rw [only result hr, hv]
    rfl
  | error e =>
    rcases validateResult_isModelOutput hv with foreign | ⟨error, rfl, kind⟩
    · cases e with
      | provider error => cases foreign
      | _ => exact ⟨_, _, _, Program.Ran.lift, Or.inl ⟨_, rfl, foreign⟩⟩
    · dsimp only
      rw [if_pos kind]
      obtain ⟨events, n', result, run, escapes | ⟨r', hs', stands', rfl, -, accounting, accounts, both⟩⟩ :=
        repair_ran model messages error counted (n + r.posts)
      · exact ⟨events, n', result, run, Or.inl escapes⟩
      · refine ⟨r'.events, n', result, run, Or.inr ⟨[r, r'], accounting, accounts, ?_⟩⟩
        refine accounted_two hs hs' stands stands' both returned ?_
        rw [hv]
        rfl

/-- Every call escapes, or its rounds account for what it returns or raises. -/
theorem generateJson_ran (p : Provider) (i : Interpreter) (env : Exchange) (model : ResponseModel α)
    (messages : List Message) (n : Nat) :
    ∃ events n' result, Program.Ran (p.generateJson i env model messages) n events n' result ∧
      CallEnds p i env model n events result := by
  unfold generateJson
  unfold requireJson
  split
  · refine ⟨_, _, _, Program.Ran.lift.bind_error, Or.inr ⟨[], _, Or.inr ⟨_, rfl, rfl⟩, ?_⟩⟩
    exact accounted_none _ rfl
  · cases hf : p.responseFormat model with
    | error e =>
      have foreign : e.isProvider = false := by
        unfold responseFormat at hf
        split at hf
        · exact NoProviderError.foreign _ e hf
        · cases hf
      refine ⟨_, _, _, Program.Ran.lift_bind Program.Ran.lift.bind_error, Or.inl ⟨e, rfl, foreign⟩⟩
    | ok u =>
      obtain ⟨events, n', answer, run, ends⟩ := request_ran p i env messages n
      have begun : ∀ {events n' result}, Program.Ran (do
          let first ← p.request i env messages
          p.concludeRound i env model messages first) n events n' result →
          Program.Ran (do
            Program.lift (.ok ())
            Program.lift (.ok u)
            let first ← p.request i env messages
            p.concludeRound i env model messages first) n events n' result := fun h =>
        Program.Ran.lift_bind (Program.Ran.lift_bind h)
      rcases ends with ⟨e, rfl, foreign⟩ | ⟨r, hs, -, stands, rfl, rfl, ends⟩
      · exact ⟨_, _, _, begun run.bind_error, Or.inl ⟨e, rfl, foreign⟩⟩
      · cases ends with
        | raised e counted nothing =>
          refine ⟨_, _, _, begun run.bind_error, Or.inr ⟨[r], _, Or.inr ⟨e, rfl, rfl⟩, ?_⟩⟩
          exact accounted_one hs stands counted fun result hr => absurd hr (nothing result)
        | returned first returned counted =>
          obtain ⟨events, n', result, concluded, ends⟩ :=
            concludeRound_ran messages hs stands returned counted
          exact ⟨_, _, _, begun (run.bind concluded), ends⟩

end Provider

/-- Whatever a call returns or raises as a provider error, its accounting is that of the rounds it
made, each of which retried only what may be retried and parsed at most its last response. -/
theorem generateJson_accounted {α : Type} (p : Provider) (i : Interpreter) (env : Exchange)
    (model : ResponseModel α) (messages : List Message) (n : Nat) (accounting : AttemptAccounting)
    (h : Accounts (p.generateJson i env model messages n).result accounting) :
    ∃ rounds, Accounted p i env model n ((p.generateJson i env model messages n).trace.map Prod.fst)
      rounds accounting := by
  obtain ⟨events, n', result, run, ends⟩ := p.generateJson_ran i env model messages n
  rw [run.result] at h
  rw [run.notes]
  rcases ends with escapes | ⟨rounds, accounting', accounts, accounted⟩
  · exact absurd h escapes.not_accounts
  · refine ⟨rounds, ?_⟩
    have same : accounting = accounting' := by
      rcases h with ⟨parsed, returned, rfl, rfl⟩ | ⟨e, rfl, rfl⟩
      · rcases accounts with ⟨parsed', returned', he, rfl⟩ | ⟨e, ⟨⟩, -⟩
        cases he
        rfl
      · rcases accounts with ⟨parsed', returned', ⟨⟩, -⟩ | ⟨e', he, rfl⟩
        cases he
        rfl
    rw [same]
    exact accounted

/-- A provider that makes one post in a round. -/
def singlePost : Provider where
  name := lit "p"
  model := lit "m"
  structuredOutput := .jsonSchema
  maxTransportRetries := 0
  retryBackoffSeconds := Binary64.zero
  sleep := fun _ => .ok ()

/-- The answer with this content. -/
def answering (content : Json) : Response where
  status := 200
  retryAfter := none
  requestId := none
  text := []
  json := .ok (.object [("choices", .list [.object [("message", .object [("content", content)])]])])

/-- The first post is answered with this content, and no other one is. -/
def answeredOnce (content : Json) : Exchange where
  outcome := fun n => if n = 0 then .response (answering content) else .httpError
  moment := fun _ => ⟨.zero, fun _ => none, fun _ => .error ⟨.typeError, typeError_foreign⟩⟩

def anyObject : ResponseModel Json where
  strictSchema := .ok (.obj [])
  validate := .ok

def shallow : Interpreter where
  digits := .plain
  nesting := 10

theorem generateJson_accounted_repaired : ∃ accounting,
    (∃ rounds, Accounted singlePost shallow (answeredOnce (.str (lit "\x7b"))) anyObject 0
      ((singlePost.generateJson shallow (answeredOnce (.str (lit "\x7b"))) anyObject [] 0).trace.map Prod.fst)
      rounds accounting) ∧ accounting.transportAttempts = 2 ∧ accounting.repairUsed = true :=
  ⟨_, generateJson_accounted singlePost shallow (answeredOnce (.str (lit "\x7b"))) anyObject [] 0 _
    (Or.inr ⟨_, rfl, rfl⟩), rfl, rfl⟩

end EdgecaseForge

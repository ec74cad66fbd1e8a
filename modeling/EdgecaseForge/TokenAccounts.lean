import EdgecaseForge.AttemptAccounts

namespace EdgecaseForge

open Text Effect

def HttpEvent.answer? : HttpEvent → Option Response
  | .post _ outcome => outcome.answer?
  | _ => none

/-- The below-400 responses among the outcomes of the posts. -/
def received (events : List HttpEvent) : List Response :=
  events.filterMap HttpEvent.answer?

namespace Response

/-- The usage object of a body that is an object. -/
def usage? (r : Response) : Option Json :=
  match r.json with
  | .ok (.obj fields) => ((Json.obj fields).get? (lit "usage")).filter Json.isObj
  | _ => none

/-- A count in the usage object, nought where there is none. -/
def tokens (r : Response) (key : String) : Int :=
  match r.usage?.bind fun usage => usage.get? (lit key) with
  | some (.int n) => n
  | _ => 0

/-- The counts in the usage object are natural numbers. -/
def Counts (r : Response) : Prop :=
  ∀ usage, r.usage? = some usage → ∀ key ∈ ["prompt_tokens", "completion_tokens"],
    ∀ value, usage.get? (lit key) = some value → ∃ n : Nat, value = .int n

end Response

def tokenSum (rs : List Response) (key : String) : Int :=
  (rs.map (·.tokens key)).sum

/-- What the accounting counts: the usage of the responses whose content can be read. -/
def readTokens (rs : List Response) : Usage where
  inputTokens := tokenSum (rs.filter Response.readable) "prompt_tokens"
  outputTokens := tokenSum (rs.filter Response.readable) "completion_tokens"

def Usage.add (first second : Usage) : Usage where
  inputTokens := first.inputTokens + second.inputTokens
  outputTokens := first.outputTokens + second.outputTokens

section Sums

variable {rs : List Response} {r : Response} {key : String}

theorem received_append (events later : List HttpEvent) :
    received (events ++ later) = received events ++ received later :=
  List.filterMap_append

theorem tokenSum_append (rs others : List Response) (key : String) :
    tokenSum (rs ++ others) key = tokenSum rs key + tokenSum others key := by
  rw [tokenSum, List.map_append, List.sum_append, tokenSum, tokenSum]

theorem readTokens_append (rs others : List Response) :
    readTokens (rs ++ others) = (readTokens rs).add (readTokens others) := by
  simp only [readTokens, Usage.add, List.filter_append, tokenSum_append]

theorem Usage.add_assoc (a b c : Usage) : (a.add b).add c = a.add (b.add c) := by
  simp only [Usage.add, Int.add_assoc]

theorem Usage.add_zero (a : Usage) : a.add {} = a := by
  simp only [Usage.add, Int.add_zero]

theorem Usage.zero_add (a : Usage) : Usage.add {} a = a := by
  simp only [Usage.add, Int.zero_add]

theorem readTokens_unreadable (h : r.readable = false) : readTokens [r] = {} := by
  simp [readTokens, tokenSum, h]

theorem readTokens_readable (h : r.readable = true) :
    readTokens [r] = ⟨r.tokens "prompt_tokens", r.tokens "completion_tokens"⟩ := by
  simp [readTokens, tokenSum, h]

theorem Response.tokens_nonneg (counts : r.Counts) (listed : key ∈ ["prompt_tokens", "completion_tokens"]) :
    0 ≤ r.tokens key := by
  unfold tokens
  cases hu : r.usage? with
  | none => exact Int.le_refl _
  | some usage =>
    rw [Option.bind_some]
    cases hv : usage.get? (lit key) with
    | none => exact Int.le_refl _
    | some value =>
      obtain ⟨n, rfl⟩ := counts usage hu key listed value hv
      exact Int.natCast_nonneg n

/-- A sum counts everything exactly if nothing is left out but noughts. -/
theorem tokenSum_filter (nonneg : ∀ r ∈ rs, 0 ≤ r.tokens key) :
    tokenSum (rs.filter Response.readable) key = tokenSum rs key ↔
      ∀ r ∈ rs, r.readable = true ∨ r.tokens key = 0 := by
  have least : ∀ rs : List Response, (∀ r ∈ rs, 0 ≤ r.tokens key) →
      tokenSum (rs.filter Response.readable) key ≤ tokenSum rs key := by
    intro rs
    induction rs with
    | nil => exact fun _ => Int.le_refl _
    | cons r rs ih =>
      intro nonneg
      obtain ⟨here, rest⟩ := List.forall_mem_cons.mp nonneg
      have := ih rest
      rw [List.filter_cons]
      split
      · simp only [tokenSum, List.map_cons, List.sum_cons] at this ⊢
        omega
      · simp only [tokenSum, List.map_cons, List.sum_cons] at this ⊢
        omega
  induction rs with
  | nil => simp
  | cons r rs ih =>
    obtain ⟨here, rest⟩ := List.forall_mem_cons.mp nonneg
    have below := least rs rest
    rw [List.forall_mem_cons, List.filter_cons]
    refine Iff.trans ?_ (and_congr Iff.rfl (ih rest))
    split
    next readable =>
      simp only [tokenSum, List.map_cons, List.sum_cons] at below ⊢
      constructor
      · exact fun same => ⟨Or.inl readable, by omega⟩
      · rintro ⟨-, same⟩
        omega
    next unreadable =>
      simp only [tokenSum, List.map_cons, List.sum_cons] at below ⊢
      constructor
      · exact fun same => ⟨Or.inr (by omega), by omega⟩
      · rintro ⟨readable | zero, same⟩
        · exact absurd readable unreadable
        · omega

end Sums

section Reading

variable {p : Provider} {i : Interpreter} {elapsed : Seconds} {attempts : Nat} {response : Response}
  {result : LLMResult}

theorem get?_of_dictGet {value found : Json} {key : String} {default : Json}
    (h : dictGet value key default = .ok found) : value.isObj = true ∧ found = (value.get? (lit key)).getD default := by
  cases value with
  | obj fields => exact ⟨rfl, (Except.ok.inj h).symm⟩
  | _ => cases h

/-- A natural count is read as it stands. -/
theorem pyInt_count {usage found : Json} {key : String} {n : Int}
    (natural : ∀ value, usage.get? (lit key) = some value → ∃ n : Nat, value = .int n)
    (h : dictGet usage key (.int 0) = .ok found) (hn : pyInt i.digits found = .ok n) :
    (match usage.get? (lit key) with
      | some (.int n) => n
      | _ => 0) = n := by
  obtain ⟨-, rfl⟩ := get?_of_dictGet h
  cases hv : usage.get? (lit key) with
  | none =>
    rw [hv] at hn
    exact Except.ok.inj hn
  | some value =>
    obtain ⟨m, rfl⟩ := natural value hv
    rw [hv] at hn
    exact Except.ok.inj hn

/-- `payload.get("usage") or {}`. -/
def usageOrEmpty (payload : Json) : Json :=
  let usage := (payload.get? (lit "usage")).getD .null
  if usage.truthy then usage else .obj []

/-- The counts are those of the object that they are read from. -/
theorem tokens_usageOrEmpty {payload : Json} (body : response.json = .ok payload) (object : payload.isObj = true)
    (usage : (usageOrEmpty payload).isObj = true) (key : String) :
    response.tokens key = (match (usageOrEmpty payload).get? (lit key) with
      | some (.int n) => n
      | _ => 0) ∧ ((usageOrEmpty payload).get? (lit key) ≠ none → response.usage? = some (usageOrEmpty payload)) := by
  cases payload with
  | obj fields =>
    have there : response.usage? = ((Json.obj fields).get? (lit "usage")).filter Json.isObj := by
      rw [Response.usage?, body]
    rw [Response.tokens, there]
    unfold usageOrEmpty at usage ⊢
    cases found : (Json.obj fields).get? (lit "usage") with
    | none => exact ⟨rfl, fun other => absurd rfl other⟩
    | some value =>
      rw [found, Option.getD_some] at usage
      rw [Option.getD_some]
      by_cases truthy : value.truthy = true
      · rw [if_pos truthy] at usage ⊢
        rw [Option.filter_some, if_pos usage]
        exact ⟨rfl, fun _ => rfl⟩
      · rw [if_neg truthy]
        refine ⟨?_, fun other => absurd rfl other⟩
        cases value with
        | obj entries =>
          cases entries with
          | nil => rfl
          | cons _ _ => exact absurd rfl truthy
        | _ => rfl
  | _ => cases object

/-- What is read from a response is its usage. -/
theorem readResponse_tokens (counts : response.Counts)
    (h : p.readResponse i elapsed attempts response = .ok result) : result.usage = readTokens [response] := by
  unfold Provider.readResponse at h
  obtain ⟨payload, hp, h⟩ := Except.bind_eq_ok.mp h
  obtain ⟨⟨choice, content⟩, hm, h⟩ := Except.bind_eq_ok.mp h
  obtain ⟨usage, hu, h⟩ := Except.bind_eq_ok.mp h
  obtain ⟨reason, -, h⟩ := Except.bind_eq_ok.mp h
  obtain ⟨prompt, hprompt, h⟩ := Except.bind_eq_ok.mp h
  obtain ⟨input, hinput, h⟩ := Except.bind_eq_ok.mp h
  obtain ⟨completion, hcompletion, h⟩ := Except.bind_eq_ok.mp h
  obtain ⟨output, houtput, h⟩ := Except.bind_eq_ok.mp h
  cases h
  have body : response.json = .ok payload := by
    cases hj : response.json with
    | error e =>
      rw [hj] at hp
      cases hp
    | ok value =>
      rw [hj] at hp
      exact congrArg Except.ok (Except.ok.inj hp)
  have readable : response.readable = true := by
    simp only [Response.readable, body]
    cases hc : messageContent payload with
    | error e =>
      rw [hc] at hm
      cases hm
    | ok found => rfl
  obtain ⟨object, rfl⟩ := get?_of_dictGet hu
  change dictGet (usageOrEmpty payload) "prompt_tokens" (.int 0) = .ok prompt at hprompt
  change dictGet (usageOrEmpty payload) "completion_tokens" (.int 0) = .ok completion at hcompletion
  obtain ⟨inner, -⟩ := get?_of_dictGet hprompt
  have natural : ∀ key ∈ ["prompt_tokens", "completion_tokens"], ∀ value,
      (usageOrEmpty payload).get? (lit key) = some value → ∃ n : Nat, value = .int n := by
    intro key listed value found
    have known := (tokens_usageOrEmpty body object inner key).2 (by rw [found]; exact Option.some_ne_none value)
    exact counts _ known key listed value found
  have input' := pyInt_count (natural _ (by simp)) hprompt hinput
  have output' := pyInt_count (natural _ (by simp)) hcompletion houtput
  rw [readTokens_readable readable, (tokens_usageOrEmpty body object inner _).1, input',
    (tokens_usageOrEmpty body object inner _).1, output']

end Reading

/-- The usage of a value, or of an error, is the prior one with what was read from the responses. -/
def Tallies {α : Type} (usageOf : α → Usage) (prior : Usage) (events : List HttpEvent) (x : Except PyError α) : Prop :=
  (∀ r ∈ received events, r.Counts) →
    (∀ a, x = .ok a → usageOf a = prior.add (readTokens (received events))) ∧
      ∀ e, x = .error (.provider e) → e.accounting.usage = prior.add (readTokens (received events))

section Tallies

variable {α β : Type} {usageOf : α → Usage} {usageOf' : β → Usage} {prior : Usage}

theorem readTokens_nil : readTokens [] = {} := rfl

theorem Tallies.ok {a : α} (h : usageOf a = prior) : Tallies usageOf prior [] (.ok a) := by
  refine fun _ => ⟨?_, fun _ h => nomatch h⟩
  rintro _ ⟨⟩
  change usageOf a = prior.add (readTokens [])
  rw [h, readTokens_nil, Usage.add_zero]

theorem Tallies.error {e : ProviderError} (h : e.accounting.usage = prior) :
    Tallies usageOf prior [] (.error (.provider e)) := by
  refine fun _ => ⟨fun _ h => (nomatch h), ?_⟩
  rintro _ ⟨⟩
  change e.accounting.usage = prior.add (readTokens [])
  rw [h, readTokens_nil, Usage.add_zero]

theorem Tallies.foreign {events : List HttpEvent} {e : PyError} (h : e.isProvider = false) :
    Tallies usageOf prior events (.error e) := by
  refine fun _ => ⟨fun _ h => (nomatch h), ?_⟩
  rintro _ ⟨⟩
  cases h

/-- The second part of a sequence starts with what the first one has tallied. -/
theorem Tallies.bind {m : Http α} {f : α → Http β} (hm : m.Yields (Tallies usageOf prior))
    (hf : ∀ a, (f a).Yields (Tallies usageOf' (usageOf a))) : (m >>= f).Yields (Tallies usageOf' prior) := by
  refine hm.bind (fun events e h counts => ⟨fun _ h => (nomatch h), ?_⟩) fun events a h => ?_
  · rintro error ⟨⟩
    exact (h counts).2 error rfl
  refine (hf a).imp fun later x rest counts => ?_
  rw [received_append] at counts ⊢
  obtain ⟨before, after⟩ := List.forall_mem_append.mp counts
  obtain ⟨ok, error⟩ := rest after
  rw [readTokens_append, ← Usage.add_assoc, ← (h before).1 a rfl]
  exact ⟨ok, error⟩

end Tallies

namespace Provider

variable {α : Type} {p : Provider} {i : Interpreter} {env : Exchange} {messages : List Message}

/-- The loop over the attempts receives the response that it comes to, and none where it fails. -/
def Comes (events : List HttpEvent) (x : Except PyError (Nat × Option Response)) : Prop :=
  (∀ attempt response, x = .ok (attempt, response) → ∃ r, response = some r ∧ received events = [r]) ∧
    ∀ e, x = .error (.provider e) → received events = [] ∧ e.accounting.usage = {}

theorem retriable_unanswered {now : Moment} {outcome : HttpOutcome} (h : Retriable now outcome) :
    outcome.answer? = none := by
  cases outcome with
  | response r =>
    rcases h with server | ⟨quota, -⟩
    · exact HttpOutcome.answer?_high (by omega)
    · exact HttpOutcome.answer?_high (by omega)
  | _ => rfl

theorem received_post {outcome : HttpOutcome} (events : List HttpEvent) :
    received (.post messages outcome :: events) = outcome.answer?.toList ++ received events := by
  cases h : outcome.answer? with
  | none => exact List.filterMap_cons_none (f := HttpEvent.answer?) h
  | some r => exact List.filterMap_cons_some (f := HttpEvent.answer?) h

theorem Comes.foreign {events : List HttpEvent} {e : PyError} (h : e.isProvider = false) : Comes events (.error e) := by
  refine ⟨fun _ _ h => (nomatch h), ?_⟩
  rintro _ ⟨⟩
  cases h

theorem Comes.after {events : List HttpEvent} {outcome : HttpOutcome} {delay : Double}
    {x : Except PyError (Nat × Option Response)} (unanswered : outcome.answer? = none) (h : Comes events x) :
    Comes (.post messages outcome :: .sleep delay :: events) x := by
  have same : received (.post messages outcome :: .sleep delay :: events) = received events := by
    rw [received_post, unanswered]
    rfl
  rw [Comes, same]
  exact h

theorem attempts_comes_step {attempt : Nat} {rest : List Nat} (within : attempt ≤ p.maxTransportRetries)
    (next : attempt < p.maxTransportRetries → ∀ last, (p.attempts env messages rest last).Yields Comes)
    (last : Nat × Option Response) : (p.attempts env messages (attempt :: rest) last).Yields Comes := by
  intro n
  have way := judge_cases (env.moment (n + 1)) last.2 (env.outcome n) within
  cases hv : p.judge (env.moment (n + 1)) attempt last.2 (env.outcome n) with
  | error e =>
    rw [hv] at way
    have run : Program.Ran (p.attempts env messages (attempt :: rest) last) n _ _ _ := attempts_error hv
    rw [run.notes, run.result]
    rcases way with foreign | ⟨error, rfl, unanswered, response, counted⟩
    · exact .foreign foreign
    · refine ⟨fun _ _ h => (nomatch h), ?_⟩
      rintro _ ⟨⟩
      rw [received_post, unanswered, counted]
      exact ⟨rfl, rfl⟩
  | ok verdict =>
    rw [hv] at way
    cases verdict with
    | done r =>
      obtain ⟨answered, low⟩ := way
      have run : Program.Ran (p.attempts env messages (attempt :: rest) last) n _ _ _ := attempts_done hv
      rw [run.notes, run.result, answered]
      refine ⟨?_, fun _ h => nomatch h⟩
      rintro _ _ ⟨⟩
      refine ⟨r, rfl, ?_⟩
      rw [received_post, HttpOutcome.answer?, if_pos low]
      rfl
    | again delay =>
      obtain ⟨retriable, more⟩ := way
      cases hs : p.sleep delay with
      | error e =>
        have run : Program.Ran (p.attempts env messages (attempt :: rest) last) n _ _ _ := attempts_asleep hv hs
        rw [run.notes, run.result]
        exact .foreign e.foreign
      | ok u =>
        have later := next more (attempt, (env.outcome n).response?.or last.2) (n + 1)
        have after : Program.Ran (p.attempts env messages rest (attempt, (env.outcome n).response?.or last.2))
          (n + 1) _ _ _ := ⟨rfl, rfl, rfl⟩
        have run := attempts_again hv hs after
        rw [run.notes, run.result]
        exact later.after (retriable_unanswered retriable)

theorem attempts_comes {len first : Nat} (h : first + len = p.maxTransportRetries) (last : Nat × Option Response) :
    (p.attempts env messages (List.range' first (len + 1)) last).Yields Comes := by
  induction len generalizing first last with
  | zero => exact attempts_comes_step (by omega) (fun more => absurd more (by omega)) last
  | succ len ih =>
    rw [List.range'_succ]
    exact attempts_comes_step (by omega) (fun more last => ih (by omega) last) last

/-- A request tallies the usage of the response that it receives, if the content of that can be read. -/
theorem request_tallies (p : Provider) (i : Interpreter) (env : Exchange) (messages : List Message) :
    (p.request i env messages).Yields (Tallies LLMResult.usage {}) := by
  have loop : (p.attempts env messages (List.range' 0 (p.maxTransportRetries + 1)) (0, none)).Yields Comes :=
    attempts_comes (Nat.zero_add _) (0, none)
  rw [← List.range_eq_range'] at loop
  have begun : (Program.mark HttpEvent.request : Http Unit).Yields fun events x =>
      received events = [] ∧ x = .ok () := fun n => ⟨rfl, rfl⟩
  refine begun.bind (fun events e h => nomatch h.2) fun events u h => ?_
  have quiet := h.1
  refine loop.bind (fun later e h counts => ⟨fun _ h => (nomatch h), ?_⟩) fun later found h => ?_
  · rintro error ⟨⟩
    obtain ⟨nothing, zero⟩ := h.2 error rfl
    rw [received_append, quiet, nothing, zero]
    rfl
  · obtain ⟨attempt, response⟩ := found
    obtain ⟨r, rfl, single⟩ := h.1 attempt response rfl
    intro n
    have parsed : ∀ more : List HttpEvent, received (events ++ (later ++ more)) = r :: received more := by
      intro more
      rw [received_append, received_append, quiet, single]
      rfl
    change Tallies LLMResult.usage {} (events ++ (later ++ [.parse r]))
      (p.readResponse i (env.moment n).elapsed (attempt + 1) r)
    intro counts
    rw [parsed] at counts ⊢
    have nothing : received [.parse r] = [] := rfl
    rw [nothing] at counts ⊢
    refine ⟨fun result ok => ?_, fun e error => ?_⟩
    · rw [Usage.zero_add, readResponse_tokens (counts r (.head _)) ok]
    · obtain ⟨unreadable, counted⟩ := readResponse_error error
      rw [Usage.zero_add, readTokens_unreadable unreadable, counted]
      rfl

section Repair

variable {model : ResponseModel α} {first : LLMResult} {prior : Usage} {usageOf : α → Usage}

theorem raisePreserving_tallies {e : ProviderError} (responses : List Json) (h : e.accounting.usage = prior) :
    (raisePreserving e responses : Http α).Yields (Tallies usageOf prior) := by
  intro n
  unfold raisePreserving
  cases hp : e.preserveModelResponses responses with
  | error raised => exact .foreign (preserveModelResponses_noProviderError e responses raised hp)
  | ok kept =>
    unfold ProviderError.preserveModelResponses at hp
    obtain ⟨excerpts, -, rfl⟩ := Except.map_eq_ok.mp hp
    exact .error h

/-- The second round adds what it has tallied to the usage of the first. -/
theorem concludeRepair_tallies {answer : Except PyError LLMResult} {usage : Usage}
    (ok : ∀ repaired, answer = .ok repaired → repaired.usage = usage)
    (error : ∀ e, answer = .error (.provider e) → e.accounting.usage = usage) :
    (p.concludeRepair i model first answer).Yields (Tallies (fun found => found.2.usage) (first.usage.add usage)) := by
  cases answer with
  | ok repaired =>
    have both : (combineResults first repaired).usage = first.usage.add usage := by
      rw [← ok repaired rfl]
      rfl
    unfold concludeRepair
    dsimp only
    cases hv : p.validateResult i model repaired with
    | ok parsed => exact Program.Yields.pure (.ok both)
    | error e =>
      rcases validateResult_isModelOutput hv with foreign | ⟨refused, rfl, kind⟩
      · cases e with
        | provider _ => cases foreign
        | _ => exact Program.Yields.lift (.foreign rfl)
      · dsimp only
        rw [if_pos kind]
        exact raisePreserving_tallies _ both
  | error e =>
    cases e with
    | provider failure =>
      refine raisePreserving_tallies _ ?_
      rw [← error failure rfl]
      rfl
    | _ => exact Program.Yields.lift (.foreign rfl)

theorem repair_tallies (refused : ProviderError) :
    (p.repair i env model messages first refused).Yields
      (Tallies (fun found => found.2.usage) first.usage) := by
  intro n
  unfold repair
  cases hc : sliceContent first.content with
  | error raised => exact .foreign (sliceContent_noProviderError first.content raised hc)
  | ok content =>
    have asked : (p.request i env (repairMessages messages content refused)).attempt.Yields fun events x =>
        ∃ answer, x = .ok answer ∧ Tallies LLMResult.usage {} events answer :=
      fun n => ⟨_, rfl, p.request_tallies i env _ n⟩
    have round : ((p.request i env (repairMessages messages content refused)).attempt >>=
        p.concludeRepair i model first).Yields (Tallies (fun found => found.2.usage) first.usage) := by
      refine asked.bind (fun events e h => ?_) fun events answer h m counts => ?_
      · obtain ⟨_, same, -⟩ := h
        cases same
      · obtain ⟨_, same, tallied⟩ := h
        cases same
        rw [received_append] at counts
        obtain ⟨before, after⟩ := List.forall_mem_append.mp counts
        obtain ⟨ok, error⟩ := tallied before
        rw [Usage.zero_add] at ok error
        rw [received_append, readTokens_append, ← Usage.add_assoc]
        exact concludeRepair_tallies ok error m after
    exact round n

theorem concludeRound_tallies (first : LLMResult) :
    (p.concludeRound i env model messages first).Yields (Tallies (fun found => found.2.usage) first.usage) := by
  unfold concludeRound
  cases hv : p.validateResult i model first with
  | ok parsed => exact Program.Yields.pure (.ok rfl)
  | error e =>
    rcases validateResult_isModelOutput hv with foreign | ⟨refused, rfl, kind⟩
    · cases e with
      | provider _ => cases foreign
      | _ => exact Program.Yields.lift (.foreign rfl)
    · dsimp only
      rw [if_pos kind]
      exact repair_tallies refused

theorem generateJson_tallies (p : Provider) (i : Interpreter) (env : Exchange) (model : ResponseModel α)
    (messages : List Message) :
    (p.generateJson i env model messages).Yields (Tallies (fun found => found.2.usage) {}) := by
  have called : (p.request i env messages >>= p.concludeRound i env model messages).Yields
      (Tallies (fun found => found.2.usage) {}) :=
    Tallies.bind (p.request_tallies i env messages) concludeRound_tallies
  have capable : (Program.lift p.requireJson : Http Unit).Yields (Tallies (fun _ => {}) {}) := by
    unfold requireJson
    split
    · exact Program.Yields.lift (.error rfl)
    · exact Program.Yields.lift (.ok rfl)
  have formatted : (Program.lift (p.responseFormat model) : Http Unit).Yields (Tallies (fun _ => {}) {}) := by
    cases hf : p.responseFormat model with
    | ok u => exact Program.Yields.lift (.ok rfl)
    | error e =>
      unfold responseFormat at hf
      split at hf
      · exact Program.Yields.lift (.foreign (NoProviderError.foreign _ e hf))
      · cases hf
  exact Tallies.bind capable fun _ => Tallies.bind formatted fun _ => called

end Repair

end Provider

/-- The below-400 responses that a call receives. -/
def answers {α : Type} (p : Provider) (i : Interpreter) (env : Exchange) (model : ResponseModel α)
    (messages : List Message) (n : Nat) : List Response :=
  received ((p.generateJson i env model messages n).trace.map Prod.fst)

/-- The accounting of a call counts the usage of the responses whose content can be read. -/
theorem Accounts.usage {α : Type} {accounting : AttemptAccounting} {events : List HttpEvent}
    {x : Except PyError (α × LLMResult)} (tallied : Tallies (fun found => found.2.usage) {} events x)
    (counts : ∀ r ∈ received events, r.Counts) (h : Accounts x accounting) :
    accounting.usage = readTokens (received events) := by
  obtain ⟨ok, error⟩ := tallied counts
  rw [Usage.zero_add] at ok error
  rcases h with ⟨parsed, returned, rfl, rfl⟩ | ⟨e, rfl, rfl⟩
  · exact ok _ rfl
  · exact error e rfl

/-- The tokens of a call are those of all the below-400 responses exactly if each of them whose content
cannot be read counts nothing. -/
theorem generateJson_tokens {α : Type} (p : Provider) (i : Interpreter) (env : Exchange) (model : ResponseModel α)
    (messages : List Message) (n : Nat) (accounting : AttemptAccounting)
    (h : Accounts (p.generateJson i env model messages n).result accounting)
    (counts : ∀ r ∈ answers p i env model messages n, r.Counts) :
    (accounting.usage.inputTokens = tokenSum (answers p i env model messages n) "prompt_tokens" ∧
      accounting.usage.outputTokens = tokenSum (answers p i env model messages n) "completion_tokens") ↔
      ∀ r ∈ answers p i env model messages n,
        r.readable = true ∨ (r.tokens "prompt_tokens" = 0 ∧ r.tokens "completion_tokens" = 0) := by
  have usage : accounting.usage = readTokens (answers p i env model messages n) :=
    h.usage (p.generateJson_tallies i env model messages n) counts
  have nonneg : ∀ key ∈ ["prompt_tokens", "completion_tokens"],
      ∀ r ∈ answers p i env model messages n, 0 ≤ r.tokens key :=
    fun key listed r hr => Response.tokens_nonneg (counts r hr) listed
  have prompt := tokenSum_filter (nonneg "prompt_tokens" (by simp))
  have completion := tokenSum_filter (nonneg "completion_tokens" (by simp))
  rw [usage]
  refine (and_congr prompt completion).trans ?_
  constructor
  · rintro ⟨input, output⟩ r hr
    rcases input r hr with readable | none
    · exact Or.inl readable
    · exact (output r hr).imp_right fun none' => ⟨none, none'⟩
  · intro all
    exact ⟨fun r hr => (all r hr).imp_right And.left, fun r hr => (all r hr).imp_right And.right⟩

section Metered

/-- An answer with a usage object, and with these choices. -/
def metered (choices : Json) : Response where
  status := 200
  retryAfter := none
  requestId := none
  text := []
  json := .ok (.object [("choices", choices),
    ("usage", .object [("prompt_tokens", .int 5), ("completion_tokens", .int 7)])])

def meteredOnce (choices : Json) : Exchange where
  outcome := fun n => if n = 0 then .response (metered choices) else .httpError
  moment := fun _ => ⟨.zero, fun _ => none, fun _ => .error ⟨.typeError, typeError_foreign⟩⟩

def meteredUsage : Json :=
  .object [("prompt_tokens", .int 5), ("completion_tokens", .int 7)]

theorem metered_usage (choices : Json) : (metered choices).usage? = some meteredUsage := by
  have found : (Json.object [("choices", choices), ("usage", meteredUsage)]).get? (lit "usage") = some meteredUsage := by
    rw [Json.get?_object]
    rfl
  change ((Json.object [("choices", choices), ("usage", meteredUsage)]).get? (lit "usage")).filter Json.isObj = _
  rw [found]
  rfl

theorem metered_counts (choices : Json) : (metered choices).Counts := by
  intro usage found key listed value hv
  rw [metered_usage] at found
  cases found
  rw [meteredUsage, Json.get?_object] at hv
  simp only [List.mem_cons, List.not_mem_nil, or_false] at listed
  obtain rfl | rfl := listed
  · cases hv
    exact ⟨5, rfl⟩
  · cases hv
    exact ⟨7, rfl⟩

/-- The tokens of an answer without choices are lost. -/
theorem generateJson_lost : ∃ accounting,
    Accounts (singlePost.generateJson shallow (meteredOnce (.list [])) anyObject [] 0).result accounting ∧
      (∀ r ∈ answers singlePost shallow (meteredOnce (.list [])) anyObject [] 0, r.Counts) ∧
      accounting.usage.inputTokens = 0 ∧
      tokenSum (answers singlePost shallow (meteredOnce (.list [])) anyObject [] 0) "prompt_tokens" = 5 := by
  have single : answers singlePost shallow (meteredOnce (.list [])) anyObject [] 0 = [metered (.list [])] := rfl
  rw [single]
  exact ⟨_, Or.inr ⟨_, rfl, rfl⟩, List.forall_mem_singleton.mpr (metered_counts _), rfl, rfl⟩

def meteredAnswer : Json :=
  .list [.object [("message", .object [("content", .str (lit "\x7b\x7d"))])]]

theorem generateJson_tokens_metered : ∃ accounting,
    Accounts (singlePost.generateJson shallow (meteredOnce meteredAnswer) anyObject [] 0).result accounting ∧
      ((accounting.usage.inputTokens =
          tokenSum (answers singlePost shallow (meteredOnce meteredAnswer) anyObject [] 0) "prompt_tokens" ∧
        accounting.usage.outputTokens =
          tokenSum (answers singlePost shallow (meteredOnce meteredAnswer) anyObject [] 0) "completion_tokens") ↔
        ∀ r ∈ answers singlePost shallow (meteredOnce meteredAnswer) anyObject [] 0,
          r.readable = true ∨ (r.tokens "prompt_tokens" = 0 ∧ r.tokens "completion_tokens" = 0)) := by
  have single : answers singlePost shallow (meteredOnce meteredAnswer) anyObject [] 0 = [metered meteredAnswer] := rfl
  have counts : ∀ r ∈ answers singlePost shallow (meteredOnce meteredAnswer) anyObject [] 0, r.Counts := by
    rw [single]
    exact List.forall_mem_singleton.mpr (metered_counts _)
  have returned : Accounts (singlePost.generateJson shallow (meteredOnce meteredAnswer) anyObject [] 0).result _ :=
    Or.inl ⟨_, _, rfl, rfl⟩
  exact ⟨_, returned, generateJson_tokens _ _ _ _ _ _ _ returned counts⟩

end Metered

end EdgecaseForge

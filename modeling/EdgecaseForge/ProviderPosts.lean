import EdgecaseForge.EffectCore
import EdgecaseForge.PyNumbers

namespace EdgecaseForge

open Text Effect

/-- A response as the HTTP client presents it. -/
structure Response where
  status : Nat
  retryAfter : Option Str
  requestId : Option Str
  text : Str
  json : Except OtherError Json

inductive HttpOutcome
  | timeout
  | httpError
  | response (r : Response)

def HttpOutcome.response? : HttpOutcome → Option Response
  | .response r => some r
  | _ => none

structure Message where
  role : Str
  content : Json

inductive StructuredOutputMode
  | none
  | jsonObject
  | jsonSchema
  deriving DecidableEq

structure Provider where
  name : Str
  model : Str
  structuredOutput : StructuredOutputMode
  maxTransportRetries : Nat
  retryBackoffSeconds : Double
  sleep : Double → Except OtherError Unit

/-- What the clocks of a run say once a post is done, and how texts are read as numbers. -/
structure Moment where
  elapsed : Seconds
  float : Str → Option Double
  dateSeconds : Str → Except OtherError Double

/-- What a run of the provider meets: the outcome of each post, and the moment after each. -/
structure Exchange where
  outcome : Nat → HttpOutcome
  moment : Nat → Moment

inductive HttpEvent
  | request
  | post (messages : List Message) (outcome : HttpOutcome)
  | sleep (delay : Double)
  | parse (response : Response)

/-- A program over the number of posts made. -/
abbrev Http (α : Type) := Program Nat HttpEvent PyError α

def sixty : Double :=
  Binary64.ofRat 60

/-- `0 <= retry_after <= 60`. -/
def withinMinute (delay : Double) : Bool :=
  Binary64.zero.le delay && delay.le sixty

/-- `_parse_retry_after`. -/
def parseRetryAfter (now : Moment) : Option Str → Except PyError (Option Double)
  | none => .ok none
  | some value =>
    match now.float value with
    | some seconds => .ok (some seconds)
    | none =>
      match now.dateSeconds value with
      | .ok seconds => .ok (some (Binary64.zero.max seconds))
      | .error ⟨.typeError, _⟩ => .ok none
      | .error ⟨e, _⟩ => if e.isValueError then .ok none else .error e

def quotaMarkers : List Str :=
  [lit "per day", lit "per_day", lit "perday", lit "daily quota", lit "requests per day"]

def isHardQuota (response : Response) : Bool :=
  quotaMarkers.any (Text.contains (lower response.text))

/-- A tuple of a text unless it is missing or empty. -/
def ifText : Option Str → List Str
  | some s => if s = [] then [] else [s]
  | none => []

def requestAccounting (elapsed : Seconds) (attempts : Nat) (response : Option Response) :
    AttemptAccounting where
  latencySeconds := elapsed
  semanticAttempts := 1
  transportAttempts := attempts
  requestIds := ifText (response.bind (·.requestId))

namespace Provider

def backoff (p : Provider) (attempt : Nat) : Except PyError Double :=
  match Binary64.ofInt (2 ^ attempt) with
  | some power => .ok (p.retryBackoffSeconds.mul power)
  | none => .error .overflowError

def error (p : Provider) (kind : ProviderErrorKind) (problem : Str) (accounting : AttemptAccounting) :
    PyError :=
  .provider { kind, message := p.name ++ problem, accounting }

/-- What an attempt comes to: another one after a wait, or a response to parse. -/
inductive Verdict
  | again (delay : Double)
  | done (response : Response)

/-- What `_request` makes of the outcome of a post. -/
def judge (p : Provider) (now : Moment) (attempt : Nat) (previous : Option Response) :
    HttpOutcome → Except PyError Verdict
  | .timeout =>
    if attempt = p.maxTransportRetries then
      .error (p.error .providerTimeout (lit " request timed out")
        (requestAccounting now.elapsed (attempt + 1) previous))
    else (p.backoff attempt).map .again
  | .httpError =>
    .error (p.error .providerUnavailable (lit " request failed")
      (requestAccounting now.elapsed (attempt + 1) previous))
  | .response r =>
    let accounting := requestAccounting now.elapsed (attempt + 1) (some r)
    if r.status = 401 ∨ r.status = 403 then
      .error (p.error .authentication (lit " rejected the API key") accounting)
    else if r.status = 429 then do
      let retryAfter ← parseRetryAfter now r.retryAfter
      let message := if isHardQuota r then lit " quota exhausted" else lit " rate limit reached"
      let refused := p.error (.rateLimit retryAfter) message accounting
      match retryAfter with
      | some delay =>
        if !isHardQuota r && withinMinute delay && attempt < p.maxTransportRetries then
          .ok (.again delay)
        else .error refused
      | none => .error refused
    else if 500 ≤ r.status then do
      let retryAfter ← parseRetryAfter now r.retryAfter
      if attempt < p.maxTransportRetries then
        let delay ← match retryAfter.filter withinMinute with
          | some delay => .ok delay
          | none => p.backoff attempt
        .ok (.again (delay.min sixty))
      else .error (p.error .providerUnavailable (lit " is temporarily unavailable") accounting)
    else if 400 ≤ r.status then
      .error (p.error .providerUnavailable (lit " returned HTTP " ++ Json.intText r.status) accounting)
    else .ok (.done r)

def posted : Http Nat :=
  Program.inspect .ok

def post (env : Exchange) (messages : List Message) : Http HttpOutcome := do
  let n ← posted
  Program.act (.post messages (env.outcome n)) fun n => (n + 1, .ok ())
  pure (env.outcome n)

def pause (p : Provider) (delay : Double) : Http Unit :=
  Program.act (.sleep delay) fun n => (n, (p.sleep delay).mapError OtherError.error)

/-- The loop over the attempts, with the attempt and the response it has come to. -/
def attempts (p : Provider) (env : Exchange) (messages : List Message) :
    List Nat → Nat × Option Response → Http (Nat × Option Response)
  | [], last => pure last
  | attempt :: rest, (_, response) => do
    let outcome ← post env messages
    let n ← posted
    let verdict ← Program.lift (p.judge (env.moment n) attempt response outcome)
    match verdict with
    | .done r => pure (attempt, some r)
    | .again delay => do
      p.pause delay
      p.attempts env messages rest (attempt, outcome.response?.or response)

end Provider

end EdgecaseForge

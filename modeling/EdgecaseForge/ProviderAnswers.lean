import EdgecaseForge.ProviderPosts

namespace EdgecaseForge

open Text Effect

/-- What a call knows of a response model: its strict schema, and its validator, which gives the
details of an error. -/
structure ResponseModel (α : Type) where
  strictSchema : Except OtherError Json
  validate : Json → Except Str α

/-- The limits of the interpreter, and the digits it knows. -/
structure Interpreter where
  digits : DigitTable
  nesting : Nat

/-- The choice of a payload and the content of its message. -/
def messageContent (payload : Json) : Except PyError (Json × Json) := do
  let choices ← subscript payload "choices"
  let choice ← firstItem choices
  let message ← subscript choice "message"
  let content ← subscript message "content"
  pure (choice, content)

def fence : Str :=
  lit "```"

/-- `_strip_json_fence`. -/
def stripJsonFence (content : Str) : Str :=
  let value := strip content
  let value :=
    if startsWith value (lit "```json") then value.drop 7
    else if startsWith value fence then value.drop 3
    else value
  let value := if endsWith value fence then value.take (value.length - 3) else value
  strip value

/-- `_extract_first_json_value`. -/
def extractFirstJsonValue (nesting : Nat) (content : Str) : Except PyError Json :=
  let value := stripJsonFence content
  match find value Json.openBrace with
  | none => .error (.jsonDecodeError 0)
  | some at_ => ((Json.rawDecode nesting (value.drop at_)).map Prod.fst).mapError (failureError value)

/-- `json.loads(content)`. -/
def loadsContent (nesting : Nat) (content : Str) : Except PyError Json :=
  (Json.loadsWithin nesting content).mapError (failureError content)

/-- `_sanitized_error`. -/
def sanitizedError (message : Str) : Str :=
  (replace message lineFeed 0x20).take 2000

def truncatedReasons : List Str :=
  [lit "length", lit "max_tokens", lit "max_token"]

/-- `_is_truncated_finish_reason`. -/
def isTruncatedFinishReason : Option Str → Bool
  | none => false
  | some value => truncatedReasons.contains (replace (lower (strip value)) 0x2D 0x5F)

/-- `_looks_like_truncated_json`. -/
def looksLikeTruncatedJson (content : Str) : Bool :=
  let value := rstrip content
  startsWith value (lit "\x7b") && ["[", "\x7b", ",", ":"].any fun last => endsWith value (lit last)

/-- `content[:12000]`. -/
def sliceContent : Json → Except PyError Json
  | .str s => .ok (.str (s.take 12000))
  | .list items => .ok (.list (items.take 12000))
  | _ => .error .typeError

/-- `_combine_accounting` of a first round and its repair. -/
def combineAccounting (first second : AttemptAccounting) : AttemptAccounting where
  usage :=
    { inputTokens := first.usage.inputTokens + second.usage.inputTokens
      outputTokens := first.usage.outputTokens + second.usage.outputTokens }
  latencySeconds := first.latencySeconds.add second.latencySeconds
  semanticAttempts := 2
  transportAttempts := first.transportAttempts + second.transportAttempts
  repairUsed := true
  requestIds := first.requestIds ++ second.requestIds
  finishReasons := first.finishReasons ++ second.finishReasons

/-- `_combine_results`. -/
def combineResults (first repaired : LLMResult) : LLMResult :=
  let accounting := combineAccounting first.accounting repaired.accounting
  { content := repaired.content
    provider := repaired.provider
    model := repaired.model
    latencySeconds := accounting.latencySeconds
    usage := accounting.usage
    requestId := repaired.requestId
    semanticAttempts := accounting.semanticAttempts
    transportAttempts := accounting.transportAttempts
    repairUsed := accounting.repairUsed
    requestIds := accounting.requestIds
    finishReason := repaired.finishReason
    finishReasons := accounting.finishReasons }

namespace Provider

variable {α : Type}

/-- What `_request` reads from a response after so many attempts. -/
def readResponse (p : Provider) (i : Interpreter) (elapsed : Seconds) (attempts : Nat)
    (response : Response) : Except PyError LLMResult := do
  let unreadable := fun (message : String) => PyError.provider
    { kind := .responseParse, message := lit message,
      accounting := requestAccounting elapsed attempts (some response) }
  let payload ← response.json.mapError fun e =>
    if e.error.isValueError then unreadable "Provider response was not valid JSON" else e.error
  let (choice, content) ← (messageContent payload).mapError fun e =>
    if e.isLookupError then unreadable "Provider response did not contain message content" else e
  let usage ← dictGet payload "usage" .null
  let usage := if usage.truthy then usage else .obj []
  let finishReason ← dictGet choice "finish_reason" .null
  let finishReason := match finishReason with
    | .null => none
    | reason => some (Json.pyStr reason)
  let promptTokens ← dictGet usage "prompt_tokens" (.int 0)
  let inputTokens ← pyInt i.digits promptTokens
  let completionTokens ← dictGet usage "completion_tokens" (.int 0)
  let outputTokens ← pyInt i.digits completionTokens
  pure { content, provider := p.name, model := p.model, latencySeconds := elapsed,
         usage := { inputTokens, outputTokens }, requestId := response.requestId,
         transportAttempts := attempts, requestIds := ifText response.requestId, finishReason }

/-- `_request`. -/
def request (p : Provider) (i : Interpreter) (env : Exchange) (messages : List Message) :
    Http LLMResult := do
  Program.mark .request
  let (attempt, response) ←
    p.attempts env messages (List.range (p.maxTransportRetries + 1)) (0, none)
  let n ← posted
  match response with
  | none =>
    Program.lift (.error (p.error .providerUnavailable (lit " returned no response")
      (requestAccounting (env.moment n).elapsed (p.maxTransportRetries + 1) none)))
  | some response => do
    Program.mark (.parse response)
    Program.lift (p.readResponse i (env.moment n).elapsed (attempt + 1) response)

/-- The payload in a content of any type. -/
def loadContent (p : Provider) (i : Interpreter) (content : Json) : Except PyError Json :=
  match content with
  | .str s =>
    if p.structuredOutput = .jsonSchema then loadsContent i.nesting s
    else extractFirstJsonValue i.nesting s
  | _ => if p.structuredOutput = .jsonSchema then .error .typeError else .error .attributeError

/-- `except json.JSONDecodeError`. -/
def undecodable : PyError → PyError
  | .jsonDecodeError position => .provider
      { kind := .responseParse, message := lit "Invalid JSON at character " ++ Json.intText position }
  | e => e

def invalid (details : Str) : PyError :=
  .provider { kind := .responseValidation, message := details }

/-- `_validate`. -/
def validate (p : Provider) (i : Interpreter) (model : ResponseModel α) (content : Json) :
    Except PyError α := do
  let payload ← (p.loadContent i content).mapError undecodable
  (model.validate payload).mapError invalid

def truncated (result : LLMResult) (message : Str) : PyError :=
  .provider { kind := .responseTruncated, message, accounting := result.accounting }

/-- `except ResponseParseError` of `_validate_result`. -/
def truncatedIfCut (result : LLMResult) (e : PyError) : PyError :=
  match e, result.content with
  | .provider { kind := .responseParse, .. }, .str s =>
    if looksLikeTruncatedJson s then
      truncated result (lit "Provider stopped before completing JSON")
    else e
  | e, _ => e

/-- `_validate_result`. -/
def validateResult (p : Provider) (i : Interpreter) (model : ResponseModel α) (result : LLMResult) :
    Except PyError α :=
  if isTruncatedFinishReason result.finishReason then
    .error (truncated result (lit "Provider stopped before completing JSON (" ++
      result.finishReason.getD (lit "None") ++ lit ")"))
  else (p.validate i model result.content).mapError (truncatedIfCut result)

def regenerateInstruction : Str :=
  lit "Regenerate the complete object from the beginning. Keep summary under 80 words, report only the single highest-confidence defect, and return one compact executable pytest module."

def correctInstruction : Str :=
  lit "Correct the response without changing its meaning."

def repairInstruction : ProviderErrorKind → Str
  | .responseTruncated => regenerateInstruction
  | _ => correctInstruction

def repairMessages (messages : List Message) (content : Json) (e : ProviderError) : List Message :=
  messages ++
    [{ role := lit "assistant", content },
      { role := lit "user",
        content := .str (lit "Your previous output failed validation with this error: " ++
          sanitizedError e.message ++ lit ". " ++ repairInstruction e.kind ++
          lit " Return exactly one corrected JSON object matching the required schema. Put executable Python directly in the generated_test_code string using standard JSON escaping. Do not use Markdown fences or commentary.") }]

/-- An error raised with the answers that led to it. -/
def raisePreserving (e : ProviderError) (responses : List Json) : Http α := do
  let e ← Program.lift (e.preserveModelResponses responses)
  Program.lift (.error (.provider e))

/-- What comes of the second round. -/
def concludeRepair (p : Provider) (i : Interpreter) (model : ResponseModel α) (first : LLMResult) :
    Except PyError LLMResult → Http (α × LLMResult)
  | .error (.provider failure) =>
    raisePreserving
      { failure with accounting := combineAccounting first.accounting failure.accounting }
      [first.content]
  | .error e => Program.lift (.error e)
  | .ok repaired =>
    let combined := combineResults first repaired
    match p.validateResult i model repaired with
    | .ok parsed => pure (parsed, combined)
    | .error (.provider e) =>
      if e.kind.isModelOutput then
        raisePreserving { e with accounting := combined.accounting } [first.content, repaired.content]
      else Program.lift (.error (.provider e))
    | .error e => Program.lift (.error e)

/-- The second round, after the answer of the first was refused. -/
def repair (p : Provider) (i : Interpreter) (env : Exchange) (model : ResponseModel α)
    (messages : List Message) (first : LLMResult) (refused : ProviderError) :
    Http (α × LLMResult) := do
  let content ← Program.lift (sliceContent first.content)
  let answer ← (p.request i env (repairMessages messages content refused)).attempt
  p.concludeRepair i model first answer

/-- What comes of the first round. -/
def concludeRound (p : Provider) (i : Interpreter) (env : Exchange) (model : ResponseModel α)
    (messages : List Message) (first : LLMResult) : Http (α × LLMResult) :=
  match p.validateResult i model first with
  | .ok parsed => pure (parsed, first)
  | .error (.provider e) =>
    if e.kind.isModelOutput then p.repair i env model messages first e
    else Program.lift (.error (.provider e))
  | .error e => Program.lift (.error e)

def requireJson (p : Provider) : Except PyError Unit :=
  if p.structuredOutput = .none then
    .error (.provider
      { kind := .unsupportedCapability, message := lit "Provider does not support JSON output" })
  else .ok ()

/-- `_response_format`, as far as it can fail. -/
def responseFormat (p : Provider) (model : ResponseModel α) : Except PyError Unit :=
  if p.structuredOutput = .jsonSchema then
    (model.strictSchema.map fun _ => ()).mapError OtherError.error
  else .ok ()

def generateJson (p : Provider) (i : Interpreter) (env : Exchange) (model : ResponseModel α)
    (messages : List Message) : Http (α × LLMResult) := do
  Program.lift p.requireJson
  Program.lift (p.responseFormat model)
  let first ← p.request i env messages
  p.concludeRound i env model messages first

end Provider

end EdgecaseForge

import EdgecaseForge.FloatArith
import EdgecaseForge.JsonCore
import EdgecaseForge.ShaCore

namespace EdgecaseForge

open Text

abbrev Double := Binary64.Double

abbrev Seconds := Binary64.Seconds

structure Usage where
  inputTokens : Int := 0
  outputTokens : Int := 0

structure AttemptAccounting where
  usage : Usage := {}
  latencySeconds : Seconds := .zero
  semanticAttempts : Nat := 0
  transportAttempts : Nat := 0
  repairUsed : Bool := false
  requestIds : List Str := []
  finishReasons : List Str := []

/-- The content is whatever value the response body has in its place. -/
structure LLMResult where
  content : Json
  provider : Str
  model : Str
  latencySeconds : Seconds
  usage : Usage := {}
  requestId : Option Str := none
  semanticAttempts : Nat := 1
  transportAttempts : Nat := 1
  repairUsed : Bool := false
  requestIds : List Str := []
  finishReason : Option Str := none
  finishReasons : List Str := []

def LLMResult.accounting (result : LLMResult) : AttemptAccounting where
  usage := result.usage
  latencySeconds := result.latencySeconds
  semanticAttempts := result.semanticAttempts
  transportAttempts := result.transportAttempts
  repairUsed := result.repairUsed
  requestIds := if result.requestIds = [] then result.requestId.toList else result.requestIds
  finishReasons :=
    if result.finishReasons = [] then result.finishReason.toList else result.finishReasons

/-- The subclasses of `ProviderError`. -/
inductive ProviderErrorKind
  | authentication
  | rateLimit (retryAfter : Option Double)
  | providerTimeout
  | providerUnavailable
  | unsupportedCapability
  | toolSchema
  | responseParse
  | responseTruncated
  | responseValidation

structure ProviderError where
  kind : ProviderErrorKind
  message : Str
  accounting : AttemptAccounting := {}
  modelResponseSha256 : List Str := []
  modelResponseExcerpts : List Str := []

/-- `except (ResponseParseError, ResponseValidationError)`. -/
def ProviderErrorKind.isModelOutput : ProviderErrorKind → Bool
  | .responseParse | .responseTruncated | .responseValidation => true
  | _ => false

def ProviderErrorKind.typeName : ProviderErrorKind → String
  | .authentication => "AuthenticationError"
  | .rateLimit _ => "RateLimitError"
  | .providerTimeout => "ProviderTimeoutError"
  | .providerUnavailable => "ProviderUnavailableError"
  | .unsupportedCapability => "UnsupportedCapabilityError"
  | .toolSchema => "ToolSchemaError"
  | .responseParse => "ResponseParseError"
  | .responseTruncated => "ResponseTruncatedError"
  | .responseValidation => "ResponseValidationError"

/-- An exception as its handlers tell it apart. -/
inductive PyError
  | provider (e : ProviderError)
  | valueError (message : Str)
  | runtimeError (message : Str)
  | jsonDecodeError (position : Nat)
  | unicodeDecodeError
  | unicodeEncodeError
  | typeError
  | attributeError
  | keyError (key : Str)
  | indexError
  | overflowError
  | recursionError
  | zeroDivisionError
  | fileNotFoundError
  | fileExistsError
  | isADirectoryError
  | notADirectoryError
  | other

/-- The bytes of a text, or the error of encoding it. -/
def encodeUtf8 (s : Str) : Except PyError Bytes :=
  match utf8Encode s with
  | some bytes => .ok bytes
  | none => .error .unicodeEncodeError

def excerpt (response : Json) : Except PyError (Str × Str) :=
  match response with
  | .str s => (encodeUtf8 s).map fun bytes => (Sha256.sha256 bytes, s.take 4000)
  | _ => .error .attributeError

def ProviderError.preserveModelResponses (e : ProviderError) (responses : List Json) :
    Except PyError ProviderError :=
  (responses.mapM excerpt).map fun excerpts =>
    { e with
      modelResponseSha256 := excerpts.map Prod.fst
      modelResponseExcerpts := excerpts.map Prod.snd }

end EdgecaseForge

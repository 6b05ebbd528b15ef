import Allowly.Core.Operation

/-!
# The API Client

The methods of `Allowly` that the execution calls use: one HTTP request each, with
the identity headers, the handling of the answer, and the check that the answer is
about the operation that was asked for.

The arguments of a request are evaluated in the order the source writes them, the
path first and the identity headers last, since each of them can raise.

An API error carries text from the answer. The credentials of the client and of the
request are replaced in it before it is raised.

## Main definitions

* `Client`: The configuration of a client.
* `identityHeaders`: `_identity_headers`.
* `requestWithHeaders`: `_request_with_headers`, for JSON answers.
* `prepareExecution`, `continueExecution`, `claimExecutionDispatch`,
  `getExecutionWitnessToken`, `reportExecutionOutcome`: The execution methods.
-/

namespace Allowly

open Py

inductive FallbackMode where
  | failOpen
  | failClosed
  deriving DecidableEq

/-- The configuration of a client. -/
structure Client where
  apiKey : Str
  edgeToken : Option Str
  agentToken : Option Str
  /-- Is an `agent_token_supplier` configured? -/
  tokenSupplier : Bool
  fallbackByAction : List (Str × FallbackMode)

def agentTokenHeader : Str := lit "X-Allowly-Agent-Token"

def idempotencyKeyHeader : Str := lit "Idempotency-Key"

/-- The agent token a call uses: its own, else one from the supplier, else the
    configured one. -/
def effectiveAgentToken (c : Client) (agentToken : Option Str) : Call (Option Str) :=
  match agentToken with
  | some token => return some token
  | none =>
    if c.tokenSupplier then do
      let supplied ← ask .supplyToken
      match supplied with
      | none => raise (.value "agent token supplier must return a non-empty string")
      | some token =>
        if strip token = [] then
          raise (.value "agent token supplier must return a non-empty string")
        else return some token
    else return c.agentToken

/-- The header of an idempotency key. -/
def keyHeaders : Option Str → List (Str × Str)
  | some key => [(idempotencyKeyHeader, key)]
  | none => []

/-- `_identity_headers`. -/
def identityHeaders (c : Client) (agentToken idempotencyKey : Option Str) :
    Call (List (Str × Str)) := do
  let token ← effectiveAgentToken c agentToken
  match token with
  | none => return keyHeaders idempotencyKey
  | some token =>
    if strip token = [] then raise (.value "agent token must be a non-empty string")
    else return (agentTokenHeader, token) :: keyHeaders idempotencyKey

/-- `str.replace`. The text is used up as the count goes down. -/
def replaceFrom (old new : Str) : Nat → Str → Str
  | 0, s => s
  | _ + 1, [] => []
  | n + 1, c :: s =>
    match dropWord old (c :: s) with
    | some r => new ++ replaceFrom old new n r
    | none => c :: replaceFrom old new n s

/-- The credentials that may not show in an error. -/
def sensitiveValues (c : Client) (headers : List (Str × Str)) : List Str :=
  [some c.apiKey, c.edgeToken,
    (headers.find? fun h => h.1 == agentTokenHeader).map Prod.snd].filterMap fun v =>
    match v with
    | some (x :: xs) => some (x :: xs)
    | _ => none

/-- `safe_error_text`. -/
def safeErrorText (sensitive : List Str) (value : Json) (fallback : String) : Str :=
  sensitive.foldl (fun rendered v => replaceFrom v (lit "[REDACTED]") rendered.length rendered)
    (value.asStr.getD (lit fallback))

/-- The number a text denotes, `float(s)`, for decimal text. Digits may be grouped
    by underscores. -/
def floatText (L : Libs) (s : Str) : Option Float64 :=
  let s := s.map fun c => match L.otherDigit c with
    | some d => 48 + d
    | none => c
  let word := lower id s
  let (neg, digits) := match s with
    | 43 :: r => (false, r)
    | s => scanSign s
  let grouped (ds : Str) : Option Str :=
    let parts := splitChar 95 ds
    if parts.all (fun p => p != [] && p.all isDigit) then some parts.flatten else none
  let unsigned := lower id digits
  if unsigned = lit "inf" ∨ unsigned = lit "infinity" then some (.inf neg)
  else if word = lit "nan" ∨ unsigned = lit "nan" then some .nan
  else
    let (mantissa, exponent) := partition 101 unsigned
    let (whole, frac) := partition 46 mantissa
    let frac := frac.getD []
    if whole = [] ∧ frac = [] then none
    else do
      let w ← if whole = [] then some [] else grouped whole
      let f ← if frac = [] then some [] else grouped frac
      let (eneg, ds) := match exponent with
        | none => (false, [48])
        | some (43 :: r) => (false, r)
        | some x => scanSign x
      let ds ← grouped ds
      let e : Int := if eneg then -(digitsVal ds : Int) else digitsVal ds
      return Float64.ofDecimal neg (digitsVal (w ++ f)) (e - f.length)

/-- `_parse_retry_after`. -/
def parseRetryAfter (L : Libs) (value : Option Str) : Option Float64 := do
  let value ← value
  let seconds ← floatText L (strip value)
  match seconds with
  | .nan => none
  | .inf neg => if neg then none else some seconds
  | .finite neg mant _ => if neg ∧ mant ≠ 0 then none else some seconds

/-- A response header, whose name is compared without regard to case. -/
def ApiResponse.header (r : ApiResponse) (name : String) : Option Str :=
  (r.headers.find? fun h => lower id h.1 == lower id (lit name)).map Prod.snd

def ApiResponse.isSuccess (r : ApiResponse) : Bool := 200 ≤ r.status && r.status < 300

/-- The error an unsuccessful answer is turned into. -/
def apiError (L : Libs) (sensitive : List Str) (resp : ApiResponse) (data : Json) : Exc :=
  let err : Json := match data.get "error" with
    | .str s => .ofList [("message", .str s)]
    | .obj ms => .obj ms
    | _ => .obj []
  let fields := match err.get "fields" with
    | .arr items => (items.filter Json.isObj).map fun f =>
        (safeErrorText sensitive (f.get "field") "", safeErrorText sensitive (f.get "message") "")
    | _ => []
  .api resp.status (safeErrorText sensitive (err.get "code") "error")
    (safeErrorText sensitive (err.get "message") "Unknown error") fields
    (parseRetryAfter L (resp.header "Retry-After"))

/-- What becomes of an answer, as JSON. -/
def readResponse (L : Libs) (sensitive : List Str) (expected : List Nat) (resp : ApiResponse) :
    Except Exc Json :=
  if resp.isSuccess ∧ resp.status ∉ expected then
    .error (.protocol ("expected HTTP " ++ String.intercalate " or " (expected.map toString)
      ++ ", got ") (some (natText resp.status)))
  else if resp.status = 204 then .ok .null
  else
    match loadsBytes resp.content with
    | none =>
      if resp.isSuccess then protocolError "successful response body must be valid JSON" none
      else .error (apiError L sensitive resp (.obj []))
    | some data =>
      if resp.isSuccess then .ok data else .error (apiError L sensitive resp data)

def Route.isGet : Route → Bool
  | execution _ => true
  | receipt _ => true
  | acknowledgment _ _ => true
  | confirmationStatus _ => true
  | escalation _ => true
  | policyList => true
  | policy _ => true
  | observeEvent _ => true
  | _ => false

/-- Send a request. A read is repeated once when the connection had gone away. -/
def send (r : ApiRequest) : Call ApiResponse := do
  let answer ← (ask (.http r)).attempt
  match answer with
  | .ok resp => return resp
  | .error .remoteProtocol => if r.route.isGet then ask (.http r) else raise .remoteProtocol
  | .error x => raise x

/-- `_request_with_headers`. The HTTP client encodes the headers and the body
    before it sends anything. -/
def requestWithHeaders (L : Libs) (c : Client) (route : Route) (path : Str) (json : Option Json)
    (headers : List (Str × Str)) (expected : List Nat) : Call (Json × ApiResponse) := do
  if L.sendable headers = false then raise (.value "'ascii' codec can't encode")
  else if (json.map fun j => (dumps j).bind encode) = some none then
    raise (.value "Out of range float values are not JSON compliant")
  else
    let resp ← send { route, path, json, headers }
    let data ← computed (readResponse L (sensitiveValues c headers) expected resp)
    return (data, resp)

/-- `_request` on a route. -/
def callRoute (L : Libs) (c : Client) (route : Route) (json : Option Json)
    (agentToken idempotencyKey : Option Str) (expected : List Nat) : Call Json := do
  match route.path with
  | none => raise (.value "'utf-8' codec can't encode")
  | some path =>
    let headers ← identityHeaders c agentToken idempotencyKey
    let (data, _) ← requestWithHeaders L c route path json headers expected
    return data

/-- `_client_timestamp` on text: the text, if it is a time with a zone. -/
def clientTimestamp (L : Libs) (value : Str) : Except Exc Str :=
  if value = [] then
    valueError "client_timestamp must be a non-empty timezone-aware timestamp"
  else
    let zoned := if value.getLast? = some 90 then value.dropLast ++ lit "+00:00" else value
    match L.fromisoformat zoned with
    | none => valueError "client_timestamp must be a valid timezone-aware timestamp"
    | some stamp =>
      if stamp.aware then .ok value else valueError "client_timestamp must include a timezone"

/-- Does a response answer this request? -/
def answersRequest (r : Requested) (result : ExecutionResponse) : Bool :=
  result.operationId = r.operationId && result.destinationId = r.enabledExecutableId
    && result.action = r.action && result.requestDescriptor.authorizationId = r.authorizationId

/-- `prepare_execution`. -/
def prepareExecution (L : Libs) (c : Client) (r : Requested) (idempotencyKey : Str)
    (agentToken : Option Str) : Call ExecutionResponse := do
  let headers ← identityHeaders c agentToken (some idempotencyKey)
  let timestamp ← computed (clientTimestamp L (r.clientTimestamp.getD []))
  let body := Requested.toJson { r with clientTimestamp := some timestamp }
  let (raw, _) ← requestWithHeaders L c .execute (lit "/v1/execute") (some body) headers [200, 201]
  let result ← computed (parseExecutionResponse L raw)
  if answersRequest r result then return result
  else raise (.protocol "execution approval does not match the requested operation" none)

/-- A review a waiting operation is continued from, with the key of its
    continuation. -/
structure Intent where
  reviewId : Str
  sourceReceiptId : Str
  idempotencyKey : Str
  deriving DecidableEq

/-- `continue_execution`. -/
def continueExecution (L : Libs) (c : Client) (operationId : Str) (r : Requested) (i : Intent)
    (agentToken : Option Str) : Call ExecutionResponse := do
  if r.operationId ≠ operationId ∨ i.reviewId = [] ∨ i.sourceReceiptId = []
      ∨ i.idempotencyKey = [] then
    raise (.value "continuation requires the original operation and review binding")
  else
    let timestamp ← computed (clientTimestamp L (r.clientTimestamp.getD []))
    let request := Requested.toJson { r with clientTimestamp := some timestamp }
    let raw ← callRoute L c (.continuation operationId)
      (some (.ofList [("execution_request", request), ("review_id", .str i.reviewId),
        ("source_receipt_id", .str i.sourceReceiptId)]))
      agentToken (some i.idempotencyKey) [200, 201]
    let result ← computed (parseExecutionResponse L raw)
    if answersRequest { r with operationId } result then return result
    else raise (.protocol "execution continuation does not match the requested operation" none)

def approvalBody (approvalSha256 : Option Str) : Json :=
  .ofList [("approval_sha256", optionText approvalSha256)]

/-- `claim_execution_dispatch`. -/
def claimExecutionDispatch (L : Libs) (c : Client) (operationId : Str)
    (approvalSha256 : Option Str) (agentToken : Option Str) : Call Json := do
  let raw ← callRoute L c (.dispatch operationId) (some (approvalBody approvalSha256)) agentToken
    none [200]
  if raw.isObj ∧ raw.get "operation_id" = .str operationId
      ∧ raw.get "approval_sha256" = optionText approvalSha256
      ∧ raw.get "dispatch_state" = .str (lit "claimed") then
    return raw
  else raise (.protocol "invalid execution dispatch claim" none)

/-- `get_execution_witness_token`. -/
def getExecutionWitnessToken (L : Libs) (c : Client) (operationId : Str)
    (approvalSha256 : Option Str) (agentToken : Option Str) : Call Json := do
  let raw ← callRoute L c (.witnessSessionToken operationId) (some (approvalBody approvalSha256))
    agentToken none [200]
  if raw.isObj ∧ raw.get "approval_sha256" = optionText approvalSha256 then return raw
  else raise (.protocol "invalid execution witness admission" none)

/-- `report_execution_outcome`. -/
def reportExecutionOutcome (L : Libs) (c : Client) (operationId : Str) (outcome : Json)
    (idempotencyKey : Option Str) (agentToken : Option Str) : Call ExecutionResponse := do
  let raw ← callRoute L c (.outcome operationId) (some outcome) agentToken idempotencyKey [200, 201]
  let result ← computed (parseExecutionResponse L raw)
  if result.operationId = operationId ∧ outcome.isObj = false then raise .attribute
  else if result.operationId = operationId
      ∧ optionText result.approvalSha256 = outcome.get "approval_sha256" then
    return result
  else raise (.protocol "execution outcome does not match the requested operation" none)

end Allowly

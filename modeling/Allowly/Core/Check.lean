import Allowly.Core.Policy

/-!
# Checking an Authorization

`check` and `check_by_agent`, with the strict parser of their response and the fallback
for when the runtime cannot be asked.

The response of the runtime is a result for each action. What a call falls back to is made
here, and says so. A deny passes `superseded_by` on as it is.

An authorization ID and the policy fields are whatever the caller has, since the code does
not look at them before they are sent.

## Main definitions

* `ActionCheckResult`, `CheckResponse`: What a check returns.
* `parseCheckResponse`: `_parse_check_response`.
* `fallbackCheckResponse`: `_fallback_check_response`.
* `CheckArgs`, `check`: `check`.
* `AgentCheckArgs`, `checkByAgent`: `check_by_agent`.
-/

namespace Allowly

open Py

structure BudgetInfo where
  limitMicros : Int
  spentMicros : Int
  estimatedCostMicros : Int
  spentAfterMicros : Option Int
  deriving DecidableEq

/-- What every result has. -/
structure CheckBase where
  reason : Str
  receipt : Option ReceiptEnvelope
  isFallback : Bool
  fallbackMode : Option FallbackMode
  budget : Option BudgetInfo
  escalation : Option EscalationInfo
  policyEval : Option PolicyEvalInfo
  deriving DecidableEq

inductive ActionCheckResult where
  | allow (base : CheckBase)
  | deny (base : CheckBase) (supersededBy : Json)
  | confirm (base : CheckBase) (confirmNonce confirmExpiresAt confirmPromptHint : Str)
      (confirmationId : Option Str)
  | escalate (base : CheckBase) (escalationId : Str)
      (escalationTo escalationExpiresAt : Option Str)
  deriving DecidableEq

namespace ActionCheckResult

def base : ActionCheckResult → CheckBase
  | allow b => b
  | deny b _ => b
  | confirm b .. => b
  | escalate b .. => b

def decision : ActionCheckResult → Decision
  | allow _ => .allow
  | deny .. => .deny
  | confirm .. => .confirm
  | escalate .. => .escalate

end ActionCheckResult

structure CheckResponse where
  authorizationId : Json
  userId : Option Str
  agentId : Option Str
  authorizationExpiresAt : Option Str
  engineVersion : Str
  results : List (Str × ActionCheckResult)
  billingWarning : Option Str
  deriving DecidableEq

/-! ### The response of the runtime -/

def parseBudgetInfo (raw : Json) : Except Exc BudgetInfo := do
  let raw ← requireDict raw "budget"
  let limitMicros ← requireInt raw "limit_micros"
  let spentMicros ← requireInt raw "spent_micros"
  let estimatedCostMicros ← requireInt raw "estimated_cost_micros"
  let spentAfterMicros ← optionalWith (fun _ => requireInt raw "spent_after_micros")
    (raw.get "spent_after_micros")
  return { limitMicros, spentMicros, estimatedCostMicros, spentAfterMicros }

/-- `_optional_confirmation_id`. -/
def optionalConfirmationId (raw : Json) : Except Exc (Option Str) := do
  let value ← optionalStr raw "confirmation_id"
  match value with
  | none => return none
  | some id =>
    match dropWord (lit "cnf_") id with
    | some (c :: rest) =>
      if (c :: rest).all isWordDash then return some id
      else protocolError "confirmation_id must be an opaque cnf_ ID" none
    | _ => protocolError "confirmation_id must be an opaque cnf_ ID" none

/-- The result of one action. -/
def parseCheckItem (L : PolicyLibs) (action : Str) (rawItem : Json) :
    Except Exc ActionCheckResult := do
  if rawItem.isObj = false then protocolError "check result  must be an object" (some action)
  else
    let decisionText ← requireStr rawItem "decision"
    let decision ← parseEnum Decision.all Decision.text "unknown check decision: " decisionText
    let reason ← requireStr rawItem "reason"
    let receipt ← parseReceiptEnvelope L.toLibs (rawItem.get "receipt")
    let budget ← optionalWith parseBudgetInfo (rawItem.get "budget")
    let escalation ← optionalWith parseEscalationInfo (rawItem.get "escalation")
    let policyEval ← optionalWith (parsePolicyEvaluation L) (rawItem.get "policy_eval")
    let base : CheckBase := { reason, receipt := some receipt, isFallback := false
                              fallbackMode := none, budget, escalation, policyEval }
    match decision with
    | .allow => return .allow base
    | .deny => return .deny base (rawItem.get "superseded_by")
    | .confirm =>
      let confirmNonce ← requireStr rawItem "confirm_nonce"
      let confirmExpiresAt ← requireStr rawItem "confirm_expires_at"
      let confirmPromptHint ← requireStr rawItem "confirm_prompt_hint"
      let confirmationId ← optionalConfirmationId rawItem
      return .confirm base confirmNonce confirmExpiresAt confirmPromptHint confirmationId
    | .escalate =>
      let escalationId ← requireStr rawItem "escalation_id"
      let escalationTo ← optionalStr rawItem "escalation_to"
      let escalationExpiresAt ← optionalStr rawItem "escalation_expires_at"
      return .escalate base escalationId escalationTo escalationExpiresAt

/-- The two lists have the same elements. -/
def sameSet (a b : List Str) : Bool := a.all (b.contains ·) && b.all (a.contains ·)

/-- Does the version identify an engine by its digest? -/
def isEngineVersion (s : Str) : Bool :=
  match dropWord (lit "sha256:") s with
  | some digest => isHex64 digest
  | none => false

/-- `_parse_check_response`. -/
def parseCheckResponse (L : PolicyLibs) (raw expectedAuthorizationId : Json)
    (expectedActions : List Str) : Except Exc CheckResponse := do
  let raw ← requireDict raw "check response"
  let authorizationId ← requireStr raw "authorization_id"
  if .str authorizationId ≠ expectedAuthorizationId then
    protocolError "check response authorization_id does not match the request" none
  else
    let items ← requireDict (raw.get "results") "check results"
    if sameSet items.names expectedActions = false then
      protocolError "check response result actions do not match the request" none
    else
      let results ← items.members.mapM fun m =>
        (parseCheckItem L m.1 m.2).map fun r => (m.1, r)
      let engineVersion ← requireStr raw "engine_version"
      if isEngineVersion engineVersion = false then
        protocolError "engine_version must identify the full engine manifest by SHA-256" none
      else
        let userId ← optionalStr raw "user_id"
        let agentId ← optionalStr raw "agent_id"
        let authorizationExpiresAt ← optionalStr raw "authorization_expires_at"
        return { authorizationId := .str authorizationId, userId, agentId, authorizationExpiresAt,
                 engineVersion, results, billingWarning := none }

/-! ### Falling back -/

/-- Why the runtime was not asked. -/
inductive Failure where
  | timeout
  | unreachable
  deriving DecidableEq

def Failure.text : Failure → Str
  | timeout => lit "timeout"
  | unreachable => lit "unreachable"

/-- The mode an action falls back to. -/
def fallbackModeOf (c : Client) (forceFailClosed : Bool) (action : Str) : FallbackMode :=
  if forceFailClosed then .failClosed
  else (c.fallbackByAction.lookup action).getD .failClosed

/-- The result an action falls back to. -/
def fallbackResult (mode : FallbackMode) (failure : Failure) : ActionCheckResult :=
  let base (reason : Str) : CheckBase :=
    { reason, receipt := none, isFallback := true, fallbackMode := some mode, budget := none
      escalation := none, policyEval := none }
  match mode with
  | .failOpen => .allow (base (lit "fallback_open_" ++ failure.text))
  | .failClosed => .deny (base (lit "fallback_closed_" ++ failure.text)) .null

/-- `_fallback_check_response`. -/
def fallbackCheckResponse (c : Client) (authorizationId : Json) (actions : List Str)
    (failure : Failure) (forceFailClosed : Bool) : CheckResponse where
  authorizationId := authorizationId
  userId := none
  agentId := none
  authorizationExpiresAt := none
  engineVersion := lit "sdk_fallback"
  results := actions.eraseDups.map fun action =>
    (action, fallbackResult (fallbackModeOf c forceFailClosed action) failure)
  billingWarning := none

/-- Does a failed check fall back? -/
def failureOf : Exc → Option Failure
  | .timeout => some .timeout
  | .httpTimeout => some .timeout
  | .decoding => some .unreachable
  | .remoteProtocol => some .unreachable
  | .transport => some .unreachable
  | .api status code _ _ _ =>
    if code = lit "identity_verification_unavailable" then none
    else if status = 408 then some .timeout
    else if status ≥ 500 then some .unreachable
    else none
  | _ => none

/-! ### The calls -/

/-- A time the caller gives: text, or a moment, with its text and whether it knows its
    zone. -/
inductive TimeArg where
  | text (s : Str)
  | moment (aware : Bool) (rendered : Str)
  | other

/-- `_client_timestamp`. -/
def clientTimestampOf (L : Libs) : TimeArg → Except Exc Str
  | .text s => clientTimestamp L s
  | .moment aware rendered =>
    if aware = false then valueError "client_timestamp must include a timezone"
    else if lit "+00:00" <:+ rendered then .ok (rendered.take (rendered.length - 6) ++ lit "Z")
    else .ok rendered
  | .other => valueError "client_timestamp must be a non-empty timezone-aware timestamp"

/-- The arguments of `check`. Only the actions and the times are looked at. -/
structure CheckArgs where
  authorizationId : Json
  actions : List Str
  resource : Json
  sessionId : Json
  estimatedCostMicros : Json
  context : Json
  wait : Bool
  idempotencyKey : Option Str
  clientTimestamp : Option TimeArg
  agentToken : Option Str

/-- The time, as a member of the body. -/
def timestampMember (L : Libs) : Option TimeArg → Except Exc (List (String × Json))
  | none => .ok []
  | some t => (clientTimestampOf L t).map fun s => [("client_timestamp", .str s)]

/-- The body of a check. -/
def checkBody (a : CheckArgs) (timestamp : List (String × Json)) : Json :=
  .ofList ([("authorization_id", a.authorizationId), ("actions", .arr (a.actions.map .str)),
    ("resource", a.resource), ("session_id", a.sessionId),
    ("estimated_cost_micros", a.estimatedCostMicros), ("context", orEmpty a.context)] ++ timestamp)

def billingWarning (resp : ApiResponse) : Option Str := resp.header "X-Allowly-Billing-Warning"

/-- What becomes of the answer to a check. -/
def checkAnswer (L : PolicyLibs) (c : Client) (a : CheckArgs) (identityEnabled : Bool) :
    Except Exc (Json × ApiResponse) → Except Exc CheckResponse
  | .ok (raw, resp) =>
    (parseCheckResponse L raw a.authorizationId a.actions).map fun r =>
      { r with billingWarning := billingWarning resp }
  | .error x =>
    match failureOf x with
    | some failure =>
      .ok (fallbackCheckResponse c a.authorizationId a.actions failure identityEnabled)
    | none => .error x

/-- `check`. -/
def check (L : PolicyLibs) (c : Client) (a : CheckArgs) : Call CheckResponse := do
  let timestamp ← computed (timestampMember L.toLibs a.clientTimestamp)
  let headers ← identityHeaders c a.agentToken a.idempotencyKey
  let identityEnabled := headers.any fun h => h.1 == agentTokenHeader
  let path := lit (if a.wait then "/v1/check?wait=true" else "/v1/check")
  let answer ← (requestWithHeaders L.toLibs c (.check a.wait) path
    (some (checkBody a timestamp)) headers [200]).attempt
  computed (checkAnswer L c a identityEnabled answer)

/-- The arguments of `check_by_agent`. -/
structure AgentCheckArgs where
  agentName : Json
  expectedPolicyRef : Json
  actions : List Str
  resource : Json
  sessionId : Json
  estimatedCostMicros : Json
  context : Json
  wait : Bool
  idempotencyKey : Option Str
  clientTimestamp : Option TimeArg

def agentCheckBody (a : AgentCheckArgs) (policyRef : PolicyReference)
    (timestamp : List (String × Json)) : Json :=
  .ofList ([("agent_name", a.agentName), ("expected_policy_ref", policyRef.toJson),
    ("actions", .arr (a.actions.map .str)), ("resource", a.resource), ("session_id", a.sessionId),
    ("estimated_cost_micros", a.estimatedCostMicros), ("context", orEmpty a.context)] ++ timestamp)

/-- The authorization the runtime has resolved a name to. -/
def resolvedAuthorization (raw : Json) : Except Exc Str := do
  let raw ← requireDict raw "check response"
  let authorizationId ← requireStr raw "authorization_id"
  if authorizationId = [] ∨ authorizationId ≠ strip authorizationId ∨ authorizationId.length > 128 then
    protocolError "resolved authorization_id must be a nonempty bounded ID" none
  else return authorizationId

/-- `check_by_agent`. -/
def checkByAgent (L : PolicyLibs) (c : Client) (a : AgentCheckArgs) : Call CheckResponse := do
  if c.agentToken.isSome ∨ c.tokenSupplier = true then
    raise (.value "name-routed checks cannot use configured agent identity")
  else if a.context.has "agent_label" then
    raise (.value "context.agent_label is reserved for the server")
  else
    let policyRef ← computed (parsePolicyReference L a.expectedPolicyRef)
    let timestamp ← computed (timestampMember L.toLibs a.clientTimestamp)
    let path := lit (if a.wait then "/v1/agent-check?wait=true" else "/v1/agent-check")
    let (raw, resp) ← requestWithHeaders L.toLibs c (.agentCheck a.wait) path
      (some (agentCheckBody a policyRef timestamp)) (keyHeaders a.idempotencyKey) [200]
    let authorizationId ← computed (resolvedAuthorization raw)
    let r ← computed (parseCheckResponse L raw (.str authorizationId) a.actions)
    return { r with billingWarning := billingWarning resp }

end Allowly

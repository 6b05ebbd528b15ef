import Allowly.Core.Check

/-!
# The FastMCP Gate

The middleware of `mcp.py`, which checks every tool call before it is made.

Its callbacks are functions of the caller. What one returns is a value, or something that
has no JSON form, and an awaitable is as good as what it gives. A callback is called once
in a tool call, so a function says all there is to say about it.

The tool itself is the operation `callNext`. It is given the context as the middleware has
it, which is left out.

## Main definitions

* `Returned`, `AuthContext`, `McpCheckInput`: What the callbacks are given, and return.
* `Gate`: A configured middleware.
* `resolveAuthorizationId`, `resolveAgentToken`, `resolveCheckInput`: The callbacks.
* `onCallTool`: `on_call_tool`.
-/

namespace Allowly

open Py Prog

/-- What a callback returns: a value, or another object, with its truth value. -/
inductive Returned where
  | value (v : Json)
  | object (truth : Bool)
  deriving DecidableEq

def Returned.truthy : Returned → Bool
  | value v => Allowly.truthy v
  | object truth => truth

/-- `MCPAuthorizationContext`, as far as the middleware makes it. -/
structure AuthContext where
  toolName : Str
  arguments : Json

/-- `MCPCheckInput`. -/
structure McpCheckInput where
  action : Json
  resource : Json
  context : Json
  clientTimestamp : Option TimeArg
  estimatedCostMicros : Json
  idempotencyKey : Option Str

/-- `MCPCheckInput()`. -/
def McpCheckInput.default : McpCheckInput where
  action := .null
  resource := .null
  context := .null
  clientTimestamp := none
  estimatedCostMicros := .null
  idempotencyKey := none

/-- A configured middleware. -/
structure Gate where
  apiKey : Str
  authorizationIdFn : Returned → Except Fault Returned
  userIdFn : Option (AuthContext → Except Fault Returned)
  agentTokenFn : Option (AuthContext → Except Fault Returned)
  /-- `none` is a result that is no `MCPCheckInput`. -/
  checkInputFn : Option (AuthContext → Except Fault (Option McpCheckInput))

/-- The client of the middleware has no fallback and no identity of its own. -/
def Gate.client (g : Gate) : Client where
  apiKey := g.apiKey
  edgeToken := none
  agentToken := none
  tokenSupplier := false
  fallbackByAction := []

/-- `ToolError`, with a text or with the decision it tells, and other exceptions. -/
inductive ToolExc where
  | tool (text : String)
  | decision (payload : Json)
  | raised (x : Exc)

/-- What a tool returns is not looked at. -/
abbrev ToolResult := Json

/-- The operation of running the tool. -/
inductive CallNext where
  | callNext

/-- A call of the middleware. -/
abbrev GateCall (A : Type) :=
  Prog (Op ⊕ CallNext) (Sum.elim Op.Answer fun _ => ToolResult) Fault ToolExc A

/-- `_resolve_authorization_id`. -/
def resolveAuthorizationId (g : Gate) (context : AuthContext) : Except Exc Returned :=
  match g.userIdFn with
  | none => .ok (.value .null)
  | some userIdFn =>
    match userIdFn context with
    | .error x => .error x.val
    | .ok userId =>
      if userId.truthy = false then .ok (.value .null)
      else (g.authorizationIdFn userId).mapError Subtype.val

/-- What becomes of an exception of a callback. -/
def callbackError {A : Type} (x : Fault) (text : String) : Except ToolExc A :=
  if x.val.isException then .error (.tool text) else .error (.raised x.val)

/-- `_resolve_agent_token`. -/
def resolveAgentToken (g : Gate) (context : AuthContext) : Except ToolExc (Option Str) :=
  match g.agentTokenFn with
  | none => .ok none
  | some agentTokenFn =>
    match agentTokenFn context with
    | .error x => callbackError x "agent_token_unavailable"
    | .ok (.value (.str token)) =>
      if strip token = [] then .error (.tool "agent_token_not_found") else .ok (some token)
    | .ok _ => .error (.tool "agent_token_not_found")

/-- `_resolve_check_input`. -/
def resolveCheckInput (g : Gate) (context : AuthContext) : Except ToolExc McpCheckInput :=
  match g.checkInputFn with
  | none => .ok McpCheckInput.default
  | some checkInputFn =>
    match checkInputFn context with
    | .error x => callbackError x "check_input_unavailable"
    | .ok (some input) => .ok input
    | .ok none => .error (.tool "check_input_invalid")

/-- The action that is checked. -/
def checkedAction (input : McpCheckInput) (name : Str) : Except ToolExc Str :=
  match (if input.action ≠ .null then input.action else .str name) with
  | .str action =>
    if strip action = [] then .error (.tool "check_action_invalid") else .ok action
  | _ => .error (.tool "check_action_invalid")

/-- What is checked. -/
def gateArgs (authorizationId : Json) (action : Str) (input : McpCheckInput)
    (agentToken : Option Str) : CheckArgs where
  authorizationId := authorizationId
  actions := [action]
  resource := input.resource
  sessionId := .null
  estimatedCostMicros := input.estimatedCostMicros
  context := input.context
  wait := false
  idempotencyKey := input.idempotencyKey
  clientTimestamp := input.clientTimestamp
  agentToken := agentToken

/-- The check of the middleware. An ID that has no JSON form is found out when the request
    is made. -/
def gateCheck (L : PolicyLibs) (c : Client) (authorizationId : Returned) (action : Str)
    (input : McpCheckInput) (agentToken : Option Str) : Call CheckResponse :=
  match authorizationId with
  | .value id => check L c (gateArgs id action input agentToken)
  | .object _ => do
    let _ ← computed (timestampMember L.toLibs input.clientTimestamp)
    let _ ← identityHeaders c agentToken input.idempotencyKey
    raise .type

/-- `_decision_payload`. -/
def decisionPayload (r : ActionCheckResult) : Json :=
  .ofList ([("decision", .str r.decision.text), ("reason", .str r.base.reason)] ++
    match r with
    | .confirm _ nonce expiresAt hint _ => [("confirm_nonce", .str nonce),
        ("confirm_expires_at", .str expiresAt), ("confirm_prompt_hint", .str hint)]
    | .escalate _ id target expiresAt => [("escalation_id", .str id),
        ("escalation_to", optionText target), ("escalation_expires_at", optionText expiresAt)]
    | _ => [])

/-- A computed result of the middleware. -/
def settled {A : Type} (r : Except ToolExc A) : GateCall A := ofExcept r

/-- Running the tool. -/
def callNext : GateCall ToolResult :=
  Prog.op (.inr .callNext) fun (r : Except Fault ToolResult) =>
    ofExcept (r.mapError fun x => ToolExc.raised x.val)

/-- What becomes of the result of the check. -/
def gateDecision : Option ActionCheckResult → GateCall ToolResult
  | none => settled (.error (.tool "missing_result"))
  | some r =>
    if r.decision = .allow then callNext else settled (.error (.decision (decisionPayload r)))

/-- `on_call_tool`. -/
def onCallTool (L : PolicyLibs) (g : Gate) (context : AuthContext) : GateCall ToolResult := do
  let authorizationId ← settled ((resolveAuthorizationId g context).mapError .raised)
  if authorizationId = .value .null then settled (.error (.tool "authorization_not_found"))
  else
    let input ← settled (resolveCheckInput g context)
    let action ← settled (checkedAction input context.toolName)
    let agentToken ← settled (resolveAgentToken g context)
    let result ← embed .raised (gateCheck L g.client authorizationId action input agentToken)
    gateDecision (result.results.lookup action)

end Allowly

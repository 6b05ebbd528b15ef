import Allowly.Core.Check
import Allowly.Core.Receipts
import Allowly.Core.Webhook

/-!
# The Resource Methods

The methods of the client that name something the runtime has: an execution, a receipt and
its acknowledgment, a budget, an authorization, a confirmation, an escalation, a policy, an
observed event.

What a method does with the body of an accepted answer is its reply function, named after
it. Some of them read the body without looking whether it is an object, and then anything
else raises `AttributeError`. The answer to a resolution is passed on in part as it is.

## Main definitions

* `executionReply`, `prepareReply`, `continuationReply`, `outcomeReply`, `claimReply`: The
  replies of the execution methods.
* `parseAcknowledgment`, `parseSettlement`, `parseConfirmationStatus`,
  `parseEscalationStatus`, `parseObserveStatus`: The strict parsers.
* `revokeReply`, `approveReply`, `resolveReply`: The parsers that read the body directly.
* `getExecution`, `settleBudget`, `revoke`, ...: The methods.
-/

namespace Allowly

open Py

/-! ### Executions -/

/-- `get_execution`, from the body on. -/
def executionReply (L : Libs) (operationId : Str) (raw : Json) : Except Exc ExecutionResponse := do
  let response ← parseExecutionResponse L raw
  if response.operationId ≠ operationId then
    protocolError "execution response does not match the requested operation" none
  else return response

/-- `prepare_execution`, from the body on. -/
def prepareReply (L : Libs) (r : Requested) (raw : Json) : Except Exc ExecutionResponse := do
  let result ← parseExecutionResponse L raw
  if answersRequest r result then return result
  else protocolError "execution approval does not match the requested operation" none

/-- `continue_execution`, from the body on. -/
def continuationReply (L : Libs) (operationId : Str) (r : Requested) (raw : Json) :
    Except Exc ExecutionResponse := do
  let result ← parseExecutionResponse L raw
  if answersRequest { r with operationId } result then return result
  else protocolError "execution continuation does not match the requested operation" none

/-- `report_execution_outcome`, from the body on. The digest is that of the outcome. -/
def outcomeReply (L : Libs) (operationId : Str) (approvalSha256 raw : Json) :
    Except Exc ExecutionResponse := do
  let result ← parseExecutionResponse L raw
  if result.operationId = operationId ∧ optionText result.approvalSha256 = approvalSha256 then
    return result
  else protocolError "execution outcome does not match the requested operation" none

/-- `claim_execution_dispatch`, from the body on. -/
def claimReply (operationId : Str) (approvalSha256 : Option Str) (raw : Json) : Except Exc Json :=
  if raw.isObj ∧ raw.get "operation_id" = .str operationId
      ∧ raw.get "approval_sha256" = optionText approvalSha256
      ∧ raw.get "dispatch_state" = .str (lit "claimed") then
    .ok raw
  else protocolError "invalid execution dispatch claim" none

/-- `get_execution`. -/
def getExecution (L : Libs) (c : Client) (operationId : Str) (agentToken : Option Str) :
    Call ExecutionResponse := do
  let raw ← callRoute L c (.execution operationId) none agentToken none [200]
  computed (executionReply L operationId raw)

/-! ### Acknowledgments -/

/-- Its `kind` has one value. -/
structure ReceiptAcknowledgmentCaller where
  apiKeyId : Str
  agentIdentity : Option Json
  deriving DecidableEq

structure ReceiptAcknowledgment where
  acknowledgmentId : Str
  receiptId : Str
  receiptSha256 : Str
  clientTimestamp : Str
  receivedAt : Str
  caller : ReceiptAcknowledgmentCaller
  evidence : OutcomeEvidence
  deriving DecidableEq

/-- `_parse_receipt_acknowledgment_response`. -/
def parseAcknowledgment (L : Libs) (raw : Json) : Except Exc ReceiptAcknowledgment := do
  let body ← requireDict raw "receipt acknowledgment response"
  let callerBody ← requireDict (body.get "caller") "receipt acknowledgment caller"
  let callerKind ← requireStr callerBody "kind"
  if callerKind ≠ lit "workspace_runtime_key" then
    protocolError "invalid receipt acknowledgment caller kind: " (some callerKind)
  else
    let acknowledgmentId ← requireStr body "acknowledgment_id"
    let receiptId ← requireStr body "receipt_id"
    let receiptSha256 ← requireStr body "receipt_sha256"
    let clientTimestamp ← requireStr body "client_timestamp"
    let receivedAt ← requireStr body "received_at"
    let apiKeyId ← requireStr callerBody "api_key_id"
    let agentIdentity ← optionalWith
      (requireDict · "receipt acknowledgment agent identity") (callerBody.get "agent_identity")
    let evidence ← parseOutcomeEvidence L (body.get "evidence")
    return { acknowledgmentId, receiptId, receiptSha256, clientTimestamp, receivedAt,
             caller := { apiKeyId, agentIdentity }, evidence }

/-- `acknowledge_receipt`, from the body on. -/
def acknowledgeReply (L : Libs) (receiptId : Str) (raw : Json) :
    Except Exc ReceiptAcknowledgment := do
  let response ← parseAcknowledgment L raw
  if response.receiptId ≠ receiptId then
    protocolError "receipt acknowledgment response does not match the requested receipt" none
  else return response

/-- `get_receipt_acknowledgment`, from the body on. -/
def acknowledgmentReply (L : Libs) (receiptId acknowledgmentId : Str) (raw : Json) :
    Except Exc ReceiptAcknowledgment := do
  let response ← parseAcknowledgment L raw
  if response.receiptId ≠ receiptId ∨ response.acknowledgmentId ≠ acknowledgmentId then
    protocolError "receipt acknowledgment response does not match the requested acknowledgment" none
  else return response

/-- `acknowledge_receipt`. -/
def acknowledgeReceipt (L : Libs) (c : Client) (receiptId receiptSha256 : Str) (time : TimeArg)
    (idempotencyKey : Str) (agentToken : Option Str) : Call ReceiptAcknowledgment := do
  if (Route.acknowledgments receiptId).path = none then
    raise (.value "'utf-8' codec can't encode")
  else
    let timestamp ← computed (clientTimestampOf L time)
    let raw ← callRoute L c (.acknowledgments receiptId)
      (some (.ofList [("receipt_sha256", .str receiptSha256), ("client_timestamp", .str timestamp)]))
      agentToken (some idempotencyKey) [200, 201]
    computed (acknowledgeReply L receiptId raw)

/-- `get_receipt_acknowledgment`. -/
def getReceiptAcknowledgment (L : Libs) (c : Client) (receiptId acknowledgmentId : Str)
    (agentToken : Option Str) : Call ReceiptAcknowledgment := do
  let raw ← callRoute L c (.acknowledgment receiptId acknowledgmentId) none agentToken none [200]
  computed (acknowledgmentReply L receiptId acknowledgmentId raw)

/-! ### Budgets -/

structure BudgetSettlement where
  checkReceiptId : Str
  authorizationId : Str
  estimatedCostMicros : Int
  actualCostMicros : Int
  deltaMicros : Int
  spentBeforeMicros : Int
  spentAfterMicros : Int
  receipt : ReceiptEnvelope
  deriving DecidableEq

/-- `_parse_budget_settlement_response`. -/
def parseSettlement (L : Libs) (raw : Json) : Except Exc BudgetSettlement := do
  let raw ← requireDict raw "budget settlement response"
  let checkReceiptId ← requireStr raw "check_receipt_id"
  let authorizationId ← requireStr raw "authorization_id"
  let estimatedCostMicros ← requireInt raw "estimated_cost_micros"
  let actualCostMicros ← requireInt raw "actual_cost_micros"
  let deltaMicros ← requireInt raw "delta_micros"
  let spentBeforeMicros ← requireInt raw "spent_before_micros"
  let spentAfterMicros ← requireInt raw "spent_after_micros"
  let receipt ← parseReceiptEnvelope L (raw.get "receipt")
  return { checkReceiptId, authorizationId, estimatedCostMicros, actualCostMicros, deltaMicros,
           spentBeforeMicros, spentAfterMicros, receipt }

/-- `settle_budget`. -/
def settleBudget (L : Libs) (c : Client) (checkReceiptId : Str) (actualCostMicros : Int)
    (idempotencyKey : Option Str) : Call BudgetSettlement := do
  let raw ← callPlain L c .budgetSettlements
    (some (.ofList [("check_receipt_id", .str checkReceiptId),
      ("actual_cost_micros", .int actualCostMicros)])) (keyHeaders idempotencyKey) [200]
  computed (parseSettlement L raw)

/-! ### Authorizations -/

/-- `_require_str_list`. -/
def requireStrList (raw : Json) (key : String) : Except Exc (List Str) :=
  match raw.get key with
  | .arr items => items.mapM fun item => match item with
    | .str s => .ok s
    | _ => protocolError (key ++ " must be an array of strings") none
  | _ => protocolError (key ++ " must be an array of strings") none

structure AuthorizationRevocation where
  authorizationId : Str
  revokedAt : Str
  receipt : ReceiptEnvelope
  revokedConfirmations : List Str
  deriving DecidableEq

/-- `authorizations.revoke`, from the body on. Only an object has a `get`. -/
def revokeReply (raw : Json) : Except Exc AuthorizationRevocation := do
  if raw.isObj = false then .error .attribute
  else
    let authorizationId ← requireStr raw "authorization_id"
    let revokedAt ← requireStr raw "revoked_at"
    let receipt ← parsePendingEnvelope (raw.get "receipt")
    let revokedConfirmations ← requireStrList raw "revoked_confirmations"
    return { authorizationId, revokedAt, receipt, revokedConfirmations }

/-- The members of a body that are not left out. -/
def nonEmptyMembers (members : List (String × Option Str)) : List (String × Json) :=
  members.filterMap fun m => match m.2 with
    | some (x :: xs) => some (m.1, .str (x :: xs))
    | _ => none

/-- `authorizations.revoke`. -/
def revoke (L : Libs) (c : Client) (authorizationId : Str) (revokedBy notes : Option Str)
    (idempotencyKey : Option Str) : Call AuthorizationRevocation := do
  let members := nonEmptyMembers [("revoked_by", revokedBy), ("notes", notes)]
  let raw ← callPlain L c (.authorization authorizationId)
    (if members = [] then none else some (.ofList members)) (keyHeaders idempotencyKey) [200]
  computed (revokeReply raw)

/-! ### Confirmations and escalations -/

/-- `_require_null`. -/
def requireNull (raw : Json) (key : String) : Except Exc Unit :=
  if raw.has key = false ∨ raw.get key ≠ .null then protocolError (key ++ " must be null") none
  else .ok ()

structure ConfirmationApproval where
  approved : Bool
  authorizationId : Option Str
  expiresAt : Option Str
  receipt : Option ReceiptEnvelope
  deriving DecidableEq

/-- `confirmations.approve`, from the body on. Only an object has a `get`. -/
def approveReply (raw : Json) : Except Exc ConfirmationApproval := do
  if raw.isObj = false then .error .attribute
  else
    let decision ← requireStr raw "decision"
    if decision ≠ lit "approved" ∧ decision ≠ lit "not_approved" then
      protocolError "unknown confirmation decision: " (some decision)
    else if decision = lit "approved" then
      let authorizationId ← requireStr raw "authorization_id"
      let expiresAt ← requireStr raw "expires_at"
      let receipt ← optionalWith parsePendingEnvelope (raw.get "receipt")
      return { approved := true, authorizationId := some authorizationId,
               expiresAt := some expiresAt, receipt }
    else
      requireNull raw "authorization_id"
      requireNull raw "expires_at"
      let receipt ← optionalWith parsePendingEnvelope (raw.get "receipt")
      return { approved := false, authorizationId := none, expiresAt := none, receipt }

/-- `confirmations.approve`. -/
def approve (L : Libs) (c : Client) (nonce : Str) (approved : Bool) (ttlSeconds : Int)
    (idempotencyKey : Option Str) : Call ConfirmationApproval := do
  let raw ← callPlain L c (.confirmation nonce)
    (some (.ofList [("approved", .bool approved), ("ttl_seconds", .int ttlSeconds)]))
    (keyHeaders idempotencyKey) [200]
  computed (approveReply raw)

/-- `_status_nullable_str`. -/
def statusNullableStr (raw : Json) (key : String) : Except Exc (Option Str) := do
  if raw.has key = false then
    protocolError (key ++ " must be present as a string or null") none
  else
    let value ← optionalStr raw key
    if value = some [] ∧ key ≠ "resource" then
      protocolError (key ++ " must be non-empty or null") none
    else return value

/-- A text that is read as a time of a status. -/
def statusTime (L : Libs) (key : String) (value : Str) : Except Exc Str :=
  let refused := protocolError (key ++ " must be a valid timezone-aware timestamp") none
  let shaped := hasForm L (lit "0000-00-00T00:00:00") (value.take 19)
    && (match dropFraction L (value.drop 19) with
      | some zone => zoneValid L zone
      | none => false)
  if shaped = false then refused
  else
    match clientTimestamp L value with
    | .ok s => .ok s
    | .error _ => refused

/-- `_status_timestamp`, nullable. -/
def statusNullableTime (L : Libs) (raw : Json) (key : String) : Except Exc (Option Str) := do
  let value ← statusNullableStr raw key
  match value with
  | none => return none
  | some s => (statusTime L key s).map some

inductive PromptStatus where
  | pending
  | approved
  | rejected
  | expired
  | unknown
  deriving DecidableEq

def PromptStatus.text : PromptStatus → Str
  | pending => lit "pending"
  | approved => lit "approved"
  | rejected => lit "rejected"
  | expired => lit "expired"
  | unknown => lit "unknown"

def PromptStatus.all : List PromptStatus := [pending, approved, rejected, expired, unknown]

/-- What both kinds of prompts have. -/
structure PromptInfo where
  authorizationId : Str
  action : Str
  resource : Option Str
  status : PromptStatus
  expiresAt : Str
  resolvedAt : Option Str
  sourceReceiptId : Option Str
  resolutionReceiptId : Option Str
  deriving DecidableEq

/-- `_parse_prompt_status`. -/
def parsePromptStatus (L : Libs) (raw : Json) : Except Exc PromptInfo := do
  let statusText ← requireStr raw "status"
  let status ← parseEnum PromptStatus.all PromptStatus.text "unknown prompt status: " statusText
  let authorizationId ← requireStr raw "authorization_id"
  let action ← requireStr raw "action"
  if authorizationId = [] ∨ action = [] then
    protocolError "status authorization_id and action must be non-empty" none
  else
    let resolvedAt ← statusNullableTime L raw "resolved_at"
    if (status = .pending ∨ status = .expired) ∧ resolvedAt ≠ none then
      protocolError "unresolved prompt resolved_at must be null" none
    else
      let resource ← statusNullableStr raw "resource"
      let expiresText ← requireStr raw "expires_at"
      let expiresAt ← statusTime L "expires_at" expiresText
      let sourceReceiptId ← statusNullableStr raw "source_receipt_id"
      let resolutionReceiptId ← statusNullableStr raw "resolution_receipt_id"
      return { authorizationId, action, resource, status, expiresAt, resolvedAt, sourceReceiptId,
               resolutionReceiptId }

/-- The state of what a prompt has granted. Only an escalation is consumed. -/
inductive AuthorityStatus where
  | none
  | available
  | expired
  | revoked
  | consumed
  | unknown
  deriving DecidableEq

def AuthorityStatus.text : AuthorityStatus → Str
  | none => lit "none"
  | available => lit "available"
  | expired => lit "expired"
  | revoked => lit "revoked"
  | consumed => lit "consumed"
  | unknown => lit "unknown"

structure ConfirmationStatus where
  base : PromptInfo
  confirmationId : Str
  childAuthorizationId : Option Str
  authorityStatus : AuthorityStatus
  authorityExpiresAt : Option Str
  deriving DecidableEq

/-- `_parse_confirmation_status`. -/
def parseConfirmationStatus (L : Libs) (expectedId : Str) (value : Json) :
    Except Exc ConfirmationStatus := do
  let raw ← requireDict value "confirmation status"
  let confirmationId ← requireStr raw "confirmation_id"
  if confirmationId ≠ expectedId then
    protocolError "confirmation_id does not match the request" none
  else
    let base ← parsePromptStatus L raw
    let authorityText ← requireStr raw "authority_status"
    let authorityStatus ← parseEnum [.none, .available, .expired, .revoked, .unknown]
      AuthorityStatus.text "unknown confirmation authority_status: " authorityText
    let childAuthorizationId ← statusNullableStr raw "child_authorization_id"
    let authorityExpiresAt ← statusNullableTime L raw "authority_expires_at"
    if authorityStatus = .available ∧ (base.status ≠ .approved ∨ childAuthorizationId = none
        ∨ authorityExpiresAt = none) then
      protocolError "available confirmation authority requires an approved choice and child grant"
        none
    else if base.status = .rejected ∧ authorityStatus ≠ .none then
      protocolError "rejected confirmation authority_status must be none" none
    else return { base, confirmationId, childAuthorizationId, authorityStatus, authorityExpiresAt }

structure EscalationStatus where
  base : PromptInfo
  escalationId : Str
  authorityStatus : AuthorityStatus
  consumedAt : Option Str
  deriving DecidableEq

/-- `_parse_escalation_status`. -/
def parseEscalationStatus (L : Libs) (expectedId : Str) (value : Json) :
    Except Exc EscalationStatus := do
  let raw ← requireDict value "escalation status"
  let escalationId ← requireStr raw "escalation_id"
  if escalationId ≠ expectedId then
    protocolError "escalation_id does not match the request" none
  else
    let base ← parsePromptStatus L raw
    let authorityText ← requireStr raw "authority_status"
    let authorityStatus ← parseEnum [.none, .available, .expired, .revoked, .consumed, .unknown]
      AuthorityStatus.text "unknown escalation authority_status: " authorityText
    if authorityStatus = .available ∧ base.status ≠ .approved then
      protocolError "available escalation authority requires an approved choice" none
    else if base.status = .rejected ∧ authorityStatus ≠ .none then
      protocolError "rejected escalation authority_status must be none" none
    else
      let consumedAt ← statusNullableTime L raw "consumed_at"
      return { base, escalationId, authorityStatus, consumedAt }

/-- `_validate_prompt_id`. -/
def validatePromptId (start : String) (id : Str) : Except Exc Unit :=
  match dropWord (lit start) id with
  | some rest =>
    if 1 ≤ rest.length ∧ rest.length ≤ 256 ∧ rest.all isWordDash = true then .ok ()
    else valueError "prompt ID must be an opaque monitor ID"
  | none => valueError "prompt ID must be an opaque monitor ID"

/-- `confirmations.get_status`. -/
def confirmationGetStatus (L : Libs) (c : Client) (confirmationId : Str) :
    Call ConfirmationStatus := do
  computed (validatePromptId "cnf_" confirmationId)
  let raw ← callPlain L c (.confirmationStatus confirmationId) none [] [200]
  computed (parseConfirmationStatus L confirmationId raw)

/-- `escalations.get_status`. -/
def escalationGetStatus (L : Libs) (c : Client) (escalationId : Str) : Call EscalationStatus := do
  computed (validatePromptId "esc_" escalationId)
  let raw ← callPlain L c (.escalation escalationId) none [] [200]
  computed (parseEscalationStatus L escalationId raw)

/-- Three of its fields are passed on as they are. -/
structure EscalationResolution where
  escalationId : Json
  approved : Bool
  resolvedBy : Json
  resolvedAt : Json
  receipt : Option ReceiptEnvelope
  deriving DecidableEq

/-- `escalations.resolve`, from the body on. Only an object has a `get`, and the ID is read
    as `raw["escalation_id"]`. -/
def resolveReply (raw : Json) : Except Exc EscalationResolution := do
  if raw.isObj = false then .error .attribute
  else
    let status ← requireStr raw "status"
    if status ≠ lit "approved" ∧ status ≠ lit "rejected" then
      protocolError "unknown escalation status: " (some status)
    else if raw.has "escalation_id" = false then .error .key
    else
      let receipt ← optionalWith parsePendingEnvelope (raw.get "receipt")
      return { escalationId := raw.get "escalation_id", approved := status = lit "approved",
               resolvedBy := raw.get "resolved_by", resolvedAt := raw.get "resolved_at", receipt }

/-- `escalations.resolve`. -/
def resolve (L : Libs) (c : Client) (escalationId resolution resolvedBy : Str)
    (note : Option Str) : Call EscalationResolution := do
  let raw ← callPlain L c (.escalationResolve escalationId)
    (some (.ofList [("resolution", .str resolution), ("resolved_by", .str resolvedBy),
      ("note", optionText note)])) [] [200]
  computed (resolveReply raw)

/-! ### Policies and observed events -/

/-- `policies.get`, from the body on. -/
def policyReply (L : PolicyLibs) (policyId : Str) (raw : Json) : Except Exc PolicyResponse := do
  let response ← parsePolicy L raw
  if response.policyRef.policyId ≠ policyId then
    protocolError "policy response does not match the requested logical ID" none
  else return response

/-- `policies.get`. -/
def policyGet (L : PolicyLibs) (c : Client) (policyId : Str) : Call PolicyResponse := do
  let id ← computed (boundedText (.str policyId) "policy_id" 128)
  let raw ← callPlain L.toLibs c (.policy id) none [] [200]
  computed (policyReply L policyId raw)

/-- `_event_id`. -/
def eventIdOf (value : Json) : Except Exc Str :=
  let refused := protocolError "event_id must be 1 to 128 safe ASCII characters" none
  match value with
  | .str (c :: rest) =>
    if isAlnum c ∧ rest.length ≤ 127
        ∧ rest.all (fun d => isWordDash d || d == 46 || d == 58) = true then
      .ok (c :: rest)
    else refused
  | _ => refused

/-- `_choice`. -/
def choiceOf (value : Json) (choices : List String) (name : String) : Except Exc Str :=
  match value with
  | .str s => if s ∈ choices.map lit then .ok s else protocolError (name ++ " is unsupported") none
  | _ => protocolError (name ++ " is unsupported") none

/-- Text, or null, with a bound. -/
def nullableText (raw : Json) (name : String) (limit : Nat) : Except Exc (Option Str) :=
  optionalWith (boundedText · name limit) (raw.get name)

/-- Its `mode` and `intervention` have one value each. -/
structure ObserveEventStatus where
  eventId : Str
  agentId : Str
  action : Str
  policyRef : PolicyReference
  reportedExecution : Str
  processingStatus : Str
  assessmentStatus : Str
  signingStatus : Str
  observedActionId : Option Str
  assessmentId : Option Str
  dashboardUrl : Option Str
  lastError : Option Str
  deriving DecidableEq

def observeFields : List String :=
  ["event_id", "agent_id", "action", "policy_ref", "mode", "intervention", "reported_execution",
    "processing_status", "assessment_status", "signing_status", "observed_action_id",
    "assessment_id", "dashboard_url", "last_error"]

/-- `_status`, without an event that was submitted. -/
def parseObserveStatus (L : PolicyLibs) (expectedId : Str) (value : Json) :
    Except Exc ObserveEventStatus := do
  let document ← document L value "Observe status" (16 * 1024)
  let raw ← keysOf document observeFields "Observe status" []
  let eventId ← eventIdOf (raw.get "event_id")
  let agentId ← boundedText (raw.get "agent_id") "agent_id" 128
  let action ← boundedText (raw.get "action") "action" 64
  let policyRef ← parsePolicyReference L (raw.get "policy_ref")
  let _ ← choiceOf (raw.get "mode") ["observe"] "mode"
  let _ ← choiceOf (raw.get "intervention") ["none"] "intervention"
  let reportedExecution ← choiceOf (raw.get "reported_execution")
    ["accepted", "sent", "failed", "unknown"] "reported_execution"
  let processingStatus ← choiceOf (raw.get "processing_status")
    ["pending", "processing", "complete", "failed"] "processing_status"
  let assessmentStatus ← choiceOf (raw.get "assessment_status")
    ["not_assessed", "no_violation_found", "violation_detected", "insufficient_evidence"]
    "assessment_status"
  let signingStatus ← choiceOf (raw.get "signing_status") ["unavailable", "pending", "signed"]
    "signing_status"
  let observedActionId ← nullableText raw "observed_action_id" 128
  let assessmentId ← nullableText raw "assessment_id" 128
  let dashboardUrl ← nullableText raw "dashboard_url" 2048
  let lastError ← nullableText raw "last_error" 128
  if eventId ≠ expectedId then
    protocolError "Observe response does not match the submitted event" none
  else
    return { eventId, agentId, action, policyRef, reportedExecution, processingStatus,
             assessmentStatus, signingStatus, observedActionId, assessmentId, dashboardUrl,
             lastError }

/-- `observe.get`. -/
def observeGet (L : PolicyLibs) (c : Client) (eventId : Str) : Call ObserveEventStatus := do
  let id ← computed (eventIdOf (.str eventId))
  let raw ← callPlain L.toLibs c (.observeEvent id) none [] [200]
  computed (parseObserveStatus L eventId raw)

end Allowly

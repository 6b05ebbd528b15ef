import Allowly.Base.JsonText
import Allowly.Core.Types

/-!
# Parsing Responses

The strict parsers of `client.py`, from decoded JSON to the types of `Core.Types`.
Each reads the members in the order the source does, because the first one that is
wrong decides which error is raised.

A member that is missing reads as null, as `dict.get` has it. Where the source looks
a value up in a set, an unhashable value raises `TypeError` there; this happens for
the `evidence_error` of an outcome.

## Main definitions

* `requireDict`, `requireStr`, `requireInt`, `optionalStr`: The field checks.
* `parseReceiptEnvelope`: A pending or signed receipt.
* `parseReview`, `parseDownstream`, `parseOutcomeEvidence`, `parseDescriptor`: The parts.
* `parseExecutionResponse`: `_parse_execution_response`.
-/

namespace Allowly

open Py

def protocolError {A : Type} (text : String) (shown : Option Str) : Except Exc A :=
  .error (.protocol text shown)

/-- `_require_dict`: the object itself. -/
def requireDict (value : Json) (name : String) : Except Exc Json :=
  if value.isObj then .ok value else protocolError (name ++ " must be an object") none

def requireStr (raw : Json) (key : String) : Except Exc Str :=
  match raw.get key with
  | .str s => .ok s
  | _ => protocolError (key ++ " must be a string") none

def requireInt (raw : Json) (key : String) : Except Exc Int :=
  match raw.get key with
  | .int n => .ok n
  | _ => protocolError (key ++ " must be an integer") none

def optionalStr (raw : Json) (key : String) : Except Exc (Option Str) :=
  match raw.get key with
  | .null => .ok none
  | .str s => .ok (some s)
  | _ => protocolError (key ++ " must be a string or null") none

/-- A value that is parsed unless it is null. -/
def optionalWith {A : Type} (parse : Json → Except Exc A) (value : Json) : Except Exc (Option A) :=
  if value = .null then .ok none else (parse value).map some

/-- The member of a closed set that a text stands for. -/
def parseEnum {A : Type} (all : List A) (text : A → Str) (error : String) (value : Str) :
    Except Exc A :=
  match all.find? fun a => text a == value with
  | some a => .ok a
  | none => protocolError error (some value)

def parsePendingEnvelope (raw : Json) : Except Exc ReceiptEnvelope := do
  let raw ← requireDict raw "pending receipt envelope"
  if raw.get "status" ≠ .str (lit "pending") then
    protocolError "receipt status must be 'pending'" none
  else
    let receiptId ← requireStr raw "receipt_id"
    let readyAtEstimate ← optionalStr raw "ready_at_estimate"
    let url ← requireStr raw "url"
    return .pending receiptId readyAtEstimate url

def parseReceiptEnvelope (L : Libs) (raw : Json) : Except Exc ReceiptEnvelope := do
  let raw ← requireDict raw "receipt envelope"
  if raw.get "status" = .str (lit "pending") then parsePendingEnvelope raw
  else if raw.get "status" = .str (lit "signed") then
    let receipt ← requireDict (raw.get "receipt") "signed receipt"
    match L.decodeReceipt receipt with
    | .ok _ => return .signed receipt
    | .error text => protocolError "invalid signed receipt: " (some text)
  else protocolError "receipt status must be 'pending' or 'signed'" none

/-- The ID an envelope is about: that of a pending one, or what a signed receipt
    claims. -/
def ReceiptEnvelope.receiptId (L : Libs) : ReceiptEnvelope → Json
  | .pending receiptId _ _ => .str receiptId
  | .signed receipt =>
    match L.decodeReceipt receipt with
    | .ok claims => claims.get "receipt_id"
    | .error _ => .null

def parseEscalationInfo (raw : Json) : Except Exc EscalationInfo := do
  let raw ← requireDict raw "escalation"
  let escalationId ← requireStr raw "escalation_id"
  let status ← requireStr raw "status"
  let escalationTo ← optionalStr raw "escalation_to"
  let expiresAt ← optionalStr raw "expires_at"
  return { escalationId, status, escalationTo, expiresAt }

/-- What the ID of a review begins with. -/
def ReviewKind.idStart : ReviewKind → Str
  | confirm => lit "cnf_"
  | escalate => lit "esc_"

def parseReview (raw : Json) : Except Exc ExecutionReview := do
  let body ← requireDict raw "execution review"
  let kindText ← requireStr body "kind"
  match [ReviewKind.confirm, .escalate].find? fun k => k.text == kindText with
  | none => protocolError "invalid execution review kind" none
  | some kind =>
    let id ← requireStr body "id"
    let sourceReceiptId ← requireStr body "source_receipt_id"
    let expiresAt ← requireStr body "expires_at"
    if (dropWord kind.idStart id).isNone ∨ sourceReceiptId = [] then
      protocolError "invalid execution review binding" none
    else return { kind, id, sourceReceiptId, expiresAt }

/-- The kind of review a decision asks for. -/
def ReviewKind.decision : ReviewKind → Decision
  | confirm => .confirm
  | escalate => .escalate

/-- What must hold of a response that waits for a review. -/
def waitingBinding (L : Libs) (body : Json) (decision : Decision) (review : Option ExecutionReview)
    (envelope : ReceiptEnvelope) : Bool :=
  match review with
  | none => false
  | some review =>
    decision = review.kind.decision && .str review.sourceReceiptId = envelope.receiptId L
      && body.get "approval" = .null && body.get "approval_sha256" = .null
      && body.get "downstream" = .null && body.get "decision_state" = .str (lit "not_allowed")
      && body.get "target_state" = .str (lit "not_started")
      && body.get "evidence_state" = .str (lit "pending")

/-- An integer, or null. -/
def optionalInt (value : Json) (error : String) : Except Exc (Option Int) :=
  match value with
  | .null => .ok none
  | .int n => .ok (some n)
  | _ => protocolError error none

/-- Text, or null, with its own error. -/
def optionalText (value : Json) (error : String) : Except Exc (Option Str) :=
  match value with
  | .null => .ok none
  | .str s => .ok (some s)
  | _ => protocolError error none

def parseDownstream (raw : Json) : Except Exc ExecutionDownstream := do
  let body ← requireDict raw "execution downstream"
  let source ← requireStr body "source"
  if source ≠ lit "customer_runtime" then
    protocolError "invalid execution downstream source: " (some source)
  else
    let httpStatus ← optionalInt (body.get "http_status")
      "execution downstream http_status must be an integer or null"
    let responseFingerprint ← optionalText (body.get "response_fingerprint")
      "execution downstream response_fingerprint must be a string or null"
    let scopeText ← requireStr body "response_fingerprint_scope"
    let responseFingerprintScope ← parseEnum [FingerprintScope.complete, .unavailable]
      FingerprintScope.text "invalid execution downstream response_fingerprint_scope: " scopeText
    let result ← requireDict (body.get "result") "execution downstream result"
    let completion ← requireStr body "business_completion"
    if completion ≠ lit "not_verified" then
      protocolError "invalid execution downstream business_completion: " (some completion)
    else return { httpStatus, responseFingerprint, responseFingerprintScope, result }

/-- `evidence_error not in {None, "unavailable"}`: is it the one text allowed? -/
def parseEvidenceError (value : Json) : Except Exc Bool :=
  match value with
  | .null => .ok false
  | .str s =>
    if s = lit "unavailable" then .ok true
    else protocolError "invalid outcome evidence error: " (some s)
  | .arr _ => .error .type
  | .obj _ => .error .type
  | _ => protocolError "invalid outcome evidence error: " none

def parseOutcomeEvidence (L : Libs) (raw : Json) : Except Exc OutcomeEvidence := do
  let body ← requireDict raw "outcome evidence"
  let profile ← requireStr body "profile"
  if profile ≠ lit "allowly.seal.jcs-sha256.v1" then
    protocolError "invalid outcome evidence profile: " (some profile)
  else
    let unavailable ← parseEvidenceError (body.get "evidence_error")
    let record ← requireDict (body.get "record") "outcome evidence record"
    let recordSha256 ← requireStr body "record_sha256"
    let receipt ← optionalWith (parseReceiptEnvelope L) (body.get "receipt")
    return { record, recordSha256, receipt, unavailable }

def httpMethods : List Str := [lit "GET", lit "POST", lit "PUT", lit "PATCH", lit "DELETE"]

def parseHeader (item : Json) : Except Exc (Str × Str) := do
  let header ← requireDict item "execution request header"
  let name ← requireStr header "name"
  let valueSha256 ← requireStr header "value_sha256"
  return (name, valueSha256)

/-- The headers of a descriptor. -/
def parseHeaders (value : Json) : Except Exc (List (Str × Str)) :=
  match value with
  | .arr items => items.mapM parseHeader
  | _ => protocolError "execution request descriptor headers must be an array" none

def parseDescriptor (raw : Json) : Except Exc ExecutionRequestDescriptor := do
  let body ← requireDict raw "execution request descriptor"
  let method ← requireStr body "method"
  if method ∉ httpMethods then
    protocolError "invalid execution request descriptor method: " (some method)
  else
    let headers ← parseHeaders (body.get "headers")
    let operationId ← requireStr body "operation_id"
    let authorizationId ← requireStr body "authorization_id"
    let destinationId ← requireStr body "destination_id"
    let action ← requireStr body "action"
    let origin ← requireStr body "origin"
    let path ← requireStr body "path"
    let query ← requireStr body "query"
    let bodySha256 ← requireStr body "body_sha256"
    let bodySize ← requireInt body "body_size"
    let contentType ← optionalStr body "content_type"
    return { operationId, authorizationId, destinationId, action, method, origin, path, query,
             headers, bodySha256, bodySize, contentType }

/-- Does the response have a valid review, if it waits for one? -/
def waitingValid (L : Libs) (body : Json) (status : ExecutionStatus) (decision : Decision)
    (review : Option ExecutionReview) : Except Exc Bool :=
  if status = .waitingForReview then
    (parseReceiptEnvelope L (body.get "decision_receipt")).map
      (waitingBinding L body decision review)
  else .ok true

/-- `_parse_execution_response`. -/
def parseExecutionResponse (L : Libs) (raw : Json) : Except Exc ExecutionResponse := do
  let body ← requireDict raw "execution response"
  let operationId ← requireStr body "operation_id"
  let destinationId ← requireStr body "destination_id"
  let action ← requireStr body "action"
  let statusText ← requireStr body "status"
  let status ← parseEnum ExecutionStatus.all ExecutionStatus.text "invalid execution status: "
    statusText
  let decisionText ← requireStr body "decision"
  let decision ← parseEnum Decision.all Decision.text "invalid execution decision: " decisionText
  let review ← optionalWith parseReview (body.get "review")
  let waits ← waitingValid L body status decision review
  if waits = false then
    protocolError "waiting execution has an invalid review binding" none
  else
    let downstream ← optionalWith parseDownstream (body.get "downstream")
    let outcomeEvidence ← optionalWith (parseOutcomeEvidence L) (body.get "outcome_evidence")
    let profile ← requireStr body "request_fingerprint_profile"
    if profile ≠ lit "allowly.execution.request.v1" then
      protocolError "invalid execution request fingerprint profile: " (some profile)
    else
      let requestDescriptor ← parseDescriptor (body.get "request_descriptor")
      if requestDescriptor.operationId ≠ operationId
          ∨ requestDescriptor.destinationId ≠ destinationId ∨ requestDescriptor.action ≠ action then
        protocolError "execution request descriptor does not match the response" none
      else
        let reason ← requireStr body "reason"
        let requestFingerprint ← requireStr body "request_fingerprint"
        let decisionReceipt ← parseReceiptEnvelope L (body.get "decision_receipt")
        let confirmationId ← optionalStr body "confirmation_id"
        let confirmNonce ← optionalStr body "confirm_nonce"
        let confirmExpiresAt ← optionalStr body "confirm_expires_at"
        let confirmPromptHint ← optionalStr body "confirm_prompt_hint"
        let escalationId ← optionalStr body "escalation_id"
        let escalationExpiresAt ← optionalStr body "escalation_expires_at"
        let escalationTo ← optionalStr body "escalation_to"
        let escalation ← optionalWith parseEscalationInfo (body.get "escalation")
        let effectiveEvidenceMode ← optionalStr body "effective_evidence_mode"
        let approvalSha256 ← optionalStr body "approval_sha256"
        let approvalExpiresAt ← optionalStr body "approval_expires_at"
        let decisionState ← optionalStr body "decision_state"
        let targetState ← optionalStr body "target_state"
        let evidenceState ← optionalStr body "evidence_state"
        return { operationId, status, decision, reason, destinationId, action, requestFingerprint,
                 requestDescriptor, decisionReceipt, downstream, outcomeEvidence, confirmNonce,
                 confirmExpiresAt, confirmPromptHint, escalationId, escalationExpiresAt,
                 escalationTo, escalation, effectiveEvidenceMode, approval := body.get "approval",
                 approvalSha256, approvalExpiresAt, decisionState, targetState, evidenceState,
                 witnessSession := body.get "witness_session", confirmationId, review }

end Allowly

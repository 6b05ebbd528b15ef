import Allowly.Core.Error

/-!
# Response Types

The data classes a runtime answer is parsed into, and their `asdict`.

A field with a closed set of values is an inductive type here, with `text` for the
value as it is written. Fields that the parser lets through unchecked keep the type
they have on the wire: `approval` and `witness_session` are any value, and the three
state fields of an execution are any text.

## Main definitions

* `ReceiptEnvelope`, `ExecutionReview`, `ExecutionDownstream`, `OutcomeEvidence`,
  `EscalationInfo`, `ExecutionRequestDescriptor`: The parts of an execution response.
* `ExecutionResponse`: The execution response.
* `toJson`: `asdict` of each.
-/

namespace Allowly

open Py

inductive Decision where
  | allow
  | deny
  | confirm
  | escalate
  deriving DecidableEq

def Decision.text : Decision → Str
  | allow => lit "allow"
  | deny => lit "deny"
  | confirm => lit "confirm"
  | escalate => lit "escalate"

def Decision.all : List Decision := [allow, deny, confirm, escalate]

inductive ExecutionStatus where
  | approved
  | denied
  | confirmationRequired
  | escalationRequired
  | waitingForReview
  | succeeded
  | failed
  | unknown
  deriving DecidableEq

def ExecutionStatus.text : ExecutionStatus → Str
  | approved => lit "approved"
  | denied => lit "denied"
  | confirmationRequired => lit "confirmation_required"
  | escalationRequired => lit "escalation_required"
  | waitingForReview => lit "waiting_for_review"
  | succeeded => lit "succeeded"
  | failed => lit "failed"
  | unknown => lit "unknown"

def ExecutionStatus.all : List ExecutionStatus :=
  [approved, denied, confirmationRequired, escalationRequired, waitingForReview, succeeded, failed,
    unknown]

/-- Text as a JSON value, `None` as null. -/
def optionText (s : Option Str) : Json := Json.ofOption (s.map .str)

inductive ReceiptEnvelope where
  | pending (receiptId : Str) (readyAtEstimate : Option Str) (url : Str)
  | signed (receipt : Json)
  deriving DecidableEq

def ReceiptEnvelope.toJson : ReceiptEnvelope → Json
  | pending receiptId readyAtEstimate url =>
    .ofList [("status", .str (lit "pending")), ("receipt_id", .str receiptId),
      ("ready_at_estimate", optionText readyAtEstimate), ("url", .str url)]
  | signed receipt => .ofList [("status", .str (lit "signed")), ("receipt", receipt)]

inductive ReviewKind where
  | confirm
  | escalate
  deriving DecidableEq

def ReviewKind.text : ReviewKind → Str
  | confirm => lit "confirm"
  | escalate => lit "escalate"

structure ExecutionReview where
  kind : ReviewKind
  id : Str
  sourceReceiptId : Str
  expiresAt : Str
  deriving DecidableEq

def ExecutionReview.toJson (r : ExecutionReview) : Json :=
  .ofList [("kind", .str r.kind.text), ("id", .str r.id),
    ("source_receipt_id", .str r.sourceReceiptId), ("expires_at", .str r.expiresAt)]

inductive FingerprintScope where
  | complete
  | unavailable
  deriving DecidableEq

def FingerprintScope.text : FingerprintScope → Str
  | complete => lit "complete"
  | unavailable => lit "unavailable"

/-- Its `source` and `business_completion` have one value each. -/
structure ExecutionDownstream where
  httpStatus : Option Int
  responseFingerprint : Option Str
  responseFingerprintScope : FingerprintScope
  result : Json
  deriving DecidableEq

def ExecutionDownstream.toJson (d : ExecutionDownstream) : Json :=
  .ofList [("source", .str (lit "customer_runtime")),
    ("http_status", .ofOption (d.httpStatus.map .int)),
    ("response_fingerprint", optionText d.responseFingerprint),
    ("response_fingerprint_scope", .str d.responseFingerprintScope.text),
    ("result", d.result), ("business_completion", .str (lit "not_verified"))]

/-- Its `profile` has one value, and `evidence_error` at most one. -/
structure OutcomeEvidence where
  record : Json
  recordSha256 : Str
  receipt : Option ReceiptEnvelope
  unavailable : Bool
  deriving DecidableEq

def OutcomeEvidence.toJson (e : OutcomeEvidence) : Json :=
  .ofList [("profile", .str (lit "allowly.seal.jcs-sha256.v1")), ("record", e.record),
    ("record_sha256", .str e.recordSha256),
    ("receipt", .ofOption (e.receipt.map ReceiptEnvelope.toJson)),
    ("evidence_error", if e.unavailable then .str (lit "unavailable") else .null)]

structure EscalationInfo where
  escalationId : Str
  status : Str
  escalationTo : Option Str
  expiresAt : Option Str
  deriving DecidableEq

def EscalationInfo.toJson (e : EscalationInfo) : Json :=
  .ofList [("escalation_id", .str e.escalationId), ("status", .str e.status),
    ("escalation_to", optionText e.escalationTo), ("expires_at", optionText e.expiresAt)]

/-- A header name with the digest of its value. -/
def headerJson (h : Str × Str) : Json :=
  .ofList [("name", .str h.1), ("value_sha256", .str h.2)]

structure ExecutionRequestDescriptor where
  operationId : Str
  authorizationId : Str
  destinationId : Str
  action : Str
  method : Str
  origin : Str
  path : Str
  query : Str
  headers : List (Str × Str)
  bodySha256 : Str
  bodySize : Int
  contentType : Option Str
  deriving DecidableEq

def ExecutionRequestDescriptor.toJson (d : ExecutionRequestDescriptor) : Json :=
  .ofList [("operation_id", .str d.operationId), ("authorization_id", .str d.authorizationId),
    ("destination_id", .str d.destinationId), ("action", .str d.action), ("method", .str d.method),
    ("origin", .str d.origin), ("path", .str d.path), ("query", .str d.query),
    ("headers", .arr (d.headers.map headerJson)), ("body_sha256", .str d.bodySha256),
    ("body_size", .int d.bodySize), ("content_type", optionText d.contentType)]

/-- Its `request_fingerprint_profile` has one value. -/
structure ExecutionResponse where
  operationId : Str
  status : ExecutionStatus
  decision : Decision
  reason : Str
  destinationId : Str
  action : Str
  requestFingerprint : Str
  requestDescriptor : ExecutionRequestDescriptor
  decisionReceipt : ReceiptEnvelope
  downstream : Option ExecutionDownstream
  outcomeEvidence : Option OutcomeEvidence
  confirmNonce : Option Str
  confirmExpiresAt : Option Str
  confirmPromptHint : Option Str
  escalationId : Option Str
  escalationExpiresAt : Option Str
  escalationTo : Option Str
  escalation : Option EscalationInfo
  effectiveEvidenceMode : Option Str
  approval : Json
  approvalSha256 : Option Str
  approvalExpiresAt : Option Str
  decisionState : Option Str
  targetState : Option Str
  evidenceState : Option Str
  witnessSession : Json
  confirmationId : Option Str
  review : Option ExecutionReview
  deriving DecidableEq

/-- `asdict`. -/
def ExecutionResponse.toJson (r : ExecutionResponse) : Json :=
  .ofList [("operation_id", .str r.operationId), ("status", .str r.status.text),
    ("decision", .str r.decision.text), ("reason", .str r.reason),
    ("destination_id", .str r.destinationId), ("action", .str r.action),
    ("request_fingerprint_profile", .str (lit "allowly.execution.request.v1")),
    ("request_fingerprint", .str r.requestFingerprint),
    ("request_descriptor", r.requestDescriptor.toJson),
    ("decision_receipt", r.decisionReceipt.toJson),
    ("downstream", .ofOption (r.downstream.map ExecutionDownstream.toJson)),
    ("outcome_evidence", .ofOption (r.outcomeEvidence.map OutcomeEvidence.toJson)),
    ("confirm_nonce", optionText r.confirmNonce),
    ("confirm_expires_at", optionText r.confirmExpiresAt),
    ("confirm_prompt_hint", optionText r.confirmPromptHint),
    ("escalation_id", optionText r.escalationId),
    ("escalation_expires_at", optionText r.escalationExpiresAt),
    ("escalation_to", optionText r.escalationTo),
    ("escalation", .ofOption (r.escalation.map EscalationInfo.toJson)),
    ("effective_evidence_mode", optionText r.effectiveEvidenceMode), ("approval", r.approval),
    ("approval_sha256", optionText r.approvalSha256),
    ("approval_expires_at", optionText r.approvalExpiresAt),
    ("decision_state", optionText r.decisionState), ("target_state", optionText r.targetState),
    ("evidence_state", optionText r.evidenceState), ("witness_session", r.witnessSession),
    ("confirmation_id", optionText r.confirmationId),
    ("review", .ofOption (r.review.map ExecutionReview.toJson))]

end Allowly

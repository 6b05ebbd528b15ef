import Allowly.Core.Webhook

/-!
# The Resolution Webhook Endpoint

The answers about the endpoint that resolution webhooks are delivered to: its configuration,
its signing secret when it is configured or its credential is rotated, and the last deliveries.

Each function is the method of the same resource from the body on. The members are read in
the order of the source, where a keyword argument is evaluated before what is checked after it.

## Main definitions

* `ResolutionWebhookConfig`, `ResolutionWebhookSecret`, `ResolutionWebhookDelivery`: The answers.
* `parseConfig`: `_parse_config`, of `get` and `disable`.
* `parseSecret`: `_parse_secret`, of `configure` and `rotate`.
* `parseWebhookDelivery`, `parseDeliveries`: `_parse_delivery` and `deliveries`.
-/

namespace Allowly

open Py

structure ResolutionWebhookConfig where
  workspaceId : Str
  endpointId : Option Str
  url : Option Str
  enabled : Bool
  credentialVersion : Option Int
  createdAt : Option Str
  updatedAt : Option Str
  deriving DecidableEq

structure ResolutionWebhookSecret extends ResolutionWebhookConfig where
  signingSecret : Str
  deriving DecidableEq

inductive DeliveryStatus where
  | pending
  | delivered
  | failed
  | cancelled
  deriving DecidableEq

def DeliveryStatus.text : DeliveryStatus → Str
  | pending => lit "pending"
  | delivered => lit "delivered"
  | failed => lit "failed"
  | cancelled => lit "cancelled"

structure ResolutionWebhookDelivery where
  eventId : Str
  eventType : EventType
  status : DeliveryStatus
  attempts : Int
  createdAt : Str
  deliveredAt : Option Str
  lastError : Option Str
  deriving DecidableEq

/-- `_ERROR_CODES`. -/
def errorCodes : List String :=
  ["unsafe_url", "dns_error", "timeout", "transport_error", "request_too_large",
    "response_too_large", "invalid_headers", "http_error", "expired", "attempts_exhausted",
    "endpoint_disabled", "endpoint_changed", "endpoint_gone", "workspace_closed"]

/-- Is it null or one of the codes? -/
def knownError (lastError : Option Str) : Bool :=
  lastError.all fun error => (errorCodes.map lit).contains error

/-- `_nullable_timestamp`. -/
def nullableTimestamp (L : Libs) (raw : Json) (key : String) : Except Exc (Option Str) := do
  let value ← nullableString raw key
  match value with
  | none => return none
  | some _ => (timestampOf L raw key).map some

def configKeys : List String :=
  ["workspace_id", "endpoint_id", "url", "enabled", "credential_version", "created_at", "updated_at"]

/-- The version of a credential, counted from one. -/
def versionOf (value : Json) : Except Exc (Option Int) :=
  let refused : Except Exc (Option Int) :=
    protocolError "webhook credential_version must be a positive integer or null" none
  match value with
  | .null => .ok none
  | .int n => if n < 1 then refused else .ok (some n)
  | _ => refused

def enabledOf (value : Json) : Except Exc Bool :=
  match value with
  | .bool b => .ok b
  | _ => protocolError "webhook enabled must be a boolean" none

/-- An endpoint is configured as a whole, or there is none. -/
def checkConfig (c : ResolutionWebhookConfig) : Except Exc ResolutionWebhookConfig :=
  match c.endpointId with
  | none =>
    if c.enabled ∨ c.url ≠ none ∨ c.credentialVersion ≠ none ∨ c.createdAt ≠ none
        ∨ c.updatedAt ≠ none then
      protocolError "missing webhook endpoint must have a disabled null configuration" none
    else .ok c
  | some _ =>
    if c.url = none ∨ c.credentialVersion = none ∨ c.createdAt = none ∨ c.updatedAt = none then
      protocolError "configured webhook endpoint must include its URL, version and timestamps" none
    else .ok c

/-- `_parse_config`. -/
def parseConfig (L : Libs) (value : Json) : Except Exc ResolutionWebhookConfig := do
  let raw ← recordOf value configKeys
  let enabled ← enabledOf (raw.get "enabled")
  let credentialVersion ← versionOf (raw.get "credential_version")
  let workspaceId ← boundedString raw "workspace_id"
  let endpointId ← nullableString raw "endpoint_id"
  let url ← nullableString raw "url"
  let createdAt ← nullableTimestamp L raw "created_at"
  let updatedAt ← nullableTimestamp L raw "updated_at"
  checkConfig { workspaceId, endpointId, url, enabled, credentialVersion, createdAt, updatedAt }

/-- An object without one of its members. -/
def withoutMember (value : Json) (key : String) : Json :=
  .obj (value.members.filter fun m => m.1 != lit key)

/-- `_parse_secret`. -/
def parseSecret (L : Libs) (value : Json) : Except Exc ResolutionWebhookSecret := do
  if value.has "signing_secret" = false then
    protocolError "webhook signing_secret must be present" none
  else
    let secret ← boundedString value "signing_secret"
    let _ ← signingKey secret
    let config ← parseConfig L (withoutMember value "signing_secret")
    if config.endpointId = none then
      protocolError "webhook signing_secret requires a configured endpoint" none
    else return { config with signingSecret := secret }

def deliveryKeys : List String :=
  ["event_id", "event_type", "status", "attempts", "created_at", "delivered_at", "last_error"]

/-- How often it was tried to deliver an event. -/
def attemptsOf (value : Json) : Except Exc Int :=
  match value with
  | .int n =>
    if n < 0 then protocolError "webhook attempts must be a non-negative integer" none else .ok n
  | _ => protocolError "webhook attempts must be a non-negative integer" none

/-- `_parse_delivery` of a resolution webhook. -/
def parseWebhookDelivery (L : Libs) (value : Json) : Except Exc ResolutionWebhookDelivery := do
  let raw ← recordOf value deliveryKeys
  let statusText ← boundedString raw "status"
  match [DeliveryStatus.pending, .delivered, .failed, .cancelled].find?
      fun s => s.text == statusText with
  | none => protocolError "unknown webhook delivery status" none
  | some status =>
    let attempts ← attemptsOf (raw.get "attempts")
    let lastError ← nullableString raw "last_error"
    if knownError lastError = false then
      protocolError "unknown webhook delivery error code" none
    else
      let deliveredAt ← nullableTimestamp L raw "delivered_at"
      if decide (status = .delivered) ≠ deliveredAt.isSome then
        protocolError "webhook delivered_at does not match delivery status" none
      else
        let eventId ← identifierOf raw "event_id" "evt_"
        let eventType ← eventTypeOf raw "event_type"
        let createdAt ← timestampOf L raw "created_at"
        return { eventId, eventType, status, attempts, createdAt, deliveredAt, lastError }

/-- `deliveries`, from the body on. -/
def parseDeliveries (L : Libs) (value : Json) : Except Exc (List ResolutionWebhookDelivery) := do
  let raw ← recordOf value ["items"]
  match raw.get "items" with
  | .arr items =>
    if items.length > 20 then
      protocolError "webhook deliveries must contain at most 20 items" none
    else items.mapM (parseWebhookDelivery L)
  | _ => protocolError "webhook deliveries must contain at most 20 items" none

end Allowly

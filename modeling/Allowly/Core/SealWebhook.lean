import Allowly.Base.Query
import Allowly.Core.Journal

/-!
# The Webhook Client for Seals

`SealWebhookClient`, whose only credential is the token in its private URL.

A request is made once and either answered or not, so the HTTP client is a function
from requests to answers. The error of an unsuccessful answer takes its code and its
message from the body as they are, and what is not text stays what it was. The texts
of the fields are made with `str`, which leaves text alone; of anything else it is a
parameter, `repr`.

## Main definitions

* `SealWebhookClient.ofUrl`: `_validate_webhook_url`.
* `SealExc`: What a call can raise.
* `readSealAnswer`: `_request`, from the answer on.
* `parseDelivery`: `_parse_delivery`.
* `send`, `getDelivery`, `getReceipt`, `getKeys`: The methods.
-/

namespace Allowly

open Py

/-- `SealWebhookClient`: the URL of the webhook, its origin and its query. -/
structure SealWebhookClient where
  webhookUrl : Str
  origin : Str
  query : Str
  deriving DecidableEq

def sealEndpoint : Str := lit "/v1/seal/webhooks"

/-- `_validate_webhook_url`. -/
def SealWebhookClient.ofUrl (url : Str) (allowInsecure : Bool) : Except Exc SealWebhookClient :=
  match urlsplit url with
  | none => .error (.value "Invalid IPv6 URL")
  | some parsed =>
    if (parsed.scheme ≠ lit "http" ∧ parsed.scheme ≠ lit "https") ∨ parsed.netloc = [] then
      .error (.value "webhook_url must be a valid HTTP or HTTPS URL")
    else if parsed.scheme ≠ lit "https" ∧ allowInsecure = false then
      .error (.value "webhook_url must use HTTPS")
    else if parsed.username.isSome ∨ parsed.fragment ≠ [] then
      .error (.value "webhook_url must not contain user info or a fragment")
    else if splitParams parsed.path ≠ sealEndpoint then
      .error (.value "webhook_url must use the SEAL webhook endpoint")
    else
      let wrongQuery := .error (.value "webhook_url must contain exactly one non-empty token")
      match parseQsl parsed.query with
      | [(name, token)] =>
        if name ≠ lit "token" ∨ token = [] then wrongQuery
        else
          match urlencode (lit "token") token with
          | none => .error (.value "'utf-8' codec can't encode")
          | some query =>
            let origin := parsed.scheme ++ lit "://" ++ parsed.netloc
            .ok { webhookUrl := origin ++ sealEndpoint ++ 63 :: query, origin, query }
      | _ => wrongQuery

/-- What a call of the webhook client can raise. -/
inductive SealExc where
  /-- `AllowlyAPIError`, with the code and the message of the body. -/
  | api (status : Nat) (code message : Json) (fields : List (Str × Str))
      (retryAfter : Option Float64)
  | other (e : Exc)

/-- `str`. -/
def pyStr (repr : Json → Str) : Json → Str
  | .str s => s
  | v => repr v

/-- The object an error is made from. -/
def errorObject (data : Json) : Json :=
  match data.get "error" with
  | .str s => .ofList [("message", .str s)]
  | .obj ms => .obj ms
  | _ => .obj []

/-- The objects among the field errors. -/
def fieldItems (error : Json) : List Json :=
  match error.get "fields" with
  | .arr items => items.filter Json.isObj
  | _ => []

/-- The error an unsuccessful answer is turned into. Nothing is replaced in it. -/
def sealApiError (L : Libs) (repr : Json → Str) (resp : ApiResponse) (data : Json) : SealExc :=
  let error := errorObject data
  let fields := (fieldItems error).map fun item =>
    (pyStr repr (getOr item "field" (.str [])), pyStr repr (getOr item "message" (.str [])))
  .api resp.status (getOr error "code" (.str (lit "error")))
    (getOr error "message" (.str (lit "Unknown error"))) fields
    (parseRetryAfter L (resp.header "Retry-After"))

/-- `_request`, from the answer on. -/
def readSealAnswer (L : Libs) (repr : Json → Str) (expected : List Nat)
    (answer : Except Exc ApiResponse) : Except SealExc Json :=
  match answer with
  | .error x =>
    -- The text of a transport error can hold the URL.
    if x.isTransport then .error (.other (.protocol "SEAL webhook request failed" none))
    else .error (.other x)
  | .ok resp =>
    if resp.isSuccess ∧ resp.status ∉ expected then
      .error (.other (.protocol "unexpected successful HTTP status: " (some (natText resp.status))))
    else
      match loadsBytes resp.content with
      | none =>
        if resp.isSuccess then
          .error (.other (.protocol "successful SEAL webhook response must be valid JSON" none))
        else .error (sealApiError L repr resp (.obj []))
      | some data =>
        if resp.isSuccess then .ok data else .error (sealApiError L repr resp data)

inductive SealWebhookStatus where
  | received
  | signing
  | sealed
  | rejected
  | failed
  deriving DecidableEq

def SealWebhookStatus.all : List SealWebhookStatus := [received, signing, sealed, rejected, failed]

def SealWebhookStatus.text : SealWebhookStatus → Str
  | received => lit "received"
  | signing => lit "signing"
  | sealed => lit "sealed"
  | rejected => lit "rejected"
  | failed => lit "failed"

def sealProfile : Str := lit "allowly.seal.jcs-sha256.v1"

/-- Its `profile` has one value. -/
structure SealWebhookDelivery where
  attemptId : Str
  workspaceId : Str
  status : SealWebhookStatus
  receivedAt : Str
  updatedAt : Str
  profile : Str
  recordSha256 : Option Str
  metadata : Option Json
  receiptId : Option Str
  errorCode : Option Str
  statusUrl : Str
  receiptUrl : Option Str
  keysUrl : Str
  receipt : Option Json
  deriving DecidableEq

/-- `_require_str` of this client, which refuses the empty text too. -/
def sealStr (raw : Json) (key : String) : Except Exc Str :=
  match raw.get key with
  | .str (c :: s) => .ok (c :: s)
  | _ => protocolError ("SEAL webhook response " ++ key ++ " must be a non-empty string") none

def sealOptionalStr (raw : Json) (key : String) : Except Exc (Option Str) :=
  match raw.get key with
  | .null => .ok none
  | .str s => .ok (some s)
  | _ => protocolError ("SEAL webhook response " ++ key ++ " must be a string or null") none

def sealOptionalDict (raw : Json) (key : String) : Except Exc (Option Json) :=
  optionalWith (requireDict · ("SEAL webhook response " ++ key)) (raw.get key)

/-- `_optional_metadata`: an object of texts, or nothing. -/
def optionalMetadata (value : Json) (name : String) : Except Exc (Option Json) :=
  if value = .null then .ok none
  else do
    let metadata ← requireDict value name
    if metadata.members.any fun m => m.2.asStr.isNone then
      protocolError (name ++ " must contain only string values") none
    else return some metadata

/-- `!=` on metadata. -/
def sameMetadata (a b : Option Json) : Bool := pyEq (.ofOption a) (.ofOption b)

/-- The metadata a signed receipt holds, when the receipt is about this delivery. -/
def signedMetadata (L : Libs) (receipt : Json) (receiptId : Option Str) (workspaceId : Str)
    (metadata : Option Json) : Except Exc (Option Json) :=
  match L.decodeReceipt receipt with
  | .error text => protocolError "invalid SEAL webhook receipt: " (some text)
  | .ok claims =>
    if claims.isObj = false then
      if receiptId = none then protocolError "SEAL webhook receipt_id binding does not match" none
      else .error .attribute
    else if receiptId = none ∨ claims.get "receipt_id" ≠ optionText receiptId then
      protocolError "SEAL webhook receipt_id binding does not match" none
    else if claims.get "workspace_id" ≠ .str workspaceId then
      protocolError "SEAL webhook workspace_id binding does not match" none
    else do
      let context ← sealOptionalDict claims "context"
      let signed ← optionalMetadata ((context.map fun c => c.get "seal_metadata").getD .null)
        "signed SEAL receipt metadata"
      if metadata ≠ none ∧ sameMetadata metadata signed = false then
        protocolError "SEAL webhook response metadata does not match the signed receipt" none
      else return signed

/-- The metadata of a delivery: the signed one when there is a receipt. -/
def deliveryMetadata (L : Libs) (receipt : Option Json) (receiptId : Option Str)
    (workspaceId : Str) (metadata : Option Json) : Except Exc (Option Json) :=
  match receipt with
  | none => .ok metadata
  | some receipt => signedMetadata L receipt receiptId workspaceId metadata

/-- `_parse_delivery`. -/
def parseDelivery (L : Libs) (value : Json) : Except Exc SealWebhookDelivery := do
  let raw ← requireDict value "SEAL webhook delivery response"
  let statusText ← sealStr raw "status"
  let status ← parseEnum SealWebhookStatus.all SealWebhookStatus.text
    "unknown SEAL webhook status: " statusText
  let profile ← sealStr raw "profile"
  if profile ≠ sealProfile then
    protocolError "SEAL webhook response has an unknown profile" none
  else
    let receipt ← sealOptionalDict raw "receipt"
    let metadata ← optionalMetadata (raw.get "metadata") "SEAL webhook response metadata"
    let receiptId ← sealOptionalStr raw "receipt_id"
    let workspaceId ← sealStr raw "workspace_id"
    let metadata ← deliveryMetadata L receipt receiptId workspaceId metadata
    let attemptId ← sealStr raw "attempt_id"
    let receivedAt ← sealStr raw "received_at"
    let updatedAt ← sealStr raw "updated_at"
    let recordSha256 ← sealOptionalStr raw "record_sha256"
    let errorCode ← sealOptionalStr raw "error_code"
    let statusUrl ← sealStr raw "status_url"
    let receiptUrl ← sealOptionalStr raw "receipt_url"
    let keysUrl ← sealStr raw "keys_url"
    return { attemptId, workspaceId, status, receivedAt, updatedAt, profile, recordSha256, metadata,
             receiptId, errorCode, statusUrl, receiptUrl, keysUrl, receipt }

/-- A request of the webhook client. -/
structure SealRequest where
  method : String
  url : Str
  content : Bytes
  headers : List (Str × Str)

/-- The HTTP client, for the one request a method makes. -/
abbrev SealHttp := SealRequest → Except Exc ApiResponse

/-- A receipt detail as a header. -/
def detailHeader (name : String) (value : Option Str) : Except Exc (List (Str × Str)) :=
  match value with
  | none => .ok []
  | some value =>
    if value.any fun c => c < 0x20 || 0x7E < c then
      valueError (name.toLower ++ " must contain printable ASCII only")
    else if 256 < value.length then valueError (name.toLower ++ " must be at most 256 characters")
    else if value ≠ strip value then
      valueError (name.toLower ++ " must not contain leading or trailing whitespace")
    else .ok [(lit ("Allowly-Seal-" ++ name), value)]

def ofExc {A : Type} (r : Except Exc A) : Except SealExc A := r.mapError SealExc.other

namespace SealWebhookClient

variable (L : Libs) (repr : Json → Str) (w : SealWebhookClient) (http : SealHttp)

/-- `_url`. -/
def url (path : Str) : Str := w.origin ++ path ++ 63 :: w.query

/-- A read of one resource. -/
def read (path : Str) : Except SealExc Json :=
  readSealAnswer L repr [200]
    (http { method := "GET", url := w.url path, content := [], headers := [] })

/-- `send`. -/
def send (record : Bytes) (idempotencyKey type reference statement : Option Str) :
    Except SealExc SealWebhookDelivery := do
  let typeHeader ← ofExc (detailHeader "Type" type)
  let referenceHeader ← ofExc (detailHeader "Reference" reference)
  let statementHeader ← ofExc (detailHeader "Statement" statement)
  let headers := (lit "Content-Type", lit "application/json") :: keyHeaders idempotencyKey
    ++ typeHeader ++ referenceHeader ++ statementHeader
  let raw ← readSealAnswer L repr [200, 202]
    (http { method := "POST", url := w.webhookUrl, content := record, headers })
  ofExc (parseDelivery L raw)

/-- The path of a resource named by an ID, or the error of `quote`. -/
def sealPath (start : String) (id : Str) : Except SealExc Str :=
  match quote id with
  | none => .error (.other (.value "'utf-8' codec can't encode"))
  | some id => .ok (lit start ++ id)

/-- `get_delivery`. -/
def getDelivery (attemptId : Str) : Except SealExc SealWebhookDelivery := do
  let path ← sealPath "/v1/seal/webhooks/deliveries/" attemptId
  let raw ← w.read L repr http path
  let delivery ← ofExc (parseDelivery L raw)
  if delivery.attemptId ≠ attemptId then
    ofExc (protocolError "SEAL webhook response attempt_id does not match the request" none)
  else return delivery

/-- `get_receipt`. -/
def getReceipt (receiptId : Str) : Except SealExc SealWebhookDelivery := do
  let path ← sealPath "/v1/seal/webhooks/receipts/" receiptId
  let raw ← w.read L repr http path
  let delivery ← ofExc (parseDelivery L raw)
  if delivery.receiptId ≠ some receiptId then
    ofExc (protocolError "SEAL webhook response receipt_id does not match the request" none)
  else return delivery

/-- `get_keys`. -/
def getKeys : Except SealExc Json := do
  let raw ← w.read L repr http (lit "/v1/seal/webhooks/keys")
  ofExc (requireDict raw "SEAL webhook keys response")

end SealWebhookClient

end Allowly

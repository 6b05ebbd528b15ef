import Allowly.Base.Base64
import Allowly.Core.Request

/-!
# Resolution Webhooks

`verify_resolution_webhook`: the notification that a reviewer has answered is taken for
genuine only if its octets carry a signature made with the workspace's secret, and only
then is it read.

A header mapping may hold names and values that are not text, which is `none` here. The
values of the three headers are collected in the order of the mapping, and the first entry
that is wrong decides the error.

The clock's reading is a float, and its distance to the time of the delivery is a float
too, rounded like any other.

## Main definitions

* `base64Of32`, `signingKey`: `_base64_32`, `_signing_key`.
* `credentialText`, `decodeCredential`: `_b64url` and `_decode` of the agent credential.
* `signedHeaders`: The loop over the headers.
* `signedContent`, `checkSignatures`: What is signed, and the loop over the signatures.
* `Json.unique`: Does no object repeat a key?
* `recordOf`, `boundedString`, `identifierOf`, `timestampOf`: The field checks.
* `verifyResolutionWebhook`: `verify_resolution_webhook`.
-/

namespace Allowly

open Py

/-- `_base64_32`. -/
def base64Of32 (value : Str) : Except Exc Bytes :=
  let refused : Except Exc Bytes :=
    protocolError "webhook key or signature must be canonical 32-byte base64" none
  if value.length ≠ 44 ∨ (value.take 43).all (Base64.isSymbol .standard) = false
      ∨ value.drop 43 ≠ lit "=" then
    refused
  else
    match Base64.decode .standard value with
    | none => protocolError "invalid webhook base64" none
    | some decoded =>
      if decoded.length ≠ 32 ∨ Base64.encode .standard decoded ≠ value then refused else .ok decoded

/-- `_b64url`: base64url without its padding. -/
def credentialText (data : Bytes) : Str :=
  ((Base64.encode .urlsafe data).reverse.dropWhile (· == 61)).reverse

/-- `_decode` of the agent credential. -/
def decodeCredential (value : Str) : Except Exc Bytes :=
  if value = [] ∨ value.all isWordDash = false then valueError "Invalid Allowly agent credential"
  else
    match Base64.decode .urlsafe (value ++ Base64.pads value.length) with
    | none => valueError "Invalid Allowly agent credential"
    | some decoded =>
      if credentialText decoded ≠ value then valueError "Invalid Allowly agent credential"
      else .ok decoded

def secretStart : Str := lit "whsec_"

/-- `_signing_key`. -/
def signingKey (secret : Str) : Except Exc Bytes :=
  match dropWord secretStart secret with
  | none => protocolError "signing_secret must use the whsec_ profile" none
  | some encoded => base64Of32 encoded

def idHeader : Str := lit "webhook-id"

def timestampHeader : Str := lit "webhook-timestamp"

def signatureHeader : Str := lit "webhook-signature"

/-- An entry of a header mapping. What is not text is `none`. -/
abbrev HeaderEntry := Option Str × Option Str

/-- The name of an entry in lower case. -/
def entryName (L : Libs) (entry : HeaderEntry) : Str :=
  (entry.1.map (lower L.lowerOther)).getD []

/-- How long the value of a header may be. -/
def headerLimit (name : Str) : Nat := if name = signatureHeader then 1024 else 128

def isPrintable (c : Nat) : Bool := 0x20 ≤ c && c ≤ 0x7e

/-- The loop over the headers: the values of the three, by name. -/
def signedHeaders (L : Libs) :
    List (Str × Str) → List HeaderEntry → Except Exc (List (Str × Str))
  | found, [] => .ok found
  | found, entry :: rest =>
    let name := entryName L entry
    let repeated := protocolError "webhook headers must be unique non-empty strings" none
    if name ∉ [idHeader, timestampHeader, signatureHeader] then signedHeaders L found rest
    else
      match entry.2 with
      | none => repeated
      | some value =>
        if name ∈ found.map Prod.fst ∨ value = [] then repeated
        else if value.length > headerLimit name ∨ value.all isPrintable = false then
          protocolError "webhook header exceeds its bounds or contains invalid characters" none
        else signedHeaders L (found ++ [(name, value)]) rest

/-- The value found for a header. -/
def foundValue (name : Str) (found : List (Str × Str)) : Str :=
  ((found.find? fun h => h.1 == name).map Prod.snd).getD []

/-- Is it `evt_[A-Za-z0-9_-]+`, for that or another start? -/
def hasIdForm (start value : Str) : Bool :=
  match dropWord start value with
  | some (c :: rest) => (c :: rest).all isWordDash
  | _ => false

/-- Is it `0|[1-9][0-9]{0,11}`? -/
def isSeconds (s : Str) : Bool :=
  s == lit "0" || (s.all isDigit && 1 ≤ s.length && s.length ≤ 12 && s.head? != some 48)

/-- Is the time of the delivery near enough? -/
def withinTolerance (now : Float64) (seconds : Nat) : Bool :=
  (now.sub (Float64.ofInt seconds)).abs.leInt 300

/-- The octets that are signed. -/
def signedContent (eventId timestamp : Str) (rawBody : Bytes) : Bytes :=
  asciiBytes (eventId ++ lit "." ++ timestamp ++ lit ".") ++ rawBody

/-- The loop over the signatures: is one of them the expected one? -/
def checkSignatures (expected : Bytes) : List Str → Bool → Except Exc Bool
  | [], verified => .ok verified
  | signature :: rest, verified =>
    match partition 44 signature with
    | (scheme, some encoded) =>
      if encoded = [] ∨ 44 ∈ encoded ∨ scheme = [] ∨ scheme.all isAlnum = false then
        protocolError "malformed webhook signature header" none
      else if scheme = lit "v1" then do
        let decoded ← base64Of32 encoded
        checkSignatures expected rest (verified || expected == decoded)
      else checkSignatures expected rest verified
    | (_, none) => protocolError "malformed webhook signature header" none

/-- `_record`. -/
def recordOf (value : Json) (keys : List String) : Except Exc Json :=
  if value.isObj ∧ keys.all (value.has ·) ∧ value.names.all (fun k => keys.any fun r => lit r == k)
  then .ok value
  else protocolError "webhook object fields do not match the contract" none

/-- `_string`. -/
def boundedString (raw : Json) (key : String) : Except Exc Str :=
  match raw.get key with
  | .str s =>
    if s = [] ∨ s.length > 2048 then
      protocolError ("webhook " ++ key ++ " must be a bounded non-empty string") none
    else .ok s
  | _ => protocolError ("webhook " ++ key ++ " must be a bounded non-empty string") none

/-- `_nullable_string`. -/
def nullableString (raw : Json) (key : String) : Except Exc (Option Str) :=
  if raw.has key = false then protocolError ("webhook " ++ key ++ " must be present") none
  else if raw.get key = .null then .ok none
  else (boundedString raw key).map some

/-- `_identifier`. -/
def identifierOf (raw : Json) (key start : String) : Except Exc Str := do
  let value ← boundedString raw key
  if value.length > 128 ∨ hasIdForm (lit start) value = false then
    protocolError ("webhook " ++ key ++ " has an invalid ID prefix or format") none
  else return value

/-- The value of a decimal digit, `\d`. -/
def decimalDigit (L : Libs) (c : Nat) : Option Nat :=
  if isDigit c then some (c - 48) else L.otherDigit c

/-- Does a text have a form, in which the character zero stands for any digit? -/
def hasForm (L : Libs) : Str → Str → Bool
  | [], [] => true
  | f :: form, c :: s => (if f = 48 then (decimalDigit L c).isSome else f == c) && hasForm L form s
  | _, _ => false

/-- The text after the fraction of a second, if what begins like one is one. -/
def dropFraction (L : Libs) (s : Str) : Option Str :=
  match s with
  | 46 :: r =>
    if r.takeWhile (fun c => (decimalDigit L c).isSome) = [] then none
    else some (r.dropWhile fun c => (decimalDigit L c).isSome)
  | s => some s

/-- The number two digits make. -/
def twoDigits (L : Libs) (s : Str) : Nat :=
  s.foldl (fun n c => n * 10 + (decimalDigit L c).getD 0) 0

/-- Is it a zone a time may end with? -/
def zoneValid (L : Libs) (zone : Str) : Bool :=
  zone == lit "Z" || ((hasForm L (lit "+00:00") zone || hasForm L (lit "-00:00") zone)
    && twoDigits L ((zone.drop 1).take 2) ≤ 23 && twoDigits L ((zone.drop 4).take 2) ≤ 59)

/-- Is it a time with a zone, as `_timestamp` wants one? -/
def timestampValid (L : Libs) (s : Str) : Bool :=
  hasForm L (lit "0000-00-00T00:00:00") (s.take 19)
    && (match dropFraction L (s.drop 19) with
      | some zone => zoneValid L zone
      | none => false)
    && (L.fromisoformat (if s.getLast? = some 90 then s.dropLast ++ lit "+00:00" else s)).isSome

/-- `_timestamp`. -/
def timestampOf (L : Libs) (raw : Json) (key : String) : Except Exc Str := do
  let value ← boundedString raw key
  if timestampValid L value then return value
  else protocolError ("webhook " ++ key ++ " must be a valid timezone-aware timestamp") none

inductive EventType where
  | confirmation
  | escalation
  deriving DecidableEq

def EventType.text : EventType → Str
  | confirmation => lit "confirmation.resolved"
  | escalation => lit "escalation.resolved"

/-- What the ID of a prompt begins with. -/
def EventType.promptStart : EventType → String
  | confirmation => "cnf_"
  | escalation => "esc_"

/-- `_event_type`. -/
def eventTypeOf (raw : Json) (key : String) : Except Exc EventType := do
  let value ← boundedString raw key
  match [EventType.confirmation, .escalation].find? fun t => t.text == value with
  | some t => return t
  | none => protocolError "unknown resolution webhook event type" none

structure ResolutionWebhookData where
  promptId : Str
  status : Str
  sourceReceiptId : Option Str
  resolutionReceiptId : Str
  deriving DecidableEq

structure ResolutionWebhookEvent where
  id : Str
  type : EventType
  timestamp : Str
  workspaceId : Str
  data : ResolutionWebhookData
  deriving DecidableEq

mutual

/-- Does no object at any depth repeat a key? This is `_unique_object`, which is asked
    for every object as it is read. -/
def uniqueKeys : Json → Bool
  | .arr xs => uniqueItems xs
  | .obj ms => decide (ms.map Prod.fst).Nodup && uniqueMembers ms
  | _ => true
termination_by structural j => j

def uniqueItems : List Json → Bool
  | [] => true
  | x :: xs => uniqueKeys x && uniqueItems xs
termination_by structural xs => xs

def uniqueMembers : List (Str × Json) → Bool
  | [] => true
  | (_, v) :: ms => uniqueKeys v && uniqueMembers ms
termination_by structural ms => ms

end

/-- The payload as JSON in which no constant such as NaN stands and no key is repeated. -/
def payloadOf (rawBody : Bytes) : Except Exc Json :=
  let refused := protocolError "webhook payload must be valid UTF-8 JSON with unique fields" none
  match decode false rawBody with
  | none => refused
  | some text =>
    match parse false text with
    | none => refused
    | some j => if uniqueKeys j then .ok j else refused

/-- The members of the event and of its data. -/
def eventKeys : List String := ["id", "type", "timestamp", "workspace_id", "data"]

def dataKeys : List String :=
  ["prompt_id", "status", "source_receipt_id", "resolution_receipt_id"]

/-- The source receipt of a resolution, which may be null. -/
def sourceReceiptOf (data : Json) : Except Exc (Option Str) := do
  let source ← nullableString data "source_receipt_id"
  match source with
  | none => return none
  | some source =>
    let _ ← identifierOf data "source_receipt_id" "rcp_"
    return some source

/-- The event a payload describes. -/
def eventOf (L : Libs) (raw : Json) (eventId workspaceId : Str) :
    Except Exc ResolutionWebhookEvent := do
  let body ← recordOf raw eventKeys
  if body.get "id" ≠ .str eventId ∨ body.get "workspace_id" ≠ .str workspaceId then
    protocolError "webhook event or workspace ID does not match" none
  else
    let type ← eventTypeOf body "type"
    let data ← recordOf (body.get "data") dataKeys
    let promptId ← identifierOf data "prompt_id" type.promptStart
    let status ← boundedString data "status"
    if status ≠ lit "approved" ∧ status ≠ lit "rejected" then
      protocolError "webhook status must be approved or rejected" none
    else
      let sourceReceiptId ← sourceReceiptOf data
      let timestamp ← timestampOf L body "timestamp"
      let resolutionReceiptId ← identifierOf data "resolution_receipt_id" "rcp_"
      return { id := eventId, type, timestamp, workspaceId
               data := { promptId, status, sourceReceiptId, resolutionReceiptId } }

/-- The checks of the three headers against the clock and the signing key. -/
def authenticate (rawBody key : Bytes) (eventId timestamp signatures : Str) (now : Float64) :
    Except Exc Unit := do
  if hasIdForm (lit "evt_") eventId = false ∨ isSeconds timestamp = false then
    protocolError "invalid webhook ID or timestamp" none
  else if now.isFinite = false then protocolError "now must be finite Unix seconds" none
  else if withinTolerance now (digitsVal timestamp) = false then
    protocolError "webhook timestamp is outside the 300-second tolerance" none
  else
    let tokens := splitSpace signatures
    if tokens.length < 1 ∨ 8 < tokens.length then
      protocolError "webhook signature count exceeds its bounds" none
    else
      let verified ← checkSignatures (hmac key (signedContent eventId timestamp rawBody)) tokens false
      if verified then return ()
      else protocolError "webhook signature did not verify" none

/-- `verify_resolution_webhook`. -/
def verifyResolutionWebhook (L : Libs) (rawBody : Bytes) (headers : List HeaderEntry)
    (signingSecret expectedWorkspaceId : Str) (now : Float64) :
    Except Exc ResolutionWebhookEvent := do
  if rawBody.length = 0 ∨ 16 * 1024 < rawBody.length then
    protocolError "raw_body must be bytes of at most 16 KiB" none
  else if expectedWorkspaceId = [] then
    protocolError "expected_workspace_id must come from trusted configuration" none
  else
    let key ← signingKey signingSecret
    let found ← signedHeaders L [] headers
    if found.length ≠ 3 then protocolError "missing webhook signature headers" none
    else
      let eventId := foundValue idHeader found
      authenticate rawBody key eventId (foundValue timestampHeader found)
        (foundValue signatureHeader found) now
      let raw ← payloadOf rawBody
      eventOf L raw eventId expectedWorkspaceId

end Allowly

import Allowly.Core.Receipts
import Allowly.Core.SealWebhook

/-!
# Sealing a Record

`seal` and `seal_value`, which hash a record locally and ask for a receipt over the
digest, and the checks of the answer and of the receipt.

The server is what answers the one request to seal and what the rounds of the polling
bring. What a call sends is listed in order: the body of the request, and a read of
the pending receipt for every poll.

## Main definitions

* `SealLibs`: The receipt format package, as far as sealing uses it.
* `sealBody`: The checks of the arguments, and the body of the request.
* `sealReply`: The checks of the answer.
* `validateSealReceipt`: `_validate_seal_receipt`.
* `sealDigest`: `_seal_digest`.
* `sealJson`, `sealValue`: `seal` and `seal_value`.
-/

namespace Allowly

open Py

/-- The package with what sealing uses of it. -/
structure SealLibs extends Libs where
  /-- `hash_seal_json`, which raises on what is no strict JSON. -/
  hashSealJson : Bytes ⊕ Str → Option Str
  /-- `SEAL_PROFILE`, `SEAL_ACTION`, `SEAL_AGENT_ID` and `SEAL_USER_ID`. -/
  profile : Str
  action : Str
  agentId : Str
  userId : Str

/-- The arguments besides the record. -/
structure SealArgs where
  requestId : Json
  metadata : Option Json
  pollInterval : WithTop ℚ
  timeout : WithTop ℚ

/-- `_validate_seal_metadata`. -/
def validateSealMetadata (metadata : Option Json) : Except Exc (Option Json) :=
  match metadata with
  | none => .ok none
  | some metadata =>
    if metadata.isObj = false ∨ metadata.members.any fun m => m.2.asStr.isNone then
      valueError "metadata must be an object of string values"
    else .ok (some metadata)

/-- The request ID, and the body of the request to seal. -/
def sealBody (S : SealLibs) (recordSha256 : Str) (a : SealArgs) : Except Exc (Str × Json) :=
  match a.requestId with
  | .str (c :: id) =>
    if a.pollInterval ≤ 0 then valueError "poll_interval must be positive"
    else if a.timeout ≤ 0 then valueError "timeout must be positive"
    else do
      let metadata ← validateSealMetadata a.metadata
      let body : Json := .ofList [("request_id", .str (c :: id)), ("profile", .str S.profile),
        ("record_sha256", .str recordSha256)]
      match metadata with
      | none => return (c :: id, body)
      | some metadata => return (c :: id, body.set "metadata" metadata)
  | _ => valueError "request_id must be a non-empty string"

/-- What the answer to the request says. -/
structure SealReply where
  workspaceId : Str
  reason : Str
  envelope : ReceiptEnvelope

def sealReply (S : SealLibs) (requestId recordSha256 : Str) (answer : Json) :
    Except Exc SealReply := do
  let raw ← requireDict answer "seal response"
  let echoedId ← requireStr raw "request_id"
  if echoedId ≠ requestId then
    protocolError "seal response request_id does not match the request" none
  else
    let profile ← requireStr raw "profile"
    if profile ≠ S.profile then protocolError "seal response profile does not match the request" none
    else
      let echoedSha256 ← requireStr raw "record_sha256"
      if echoedSha256 ≠ recordSha256 then
        protocolError "seal response record_sha256 does not match the request" none
      else
        let workspaceId ← requireStr raw "workspace_id"
        if workspaceId = [] then protocolError "seal response workspace_id must be non-empty" none
        else
          let decision ← requireStr raw "decision"
          if decision ≠ lit "allow" then
            protocolError "seal response decision must be 'allow'" none
          else
            let reason ← requireStr raw "reason"
            let envelope ← parseReceiptEnvelope S.toLibs (raw.get "receipt")
            return { workspaceId, reason, envelope }

/-- The claims every seal has. -/
def expectedFields (S : SealLibs) : List (String × Str) :=
  [("schema_version", lit "5"), ("action", S.action), ("decision", lit "allow"),
    ("agent_id", S.agentId), ("user_id", S.userId)]

/-- Each claim has its value. -/
def requireFields (claims : Json) : List (String × Str) → Except Exc Unit
  | [] => .ok ()
  | (key, expected) :: fields => do
    let value ← requireStr claims key
    if value ≠ expected then
      protocolError ("seal receipt " ++ key ++ " does not match the request") none
    else requireFields claims fields

/-- `_validate_seal_receipt`. -/
def validateSealReceipt (S : SealLibs) (receipt : Json) (recordSha256 expectedWorkspaceId : Str)
    (expectedReceiptId : Option Str) : Except Exc Unit :=
  match S.decodeReceipt receipt with
  | .error text => protocolError "invalid SEAL receipt: " (some text)
  | .ok claims =>
    if claims.isObj = false then .error .attribute
    else do
      let receiptId ← requireStr claims "receipt_id"
      if receiptId = [] then protocolError "seal receipt_id must be non-empty" none
      else if expectedReceiptId ≠ none ∧ some receiptId ≠ expectedReceiptId then
        protocolError "seal receipt_id does not match the pending receipt" none
      else
        requireFields claims (expectedFields S)
        let workspaceId ← requireStr claims "workspace_id"
        if workspaceId ≠ expectedWorkspaceId then
          protocolError "seal receipt workspace_id does not match the response" none
        else
          let context ← requireDict (claims.get "context") "seal receipt context"
          let profile ← requireStr context "seal_profile"
          if profile ≠ S.profile then
            protocolError "seal receipt profile does not match the request" none
          else
            let signedSha256 ← requireStr context "record_sha256"
            if signedSha256 ≠ recordSha256 then
              protocolError "seal receipt record_sha256 does not match the request" none
            else return ()

/-- Its `decision` has one value. -/
structure SealResponse where
  requestId : Str
  workspaceId : Str
  profile : Str
  recordSha256 : Str
  reason : Str
  receipt : Json

/-- The server: its answer to a request to seal, and what the polls bring. -/
structure SealServer where
  post : Json → Except Exc Json
  start : ℚ
  rounds : Nat → PollRound

/-- What a call sends. -/
inductive SealSent where
  | posted (body : Json)
  | polled (receiptId : Str) (time : ℚ)

/-- What is left to do with the receipt. -/
def sealFinish (S : SealLibs) (requestId recordSha256 : Str) (reply : SealReply)
    (pendingReceiptId : Option Str) (receipt : Json) : Except Exc SealResponse := do
  validateSealReceipt S receipt recordSha256 reply.workspaceId pendingReceiptId
  return { requestId, workspaceId := reply.workspaceId, profile := S.profile, recordSha256,
           reason := reply.reason, receipt }

/-- `_seal_digest`, on the first `n` rounds of the polling. -/
def sealDigest (S : SealLibs) (recordSha256 : Str) (a : SealArgs) (server : SealServer) (n : Nat) :
    List SealSent × Option (Except Exc SealResponse) :=
  match sealBody S recordSha256 a with
  | .error x => ([], some (.error x))
  | .ok (requestId, body) =>
    match (server.post body).bind (sealReply S requestId recordSha256) with
    | .error x => ([.posted body], some (.error x))
    | .ok reply =>
      match reply.envelope with
      | .signed receipt =>
        ([.posted body], some (sealFinish S requestId recordSha256 reply none receipt))
      | .pending receiptId _ _ =>
        let fetched := fetchSigned S.toLibs receiptId a.pollInterval a.timeout server.start
          server.rounds n
        (.posted body :: (Polling.pollTimes fetched.1).map (.polled receiptId),
          fetched.2.map fun r =>
            r.bind (sealFinish S requestId recordSha256 reply (some receiptId)))

/-- Sealing what has this digest, if it has one. -/
def sealHashed (S : SealLibs) (digest : Option Str) (a : SealArgs) (server : SealServer) (n : Nat) :
    List SealSent × Option (Except Exc SealResponse) :=
  match digest with
  | none => ([], some (.error .sealInput))
  | some recordSha256 => sealDigest S recordSha256 a server n

/-- `seal`. -/
def sealJson (S : SealLibs) (record : Bytes ⊕ Str) (a : SealArgs) (server : SealServer) (n : Nat) :
    List SealSent × Option (Except Exc SealResponse) :=
  sealHashed S (S.hashSealJson record) a server n

/-- `seal_value`. -/
def sealValue (S : SealLibs) (record : Json) (a : SealArgs) (server : SealServer) (n : Nat) :
    List SealSent × Option (Except Exc SealResponse) :=
  sealHashed S (S.hashSealValue record) a server n

end Allowly

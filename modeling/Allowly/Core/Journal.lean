import Allowly.Core.Client

/-!
# The Journal and the Approval

Saving and reading the files of an operation folder, the lock on it, and the checks
an approval must pass before anything is claimed or sent.

`_save` writes a temporary file, moves it in place, and then persists the folder. It
can fail before the move or after it, and a caller does not learn which.

`checkApproval` is `_validate_approval` up to its last step, which reads the clock.
Values from the runtime are compared with `==` on decoded JSON, where true equals one,
and where a list of pairs given to `dict` is as good as an object.

## Main definitions

* `save`, `readBytes`, `readJson`, `withLock`: The folder.
* `journalAuthorization`: What the journal keeps of a response.
* `live`: `_live`.
* `checkApproval`, `validateApproval`: `_validate_approval`.
* `observedResponse`: `_observed_response`.
-/

namespace Allowly

open Py

/-- `_json`. -/
def jsonBytes (value : Json) : Except Exc Bytes :=
  match (dumps value).bind encode with
  | some b => .ok b
  | none => valueError "Out of range float values are not JSON compliant"

/-- `_save`. -/
def save (file : File) (value : Json) : Call Unit := do
  ask .makeTemporary
  Prog.always
    (do
      let data ← computed (jsonBytes value)
      ask (.writeTemporary data)
      ask (.replace file data)
      ask .syncFolder)
    (ask .dropTemporary)

/-- The limit of `_read` and `_read_bytes`. -/
def readLimit : Nat := 2 * 1024 * 1024

/-- `_read_bytes`. -/
def readBytes (file : File) (maximum : Nat) : Call Bytes := do
  let data ← ask (.read file maximum)
  if data.length > maximum then raise (.protocol "execution artifact exceeds its limit" none)
  else return data

/-- `json.loads`, which raises a `ValueError`. -/
def loadJson (b : Bytes) : Except Exc Json :=
  match loadsBytes b with
  | some j => .ok j
  | none => valueError "Expecting value"

/-- `_read`. -/
def readJson (file : File) (maximum : Nat) : Call Json := do
  let data ← readBytes file maximum
  computed (loadJson data)

/-- `_operation_lock`. -/
def withLock {A : Type} (body : Call A) : Call A := do
  ask .openLock
  Prog.always
    (do
      let locked ← (ask .flock).attempt
      match locked with
      | .ok () => body
      | .error x => if x.isOSError then raise .recovery else raise x)
    (ask .closeLock)

/-- `hash_seal_value`. -/
def hashSealValue (L : Libs) (value : Json) : Except Exc Str :=
  match L.hashSealValue value with
  | some h => .ok h
  | none => .error .sealInput

/-- A digest of a value as the code writes it. -/
def sealSha (L : Libs) (value : Json) : Except Exc Str :=
  (hashSealValue L value).map fun h => lit "sha256:" ++ h

/-- `_journal_authorization`. -/
def journalAuthorization (r : ExecutionResponse) : Json :=
  if r.status = .waitingForReview then r.toJson.set "confirm_nonce" .null else r.toJson

/-- A time in an approval. A member that is missing or is not a time is `none`. -/
def approvalTime (L : Libs) (approval : Json) (key : String) : Except Exc (Option Stamp) :=
  if approval.has key = false then .ok none
  else
    match approval.get key with
    | .str s => .ok (L.fromisoformat (replaceFrom (lit "Z") (lit "+00:00") s.length s))
    | _ => .error .attribute

/-- The times an approval is valid between, if it has both. -/
def approvalWindow (L : Libs) (approval : Json) : Except Exc (Option (Stamp × Stamp)) := do
  let issued ← approvalTime L approval "issued_at"
  match issued with
  | none => return none
  | some issued =>
    let expires ← approvalTime L approval "expires_at"
    return expires.map fun expires => (issued, expires)

/-- Is the time in the window? Times that know their zone are not compared with
    those that do not. -/
def inWindow (now : Int) (w : Stamp × Stamp) : Bool :=
  w.1.aware && w.2.aware && w.1.micros ≤ now && now < w.2.micros

/-- `_live`. -/
def live (L : Libs) (approval : Json) : Call Unit := do
  let window ← computed (approvalWindow L approval)
  match window with
  | none => raise (.protocol "execution approval is not currently valid" none)
  | some window =>
    let now ← ask .now
    if inWindow now window then return ()
    else raise (.protocol "execution approval is not currently valid" none)

/-- The members `dict` builds from a list of pairs. A pair is anything with two
    elements. A key that is not text makes the dictionary equal to nothing it is
    compared with, which `none` stands for. -/
def dictPairs : List Json → Except Exc (Option (List (Str × Json)))
  | [] => .ok (some [])
  | item :: rest => do
    let (k, v) ← match item with
      | .arr [k, v] => .ok (k, v)
      | .str [k, v] => .ok (.str [k], .str [v])
      | .obj [(k, _), (v, _)] => .ok (.str k, .str v)
      | .arr _ => valueError "dictionary update sequence element"
      | .str _ => valueError "dictionary update sequence element"
      | .obj _ => valueError "dictionary update sequence element"
      | _ => .error .type
    match k with
    | .arr _ => .error .type
    | .obj _ => .error .type
    | .str k => return (← dictPairs rest).map fun ms => if (Json.lookup k ms).isSome then ms
        else (k, v) :: ms
    | _ => (dictPairs rest).map fun _ => none

/-- `dict(value)`. -/
def dictOf : Json → Except Exc (Option (List (Str × Json)))
  | .obj ms => .ok (some ms)
  | .arr items => dictPairs items
  | .str [] => .ok (some [])
  | .str _ => valueError "dictionary update sequence element"
  | _ => .error .type

/-- A member with a default for when it is missing. -/
def getOr (j : Json) (key : String) (default : Json) : Json :=
  if j.has key then j.get key else default

/-- A member of an object. Anything else has no `get`. -/
def getAttr (j : Json) (key : String) : Except Exc Json :=
  if j.isObj then .ok (j.get key) else .error .attribute

/-- The descriptor a response must have for a request. -/
def expectedDescriptor (r : Requested) : Json :=
  .ofList ([("operation_id", .str r.operationId), ("authorization_id", .str r.authorizationId),
    ("destination_id", .str r.enabledExecutableId), ("action", .str r.action)]
    ++ r.httpRequest.members)

/-- Is the response one that allows an execution which has not started? -/
def approvedState (r : ExecutionResponse) : Bool :=
  r.decision = .allow && r.status = .approved && r.decisionState = some (lit "allowed")
    && r.targetState = some (lit "not_started") && r.evidenceState = some (lit "pending")
    && r.downstream = none

/-- Is the approval for this operation, authorization and action? -/
def approvalIdentity (approval : Json) (r : Requested) : Bool :=
  approval.get "operation_id" = .str r.operationId
    && approval.get "authorization_id" = .str r.authorizationId
    && approval.get "action" = .str r.action
    && approval.get "profile" = .str (lit "allowly.execution.approval.v1")

/-- Is the approval for this executable and policy input? -/
def approvalScope (L : Libs) (approval : Json) (r : Requested) : Except Exc Bool := do
  let executable := getOr approval "executable" (.obj [])
  let enabled ← getAttr executable "enabled_executable_id"
  if enabled ≠ .str r.enabledExecutableId then return false
  else if executable.get "catalog_operation_id" ≠ .str r.catalogOperationId then return false
  else
    let digest ← sealSha L r.policyInput
    return approval.get "policy_input_sha256" = .str digest

/-- Is the approval's request the local one, sent without an idempotency key of
    the provider? -/
def approvalRequest (approval : Json) (r : Requested) : Except Exc Bool := do
  let actual ← dictOf (getOr approval "request" (.obj []))
  match actual with
  | none => return false
  | some ms =>
    let key := lit "provider_idempotency"
    let rest := ms.filter fun m => m.1 != key
    return pyEq (.obj rest) r.httpRequest.toJson
      && pyEq ((Json.lookup key ms).getD .null) (.ofList [("kind", .str (lit "none"))])

/-- Does the evidence mode of the response meet what was asked for? -/
def evidenceModeValid (result : ExecutionResponse) (approval : Json) (r : Requested) : Bool :=
  match result.effectiveEvidenceMode with
  | none => false
  | some mode =>
    (mode = lit "receipt" || mode = lit "witnessed") && approval.get "evidence_mode" = .str mode
      && !(r.evidenceMode = lit "witnessed" && mode ≠ lit "witnessed")

/-- `_validate_approval` up to the clock. -/
def checkApproval (L : Libs) (result : ExecutionResponse) (r : Requested) : Except Exc Json := do
  let approval := result.approval
  if approvedState result = false then
    protocolError "allow decision did not produce an approved execution" none
  else if approval.isObj = false then protocolError "missing execution approval" none
  else
    let digest ← sealSha L approval
    if some digest ≠ result.approvalSha256 then
      protocolError "execution approval hash does not match" none
    else if approvalIdentity approval r = false then
      protocolError "execution approval identity does not match" none
    else
      let scope ← approvalScope L approval r
      if scope = false then protocolError "execution approval scope does not match" none
      else
        let same ← approvalRequest approval r
        if same = false then protocolError "execution approval request does not match" none
        else if pyEq result.requestDescriptor.toJson (expectedDescriptor r) = false then
          protocolError "execution request descriptor does not match the local request" none
        else if evidenceModeValid result approval r = false then
          protocolError "execution evidence mode was downgraded or is invalid" none
        else return approval

/-- `_validate_approval`. -/
def validateApproval (L : Libs) (result : ExecutionResponse) (r : Requested) : Call Json := do
  let approval ← computed (checkApproval L result r)
  live L approval
  return approval

/-- Does the digest beside a response body belong to the body, with or without its
    prefix? -/
def bodyShaMatches (value : Json) (content : Bytes) : Except Exc Bool :=
  match value with
  | .str s => .ok (s = sha content || s = hexdigest content)
  | .arr _ => .error .type
  | .obj _ => .error .type
  | _ => .ok false

/-- `_observed_response`. -/
def observedResponse (value : Json) (maximum : Nat) : Except Exc Json :=
  match value.isObj, value.get "body" with
  | true, .str body =>
    match encode body with
    | none => valueError "'utf-8' codec can't encode"
    | some content => do
      let mismatch :=
        protocolError "local response bytes do not match its metadata" none
      match value.get "status", value.get "body_bytes" with
      | .int status, .int size =>
        if 200 ≤ status ∧ status ≤ 599 ∧ content.length ≤ maximum ∧ size = content.length then
          let digest ← bodyShaMatches (value.get "body_sha256") content
          if digest then return value.set "body_sha256" (.str (sha content)) else mismatch
        else mismatch
      | _, _ => mismatch
  | _, _ => protocolError "malformed local provider response" none

end Allowly

import Allowly.Core.Witness

/-!
# Executing a Request

The calls of `execution.py`: `executeHttp` asks the runtime for an approval and sends
the request, `continueHttpExecution` does so after a review, and
`flushExecutionOutcome` reports an outcome that is already in the journal.

The journal state is a dictionary that the code updates in place, so a change made
before an exception is still there when the exception is caught. `claim` therefore
hands the state back together with what became of it.

The provider request is made by `providerSend`, in a thread of its own. It is a program
like the calls, started by the operation `startSend`.

## Main definitions

* `LocalExecutionResult`: What a call returns.
* `providerSend`: `_provider_send`.
* `flushExecutionOutcome`: `flush_execution_outcome`.
* `claim`, `witnessedRun`, `dispatch`, `settle`, `dispatchApproved`: `_dispatch_approved`.
* `executeHttp`, `continueHttpExecution`: The two calls.
* `Command`, `code`: The programs that can be started.
-/

namespace Allowly

open Py

/-- What a call returns. The folder is the one of the operation. -/
structure LocalExecutionResult where
  execution : ExecutionResponse
  response : Option Json
  outcomePending : Bool
  deriving DecidableEq

/-- `_provider_send`. -/
def providerSend (L : Libs) (s : SendArgs) : Call Json := do
  match urlsplit s.descriptor.origin with
  | none => raise (.value "Invalid IPv6 URL")
  | some parsed =>
    let host := parsed.hostname L.lowerOther
    let addresses : List Address ← ask (.lookup host)
    match addresses with
    | [] => raise (.value "provider DNS includes a non-public address")
    | first :: rest =>
      if (first :: rest).any fun a => !a.isGlobal then
        raise (.value "provider DNS includes a non-public address")
      else
        Prog.always
          (do
            ask (.connect host first.text)
            live L s.approval
            match encode s.body with
            | none => raise (.value "'utf-8' codec can't encode")
            | some body =>
              let response ← ask (.transmit
                { host, method := s.descriptor.method, target := target s.descriptor
                  headers := s.headers ++ [(lit "Accept-Encoding", lit "identity"),
                    (lit "Connection", lit "close")]
                  body })
              let content := response.content
              if content.length > 1024 * 1024 then
                raise (.value "provider response exceeds 1 MiB")
              else
                match decode false content with
                | none => raise (.value "'utf-8' codec can't decode")
                | some text =>
                  return .ofList [("status", .int response.status),
                    ("headers", .obj (response.headers.foldl
                      (fun ms h => Json.insert h.1 (.str h.2) ms) [])),
                    ("body", .str text), ("body_bytes", .int content.length),
                    ("body_sha256", .str (sha content))])
          (ask .disconnect)

/-- A version number that is one of these. Unhashable values cannot be looked up. -/
def versionIn (versions : List Int) (value : Json) : Except Exc Bool :=
  match value with
  | .arr _ => .error .type
  | .obj _ => .error .type
  | v => .ok (versions.any fun n => pyEq v (.int n))

/-- A member that must be there, `value[key]`. -/
def member (value : Json) (key : String) : Except Exc Json :=
  if value.has key then .ok (value.get key) else .error .key

/-- Text that is used where other values raise a `TypeError`. -/
def textOf (value : Json) : Except Exc Str :=
  match value with
  | .str s => .ok s
  | _ => .error .type

/-- The key of a saved report. Without one no header is sent. -/
def keyOf (value : Json) : Except Exc (Option Str) :=
  match value with
  | .null => .ok none
  | .str s => .ok (some s)
  | _ => .error .type

/-- Does the journal hold an outcome that can be reported? -/
def hasOutcome (state : Json) : Except Exc Bool := do
  let version ← getAttr state "version"
  let known ← versionIn [1, 2] version
  return known && (state.get "outcome").isObj

/-- The journal after a report. -/
def completeState (state : Json) (final : ExecutionResponse) : Json :=
  state.update [("phase", .str (lit "complete")), ("final_response", final.toJson)]

/-- Reporting the outcome a journal holds. -/
def reportOutcome (L : Libs) (c : Client) (state : Json) (agentToken : Option Str) :
    Call ExecutionResponse := do
  let report := state.get "outcome"
  let operationId ← computed (member state "operation_id")
  let outcome ← computed (member report "body")
  let key ← computed (member report "idempotency_key")
  let operationId ← computed (textOf operationId)
  let key ← computed (keyOf key)
  let final ← reportExecutionOutcome L c operationId outcome key agentToken
  save .journal (completeState state final)
  return final

/-- `flush_execution_outcome`. -/
def flushExecutionOutcome (L : Libs) (c : Client) (agentToken : Option Str) :
    Call ExecutionResponse := do
  ask .resolve
  let state ← readJson .journal readLimit
  let pending ← computed (hasOutcome state)
  if pending = false then raise .recovery else reportOutcome L c state agentToken

/-- The report of an outcome. -/
def outcomeReport (operationId : Str) (body : List (String × Json)) : Json :=
  .ofList [("idempotency_key", .str operationId), ("body", .ofList body)]

/-- The journal before a claim: should nothing follow, the outcome is unknown. -/
def claimState (state : Json) (operationId : Str) (r : ExecutionResponse) (started : Str) : Json :=
  state.update [("phase", .str (lit "dispatch_attempted")),
    ("dispatch_attempted_at", .str started),
    ("outcome", outcomeReport operationId
      [("approval_sha256", optionText r.approvalSha256), ("target_state", .str (lit "unknown")),
        ("dispatch_started_at", .str started), ("completed_at", .str started)])]

/-- Claim the dispatch, with the journal saying so beforehand. The second part is
    what became of it. -/
def claim (L : Libs) (c : Client) (operationId : Str) (r : ExecutionResponse) (approval : Json)
    (state : Json) (agentToken : Option Str) : Call (Json × Except Exc Unit) := do
  let started ← Prog.attempt do
    live L approval
    let now ← ask .now
    return L.isoformat now
  match started with
  | .error x => return (state, .error x)
  | .ok started =>
    let state := claimState state operationId r started
    let claimed ← Prog.attempt do
      save .journal state
      let claimed ← claimExecutionDispatch L c operationId r.approvalSha256 agentToken
      if pyEq (claimed.get "approval") approval = false
          ∨ claimed.get "effective_evidence_mode" ≠ optionText r.effectiveEvidenceMode then
        raise (.protocol "dispatch claim differs from approval" none)
      else live L approval
    return (state, claimed)

/-- What is known at the end of an execution. -/
def outcomeBody (state : Json) (r : ExecutionResponse) (a : Artifacts) (completed : Str) :
    List (String × Json) :=
  let observed := match a.response with
    | none => []
    | some v => [("http_status", v.get "status"), ("response_sha256", v.get "body_sha256"),
        ("response_size", v.get "body_bytes")]
  let attested :=
    if a.attestation = .null then []
    else [("notary_attestation", a.attestation),
      ("evidence_bundle_sha256", optionText a.bundleSha256)]
  [("approval_sha256", optionText r.approvalSha256),
    ("target_state", .str (lit (if a.response.isSome then "response_observed" else "unknown"))),
    ("dispatch_started_at", state.get "dispatch_attempted_at"), ("completed_at", .str completed)]
    ++ observed ++ attested

/-- The journal at the end of an execution. -/
def settledState (state : Json) (operationId : Str) (r : ExecutionResponse) (a : Artifacts)
    (completed : Str) : Json :=
  state.update [("phase", .str (lit "outcome_pending")),
    ("outcome", outcomeReport operationId (outcomeBody state r a completed))]

/-- The response the caller is left with. -/
def saveResponse : Option Json → Call Unit
  | none => pure ()
  | some response => save .response response

/-- Saving the outcome and reporting it. The report can be made again later, so
    its failure is not one of the call. -/
def settle (L : Libs) (c : Client) (operationId : Str) (r : ExecutionResponse) (state : Json)
    (a : Artifacts) (agentToken : Option Str) : Call LocalExecutionResult := do
  saveResponse a.response
  let now ← ask .now
  save .journal (settledState state operationId r a (L.isoformat now))
  let reported ← (flushExecutionOutcome L c agentToken).attempt
  match reported with
  | .ok final => return { execution := final, response := a.response, outcomePending := false }
  | .error x =>
    if x.isException then
      return { execution := r, response := a.response, outcomePending := true }
    else raise x

/-- Waiting for the native process, claiming, and releasing it. -/
def witnessedRun (L : Libs) (c : Client) (operationId : Str) (r : ExecutionResponse)
    (approval state : Json) (agentToken : Option Str) : Call (Json × Except Exc Unit) := do
  let binding := Json.ofList [("approval_sha256", optionText r.approvalSha256)]
  let ready ← Prog.attempt do
    let polls : Nat ← ask .patience
    awaitReady polls
    let gate ← readJson .ready 1024
    if pyEq gate binding then return ()
    else raise (.protocol "witness ready gate differs from approval" none)
  match ready with
  | .error x => return (state, .error x)
  | .ok () =>
    let (state, claimed) ← claim L c operationId r approval state agentToken
    match claimed with
    | .error x => return (state, .error x)
    | .ok () =>
      let released ← Prog.attempt do
        save .release binding
        ask .awaitNative
      return (state, released)

/-- What becomes of an error while the process ran. Once the claim is in the journal,
    the process may have acted. -/
def afterRun (state : Json) : Except Exc Unit → Call Unit
  | .ok () => pure ()
  | .error x =>
    if x.isException ∧ state.get "phase" = .str (lit "dispatch_attempted") then pure ()
    else raise x

/-- The members an admission must share with the session. -/
def admissionKeys : List String :=
  ["session_id", "witness_url", "trusted_notary_key_fingerprint_sha256", "native_profile"]

/-- Is the admission the one of the session and the workspace? -/
def checkAdmission (admission session approval : Json) : Except Exc Unit :=
  if admissionKeys.any fun k => pyEq (admission.get k) (session.get k) = false then
    protocolError "witness admission differs from prepared session" none
  else if pyEq (admission.get "workspace_id") (approval.get "workspace_id") = false then
    protocolError "witness admission workspace differs" none
  else .ok ()

/-- The members of the admission that are passed on must be there. -/
def admissionMembers (admission : Json) : Except Exc Unit := do
  let _ ← member admission "witness_url"
  let _ ← member admission "session_id"
  let _ ← member admission "workspace_id"
  let _ ← member admission "admission_token"

/-- The witnessed half of `_dispatch_approved`: the state afterwards, and what the
    process left. -/
def dispatchWitnessed (L : Libs) (c : Client) (requested : Requested)
    (privateHeaders : List (Str × Str)) (body : Str) (r : ExecutionResponse)
    (approval state : Json) (files : WitnessFiles) (agentToken : Option Str) :
    Call (Json × Artifacts) := do
  let operationId := requested.operationId
  let session := orEmpty r.witnessSession
  if witnessTooLarge L requested.httpRequest privateHeaders body then
    raise (.value "request exceeds the native witness 2 KiB limit")
  else
    let admission ← getExecutionWitnessToken L c operationId r.approvalSha256 agentToken
    computed (checkAdmission admission session approval)
    computed (admissionMembers admission)
    let input := witnessInput r approval admission privateHeaders body
    ask (.startNative ([files.native, lit "prove-execute", lit "--trusted-key", files.trust]
      ++ match files.ca with
        | some ca => [lit "--witness-ca-cert", ca]
        | none => []))
    let stdin ← computed (jsonBytes input)
    ask (.communicate stdin)
    let (state, run) ← witnessedRun L c operationId r approval state agentToken
    ask .reapNative
    afterRun state run
    let artifacts ← witnessArtifacts r.approvalSha256
    return (state, artifacts)

/-- The direct half of `_dispatch_approved`. -/
def dispatchDirect (L : Libs) (c : Client) (requested : Requested)
    (privateHeaders : List (Str × Str)) (body : Str) (r : ExecutionResponse)
    (approval state : Json) (agentToken : Option Str) : Call (Json × Artifacts) := do
  let (state, claimed) ← claim L c requested.operationId r approval state agentToken
  computed claimed
  let response ← Prog.attempt do
    let thread : Nat ← ask (.startSend
      { descriptor := requested.httpRequest, headers := privateHeaders, body, approval })
    let value : Json ← ask (.joinSend thread)
    computed (observedResponse value (1024 * 1024))
  match response with
  | .ok v => return (state, { response := some v, attestation := .null, bundleSha256 := none })
  | .error x =>
    -- Provider bytes may have left this process; never repeat the call.
    if x.isException then
      return (state, { response := none, attestation := .null, bundleSha256 := none })
    else raise x

/-- The witness files of a witnessed execution, for the key the session names. -/
def sessionFiles (L : Libs) (r : ExecutionResponse) (approval : Json)
    (nativeBinary trustedNotaryKey : Option Str) : Call WitnessFiles := do
  let workspaceId ← computed (member approval "workspace_id")
  let files ← witnessFiles L workspaceId nativeBinary trustedNotaryKey
  let key ← computed (getAttr (orEmpty r.witnessSession) "trusted_notary_key_fingerprint_sha256")
  if key ≠ .str files.fingerprint then
    raise (.protocol "configured notary key differs from admitted witness" none)
  else return files

/-- The witness files, if the execution is witnessed. -/
def optionalFiles (L : Libs) (a : Args) (r : ExecutionResponse) (approval : Json) :
    Call (Option WitnessFiles) :=
  if r.effectiveEvidenceMode = some (lit "witnessed") then
    some <$> sessionFiles L r approval a.nativeBinary a.trustedNotaryKey
  else pure none

/-- Both halves of `_dispatch_approved`. -/
def dispatch (L : Libs) (c : Client) (a : Args) (requested : Requested)
    (privateHeaders : List (Str × Str)) (r : ExecutionResponse) (approval state : Json) :
    Option WitnessFiles → Call (Json × Artifacts)
  | some files =>
    dispatchWitnessed L c requested privateHeaders a.body r approval state files a.agentToken
  | none => dispatchDirect L c requested privateHeaders a.body r approval state a.agentToken

/-- `_dispatch_approved`. -/
def dispatchApproved (L : Libs) (c : Client) (a : Args) (requested : Requested)
    (privateHeaders : List (Str × Str)) (state : Json) (r : ExecutionResponse) :
    Call LocalExecutionResult := do
  let approval ← validateApproval L r requested
  let files ← optionalFiles L a r approval
  save .approval (.ofList (bindingMembers r approval))
  let (state, artifacts) ← dispatch L c a requested privateHeaders r approval state files
  settle L c requested.operationId r state artifacts a.agentToken

/-- `decision == "allow" and status == "approved"`. -/
def approved (r : ExecutionResponse) : Bool := r.decision = .allow && r.status = .approved

/-- The journal a new execution starts with. -/
def preparedState (operationId requestSha timestamp : Str) : Json :=
  .ofList [("version", .int 2), ("operation_id", .str operationId),
    ("request_sha256", .str requestSha), ("client_timestamp", .str timestamp),
    ("phase", .str (lit "prepared"))]

/-- The journal after the answer to a prepare or a continue request. The phase of
    an approved operation is given. -/
def answeredState (state : Json) (approvedPhase : String) (r : ExecutionResponse) : Json :=
  let phase :=
    if r.status = .waitingForReview then "waiting_for_review"
    else if approved r then approvedPhase
    else "complete"
  state.update [("phase", .str (lit phase)), ("authorization", journalAuthorization r)]

/-- What both calls do with the answer of the runtime. -/
def proceed (L : Libs) (c : Client) (a : Args) (requested : Requested)
    (privateHeaders : List (Str × Str)) (state : Json) (approvedPhase : String)
    (r : ExecutionResponse) : Call LocalExecutionResult := do
  let state := answeredState state approvedPhase r
  save .journal state
  if approved r = false then
    return { execution := r, response := none, outcomePending := false }
  else dispatchApproved L c a requested privateHeaders state r

/-- `execute_http` from the new folder on. -/
def executePrepared (L : Libs) (c : Client) (a : Args) (requested : Requested)
    (privateHeaders : List (Str × Str)) (timestamp : Str) : Call LocalExecutionResult := do
  let requestSha ← computed (sealSha L requested.toJson)
  let state := preparedState a.operationId requestSha timestamp
  save .journal state
  withLock do
    let r ← prepareExecution L c requested a.operationId a.agentToken
    proceed L c a requested privateHeaders state "authorized" r

/-- `execute_http`. -/
def executeHttp (L : Libs) (c : Client) (a : Args) : Call LocalExecutionResult := do
  let (requested, privateHeaders) ← computed (httpExecutionRequest L a)
  let now ← ask .now
  let timestamp := L.isoformat now
  let requested := { requested with clientTimestamp := some timestamp }
  ask .resolve
  if encode a.operationId = none then raise (.value "'utf-8' codec can't encode")
  else
    let exists_ : Bool ← ask .folderExists
    if exists_ then raise .recovery
    else
      ask .mkdirParent
      let made ← (ask .mkdir).attempt
      match made with
      | .error .fileExists => raise .recovery
      | .error x => raise x
      | .ok () => executePrepared L c a requested privateHeaders timestamp

/-- Is the phase one a review can be continued from? -/
def continuable (phase : Json) : Except Exc Bool :=
  match phase with
  | .arr _ => .error .type
  | .obj _ => .error .type
  | p => .ok (p = .str (lit "waiting_for_review") || p = .str (lit "continuing"))

/-- The time of the original request, if the journal can be continued. -/
def continuedTimestamp (state : Json) (operationId : Str) : Except Exc (Option Str) := do
  let version ← getAttr state "version"
  if pyEq version (.int 2) = false then return none
  else if state.get "operation_id" ≠ .str operationId then return none
  else
    let known ← continuable (state.get "phase")
    if known = false then return none
    else return (state.get "client_timestamp").asStr

/-- The key of a continuation. -/
def continuationKey (operationId reviewId sourceReceiptId : Str) : Except Exc Str := do
  let b ← jsonBytes (.arr [.str operationId, .str reviewId, .str sourceReceiptId])
  return lit "continue:" ++ hexdigest b

def Intent.toJson (i : Intent) : Json :=
  .ofList [("review_id", .str i.reviewId), ("source_receipt_id", .str i.sourceReceiptId),
    ("idempotency_key", .str i.idempotencyKey)]

/-- The journal with the intent of its review, if it waits for one. -/
def withIntent (L : Libs) (operationId : Str) (state : Json) : Except Exc Json :=
  if state.get "phase" = .str (lit "waiting_for_review") then do
    let previous ← parseExecutionResponse L (state.get "authorization")
    match previous.review with
    | some review =>
      if previous.status ≠ .waitingForReview then
        protocolError "saved execution is missing its review binding" none
      else
        let key ← continuationKey operationId review.id review.sourceReceiptId
        return state.set "continuation" (Intent.toJson ⟨review.id, review.sourceReceiptId, key⟩)
    | none => protocolError "saved execution is missing its review binding" none
  else .ok state

/-- The intent a journal holds: exactly its three members, each with text. -/
def savedIntent (state : Json) : Except Exc Intent :=
  match state.get "continuation" with
  | .obj ms =>
    match Json.lookup (lit "review_id") ms, Json.lookup (lit "source_receipt_id") ms,
        Json.lookup (lit "idempotency_key") ms with
    | some (.str reviewId), some (.str sourceReceiptId), some (.str idempotencyKey) =>
      if ms.length = 3 ∧ reviewId ≠ [] ∧ sourceReceiptId ≠ [] ∧ idempotencyKey ≠ [] then
        .ok { reviewId, sourceReceiptId, idempotencyKey }
      else protocolError "saved execution is missing its continuation intent" none
    | _, _, _ => protocolError "saved execution is missing its continuation intent" none
  | _ => protocolError "saved execution is missing its continuation intent" none

/-- The request, the intent and the journal a continuation goes on with. -/
def resume (L : Libs) (a : Args) (requested : Requested) (state : Json) :
    Except Exc (Requested × Intent × Json) := do
  match ← continuedTimestamp state a.operationId with
  | none => .error .recovery
  | some timestamp =>
    let requested := { requested with clientTimestamp := some timestamp }
    let requestSha ← sealSha L requested.toJson
    if state.get "request_sha256" ≠ .str requestSha then
      protocolError "continuation request differs from the original execution" none
    else
      let state ← withIntent L a.operationId state
      let intent ← savedIntent state
      return (requested, intent, state.set "phase" (.str (lit "continuing")))

/-- `continue_http_execution` from the journal on. -/
def continueFrom (L : Libs) (c : Client) (a : Args) (requested : Requested)
    (privateHeaders : List (Str × Str)) (intent : Intent) (state : Json) :
    Call LocalExecutionResult := do
  save .journal state
  let r ← continueExecution L c a.operationId requested intent a.agentToken
  proceed L c a requested privateHeaders state "continuing" r

/-- `continue_http_execution`. -/
def continueHttpExecution (L : Libs) (c : Client) (a : Args) : Call LocalExecutionResult := do
  let (requested, privateHeaders) ← computed (httpExecutionRequest L a)
  ask .resolve
  if encode a.operationId = none then raise (.value "'utf-8' codec can't encode")
  else
    let isDir : Bool ← ask .folderIsDir
    if isDir = false then raise .recovery
    else
      withLock do
        let state ← readJson .journal readLimit
        let (requested, intent, state) ← computed (resume L a requested state)
        continueFrom L c a requested privateHeaders intent state

/-- A program that can be started. The last one is only started by the others. -/
inductive Command where
  | execute (c : Client) (a : Args)
  | continuation (c : Client) (a : Args)
  | flush (c : Client) (agentToken : Option Str)
  | send (s : SendArgs)

/-- What a program returns. -/
inductive Value where
  | done (r : LocalExecutionResult)
  | final (r : ExecutionResponse)
  | sent (response : Json)

def code (L : Libs) : Command → Call Value
  | .execute c a => Value.done <$> executeHttp L c a
  | .continuation c a => Value.done <$> continueHttpExecution L c a
  | .flush c agentToken => Value.final <$> flushExecutionOutcome L c agentToken
  | .send s => Value.sent <$> providerSend L s

end Allowly

import Allowly.Core.World

/-!
# Scenarios

Runs that are written down as a list of moves. The surroundings oblige: what a call asks
of the folder and of its thread is answered as the folder is, and everything else by a
function the move carries. So a scenario need not repeat what is on disk.

The samples are those of one operation: a request without a body, the answer that approves
it, and the claim for it.

## Main definitions

* `attend`: The answers of obliging surroundings.
* `Move`, `play`: Scenarios.
* `sampleLibs`, `sampleArgs`, `sampleResponse`, `sampleOutside`: The samples.

## Theorems

* `play_reachable`: A scenario is a run.
-/

namespace Allowly

open Py Interleave

/-- A result that can be compared is one that has been computed. -/
theorem ok_of_toOption {X A : Type} {x : Except X A} {a : A} (h : x.toOption = some a) :
    x = .ok a := by
  cases x with
  | ok b =>
      rw [Except.toOption, Option.some.injEq] at h
      rw [h]
  | error y => cases h

/-- What the surroundings answer on their own. -/
abbrev Outlook := (o : Op) → Except Fault o.Answer

/-- The answers of obliging surroundings. -/
def attend (w : Point) (outside : Outlook) : Outlook
  | .folderExists => .ok (decide (w.shared.node ≠ .absent))
  | .folderIsDir => .ok (decide (w.shared.node = .dir))
  | .read file maximum =>
    match w.shared.files file with
    | some content => .ok (content.take (maximum + 1))
    | none => .error ⟨.fileNotFound, rfl⟩
  | .fileExists file => .ok (w.shared.files file).isSome
  | .startSend _ => .ok w.fresh
  | .joinSend thread =>
    match w.shared.results thread with
    | some (.ok (.sent v)) => .ok v
    | _ => .error ⟨.cancelled, rfl⟩
  | o => outside o

/-- A move of a scenario. A program goes on for at most `n` operations. -/
inductive Move where
  | begin (c : Command)
  | go (self n : Nat) (outside : Outlook)
  | finish (self : Nat)
  | crash (self : Nat)
  | disturb (d : NativeWrite)

variable (L : Libs) (operationId : Str)

/-- A program goes on, until it has no operation left. -/
def goOn (self : Nat) (outside : Outlook) : Nat → Point → Option Point
  | 0, w => some w
  | n + 1, w =>
    match w.live self with
    | some ⟨_, .op ..⟩ =>
      ((system L operationId).step w (.answer self (attend w outside))).bind
        (goOn self outside n)
    | _ => some w

def Move.play (w : Point) : Move → Option Point
  | begin c => (system L operationId).step w (.begin c)
  | go self n outside => goOn L operationId self outside n w
  | finish self => (system L operationId).step w (.finish self)
  | crash self => (system L operationId).step w (.crash self)
  | disturb d => (system L operationId).step w (.disturb d)

/-- The point a scenario leads to. -/
def play : List Move → Point → Option Point
  | [], w => some w
  | m :: ms, w => (m.play L operationId w).bind (play ms)

/-- The scenario from the beginning. -/
def scenario (ms : List Move) : Option Point := play L operationId ms (World.initial Folder.fresh)

variable {L : Libs} {operationId : Str} {s : Folder} {w w' : Point}

theorem goOn_reachable {self : Nat} {outside : Outlook} {n : Nat}
    (h : (system L operationId).Reachable s w) (hgo : goOn L operationId self outside n w = some w') :
    (system L operationId).Reachable s w' := by
  induction n generalizing w with
  | zero =>
      rw [goOn, Option.some.injEq] at hgo
      rw [← hgo]
      exact h
  | succ n ih =>
      rw [goOn] at hgo
      split at hgo
      · rcases Option.bind_eq_some_iff.mp hgo with ⟨v, hv, hgo⟩
        exact ih (System.Reachable.step w v _ h hv) hgo
      · rw [Option.some.injEq] at hgo
        rw [← hgo]
        exact h

/-- A scenario is a run. -/
theorem play_reachable {ms : List Move} (h : (system L operationId).Reachable s w)
    (hplay : play L operationId ms w = some w') : (system L operationId).Reachable s w' := by
  induction ms generalizing w with
  | nil =>
      rw [play, Option.some.injEq] at hplay
      rw [← hplay]
      exact h
  | cons m ms ih =>
      rw [play] at hplay
      rcases Option.bind_eq_some_iff.mp hplay with ⟨v, hv, hplay⟩
      refine ih ?_ hplay
      cases m with
      | go self n outside => exact goOn_reachable h hv
      | begin c => exact System.Reachable.step w v (.begin c) h hv
      | finish self => exact System.Reachable.step w v (.finish self) h hv
      | crash self => exact System.Reachable.step w v (.crash self) h hv
      | disturb d => exact System.Reachable.step w v (.disturb d) h hv

/-- What a scenario shows is reached. -/
theorem scenario_reachable {ms : List Move} {check : Point → Bool}
    (h : (scenario L operationId ms).any check = true) :
    ∃ w, (system L operationId).Reachable Folder.fresh w ∧ check w = true := by
  rcases (Option.any_eq_true_iff_get _ _).mp h with ⟨hsome, hcheck⟩
  exact ⟨_, play_reachable System.Reachable.start (Option.some_get hsome).symm, hcheck⟩

/-! ### Samples -/

def sampleTime : Int := 1767225600000000

/-- The members of the request that are not the caller's to choose. -/
def sampleDescriptor : Descriptor where
  method := lit "GET"
  origin := lit "https://api.example.com"
  path := lit "/pay"
  query := []
  headers := []
  bodySha256 := lit "sha256:e3b0c44298fc1c149afbf4c8996fb92427ae41e4649b934ca495991b7852b855"
  bodySize := 0
  contentType := none

/-- The request of the sample, in a mode of evidence. -/
def sampleRequested (mode : Str) : Requested where
  operationId := lit "op_1"
  authorizationId := lit "auth_1"
  enabledExecutableId := lit "exe_1"
  catalogOperationId := lit "cat_1"
  action := lit "pay"
  httpRequest := sampleDescriptor
  policyInput := policyInputOf none
  evidenceMode := mode
  clientTimestamp := some (lit "2026-01-01T00:00:00+00:00")

def sampleArgs (mode : Str) : Args where
  url := lit "https://api.example.com/pay"
  operationId := lit "op_1"
  authorizationId := lit "auth_1"
  enabledExecutableId := lit "exe_1"
  catalogOperationId := lit "cat_1"
  action := lit "pay"
  method := lit "GET"
  headers := none
  body := []
  evidenceMode := mode
  policyInput := none
  agentToken := none
  nativeBinary := none
  trustedNotaryKey := none
  timeout := .finite false 30 0

def sampleClient : Client where
  apiKey := lit "key"
  edgeToken := none
  agentToken := none
  tokenSupplier := false
  fallbackByAction := []

/-- An approval of the sample, told from others by a tag. -/
def sampleApproval (mode tag : Str) : Json :=
  .ofList [("operation_id", .str (lit "op_1")), ("authorization_id", .str (lit "auth_1")),
    ("action", .str (lit "pay")), ("profile", .str (lit "allowly.execution.approval.v1")),
    ("executable", .ofList [("enabled_executable_id", .str (lit "exe_1")),
      ("catalog_operation_id", .str (lit "cat_1"))]),
    ("policy_input_sha256", .str (lit "sha256:policy")),
    ("request", .ofList (sampleDescriptor.members ++
      [("provider_idempotency", .ofList [("kind", .str (lit "none"))])])),
    ("evidence_mode", .str mode), ("workspace_id", .str (lit "ws_1")), ("tag", .str tag),
    ("issued_at", .str (lit "2026-01-01T00:00:00Z")),
    ("expires_at", .str (lit "2026-01-01T01:00:00Z"))]

/-- Outside code as far as the sample goes. The digests are names of what they are of. -/
def sampleLibs : Libs where
  hashSealValue v :=
    if v = policyInputOf none then some (lit "policy")
    else if v.get "tag" = .null then some (lit "request")
    else (v.get "tag").asStr
  decodeReceipt v := .ok v
  fromisoformat s :=
    if s = lit "2026-01-01T00:00:00+00:00" then some ⟨true, sampleTime⟩
    else if s = lit "2026-01-01T01:00:00+00:00" then some ⟨true, sampleTime + 3600000000⟩
    else none
  isoformat _ := lit "2026-01-01T00:00:00+00:00"
  lowerOther s := s
  upperOther s := s
  otherDigit _ := none
  sendable _ := true
  compressPoint _ := none

def sampleRequestDescriptor : ExecutionRequestDescriptor where
  operationId := lit "op_1"
  authorizationId := lit "auth_1"
  destinationId := lit "exe_1"
  action := lit "pay"
  method := sampleDescriptor.method
  origin := sampleDescriptor.origin
  path := sampleDescriptor.path
  query := sampleDescriptor.query
  headers := sampleDescriptor.headers
  bodySha256 := sampleDescriptor.bodySha256
  bodySize := sampleDescriptor.bodySize
  contentType := sampleDescriptor.contentType

/-- The answer that approves the sample. -/
def sampleResponse (mode tag : Str) : ExecutionResponse where
  operationId := lit "op_1"
  status := .approved
  decision := .allow
  reason := []
  destinationId := lit "exe_1"
  action := lit "pay"
  requestFingerprint := []
  requestDescriptor := sampleRequestDescriptor
  decisionReceipt := .pending (lit "rcp_1") none (lit "/v1/receipts/rcp_1")
  downstream := none
  outcomeEvidence := none
  confirmNonce := none
  confirmExpiresAt := none
  confirmPromptHint := none
  escalationId := none
  escalationExpiresAt := none
  escalationTo := none
  escalation := none
  effectiveEvidenceMode := some mode
  approval := sampleApproval mode tag
  approvalSha256 := some (lit "sha256:" ++ tag)
  approvalExpiresAt := none
  decisionState := some (lit "allowed")
  targetState := some (lit "not_started")
  evidenceState := some (lit "pending")
  witnessSession := .null
  confirmationId := none
  review := none

/-- The answer that makes the sample wait for a review. -/
def sampleWaiting : ExecutionResponse :=
  { sampleResponse (lit "receipt") [] with
    status := .waitingForReview
    decision := .confirm
    approval := .null
    approvalSha256 := none
    decisionState := some (lit "not_allowed")
    review := some ⟨.confirm, lit "cnf_1", lit "rcp_1", lit "2026-01-01T01:00:00Z"⟩ }

/-- The answer that grants the claim. -/
def sampleGrant (mode tag : Str) : Json :=
  .ofList [("operation_id", .str (lit "op_1")), ("approval_sha256", .str (lit "sha256:" ++ tag)),
    ("dispatch_state", .str (lit "claimed")), ("approval", sampleApproval mode tag),
    ("effective_evidence_mode", .str mode)]

def answerJson (v : Json) : ApiResponse where
  status := 200
  headers := []
  content := ((dumps v).bind encode).getD []

/-- The surroundings of the sample: everything works, and the runtime answers a request
    to execute or to continue as given. -/
def sampleOutside (mode tag : Str) (answer : Json) : Outlook
  | .now => .ok sampleTime
  | .http req => match req.route with
    | .dispatch _ => .ok (answerJson (sampleGrant mode tag))
    | .outcome _ => .ok (answerJson (sampleResponse mode tag).toJson)
    | _ => .ok (answerJson answer)
  | .lookup _ => .ok [⟨lit "93.184.215.14", true⟩]
  | .transmit _ => .ok { status := 200, headers := [], content := [111, 107] }
  | .resolve => .ok ()
  | .mkdirParent => .ok ()
  | .mkdir => .ok ()
  | .openLock => .ok ()
  | .flock => .ok ()
  | .closeLock => .ok ()
  | .makeTemporary => .ok ()
  | .writeTemporary _ => .ok ()
  | .replace .. => .ok ()
  | .syncFolder => .ok ()
  | .dropTemporary => .ok ()
  | .connect .. => .ok ()
  | .disconnect => .ok ()
  | _ => .error ⟨.os, rfl⟩

/-! ### A witnessed sample -/

/-- Outside code for a notary key that is its own point. -/
def witnessLibs : Libs := { sampleLibs with compressPoint := some }

/-- The bytes of a file that holds a value. -/
def fileOf (v : Json) : Bytes := ((dumps v).bind encode).getD []

def sampleSession : Json :=
  .ofList [("session_id", .str (lit "wit_1")), ("witness_url", .str (lit "wss://w.example.com")),
    ("native_profile", .str (lit "p1")),
    ("trusted_notary_key_fingerprint_sha256",
      .str (lit "4bf5122f344554c53bde2ebb8cd2b7e3d1600ad631c385a5d7cce23c7785459a"))]

/-- The answer that approves the witnessed sample. -/
def witnessedResponse (tag : Str) : ExecutionResponse :=
  { sampleResponse (lit "witnessed") tag with witnessSession := sampleSession }

def sampleAdmission (tag : Str) : Json :=
  (sampleSession.set "workspace_id" (.str (lit "ws_1"))).update
    [("approval_sha256", .str (lit "sha256:" ++ tag)), ("admission_token", .str (lit "adm_1"))]

def witnessedArgs : Args :=
  { sampleArgs (lit "witnessed") with
    nativeBinary := some (lit "/bin/native"), trustedNotaryKey := some (lit "/etc/notary.json") }

/-- The surroundings of the witnessed sample. The native process ends with this result. -/
def witnessedOutside (tag : Str) (answer : Json) (result : Int × Bytes) : Outlook
  | .http req => match req.route with
    | .witnessSessionToken _ => .ok (answerJson (sampleAdmission tag))
    | .outcome _ => .ok (answerJson (witnessedResponse tag).toJson)
    | _ => sampleOutside (lit "witnessed") tag answer (.http req)
  | .outside (.read ..) =>
    .ok (fileOf (.ofList [("alg", .int 2), ("data", .arr [.int 1])]))
  | .outside (.expanduser path) => .ok path
  | .outside (.resolve path) => .ok path
  | .outside (.isFile _) => .ok true
  | .outside (.executable _) => .ok true
  | .startNative _ => .ok ()
  | .communicate _ => .ok ()
  | .patience => .ok 5
  | .nativeDone => .ok false
  | .sleep => .ok ()
  | .awaitNative => .ok ()
  | .reapNative => .ok ()
  | .nativeResult => .ok result
  | o => sampleOutside (lit "witnessed") tag answer o

/-- What says that the process is ready for an approval. -/
def readyFile (tag : Str) : Bytes :=
  fileOf (.ofList [("approval_sha256", .str (lit "sha256:" ++ tag))])

/-- The response the process leaves. -/
def leftResponse : Json :=
  .ofList [("status", .int 200), ("headers", .obj []), ("body", .str (lit "ok")),
    ("body_bytes", .int 2),
    ("body_sha256", .str (lit "2689367b205c16ce32ed4200942b8b8b1e262dfc70d9bc9fbc77c49699a4f1df"))]

/-- An empty object, which is presentation and attestation. -/
def leftFile : Bytes := fileOf (.obj [])

def leftDigest : Str :=
  lit "sha256:44136fa355b3678a1146ad16f7e8649e94fb4fc21fe77e8310c060f61caaff8a"

/-- What the process says of its own verification. -/
def verifiedOutput (tag : Str) : Bytes :=
  fileOf (.ofList [("verified", .bool true), ("approval_sha256", .str (lit "sha256:" ++ tag)),
    ("request_binding_verification", .str (lit "verified_from_full_presentation")),
    ("artifact_sha256", .str leftDigest), ("attestation_sha256", .str leftDigest),
    ("response", leftResponse)])

/-- The native process leaves all its files. -/
def leaves (tag : Str) : List Move :=
  [.disturb ⟨.ready, some (readyFile tag)⟩, .disturb ⟨.witnessResponse, some (fileOf leftResponse)⟩,
    .disturb ⟨.presentation, some leftFile⟩, .disturb ⟨.attestation, some leftFile⟩]

end Allowly

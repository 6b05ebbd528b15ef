import Allowly.Core.Journal

/-!
# The Native Witness

In witnessed mode the provider request is made by a native process, which waits for
a release file before it sends anything and leaves its evidence in the operation
folder. `witnessFiles` finds the process and the notary key it is to trust, from the
caller's paths or from the setup of the workspace. `witnessArtifacts` reads what the
process left.

A truthy value in the sense of Python decides where the source writes `or`.

## Main definitions

* `witnessFiles`: `_witness_files`.
* `witnessInput`: What is handed to the native process.
* `awaitReady`: Waiting for the process to be ready.
* `verifyNative`, `witnessArtifacts`: Reading the evidence.
-/

namespace Allowly

open Py

/-- The truth value of a JSON value. -/
def truthy : Json → Bool
  | .null => false
  | .bool b => b
  | .int n => n ≠ 0
  | .float x => match x with
    | .finite _ mant _ => mant ≠ 0
    | _ => true
  | .str s => s ≠ []
  | .arr xs => xs ≠ []
  | .obj ms => ms ≠ []

/-- `value or {}`. -/
def orEmpty (j : Json) : Json := if truthy j then j else .obj []

def isHex64 (s : Str) : Bool :=
  s.length == 64 && s.all fun c => isDigit c || (97 ≤ c && c ≤ 102)

/-- The octets of a list of integers below 256, `bytes(value)`. -/
def bytesOf : Json → Except Exc Bytes
  | .arr items => items.mapM fun item =>
      match item with
      | .int n => if 0 ≤ n ∧ n < 256 then .ok (UInt8.ofNat n.toNat) else valueError "bytes must be in range(0, 256)"
      | .bool b => .ok (if b then 1 else 0)
      | _ => .error .type
  | .int n => if 0 ≤ n then .ok (List.replicate n.toNat 0) else valueError "negative count"
  | .obj [] => .ok []
  | _ => .error .type

/-- `_notary_fingerprint`. -/
def notaryFingerprint (L : Libs) (path : Str) : Call Str := do
  let data : Bytes ← ask (.outside (.read path 4096))
  if data.length > 4096 then raise (.protocol "execution artifact exceeds its limit" none)
  else
    let key ← computed (loadJson data)
    let alg ← computed (getAttr key "alg")
    if pyEq alg (.int 2) = false then raise (.value "notary key must be P-256")
    else if key.has "data" = false then raise .key
    else
      let point ← computed (bytesOf (key.get "data"))
      match L.compressPoint point with
      | some compressed => return hexdigest compressed
      | none => raise (.value "invalid point")

/-- What the setup of a workspace says. -/
structure WitnessConfig where
  nativeBinaryPath : Str
  trustedNotaryKeyPath : Str
  fingerprint : Str
  /-- The certificate of the witness and its digest. -/
  ca : Option (Str × Str)

/-- Reading the setup file's content. -/
def parseWitnessConfig (workspaceId : Str) (config : Json) : Option WitnessConfig :=
  match config.get "version", config.get "workspaceId", config.get "nativeBinaryPath",
      config.get "trustedNotaryKeyPath", config.get "fingerprintSha256" with
  | .int 1, .str id, .str native, .str key, .str fingerprint =>
    if id = workspaceId ∧ isHex64 fingerprint = true then
      match config.get "trustedWitnessCaPath", config.get "witnessCaFingerprintSha256" with
      | .null, .null => some ⟨native, key, fingerprint, none⟩
      | .str path, .str digest =>
        if isHex64 digest then some ⟨native, key, fingerprint, some (path, digest)⟩ else none
      | _, _ => none
    else none
  | _, _, _, _, _ => none

/-- The setup of a workspace, which `allowly setup witness` writes. -/
def witnessConfig (workspaceId : Json) : Call WitnessConfig := do
  match workspaceId with
  | .str id =>
    if id = [] ∨ id.length > 128 ∨ ¬(id.all isWordDash) = true then
      raise (.protocol "invalid witness workspace ID" none)
    else
      let dir : Str ← ask (.outside .configDir)
      let path := dir ++ lit "/witness/" ++ id ++ lit "/config.json"
      let config ← Prog.attempt do
        let data : Bytes ← ask (.outside (.read path 4096))
        if data.length > 4096 then raise (.protocol "execution artifact exceeds its limit" none)
        else computed (loadJson data)
      let invalid := Exc.value "witness setup is invalid"
      match config with
      | .error .fileNotFound => raise (.value "witness setup is missing")
      | .error x => if x.isOSError || x.isValueError then raise invalid else raise x
      | .ok config =>
        match parseWitnessConfig id config with
        | some c => return c
        | none => raise invalid
  | _ => raise (.protocol "invalid witness workspace ID" none)

/-- An absolute path to a regular file, with its links resolved. -/
def resolveFile (path : Str) : Call (Str × Bool) := do
  let resolved : Str ← ask (.outside (.resolve path))
  let isFile : Bool ← ask (.outside (.isFile resolved))
  return (resolved, isFile)

/-- The certificate of the witness, checked against its digest. -/
def witnessCa (path digest : Str) : Call Str := do
  let candidate : Str ← ask (.outside (.expanduser path))
  if candidate.head? ≠ some 47 then raise (.value "witness CA path must be absolute")
  else
    let (resolved, isFile) ← resolveFile candidate
    let size : Nat ← if isFile then ask (.outside (.size resolved)) else pure 0
    if isFile = false ∨ size > 32 * 1024 ∨ size < 1 then raise (.value "witness CA file is invalid")
    else
      let data : Bytes ← ask (.outside (.read resolved (32 * 1024)))
      if hexdigest data ≠ digest then
        raise (.protocol "witness CA differs from the locally pinned fingerprint" none)
      else return resolved

/-- The native process, the notary key, its fingerprint and the certificate. -/
structure WitnessFiles where
  native : Str
  trust : Str
  fingerprint : Str
  ca : Option Str

/-- `value or default`, where the value may be missing or empty. -/
def orText (given : Option Str) (default : Str) : Str :=
  match given with
  | some (c :: s) => c :: s
  | _ => default

/-- The setup of the workspace, unless both paths are given. -/
def optionalConfig (workspaceId : Json) (native key : Option Str) : Call (Option WitnessConfig) :=
  if native.isSome ∧ key.isSome then pure none else some <$> witnessConfig workspaceId

def isExecutable (path : Str) : Call Bool := do
  let isFile : Bool ← ask (.outside (.isFile path))
  if isFile then ask (.outside (.executable path)) else return false

def optionalCa : Option (Str × Str) → Call (Option Str)
  | none => pure none
  | some (path, digest) => some <$> witnessCa path digest

/-- `_witness_files`. -/
def witnessFiles (L : Libs) (workspaceId : Json) (nativeBinary trustedNotaryKey : Option Str) :
    Call WitnessFiles := do
  let config ← optionalConfig workspaceId nativeBinary trustedNotaryKey
  let native := orText nativeBinary ((config.map (·.nativeBinaryPath)).getD [])
  let trust := orText trustedNotaryKey ((config.map (·.trustedNotaryKeyPath)).getD [])
  let binaryPath : Str ← ask (.outside (.expanduser native))
  let trustPath : Str ← ask (.outside (.expanduser trust))
  if binaryPath.head? ≠ some 47 ∨ trustPath.head? ≠ some 47 then
    raise (.value "witness binary and public key paths must be absolute")
  else
    let native : Str ← ask (.outside (.resolve binaryPath))
    let trust : Str ← ask (.outside (.resolve trustPath))
    let executable ← isExecutable native
    if executable = false then raise (.value "witness binary is missing or not executable")
    else
      let trustIsFile : Bool ← ask (.outside (.isFile trust))
      if trustIsFile = false then raise (.value "witness public key file is missing")
      else
        let fingerprint ← notaryFingerprint L trust
        if (config.map (·.fingerprint)).getD fingerprint ≠ fingerprint then
          raise (.protocol
            "witness public key differs from the locally confirmed fingerprint" none)
        else
          let ca ← optionalCa (config.bind (·.ca))
          return { native, trust, fingerprint, ca }

/-- The request line and headers as the native process will send them, with the
    body. Only its size matters. -/
def estimatedRequest (host : Str) (d : Descriptor) (target : Str) (headers : List (Str × Str))
    (bodySize : Nat) (body : Str) : Str :=
  d.method ++ [32] ++ target ++ lit " HTTP/1.1\r\nHost: " ++ host
    ++ lit "\r\nConnection: close\r\nAccept-Encoding: identity\r\n"
    ++ (sortHeaders headers).flatMap (fun h => h.1 ++ lit ": " ++ h.2 ++ lit "\r\n")
    ++ lit "Content-Length: " ++ natText bodySize ++ lit "\r\n\r\n" ++ body

/-- The path and query a request is sent to. -/
def target (d : Descriptor) : Str := d.path ++ if d.query = [] then [] else 63 :: d.query

/-- Does the request exceed what the native process can prove? -/
def witnessTooLarge (L : Libs) (d : Descriptor) (headers : List (Str × Str)) (body : Str) : Bool :=
  let host := match urlsplit d.origin with
    | some parsed => parsed.hostname L.lowerOther
    | none => []
  let size := ((encode body).map List.length).getD 0
  let estimated := estimatedRequest host d (target d) headers size body
  ((encode estimated).map List.length).getD 0 > 2048

/-- The approval with its digest, as `approval.json` has it. -/
def bindingMembers (r : ExecutionResponse) (approval : Json) : List (String × Json) :=
  [("approval_sha256", optionText r.approvalSha256), ("approval", approval)]

/-- What the native process is given to read. -/
def witnessInput (r : ExecutionResponse) (approval admission : Json)
    (headers : List (Str × Str)) (body : Str) : Json :=
  .ofList (bindingMembers r approval ++
    [("request", .ofList [("headers", .obj (headers.map fun h => (h.1, .str h.2))),
        ("body", .str body)]),
      ("require_dispatch_ack", .bool true),
      ("witness", .ofList [("url", admission.get "witness_url"),
        ("session_id", admission.get "session_id"), ("workspace_id", admission.get "workspace_id"),
        ("admission_token", admission.get "admission_token")])])

/-- Waiting for the process to say it is ready. Out of polls, the wait has timed
    out. -/
def awaitReady : Nat → Call Unit
  | 0 => raise .timeout
  | n + 1 => do
    let ready : Bool ← ask (.fileExists .ready)
    if ready then return ()
    else
      let done : Bool ← ask .nativeDone
      if done then raise (.protocol "witness failed before dispatch" none)
      else
        ask .sleep
        awaitReady n

/-- What the process left behind: the response, the attestation and the digest of
    the presentation. -/
structure Artifacts where
  response : Option Json
  attestation : Json
  bundleSha256 : Option Str

/-- A response whose metadata was checked against its bytes. -/
def Observed (v : Json) : Prop :=
  ∃ status size digest, v.get "status" = .int status ∧ v.get "body_bytes" = .int size ∧
    v.get "body_sha256" = .str digest

/-- What the artifacts put into the journal. -/
def Artifacts.Sound (a : Artifacts) : Prop :=
  a.attestation.WellFormed ∧ ∀ v, a.response = some v → Observed v

/-- The checks on the process's own verification, for the digests of the files it
    left. -/
def verifyNative (approvalSha256 : Option Str) (bundle : Str) (attestation : Bytes)
    (response : Option Json) (verified : Json) : Except Exc Json := do
  if verified.get "verified" ≠ .bool true
      ∨ verified.get "approval_sha256" ≠ optionText approvalSha256
      ∨ verified.get "request_binding_verification" ≠ .str (lit "verified_from_full_presentation")
      ∨ verified.get "artifact_sha256" ≠ .str bundle
      ∨ verified.get "attestation_sha256" ≠ .str (sha attestation) then
    protocolError "native verification result differs from approval" none
  else
    match response with
    | none => protocolError "native verified response differs from observed response" none
    | some response =>
      let observed ← observedResponse (verified.get "response") (16 * 1024)
      if pyEq response observed = false then
        protocolError "native verified response differs from observed response" none
      else loadJson attestation

/-- The response the process saved, if it did. -/
def savedResponse (present : Bool) : Call (Option Json) := do
  if present then
    let value ← readJson .witnessResponse readLimit
    let response ← computed (observedResponse value (16 * 1024))
    return some response
  else return none

/-- Reading what the process left. -/
def readArtifacts (approvalSha256 : Option Str) : Call Artifacts := do
  let present : Bool ← ask (.fileExists .witnessResponse)
  let response ← savedResponse present
  let (code, stdout) ← ask .nativeResult
  if code ≠ 0 then return { response, attestation := .null, bundleSha256 := none }
  else if stdout.length > 64 * 1024 then
    raise (.protocol "native verification output exceeds its limit" none)
  else
    let verified ← computed (loadJson stdout)
    if verified.isObj = false then
      raise (.protocol "native verification output is malformed" none)
    else
      let presentation ← readBytes .presentation (16 * 1024 * 1024)
      let bundle := sha presentation
      let attestationBytes ← readBytes .attestation (1024 * 1024)
      let attestation ← computed
        (verifyNative approvalSha256 bundle attestationBytes response verified)
      return { response, attestation, bundleSha256 := some bundle }

/-- Corrupt or missing artifacts are as good as none. -/
def witnessArtifacts (approvalSha256 : Option Str) : Call Artifacts := do
  let read ← (readArtifacts approvalSha256).attempt
  match read with
  | .ok artifacts => return artifacts
  | .error x =>
    if x.isException then return { response := none, attestation := .null, bundleSha256 := none }
    else raise x

end Allowly

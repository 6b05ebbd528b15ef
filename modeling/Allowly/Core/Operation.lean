import Allowly.Base.Program
import Allowly.Core.Request

/-!
# Operations

Everything a call asks of its surroundings: the clock, the operation's folder, the
runtime behind the API, the native witness process, the provider, and the files of
the witness setup. A call is a program over these operations, and what the
surroundings answer is left open.

An operation folder belongs to one operation ID in one storage directory, so its
files are named by what they are for. `replace` is `os.replace` of a finished
temporary file; the steps of `_save` around it are operations of their own, because
each of them can fail.

No operation raises `ExecutionRecoveryRequired`: that is for the code to say, and it is
not a `Fault`.

The provider request is made by a thread. `startSend` starts it, and from then on it
runs by itself: `joinSend` waits for it, and a call that is cancelled while waiting
leaves it running.

## Main definitions

* `File`, `Route`, `ApiRequest`, `ApiResponse`: What operations are about.
* `ProviderRequest`, `ProviderResponse`, `SendArgs`: The provider request.
* `Outside`: Questions of the witness setup.
* `Op`, `Op.Answer`, `Fault`: The operations, their answers, and what can go wrong.
* `Call`: Programs over them.
-/

namespace Allowly

open Py

/-- A file of the operation folder. -/
inductive File where
  | journal
  | approval
  | response
  /-- `witness/witness.ready.json`. -/
  | ready
  /-- `witness/dispatch.approved.json`, which releases the native process. -/
  | release
  /-- `witness/response.json`. -/
  | witnessResponse
  | presentation
  | attestation
  deriving DecidableEq

/-- Where an API request goes. -/
inductive Route where
  | execute
  | continuation (operationId : Str)
  | dispatch (operationId : Str)
  | witnessSessionToken (operationId : Str)
  | outcome (operationId : Str)
  | execution (operationId : Str)
  | check (wait : Bool)
  | agentCheck (wait : Bool)
  | budgetSettlements
  | receipt (receiptId : Str)
  | acknowledgments (receiptId : Str)
  | acknowledgment (receiptId acknowledgmentId : Str)
  | sealRecord
  | authorization (authorizationId : Str)
  | confirmation (nonce : Str)
  | confirmationStatus (confirmationId : Str)
  | escalation (escalationId : Str)
  | escalationResolve (escalationId : Str)
  | policies
  | policyList
  | policy (policyId : Str)
  | policyArchive (policyId : Str)
  | policyPreview
  | policyPublish
  | observeEvent (eventId : Str)
  deriving DecidableEq

/-- A path with an ID in it, which must have a UTF-8 form. -/
def resourcePath (start : String) (id : Str) (rest : String) : Option Str :=
  (quote id).map fun id => lit start ++ id ++ lit rest

def executionPath (operationId : Str) (rest : String) : Option Str :=
  resourcePath "/v1/executions/" operationId rest

def Route.path : Route → Option Str
  | execute => some (lit "/v1/execute")
  | continuation operationId => executionPath operationId "/continue"
  | dispatch operationId => executionPath operationId "/dispatch"
  | witnessSessionToken operationId => executionPath operationId "/witness-session-token"
  | outcome operationId => executionPath operationId "/outcome"
  | execution operationId => executionPath operationId ""
  | check wait => some (lit (if wait then "/v1/check?wait=true" else "/v1/check"))
  | agentCheck wait => some (lit (if wait then "/v1/agent-check?wait=true" else "/v1/agent-check"))
  | budgetSettlements => some (lit "/v1/budget-settlements")
  | receipt receiptId => resourcePath "/v1/receipts/" receiptId ""
  | acknowledgments receiptId => resourcePath "/v1/receipts/" receiptId "/acknowledgments"
  | acknowledgment receiptId acknowledgmentId => do
    let start ← resourcePath "/v1/receipts/" receiptId "/acknowledgments/"
    let id ← quote acknowledgmentId
    return start ++ id
  | sealRecord => some (lit "/v1/seal")
  | authorization authorizationId => resourcePath "/v1/authorizations/" authorizationId ""
  | confirmation nonce => resourcePath "/v1/confirmations/" nonce ""
  | confirmationStatus confirmationId => resourcePath "/v1/confirmations/" confirmationId "/status"
  | escalation escalationId => resourcePath "/v1/escalations/" escalationId ""
  | escalationResolve escalationId => resourcePath "/v1/escalations/" escalationId "/resolve"
  | policies => some (lit "/v1/policies")
  | policyList => some (lit "/v1/policies")
  | policy policyId => resourcePath "/v1/policies/" policyId ""
  | policyArchive policyId => resourcePath "/v1/policies/" policyId ""
  | policyPreview => some (lit "/v1/setup/policies/preview")
  | policyPublish => some (lit "/v1/setup/policies/publish")
  | observeEvent eventId => resourcePath "/v1/observe/events/" eventId ""

/-- A request to the runtime, with the headers that are its own. -/
structure ApiRequest where
  route : Route
  path : Str
  json : Option Json
  headers : List (Str × Str)
  deriving DecidableEq

structure ApiResponse where
  status : Nat
  headers : List (Str × Str)
  content : Bytes
  deriving DecidableEq

/-- What is handed to the provider. -/
structure ProviderRequest where
  host : Str
  method : Str
  target : Str
  headers : List (Str × Str)
  body : Bytes
  deriving DecidableEq

structure ProviderResponse where
  status : Nat
  headers : List (Str × Str)
  content : Bytes
  deriving DecidableEq

/-- The arguments of `_provider_send`. -/
structure SendArgs where
  descriptor : Descriptor
  headers : List (Str × Str)
  body : Str
  approval : Json
  deriving DecidableEq

/-- What the witness setup asks of the machine. -/
inductive Outside where
  /-- `ALLOWLY_CONFIG_DIR`, or the default below the home directory. -/
  | configDir
  | read (path : Str) (maximum : Nat)
  | expanduser (path : Str)
  | resolve (path : Str)
  | isFile (path : Str)
  | executable (path : Str)
  | size (path : Str)
  deriving DecidableEq

abbrev Outside.Answer : Outside → Type
  | configDir => Str
  | read .. => Bytes
  | expanduser _ => Str
  | resolve _ => Str
  | isFile _ => Bool
  | executable _ => Bool
  | size _ => Nat

inductive Op where
  /-- The time, in microseconds since the epoch. -/
  | now
  /-- Resolving the storage directory. -/
  | resolve
  | folderExists
  | folderIsDir
  | mkdirParent
  /-- `folder.mkdir`. -/
  | mkdir
  | openLock
  | flock
  | closeLock
  /-- The temporary file of `_save`. -/
  | makeTemporary
  /-- Writing and persisting the temporary file. -/
  | writeTemporary (data : Bytes)
  | replace (file : File) (data : Bytes)
  | syncFolder
  | dropTemporary
  /-- The octets of a file, at most one more than `maximum`. -/
  | read (file : File) (maximum : Nat)
  | fileExists (file : File)
  /-- The supplier of agent tokens. The answer is its text, if it is one. -/
  | supplyToken
  | http (r : ApiRequest)
  | outside (q : Outside)
  /-- Starting the native process. Its `--output` is `witness` in the operation folder,
      and is left out of the arguments. -/
  | startNative (arguments : List Str)
  /-- Starting to feed the native process its input. -/
  | communicate (stdin : Bytes)
  /-- How often the wait for the native process polls before it times out. -/
  | patience
  | nativeDone
  | sleep
  | awaitNative
  /-- Making sure the native process has ended. -/
  | reapNative
  /-- The exit status and the output of the native process. -/
  | nativeResult
  | startSend (s : SendArgs)
  | joinSend (thread : Nat)
  | lookup (host : Str)
  | connect (host address : Str)
  | transmit (p : ProviderRequest)
  | disconnect
  deriving DecidableEq

/-- An address of a host, and whether it is public. -/
structure Address where
  text : Str
  isGlobal : Bool

abbrev Op.Answer : Op → Type
  | now => Int
  | resolve => Unit
  | folderExists => Bool
  | folderIsDir => Bool
  | mkdirParent => Unit
  | mkdir => Unit
  | openLock => Unit
  | flock => Unit
  | closeLock => Unit
  | makeTemporary => Unit
  | writeTemporary _ => Unit
  | replace .. => Unit
  | syncFolder => Unit
  | dropTemporary => Unit
  | read .. => Bytes
  | fileExists _ => Bool
  | supplyToken => Option Str
  | http _ => ApiResponse
  | outside q => q.Answer
  | startNative _ => Unit
  | communicate _ => Unit
  | patience => Nat
  | nativeDone => Bool
  | sleep => Unit
  | awaitNative => Unit
  | reapNative => Unit
  | nativeResult => Int × Bytes
  | startSend _ => Nat
  | joinSend _ => Json
  | lookup _ => List Address
  | connect .. => Unit
  | transmit _ => ProviderResponse
  | disconnect => Unit

/-- What can go wrong with an operation. -/
abbrev Fault := { x : Exc // x.isRecovery = false }

theorem os_not_recovery : Exc.os.isRecovery = false := rfl

theorem fileNotFound_not_recovery : Exc.fileNotFound.isRecovery = false := rfl

/-- Programs over the operations. -/
abbrev Call (A : Type) := Prog Op Op.Answer Fault Exc A

/-- Perform an operation. -/
def ask (o : Op) : Call o.Answer := Prog.perform Subtype.val o

/-- A computed result. -/
def computed {A : Type} (r : Except Exc A) : Call A := Prog.ofExcept r

def raise {A : Type} (x : Exc) : Call A := Prog.raise x

end Allowly

import Allowly.Core.Execution
import Allowly.Core.Policies
import Allowly.Core.Receipts

/-!
# Evidence Packages

`complete_execution_evidence`, which puts the approval of an operation and the receipt of its
decision into one file. It takes no lock: it reads the journal and the approval while calls
on the operation may be running, and writes a file that none of them knows.

The receipt is in the journal, or is polled for. The rounds of the polling are one answer of
the surroundings, and a call whose polling has not ended was cancelled.

## Main definitions

* `EvidenceLibs`: `verify_receipt`.
* `EvidenceOp`, `EvidenceCall`: The operations of the call besides those of the others.
* `receiptBinds`, `evidencePackage`: What is checked, and what is written.
* `completeExecutionEvidence`: The call.
-/

namespace Allowly

open Py Prog

/-- Outside code, with public keys of a type of its own. -/
structure EvidenceLibs (K : Type) extends Libs where
  /-- `verify_receipt`: the claims of the receipt. -/
  verifyReceipt : Json → List K → Str → Except Exc Json

/-- What the other calls do not do. -/
inductive EvidenceOp where
  /-- Polling for a receipt. -/
  | fetch (receiptId : Str)
  /-- `os.replace` onto `evidence-package.json`. -/
  | replacePackage (data : Bytes)
  deriving DecidableEq

/-- Polling, as far as it went. -/
structure PollRun where
  start : ℚ
  rounds : Nat → PollRound
  count : Nat

abbrev EvidenceOp.Answer : EvidenceOp → Type
  | fetch _ => PollRun
  | replacePackage _ => Unit

abbrev EvidenceCall (A : Type) :=
  Prog (Op ⊕ EvidenceOp) (Sum.elim Op.Answer EvidenceOp.Answer) Fault Exc A

/-- A call, or a part of one, as it is for the others. -/
def within {A : Type} (p : Call A) : EvidenceCall A := embed id p

def besides (o : EvidenceOp) : EvidenceCall o.Answer := Prog.perform Subtype.val (Sum.inr o)

/-- The receipt of the decision, which the journal has as it was answered. -/
def savedEnvelope (state : Json) : Except Exc Json := do
  let authorization ← subscript state "authorization"
  subscript authorization "decision_receipt"

/-- `receipts.fetch_signed`, with the defaults of its parameters. -/
def fetchReceipt (L : Libs) (receiptId : Str) : EvidenceCall Json := do
  let run ← besides (.fetch receiptId)
  match (fetchSigned L receiptId 1 120 run.start run.rounds run.count).2 with
  | some result => ofExcept result
  | none => Prog.raise .cancelled

/-- The signed receipt. -/
def obtainReceipt (L : Libs) (envelope : Json) : EvidenceCall Json := do
  let status ← ofExcept (subscript envelope "status")
  if status = .str (lit "signed") then ofExcept (subscript envelope "receipt")
  else
    let receiptId ← ofExcept (subscript envelope "receipt_id")
    let receiptId ← ofExcept (textOf receiptId)
    fetchReceipt L receiptId

/-- `value.get(key, default)`. -/
def getAttrOr (value : Json) (key : String) (default : Json) : Except Exc Json :=
  if value.isObj then .ok (getOr value key default) else .error .attribute

/-- Does the receipt bind this approval, and the approval its digest? -/
def receiptBinds (L : Libs) (binding approval claims : Json) (expectedWorkspaceId : Str) :
    Except Exc Bool := do
  let digest ← sealSha L approval
  let named ← subscript binding "approval_sha256"
  if named ≠ .str digest then return false
  else
    let workspace ← getAttr approval "workspace_id"
    if workspace ≠ .str expectedWorkspaceId then return false
    else
      let context ← getAttrOr claims "context" (.obj [])
      let execution ← getAttrOr context "execution" (.obj [])
      let receipted ← getAttr execution "approval_sha256"
      return receipted = named && claims.get "decision" = .str (lit "allow")
        && pyEq (claims.get "action") (approval.get "action")
        && pyEq (claims.get "authorization_id") (approval.get "authorization_id")

/-- The package. What the file of the approval holds besides goes with it. -/
def evidencePackage (binding approval receipt : Json) : Except Exc Json := do
  let mode ← subscript approval "evidence_mode"
  let witnessed : Bool := mode = .str (lit "witnessed")
  let bound := binding.members.foldl (fun ms m => Json.insert m.1 m.2 ms)
    [(lit "profile", .str (lit "allowly.execution.customer_bundle.v1"))]
  return (Json.obj bound).update [("decision_receipt", receipt),
    ("decision_receipt_verified", .bool true),
    ("tls_presentation", if witnessed then .str (lit "witness/presentation.json") else .null),
    ("tls_verification", .str (lit
      (if witnessed then "separate_native_verification_required" else "not_requested")))]

/-- The package of a receipt that was verified. -/
def linkedPackage (L : Libs) (binding claims receipt : Json) (expectedWorkspaceId : Str) :
    Except Exc Json := do
  let approval ← subscript binding "approval"
  let binds ← receiptBinds L binding approval claims expectedWorkspaceId
  if binds = false then
    protocolError "signed decision receipt does not bind this approval" none
  else evidencePackage binding approval receipt

/-- `_save` of the package. -/
def savePackage (package : Json) : EvidenceCall Unit := do
  within (ask .makeTemporary)
  Prog.always
    (do
      let data ← ofExcept (jsonBytes package)
      within (ask (.writeTemporary data))
      besides (.replacePackage data)
      within (ask .syncFolder))
    (within (ask .dropTemporary))

variable {K : Type}

/-- `complete_execution_evidence`. -/
def completeExecutionEvidence (L : EvidenceLibs K) (publicKeys : List K)
    (expectedWorkspaceId : Str) : EvidenceCall Json := do
  within (ask .resolve)
  let state ← within (readJson .journal readLimit)
  let binding ← within (readJson .approval readLimit)
  let envelope ← ofExcept (savedEnvelope state)
  let receipt ← obtainReceipt L.toLibs envelope
  let claims ← ofExcept (L.verifyReceipt receipt publicKeys expectedWorkspaceId)
  let package ← ofExcept (linkedPackage L.toLibs binding claims receipt expectedWorkspaceId)
  savePackage package
  return package

end Allowly

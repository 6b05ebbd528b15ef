import Allowly.Core.Resources
import Allowly.Core.SealWebhook
import Allowly.Theory.Contract
import Allowly.Theory.Deadline

/-!
# What a Reply Is About

A method that names something the runtime has gets a reply about something, and it is for
the method to compare the two. Most methods do. The settlement of a budget, the revocation
of an authorization, the resolution of an escalation and the reading of a receipt do not,
and return whatever the runtime has written about.

## Main definitions

* `Naming`: The methods, with what they were asked for.
* `Naming.ids`: The IDs that were asked for.
* `Naming.parsed`: The IDs a body is about, when the method's parser takes it.
* `Naming.reply`: The IDs of what the method returns.
* `Naming.compares`: Does the method compare them?
* `Bound`: A well-formed reply is returned under the IDs that were asked for, or refused.

## Theorems

* `continueExecution_reply` and its like: The methods end in these replies.
* `bound_iff`: The replies that are bound.
* `revoked_another`: A method that returns a reply about another authorization.
-/

namespace Allowly

open Py Prog

variable {L : PolicyLibs}

/-- A method that names something the runtime has. -/
inductive Naming where
  | getExecution (operationId : Str)
  | continueExecution (operationId : Str) (r : Requested)
  | reportOutcome (operationId : Str) (approvalSha256 : Json)
  | claimDispatch (operationId : Str) (approvalSha256 : Option Str)
  | acknowledgeReceipt (receiptId : Str)
  | getAcknowledgment (receiptId acknowledgmentId : Str)
  | settleBudget (checkReceiptId : Str)
  | revoke (authorizationId : Str)
  | confirmationGetStatus (confirmationId : Str)
  | escalationGetStatus (escalationId : Str)
  | resolve (escalationId : Str)
  | receiptsGet (receiptId : Str)
  | fetchSigned (receiptId : Str)
  | policyGet (policyId : Str)
  | observeGet (eventId : Str)
  | getDelivery (attemptId : Str)
  | getReceipt (receiptId : Str)

namespace Naming

/-- The IDs that were asked for. -/
def ids : Naming → List Json
  | getExecution operationId => [.str operationId]
  | continueExecution operationId _ => [.str operationId]
  | reportOutcome operationId _ => [.str operationId]
  | claimDispatch operationId _ => [.str operationId]
  | acknowledgeReceipt receiptId => [.str receiptId]
  | getAcknowledgment receiptId acknowledgmentId => [.str receiptId, .str acknowledgmentId]
  | settleBudget checkReceiptId => [.str checkReceiptId]
  | revoke authorizationId => [.str authorizationId]
  | confirmationGetStatus confirmationId => [.str confirmationId]
  | escalationGetStatus escalationId => [.str escalationId]
  | resolve escalationId => [.str escalationId]
  | receiptsGet receiptId => [.str receiptId]
  | fetchSigned receiptId => [.str receiptId]
  | policyGet policyId => [.str policyId]
  | observeGet eventId => [.str eventId]
  | getDelivery attemptId => [.str attemptId]
  | getReceipt receiptId => [.str receiptId]

/-- Does the method compare the IDs of the reply with them? -/
def compares : Naming → Bool
  | settleBudget _ => false
  | revoke _ => false
  | resolve _ => false
  | receiptsGet _ => false
  | _ => true

end Naming

/-- The ID of a receipt that was signed, as the claims have it. -/
def signedId (L : Libs) (receipt : Json) : Except Exc Json :=
  match L.decodeReceipt receipt with
  | .error text => .error (.verification text)
  | .ok claims => if claims.has "receipt_id" = false then .error .key else .ok (claims.get "receipt_id")

/-- What `fetch_signed` makes of an envelope: nothing yet, as long as it is pending. -/
def fetchReply (L : Libs) (receiptId : Str) : ReceiptEnvelope → Except Exc (Option Json)
  | .pending .. => .ok none
  | .signed receipt => (signedReceipt L receiptId receipt).map some

/-- `get_delivery`, from the body on. -/
def deliveryReply (L : Libs) (attemptId : Str) (raw : Json) : Except Exc SealWebhookDelivery := do
  let delivery ← parseDelivery L raw
  if delivery.attemptId ≠ attemptId then
    protocolError "SEAL webhook response attempt_id does not match the request" none
  else return delivery

/-- `get_receipt`, from the body on. -/
def receiptReply (L : Libs) (receiptId : Str) (raw : Json) : Except Exc SealWebhookDelivery := do
  let delivery ← parseDelivery L raw
  if delivery.receiptId ≠ some receiptId then
    protocolError "SEAL webhook response receipt_id does not match the request" none
  else return delivery

namespace Naming

/-- The IDs a body is about, when the parser of the method takes it. Nothing is said yet by
    the envelope of a receipt that `fetch_signed` has to ask for again. -/
def parsed (L : PolicyLibs) (raw : Json) : Naming → Except Exc (Option (List Json))
  | getExecution _ => (parseExecutionResponse L.toLibs raw).map fun r => some [.str r.operationId]
  | continueExecution _ _ =>
    (parseExecutionResponse L.toLibs raw).map fun r => some [.str r.operationId]
  | reportOutcome _ _ => (parseExecutionResponse L.toLibs raw).map fun r => some [.str r.operationId]
  | claimDispatch _ _ => .ok (some [raw.get "operation_id"])
  | acknowledgeReceipt _ => (parseAcknowledgment L.toLibs raw).map fun r => some [.str r.receiptId]
  | getAcknowledgment _ _ => (parseAcknowledgment L.toLibs raw).map fun r =>
    some [.str r.receiptId, .str r.acknowledgmentId]
  | settleBudget _ => (parseSettlement L.toLibs raw).map fun r => some [.str r.checkReceiptId]
  | revoke _ => (revokeReply raw).map fun r => some [.str r.authorizationId]
  | confirmationGetStatus _ => .ok (some [raw.get "confirmation_id"])
  | escalationGetStatus _ => .ok (some [raw.get "escalation_id"])
  | resolve _ => (resolveReply raw).map fun r => some [r.escalationId]
  | receiptsGet _ => (parseReceiptEnvelope L.toLibs raw).map fun e => some [e.receiptId L.toLibs]
  | fetchSigned _ => do
    let envelope ← parseReceiptEnvelope L.toLibs raw
    match envelope with
    | .pending .. => return none
    | .signed receipt => (signedId L.toLibs receipt).map fun id => some [id]
  | policyGet _ => (parsePolicy L raw).map fun r => some [.str r.policyRef.policyId]
  | observeGet _ => (document L raw "Observe status" (16 * 1024)).map fun v =>
    some [v.get "event_id"]
  | getDelivery _ => (parseDelivery L.toLibs raw).map fun d => some [.str d.attemptId]
  | getReceipt _ => (parseDelivery L.toLibs raw).map fun d => some [optionText d.receiptId]

/-- The IDs of what the method returns for a body. -/
def reply (L : PolicyLibs) (raw : Json) : Naming → Except Exc (Option (List Json))
  | getExecution operationId =>
    (executionReply L.toLibs operationId raw).map fun r => some [.str r.operationId]
  | continueExecution operationId r =>
    (continuationReply L.toLibs operationId r raw).map fun r => some [.str r.operationId]
  | reportOutcome operationId approvalSha256 =>
    (outcomeReply L.toLibs operationId approvalSha256 raw).map fun r => some [.str r.operationId]
  | claimDispatch operationId approvalSha256 =>
    (claimReply operationId approvalSha256 raw).map fun j => some [j.get "operation_id"]
  | acknowledgeReceipt receiptId =>
    (acknowledgeReply L.toLibs receiptId raw).map fun r => some [.str r.receiptId]
  | getAcknowledgment receiptId acknowledgmentId =>
    (acknowledgmentReply L.toLibs receiptId acknowledgmentId raw).map fun r =>
      some [.str r.receiptId, .str r.acknowledgmentId]
  | settleBudget _ => (parseSettlement L.toLibs raw).map fun r => some [.str r.checkReceiptId]
  | revoke _ => (revokeReply raw).map fun r => some [.str r.authorizationId]
  | confirmationGetStatus confirmationId =>
    (parseConfirmationStatus L.toLibs confirmationId raw).map fun s => some [.str s.confirmationId]
  | escalationGetStatus escalationId =>
    (parseEscalationStatus L.toLibs escalationId raw).map fun s => some [.str s.escalationId]
  | resolve _ => (resolveReply raw).map fun r => some [r.escalationId]
  | receiptsGet _ => (parseReceiptEnvelope L.toLibs raw).map fun e => some [e.receiptId L.toLibs]
  | fetchSigned receiptId => do
    let envelope ← parseReceiptEnvelope L.toLibs raw
    let receipt ← fetchReply L.toLibs receiptId envelope
    match receipt with
    | none => return none
    | some receipt => (signedId L.toLibs receipt).map fun id => some [id]
  | policyGet policyId => (policyReply L policyId raw).map fun r => some [.str r.policyRef.policyId]
  | observeGet eventId => (parseObserveStatus L eventId raw).map fun s => some [.str s.eventId]
  | getDelivery attemptId =>
    (deliveryReply L.toLibs attemptId raw).map fun d => some [.str d.attemptId]
  | getReceipt receiptId =>
    (receiptReply L.toLibs receiptId raw).map fun d => some [optionText d.receiptId]

/-- The ID that stands in a body, for the methods that do not compare it. -/
def names (L : PolicyLibs) (raw : Json) : Naming → Json
  | settleBudget _ => raw.get "check_receipt_id"
  | revoke _ => raw.get "authorization_id"
  | resolve _ => raw.get "escalation_id"
  | receiptsGet _ =>
    if raw.get "status" = .str (lit "pending") then raw.get "receipt_id"
    else (ReceiptEnvelope.signed (raw.get "receipt")).receiptId L.toLibs
  | _ => .null

end Naming

/-- What is returned has the IDs that were asked for, and a reply about something else is
    refused with `AllowlyProtocolError`. -/
def Bound (L : PolicyLibs) (m : Naming) (raw : Json) : Prop :=
  (∀ ids, m.reply L raw = .ok (some ids) → ids = m.ids) ∧
    ∀ named, m.parsed L raw = .ok (some named) → named ≠ m.ids →
      ∃ text shown, m.reply L raw = .error (.protocol text shown)

/-! ### The methods end in their replies -/

theorem computed_bind {A B : Type} (r : Except Exc A) (f : A → Except Exc B) :
    computed (r >>= f) = computed r >>= fun a => computed (f a) := by
  cases r <;> rfl

theorem computed_guard {A : Type} {c : Prop} [Decidable c] (a : A) (x : Exc) :
    (if c then (pure a : Call A) else raise x) = computed (if c then .ok a else .error x) := by
  split <;> rfl

/-- `continue_execution` ends in its reply. -/
theorem continueExecution_reply {L : Libs} (c : Client) (operationId : Str) (r : Requested)
    (i : Intent) (t : Option Str) : continueExecution L c operationId r i t =
      if r.operationId ≠ operationId ∨ i.reviewId = [] ∨ i.sourceReceiptId = []
          ∨ i.idempotencyKey = [] then
        raise (.value "continuation requires the original operation and review binding")
      else (do
        let timestamp ← computed (clientTimestamp L (r.clientTimestamp.getD []))
        let request := Requested.toJson { r with clientTimestamp := some timestamp }
        let raw ← callRoute L c (.continuation operationId)
          (some (.ofList [("execution_request", request), ("review_id", .str i.reviewId),
            ("source_receipt_id", .str i.sourceReceiptId)]))
          t (some i.idempotencyKey) [200, 201]
        computed (continuationReply L operationId r raw)) := by
  simp only [continueExecution, continuationReply, computed_bind, computed_guard]
  rfl

/-- `claim_execution_dispatch` ends in its reply. -/
theorem claimExecutionDispatch_reply {L : Libs} (c : Client) (operationId : Str)
    (digest t : Option Str) : claimExecutionDispatch L c operationId digest t = (do
      let raw ← callRoute L c (.dispatch operationId) (some (approvalBody digest)) t none [200]
      computed (claimReply operationId digest raw)) := by
  simp only [claimExecutionDispatch, computed_guard]
  rfl

/-- `report_execution_outcome` ends in its reply, for an outcome that is an object. -/
theorem reportExecutionOutcome_reply {L : Libs} (c : Client) (operationId : Str) {outcome : Json}
    (k t : Option Str) (ho : outcome.isObj = true) :
    reportExecutionOutcome L c operationId outcome k t = (do
      let raw ← callRoute L c (.outcome operationId) (some outcome) t k [200, 201]
      computed (outcomeReply L operationId (outcome.get "approval_sha256") raw)) := by
  simp only [reportExecutionOutcome, ho, outcomeReply, computed_bind, reduceCtorEq, and_false,
    if_false, computed_guard]
  rfl

theorem ofExc_bind {A B : Type} (r : Except Exc A) (f : A → Except Exc B) :
    ofExc (r >>= f) = ofExc r >>= fun a => ofExc (f a) := by
  cases r <;> rfl

theorem ofExc_guard {A : Type} {c : Prop} [Decidable c] (a : A) (text : String) :
    (if c then ofExc (protocolError text none) else pure a : Except SealExc A) =
      ofExc (if c then protocolError text none else .ok a) := by
  split <;> rfl

/-- `get_delivery` ends in its reply. -/
theorem getDelivery_reply {L : Libs} (repr : Json → Str) (w : SealWebhookClient) (http : SealHttp)
    (attemptId : Str) : w.getDelivery L repr http attemptId = (do
      let path ← SealWebhookClient.sealPath "/v1/seal/webhooks/deliveries/" attemptId
      let raw ← w.read L repr http path
      ofExc (deliveryReply L attemptId raw)) := by
  simp only [SealWebhookClient.getDelivery, deliveryReply, ofExc_bind, ofExc_guard]
  rfl

/-- `get_receipt` ends in its reply. -/
theorem getReceipt_reply {L : Libs} (repr : Json → Str) (w : SealWebhookClient) (http : SealHttp)
    (receiptId : Str) : w.getReceipt L repr http receiptId = (do
      let path ← SealWebhookClient.sealPath "/v1/seal/webhooks/receipts/" receiptId
      let raw ← w.read L repr http path
      ofExc (receiptReply L receiptId raw)) := by
  simp only [SealWebhookClient.getReceipt, receiptReply, ofExc_bind, ofExc_guard]
  rfl

/-- What `fetch_signed` returns is its reply to one of the envelopes. -/
theorem fetchSigned_reply {L : Libs} {receiptId : Str} {interval timeout : WithTop ℚ} {start : ℚ}
    {rounds : Nat → PollRound} {n : Nat} {receipt : Json}
    (h : (fetchSigned L receiptId interval timeout start rounds n).2 = some (.ok receipt)) :
    ∃ k envelope, (rounds k).outcome = .ok envelope ∧
      fetchReply L receiptId envelope = .ok (some receipt) := by
  by_cases hi : interval ≤ 0
  · rw [fetchSigned, if_pos hi] at h
    cases h
  by_cases ht : timeout ≤ 0
  · rw [fetchSigned, if_neg hi, if_pos ht] at h
    cases h
  rcases (fetch_eq_some (not_le.mp hi) (not_le.mp ht)).mp h with hstop | ⟨_, hr⟩
  · rcases decided_of_run hstop with ⟨k, _, _, _, hverdict⟩
    cases houtcome : (rounds k).outcome with
    | error x =>
        rw [houtcome, verdictOf] at hverdict
        cases hverdict
    | ok envelope =>
        rw [houtcome] at hverdict
        cases envelope with
        | pending id readyAt url => cases hverdict
        | signed signed =>
            refine ⟨k, .signed signed, houtcome, ?_⟩
            rw [fetchReply, ← verdictOf, ← hverdict]
            rfl
  · cases hr

/-! ### What is bound -/

section

variable {m : Naming} {raw : Json} {A : Type}

/-- A method that compares what it has parsed. -/
theorem bound_guard {p : Except Exc A} {check : A → Except Exc A} {f : A → List Json}
    (hparsed : m.parsed L raw = p.map fun a => some (f a))
    (hreply : m.reply L raw = (p >>= check).map fun a => some (f a))
    (hstrict : ∀ a, Strict (check a)) (hok : ∀ a b, check a = .ok b → b = a ∧ f a = m.ids) :
    Bound L m raw := by
  rw [Bound, hparsed, hreply]
  cases p with
  | error x =>
      refine ⟨?_, ?_⟩
      · intro ids h
        cases h
      · intro named h
        cases h
  | ok a =>
      change (∀ ids, (check a).map _ = .ok (some ids) → ids = m.ids) ∧
        ∀ named, _ → named ≠ m.ids → ∃ text shown, (check a).map _ = .error (.protocol text shown)
      cases hcheck : check a with
      | error x =>
          rcases hstrict a x hcheck with ⟨text, shown, rfl⟩
          refine ⟨?_, fun _ _ _ => ⟨text, shown, rfl⟩⟩
          intro ids h
          cases h
      | ok b =>
          rcases hok a b hcheck with ⟨rfl, hids⟩
          refine ⟨?_, ?_⟩
          · intro ids h
            cases h
            exact hids
          · intro named h hne
            cases h
            exact absurd hids hne

/-- The comparison refuses what differs. -/
theorem bound_unless {p : Except Exc A} {bad : A → Prop} [DecidablePred bad] {t : String}
    {f : A → List Json} (hparsed : m.parsed L raw = p.map fun a => some (f a))
    (hreply : m.reply L raw =
      (p >>= fun a => if bad a then protocolError t none else pure a).map fun a => some (f a))
    (hids : ∀ a, ¬ bad a → f a = m.ids) : Bound L m raw := by
  refine bound_guard hparsed hreply (fun _ => strict_check fun _ => strict_ok _) ?_
  intro a b h
  rcases of_ite_error h with ⟨hgood, h⟩
  cases h
  exact ⟨rfl, hids a hgood⟩

/-- The comparison keeps what agrees. -/
theorem bound_when {p : Except Exc A} {good : A → Prop} [DecidablePred good] {t : String}
    {f : A → List Json} (hparsed : m.parsed L raw = p.map fun a => some (f a))
    (hreply : m.reply L raw =
      (p >>= fun a => if good a then pure a else protocolError t none).map fun a => some (f a))
    (hids : ∀ a, good a → f a = m.ids) : Bound L m raw := by
  refine bound_guard hparsed hreply
    (fun _ => strict_ite (fun _ => strict_ok _) fun _ => strict_protocolError _ _) ?_
  intro a b h
  split at h
  · next hgood =>
      cases h
      exact ⟨rfl, hids a hgood⟩
  · cases h

/-- A method whose parser is given the ID. -/
theorem bound_strict {p : Except Exc A} {f : A → List Json}
    (hreply : m.reply L raw = p.map fun a => some (f a)) (hstrict : Strict p)
    (hok : ∀ a, p = .ok a → f a = m.ids ∧ ∀ named, m.parsed L raw = .ok (some named) →
      named = m.ids) : Bound L m raw := by
  rw [Bound, hreply]
  cases hp : p with
  | error x =>
      rcases hstrict x hp with ⟨text, shown, rfl⟩
      refine ⟨?_, fun _ _ _ => ⟨text, shown, rfl⟩⟩
      intro ids h
      cases h
  | ok a =>
      rcases hok a hp with ⟨hids, hnamed⟩
      refine ⟨?_, ?_⟩
      · intro ids h
        cases h
        exact hids
      · intro named h hne
        exact absurd (hnamed named h) hne

/-- A method that returns what it has parsed. -/
theorem bound_unguarded (hsame : m.reply L raw = m.parsed L raw)
    (hnames : ∀ named, m.parsed L raw = .ok (some named) → named = [m.names L raw]) :
    Bound L m raw ↔ ∀ named, m.parsed L raw = .ok (some named) → [m.names L raw] = m.ids := by
  rw [Bound, hsame]
  refine ⟨?_, ?_⟩
  · intro h named hp
    rw [← hnames named hp]
    exact h.1 named hp
  · intro h
    refine ⟨?_, ?_⟩
    · intro ids hp
      rw [hnames ids hp]
      exact h ids hp
    · intro named hp hne
      exact absurd ((hnames named hp).trans (h named hp)) hne

end

theorem map_eq_some {A : Type} {p : Except Exc A} {f : A → List Json} {named : List Json}
    (h : (p.map fun a => some (f a)) = .ok (some named)) : ∃ a, p = .ok a ∧ f a = named := by
  cases p with
  | error x => cases h
  | ok a =>
      cases h
      exact ⟨a, rfl, rfl⟩

theorem settlement_names {L : Libs} {raw : Json} {r : BudgetSettlement}
    (h : parseSettlement L raw = .ok r) : raw.get "check_receipt_id" = .str r.checkReceiptId := by
  rcases bind_eq_ok.mp h with ⟨body, hbody, h⟩
  rcases bind_eq_ok.mp h with ⟨id, hid, h⟩
  rcases bind_eq_ok.mp h with ⟨_, _, h⟩
  rcases bind_eq_ok.mp h with ⟨_, _, h⟩
  rcases bind_eq_ok.mp h with ⟨_, _, h⟩
  rcases bind_eq_ok.mp h with ⟨_, _, h⟩
  rcases bind_eq_ok.mp h with ⟨_, _, h⟩
  rcases bind_eq_ok.mp h with ⟨_, _, h⟩
  rcases bind_eq_ok.mp h with ⟨_, _, h⟩
  cases h
  rw [← (requireDict_eq_ok.mp hbody).2]
  exact requireStr_eq_ok.mp hid

theorem revocation_names {raw : Json} {r : AuthorizationRevocation} (h : revokeReply raw = .ok r) :
    raw.get "authorization_id" = .str r.authorizationId := by
  rcases of_ite_error h with ⟨_, h⟩
  rcases bind_eq_ok.mp h with ⟨id, hid, h⟩
  rcases bind_eq_ok.mp h with ⟨_, _, h⟩
  rcases bind_eq_ok.mp h with ⟨_, _, h⟩
  rcases bind_eq_ok.mp h with ⟨_, _, h⟩
  cases h
  exact requireStr_eq_ok.mp hid

theorem resolution_names {raw : Json} {r : EscalationResolution} (h : resolveReply raw = .ok r) :
    raw.get "escalation_id" = r.escalationId := by
  rcases of_ite_error h with ⟨_, h⟩
  rcases bind_eq_ok.mp h with ⟨status, _, h⟩
  rcases of_ite_error h with ⟨_, h⟩
  rcases of_ite_error h with ⟨_, h⟩
  rcases bind_eq_ok.mp h with ⟨_, _, h⟩
  cases h
  rfl

theorem envelope_names {raw : Json} {e : ReceiptEnvelope}
    (h : parseReceiptEnvelope L.toLibs raw = .ok e) (id : Str) :
    (Naming.receiptsGet id).names L raw = e.receiptId L.toLibs := by
  rcases bind_eq_ok.mp h with ⟨body, hbody, h⟩
  rw [(requireDict_eq_ok.mp hbody).2] at h
  rw [Naming.names]
  split at h
  · next hpending =>
      rw [if_pos hpending]
      rcases bind_eq_ok.mp h with ⟨body', hbody', h⟩
      rcases of_ite_error h with ⟨_, h⟩
      rcases bind_eq_ok.mp h with ⟨receiptId, hid, h⟩
      rcases bind_eq_ok.mp h with ⟨_, _, h⟩
      rcases bind_eq_ok.mp h with ⟨_, _, h⟩
      cases h
      rw [(requireDict_eq_ok.mp hbody').2, requireStr_eq_ok] at hid
      exact hid
  · next hpending =>
      rw [if_neg hpending]
      split at h
      · rcases bind_eq_ok.mp h with ⟨receipt, hreceipt, h⟩
        rw [(requireDict_eq_ok.mp hreceipt).2] at h
        split at h
        · cases h
          rfl
        · cases h
      · cases h

theorem confirmation_names {L : Libs} {id : Str} {raw : Json} {s : ConfirmationStatus}
    (h : parseConfirmationStatus L id raw = .ok s) :
    s.confirmationId = id ∧ raw.get "confirmation_id" = .str id := by
  rcases bind_eq_ok.mp h with ⟨body, hbody, h⟩
  rcases bind_eq_ok.mp h with ⟨confirmationId, hid, h⟩
  rcases of_ite_error h with ⟨hsame, h⟩
  rcases bind_eq_ok.mp h with ⟨_, _, h⟩
  rcases bind_eq_ok.mp h with ⟨_, _, h⟩
  rcases bind_eq_ok.mp h with ⟨_, _, h⟩
  rcases bind_eq_ok.mp h with ⟨_, _, h⟩
  rcases bind_eq_ok.mp h with ⟨_, _, h⟩
  rcases of_ite_error h with ⟨_, h⟩
  rcases of_ite_error h with ⟨_, h⟩
  cases h
  rw [ne_eq, not_not] at hsame
  rw [(requireDict_eq_ok.mp hbody).2, requireStr_eq_ok, hsame] at hid
  exact ⟨hsame, hid⟩

theorem escalation_names {L : Libs} {id : Str} {raw : Json} {s : EscalationStatus}
    (h : parseEscalationStatus L id raw = .ok s) :
    s.escalationId = id ∧ raw.get "escalation_id" = .str id := by
  rcases bind_eq_ok.mp h with ⟨body, hbody, h⟩
  rcases bind_eq_ok.mp h with ⟨escalationId, hid, h⟩
  rcases of_ite_error h with ⟨hsame, h⟩
  rcases bind_eq_ok.mp h with ⟨_, _, h⟩
  rcases bind_eq_ok.mp h with ⟨_, _, h⟩
  rcases bind_eq_ok.mp h with ⟨_, _, h⟩
  rcases of_ite_error h with ⟨_, h⟩
  rcases of_ite_error h with ⟨_, h⟩
  rcases bind_eq_ok.mp h with ⟨_, _, h⟩
  cases h
  rw [ne_eq, not_not] at hsame
  rw [(requireDict_eq_ok.mp hbody).2, requireStr_eq_ok, hsame] at hid
  exact ⟨hsame, hid⟩

/-- A text that was taken for an event is the value itself. -/
theorem eventIdOf_eq {v : Json} {id : Str} (h : eventIdOf v = .ok id) : v = .str id := by
  unfold eventIdOf at h
  simp only at h
  split at h
  · split at h
    · cases h
      rfl
    · cases h
  · cases h

theorem observed_names {id : Str} {raw : Json} {s : ObserveEventStatus}
    (h : parseObserveStatus L id raw = .ok s) : s.eventId = id ∧
      ∀ v, document L raw "Observe status" (16 * 1024) = .ok v → v.get "event_id" = .str id := by
  rcases bind_eq_ok.mp h with ⟨doc, hdoc, h⟩
  rcases bind_eq_ok.mp h with ⟨body, hbody, h⟩
  rcases bind_eq_ok.mp h with ⟨eventId, hid, h⟩
  iterate 13 rcases bind_eq_ok.mp h with ⟨_, _, h⟩
  rcases of_ite_error h with ⟨hsame, h⟩
  cases h
  rw [ne_eq, not_not] at hsame
  refine ⟨hsame, ?_⟩
  intro v hv
  rw [hdoc] at hv
  cases hv
  have hkeys : body = doc := by
    unfold keysOf at hbody
    split at hbody
    · cases hbody
      rfl
    · cases hbody
  rw [hkeys] at hid
  rw [eventIdOf_eq hid, hsame]

theorem answersRequest_operationId {r : Requested} {result : ExecutionResponse}
    (h : answersRequest r result = true) : result.operationId = r.operationId := by
  simp only [answersRequest, Bool.and_eq_true, decide_eq_true_eq] at h
  exact h.1.1.1

/-- The comparison of a signed receipt. -/
def compareId (receiptId : Str) (id : Json) : Except Exc Json :=
  if id ≠ .str receiptId then
    protocolError "signed receipt_id does not match the requested receipt" none
  else pure id

theorem signedReceipt_eq {L : Libs} (receiptId : Str) (receipt : Json) :
    signedReceipt L receiptId receipt =
      (signedId L receipt >>= compareId receiptId).map fun _ => receipt := by
  unfold signedReceipt signedId
  cases L.decodeReceipt receipt with
  | error text => rfl
  | ok claims =>
      simp only
      by_cases hhas : claims.has "receipt_id" = false
      · rw [if_pos hhas, if_pos hhas]
        rfl
      · rw [if_neg hhas, if_neg hhas]
        change _ = (compareId receiptId (claims.get "receipt_id")).map _
        rw [compareId]
        split
        · rfl
        · rfl

theorem signed_compared {L : Libs} (receiptId : Str) (receipt : Json) :
    ((fetchReply L receiptId (.signed receipt)).bind fun r => match r with
      | none => .ok none
      | some receipt => (signedId L receipt).map fun id => some [id]) =
    (signedId L receipt >>= compareId receiptId).map fun id => some [id] := by
  rw [fetchReply, signedReceipt_eq]
  cases hid : signedId L receipt with
  | error x => rfl
  | ok id =>
      change (Except.map some ((compareId receiptId id).map _)).bind _ = (compareId receiptId id).map _
      rw [compareId]
      split
      · rfl
      · change (signedId L receipt).map _ = _
        rw [hid]
        rfl

/-- A receipt that is signed is compared by what its claims say. -/
theorem bound_fetchSigned (receiptId : Str) (raw : Json) : Bound L (.fetchSigned receiptId) raw := by
  cases hp : parseReceiptEnvelope L.toLibs raw with
  | error x =>
      rw [Bound, Naming.reply, Naming.parsed, hp]
      refine ⟨?_, ?_⟩
      · intro ids h
        cases h
      · intro named h
        cases h
  | ok envelope =>
      cases envelope with
      | pending id readyAt url =>
          rw [Bound, Naming.reply, Naming.parsed, hp]
          refine ⟨?_, ?_⟩
          · intro ids h
            cases h
          · intro named h
            cases h
      | signed receipt =>
          have hparsed : (Naming.fetchSigned receiptId).parsed L raw =
              (signedId L.toLibs receipt).map fun id => some [id] := by
            rw [Naming.parsed, hp]
            rfl
          have hreply : (Naming.fetchSigned receiptId).reply L raw =
              (signedId L.toLibs receipt >>= compareId receiptId).map fun id => some [id] := by
            rw [Naming.reply, hp]
            exact signed_compared receiptId receipt
          refine bound_unless hparsed hreply ?_
          intro id hid
          rw [ne_eq, not_not] at hid
          rw [hid]
          rfl

/-- The methods that compare what they were asked for with the reply. -/
theorem bound_of_compares {m : Naming} (raw : Json) (hm : m.compares = true) : Bound L m raw := by
  cases m with
  | getExecution operationId =>
      refine bound_unless rfl rfl ?_
      intro a hid
      rw [ne_eq, not_not] at hid
      rw [hid]
      rfl
  | continueExecution operationId r =>
      refine bound_when rfl rfl ?_
      intro a hanswers
      rw [answersRequest_operationId hanswers]
      rfl
  | reportOutcome operationId approvalSha256 =>
      refine bound_when rfl rfl ?_
      intro a hsame
      rw [hsame.1]
      rfl
  | claimDispatch operationId approvalSha256 =>
      rw [Bound, Naming.reply, claimReply]
      split
      · next hclaim =>
          refine ⟨?_, ?_⟩
          · intro ids h
            cases h
            rw [hclaim.2.1]
            rfl
          · intro named h hne
            cases h
            rw [hclaim.2.1] at hne
            exact absurd rfl hne
      · refine ⟨?_, fun _ _ _ => ⟨_, _, rfl⟩⟩
        intro ids h
        cases h
  | acknowledgeReceipt receiptId =>
      refine bound_unless rfl rfl ?_
      intro a hid
      rw [ne_eq, not_not] at hid
      rw [hid]
      rfl
  | getAcknowledgment receiptId acknowledgmentId =>
      refine bound_unless rfl rfl ?_
      intro a hid
      rw [not_or, ne_eq, not_not, ne_eq, not_not] at hid
      rw [hid.1, hid.2]
      rfl
  | confirmationGetStatus confirmationId =>
      refine bound_strict rfl (strict_parseConfirmationStatus _ _) ?_
      intro s hs
      rcases confirmation_names hs with ⟨hid, hraw⟩
      refine ⟨?_, ?_⟩
      · rw [hid]
        rfl
      · intro named hnamed
        cases hnamed
        rw [hraw]
        rfl
  | escalationGetStatus escalationId =>
      refine bound_strict rfl (strict_parseEscalationStatus _ _) ?_
      intro s hs
      rcases escalation_names hs with ⟨hid, hraw⟩
      refine ⟨?_, ?_⟩
      · rw [hid]
        rfl
      · intro named hnamed
        cases hnamed
        rw [hraw]
        rfl
  | fetchSigned receiptId => exact bound_fetchSigned receiptId raw
  | policyGet policyId =>
      refine bound_unless rfl rfl ?_
      intro a hid
      rw [ne_eq, not_not] at hid
      rw [hid]
      rfl
  | observeGet eventId =>
      refine bound_strict rfl (strict_parseObserveStatus _ _) ?_
      intro s hs
      rcases observed_names hs with ⟨hid, hdoc⟩
      refine ⟨?_, ?_⟩
      · rw [hid]
        rfl
      · intro named hnamed
        rcases map_eq_some hnamed with ⟨v, hv, rfl⟩
        rw [hdoc v hv]
        rfl
  | getDelivery attemptId =>
      refine bound_unless rfl rfl ?_
      intro a hid
      rw [ne_eq, not_not] at hid
      rw [hid]
      rfl
  | getReceipt receiptId =>
      refine bound_unless rfl rfl ?_
      intro a hid
      rw [ne_eq, not_not] at hid
      rw [hid]
      rfl
  | settleBudget => cases hm
  | revoke => cases hm
  | resolve => cases hm
  | receiptsGet => cases hm

/-- The other methods return what the parser has taken. -/
theorem bound_of_not_compares {m : Naming} (raw : Json) (hm : m.compares = false) : Bound L m raw ↔
    ∀ named, m.parsed L raw = .ok (some named) → [m.names L raw] = m.ids := by
  cases m with
  | settleBudget id =>
      refine bound_unguarded rfl ?_
      intro named h
      rcases map_eq_some h with ⟨r, hr, rfl⟩
      rw [← settlement_names hr]
      rfl
  | revoke id =>
      refine bound_unguarded rfl ?_
      intro named h
      rcases map_eq_some h with ⟨r, hr, rfl⟩
      rw [← revocation_names hr]
      rfl
  | resolve id =>
      refine bound_unguarded rfl ?_
      intro named h
      rcases map_eq_some h with ⟨r, hr, rfl⟩
      rw [← resolution_names hr]
      rfl
  | receiptsGet id =>
      refine bound_unguarded rfl ?_
      intro named h
      rcases map_eq_some h with ⟨e, he, rfl⟩
      rw [← envelope_names he id]
  | _ => cases hm

/-- A receipt that is still pending. -/
def pendingBody (receiptId : Str) : Json :=
  .ofList [("status", .str (lit "pending")), ("receipt_id", .str receiptId),
    ("ready_at_estimate", .str (lit "later")), ("url", .str (lit "/v1/receipts"))]

/-- A body about something else, for the methods that do not compare. -/
def Naming.stray : Naming → Json
  | settleBudget id => .ofList [("check_receipt_id", .str (120 :: id)),
      ("authorization_id", .str (lit "auth")), ("estimated_cost_micros", .int 1),
      ("actual_cost_micros", .int 1), ("delta_micros", .int 0), ("spent_before_micros", .int 0),
      ("spent_after_micros", .int 0), ("receipt", pendingBody (lit "rct"))]
  | revoke id => .ofList [("authorization_id", .str (120 :: id)), ("revoked_at", .str (lit "now")),
      ("receipt", pendingBody (lit "rct")), ("revoked_confirmations", .arr [])]
  | resolve id => .ofList [("status", .str (lit "approved")), ("escalation_id", .str (120 :: id))]
  | receiptsGet id => pendingBody (120 :: id)
  | _ => .null

/-- For each method that does not compare there is a reply about something else that it
    returns. -/
theorem not_bound_stray (L : PolicyLibs) {m : Naming} (hm : m.compares = false) :
    ¬ Bound L m m.stray := by
  intro h
  have hother : ∀ id : Str, [Json.str (120 :: id)] = [Json.str id] → False := by
    intro id hid
    rw [List.cons.injEq, Json.str.injEq] at hid
    have hlength := congrArg List.length hid.1
    rw [List.length_cons] at hlength
    omega
  cases m with
  | settleBudget id => exact hother id (h.1 _ rfl)
  | revoke id => exact hother id (h.1 _ rfl)
  | resolve id => exact hother id (h.1 _ rfl)
  | receiptsGet id => exact hother id (h.1 _ rfl)
  | _ => cases hm

end Allowly

import Allowly.Theory.Scenario
import Allowly.Theory.State

/-!
# What a Saved Response Says

A journal keeps a response as a dictionary, and a call that continues a review parses it
again. The parser, the dataclasses and the dictionaries are three texts that must agree, for
every response that the runtime could have sent.

`Sound` is what the parser has checked of a response, as a property of the response alone. It
is all that is needed to be parsed again, and so it is what the parser accepts.

## Main definitions

* `ReceiptEnvelope.Sound` and its like: What was checked of a part.
* `ExecutionResponse.Sound`: What was checked of a response.

## Theorems

* `sound_of_parse`: What was parsed is sound.
* `parse_toJson`: What is sound is parsed as it was.
* `parse_journalAuthorization`: But for the nonce, this is what a journal keeps.
-/

namespace Allowly

open Py

variable {L : Libs}

/-! ### The parts -/

/-- A signed receipt could be decoded. -/
def ReceiptEnvelope.Sound (L : Libs) : ReceiptEnvelope → Prop
  | pending .. => True
  | signed receipt => receipt.isObj = true ∧ ∃ claims, L.decodeReceipt receipt = .ok claims

theorem sound_envelope {raw : Json} {e : ReceiptEnvelope} (h : parseReceiptEnvelope L raw = .ok e) :
    e.Sound L := by
  rcases bind_eq_ok.mp h with ⟨body, _, h⟩
  split at h
  · rcases bind_eq_ok.mp h with ⟨_, _, h⟩
    rcases of_ite_error h with ⟨_, h⟩
    rcases bind_eq_ok.mp h with ⟨_, _, h⟩
    rcases bind_eq_ok.mp h with ⟨_, _, h⟩
    rcases bind_eq_ok.mp h with ⟨_, _, h⟩
    cases h
    exact trivial
  · split at h
    · rcases bind_eq_ok.mp h with ⟨receipt, hreceipt, h⟩
      rcases requireDict_eq_ok.mp hreceipt with ⟨hobj, rfl⟩
      split at h
      · next claims hclaims =>
          cases h
          exact ⟨hobj, claims, hclaims⟩
      · cases h
    · cases h

theorem parse_envelope {e : ReceiptEnvelope} (h : e.Sound L) :
    parseReceiptEnvelope L e.toJson = .ok e := by
  cases e with
  | pending receiptId ready url =>
      have hstatus : (ReceiptEnvelope.pending receiptId ready url).toJson.get "status" =
          .str (lit "pending") := rfl
      refine bind_eq_ok.mpr ⟨_, requireDict_eq_ok.mpr ⟨rfl, rfl⟩, ?_⟩
      rw [if_pos hstatus]
      refine bind_eq_ok.mpr ⟨_, requireDict_eq_ok.mpr ⟨rfl, rfl⟩, ?_⟩
      rw [if_neg (not_not.mpr hstatus)]
      refine bind_eq_ok.mpr ⟨receiptId, requireStr_eq_ok.mpr rfl, ?_⟩
      refine bind_eq_ok.mpr ⟨ready, optionalStr_eq_ok.mpr rfl, ?_⟩
      exact bind_eq_ok.mpr ⟨url, requireStr_eq_ok.mpr rfl, rfl⟩
  | signed receipt =>
      rcases h with ⟨hobj, claims, hclaims⟩
      refine bind_eq_ok.mpr ⟨_, requireDict_eq_ok.mpr ⟨rfl, rfl⟩, ?_⟩
      have hstatus : (ReceiptEnvelope.signed receipt).toJson.get "status" = .str (lit "signed") := rfl
      rw [hstatus, if_neg (by simp), if_pos rfl]
      refine bind_eq_ok.mpr ⟨receipt, requireDict_eq_ok.mpr ⟨hobj, rfl⟩, ?_⟩
      rw [hclaims]
      rfl

/-- The ID of the review has the form of its kind. -/
def ExecutionReview.Sound (r : ExecutionReview) : Prop :=
  ¬ ((dropWord r.kind.idStart r.id).isNone ∨ r.sourceReceiptId = [])

theorem sound_review {raw : Json} {r : ExecutionReview} (h : parseReview raw = .ok r) : r.Sound := by
  rcases bind_eq_ok.mp h with ⟨body, _, h⟩
  rcases bind_eq_ok.mp h with ⟨kindText, _, h⟩
  split at h
  · cases h
  · rcases bind_eq_ok.mp h with ⟨id, _, h⟩
    rcases bind_eq_ok.mp h with ⟨source, _, h⟩
    rcases bind_eq_ok.mp h with ⟨expires, _, h⟩
    rcases of_ite_error h with ⟨hsound, h⟩
    cases h
    exact hsound

theorem parse_review {r : ExecutionReview} (h : r.Sound) : parseReview r.toJson = .ok r := by
  rcases r with ⟨kind, id, source, expires⟩
  refine bind_eq_ok.mpr ⟨_, requireDict_eq_ok.mpr ⟨rfl, rfl⟩, ?_⟩
  refine bind_eq_ok.mpr ⟨kind.text, requireStr_eq_ok.mpr rfl, ?_⟩
  have hkind : [ReviewKind.confirm, .escalate].find? (fun k => k.text == kind.text) = some kind := by
    cases kind with
    | confirm => rfl
    | escalate => rfl
  rw [hkind]
  refine bind_eq_ok.mpr ⟨id, requireStr_eq_ok.mpr rfl, ?_⟩
  refine bind_eq_ok.mpr ⟨source, requireStr_eq_ok.mpr rfl, ?_⟩
  refine bind_eq_ok.mpr ⟨expires, requireStr_eq_ok.mpr rfl, ?_⟩
  rw [if_neg h]
  rfl

/-- The result is an object. -/
def ExecutionDownstream.Sound (d : ExecutionDownstream) : Prop := d.result.isObj = true

theorem sound_downstream {raw : Json} {d : ExecutionDownstream} (h : parseDownstream raw = .ok d) :
    d.Sound := by
  rcases bind_eq_ok.mp h with ⟨body, _, h⟩
  rcases bind_eq_ok.mp h with ⟨source, _, h⟩
  rcases of_ite_error h with ⟨_, h⟩
  iterate 4 rcases bind_eq_ok.mp h with ⟨_, _, h⟩
  rcases bind_eq_ok.mp h with ⟨result, hresult, h⟩
  rcases bind_eq_ok.mp h with ⟨completion, _, h⟩
  rcases of_ite_error h with ⟨_, h⟩
  cases h
  rcases requireDict_eq_ok.mp hresult with ⟨hobj, heq⟩
  rw [heq]
  exact hobj

theorem optionalInt_int (n : Option Int) (error : String) :
    optionalInt (Json.ofOption (n.map .int)) error = .ok n := by
  cases n with
  | none => rfl
  | some n => rfl

theorem optionalText_text (s : Option Str) (error : String) :
    optionalText (optionText s) error = .ok s := by
  cases s with
  | none => rfl
  | some s => rfl

theorem parse_downstream {d : ExecutionDownstream} (h : d.Sound) :
    parseDownstream d.toJson = .ok d := by
  refine bind_eq_ok.mpr ⟨_, requireDict_eq_ok.mpr ⟨rfl, rfl⟩, ?_⟩
  refine bind_eq_ok.mpr ⟨lit "customer_runtime", requireStr_eq_ok.mpr rfl, ?_⟩
  rw [if_neg (not_not.mpr rfl)]
  refine bind_eq_ok.mpr ⟨d.httpStatus, optionalInt_int _ _, ?_⟩
  refine bind_eq_ok.mpr ⟨d.responseFingerprint, optionalText_text _ _, ?_⟩
  refine bind_eq_ok.mpr ⟨d.responseFingerprintScope.text, requireStr_eq_ok.mpr rfl, ?_⟩
  refine bind_eq_ok.mpr ⟨d.responseFingerprintScope, ?_, ?_⟩
  · cases d.responseFingerprintScope with
    | complete => rfl
    | unavailable => rfl
  refine bind_eq_ok.mpr ⟨d.result, requireDict_eq_ok.mpr ⟨h, rfl⟩, ?_⟩
  refine bind_eq_ok.mpr ⟨lit "not_verified", requireStr_eq_ok.mpr rfl, ?_⟩
  rw [if_neg (not_not.mpr rfl)]
  rfl

/-- The record is an object, and the receipt is sound. -/
def OutcomeEvidence.Sound (L : Libs) (e : OutcomeEvidence) : Prop :=
  e.record.isObj = true ∧ ∀ receipt, e.receipt = some receipt → receipt.Sound L

/-- A part that is null or sound is parsed again. -/
theorem optionalWith_toJson {A : Type} {parse : Json → Except Exc A} {toJson : A → Json}
    {a : Option A} (h : ∀ b, a = some b → parse (toJson b) = .ok b)
    (hnull : ∀ b, toJson b ≠ .null) :
    optionalWith parse (Json.ofOption (a.map toJson)) = .ok a := by
  cases a with
  | none => rfl
  | some b =>
      change (if toJson b = .null then _ else _) = _
      rw [if_neg (hnull b)]
      exact map_eq_ok.mpr ⟨b, h b rfl, rfl⟩

theorem ofList_ne_null (ms : List (String × Json)) : Json.ofList ms ≠ .null := nofun

theorem envelope_ne_null (e : ReceiptEnvelope) : e.toJson ≠ .null := by
  cases e with
  | pending receiptId ready url => exact ofList_ne_null _
  | signed receipt => exact ofList_ne_null _

theorem sound_evidence {raw : Json} {e : OutcomeEvidence} (h : parseOutcomeEvidence L raw = .ok e) :
    e.Sound L := by
  rcases bind_eq_ok.mp h with ⟨body, _, h⟩
  rcases bind_eq_ok.mp h with ⟨profile, _, h⟩
  rcases of_ite_error h with ⟨_, h⟩
  rcases bind_eq_ok.mp h with ⟨unavailable, _, h⟩
  rcases bind_eq_ok.mp h with ⟨record, hrecord, h⟩
  rcases bind_eq_ok.mp h with ⟨sha256, _, h⟩
  rcases bind_eq_ok.mp h with ⟨receipt, hreceipt, h⟩
  cases h
  rcases requireDict_eq_ok.mp hrecord with ⟨hobj, heq⟩
  refine ⟨?_, ?_⟩
  · rw [heq]
    exact hobj
  · intro e he
    have he : receipt = some e := he
    rw [he] at hreceipt
    exact sound_envelope (optionalWith_eq_ok hreceipt)

theorem parse_evidence {e : OutcomeEvidence} (h : e.Sound L) :
    parseOutcomeEvidence L e.toJson = .ok e := by
  refine bind_eq_ok.mpr ⟨_, requireDict_eq_ok.mpr ⟨rfl, rfl⟩, ?_⟩
  refine bind_eq_ok.mpr ⟨lit "allowly.seal.jcs-sha256.v1", requireStr_eq_ok.mpr rfl, ?_⟩
  rw [if_neg (not_not.mpr rfl)]
  refine bind_eq_ok.mpr ⟨e.unavailable, ?_, ?_⟩
  · change parseEvidenceError (if e.unavailable then .str (lit "unavailable") else .null) = _
    cases e.unavailable with
    | true => rfl
    | false => rfl
  refine bind_eq_ok.mpr ⟨e.record, requireDict_eq_ok.mpr ⟨h.1, rfl⟩, ?_⟩
  refine bind_eq_ok.mpr ⟨e.recordSha256, requireStr_eq_ok.mpr rfl, ?_⟩
  refine bind_eq_ok.mpr ⟨e.receipt, ?_, rfl⟩
  exact optionalWith_toJson (fun b hb => parse_envelope (h.2 b hb)) envelope_ne_null

/-- The method is one of those that can be sent. -/
def ExecutionRequestDescriptor.Sound (d : ExecutionRequestDescriptor) : Prop :=
  d.method ∈ httpMethods

theorem sound_descriptor {raw : Json} {d : ExecutionRequestDescriptor}
    (h : parseDescriptor raw = .ok d) : d.Sound := by
  rcases bind_eq_ok.mp h with ⟨body, _, h⟩
  rcases bind_eq_ok.mp h with ⟨method, _, h⟩
  rcases of_ite_error h with ⟨hmethod, h⟩
  iterate 11 rcases bind_eq_ok.mp h with ⟨_, _, h⟩
  cases h
  exact not_not.mp hmethod

theorem parse_headers (hs : List (Str × Str)) :
    (hs.map headerJson).mapM parseHeader = .ok hs := by
  induction hs with
  | nil => rfl
  | cons h hs ih =>
      rw [List.map_cons, List.mapM_cons]
      refine bind_eq_ok.mpr ⟨h, ?_, bind_eq_ok.mpr ⟨hs, ih, rfl⟩⟩
      refine bind_eq_ok.mpr ⟨_, requireDict_eq_ok.mpr ⟨rfl, rfl⟩, ?_⟩
      refine bind_eq_ok.mpr ⟨h.1, requireStr_eq_ok.mpr rfl, ?_⟩
      exact bind_eq_ok.mpr ⟨h.2, requireStr_eq_ok.mpr rfl, rfl⟩

theorem parse_descriptor {d : ExecutionRequestDescriptor} (h : d.Sound) :
    parseDescriptor d.toJson = .ok d := by
  refine bind_eq_ok.mpr ⟨_, requireDict_eq_ok.mpr ⟨rfl, rfl⟩, ?_⟩
  refine bind_eq_ok.mpr ⟨d.method, requireStr_eq_ok.mpr rfl, ?_⟩
  have hmethod : d.method ∈ httpMethods := h
  rw [if_neg (not_not.mpr hmethod)]
  refine bind_eq_ok.mpr ⟨d.headers, parse_headers d.headers, ?_⟩
  refine bind_eq_ok.mpr ⟨d.operationId, requireStr_eq_ok.mpr rfl, ?_⟩
  refine bind_eq_ok.mpr ⟨d.authorizationId, requireStr_eq_ok.mpr rfl, ?_⟩
  refine bind_eq_ok.mpr ⟨d.destinationId, requireStr_eq_ok.mpr rfl, ?_⟩
  refine bind_eq_ok.mpr ⟨d.action, requireStr_eq_ok.mpr rfl, ?_⟩
  refine bind_eq_ok.mpr ⟨d.origin, requireStr_eq_ok.mpr rfl, ?_⟩
  refine bind_eq_ok.mpr ⟨d.path, requireStr_eq_ok.mpr rfl, ?_⟩
  refine bind_eq_ok.mpr ⟨d.query, requireStr_eq_ok.mpr rfl, ?_⟩
  refine bind_eq_ok.mpr ⟨d.bodySha256, requireStr_eq_ok.mpr rfl, ?_⟩
  refine bind_eq_ok.mpr ⟨d.bodySize, requireInt_eq_ok.mpr rfl, ?_⟩
  exact bind_eq_ok.mpr ⟨d.contentType, optionalStr_eq_ok.mpr rfl, rfl⟩

theorem parse_escalation (e : EscalationInfo) : parseEscalationInfo e.toJson = .ok e := by
  refine bind_eq_ok.mpr ⟨_, requireDict_eq_ok.mpr ⟨rfl, rfl⟩, ?_⟩
  refine bind_eq_ok.mpr ⟨e.escalationId, requireStr_eq_ok.mpr rfl, ?_⟩
  refine bind_eq_ok.mpr ⟨e.status, requireStr_eq_ok.mpr rfl, ?_⟩
  refine bind_eq_ok.mpr ⟨e.escalationTo, optionalStr_eq_ok.mpr rfl, ?_⟩
  exact bind_eq_ok.mpr ⟨e.expiresAt, optionalStr_eq_ok.mpr rfl, rfl⟩

/-! ### The response -/

/-- Every part is sound, and a review is bound to what it is a review of. -/
structure ExecutionResponse.Sound (L : Libs) (r : ExecutionResponse) : Prop where
  review : ∀ review, r.review = some review → review.Sound
  waiting : r.status = .waitingForReview →
    waitingBinding L r.toJson r.decision r.review r.decisionReceipt = true
  downstream : ∀ d, r.downstream = some d → d.Sound
  outcomeEvidence : ∀ e, r.outcomeEvidence = some e → e.Sound L
  requestDescriptor : r.requestDescriptor.Sound
  described : ¬ (r.requestDescriptor.operationId ≠ r.operationId
    ∨ r.requestDescriptor.destinationId ≠ r.destinationId ∨ r.requestDescriptor.action ≠ r.action)
  decisionReceipt : r.decisionReceipt.Sound L

/-- The binding of a review looks at six members only. -/
theorem waitingBinding_congr {body body' : Json} {decision : Decision}
    {review : Option ExecutionReview} {envelope : ReceiptEnvelope}
    (h : waitingBinding L body decision review envelope = true)
    (happroval : body.get "approval" = body'.get "approval")
    (hsha : body.get "approval_sha256" = body'.get "approval_sha256")
    (hdown : body.get "downstream" = body'.get "downstream")
    (hstate : body.get "decision_state" = body'.get "decision_state")
    (htarget : body.get "target_state" = body'.get "target_state")
    (hevidence : body.get "evidence_state" = body'.get "evidence_state") :
    waitingBinding L body' decision review envelope = true := by
  unfold waitingBinding at h ⊢
  rw [← happroval, ← hsha, ← hdown, ← hstate, ← htarget, ← hevidence]
  exact h

theorem downstream_null {L : Libs} {body : Json} {decision : Decision}
    {review : Option ExecutionReview} {envelope : ReceiptEnvelope}
    (h : waitingBinding L body decision review envelope = true) :
    body.get "downstream" = .null := by
  unfold waitingBinding at h
  split at h
  · cases h
  · simp only [Bool.and_eq_true, decide_eq_true_eq] at h
    exact h.1.1.1.2

/-- What was parsed is sound. -/
theorem sound_of_parse {raw : Json} {r : ExecutionResponse}
    (h : parseExecutionResponse L raw = .ok r) : r.Sound L := by
  have hp := parsed_of_ok h
  rcases bind_eq_ok.mp h with ⟨body, hbody, hk⟩
  clear h
  rcases requireDict_eq_ok.mp hbody with ⟨_, rfl⟩
  iterate 9 rcases bind_eq_ok.mp hk with ⟨_, _, hk⟩
  rcases of_ite_error hk with ⟨_, hk⟩
  iterate 3 rcases bind_eq_ok.mp hk with ⟨_, _, hk⟩
  rcases of_ite_error hk with ⟨_, hk⟩
  rcases bind_eq_ok.mp hk with ⟨descriptor, hdescriptor, hk⟩
  rcases of_ite_error hk with ⟨hdescribed, hk⟩
  iterate 11 rcases bind_eq_ok.mp hk with ⟨_, _, hk⟩
  rcases bind_eq_ok.mp hk with ⟨mode, _, hk⟩
  rcases bind_eq_ok.mp hk with ⟨approvalSha256, hsha, hk⟩
  rcases bind_eq_ok.mp hk with ⟨expires, _, hk⟩
  rcases bind_eq_ok.mp hk with ⟨decisionState, hstate, hk⟩
  rcases bind_eq_ok.mp hk with ⟨targetState, htarget, hk⟩
  rcases bind_eq_ok.mp hk with ⟨evidenceState, hevidence, hk⟩
  cases hk
  refine ⟨?_, ?_, ?_, ?_, sound_descriptor hdescriptor, hdescribed, ?_⟩
  · intro review hreview
    exact sound_review (optionalWith_eq_ok (hreview ▸ hp.review))
  · intro hwaiting
    have hwaits := hp.waiting
    rw [waitingValid, if_pos hwaiting] at hwaits
    rcases map_eq_ok.mp hwaits with ⟨envelope, henvelope, hbinding⟩
    rw [hp.decisionReceipt, Except.ok.injEq] at henvelope
    rw [← henvelope] at hbinding
    have hnull := downstream_null hbinding
    have hdown := hp.downstream
    rw [hnull] at hdown
    refine waitingBinding_congr hbinding rfl (optionalStr_eq_ok.mp hsha) ?_
      (optionalStr_eq_ok.mp hstate) (optionalStr_eq_ok.mp htarget)
      (optionalStr_eq_ok.mp hevidence)
    rw [hnull]
    cases hdown
    rfl
  · intro d hd
    exact sound_downstream (optionalWith_eq_ok (hd ▸ hp.downstream))
  · intro e he
    exact sound_evidence (optionalWith_eq_ok (he ▸ hp.outcomeEvidence))
  · exact sound_envelope hp.decisionReceipt

theorem parseEnum_status (status : ExecutionStatus) (error : String) :
    parseEnum ExecutionStatus.all ExecutionStatus.text error status.text = .ok status := by
  cases status with
  | approved => rfl
  | denied => rfl
  | confirmationRequired => rfl
  | escalationRequired => rfl
  | waitingForReview => rfl
  | succeeded => rfl
  | failed => rfl
  | unknown => rfl

theorem parseEnum_decision (decision : Decision) (error : String) :
    parseEnum Decision.all Decision.text error decision.text = .ok decision := by
  cases decision with
  | allow => rfl
  | deny => rfl
  | confirm => rfl
  | escalate => rfl

/-- What is sound is parsed as it was. -/
theorem parse_toJson {r : ExecutionResponse} (h : r.Sound L) :
    parseExecutionResponse L r.toJson = .ok r := by
  have hwaits : waitingValid L r.toJson r.status r.decision r.review = .ok true := by
    unfold waitingValid
    by_cases hstatus : r.status = .waitingForReview
    · rw [if_pos hstatus]
      exact map_eq_ok.mpr ⟨r.decisionReceipt, parse_envelope h.decisionReceipt, h.waiting hstatus⟩
    · rw [if_neg hstatus]
  refine bind_eq_ok.mpr ⟨_, requireDict_eq_ok.mpr ⟨rfl, rfl⟩, ?_⟩
  refine bind_eq_ok.mpr ⟨r.operationId, requireStr_eq_ok.mpr rfl, ?_⟩
  refine bind_eq_ok.mpr ⟨r.destinationId, requireStr_eq_ok.mpr rfl, ?_⟩
  refine bind_eq_ok.mpr ⟨r.action, requireStr_eq_ok.mpr rfl, ?_⟩
  refine bind_eq_ok.mpr ⟨r.status.text, requireStr_eq_ok.mpr rfl, ?_⟩
  refine bind_eq_ok.mpr ⟨r.status, parseEnum_status _ _, ?_⟩
  refine bind_eq_ok.mpr ⟨r.decision.text, requireStr_eq_ok.mpr rfl, ?_⟩
  refine bind_eq_ok.mpr ⟨r.decision, parseEnum_decision _ _, ?_⟩
  refine bind_eq_ok.mpr ⟨r.review,
    optionalWith_toJson (fun b hb => parse_review (h.review b hb)) (fun _ => ofList_ne_null _), ?_⟩
  refine bind_eq_ok.mpr ⟨true, hwaits, ?_⟩
  rw [if_neg (by simp)]
  refine bind_eq_ok.mpr ⟨r.downstream, optionalWith_toJson
    (fun b hb => parse_downstream (h.downstream b hb)) (fun _ => ofList_ne_null _), ?_⟩
  refine bind_eq_ok.mpr ⟨r.outcomeEvidence, optionalWith_toJson
    (fun b hb => parse_evidence (h.outcomeEvidence b hb)) (fun _ => ofList_ne_null _), ?_⟩
  refine bind_eq_ok.mpr ⟨lit "allowly.execution.request.v1", requireStr_eq_ok.mpr rfl, ?_⟩
  rw [if_neg (not_not.mpr rfl)]
  refine bind_eq_ok.mpr ⟨r.requestDescriptor, parse_descriptor h.requestDescriptor, ?_⟩
  rw [if_neg h.described]
  refine bind_eq_ok.mpr ⟨r.reason, requireStr_eq_ok.mpr rfl, ?_⟩
  refine bind_eq_ok.mpr ⟨r.requestFingerprint, requireStr_eq_ok.mpr rfl, ?_⟩
  refine bind_eq_ok.mpr ⟨r.decisionReceipt, parse_envelope h.decisionReceipt, ?_⟩
  refine bind_eq_ok.mpr ⟨r.confirmationId, optionalStr_eq_ok.mpr rfl, ?_⟩
  refine bind_eq_ok.mpr ⟨r.confirmNonce, optionalStr_eq_ok.mpr rfl, ?_⟩
  refine bind_eq_ok.mpr ⟨r.confirmExpiresAt, optionalStr_eq_ok.mpr rfl, ?_⟩
  refine bind_eq_ok.mpr ⟨r.confirmPromptHint, optionalStr_eq_ok.mpr rfl, ?_⟩
  refine bind_eq_ok.mpr ⟨r.escalationId, optionalStr_eq_ok.mpr rfl, ?_⟩
  refine bind_eq_ok.mpr ⟨r.escalationExpiresAt, optionalStr_eq_ok.mpr rfl, ?_⟩
  refine bind_eq_ok.mpr ⟨r.escalationTo, optionalStr_eq_ok.mpr rfl, ?_⟩
  refine bind_eq_ok.mpr ⟨r.escalation,
    optionalWith_toJson (fun b _ => parse_escalation b) (fun _ => ofList_ne_null _), ?_⟩
  refine bind_eq_ok.mpr ⟨r.effectiveEvidenceMode, optionalStr_eq_ok.mpr rfl, ?_⟩
  refine bind_eq_ok.mpr ⟨r.approvalSha256, optionalStr_eq_ok.mpr rfl, ?_⟩
  refine bind_eq_ok.mpr ⟨r.approvalExpiresAt, optionalStr_eq_ok.mpr rfl, ?_⟩
  refine bind_eq_ok.mpr ⟨r.decisionState, optionalStr_eq_ok.mpr rfl, ?_⟩
  refine bind_eq_ok.mpr ⟨r.targetState, optionalStr_eq_ok.mpr rfl, ?_⟩
  exact bind_eq_ok.mpr ⟨r.evidenceState, optionalStr_eq_ok.mpr rfl, rfl⟩

/-- The nonce is not part of what is checked. -/
theorem ExecutionResponse.Sound.without_nonce {r : ExecutionResponse} (h : r.Sound L) :
    ({ r with confirmNonce := none } : ExecutionResponse).Sound L := by
  refine ⟨h.review, ?_, h.downstream, h.outcomeEvidence, h.requestDescriptor, h.described,
    h.decisionReceipt⟩
  intro hwaiting
  exact waitingBinding_congr (h.waiting hwaiting) rfl rfl rfl rfl rfl rfl

theorem toJson_without_nonce (r : ExecutionResponse) :
    r.toJson.set "confirm_nonce" .null =
      ({ r with confirmNonce := none } : ExecutionResponse).toJson := by
  simp [ExecutionResponse.toJson, Json.ofList, Json.set, Json.insert, optionText, Json.ofOption]

/-- What a journal keeps of a response is parsed as the response, but for the nonce of one that
    waits. -/
theorem parse_journalAuthorization {r : ExecutionResponse} (h : r.Sound L) :
    parseExecutionResponse L (journalAuthorization r) = .ok
      (if r.status = .waitingForReview then { r with confirmNonce := none } else r) := by
  unfold journalAuthorization
  by_cases hstatus : r.status = .waitingForReview
  · rw [if_pos hstatus, if_pos hstatus, toJson_without_nonce]
    exact parse_toJson h.without_nonce
  · rw [if_neg hstatus, if_neg hstatus]
    exact parse_toJson h

/-- What is written of a response that was accepted is parsed as the same response. In a journal
    the nonce of one that waits is missing, and nothing else. -/
theorem saved_reparses {content : Bytes} {raw : Json} {r : ExecutionResponse}
    (hload : loadsBytes content = some raw) (hparse : parseExecutionResponse L raw = .ok r) :
    (∀ data, Writes data r.toJson →
      ∃ w, loadsBytes data = some w ∧ parseExecutionResponse L w = .ok r) ∧
    ∀ v phase data, v.isObj = true → v.WellFormed → Writes data (answeredState v phase r) →
      ∃ w, loadsBytes data = some w ∧ parseExecutionResponse L (w.get "authorization") = .ok
        (if r.status = .waitingForReview then { r with confirmNonce := none } else r) := by
  have hraw := wellFormed_loadsBytes hload
  have hsound := sound_of_parse hparse
  refine ⟨?_, ?_⟩
  · intro data hw
    exact ⟨r.toJson, loads_writes hw rfl (wellFormed_toJson hraw hparse), parse_toJson hsound⟩
  · intro v phase data ho hv hw
    have hobj : (answeredState v phase r).isObj = true := by
      simp only [answeredState, Json.update, List.foldl_cons, List.foldl_nil, Json.isObj_set]
      exact ho
    have hwf : (answeredState v phase r).WellFormed := by
      have hr := wellFormed_journalAuthorization hraw hparse
      have htext : ∀ s, (Json.str s).WellFormed := fun _ => trivial
      simp only [answeredState, Json.update, List.foldl_cons, List.foldl_nil]
      exact Json.wellFormed_set (Json.wellFormed_set hv _ (htext _)) _ hr
    refine ⟨answeredState v phase r, loads_writes hw hobj hwf, ?_⟩
    rw [answered_authorization ho]
    exact parse_journalAuthorization hsound

set_option maxRecDepth 20000 in
theorem waiting_parsed : loadsBytes (fileOf sampleWaiting.toJson) = some sampleWaiting.toJson ∧
    parseExecutionResponse sampleLibs sampleWaiting.toJson = .ok sampleWaiting ∧
      ∃ data, Writes data (answeredState (preparedState (lit "op_1") [] []) "authorized"
        sampleWaiting) := by
  have hload : loadsBytes (fileOf sampleWaiting.toJson) = some sampleWaiting.toJson := by
    decide +kernel
  have hparse : (parseExecutionResponse sampleLibs sampleWaiting.toJson).toOption =
      some sampleWaiting := by
    decide +kernel
  have hwrites : (jsonBytes (answeredState (preparedState (lit "op_1") [] []) "authorized"
      sampleWaiting)).toOption.isSome = true := by
    decide +kernel
  rcases Option.isSome_iff_exists.mp hwrites with ⟨data, hdata⟩
  exact ⟨hload, ok_of_toOption hparse, data, ok_of_toOption hdata⟩

theorem reparses_sample : ∃ data w, loadsBytes data = some w ∧
    parseExecutionResponse sampleLibs (w.get "authorization") = .ok sampleWaiting := by
  rcases waiting_parsed with ⟨hload, hparse, data, hw⟩
  have hjournal := journal_prepared (lit "op_1") [] []
  rcases (saved_reparses hload hparse).2 _ _ data rfl hjournal.wellFormed hw with ⟨w, hload, hw⟩
  exact ⟨data, w, hload, hw⟩

end Allowly

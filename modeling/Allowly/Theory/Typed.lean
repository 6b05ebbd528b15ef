import Allowly.Core.Check
import Allowly.Theory.Contract
import Allowly.Theory.Reparse

/-!
# Typed Answers

What a method makes of an accepted body has the types that the dataclasses declare, or the
method raises `AllowlyProtocolError`, which is what callers catch. The parsers keep to this
but for a few members. Some are passed on without a look: the approval, the witness session
and three states of an execution, `superseded_by` of a deny, three members of a resolution.
And some are looked at in a way that only suits the types they should have.

## Main definitions

* `Raises`: Only some errors are raised.
* `StrictBut`: Nothing is raised but protocol errors and some named errors.
* `Inquiry`: The methods, with what they were asked for.
* `Inquiry.Typed`: What is returned has the declared types.
* `Inquiry.Fits`: The members that are passed on have them.
* `Inquiry.Escapes`: The errors that callers do not expect.
* `ApprovalEscapes`: Those of the check of an approval.

## Theorems

* `strictBut_parseExecutionResponse` and its like: The parsers.
* `typed_parseExecutionResponse` and its like: What they return.
* `answers_typed`: The contract, for every method and body.
* `escapes_reached`: The errors that escape do occur.
* `approval_escapes`: What the check of an approval can raise.
-/

namespace Allowly

open Py

/-- What is raised is one of these. -/
def Raises {A : Type} (E : Exc → Prop) (r : Except Exc A) : Prop := ∀ x, r = .error x → E x

theorem raises_ok {A : Type} {E : Exc → Prop} (a : A) : Raises E (.ok a : Except Exc A) :=
  fun x h => by cases h

theorem raises_error {A : Type} {E : Exc → Prop} {x : Exc} (h : E x) :
    Raises E (.error x : Except Exc A) := by
  intro y hy
  rw [Except.error.injEq] at hy
  rw [← hy]
  exact h

theorem raises_bind {A B : Type} {E : Exc → Prop} {r : Except Exc A} {f : A → Except Exc B}
    (h : Raises E r) (hf : ∀ a, r = .ok a → Raises E (f a)) : Raises E (r >>= f) := by
  cases r with
  | ok a => exact hf a rfl
  | error y =>
      intro x hx
      exact h x (congrArg Except.error (Except.error.inj hx))

theorem raises_map {A B : Type} {E : Exc → Prop} {r : Except Exc A} (h : Raises E r) (f : A → B) :
    Raises E (r.map f) := by
  cases r with
  | ok a => exact raises_ok _
  | error y =>
      intro x hx
      exact h x (congrArg Except.error (Except.error.inj hx))

/-- What is raised is a protocol error, or one of these. -/
def StrictBut {A : Type} (E : Exc → Prop) (r : Except Exc A) : Prop :=
  Raises (fun x => IsProtocolError x ∨ E x) r

theorem Strict.but {A : Type} {E : Exc → Prop} {r : Except Exc A} (h : Strict r) : StrictBut E r :=
  fun x hx => Or.inl (h x hx)

theorem Raises.strictBut {A : Type} {E E' : Exc → Prop} {r : Except Exc A} (h : Raises E r)
    (himp : ∀ x, E x → E' x) : StrictBut E' r := fun x hx => Or.inr (himp x (h x hx))

theorem strictBut_error {A : Type} {E : Exc → Prop} {x : Exc} (h : E x) :
    StrictBut E (.error x : Except Exc A) := raises_error (Or.inr h)

theorem strictBut_bind {A B : Type} {E : Exc → Prop} {r : Except Exc A} {f : A → Except Exc B}
    (h : StrictBut E r) (hf : ∀ a, r = .ok a → StrictBut E (f a)) : StrictBut E (r >>= f) :=
  raises_bind h hf

theorem strictBut_optionalWith {A : Type} {E : Exc → Prop} {parse : Json → Except Exc A}
    {value : Json} (h : StrictBut E (parse value)) : StrictBut E (optionalWith parse value) := by
  unfold optionalWith
  split
  · exact raises_ok _
  · exact raises_map h some

theorem strictBut_check {A : Type} {E : Exc → Prop} {c : Prop} [Decidable c] {t : String}
    {shown : Option Str} {y : Except Exc A} (hy : ¬ c → StrictBut E y) :
    StrictBut E (if c then protocolError t shown else y) := by
  by_cases hc : c
  · rw [if_pos hc]
    exact (strict_protocolError t shown).but
  · rw [if_neg hc]
    exact hy hc

/-! ### Executions -/

/-- A value that cannot be looked up in a set. -/
def unhashable : Json → Bool
  | .arr _ => true
  | .obj _ => true
  | _ => false

/-- What `in` raises for the error of an outcome. -/
def EvidenceEscapes (evidence : Json) (x : Exc) : Prop :=
  x = .type ∧ unhashable (evidence.get "evidence_error") = true

theorem strictBut_parseEvidenceError (value : Json) :
    StrictBut (fun x => x = .type ∧ unhashable value = true) (parseEvidenceError value) := by
  unfold parseEvidenceError
  split
  · exact (strict_ok _).but
  · split
    · exact (strict_ok _).but
    · exact (strict_protocolError _ _).but
  · exact strictBut_error ⟨rfl, rfl⟩
  · exact strictBut_error ⟨rfl, rfl⟩
  · exact (strict_protocolError _ _).but

variable {L : Libs}

theorem strictBut_parseOutcomeEvidence (raw : Json) :
    StrictBut (EvidenceEscapes raw) (parseOutcomeEvidence L raw) := by
  refine strictBut_bind (strict_requireDict _ _).but fun body hbody => ?_
  rcases requireDict_eq_ok.mp hbody with ⟨_, rfl⟩
  refine strictBut_bind (strict_requireStr _ _).but fun _ _ => strictBut_check fun _ => ?_
  refine strictBut_bind (strictBut_parseEvidenceError _) fun _ _ => ?_
  refine strictBut_bind (strict_requireDict _ _).but fun _ _ => ?_
  refine strictBut_bind (strict_requireStr _ _).but fun _ _ => ?_
  refine strictBut_bind (strict_optionalWith (strict_parseReceiptEnvelope L) _).but fun _ _ => ?_
  exact (strict_ok _).but

theorem strict_parseReview (raw : Json) : Strict (parseReview raw) := by
  refine strict_bind (strict_requireDict _ _) fun _ _ => ?_
  refine strict_bind (strict_requireStr _ _) fun _ _ => ?_
  split
  · exact strict_protocolError _ _
  · refine strict_bind (strict_requireStr _ _) fun _ _ => ?_
    refine strict_bind (strict_requireStr _ _) fun _ _ => ?_
    refine strict_bind (strict_requireStr _ _) fun _ _ => ?_
    exact strict_check fun _ => strict_ok _

theorem strict_parseDownstream (raw : Json) : Strict (parseDownstream raw) := by
  refine strict_bind (strict_requireDict _ _) fun _ _ => ?_
  refine strict_bind (strict_requireStr _ _) fun _ _ => strict_check fun _ => ?_
  refine strict_bind (strict_optionalInt _ _) fun _ _ => ?_
  refine strict_bind (strict_optionalText _ _) fun _ _ => ?_
  refine strict_bind (strict_requireStr _ _) fun _ _ => ?_
  refine strict_bind (strict_parseEnum _ _ _ _) fun _ _ => ?_
  refine strict_bind (strict_requireDict _ _) fun _ _ => ?_
  exact strict_bind (strict_requireStr _ _) fun _ _ => strict_check fun _ => strict_ok _

theorem strict_parseHeaders (value : Json) : Strict (parseHeaders value) := by
  unfold parseHeaders
  split
  · refine strict_mapM (fun item => ?_) _
    refine strict_bind (strict_requireDict _ _) fun _ _ => ?_
    refine strict_bind (strict_requireStr _ _) fun _ _ => ?_
    exact strict_bind (strict_requireStr _ _) fun _ _ => strict_ok _
  · exact strict_protocolError _ _

theorem strict_parseDescriptor (raw : Json) : Strict (parseDescriptor raw) := by
  refine strict_bind (strict_requireDict _ _) fun _ _ => ?_
  refine strict_bind (strict_requireStr _ _) fun _ _ => strict_check fun _ => ?_
  refine strict_bind (strict_parseHeaders _) fun _ _ => ?_
  -- the text members, the size, and the content type
  iterate 8 refine strict_bind (strict_requireStr _ _) fun _ _ => ?_
  refine strict_bind (strict_requireInt _ _) fun _ _ => ?_
  exact strict_bind (strict_optionalStr _ _) fun _ _ => strict_ok _

theorem strict_parseEscalationInfo (raw : Json) : Strict (parseEscalationInfo raw) := by
  refine strict_bind (strict_requireDict _ _) fun _ _ => ?_
  refine strict_bind (strict_requireStr _ _) fun _ _ => ?_
  refine strict_bind (strict_requireStr _ _) fun _ _ => ?_
  refine strict_bind (strict_optionalStr _ _) fun _ _ => ?_
  exact strict_bind (strict_optionalStr _ _) fun _ _ => strict_ok _

theorem strict_waitingValid (body : Json) (status : ExecutionStatus) (decision : Decision)
    (review : Option ExecutionReview) : Strict (waitingValid L body status decision review) := by
  unfold waitingValid
  split
  · exact strict_map (strict_parseReceiptEnvelope L _) _
  · exact strict_ok _

theorem strictBut_parseExecutionResponse (raw : Json) :
    StrictBut (EvidenceEscapes (raw.get "outcome_evidence")) (parseExecutionResponse L raw) := by
  refine strictBut_bind (strict_requireDict _ _).but fun body hbody => ?_
  rcases requireDict_eq_ok.mp hbody with ⟨_, rfl⟩
  iterate 4 refine strictBut_bind (strict_requireStr _ _).but fun _ _ => ?_
  refine strictBut_bind (strict_parseEnum _ _ _ _).but fun _ _ => ?_
  refine strictBut_bind (strict_requireStr _ _).but fun _ _ => ?_
  refine strictBut_bind (strict_parseEnum _ _ _ _).but fun _ _ => ?_
  refine strictBut_bind (strict_optionalWith strict_parseReview _).but fun _ _ => ?_
  refine strictBut_bind (strict_waitingValid _ _ _ _).but fun _ _ => strictBut_check fun _ => ?_
  refine strictBut_bind (strict_optionalWith strict_parseDownstream _).but fun _ _ => ?_
  -- the one step that can raise something else
  refine strictBut_bind (strictBut_optionalWith (strictBut_parseOutcomeEvidence _)) fun _ _ => ?_
  refine strictBut_bind (strict_requireStr _ _).but fun _ _ => strictBut_check fun _ => ?_
  refine strictBut_bind (strict_parseDescriptor _).but fun _ _ => strictBut_check fun _ => ?_
  iterate 2 refine strictBut_bind (strict_requireStr _ _).but fun _ _ => ?_
  refine strictBut_bind (strict_parseReceiptEnvelope L _).but fun _ _ => ?_
  iterate 7 refine strictBut_bind (strict_optionalStr _ _).but fun _ _ => ?_
  refine strictBut_bind (strict_optionalWith strict_parseEscalationInfo _).but fun _ _ => ?_
  iterate 6 refine strictBut_bind (strict_optionalStr _ _).but fun _ _ => ?_
  exact (strict_ok _).but

/-- A response reads these as they are, or as null. -/
def oneOf (values : List String) (v : Json) : Prop := v = .null ∨ ∃ s ∈ values, v = .str (lit s)

def objectOrNull (v : Json) : Prop := v = .null ∨ v.isObj = true

def textOrNull (v : Json) : Prop := ∃ s, v = optionText s

/-- The fields have the types of `ExecutionResponse`. -/
structure ExecutionResponse.Typed (L : Libs) (r : ExecutionResponse) : Prop where
  decisionReceipt : r.decisionReceipt.Sound L
  downstream : ∀ d, r.downstream = some d → d.Sound
  outcomeEvidence : ∀ e, r.outcomeEvidence = some e → e.Sound L
  effectiveEvidenceMode : oneOf ["receipt", "witnessed"] (optionText r.effectiveEvidenceMode)
  decisionState : oneOf ["allowed", "not_allowed"] (optionText r.decisionState)
  targetState : oneOf ["not_started", "response_observed", "unknown"] (optionText r.targetState)
  approval : objectOrNull r.approval
  witnessSession : objectOrNull r.witnessSession

/-- The members of an execution that are passed on have their types. -/
def FitsExecution (raw : Json) : Prop :=
  oneOf ["receipt", "witnessed"] (raw.get "effective_evidence_mode") ∧
    oneOf ["allowed", "not_allowed"] (raw.get "decision_state") ∧
    oneOf ["not_started", "response_observed", "unknown"] (raw.get "target_state") ∧
    objectOrNull (raw.get "approval") ∧ objectOrNull (raw.get "witness_session")

/-- The members that are passed on, as the response has them. -/
theorem passed_parseExecutionResponse {raw : Json} {r : ExecutionResponse}
    (h : parseExecutionResponse L raw = .ok r) :
    raw.get "effective_evidence_mode" = optionText r.effectiveEvidenceMode ∧
      raw.get "decision_state" = optionText r.decisionState ∧
      raw.get "target_state" = optionText r.targetState ∧ raw.get "approval" = r.approval ∧
      raw.get "witness_session" = r.witnessSession := by
  rcases bind_eq_ok.mp h with ⟨body, hbody, hk⟩
  clear h
  rcases requireDict_eq_ok.mp hbody with ⟨_, rfl⟩
  iterate 9 rcases bind_eq_ok.mp hk with ⟨_, _, hk⟩
  rcases of_ite_error hk with ⟨_, hk⟩
  iterate 3 rcases bind_eq_ok.mp hk with ⟨_, _, hk⟩
  rcases of_ite_error hk with ⟨_, hk⟩
  rcases bind_eq_ok.mp hk with ⟨descriptor, _, hk⟩
  rcases of_ite_error hk with ⟨_, hk⟩
  iterate 11 rcases bind_eq_ok.mp hk with ⟨_, _, hk⟩
  rcases bind_eq_ok.mp hk with ⟨mode, hmode, hk⟩
  iterate 2 rcases bind_eq_ok.mp hk with ⟨_, _, hk⟩
  rcases bind_eq_ok.mp hk with ⟨decisionState, hdecision, hk⟩
  rcases bind_eq_ok.mp hk with ⟨targetState, htarget, hk⟩
  rcases bind_eq_ok.mp hk with ⟨evidenceState, _, hk⟩
  cases hk
  exact ⟨optionalStr_eq_ok.mp hmode, optionalStr_eq_ok.mp hdecision, optionalStr_eq_ok.mp htarget,
    rfl, rfl⟩

/-- What was parsed is typed exactly when the members that are passed on are. -/
theorem typed_parseExecutionResponse {raw : Json} {r : ExecutionResponse}
    (h : parseExecutionResponse L raw = .ok r) : r.Typed L ↔ FitsExecution raw := by
  rcases passed_parseExecutionResponse h with ⟨hmode, hdecision, htarget, happroval, hsession⟩
  have hsound := sound_of_parse h
  rw [FitsExecution, hmode, hdecision, htarget, happroval, hsession]
  constructor
  · intro ht
    exact ⟨ht.effectiveEvidenceMode, ht.decisionState, ht.targetState, ht.approval,
      ht.witnessSession⟩
  · rintro ⟨hm, hd, ht, ha, hs⟩
    exact ⟨hsound.decisionReceipt, hsound.downstream, hsound.outcomeEvidence, hm, hd, ht, ha, hs⟩

/-! ### Checks -/

theorem strict_parseBudgetInfo (raw : Json) : Strict (parseBudgetInfo raw) := by
  refine strict_bind (strict_requireDict _ _) fun _ _ => ?_
  iterate 3 refine strict_bind (strict_requireInt _ _) fun _ _ => ?_
  exact strict_bind (strict_optionalWith (fun _ => strict_requireInt _ _) _) fun _ _ => strict_ok _

theorem strict_optionalConfirmationId (raw : Json) : Strict (optionalConfirmationId raw) := by
  refine strict_bind (strict_optionalStr _ _) fun value _ => ?_
  split
  · exact strict_ok _
  · split
    · exact strict_ite (fun _ => strict_ok _) fun _ => strict_protocolError _ _
    · exact strict_protocolError _ _

theorem strict_checkTarget (decision target : Json) : Strict (checkTarget decision target) := by
  unfold checkTarget
  split
  · refine strict_check fun _ => strict_ite (fun _ => ?_) fun _ => strict_ite (fun _ => ?_) fun _ => ?_
    · exact strict_ite (fun _ => strict_ok _) fun _ => strict_protocolError _ _
    · exact strict_ite (fun _ => strict_ok _) fun _ => strict_protocolError _ _
    · split
      · split
        · exact strict_ite (fun _ => strict_ok _) fun _ => strict_protocolError _ _
        · exact strict_protocolError _ _
      · exact strict_protocolError _ _
  · exact strict_protocolError _ _

theorem strict_parseEvaluationResult (value : Json) : Strict (parseEvaluationResult value) := by
  refine strict_bind (strict_keysOf _ _ _ _) fun _ _ => strict_check fun _ => ?_
  refine strict_bind (strict_checkTarget _ _) fun _ _ => ?_
  refine strict_bind (strict_optionalWith (fun v => strict_boundedText v _ _) _) fun _ _ => ?_
  refine strict_bind ?_ fun _ _ => ?_
  · exact strict_check fun _ => strict_check fun _ => strict_check fun _ => strict_ok _
  · exact strict_bind (strict_parseEnum _ _ _ _) fun _ _ => strict_ok _

theorem strict_parsePolicyEvaluation {L : PolicyLibs} (value : Json) :
    Strict (parsePolicyEvaluation L value) := by
  refine strict_bind (strict_document _ _ _) fun _ _ => ?_
  refine strict_bind (strict_keysOf _ _ _ _) fun _ _ => ?_
  split
  · refine strict_ite (fun _ => ?_) fun _ => strict_protocolError _ _
    exact strict_bind (strict_parseEvaluationResult _) fun _ _ => strict_ok _
  · exact strict_protocolError _ _

theorem strict_parseCheckItem {L : PolicyLibs} (action : Str) (rawItem : Json) :
    Strict (parseCheckItem L action rawItem) := by
  refine strict_check fun _ => ?_
  refine strict_bind (strict_requireStr _ _) fun _ _ => ?_
  refine strict_bind (strict_parseEnum _ _ _ _) fun decision _ => ?_
  refine strict_bind (strict_requireStr _ _) fun _ _ => ?_
  refine strict_bind (strict_parseReceiptEnvelope _ _) fun _ _ => ?_
  refine strict_bind (strict_optionalWith strict_parseBudgetInfo _) fun _ _ => ?_
  refine strict_bind (strict_optionalWith strict_parseEscalationInfo _) fun _ _ => ?_
  refine strict_bind (strict_optionalWith strict_parsePolicyEvaluation _) fun _ _ => ?_
  cases decision with
  | allow => exact strict_ok _
  | deny => exact strict_ok _
  | confirm =>
      iterate 3 refine strict_bind (strict_requireStr _ _) fun _ _ => ?_
      exact strict_bind (strict_optionalConfirmationId _) fun _ _ => strict_ok _
  | escalate =>
      refine strict_bind (strict_requireStr _ _) fun _ _ => ?_
      refine strict_bind (strict_optionalStr _ _) fun _ _ => ?_
      exact strict_bind (strict_optionalStr _ _) fun _ _ => strict_ok _

theorem strict_parseCheckResponse {L : PolicyLibs} (raw id : Json) (actions : List Str) :
    Strict (parseCheckResponse L raw id actions) := by
  refine strict_bind (strict_requireDict _ _) fun _ _ => ?_
  refine strict_bind (strict_requireStr _ _) fun _ _ => strict_check fun _ => ?_
  refine strict_bind (strict_requireDict _ _) fun _ _ => strict_check fun _ => ?_
  refine strict_bind (strict_mapM (fun m => strict_map (strict_parseCheckItem _ _) _) _) fun _ _ => ?_
  refine strict_bind (strict_requireStr _ _) fun _ _ => strict_check fun _ => ?_
  iterate 3 refine strict_bind (strict_optionalStr _ _) fun _ _ => ?_
  exact strict_ok _

theorem strict_resolvedAuthorization (raw : Json) : Strict (resolvedAuthorization raw) := by
  refine strict_bind (strict_requireDict _ _) fun _ _ => ?_
  exact strict_bind (strict_requireStr _ _) fun _ _ => strict_check fun _ => strict_ok _

/-- What a deny passes on. -/
def ActionCheckResult.supersededBy : ActionCheckResult → Json
  | deny _ supersededBy => supersededBy
  | _ => .null

/-- The fields have the types of the result of a check. -/
structure ActionCheckResult.Typed (L : Libs) (r : ActionCheckResult) : Prop where
  receipt : ∀ e, r.base.receipt = some e → e.Sound L
  evaluated : ∀ p, r.base.policyEval = some p → p.result.evaluatedFields.isObj = true
  supersededBy : textOrNull r.supersededBy

/-- The fields have the types of `CheckResponse`. -/
def CheckResponse.Typed (L : Libs) (r : CheckResponse) : Prop :=
  (∃ s, r.authorizationId = .str s) ∧ ∀ m ∈ r.results, m.2.Typed L

/-- The member that is passed on has its type, wherever there is a deny. -/
def FitsCheck (raw : Json) : Prop :=
  ∀ m ∈ (raw.get "results").members, m.2.get "decision" = .str (lit "deny") →
    textOrNull (m.2.get "superseded_by")

theorem evaluated_isObj {L : PolicyLibs} {value : Json} {p : PolicyEvalInfo}
    (h : parsePolicyEvaluation L value = .ok p) : p.result.evaluatedFields.isObj = true := by
  rcases bind_eq_ok.mp h with ⟨_, _, h⟩
  rcases bind_eq_ok.mp h with ⟨raw, _, h⟩
  split at h
  · split at h
    · rcases bind_eq_ok.mp h with ⟨result, hresult, h⟩
      cases h
      rcases bind_eq_ok.mp hresult with ⟨fields, _, hresult⟩
      rcases of_ite_error hresult with ⟨_, hresult⟩
      rcases bind_eq_ok.mp hresult with ⟨_, _, hresult⟩
      rcases bind_eq_ok.mp hresult with ⟨matched, _, hresult⟩
      rcases bind_eq_ok.mp hresult with ⟨_, hchecked, hresult⟩
      rcases bind_eq_ok.mp hresult with ⟨_, _, hresult⟩
      cases hresult
      exact Bool.not_eq_false _ ▸ (of_ite_error hchecked).1
    · cases h
  · cases h

/-- A result is typed exactly when what it passes on is. -/
theorem typed_parseCheckItem {L : PolicyLibs} {action : Str} {rawItem : Json} {r : ActionCheckResult}
    (h : parseCheckItem L action rawItem = .ok r) : r.Typed L.toLibs ↔
      (rawItem.get "decision" = .str (lit "deny") → textOrNull (rawItem.get "superseded_by")) := by
  rcases of_ite_error h with ⟨_, h⟩
  rcases bind_eq_ok.mp h with ⟨text, htext, h⟩
  rcases bind_eq_ok.mp h with ⟨decision, hdecision, h⟩
  rcases bind_eq_ok.mp h with ⟨reason, _, h⟩
  rcases bind_eq_ok.mp h with ⟨receipt, hreceipt, h⟩
  rcases bind_eq_ok.mp h with ⟨budget, _, h⟩
  rcases bind_eq_ok.mp h with ⟨escalation, _, h⟩
  rcases bind_eq_ok.mp h with ⟨policyEval, hpolicy, h⟩
  have hbase : ∀ b : CheckBase, b.receipt = some receipt → b.policyEval = policyEval →
      (∀ e, b.receipt = some e → e.Sound L.toLibs) ∧
        ∀ p, b.policyEval = some p → p.result.evaluatedFields.isObj = true := by
    intro b hb hp
    refine ⟨?_, ?_⟩
    · intro e he
      rw [hb, Option.some.injEq] at he
      rw [← he]
      exact sound_envelope hreceipt
    · intro p he
      rw [hp] at he
      rw [he] at hpolicy
      exact evaluated_isObj (optionalWith_eq_ok hpolicy)
  rw [requireStr_eq_ok.mp htext, ← parseEnum_eq_ok hdecision]
  have hnull : textOrNull .null := ⟨none, rfl⟩
  have hother : decision ≠ .deny → (Json.str decision.text = .str (lit "deny") →
      textOrNull (rawItem.get "superseded_by")) := by
    intro hne heq
    rw [Json.str.injEq] at heq
    cases decision with
    | deny => exact absurd rfl hne
    | allow => exact absurd (lit_inj.mp heq) (by decide)
    | confirm => exact absurd (lit_inj.mp heq) (by decide)
    | escalate => exact absurd (lit_inj.mp heq) (by decide)
  cases decision with
  | allow =>
      cases h
      exact iff_of_true ⟨(hbase _ rfl rfl).1, (hbase _ rfl rfl).2, hnull⟩ (hother (by decide))
  | deny =>
      cases h
      exact ⟨fun ht _ => ht.supersededBy, fun hs => ⟨(hbase _ rfl rfl).1, (hbase _ rfl rfl).2, hs rfl⟩⟩
  | confirm =>
      iterate 4 rcases bind_eq_ok.mp h with ⟨_, _, h⟩
      cases h
      exact iff_of_true ⟨(hbase _ rfl rfl).1, (hbase _ rfl rfl).2, hnull⟩ (hother (by decide))
  | escalate =>
      iterate 3 rcases bind_eq_ok.mp h with ⟨_, _, h⟩
      cases h
      exact iff_of_true ⟨(hbase _ rfl rfl).1, (hbase _ rfl rfl).2, hnull⟩ (hother (by decide))

/-- Every item is parsed when all are. -/
theorem forall_of_mapM {A B : Type} {f : A → Except Exc B} {xs : List A} {ys : List B}
    (h : xs.mapM f = .ok ys) : ∀ x ∈ xs, ∃ y ∈ ys, f x = .ok y := by
  induction xs generalizing ys with
  | nil =>
      intro x hx
      exact absurd hx List.not_mem_nil
  | cons a xs ih =>
      rw [List.mapM_cons] at h
      rcases bind_eq_ok.mp h with ⟨z, hz, h⟩
      rcases bind_eq_ok.mp h with ⟨zs, hzs, h⟩
      cases h
      intro x hx
      rcases List.mem_cons.mp hx with rfl | hx
      · exact ⟨z, List.mem_cons_self, hz⟩
      · rcases ih hzs x hx with ⟨y, hy, hf⟩
        exact ⟨y, List.mem_cons_of_mem _ hy, hf⟩

theorem typed_parseCheckResponse {L : PolicyLibs} {raw id : Json} {actions : List Str}
    {r : CheckResponse} (h : parseCheckResponse L raw id actions = .ok r) :
    r.Typed L.toLibs ↔ FitsCheck raw := by
  rcases bind_eq_ok.mp h with ⟨body, hbody, hk⟩
  clear h
  rcases requireDict_eq_ok.mp hbody with ⟨_, rfl⟩
  rcases bind_eq_ok.mp hk with ⟨authorizationId, _, hk⟩
  rcases of_ite_error hk with ⟨_, hk⟩
  rcases bind_eq_ok.mp hk with ⟨items, hitems, hk⟩
  rcases of_ite_error hk with ⟨_, hk⟩
  rcases bind_eq_ok.mp hk with ⟨results, hresults, hk⟩
  rw [(requireDict_eq_ok.mp hitems).2] at hresults
  rcases bind_eq_ok.mp hk with ⟨version, _, hk⟩
  rcases of_ite_error hk with ⟨_, hk⟩
  iterate 3 rcases bind_eq_ok.mp hk with ⟨_, _, hk⟩
  cases hk
  constructor
  · intro ht m hm
    rcases forall_of_mapM hresults m hm with ⟨y, hy, hf⟩
    rcases map_eq_ok.mp hf with ⟨result, hresult, rfl⟩
    exact (typed_parseCheckItem hresult).mp (ht.2 _ hy)
  · intro hfits
    refine ⟨⟨authorizationId, rfl⟩, ?_⟩
    intro y hy
    rcases mem_of_mapM hresults hy with ⟨m, hm, hf⟩
    rcases map_eq_ok.mp hf with ⟨result, hresult, rfl⟩
    exact (typed_parseCheckItem hresult).mpr (hfits m hm)

/-! ### Acknowledgments, budgets and authorizations -/

theorem strictBut_parseAcknowledgment (raw : Json) :
    StrictBut (EvidenceEscapes (raw.get "evidence")) (parseAcknowledgment L raw) := by
  refine strictBut_bind (strict_requireDict _ _).but fun body hbody => ?_
  rcases requireDict_eq_ok.mp hbody with ⟨_, rfl⟩
  refine strictBut_bind (strict_requireDict _ _).but fun _ _ => ?_
  refine strictBut_bind (strict_requireStr _ _).but fun _ _ => strictBut_check fun _ => ?_
  iterate 6 refine strictBut_bind (strict_requireStr _ _).but fun _ _ => ?_
  refine strictBut_bind (strict_optionalWith (fun v => strict_requireDict v _) _).but fun _ _ => ?_
  exact strictBut_bind (strictBut_parseOutcomeEvidence _) fun _ _ => (strict_ok _).but

/-- The fields have the types of `ReceiptAcknowledgmentResponse`. -/
def ReceiptAcknowledgment.Typed (L : Libs) (r : ReceiptAcknowledgment) : Prop :=
  (∀ v, r.caller.agentIdentity = some v → v.isObj = true) ∧ r.evidence.Sound L

theorem typed_parseAcknowledgment {raw : Json} {r : ReceiptAcknowledgment}
    (h : parseAcknowledgment L raw = .ok r) : r.Typed L := by
  rcases bind_eq_ok.mp h with ⟨body, _, h⟩
  rcases bind_eq_ok.mp h with ⟨caller, _, h⟩
  rcases bind_eq_ok.mp h with ⟨kind, _, h⟩
  rcases of_ite_error h with ⟨_, h⟩
  iterate 6 rcases bind_eq_ok.mp h with ⟨_, _, h⟩
  rcases bind_eq_ok.mp h with ⟨identity, hidentity, h⟩
  rcases bind_eq_ok.mp h with ⟨evidence, hevidence, h⟩
  cases h
  refine ⟨?_, sound_evidence hevidence⟩
  intro v hv
  have hv : identity = some v := hv
  rw [hv] at hidentity
  rcases requireDict_eq_ok.mp (optionalWith_eq_ok hidentity) with ⟨hobj, rfl⟩
  exact hobj

/-- The envelope of a receipt that is still to be signed. -/
def ReceiptEnvelope.Pending (e : ReceiptEnvelope) : Prop :=
  ∃ receiptId readyAtEstimate url, e = .pending receiptId readyAtEstimate url

theorem pending_parsePendingEnvelope {raw : Json} {e : ReceiptEnvelope}
    (h : parsePendingEnvelope raw = .ok e) : e.Pending := by
  rcases bind_eq_ok.mp h with ⟨_, _, h⟩
  rcases of_ite_error h with ⟨_, h⟩
  rcases bind_eq_ok.mp h with ⟨receiptId, _, h⟩
  rcases bind_eq_ok.mp h with ⟨ready, _, h⟩
  rcases bind_eq_ok.mp h with ⟨url, _, h⟩
  cases h
  exact ⟨receiptId, ready, url, rfl⟩

theorem sound_parseSettlement {raw : Json} {r : BudgetSettlement}
    (h : parseSettlement L raw = .ok r) : r.receipt.Sound L := by
  rcases bind_eq_ok.mp h with ⟨_, _, h⟩
  iterate 7 rcases bind_eq_ok.mp h with ⟨_, _, h⟩
  rcases bind_eq_ok.mp h with ⟨receipt, hreceipt, h⟩
  cases h
  exact sound_envelope hreceipt

theorem strict_requireStrList (raw : Json) (key : String) : Strict (requireStrList raw key) := by
  unfold requireStrList
  split
  · refine strict_mapM (fun item => ?_) _
    cases item with
    | str s => exact strict_ok _
    | _ => exact strict_protocolError _ _
  · exact strict_protocolError _ _

/-- What a body that is read as an object raises when it is none. -/
def ObjectEscapes (raw : Json) (x : Exc) : Prop := x = .attribute ∧ raw.isObj = false

theorem strictBut_revokeReply (raw : Json) : StrictBut (ObjectEscapes raw) (revokeReply raw) := by
  unfold revokeReply
  by_cases hobj : raw.isObj = false
  · rw [if_pos hobj]
    exact strictBut_error ⟨rfl, hobj⟩
  · rw [if_neg hobj]
    refine Strict.but ?_
    refine strict_bind (strict_requireStr _ _) fun _ _ => ?_
    refine strict_bind (strict_requireStr _ _) fun _ _ => ?_
    refine strict_bind (strict_parsePendingEnvelope _) fun _ _ => ?_
    exact strict_bind (strict_requireStrList _ _) fun _ _ => strict_ok _

theorem pending_revokeReply {raw : Json} {r : AuthorizationRevocation} (h : revokeReply raw = .ok r) :
    r.receipt.Pending := by
  rcases of_ite_error h with ⟨_, h⟩
  iterate 2 rcases bind_eq_ok.mp h with ⟨_, _, h⟩
  rcases bind_eq_ok.mp h with ⟨receipt, hreceipt, h⟩
  rcases bind_eq_ok.mp h with ⟨_, _, h⟩
  cases h
  exact pending_parsePendingEnvelope hreceipt

/-! ### Confirmations and escalations -/

/-- The receipt, if there is one, is still to be signed. -/
def PendingIfAny (e : Option ReceiptEnvelope) : Prop := ∀ receipt, e = some receipt → receipt.Pending

theorem pendingIfAny_of_ok {value : Json} {e : Option ReceiptEnvelope}
    (h : optionalWith parsePendingEnvelope value = .ok e) : PendingIfAny e := by
  intro receipt he
  rw [he] at h
  exact pending_parsePendingEnvelope (optionalWith_eq_ok h)

theorem strict_requireNull (raw : Json) (key : String) : Strict (requireNull raw key) :=
  strict_check fun _ => strict_ok _

theorem strictBut_approveReply (raw : Json) :
    StrictBut (ObjectEscapes raw) (approveReply raw) := by
  unfold approveReply
  by_cases hobj : raw.isObj = false
  · rw [if_pos hobj]
    exact strictBut_error ⟨rfl, hobj⟩
  · rw [if_neg hobj]
    refine Strict.but (strict_bind (strict_requireStr _ _) fun decision _ => strict_check fun _ => ?_)
    refine strict_ite (fun _ => ?_) fun _ => ?_
    · refine strict_bind (strict_requireStr _ _) fun _ _ => ?_
      refine strict_bind (strict_requireStr _ _) fun _ _ => ?_
      refine strict_bind (strict_optionalWith strict_parsePendingEnvelope _) fun _ _ => ?_
      exact strict_ok _
    · refine strict_bind (strict_requireNull _ _) fun _ _ => ?_
      refine strict_bind (strict_requireNull _ _) fun _ _ => ?_
      refine strict_bind (strict_optionalWith strict_parsePendingEnvelope _) fun _ _ => ?_
      exact strict_ok _

theorem pending_approveReply {raw : Json} {r : ConfirmationApproval} (h : approveReply raw = .ok r) :
    PendingIfAny r.receipt := by
  rcases of_ite_error h with ⟨_, h⟩
  rcases bind_eq_ok.mp h with ⟨decision, _, h⟩
  rcases of_ite_error h with ⟨_, h⟩
  split at h
  · iterate 2 rcases bind_eq_ok.mp h with ⟨_, _, h⟩
    rcases bind_eq_ok.mp h with ⟨receipt, hreceipt, h⟩
    cases h
    exact pendingIfAny_of_ok hreceipt
  · iterate 2 rcases bind_eq_ok.mp h with ⟨_, _, h⟩
    rcases bind_eq_ok.mp h with ⟨receipt, hreceipt, h⟩
    cases h
    exact pendingIfAny_of_ok hreceipt

/-- The authority of a confirmation has no state in which it is consumed. -/
theorem typed_parseConfirmationStatus {id : Str} {raw : Json} {s : ConfirmationStatus}
    (h : parseConfirmationStatus L id raw = .ok s) : s.authorityStatus ≠ .consumed := by
  rcases bind_eq_ok.mp h with ⟨_, _, h⟩
  rcases bind_eq_ok.mp h with ⟨_, _, h⟩
  rcases of_ite_error h with ⟨_, h⟩
  rcases bind_eq_ok.mp h with ⟨_, _, h⟩
  rcases bind_eq_ok.mp h with ⟨_, _, h⟩
  rcases bind_eq_ok.mp h with ⟨authority, hauthority, h⟩
  iterate 2 rcases bind_eq_ok.mp h with ⟨_, _, h⟩
  rcases of_ite_error h with ⟨_, h⟩
  rcases of_ite_error h with ⟨_, h⟩
  cases h
  unfold parseEnum at hauthority
  split at hauthority
  · next a ha =>
      cases hauthority
      intro hconsumed
      have hconsumed : authority = .consumed := hconsumed
      have hmem := List.mem_of_find?_eq_some ha
      rw [hconsumed] at hmem
      exact absurd hmem (by decide)
  · cases hauthority

/-- What the resolution of an escalation raises. -/
def ResolutionEscapes (raw : Json) (x : Exc) : Prop :=
  ObjectEscapes raw x ∨ x = .key ∧ raw.has "escalation_id" = false

theorem strictBut_resolveReply (raw : Json) :
    StrictBut (ResolutionEscapes raw) (resolveReply raw) := by
  unfold resolveReply
  by_cases hobj : raw.isObj = false
  · rw [if_pos hobj]
    exact strictBut_error (Or.inl ⟨rfl, hobj⟩)
  · rw [if_neg hobj]
    refine strictBut_bind (strict_requireStr _ _).but fun status _ => strictBut_check fun _ => ?_
    by_cases hid : raw.has "escalation_id" = false
    · rw [if_pos hid]
      exact strictBut_error (Or.inr ⟨rfl, hid⟩)
    · rw [if_neg hid]
      refine Strict.but ?_
      refine strict_bind (strict_optionalWith strict_parsePendingEnvelope _) fun _ _ => ?_
      exact strict_ok _

/-- The fields have the types of `EscalationResolveResponse`. -/
structure EscalationResolution.Typed (r : EscalationResolution) : Prop where
  escalationId : ∃ s, r.escalationId = .str s
  resolvedBy : textOrNull r.resolvedBy
  resolvedAt : textOrNull r.resolvedAt
  receipt : PendingIfAny r.receipt

/-- The members of a resolution that are passed on have their types. -/
def FitsResolution (raw : Json) : Prop :=
  (∃ s, raw.get "escalation_id" = .str s) ∧ textOrNull (raw.get "resolved_by") ∧
    textOrNull (raw.get "resolved_at")

theorem typed_resolveReply {raw : Json} {r : EscalationResolution} (h : resolveReply raw = .ok r) :
    r.Typed ↔ FitsResolution raw := by
  rcases of_ite_error h with ⟨_, h⟩
  rcases bind_eq_ok.mp h with ⟨status, _, h⟩
  rcases of_ite_error h with ⟨_, h⟩
  rcases of_ite_error h with ⟨_, h⟩
  rcases bind_eq_ok.mp h with ⟨receipt, hreceipt, h⟩
  cases h
  constructor
  · intro ht
    exact ⟨ht.escalationId, ht.resolvedBy, ht.resolvedAt⟩
  · rintro ⟨hid, hby, hat⟩
    exact ⟨hid, hby, hat, pendingIfAny_of_ok hreceipt⟩

/-! ### The contract -/

/-- The methods that return a parsed body, with what they were asked for. -/
inductive Inquiry where
  | check (authorizationId : Json) (actions : List Str)
  | checkByAgent (actions : List Str)
  | getExecution (operationId : Str)
  | prepareExecution (r : Requested)
  | continueExecution (operationId : Str) (r : Requested)
  | reportExecutionOutcome (operationId : Str) (approvalSha256 : Json)
  | acknowledgeReceipt (receiptId : Str)
  | getReceiptAcknowledgment (receiptId acknowledgmentId : Str)
  | settleBudget
  | revoke
  | approve
  | confirmationGetStatus (confirmationId : Str)
  | escalationGetStatus (escalationId : Str)
  | resolve

namespace Inquiry

/-- What the method returns. -/
def Result : Inquiry → Type
  | check .. => CheckResponse
  | checkByAgent .. => CheckResponse
  | getExecution .. => ExecutionResponse
  | prepareExecution .. => ExecutionResponse
  | continueExecution .. => ExecutionResponse
  | reportExecutionOutcome .. => ExecutionResponse
  | acknowledgeReceipt .. => ReceiptAcknowledgment
  | getReceiptAcknowledgment .. => ReceiptAcknowledgment
  | settleBudget => BudgetSettlement
  | revoke => AuthorizationRevocation
  | approve => ConfirmationApproval
  | confirmationGetStatus .. => ConfirmationStatus
  | escalationGetStatus .. => EscalationStatus
  | resolve => EscalationResolution

/-- What the method makes of a body. -/
def reply (L : PolicyLibs) (raw : Json) : (m : Inquiry) → Except Exc m.Result
  | check authorizationId actions => parseCheckResponse L raw authorizationId actions
  | checkByAgent actions => do
    let authorizationId ← resolvedAuthorization raw
    parseCheckResponse L raw (.str authorizationId) actions
  | getExecution operationId => executionReply L.toLibs operationId raw
  | prepareExecution r => prepareReply L.toLibs r raw
  | continueExecution operationId r => continuationReply L.toLibs operationId r raw
  | reportExecutionOutcome operationId approvalSha256 =>
    outcomeReply L.toLibs operationId approvalSha256 raw
  | acknowledgeReceipt receiptId => acknowledgeReply L.toLibs receiptId raw
  | getReceiptAcknowledgment receiptId acknowledgmentId =>
    acknowledgmentReply L.toLibs receiptId acknowledgmentId raw
  | settleBudget => parseSettlement L.toLibs raw
  | revoke => revokeReply raw
  | approve => approveReply raw
  | confirmationGetStatus confirmationId => parseConfirmationStatus L.toLibs confirmationId raw
  | escalationGetStatus escalationId => parseEscalationStatus L.toLibs escalationId raw
  | resolve => resolveReply raw

/-- Every field of what is returned has the type it is declared with. Where nothing is said,
    the types of the fields say it. -/
def Typed (L : PolicyLibs) : (m : Inquiry) → m.Result → Prop
  | check .. => CheckResponse.Typed L.toLibs
  | checkByAgent .. => CheckResponse.Typed L.toLibs
  | getExecution .. => ExecutionResponse.Typed L.toLibs
  | prepareExecution .. => ExecutionResponse.Typed L.toLibs
  | continueExecution .. => ExecutionResponse.Typed L.toLibs
  | reportExecutionOutcome .. => ExecutionResponse.Typed L.toLibs
  | acknowledgeReceipt .. => ReceiptAcknowledgment.Typed L.toLibs
  | getReceiptAcknowledgment .. => ReceiptAcknowledgment.Typed L.toLibs
  | settleBudget => fun r => r.receipt.Sound L.toLibs
  | revoke => fun r => r.receipt.Pending
  | approve => fun r => PendingIfAny r.receipt
  | confirmationGetStatus .. => fun s => s.authorityStatus ≠ .consumed
  | escalationGetStatus .. => fun _ => True
  | resolve => EscalationResolution.Typed

/-- The members of the body that the method passes on without a look have their types. -/
def Fits (raw : Json) : Inquiry → Prop
  | check .. => FitsCheck raw
  | checkByAgent .. => FitsCheck raw
  | getExecution .. => FitsExecution raw
  | prepareExecution .. => FitsExecution raw
  | continueExecution .. => FitsExecution raw
  | reportExecutionOutcome .. => FitsExecution raw
  | resolve => FitsResolution raw
  | _ => True

/-- The errors that the method can raise besides protocol errors. -/
def Escapes (raw : Json) : Inquiry → Exc → Prop
  | getExecution .. => EvidenceEscapes (raw.get "outcome_evidence")
  | prepareExecution .. => EvidenceEscapes (raw.get "outcome_evidence")
  | continueExecution .. => EvidenceEscapes (raw.get "outcome_evidence")
  | reportExecutionOutcome .. => EvidenceEscapes (raw.get "outcome_evidence")
  | acknowledgeReceipt .. => EvidenceEscapes (raw.get "evidence")
  | getReceiptAcknowledgment .. => EvidenceEscapes (raw.get "evidence")
  | revoke => ObjectEscapes raw
  | approve => ObjectEscapes raw
  | resolve => ResolutionEscapes raw
  | _ => fun _ => False

end Inquiry

/-- What is returned after a comparison was parsed. -/
theorem guarded_ok {A : Type} {p : Except Exc A} {check : A → Except Exc A} {a : A}
    (h : (p >>= check) = .ok a) (hc : ∀ b c, check b = .ok c → c = b) : p = .ok a := by
  rcases bind_eq_ok.mp h with ⟨b, hb, hcheck⟩
  rw [hc b a hcheck]
  exact hb

theorem eq_of_refused {A : Type} {c : Prop} [Decidable c] {x : Exc} {a b : A}
    (h : (if c then .error x else pure a : Except Exc A) = .ok b) : b = a := by
  rcases of_ite_error h with ⟨_, h⟩
  cases h
  rfl

theorem eq_of_granted {A : Type} {c : Prop} [Decidable c] {x : Exc} {a b : A}
    (h : (if c then pure a else .error x : Except Exc A) = .ok b) : b = a := by
  by_cases hc : c
  · rw [if_pos hc] at h
    cases h
    rfl
  · rw [if_neg hc] at h
    cases h

theorem strictBut_refuse {A : Type} {E : Exc → Prop} {c : Prop} [Decidable c] {t : String}
    {shown : Option Str} {y : Except Exc A} (hy : c → StrictBut E y) :
    StrictBut E (if c then y else protocolError t shown) := by
  by_cases hc : c
  · rw [if_pos hc]
    exact hy hc
  · rw [if_neg hc]
    exact (strict_protocolError t shown).but

/-- What is returned has the declared types exactly when the members that are passed on do. -/
theorem reply_typed {L : PolicyLibs} {m : Inquiry} {raw : Json} {r : m.Result}
    (h : m.reply L raw = .ok r) : m.Typed L r ↔ m.Fits raw := by
  cases m with
  | check authorizationId actions => exact typed_parseCheckResponse h
  | checkByAgent actions =>
      rcases bind_eq_ok.mp h with ⟨authorizationId, _, h⟩
      exact typed_parseCheckResponse h
  | getExecution operationId =>
      exact typed_parseExecutionResponse (guarded_ok h fun _ _ => eq_of_refused)
  | prepareExecution q => exact typed_parseExecutionResponse (guarded_ok h fun _ _ => eq_of_granted)
  | continueExecution operationId q =>
      exact typed_parseExecutionResponse (guarded_ok h fun _ _ => eq_of_granted)
  | reportExecutionOutcome operationId approvalSha256 =>
      exact typed_parseExecutionResponse (guarded_ok h fun _ _ => eq_of_granted)
  | acknowledgeReceipt receiptId =>
      exact iff_of_true (typed_parseAcknowledgment (guarded_ok h fun _ _ => eq_of_refused)) trivial
  | getReceiptAcknowledgment receiptId acknowledgmentId =>
      exact iff_of_true (typed_parseAcknowledgment (guarded_ok h fun _ _ => eq_of_refused)) trivial
  | settleBudget => exact iff_of_true (sound_parseSettlement h) trivial
  | revoke => exact iff_of_true (pending_revokeReply h) trivial
  | approve => exact iff_of_true (pending_approveReply h) trivial
  | confirmationGetStatus confirmationId =>
      exact iff_of_true (typed_parseConfirmationStatus h) trivial
  | escalationGetStatus escalationId => exact Iff.rfl
  | resolve => exact typed_resolveReply h

/-- What is raised is a protocol error, or one of those that escape. -/
theorem reply_strict (L : PolicyLibs) (m : Inquiry) (raw : Json) :
    StrictBut (m.Escapes raw) (m.reply L raw) := by
  cases m with
  | check authorizationId actions => exact (strict_parseCheckResponse _ _ _).but
  | checkByAgent actions =>
      refine (strict_bind (strict_resolvedAuthorization _) fun _ _ => ?_).but
      exact strict_parseCheckResponse _ _ _
  | getExecution operationId =>
      refine strictBut_bind (strictBut_parseExecutionResponse raw) fun _ _ => ?_
      exact strictBut_check fun _ => (strict_ok _).but
  | prepareExecution q =>
      refine strictBut_bind (strictBut_parseExecutionResponse raw) fun _ _ => ?_
      exact strictBut_refuse fun _ => (strict_ok _).but
  | continueExecution operationId q =>
      refine strictBut_bind (strictBut_parseExecutionResponse raw) fun _ _ => ?_
      exact strictBut_refuse fun _ => (strict_ok _).but
  | reportExecutionOutcome operationId approvalSha256 =>
      refine strictBut_bind (strictBut_parseExecutionResponse raw) fun _ _ => ?_
      exact strictBut_refuse fun _ => (strict_ok _).but
  | acknowledgeReceipt receiptId =>
      refine strictBut_bind (strictBut_parseAcknowledgment raw) fun _ _ => ?_
      exact strictBut_check fun _ => (strict_ok _).but
  | getReceiptAcknowledgment receiptId acknowledgmentId =>
      refine strictBut_bind (strictBut_parseAcknowledgment raw) fun _ _ => ?_
      exact strictBut_check fun _ => (strict_ok _).but
  | settleBudget => exact (strict_parseSettlement raw).but
  | revoke => exact strictBut_revokeReply raw
  | approve => exact strictBut_approveReply raw
  | confirmationGetStatus confirmationId => exact (strict_parseConfirmationStatus _ raw).but
  | escalationGetStatus escalationId => exact (strict_parseEscalationStatus _ raw).but
  | resolve => exact strictBut_resolveReply raw

/-- For every method and every accepted body: what is returned has the declared types exactly
    when the members that are passed on do, and what is raised is `AllowlyProtocolError` but for
    the errors that escape. -/
theorem answers_typed (L : PolicyLibs) (m : Inquiry) (raw : Json) :
    (∀ r, m.reply L raw = .ok r → (m.Typed L r ↔ m.Fits raw)) ∧
      ∀ x, m.reply L raw = .error x → IsProtocolError x ∨ m.Escapes raw x :=
  ⟨fun _ h => reply_typed h, reply_strict L m raw⟩

/-- A body for which the method raises what escapes, for those that have any. -/
def Inquiry.breaking : Inquiry → Option Json
  | check .. => none
  | checkByAgent .. => none
  | settleBudget => none
  | confirmationGetStatus .. => none
  | escalationGetStatus .. => none
  | acknowledgeReceipt .. => some brokenAcknowledgment
  | getReceiptAcknowledgment .. => some brokenAcknowledgment
  | revoke => some .null
  | approve => some .null
  | resolve => some .null
  | _ => some brokenExecution
where
  brokenEvidence : Json := .ofList [("profile", .str (lit "allowly.seal.jcs-sha256.v1")),
    ("evidence_error", .arr [])]
  brokenExecution : Json := .ofList [("operation_id", .str []), ("destination_id", .str []),
    ("action", .str []), ("status", .str (lit "approved")), ("decision", .str (lit "allow")),
    ("outcome_evidence", brokenEvidence)]
  brokenAcknowledgment : Json := .ofList [("caller", .ofList [
      ("kind", .str (lit "workspace_runtime_key")), ("api_key_id", .str [])]),
    ("acknowledgment_id", .str []), ("receipt_id", .str []), ("receipt_sha256", .str []),
    ("client_timestamp", .str []), ("received_at", .str []), ("evidence", brokenEvidence)]

/-- The errors that escape do occur. -/
theorem escapes_reached (L : PolicyLibs) {m : Inquiry} {raw : Json} (h : m.breaking = some raw) :
    ∃ x, m.reply L raw = .error x ∧ m.Escapes raw x ∧ ¬ IsProtocolError x := by
  have htype : ¬ IsProtocolError .type := by
    rintro ⟨text, shown, hx⟩
    cases hx
  have hattribute : ¬ IsProtocolError .attribute := by
    rintro ⟨text, shown, hx⟩
    cases hx
  cases m with
  | getExecution | prepareExecution | continueExecution | reportExecutionOutcome
  | acknowledgeReceipt | getReceiptAcknowledgment =>
      cases h
      exact ⟨.type, rfl, ⟨rfl, rfl⟩, htype⟩
  | revoke | approve =>
      cases h
      exact ⟨.attribute, rfl, ⟨rfl, rfl⟩, hattribute⟩
  | resolve =>
      cases h
      exact ⟨.attribute, rfl, Or.inl ⟨rfl, rfl⟩, hattribute⟩
  | check | checkByAgent | settleBudget | confirmationGetStatus | escalationGetStatus => cases h

/-! ### Approvals -/

/-- What the check of an approval raises besides protocol errors: the approval or the policy
    input has no canonical form, the executable is no object, the request is nothing a `dict`
    can be made of, or a time is not text. -/
def ApprovalEscapes (L : Libs) (approval : Json) (r : Requested) (x : Exc) : Prop :=
  (x = .sealInput ∧ (L.hashSealValue approval = none ∨ L.hashSealValue r.policyInput = none)) ∨
    (x = .attribute ∧ (getOr approval "executable" (.obj [])).isObj = false) ∨
    ((x = .type ∨ IsValueError x) ∧ (getOr approval "request" (.obj [])).isObj = false) ∨
    (x = .attribute ∧ ∃ key ∈ ["issued_at", "expires_at"], approval.has key = true ∧
      (approval.get key).asStr = none)

theorem raises_sealSha (value : Json) :
    Raises (fun x => x = .sealInput ∧ L.hashSealValue value = none) (sealSha L value) := by
  unfold sealSha hashSealValue
  refine raises_map ?_ _
  cases hv : L.hashSealValue value with
  | some d => exact raises_ok _
  | none => exact raises_error ⟨rfl, rfl⟩

theorem raises_valueError {A : Type} (text : String) :
    Raises (fun x => x = .type ∨ IsValueError x) (valueError text : Except Exc A) :=
  raises_error (Or.inr ⟨text, rfl⟩)

theorem raises_dictPairs (items : List Json) :
    Raises (fun x => x = .type ∨ IsValueError x) (dictPairs items) := by
  induction items with
  | nil => exact raises_ok _
  | cons item rest ih =>
      unfold dictPairs
      extract_lets paired
      -- what follows once the item is taken for a pair
      have hpaired : ∀ pair, Raises (fun x => x = .type ∨ IsValueError x) (paired pair) := by
        intro pair
        simp only [paired]
        split
        · exact raises_error (Or.inl rfl)
        · exact raises_error (Or.inl rfl)
        · exact raises_bind ih fun _ _ => raises_ok _
        · exact raises_map ih _
      split
      · exact raises_bind (raises_ok _) fun pair _ => hpaired pair
      · exact raises_bind (raises_ok _) fun pair _ => hpaired pair
      · exact raises_bind (raises_ok _) fun pair _ => hpaired pair
      · exact raises_bind (raises_valueError _) fun pair _ => hpaired pair
      · exact raises_bind (raises_valueError _) fun pair _ => hpaired pair
      · exact raises_bind (raises_valueError _) fun pair _ => hpaired pair
      · exact raises_bind (raises_error (Or.inl rfl)) fun pair _ => hpaired pair

theorem raises_dictOf (value : Json) :
    Raises (fun x => (x = .type ∨ IsValueError x) ∧ value.isObj = false) (dictOf value) := by
  have hother : ∀ (r : Except Exc (Option (List (Str × Json)))), value.isObj = false →
      Raises (fun x => x = .type ∨ IsValueError x) r →
      Raises (fun x => (x = .type ∨ IsValueError x) ∧ value.isObj = false) r :=
    fun r hv h x hx => ⟨h x hx, hv⟩
  cases value with
  | obj ms => exact raises_ok _
  | arr items => exact hother _ rfl (raises_dictPairs items)
  | str s =>
      cases s with
      | nil => exact raises_ok _
      | cons c s => exact hother _ rfl (raises_valueError _)
  | _ => exact hother _ rfl (raises_error (Or.inl rfl))

theorem strictBut_checkApproval (result : ExecutionResponse) (r : Requested) :
    StrictBut (ApprovalEscapes L result.approval r) (checkApproval L result r) := by
  refine strictBut_check fun _ => strictBut_check fun _ => ?_
  refine strictBut_bind ((raises_sealSha _).strictBut ?_) fun digest _ => ?_
  · rintro x ⟨rfl, hhash⟩
    exact Or.inl ⟨rfl, Or.inl hhash⟩
  refine strictBut_check fun _ => strictBut_check fun _ => ?_
  refine strictBut_bind ?_ fun scope _ => strictBut_check fun _ => ?_
  · refine strictBut_bind (r := getAttr _ _) ?_ fun enabled _ => ?_
    · unfold getAttr
      split
      · exact raises_ok _
      · next hobj => exact strictBut_error (Or.inr (Or.inl ⟨rfl, Bool.not_eq_true _ ▸ hobj⟩))
    · split
      · exact raises_ok _
      · split
        · exact raises_ok _
        · refine strictBut_bind ((raises_sealSha _).strictBut ?_) fun _ _ => raises_ok _
          rintro x ⟨rfl, hhash⟩
          exact Or.inl ⟨rfl, Or.inr hhash⟩
  refine strictBut_bind ?_ fun same _ => strictBut_check fun _ => ?_
  · refine strictBut_bind ((raises_dictOf _).strictBut ?_) fun actual _ => ?_
    · intro x hx
      exact Or.inr (Or.inr (Or.inl hx))
    · split
      · exact raises_ok _
      · exact raises_ok _
  exact strictBut_check fun _ => strictBut_check fun _ => raises_ok _

theorem raises_approvalTime (approval : Json) (key : String) :
    Raises (fun x => x = .attribute ∧ approval.has key = true ∧ (approval.get key).asStr = none)
      (approvalTime L approval key) := by
  unfold approvalTime
  by_cases hhas : approval.has key = false
  · rw [if_pos hhas]
    exact raises_ok _
  · rw [if_neg hhas]
    rw [Bool.not_eq_false] at hhas
    cases hv : approval.get key with
    | str s => exact raises_ok _
    | _ => exact raises_error ⟨rfl, hhas, rfl⟩

theorem strictBut_approvalWindow (approval : Json) (r : Requested) :
    StrictBut (ApprovalEscapes L approval r) (approvalWindow L approval) := by
  refine strictBut_bind ((raises_approvalTime _ _).strictBut ?_) fun issued _ => ?_
  · rintro x ⟨hx, htime⟩
    exact Or.inr (Or.inr (Or.inr ⟨hx, "issued_at", List.mem_cons_self, htime⟩))
  · cases issued with
    | none => exact raises_ok _
    | some issued =>
        refine strictBut_bind ((raises_approvalTime _ _).strictBut ?_) fun _ _ => raises_ok _
        rintro x ⟨hx, htime⟩
        exact Or.inr (Or.inr (Or.inr ⟨hx, "expires_at", by decide, htime⟩))

/-- The time now is one at which the approval is in force, and nothing but the clock was read. -/
def ReadInForce (L : Libs) (approval : Json) (t : List ((o : Op) × Except Fault o.Answer)) : Prop :=
  ∃ now window, t = [⟨.now, .ok now⟩] ∧ approvalWindow L approval = .ok (some window) ∧
    inWindow now window = true

theorem traces_live {approval : Json} (r : Requested) {t : List ((o : Op) × Except Fault o.Answer)}
    {u : Except Exc Unit} (h : Prog.Traces (live L approval) t u)
    (hclock : ∀ e ∈ t, ∃ a, e.2 = .ok a) :
    (u = .ok () → ReadInForce L approval t) ∧
      ∀ x, u = .error x → IsProtocolError x ∨ ApprovalEscapes L approval r x := by
  rcases Prog.traces_bind.mp h with ⟨z, hz, rfl⟩ | ⟨window, t₁, t₂, hw, hread, ht⟩
  · refine ⟨nofun, ?_⟩
    intro x hx
    cases hx
    exact strictBut_approvalWindow _ r z (Prog.traces_ofExcept.mp hz).2.symm
  rcases Prog.traces_ofExcept.mp hw with ⟨ht₁, hwindow⟩
  rw [ht₁, List.nil_append] at ht
  rw [ht] at hclock ⊢
  cases window with
  | none =>
      rw [hread.2]
      refine ⟨nofun, ?_⟩
      intro x hx
      cases hx
      exact Or.inl ⟨_, _, rfl⟩
  | some window =>
      rcases Prog.traces_bind.mp hread with ⟨z, hz, _⟩ | ⟨now, t₃, t₄, hnow, hend, ht₂⟩
      · rcases Prog.traces_perform.mp hz with ⟨b, hb, hz⟩
        rw [hb] at hclock
        rcases hclock _ List.mem_cons_self with ⟨a, ha⟩
        have ha : b = .ok a := ha
        rw [ha] at hz
        cases hz
      · rcases Prog.traces_perform.mp hnow with ⟨b, ht₃, hb⟩
        have hb : b = .ok now := by
          cases b with
          | ok v =>
              cases hb
              rfl
          | error z => cases hb
        rw [ht₂, ht₃, hb]
        by_cases hin : inWindow now window = true
        · rw [if_pos hin] at hend
          rw [hend.1, hend.2]
          refine ⟨fun _ => ⟨now, window, rfl, hwindow.symm, hin⟩, ?_⟩
          intro x hx
          cases hx
        · rw [if_neg hin] at hend
          rw [hend.2]
          refine ⟨nofun, ?_⟩
          intro x hx
          cases hx
          exact Or.inl ⟨_, _, rfl⟩

/-- However a response was come by: in a run of `_validate_approval` in which the clock can be
    read, the approval of the response is returned, which has passed the checks and is in force,
    or a protocol error or one of those that escape is raised. -/
theorem approval_escapes {result : ExecutionResponse} {r : Requested}
    {t : List ((o : Op) × Except Fault o.Answer)} {s : Except Exc Json}
    (h : Prog.Traces (validateApproval L result r) t s) (hclock : ∀ e ∈ t, ∃ a, e.2 = .ok a) :
    (∀ v, s = .ok v → Approves L result r v ∧ ReadInForce L v t) ∧
      ∀ x, s = .error x → IsProtocolError x ∨ ApprovalEscapes L result.approval r x := by
  -- the check, which performs no operation
  rcases Prog.traces_bind.mp h with ⟨x, hx, rfl⟩ | ⟨approval, t₁, t₂, happroval, hrest, ht⟩
  · refine ⟨nofun, ?_⟩
    intro y hy
    cases hy
    exact strictBut_checkApproval result r x (Prog.traces_ofExcept.mp hx).2.symm
  rcases Prog.traces_ofExcept.mp happroval with ⟨ht₁, hcheck⟩
  have happroves := approves_of_ok hcheck.symm
  rw [ht₁, List.nil_append] at ht
  rw [ht] at hclock ⊢
  -- the times, and the clock
  rcases Prog.traces_bind.mp hrest with ⟨x, hx, rfl⟩ | ⟨u, t₃, t₄, hu, hdone, ht₂⟩
  · refine ⟨nofun, ?_⟩
    intro y hy
    cases hy
    rw [← happroves.own]
    exact (traces_live r hx hclock).2 x rfl
  · rw [hdone.1, List.append_nil] at ht₂
    rw [ht₂] at hclock ⊢
    rw [hdone.2]
    refine ⟨?_, nofun⟩
    intro v hv
    cases hv
    exact ⟨happroves, (traces_live r hu hclock).1 rfl⟩

/-- An approval that is in force is returned. -/
theorem approval_escapes_sample : Prog.Traces (validateApproval sampleLibs
      (sampleResponse (lit "receipt") (lit "a")) (sampleRequested (lit "receipt")))
      [⟨.now, .ok sampleTime⟩] (.ok (sampleApproval (lit "receipt") (lit "a"))) ∧
    Approves sampleLibs (sampleResponse (lit "receipt") (lit "a")) (sampleRequested (lit "receipt"))
      (sampleApproval (lit "receipt") (lit "a")) := by
  have hrun : Prog.Traces (validateApproval sampleLibs
      (sampleResponse (lit "receipt") (lit "a")) (sampleRequested (lit "receipt")))
      [⟨.now, .ok sampleTime⟩] (.ok (sampleApproval (lit "receipt") (lit "a"))) := by
    have hcheck : checkApproval sampleLibs (sampleResponse (lit "receipt") (lit "a"))
        (sampleRequested (lit "receipt")) = .ok (sampleApproval (lit "receipt") (lit "a")) :=
      ok_of_toOption (by decide)
    have hwindow : approvalWindow sampleLibs (sampleApproval (lit "receipt") (lit "a")) =
        .ok (some (⟨true, sampleTime⟩, ⟨true, sampleTime + 3600000000⟩)) := ok_of_toOption (by decide)
    refine Prog.traces_bind.mpr (Or.inr ⟨_, [], _, Prog.traces_ofExcept.mpr ⟨rfl, hcheck.symm⟩, ?_, rfl⟩)
    refine Prog.traces_bind.mpr (Or.inr ⟨(), [⟨.now, .ok sampleTime⟩], [], ?_, ⟨rfl, rfl⟩, rfl⟩)
    refine Prog.traces_bind.mpr (Or.inr ⟨_, [], _, Prog.traces_ofExcept.mpr ⟨rfl, hwindow.symm⟩, ?_, rfl⟩)
    exact ⟨.ok sampleTime, [], rfl, rfl, rfl⟩
  refine ⟨hrun, ((approval_escapes hrun ?_).1 _ rfl).1⟩
  intro e he
  rw [List.mem_singleton] at he
  rw [he]
  exact ⟨sampleTime, rfl⟩

end Allowly

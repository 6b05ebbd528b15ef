import Allowly.Core.Witness
import Allowly.Base.JsonRoundTrip

/-!
# What a Parsed Response Is

Facts about the parsers of `Core.Wire`. `Parsed` says where the parts of a response
come from. A response built from a value without repeated keys is written as a value
without repeated keys, which is what makes a journal readable.

Nothing that is computed asks for recovery. `Plain` is that property of a result, and
goes through a computation step by step.

## Main definitions

* `Recovers`, `Plain`: Whether a result is `ExecutionRecoveryRequired`.
* `Parsed`: The parts of a response.

## Theorems

* `plain_parseExecutionResponse`, `plain_readResponse`: These ask for no recovery.
* `parsed_of_ok`: A response that was accepted is `Parsed`.
* `wellFormed_toJson`: The response as a value has no repeated keys.
-/

namespace Allowly

open Py

/-- The result says that the operation must be reconciled. -/
def Recovers {A : Type} (r : Except Exc A) : Prop := r = .error .recovery

/-- The result is not `ExecutionRecoveryRequired`. -/
def Plain {A : Type} (r : Except Exc A) : Prop := ¬ Recovers r

theorem plain_ok {A : Type} (a : A) : Plain (.ok a : Except Exc A) := fun h => by cases h

theorem plain_error {A : Type} {x : Exc} (h : x.isRecovery = false) :
    Plain (.error x : Except Exc A) := by
  intro hx
  rw [Recovers, Except.error.injEq] at hx
  rw [hx] at h
  cases h

/-- The exception counts, not the type of the result that is missing. -/
theorem Plain.error_of {A B : Type} {x : Exc} (h : Plain (.error x : Except Exc A)) :
    Plain (.error x : Except Exc B) := by
  intro hx
  rw [Recovers, Except.error.injEq] at hx
  exact h (congrArg Except.error hx)

theorem plain_bind {A B : Type} {x : Except Exc A} {f : A → Except Exc B} (h : Plain x)
    (hf : ∀ a, Plain (f a)) : Plain (x >>= f) := by
  cases x with
  | ok a => exact hf a
  | error e => exact h.error_of

theorem bind_eq_ok {A B : Type} {x : Except Exc A} {f : A → Except Exc B} {b : B} :
    (x >>= f) = .ok b ↔ ∃ a, x = .ok a ∧ f a = .ok b := by
  cases x with
  | ok a => simp [bind, Except.bind]
  | error e => simp [bind, Except.bind]

theorem ite_error_eq_ok {A : Type} {c : Prop} [Decidable c] {x : Exc} {y : Except Exc A} {a : A} :
    (if c then .error x else y) = .ok a ↔ ¬ c ∧ y = .ok a := by
  by_cases hc : c
  · simp [hc]
  · simp [hc]

/-! ### No recovery -/

section Plain

theorem plain_protocolError {A : Type} (text : String) (shown : Option Str) :
    Plain (protocolError text shown : Except Exc A) := plain_error rfl

theorem plain_requireDict (value : Json) (name : String) : Plain (requireDict value name) := by
  unfold requireDict
  split
  · exact plain_ok _
  · exact plain_protocolError _ _

theorem plain_requireStr (raw : Json) (key : String) : Plain (requireStr raw key) := by
  unfold requireStr
  split
  · exact plain_ok _
  · exact plain_protocolError _ _

theorem plain_requireInt (raw : Json) (key : String) : Plain (requireInt raw key) := by
  unfold requireInt
  split
  · exact plain_ok _
  · exact plain_protocolError _ _

theorem plain_optionalStr (raw : Json) (key : String) : Plain (optionalStr raw key) := by
  unfold optionalStr
  split
  · exact plain_ok _
  · exact plain_ok _
  · exact plain_protocolError _ _

theorem plain_map {A B : Type} {x : Except Exc A} (h : Plain x) (f : A → B) : Plain (x.map f) := by
  cases x with
  | ok a => exact plain_ok _
  | error e => exact h.error_of

theorem plain_optionalWith {A : Type} {parse : Json → Except Exc A} (h : ∀ v, Plain (parse v))
    (value : Json) : Plain (optionalWith parse value) := by
  unfold optionalWith
  split
  · exact plain_ok _
  · exact plain_map (h value) some

theorem plain_optionalInt (value : Json) (error : String) : Plain (optionalInt value error) := by
  unfold optionalInt
  split
  · exact plain_ok _
  · exact plain_ok _
  · exact plain_protocolError _ _

theorem plain_optionalText (value : Json) (error : String) : Plain (optionalText value error) := by
  unfold optionalText
  split
  · exact plain_ok _
  · exact plain_ok _
  · exact plain_protocolError _ _

theorem plain_parseEnum {A : Type} (all : List A) (text : A → Str) (error : String) (value : Str) :
    Plain (parseEnum all text error value) := by
  unfold parseEnum
  split
  · exact plain_ok _
  · exact plain_protocolError _ _

theorem plain_mapM {A B : Type} {f : A → Except Exc B} (h : ∀ a, Plain (f a)) (xs : List A) :
    Plain (xs.mapM f) := by
  induction xs with
  | nil => exact plain_ok _
  | cons x xs ih =>
      rw [List.mapM_cons]
      refine plain_bind (h x) ?_
      intro b
      refine plain_bind ih ?_
      intro bs
      exact plain_ok _

/-- The parsers are chains of the steps above. -/
theorem plain_parsePendingEnvelope (raw : Json) : Plain (parsePendingEnvelope raw) := by
  refine plain_bind (plain_requireDict _ _) ?_
  intro body
  split
  · exact plain_protocolError _ _
  · refine plain_bind (plain_requireStr _ _) ?_
    intro receiptId
    refine plain_bind (plain_optionalStr _ _) ?_
    intro ready
    refine plain_bind (plain_requireStr _ _) ?_
    intro url
    exact plain_ok _

theorem plain_parseReceiptEnvelope (L : Libs) (raw : Json) :
    Plain (parseReceiptEnvelope L raw) := by
  refine plain_bind (plain_requireDict _ _) ?_
  intro body
  split
  · exact plain_parsePendingEnvelope _
  · split
    · refine plain_bind (plain_requireDict _ _) ?_
      intro receipt
      split
      · exact plain_ok _
      · exact plain_protocolError _ _
    · exact plain_protocolError _ _

theorem plain_parseEscalationInfo (raw : Json) : Plain (parseEscalationInfo raw) := by
  refine plain_bind (plain_requireDict _ _) ?_
  intro body
  refine plain_bind (plain_requireStr _ _) ?_
  intro escalationId
  refine plain_bind (plain_requireStr _ _) ?_
  intro status
  refine plain_bind (plain_optionalStr _ _) ?_
  intro escalationTo
  refine plain_bind (plain_optionalStr _ _) ?_
  intro expiresAt
  exact plain_ok _

theorem plain_parseReview (raw : Json) : Plain (parseReview raw) := by
  refine plain_bind (plain_requireDict _ _) ?_
  intro body
  refine plain_bind (plain_requireStr _ _) ?_
  intro kindText
  split
  · exact plain_protocolError _ _
  · refine plain_bind (plain_requireStr _ _) ?_
    intro id
    refine plain_bind (plain_requireStr _ _) ?_
    intro sourceReceiptId
    refine plain_bind (plain_requireStr _ _) ?_
    intro expiresAt
    split
    · exact plain_protocolError _ _
    · exact plain_ok _

theorem plain_parseHeader (item : Json) : Plain (parseHeader item) := by
  refine plain_bind (plain_requireDict _ _) ?_
  intro header
  refine plain_bind (plain_requireStr _ _) ?_
  intro name
  refine plain_bind (plain_requireStr _ _) ?_
  intro value
  exact plain_ok _

theorem plain_parseEvidenceError (value : Json) : Plain (parseEvidenceError value) := by
  unfold parseEvidenceError
  split
  · exact plain_ok _
  · split
    · exact plain_ok _
    · exact plain_protocolError _ _
  · exact plain_error rfl
  · exact plain_error rfl
  · exact plain_protocolError _ _

theorem plain_parseOutcomeEvidence (L : Libs) (raw : Json) : Plain (parseOutcomeEvidence L raw) := by
  refine plain_bind (plain_requireDict _ _) ?_
  intro body
  refine plain_bind (plain_requireStr _ _) ?_
  intro profile
  split
  · exact plain_protocolError _ _
  · refine plain_bind (plain_parseEvidenceError _) ?_
    intro unavailable
    refine plain_bind (plain_requireDict _ _) ?_
    intro record
    refine plain_bind (plain_requireStr _ _) ?_
    intro recordSha256
    refine plain_bind (plain_optionalWith (plain_parseReceiptEnvelope L) _) ?_
    intro receipt
    exact plain_ok _

theorem plain_parseDownstream (raw : Json) : Plain (parseDownstream raw) := by
  refine plain_bind (plain_requireDict _ _) ?_
  intro body
  refine plain_bind (plain_requireStr _ _) ?_
  intro source
  split
  · exact plain_protocolError _ _
  · refine plain_bind (plain_optionalInt _ _) ?_
    intro httpStatus
    refine plain_bind (plain_optionalText _ _) ?_
    intro fingerprint
    refine plain_bind (plain_requireStr _ _) ?_
    intro scopeText
    refine plain_bind (plain_parseEnum _ _ _ _) ?_
    intro scope
    refine plain_bind (plain_requireDict _ _) ?_
    intro result
    refine plain_bind (plain_requireStr _ _) ?_
    intro completion
    split
    · exact plain_protocolError _ _
    · exact plain_ok _

theorem plain_parseHeaders (value : Json) : Plain (parseHeaders value) := by
  cases value with
  | arr items => exact plain_mapM plain_parseHeader items
  | _ => exact plain_protocolError _ _

theorem plain_parseDescriptor (raw : Json) : Plain (parseDescriptor raw) := by
  refine plain_bind (plain_requireDict _ _) ?_
  intro body
  refine plain_bind (plain_requireStr _ _) ?_
  intro method
  split
  · exact plain_protocolError _ _
  · refine plain_bind (plain_parseHeaders _) ?_
    intro headers
    -- the text members, the size, and the content type
    iterate 8
      refine plain_bind (plain_requireStr _ _) ?_
      intro text
    refine plain_bind (plain_requireInt _ _) ?_
    intro size
    refine plain_bind (plain_optionalStr _ _) ?_
    intro contentType
    exact plain_ok _

theorem plain_waitingValid (L : Libs) (body : Json) (status : ExecutionStatus)
    (decision : Decision) (review : Option ExecutionReview) :
    Plain (waitingValid L body status decision review) := by
  unfold waitingValid
  split
  · exact plain_map (plain_parseReceiptEnvelope L _) _
  · exact plain_ok _

theorem plain_parseExecutionResponse (L : Libs) (raw : Json) :
    Plain (parseExecutionResponse L raw) := by
  refine plain_bind (plain_requireDict _ _) ?_
  intro body
  iterate 4
    refine plain_bind (plain_requireStr _ _) ?_
    intro text
  refine plain_bind (plain_parseEnum _ _ _ _) ?_
  intro status
  refine plain_bind (plain_requireStr _ _) ?_
  intro decisionText
  refine plain_bind (plain_parseEnum _ _ _ _) ?_
  intro decision
  refine plain_bind (plain_optionalWith plain_parseReview _) ?_
  intro review
  refine plain_bind (plain_waitingValid _ _ _ _ _) ?_
  intro waits
  split
  · exact plain_protocolError _ _
  · refine plain_bind (plain_optionalWith plain_parseDownstream _) ?_
    intro downstream
    refine plain_bind (plain_optionalWith (plain_parseOutcomeEvidence L) _) ?_
    intro evidence
    refine plain_bind (plain_requireStr _ _) ?_
    intro profile
    split
    · exact plain_protocolError _ _
    · refine plain_bind (plain_parseDescriptor _) ?_
      intro descriptor
      split
      · exact plain_protocolError _ _
      · iterate 2
          refine plain_bind (plain_requireStr _ _) ?_
          intro text
        refine plain_bind (plain_parseReceiptEnvelope L _) ?_
        intro receipt
        iterate 7
          refine plain_bind (plain_optionalStr _ _) ?_
          intro text
        refine plain_bind (plain_optionalWith plain_parseEscalationInfo _) ?_
        intro escalation
        iterate 6
          refine plain_bind (plain_optionalStr _ _) ?_
          intro text
        exact plain_ok _

theorem plain_readResponse (L : Libs) (sensitive : List Str) (expected : List Nat)
    (resp : ApiResponse) : Plain (readResponse L sensitive expected resp) := by
  unfold readResponse
  split
  · exact plain_error rfl
  · split
    · exact plain_ok _
    · split
      · split
        · exact plain_protocolError _ _
        · exact plain_error rfl
      · split
        · exact plain_ok _
        · exact plain_error rfl

end Plain

/-! ### The parts of a response -/

/-- Where the parts of a response come from. -/
structure Parsed (L : Libs) (raw : Json) (r : ExecutionResponse) : Prop where
  isObj : raw.isObj = true
  review : optionalWith parseReview (raw.get "review") = .ok r.review
  waiting : waitingValid L raw r.status r.decision r.review = .ok true
  downstream : optionalWith parseDownstream (raw.get "downstream") = .ok r.downstream
  outcomeEvidence :
    optionalWith (parseOutcomeEvidence L) (raw.get "outcome_evidence") = .ok r.outcomeEvidence
  decisionReceipt : parseReceiptEnvelope L (raw.get "decision_receipt") = .ok r.decisionReceipt
  confirmNonce : optionalStr raw "confirm_nonce" = .ok r.confirmNonce
  approval : r.approval = raw.get "approval"
  witnessSession : r.witnessSession = raw.get "witness_session"

theorem requireDict_eq_ok {value v : Json} {name : String} :
    requireDict value name = .ok v ↔ value.isObj = true ∧ v = value := by
  unfold requireDict
  split
  · next h => simp [h, eq_comm]
  · next h => simp [h, protocolError]

theorem requireStr_eq_ok {raw : Json} {key : String} {s : Str} :
    requireStr raw key = .ok s ↔ raw.get key = .str s := by
  unfold requireStr
  cases h : raw.get key with
  | str v => simp
  | _ => simp [protocolError]

theorem requireInt_eq_ok {raw : Json} {key : String} {n : Int} :
    requireInt raw key = .ok n ↔ raw.get key = .int n := by
  unfold requireInt
  cases h : raw.get key with
  | int v => simp
  | _ => simp [protocolError]

theorem optionalStr_eq_ok {raw : Json} {key : String} {s : Option Str} :
    optionalStr raw key = .ok s ↔ raw.get key = optionText s := by
  unfold optionalStr optionText
  cases h : raw.get key with
  | null => cases s <;> simp [Json.ofOption]
  | str v => cases s <;> simp [Json.ofOption]
  | _ => cases s <;> simp [Json.ofOption, protocolError]

theorem parseEnum_eq_ok {A : Type} {all : List A} {text : A → Str} {error : String} {value : Str}
    {a : A} (h : parseEnum all text error value = .ok a) : text a = value := by
  unfold parseEnum at h
  split at h
  · next b hb =>
      have ht := List.find?_some hb
      cases h
      exact eq_of_beq ht
  · cases h

/-- What is parsed item by item comes from an item. -/
theorem mem_of_mapM {A B : Type} {f : A → Except Exc B} {xs : List A} {ys : List B} {y : B}
    (h : xs.mapM f = .ok ys) (hy : y ∈ ys) : ∃ x ∈ xs, f x = .ok y := by
  induction xs generalizing ys with
  | nil =>
      cases h
      cases hy
  | cons x xs ih =>
      rw [List.mapM_cons] at h
      rcases bind_eq_ok.mp h with ⟨z, hz, h⟩
      rcases bind_eq_ok.mp h with ⟨zs, hzs, h⟩
      cases h
      rcases List.mem_cons.mp hy with rfl | hy
      · exact ⟨x, List.mem_cons_self, hz⟩
      · rcases ih hzs hy with ⟨x', hx', hf⟩
        exact ⟨x', List.mem_cons_of_mem _ hx', hf⟩

/-- One step of a parser that went on. -/
theorem of_ite_error {A : Type} {c : Prop} [Decidable c] {x : Exc} {y : Except Exc A} {a : A}
    (h : (if c then .error x else y) = .ok a) : ¬ c ∧ y = .ok a := ite_error_eq_ok.mp h

theorem parsed_of_ok {L : Libs} {raw : Json} {r : ExecutionResponse}
    (h : parseExecutionResponse L raw = .ok r) : Parsed L raw r := by
  unfold parseExecutionResponse at h
  rcases bind_eq_ok.mp h with ⟨body, hbody, hk⟩
  clear h
  rcases requireDict_eq_ok.mp hbody with ⟨hobj, rfl⟩
  -- the texts, the status and the decision
  iterate 7 rcases bind_eq_ok.mp hk with ⟨_, _, hk⟩
  rcases bind_eq_ok.mp hk with ⟨review, hreview, hk⟩
  rcases bind_eq_ok.mp hk with ⟨waits, hwaits, hk⟩
  rcases of_ite_error hk with ⟨hwait, hk⟩
  rw [Bool.not_eq_false] at hwait
  rw [hwait] at hwaits
  rcases bind_eq_ok.mp hk with ⟨downstream, hdownstream, hk⟩
  rcases bind_eq_ok.mp hk with ⟨evidence, hevidence, hk⟩
  rcases bind_eq_ok.mp hk with ⟨profile, _, hk⟩
  rcases of_ite_error hk with ⟨_, hk⟩
  rcases bind_eq_ok.mp hk with ⟨descriptor, _, hk⟩
  rcases of_ite_error hk with ⟨_, hk⟩
  iterate 2 rcases bind_eq_ok.mp hk with ⟨_, _, hk⟩
  rcases bind_eq_ok.mp hk with ⟨receipt, hreceipt, hk⟩
  rcases bind_eq_ok.mp hk with ⟨confirmationId, _, hk⟩
  rcases bind_eq_ok.mp hk with ⟨nonce, hnonce, hk⟩
  iterate 12 rcases bind_eq_ok.mp hk with ⟨_, _, hk⟩
  cases hk
  exact ⟨hobj, hreview, hwaits, hdownstream, hevidence, hreceipt, hnonce, rfl, rfl⟩

theorem map_eq_ok {A B : Type} {x : Except Exc A} {f : A → B} {b : B} :
    x.map f = .ok b ↔ ∃ a, x = .ok a ∧ f a = b := by
  cases x with
  | ok a => simp [Except.map]
  | error e => simp [Except.map]

/-- A part that is null or was parsed. -/
theorem optionalWith_eq_ok {A : Type} {parse : Json → Except Exc A} {value : Json} {a : A}
    (h : optionalWith parse value = .ok (some a)) : parse value = .ok a := by
  unfold optionalWith at h
  split at h
  · cases h
  · rcases map_eq_ok.mp h with ⟨b, hb, hab⟩
    rw [Option.some.injEq] at hab
    rw [hb, hab]

/-! ### No repeated keys -/

theorem wellFormed_optionText (s : Option Str) : (optionText s).WellFormed := by
  cases s with
  | none => exact trivial
  | some s => exact trivial

theorem wellFormed_envelope {L : Libs} {raw : Json} {e : ReceiptEnvelope} (hraw : raw.WellFormed)
    (h : parseReceiptEnvelope L raw = .ok e) : e.toJson.WellFormed := by
  cases e with
  | pending receiptId ready url =>
      refine Json.wellFormed_ofList (by simp) ?_
      simp [Json.WellFormed, wellFormed_optionText]
  | signed receipt =>
      have hget : receipt = raw.get "receipt" := by
        unfold parseReceiptEnvelope at h
        rcases bind_eq_ok.mp h with ⟨body, hbody, hk⟩
        clear h
        rcases requireDict_eq_ok.mp hbody with ⟨_, rfl⟩
        split at hk
        · unfold parsePendingEnvelope at hk
          rcases bind_eq_ok.mp hk with ⟨_, _, hk⟩
          rcases of_ite_error hk with ⟨_, hk⟩
          iterate 3 rcases bind_eq_ok.mp hk with ⟨_, _, hk⟩
          cases hk
        · split at hk
          · rcases bind_eq_ok.mp hk with ⟨value, hvalue, hk⟩
            split at hk
            · cases hk
              exact (requireDict_eq_ok.mp hvalue).2
            · cases hk
          · cases hk
      refine Json.wellFormed_ofList (by simp) ?_
      have hr : receipt.WellFormed := hget ▸ Json.wellFormed_get hraw _
      simp [Json.WellFormed, hr]

theorem wellFormed_downstream {raw : Json} {d : ExecutionDownstream} (hraw : raw.WellFormed)
    (h : parseDownstream raw = .ok d) : d.toJson.WellFormed := by
  have hr : d.result.WellFormed := by
    unfold parseDownstream at h
    rcases bind_eq_ok.mp h with ⟨body, hbody, hk⟩
    clear h
    rcases requireDict_eq_ok.mp hbody with ⟨_, rfl⟩
    rcases bind_eq_ok.mp hk with ⟨_, _, hk⟩
    rcases of_ite_error hk with ⟨_, hk⟩
    iterate 4 rcases bind_eq_ok.mp hk with ⟨_, _, hk⟩
    rcases bind_eq_ok.mp hk with ⟨result, hresult, hk⟩
    rcases bind_eq_ok.mp hk with ⟨_, _, hk⟩
    rcases of_ite_error hk with ⟨_, hk⟩
    cases hk
    rw [(requireDict_eq_ok.mp hresult).2]
    exact Json.wellFormed_get hraw _
  refine Json.wellFormed_ofList (by simp) ?_
  have hstatus : (Json.ofOption (d.httpStatus.map .int)).WellFormed := by
    cases d.httpStatus with
    | none => exact trivial
    | some n => exact trivial
  simp [Json.WellFormed, wellFormed_optionText, hr, hstatus]

theorem wellFormed_evidence {L : Libs} {raw : Json} {e : OutcomeEvidence} (hraw : raw.WellFormed)
    (h : parseOutcomeEvidence L raw = .ok e) : e.toJson.WellFormed := by
  unfold parseOutcomeEvidence at h
  rcases bind_eq_ok.mp h with ⟨body, hbody, hk⟩
  clear h
  rcases requireDict_eq_ok.mp hbody with ⟨_, rfl⟩
  rcases bind_eq_ok.mp hk with ⟨_, _, hk⟩
  rcases of_ite_error hk with ⟨_, hk⟩
  rcases bind_eq_ok.mp hk with ⟨unavailable, _, hk⟩
  rcases bind_eq_ok.mp hk with ⟨record, hrecord, hk⟩
  rcases bind_eq_ok.mp hk with ⟨_, _, hk⟩
  rcases bind_eq_ok.mp hk with ⟨receipt, hreceipt, hk⟩
  cases hk
  have hr : record.WellFormed := (requireDict_eq_ok.mp hrecord).2 ▸ Json.wellFormed_get hraw _
  have he : (Json.ofOption (receipt.map ReceiptEnvelope.toJson)).WellFormed := by
    cases receipt with
    | none => exact trivial
    | some e => exact wellFormed_envelope (Json.wellFormed_get hraw _) (optionalWith_eq_ok hreceipt)
  refine Json.wellFormed_ofList (by simp) ?_
  cases unavailable with
  | true => simp [Json.WellFormed, hr, he]
  | false => simp [Json.WellFormed, hr, he]

theorem wellFormed_headers (hs : List (Str × Str)) :
    Json.WellFormedItems (hs.map headerJson) := by
  induction hs with
  | nil => exact trivial
  | cons h hs ih =>
      refine ⟨Json.wellFormed_ofList (by simp) ?_, ih⟩
      simp [Json.WellFormed]

theorem wellFormed_descriptor (d : ExecutionRequestDescriptor) : d.toJson.WellFormed := by
  refine Json.wellFormed_ofList (by simp) ?_
  simp [Json.WellFormed, wellFormed_optionText, wellFormed_headers]

theorem wellFormed_escalation (e : Option EscalationInfo) :
    (Json.ofOption (e.map EscalationInfo.toJson)).WellFormed := by
  cases e with
  | none => exact trivial
  | some e =>
      refine Json.wellFormed_ofList (by simp) ?_
      simp [Json.WellFormed, wellFormed_optionText]

theorem wellFormed_review (r : Option ExecutionReview) :
    (Json.ofOption (r.map ExecutionReview.toJson)).WellFormed := by
  cases r with
  | none => exact trivial
  | some r =>
      refine Json.wellFormed_ofList (by simp) ?_
      simp [Json.WellFormed]

/-- A response built from a value without repeated keys is written as one. -/
theorem wellFormed_toJson {L : Libs} {raw : Json} {r : ExecutionResponse} (hraw : raw.WellFormed)
    (h : parseExecutionResponse L raw = .ok r) : r.toJson.WellFormed := by
  have hp := parsed_of_ok h
  have hdown : (Json.ofOption (r.downstream.map ExecutionDownstream.toJson)).WellFormed := by
    cases hd : r.downstream with
    | none => exact trivial
    | some d =>
        exact wellFormed_downstream (Json.wellFormed_get hraw _)
          (optionalWith_eq_ok (hd ▸ hp.downstream))
  have hevidence : (Json.ofOption (r.outcomeEvidence.map OutcomeEvidence.toJson)).WellFormed := by
    cases he : r.outcomeEvidence with
    | none => exact trivial
    | some e =>
        exact wellFormed_evidence (Json.wellFormed_get hraw _)
          (optionalWith_eq_ok (he ▸ hp.outcomeEvidence))
  have hreceipt : r.decisionReceipt.toJson.WellFormed :=
    wellFormed_envelope (Json.wellFormed_get hraw _) hp.decisionReceipt
  have happroval : r.approval.WellFormed := hp.approval ▸ Json.wellFormed_get hraw _
  have hsession : r.witnessSession.WellFormed := hp.witnessSession ▸ Json.wellFormed_get hraw _
  refine Json.wellFormed_ofList (by simp) ?_
  simp [Json.WellFormed, wellFormed_optionText, wellFormed_descriptor, wellFormed_escalation,
    wellFormed_review, hdown, hevidence, hreceipt, happroval, hsession]

/-- The answer of the runtime, as JSON, has no repeated keys. -/
theorem wellFormed_readResponse {L : Libs} {sensitive : List Str} {expected : List Nat}
    {resp : ApiResponse} {raw : Json} (h : readResponse L sensitive expected resp = .ok raw) :
    raw.WellFormed := by
  unfold readResponse at h
  split at h
  · cases h
  · split at h
    · cases h
      exact trivial
    · split at h
      · split at h
        · cases h
        · cases h
      · next data hdata =>
          split at h
          · cases h
            exact wellFormed_loadsBytes hdata
          · cases h

end Allowly

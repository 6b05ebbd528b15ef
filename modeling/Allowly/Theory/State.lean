import Allowly.Theory.Protocol

/-!
# What a Journal Says

The journal as a value: what the calls write into it, and what stays as it was. A
journal is one of its operation, whatever phase it is in, and a journal with an
outcome names the approval that was claimed, twice.

The two halves of `_dispatch_approved` and the report write members over, and never
touch the version, the operation ID, the digest of the request or the intent of a
review. The lemmas below say so for each of them.

## Main definitions

* `Journal`: A journal of an operation.
* `Open`: It has no outcome.
* `Reported`: It has one, which can be reported.
* `Attempted`: The phases in which nothing may be sent any more.

## Theorems

* `writes_unique`, `reads_writes`: Bytes are those of one value, which is read back.
* `journal_prepared`, `journal_resumed`, `journal_answered`: The journals before a claim.
* `reported_claim`, `reported_settled`, `reported_complete`: Those after one.
-/

namespace Allowly

open Py

variable {L : Libs}

/-! ### Bytes and values -/

theorem Writes.text {data : Bytes} {v : Json} (h : Writes data v) :
    ∃ t, dumps v = some t ∧ encode t = some data := by
  unfold Writes jsonBytes at h
  split at h
  · next b hb =>
      cases h
      rcases Option.bind_eq_some_iff.mp hb with ⟨t, ht, hd⟩
      exact ⟨t, ht, hd⟩
  · cases h

/-- What was written is what is loaded. -/
theorem loads_writes {data : Bytes} {v : Json} (h : Writes data v) (ho : v.isObj = true)
    (hw : v.WellFormed) : loadsBytes data = some v := by
  rcases h.text with ⟨t, ht, hd⟩
  exact loadsBytes_dumps ho hw ht hd

theorem writes_unique {data : Bytes} {v w : Json} (hv : Writes data v) (hw : Writes data w)
    (hvo : v.isObj = true) (hvw : v.WellFormed) (hwo : w.isObj = true) (hww : w.WellFormed) :
    v = w := by
  have h := loads_writes hv hvo hvw
  rw [loads_writes hw hwo hww, Option.some.injEq] at h
  exact h.symm

theorem reads_writes {data : Bytes} {v w : Json} (hr : Reads data w) (hv : Writes data v)
    (ho : v.isObj = true) (hw : v.WellFormed) : w = v := by
  have h := hr.2
  rw [loads_writes hv ho hw, Option.some.injEq] at h
  exact h.symm

/-! ### Journals -/

/-- A journal of the operation. An intent in it has the key of its review. -/
structure Journal (operationId : Str) (v : Json) : Prop where
  isObj : v.isObj = true
  wellFormed : v.WellFormed
  version : v.get "version" = .int 2
  id : v.get "operation_id" = .str operationId
  intent : ∀ i, savedIntent v = .ok i →
    continuationKey operationId i.reviewId i.sourceReceiptId = .ok i.idempotencyKey

/-- Nothing is known to have been claimed. -/
def Open (v : Json) : Prop := (v.get "outcome").isObj = false

/-- The phases after a claim. -/
def Attempted (v : Json) : Prop :=
  v.get "phase" = .str (lit "dispatch_attempted") ∨ v.get "phase" = .str (lit "outcome_pending") ∨
    v.get "phase" = .str (lit "complete")

/-- The journal holds an outcome that can be reported, for the approval with this
    digest. -/
structure Reported (operationId digest : Str) (v : Json) : Prop where
  journal : Journal operationId v
  outcome : (v.get "outcome").isObj = true
  key : (v.get "outcome").get "idempotency_key" = .str operationId
  body : ((v.get "outcome").get "body").get "approval_sha256" = .str digest
  authorization : (v.get "authorization").get "approval_sha256" = .str digest
  phase : Attempted v

/-- The intent is read from one member. -/
theorem savedIntent_congr {v w : Json} (h : w.get "continuation" = v.get "continuation") :
    savedIntent w = savedIntent v := by
  unfold savedIntent
  rw [h]

theorem Journal.set {operationId : Str} {v x : Json} {k : String} (h : Journal operationId v)
    (hk : k ≠ "version" ∧ k ≠ "operation_id" ∧ k ≠ "continuation") (hx : x.WellFormed) :
    Journal operationId (v.set k x) where
  isObj := by rw [Json.isObj_set]; exact h.isObj
  wellFormed := Json.wellFormed_set h.wellFormed k hx
  version := by rw [Json.get_set_other hk.1.symm]; exact h.version
  id := by rw [Json.get_set_other hk.2.1.symm]; exact h.id
  intent i hi := by
    rw [savedIntent_congr (Json.get_set_other hk.2.2.symm v x)] at hi
    exact h.intent i hi

theorem Journal.update {operationId : Str} {v : Json} {cs : List (String × Json)}
    (h : Journal operationId v)
    (hcs : ∀ c ∈ cs, (c.1 ≠ "version" ∧ c.1 ≠ "operation_id" ∧ c.1 ≠ "continuation") ∧
      c.2.WellFormed) : Journal operationId (v.update cs) := by
  induction cs generalizing v with
  | nil => exact h
  | cons c cs ih =>
      have hc := hcs c List.mem_cons_self
      exact ih (h.set hc.1 hc.2) fun d hd => hcs d (List.mem_cons_of_mem _ hd)

theorem journal_prepared (operationId digest timestamp : Str) :
    Journal operationId (preparedState operationId digest timestamp) where
  isObj := rfl
  wellFormed := by
    refine Json.wellFormed_ofList (by simp) ?_
    simp [Json.WellFormed]
  version := by simp [preparedState, Json.ofList, Json.get, Json.lookup]
  id := by simp [preparedState, Json.ofList, Json.get, Json.lookup]
  intent i hi := by
    have hnull : (preparedState operationId digest timestamp).get "continuation" = .null := by
      simp [preparedState, Json.ofList, Json.get, Json.lookup]
    rw [savedIntent, hnull] at hi
    cases hi

theorem wellFormed_journalAuthorization {raw : Json} {r : ExecutionResponse}
    (hraw : raw.WellFormed) (h : parseExecutionResponse L raw = .ok r) :
    (journalAuthorization r).WellFormed := by
  unfold journalAuthorization
  split
  · exact Json.wellFormed_set (wellFormed_toJson hraw h) _ trivial
  · exact wellFormed_toJson hraw h

/-- What the journal keeps of a response names its approval. -/
theorem journalAuthorization_approval (r : ExecutionResponse) :
    (journalAuthorization r).get "approval_sha256" = optionText r.approvalSha256 := by
  have hget : r.toJson.get "approval_sha256" = optionText r.approvalSha256 := by
    simp [ExecutionResponse.toJson, Json.ofList, Json.get, Json.lookup]
  unfold journalAuthorization
  split
  · rw [Json.get_set_other (by decide)]
    exact hget
  · exact hget

theorem journal_answered {operationId : Str} {v : Json} {phase : String} {r : ExecutionResponse}
    (h : Journal operationId v) (hr : (journalAuthorization r).WellFormed) :
    Journal operationId (answeredState v phase r) := by
  refine h.update ?_
  simp [Json.WellFormed, hr]

theorem answered_authorization {v : Json} {phase : String} {r : ExecutionResponse}
    (ho : v.isObj = true) :
    (answeredState v phase r).get "authorization" = journalAuthorization r := by
  simp [answeredState, Json.update, Json.get_set_self, ho]

theorem answered_other {v : Json} {phase : String} {r : ExecutionResponse} {k : String}
    (hp : k ≠ "phase") (ha : k ≠ "authorization") :
    (answeredState v phase r).get k = v.get k := by
  simp [answeredState, Json.update, Json.get_set_other, hp, ha]

/-! ### Continuing a review -/

/-- The phases a review can be continued from. -/
def Waiting (v : Json) : Prop :=
  v.get "phase" = .str (lit "waiting_for_review") ∨ v.get "phase" = .str (lit "continuing")

theorem Attempted.not_waiting {v : Json} (h : Attempted v) : ¬ Waiting v := by
  intro hw
  rcases h with h | h | h
  all_goals
    rcases hw with hw | hw
    all_goals
      rw [h, Json.str.injEq, lit_inj] at hw
      exact absurd hw (by decide)

theorem continuable_ok {phase : Json} (h : continuable phase = .ok true) :
    phase = .str (lit "waiting_for_review") ∨ phase = .str (lit "continuing") := by
  unfold continuable at h
  split at h
  · cases h
  · cases h
  · rw [Except.ok.injEq, Bool.or_eq_true, decide_eq_true_eq, decide_eq_true_eq] at h
    exact h

theorem continuedTimestamp_waiting {v : Json} {operationId timestamp : Str}
    (h : continuedTimestamp v operationId = .ok (some timestamp)) : Waiting v := by
  unfold continuedTimestamp at h
  rcases bind_eq_ok.mp h with ⟨version, _, hk⟩
  split at hk
  · cases hk
  · split at hk
    · cases hk
    · rcases bind_eq_ok.mp hk with ⟨known, hknown, hk⟩
      cases known with
      | true => exact continuable_ok hknown
      | false => cases hk

/-- A journal in a phase after the claim cannot be continued. -/
theorem continuedTimestamp_attempted {v : Json} {operationId : Str} (hj : Journal operationId v)
    (h : Attempted v) : continuedTimestamp v operationId = .ok none := by
  have hknown : continuable (v.get "phase") = .ok false := by
    rcases h with h | h | h
    all_goals
      rw [h]
      rfl
  have hversion : getAttr v "version" = .ok (.int 2) := by
    rw [getAttr, if_pos hj.isObj, hj.version]
  have htwo : pyEq (.int 2) (.int 2) = true := by decide
  simp [continuedTimestamp, hversion, htwo, hj.id, hknown, bind, Except.bind, pure, Except.pure]

theorem savedIntent_set {v : Json} {i j : Intent} (ho : v.isObj = true)
    (h : savedIntent (v.set "continuation" i.toJson) = .ok j) : j = i := by
  rw [savedIntent, Json.get_set_self ho] at h
  simp only [Intent.toJson, Json.ofList, Json.lookup, List.map_cons, List.map_nil, if_true,
    lit_inj, String.reduceEq, if_false, List.length_cons, List.length_nil] at h
  split at h
  · cases h
    rfl
  · cases h

/-- The journal with the intent of a review. -/
theorem journal_withIntent {operationId : Str} {v u : Json} (h : Journal operationId v)
    (hu : withIntent L operationId v = .ok u) :
    Journal operationId u ∧ ∀ k, k ≠ "continuation" → u.get k = v.get k := by
  unfold withIntent at hu
  split at hu
  · rcases bind_eq_ok.mp hu with ⟨previous, _, hk⟩
    split at hk
    · split at hk
      · cases hk
      · rcases bind_eq_ok.mp hk with ⟨key, hkey, hk⟩
        cases hk
        refine ⟨⟨?_, ?_, ?_, ?_, ?_⟩, fun k hne => Json.get_set_other hne _ _⟩
        · rw [Json.isObj_set]
          exact h.isObj
        · refine Json.wellFormed_set h.wellFormed _ (Json.wellFormed_ofList (by simp) ?_)
          simp [Json.WellFormed]
        · rw [Json.get_set_other (by decide)]
          exact h.version
        · rw [Json.get_set_other (by decide)]
          exact h.id
        · intro i hi
          rw [savedIntent_set h.isObj hi]
          exact hkey
    · cases hk
  · cases hu
    exact ⟨h, fun _ _ => rfl⟩

/-- What continuing a review does to the journal. -/
structure Resumed (L : Libs) (operationId : Str) (j : Job) (v w : Json) : Prop where
  journal : Journal operationId w
  waiting : Waiting v
  continuing : Waiting w
  other : ∀ k, k ≠ "continuation" → k ≠ "phase" → w.get k = v.get k
  digest : ∃ digest, sealSha L j.requested.toJson = .ok digest ∧
    w.get "request_sha256" = .str digest
  intent : ∃ i, j.intent = some i ∧ savedIntent w = .ok i

theorem resumed_of_resumes {operationId : Str} {j : Job} {v w : Json} (h : Journal operationId v)
    (hid : j.args.operationId = operationId) (hr : Resumes L j v w) :
    Resumed L operationId j v w := by
  rcases hr with ⟨timestamp, digest, i, u, ht, _, hd, hsame, hu, hi, hji, rfl⟩
  rw [hid] at hu
  rcases journal_withIntent h hu with ⟨hju, hother⟩
  refine ⟨hju.set (by decide) trivial, continuedTimestamp_waiting ht, Or.inr ?_, ?_, ?_, ?_⟩
  · exact Json.get_set_self hju.isObj _ _
  · intro k hc hp
    rw [Json.get_set_other hp, hother k hc]
  · refine ⟨digest, hd, ?_⟩
    rw [Json.get_set_other (by decide), hother _ (by decide), hsame]
  · refine ⟨i, hji, ?_⟩
    rw [savedIntent_congr (Json.get_set_other (by decide) _ _)]
    exact hi

/-! ### The approval -/

/-- The checks an approval has passed. -/
structure Approves (L : Libs) (r : ExecutionResponse) (q : Requested) (approval : Json) : Prop where
  own : approval = r.approval
  state : approvedState r = true
  isObj : approval.isObj = true
  digest : ∃ digest, sealSha L approval = .ok digest ∧ r.approvalSha256 = some digest
  identity : approvalIdentity approval q = true
  scope : approvalScope L approval q = .ok true
  request : approvalRequest approval q = .ok true
  descriptor : pyEq r.requestDescriptor.toJson (expectedDescriptor q) = true
  mode : evidenceModeValid r approval q = true

theorem approves_of_ok {r : ExecutionResponse} {q : Requested} {approval : Json}
    (h : checkApproval L r q = .ok approval) : Approves L r q approval := by
  unfold checkApproval at h
  rcases of_ite_error h with ⟨hstate, h⟩
  rcases of_ite_error h with ⟨hobj, h⟩
  rcases bind_eq_ok.mp h with ⟨digest, hdigest, h⟩
  rcases of_ite_error h with ⟨hsame, h⟩
  rcases of_ite_error h with ⟨hidentity, h⟩
  rcases bind_eq_ok.mp h with ⟨scope, hscope, h⟩
  rcases of_ite_error h with ⟨hin, h⟩
  rcases bind_eq_ok.mp h with ⟨same, hrequest, h⟩
  rcases of_ite_error h with ⟨hsent, h⟩
  rcases of_ite_error h with ⟨hdescriptor, h⟩
  rcases of_ite_error h with ⟨hmode, h⟩
  rw [Bool.not_eq_false] at hstate hobj hidentity hin hsent hdescriptor hmode
  rw [hin] at hscope
  rw [hsent] at hrequest
  rw [ne_eq, not_not] at hsame
  cases h
  exact ⟨rfl, hstate, hobj, ⟨digest, hdigest, hsame.symm⟩, hidentity, hscope, hrequest, hdescriptor,
    hmode⟩

theorem Evidence.Valid.approves {e : Evidence} (h : e.Valid L) :
    Approves L e.response e.job.requested e.approval := approves_of_ok h.2.1

theorem Evidence.Valid.digest {e : Evidence} (h : e.Valid L) :
    ∃ digest, e.response.approvalSha256 = some digest := by
  rcases h.approves.digest with ⟨digest, _, hd⟩
  exact ⟨digest, hd⟩

/-- An approved response is an object with no repeated keys where it was parsed. -/
theorem Job.Accepts.wellFormed {j : Job} {resp : ApiResponse} {r : ExecutionResponse}
    (h : j.Accepts L resp r) : (journalAuthorization r).WellFormed ∧ r.approval.WellFormed := by
  rcases h with ⟨sensitive, raw, hraw, hparse, _⟩
  have hw := wellFormed_readResponse hraw
  refine ⟨wellFormed_journalAuthorization hw hparse, ?_⟩
  rw [(parsed_of_ok hparse).approval]
  exact Json.wellFormed_get hw _

/-! ### After the claim -/

theorem wellFormed_report {operationId : Str} {body : List (String × Json)}
    (hk : (body.map Prod.fst).Nodup) (hb : ∀ m ∈ body, m.2.WellFormed) :
    (outcomeReport operationId body).WellFormed := by
  have hbody := Json.wellFormed_ofList hk hb
  refine Json.wellFormed_ofList (by simp) ?_
  simp [Json.WellFormed, hbody]

theorem report_key (operationId : Str) (body : List (String × Json)) :
    (outcomeReport operationId body).get "idempotency_key" = .str operationId := by
  simp [outcomeReport, Json.ofList, Json.get, Json.lookup]

theorem report_body (operationId : Str) (body : List (String × Json)) :
    (outcomeReport operationId body).get "body" = .ofList body := by
  simp [outcomeReport, Json.ofList, Json.get, Json.lookup]

/-- The journal of a claim can be reported. -/
theorem reported_claim {operationId digest started : Str} {v : Json} {r : ExecutionResponse}
    (h : Journal operationId v) (hr : r.approvalSha256 = some digest)
    (ha : (v.get "authorization").get "approval_sha256" = .str digest) :
    Reported operationId digest (claimState v operationId r started) := by
  have hwf : (outcomeReport operationId [("approval_sha256", optionText r.approvalSha256),
      ("target_state", .str (lit "unknown")), ("dispatch_started_at", .str started),
      ("completed_at", .str started)]).WellFormed := by
    refine wellFormed_report (by simp) ?_
    simp [Json.WellFormed, wellFormed_optionText]
  have houtcome : (claimState v operationId r started).get "outcome" = outcomeReport operationId
      [("approval_sha256", optionText r.approvalSha256), ("target_state", .str (lit "unknown")),
        ("dispatch_started_at", .str started), ("completed_at", .str started)] := by
    simp [claimState, Json.update, Json.get_set_self, h.isObj]
  refine ⟨h.update ?_, ?_, ?_, ?_, ?_, Or.inl ?_⟩
  · simp only [List.forall_mem_cons]
    simp [Json.WellFormed, hwf]
  · rw [houtcome]
    rfl
  · rw [houtcome, report_key]
  · rw [houtcome, report_body, hr]
    simp [Json.ofList, Json.get, Json.lookup, optionText, Json.ofOption]
  · simp [claimState, Json.update, Json.get_set_other, ha]
  · simp [claimState, Json.update, Json.get_set_self, Json.get_set_other, h.isObj]

theorem outcomeBody_keys (v : Json) (r : ExecutionResponse) (a : Artifacts) (completed : Str) :
    ((outcomeBody v r a completed).map Prod.fst).Nodup := by
  unfold outcomeBody
  cases a.response with
  | none =>
      by_cases ha : a.attestation = .null
      · simp [ha]
      · simp [ha]
  | some w =>
      by_cases ha : a.attestation = .null
      · simp [ha]
      · simp [ha]

theorem wellFormed_outcomeBody {v : Json} {r : ExecutionResponse} {a : Artifacts} {completed : Str}
    (hv : v.WellFormed) (ha : a.Sound) :
    ∀ m ∈ outcomeBody v r a completed, m.2.WellFormed := by
  have hstarted := Json.wellFormed_get hv "dispatch_attempted_at"
  have hobserved : ∀ w, a.response = some w → (w.get "status").WellFormed ∧
      (w.get "body_sha256").WellFormed ∧ (w.get "body_bytes").WellFormed := by
    intro w hw
    rcases ha.2 w hw with ⟨status, size, digest, hstatus, hsize, hdigest⟩
    rw [hstatus, hsize, hdigest]
    exact ⟨trivial, trivial, trivial⟩
  unfold outcomeBody
  cases hresp : a.response with
  | none =>
      by_cases hatt : a.attestation = .null
      · simp [hatt, Json.WellFormed, wellFormed_optionText, hstarted]
      · simp [hatt, Json.WellFormed, wellFormed_optionText, hstarted, ha.1]
  | some w =>
      rcases hobserved w hresp with ⟨h1, h2, h3⟩
      by_cases hatt : a.attestation = .null
      · simp [hatt, Json.WellFormed, wellFormed_optionText, hstarted, h1, h2, h3]
      · simp [hatt, Json.WellFormed, wellFormed_optionText, hstarted, h1, h2, h3, ha.1]

/-- The journal at the end of an execution can be reported. -/
theorem reported_settled {operationId digest : Str} {v : Json} {r : ExecutionResponse}
    {a : Artifacts} (completed : Str) (h : Reported operationId digest v) (hr : r.approvalSha256 = some digest)
    (ha : a.Sound) : Reported operationId digest (settledState v operationId r a completed) := by
  have ho := h.journal.isObj
  have houtcome : (settledState v operationId r a completed).get "outcome" =
      outcomeReport operationId (outcomeBody v r a completed) := by
    simp [settledState, Json.update, Json.get_set_self, ho]
  refine ⟨h.journal.update ?_, ?_, ?_, ?_, ?_, Or.inr (Or.inl ?_)⟩
  · have hwf : (outcomeReport operationId (outcomeBody v r a completed)).WellFormed :=
      wellFormed_report (outcomeBody_keys v r a completed)
        (wellFormed_outcomeBody h.journal.wellFormed ha)
    simp only [List.forall_mem_cons]
    simp [Json.WellFormed, hwf]
  · rw [houtcome]
    rfl
  · rw [houtcome, report_key]
  · rw [houtcome, report_body, outcomeBody, hr]
    simp [Json.ofList, Json.get, Json.lookup, optionText, Json.ofOption]
  · rw [← h.authorization]
    simp [settledState, Json.update, Json.get_set_other]
  · simp [settledState, Json.update, Json.get_set_self, Json.get_set_other, ho]

/-- The journal after a report can be reported again. -/
theorem reported_complete {operationId digest : Str} {v : Json} {final : ExecutionResponse}
    (h : Reported operationId digest v) (hf : final.toJson.WellFormed) :
    Reported operationId digest (completeState v final) := by
  have ho := h.journal.isObj
  have hother : ∀ k, k ≠ "phase" → k ≠ "final_response" →
      (completeState v final).get k = v.get k := by
    intro k hp hf
    simp [completeState, Json.update, Json.get_set_other, hp, hf]
  refine ⟨h.journal.update ?_, ?_, ?_, ?_, ?_, Or.inr (Or.inr ?_)⟩
  · simp only [List.forall_mem_cons]
    simp [Json.WellFormed, hf]
  · rw [hother _ (by decide) (by decide)]
    exact h.outcome
  · rw [hother _ (by decide) (by decide)]
    exact h.key
  · rw [hother _ (by decide) (by decide)]
    exact h.body
  · rw [hother _ (by decide) (by decide)]
    exact h.authorization
  · simp [completeState, Json.update, Json.get_set_self, Json.get_set_other, ho]

end Allowly

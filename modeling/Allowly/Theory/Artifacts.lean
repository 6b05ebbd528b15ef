import Allowly.Base.Log
import Allowly.Theory.State

/-!
# What the Native Process Left

After a witnessed claim the native process leaves an exit status, an output, and up to
three files. All of it may be wrong. What a journal says of the execution is compared
here with what was left: an attestation is only reported along with the digest of its
bundle, and only when every check succeeds. When one fails although the process reports
success, the journal says no more than that the outcome is unknown.

A call learns of the remains by its operations, so that the log of a call is compared
with them. An operation that fails tells nothing.

## Main definitions

* `Remains`, `Remains.FoundBy`: What was left, and a log that agrees with it.
* `Remains.Left`, `Remains.Verified`, `Remains.Fails`: What can be read from it.
* `Bare`, `Restates`: Outcomes without evidence, and those of a saved response.
* `Faithful`: The outcome says of the remains what they show.
* `Settled`: The outcomes a call may put into a journal.

## Theorems

* `read_artifacts`, `witness_artifacts`: What the artifacts are.
* `faithful_claim`, `faithful_settled`: The two journals of a dispatch.
-/

namespace Allowly

open Py Prog

variable {L : Libs}

/-- What a call did, and how it was answered. -/
abbrev CallLog := Log Op Op.Answer Fault

/-! ### What was left -/

/-- The exit status of the native process, its output, and its files. -/
structure Remains where
  status : Int
  output : Bytes
  files : File → Option Bytes

/-- The files in which the process leaves its evidence. -/
def evidenceFiles : List File := [.witnessResponse, .presentation, .attestation]

namespace Remains

/-- An answer that agrees with what was left. -/
def Answers (p : Remains) : (o : Op) → Except Fault o.Answer → Prop
  | .nativeResult, .ok result => result = (p.status, p.output)
  | .fileExists .witnessResponse, .ok present => present = (p.files .witnessResponse).isSome
  | .read file maximum, .ok data => file ∈ evidenceFiles →
      ∃ content, p.files file = some content ∧ data = content.take (maximum + 1)
  | _, _ => True

def FoundBy (p : Remains) (q : CallLog) : Prop := ∀ e ∈ q, p.Answers e.1 e.2

/-- The file `response.json` holds a response that agrees with itself, which is this one in
    its normal form. -/
def Left (p : Remains) (v : Json) : Prop :=
  ∃ content raw, p.files .witnessResponse = some content ∧ content.length ≤ readLimit ∧
    loadsBytes content = some raw ∧ observedResponse raw (16 * 1024) = .ok v

/-- The process succeeded, and everything it says is so, for the approval with this digest. -/
def Verified (p : Remains) (digest : Json) : Prop :=
  p.status = 0 ∧ p.output.length ≤ 64 * 1024 ∧
    ∃ verified presentation attestation response v,
      loadsBytes p.output = some verified ∧ verified.isObj = true ∧
      verified.get "verified" = .bool true ∧ verified.get "approval_sha256" = digest ∧
      verified.get "request_binding_verification" =
        .str (lit "verified_from_full_presentation") ∧
      p.files .presentation = some presentation ∧
      verified.get "artifact_sha256" = .str (sha presentation) ∧
      p.files .attestation = some attestation ∧
      verified.get "attestation_sha256" = .str (sha attestation) ∧
      p.Left response ∧ observedResponse (verified.get "response") (16 * 1024) = .ok v ∧
      pyEq response v = true

/-- The process claims success without showing it, or its response contradicts itself. -/
def Fails (p : Remains) (digest : Json) : Prop :=
  p.status = 0 ∧ ¬ p.Verified digest ∨
    p.files .witnessResponse ≠ none ∧ ∀ v, ¬ p.Left v

theorem FoundBy.append {p : Remains} {q t : CallLog} (h : p.FoundBy (q ++ t)) :
    p.FoundBy q ∧ p.FoundBy t :=
  ⟨fun e he => h e (List.mem_append_left t he), fun e he => h e (List.mem_append_right q he)⟩

end Remains

/-- The artifacts are what the remains show. -/
structure ArtifactsOf (p : Remains) (digest : Json) (a : Artifacts) : Prop where
  attested : a.attestation ≠ .null → p.Verified digest
  failed : p.Fails digest → a.response = none ∧ a.attestation = .null
  response : ∀ v, a.response = some v → p.Left v

theorem ask_ok {o : Op} {t : CallLog} {b : o.Answer} (h : Traces (ask o) t (.ok b)) :
    t = [⟨o, .ok b⟩] := by
  rcases traces_perform.mp h with ⟨r, ht, hr⟩
  cases r with
  | ok v =>
      cases hr
      exact ht
  | error x => cases hr

theorem loadJson_eq_ok {b : Bytes} {j : Json} : loadJson b = .ok j ↔ loadsBytes b = some j := by
  unfold loadJson
  cases loadsBytes b with
  | some v => simp
  | none =>
      refine ⟨fun h => ?_, fun h => by cases h⟩
      cases h

/-- A file of the process that was read as a whole. -/
theorem left_file {p : Remains} {t : CallLog} {file : File} {maximum : Nat} {data : Bytes}
    (h : Traces (readBytes file maximum) t (.ok data)) (hp : p.FoundBy t)
    (hf : file ∈ evidenceFiles) : p.files file = some data ∧ data.length ≤ maximum := by
  rcases traces_bind_ok.mp h with ⟨read, t₁, t₂, hask, hrest, rfl⟩
  have htold : p.Answers (.read file maximum) (.ok read) :=
    hp.append.1 ⟨.read file maximum, .ok read⟩ (by rw [ask_ok hask]; exact List.mem_cons_self)
  rcases htold hf with ⟨content, hfile, hread⟩
  split at hrest
  · cases hrest.2
  · next hlen =>
      cases hrest.2
      have hshort : content.length ≤ maximum := by
        rw [hread, List.length_take] at hlen
        omega
      rw [hread, List.take_of_length_le (by omega)]
      exact ⟨hfile, hshort⟩

/-- The response the process saved, if there is one. -/
theorem saved_response {p : Remains} {t : CallLog} {present : Bool} {a : Option Json}
    (h : Traces (savedResponse present) t (.ok a)) (hp : p.FoundBy t) :
    present = false ∧ a = none ∨ ∃ v, a = some v ∧ p.Left v := by
  cases present with
  | false =>
      cases h.2
      exact Or.inl ⟨rfl, rfl⟩
  | true =>
      refine Or.inr ?_
      rcases traces_bind_ok.mp h with ⟨raw, t₁, t₂, hread, hrest, rfl⟩
      rcases traces_ofExcept_bind_ok.mp hrest with ⟨v, hv, hpure⟩
      cases hpure.2
      rcases traces_bind_ok.mp hread with ⟨data, t₃, t₄, hdata, hload, rfl⟩
      rcases left_file hdata hp.append.1.append.1 List.mem_cons_self with ⟨hfile, hlen⟩
      rcases traces_ofExcept.mp hload with ⟨_, hraw⟩
      exact ⟨v, rfl, data, raw, hfile, hlen, loadJson_eq_ok.mp hraw.symm, hv⟩

/-- What the process says of its own verification was checked. -/
theorem verifyNative_ok {digest : Option Str} {bundle : Str} {attestation : Bytes}
    {response : Option Json} {verified j : Json}
    (h : verifyNative digest bundle attestation response verified = .ok j) :
    verified.get "verified" = .bool true ∧ verified.get "approval_sha256" = optionText digest ∧
      verified.get "request_binding_verification" =
        .str (lit "verified_from_full_presentation") ∧
      verified.get "artifact_sha256" = .str bundle ∧
      verified.get "attestation_sha256" = .str (sha attestation) ∧
      ∃ r v, response = some r ∧ observedResponse (verified.get "response") (16 * 1024) = .ok v ∧
        pyEq r v = true := by
  unfold verifyNative at h
  rcases of_ite_error h with ⟨hchecks, h⟩
  rw [not_or, not_or, not_or, not_or] at hchecks
  rcases hchecks with ⟨h1, h2, h3, h4, h5⟩
  refine ⟨not_not.mp h1, not_not.mp h2, not_not.mp h3, not_not.mp h4, not_not.mp h5, ?_⟩
  cases response with
  | none => cases h
  | some r =>
      rcases bind_eq_ok.mp h with ⟨v, hv, hk⟩
      rcases of_ite_error hk with ⟨heq, _⟩
      rw [Bool.not_eq_false] at heq
      exact ⟨r, v, rfl, hv, heq⟩

/-- What the artifacts are when reading them succeeded. -/
theorem read_artifacts {p : Remains} {digest : Option Str} {t : CallLog} {a : Artifacts}
    (h : Traces (readArtifacts digest) t (.ok a)) (hp : p.FoundBy t) :
    (p.files .witnessResponse = none ∧ a.response = none ∨ ∃ v, a.response = some v ∧ p.Left v) ∧
      (p.status ≠ 0 ∧ a.attestation = .null ∨ p.Verified (optionText digest)) := by
  rcases traces_bind_ok.mp h with ⟨present, t₁, t₂, hexists, h₂, rfl⟩
  rcases traces_bind_ok.mp h₂ with ⟨response, t₃, t₄, hsaved, h₄, rfl⟩
  rcases traces_bind_ok.mp h₄ with ⟨⟨code, stdout⟩, t₅, t₆, hresult, h₆, rfl⟩
  have hp₂ := hp.append.2
  have hp₄ := hp₂.append.2
  have hpresent : present = (p.files .witnessResponse).isSome :=
    hp.append.1 ⟨.fileExists .witnessResponse, .ok present⟩
      (by rw [ask_ok hexists]; exact List.mem_cons_self)
  have hnative : (code, stdout) = (p.status, p.output) :=
    hp₄.append.1 ⟨.nativeResult, .ok (code, stdout)⟩
      (by rw [ask_ok hresult]; exact List.mem_cons_self)
  rw [Prod.mk.injEq] at hnative
  rcases hnative with ⟨rfl, rfl⟩
  have hresponse : p.files .witnessResponse = none ∧ response = none ∨
      ∃ v, response = some v ∧ p.Left v := by
    rcases saved_response hsaved hp₂.append.1 with ⟨hfalse, hnone⟩ | hleft
    · rw [hpresent, Option.isSome_eq_false_iff, Option.isNone_iff_eq_none] at hfalse
      exact Or.inl ⟨hfalse, hnone⟩
    · exact Or.inr hleft
  simp only at h₆
  split at h₆
  · next hcode =>
      cases h₆.2
      exact ⟨hresponse, Or.inl ⟨hcode, rfl⟩⟩
  · next hcode =>
      split at h₆
      · cases h₆.2
      · next hlen =>
          rcases traces_ofExcept_bind_ok.mp h₆ with ⟨verified, hverified, h₇⟩
          split at h₇
          · cases h₇.2
          · next hobj =>
              rcases traces_bind_ok.mp h₇ with ⟨presentation, t₇, t₈, hpres, h₈, rfl⟩
              rcases traces_bind_ok.mp h₈ with ⟨attestation, t₉, t₁₀, hatt, h₁₀, rfl⟩
              rcases traces_ofExcept_bind_ok.mp h₁₀ with ⟨j, hj, hpure⟩
              cases hpure.2
              refine ⟨hresponse, Or.inr ?_⟩
              rcases verifyNative_ok hj with ⟨h1, h2, h3, h4, h5, r, v, rfl, hv, heq⟩
              have hp₆ := hp₄.append.2
              have hpresentation := left_file hpres hp₆.append.1 (by decide)
              have hattestation := left_file hatt hp₆.append.2.append.1 (by decide)
              have hleft : p.Left r := by
                rcases hresponse with ⟨_, hnone⟩ | ⟨w, hw, hleft⟩
                · cases hnone
                · cases hw
                  exact hleft
              exact ⟨not_not.mp hcode, Nat.le_of_not_lt hlen, verified, presentation, attestation, r,
                v, loadJson_eq_ok.mp hverified, Bool.not_eq_false _ ▸ hobj, h1, h2, h3,
                hpresentation.1, h4, hattestation.1, h5, hleft, hv, heq⟩

/-- Whatever fails leaves no artifacts at all. -/
theorem witness_artifacts {p : Remains} {digest : Option Str} {t : CallLog} {a : Artifacts}
    (h : Traces (witnessArtifacts digest) t (.ok a)) (hp : p.FoundBy t) :
    ArtifactsOf p (optionText digest) a := by
  rcases traces_bind_ok.mp h with ⟨read, t₁, t₂, hattempt, hrest, rfl⟩
  rcases traces_attempt.mp hattempt with ⟨s, hs, hread⟩
  cases hs
  cases read with
  | error x =>
      simp only at hrest
      split at hrest
      · cases hrest.2
        exact ⟨fun h => absurd rfl h, fun _ => ⟨rfl, rfl⟩, fun v hv => by cases hv⟩
      · cases hrest.2
  | ok artifacts =>
      cases hrest.2
      rcases read_artifacts hread hp.append.1 with ⟨hresponse, hverified⟩
      refine ⟨?_, ?_, ?_⟩
      · intro hatt
        rcases hverified with ⟨_, hnull⟩ | hv
        · exact absurd hnull hatt
        · exact hv
      · -- Neither failure is possible when reading has succeeded.
        intro hfails
        rcases hfails with ⟨hzero, hnot⟩ | ⟨hsome, hnone⟩
        · rcases hverified with ⟨hcode, _⟩ | hv
          · exact absurd hzero hcode
          · exact absurd hv hnot
        · rcases hresponse with ⟨habsent, _⟩ | ⟨v, _, hleft⟩
          · exact absurd habsent hsome
          · exact absurd hleft (hnone v)
      · intro v hv
        rcases hresponse with ⟨_, hnone⟩ | ⟨w, hw, hleft⟩
        · rw [hnone] at hv
          cases hv
        · rw [hw, Option.some.injEq] at hv
          rw [← hv]
          exact hleft

/-! ### Outcomes -/

/-- What an outcome says of a response and its proof. -/
def evidenceMembers : List String :=
  ["http_status", "response_sha256", "response_size", "notary_attestation",
    "evidence_bundle_sha256"]

/-- The outcome is unknown, and says nothing else. -/
structure Bare (o : Json) : Prop where
  unknown : o.get "target_state" = .str (lit "unknown")
  members : ∀ k ∈ evidenceMembers, o.has k = false

/-- The metadata of a response are those of its body. -/
def Consistent (v : Json) : Prop :=
  ∃ status body content, v.get "status" = .int status ∧ 200 ≤ status ∧ status ≤ 599 ∧
    v.get "body" = .str body ∧ encode body = some content ∧
    v.get "body_sha256" = .str (sha content) ∧ v.get "body_bytes" = .int content.length

/-- The outcome has the status of the response, and the digest and the size of its body. -/
def Restates (o v : Json) : Prop :=
  ∃ status body content, v.get "status" = .int status ∧ 200 ≤ status ∧ status ≤ 599 ∧
    v.get "body" = .str body ∧ encode body = some content ∧ o.get "http_status" = .int status ∧
    o.get "response_sha256" = .str (sha content) ∧ o.get "response_size" = .int content.length

/-- The response was saved as `response.json`. -/
def Stored (q : CallLog) (v : Json) : Prop :=
  ∃ data, Writes data v ∧ ⟨.replace .response data, .ok ()⟩ ∈ q

/-- The journal is one of a witnessed execution. -/
def WitnessedJournal (w : Json) : Prop :=
  (w.get "authorization").get "effective_evidence_mode" = .str (lit "witnessed")

/-- The outcome in a journal. -/
def outcomeOf (w : Json) : Json := (w.get "outcome").get "body"

/-- The outcome in the journal `w`, which is saved after `q`, says what the remains show. -/
structure Faithful (p : Remains) (q : CallLog) (w : Json) : Prop where
  together : (outcomeOf w).has "notary_attestation" = (outcomeOf w).has "evidence_bundle_sha256"
  proven : (outcomeOf w).has "notary_attestation" = true →
    p.Verified ((outcomeOf w).get "approval_sha256")
  failed : WitnessedJournal w → p.Fails ((outcomeOf w).get "approval_sha256") → Bare (outcomeOf w)
  observed : (outcomeOf w).get "target_state" = .str (lit "response_observed") →
    ∃ v, Stored q v ∧ Restates (outcomeOf w) v ∧ (WitnessedJournal w → p.Left v)

/-- The journal has no outcome, or the one of a journal that was read. -/
def Copied (q : CallLog) (w : Json) : Prop :=
  w.get "outcome" = .null ∨ ∃ data u, ⟨.read .journal readLimit, .ok data⟩ ∈ q ∧ Reads data u ∧
    w.get "outcome" = u.get "outcome"

/-- What a call may put into its journal after `q`. -/
structure Settled (q : CallLog) (w : Json) : Prop where
  isObj : w.isObj = true
  wellFormed : w.WellFormed
  outcome : Copied q w ∨ ∀ p : Remains, p.FoundBy q → Faithful p q w

/-- The journals a call saves are `Settled`. -/
def SavesSettled (q : CallLog) (o : Op) : Prop :=
  ∀ data, o = .replace .journal data → ∃ w, Writes data w ∧ Settled q w

theorem consistent_of_observed {value v : Json} {maximum : Nat}
    (h : observedResponse value maximum = .ok v) : Consistent v := by
  unfold observedResponse at h
  split at h
  · next body hobj hbody =>
      split at h
      · cases h
      · next content hcontent =>
          split at h
          · next status size hstatus hsize =>
              split at h
              · next hrange =>
                  rcases bind_eq_ok.mp h with ⟨digest, _, hk⟩
                  split at hk
                  · cases hk
                    rw [hrange.2.2.2] at hsize
                    refine ⟨status, body, content, ?_, hrange.1, hrange.2.1, ?_, hcontent,
                      Json.get_set_self hobj _ _, ?_⟩
                    · rw [Json.get_set_other (by decide), hstatus]
                    · rw [Json.get_set_other (by decide), hbody]
                    · rw [Json.get_set_other (by decide), hsize]
                  · cases hk
              · cases h
          · cases h
  · cases h

theorem Remains.Left.consistent {p : Remains} {v : Json} (h : p.Left v) : Consistent v := by
  rcases h with ⟨_, _, _, _, _, hv⟩
  exact consistent_of_observed hv

theorem Remains.FoundBy.left {p : Remains} {q t : CallLog} (h : p.FoundBy (q ++ t)) : p.FoundBy q :=
  h.append.1

theorem Copied.mono {q : CallLog} {w : Json} (t : CallLog) (h : Copied q w) : Copied (q ++ t) w := by
  rcases h with h | ⟨data, u, hread, hu, hw⟩
  · exact Or.inl h
  · exact Or.inr ⟨data, u, List.mem_append_left t hread, hu, hw⟩

theorem Stored.mono {q : CallLog} {v : Json} (t : CallLog) (h : Stored q v) : Stored (q ++ t) v := by
  rcases h with ⟨data, hw, hmem⟩
  exact ⟨data, hw, List.mem_append_left t hmem⟩

/-! ### The journals of a dispatch -/

theorem outcomeOf_claim {v : Json} (ho : v.isObj = true) (operationId : Str)
    (r : ExecutionResponse) (started : Str) :
    outcomeOf (claimState v operationId r started) =
      .ofList [("approval_sha256", optionText r.approvalSha256),
        ("target_state", .str (lit "unknown")), ("dispatch_started_at", .str started),
        ("completed_at", .str started)] := by
  have h : (claimState v operationId r started).get "outcome" = outcomeReport operationId
      [("approval_sha256", optionText r.approvalSha256), ("target_state", .str (lit "unknown")),
        ("dispatch_started_at", .str started), ("completed_at", .str started)] := by
    simp [claimState, Json.update, Json.get_set_self, ho]
  rw [outcomeOf, h, report_body]

theorem outcomeOf_settled {v : Json} (ho : v.isObj = true) (operationId : Str)
    (r : ExecutionResponse) (a : Artifacts) (completed : Str) :
    outcomeOf (settledState v operationId r a completed) = .ofList (outcomeBody v r a completed) := by
  have h : (settledState v operationId r a completed).get "outcome" =
      outcomeReport operationId (outcomeBody v r a completed) := by
    simp [settledState, Json.update, Json.get_set_self, ho]
  rw [outcomeOf, h, report_body]

/-- The outcome of a claim says nothing yet. -/
theorem faithful_claim {v : Json} (ho : v.isObj = true) (operationId : Str)
    (r : ExecutionResponse) (started : Str) (p : Remains) (q : CallLog) :
    Faithful p q (claimState v operationId r started) := by
  have hbody := outcomeOf_claim ho operationId r started
  have hbare : Bare (outcomeOf (claimState v operationId r started)) := by
    rw [hbody]
    refine ⟨?_, ?_⟩
    · simp [Json.ofList, Json.get, Json.lookup]
    · simp [evidenceMembers, Json.ofList, Json.has, Json.lookup]
  have hnone : ∀ k ∈ evidenceMembers, (outcomeOf (claimState v operationId r started)).has k = false :=
    hbare.members
  refine ⟨?_, ?_, fun _ _ => hbare, ?_⟩
  · rw [hnone _ (by decide), hnone _ (by decide)]
  · intro h
    rw [hnone _ (by decide)] at h
    cases h
  · intro h
    rw [hbare.unknown, Json.str.injEq, lit_inj] at h
    exact absurd h (by decide)

/-- What a dispatch has found out, when the log of the call is `q`. -/
structure Evident (p : Remains) (q : CallLog) (witnessed : Prop) (digest : Json) (a : Artifacts) :
    Prop where
  attested : a.attestation ≠ .null → p.Verified digest
  failed : witnessed → p.Fails digest → a.response = none ∧ a.attestation = .null
  consistent : ∀ v, a.response = some v → Consistent v
  left : witnessed → ∀ v, a.response = some v → p.Left v

/-- The two members of a proof come together. -/
theorem attested_member {k : String}
    (hk : k = "notary_attestation" ∨ k = "evidence_bundle_sha256") (v : Json)
    (r : ExecutionResponse) (a : Artifacts) (completed : Str) :
    (Json.ofList (outcomeBody v r a completed)).has k = decide (a.attestation ≠ .null) := by
  have hkey : k ≠ "approval_sha256" ∧ k ≠ "target_state" ∧ k ≠ "dispatch_started_at" ∧
      k ≠ "completed_at" ∧ k ≠ "http_status" ∧ k ≠ "response_sha256" ∧ k ≠ "response_size" := by
    rcases hk with rfl | rfl
    · decide
    · decide
  by_cases hatt : a.attestation = .null
  · cases hresp : a.response with
    | none => simp [outcomeBody, hatt, hresp, Json.ofList, Json.has, Json.lookup, hkey]
    | some w => simp [outcomeBody, hatt, hresp, Json.ofList, Json.has, Json.lookup, hkey]
  · cases hresp : a.response with
    | none =>
        rcases hk with rfl | rfl
        · simp [outcomeBody, hatt, hresp, Json.ofList, Json.has, Json.lookup]
        · simp [outcomeBody, hatt, hresp, Json.ofList, Json.has, Json.lookup]
    | some w =>
        rcases hk with rfl | rfl
        · simp [outcomeBody, hatt, hresp, Json.ofList, Json.has, Json.lookup]
        · simp [outcomeBody, hatt, hresp, Json.ofList, Json.has, Json.lookup]

/-- The outcome at the end says what was found out. -/
theorem faithful_settled {v : Json} (ho : v.isObj = true) (operationId : Str)
    {r : ExecutionResponse} {a : Artifacts} (completed : Str) {p : Remains} {q q' : CallLog}
    (h : Evident p q (WitnessedJournal v) (optionText r.approvalSha256) a)
    (hs : ∀ w, a.response = some w → Stored q' w) :
    Faithful p q' (settledState v operationId r a completed) := by
  have hbody := outcomeOf_settled ho operationId r a completed
  have hmode : WitnessedJournal (settledState v operationId r a completed) ↔ WitnessedJournal v := by
    simp [WitnessedJournal, settledState, Json.update, Json.get_set_other]
  have hdigest : (outcomeOf (settledState v operationId r a completed)).get "approval_sha256" =
      optionText r.approvalSha256 := by
    rw [hbody]
    simp [outcomeBody, Json.ofList, Json.get, Json.lookup]
  refine ⟨?_, ?_, ?_, ?_⟩
  · rw [hbody, attested_member (Or.inl rfl), attested_member (Or.inr rfl)]
  · intro hhas
    rw [hbody, attested_member (Or.inl rfl), decide_eq_true_eq] at hhas
    rw [hdigest]
    exact h.attested hhas
  · intro hw hf
    rw [hdigest] at hf
    rcases h.failed (hmode.mp hw) hf with ⟨hresp, hatt⟩
    rw [hbody]
    refine ⟨?_, ?_⟩
    · simp [outcomeBody, hatt, hresp, Json.ofList, Json.get, Json.lookup]
    · simp [evidenceMembers, outcomeBody, hatt, hresp, Json.ofList, Json.has, Json.lookup]
  · intro hobserved
    rw [hbody] at hobserved ⊢
    cases hresp : a.response with
    | none =>
        simp [outcomeBody, hresp, Json.ofList, Json.get, Json.lookup] at hobserved
    | some w =>
        refine ⟨w, hs w hresp, ?_, fun hw => h.left (hmode.mp hw) w hresp⟩
        rcases h.consistent w hresp with ⟨status, body, content, h1, h2, h3, h4, h5, h6, h7⟩
        refine ⟨status, body, content, h1, h2, h3, h4, h5, ?_, ?_, ?_⟩
        · rw [← h1]
          simp [outcomeBody, hresp, Json.ofList, Json.get, Json.lookup]
        · rw [← h6]
          simp [outcomeBody, hresp, Json.ofList, Json.get, Json.lookup]
        · rw [← h7]
          simp [outcomeBody, hresp, Json.ofList, Json.get, Json.lookup]

end Allowly

import Allowly.Theory.Artifacts
import Allowly.Theory.Calls

/-!
# The Journals a Program Saves

Most parts of a call save no journal at all, and the others save one of a known form.
What the parts return is collected beside it: JSON without repeated keys, and what a
dispatch has found out.

## Main definitions

* `Guarded`: The journals a program saves satisfy a property.
* `Carries`: What a dispatch keeps of the journal it starts with.

## Theorems

* `guarded_dispatch`: A dispatch saves the journal of its claim only.
* `returns_dispatch`, `dispatch_evident`: What it returns.
-/

namespace Allowly

open Py Prog

variable {L : Libs}

/-- The journals a program saves all satisfy `W`. -/
def Guarded {A : Type} (W : Json → Prop) (p : Call A) : Prop :=
  Uses (fun o => ∀ data, o = .replace .journal data → ∃ w, Writes data w ∧ W w) p

section Guarded

variable {W : Json → Prop} {A B : Type}

theorem guarded_bind {p : Call A} {f : A → Call B} (h : Guarded W p) (hf : ∀ a, Guarded W (f a)) :
    Guarded W (p >>= f) :=
  uses_bind h hf

theorem guarded_bind_returns {p : Call A} {f : A → Call B} {M : A → Prop} (h : Guarded W p)
    (hp : Returns (fun r => ∀ a, r = .ok a → M a) p) (hf : ∀ a, M a → Guarded W (f a)) :
    Guarded W (p >>= f) :=
  uses_bind_returns h hp hf

theorem guarded_pure (a : A) : Guarded W (pure a : Call A) := trivial

theorem guarded_raise (x : Exc) : Guarded W (raise x : Call A) := trivial

theorem guarded_computed (r : Except Exc A) : Guarded W (computed r) := uses_ofExcept r

theorem guarded_computed_bind {r : Except Exc A} {f : A → Call B}
    (h : ∀ a, r = .ok a → Guarded W (f a)) : Guarded W (computed r >>= f) := by
  cases r with
  | ok a => exact h a rfl
  | error x => exact trivial

theorem guarded_attempt {p : Call A} (h : Guarded W p) : Guarded W p.attempt := uses_attempt h

theorem guarded_ask {o : Op} (h : ∀ data, o ≠ .replace .journal data) : Guarded W (ask o) :=
  uses_perform fun data hd => absurd hd (h data)

theorem guarded_silent {p : Call A} (h : Silent p) : Guarded W p := by
  refine uses_mono h ?_
  intro o ho data hd
  rw [hd] at ho
  cases ho

theorem guarded_save {file : File} {v : Json} (h : file = .journal → W v) :
    Guarded W (save file v) := by
  refine guarded_bind (guarded_ask nofun) ?_
  intro _
  refine uses_always ?_ (guarded_ask nofun)
  refine guarded_computed_bind ?_
  intro data hdata
  refine guarded_bind (guarded_ask nofun) ?_
  intro _
  refine guarded_bind (uses_perform ?_) (fun _ => guarded_ask nofun)
  intro data' heq
  cases heq
  exact ⟨v, hdata, h rfl⟩

theorem guarded_send (r : ApiRequest) : Guarded W (send r) := by
  refine guarded_bind (guarded_attempt (guarded_ask nofun)) ?_
  intro answer
  split
  · exact guarded_pure _
  · split
    · exact guarded_ask nofun
    · exact guarded_raise _
  · exact guarded_raise _

theorem guarded_requestWithHeaders (c : Client) (route : Route) (path : Str) (json : Option Json)
    (headers : List (Str × Str)) (expected : List Nat) :
    Guarded W (requestWithHeaders L c route path json headers expected) := by
  unfold requestWithHeaders
  split
  · exact guarded_raise _
  · split
    · exact guarded_raise _
    · exact guarded_bind (guarded_send _) fun _ =>
        guarded_bind (guarded_computed _) fun _ => guarded_pure _

theorem guarded_callRoute (c : Client) (route : Route) (json : Option Json) (t k : Option Str)
    (expected : List Nat) : Guarded W (callRoute L c route json t k expected) := by
  unfold callRoute
  split
  · exact guarded_raise _
  · exact guarded_bind (guarded_silent (silent_identityHeaders c t k)) fun _ =>
      guarded_bind (guarded_requestWithHeaders c _ _ _ _ _) fun _ => guarded_pure _

theorem guarded_claimExecutionDispatch (c : Client) (operationId : Str) (digest t : Option Str) :
    Guarded W (claimExecutionDispatch L c operationId digest t) := by
  refine guarded_bind (guarded_callRoute c _ _ _ _ _) ?_
  intro raw
  split
  · exact guarded_pure _
  · exact guarded_raise _

theorem guarded_getExecutionWitnessToken (c : Client) (operationId : Str) (digest t : Option Str) :
    Guarded W (getExecutionWitnessToken L c operationId digest t) := by
  refine guarded_bind (guarded_callRoute c _ _ _ _ _) ?_
  intro raw
  split
  · exact guarded_pure _
  · exact guarded_raise _

theorem guarded_reportExecutionOutcome (c : Client) (operationId : Str) (outcome : Json)
    (key t : Option Str) : Guarded W (reportExecutionOutcome L c operationId outcome key t) := by
  refine guarded_bind (guarded_callRoute c _ _ _ _ _) ?_
  intro raw
  refine guarded_bind (guarded_computed _) ?_
  intro result
  split
  · exact guarded_raise _
  · split
    · exact guarded_pure _
    · exact guarded_raise _

theorem guarded_prepareExecution (c : Client) (requested : Requested) (key : Str)
    (t : Option Str) : Guarded W (prepareExecution L c requested key t) := by
  refine guarded_bind (guarded_silent (silent_identityHeaders c t _)) fun headers => ?_
  refine guarded_bind (guarded_computed _) fun timestamp => ?_
  refine guarded_bind (guarded_requestWithHeaders c _ _ _ _ _) fun answer => ?_
  refine guarded_bind (guarded_computed _) fun result => ?_
  split
  · exact guarded_pure _
  · exact guarded_raise _

theorem guarded_continueExecution (c : Client) (operationId : Str) (requested : Requested)
    (i : Intent) (t : Option Str) :
    Guarded W (continueExecution L c operationId requested i t) := by
  unfold continueExecution
  split
  · exact guarded_raise _
  · refine guarded_bind (guarded_computed _) fun timestamp => ?_
    refine guarded_bind (guarded_callRoute c _ _ _ _ _) fun raw => ?_
    refine guarded_bind (guarded_computed _) fun result => ?_
    split
    · exact guarded_pure _
    · exact guarded_raise _

theorem guarded_claim {c : Client} {operationId : Str} {r : ExecutionResponse}
    {approval state : Json} {t : Option Str}
    (h : ∀ started, W (claimState state operationId r started)) :
    Guarded W (claim L c operationId r approval state t) := by
  refine guarded_bind (guarded_attempt (guarded_silent (silent_started approval))) ?_
  intro started
  cases started with
  | error x => exact guarded_pure _
  | ok started =>
      refine guarded_bind (guarded_attempt ?_) (fun _ => guarded_pure _)
      refine guarded_bind (guarded_save fun _ => h started) ?_
      intro _
      refine guarded_bind (guarded_claimExecutionDispatch c _ _ _) ?_
      intro claimed
      split
      · exact guarded_raise _
      · exact guarded_silent (silent_live L approval)

theorem guarded_witnessedRun {c : Client} {operationId : Str} {r : ExecutionResponse}
    {approval state : Json} {t : Option Str}
    (h : ∀ started, W (claimState state operationId r started)) :
    Guarded W (witnessedRun L c operationId r approval state t) := by
  refine guarded_bind (guarded_attempt (guarded_silent ?_)) ?_
  · refine silent_bind (silent_ask rfl) fun polls => silent_bind (silent_awaitReady polls) fun _ =>
      silent_bind (silent_readJson _ _) fun gate => ?_
    split
    · exact silent_pure _
    · exact silent_raise _
  · intro ready
    cases ready with
    | error x => exact guarded_pure _
    | ok u =>
        refine guarded_bind (guarded_claim h) ?_
        intro s
        rcases s with ⟨state', claimed⟩
        cases claimed with
        | error x => exact guarded_pure _
        | ok u =>
            refine guarded_bind (guarded_attempt ?_) (fun _ => guarded_pure _)
            refine guarded_bind (guarded_save ?_) (fun _ => guarded_ask nofun)
            intro hf
            cases hf

theorem guarded_dispatch {c : Client} {a : Args} {requested : Requested}
    {privateHeaders : List (Str × Str)} {r : ExecutionResponse} {approval state : Json}
    {files : Option WitnessFiles}
    (h : ∀ started, W (claimState state requested.operationId r started)) :
    Guarded W (dispatch L c a requested privateHeaders r approval state files) := by
  cases files with
  | none =>
      refine guarded_bind (guarded_claim h) ?_
      intro s
      refine guarded_bind (guarded_computed _) ?_
      intro _
      refine guarded_bind (guarded_attempt (guarded_bind (guarded_ask nofun) fun thread =>
        guarded_bind (guarded_ask nofun) fun value => guarded_computed _)) ?_
      intro response
      split
      · exact guarded_pure _
      · split
        · exact guarded_pure _
        · exact guarded_raise _
  | some files =>
      simp only [dispatch, dispatchWitnessed]
      split
      · exact guarded_raise _
      · refine guarded_bind (guarded_getExecutionWitnessToken c _ _ _) ?_
        intro admission
        refine guarded_bind (guarded_computed _) fun _ => ?_
        refine guarded_bind (guarded_computed _) fun _ => ?_
        refine guarded_bind (guarded_ask nofun) fun _ => ?_
        refine guarded_bind (guarded_computed _) fun stdin => ?_
        refine guarded_bind (guarded_ask nofun) fun _ => ?_
        refine guarded_bind (guarded_witnessedRun h) ?_
        intro s
        refine guarded_bind (guarded_ask nofun) fun _ => ?_
        refine guarded_bind (guarded_silent (silent_afterRun _ _)) fun _ => ?_
        exact guarded_bind (guarded_silent (silent_witnessArtifacts _)) fun _ => guarded_pure _

end Guarded

/-! ### What the parts return -/

theorem returns_requestWithHeaders (c : Client) (route : Route) (path : Str) (json : Option Json)
    (headers : List (Str × Str)) (expected : List Nat) :
    Returns (fun r => ∀ a, r = .ok a → a.1.WellFormed)
      (requestWithHeaders L c route path json headers expected) := by
  unfold requestWithHeaders
  split
  · exact fun a ha => by cases ha
  · split
    · exact fun a ha => by cases ha
    · refine returns_bind (returns_true _) ?_ (fun x _ a ha => by cases ha)
      intro resp _
      refine returns_bind (M := fun r => ∀ j, r = .ok j → Json.WellFormed j) (returns_ofExcept ?_) ?_
        (fun x _ a ha => by cases ha)
      · intro j hj
        exact wellFormed_readResponse hj
      · intro data hdata a ha
        cases ha
        exact hdata data rfl

theorem returns_callRoute (c : Client) (route : Route) (json : Option Json) (t k : Option Str)
    (expected : List Nat) :
    Returns (fun r => ∀ j, r = .ok j → Json.WellFormed j) (callRoute L c route json t k expected) := by
  unfold callRoute
  split
  · exact fun a ha => by cases ha
  · refine returns_bind (returns_true _) ?_ (fun x _ a ha => by cases ha)
    intro headers _
    refine returns_bind (returns_requestWithHeaders c _ _ _ _ _) ?_ (fun x _ a ha => by cases ha)
    intro answer hanswer j hj
    cases hj
    exact hanswer answer rfl

theorem returns_parsed {raw : Json} (hraw : raw.WellFormed) :
    Returns (fun s => ∀ r : ExecutionResponse, s = .ok r → r.toJson.WellFormed)
      (computed (parseExecutionResponse L raw)) := by
  refine returns_ofExcept ?_
  intro r hr
  exact wellFormed_toJson hraw hr

theorem wellFormed_authorization {r : ExecutionResponse} (h : r.toJson.WellFormed) :
    (journalAuthorization r).WellFormed := by
  unfold journalAuthorization
  split
  · exact Json.wellFormed_set h _ trivial
  · exact h

theorem returns_prepareExecution (c : Client) (requested : Requested) (key : Str)
    (t : Option Str) :
    Returns (fun s => ∀ r, s = .ok r → (journalAuthorization r).WellFormed)
      (prepareExecution L c requested key t) := by
  refine returns_bind (returns_true _) ?_ (fun x _ r hr => by cases hr)
  intro headers _
  refine returns_bind (returns_true _) ?_ (fun x _ r hr => by cases hr)
  intro timestamp _
  refine returns_bind (returns_requestWithHeaders c _ _ _ _ _) ?_ (fun x _ r hr => by cases hr)
  intro answer hanswer
  refine returns_bind (returns_parsed (hanswer answer rfl)) ?_ (fun x _ r hr => by cases hr)
  intro result hresult
  split
  · intro r hr
    cases hr
    exact wellFormed_authorization (hresult result rfl)
  · exact fun r hr => by cases hr

theorem returns_continueExecution (c : Client) (operationId : Str) (requested : Requested)
    (i : Intent) (t : Option Str) :
    Returns (fun s => ∀ r, s = .ok r → (journalAuthorization r).WellFormed)
      (continueExecution L c operationId requested i t) := by
  unfold continueExecution
  split
  · exact fun r hr => by cases hr
  · refine returns_bind (returns_true _) ?_ (fun x _ r hr => by cases hr)
    intro timestamp _
    refine returns_bind (returns_callRoute c _ _ _ _ _) ?_ (fun x _ r hr => by cases hr)
    intro raw hraw
    refine returns_bind (returns_parsed (hraw raw rfl)) ?_ (fun x _ r hr => by cases hr)
    intro result hresult
    split
    · intro r hr
      cases hr
      exact wellFormed_authorization (hresult result rfl)
    · exact fun r hr => by cases hr

theorem returns_reportExecutionOutcome (c : Client) (operationId : Str) (outcome : Json)
    (key t : Option Str) :
    Returns (fun s => ∀ r : ExecutionResponse, s = .ok r → r.toJson.WellFormed)
      (reportExecutionOutcome L c operationId outcome key t) := by
  refine returns_bind (returns_callRoute c _ _ _ _ _) ?_ (fun x _ r hr => by cases hr)
  intro raw hraw
  refine returns_bind (returns_parsed (hraw raw rfl)) ?_ (fun x _ r hr => by cases hr)
  intro result hresult
  split
  · exact fun r hr => by cases hr
  · split
    · intro r hr
      cases hr
      exact hresult result rfl
    · exact fun r hr => by cases hr

/-- What a dispatch keeps of the journal it starts with. -/
def Carries (v w : Json) : Prop :=
  w.isObj = v.isObj ∧ w.get "authorization" = v.get "authorization" ∧
    (v.WellFormed → w.WellFormed)

theorem wellFormed_claim {v : Json} (hv : v.WellFormed) (operationId : Str)
    (r : ExecutionResponse) (started : Str) : (claimState v operationId r started).WellFormed := by
  have hreport : (outcomeReport operationId [("approval_sha256", optionText r.approvalSha256),
      ("target_state", .str (lit "unknown")), ("dispatch_started_at", .str started),
      ("completed_at", .str started)]).WellFormed := by
    refine wellFormed_report (by simp) ?_
    simp [Json.WellFormed, wellFormed_optionText]
  refine Json.wellFormed_update hv ?_
  simp only [List.forall_mem_cons]
  simp [Json.WellFormed, hreport]

theorem wellFormed_settled {v : Json} (hv : v.WellFormed) (operationId : Str)
    (r : ExecutionResponse) {a : Artifacts} (ha : a.Sound) (completed : Str) :
    (settledState v operationId r a completed).WellFormed := by
  have hreport := @wellFormed_report operationId _ (outcomeBody_keys v r a completed)
    (wellFormed_outcomeBody hv ha)
  refine Json.wellFormed_update hv ?_
  simp only [List.forall_mem_cons]
  simp [Json.WellFormed, hreport]

theorem carries_claim (v : Json) (operationId : Str) (r : ExecutionResponse) (started : Str) :
    Carries v (claimState v operationId r started) := by
  refine ⟨Json.isObj_update v _, ?_, fun hv => wellFormed_claim hv operationId r started⟩
  simp [claimState, Json.update, Json.get_set_other]

theorem carries_refl (v : Json) : Carries v v := ⟨rfl, rfl, id⟩

theorem returns_claim (c : Client) (operationId : Str) (r : ExecutionResponse)
    (approval state : Json) (t : Option Str) :
    Returns (fun s => ∀ a, s = .ok a → Carries state a.1) (claim L c operationId r approval state t) := by
  refine returns_bind (returns_true _) ?_ (fun x _ a ha => by cases ha)
  intro started _
  cases started with
  | error x =>
      intro a ha
      cases ha
      exact carries_refl state
  | ok started =>
      refine returns_bind (returns_true _) ?_ (fun x _ a ha => by cases ha)
      intro claimed _ a ha
      cases ha
      exact carries_claim state operationId r started

theorem returns_witnessedRun (c : Client) (operationId : Str) (r : ExecutionResponse)
    (approval state : Json) (t : Option Str) :
    Returns (fun s => ∀ a, s = .ok a → Carries state a.1)
      (witnessedRun L c operationId r approval state t) := by
  refine returns_bind (returns_true _) ?_ (fun x _ a ha => by cases ha)
  intro ready _
  cases ready with
  | error x =>
      intro a ha
      cases ha
      exact carries_refl state
  | ok u =>
      refine returns_bind (returns_claim c operationId r approval state t) ?_
        (fun x _ a ha => by cases ha)
      intro s hs
      rcases s with ⟨state', claimed⟩
      have hcarries : Carries state state' := hs _ rfl
      cases claimed with
      | error x =>
          intro a ha
          cases ha
          exact hcarries
      | ok u =>
          refine returns_bind (returns_true _) ?_ (fun x _ a ha => by cases ha)
          intro released _ a ha
          cases ha
          exact hcarries

theorem returns_dispatchWitnessed (c : Client) (requested : Requested)
    (privateHeaders : List (Str × Str)) (body : Str) (r : ExecutionResponse)
    (approval state : Json) (files : WitnessFiles) (k : Option Str) :
    Returns (fun s => ∀ a, s = .ok a → Carries state a.1 ∧ a.2.Sound)
      (dispatchWitnessed L c requested privateHeaders body r approval state files k) := by
  unfold dispatchWitnessed
  simp only
  split
  · exact fun a ha => by cases ha
  · refine returns_bind (returns_true _) ?_ (fun x _ a ha => by cases ha)
    intro admission _
    refine returns_bind (returns_true _) ?_ (fun x _ a ha => by cases ha)
    intro _ _
    refine returns_bind (returns_true _) ?_ (fun x _ a ha => by cases ha)
    intro _ _
    refine returns_bind (returns_true _) ?_ (fun x _ a ha => by cases ha)
    intro _ _
    refine returns_bind (returns_true _) ?_ (fun x _ a ha => by cases ha)
    intro stdin _
    refine returns_bind (returns_true _) ?_ (fun x _ a ha => by cases ha)
    intro _ _
    refine returns_bind (returns_witnessedRun c _ r approval state k) ?_ (fun x _ a ha => by cases ha)
    intro s hs
    refine returns_bind (returns_true _) ?_ (fun x _ a ha => by cases ha)
    intro _ _
    refine returns_bind (returns_true _) ?_ (fun x _ a ha => by cases ha)
    intro _ _
    refine returns_bind (returns_witnessArtifacts _) ?_ (fun x _ a ha => by cases ha)
    intro artifacts hartifacts a ha
    cases ha
    exact ⟨hs _ rfl, hartifacts _ rfl⟩

theorem returns_dispatch (c : Client) (args : Args) (requested : Requested)
    (privateHeaders : List (Str × Str)) (r : ExecutionResponse) (approval state : Json)
    (files : Option WitnessFiles) :
    Returns (fun s => ∀ a, s = .ok a → Carries state a.1 ∧ a.2.Sound)
      (dispatch L c args requested privateHeaders r approval state files) := by
  cases files with
  | some files => exact returns_dispatchWitnessed c requested privateHeaders args.body r approval _ _ _
  | none =>
      refine returns_bind (returns_claim c _ r approval state _) ?_ (fun x _ a ha => by cases ha)
      intro s hs
      refine returns_bind (returns_true _) ?_ (fun x _ a ha => by cases ha)
      intro _ _
      refine returns_bind (M := fun r => ∀ s, r = .ok s → ∀ v, s = .ok v → Observed v)
        (returns_attempt ?_) ?_ (fun x _ a ha => by cases ha)
      · refine returns_bind (returns_true _) ?_ (fun x _ s hs v hv => by
          cases hs
          cases hv)
        intro thread _
        refine returns_bind (returns_true _) ?_ (fun x _ s hs v hv => by
          cases hs
          cases hv)
        intro value _
        refine returns_ofExcept ?_
        intro s hs v hv
        cases hs
        exact observed_of_observedResponse hv
      · intro response hresponse
        cases response with
        | ok v =>
            intro a ha
            cases ha
            refine ⟨hs _ rfl, trivial, ?_⟩
            intro w hw
            cases hw
            exact hresponse _ rfl v rfl
        | error x =>
            simp only
            split
            · intro a ha
              cases ha
              exact ⟨hs _ rfl, trivial, fun w hw => by cases hw⟩
            · intro a ha
              cases ha

/-- The direct half has no native process to believe. -/
theorem direct_evident {c : Client} {requested : Requested} {privateHeaders : List (Str × Str)}
    {body : Str} {r : ExecutionResponse} {approval state state' : Json} {k : Option Str}
    {t : CallLog} {a : Artifacts}
    (h : Traces (dispatchDirect L c requested privateHeaders body r approval state k) t
      (.ok (state', a))) :
    a.attestation = .null ∧ ∀ v, a.response = some v → Consistent v := by
  rcases traces_bind_ok.mp h with ⟨⟨v, claimed⟩, t₁, t₂, _, h₂, _⟩
  rcases traces_ofExcept_bind_ok.mp h₂ with ⟨u, _, h₃⟩
  rcases traces_bind_ok.mp h₃ with ⟨response, t₃, t₄, hresponse, h₄, _⟩
  rcases traces_attempt.mp hresponse with ⟨s, hs, hsent⟩
  cases hs
  cases response with
  | error x =>
      simp only at h₄
      split at h₄
      · cases h₄.2
        exact ⟨rfl, fun w hw => by cases hw⟩
      · cases h₄.2
  | ok w =>
      cases h₄.2
      refine ⟨rfl, ?_⟩
      intro w' hw'
      cases hw'
      rcases traces_bind_ok.mp hsent with ⟨thread, t₅, t₆, _, h₆, _⟩
      rcases traces_bind_ok.mp h₆ with ⟨value, t₇, t₈, _, h₈, _⟩
      rcases traces_ofExcept.mp h₈ with ⟨_, hvalue⟩
      exact consistent_of_observed hvalue.symm

theorem witnessed_evident {c : Client} {requested : Requested} {privateHeaders : List (Str × Str)}
    {body : Str} {r : ExecutionResponse} {approval state state' : Json} {files : WitnessFiles}
    {k : Option Str} {t : CallLog} {a : Artifacts} {p : Remains}
    (h : Traces (dispatchWitnessed L c requested privateHeaders body r approval state files k) t
      (.ok (state', a))) (hp : p.FoundBy t) : ArtifactsOf p (optionText r.approvalSha256) a := by
  unfold dispatchWitnessed at h
  simp only at h
  split at h
  · cases h.2
  · rcases traces_bind_ok.mp h with ⟨admission, t₁, t₂, _, h₁, rfl⟩
    rcases traces_ofExcept_bind_ok.mp h₁ with ⟨_, _, h₂⟩
    rcases traces_ofExcept_bind_ok.mp h₂ with ⟨_, _, h₃⟩
    rcases traces_bind_ok.mp h₃ with ⟨_, t₃, t₄, _, h₄, rfl⟩
    rcases traces_ofExcept_bind_ok.mp h₄ with ⟨stdin, _, h₅⟩
    rcases traces_bind_ok.mp h₅ with ⟨_, t₅, t₆, _, h₆, rfl⟩
    rcases traces_bind_ok.mp h₆ with ⟨⟨v, run⟩, t₇, t₈, _, h₈, rfl⟩
    rcases traces_bind_ok.mp h₈ with ⟨_, t₉, t₁₀, _, h₁₀, rfl⟩
    rcases traces_bind_ok.mp h₁₀ with ⟨_, t₁₁, t₁₂, _, h₁₂, rfl⟩
    rcases traces_bind_ok.mp h₁₂ with ⟨artifacts, t₁₃, t₁₄, hread, hpure, rfl⟩
    cases hpure.2
    have hpread : p.FoundBy t₁₃ := hp.append.2.append.2.append.2.append.2.append.2.append.2.append.1
    exact witness_artifacts hread hpread

/-- What both halves find out. -/
theorem dispatch_evident {c : Client} {args : Args} {requested : Requested}
    {privateHeaders : List (Str × Str)} {r : ExecutionResponse} {approval state state' : Json}
    {files : Option WitnessFiles} {t : CallLog} {a : Artifacts} {p : Remains}
    (h : Traces (dispatch L c args requested privateHeaders r approval state files) t
      (.ok (state', a))) (hp : p.FoundBy t) :
    Evident p t (files.isSome = true) (optionText r.approvalSha256) a := by
  cases files with
  | none =>
      rcases direct_evident h with ⟨hnull, hconsistent⟩
      exact ⟨fun hne => absurd hnull hne, nofun, hconsistent, nofun⟩
  | some files =>
      have hart := witnessed_evident h hp
      exact ⟨hart.attested, fun _ => hart.failed, fun v hv => (hart.response v hv).consistent,
        fun _ => hart.response⟩

end Allowly

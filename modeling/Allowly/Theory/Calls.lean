import Allowly.Theory.Conformance

/-!
# The Calls Keep the Protocol

Every program that can be started follows the automaton of `Theory.Protocol`. The
proofs go along the programs: a part that is silent leaves the stage alone, and the
operations between the parts are edges.

## Main definitions

* `Checked`, `Claimed`, `Dispatched`, `ReportEnd`: Where the parts of a dispatch end.
* `Done`: How a call can end.

## Theorems

* `follows_claim`, `follows_dispatch`, `follows_settle`: The parts of a dispatch.
* `follows_flush`: The report of an outcome.
* `follows_executeHttp`, `follows_continueHttpExecution`: The two calls.
* `code_follows`: Every program follows the automaton.
-/

namespace Allowly

open Py Prog

variable {L : Libs}

/-! ### The dispatch -/

/-- The approval was checked, or the call has failed. -/
def Checked (L : Libs) (j : Job) (v : Json) (resp : ExecutionResponse) (p : Stage)
    (r : Except Exc Json) : Prop :=
  (p.busy = true ∧ failed r) ∨ ∃ e : Evidence, e.job = j ∧ e.response = resp ∧
    p = .timed j v resp e.checkedAt ∧ r = .ok e.approval ∧ e.Valid L

theorem follows_live {j : Job} {v : Json} {resp : ExecutionResponse} (approval : Json) :
    Follows (Edge L) (live L approval) (.recorded j v resp) fun p r => (p.busy = true ∧ failed r) ∨
      ∃ now, p = .timed j v resp now ∧ r = .ok () ∧ Evidence.Live L ⟨j, resp, approval, now⟩ := by
  have hidle : (Stage.recorded j v resp).busy = true := rfl
  refine follows_computed_bind ?_ (fun x _ => Or.inl ⟨hidle, trivial⟩)
  intro window hwindow
  cases window with
  | none => exact Or.inl ⟨hidle, trivial⟩
  | some w =>
      refine follows_bind (M := fun p r => (p.busy = true ∧ failed r) ∨ ∃ now, p = .timed j v resp now ∧
        r = .ok now) (follows_ask ?_ ?_) ?_ ?_
      · intro now
        exact ⟨_, Edge.time j v resp now, Or.inr ⟨now, rfl, rfl⟩⟩
      · intro x
        exact ⟨_, Edge.quiet _ _ _ rfl, Or.inl ⟨hidle, trivial⟩⟩
      · intro p now hp
        rcases hp with hp | ⟨now', rfl, hnow⟩
        · exact hp.2.elim
        · cases hnow
          split
          · next hin => exact Or.inr ⟨now, rfl, rfl, w, hwindow, hin⟩
          · exact Or.inl ⟨rfl, trivial⟩
      · intro p x hp
        rcases hp with hp | ⟨now, _, hnow⟩
        · exact Or.inl ⟨hp.1, trivial⟩
        · cases hnow

theorem follows_validateApproval {j : Job} {v : Json} {resp : ExecutionResponse}
    (hb : j.Built L) : Follows (Edge L) (validateApproval L resp j.requested) (.recorded j v resp)
      (Checked L j v resp) := by
  refine follows_computed_bind ?_ (fun x _ => Or.inl ⟨rfl, trivial⟩)
  intro approval happroval
  refine follows_bind (follows_live approval) ?_ ?_
  · intro p a hp
    rcases hp with hp | ⟨now, rfl, _, hlive⟩
    · exact hp.2.elim
    · exact Or.inr ⟨⟨j, resp, approval, now⟩, rfl, rfl, rfl, rfl, hb, happroval, hlive⟩
  · intro p x hp
    rcases hp with hp | ⟨now, _, hx, _⟩
    · exact Or.inl ⟨hp.1, trivial⟩
    · cases hx

/-- Where a claim ends: it was not made, or the journal in memory says that it was. -/
def Claimed (L : Libs) (e : Evidence) (v : Json) (p : Stage) (state : Json)
    (c : Except Exc Unit) : Prop :=
  (p = .bound e v ∧ state = v ∧ failed c) ∨
    (Leads L p e state ∧ (c = .ok () → ∃ resp, p = .asked e state resp ∧ e.Granted L resp))

theorem silent_started (approval : Json) : Silent (do
    live L approval
    let now ← ask .now
    return L.isoformat now : Call Str) := by
  refine silent_bind (silent_live L approval) ?_
  intro _
  exact silent_bind (silent_ask rfl) fun _ => silent_pure _

theorem follows_claim {c : Client} {e : Evidence} {v : Json} {t : Option Str} :
    Follows (Edge L) (claim L c e.job.args.operationId e.response e.approval v t) (.bound e v)
      fun p s => ∃ state r, s = .ok (state, r) ∧ Claimed L e v p state r := by
  refine follows_silent_bind (P := fun s => ∃ r : Except Exc Str, s = .ok r ∧
    ∀ started, r = .ok started → ∃ now, started = L.isoformat now)
    (silent_attempt (silent_started e.approval)) (returns_attempt ?_) ?_ ?_
  · refine returns_bind (returns_true _) ?_ ?_
    · intro _ _
      refine returns_bind (returns_true _) ?_ ?_
      · intro now _
        refine ⟨_, rfl, ?_⟩
        intro started h
        cases h
        exact ⟨now, rfl⟩
      · intro x _
        exact ⟨_, rfl, nofun⟩
    · intro x _
      exact ⟨_, rfl, nofun⟩
  · intro started hstarted
    rcases hstarted with ⟨r, hr, hstarted⟩
    cases hr
    cases started with
    | error x => exact ⟨v, .error x, rfl, Or.inl ⟨rfl, rfl, trivial⟩⟩
    | ok started =>
        rcases hstarted started rfl with ⟨now, rfl⟩
        refine follows_bind (M := fun p s => ∃ r, s = .ok r ∧ Claimed L e v p
          (claimState v e.job.args.operationId e.response (L.isoformat now)) r)
          (follows_attempt ?_) ?_ ?_
        · refine follows_bind (follows_save fun data hdata => Edge.attempt e v now data hdata) ?_ ?_
          · intro p _ hp
            rw [hp.of_ok]
            refine follows_bind follows_claimExecutionDispatch ?_ ?_
            · intro p raw hp
              rcases hp.of_ok with ⟨resp, rfl, ⟨sensitive, hraw⟩, hid, hsha, hstate⟩
              split
              · exact ⟨_, rfl, Or.inr ⟨Leads.asked e _ resp, nofun⟩⟩
              · next hsame =>
                  rw [not_or, Bool.not_eq_false, not_not] at hsame
                  refine follows_mono (follows_silent (silent_live L e.approval) (returns_true _)) ?_
                  intro p r hp
                  rw [hp.1]
                  refine ⟨r, rfl, Or.inr ⟨Leads.asked e _ resp, fun _ => ⟨resp, rfl, ?_⟩⟩⟩
                  exact ⟨sensitive, raw, hraw, hid, hsha, hstate, hsame.1, hsame.2⟩
            · intro p x hp
              rcases hp with ⟨rfl | rfl, _⟩ | ⟨resp, rfl, _⟩
              · exact ⟨_, rfl, Or.inr ⟨Leads.attempted e _, nofun⟩⟩
              · exact ⟨_, rfl, Or.inr ⟨Leads.spent e _, nofun⟩⟩
              · exact ⟨_, rfl, Or.inr ⟨Leads.asked e _ resp, nofun⟩⟩
          · intro p x hp
            rcases hp with rfl | ⟨rfl, _⟩
            · exact ⟨_, rfl, Or.inr ⟨Leads.attempted e _, nofun⟩⟩
            · exact ⟨_, rfl, Or.inr ⟨Leads.bound e v now, nofun⟩⟩
        · intro p r hp
          rcases hp with ⟨r', hr, hp⟩
          cases hr
          exact ⟨_, r, rfl, hp⟩
        · intro p x hp
          rcases hp with ⟨r', hr, _⟩
          cases hr
  · intro x hx
    rcases hx with ⟨r, hr, _⟩
    cases hr

/-- Where a dispatch ends: it has failed, or the outcome can be saved. -/
def Dispatched (L : Libs) (e : Evidence) (p : Stage) (r : Except Exc (Json × Artifacts)) : Prop :=
  (p.busy = true ∧ failed r) ∨ ∃ state artifacts, r = .ok (state, artifacts) ∧ Leads L p e state ∧
    artifacts.Sound

theorem Leads.busy {p : Stage} {e : Evidence} {v : Json} (h : Leads L p e v) : p.busy = true := by
  cases h with
  | bound => rfl
  | attempted => rfl
  | asked => rfl
  | spent => rfl

theorem Claimed.busy {e : Evidence} {v state : Json} {p : Stage} {c : Except Exc Unit}
    (h : Claimed L e v p state c) : p.busy = true := by
  rcases h with ⟨rfl, _⟩ | h
  · exact rfl
  · exact h.1.busy

theorem follows_dispatchDirect {c : Client} {e : Evidence} {v : Json} {t : Option Str}
    (hid : e.job.requested.operationId = e.job.args.operationId) (hm : ¬ e.Witnessed) :
    Follows (Edge L) (dispatchDirect L c e.job.requested e.job.privateHeaders e.job.args.body
      e.response e.approval v t) (.bound e v) (Dispatched L e) := by
  unfold dispatchDirect
  rw [hid]
  refine follows_bind follows_claim ?_ ?_
  · intro p s hs
    rcases hs with ⟨state, r, hs, hc⟩
    cases hs
    refine follows_computed_bind ?_ (fun x _ => Or.inl ⟨hc.busy, trivial⟩)
    intro _ hr
    rcases hc with hc | hc
    · rw [hr] at hc
      exact hc.2.2.elim
    · rcases hc.2 hr with ⟨resp, rfl, hg⟩
      -- whatever becomes of the thread, nothing is claimed or sent any more
      refine follows_bind (M := fun p s => ∃ r : Except Exc Json, s = .ok r ∧
        p = .spent e state ∧ ∀ v, r = .ok v → Observed v) (follows_attempt ?_) ?_ ?_
      · refine follows_bind (M := fun p _ => p = .spent e state) (follows_ask ?_ ?_) ?_ ?_
        · intro thread
          exact ⟨_, Edge.launch e state resp _ hg hm, rfl⟩
        · intro x
          exact ⟨_, Edge.launch e state resp _ hg hm, rfl⟩
        · intro p thread hp
          rw [hp]
          refine follows_quiet_bind rfl ?_ (fun x => ⟨_, rfl, rfl, nofun⟩)
          intro value
          refine follows_ofExcept ⟨_, rfl, rfl, ?_⟩
          intro v hv
          exact observed_of_observedResponse hv
        · intro p x hp
          exact ⟨_, rfl, hp, nofun⟩
      · intro p r hp
        rcases hp with ⟨r', hr', rfl, hv⟩
        cases hr'
        cases r with
        | ok v =>
            refine Or.inr ⟨state, _, rfl, Leads.spent e state, trivial, ?_⟩
            intro w hw
            cases hw
            exact hv v rfl
        | error x =>
            simp only
            split
            · refine Or.inr ⟨state, _, rfl, Leads.spent e state, trivial, ?_⟩
              intro w hw
              cases hw
            · exact Or.inl ⟨rfl, trivial⟩
      · intro p x hp
        rcases hp with ⟨r', hr', _⟩
        cases hr'
  · intro p x hx
    rcases hx with ⟨state, r, hs, _⟩
    cases hs

theorem follows_witnessedRun {c : Client} {e : Evidence} {v : Json} {t : Option Str}
    (hm : e.Witnessed) :
    Follows (Edge L)
      (witnessedRun L c e.job.args.operationId e.response e.approval v t) (.bound e v)
      fun p s => ∃ state r, s = .ok (state, r) ∧
        ((p = .bound e v ∧ state = v ∧ failed r) ∨ Leads L p e state) := by
  refine follows_silent_bind (P := fun s => ∃ r : Except Exc Unit, s = .ok r)
    (silent_attempt ?_) (returns_attempt (returns_mono (returns_true _) fun r _ => ⟨r, rfl⟩)) ?_ ?_
  · refine silent_bind (silent_ask rfl) ?_
    intro polls
    refine silent_bind (silent_awaitReady polls) ?_
    intro _
    refine silent_bind (silent_readJson _ _) ?_
    intro gate
    split
    · exact silent_pure _
    · exact silent_raise _
  · intro ready _
    cases ready with
    | error x => exact ⟨v, _, rfl, Or.inl ⟨rfl, rfl, trivial⟩⟩
    | ok _ =>
        refine follows_bind follows_claim ?_ ?_
        · intro p s hs
          rcases hs with ⟨state, r, hs, hc⟩
          cases hs
          cases r with
          | error x =>
              rcases hc with hc | hc
              · exact ⟨state, _, rfl, Or.inl ⟨hc.1, hc.2.1, trivial⟩⟩
              · exact ⟨state, _, rfl, Or.inr hc.1⟩
          | ok _ =>
              rcases hc with hc | hc
              · exact hc.2.2.elim
              · rcases hc.2 rfl with ⟨resp, rfl, hg⟩
                refine follows_bind (M := fun p s => ∃ r : Except Exc Unit, s = .ok r ∧
                  Leads L p e state) (follows_attempt ?_) ?_ ?_
                · refine follows_bind (follows_save fun data hdata =>
                    Edge.release e state resp data hg hm hdata) ?_ ?_
                  · intro p _ hp
                    rw [hp.of_ok]
                    exact follows_quiet_ask rfl fun r => ⟨r, rfl, Leads.spent e state⟩
                  · intro p x hp
                    rcases hp with rfl | ⟨rfl, _⟩
                    · exact ⟨_, rfl, Leads.spent e state⟩
                    · exact ⟨_, rfl, Leads.asked e state resp⟩
                · intro p r hp
                  rcases hp with ⟨r', hr', hp⟩
                  cases hr'
                  exact ⟨state, r, rfl, Or.inr hp⟩
                · intro p x hp
                  rcases hp with ⟨r', hr', _⟩
                  cases hr'
        · intro p x hx
          rcases hx with ⟨state, r, hs, _⟩
          cases hs
  · intro x hx
    rcases hx with ⟨r, hr⟩
    cases hr

theorem silent_afterRun (state : Json) (r : Except Exc Unit) : Silent (afterRun state r) := by
  cases r with
  | ok _ => exact silent_pure _
  | error x =>
      simp only [afterRun]
      split
      · exact silent_pure _
      · exact silent_raise _

/-- A failure is only passed over once the journal in memory has the claim. -/
theorem returns_afterRun (state : Json) (r : Except Exc Unit) :
    Returns (fun s => s = .ok () → failed r → state.get "phase" = .str (lit "dispatch_attempted"))
      (afterRun state r) := by
  cases r with
  | ok _ => exact fun _ hr => hr.elim
  | error x =>
      simp only [afterRun]
      split
      · next h => exact fun _ _ => h.2
      · exact nofun

theorem follows_dispatchWitnessed {c : Client} {e : Evidence} {v : Json} {t : Option Str}
    {files : WitnessFiles} (hid : e.job.requested.operationId = e.job.args.operationId)
    (hm : e.Witnessed) (hv : v.get "phase" ≠ .str (lit "dispatch_attempted")) :
    Follows (Edge L) (dispatchWitnessed L c e.job.requested e.job.privateHeaders e.job.args.body
      e.response e.approval v files t) (.bound e v) (Dispatched L e) := by
  have hbound : ∀ x, Dispatched L e (.bound e v) (.error x) := fun x => Or.inl ⟨rfl, trivial⟩
  unfold dispatchWitnessed
  simp only
  rw [hid]
  split
  · exact hbound _
  · refine follows_bind follows_getExecutionWitnessToken ?_ (fun p x hp => by
      rw [hp]
      exact hbound x)
    intro p admission hp
    rw [hp]
    refine follows_computed_bind ?_ (fun x _ => hbound x)
    intro _ _
    refine follows_computed_bind ?_ (fun x _ => hbound x)
    intro _ _
    refine follows_quiet_bind rfl ?_ hbound
    intro _
    refine follows_computed_bind ?_ (fun x _ => hbound x)
    intro stdin hstdin
    refine follows_bind (M := fun p _ => p = .bound e v) (follows_ask ?_ ?_) ?_ ?_
    · intro a
      exact ⟨_, Edge.tell e v admission stdin _ hm hstdin, rfl⟩
    · intro x
      exact ⟨_, Edge.tell e v admission stdin _ hm hstdin, rfl⟩
    · intro p _ hp
      rw [hp]
      refine follows_bind (follows_witnessedRun hm) ?_ ?_
      · intro p s hs
        rcases hs with ⟨state, r, hs, hp⟩
        cases hs
        have hbusy : p.busy = true := by
          rcases hp with ⟨rfl, _⟩ | hp
          · exact rfl
          · exact hp.busy
        refine follows_quiet_bind rfl ?_ (fun x => Or.inl ⟨hbusy, trivial⟩)
        intro _
        refine follows_silent_bind (silent_afterRun state r) (returns_afterRun state r) ?_
          (fun x _ => Or.inl ⟨hbusy, trivial⟩)
        intro _ hafter
        have hleads : Leads L p e state := by
          rcases hp with ⟨_, rfl, hr⟩ | hp
          · exact absurd (hafter rfl hr) hv
          · exact hp
        refine follows_silent_bind (silent_witnessArtifacts _) (returns_witnessArtifacts _) ?_
          (fun x _ => Or.inl ⟨hbusy, trivial⟩)
        intro artifacts hartifacts
        exact Or.inr ⟨state, artifacts, rfl, hleads, hartifacts artifacts rfl⟩
      · intro p x hx
        rcases hx with ⟨state, r, hs, _⟩
        cases hs
    · intro p x hp
      rw [hp]
      exact hbound x

/-! ### The report -/

/-- Where a report ends. -/
def ReportEnd (b : Bool) (v : Json) (p : Stage) : Prop :=
  p = .reporting b v ∨ p = .flushed b ∨ ∃ resp, p = .reported b v resp

theorem follows_reportOutcome {c : Client} {b : Bool} {v : Json} {t : Option Str} :
    Follows (Edge L) (reportOutcome L c v t) (.reporting b v) fun p _ => ReportEnd b v p := by
  refine follows_computed_bind ?_ (fun x _ => Or.inl rfl)
  intro id hid
  refine follows_computed_bind ?_ (fun x _ => Or.inl rfl)
  intro body hbody
  refine follows_computed_bind ?_ (fun x _ => Or.inl rfl)
  intro key hkey
  refine follows_computed_bind ?_ (fun x _ => Or.inl rfl)
  intro operationId hoperationId
  refine follows_computed_bind ?_ (fun x _ => Or.inl rfl)
  intro k hk
  have hmember : ∀ {j : Json} {name : String} {w : Json}, member j name = .ok w → w = j.get name := by
    intro j name w h
    unfold member at h
    split at h
    · cases h
      rfl
    · cases h
  rw [hmember hid] at hoperationId
  rw [hmember hkey] at hk
  rw [hmember hbody]
  have htext : v.get "operation_id" = .str operationId := by
    unfold textOf at hoperationId
    split at hoperationId
    · next s hs =>
        cases hoperationId
        exact hs
    · cases hoperationId
  refine follows_bind (follows_reportExecutionOutcome htext hk) ?_ ?_
  · intro p final hp
    rcases hp.of_ok with ⟨resp, rfl, hfinal⟩
    refine follows_bind (follows_save fun data hdata => Edge.complete b v resp final data hfinal hdata)
      ?_ ?_
    · intro p _ hp
      rw [hp.of_ok]
      exact Or.inr (Or.inl rfl)
    · intro p x hp
      rcases hp with rfl | ⟨rfl, _⟩
      · exact Or.inr (Or.inl rfl)
      · exact Or.inr (Or.inr ⟨resp, rfl⟩)
  · intro p x hp
    rcases hp with ⟨rfl | rfl, _⟩ | ⟨resp, rfl, _⟩
    · exact Or.inl rfl
    · exact Or.inr (Or.inl rfl)
    · exact Or.inr (Or.inr ⟨resp, rfl⟩)

/-- Reading a journal, when the stage depends on what it says. -/
theorem follows_readJournal {B : Type} {q : Stage} {f : Json → Call B}
    {post : Stage → Except Exc B → Prop}
    (hread : ∀ data v, Reads data v → ∃ q', Edge L q (.read .journal readLimit) (.ok data) q' ∧
      Follows (Edge L) (f v) q' post)
    (hbad : ∀ data x, (¬ ∃ v, Reads data v) → Plain (.error x : Except Exc B) →
      ∃ q', Edge L q (.read .journal readLimit) (.ok data) q' ∧ post q' (.error x))
    (herr : ∀ x : Fault, ∃ q', Edge L q (.read .journal readLimit) (.error x) q' ∧
      post q' (.error x.val)) :
    Follows (Edge L) (readJson .journal readLimit >>= f) q post := by
  have hstep : ∀ data q', Follows (Edge L)
      (((if data.length > readLimit then raise (.protocol "execution artifact exceeds its limit" none)
        else pure data : Call Bytes) >>= fun b => computed (loadJson b)) >>= f) q' post →
      Follows (Edge L) (computed (Except.ok data) >>= fun data : Bytes =>
        (((if data.length > readLimit then
          raise (.protocol "execution artifact exceeds its limit" none)
        else pure data : Call Bytes) >>= fun b => computed (loadJson b)) >>= f)) q' post :=
    fun _ _ h => h
  intro r
  cases r with
  | error x =>
      rcases herr x with ⟨q', he, hp⟩
      exact ⟨q', he, hp⟩
  | ok data =>
      by_cases hlen : data.length > readLimit
      · have hno : ¬ ∃ v, Reads data v := fun ⟨v, hv⟩ => absurd hv.1 (Nat.not_le.mpr hlen)
        rcases hbad data (.protocol "execution artifact exceeds its limit" none) hno
          (plain_error rfl) with ⟨q', he, hp⟩
        refine ⟨q', he, hstep data q' ?_⟩
        rw [if_pos hlen]
        exact hp
      · cases hload : loadsBytes data with
        | some v =>
            rcases hread data v ⟨Nat.not_lt.mp hlen, hload⟩ with ⟨q', he, hf⟩
            refine ⟨q', he, hstep data q' ?_⟩
            rw [if_neg hlen]
            have hcont : Follows (Edge L) (computed (loadJson data) >>= f) q' post := by
              rw [loadJson, hload]
              exact hf
            exact hcont
        | none =>
            have hno : ¬ ∃ v, Reads data v := by
              rintro ⟨v, hv⟩
              rw [hv.2] at hload
              cases hload
            rcases hbad data (.value "Expecting value") hno (plain_error rfl) with ⟨q', he, hp⟩
            refine ⟨q', he, hstep data q' ?_⟩
            rw [if_neg hlen]
            have hcont : Follows (Edge L) (computed (loadJson data) >>= f) q' post := by
              rw [loadJson, hload]
              exact hp
            exact hcont

theorem follows_map {A B : Type} {p : Call A} {f : A → B} {q : Stage}
    {post : Stage → Except Exc B → Prop}
    (h : Follows (Edge L) p q fun q r => post q (r.map f)) : Follows (Edge L) (f <$> p) q post :=
  follows_bind h (fun _ _ hp => hp) (fun _ _ hp => hp)

theorem ReportEnd.busy {v : Json} {p : Stage} (h : ReportEnd false v p) : p.busy = true := by
  rcases h with rfl | rfl | ⟨resp, rfl⟩
  · exact rfl
  · exact rfl
  · exact rfl

theorem ReportEnd.ends {b : Bool} {v : Json} {p : Stage} {r : Except Exc Value} (h : ReportEnd b v p)
    (hr : Plain r) : Ends L p r := by
  rcases h with rfl | rfl | ⟨resp, rfl⟩
  · exact hr
  · exact hr
  · exact hr

theorem plain_callRoute (c : Client) (route : Route) (json : Option Json) (t k : Option Str)
    (expected : List Nat) : Returns Plain (callRoute L c route json t k expected) := by
  unfold callRoute
  split
  · exact returns_plain_raise rfl
  · refine returns_plain_bind (plain_identityHeaders c t k) ?_
    intro headers
    refine returns_plain_bind ?_ fun _ => returns_plain_pure _
    unfold requestWithHeaders
    split
    · exact returns_plain_raise rfl
    · split
      · exact returns_plain_raise rfl
      · refine returns_plain_bind ?_ ?_
        · refine returns_bind (M := fun r => ∃ s : Except Exc ApiResponse, r = .ok s ∧ Plain s)
            (returns_attempt (returns_mono (returns_plain_ask _) fun r hr => ⟨r, rfl, hr⟩)) ?_ ?_
          · intro answer hanswer
            rcases hanswer with ⟨s, hs, hplain⟩
            cases hs
            split
            · exact returns_plain_pure _
            · split
              · exact returns_plain_ask _
              · exact returns_plain_raise rfl
            · exact fun h => hplain (by cases h; rfl)
          · intro x hx
            rcases hx with ⟨s, hs, _⟩
            cases hs
        · intro resp
          exact returns_plain_bind (returns_plain_computed (plain_readResponse _ _ _ _)) fun _ =>
            returns_plain_pure _

theorem plain_member (j : Json) (key : String) : Plain (member j key) := by
  unfold member
  split
  · exact plain_ok _
  · exact plain_error rfl

theorem plain_textOf (j : Json) : Plain (textOf j) := by
  cases j with
  | str s => exact plain_ok _
  | _ => exact plain_error rfl

theorem plain_keyOf (j : Json) : Plain (keyOf j) := by
  cases j with
  | null => exact plain_ok _
  | str s => exact plain_ok _
  | _ => exact plain_error rfl

/-- A report never asks for recovery. -/
theorem plain_reportOutcome (c : Client) (v : Json) (t : Option Str) :
    Returns Plain (reportOutcome L c v t) := by
  refine returns_plain_bind (returns_plain_computed (plain_member _ _)) ?_
  intro id
  refine returns_plain_bind (returns_plain_computed (plain_member _ _)) ?_
  intro body
  refine returns_plain_bind (returns_plain_computed (plain_member _ _)) ?_
  intro key
  refine returns_plain_bind (returns_plain_computed (plain_textOf _)) ?_
  intro operationId
  refine returns_plain_bind (returns_plain_computed (plain_keyOf _)) ?_
  intro k
  refine returns_plain_bind ?_ ?_
  · refine returns_plain_bind (plain_callRoute _ _ _ _ _ _) ?_
    intro raw
    refine returns_plain_bind (returns_plain_computed (plain_parseExecutionResponse _ _)) ?_
    intro final
    split
    · exact returns_plain_raise rfl
    · split
      · exact returns_plain_pure _
      · exact returns_plain_raise rfl
  · intro final
    exact returns_plain_bind (plain_save _ _) fun _ => returns_plain_pure _

theorem plain_hasOutcome (v : Json) : Plain (hasOutcome v) := by
  refine plain_bind ?_ ?_
  · unfold getAttr
    split
    · exact plain_ok _
    · exact plain_error rfl
  · intro version
    refine plain_bind ?_ fun _ => plain_ok _
    unfold versionIn
    split
    · exact plain_error rfl
    · exact plain_error rfl
    · exact plain_ok _

theorem follows_flush {c : Client} {t : Option Str} :
    Follows (Edge L) (flushExecutionOutcome L c t) (.start (.flush c t))
      fun p r => Ends L p (r.map Value.final) := by
  have htrip : ∀ (x : Fault) (o : Op), Quiet o = true →
      ∃ q', Edge L (.start (.flush c t)) o (.error x) q' ∧
        Ends L q' ((Except.error x.val : Except Exc ExecutionResponse).map Value.final) :=
    fun x o h => ⟨.tripped, Edge.trip _ o x (Idle.start _) (Or.inl h), trivial, plain_error x.property⟩
  refine follows_bind (M := fun p r => (p = .start (.flush c t) ∧ r = .ok ()) ∨
    (p = .tripped ∧ ∃ x, r = .error x ∧ x.isRecovery = false)) (follows_ask ?_ ?_) ?_ ?_
  · intro a
    exact ⟨_, Edge.quiet _ _ _ rfl, Or.inl ⟨rfl, rfl⟩⟩
  · intro x
    exact ⟨_, Edge.trip _ _ x (Idle.start _) (Or.inl rfl), Or.inr ⟨rfl, x.val, rfl, x.property⟩⟩
  · intro p a hp
    rcases hp with ⟨rfl, _⟩ | ⟨_, x, hx, _⟩
    swap
    · cases hx
    refine follows_readJournal ?_ ?_ (fun x => htrip x _ rfl)
    · intro data v hr
      by_cases ho : hasOutcome v = .ok true
      · refine ⟨_, Edge.readFlush c t data v hr ho, ?_⟩
        rw [ho]
        refine follows_mono (follows_and follows_reportOutcome (plain_reportOutcome c v t)) ?_
        intro p r hp
        exact hp.1.ends (plain_map hp.2 _)
      · refine ⟨_, Edge.reject c t data, ?_⟩
        refine follows_computed_bind ?_ ?_
        · intro pending hpending
          cases pending with
          | true => exact absurd hpending ho
          | false => exact ⟨trivial, fun _ => ⟨v, hr, hpending⟩⟩
        · intro x hx
          have hplain := plain_hasOutcome v
          rw [hx] at hplain
          exact ⟨trivial, fun h => absurd h hplain.error_of⟩
    · intro data x _ hx
      exact ⟨_, Edge.reject c t data, trivial, fun h => absurd h (plain_map hx Value.final)⟩
  · intro p x hp
    rcases hp with ⟨_, hx⟩ | ⟨rfl, y, hy, hplain⟩
    · cases hx
    · cases hy
      exact ⟨trivial, plain_error hplain⟩

theorem follows_flush_settled {c : Client} {t : Option Str} {u : Json} :
    Follows (Edge L) (flushExecutionOutcome L c t) (.settled u) fun p _ => p.busy = true := by
  have hstay : ∀ o (r : Except Fault o.Answer), Quiet o = true → ∃ q', Edge L (.settled u) o r q' ∧
      q'.busy = true := fun o r h => ⟨_, Edge.quiet _ o r h, rfl⟩
  refine follows_quiet_bind rfl ?_ (fun x => rfl)
  intro _
  refine follows_readJournal ?_ (fun data x _ _ => hstay _ _ rfl) (fun x => hstay _ _ rfl)
  intro data v hr
  by_cases ho : hasOutcome v = .ok true
  · refine ⟨_, Edge.readSettled u data v hr ho, ?_⟩
    rw [ho]
    exact follows_mono follows_reportOutcome fun p r hp => hp.busy
  · refine ⟨_, Edge.quiet _ _ _ rfl, ?_⟩
    refine follows_computed_bind ?_ (fun x _ => rfl)
    intro pending hpending
    cases pending with
    | true => exact absurd hpending ho
    | false => exact rfl

theorem follows_settle {c : Client} {e : Evidence} {v : Json} {a : Artifacts} {t : Option Str}
    {q : Stage} (hl : Leads L q e v) (ha : a.Sound) :
    Follows (Edge L) (settle L c e.job.args.operationId e.response v a t) q
      fun p _ => p.busy = true := by
  have hsilent : Silent (saveResponse a.response) := by
    cases a.response with
    | none => exact silent_pure _
    | some response => exact silent_save_response response
  refine follows_silent_bind hsilent (returns_true _) ?_ (fun x _ => hl.busy)
  intro _ _
  refine follows_quiet_bind rfl ?_ (fun x => hl.busy)
  intro now
  refine follows_bind (follows_save fun data hdata =>
    Edge.settle q e v _ data hl ⟨a, now, ha, rfl⟩ hdata) ?_ ?_
  · intro p _ hp
    rw [hp.of_ok]
    refine follows_bind (M := fun p _ => p.busy = true) (follows_attempt follows_flush_settled) ?_
      (fun p x hp => hp)
    intro p reported hp
    cases reported with
    | ok final => exact hp
    | error x =>
        simp only
        split
        · exact hp
        · exact hp
  · intro p x hp
    rcases hp with rfl | ⟨rfl, _⟩
    · exact rfl
    · exact hl.busy

/-! ### The calls -/

/-- How a call can end. -/
def Done (L : Libs) (p : Stage) (r : Except Exc LocalExecutionResult) : Prop :=
  Ends L p (r.map Value.done)

theorem follows_dispatch {c : Client} {e : Evidence} {v : Json}
    {files : Option WitnessFiles} (hid : e.job.requested.operationId = e.job.args.operationId)
    (hm : files.isSome = true ↔ e.Witnessed)
    (hv : v.get "phase" ≠ .str (lit "dispatch_attempted")) :
    Follows (Edge L) (dispatch L c e.job.args e.job.requested
      e.job.privateHeaders e.response e.approval v files) (.bound e v) (Dispatched L e) := by
  cases files with
  | some files => exact follows_dispatchWitnessed hid (hm.mp rfl) hv
  | none =>
      refine follows_dispatchDirect hid ?_
      intro hw
      cases hm.mpr hw

theorem silent_optionalFiles (a : Args) (r : ExecutionResponse) (approval : Json) :
    Silent (optionalFiles L a r approval) := by
  unfold optionalFiles
  split
  · exact silent_bind (silent_sessionFiles _ _ _ _ _) fun _ => silent_pure _
  · exact silent_pure _

theorem returns_optionalFiles (a : Args) (r : ExecutionResponse) (approval : Json) :
    Returns (fun s => ∀ files, s = .ok files →
      (files.isSome = true ↔ r.effectiveEvidenceMode = some (lit "witnessed")))
      (optionalFiles L a r approval) := by
  unfold optionalFiles
  split
  · next h =>
      refine returns_bind (returns_true _) ?_ (fun x _ => nofun)
      intro files _ s hs
      cases hs
      exact ⟨fun _ => h, fun _ => rfl⟩
  · next h =>
      intro files hs
      cases hs
      exact ⟨nofun, fun hw => absurd hw h⟩

theorem Job.Built.operationId {j : Job} (h : j.Built L) :
    j.requested.operationId = j.args.operationId := by
  rcases h with ⟨base, timestamp, hbase, hr⟩
  unfold httpExecutionRequest at hbase
  split at hbase
  · cases hbase
  · rcases bind_eq_ok.mp hbase with ⟨d, _, hd⟩
    simp only [pure, Except.pure, Except.ok.injEq, Prod.mk.injEq] at hd
    rw [hr, ← hd.1]

theorem follows_dispatchApproved {c : Client} {j : Job} {v : Json} {r : ExecutionResponse}
    (hb : j.Built L) (hv : v.get "phase" ≠ .str (lit "dispatch_attempted")) :
    Follows (Edge L) (dispatchApproved L c j.args j.requested j.privateHeaders v r)
      (.recorded j v r) fun p _ => p.busy = true := by
  refine follows_bind (follows_validateApproval hb) ?_ ?_
  · intro p approval hp
    rcases hp with hp | ⟨e, rfl, rfl, rfl, ha, he⟩
    · exact hp.2.elim
    · cases ha
      refine follows_silent_bind (silent_optionalFiles _ _ _) (returns_optionalFiles _ _ _) ?_
        (fun x _ => rfl)
      intro files hfiles
      refine follows_bind (follows_save fun data hdata => Edge.bind e v data he hdata) ?_ ?_
      · intro p _ hp
        rw [hp.of_ok]
        refine follows_bind (follows_dispatch hb.operationId (hfiles files rfl) hv) ?_ ?_
        · intro p s hs
          rcases hs with hs | ⟨state, artifacts, hs, hleads, hsound⟩
          · exact hs.2.elim
          · cases hs
            rw [hb.operationId]
            exact follows_settle hleads hsound
        · intro p x hx
          rcases hx with hx | ⟨_, _, hx, _⟩
          · exact hx.1
          · cases hx
      · intro p x hp
        rcases hp with rfl | ⟨rfl, _⟩
        · exact rfl
        · exact rfl
  · intro p x hp
    rcases hp with hp | ⟨_, _, _, _, hx, _⟩
    · exact hp.1
    · cases hx

/-- No answer of the runtime makes the journal say that a claim was made. -/
theorem answeredState_phase (v : Json) (j : Job) (r : ExecutionResponse) :
    (answeredState v j.approvedPhase r).get "phase" ≠ .str (lit "dispatch_attempted") := by
  have hphase : ∀ name : String, name ≠ "dispatch_attempted" →
      (v.update [("phase", .str (lit name)), ("authorization", journalAuthorization r)]).get "phase"
        ≠ .str (lit "dispatch_attempted") := by
    intro name hname
    by_cases ho : v.isObj = true
    · have hget : (v.update [("phase", .str (lit name)),
          ("authorization", journalAuthorization r)]).get "phase" = .str (lit name) := by
        change ((v.set "phase" _).set "authorization" _).get "phase" = _
        rw [Json.get_set_other (by decide), Json.get_set_self ho]
      rw [hget]
      intro h
      rw [Json.str.injEq] at h
      exact hname (lit_inj.mp h)
    · cases v with
      | obj ms => exact absurd rfl ho
      | _ => exact nofun
  unfold answeredState
  simp only
  split
  · exact hphase _ (by decide)
  · split
    · refine hphase _ ?_
      unfold Job.approvedPhase
      split
      · decide
      · decide
    · exact hphase _ (by decide)

theorem follows_proceed {c : Client} {j : Job} {v : Json} {resp : ApiResponse}
    {r : ExecutionResponse} (hb : j.Built L) (ha : j.Accepts L resp r) :
    Follows (Edge L) (proceed L c j.args j.requested j.privateHeaders v j.approvedPhase r)
      (.heard j v resp) fun p _ => p.busy = true := by
  refine follows_bind (follows_save fun data hdata => Edge.record j v resp r data ha hdata) ?_ ?_
  · intro p _ hp
    rw [hp.of_ok]
    split
    · exact rfl
    · exact follows_dispatchApproved hb (answeredState_phase v j r)
  · intro p x hp
    rcases hp with rfl | ⟨rfl, _⟩
    · exact rfl
    · exact rfl

theorem done_tripped (x : Fault) : Done L .tripped (.error x.val) :=
  ⟨trivial, plain_error x.property⟩

/-- The lock is taken by one edge and given back by another. Where the call has been
    busy in between, nothing is known of its end. -/
theorem follows_withLock {body : Call LocalExecutionResult} {q locked : Stage}
    (hlock : Edge L q .flock (.ok ()) locked)
    (hbody : Follows (Edge L) body locked fun p r => (Idle p ∧ Done L p r) ∨ p.busy = true)
    (hidle : Idle q → ∀ r, Recovers r → Done L q r)
    (hbusy : ¬ Idle q → q.busy = true ∧ ∀ r, Done L q r) :
    Follows (Edge L) (withLock body) q (Done L) := by
  have htrip : ∀ (x : Fault) (o : Op), (Quiet o = true ∨ Failing o = true ∨ o = .closeLock) →
      Idle q → Edge L q o (.error x) .tripped := fun x o ho hq => Edge.trip q o x hq ho
  refine follows_bind (M := fun p r => (p = q ∧ (¬ Idle q ∨ r = .ok ())) ∨
    (p = .tripped ∧ ∃ x : Fault, r = .error x.val)) (follows_ask ?_ ?_) ?_ ?_
  · intro a
    exact ⟨q, Edge.quiet q _ _ rfl, Or.inl ⟨rfl, Or.inr rfl⟩⟩
  · intro x
    by_cases hq : Idle q
    · exact ⟨_, htrip x _ (Or.inl rfl) hq, Or.inr ⟨rfl, x, rfl⟩⟩
    · exact ⟨q, Edge.quiet q _ _ rfl, Or.inl ⟨rfl, Or.inl hq⟩⟩
  · intro p a hp
    rcases hp with ⟨rfl, _⟩ | ⟨_, x, hx⟩
    swap
    · cases hx
    refine follows_always (M := fun p r => (Idle p ∧ Done L p r) ∨ p.busy = true) ?_ ?_
    · refine follows_bind (M := fun p' s => (p' = locked ∧ s = .ok (.ok ())) ∨
        ∃ x : Fault, s = .ok (.error x.val) ∧ (p' = p ∧ (x.val.isOSError = true ∨ ¬ Idle p) ∨
          p' = .tripped ∧ x.val.isOSError = false)) (follows_attempt (follows_ask ?_ ?_)) ?_ ?_
      · intro _
        exact ⟨locked, hlock, Or.inl ⟨rfl, rfl⟩⟩
      · intro x
        by_cases hos : x.val.isOSError = true
        · exact ⟨p, Edge.failed p _ x rfl, Or.inr ⟨x, rfl, Or.inl ⟨rfl, Or.inl hos⟩⟩⟩
        · rw [Bool.not_eq_true] at hos
          by_cases hp : Idle p
          · exact ⟨_, htrip x _ (Or.inr (Or.inl rfl)) hp, Or.inr ⟨x, rfl, Or.inr ⟨rfl, hos⟩⟩⟩
          · exact ⟨p, Edge.failed p _ x rfl, Or.inr ⟨x, rfl, Or.inl ⟨rfl, Or.inr hp⟩⟩⟩
      · intro p' s hs
        rcases hs with ⟨rfl, hs⟩ | ⟨x, hs, hp'⟩
        · cases hs
          exact hbody
        · cases hs
          rcases hp' with ⟨rfl, hx⟩ | ⟨rfl, hx⟩
          · simp only
            split
            · by_cases hq : Idle p'
              · exact Or.inl ⟨hq, hidle hq _ rfl⟩
              · exact Or.inr (hbusy hq).1
            · next hos =>
                have hq := hx.resolve_left hos
                exact Or.inr (hbusy hq).1
          · simp only [hx]
            exact Or.inl ⟨Idle.tripped, done_tripped x⟩
      · intro p' x hs
        rcases hs with ⟨_, hs⟩ | ⟨_, hs, _⟩
        · cases hs
        · cases hs
    · intro p' r hp'
      refine follows_ask ?_ ?_
      · intro _
        rcases hp' with ⟨hi, hdone⟩ | hb
        · exact ⟨p', Edge.unlockIdle p' hi, hdone⟩
        · exact ⟨.ended, Edge.unlock p' _ hb, trivial⟩
      · intro x
        rcases hp' with ⟨hi, _⟩ | hb
        · exact ⟨.tripped, Edge.trip p' _ x hi (Or.inr (Or.inr rfl)), done_tripped x⟩
        · exact ⟨.ended, Edge.unlock p' _ hb, trivial⟩
  · intro p x hp
    rcases hp with ⟨rfl, h⟩ | ⟨rfl, y, hy⟩
    · rcases h with h | h
      · exact (hbusy h).2 _
      · cases h
    · cases hy
      exact done_tripped y

/-- The end of a call that has been busy. -/
theorem busy_done {A : Type} {body : Call A} {q : Stage} {post : Stage → Except Exc A → Prop}
    (h : Follows (Edge L) body q fun p _ => p.busy = true) :
    Follows (Edge L) body q fun p r => (Idle p ∧ post p r) ∨ p.busy = true :=
  follows_mono h fun _ _ hp => Or.inr hp

theorem follows_executePrepared {c : Client} {j : Job} {timestamp : Str} (hb : j.Built L)
    (hi : j.intent = none) (ht : j.requested.clientTimestamp = some timestamp) :
    Follows (Edge L) (executePrepared L c j.args j.requested j.privateHeaders timestamp) (.made j)
      (Done L) := by
  have hphase : "authorized" = j.approvedPhase := by rw [Job.approvedPhase, hi]
  refine follows_computed_bind ?_ (fun x _ => trivial)
  intro digest hdigest
  refine follows_bind (follows_save fun data hdata =>
    Edge.prepare j data digest _ hdigest ht hdata) ?_ ?_
  · intro p _ hp
    rw [hp.of_ok]
    refine follows_withLock (Edge.lockPrepared j _) (busy_done ?_) nofun
      (fun _ => ⟨rfl, fun _ => trivial⟩)
    refine follows_bind (follows_prepare hi ht) ?_ ?_
    · intro p r hp
      rcases hp.of_ok with ⟨resp, rfl, ha⟩
      rw [hphase]
      exact follows_proceed hb ha
    · intro p x hp
      rcases hp with ⟨rfl | rfl, _⟩ | ⟨resp, rfl, _⟩
      · exact rfl
      · exact rfl
      · exact rfl
  · intro p x hp
    rcases hp with rfl | ⟨rfl, _⟩
    · exact trivial
    · exact trivial

theorem follows_continueFrom {c : Client} {j : Job} {v w : Json} {intent : Intent}
    {timestamp : Str} (hb : j.Built L) (hi : j.intent = some intent)
    (ht : j.requested.clientTimestamp = some timestamp) :
    Follows (Edge L) (continueFrom L c j.args j.requested j.privateHeaders intent w)
      (.resumed j v w) fun p _ => p.busy = true := by
  have hphase : "continuing" = j.approvedPhase := by rw [Job.approvedPhase, hi]
  refine follows_bind (follows_save fun data hdata => Edge.rewrite j v w data hdata) ?_ ?_
  · intro p _ hp
    rw [hp.of_ok]
    refine follows_bind (follows_continueExecution hi ht) ?_ ?_
    · intro p r hp
      rcases hp.of_ok with ⟨resp, rfl, ha⟩
      rw [hphase]
      exact follows_proceed hb ha
    · intro p x hp
      rcases hp with ⟨rfl | rfl, _⟩ | ⟨resp, rfl, _⟩
      · exact rfl
      · exact rfl
      · exact rfl
  · intro p x hp
    rcases hp with rfl | ⟨rfl, _⟩
    · exact rfl
    · exact rfl

/-- A call that has done nothing yet asks a question. -/
theorem follows_start_quiet {cmd : Command} {o : Op} {f : o.Answer → Call LocalExecutionResult}
    (ho : Quiet o = true) (hf : ∀ b, Follows (Edge L) (f b) (.start cmd) (Done L)) :
    Follows (Edge L) (ask o >>= f) (.start cmd) (Done L) := by
  intro r
  cases r with
  | ok b => exact ⟨_, Edge.quiet _ o _ ho, hf b⟩
  | error x => exact ⟨_, Edge.trip _ o x (Idle.start _) (Or.inl ho), done_tripped x⟩

theorem follows_executeHttp {c : Client} {a : Args} :
    Follows (Edge L) (executeHttp L c a) (.start (.execute c a)) (Done L) := by
  have hrefused : ∀ x, Refused L a → Done L (.start (.execute c a)) (.error x) :=
    fun x h => ⟨trivial, Or.inr h⟩
  have hrecovers : Done L (.start (.execute c a)) (.error .recovery) := ⟨trivial, Or.inl rfl⟩
  refine follows_computed_bind ?_ (fun x hx => hrefused x (Or.inl ⟨x, hx⟩))
  intro built hbuilt
  rcases built with ⟨base, privateHeaders⟩
  refine follows_start_quiet rfl ?_
  intro now
  refine follows_start_quiet rfl ?_
  intro _
  split
  · next henc => exact hrefused _ (Or.inr henc)
  · refine follows_start_quiet rfl ?_
    intro exists_
    cases exists_ with
    | true => exact hrecovers
    | false =>
        refine follows_start_quiet rfl ?_
        intro _ r
        cases r with
        | error x =>
            rcases x with ⟨x, hx⟩
            cases x with
            | fileExists => exact ⟨_, Edge.failed _ _ _ rfl, hrecovers⟩
            | recovery => cases hx
            | _ => exact ⟨_, Edge.trip _ _ _ (Idle.start _) (Or.inr (Or.inl rfl)), done_tripped ⟨_, hx⟩⟩
        | ok _ =>
            have hb : Job.Built L
                ⟨a, { base with clientTimestamp := some (L.isoformat now) }, privateHeaders, none⟩ :=
              ⟨base, _, hbuilt, rfl⟩
            exact ⟨_, Edge.make c _ hb rfl, follows_executePrepared hb rfl rfl⟩

theorem resume_ok {a : Args} {base requested : Requested} {v w : Json} {intent : Intent}
    (h : resume L a base v = .ok (requested, intent, w)) :
    (∃ timestamp, requested = { base with clientTimestamp := some timestamp }) ∧
      ∀ privateHeaders, Resumes L ⟨a, requested, privateHeaders, some intent⟩ v w := by
  unfold resume at h
  rcases bind_eq_ok.mp h with ⟨timestamp, ht, hk⟩
  cases timestamp with
  | none => cases hk
  | some timestamp =>
      rcases bind_eq_ok.mp hk with ⟨digest, hd, hk⟩
      rcases of_ite_error hk with ⟨hsame, hk⟩
      rw [not_not] at hsame
      rcases bind_eq_ok.mp hk with ⟨u, hu, hk⟩
      rcases bind_eq_ok.mp hk with ⟨i, hi, hk⟩
      simp only [pure, Except.pure, Except.ok.injEq, Prod.mk.injEq] at hk
      rcases hk with ⟨rfl, rfl, rfl⟩
      exact ⟨⟨timestamp, rfl⟩,
        fun _ => ⟨timestamp, digest, i, u, ht, rfl, hd, hsame, hu, hi, rfl, rfl⟩⟩

/-- A journal that is not one to be continued asks for recovery. -/
theorem resume_none {a : Args} {base : Requested} {v : Json}
    (h : continuedTimestamp v a.operationId = .ok none) : resume L a base v = .error .recovery := by
  rw [resume, h]
  rfl

theorem follows_continueHttpExecution {c : Client} {a : Args} :
    Follows (Edge L) (continueHttpExecution L c a) (.start (.continuation c a)) (Done L) := by
  have hrefused : ∀ x, Refused L a → Done L (.start (.continuation c a)) (.error x) :=
    fun x h => ⟨trivial, Or.inr h⟩
  have hrecovers : Done L (.start (.continuation c a)) (.error .recovery) := ⟨trivial, Or.inl rfl⟩
  refine follows_computed_bind ?_ (fun x hx => hrefused x (Or.inl ⟨x, hx⟩))
  intro built hbuilt
  rcases built with ⟨base, privateHeaders⟩
  refine follows_start_quiet rfl ?_
  intro _
  split
  · next henc => exact hrefused _ (Or.inr henc)
  · refine follows_start_quiet rfl ?_
    intro isDir
    cases isDir with
    | false => exact hrecovers
    | true =>
        refine follows_withLock (Edge.lockContinued c a) ?_
          (fun _ r hr => by rw [hr]; exact hrecovers) (fun h => absurd (Idle.start _) h)
        -- what was read decides whether the review is continued
        refine follows_readJournal ?_ ?_ ?_
        · intro data v hr
          cases hres : resume L a base v with
          | error x =>
              refine ⟨_, Edge.glance c a data, Or.inl ⟨Idle.glanced a data, trivial, ?_⟩⟩
              intro w hw hn
              have hwv : w = v := by
                have h := hw.2
                rw [hr.2, Option.some.injEq] at h
                exact h.symm
              rw [hwv] at hn
              rw [resume_none hn, Except.error.injEq] at hres
              rw [← hres]
              rfl
          | ok resumed =>
              rcases resumed with ⟨requested, intent, w⟩
              rcases resume_ok hres with ⟨⟨ts, hts⟩, hresumes⟩
              have hb : Job.Built L ⟨a, requested, privateHeaders, some intent⟩ :=
                ⟨base, ts, hbuilt, hts⟩
              have ht : requested.clientTimestamp = some ts := by rw [hts]
              exact ⟨_, Edge.resume c ⟨a, requested, privateHeaders, some intent⟩ data v w hb hr
                (hresumes _),
                busy_done (follows_continueFrom hb rfl ht)⟩
        · intro data x hno _
          refine ⟨_, Edge.glance c a data, Or.inl ⟨Idle.glanced a data, trivial, ?_⟩⟩
          intro v hv _
          exact absurd ⟨v, hv⟩ hno
        · intro x
          exact ⟨_, Edge.tripEntered c a x, Or.inl ⟨Idle.tripped, done_tripped x⟩⟩

theorem follows_providerSend (s : SendArgs) :
    Follows (Edge L) (providerSend L s) (.sending s) fun p _ => p = .sending s ∨ p = .ended := by
  unfold providerSend
  split
  · exact Or.inl rfl
  · next parsed hparsed =>
      refine follows_quiet_bind rfl ?_ (fun x => Or.inl rfl)
      intro addresses
      cases addresses with
      | nil => exact Or.inl rfl
      | cons first rest =>
          simp only
          split
          · exact Or.inl rfl
          · refine follows_always (M := fun p _ => p = .sending s ∨ p = .ended) ?_ ?_
            · refine follows_quiet_bind rfl ?_ (fun x => Or.inl rfl)
              intro _
              refine follows_silent_bind (silent_live L s.approval) (returns_true _) ?_
                (fun x _ => Or.inl rfl)
              intro _ _
              split
              · exact Or.inl rfl
              · next body hbody =>
                  refine follows_bind (M := fun p _ => p = .ended) (follows_ask ?_ ?_) ?_
                    (fun p x hp => Or.inr hp)
                  · intro response
                    exact ⟨.ended, Edge.transmit s _ _ ⟨parsed, hparsed, rfl, rfl, rfl, rfl, hbody⟩, rfl⟩
                  · intro x
                    exact ⟨.ended, Edge.transmit s _ _ ⟨parsed, hparsed, rfl, rfl, rfl, rfl, hbody⟩, rfl⟩
                  · intro p response hp
                    split
                    · exact Or.inr hp
                    · split
                      · exact Or.inr hp
                      · exact Or.inr hp
            · intro p r hp
              refine follows_quiet_ask rfl ?_
              intro s
              cases s with
              | ok _ => exact hp
              | error x => exact hp

/-- Every program follows the automaton. -/
theorem code_follows (operationId : Str) (c : Command) :
    Follows (Edge L) ((system L operationId).code c) (firstStage c) (Ends L) := by
  cases c with
  | execute c a => exact follows_map follows_executeHttp
  | continuation c a => exact follows_map follows_continueHttpExecution
  | flush c t => exact follows_map follows_flush
  | send s =>
      refine follows_map (follows_mono (follows_providerSend s) ?_)
      intro p r hp
      rcases hp with rfl | rfl
      · exact trivial
      · exact trivial

end Allowly

import Allowly.Theory.Guarded
import Allowly.Theory.Outcome

/-!
# The Outcome in the Journal

Whatever the native process leaves, and however the calls on an operation interleave, the
outcome in the journal is one that was saved by a dispatch, and says what was left: an
attestation with its bundle or neither, and nothing at all when a check fails.

A report writes the outcome it has read. So an outcome is followed back, from the journal
to the event that saved it and from there to the journal that was read, until a dispatch
is found.

## Main definitions

* `SettledAfter`: A program that saves no other journals.
* `lastJournal`: The journal that was saved last.
* `Shows`: The outcome was saved by a dispatch, and says what was left.

## Theorems

* `settledAfter_dispatchApproved`: The dispatch.
* `code_settled`: Every program that can be started.
* `artifacts_all_or_nothing`: The outcome in the journal, in every run.
-/

namespace Allowly

open Py Prog Interleave

variable {L : Libs}

/-- After `q`, the program saves no journal that is not `Settled`. -/
def SettledAfter {A : Type} (q : CallLog) (p : Call A) : Prop :=
  Follows (Grows SavesSettled) p q fun _ _ => True

theorem guarded_grows {A : Type} {W : Json → Prop} {q : CallLog} {p : Call A} (h : Guarded W p)
    (hW : ∀ w t, W w → Settled (q ++ t) w) : Uses (fun o => ∀ t, SavesSettled (q ++ t) o) p := by
  refine uses_mono h ?_
  intro o ho t data hd
  rcases ho data hd with ⟨w, hw, hWw⟩
  exact ⟨w, hw, hW w t hWw⟩

theorem settledAfter_guarded {A : Type} {W : Json → Prop} {q : CallLog} {p : Call A}
    (h : Guarded W p) (hW : ∀ w t, W w → Settled (q ++ t) w) : SettledAfter q p :=
  follows_mono (follows_log (guarded_grows h hW)) fun _ _ _ => trivial

theorem settledAfter_bind {A B : Type} {W : Json → Prop} {q : CallLog} {p : Call A} {f : A → Call B}
    (h : Guarded W p) (hW : ∀ w t, W w → Settled (q ++ t) w)
    (hf : ∀ t a, Traces p t (.ok a) → SettledAfter (q ++ t) (f a)) : SettledAfter q (p >>= f) :=
  follows_log_bind (guarded_grows h hW) hf fun _ _ _ => trivial

theorem settledAfter_silent {A B : Type} {q : CallLog} {p : Call A} {f : A → Call B} (h : Silent p)
    (hf : ∀ t a, Traces p t (.ok a) → SettledAfter (q ++ t) (f a)) : SettledAfter q (p >>= f) :=
  settledAfter_bind (W := fun _ => False) (guarded_silent h) (fun _ _ hw => hw.elim) hf

theorem settledAfter_attempt {A : Type} {q : CallLog} {p : Call A} (h : SettledAfter q p) :
    SettledAfter q p.attempt :=
  follows_attempt h

theorem traces_ask_ok {o : Op} {b : o.Answer} {t : CallLog} (h : Traces (ask o) t (.ok b)) :
    ⟨o, .ok b⟩ ∈ t := by
  rw [ask_ok h]
  exact List.mem_cons_self

/-- What was saved stands in the log. -/
theorem traces_save {file : File} {v : Json} {t : CallLog} (h : Traces (save file v) t (.ok ())) :
    ∃ data, Writes data v ∧ ⟨.replace file data, .ok ()⟩ ∈ t := by
  rcases traces_bind_ok.mp h with ⟨_, t₁, t₂, _, h₂, rfl⟩
  rcases traces_bind_ok.mp h₂ with ⟨s, t₃, t₄, hattempt, h₄, rfl⟩
  rcases traces_bind_ok.mp h₄ with ⟨_, t₅, t₆, _, hs, rfl⟩
  rcases traces_attempt.mp hattempt with ⟨s', hs', hbody⟩
  cases hs'
  rcases traces_ofExcept.mp hs with ⟨_, hok⟩
  rw [← hok] at hbody
  rcases traces_ofExcept_bind_ok.mp hbody with ⟨data, hdata, h₇⟩
  rcases traces_bind_ok.mp h₇ with ⟨_, t₈, t₉, _, h₉, rfl⟩
  rcases traces_bind_ok.mp h₉ with ⟨_, t₁₀, t₁₁, hreplace, _, rfl⟩
  refine ⟨data, hdata, ?_⟩
  have hmem := traces_ask_ok hreplace
  exact List.mem_append_right _ (List.mem_append_left _ (List.mem_append_right _
    (List.mem_append_left _ hmem)))

theorem stored_save {v : Json} {t : CallLog} (h : Traces (save .response v) t (.ok ())) :
    Stored t v :=
  traces_save h

/-- What was read stands in the log. -/
theorem traces_readJson {file : File} {maximum : Nat} {v : Json} {t : CallLog}
    (h : Traces (readJson file maximum) t (.ok v)) :
    ∃ data, ⟨.read file maximum, .ok data⟩ ∈ t ∧ data.length ≤ maximum ∧
      loadsBytes data = some v := by
  rcases traces_bind_ok.mp h with ⟨data, t₁, t₂, hdata, hload, rfl⟩
  rcases traces_ofExcept.mp hload with ⟨_, hv⟩
  rcases traces_bind_ok.mp hdata with ⟨read, t₃, t₄, hask, hrest, rfl⟩
  split at hrest
  · cases hrest.2
  · next hlen =>
    cases hrest.2
    refine ⟨data, ?_, Nat.le_of_not_lt hlen, loadJson_eq_ok.mp hv.symm⟩
    exact List.mem_append_left _ (List.mem_append_left _ (traces_ask_ok hask))

theorem copied_read {q t : CallLog} {u w : Json} (h : Traces (readJson .journal readLimit) t (.ok u))
    (hw : w.get "outcome" = u.get "outcome") : Copied (q ++ t) w := by
  rcases traces_readJson h with ⟨data, hmem, hread⟩
  exact Or.inr ⟨data, u, List.mem_append_right q hmem, hread, hw⟩

theorem copied_congr {q : CallLog} {v w : Json} (h : Copied q v)
    (hw : w.get "outcome" = v.get "outcome") : Copied q w := by
  rw [Copied, hw]
  exact h

theorem isObj_of_getAttr {j v : Json} {k : String} (h : getAttr j k = .ok v) : j.isObj = true := by
  rw [getAttr] at h
  split at h
  · next ho => exact ho
  · cases h

/-- A report writes the outcome it has read. -/
theorem settledAfter_flush {c : Client} {k : Option Str} {q : CallLog} :
    SettledAfter q (flushExecutionOutcome L c k) := by
  refine settledAfter_silent (silent_ask rfl) ?_
  intro t₁ _ _
  refine settledAfter_silent (silent_readJson _ _) ?_
  intro t₂ u hread
  rcases traces_readJson hread with ⟨_, _, _, hload⟩
  refine settledAfter_silent (silent_computed _) ?_
  intro t₃ pending hpending
  have hobj : u.isObj = true := by
    rcases traces_ofExcept.mp hpending with ⟨_, hok⟩
    rcases bind_eq_ok.mp hok.symm with ⟨version, hversion, _⟩
    exact isObj_of_getAttr hversion
  split
  · exact settledAfter_guarded (W := fun _ => False) (guarded_raise _) fun _ _ h => h.elim
  · refine settledAfter_guarded
      (W := fun w => ∃ final : ExecutionResponse, final.toJson.WellFormed ∧ w = completeState u final)
      ?_ ?_
    · refine guarded_bind (guarded_computed _) fun _ => ?_
      refine guarded_bind (guarded_computed _) fun _ => ?_
      refine guarded_bind (guarded_computed _) fun _ => ?_
      refine guarded_bind (guarded_computed _) fun _ => ?_
      refine guarded_bind (guarded_computed _) fun _ => ?_
      refine guarded_bind_returns (guarded_reportExecutionOutcome c _ _ _ _)
        (returns_reportExecutionOutcome c _ _ _ _) ?_
      intro final hfinal
      exact guarded_bind (guarded_save fun _ => ⟨final, hfinal, rfl⟩) fun _ => guarded_pure _
    · intro w t hw
      rcases hw with ⟨final, hfinal, rfl⟩
      have houtcome : (completeState u final).get "outcome" = u.get "outcome" := by
        simp [completeState, Json.update, Json.get_set_other]
      have hwf : (completeState u final).WellFormed := by
        refine Json.wellFormed_update (wellFormed_loadsBytes hload) ?_
        simp [Json.WellFormed, hfinal]
      refine ⟨?_, hwf, Or.inl (((copied_read hread houtcome).mono t₃).mono t)⟩
      rw [completeState, Json.isObj_update]
      exact hobj

/-- The outcome at the end of an execution. -/
theorem settledAfter_settle {c : Client} {operationId : Str} {r : ExecutionResponse} {v : Json}
    {a : Artifacts} {k : Option Str} {q : CallLog} (ho : v.isObj = true) (hv : v.WellFormed)
    (ha : a.Sound) (h : ∀ p : Remains, p.FoundBy q →
      Evident p q (WitnessedJournal v) (optionText r.approvalSha256) a) :
    SettledAfter q (settle L c operationId r v a k) := by
  have hsilent : Silent (saveResponse a.response) := by
    cases a.response with
    | none => exact silent_pure _
    | some response => exact silent_save_response response
  refine settledAfter_silent hsilent ?_
  intro t₁ _ hsaved
  have hstored : ∀ w, a.response = some w → Stored (q ++ t₁) w := by
    intro w hw
    rw [hw] at hsaved
    rcases stored_save hsaved with ⟨data, hdata, hmem⟩
    exact ⟨data, hdata, List.mem_append_right q hmem⟩
  refine settledAfter_silent (silent_ask rfl) ?_
  intro t₂ now _
  refine settledAfter_bind (W := fun w => w = settledState v operationId r a (L.isoformat now))
    (guarded_save fun _ => rfl) ?_ ?_
  · intro w t hw
    rw [hw]
    refine ⟨?_, wellFormed_settled hv operationId r ha _, Or.inr ?_⟩
    · rw [settledState, Json.isObj_update]
      exact ho
    intro p hp
    have hq := hp.left.left.left
    exact faithful_settled ho operationId _ (h p hq) fun w hw => ((hstored w hw).mono t₂).mono t
  · intro t₃ _ _
    refine follows_bind (M := fun _ _ => True) (settledAfter_attempt settledAfter_flush) ?_
      (fun _ _ _ => trivial)
    intro q' reported _
    cases reported with
    | ok final => exact trivial
    | error x =>
        simp only
        split
        · exact trivial
        · exact trivial

theorem settledAfter_dispatchApproved {c : Client} {a : Args} {requested : Requested}
    {privateHeaders : List (Str × Str)} {state : Json} {r : ExecutionResponse} {q : CallLog}
    (ho : state.isObj = true) (hv : state.WellFormed) (hmode : (state.get "authorization").get "effective_evidence_mode" =
      optionText r.effectiveEvidenceMode) :
    SettledAfter q (dispatchApproved L c a requested privateHeaders state r) := by
  have hvalidate : Silent (validateApproval L r requested) :=
    silent_bind (silent_computed _) fun approval =>
      silent_bind (silent_live L approval) fun _ => silent_pure _
  refine settledAfter_silent hvalidate ?_
  intro t₁ approval _
  refine settledAfter_silent (silent_optionalFiles a r approval) ?_
  intro t₂ files hfiles
  have hwitnessed := returns_traces (returns_optionalFiles a r approval) hfiles files rfl
  refine settledAfter_bind (W := fun _ => False) (guarded_save nofun) (fun _ _ hw => hw.elim) ?_
  intro t₃ _ _
  refine settledAfter_bind
    (W := fun w => ∃ started, w = claimState state requested.operationId r started)
    (guarded_dispatch fun started => ⟨started, rfl⟩) ?_ ?_
  · intro w t hw
    rcases hw with ⟨started, rfl⟩
    refine ⟨?_, wellFormed_claim hv _ r started, Or.inr fun p _ => faithful_claim ho _ r started p _⟩
    rw [claimState, Json.isObj_update]
    exact ho
  · intro t₄ s hdispatch
    rcases s with ⟨state', artifacts⟩
    rcases returns_traces (returns_dispatch c a requested privateHeaders r approval state files)
      hdispatch _ rfl with ⟨hcarries, hsound⟩
    have hjournal : WitnessedJournal state' ↔ files.isSome = true := by
      rw [WitnessedJournal, hcarries.2.1, hmode, hwitnessed]
      cases r.effectiveEvidenceMode with
      | none => simp [optionText, Json.ofOption]
      | some mode => simp [optionText, Json.ofOption]
    refine settledAfter_settle (hcarries.1.trans ho) (hcarries.2.2 hv) hsound ?_
    intro p hp
    have hev := dispatch_evident hdispatch hp.append.2
    exact ⟨hev.attested, fun hw => hev.failed (hjournal.mp hw), hev.consistent,
      fun hw => hev.left (hjournal.mp hw)⟩

/-- What both calls do with the answer of the runtime. -/
theorem settledAfter_proceed {c : Client} {a : Args} {requested : Requested}
    {privateHeaders : List (Str × Str)} {state : Json} {phase : String} {r : ExecutionResponse}
    {q : CallLog} (ho : state.isObj = true) (hv : state.WellFormed)
    (hr : (journalAuthorization r).WellFormed) (hk : Copied q state) :
    SettledAfter q (proceed L c a requested privateHeaders state phase r) := by
  have hkept : Copied q (answeredState state phase r) :=
    copied_congr hk (answered_other (by decide) (by decide))
  have hobj : (answeredState state phase r).isObj = true := by
    rw [answeredState, Json.isObj_update]
    exact ho
  have hwf : (answeredState state phase r).WellFormed := by
    refine Json.wellFormed_update hv ?_
    simp [Json.WellFormed, hr]
  refine settledAfter_bind (W := fun w => w = answeredState state phase r)
    (guarded_save fun _ => rfl) ?_ ?_
  · intro w t hw
    rw [hw]
    exact ⟨hobj, hwf, Or.inl (hkept.mono t)⟩
  · intro t _ _
    split
    · exact trivial
    · next happroved =>
        rw [Bool.not_eq_false] at happroved
        have hstatus : r.status ≠ .waitingForReview := by
          intro hw
          simp [approved, hw] at happroved
        refine settledAfter_dispatchApproved hobj hwf ?_
        rw [answered_authorization ho, journalAuthorization, if_neg hstatus]
        simp [ExecutionResponse.toJson, Json.ofList, Json.get, Json.lookup]

/-- The lock is not about the journal. -/
theorem settledAfter_withLock {body : Call LocalExecutionResult} {q : CallLog}
    (h : ∀ t, SettledAfter (q ++ t) body) : SettledAfter q (withLock body) := by
  refine settledAfter_bind (W := fun _ => False) (guarded_ask fun _ h => by cases h) (fun _ _ hw => hw.elim) ?_
  intro t₁ _ _
  refine follows_always (M := fun q' _ => ∃ t, q' = q ++ t) ?_ ?_
  · refine follows_mono (follows_longer (settledAfter_bind (W := fun _ => False)
      (guarded_attempt (guarded_ask fun _ h => by cases h)) (fun _ _ hw => hw.elim) ?_)) ?_
    · intro t₂ locked _
      cases locked with
      | ok u =>
          simp only
          rw [List.append_assoc]
          exact h _
      | error x =>
          simp only
          split
          · exact trivial
          · exact trivial
    · intro q' _ hq'
      rcases hq' with ⟨t, rfl⟩
      exact ⟨t₁ ++ t, List.append_assoc q t₁ t⟩
  · intro q' r _
    refine follows_mono (settledAfter_guarded (W := fun _ => False) (guarded_ask fun _ h => by cases h)
      fun _ _ hw => hw.elim) ?_
    intro q'' s _
    cases s with
    | ok _ => exact trivial
    | error _ => exact trivial

theorem settledAfter_executeHttp {c : Client} {a : Args} {q : CallLog} :
    SettledAfter q (executeHttp L c a) := by
  refine settledAfter_silent (silent_computed _) ?_
  intro t₁ built _
  rcases built with ⟨requested, privateHeaders⟩
  refine settledAfter_silent (silent_ask rfl) ?_
  intro t₂ now _
  refine settledAfter_silent (silent_ask rfl) ?_
  intro t₃ _ _
  split
  · exact trivial
  · refine settledAfter_silent (silent_ask rfl) ?_
    intro t₄ exists_ _
    split
    · exact trivial
    · refine settledAfter_silent (silent_ask rfl) ?_
      intro t₅ _ _
      refine settledAfter_bind (W := fun _ => False) (guarded_attempt (guarded_ask nofun))
        (fun _ _ hw => hw.elim) ?_
      intro t₆ made _
      split
      · exact trivial
      · exact trivial
      · refine settledAfter_silent (silent_computed _) ?_
        intro t₇ digest _
        have hnull : ∀ q, Copied q (preparedState a.operationId digest (L.isoformat now)) := by
          intro q
          refine Or.inl ?_
          simp [preparedState, Json.ofList, Json.get, Json.lookup]
        have hwf := (journal_prepared a.operationId digest (L.isoformat now)).wellFormed
        refine settledAfter_bind
          (W := fun w => w = preparedState a.operationId digest (L.isoformat now))
          (guarded_save fun _ => rfl) ?_ ?_
        · intro w t hw
          rw [hw]
          exact ⟨rfl, hwf, Or.inl (hnull _)⟩
        · intro t₈ _ _
          refine settledAfter_withLock ?_
          intro t
          refine settledAfter_bind (W := fun _ => False) (guarded_prepareExecution c _ _ _)
            (fun _ _ hw => hw.elim) ?_
          intro t₉ r hr
          have hr' := returns_traces (returns_prepareExecution c _ _ _) hr r rfl
          exact settledAfter_proceed rfl hwf hr' (hnull _)

/-- The journal that is continued has the outcome of the one that was read. -/
theorem resume_keeps {a : Args} {base requested : Requested} {v w : Json} {intent : Intent}
    (h : resume L a base v = .ok (requested, intent, w)) (hv : v.WellFormed) :
    w.isObj = true ∧ w.WellFormed ∧ w.get "outcome" = v.get "outcome" := by
  unfold resume at h
  rcases bind_eq_ok.mp h with ⟨time, htime, hk⟩
  have hobj : v.isObj = true := by
    rcases bind_eq_ok.mp htime with ⟨version, hversion, _⟩
    exact isObj_of_getAttr hversion
  cases time with
  | none => cases hk
  | some timestamp =>
      rcases bind_eq_ok.mp hk with ⟨digest, _, hk⟩
      rcases of_ite_error hk with ⟨_, hk⟩
      rcases bind_eq_ok.mp hk with ⟨u, hu, hk⟩
      rcases bind_eq_ok.mp hk with ⟨i, _, hk⟩
      cases hk
      have hkeeps : u.isObj = true ∧ u.WellFormed ∧ u.get "outcome" = v.get "outcome" := by
        unfold withIntent at hu
        split at hu
        · rcases bind_eq_ok.mp hu with ⟨previous, _, hk⟩
          split at hk
          · split at hk
            · cases hk
            · rcases bind_eq_ok.mp hk with ⟨key, _, hk⟩
              cases hk
              refine ⟨(Json.isObj_set v _ _).trans hobj, Json.wellFormed_set hv _ ?_,
                Json.get_set_other (by decide) _ _⟩
              refine Json.wellFormed_ofList (by simp) ?_
              simp [Json.WellFormed]
          · cases hk
        · cases hu
          exact ⟨hobj, hv, rfl⟩
      exact ⟨(Json.isObj_set u _ _).trans hkeeps.1, Json.wellFormed_set hkeeps.2.1 _ trivial,
        (Json.get_set_other (by decide) _ _).trans hkeeps.2.2⟩

theorem settledAfter_continueHttpExecution {c : Client} {a : Args} {q : CallLog} :
    SettledAfter q (continueHttpExecution L c a) := by
  refine settledAfter_silent (silent_computed _) ?_
  intro t₁ built _
  rcases built with ⟨base, privateHeaders⟩
  refine settledAfter_silent (silent_ask rfl) ?_
  intro t₂ _ _
  split
  · exact trivial
  · refine settledAfter_silent (silent_ask rfl) ?_
    intro t₃ isDir _
    split
    · exact trivial
    · refine settledAfter_withLock ?_
      intro t₄
      refine settledAfter_silent (silent_readJson _ _) ?_
      intro t₅ v hread
      refine settledAfter_silent (silent_computed _) ?_
      intro t₆ resumed hresumed
      rcases resumed with ⟨requested, intent, w⟩
      rcases traces_ofExcept.mp hresumed with ⟨_, hok⟩
      rcases traces_readJson hread with ⟨_, _, _, hload⟩
      rcases resume_keeps hok.symm (wellFormed_loadsBytes hload) with ⟨ho, hwf, houtcome⟩
      have hkept := (copied_read (q := q ++ t₁ ++ t₂ ++ t₃ ++ t₄) hread houtcome).mono t₆
      refine settledAfter_bind (W := fun x => x = w) (guarded_save fun _ => rfl) ?_ ?_
      · intro x t hx
        rw [hx]
        exact ⟨ho, hwf, Or.inl (hkept.mono t)⟩
      · intro t₇ _ _
        refine settledAfter_bind (W := fun _ => False) (guarded_continueExecution c _ _ _ _)
          (fun _ _ hw => hw.elim) ?_
        intro t₈ r hr
        have hr' := returns_traces (returns_continueExecution c a.operationId requested intent _) hr r rfl
        exact settledAfter_proceed ho hwf hr' ((hkept.mono t₇).mono t₈)

/-- A thread saves nothing. -/
theorem settledAfter_providerSend {a : SendArgs} {q : CallLog} :
    SettledAfter q (providerSend L a) := by
  have hguarded : Guarded (fun _ => False) (providerSend L a) := by
    unfold providerSend
    split
    · exact guarded_raise _
    · refine guarded_bind (guarded_ask nofun) ?_
      intro addresses
      split
      · exact guarded_raise _
      · split
        · exact guarded_raise _
        · refine uses_always ?_ (guarded_ask nofun)
          refine guarded_bind (guarded_ask nofun) fun _ => ?_
          refine guarded_bind (guarded_silent (silent_live L _)) fun _ => ?_
          split
          · exact guarded_raise _
          · refine guarded_bind (guarded_ask nofun) ?_
            intro response
            simp only
            split
            · exact guarded_raise _
            · split
              · exact guarded_raise _
              · exact guarded_pure _
  exact settledAfter_guarded hguarded fun _ _ hw => hw.elim

theorem settledAfter_map {A B : Type} {p : Call A} {f : A → B} {q : CallLog}
    (h : SettledAfter q p) : SettledAfter q (f <$> p) :=
  follows_bind (M := fun _ _ => True) h (fun _ _ _ => trivial) fun _ _ _ => trivial

/-- Every program that can be started. -/
theorem code_settled (L : Libs) (cmd : Command) : Logs SavesSettled (code L cmd) := by
  cases cmd with
  | execute c a => exact settledAfter_map settledAfter_executeHttp
  | continuation c a => exact settledAfter_map settledAfter_continueHttpExecution
  | flush c k => exact settledAfter_map settledAfter_flush
  | send s => exact settledAfter_map settledAfter_providerSend

/-! ### Runs -/

variable {operationId : Str} {h : List Happening}

/-- The journal an event saves. -/
def savedJournal : Happening → Option Bytes
  | .did _ _ (.replace .journal data) (.ok _) => some data
  | _ => none

/-- The journal that was saved last. -/
def lastJournal (h : List Happening) : Option Bytes := h.findSome? savedJournal

theorem lastJournal_unwritten {e : Happening} (he : writesJournal e = false) :
    lastJournal (e :: h) = lastJournal h := by
  have hnone : savedJournal e = none := by
    unfold savedJournal
    split
    · cases he
    · rfl
  rw [lastJournal, List.findSome?_cons, hnone]
  rfl

/-- A journal that is read is the one that was saved last. -/
def ReadsLast (e : Happening) (past : List Happening) : Prop :=
  ∀ a root data u, e = .did a root (.read .journal readLimit) (.ok data) → Reads data u →
    lastJournal past = some data

/-- What is read is what was saved. -/
theorem preserves_lastJournal (L : Libs) (operationId : Str)
    (E : CallLog → (o : Op) → Except Fault o.Answer → CallLog → Prop)
    (post : CallLog → Except Exc Value → Prop) :
    Preserves (system L operationId) E post (fun _ => []) (fun _ _ _ => True) (fun s _ h =>
      s.files .journal = lastJournal h ∧ Always ReadsLast h) := by
  have hact : ∀ {s s' : Folder} {h : List Happening} {a root n : Nat} {o : Op}
      {r : Except Fault o.Answer}, s.files .journal = lastJournal h → Always ReadsLast h →
      perform a n o r s = some s' → s'.files .journal = lastJournal (.did a root o r :: h) ∧
        Always ReadsLast (.did a root o r :: h) := by
    intro s s' h a root n o r hfile hall hp
    refine ⟨?_, ?_, hall⟩
    · by_cases hw : writesJournal (.did a root o r) = true
      · rcases writes_event hw with ⟨data, heq⟩
        cases heq
        rw [perform_replace hp]
        exact Function.update_self File.journal (some data) s.files
      · rw [Bool.not_eq_true] at hw
        rw [lastJournal_unwritten hw, journal_unwritten hp hw]
        exact hfile
    · intro b root' data u heq hread
      cases heq
      rw [← hfile]
      exact (reads_file hp hread).2
  have hother : ∀ {s s' : Folder} {h : List Happening} {e : Happening},
      (s.files .journal = lastJournal h ∧ Always ReadsLast h) → writesJournal e = false →
      ReadsLast e h → s'.files .journal = s.files .journal →
      s'.files .journal = lastJournal (e :: h) ∧ Always ReadsLast (e :: h) := by
    intro s s' h e hG hw hreads hfile
    refine ⟨?_, hreads, hG.2⟩
    rw [lastJournal_unwritten hw, hfile]
    exact hG.1
  refine ⟨?_, ?_, ?_, ?_, ?_, ?_⟩
  · intro s roles n h c _ hG _ _
    exact hother hG rfl (fun _ _ _ _ heq => by cases heq) rfl
  · intro s roles n h a root q o r s' q' _ hG _ _ _ hp _
    exact hact hG.1 hG.2 hp
  · intro s roles n h a root q o r s' q' c _ hG _ _ _ hp _
    exact hother (hact hG.1 hG.2 hp) rfl (fun _ _ _ _ heq => by cases heq) rfl
  · intro s roles h a root q r _ hG _ _
    exact hother hG rfl (fun _ _ _ _ heq => by cases heq) rfl
  · intro s roles h a root q _ hG _
    exact hother hG rfl (fun _ _ _ _ heq => by cases heq) rfl
  · intro s roles h d s' _ hG hd
    refine hother hG rfl (fun _ _ _ _ heq => by cases heq) ?_
    simp only [system] at hd
    split at hd
    · next hfile =>
        cases hd
        refine files_write_other ?_ s _
        intro hj
        rw [← hj] at hfile
        exact absurd hfile (by decide)
    · cases hd

/-- The outcome was saved by a dispatch, and says what was left when it was saved. -/
def Shows (h : List Happening) (outcome : Json) : Prop :=
  ∃ a root data j late past, h = late ++ .did a root (.replace .journal data) (.ok ()) :: past ∧
    Writes data j ∧ j.get "outcome" = outcome ∧
    ∀ p : Remains, p.FoundBy (own a past) → Faithful p (own a past) j

theorem Shows.mono {late : List Happening} {outcome : Json} (hs : Shows h outcome) :
    Shows (late ++ h) outcome := by
  rcases hs with ⟨a, root, data, j, late', past, rfl, hw, ho, hf⟩
  exact ⟨a, root, data, j, late ++ late', past, (List.append_assoc _ _ _).symm, hw, ho, hf⟩

/-- The journal that was saved last was saved by an event. -/
theorem lastJournal_event {data : Bytes} (hl : lastJournal h = some data) :
    ∃ a root late past, h = late ++ .did a root (.replace .journal data) (.ok ()) :: past := by
  induction h with
  | nil => cases hl
  | cons e h ih =>
      by_cases hw : writesJournal e = true
      · cases e with
        | did a root o r =>
            rcases writes_event hw with ⟨data', heq⟩
            rw [heq, lastJournal, List.findSome?_cons, savedJournal, Option.some.injEq] at hl
            rw [hl] at heq
            exact ⟨a, root, [], h, by rw [heq, List.nil_append]⟩
        | _ => cases hw
      · rw [Bool.not_eq_true] at hw
        rw [lastJournal_unwritten hw] at hl
        rcases ih hl with ⟨a, root, late, past, rfl⟩
        exact ⟨a, root, e :: late, past, rfl⟩

/-- An outcome is followed back to the dispatch that saved it. -/
theorem shows_last {data : Bytes} (n : Nat) (hn : h.length ≤ n)
    (hsaves : Always (AfterOwn SavesSettled) h) (hreads : Always ReadsLast h)
    (hl : lastJournal h = some data) : ∃ j, Writes data j ∧ j.isObj = true ∧ j.WellFormed ∧
      (j.get "outcome" = .null ∨ Shows h (j.get "outcome")) := by
  induction n generalizing h data with
  | zero =>
      rw [List.eq_nil_of_length_eq_zero (Nat.le_zero.mp hn)] at hl
      cases hl
  | succ n ih =>
      rcases lastJournal_event hl with ⟨a, root, late, past, hsplit⟩
      have hsuffix : .did a root (.replace .journal data) (.ok ()) :: past <:+ h := ⟨late, hsplit.symm⟩
      rcases always_suffix hsaves hsuffix a root _ _ rfl data rfl with ⟨j, hw, hj⟩
      refine ⟨j, hw, hj.isObj, hj.wellFormed, ?_⟩
      rcases hj.outcome with (hnull | ⟨read, u, hmem, hread, hsame⟩) | hfaithful
      · exact Or.inl hnull
      · -- The outcome was read, from a journal that was saved before.
        rcases mem_own hmem with ⟨root', hdid⟩
        rcases List.append_of_mem hdid with ⟨between, early, hpast⟩
        have hshorter : .did a root' (.read .journal readLimit) (.ok read) :: early <:+ h := by
          refine List.IsSuffix.trans ?_ hsuffix
          rw [hpast]
          exact List.IsSuffix.trans ⟨between, rfl⟩ (List.suffix_cons _ _)
        have hlast := always_suffix hreads hshorter a root' read u rfl hread
        have hearly : early <:+ h := (List.suffix_cons _ _).trans hshorter
        have hlength : early.length ≤ n := by
          have h := hshorter.length_le
          rw [List.length_cons] at h
          omega
        rcases ih hlength (always_past hsaves hearly) (always_past hreads hearly) hlast with
          ⟨j', hw', hobj', hwf', hshow⟩
        have hsame' : u = j' := reads_writes hread hw' hobj' hwf'
        rw [hsame, hsame']
        rcases hshow with hnull | hshow
        · exact Or.inl hnull
        · rcases hearly with ⟨rest, hrest⟩
          rw [← hrest]
          exact Or.inr hshow.mono
      · exact Or.inr ⟨a, root, data, j, late, past, hsplit, hw, rfl, hfaithful⟩

/-- The journal of an operation, at any point of any run, holds no outcome or one that says
    what the native process of a dispatch left: the evidence all together or not at all. -/
theorem artifacts_all_or_nothing {w : Point} {data : Bytes}
    (hw : (system L operationId).Reachable Folder.fresh w)
    (hd : w.shared.files .journal = some data) :
    ∃ j, loadsBytes data = some j ∧ (j.get "outcome" = .null ∨ Shows w.history (j.get "outcome")) := by
  have hcode : ∀ c, (system L operationId).Starts c → Logs SavesSettled ((system L operationId).code c) :=
    fun c _ => code_settled L c
  rcases invariant hcode (preserves_lastJournal L operationId _ fun _ _ => True) ⟨rfl, trivial⟩ hw with
    ⟨_, _, hlast, hreads⟩
  rw [hd] at hlast
  rcases shows_last _ (Nat.le_refl _) (logs_reachable hcode hw) hreads hlast.symm with
    ⟨j, hwrites, hobj, hwf, hshow⟩
  exact ⟨j, loads_writes hwrites hobj hwf, hshow⟩

/-- The sample is executed with a witness, whose proof is complete, until its outcome is
    saved. -/
def witnessedScenario : List Move :=
  .begin (.execute sampleClient witnessedArgs) :: leaves (lit "a1") ++
    [.go 0 68 (witnessedOutside (lit "a1") (witnessedResponse (lit "a1")).toJson
      (0, verifiedOutput (lit "a1")))]

/-- The journal of a point has an attestation. -/
def attestedAt (w : Point) : Bool :=
  match w.shared.files .journal with
  | some data => match loadsBytes data with
    | some j => (outcomeOf j).has "notary_attestation"
    | none => false
  | none => false

set_option maxRecDepth 20000 in
theorem artifacts_sample : ∃ (w : Point) (data : Bytes) (j : Json), loadsBytes data = some j ∧
    (outcomeOf j).has "notary_attestation" = true ∧
    ∃ j, loadsBytes data = some j ∧ (j.get "outcome" = .null ∨ Shows w.history (j.get "outcome")) := by
  have hcheck : (scenario witnessLibs (lit "op_1") witnessedScenario).any attestedAt = true := by
    decide +kernel
  rcases scenario_reachable hcheck with ⟨w, hw, hattested⟩
  unfold attestedAt at hattested
  split at hattested
  · next data hd =>
      split at hattested
      · next j hj => exact ⟨w, data, j, hj, hattested, artifacts_all_or_nothing hw hd⟩
      · cases hattested
  · cases hattested

end Allowly

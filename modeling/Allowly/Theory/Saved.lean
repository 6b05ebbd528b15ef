import Allowly.Theory.Memory

/-!
# Journals That Were Saved

Every journal in the history of a run is a journal of the operation, with a phase that
depends on where it was saved. Before an outcome is on disk the phases are those of an
execution that has not been claimed; afterwards none of these comes back.

## Main definitions

* `unclaimed`: The phases before a claim.

## Theorems

* `edge_saves`: A journal is only replaced at one of the places in `Saves`.
* `Saves.journal`: What is saved is a journal.
* `saved_before`, `saved_after`: The phases before and after an outcome is on disk.
-/

namespace Allowly

open Py Interleave

variable {L : Libs} {operationId : Str} {s s' : Folder} {q q' : Stage} {w : Json} {data : Bytes}
variable {n a b root : Nat}

/-- A journal is only replaced at one of the places in `Saves`. -/
theorem edge_saves {u : Unit} (he : Edge L q (.replace .journal data) (.ok u) q') :
    ∃ w, Saves L q w q' ∧ Writes data w := by
  cases he with
  | quiet q o r h => cases h
  | prepare j data digest timestamp hd ht hw => exact ⟨_, .prepare j digest timestamp hd ht, hw⟩
  | rewrite j v w data hw => exact ⟨w, .rewrite j v w, hw⟩
  | record j v resp r data ha hw => exact ⟨_, .record j v resp r ha, hw⟩
  | attempt e v started data hw => exact ⟨_, .attempt e v started, hw⟩
  | settle q e v w data hl hs hw => exact ⟨w, .settle q e v w hl hs, hw⟩
  | complete b v resp final data hp hw => exact ⟨_, .complete b v resp final hp, hw⟩

/-- What is saved is a journal. -/
theorem Saves.journal (h : Saves L q w q') (hw : Writes data w)
    (hv : q.hold.Valid operationId s n a) (hf : q.Facts L operationId) : Journal operationId w := by
  have hfacts := h.facts hw hv hf
  cases h with
  | prepare j digest timestamp hd ht => exact hfacts.1.1.journal
  | rewrite j v w => exact hf.1.journal
  | record j v resp r ha => exact hfacts.1.2.1.journal
  | attempt e v started =>
      rcases hfacts.1.2 with ⟨d, hr, _⟩
      exact hr.journal
  | settle q e v w hl hs =>
      rcases hfacts.1.2 with ⟨d, hr, _⟩
      exact hr.journal
  | complete b v resp final hp =>
      rcases hp with ⟨sensitive, raw, hraw, hparse⟩
      rcases hv.2 with ⟨d, hr, _⟩
      exact (reported_complete hr (wellFormed_toJson (wellFormed_readResponse hraw) hparse)).journal

/-- A reader finds what was saved. -/
theorem Saves.loads (h : Saves L q w q') (hw : Writes data w)
    (hv : q.hold.Valid operationId s n a) (hf : q.Facts L operationId) :
    loadsBytes data = some w :=
  loads_writes hw (h.journal hw hv hf).isObj (h.journal hw hv hf).wellFormed

theorem Saves.phase (h : Saves L q w q') (hw : Writes data w)
    (hv : q.hold.Valid operationId s n a) (hf : q.Facts L operationId) (u : Unit) :
    journalPhase (.did b root (.replace .journal data) (.ok u)) = some (w.get "phase") := by
  simp only [journalPhase, h.loads hw hv hf, Option.map_some]

/-- The phases before a claim, but for those of an execution that is over. -/
def unclaimed : List Json :=
  [.str (lit "prepared"), .str (lit "authorized"), .str (lit "waiting_for_review"),
    .str (lit "continuing")]

theorem answered_phase {v : Json} {phase : String} {r : ExecutionResponse} (ho : v.isObj = true) :
    (answeredState v phase r).get "phase" = .str (lit
      (if r.status = .waitingForReview then "waiting_for_review"
      else if approved r then phase
      else "complete")) := by
  simp [answeredState, Json.update, Json.get_set_self, Json.get_set_other, ho]

/-- What is saved when no outcome is on disk has one after it, or its phase is one of those
    that come before a claim. -/
theorem saved_before (h : Saves L q w q') (hw : Writes data w)
    (hv : q.hold.Valid operationId s n a) (hf : q.Facts L operationId) :
    Posted operationId (s.write .journal (some data)) ∨
      (w.get "phase" ∈ unclaimed ∨ w.get "phase" = .str (lit "complete")) := by
  have hfacts := h.facts hw hv hf
  cases h with
  | prepare j digest timestamp hd ht =>
      refine Or.inr (Or.inl ?_)
      have hphase : (preparedState j.args.operationId digest timestamp).get "phase" =
          .str (lit "prepared") := by
        simp [preparedState, Json.ofList, Json.get, Json.lookup]
      rw [hphase]
      exact List.mem_cons_self
  | rewrite j v w =>
      refine Or.inr (Or.inl ?_)
      rcases hf.1.continuing with hphase | hphase
      · rw [hphase]
        simp [unclaimed]
      · rw [hphase]
        simp [unclaimed]
  | record j v resp r ha =>
      refine Or.inr ?_
      rw [answered_phase hv.2.1.journal.isObj]
      by_cases hwait : r.status = .waitingForReview
      · rw [if_pos hwait]
        exact Or.inl (by simp [unclaimed])
      · rw [if_neg hwait]
        by_cases happ : approved r = true
        · rw [if_pos happ, Job.approvedPhase]
          refine Or.inl ?_
          split
          · simp [unclaimed]
          · simp [unclaimed]
        · rw [if_neg happ]
          exact Or.inr rfl
  | attempt e v started => exact Or.inl hfacts.1.1
  | settle q e v w hl hs => exact Or.inl hfacts.1.1
  | complete b v resp final hp =>
      rcases hp with ⟨sensitive, raw, hraw, hparse⟩
      rcases hv with ⟨_, d, hr, hb⟩
      exact Or.inl (posted_write hw (reported_complete hr
        (wellFormed_toJson (wellFormed_readResponse hraw) hparse)) hb)

/-- What is saved when an outcome is on disk. -/
theorem saved_after (h : Saves L q w q') (hv : q.hold.Valid operationId s n a)
    (hf : q.Facts L operationId) (hp : Posted operationId s) :
    ∃ digest, Reported operationId digest w ∧ Binding s digest := by
  rcases saves_mayWrite h hv hf with hm | hm | hm
  · exact absurd hm.1 hp.some
  · rcases hm.2.2 with ⟨v, hv, ho⟩
    exact absurd hp (hv.not_posted ho)
  · exact hm.2

/-- None of the phases before a claim is one after it. -/
theorem Attempted.not_unclaimed {v : Json} (h : Attempted v) : v.get "phase" ∉ unclaimed := by
  rcases h with h | h | h
  · rw [h]
    simp [unclaimed, lit_inj]
  · rw [h]
    simp [unclaimed, lit_inj]
  · rw [h]
    simp [unclaimed, lit_inj]

end Allowly

import Allowly.Theory.State

/-!
# What a Step Does to the Folder

The calls share a node, a lock, a journal and an approval. Whatever operation a call
performs, it does one of six things to them: nothing, or one of the constructors of
`Effect`. A journal is saved at six places, the constructors of `Saves`.

What a call has to rely on between its steps is its `Hold`. `Hold.Valid` is the
assertion that goes with it, about the folder and the past.

## Main definitions

* `executes`, `claims`, `sends`: The events that may not be repeated.
* `Same`, `Saves`, `Effect`: What a step does.
* `OnDisk`, `Binding`, `Posted`: What the folder holds.
* `Hold`, `Stage.hold`: What a call relies on.

## Theorems

* `edge_effect`: Every step has one of the effects.
* `onDisk_unique`: The journal on disk is one value.
-/

namespace Allowly

open Py Interleave

/-! ### Events -/

/-- A request to execute. -/
def executes : Happening → Bool
  | .did _ _ (.http req) _ => req.route = .execute
  | _ => false

/-- A request to claim a dispatch. -/
def claims : Happening → Bool
  | .did _ _ (.http req) _ => match req.route with
    | .dispatch _ => true
    | _ => false
  | _ => false

/-- A provider request, or the release of the native process. -/
def sends : Happening → Bool
  | .did _ _ (.transmit _) _ => true
  | .did _ _ (.replace .release _) (.ok _) => true
  | _ => false

/-! ### Effects -/

/-- The folder, as far as the calls share it, is the same. -/
structure Same (s s' : Folder) : Prop where
  node : s'.node = s.node
  lock : s'.lock = s.lock
  journal : s'.files .journal = s.files .journal
  approval : s'.files .approval = s.files .approval

theorem Same.refl (s : Folder) : Same s s := ⟨rfl, rfl, rfl, rfl⟩

theorem same_write {s : Folder} {file : File} {data : Option Bytes} (hj : file ≠ .journal)
    (ha : file ≠ .approval) : Same s (s.write file data) := by
  refine ⟨rfl, rfl, ?_, ?_⟩
  · simp [Folder.write, Function.update_of_ne hj.symm]
  · simp [Folder.write, Function.update_of_ne ha.symm]

/-- A file that is read is as it was, up to the limit. -/
theorem perform_read {a n : Nat} {file : File} {maximum : Nat} {data : Bytes} {s s' : Folder}
    (h : perform a n (.read file maximum) (.ok data) s = some s') :
    s' = s ∧ ∃ content, s.files file = some content ∧ data = content.take (maximum + 1) := by
  simp only [perform] at h
  split at h
  · next content hcontent =>
      split at h
      · next hd =>
          cases h
          exact ⟨rfl, content, hcontent, hd⟩
      · cases h
  · cases h

/-- What was read within the limit is the whole file. -/
theorem read_whole {a n : Nat} {data : Bytes} {s s' : Folder}
    (h : perform a n (.read .journal readLimit) (.ok data) s = some s')
    (hlen : data.length ≤ readLimit) : s' = s ∧ s.files .journal = some data := by
  rcases perform_read h with ⟨hs, content, hcontent, hd⟩
  refine ⟨hs, ?_⟩
  rw [hd, List.length_take] at hlen
  have htake : content.take (readLimit + 1) = content := List.take_of_length_le (by omega)
  rw [hd, htake]
  exact hcontent

theorem reads_file {a n : Nat} {data : Bytes} {v : Json} {s s' : Folder}
    (h : perform a n (.read .journal readLimit) (.ok data) s = some s') (hr : Reads data v) :
    s' = s ∧ s.files .journal = some data :=
  read_whole h hr.1

theorem quiet_same {a n : Nat} {o : Op} {r : Except Fault o.Answer} {s s' : Folder}
    (hq : Quiet o = true) (h : perform a n o r s = some s') : Same s s' := by
  unfold perform at h
  split at h
  · split at h
    · cases h
      exact Same.refl s
    · cases h
  · split at h
    · cases h
      exact Same.refl s
    · cases h
  · cases hq
  · cases hq
  · cases hq
  · cases hq
  · next file data _ =>
      cases h
      have hfile : file = .response := by simpa [Quiet] using hq
      rw [hfile]
      exact same_write (by decide) (by decide)
  · split at h
    · split at h
      · cases h
        exact Same.refl s
      · cases h
    · cases h
  · split at h
    · cases h
      exact Same.refl s
    · cases h
  · split at h
    · cases h
      exact Same.refl s
    · cases h
  · split at h
    · cases h
      exact Same.refl s
    · cases h
  · cases h
    exact Same.refl s

theorem failing_same {a n : Nat} {o : Op} {x : Fault} {s s' : Folder} (hf : Failing o = true)
    (h : perform a n o (.error x) s = some s') : s' = s := by
  cases o with
  | mkdir =>
      rcases x with ⟨x, hx⟩
      cases x with
      | fileExists =>
          simp only [perform] at h
          split at h
          · cases h
          · cases h
            rfl
      | _ =>
          simp only [perform, Option.some.injEq] at h
          exact h.symm
  | flock =>
      simp only [perform, Option.some.injEq] at h
      exact h.symm
  | replace file data =>
      simp only [perform, Option.some.injEq] at h
      exact h.symm
  | _ => cases hf

/-- The places at which a request is made. -/
theorem edge_http {L : Libs} {q q' : Stage} {req : ApiRequest} {r : Except Fault ApiResponse}
    (he : Edge L q (.http req) r q') :
    (∃ j v, q = .holding j v ∧ j.Sends req ∧ ((∃ resp, q' = .heard j v resp) ∨ q' = .ended)) ∨
    (∃ e v, q = .bound e v ∧ req.route = .witnessSessionToken e.job.args.operationId) ∨
    (∃ e v, q = .attempted e v ∧ e.Claims req ∧ ((∃ resp, q' = .asked e v resp) ∨ q' = .spent e v)) ∨
    (∃ b v, q = .reporting b v ∧ Reports v req) := by
  cases he with
  | request j v req resp hs => exact Or.inl ⟨j, v, rfl, hs, Or.inl ⟨resp, rfl⟩⟩
  | unanswered j v req x hs => exact Or.inl ⟨j, v, rfl, hs, Or.inr rfl⟩
  | admission e v req r hr => exact Or.inr (Or.inl ⟨e, v, rfl, hr⟩)
  | ask e v req resp hc => exact Or.inr (Or.inr (Or.inl ⟨e, v, rfl, hc, Or.inl ⟨resp, rfl⟩⟩))
  | refused e v req x hc => exact Or.inr (Or.inr (Or.inl ⟨e, v, rfl, hc, Or.inr rfl⟩))
  | report b v req resp hr => exact Or.inr (Or.inr (Or.inr ⟨b, v, rfl, hr⟩))
  | unreported b v req x hr => exact Or.inr (Or.inr (Or.inr ⟨b, v, rfl, hr⟩))
  | quiet q o r hq => cases hq
  | failed q o x hq => cases hq
  | trip q o x hi hq =>
      rcases hq with hq | hq | hq
      · cases hq
      · cases hq
      · cases hq

/-- The places at which a journal is saved. -/
inductive Saves (L : Libs) : Stage → Json → Stage → Prop where
  | prepare (j : Job) (digest timestamp : Str) (hd : sealSha L j.requested.toJson = .ok digest)
      (ht : j.requested.clientTimestamp = some timestamp) :
      Saves L (.made j) (preparedState j.args.operationId digest timestamp)
        (.saved j (preparedState j.args.operationId digest timestamp))
  | rewrite (j : Job) (v w : Json) : Saves L (.resumed j v w) w (.holding j w)
  | record (j : Job) (v : Json) (resp : ApiResponse) (r : ExecutionResponse)
      (ha : j.Accepts L resp r) : Saves L (.heard j v resp) (answeredState v j.approvedPhase r)
        (.recorded j (answeredState v j.approvedPhase r) r)
  | attempt (e : Evidence) (v : Json) (started : Int) :
      Saves L (.bound e v) (claimState v e.job.args.operationId e.response (L.isoformat started))
        (.attempted e (claimState v e.job.args.operationId e.response (L.isoformat started)))
  | settle (q : Stage) (e : Evidence) (v w : Json) (hl : Leads L q e v) (hs : Settles L e v w) :
      Saves L q w (.settled w)
  | complete (b : Bool) (v : Json) (resp : ApiResponse) (final : ExecutionResponse)
      (hp : ∃ sensitive raw, readResponse L sensitive [200, 201] resp = .ok raw ∧
        parseExecutionResponse L raw = .ok final) :
      Saves L (.reported b v resp) (completeState v final) (.flushed b)

/-- What a step does to the folder. -/
inductive Effect (L : Libs) (self : Nat) (s : Folder) : Folder → Stage → Stage → Prop where
  | same (s' : Folder) (q q' : Stage) (h : Same s s') : Effect L self s s' q q'
  | made (c : Client) (j : Job) (h : s.node = .absent) :
      Effect L self s { s with node := .dir } (.start (.execute c j.args)) (.made j)
  | locked (q q' : Stage) (h : s.lock = none) : Effect L self s { s with lock := some self } q q'
  | unlocked (q q' : Stage) : Effect L self s (s.unlock self) q q'
  | bound (e : Evidence) (v : Json) (data : Bytes) (hw : Writes data e.binding) :
      Effect L self s (s.write .approval (some data))
        (.timed e.job v e.response e.checkedAt) (.bound e v)
  | saved (q : Stage) (w : Json) (q' : Stage) (data : Bytes) (h : Saves L q w q')
      (hw : Writes data w) : Effect L self s (s.write .journal (some data)) q q'

/-- Every step has one of the effects. -/
theorem edge_effect {L : Libs} {q q' : Stage} {o : Op} {r : Except Fault o.Answer} {a n : Nat}
    {s s' : Folder} (he : Edge L q o r q') (hp : perform a n o r s = some s') :
    Effect L a s s' q q' := by
  have hother : ∀ {o : Op} {r : Except Fault o.Answer} {q q' : Stage}, perform a n o r s = some s →
      perform a n o r s = some s' → Effect L a s s' q q' := by
    intro o r q q' h h'
    rw [h, Option.some.injEq] at h'
    rw [← h']
    exact Effect.same s _ _ (Same.refl s)
  cases he with
  | quiet q o r h => exact Effect.same s' _ _ (quiet_same h hp)
  | failed q o x h =>
      rw [failing_same h hp]
      exact Effect.same s _ _ (Same.refl s)
  | trip q o x hi h =>
      rcases h with h | h | h
      · exact Effect.same s' _ _ (quiet_same h hp)
      · rw [failing_same h hp]
        exact Effect.same s _ _ (Same.refl s)
      · subst h
        simp only [perform, Option.some.injEq] at hp
        rw [← hp]
        exact Effect.unlocked _ _
  | make c j hb hi =>
      simp only [perform] at hp
      split at hp
      · next h =>
          cases hp
          exact Effect.made c j h
      · cases hp
  | lockPrepared j v =>
      simp only [perform] at hp
      split at hp
      · next h =>
          cases hp
          exact Effect.locked _ _ h
      · cases hp
  | lockContinued c b =>
      simp only [perform] at hp
      split at hp
      · next h =>
          cases hp
          exact Effect.locked _ _ h
      · cases hp
  | prepare j data digest timestamp hd ht hw =>
      simp only [perform, Option.some.injEq] at hp
      rw [← hp]
      exact Effect.saved _ _ _ data (Saves.prepare j digest timestamp hd ht) hw
  | rewrite j v w data hw =>
      simp only [perform, Option.some.injEq] at hp
      rw [← hp]
      exact Effect.saved _ _ _ data (Saves.rewrite j v w) hw
  | record j v resp r data ha hw =>
      simp only [perform, Option.some.injEq] at hp
      rw [← hp]
      exact Effect.saved _ _ _ data (Saves.record j v resp r ha) hw
  | attempt e v started data hw =>
      simp only [perform, Option.some.injEq] at hp
      rw [← hp]
      exact Effect.saved _ _ _ data (Saves.attempt e v started) hw
  | settle q e v w data hl hs hw =>
      simp only [perform, Option.some.injEq] at hp
      rw [← hp]
      exact Effect.saved _ _ _ data (Saves.settle q e v w hl hs) hw
  | complete b v resp final data hf hw =>
      simp only [perform, Option.some.injEq] at hp
      rw [← hp]
      exact Effect.saved _ _ _ data (Saves.complete b v resp final hf) hw
  | bind e v data hv hw =>
      simp only [perform, Option.some.injEq] at hp
      rw [← hp]
      exact Effect.bound e v data hw
  | unlock q r hi =>
      simp only [perform, Option.some.injEq] at hp
      rw [← hp]
      exact Effect.unlocked _ _
  | unlockIdle q hi =>
      simp only [perform, Option.some.injEq] at hp
      rw [← hp]
      exact Effect.unlocked _ _
  | release e v resp data hg hm hw =>
      simp only [perform, Option.some.injEq] at hp
      rw [← hp]
      exact Effect.same _ _ _ (same_write (by decide) (by decide))
  | launch e v resp r hg hm =>
      cases r with
      | ok thread =>
          simp only [perform] at hp
          split at hp
          · cases hp
            exact Effect.same s _ _ (Same.refl s)
          · cases hp
      | error x => exact hother rfl hp
  | transmit p q r h =>
      cases r with
      | ok _ => exact hother rfl hp
      | error x => exact hother rfl hp
  | tell e v admission data r hm hw =>
      cases r with
      | ok _ => exact hother rfl hp
      | error x => exact hother rfl hp
  | admission e v req r hr =>
      cases r with
      | ok _ => exact hother rfl hp
      | error x => exact hother rfl hp
  | tripEntered c b x => exact hother rfl hp
  | resume c j data v w hb hr hv => exact Effect.same s' _ _ (quiet_same rfl hp)
  | glance c b data => exact Effect.same s' _ _ (quiet_same rfl hp)
  | readFlush c t data v hr ho => exact Effect.same s' _ _ (quiet_same rfl hp)
  | reject c t data => exact Effect.same s' _ _ (quiet_same rfl hp)
  | readSettled u data v hr ho => exact Effect.same s' _ _ (quiet_same rfl hp)
  | request j v req resp hs => exact hother rfl hp
  | unanswered j v req x hs => exact hother rfl hp
  | time j v r now => exact hother rfl hp
  | ask e v req resp hc => exact hother rfl hp
  | refused e v req x hc => exact hother rfl hp
  | report b v req resp hr => exact hother rfl hp
  | unreported b v req x hr => exact hother rfl hp

end Allowly

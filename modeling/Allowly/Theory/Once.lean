import Allowly.Theory.Calls
import Allowly.Theory.Saved
import Allowly.Theory.Scenario

/-!
# At Most Once

The right to claim and the right to send. Both are gained when a call saves the journal
that says that a claim follows, which happens under the lock and only if no outcome is
in the journal. From then on there is an outcome, and nobody gains them again. The right
to send goes to the thread when there is one.

The first request to execute needs no argument of this kind: it is counted by the
invariant.

## Main definitions

* `Stage.claimer`, `Stage.sender`: Who may claim, and who may send.
* `Run`: What is known of a point of a run.
* `Granted`: A claim that was answered, after the journal said so.

## Theorems

* `run_reachable`: Everything that can be reached is a run.
* `at_most_once`: There is one request to execute, one claim and one send.
-/

namespace Allowly

open Py Interleave

variable {L : Libs} {operationId : Str} {s s' : Folder}

/-! ### The rights -/

/-- The claim is still to be made. -/
def Stage.claimer : Stage → Bool
  | attempted .. => true
  | _ => false

/-- Something may still be sent to the provider. -/
def Stage.sender : Stage → Bool
  | attempted .. => true
  | asked .. => true
  | sending _ => true
  | _ => false

theorem claimer_sender {q : Stage} (h : q.claimer = true) : q.sender = true := by
  cases q with
  | attempted e v => rfl
  | _ => cases h

/-- Who may send relies on an outcome that is on disk. -/
theorem sender_posted {q : Stage} {n a : Nat} (h : q.sender = true)
    (hv : q.hold.Valid operationId s n a) : Posted operationId s := by
  cases q with
  | attempted e v => exact hv.1
  | asked e v resp => exact hv.1
  | sending p => exact hv
  | _ => cases h

/-- An outcome stays on disk. -/
theorem posted_step {q q' : Stage} {o : Op} {r : Except Fault o.Answer} {a b n : Nat}
    (he : Edge L q o r q') (hp : perform a b o r s = some s')
    (hv : q.hold.Valid operationId s n a) (hf : q.Facts L operationId)
    (h : Posted operationId s) : Posted operationId s' := by
  have hk : Hold.posted.Valid operationId s n (a + 1) := h
  exact Hold.Valid.stable (Nat.succ_ne_self a).symm (edge_effect he hp) hv hf (fun _ => rfl) hk

/-- The rights are gained together, when no outcome is on disk. -/
theorem edge_sender {q q' : Stage} {o : Op} {r : Except Fault o.Answer} {n a : Nat}
    (he : Edge L q o r q') (hv : q.hold.Valid operationId s n a) (h : q'.sender = true) :
    q.sender = true ∨ ¬ Posted operationId s := by
  cases he with
  | quiet q o r hq => exact Or.inl h
  | failed q o x hq => exact Or.inl h
  | attempt e v started data hw => exact Or.inr (hv.2.1.not_posted hv.2.2.1)
  | ask e v req resp hc => exact Or.inl rfl
  | unlockIdle q hi => exact Or.inl h
  | _ => cases h

theorem edge_claimer {q q' : Stage} {o : Op} {r : Except Fault o.Answer} {n a : Nat}
    (he : Edge L q o r q') (hv : q.hold.Valid operationId s n a) (h : q'.claimer = true) :
    q.claimer = true ∨ ¬ Posted operationId s := by
  cases he with
  | quiet q o r hq => exact Or.inl h
  | failed q o x hq => exact Or.inl h
  | attempt e v started data hw => exact Or.inr (hv.2.1.not_posted hv.2.2.1)
  | unlockIdle q hi => exact Or.inl h
  | _ => cases h

theorem claims_route {a root : Nat} {req : ApiRequest} {r : Except Fault ApiResponse}
    (h : claims (.did a root (.http req) r) = true) : ∃ id, req.route = .dispatch id := by
  simp only [claims] at h
  split at h
  · next id hid => exact ⟨id, hid⟩
  · cases h

/-- A claim is made by one that has the right, and uses it. -/
theorem edge_claims {q q' : Stage} {o : Op} {r : Except Fault o.Answer} {a root : Nat}
    (he : Edge L q o r q') (h : claims (.did a root o r) = true) :
    ∃ e v, q = .attempted e v ∧ q'.claimer = false ∧ ∀ req, o = .http req → e.Claims req := by
  cases o with
  | http req =>
      rcases claims_route h with ⟨id, hid⟩
      rcases edge_http he with ⟨j, v, _, hs, _⟩ | ⟨e, v, _, hr⟩ | ⟨e, v, rfl, hc, hq'⟩ | ⟨b, v, _, hr⟩
      · rw [hs.1, Job.route] at hid
        split at hid
        · cases hid
        · cases hid
      · rw [hr] at hid
        cases hid
      · refine ⟨e, v, rfl, ?_, ?_⟩
        · rcases hq' with ⟨resp, rfl⟩ | rfl
          · rfl
          · rfl
        · intro req' heq
          cases heq
          exact hc
      · rcases hr with ⟨_, _, _, _, _, hr, _⟩
        rw [hr] at hid
        cases hid
  | _ => cases h

/-- A file that was not written was not released. -/
theorem sends_failed (a root : Nat) (file : File) (data : Bytes) (x : Fault) :
    sends (.did a root (.replace file data) (.error x)) = false := by
  cases file with
  | _ => rfl

/-- The two ways to send. -/
theorem edge_sends {q q' : Stage} {o : Op} {r : Except Fault o.Answer} {a root : Nat}
    (he : Edge L q o r q') (h : sends (.did a root o r) = true) :
    (∃ e v resp data, q = .asked e v resp ∧ q' = .spent e v ∧ o = .replace .release data ∧
      e.Granted L resp ∧ e.Witnessed ∧ Writes data e.releaseBody) ∨
    (∃ args p, q = .sending args ∧ q' = .ended ∧ o = .transmit p ∧ Transmits L args p) := by
  cases he with
  | release e v resp data hg hm hw => exact Or.inl ⟨e, v, resp, data, rfl, rfl, rfl, hg, hm, hw⟩
  | transmit args p r hp => exact Or.inr ⟨args, p, rfl, rfl, rfl, hp⟩
  | quiet q o r hq =>
      cases o with
      | replace file data =>
          have hfile : file = .response := by simpa [Quiet] using hq
          rw [hfile] at h
          cases r with
          | ok _ => cases h
          | error x =>
              rw [sends_failed] at h
              cases h
      | transmit p => cases hq
      | _ => cases h
  | failed q o x hq =>
      cases o with
      | replace file data =>
          rw [sends_failed] at h
          cases h
      | transmit p => cases hq
      | _ => cases h
  | trip q o x hi hq =>
      cases o with
      | replace file data =>
          rw [sends_failed] at h
          cases h
      | transmit p =>
          rcases hq with hq | hq | hq
          · cases hq
          · cases hq
          · cases hq
      | _ => cases h
  | _ => cases h

theorem posted_finish (L : Libs) (a : Nat) (r : Except Exc Value) (s : Folder)
    (h : Posted operationId s) : Posted operationId ((system L operationId).finish a r s) :=
  Posted.of_same (s := s) ⟨rfl, rfl, rfl, rfl⟩ h

theorem posted_crash (L : Libs) (a : Nat) (s : Folder) (h : Posted operationId s) :
    Posted operationId ((system L operationId).crash a s) := by
  have hk : Hold.posted.Valid operationId s 0 (a + 1) := h
  exact hk.unlock (Nat.succ_ne_self a).symm

theorem posted_disturb {d : NativeWrite} (hd : (system L operationId).disturb d s = some s')
    (h : Posted operationId s) : Posted operationId s' := by
  simp only [system] at hd
  split at hd
  · next hfile =>
      cases hd
      refine h.of_same (same_write ?_ ?_)
      · intro hj
        rw [hj] at hfile
        exact absurd hfile (by decide)
      · intro ha
        rw [ha] at hfile
        exact absurd hfile (by decide)
  · cases hd

theorem right_claim (L : Libs) (operationId : Str) :
    Right (system L operationId) (Edge L) firstStage (Invariant L operationId) Stage.claimer claims
      (Posted operationId) where
  only e he := by
    cases e with
    | did a root o r => exact ⟨a, root, o, r, rfl⟩
    | _ => cases he
  holder s roles h a root q hi ha hq := sender_posted (claimer_sender hq) (hi.valid a root q ha).1
  act s roles n h a root q o r s' q' hi ha he hp := by
    rcases hi.valid a root q ha with ⟨hv, hf⟩
    refine ⟨posted_step he hp hv hf, edge_claimer he hv, ?_, ?_⟩
    · intro hc
      rcases edge_claims he hc with ⟨e, v, rfl, hq', _⟩
      exact ⟨Or.inl rfl, posted_step he hp hv hf hv.1, hq'⟩
    · intro c hs hc
      rcases edge_spawns he hs with ⟨e, v, resp, thread, rfl, rfl, rfl, _, rfl, _, _⟩
      cases hc
  start c hc := by
    cases c with
    | send p => cases hc
    | _ => rfl
  finish a r s h := posted_finish L a r s h
  crash a s h := posted_crash L a s h
  disturb d s s' hd h := posted_disturb hd h

theorem right_send (L : Libs) (operationId : Str) :
    Right (system L operationId) (Edge L) firstStage (Invariant L operationId) Stage.sender sends
      (Posted operationId) where
  only e he := by
    cases e with
    | did a root o r => exact ⟨a, root, o, r, rfl⟩
    | _ => cases he
  holder s roles h a root q hi ha hq := sender_posted hq (hi.valid a root q ha).1
  act s roles n h a root q o r s' q' hi ha he hp := by
    rcases hi.valid a root q ha with ⟨hv, hf⟩
    refine ⟨posted_step he hp hv hf, edge_sender he hv, ?_, ?_⟩
    · intro hc
      rcases edge_sends he hc with ⟨e, v, resp, data, rfl, rfl, _⟩ | ⟨args, p, rfl, rfl, _⟩
      · exact ⟨Or.inl rfl, posted_step he hp hv hf hv.1, rfl⟩
      · exact ⟨Or.inl rfl, posted_step he hp hv hf hv, rfl⟩
    · -- The call hands the right on to its thread.
      intro c hs _
      rcases edge_spawns he hs with ⟨e, v, resp, thread, rfl, rfl, rfl, _, rfl, _, _⟩
      exact ⟨rfl, rfl, rfl⟩
  start c hc := by
    cases c with
    | send p => cases hc
    | _ => rfl
  finish a r s h := posted_finish L a r s h
  crash a s h := posted_crash L a s h
  disturb d s s' hd h := posted_disturb hd h

/-! ### Runs -/

/-- The journal on disk is one of a claim. -/
def attemptedPhase : Json := .str (lit "dispatch_attempted")

theorem logged_step {roles : Roles Stage} {h : List Happening} {a b root : Nat} {q q' : Stage}
    {o : Op} {r : Except Fault o.Answer} (hi : Invariant L operationId s roles h)
    (hl : (∃ x ∈ h, journalPhase x = some attemptedPhase) → Posted operationId s)
    (ha : roles a = some (root, q)) (he : Edge L q o r q') (hp : perform a b o r s = some s') :
    (∃ x ∈ .did a root o r :: h, journalPhase x = some attemptedPhase) → Posted operationId s' := by
  rcases hi.valid a root q ha with ⟨hv, hf⟩
  intro ⟨x, hx, hphase⟩
  rcases List.mem_cons.mp hx with rfl | hx
  · cases o with
    | replace file data =>
        cases file with
        | journal =>
            cases r with
            | ok u =>
                rcases edge_saves he with ⟨w, hsaves, hw⟩
                rw [hsaves.phase hw hv hf, Option.some.injEq] at hphase
                rw [perform_replace hp]
                rcases saved_before hsaves hw hv hf with hposted | hopen | hdone
                · exact hposted
                · rw [hphase] at hopen
                  simp [unclaimed, attemptedPhase, lit_inj] at hopen
                · rw [hphase, attemptedPhase, Json.str.injEq, lit_inj] at hdone
                  exact absurd hdone (by decide)
            | error x => cases hphase
        | _ => cases hphase
    | _ => cases hphase
  · exact posted_step he hp hv hf (hl ⟨x, hx, hphase⟩)

/-- Once a journal of a claim was saved, an outcome is on disk. -/
theorem preserves_logged (L : Libs) (operationId : Str) :
    Preserves (system L operationId) (Edge L) (Ends L) firstStage (Invariant L operationId)
      (fun s _ h => (∃ x ∈ h, journalPhase x = some attemptedPhase) → Posted operationId s) where
  start s roles n h c hi hl hn hc := by
    intro ⟨x, hx, hp⟩
    rcases List.mem_cons.mp hx with rfl | hx
    · cases hp
    · exact hl ⟨x, hx, hp⟩
  act s roles n h a root q o r s' q' hi hl ha hn he hp hs :=
    logged_step hi hl ha he hp
  spawn s roles n h a root q o r s' q' c hi hl ha hn he hp hs := by
    intro ⟨x, hx, hphase⟩
    rcases List.mem_cons.mp hx with rfl | hx
    · cases hphase
    · exact logged_step hi hl ha he hp ⟨x, hx, hphase⟩
  finish s roles h a root q r hi hl ha hp := by
    intro ⟨x, hx, hphase⟩
    rcases List.mem_cons.mp hx with rfl | hx
    · cases hphase
    · exact posted_finish L a r s (hl ⟨x, hx, hphase⟩)
  crash s roles h a root q hi hl ha := by
    intro ⟨x, hx, hphase⟩
    rcases List.mem_cons.mp hx with rfl | hx
    · cases hphase
    · exact posted_crash L a s (hl ⟨x, hx, hphase⟩)
  disturb s roles h d s' hi hl hd := by
    intro ⟨x, hx, hphase⟩
    rcases List.mem_cons.mp hx with rfl | hx
    · cases hphase
    · exact posted_disturb hd (hl ⟨x, hx, hphase⟩)

/-- What is known of a point of a run. -/
structure Run (L : Libs) (operationId : Str) (s : Folder) (roles : Roles Stage)
    (h : List Happening) : Prop where
  invariant : Invariant L operationId s roles h
  claim : Held Stage.claimer claims (Posted operationId) s roles h
  send : Held Stage.sender sends (Posted operationId) s roles h
  memory : ∀ a root q, roles a = some (root, q) → Remembers L operationId a root q h
  logged : (∃ x ∈ h, journalPhase x = some attemptedPhase) → Posted operationId s

theorem preserves_run (L : Libs) (operationId : Str) :
    Preserves (system L operationId) (Edge L) (Ends L) firstStage (fun _ _ _ => True)
      (Run L operationId) := by
  have hclaim := preserves_held (Ends L) (right_claim L operationId)
  have hsend := preserves_held (Ends L) (right_send L operationId)
  have hmemory := preserves_trail (Ends L) (trail_remembers L operationId)
  have hall := (preserves_invariant L operationId).and
    (((hclaim.both hsend).both hmemory).both (preserves_logged L operationId))
  refine hall.congr fun s roles h => ⟨?_, ?_⟩
  · intro ⟨hi, ⟨⟨hc, hs⟩, hm⟩, hl⟩
    exact ⟨hi, hc, hs, hm, hl⟩
  · intro hr
    exact ⟨hr.invariant, ⟨⟨hr.claim, hr.send⟩, hr.memory⟩, hr.logged⟩

theorem run_initial (L : Libs) (operationId : Str) :
    Run L operationId Folder.fresh (fun _ => none) [] where
  invariant := invariant_initial L operationId
  claim := held_initial _
  send := held_initial _
  memory a root q ha := by cases ha
  logged := by
    intro ⟨x, hx, _⟩
    cases hx

/-- Everything that can be reached is a run. -/
theorem run_reachable {w : Point} (hw : (system L operationId).Reachable Folder.fresh w) :
    ∃ roles, Fits (Edge L) (Ends L) w roles ∧ Run L operationId w.shared roles w.history :=
  invariant (fun c _ => code_follows operationId c) (preserves_run L operationId)
    (run_initial L operationId) hw

/-- The same, with what a run keeps besides. -/
theorem run_with {G : Folder → Roles Stage → List Happening → Prop} {w : Point}
    (hG : Preserves (system L operationId) (Edge L) (Ends L) firstStage (Run L operationId) G)
    (hstart : G Folder.fresh (fun _ => none) [])
    (hw : (system L operationId).Reachable Folder.fresh w) :
    ∃ roles, Fits (Edge L) (Ends L) w roles ∧ Run L operationId w.shared roles w.history ∧
      G w.shared roles w.history :=
  invariant (fun c _ => code_follows operationId c) ((preserves_run L operationId).and hG)
    ⟨run_initial L operationId, hstart⟩ hw

/-- A program was started with one command. -/
theorem began_command {w : Point} (hw : (system L operationId).Reachable Folder.fresh w)
    {a r r' : Nat} {c c' : Command} (hb : .began a r c ∈ w.history)
    (hb' : .began a r' c' ∈ w.history) : c = c' := by
  rcases List.append_of_mem hb with ⟨front, past, hsplit⟩
  rcases List.append_of_mem hb' with ⟨front', past', hsplit'⟩
  exact (began_unique hw ⟨front, hsplit.symm⟩ ⟨front', hsplit'.symm⟩).2.1

/-! ### The result -/

/-- In this call a claim was granted, and a journal that says so was saved before it was
    asked for. -/
def GrantedAfter (L : Libs) (operationId : Str) (root : Nat) (h : List Happening) : Prop :=
  ∃ a req resp past sensitive raw, .did a root (.http req) (.ok resp) :: past <:+ h ∧
    req.route = .dispatch operationId ∧
    req.json = some (.ofList [("approval_sha256", raw.get "approval_sha256")]) ∧
    readResponse L sensitive [200] resp = .ok raw ∧
    raw.get "operation_id" = .str operationId ∧
    raw.get "dispatch_state" = .str (lit "claimed") ∧
    ∃ b data, .did b root (.replace .journal data) (.ok ()) ∈ past ∧
      journalPhase (.did b root (.replace .journal data) (.ok ())) = some attemptedPhase

theorem grantedAfter_of_asked {e : Evidence} {resp : ApiResponse} {root : Nat}
    {h : List Happening} (hid : e.job.args.operationId = operationId) (ha : Asked root e resp h)
    (hg : e.Granted L resp) : GrantedAfter L operationId root h := by
  rcases ha with ⟨a, req, past, hsuffix, hclaims, b, data, hd, hphase⟩
  rcases hg with ⟨sensitive, raw, hread, hop, hdigest, hstate, _, _⟩
  refine ⟨a, req, resp, past, sensitive, raw, hsuffix, ?_, ?_, hread, ?_, hstate, b, data, hd,
    hphase⟩
  · rw [hclaims.1, hid]
  · rw [hclaims.2, hdigest]
    rfl
  · rw [hop, hid]

/-- A send comes after a claim of its call. -/
def Ordered (L : Libs) (operationId : Str) (e : Happening) (past : List Happening) : Prop :=
  sends e = true → ∃ a root o r, e = .did a root o r ∧ GrantedAfter L operationId root past

/-- After a claim was logged, the journal does not go back. -/
def Kept (e : Happening) (past : List Happening) : Prop :=
  (∃ x ∈ past, journalPhase x = some attemptedPhase) →
    ∀ phase, journalPhase e = some phase → phase ∉ unclaimed

/-- What a history has at most once, and in which order. -/
structure AtMostOnce (L : Libs) (operationId : Str) (h : List Happening) : Prop where
  executed : h.countP executes ≤ 1
  claimed : h.countP claims ≤ 1
  sent : h.countP sends ≤ 1
  ordered : Always (Ordered L operationId) h
  kept : Always Kept h

theorem preserves_ordered (L : Libs) (operationId : Str) :
    Preserves (system L operationId) (Edge L) (Ends L) firstStage (Run L operationId)
      (fun _ _ h => Always (Ordered L operationId) h) := by
  refine preserves_always ?_ ?_ ?_ ?_ ?_
  · intro n root c h hs
    cases hs
  · intro s roles n h a root q o r s' q' hrun ha he hp hs
    refine ⟨a, root, o, r, rfl, ?_⟩
    have hmem := hrun.memory a root q ha
    rcases edge_sends he hs with ⟨e, v, resp, data, rfl, _, _, hg, _⟩ | ⟨args, p, rfl, _⟩
    · exact grantedAfter_of_asked hmem.1.id hmem.2 hg
    · rcases hmem with ⟨e, resp, _, _, hb, hasked, hg⟩
      exact grantedAfter_of_asked hb.id hasked hg
  · intro s roles h a root q r hrun ha hpost hs
    cases hs
  · intro a h hs
    cases hs
  · intro d h hs
    cases hs

theorem preserves_kept (L : Libs) (operationId : Str) :
    Preserves (system L operationId) (Edge L) (Ends L) firstStage (Run L operationId)
      (fun _ _ h => Always Kept h) := by
  refine preserves_always ?_ ?_ ?_ ?_ ?_
  · intro n root c h _ phase hphase
    cases hphase
  · intro s roles n h a root q o r s' q' hrun ha he hp hlogged phase hphase
    rcases hrun.invariant.valid a root q ha with ⟨hv, hf⟩
    have hposted := hrun.logged hlogged
    cases o with
    | replace file data =>
        cases file with
        | journal =>
            cases r with
            | ok u =>
                rcases edge_saves he with ⟨w, hsaves, hw⟩
                rw [hsaves.phase hw hv hf, Option.some.injEq] at hphase
                rcases saved_after hsaves hv hf hposted with ⟨d, hr, _⟩
                rw [← hphase]
                exact hr.phase.not_unclaimed
            | error x => cases hphase
        | _ => cases hphase
    | _ => cases hphase
  · intro s roles h a root q r hrun ha hpost _ phase hphase
    cases hphase
  · intro a h _ phase hphase
    cases hphase
  · intro d h _ phase hphase
    cases hphase

/-- However the calls on an operation interleave, fail and crash: it is executed, claimed and
    sent at most once, nothing is sent before the claim was logged and granted, and the
    journal of a claim is final. -/
theorem at_most_once {w : Point} (hw : (system L operationId).Reachable Folder.fresh w) :
    AtMostOnce L operationId w.history := by
  have hboth := (preserves_ordered L operationId).both (preserves_kept L operationId)
  rcases run_with hboth ⟨trivial, trivial⟩ hw with ⟨roles, _, hrun, hordered, hkept⟩
  exact ⟨hrun.invariant.sane.once, hrun.claim.once, hrun.send.once, hordered, hkept⟩

/-- The sample is executed, claimed and sent. -/
def directScenario : List Move :=
  let mode := lit "receipt"
  let outside := sampleOutside mode (lit "a1") (sampleResponse mode (lit "a1")).toJson
  [.begin (.execute sampleClient (sampleArgs mode)), .go 0 34 outside, .go 1 4 outside]

set_option maxRecDepth 20000 in
theorem direct_reached : ∃ w, (system sampleLibs (lit "op_1")).Reachable Folder.fresh w ∧
    w.history.countP executes = 1 ∧ w.history.countP claims = 1 ∧ w.history.countP sends = 1 := by
  have hcheck : (scenario sampleLibs (lit "op_1") directScenario).any (fun w =>
      decide (w.history.countP executes = 1) && decide (w.history.countP claims = 1) &&
        decide (w.history.countP sends = 1)) = true := by
    decide +kernel
  rcases scenario_reachable hcheck with ⟨w, hw, hcount⟩
  simp only [Bool.and_eq_true, decide_eq_true_eq] at hcount
  exact ⟨w, hw, hcount.1.1, hcount.1.2, hcount.2⟩

theorem at_most_once_sample : ∃ w : Point, w.history.countP sends = 1 ∧
    AtMostOnce sampleLibs (lit "op_1") w.history := by
  rcases direct_reached with ⟨w, hw, _, _, hsent⟩
  exact ⟨w, hsent, at_most_once hw⟩

end Allowly

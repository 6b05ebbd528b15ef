import Allowly.Theory.Once
import Allowly.Theory.Scenario

/-!
# Outcomes That Were Observed

A call that dispatches saves the outcome once more at the end, when it may have observed a
response. A report reads the journal, asks the runtime, and then writes the journal it
read, without a lock. When the journal was read before the observed outcome was saved and
is written afterwards, the outcome is lost. Nothing else loses it.

## Main definitions

* `observed`, `Noted`: An observed outcome, and that one was saved.
* `Stale`, `Overwrites`: A report of a journal that was read too early.
* `Fresh`: No report overwrites what it has not read.
* `Observing`: What is kept as long as this is so.

## Theorems

* `right_settle`: The outcome is saved at the end of one execution only.
* `outcome_kept`: An observed outcome stays, and is the one the call reports.
-/

namespace Allowly

open Py Interleave

variable {L : Libs} {operationId : Str} {s s' : Folder} {root : Nat} {h : List Happening}

/-- The outcome of a journal that was saved, as a reader finds it. -/
def savedOutcome : Happening → Option Json
  | .did _ _ (.replace .journal data) (.ok _) => (loadsBytes data).map fun v => v.get "outcome"
  | _ => none

/-- Is it the outcome of a response that was observed? -/
def observed (o : Json) : Bool :=
  (o.get "body").get "target_state" = .str (lit "response_observed")

/-- This outcome was saved, and a response was observed. -/
def Noted (o : Json) (h : List Happening) : Prop :=
  observed o = true ∧ ∃ e ∈ h, savedOutcome e = some o

/-- The journal was read at a time when no observed outcome had been saved. -/
def ReadEarly (root : Nat) (h : List Happening) : Prop :=
  ∃ a data late early, h = late ++ .did a root (.read .journal readLimit) (.ok data) :: early ∧
    ∀ o, ¬ Noted o early

/-- A report with this root read the journal before an observed outcome was saved. -/
def Stale (root : Nat) (h : List Happening) : Prop :=
  (∃ c t, .began root root (.flush c t) ∈ h) ∧ (∃ o, Noted o h) ∧ ReadEarly root h

/-- Such a report is written to the journal. -/
def Overwrites (e : Happening) (past : List Happening) : Prop :=
  ∃ a root data, e = .did a root (.replace .journal data) (.ok ()) ∧ Stale root past

/-- No report overwrites what it has not read. -/
def Fresh (h : List Happening) : Prop := Always (fun e past => ¬ Overwrites e past) h

/-- Is the journal replaced by this event? -/
def writesJournal : Happening → Bool
  | .did _ _ (.replace .journal _) (.ok _) => true
  | _ => false

theorem savedOutcome_none {e : Happening} (he : writesJournal e = false) : savedOutcome e = none := by
  unfold savedOutcome
  split
  · cases he
  · rfl

theorem Noted.mono {o : Json} {e : Happening} (hs : Noted o h) : Noted o (e :: h) := by
  rcases hs with ⟨ho, x, hx, hsaved⟩
  exact ⟨ho, x, List.mem_cons_of_mem e hx, hsaved⟩

theorem Noted.of_cons {o : Json} {e : Happening} (hs : Noted o (e :: h)) :
    Noted o h ∨ observed o = true ∧ savedOutcome e = some o := by
  rcases hs with ⟨ho, x, hx, hsaved⟩
  rcases List.mem_cons.mp hx with rfl | hx
  · exact Or.inr ⟨ho, hsaved⟩
  · exact Or.inl ⟨ho, x, hx, hsaved⟩

/-- Only a write saves an outcome. -/
theorem Noted.of_unwritten {o : Json} {e : Happening} (he : writesJournal e = false)
    (hs : Noted o (e :: h)) : Noted o h := by
  rcases hs.of_cons with hs | ⟨_, hs⟩
  · exact hs
  · rw [savedOutcome_none he] at hs
    cases hs

theorem ReadEarly.mono {e : Happening} (hr : ReadEarly root h) : ReadEarly root (e :: h) := by
  rcases hr with ⟨a, data, late, early, rfl, hearly⟩
  exact ⟨a, data, e :: late, early, rfl, hearly⟩

theorem Stale.mono {e : Happening} (hs : Stale root h) : Stale root (e :: h) := by
  rcases hs with ⟨⟨c, t, hc⟩, ⟨o, ho⟩, hr⟩
  exact ⟨⟨c, t, List.mem_cons_of_mem e hc⟩, ⟨o, ho.mono⟩, hr.mono⟩

theorem observed_isObj {o : Json} (h : observed o = true) : o.isObj = true := by
  cases o with
  | obj ms => rfl
  | _ =>
      rw [observed, decide_eq_true_eq] at h
      cases h

/-! ### The end of an execution -/

def pendingPhase : Json := .str (lit "outcome_pending")

/-- Is this the outcome of an execution that is saved? -/
def settles (e : Happening) : Bool := journalPhase e = some pendingPhase

/-- The outcome is still to be saved. -/
def Stage.dispatcher : Stage → Bool
  | attempted .. => true
  | asked .. => true
  | spent .. => true
  | _ => false

theorem journalPhase_none {e : Happening} (he : writesJournal e = false) : journalPhase e = none := by
  unfold journalPhase
  split
  · cases he
  · rfl

theorem settles_writes {e : Happening} (he : settles e = true) : writesJournal e = true := by
  by_contra hw
  rw [settles, decide_eq_true_eq, journalPhase_none (Bool.eq_false_iff.mpr hw)] at he
  cases he

/-- A write is one of a journal. -/
theorem writes_event {a : Nat} {o : Op} {r : Except Fault o.Answer}
    (he : writesJournal (.did a root o r) = true) :
    ∃ data, (.did a root o r : Happening) = .did a root (.replace .journal data) (.ok ()) := by
  cases o with
  | replace file data =>
      cases file with
      | journal =>
          cases r with
          | ok u => exact ⟨data, rfl⟩
          | error x => cases he
      | _ => cases he
  | _ => cases he

/-- The outcome is saved from a stage that leads to it. -/
theorem saves_pending {q q' : Stage} {w : Json} {n a : Nat} (hs : Saves L q w q')
    (hv : q.hold.Valid operationId s n a) (hf : q.Facts L operationId)
    (hp : w.get "phase" = pendingPhase) : ∃ e v, Leads L q e v ∧ Settles L e v w ∧ q' = .settled w := by
  have hphase : ∀ {t : String}, w.get "phase" = .str (lit t) → t = "outcome_pending" := by
    intro t ht
    rw [hp, pendingPhase, Json.str.injEq, lit_inj] at ht
    exact ht.symm
  cases hs with
  | settle q e v w hl hset => exact ⟨e, v, hl, hset, rfl⟩
  | prepare j digest timestamp hd ht =>
      have h := hphase (t := "prepared") (by
        simp [preparedState, Json.ofList, Json.get, Json.lookup, lit_inj])
      exact absurd h (by decide)
  | rewrite j v w =>
      rcases hf.1.continuing with h | h
      · exact absurd (hphase h) (by decide)
      · exact absurd (hphase h) (by decide)
  | record j v resp r ha =>
      have h := hphase (answered_phase hv.2.1.journal.isObj)
      split at h
      · exact absurd h (by decide)
      · split at h
        · rw [Job.approvedPhase] at h
          split at h
          · exact absurd h (by decide)
          · exact absurd h (by decide)
        · exact absurd h (by decide)
  | attempt e v started =>
      have h := hphase (t := "dispatch_attempted") (by
        simp [claimState, Json.update, Json.get_set_self, Json.get_set_other,
          hv.2.1.journal.isObj])
      exact absurd h (by decide)
  | complete b v resp final hfinal =>
      rcases hv.2 with ⟨d, hr, _⟩
      have h := hphase (t := "complete") (by
        simp [completeState, Json.update, Json.get_set_self, Json.get_set_other, hr.journal.isObj])
      exact absurd h (by decide)

/-- The outcome of an execution is saved by one that has the right, or gains it then. -/
theorem settle_leads {q : Stage} {e : Evidence} {v : Json} {n a : Nat} (hl : Leads L q e v)
    (hv : q.hold.Valid operationId s n a) : q.dispatcher = true ∨ ¬ Posted operationId s := by
  cases hl with
  | bound _ u started => exact Or.inr (hv.2.1.not_posted hv.2.2.1)
  | _ => exact Or.inl rfl

theorem edge_dispatcher {q q' : Stage} {o : Op} {r : Except Fault o.Answer} {n a : Nat}
    (he : Edge L q o r q') (hv : q.hold.Valid operationId s n a) (h : q'.dispatcher = true) :
    q.dispatcher = true ∨ ¬ Posted operationId s := by
  cases he with
  | quiet q o r hq => exact Or.inl h
  | failed q o x hq => exact Or.inl h
  | attempt e v started data hw => exact Or.inr (hv.2.1.not_posted hv.2.2.1)
  | ask e v req resp hc => exact Or.inl rfl
  | refused e v req x hc => exact Or.inl rfl
  | launch e v resp r hg hm => exact Or.inl rfl
  | release e v resp data hg hm hw => exact Or.inl rfl
  | unlockIdle q hi => exact Or.inl h
  | _ => cases h

/-- The outcome is saved at the end of one execution only. -/
theorem right_settle (L : Libs) (operationId : Str) :
    Right (system L operationId) (Edge L) firstStage (Invariant L operationId) Stage.dispatcher
      settles (Posted operationId) where
  only e he := by
    cases e with
    | did a root o r => exact ⟨a, root, o, r, rfl⟩
    | _ => cases he
  holder s roles h a root q hi ha hq := by
    have hv := (hi.valid a root q ha).1
    cases q with
    | attempted e v => exact hv.1
    | asked e v resp => exact hv.1
    | spent e v => exact hv.1
    | _ => cases hq
  act s roles n h a root q o r s' q' hi ha he hp := by
    rcases hi.valid a root q ha with ⟨hv, hf⟩
    refine ⟨posted_step he hp hv hf, edge_dispatcher he hv, ?_, ?_⟩
    · intro hset
      rcases writes_event (settles_writes hset) with ⟨data, heq⟩
      cases heq
      rcases edge_saves he with ⟨w, hsaves, hw⟩
      rw [settles, decide_eq_true_eq, hsaves.phase hw hv hf, Option.some.injEq] at hset
      have hfacts := hsaves.facts hw hv hf
      rcases saves_pending hsaves hv hf hset with ⟨e, v, hl, _, rfl⟩
      have hs' : s' = s.write .journal (some data) := perform_replace (a := a) (b := n) hp
      rw [hs']
      exact ⟨settle_leads hl hv, hfacts.1.1, rfl⟩
    · intro c hs hc
      rcases edge_spawns he hs with ⟨e, v, resp, thread, _, _, _, _, rfl, _⟩
      cases hc
  start c hc := by
    cases c with
    | _ => rfl
  finish a r s h := posted_finish L a r s h
  crash a s h := posted_crash L a s h
  disturb d s s' hd h := posted_disturb hd h

/-- What is saved is the outcome that was there, or the one of an execution that ends, or none
    that was observed. -/
theorem saves_outcome {q q' : Stage} {w : Json} {n a : Nat} (hs : Saves L q w q')
    (hv : q.hold.Valid operationId s n a) (hf : q.Facts L operationId)
    (ho : observed (w.get "outcome") = true) :
    w.get "phase" = pendingPhase ∨
      ∃ b v resp, q = .reported b v resp ∧ w.get "outcome" = v.get "outcome" := by
  have hopen : ∀ {v : Json}, Open v → w.get "outcome" = v.get "outcome" → False := by
    intro v hv heq
    rw [heq] at ho
    rw [Open, observed_isObj ho] at hv
    cases hv
  cases hs with
  | settle q e v w hl hset =>
      rcases leads_cases hl hv hf with ⟨d, _, hr, _⟩
      rcases hset with ⟨artifacts, completed, _, rfl⟩
      refine Or.inl ?_
      simp [settledState, pendingPhase, Json.update, Json.get_set_self, Json.get_set_other,
        hr.journal.isObj]
  | prepare j digest timestamp hd ht =>
      simp [preparedState, Json.ofList, Json.get, Json.lookup, lit_inj, observed] at ho
  | rewrite j v w => exact (hopen hv.2.2.1 (hf.1.other _ (by decide) (by decide))).elim
  | record j v resp r ha => exact (hopen hv.2.2.1 (answered_other (by decide) (by decide))).elim
  | attempt e v started =>
      have hunknown : (claimState v e.job.args.operationId e.response (L.isoformat started)).get
          "outcome" = outcomeReport e.job.args.operationId
            [("approval_sha256", optionText e.response.approvalSha256),
              ("target_state", .str (lit "unknown")),
              ("dispatch_started_at", .str (L.isoformat started)),
              ("completed_at", .str (L.isoformat started))] := by
        simp [claimState, Json.update, Json.get_set_self, hv.2.1.journal.isObj]
      rw [hunknown, observed, report_body] at ho
      simp [Json.ofList, Json.get, Json.lookup, lit_inj] at ho
  | complete b v resp final hfinal =>
      refine Or.inr ⟨b, v, resp, rfl, ?_⟩
      simp [completeState, Json.update, Json.get_set_other]

/-! ### Reports -/

/-- The execution is over, and its outcome was saved. -/
def Stage.after : Stage → Bool
  | settled _ => true
  | reporting alone _ => !alone
  | reported alone .. => !alone
  | flushed alone => !alone
  | _ => false

/-- A report by a call that does nothing else. -/
def Stage.Alone (root : Nat) (h : List Happening) : Stage → Prop
  | reporting true _ => (∃ c t, .began root root (.flush c t) ∈ h) ∧
      ∃ a data, .did a root (.read .journal readLimit) (.ok data) ∈ h
  | reported true _ _ => (∃ c t, .began root root (.flush c t) ∈ h) ∧
      ∃ a data, .did a root (.read .journal readLimit) (.ok data) ∈ h
  | _ => True

/-- What was read to be reported is the observed outcome, or was read too early. -/
def Relays (root : Nat) (h : List Happening) (alone : Bool) (v : Json) : Prop :=
  (observed (v.get "outcome") = true → Noted (v.get "outcome") h) ∧
    ∀ o, Noted o h → v.get "outcome" = o ∨ alone = true ∧ Stale root h

def Stage.Relays (root : Nat) (h : List Happening) : Stage → Prop
  | reporting alone v => Allowly.Relays root h alone v
  | reported alone v _ => Allowly.Relays root h alone v
  | _ => True

/-- What is kept as long as no report overwrites what it has not read. -/
structure Observing (operationId : Str) (s : Folder) (roles : Roles Stage)
    (h : List Happening) : Prop where
  disk : ∀ o, Noted o h → ∃ v, OnDisk operationId s v ∧ v.get "outcome" = o
  noted : ∀ v, OnDisk operationId s v → observed (v.get "outcome") = true →
    Noted (v.get "outcome") h
  once : ∀ o, Noted o h → h.countP settles ≠ 0
  after : ∀ a root q, roles a = some (root, q) → q.after = true → h.countP settles ≠ 0
  relays : ∀ a root q, roles a = some (root, q) → q.Relays root h

theorem Stage.Alone.mono {q : Stage} {e : Happening} (ha : q.Alone root h) :
    q.Alone root (e :: h) := by
  have hmono : ((∃ c t, .began root root (.flush c t) ∈ h) ∧
      ∃ a data, .did a root (.read .journal readLimit) (.ok data) ∈ h) →
      (∃ c t, .began root root (.flush c t) ∈ e :: h) ∧
        ∃ a data, .did a root (.read .journal readLimit) (.ok data) ∈ e :: h := by
    intro ⟨⟨c, t, hc⟩, b, data, hb⟩
    exact ⟨⟨c, t, List.mem_cons_of_mem e hc⟩, b, data, List.mem_cons_of_mem e hb⟩
  cases q with
  | reporting alone v =>
      cases alone with
      | true => exact hmono ha
      | false => exact trivial
  | reported alone v resp =>
      cases alone with
      | true => exact hmono ha
      | false => exact trivial
  | _ => exact trivial

theorem trail_alone (L : Libs) (operationId : Str) :
    Trail (system L operationId) (Edge L) firstStage (Run L operationId)
      (fun _ root q h => q.Alone root h) where
  mono a root q e h ha := ha.mono
  start n h c hc := by
    cases c with
    | _ => exact trivial
  act s roles n h a root q o r s' q' hrun ha hq he hp := by
    cases he with
    | quiet q o r hquiet => exact hq.mono
    | failed q o x hfail => exact hq.mono
    | unlockIdle q hi => exact hq.mono
    | readFlush c t data v hread ho =>
        have hbegan := hrun.memory a root _ ha
        exact ⟨⟨c, t, List.mem_cons_of_mem _ hbegan⟩, a, data, List.mem_cons_self⟩
    | report b v req resp hr =>
        have hq' : (Stage.reporting b v).Alone root
            (.did a root (.http req) (.ok resp) :: h) := hq.mono
        cases b with
        | true => exact hq'
        | false => exact trivial
    | _ => exact trivial
  spawn s roles n h a root q o r s' q' c hrun ha hq he hp hs := by
    rcases edge_spawns he hs with ⟨e, v, resp, thread, _, _, _, _, rfl, _⟩
    exact trivial

theorem Relays.mono {alone : Bool} {v : Json} {e : Happening} (he : writesJournal e = false)
    (hr : Relays root h alone v) : Relays root (e :: h) alone v := by
  refine ⟨fun ho => (hr.1 ho).mono, ?_⟩
  intro o ho
  rcases hr.2 o (ho.of_unwritten he) with heq | ⟨halone, hstale⟩
  · exact Or.inl heq
  · exact Or.inr ⟨halone, hstale.mono⟩

theorem Stage.Relays.mono {q : Stage} {e : Happening} (he : writesJournal e = false)
    (hr : q.Relays root h) : q.Relays root (e :: h) := by
  cases q with
  | reporting alone v => exact Allowly.Relays.mono he hr
  | reported alone v resp => exact Allowly.Relays.mono he hr
  | _ => exact trivial

theorem countP_unwritten {e : Happening} (he : writesJournal e = false) :
    (e :: h).countP settles = h.countP settles := by
  refine List.countP_cons_of_neg fun hs => ?_
  rw [settles_writes hs] at he
  cases he

/-- Something happened that did not write the journal. -/
theorem Observing.unwritten {roles roles' : Roles Stage} {e : Happening}
    (ho : Observing operationId s roles h) (he : writesJournal e = false)
    (hfile : s'.files .journal = s.files .journal)
    (hroles : ∀ a root q, roles' a = some (root, q) → roles a = some (root, q) ∨
      (q.after = true → h.countP settles ≠ 0) ∧ q.Relays root (e :: h)) :
    Observing operationId s' roles' (e :: h) where
  disk o hn := by
    rcases ho.disk o (hn.of_unwritten he) with ⟨v, hv, houtcome⟩
    refine ⟨v, ⟨?_, hv.journal⟩, houtcome⟩
    rw [hfile]
    exact hv.file
  noted v hv hobs := by
    refine (ho.noted v ⟨?_, hv.journal⟩ hobs).mono
    rw [← hfile]
    exact hv.file
  once o hn := by
    rw [countP_unwritten he]
    exact ho.once o (hn.of_unwritten he)
  after a root q ha hq := by
    rw [countP_unwritten he]
    rcases hroles a root q ha with ha | ⟨hafter, _⟩
    · exact ho.after a root q ha hq
    · exact hafter hq
  relays a root q ha := by
    rcases hroles a root q ha with ha | ⟨_, hrelays⟩
    · exact (ho.relays a root q ha).mono he
    · exact hrelays

/-- The journal that was read has the observed outcome. -/
theorem Observing.relays_read {roles : Roles Stage} {alone : Bool} {v : Json}
    (ho : Observing operationId s roles h) (hv : OnDisk operationId s v) : Relays root h alone v := by
  refine ⟨ho.noted v hv, ?_⟩
  intro o hn
  rcases ho.disk o hn with ⟨u, hu, houtcome⟩
  rw [hv.unique hu]
  exact Or.inl houtcome

theorem Sane.onDisk {data : Bytes} {v : Json} {n : Nat} (hs : Sane operationId s n)
    (hfile : s.files .journal = some data) (hr : Reads data v) : OnDisk operationId s v := by
  rcases hs.disk (by rw [hfile]; exact nofun) with ⟨u, hu, _, _⟩ | ⟨⟨u, d, hu, _, _⟩, _⟩
  · rw [hu.reads hfile hr]
    exact hu
  · rw [hu.reads hfile hr]
    exact hu

/-- The stage after an operation that did not write the journal. -/
theorem observing_stage {roles : Roles Stage} {q q' : Stage} {o : Op} {r : Except Fault o.Answer}
    {a b n : Nat} (ho : Observing operationId s roles h) (hs : Sane operationId s n)
    (ha : roles a = some (root, q)) (he : Edge L q o r q') (hp : perform a b o r s = some s')
    (hw : writesJournal (.did a root o r) = false) :
    (q'.after = true → h.countP settles ≠ 0) ∧ q'.Relays root (.did a root o r :: h) := by
  have hself : (q.after = true → h.countP settles ≠ 0) ∧ q.Relays root (.did a root o r :: h) :=
    ⟨ho.after a root q ha, (ho.relays a root q ha).mono hw⟩
  cases he with
  | quiet q o r hq => exact hself
  | failed q o x hq => exact hself
  | unlockIdle q hi => exact hself
  | readFlush c t data v hread houtcome =>
      rcases reads_file hp hread with ⟨_, hfile⟩
      refine ⟨fun h => (by cases h), ?_⟩
      exact (ho.relays_read (hs.onDisk hfile hread)).mono hw
  | readSettled u data v hread houtcome =>
      rcases reads_file hp hread with ⟨_, hfile⟩
      refine ⟨fun _ => hself.1 rfl, ?_⟩
      exact (ho.relays_read (hs.onDisk hfile hread)).mono hw
  | report b v req resp hr => exact hself
  | unreported b v req x hr => exact ⟨hself.1, trivial⟩
  | settle q e v w data hl hset hwr => cases hw
  | complete b v resp final data hp hwr => cases hw
  | _ => exact ⟨fun h => (by cases h), trivial⟩

theorem journal_unwritten {o : Op} {r : Except Fault o.Answer} {a b : Nat}
    (hp : perform a b o r s = some s') (hw : writesJournal (.did a root o r) = false) :
    s'.files .journal = s.files .journal := by
  have hite : ∀ {c : Prop} [Decidable c] {t : Folder}, t.files .journal = s.files .journal →
      (if c then some t else none) = some s' → s'.files .journal = s.files .journal := by
    intro c _ t ht h
    split at h
    · cases h
      exact ht
    · cases h
  unfold perform at hp
  split at hp
  · exact hite rfl hp
  · exact hite rfl hp
  · exact hite (t := { s with node := .dir }) rfl hp
  · split at hp
    · cases hp
    · cases hp
      rfl
  · exact hite (t := { s with lock := some a }) rfl hp
  · cases hp
    rfl
  · next file data _ =>
      cases hp
      refine files_write_other (fun hj => ?_) s _
      rw [← hj] at hw
      cases hw
  · split at hp
    · exact hite rfl hp
    · cases hp
  · exact hite rfl hp
  · exact hite rfl hp
  · exact hite rfl hp
  · cases hp
    rfl

/-- An observed outcome is only replaced by itself. -/
theorem observing_same {roles : Roles Stage} {q q' : Stage} {data : Bytes} {w : Json} {a : Nat}
    (hrun : Run L operationId s roles h)
    (hright : Held Stage.dispatcher settles (Posted operationId) s roles h)
    (ho : Observing operationId s roles h) (ha : roles a = some (root, q)) (hsaves : Saves L q w q')
    (hfresh : ¬ Overwrites (.did a root (.replace .journal data) (.ok ())) h) {o : Json}
    (hn : Noted o h) : w.get "outcome" = o := by
  rcases hrun.invariant.valid a root q ha with ⟨hv, hf⟩
  rcases ho.disk o hn with ⟨u, hu, houtcome⟩
  have hopen : ∀ {v : Json}, OnDisk operationId s v → Open v → False := by
    intro v hv hopen
    rw [← hu.unique hv, Open, houtcome, observed_isObj hn.1] at hopen
    cases hopen
  cases hsaves with
  | prepare j digest timestamp hd ht => exact absurd hv.2.1 hu.some
  | rewrite j v w => exact (hopen hv.2.1 hv.2.2.1).elim
  | record j v resp r hacc => exact (hopen hv.2.1 hv.2.2.1).elim
  | attempt e v started => exact (hopen hv.2.1 hv.2.2.1).elim
  | settle q e v w hl hset =>
      -- The outcome of an execution is saved once.
      rcases settle_leads hl hv with hq | hposted
      · exact absurd (hright.fresh a root q ha hq) (ho.once o hn)
      · exact absurd (hright.before hposted) (ho.once o hn)
  | complete b v resp final hfinal =>
      have hsame : (completeState v final).get "outcome" = v.get "outcome" := by
        simp [completeState, Json.update, Json.get_set_other]
      rcases (ho.relays a root _ ha).2 o hn with heq | ⟨_, hstale⟩
      · rw [hsame, heq]
      · exact absurd ⟨a, root, data, rfl, hstale⟩ hfresh

/-- A new observed outcome is the one of an execution that ends. -/
theorem observing_new {roles : Roles Stage} {q q' : Stage} {w : Json} {a : Nat}
    (hrun : Run L operationId s roles h) (ho : Observing operationId s roles h)
    (ha : roles a = some (root, q)) (hsaves : Saves L q w q')
    (hobs : observed (w.get "outcome") = true) :
    Noted (w.get "outcome") h ∨ w.get "phase" = pendingPhase := by
  rcases hrun.invariant.valid a root q ha with ⟨hv, hf⟩
  rcases saves_outcome hsaves hv hf hobs with hphase | ⟨b, v, resp, rfl, heq⟩
  · exact Or.inr hphase
  · rw [heq] at hobs ⊢
    exact Or.inl ((ho.relays a root _ ha).1 hobs)

/-- When an execution ends, nothing was observed yet. -/
theorem observing_first {roles : Roles Stage} {q q' : Stage} {w : Json} {a : Nat}
    (hrun : Run L operationId s roles h)
    (hright : Held Stage.dispatcher settles (Posted operationId) s roles h)
    (ha : roles a = some (root, q)) (hsaves : Saves L q w q') (hp : w.get "phase" = pendingPhase) :
    h.countP settles = 0 := by
  rcases hrun.invariant.valid a root q ha with ⟨hv, hf⟩
  rcases saves_pending hsaves hv hf hp with ⟨e, v, hl, _⟩
  rcases settle_leads hl hv with hq | hposted
  · exact hright.fresh a root q ha hq
  · exact hright.before hposted

/-- Another report, when the journal is written. -/
theorem observing_other {roles : Roles Stage} {alone : Bool} {v w : Json} {e : Happening}
    (halone : alone = true → (∃ c t, .began root root (.flush c t) ∈ h) ∧
      ∃ a data, .did a root (.read .journal readLimit) (.ok data) ∈ h)
    (hafter : alone = false → h.countP settles ≠ 0) (ho : Observing operationId s roles h)
    (hr : Relays root h alone v) (hsaved : savedOutcome e = some (w.get "outcome"))
    (hnew : observed (w.get "outcome") = true →
      Noted (w.get "outcome") h ∨ h.countP settles = 0) : Relays root (e :: h) alone v := by
  refine ⟨fun hobs => (hr.1 hobs).mono, ?_⟩
  have hold : ∀ {o : Json}, Noted o h → v.get "outcome" = o ∨ alone = true ∧ Stale root (e :: h) := by
    intro o hn
    rcases hr.2 o hn with heq | ⟨hal, hstale⟩
    · exact Or.inl heq
    · exact Or.inr ⟨hal, hstale.mono⟩
  intro o hn
  rcases hn.of_cons with hn | ⟨hobs, heq⟩
  · exact hold hn
  · have hn' := hn
    rw [hsaved, Option.some.injEq] at heq
    rw [← heq] at hobs hn' ⊢
    rcases hnew hobs with hnoted | hzero
    · exact hold hnoted
    · -- It was read before anything was observed.
      cases alone with
      | false => exact absurd hzero (hafter rfl)
      | true =>
          rcases halone rfl with ⟨⟨c, t, hc⟩, b, data, hread⟩
          rcases List.append_of_mem hread with ⟨late, early, hsplit⟩
          refine Or.inr ⟨rfl, ⟨c, t, List.mem_cons_of_mem e hc⟩, ⟨_, hn'⟩, ?_⟩
          have hearly : ReadEarly root h := by
            refine ⟨b, data, late, early, hsplit, ?_⟩
            intro o' hno
            have hno' : Noted o' h := by
              rcases hno with ⟨hobs', x, hx, hsx⟩
              refine ⟨hobs', x, ?_, hsx⟩
              rw [hsplit]
              exact List.mem_append_right _ (List.mem_cons_of_mem _ hx)
            exact ho.once o' hno' hzero
          exact hearly.mono

theorem countP_mono {e : Happening} (hc : h.countP settles ≠ 0) : (e :: h).countP settles ≠ 0 := by
  rw [List.countP_cons]
  omega

/-- The journal is written. -/
theorem observing_write {roles : Roles Stage} {q q' : Stage} {data : Bytes} {a : Nat}
    (hrun : Run L operationId s roles h)
    (hright : Held Stage.dispatcher settles (Posted operationId) s roles h)
    (halone : ∀ a root q, roles a = some (root, q) → q.Alone root h)
    (ho : Observing operationId s roles h) (ha : roles a = some (root, q))
    (he : Edge L q (.replace .journal data) (.ok ()) q')
    (hfresh : ¬ Overwrites (.did a root (.replace .journal data) (.ok ())) h) :
    Observing operationId (s.write .journal (some data))
      (Function.update roles a (some (root, q'))) (.did a root (.replace .journal data) (.ok ()) :: h) := by
  rcases hrun.invariant.valid a root q ha with ⟨hv, hf⟩
  rcases edge_saves he with ⟨w, hsaves, hw⟩
  have hdisk : OnDisk operationId (s.write .journal (some data)) w :=
    onDisk_write hw (hsaves.journal hw hv hf)
  have hsaved : savedOutcome (.did a root (.replace .journal data) (.ok ())) =
      some (w.get "outcome") := by
    simp only [savedOutcome, hsaves.loads hw hv hf, Option.map_some]
  have hsettles : w.get "phase" = pendingPhase →
      settles (.did a root (.replace .journal data) (.ok ())) = true := by
    intro hphase
    rw [settles, decide_eq_true_eq, hsaves.phase hw hv hf, hphase]
  refine ⟨?_, ?_, ?_, ?_, ?_⟩
  · intro o hn
    refine ⟨w, hdisk, ?_⟩
    rcases hn.of_cons with hn | ⟨_, heq⟩
    · exact observing_same hrun hright ho ha hsaves hfresh hn
    · rw [hsaved, Option.some.injEq] at heq
      exact heq
  · intro v hv' hobs
    rw [hv'.unique hdisk] at hobs ⊢
    exact ⟨hobs, _, List.mem_cons_self, hsaved⟩
  · intro o hn
    rcases hn.of_cons with hn | ⟨hobs, heq⟩
    · exact countP_mono (ho.once o hn)
    · rw [hsaved, Option.some.injEq] at heq
      rw [← heq] at hobs
      rcases observing_new hrun ho ha hsaves hobs with hn | hphase
      · exact countP_mono (ho.once _ hn)
      · rw [List.countP_cons_of_pos (hsettles hphase)]
        exact Nat.succ_ne_zero _
  · intro b rb qb hb hqb
    rcases update_some hb with ⟨_, hx⟩ | ⟨_, hx⟩
    · cases hx
      cases hsaves with
      | settle q e v w hl hset =>
          have hphase : w.get "phase" = pendingPhase := by
            rcases leads_cases hl hv hf with ⟨d, _, hr, _⟩
            rcases hset with ⟨artifacts, completed, _, rfl⟩
            simp [settledState, pendingPhase, Json.update, Json.get_set_self, Json.get_set_other,
              hr.journal.isObj]
          rw [List.countP_cons_of_pos (hsettles hphase)]
          exact Nat.succ_ne_zero _
      | complete b v resp final hfinal => exact countP_mono (ho.after a root _ ha hqb)
      | _ => cases hqb
    · exact countP_mono (ho.after b rb qb hx hqb)
  · intro b rb qb hb
    rcases update_some hb with ⟨_, hx⟩ | ⟨_, hx⟩
    · cases hx
      cases hsaves with
      | _ => exact trivial
    · have hnew : observed (w.get "outcome") = true →
          Noted (w.get "outcome") h ∨ h.countP settles = 0 := by
        intro hobs
        rcases observing_new hrun ho ha hsaves hobs with hn | hphase
        · exact Or.inl hn
        · exact Or.inr (observing_first hrun hright ha hsaves hphase)
      have hold := ho.relays b rb qb hx
      have hal := halone b rb qb hx
      cases qb with
      | reporting alone v =>
          refine observing_other ?_ ?_ ho hold hsaved hnew
          · rintro rfl
            exact hal
          · rintro rfl
            exact ho.after b rb _ hx rfl
      | reported alone v resp =>
          refine observing_other ?_ ?_ ho hold hsaved hnew
          · rintro rfl
            exact hal
          · rintro rfl
            exact ho.after b rb _ hx rfl
      | _ => exact trivial

/-! ### Runs -/

/-- What is known of a run besides. -/
structure Reporting (L : Libs) (operationId : Str) (s : Folder) (roles : Roles Stage)
    (h : List Happening) : Prop where
  right : Held Stage.dispatcher settles (Posted operationId) s roles h
  alone : ∀ a root q, roles a = some (root, q) → q.Alone root h

theorem preserves_reporting (L : Libs) (operationId : Str) :
    Preserves (system L operationId) (Edge L) (Ends L) firstStage (Run L operationId)
      (Reporting L operationId) := by
  have hright : Preserves (system L operationId) (Edge L) (Ends L) firstStage (Run L operationId)
      (Held Stage.dispatcher settles (Posted operationId)) :=
    (preserves_held (Ends L) (right_settle L operationId)).weaken fun s roles h hrun => hrun.invariant
  refine (hright.both (preserves_trail (Ends L) (trail_alone L operationId))).congr ?_
  intro s roles h
  exact ⟨fun hb => ⟨hb.1, hb.2⟩, fun hr => ⟨hr.right, hr.alone⟩⟩

/-- A program has performed an operation. -/
theorem observing_act {roles : Roles Stage} {q q' : Stage} {o : Op} {r : Except Fault o.Answer}
    {a n : Nat} (hrun : Run L operationId s roles h) (hrep : Reporting L operationId s roles h)
    (ho : Observing operationId s roles h) (ha : roles a = some (root, q)) (he : Edge L q o r q')
    (hp : perform a n o r s = some s') (hfresh : ¬ Overwrites (.did a root o r) h) :
    Observing operationId s' (Function.update roles a (some (root, q'))) (.did a root o r :: h) := by
  by_cases hw : writesJournal (.did a root o r) = true
  · rcases writes_event hw with ⟨data, heq⟩
    cases heq
    rw [perform_replace hp]
    exact observing_write hrun hrep.right hrep.alone ho ha he hfresh
  · rw [Bool.not_eq_true] at hw
    refine ho.unwritten hw (journal_unwritten hp hw) ?_
    intro b rb qb hb
    rcases update_some hb with ⟨_, hx⟩ | ⟨_, hx⟩
    · cases hx
      exact Or.inr (observing_stage ho hrun.invariant.sane ha he hp hw)
    · exact Or.inl hx

/-- A program has started. -/
theorem Observing.launch {roles : Roles Stage} {n a rc : Nat} {c : Command}
    (ho : Observing operationId s roles h) :
    Observing operationId s (Function.update roles n (some (root, firstStage c)))
      (.began a rc c :: h) := by
  refine ho.unwritten rfl rfl ?_
  intro b rb qb hb
  rcases update_some hb with ⟨_, hx⟩ | ⟨_, hx⟩
  · cases hx
    cases c with
    | _ => exact Or.inr ⟨fun hq => (by cases hq), trivial⟩
  · exact Or.inl hx

/-- A program is gone. -/
theorem Observing.leave {roles : Roles Stage} {a : Nat} {e : Happening}
    (ho : Observing operationId s roles h) (he : writesJournal e = false)
    (hfile : s'.files .journal = s.files .journal) :
    Observing operationId s' (Function.update roles a none) (e :: h) := by
  refine ho.unwritten he hfile ?_
  intro b rb qb hb
  rcases update_some hb with ⟨_, hx⟩ | ⟨_, hx⟩
  · cases hx
  · exact Or.inl hx

theorem preserves_observing (L : Libs) (operationId : Str) :
    Preserves (system L operationId) (Edge L) (Ends L) firstStage
      (fun s roles h => Run L operationId s roles h ∧ Reporting L operationId s roles h)
      (fun s roles h => Fresh h → Observing operationId s roles h) where
  start s roles n h c hK ho hn hc hf := (ho hf.2).launch
  act s roles n h a root q o r s' q' hK ho ha hn he hp hs hf :=
    observing_act hK.1 hK.2 (ho hf.2) ha he hp hf.1
  spawn s roles n h a root q o r s' q' c hK ho ha hn he hp hs hf :=
    (observing_act hK.1 hK.2 (ho hf.2.2) ha he hp hf.2.1).launch
  finish s roles h a root q r hK ho ha hp hf := (ho hf.2).leave rfl rfl
  crash s roles h a root q hK ho ha hf := (ho hf.2).leave rfl rfl
  disturb s roles h d s' hK ho hd hf := by
    simp only [system] at hd
    split at hd
    · next hfile =>
        cases hd
        refine (ho hf.2).unwritten rfl (files_write_other ?_ s _) fun b rb qb hb => Or.inl hb
        intro hj
        rw [← hj] at hfile
        exact absurd hfile (by decide)
    · cases hd

/-- What an event does with an observed outcome: a journal that is saved has it, and a call
    that is no mere report sends it. -/
def Relayed (e : Happening) (past : List Happening) : Prop :=
  Fresh (e :: past) → ∀ o, Noted o past →
    (∀ o', savedOutcome e = some o' → o' = o) ∧
    ∀ a root req r id, e = .did a root (.http req) r → req.route = .outcome id →
      req.json = some (o.get "body") ∨ ∃ c t, .began root root (.flush c t) ∈ past

theorem preserves_relayed (L : Libs) (operationId : Str) :
    Preserves (system L operationId) (Edge L) (Ends L) firstStage
      (fun s roles h => Run L operationId s roles h ∧ Reporting L operationId s roles h ∧
        (Fresh h → Observing operationId s roles h))
      (fun _ _ h => Always Relayed h) := by
  have hquiet : ∀ {e : Happening} {past : List Happening}, savedOutcome e = none →
      (∀ a root req r, e ≠ .did a root (.http req) r) → Relayed e past := by
    intro e past hnone hhttp hf o hn
    refine ⟨fun o' ho' => ?_, fun a root req r id heq => absurd heq (hhttp a root req r)⟩
    rw [hnone] at ho'
    cases ho'
  refine preserves_always ?_ ?_ ?_ ?_ ?_
  · intro n root c h
    exact hquiet rfl fun _ _ _ _ heq => (by cases heq)
  · intro s roles n h a root q o r s' q' hK ha he hp hf o' hn
    rcases hK with ⟨hrun, hrep, hobs⟩
    have ho := hobs hf.2
    refine ⟨?_, ?_⟩
    · intro o'' hsaved
      by_cases hw : writesJournal (.did a root o r) = true
      · rcases writes_event hw with ⟨data, heq⟩
        cases heq
        rcases hrun.invariant.valid a root q ha with ⟨hv, hfacts⟩
        rcases edge_saves he with ⟨w, hsaves, hwr⟩
        simp only [savedOutcome, hsaves.loads hwr hv hfacts, Option.map_some,
          Option.some.injEq] at hsaved
        rw [← hsaved]
        exact observing_same hrun hrep.right ho ha hsaves hf.1 hn
      · rw [savedOutcome_none (Bool.eq_false_iff.mpr hw)] at hsaved
        cases hsaved
    · intro a' root' req r' id heq hroute
      cases heq
      rcases edge_http he with ⟨j, v, _, hs, _⟩ | ⟨e, v, _, hr⟩ | ⟨e, v, _, hc, _⟩ | ⟨b, v, rfl, hr⟩
      · rw [hs.1, Job.route] at hroute
        split at hroute
        · cases hroute
        · cases hroute
      · rw [hr] at hroute
        cases hroute
      · rw [hc.1] at hroute
        cases hroute
      · rcases hr with ⟨_, _, _, _, _, _, hjson, _⟩
        cases b with
        | true => exact Or.inr (hrep.alone a root _ ha).1
        | false =>
            rcases (ho.relays a root _ ha).2 o' hn with heq | ⟨hfalse, _⟩
            · rw [← heq]
              exact Or.inl hjson
            · cases hfalse
  · intro s roles h a root q r hK ha hpost
    exact hquiet rfl fun _ _ _ _ heq => (by cases heq)
  · intro a h
    exact hquiet rfl fun _ _ _ _ heq => (by cases heq)
  · intro d h
    exact hquiet rfl fun _ _ _ _ heq => (by cases heq)

/-- Is it a call that dispatches? -/
def Command.dispatches : Command → Bool
  | execute .. => true
  | continuation .. => true
  | _ => false

/-- An observed outcome is in every later journal, and the call that dispatches sends it. -/
structure OutcomeKept (w : Point) : Prop where
  saved : Always (fun e past => ∀ o, Noted o past → ∀ o', savedOutcome e = some o' → o' = o) w.history
  disk : ∀ o, Noted o w.history → ∃ data v, w.shared.files .journal = some data ∧
    loadsBytes data = some v ∧ v.get "outcome" = o
  sent : ∀ a root req r past id c o, .did a root (.http req) r :: past <:+ w.history →
    req.route = .outcome id → .began root root c ∈ past → c.dispatches = true → Noted o past →
    req.json = some (o.get "body")

theorem fresh_suffix {past : List Happening} (hf : Fresh h) (hs : past <:+ h) : Fresh past :=
  always_of_suffix fun _ _ hx => always_suffix hf (hx.trans hs)

/-- As long as no report overwrites what it has not read, an observed outcome is kept. -/
theorem outcome_kept {w : Point} (hw : (system L operationId).Reachable Folder.fresh w)
    (hf : Fresh w.history) : OutcomeKept w := by
  have hobserving := (preserves_reporting L operationId).next (preserves_observing L operationId)
  have hall := hobserving.next (preserves_relayed L operationId)
  have hstart : Observing operationId Folder.fresh (fun _ => none) [] := by
    refine ⟨?_, ?_, ?_, fun _ _ _ ha => (by cases ha), fun _ _ _ ha => (by cases ha)⟩
    · intro o ⟨_, x, hx, _⟩
      cases hx
    · intro v hv _
      rcases hv.file with ⟨data, hdata, _⟩
      cases hdata
    · intro o ⟨_, x, hx, _⟩
      cases hx
  rcases run_with hall ⟨⟨⟨held_initial _, fun _ _ _ ha => (by cases ha)⟩, fun _ => hstart⟩, trivial⟩ hw
    with ⟨roles, _, _, ⟨_, hobs⟩, hrelayed⟩
  refine ⟨?_, ?_, ?_⟩
  · refine always_of_suffix fun e past hs => ?_
    intro o hn
    exact (always_suffix hrelayed hs (fresh_suffix hf hs) o hn).1
  · intro o hn
    rcases (hobs hf).disk o hn with ⟨v, hv, houtcome⟩
    rcases hv.file with ⟨data, hdata, hwrites⟩
    exact ⟨data, v, hdata, loads_writes hwrites hv.journal.isObj hv.journal.wellFormed, houtcome⟩
  · intro a root req r past id c o hs hroute hc hd hn
    rcases (always_suffix hrelayed hs (fresh_suffix hf hs) o hn).2 a root req r id rfl hroute with
      hjson | ⟨c', t, hflush⟩
    · exact hjson
    · have hsub : ∀ {x : Happening}, x ∈ past → x ∈ w.history :=
        fun hx => hs.subset (List.mem_cons_of_mem _ hx)
      rw [began_command hw (hsub hc) (hsub hflush)] at hd
      cases hd

/-- A report reads the journal of a claim, and then the outcome is saved. -/
def earlyScenario : List Move :=
  let mode := lit "receipt"
  let outside := sampleOutside mode (lit "a1") (sampleResponse mode (lit "a1")).toJson
  [.begin (.execute sampleClient (sampleArgs mode)), .go 0 34 outside,
    .begin (.flush sampleClient none), .go 2 3 outside, .go 1 5 outside, .finish 1, .go 0 10 outside]

/-- The report is written to the journal. -/
def lateMove : Move :=
  let mode := lit "receipt"
  .go 2 3 (sampleOutside mode (lit "a1") (sampleResponse mode (lit "a1")).toJson)

/-- Is the journal written by a mere report? -/
def writtenByReport (h : List Happening) : Bool :=
  h.any fun e => match e with
    | .did _ root (.replace .journal _) (.ok _) => h.any fun x => match x with
      | .began _ r (.flush ..) => r = root
      | _ => false
    | _ => false

theorem fresh_of_unwritten (hno : writtenByReport h = false) : Fresh h := by
  refine always_of_suffix fun e past hs hover => ?_
  rcases hover with ⟨a, root, data, rfl, ⟨c, t, hc⟩, _⟩
  have hwritten : writtenByReport h = true := by
    refine List.any_eq_true.mpr ⟨_, hs.subset List.mem_cons_self, ?_⟩
    exact List.any_eq_true.mpr
      ⟨_, hs.subset (List.mem_cons_of_mem _ hc), decide_eq_true rfl⟩
  rw [hno] at hwritten
  cases hwritten

/-- Is an outcome saved that was not observed, after one that was? -/
def losesOutcome : List Happening → Bool
  | [] => false
  | e :: past => ((savedOutcome e).any fun o => !observed o) &&
      (past.any fun x => (savedOutcome x).any observed) || losesOutcome past

theorem not_kept_of_loses (hl : losesOutcome h = true) :
    ¬ Always (fun e past => ∀ o, Noted o past → ∀ o', savedOutcome e = some o' → o' = o) h := by
  induction h with
  | nil => cases hl
  | cons e past ih =>
      intro ⟨he, hpast⟩
      rw [losesOutcome, Bool.or_eq_true, Bool.and_eq_true] at hl
      rcases hl with ⟨hnew, hold⟩ | hl
      · rcases List.any_eq_true.mp hold with ⟨x, hx, hox⟩
        rcases (Option.any_eq_true _ _).mp hox with ⟨o, ho, hobs⟩
        rcases (Option.any_eq_true _ _).mp hnew with ⟨o', ho', hnot⟩
        rw [he o ⟨hobs, x, hx, ho⟩ o' ho', hobs] at hnot
        cases hnot
      · exact ih hl hpast

set_option maxRecDepth 20000 in
theorem early_reached : ∃ w w',
    ((system sampleLibs (lit "op_1")).Reachable Folder.fresh w ∧
      (system sampleLibs (lit "op_1")).Reachable Folder.fresh w') ∧
    (writtenByReport w.history = false ∧
      w.history.any (fun e => (savedOutcome e).any observed) = true) ∧
    losesOutcome w'.history = true := by
  have hcheck : (scenario sampleLibs (lit "op_1") earlyScenario).any (fun w =>
      (!writtenByReport w.history && w.history.any fun e => (savedOutcome e).any observed) &&
        (play sampleLibs (lit "op_1") [lateMove] w).any fun w' => losesOutcome w'.history) = true := by
    decide +kernel
  rcases scenario_reachable hcheck with ⟨w, hw, hcheck⟩
  rw [Bool.and_eq_true, Bool.and_eq_true, Bool.not_eq_true'] at hcheck
  rcases (Option.any_eq_true _ _).mp hcheck.2 with ⟨w', hplay, hlost⟩
  exact ⟨w, w', ⟨hw, play_reachable hw hplay⟩, hcheck.1, hlost⟩

theorem outcome_kept_sample : ∃ w : Point,
    w.history.any (fun e => (savedOutcome e).any observed) = true ∧ OutcomeKept w := by
  rcases early_reached with ⟨w, w', ⟨hw, _⟩, ⟨hno, hany⟩, _⟩
  exact ⟨w, hany, outcome_kept hw (fresh_of_unwritten hno)⟩

theorem outcome_lost : ∃ w, (system sampleLibs (lit "op_1")).Reachable Folder.fresh w ∧
    ¬ OutcomeKept w := by
  rcases early_reached with ⟨w, w', ⟨_, hw'⟩, _, hlost⟩
  exact ⟨w', hw', fun hkept => not_kept_of_loses hlost hkept.saved⟩

end Allowly

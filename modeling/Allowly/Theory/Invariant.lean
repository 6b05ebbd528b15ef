import Allowly.Base.Token
import Allowly.Theory.Hold

/-!
# The Invariant of an Operation

What holds of the folder, the history and the running calls at every point of a run.
`Sane` is about the folder, and every call's assertion holds. Besides that, two things
are had by one program at a time: the right to ask for the execution, which goes with
the empty folder, and the right to send, which comes with the first outcome in the
journal and goes from the call to its thread.

## Main definitions

* `Stage.sender`, `Stage.claimer`: Who may still send, and who may claim.
* `Unique`: At most one program.
* `Invariant`: The invariant.

## Theorems

* `valid_step`, `sane_step`: What a step does to the assertion of the program that
  takes it, and to the folder.
* `preserves_invariant`: Every move of a run keeps the invariant.
* `invariant_reachable`: It holds in every world a run can reach.
-/

namespace Allowly

open Py Interleave

variable {L : Libs} {operationId : Str} {s s' : Folder} {v w : Json} {n a b : Nat}

/-! ### The program that takes a step -/

theorem Saves.facts {data : Bytes} {q q' : Stage} (h : Saves L q w q') (hw : Writes data w)
    (hv : q.hold.Valid operationId s n a) (hf : q.Facts L operationId) :
    q'.hold.Valid operationId (s.write .journal (some data)) n a ∧ q'.Facts L operationId := by
  cases h with
  | prepare j digest timestamp hd ht =>
      rcases hf with ⟨hb, hid, hi⟩
      have hj := journal_prepared operationId digest timestamp
      rw [hid] at hw ⊢
      refine ⟨⟨onDisk_write hw hj, ?_, hv.2.2⟩, ⟨hb, hid, ⟨digest, hd, ?_⟩, ?_⟩, hi⟩
      · simp [Open, preparedState, Json.ofList, Json.get, Json.lookup, Json.isObj]
      · simp [preparedState, Json.ofList, Json.get, Json.lookup]
      · intro i hji
        rw [hi] at hji
        cases hji
  | rewrite j v w =>
      rcases hv with ⟨hlock, hdisk, hopen, hn⟩
      rcases hf with ⟨hres, hfor⟩
      rcases hres.intent with ⟨i, hi, _⟩
      have hhold : (Stage.holding j w).hold = .journal w := by rw [Stage.hold, holdOf, hi]
      rw [hhold]
      refine ⟨⟨hlock, onDisk_write hw hres.journal, ?_, hn⟩, hfor⟩
      rw [Open, hres.other "outcome" (by decide) (by decide)]
      exact hopen
  | record j v resp r ha =>
      rcases hv with ⟨hlock, hdisk, hopen, hn⟩
      have hwf := ha.wellFormed
      refine ⟨⟨hlock, onDisk_write hw (journal_answered hdisk.journal hwf.1), ?_, hn⟩, ?_, ?_, hwf.2⟩
      · rw [Open, answered_other (by decide) (by decide)]
        exact hopen
      · rcases hf.digest with ⟨d, hd, hvd⟩
        refine ⟨hf.built, hf.id, ⟨d, hd, ?_⟩, ?_⟩
        · rw [answered_other (by decide) (by decide)]
          exact hvd
        · intro i hi
          rw [savedIntent_congr (answered_other (by decide) (by decide))]
          exact hf.intent i hi
      · rw [answered_authorization hdisk.journal.isObj, journalAuthorization_approval]
  | attempt e v started =>
      rcases leads_cases (Leads.bound e v started) hv hf with ⟨d, hd, hr, hb, hid, _⟩
      refine ⟨⟨posted_write hw hr hb, d, hr, hb.write_other (by decide) _⟩, hid, ?_⟩
      rw [hr.authorization, hd]
      rfl
  | settle q e v w hl hs =>
      rcases leads_cases hl hv hf with ⟨d, hd, hr, hb, hid, _⟩
      rcases hs with ⟨artifacts, completed, hsound, rfl⟩
      rw [hid] at hw ⊢
      have hsettled := reported_settled (L.isoformat completed) hr hd hsound
      exact ⟨⟨posted_write hw hsettled hb, d, hsettled, hb.write_other (by decide) _⟩, trivial⟩
  | complete b v resp final hp => exact ⟨trivial, trivial⟩

/-- A request to execute is a request. -/
theorem executes_http {o : Op} {r : Except Fault o.Answer} {root : Nat}
    (hx : executes (.did a root o r) = true) : ∃ req, o = .http req ∧ req.route = .execute := by
  cases o with
  | http req => exact ⟨req, rfl, by simpa [executes] using hx⟩
  | _ => cases hx

/-- The first request to execute is made by the call that made the folder. -/
theorem edge_executes {q q' : Stage} {o : Op} {r : Except Fault o.Answer} {root : Nat}
    (he : Edge L q o r q') (hx : executes (.did a root o r) = true) :
    ∃ j v req, o = .http req ∧ q = .holding j v ∧ j.intent = none ∧ j.Sends req ∧
      ((∃ resp, q' = .heard j v resp) ∨ q' = .ended) := by
  rcases executes_http hx with ⟨req, rfl, hroute⟩
  rcases edge_http he with ⟨j, v, rfl, hs, hq'⟩ | ⟨e, v, _, hr⟩ | ⟨e, v, _, hc, _⟩ | ⟨b, v, _, hr⟩
  · refine ⟨j, v, req, rfl, rfl, ?_, hs, hq'⟩
    have hr := hs.1
    rw [hroute, Job.route] at hr
    split at hr
    · next hi => exact hi
    · cases hr
  · rw [hroute] at hr
    cases hr
  · have hr := hc.1
    rw [hroute] at hr
    cases hr
  · rcases hr with ⟨_, _, _, _, _, hr, _⟩
    rw [hroute] at hr
    cases hr

/-- A step by which the execution was asked for, or not. -/
def tick (a root : Nat) (o : Op) (r : Except Fault o.Answer) (n : Nat) : Nat :=
  if executes (.did a root o r) then n + 1 else n

theorem countP_did (a root : Nat) (o : Op) (r : Except Fault o.Answer) (h : List Happening) :
    (Event.did a root o r :: h).countP executes = tick a root o r (h.countP executes) := by
  rw [List.countP_cons, tick]
  by_cases hx : executes (.did a root o r) = true
  · rw [if_pos hx, if_pos hx]
  · rw [if_neg hx, if_neg hx]
    rfl

theorem le_tick (a root : Nat) (o : Op) (r : Except Fault o.Answer) (n : Nat) :
    n ≤ tick a root o r n := by
  unfold tick
  split
  · exact Nat.le_succ n
  · exact Nat.le_refl n

/-- A request changes nothing in the folder. -/
theorem perform_http {req : ApiRequest} {r : Except Fault ApiResponse}
    (hp : perform a b (.http req) r s = some s') : s' = s := by
  cases r with
  | ok _ =>
      simp only [perform, Option.some.injEq] at hp
      exact hp.symm
  | error x =>
      simp only [perform, Option.some.injEq] at hp
      exact hp.symm

/-- So does the start of the thread. -/
theorem perform_startSend {args : SendArgs} {r : Except Fault Nat}
    (hp : perform a b (.startSend args) r s = some s') : s' = s := by
  cases r with
  | ok thread =>
      simp only [perform] at hp
      split at hp
      · cases hp
        rfl
      · cases hp
  | error x =>
      simp only [perform, Option.some.injEq] at hp
      exact hp.symm

/-- A file that was replaced. -/
theorem perform_replace {file : File} {data : Bytes}
    (hp : perform a b (.replace file data) (.ok ()) s = some s') :
    s' = s.write file (some data) := by
  simp only [perform, Option.some.injEq] at hp
  exact hp.symm

theorem hasOutcome_isObj (h : hasOutcome v = .ok true) : (v.get "outcome").isObj = true := by
  unfold hasOutcome at h
  rcases bind_eq_ok.mp h with ⟨version, _, hk⟩
  rcases bind_eq_ok.mp hk with ⟨known, _, hk⟩
  have hk : (known && (v.get "outcome").isObj) = true := Except.ok.inj hk
  rw [Bool.and_eq_true] at hk
  exact hk.2

/-- An outcome that was read is on disk. -/
theorem Sane.reads_outcome {data : Bytes} (hs : Sane operationId s n)
    (hfile : s.files .journal = some data) (hr : Reads data v) (ho : hasOutcome v = .ok true) :
    Posted operationId s ∧ ∃ digest, Reported operationId digest v ∧ Binding s digest := by
  rcases hs.disk (by rw [hfile]; exact nofun) with ⟨u, hu, hopen, _⟩ | ⟨hposted, _⟩
  · -- An open journal is not read as one with an outcome.
    have hv := hu.reads hfile hr
    rw [← hv, Open] at hopen
    rw [hasOutcome_isObj ho] at hopen
    cases hopen
  · rcases hposted with ⟨u, d, hu, hrep, hb⟩
    have hv := hu.reads hfile hr
    rw [hv]
    exact ⟨⟨u, d, hu, hrep, hb⟩, d, hrep, hb⟩

/-- A journal that was read can be continued only if the execution was asked for. -/
theorem Sane.resumes {data : Bytes} {j : Job} (hs : Sane operationId s n)
    (hid : j.args.operationId = operationId) (hfile : s.files .journal = some data)
    (hr : Reads data v) (hv : Resumes L j v w) :
    OnDisk operationId s v ∧ Open v ∧ n ≠ 0 ∧ Resumed L operationId j v w := by
  rcases hs.disk (by rw [hfile]; exact nofun) with ⟨u, hu, hopen, hwait⟩ | ⟨hposted, _⟩
  · have huv := hu.reads hfile hr
    rw [← huv] at hu hopen hwait
    have hres := resumed_of_resumes hu.journal hid hv
    exact ⟨hu, hopen, fun hn => hwait hn hres.waiting, hres⟩
  · rcases hposted with ⟨u, d, hu, hrep, _⟩
    have huv := hu.reads hfile hr
    rw [← huv] at hrep
    rcases hv with ⟨timestamp, _, _, _, ht, _⟩
    rw [hid, continuedTimestamp_attempted hrep.journal hrep.phase] at ht
    cases ht

/-- The first request to execute leaves an open journal on disk, and the lock taken. -/
theorem valid_executes {q q' : Stage} {o : Op} {r : Except Fault o.Answer} {root : Nat}
    (he : Edge L q o r q') (hx : executes (.did a root o r) = true)
    (hp : perform a b o r s = some s') (hv : q.hold.Valid operationId s n a)
    (hf : q.Facts L operationId) :
    q'.hold.Valid operationId s' (n + 1) a ∧ q'.Facts L operationId := by
  rcases edge_executes he hx with ⟨j, v, req, rfl, rfl, hi, _, hcase⟩
  have hs := perform_http hp
  rw [Stage.hold, holdOf, hi] at hv
  rcases hv with ⟨hlock, hdisk, hopen, _⟩
  rcases hcase with ⟨resp, rfl⟩ | rfl
  · rw [hs]
    exact ⟨⟨hlock, hdisk, hopen, Nat.succ_ne_zero n⟩, hf⟩
  · exact ⟨trivial, trivial⟩

/-- A request that is not the first is one to continue. -/
theorem holding_valid {j : Job} {req : ApiRequest} (hs : j.Sends req) (hr : req.route ≠ .execute)
    (hv : (Stage.holding j v).hold.Valid operationId s n a) :
    (Hold.journal v).Valid operationId s n a := by
  rcases hs with ⟨hroute, _⟩
  cases hi : j.intent with
  | none =>
      rw [Job.route, hi] at hroute
      exact absurd hroute hr
  | some i =>
      rw [Stage.hold, holdOf, hi] at hv
      exact hv

/-- What the other steps do to the assertion of the program that takes them. -/
theorem valid_other {q q' : Stage} {o : Op} {r : Except Fault o.Answer} {root : Nat}
    (he : Edge L q o r q') (hx : ¬ executes (.did a root o r) = true)
    (hp : perform a b o r s = some s') (hs : Sane operationId s n)
    (hv : q.hold.Valid operationId s n a) (hf : q.Facts L operationId) :
    q'.hold.Valid operationId s' n a ∧ q'.Facts L operationId := by
  have hroute : ∀ {req : ApiRequest} {r : Except Fault ApiResponse},
      ¬ executes (.did a root (.http req) r) = true → req.route ≠ .execute := by
    intro req r hx hr
    exact hx (by simpa [executes] using hr)
  cases he with
  | quiet q o r h => exact ⟨hv.of_same (quiet_same h hp), hf⟩
  | failed q o x h =>
      rw [failing_same h hp]
      exact ⟨hv, hf⟩
  | trip q o x hi h => exact ⟨trivial, trivial⟩
  | tripEntered c b x => exact ⟨trivial, trivial⟩
  | make c j hb hi =>
      simp only [perform] at hp
      split at hp
      · next habsent =>
          cases hp
          have hnode := hs.node (by rw [habsent]; decide)
          rw [Stage.Facts, admits, decide_eq_true_eq] at hf
          exact ⟨⟨rfl, hnode.2, hs.empty hnode.2⟩, hb, hf, hi⟩
      · cases hp
  | prepare j data digest timestamp hd ht hw =>
      rw [perform_replace hp]
      exact (Saves.prepare j digest timestamp hd ht).facts hw hv hf
  | lockPrepared j v =>
      simp only [perform] at hp
      split at hp
      · cases hp
        rcases hf with ⟨hfor, hi⟩
        rw [Stage.hold, holdOf, hi]
        exact ⟨⟨rfl, ⟨hv.1.file, hv.1.journal⟩, hv.2⟩, hfor⟩
      · cases hp
  | lockContinued c args =>
      simp only [perform] at hp
      split at hp
      · cases hp
        rw [Stage.Facts, admits, decide_eq_true_eq] at hf
        exact ⟨rfl, hf⟩
      · cases hp
  | resume c j data v w hb hr hres =>
      rcases reads_file hp hr with ⟨rfl, hfile⟩
      rcases hs.resumes hf hfile hr hres with ⟨hdisk, hopen, hn, hresumed⟩
      refine ⟨⟨hv, hdisk, hopen, hn⟩, hresumed, hb, hf, hresumed.digest, ?_⟩
      intro i hi
      rcases hresumed.intent with ⟨i', hi', hsaved⟩
      rw [hi', Option.some.injEq] at hi
      rw [← hi]
      exact hsaved
  | glance c args data => exact ⟨trivial, trivial⟩
  | rewrite j v w data hw =>
      rw [perform_replace hp]
      exact (Saves.rewrite j v w).facts hw hv hf
  | request j v req resp hsend =>
      rw [perform_http hp]
      exact ⟨holding_valid hsend (hroute hx) hv, hf⟩
  | unanswered j v req x hsend => exact ⟨trivial, trivial⟩
  | record j v resp r data ha hw =>
      rw [perform_replace hp]
      exact (Saves.record j v resp r ha).facts hw hv hf
  | time j v r now =>
      simp only [perform, Option.some.injEq] at hp
      rw [← hp]
      exact ⟨hv, hf⟩
  | bind e v data hvalid hw =>
      rw [perform_replace hp]
      rcases hv with ⟨hlock, hdisk, hopen, hn⟩
      rcases hf with ⟨hfor, hname, hwf⟩
      refine ⟨⟨hlock, hdisk.write_other (by decide) _, hopen, hn, data, files_write s _ _, hw⟩,
        ⟨hfor.id, hname⟩, hvalid, ?_⟩
      rw [hvalid.approves.own]
      exact hwf
  | admission e v req r hr =>
      rw [perform_http hp]
      exact ⟨hv, hf⟩
  | tell e v admission data r hm hw =>
      have hsame : s' = s := by
        cases r with
        | ok _ =>
            simp only [perform, Option.some.injEq] at hp
            exact hp.symm
        | error x =>
            simp only [perform, Option.some.injEq] at hp
            exact hp.symm
      rw [hsame]
      exact ⟨hv, hf⟩
  | attempt e v started data hw =>
      rw [perform_replace hp]
      exact (Saves.attempt e v started).facts hw hv hf
  | ask e v req resp hc =>
      rw [perform_http hp]
      exact ⟨hv, hf⟩
  | refused e v req x hc =>
      rw [perform_http hp]
      exact ⟨hv, hf⟩
  | launch e v resp r hg hm =>
      rw [perform_startSend hp]
      exact ⟨hv, hf⟩
  | release e v resp data hg hm hw =>
      rw [perform_replace hp]
      exact ⟨hv.of_same (same_write (by decide) (by decide)), hf⟩
  | settle q e v w data hl hset hw =>
      rw [perform_replace hp]
      exact (Saves.settle q e v w hl hset).facts hw hv hf
  | readFlush c t data v hr ho =>
      rcases reads_file hp hr with ⟨rfl, hfile⟩
      exact ⟨hs.reads_outcome hfile hr ho, trivial⟩
  | reject c t data => exact ⟨trivial, trivial⟩
  | readSettled u data v hr ho =>
      rcases reads_file hp hr with ⟨rfl, hfile⟩
      exact ⟨hs.reads_outcome hfile hr ho, trivial⟩
  | report b v req resp hr =>
      rw [perform_http hp]
      exact ⟨hv, trivial⟩
  | unreported b v req x hr => exact ⟨trivial, trivial⟩
  | complete b v resp final data hp' hw => exact ⟨trivial, trivial⟩
  | unlock q r hi => exact ⟨trivial, trivial⟩
  | unlockIdle q hi =>
      cases hi with
      | start c => exact ⟨trivial, hf⟩
      | tripped => exact ⟨trivial, trivial⟩
      | glanced args data => exact ⟨trivial, trivial⟩
  | transmit p req r h => exact ⟨trivial, trivial⟩

/-- What a step does to the assertion of the program that takes it. -/
theorem valid_step (root : Nat) {q q' : Stage} {o : Op} {r : Except Fault o.Answer}
    (he : Edge L q o r q') (hp : perform a b o r s = some s') (hs : Sane operationId s n)
    (hv : q.hold.Valid operationId s n a) (hf : q.Facts L operationId) :
    q'.hold.Valid operationId s' (tick a root o r n) a ∧ q'.Facts L operationId := by
  unfold tick
  split
  · next hx => exact valid_executes he hx hp hv hf
  · next hx => exact valid_other he hx hp hs hv hf

/-! ### The folder -/

theorem Posted.some (h : Posted operationId s) : s.files .journal ≠ none := by
  rcases h with ⟨v, d, hv, _⟩
  exact hv.some

/-- An outcome is on disk only after the execution was asked for. -/
theorem Sane.posted (hs : Sane operationId s n) (hp : Posted operationId s) : n ≠ 0 := by
  rcases hs.disk hp.some with ⟨v, hv, ho, _⟩ | ⟨_, hn⟩
  · exact absurd hp (hv.not_posted ho)
  · exact hn

theorem Sane.dir (hs : Sane operationId s n) (hj : s.files .journal ≠ none) : s.node = .dir := by
  by_contra h
  exact hj (hs.node h).2

theorem Sane.congr (hs : Sane operationId s n) (hnode : s'.node = s.node ∨ s'.node = .dir)
    (hj : s'.files .journal = s.files .journal) (ha : s'.files .approval = s.files .approval) :
    Sane operationId s' n := by
  refine ⟨?_, ?_, ?_, hs.once⟩
  · intro h
    rcases hnode with hnode | hnode
    · rw [hnode] at h ⊢
      rw [hj]
      exact hs.node h
    · exact absurd hnode h
  · intro h
    rw [hj] at h
    exact hs.empty h
  · intro h
    rw [hj] at h
    have hdisk : ∀ {v}, OnDisk operationId s v → OnDisk operationId s' v := by
      intro v hv
      refine ⟨?_, hv.journal⟩
      rw [hj]
      exact hv.file
    rcases hs.disk h with ⟨v, hv, hrest⟩ | ⟨⟨v, d, hv, hr, hb⟩, hn⟩
    · exact Or.inl ⟨v, hdisk hv, hrest⟩
    · refine Or.inr ⟨⟨v, d, hdisk hv, hr, ?_⟩, hn⟩
      unfold Binding
      rw [ha]
      exact hb

/-- A folder after a journal was saved. -/
theorem sane_saved {data : Bytes} {q q' : Stage} (h : Saves L q w q') (hw : Writes data w)
    (hs : Sane operationId s n) (hv : q.hold.Valid operationId s n a)
    (hf : q.Facts L operationId) : Sane operationId (s.write .journal (some data)) n := by
  have hfacts := h.facts hw hv hf
  have hsome : (s.write .journal (some data)).files .journal ≠ none := by
    rw [files_write]
    exact nofun
  have hdir : s.node = .dir := by
    rcases saves_mayWrite h hv hf with hm | hm | hm
    · -- Only a call that made the folder writes the first journal.
      cases h with
      | prepare j digest timestamp hd ht => exact hv.1
      | settle q e v w hl hset =>
          cases hl with
          | bound _ u started => exact absurd hm.1 hv.2.1.some
          | attempted => exact absurd hm.1 hv.1.some
          | asked => exact absurd hm.1 hv.1.some
          | spent => exact absurd hm.1 hv.1.some
      | _ => cases hm.2
    · rcases hm.2.2 with ⟨v, hv, _⟩
      exact hs.dir hv.some
    · exact hs.dir hm.1.some
  have hnew : ∀ {v}, Open v → n ≠ 0 → OnDisk operationId (s.write .journal (some data)) v →
      (∃ v, OnDisk operationId (s.write .journal (some data)) v ∧ Open v ∧
        (n = 0 → ¬ Waiting v)) := by
    intro v ho hn hv
    exact ⟨v, hv, ho, fun h => absurd h hn⟩
  have hposted : (∃ d, Reported operationId d w ∧ Binding (s.write .journal (some data)) d) →
      n ≠ 0 → Posted operationId (s.write .journal (some data)) ∧ n ≠ 0 := by
    intro ⟨d, hr, hb⟩ hn
    exact ⟨⟨w, d, onDisk_write hw hr.journal, hr, hb⟩, hn⟩
  refine ⟨fun h => absurd hdir h, fun h => absurd h hsome, fun _ => ?_, hs.once⟩
  cases h with
  | prepare j digest timestamp hd ht =>
      refine Or.inl ⟨_, hfacts.1.1, hfacts.1.2.1, fun _ => ?_⟩
      intro hwait
      have hphase : (preparedState j.args.operationId digest timestamp).get "phase" =
          .str (lit "prepared") := by
        simp [preparedState, Json.ofList, Json.get, Json.lookup]
      rcases hwait with hwait | hwait
      · rw [hphase, Json.str.injEq, lit_inj] at hwait
        exact absurd hwait (by decide)
      · rw [hphase, Json.str.injEq, lit_inj] at hwait
        exact absurd hwait (by decide)
  | rewrite j v w =>
      have hn := hv.2.2.2
      rcases hf.1.intent with ⟨i, hi, _⟩
      have hvalid := hfacts.1
      rw [Stage.hold, holdOf, hi] at hvalid
      exact Or.inl (hnew hvalid.2.2.1 hn hvalid.2.1)
  | record j v resp r ha => exact Or.inl (hnew hfacts.1.2.2.1 hv.2.2.2 hfacts.1.2.1)
  | attempt e v started => exact Or.inr (hposted hfacts.1.2 hv.2.2.2.1)
  | settle q e v w hl hset =>
      refine Or.inr (hposted hfacts.1.2 ?_)
      rcases leads_cases hl hv hf with ⟨_, _, _, _, _, hcase⟩
      rcases hcase with hcase | hcase
      · exact hcase.2.1
      · exact hs.posted hcase
  | complete b v resp final hp =>
      rcases hp with ⟨sensitive, raw, hraw, hparse⟩
      rcases hv with ⟨hp, d, hr, hb⟩
      exact Or.inr (hposted ⟨d, reported_complete hr
        (wellFormed_toJson (wellFormed_readResponse hraw) hparse), hb.write_other (by decide) _⟩
        (hs.posted hp))

/-- What a step does to the folder. -/
theorem sane_step (root : Nat) {q q' : Stage} {o : Op} {r : Except Fault o.Answer}
    (he : Edge L q o r q') (hp : perform a b o r s = some s') (hs : Sane operationId s n)
    (hv : q.hold.Valid operationId s n a) (hf : q.Facts L operationId) :
    Sane operationId s' (tick a root o r n) := by
  unfold tick
  split
  · next hx =>
      rcases edge_executes he hx with ⟨j, v, req, rfl, rfl, hi, _⟩
      have hsame := perform_http hp
      rw [Stage.hold, holdOf, hi] at hv
      rcases hv with ⟨_, hdisk, hopen, hn⟩
      rw [hsame, hn]
      refine ⟨hs.node, fun h => absurd h hdisk.some, fun _ => ?_, Nat.le_refl 1⟩
      exact Or.inl ⟨v, hdisk, hopen, nofun⟩
  · cases edge_effect he hp with
    | same s' q q' h => exact hs.congr (Or.inl h.node) h.journal h.approval
    | made c j h => exact hs.congr (Or.inr rfl) rfl rfl
    | locked q q' h => exact hs.congr (Or.inl rfl) rfl rfl
    | unlocked q q' => exact hs.congr (Or.inl rfl) rfl rfl
    | bound e v data hw =>
        rcases hv with ⟨_, hdisk, hopen, hn⟩
        refine ⟨hs.node, ?_, fun _ => ?_, hs.once⟩
        · intro h
          rw [files_write_other (by decide)] at h
          exact absurd h hdisk.some
        · exact Or.inl ⟨v, hdisk.write_other (by decide) _, hopen, fun h => absurd h hn⟩
    | saved q w q' data h hw => exact sane_saved h hw hs hv hf

/-! ### The invariant -/

/-- What holds at every point of a run. -/
structure Invariant (L : Libs) (operationId : Str) (s : Folder) (roles : Roles Stage)
    (h : List Happening) : Prop where
  sane : Sane operationId s (h.countP executes)
  valid : ∀ a root q, roles a = some (root, q) →
    q.hold.Valid operationId s (h.countP executes) a ∧ q.Facts L operationId
  first : ∀ a b ra rb qa qb, roles a = some (ra, qa) → roles b = some (rb, qb) →
    qa.hold.isFirst = true → qb.hold.isFirst = true → a = b

theorem invariant_initial (L : Libs) (operationId : Str) :
    Invariant L operationId Folder.fresh (fun _ => none) [] where
  sane := ⟨fun _ => ⟨rfl, rfl⟩, fun _ => rfl, fun h => absurd rfl h, Nat.zero_le 1⟩
  valid a root q ha := by cases ha
  first a b ra rb qa qb ha := by cases ha

/-- A first request is only asked for by one that has a folder. -/
theorem Hold.Valid.dir {k : Hold} (hs : Sane operationId s n) (hk : k.Valid operationId s n b)
    (hf : k.isFirst = true) : s.node = .dir := by
  cases k with
  | folder => exact hk.1
  | prepared v => exact hs.dir hk.1.some
  | first v => exact hs.dir hk.2.1.some
  | _ => cases hf

/-- The right to the first request comes with the folder. -/
theorem edge_first {q q' : Stage} {o : Op} {r : Except Fault o.Answer} (he : Edge L q o r q')
    (hp : perform a b o r s = some s') (hfacts : q.Facts L operationId)
    (hf : q'.hold.isFirst = true) :
    q.hold.isFirst = true ∨ s.node = .absent := by
  cases he with
  | quiet q o r h => exact Or.inl hf
  | failed q o x h => exact Or.inl hf
  | make c j hb hi =>
      simp only [perform] at hp
      split at hp
      · next h => exact Or.inr h
      · cases hp
  | prepare j data digest timestamp hd ht hw => exact Or.inl rfl
  | lockPrepared j v => exact Or.inl rfl
  | rewrite j v w data hw =>
      rcases hfacts.1.intent with ⟨i, hi, _⟩
      rw [Stage.hold, holdOf, hi] at hf
      cases hf
  | unlockIdle q hi => exact Or.inl hf
  | _ => cases hf

/-- A program that is not there has no right. -/
theorem Invariant.sub {roles' : Roles Stage} {roles : Roles Stage} {h h' : List Happening}
    (hi : Invariant L operationId s roles h) (hs : Sane operationId s' (h.countP executes))
    (hroles : ∀ b y, roles' b = some y → roles b = some y)
    (hvalid : ∀ b root q, roles' b = some (root, q) →
      q.hold.Valid operationId s (h.countP executes) b →
      q.hold.Valid operationId s' (h.countP executes) b)
    (hcount : h'.countP executes = h.countP executes) : Invariant L operationId s' roles' h' where
  sane := by rw [hcount]; exact hs
  valid b root q hb := by
    have hv := hi.valid b root q (hroles b _ hb)
    rw [hcount]
    exact ⟨hvalid b root q hb hv.1, hv.2⟩
  first b c rb rc qb qc hb hc := hi.first b c rb rc qb qc (hroles b _ hb) (hroles c _ hc)

/-- A program that was started relies on what holds already. -/
theorem Invariant.launch {roles : Roles Stage} {h h' : List Happening} {m root : Nat} {q : Stage}
    (hi : Invariant L operationId s roles h) (hcount : h'.countP executes = h.countP executes)
    (hq : q.hold.isFirst = false)
    (hv : q.hold.Valid operationId s (h.countP executes) m ∧ q.Facts L operationId) :
    Invariant L operationId s (Function.update roles m (some (root, q))) h' where
  sane := by rw [hcount]; exact hi.sane
  valid b rb qb hb := by
    rw [hcount]
    rcases update_some hb with ⟨hbm, hx⟩ | ⟨_, hx⟩
    · cases hx
      rw [hbm]
      exact hv
    · exact hi.valid b rb qb hx
  first b c rb rc qb qc hb hc hfb hfc := by
    rcases update_some hb with ⟨_, hx⟩ | ⟨_, hxb⟩
    · cases hx
      rw [hq] at hfb
      cases hfb
    · rcases update_some hc with ⟨_, hx⟩ | ⟨_, hxc⟩
      · cases hx
        rw [hq] at hfc
        cases hfc
      · exact hi.first b c rb rc qb qc hxb hxc hfb hfc

/-- A program has performed an operation. -/
theorem Invariant.act {roles : Roles Stage} {h : List Happening} {root : Nat} {q q' : Stage} {o : Op}
    {r : Except Fault o.Answer} (hi : Invariant L operationId s roles h)
    (ha : roles a = some (root, q)) (he : Edge L q o r q') (hp : perform a b o r s = some s') :
    Invariant L operationId s' (Function.update roles a (some (root, q')))
      (.did a root o r :: h) := by
  rcases hi.valid a root q ha with ⟨hv, hf⟩
  have hsane := sane_step root he hp hi.sane hv hf
  have hself := valid_step root he hp hi.sane hv hf
  have heffect := edge_effect he hp
  have hothers : ∀ c rc qc, c ≠ a → roles c = some (rc, qc) → q.hold.isFirst = true →
      qc.hold.isFirst = false := by
    intro c rc qc hca hc hfirst
    by_contra hfc
    exact hca (hi.first c a rc root qc q hc ha ((Bool.not_eq_false _).mp hfc) hfirst)
  refine ⟨?_, ?_, ?_⟩
  · rw [countP_did]
    exact hsane
  · intro c rc qc hc
    rw [countP_did]
    rcases update_some hc with ⟨hca, hx⟩ | ⟨hca, hx⟩
    · cases hx
      rw [hca]
      exact hself
    · rcases hi.valid c rc qc hx with ⟨hvc, hfc⟩
      have hstable := Hold.Valid.stable hca.symm heffect hv hf (hothers c rc qc hca hx) hvc
      refine ⟨?_, hfc⟩
      unfold tick
      split
      · next hx' =>
          -- Nobody else waits for the first request.
          rcases edge_executes he hx' with ⟨j, v, _, _, rfl, hnone, _⟩
          have hfirst : (Stage.holding j v).hold.isFirst = true := by
            rw [Stage.hold, holdOf, hnone]
            rfl
          exact hstable.of_count (hothers c rc qc hca hx hfirst) (Nat.le_succ _)
      · exact hstable
  · have hgained : ∀ c rc qc, c ≠ a → roles c = some (rc, qc) → qc.hold.isFirst = true →
        q'.hold.isFirst = true → False := by
      intro c rc qc hca hc hfc hfq
      rcases edge_first he hp hf hfq with hfirst | habsent
      · rw [hothers c rc qc hca hc hfirst] at hfc
        cases hfc
      · have hdir := (hi.valid c rc qc hc).1.dir hi.sane hfc
        rw [hdir] at habsent
        cases habsent
    intro c d rc rd qc qd hc hd hfc hfd
    rcases update_some hc with ⟨hca, hxc⟩ | ⟨hca, hxc⟩
    · cases hxc
      rcases update_some hd with ⟨hda, _⟩ | ⟨hda, hxd⟩
      · rw [hca, hda]
      · exact (hgained d rd qd hda hxd hfd hfc).elim
    · rcases update_some hd with ⟨hda, hxd⟩ | ⟨hda, hxd⟩
      · cases hxd
        exact (hgained c rc qc hca hxc hfc hfd).elim
      · exact hi.first c d rc rd qc qd hxc hxd hfc hfd

/-- An operation only starts the thread of the provider request, after a claim. -/
theorem edge_spawns {q q' : Stage} {o : Op} {r : Except Fault o.Answer} {c : Command}
    (he : Edge L q o r q') (hs : spawns o r = some c) :
    ∃ e v resp thread, q = .asked e v resp ∧ q' = .spent e v ∧ o = .startSend e.sendArgs ∧
      HEq r (Except.ok (ε := Fault) (α := Nat) thread) ∧ c = .send e.sendArgs ∧
      e.Granted L resp ∧ ¬ e.Witnessed := by
  cases he with
  | launch e v resp r hg hm =>
      cases r with
      | ok thread =>
          cases hs
          exact ⟨e, v, resp, thread, rfl, rfl, rfl, HEq.rfl, rfl, hg, hm⟩
      | error x => cases hs
  | quiet q o r h =>
      cases o with
      | startSend s => cases h
      | _ => cases hs
  | failed q o x h =>
      cases o with
      | startSend s => cases h
      | _ => cases hs
  | trip q o x hi h =>
      cases o with
      | startSend s => cases hs
      | _ => cases hs
  | _ => cases hs

theorem preserves_invariant (L : Libs) (operationId : Str) :
    Preserves (system L operationId) (Edge L) (Ends L) firstStage (fun _ _ _ => True)
      (Invariant L operationId) where
  start s roles n h c _ hi hn hc := by
    cases c with
    | send p => cases hc
    | execute c args => exact hi.launch rfl rfl ⟨trivial, hc⟩
    | continuation c args => exact hi.launch rfl rfl ⟨trivial, hc⟩
    | flush c t => exact hi.launch rfl rfl ⟨trivial, hc⟩
  act s roles n h a root q o r s' q' _ hi ha hn he hp hs := hi.act ha he hp
  spawn s roles n h a root q o r s' q' c _ hi ha hn he hp hs := by
    rcases edge_spawns he hs with ⟨e, v, resp, thread, rfl, rfl, rfl, _, rfl, _, _⟩
    refine (hi.act ha he hp).launch rfl rfl ⟨?_, trivial⟩
    -- The thread starts from a claim, whose journal has an outcome.
    rcases hi.valid a root _ ha with ⟨hv, _⟩
    rw [perform_startSend hp]
    exact hv.1
  finish s roles h a root q r _ hi ha hp := by
    have hsame : Same s ((system L operationId).finish a r s) := ⟨rfl, rfl, rfl, rfl⟩
    refine hi.sub (hi.sane.congr (Or.inl rfl) rfl rfl) ?_ (fun _ _ _ _ hv => hv.of_same hsame) rfl
    intro b y hb
    rcases update_some hb with ⟨_, hx⟩ | ⟨_, hx⟩
    · cases hx
    · exact hx
  crash s roles h a root q _ hi ha := by
    refine hi.sub (hi.sane.congr (Or.inl rfl) rfl rfl) ?_ ?_ rfl
    · intro b y hb
      rcases update_some hb with ⟨_, hx⟩ | ⟨_, hx⟩
      · cases hx
      · exact hx
    · intro b rb qb hb hv
      rcases update_some hb with ⟨_, hx⟩ | ⟨hba, _⟩
      · cases hx
      · exact hv.unlock hba.symm
  disturb s roles h d s' _ hi hd := by
    simp only [system] at hd
    split at hd
    · next hfile =>
        cases hd
        have hj : d.file ≠ .journal := by
          intro h
          rw [h] at hfile
          exact absurd hfile (by decide)
        have ha : d.file ≠ .approval := by
          intro h
          rw [h] at hfile
          exact absurd hfile (by decide)
        have hsame : Same s (s.write d.file d.content) := same_write hj ha
        exact hi.sub (hi.sane.congr (Or.inl rfl) hsame.journal hsame.approval) (fun _ _ hb => hb)
          (fun _ _ _ _ hv => hv.of_same hsame) rfl
    · cases hd

end Allowly

import Allowly.Theory.Once

/-!
# Recovery

Once a claim may have been sent, the folder says everything that is needed to report it.
The journal, the approval and the outcome name one digest, and they do so at every point
of a run, whatever fails and wherever it stops.

A call that begins afterwards finds the folder like this. A report is made with the body
and the key that are in the journal. It claims nothing and sends nothing, and it never
asks for recovery. The other two calls ask for it, unless an operation of theirs fails.

## Main definitions

* `Agreement`: The three files agree.
* `Remaining`: The stages of a call that begins after a claim.
* `Late`: What such a call does.
* `Recoverable`: All of this.

## Theorems

* `posted_agreement`: An outcome on disk is an agreement.
* `remaining_step`: A late call stays late.
* `claimed_recoverable`: It holds in every run.
-/

namespace Allowly

open Py Interleave

variable {L : Libs} {operationId : Str} {s s' : Folder} {root : Nat} {h : List Happening}

/-! ### The folder -/

/-- The journal holds an outcome for the operation, under its key, and names the approval
    that was saved. -/
def Agreement (operationId : Str) (s : Folder) : Prop :=
  ∃ v b digest, (s.files .journal).bind loadsBytes = some v ∧
    (s.files .approval).bind loadsBytes = some b ∧
    v.get "version" = .int 2 ∧ v.get "operation_id" = .str operationId ∧
    (v.get "outcome").isObj = true ∧
    (v.get "outcome").get "idempotency_key" = .str operationId ∧
    ((v.get "outcome").get "body").get "approval_sha256" = .str digest ∧
    b.get "approval_sha256" = .str digest ∧
    (v.get "authorization").get "approval_sha256" = .str digest

/-- An outcome on disk is an agreement. -/
theorem posted_agreement (hp : Posted operationId s) : Agreement operationId s := by
  rcases hp with ⟨v, digest, ⟨⟨data, hdata, hw⟩, hj⟩, hr, bdata, b, hbdata, hbw, hbo, hbwf, hb⟩
  refine ⟨v, b, digest, ?_, ?_, hj.version, hj.id, hr.outcome, hr.key, hr.body, hb,
    hr.authorization⟩
  · rw [hdata, Option.bind_some]
    exact loads_writes hw hj.isObj hj.wellFormed
  · rw [hbdata, Option.bind_some]
    exact loads_writes hbw hbo hbwf

/-! ### Calls that begin later -/

/-- An operation of the call failed. -/
def Broke (root : Nat) (h : List Happening) : Prop := ∃ o x, .did root root o (.error x) ∈ h

/-- The call read this journal. -/
def ReadJournal (root : Nat) (v : Json) (h : List Happening) : Prop :=
  ∃ data, .did root root (.read .journal readLimit) (.ok data) ∈ h ∧ Reads data v

/-- What a late call read, if it could not use it. -/
def ReadBytes (root : Nat) (data : Bytes) (h : List Happening) : Prop :=
  .did root root (.read .journal readLimit) (.ok data) ∈ h

/-- Is the call a report? -/
def Command.isFlush : Command → Bool
  | flush .. => true
  | _ => false

/-- The stages of a call that begins after a claim, and what happened on the way. -/
def Remaining (operationId : Str) (root : Nat) (h : List Happening) (c : Command) : Stage → Prop
  | .start c' => c' = c
  | .tripped => Broke root h
  | .entered _ a => c.args = some a
  | .glanced a data => c.args = some a ∧ ReadBytes root data h ∧ (data.length ≤ readLimit →
      ∃ v, Reads data v ∧ continuedTimestamp v operationId = .ok none)
  | .rejected data => c.isFlush = true ∧ ∀ v, Reads data v → hasOutcome v = .ok true
  | .reporting alone v => c.isFlush = true ∧ alone = true ∧ ReadJournal root v h ∧
      ∃ digest, Reported operationId digest v
  | .reported alone .. => c.isFlush = true ∧ alone = true
  | .flushed alone => c.isFlush = true ∧ alone = true
  | _ => False

/-- A call began when a claim had been sent. -/
def LateCall (root : Nat) (c : Command) (h : List Happening) : Prop :=
  ∃ past, .began root root c :: past <:+ h ∧ past.countP claims ≠ 0

/-- A call is early, or in one of the stages that remain. A thread is early. -/
def Timely (operationId : Str) (a root : Nat) (q : Stage) (h : List Happening) : Prop :=
  (∃ c past, .began root root c :: past <:+ h ∧ past.countP claims = 0) ∨
    (a = root ∧ ∃ c, LateCall root c h ∧ admits operationId c = true ∧
      Remaining operationId root h c q)

theorem Broke.mono {x : Happening} (hb : Broke root h) : Broke root (x :: h) := by
  rcases hb with ⟨o, y, hy⟩
  exact ⟨o, y, List.mem_cons_of_mem x hy⟩

theorem ReadJournal.mono {x : Happening} {v : Json} (hr : ReadJournal root v h) :
    ReadJournal root v (x :: h) := by
  rcases hr with ⟨data, hd, hv⟩
  exact ⟨data, List.mem_cons_of_mem x hd, hv⟩

theorem LateCall.mono {x : Happening} {c : Command} (hl : LateCall root c h) :
    LateCall root c (x :: h) := by
  rcases hl with ⟨past, hs, hc⟩
  exact ⟨past, hs.trans (List.suffix_cons x h), hc⟩

theorem Remaining.mono {x : Happening} {c : Command} {q : Stage}
    (hr : Remaining operationId root h c q) : Remaining operationId root (x :: h) c q := by
  cases q with
  | start c' => exact hr
  | tripped => exact Broke.mono hr
  | entered c' a => exact hr
  | glanced a data => exact ⟨hr.1, List.mem_cons_of_mem x hr.2.1, hr.2.2⟩
  | rejected data => exact hr
  | reporting alone v => exact ⟨hr.1, hr.2.1, hr.2.2.1.mono, hr.2.2.2⟩
  | reported alone v resp => exact hr
  | flushed alone => exact hr
  | _ => exact hr

theorem Timely.mono {x : Happening} {a : Nat} {q : Stage} (ht : Timely operationId a root q h) :
    Timely operationId a root q (x :: h) := by
  rcases ht with ⟨c, past, hs, hc⟩ | ⟨ha, c, hl, hadmits, hr⟩
  · exact Or.inl ⟨c, past, hs.trans (List.suffix_cons x h), hc⟩
  · exact Or.inr ⟨ha, c, hl.mono, hadmits, hr.mono⟩

/-- With an outcome on disk the folder stays where it is, and what is read is the outcome. -/
theorem posted_reads {data : Bytes} {v : Json} (hp : Posted operationId s)
    (hfile : s.files .journal = some data) (hr : Reads data v) :
    ∃ digest, Reported operationId digest v := by
  rcases hp with ⟨w, d, hw, hrep, _⟩
  rw [hw.reads hfile hr]
  exact ⟨d, hrep⟩

theorem posted_loads {data : Bytes} (hp : Posted operationId s)
    (hfile : s.files .journal = some data) : ∃ v, loadsBytes data = some v := by
  rcases hp with ⟨w, d, ⟨⟨data', hdata', hw⟩, hj⟩, _⟩
  rw [hfile, Option.some.injEq] at hdata'
  rw [hdata']
  exact ⟨w, loads_writes hw hj.isObj hj.wellFormed⟩

theorem reported_hasOutcome {digest : Str} {v : Json} (hr : Reported operationId digest v) :
    hasOutcome v = .ok true := by
  have hversion : getAttr v "version" = .ok (.int 2) := by
    rw [getAttr, if_pos hr.journal.isObj, hr.journal.version]
  have hknown : versionIn [1, 2] (.int 2) = .ok true := rfl
  simp [hasOutcome, hversion, hknown, hr.outcome, bind, Except.bind, pure, Except.pure]

/-- A late call stays late. -/
theorem remaining_step {q q' : Stage} {o : Op} {r : Except Fault o.Answer} {c : Command} {b n : Nat}
    (he : Edge L q o r q') (hp : perform root b o r s = some s') (hs : Sane operationId s n)
    (hf : q.Facts L operationId) (hposted : Posted operationId s)
    (hr : Remaining operationId root h c q) :
    Remaining operationId root (.did root root o r :: h) c q' := by
  have hbroke : ∀ {x : Fault}, r = .error x → Broke root (.did root root o r :: h) := by
    intro x hx
    exact ⟨o, x, by rw [hx]; exact List.mem_cons_self⟩
  have hreads : ∀ {data : Bytes} {v : Json},
      perform root b (.read .journal readLimit) (.ok data) s = some s' → Reads data v →
      ∃ digest, Reported operationId digest v := by
    intro data v hread hv
    exact posted_reads hposted (reads_file hread hv).2 hv
  cases he with
  | quiet q o r hq => exact hr.mono
  | failed q o x hq => exact hr.mono
  | unlockIdle q hi => exact hr.mono
  | trip q o x hi hq => exact hbroke rfl
  | tripEntered c' args x => exact hbroke rfl
  | make c' j hb hi =>
      -- the folder is there already
      have hdir := hs.dir hposted.some
      simp only [perform, hdir] at hp
      cases hp
  | lockContinued c' args =>
      have hc : Command.continuation c' args = c := hr
      rw [← hc]
      exact rfl
  | resume c' j data v w hb hread hres =>
      -- a journal with an outcome is not continued
      rcases hreads hp hread with ⟨d, hrep⟩
      rcases hres with ⟨timestamp, _, _, _, ht, _⟩
      have hid : j.args.operationId = operationId := hf
      rw [hid, continuedTimestamp_attempted hrep.journal hrep.phase] at ht
      cases ht
  | glance c' args data =>
      refine ⟨hr, List.mem_cons_self, ?_⟩
      intro hlen
      rcases posted_loads hposted (read_whole hp hlen).2 with ⟨v, hload⟩
      rcases hreads hp ⟨hlen, hload⟩ with ⟨d, hrep⟩
      exact ⟨v, ⟨hlen, hload⟩, continuedTimestamp_attempted hrep.journal hrep.phase⟩
  | readFlush c' t data v hread ho =>
      have hc : Command.flush c' t = c := hr
      rw [← hc]
      exact ⟨rfl, rfl, ⟨data, List.mem_cons_self, hread⟩, hreads hp hread⟩
  | reject c' t data =>
      have hc : Command.flush c' t = c := hr
      rw [← hc]
      refine ⟨rfl, ?_⟩
      intro v hv
      rcases hreads hp hv with ⟨d, hrep⟩
      exact reported_hasOutcome hrep
  | report alone v req resp hrep => exact ⟨hr.1, hr.2.1⟩
  | unreported alone v req x hrep => exact ⟨hr.1, hr.2.1⟩
  | complete alone v resp final data hfinal hw => exact hr
  | unlock q r hb =>
      -- the lock is given back at the end of an execution only
      cases q with
      | reporting alone v =>
          rw [hr.2.1] at hb
          cases hb
      | reported alone v resp =>
          rw [hr.2] at hb
          cases hb
      | flushed alone =>
          rw [hr.2] at hb
          cases hb
      | start c' => cases hb
      | tripped => cases hb
      | entered c' a => cases hb
      | glanced a data => cases hb
      | rejected data => cases hb
      | _ => exact hr
  | settle q e v w data hl hset hw =>
      cases hl with
      | _ => exact hr.elim
  | _ => exact hr.elim

theorem LateCall.claimed {c : Command} (hl : LateCall root c h) : h.countP claims ≠ 0 := by
  rcases hl with ⟨past, hs, hc⟩
  have hle : past.countP claims ≤ h.countP claims :=
    ((List.suffix_cons _ past).trans hs).sublist.countP_le
  omega

/-- Every program is early, or in one of the stages that remain. -/
theorem trail_timely (L : Libs) (operationId : Str) :
    Trail (system L operationId) (Edge L) firstStage (Run L operationId)
      (Timely operationId) where
  mono a root q e h ht := ht.mono
  start n h c hc := by
    by_cases hclaims : h.countP claims = 0
    · exact Or.inl ⟨c, h, List.suffix_refl _, hclaims⟩
    · refine Or.inr ⟨rfl, c, ⟨h, List.suffix_refl _, hclaims⟩, hc, ?_⟩
      cases c with
      | send p => cases hc
      | _ => exact rfl
  act s roles n h a root q o r s' q' hrun ha ht he hp := by
    rcases ht with ⟨c, past, hs, hc⟩ | ⟨rfl, c, hl, hadmits, hr⟩
    · exact Or.inl ⟨c, past, hs.trans (List.suffix_cons _ h), hc⟩
    · rcases hrun.invariant.valid a a q ha with ⟨_, hf⟩
      have hposted : Posted operationId s := by
        by_contra hn
        exact hl.claimed (hrun.claim.before hn)
      exact Or.inr ⟨rfl, c, hl.mono, hadmits,
        remaining_step he hp hrun.invariant.sane hf hposted hr⟩
  spawn s roles n h a root q o r s' q' c hrun ha ht he hp hs := by
    rcases ht with ⟨d, past, hsuffix, hd⟩ | ⟨rfl, d, hl, _, hr⟩
    · exact Or.inl ⟨d, past, hsuffix.trans (List.suffix_cons _ h), hd⟩
    · rcases edge_spawns he hs with ⟨e, v, resp, thread, rfl, _⟩
      exact hr.elim

/-! ### The result -/

/-- How a late call may end. -/
def EndsLate (L : Libs) (root : Nat) (past : List Happening) (c : Command)
    (r : Except Exc Value) : Prop :=
  (c.isFlush = true → ¬ Recovers r) ∧
  ∀ a, c.args = some a → ¬ Refused L a → Recovers r ∨ Broke root past ∨
    ∃ data, ReadBytes root data past ∧ readLimit < data.length

/-- What an operation of a late report does. -/
def DoesLate (operationId : Str) (root : Nat) (past : List Happening) (c : Command)
    (e : Happening) (o : Op) : Prop :=
  c.isFlush = true → claims e = false ∧ sends e = false ∧
    ∀ req, o = .http req → req.route = .outcome operationId ∧
      ∃ v token, ReadJournal root v past ∧
        req.json = some ((v.get "outcome").get "body") ∧
        (v.get "outcome").get "idempotency_key" = .str operationId ∧
        req.headers = token ++ [(idempotencyKeyHeader, operationId)]

/-- What a call does that began after a claim. -/
def Late (L : Libs) (operationId : Str) (e : Happening) (past : List Happening) : Prop :=
  ∀ root c, LateCall root c past →
    (∀ a r, e = .ended a root r → EndsLate L root past c r) ∧
    (∀ a o r, e = .did a root o r → DoesLate operationId root past c e o)

/-- The same, for one beginning of the call. -/
def LateOnce (L : Libs) (operationId : Str) (e : Happening) (past : List Happening) : Prop :=
  (∀ a root r, e = .ended a root r → ∃ c before, .began root root c :: before <:+ past ∧
    (before.countP claims = 0 ∨ EndsLate L root past c r)) ∧
  (∀ a root o r, e = .did a root o r → ∃ c before, .began root root c :: before <:+ past ∧
    (before.countP claims = 0 ∨ DoesLate operationId root past c e o))

theorem admits_id {c : Command} (h : admits operationId c = true) (a : Args)
    (ha : c.args = some a) : a.operationId = operationId := by
  cases c with
  | execute c b =>
      cases ha
      exact of_decide_eq_true h
  | continuation c b =>
      cases ha
      exact of_decide_eq_true h
  | flush c t => cases ha
  | send p => cases ha

theorem endsLate_of_remaining {c : Command} {q : Stage} {r : Except Exc Value}
    (hr : Remaining operationId root h c q)
    (hid : ∀ a, c.args = some a → a.operationId = operationId) (he : Ends L q r) :
    EndsLate L root h c r := by
  have hreport : c.isFlush = true → Plain r → EndsLate L root h c r := by
    intro hflush hplain
    refine ⟨fun _ => hplain, ?_⟩
    intro a ha
    cases c with
    | flush c t => cases ha
    | _ => cases hflush
  cases q with
  | start c' =>
      have hc : c' = c := hr
      rw [← hc]
      cases c' with
      | execute c a =>
          refine ⟨nofun, ?_⟩
          intro a' ha' href
          cases ha'
          exact Or.inl (he.2.resolve_right href)
      | continuation c a =>
          refine ⟨nofun, ?_⟩
          intro a' ha' href
          cases ha'
          exact Or.inl (he.2.resolve_right href)
      | flush c t => exact he.elim
      | send p => exact he.elim
  | tripped => exact ⟨fun _ => he.2, fun _ _ _ => Or.inr (Or.inl hr)⟩
  | entered c' a => exact he.elim
  | glanced a data =>
      rcases hr with ⟨hargs, hread, hnone⟩
      refine ⟨?_, ?_⟩
      · intro hflush
        cases c with
        | flush c t => cases hargs
        | _ => cases hflush
      · intro a' ha' _
        by_cases hlen : data.length ≤ readLimit
        · rcases hnone hlen with ⟨v, hv, ht⟩
          refine Or.inl (he.2 v hv ?_)
          rw [hid a hargs]
          exact ht
        · exact Or.inr (Or.inr ⟨data, hread, by omega⟩)
  | rejected data =>
      refine hreport hr.1 ?_
      intro hrec
      rcases he.2 hrec with ⟨v, hv, ho⟩
      rw [hr.2 v hv] at ho
      cases ho
  | reporting alone v => exact hreport hr.1 he
  | reported alone v resp => exact hreport hr.1 he
  | flushed alone => exact hreport hr.1 he
  | _ => exact hr.elim

theorem doesLate_of_remaining {c : Command} {q q' : Stage} {o : Op} {r : Except Fault o.Answer}
    {a : Nat} (he : Edge L q o r q') (hr : Remaining operationId root h c q) :
    DoesLate operationId root h c (.did a root o r) o := by
  intro _
  refine ⟨?_, ?_, ?_⟩
  · by_contra hclaims
    rcases edge_claims he ((Bool.not_eq_false _).mp hclaims) with ⟨e, v, rfl, _⟩
    exact hr
  · by_contra hsends
    rcases edge_sends he ((Bool.not_eq_false _).mp hsends) with ⟨e, v, _, _, rfl, _⟩ | ⟨_, _, rfl, _⟩
    · exact hr
    · exact hr
  · intro req heq
    subst heq
    rcases edge_http he with ⟨j, v, rfl, _⟩ | ⟨e, v, rfl, _⟩ | ⟨e, v, rfl, _⟩ | ⟨b, v, rfl, hreports⟩
    · exact hr.elim
    · exact hr.elim
    · exact hr.elim
    · rcases hreports with ⟨id, key, token, hid, hkey, hroute, hjson, hheaders⟩
      rcases hr with ⟨_, _, hread, digest, hrep⟩
      rw [hrep.journal.id, Json.str.injEq] at hid
      rw [hrep.key] at hkey
      rw [← hid] at hroute
      cases hkey
      exact ⟨hroute, v, token, hread, hjson, hrep.key, hheaders⟩

theorem preserves_lateOnce (L : Libs) (operationId : Str) :
    Preserves (system L operationId) (Edge L) (Ends L) firstStage
      (fun s roles h => Run L operationId s roles h ∧
        ∀ a root q, roles a = some (root, q) → Timely operationId a root q h)
      (fun _ _ h => Always (LateOnce L operationId) h) := by
  refine preserves_always ?_ ?_ ?_ ?_ ?_
  · intro n root c h
    exact ⟨fun _ _ _ heq => (by cases heq), fun _ _ _ _ heq => (by cases heq)⟩
  · intro s roles n h a root q o r s' q' ⟨hrun, htimely⟩ ha he hp
    refine ⟨fun _ _ _ heq => (by cases heq), ?_⟩
    intro a' root' o' r' heq
    cases heq
    rcases htimely a root q ha with ⟨c, past, hs, hc⟩ | ⟨_, c, ⟨past, hs, _⟩, hadmits, hr⟩
    · exact ⟨c, past, hs, Or.inl hc⟩
    · exact ⟨c, past, hs, Or.inr (doesLate_of_remaining he hr)⟩
  · intro s roles h a root q r ⟨hrun, htimely⟩ ha hpost
    refine ⟨?_, fun _ _ _ _ heq => (by cases heq)⟩
    intro a' root' r' heq
    cases heq
    rcases htimely a root q ha with ⟨c, past, hs, hc⟩ | ⟨_, c, ⟨past, hs, _⟩, hadmits, hr⟩
    · exact ⟨c, past, hs, Or.inl hc⟩
    · exact ⟨c, past, hs, Or.inr (endsLate_of_remaining hr (admits_id hadmits) hpost)⟩
  · intro a h
    exact ⟨fun _ _ _ heq => (by cases heq), fun _ _ _ _ heq => (by cases heq)⟩
  · intro d h
    exact ⟨fun _ _ _ heq => (by cases heq), fun _ _ _ _ heq => (by cases heq)⟩

/-- What can be recovered at a point of a run. -/
structure Recoverable (L : Libs) (operationId : Str) (w : Point) : Prop where
  agreement : w.history.countP claims ≠ 0 → Agreement operationId w.shared
  late : Always (Late L operationId) w.history

/-- A call has begun once. -/
theorem late_of_once {w : Point} {e : Happening} {past : List Happening}
    (hw : (system L operationId).Reachable Folder.fresh w) (hs : e :: past <:+ w.history)
    (h : LateOnce L operationId e past) : Late L operationId e past := by
  intro root c ⟨before, hbefore, hclaimed⟩
  have hpast : past <:+ w.history := (List.suffix_cons e past).trans hs
  have honce : ∀ {c' : Command} {before' : List Happening},
      .began root root c' :: before' <:+ past → c' = c ∧ before' = before := by
    intro c' before' hbefore'
    exact (began_unique hw (hbefore'.trans hpast) (hbefore.trans hpast)).2
  refine ⟨?_, ?_⟩
  · intro a r heq
    rcases h.1 a root r heq with ⟨c', before', hbefore', hzero | hends⟩
    · rw [(honce hbefore').2] at hzero
      exact absurd hzero hclaimed
    · rw [(honce hbefore').1] at hends
      exact hends
  · intro a o r heq
    rcases h.2 a root o r heq with ⟨c', before', hbefore', hzero | hdoes⟩
    · rw [(honce hbefore').2] at hzero
      exact absurd hzero hclaimed
    · rw [(honce hbefore').1] at hdoes
      exact hdoes

end Allowly

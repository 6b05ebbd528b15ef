import Allowly.Base.Trail
import Allowly.Theory.Invariant

/-!
# What a Call Remembers

What a stage says of the past of its call. The runtime answered the request of the
job; the approval in its answer was checked, against a time the clock gave; the claim
was in the journal before it was made, and it was granted. A thread that sends has
this from the call that started it.

All of it is about one call: the events are those of programs that belong to the root.

## Main definitions

* `journalPhase`: The phase of a journal that was saved.
* `Began`, `Replied`, `Answered`, `Logged`, `Asked`: What happened.
* `Backed`: The evidence of a call comes from an answer to its job.
* `Remembers`: What a stage says of the past.

## Theorems

* `trail_remembers`: Every running call remembers.
-/

namespace Allowly

open Py Interleave

/-- The arguments of a call that executes. -/
def Command.args : Command → Option Args
  | execute _ a => some a
  | continuation _ a => some a
  | flush .. => none
  | send _ => none

/-- The phase of a journal that was saved, as a reader finds it. -/
def journalPhase : Happening → Option Json
  | .did _ _ (.replace .journal data) (.ok _) => (loadsBytes data).map fun v => v.get "phase"
  | _ => none

/-- The job is the one of the call that was started. -/
def Began (root : Nat) (j : Job) (h : List Happening) : Prop :=
  ∃ c, .began root root c ∈ h ∧ c.args = some j.args

/-- The request of the job was answered. -/
def Replied (root : Nat) (j : Job) (resp : ApiResponse) (h : List Happening) : Prop :=
  ∃ a req, .did a root (.http req) (.ok resp) ∈ h ∧ j.Sends req

/-- The answer was this response. -/
def Answered (L : Libs) (root : Nat) (j : Job) (r : ExecutionResponse) (h : List Happening) : Prop :=
  ∃ resp, Replied root j resp h ∧ j.Accepts L resp r

/-- The clock gave this time. -/
def Timed (root : Nat) (now : Int) (h : List Happening) : Prop :=
  ∃ a, .did a root .now (.ok now) ∈ h

/-- A journal that says that a claim follows was saved. -/
def Logged (root : Nat) (h : List Happening) : Prop :=
  ∃ a data, .did a root (.replace .journal data) (.ok ()) ∈ h ∧
    (loadsBytes data).map (fun v => v.get "phase") = some (.str (lit "dispatch_attempted"))

/-- The claim for the evidence was answered. The journal said so beforehand. -/
def Asked (root : Nat) (e : Evidence) (resp : ApiResponse) (h : List Happening) : Prop :=
  ∃ a req past, .did a root (.http req) (.ok resp) :: past <:+ h ∧ e.Claims req ∧ Logged root past

/-- The evidence comes from an answer to the job of the call. -/
structure Backed (L : Libs) (operationId : Str) (root : Nat) (e : Evidence)
    (h : List Happening) : Prop where
  began : Began root e.job h
  id : e.job.args.operationId = operationId
  answered : Answered L root e.job e.response h
  timed : Timed root e.checkedAt h
  valid : e.Valid L

/-- What a stage says of the past of its call. -/
def Remembers (L : Libs) (operationId : Str) (_self root : Nat) :
    Stage → List Happening → Prop
  | .start c, h => .began root root c ∈ h
  | .made j, h => Began root j h
  | .saved j _, h => Began root j h
  | .entered c a, h => .began root root (.continuation c a) ∈ h
  | .resumed j _ _, h => Began root j h
  | .holding j _, h => Began root j h
  | .heard j _ resp, h => Began root j h ∧ Replied root j resp h
  | .recorded j _ r, h => Began root j h ∧ Answered L root j r h
  | .timed j _ r now, h => Began root j h ∧ Answered L root j r h ∧ Timed root now h
  | .bound e _, h => Backed L operationId root e h
  | .attempted e _, h => Backed L operationId root e h ∧ Logged root h
  | .asked e _ resp, h => Backed L operationId root e h ∧ Asked root e resp h
  | .sending s, h => ∃ e resp, s = e.sendArgs ∧ ¬ e.Witnessed ∧ Backed L operationId root e h ∧
      Asked root e resp h ∧ e.Granted L resp
  | _, _ => True

variable {L : Libs} {operationId : Str} {root : Nat} {j : Job} {e : Evidence}
variable {h h' : List Happening} {x : Happening}

theorem Began.mono (hb : Began root j h) : Began root j (x :: h) := by
  rcases hb with ⟨c, hc, ha⟩
  exact ⟨c, List.mem_cons_of_mem x hc, ha⟩

theorem Replied.mono {resp : ApiResponse} (hh : Replied root j resp h) : Replied root j resp (x :: h) := by
  rcases hh with ⟨a, req, hreq, hs⟩
  exact ⟨a, req, List.mem_cons_of_mem x hreq, hs⟩

theorem Answered.mono {r : ExecutionResponse} (ha : Answered L root j r h) :
    Answered L root j r (x :: h) := by
  rcases ha with ⟨resp, hh, ha⟩
  exact ⟨resp, hh.mono, ha⟩

theorem Timed.mono {now : Int} (ht : Timed root now h) : Timed root now (x :: h) := by
  rcases ht with ⟨a, ha⟩
  exact ⟨a, List.mem_cons_of_mem x ha⟩

theorem Logged.mono (hl : Logged root h) : Logged root (x :: h) := by
  rcases hl with ⟨a, data, hd, hp⟩
  exact ⟨a, data, List.mem_cons_of_mem x hd, hp⟩

theorem Asked.mono {resp : ApiResponse} (ha : Asked root e resp h) : Asked root e resp (x :: h) := by
  rcases ha with ⟨a, req, past, hs, hc, hl⟩
  exact ⟨a, req, past, hs.trans (List.suffix_cons x h), hc, hl⟩

theorem Backed.mono (hb : Backed L operationId root e h) : Backed L operationId root e (x :: h) :=
  ⟨hb.began.mono, hb.id, hb.answered.mono, hb.timed.mono, hb.valid⟩

theorem Remembers.mono {a : Nat} {q : Stage} (hr : Remembers L operationId a root q h) :
    Remembers L operationId a root q (x :: h) := by
  cases q with
  | start c => exact List.mem_cons_of_mem x hr
  | made j => exact Began.mono hr
  | saved j v => exact Began.mono hr
  | entered c a => exact List.mem_cons_of_mem x hr
  | resumed j v w => exact Began.mono hr
  | holding j v => exact Began.mono hr
  | heard j v resp => exact ⟨hr.1.mono, hr.2.mono⟩
  | recorded j v r => exact ⟨hr.1.mono, hr.2.mono⟩
  | timed j v r now => exact ⟨hr.1.mono, hr.2.1.mono, hr.2.2.mono⟩
  | bound e v => exact Backed.mono hr
  | attempted e v => exact ⟨hr.1.mono, hr.2.mono⟩
  | asked e v resp => exact ⟨hr.1.mono, hr.2.mono⟩
  | sending s =>
      rcases hr with ⟨e, resp, hs, hw, hb, ha, hg⟩
      exact ⟨e, resp, hs, hw, hb.mono, ha.mono, hg⟩
  | _ => exact trivial

/-- Every running call remembers. -/
theorem trail_remembers (L : Libs) (operationId : Str) :
    Trail (system L operationId) (Edge L) firstStage (Invariant L operationId)
      (Remembers L operationId) where
  mono a root q e h hr := hr.mono
  start n h c hc := by
    cases c with
    | send s => cases hc
    | _ => exact List.mem_cons_self
  act s roles n h a root q o r s' q' hi ha hr he hp := by
    rcases hi.valid a root q ha with ⟨hv, hf⟩
    cases he with
    | quiet q o r hq => exact hr.mono
    | failed q o x hq => exact hr.mono
    | make c j hb hnone => exact ⟨_, List.mem_cons_of_mem _ hr, rfl⟩
    | prepare j data digest timestamp hd ht hw => exact Began.mono hr
    | lockPrepared j v => exact Began.mono hr
    | lockContinued c args => exact List.mem_cons_of_mem _ hr
    | resume c j data v w hb hread hres => exact ⟨_, List.mem_cons_of_mem _ hr, rfl⟩
    | rewrite j v w data hw => exact Began.mono hr
    | request j v req resp hs => exact ⟨Began.mono hr, a, req, List.mem_cons_self, hs⟩
    | record j v resp r data hacc hw => exact ⟨hr.1.mono, resp, hr.2.mono, hacc⟩
    | time j v r now => exact ⟨hr.1.mono, hr.2.mono, a, List.mem_cons_self⟩
    | bind e v data hvalid hw =>
        exact ⟨hr.1.mono, hf.1.id, hr.2.1.mono, hr.2.2.mono, hvalid⟩
    | admission e v req r hroute => exact Backed.mono hr
    | tell e v admission data r hm hw => exact Backed.mono hr
    | attempt e v started data hw =>
        refine ⟨Backed.mono hr, a, data, List.mem_cons_self, ?_⟩
        have hposted := (Saves.attempt e v started).facts hw hv hf
        rcases hposted.1.2 with ⟨d, hrep, _⟩
        rw [loads_writes hw hrep.journal.isObj hrep.journal.wellFormed, Option.map_some,
          Option.some.injEq]
        simp [claimState, Json.update, Json.get_set_self, Json.get_set_other, hv.2.1.journal.isObj]
    | ask e v req resp hc => exact ⟨hr.1.mono, a, req, h, List.suffix_refl _, hc, hr.2⟩
    | unlockIdle q hi => exact hr.mono
    | _ => exact trivial
  spawn s roles n h a root q o r s' q' c hi ha hr he hp hs := by
    rcases edge_spawns he hs with ⟨e, v, resp, thread, rfl, rfl, rfl, _, rfl, hg, hm⟩
    exact ⟨e, resp, rfl, hm, hr.1.mono, hr.2.mono, hg⟩

end Allowly

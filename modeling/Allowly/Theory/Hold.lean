import Allowly.Theory.Effect

/-!
# What a Call Relies On

The assertions of the running calls, in the manner of Owicki and Gries. Between its
steps a call relies on something about the folder, its `Hold`, and the assertion that
goes with it is `Hold.Valid`. What it knows of the values in its memory, whatever the
others do, are its `Facts`.

The steps of others leave an assertion alone. The journal is written by the call that
made the folder, when there is none; by the one that has the lock, when the journal on
disk is open; and without the lock only once an outcome is in it. Neither of these is
what another call relies on.

## Main definitions

* `OnDisk`, `Binding`, `Posted`: What the folder holds.
* `Hold`, `Stage.hold`, `Hold.Valid`: What a call relies on.
* `Stage.Facts`: What a call knows of its values.
* `Sane`: What holds of the folder itself.
* `MayWrite`: Who may write the journal.

## Theorems

* `OnDisk.unique`, `Binding.unique`: There is one journal and one approval.
* `saves_mayWrite`: A journal is only saved by one that may write it.
* `Hold.Valid.stable`: The steps of others leave an assertion alone.
-/

namespace Allowly

open Py Interleave

/-! ### The folder -/

/-- The journal on disk. -/
structure OnDisk (operationId : Str) (s : Folder) (v : Json) : Prop where
  file : ∃ data, s.files .journal = some data ∧ Writes data v
  journal : Journal operationId v

/-- The approval on disk has this digest. -/
def Binding (s : Folder) (digest : Str) : Prop :=
  ∃ data b, s.files .approval = some data ∧ Writes data b ∧ b.isObj = true ∧ b.WellFormed ∧
    b.get "approval_sha256" = .str digest

/-- The journal holds an outcome, for the approval on disk. -/
def Posted (operationId : Str) (s : Folder) : Prop :=
  ∃ v digest, OnDisk operationId s v ∧ Reported operationId digest v ∧ Binding s digest

variable {operationId : Str} {s s' : Folder} {v w : Json}

theorem OnDisk.unique (hv : OnDisk operationId s v) (hw : OnDisk operationId s w) : v = w := by
  rcases hv.file with ⟨data, hdata, hwv⟩
  rcases hw.file with ⟨data', hdata', hww⟩
  rw [hdata, Option.some.injEq] at hdata'
  rw [← hdata'] at hww
  exact writes_unique hwv hww hv.journal.isObj hv.journal.wellFormed hw.journal.isObj
    hw.journal.wellFormed

theorem OnDisk.some (h : OnDisk operationId s v) : s.files .journal ≠ none := by
  rcases h.file with ⟨data, hdata, _⟩
  rw [hdata]
  exact nofun

/-- What was read is what is on disk. -/
theorem OnDisk.reads {data : Bytes} (h : OnDisk operationId s v)
    (hfile : s.files .journal = .some data) (hr : Reads data w) : w = v := by
  rcases h.file with ⟨data', hdata', hw⟩
  rw [hfile, Option.some.injEq] at hdata'
  rw [hdata'] at hr
  exact reads_writes hr hw h.journal.isObj h.journal.wellFormed

theorem Binding.unique {d d' : Str} (h : Binding s d) (h' : Binding s d') : d = d' := by
  rcases h with ⟨data, b, hdata, hw, ho, hb, hd⟩
  rcases h' with ⟨data', b', hdata', hw', ho', hb', hd'⟩
  rw [hdata, Option.some.injEq] at hdata'
  rw [← hdata'] at hw'
  have hbb := writes_unique hw hw' ho hb ho' hb'
  rw [← hbb, hd, Json.str.injEq] at hd'
  exact hd'

/-- An open journal is not one with an outcome. -/
theorem OnDisk.not_posted (h : OnDisk operationId s v) (ho : Open v) : ¬ Posted operationId s := by
  intro hp
  rcases hp with ⟨w, d, hw, hr, _⟩
  rw [← h.unique hw] at hr
  rw [Open, hr.outcome] at ho
  cases ho

theorem OnDisk.of_same (h : Same s s') (hv : OnDisk operationId s v) : OnDisk operationId s' v := by
  refine ⟨?_, hv.journal⟩
  rw [h.journal]
  exact hv.file

theorem Binding.of_same {d : Str} (h : Same s s') (hb : Binding s d) : Binding s' d := by
  unfold Binding
  rw [h.approval]
  exact hb

theorem Posted.of_same (h : Same s s') (hp : Posted operationId s) : Posted operationId s' := by
  rcases hp with ⟨v, d, hv, hr, hb⟩
  exact ⟨v, d, hv.of_same h, hr, hb.of_same h⟩

theorem files_write (s : Folder) (file : File) (data : Option Bytes) :
    (s.write file data).files file = data := by
  simp [Folder.write]

theorem files_write_other {file file' : File} (h : file' ≠ file) (s : Folder)
    (data : Option Bytes) : (s.write file data).files file' = s.files file' := by
  simp [Folder.write, Function.update_of_ne h]

theorem onDisk_write {data : Bytes} (hw : Writes data w) (hj : Journal operationId w) :
    OnDisk operationId (s.write .journal (some data)) w :=
  ⟨⟨data, files_write s _ _, hw⟩, hj⟩

theorem OnDisk.write_other {file : File} (h : .journal ≠ file) (data : Option Bytes)
    (hv : OnDisk operationId s v) : OnDisk operationId (s.write file data) v := by
  refine ⟨?_, hv.journal⟩
  rw [files_write_other h]
  exact hv.file

theorem Binding.write_other {d : Str} {file : File} (h : .approval ≠ file) (data : Option Bytes)
    (hb : Binding s d) : Binding (s.write file data) d := by
  unfold Binding
  rw [files_write_other h]
  exact hb

/-- A journal with an outcome, for the approval on disk, was written. -/
theorem posted_write {data : Bytes} {d : Str} (hw : Writes data w)
    (hr : Reported operationId d w) (hb : Binding s d) :
    Posted operationId (s.write .journal (some data)) :=
  ⟨w, d, onDisk_write hw hr.journal, hr, hb.write_other (by decide) _⟩

/-! ### What a call relies on -/

/-- What a call relies on between its steps. -/
inductive Hold where
  | nothing
  /-- The folder, with nothing in it. -/
  | folder
  | lock
  /-- The first journal. The lock is not taken yet. -/
  | prepared (v : Json)
  /-- The first journal and the lock. -/
  | first (v : Json)
  /-- An open journal and the lock. The execution was asked for. -/
  | journal (v : Json)
  /-- The same, and the approval that was saved. -/
  | bound (v binding : Json)
  /-- That an outcome is on disk, and a journal with it in memory. -/
  | outcome (v : Json)
  | posted

/-- The hold of a call that is about to send its request. -/
def holdOf (j : Job) (v : Json) : Hold :=
  match j.intent with
  | none => .first v
  | some _ => .journal v

def Stage.hold : Stage → Hold
  | start _ => .nothing
  | made _ => .folder
  | saved _ v => .prepared v
  | tripped => .nothing
  | entered .. => .lock
  | glanced .. => .nothing
  | resumed _ v _ => .journal v
  | holding j v => holdOf j v
  | heard _ v _ => .journal v
  | recorded _ v _ => .journal v
  | timed _ v _ _ => .journal v
  | bound e v => .bound v e.binding
  | attempted _ v => .outcome v
  | asked _ v _ => .outcome v
  | spent _ v => .outcome v
  | settled v => .outcome v
  | reporting _ v => .outcome v
  | rejected _ => .nothing
  | reported _ v _ => .outcome v
  | flushed _ => .nothing
  | sending _ => .posted
  | ended => .nothing

/-- The assertion that goes with a hold, for the program with this number, when `n`
    requests to execute were made. -/
def Hold.Valid (operationId : Str) (s : Folder) (n self : Nat) : Hold → Prop
  | nothing => True
  | folder => s.node = .dir ∧ s.files .journal = none ∧ n = 0
  | lock => s.lock = some self
  | prepared v => OnDisk operationId s v ∧ Open v ∧ n = 0
  | first v => s.lock = some self ∧ OnDisk operationId s v ∧ Open v ∧ n = 0
  | journal v => s.lock = some self ∧ OnDisk operationId s v ∧ Open v ∧ n ≠ 0
  | bound v binding => s.lock = some self ∧ OnDisk operationId s v ∧ Open v ∧ n ≠ 0 ∧
      ∃ data, s.files .approval = some data ∧ Writes data binding
  | outcome v => Posted operationId s ∧ ∃ digest, Reported operationId digest v ∧ Binding s digest
  | posted => Posted operationId s

/-- Has the call yet to ask for the execution? Only the one that made the folder has. -/
def Hold.isFirst : Hold → Bool
  | folder => true
  | prepared _ => true
  | first _ => true
  | _ => false

variable {n a b : Nat} {k : Hold}

theorem Hold.Valid.of_same (h : Same s s') (hk : k.Valid operationId s n b) :
    k.Valid operationId s' n b := by
  cases k with
  | nothing => exact trivial
  | folder => exact ⟨h.node.trans hk.1, h.journal.trans hk.2.1, hk.2.2⟩
  | lock => exact h.lock.trans hk
  | prepared v => exact ⟨hk.1.of_same h, hk.2⟩
  | first v => exact ⟨h.lock.trans hk.1, hk.2.1.of_same h, hk.2.2⟩
  | journal v => exact ⟨h.lock.trans hk.1, hk.2.1.of_same h, hk.2.2⟩
  | bound v binding =>
      rcases hk with ⟨hl, hv, ho, hn, data, hdata, hw⟩
      exact ⟨h.lock.trans hl, hv.of_same h, ho, hn, data, h.approval.trans hdata, hw⟩
  | outcome v =>
      rcases hk with ⟨hp, d, hr, hb⟩
      exact ⟨hp.of_same h, d, hr, hb.of_same h⟩
  | posted => exact Posted.of_same h hk

/-- A hold that does not wait for the first request does not mind it. -/
theorem Hold.Valid.of_count {n' : Nat} (hk : k.Valid operationId s n b) (hf : k.isFirst = false)
    (hn : n ≤ n') : k.Valid operationId s n' b := by
  cases k with
  | nothing => exact trivial
  | folder => cases hf
  | lock => exact hk
  | prepared v => cases hf
  | first v => cases hf
  | journal v => exact ⟨hk.1, hk.2.1, hk.2.2.1, by have := hk.2.2.2; omega⟩
  | bound v binding => exact ⟨hk.1, hk.2.1, hk.2.2.1, by have := hk.2.2.2.1; omega, hk.2.2.2.2⟩
  | outcome v => exact hk
  | posted => exact hk

/-- The lock of another program is not given back. -/
theorem lock_unlock {s : Folder} (hab : a ≠ b) (h : s.lock = some b) :
    (s.unlock a).lock = some b := by
  rw [Folder.unlock, h]
  simp [hab.symm]

theorem Hold.Valid.unlock (hab : a ≠ b) (hk : k.Valid operationId s n b) :
    k.Valid operationId (s.unlock a) n b := by
  have hdisk : ∀ {v}, OnDisk operationId s v → OnDisk operationId (s.unlock a) v :=
    fun h => ⟨h.file, h.journal⟩
  have hposted : Posted operationId s → Posted operationId (s.unlock a) := by
    intro ⟨v, d, hv, hr, hb⟩
    exact ⟨v, d, hdisk hv, hr, hb⟩
  cases k with
  | nothing => exact trivial
  | folder => exact hk
  | lock => exact lock_unlock hab hk
  | prepared v => exact ⟨hdisk hk.1, hk.2⟩
  | first v => exact ⟨lock_unlock hab hk.1, hdisk hk.2.1, hk.2.2⟩
  | journal v => exact ⟨lock_unlock hab hk.1, hdisk hk.2.1, hk.2.2⟩
  | bound v binding => exact ⟨lock_unlock hab hk.1, hdisk hk.2.1, hk.2.2⟩
  | outcome v => exact ⟨hposted hk.1, hk.2⟩
  | posted => exact hposted hk

/-- The lock is taken when nobody has it. -/
theorem Hold.Valid.lockBy (hl : s.lock = none) (hk : k.Valid operationId s n b) :
    k.Valid operationId { s with lock := some a } n b := by
  have hno : ∀ {b : Nat}, s.lock ≠ some b := by
    intro b h
    rw [hl] at h
    cases h
  have hdisk : ∀ {v}, OnDisk operationId s v → OnDisk operationId { s with lock := some a } v :=
    fun h => ⟨h.file, h.journal⟩
  have hposted : Posted operationId s → Posted operationId { s with lock := some a } := by
    intro ⟨v, d, hv, hr, hb⟩
    exact ⟨v, d, hdisk hv, hr, hb⟩
  cases k with
  | nothing => exact trivial
  | folder => exact hk
  | lock => exact absurd hk hno
  | prepared v => exact ⟨hdisk hk.1, hk.2⟩
  | first v => exact absurd hk.1 hno
  | journal v => exact absurd hk.1 hno
  | bound v binding => exact absurd hk.1 hno
  | outcome v => exact ⟨hposted hk.1, hk.2⟩
  | posted => exact hposted hk

/-- The folder is made when it is not there. -/
theorem Hold.Valid.make (hk : k.Valid operationId s n b) :
    k.Valid operationId { s with node := .dir } n b := by
  have hdisk : ∀ {v}, OnDisk operationId s v → OnDisk operationId { s with node := .dir } v :=
    fun h => ⟨h.file, h.journal⟩
  have hposted : Posted operationId s → Posted operationId { s with node := .dir } := by
    intro ⟨v, d, hv, hr, hb⟩
    exact ⟨v, d, hdisk hv, hr, hb⟩
  cases k with
  | nothing => exact trivial
  | folder => exact ⟨rfl, hk.2⟩
  | lock => exact hk
  | prepared v => exact ⟨hdisk hk.1, hk.2⟩
  | first v => exact ⟨hk.1, hdisk hk.2.1, hk.2.2⟩
  | journal v => exact ⟨hk.1, hdisk hk.2.1, hk.2.2⟩
  | bound v binding => exact ⟨hk.1, hdisk hk.2.1, hk.2.2⟩
  | outcome v => exact ⟨hposted hk.1, hk.2⟩
  | posted => exact hposted hk

/-- The approval is written by the one that holds the lock and an open journal. -/
theorem Hold.Valid.writeApproval {data : Bytes} (hab : a ≠ b) (hl : s.lock = some a)
    (hv : OnDisk operationId s v) (ho : Open v) (hk : k.Valid operationId s n b) :
    k.Valid operationId (s.write .approval (some data)) n b := by
  have hne : s.lock ≠ some b := by
    rw [hl]
    intro h
    exact hab (Option.some.inj h)
  have hno := hv.not_posted ho
  have hdisk : ∀ {w}, OnDisk operationId s w →
      OnDisk operationId (s.write .approval (some data)) w := fun h => h.write_other (by decide) _
  cases k with
  | nothing => exact trivial
  | folder => exact absurd hk.2.1 hv.some
  | lock => exact hk
  | prepared w => exact ⟨hdisk hk.1, hk.2⟩
  | first w => exact ⟨hk.1, hdisk hk.2.1, hk.2.2⟩
  | journal w => exact ⟨hk.1, hdisk hk.2.1, hk.2.2⟩
  | bound w binding => exact absurd hk.1 hne
  | outcome w => exact absurd hk.1 hno
  | posted => exact absurd hk hno

/-- Who may write the journal: the one that made the folder, when there is none; the
    one with the lock, when the one on disk is open; and anyone with an outcome to
    write, when there is one. -/
def MayWrite (operationId : Str) (s : Folder) (n a : Nat) (first : Bool) (w : Json) : Prop :=
  (s.files .journal = none ∧ first = true) ∨
    (s.lock = some a ∧ n ≠ 0 ∧ ∃ v, OnDisk operationId s v ∧ Open v) ∨
    (Posted operationId s ∧ ∃ d, Reported operationId d w ∧ Binding s d)

/-- Nobody else's assertion is hurt by a journal that may be written. -/
theorem Hold.Valid.writeJournal {data : Bytes} {first : Bool} (hab : a ≠ b)
    (hw : Writes data w) (hm : MayWrite operationId s n a first w)
    (hfirst : first = true → k.isFirst = false) (hk : k.Valid operationId s n b) :
    k.Valid operationId (s.write .journal (some data)) n b := by
  have hopen : ∀ {v}, OnDisk operationId s v → Open v → (s.lock = some b ∨ n = 0) → False := by
    intro v hv ho hlock
    rcases hm with hm | hm | hm
    · exact hv.some hm.1
    · rcases hlock with hlock | hlock
      · rw [hm.1, Option.some.injEq] at hlock
        exact hab hlock
      · exact hm.2.1 hlock
    · exact hv.not_posted ho hm.1
  have hposted : Posted operationId s → Posted operationId (s.write .journal (some data)) := by
    intro hp
    rcases hm with hm | hm | hm
    · rcases hp with ⟨v, d, hv, _⟩
      exact absurd hm.1 hv.some
    · rcases hm.2.2 with ⟨v, hv, ho⟩
      exact absurd hp (hv.not_posted ho)
    · rcases hm.2 with ⟨d, hr, hb⟩
      exact posted_write hw hr hb
  cases k with
  | nothing => exact trivial
  | folder =>
      rcases hm with hm | hm | hm
      · cases hfirst hm.2
      · rcases hm.2.2 with ⟨v, hv, _⟩
        exact absurd hk.2.1 hv.some
      · rcases hm.1 with ⟨v, d, hv, _⟩
        exact absurd hk.2.1 hv.some
  | lock => exact hk
  | prepared v => exact (hopen hk.1 hk.2.1 (Or.inr hk.2.2)).elim
  | first v => exact (hopen hk.2.1 hk.2.2.1 (Or.inl hk.1)).elim
  | journal v => exact (hopen hk.2.1 hk.2.2.1 (Or.inl hk.1)).elim
  | bound v binding => exact (hopen hk.2.1 hk.2.2.1 (Or.inl hk.1)).elim
  | outcome v =>
      rcases hk.2 with ⟨d, hr, hb⟩
      exact ⟨hposted hk.1, d, hr, hb.write_other (by decide) _⟩
  | posted => exact hposted hk

/-! ### What a call knows -/

variable {L : Libs}

/-- The job is one for the operation, and the journal is the one of its request. -/
structure Job.For (L : Libs) (operationId : Str) (v : Json) (j : Job) : Prop where
  built : j.Built L
  id : j.args.operationId = operationId
  digest : ∃ digest, sealSha L j.requested.toJson = .ok digest ∧
    v.get "request_sha256" = .str digest
  intent : ∀ i, j.intent = some i → savedIntent v = .ok i

/-- The journal names the approval of the evidence. -/
def Evidence.Named (operationId : Str) (v : Json) (e : Evidence) : Prop :=
  e.job.args.operationId = operationId ∧
    (v.get "authorization").get "approval_sha256" = optionText e.response.approvalSha256

/-- What a call knows of the values it has, whatever the others do. -/
def Stage.Facts (L : Libs) (operationId : Str) : Stage → Prop
  | start c => admits operationId c = true
  | made j => j.Built L ∧ j.args.operationId = operationId ∧ j.intent = none
  | saved j v => j.For L operationId v ∧ j.intent = none
  | entered _ a => a.operationId = operationId
  | resumed j v w => Resumed L operationId j v w ∧ j.For L operationId w
  | holding j v => j.For L operationId v
  | heard j v _ => j.For L operationId v
  | recorded j v r => j.For L operationId v ∧
      (v.get "authorization").get "approval_sha256" = optionText r.approvalSha256 ∧
      r.approval.WellFormed
  | timed j v r _ => j.For L operationId v ∧
      (v.get "authorization").get "approval_sha256" = optionText r.approvalSha256 ∧
      r.approval.WellFormed
  | bound e v => e.Named operationId v ∧ e.Valid L ∧ e.approval.WellFormed
  | attempted e v => e.Named operationId v
  | asked e v _ => e.Named operationId v
  | spent e v => e.Named operationId v
  | _ => True

/-- What holds of the folder when `n` requests to execute were made. -/
structure Sane (operationId : Str) (s : Folder) (n : Nat) : Prop where
  node : s.node ≠ .dir → s.node = .absent ∧ s.files .journal = none
  empty : s.files .journal = none → n = 0
  disk : s.files .journal ≠ none →
    (∃ v, OnDisk operationId s v ∧ Open v ∧ (n = 0 → ¬ Waiting v)) ∨ (Posted operationId s ∧ n ≠ 0)
  once : n ≤ 1

theorem optionText_str {o : Option Str} {d : Str} (h : optionText o = .str d) : o = some d := by
  cases o with
  | none => cases h
  | some x =>
      rw [optionText, Option.map_some, Json.ofOption, Json.str.injEq] at h
      rw [h]

/-- The approval on disk has the digest of the evidence. -/
theorem binding_digest {e : Evidence} {data : Bytes} {d : Str}
    (hfile : s.files .approval = some data) (hw : Writes data e.binding)
    (hwf : e.approval.WellFormed) (hd : e.response.approvalSha256 = some d) : Binding s d := by
  refine ⟨data, e.binding, hfile, hw, rfl, ?_, ?_⟩
  · refine Json.wellFormed_ofList (by simp [bindingMembers]) ?_
    simp [bindingMembers, wellFormed_optionText, hwf]
  · simp [Evidence.binding, bindingMembers, Json.ofList, Json.get, Json.lookup, hd, optionText,
      Json.ofOption]

/-- What leads to an outcome: an open journal with the approval of the evidence, or a
    journal with an outcome for it. -/
theorem leads_cases {q : Stage} {e : Evidence} (hl : Leads L q e v)
    (hv : q.hold.Valid operationId s n a) (hf : q.Facts L operationId) :
    ∃ d, e.response.approvalSha256 = some d ∧ Reported operationId d v ∧ Binding s d ∧
      e.job.args.operationId = operationId ∧
      ((s.lock = some a ∧ n ≠ 0 ∧ ∃ u, OnDisk operationId s u ∧ Open u) ∨ Posted operationId s) := by
  have hlate : (Hold.outcome v).Valid operationId s n a → e.Named operationId v →
      ∃ d, e.response.approvalSha256 = some d ∧ Reported operationId d v ∧ Binding s d ∧
        e.job.args.operationId = operationId ∧
        ((s.lock = some a ∧ n ≠ 0 ∧ ∃ u, OnDisk operationId s u ∧ Open u) ∨
          Posted operationId s) := by
    intro ⟨hp, d, hr, hb⟩ hnamed
    have hd : e.response.approvalSha256 = some d := optionText_str (hnamed.2 ▸ hr.authorization)
    exact ⟨d, hd, hr, hb, hnamed.1, Or.inr hp⟩
  cases hl with
  | bound _ u started =>
      rcases hv with ⟨hlock, hdisk, hopen, hn, data, hdata, hw⟩
      rcases hf with ⟨hnamed, hvalid, hwf⟩
      rcases hvalid.digest with ⟨d, hd⟩
      have hauth : (u.get "authorization").get "approval_sha256" = .str d := by
        rw [hnamed.2, hd]
        rfl
      refine ⟨d, hd, ?_, binding_digest hdata hw hwf hd, hnamed.1,
        Or.inl ⟨hlock, hn, u, hdisk, hopen⟩⟩
      rw [hnamed.1]
      exact reported_claim hdisk.journal hd hauth
  | attempted => exact hlate hv hf
  | asked => exact hlate hv hf
  | spent => exact hlate hv hf

/-- A journal is only saved by one that may write it. -/
theorem saves_mayWrite {q q' : Stage} (h : Saves L q w q') (hv : q.hold.Valid operationId s n a)
    (hf : q.Facts L operationId) : MayWrite operationId s n a q.hold.isFirst w := by
  cases h with
  | prepare j digest timestamp hd ht => exact Or.inl ⟨hv.2.1, rfl⟩
  | rewrite j v _ => exact Or.inr (Or.inl ⟨hv.1, hv.2.2.2, v, hv.2.1, hv.2.2.1⟩)
  | record j v resp r ha => exact Or.inr (Or.inl ⟨hv.1, hv.2.2.2, v, hv.2.1, hv.2.2.1⟩)
  | attempt e v started => exact Or.inr (Or.inl ⟨hv.1, hv.2.2.2.1, v, hv.2.1, hv.2.2.1⟩)
  | settle q e v _ hl hs =>
      rcases leads_cases hl hv hf with ⟨d, hd, hr, hb, hid, hcase⟩
      rcases hcase with hcase | hposted
      · exact Or.inr (Or.inl hcase)
      · rcases hs with ⟨artifacts, completed, hsound, rfl⟩
        refine Or.inr (Or.inr ⟨hposted, d, ?_, hb⟩)
        rw [hid]
        exact reported_settled _ hr hd hsound
  | complete b v resp final hp =>
      rcases hp with ⟨sensitive, raw, hraw, hparse⟩
      rcases hv with ⟨hposted, d, hr, hb⟩
      exact Or.inr (Or.inr ⟨hposted, d,
        reported_complete hr (wellFormed_toJson (wellFormed_readResponse hraw) hparse), hb⟩)

/-- Nobody else's assertion is hurt by a step. -/
theorem Hold.Valid.stable {q q' : Stage} (hab : a ≠ b) (he : Effect L a s s' q q')
    (hv : q.hold.Valid operationId s n a) (hf : q.Facts L operationId)
    (hfirst : q.hold.isFirst = true → k.isFirst = false) (hk : k.Valid operationId s n b) :
    k.Valid operationId s' n b := by
  cases he with
  | same s' q q' h => exact hk.of_same h
  | made c j h => exact hk.make
  | locked q q' h => exact hk.lockBy h
  | unlocked q q' => exact hk.unlock hab
  | bound e v data hw => exact hk.writeApproval hab hv.1 hv.2.1 hv.2.2.1
  | saved q w q' data h hw => exact hk.writeJournal hab hw (saves_mayWrite h hv hf) hfirst

end Allowly

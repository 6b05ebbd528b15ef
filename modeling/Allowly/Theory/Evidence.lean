import Allowly.Base.Beside
import Allowly.Core.Evidence
import Allowly.Theory.Artifacts
import Allowly.Theory.Deadline
import Allowly.Theory.Policies
import Allowly.Theory.Recovery
import Allowly.Theory.Scenario

/-!
# One Approval for an Operation

Reviews can be continued more than once, and every continuation that is approved brings an
approval of its own and saves it. Once a claim or a report was sent, all of this is over: every
claim and every report names the approval on disk, and it is the one of the journal.

A call that completes the evidence reads the two files one after the other, while other calls
may be at work. If the journal it reads holds an outcome, the approval it reads next is the one
that was claimed. So is the one in the package it writes, which is what its receipt is about.

## Main definitions

* `Pinned`: The journal holds an outcome, and the approval on disk has this digest.
* `approvalNamed`: The digest a claim or a report names.
* `answers`: What a call beside the others can be answered.
* `Linked`: What has been checked of a package.
* `Concerns`: The package is about the approval that was claimed.

## Theorems

* `Pinned.step`: Nobody changes the approval of an outcome.
* `one_approval`: All claims and reports name one approval, which is on disk.
* `evidence_bound`: What a call writes, and what it leaves alone.
-/

namespace Allowly

open Py Prog Interleave

variable {L : Libs} {operationId digest : Str} {s s' : Folder} {h : List Happening}

/-! ### The approval of an outcome -/

/-- The journal holds an outcome, and the approval on disk has this digest. -/
def Pinned (operationId digest : Str) (s : Folder) : Prop :=
  Posted operationId s ∧ Binding s digest

theorem Reported.unique {d d' : Str} {v : Json} (h : Reported operationId d v)
    (h' : Reported operationId d' v) : d = d' := by
  have hbody := h.body
  rw [h'.body, Json.str.injEq] at hbody
  exact hbody.symm

/-- Nobody changes the approval of an outcome. -/
theorem Pinned.step {q q' : Stage} {o : Op} {r : Except Fault o.Answer} {a b n : Nat}
    (he : Edge L q o r q') (hp : perform a b o r s = some s')
    (hv : q.hold.Valid operationId s n a) (hf : q.Facts L operationId)
    (h : Pinned operationId digest s) : Pinned operationId digest s' := by
  rcases h with ⟨hposted, hbinding⟩
  rcases hposted with ⟨v, d, hdisk, hr, hb⟩
  have hd := hb.unique hbinding
  rw [hd] at hr
  -- The assertion of a call that has this journal in its memory.
  have hk : (Hold.outcome v).Valid operationId s n (a + 1) :=
    ⟨⟨v, digest, hdisk, hr, hbinding⟩, digest, hr, hbinding⟩
  have hstable := Hold.Valid.stable (Nat.succ_ne_self a).symm (edge_effect he hp) hv hf
    (fun _ => rfl) hk
  rcases hstable with ⟨hposted', d', hr', hb'⟩
  have hd' := hr'.unique hr
  rw [hd'] at hb'
  exact ⟨hposted', hb'⟩

theorem Pinned.disturb {d : NativeWrite} (hd : (system L operationId).disturb d s = some s')
    (h : Pinned operationId digest s) : Pinned operationId digest s' := by
  refine ⟨posted_disturb hd h.1, ?_⟩
  simp only [system] at hd
  split at hd
  · next hfile =>
      cases hd
      refine h.2.write_other ?_ _
      intro ha
      rw [← ha] at hfile
      exact absurd hfile (by decide)
  · cases hd

theorem preserves_pinned (L : Libs) (operationId digest : Str) :
    Preserves (system L operationId) (Edge L) (Ends L) firstStage (Run L operationId)
      (fun s _ _ => Pinned operationId digest s) where
  start _ _ _ _ _ _ h _ _ := h
  act s roles n h a root q o r s' q' hrun hp ha _ he hperform _ := by
    rcases hrun.invariant.valid a root q ha with ⟨hv, hf⟩
    exact hp.step he hperform hv hf
  spawn s roles n h a root q o r s' q' c hrun hp ha _ he hperform _ := by
    rcases hrun.invariant.valid a root q ha with ⟨hv, hf⟩
    exact hp.step he hperform hv hf
  finish s _ _ a _ _ r _ hp _ _ := ⟨posted_finish L a r s hp.1, hp.2⟩
  crash s _ _ a _ _ _ hp _ := ⟨posted_crash L a s hp.1, hp.2⟩
  disturb _ _ _ _ _ _ hp hd := hp.disturb hd

/-- What is pinned stays so. -/
theorem pinned_stays {w w' : Point} {a : Act Op Op.Answer Fault Command NativeWrite}
    (hw : (system L operationId).Reachable Folder.fresh w)
    (hs : (system L operationId).step w a = some w') (h : Pinned operationId digest w.shared) :
    Pinned operationId digest w'.shared := by
  rcases run_reachable hw with ⟨roles, hfits, hrun⟩
  have hkept := (preserves_run L operationId).and (preserves_pinned L operationId digest)
  rcases invariant_step (fun c _ => code_follows operationId c) hkept hfits ⟨hrun, h⟩ a hs with
    ⟨_, _, _, hp⟩
  exact hp

/-! ### Claims and reports -/

/-- The digest a claim or a report names. -/
def approvalNamed : Happening → Option Json
  | .did _ _ (.http req) _ =>
    match req.route with
    | .dispatch _ => req.json.map fun body => body.get "approval_sha256"
    | .outcome _ => req.json.map fun body => body.get "approval_sha256"
    | _ => none
  | _ => none

theorem approvalNamed_did {a root : Nat} {o : Op} {r : Except Fault o.Answer} {v : Json}
    (h : approvalNamed (.did a root o r) = some v) : ∃ req, o = .http req ∧
      ((∃ id, req.route = .dispatch id) ∨ ∃ id, req.route = .outcome id) ∧
      req.json.map (fun body => body.get "approval_sha256") = some v := by
  cases o with
  | http req =>
      refine ⟨req, rfl, ?_⟩
      simp only [approvalNamed] at h
      split at h
      · next id hroute => exact ⟨Or.inl ⟨id, hroute⟩, h⟩
      · next id hroute => exact ⟨Or.inr ⟨id, hroute⟩, h⟩
      · cases h
  | _ => cases h

/-- Whoever claims or reports names the approval on disk. -/
theorem edge_names {q q' : Stage} {o : Op} {r : Except Fault o.Answer} {a root n : Nat} {v : Json}
    (he : Edge L q o r q') (hv : q.hold.Valid operationId s n a) (hf : q.Facts L operationId)
    (h : approvalNamed (.did a root o r) = some v) :
    ∃ digest, v = .str digest ∧ Pinned operationId digest s := by
  rcases approvalNamed_did h with ⟨req, rfl, hroute, hjson⟩
  rcases edge_http he with ⟨j, _, rfl, hs, _⟩ | ⟨e, _, rfl, hr⟩ | ⟨e, u, rfl, hc, _⟩ | ⟨b, u, rfl, hr⟩
  · rw [hs.1, Job.route] at hroute
    split at hroute
    · rcases hroute with ⟨id, hid⟩ | ⟨id, hid⟩
      · cases hid
      · cases hid
    · rcases hroute with ⟨id, hid⟩ | ⟨id, hid⟩
      · cases hid
      · cases hid
  · rw [hr] at hroute
    rcases hroute with ⟨id, hid⟩ | ⟨id, hid⟩
    · cases hid
    · cases hid
  · -- A claim is made with the digest of the journal in memory.
    rcases hv with ⟨hposted, d, hreported, hbinding⟩
    have hd : optionText e.response.approvalSha256 = .str d := by
      rw [← hf.2, hreported.authorization]
    rw [hc.2, Option.map_some, Option.some.injEq] at hjson
    have hbody : (approvalBody e.response.approvalSha256).get "approval_sha256" =
        optionText e.response.approvalSha256 := rfl
    rw [hbody, hd] at hjson
    exact ⟨d, hjson.symm, hposted, hbinding⟩
  · -- A report is the outcome of the journal in memory.
    rcases hv with ⟨hposted, d, hreported, hbinding⟩
    rcases hr with ⟨_, _, _, _, _, _, hbody, _⟩
    rw [hbody, Option.map_some, Option.some.injEq, hreported.body] at hjson
    exact ⟨d, hjson.symm, hposted, hbinding⟩

/-- Every claim and every report names the approval on disk. -/
def Named (operationId : Str) (s : Folder) (h : List Happening) : Prop :=
  ∀ x ∈ h, ∀ v, approvalNamed x = some v → ∃ digest, v = .str digest ∧ Pinned operationId digest s

theorem Named.step {q q' : Stage} {o : Op} {r : Except Fault o.Answer} {a b n root : Nat}
    (he : Edge L q o r q') (hp : perform a b o r s = some s')
    (hv : q.hold.Valid operationId s n a) (hf : q.Facts L operationId)
    (h' : Named operationId s h) : Named operationId s' (.did a root o r :: h) := by
  intro x hx v hname
  rcases List.mem_cons.mp hx with rfl | hx
  · rcases edge_names he hv hf hname with ⟨d, hd, hpinned⟩
    exact ⟨d, hd, hpinned.step he hp hv hf⟩
  · rcases h' x hx v hname with ⟨d, hd, hpinned⟩
    exact ⟨d, hd, hpinned.step he hp hv hf⟩

/-- An event without a name changes nothing. -/
theorem Named.cons {x : Happening} (hx : approvalNamed x = none)
    (hs : ∀ digest, Pinned operationId digest s → Pinned operationId digest s')
    (h' : Named operationId s h) : Named operationId s' (x :: h) := by
  intro y hy v hname
  rcases List.mem_cons.mp hy with rfl | hy
  · rw [hx] at hname
    cases hname
  · rcases h' y hy v hname with ⟨d, hd, hpinned⟩
    exact ⟨d, hd, hs d hpinned⟩

theorem preserves_named (L : Libs) (operationId : Str) :
    Preserves (system L operationId) (Edge L) (Ends L) firstStage (Run L operationId)
      (fun s _ h => Named operationId s h) where
  start s roles n h c _ hn _ _ := hn.cons rfl fun _ hp => hp
  act s roles n h a root q o r s' q' hrun hn ha _ he hp _ := by
    rcases hrun.invariant.valid a root q ha with ⟨hv, hf⟩
    exact hn.step he hp hv hf
  spawn s roles n h a root q o r s' q' c hrun hn ha _ he hp _ := by
    rcases hrun.invariant.valid a root q ha with ⟨hv, hf⟩
    exact (hn.step he hp hv hf).cons rfl fun _ hp => hp
  finish s roles h a root q r _ hn _ _ :=
    hn.cons rfl fun _ hp => ⟨posted_finish L a r s hp.1, hp.2⟩
  crash s roles h a root q _ hn _ := hn.cons rfl fun _ hp => ⟨posted_crash L a s hp.1, hp.2⟩
  disturb s roles h d s' _ hn hd := hn.cons rfl fun _ hp => hp.disturb hd

theorem named_reachable {w : Point} (hw : (system L operationId).Reachable Folder.fresh w) :
    Named operationId w.shared w.history := by
  rcases run_with (preserves_named L operationId) (fun x hx => by cases hx) hw with ⟨_, _, _, hn⟩
  exact hn

/-- The two files on disk are about this approval. -/
def SettledOn (digest : Str) (s : Folder) : Prop :=
  ∃ v b, (s.files .journal).bind loadsBytes = some v ∧
    (s.files .approval).bind loadsBytes = some b ∧
    ((v.get "outcome").get "body").get "approval_sha256" = .str digest ∧
    (v.get "authorization").get "approval_sha256" = .str digest ∧
    b.get "approval_sha256" = .str digest

theorem Pinned.settledOn (h : Pinned operationId digest s) : SettledOn digest s := by
  rcases h with ⟨⟨v, d, hdisk, hr, hb⟩, hbinding⟩
  have hd := hb.unique hbinding
  rw [hd] at hr
  rcases hdisk.file with ⟨data, hdata, hw⟩
  rcases hbinding with ⟨bdata, b, hbdata, hbw, hbo, hbwf, hbd⟩
  refine ⟨v, b, ?_, ?_, hr.body, hr.authorization, hbd⟩
  · rw [hdata, Option.bind_some]
    exact loads_writes hw hdisk.journal.isObj hdisk.journal.wellFormed
  · rw [hbdata, Option.bind_some]
    exact loads_writes hbw hbo hbwf

/-- However often reviews were continued: all claims and reports name one approval, which is
    the one in the journal and the one on disk. -/
theorem one_approval {w : Point} {x : Happening} {v : Json}
    (hw : (system L operationId).Reachable Folder.fresh w) (hx : x ∈ w.history)
    (hv : approvalNamed x = some v) : ∃ digest, v = .str digest ∧ SettledOn digest w.shared ∧
      ∀ y ∈ w.history, ∀ u, approvalNamed y = some u → u = .str digest := by
  have hnamed := named_reachable hw
  rcases hnamed x hx v hv with ⟨d, hd, hpinned⟩
  refine ⟨d, hd, hpinned.settledOn, ?_⟩
  intro y hy u hu
  rcases hnamed y hy u hu with ⟨d', hd', hpinned'⟩
  rw [hd', hpinned'.2.unique hpinned.2]

/-! ### The sample -/

/-- The receipt of a decision to approve the sample. -/
def sampleReceipt (tag : Str) : Json :=
  .ofList [("receipt_id", .str (lit "rcp_1")), ("decision", .str (lit "allow")),
    ("action", .str (lit "pay")), ("authorization_id", .str (lit "auth_1")),
    ("context", .ofList [("execution", .ofList [("approval_sha256", .str (lit "sha256:" ++ tag))])])]

/-- The surroundings of a continuation that is approved. -/
def reviewedOutside (tag : Str) : Outlook :=
  sampleOutside (lit "receipt") tag
    { sampleResponse (lit "receipt") tag with decisionReceipt := .signed (sampleReceipt tag) }.toJson

/-- A review is continued twice. The first time the call is stopped when it has saved its
    approval. -/
def twiceScenario : List Move :=
  let mode := lit "receipt"
  [.begin (.execute sampleClient (sampleArgs mode)),
    .go 0 19 (sampleOutside mode [] sampleWaiting.toJson),
    .begin (.continuation sampleClient (sampleArgs mode)), .go 1 21 (reviewedOutside (lit "a1")),
    .crash 1,
    .begin (.continuation sampleClient (sampleArgs mode)), .go 2 31 (reviewedOutside (lit "a2"))]

def sampleEvidenceLibs : EvidenceLibs Unit :=
  { sampleLibs with verifyReceipt := fun receipt _ _ => .ok receipt }

/-- What a call is answered beside a folder that stays as it is. -/
def readReply (s : Folder) :
    (o : Op ⊕ EvidenceOp) → Except Fault (Sum.elim Op.Answer EvidenceOp.Answer o)
  | .inl (.read file maximum) =>
    match s.files file with
    | some content => .ok (content.take (maximum + 1))
    | none => .error ⟨.fileNotFound, fileNotFound_not_recovery⟩
  | .inl .resolve => .ok ()
  | .inl .makeTemporary => .ok ()
  | .inl (.writeTemporary _) => .ok ()
  | .inl .syncFolder => .ok ()
  | .inl .dropTemporary => .ok ()
  | .inr (.replacePackage _) => .ok ()
  | _ => .error ⟨.os, os_not_recovery⟩

/-- The run of a call that completes the evidence of the sample. -/
def sampleCompletion (s : Folder) :=
  traceOf (readReply s) (completeExecutionEvidence sampleEvidenceLibs [] (lit "ws_1"))

set_option maxRecDepth 20000 in
theorem twice_reached : ∃ w : Point, (system sampleLibs (lit "op_1")).Reachable Folder.fresh w ∧
    (∃ x ∈ w.history, ∃ v, approvalNamed x = some v) ∧
    (sampleCompletion w.shared).2.toOption.isSome = true := by
  have hcheck : (scenario sampleLibs (lit "op_1") twiceScenario).any (fun w =>
      w.history.any (fun x => (approvalNamed x).isSome) &&
        (sampleCompletion w.shared).2.toOption.isSome) = true := by
    decide +kernel
  rcases scenario_reachable hcheck with ⟨w, hw, hboth⟩
  rw [Bool.and_eq_true, List.any_eq_true] at hboth
  rcases hboth with ⟨⟨x, hx, hname⟩, hcompleted⟩
  exact ⟨w, hw, ⟨x, hx, Option.isSome_iff_exists.mp hname⟩, hcompleted⟩

theorem one_approval_sample : ∃ (w : Point) (v : Json) (digest : Str), v = .str digest ∧
    SettledOn digest w.shared ∧
    ∀ y ∈ w.history, ∀ u, approvalNamed y = some u → u = .str digest := by
  rcases twice_reached with ⟨w, hw, ⟨x, hx, v, hv⟩, _⟩
  exact ⟨w, v, one_approval hw hx hv⟩

/-! ### A call beside the others -/

/-- The operations of a call beside the others, with their answers. -/
abbrev EvidenceLog := Log (Op ⊕ EvidenceOp) (Sum.elim Op.Answer EvidenceOp.Answer) Fault

/-- What a call beside the others can be answered. -/
def answers (s : Folder) :
    (o : Op ⊕ EvidenceOp) → Except Fault (Sum.elim Op.Answer EvidenceOp.Answer o) → Prop
  | .inl o, r => (perform 0 0 o r s).isSome = true
  | .inr _, _ => True

/-- The operations that leave the folder as it is. -/
def Leaves : Op ⊕ EvidenceOp → Prop
  | .inl o => ∀ a n r s s', perform a n o r s = some s' → s' = s
  | .inr _ => True

/-- The package is not put in place. -/
def Unwritten : Op ⊕ EvidenceOp → Prop
  | .inr (.replacePackage _) => False
  | _ => True

theorem traces_within {A : Type} {p : Call A} {t : EvidenceLog} {a : A}
    (h : Traces (within p) t (.ok a)) : ∃ u : CallLog, t = u.map (fun e => ⟨.inl e.1, e.2⟩) ∧
      Traces p u (.ok a) := by
  induction p generalizing t with
  | ret b => exact ⟨[], h.1, rfl, h.2⟩
  | raise x => cases h.2
  | op o k ih =>
      rcases h with ⟨b, rest, rfl, hrest⟩
      rcases ih b hrest with ⟨u, rfl, hu⟩
      exact ⟨⟨o, b⟩ :: u, rfl, b, u, rfl, hu⟩

theorem uses_within {A : Type} {p : Call A} {allowed : Op ⊕ EvidenceOp → Prop}
    (h : Uses (fun o => allowed (.inl o)) p) : Uses allowed (within p) := by
  induction p with
  | ret a => exact trivial
  | raise x => exact trivial
  | op o k ih => exact ⟨h.1, fun r => ih r (h.2 r)⟩

theorem uses_readJson {allowed : Op → Prop} {file : File} {maximum : Nat}
    (h : allowed (.read file maximum)) : Uses allowed (readJson file maximum) := by
  refine uses_bind (uses_bind (uses_perform h) ?_) fun _ => uses_ofExcept _
  intro data
  split
  · exact trivial
  · exact trivial

/-- A file is read at once. -/
theorem readJson_trace {file : File} {maximum : Nat} {v : Json} {t : CallLog}
    (h : Traces (readJson file maximum) t (.ok v)) :
    ∃ data, t = [⟨.read file maximum, .ok data⟩] ∧ data.length ≤ maximum ∧
      loadsBytes data = some v := by
  rcases traces_bind_ok.mp h with ⟨data, t₁, t₂, hdata, hload, rfl⟩
  rcases traces_ofExcept.mp hload with ⟨rfl, hv⟩
  rcases traces_bind_ok.mp hdata with ⟨read, t₃, t₄, hask, hrest, rfl⟩
  split at hrest
  · cases hrest.2
  · next hlen =>
      cases hrest.2
      refine ⟨data, ?_, Nat.le_of_not_lt hlen, loadJson_eq_ok.mp hv.symm⟩
      rw [ask_ok hask, hrest.1]
      rfl

theorem uses_obtainReceipt {allowed : Op ⊕ EvidenceOp → Prop} (h : ∀ id, allowed (.inr (.fetch id)))
    (envelope : Json) : Uses allowed (obtainReceipt L envelope) := by
  refine uses_bind (uses_ofExcept _) fun status => ?_
  split
  · exact uses_ofExcept _
  · refine uses_bind (uses_ofExcept _) fun _ => uses_bind (uses_ofExcept _) fun id => ?_
    refine uses_bind (uses_perform (h id)) fun run => ?_
    split
    · exact uses_ofExcept _
    · exact trivial

variable {K : Type} {E : EvidenceLibs K} {publicKeys : List K} {expected : Str}

theorem leaves_quiet {o : Op} (h : ∀ (a n : Nat) (r : Except Fault o.Answer) (s : Folder),
    perform a n o r s = some s) : Leaves (.inl o) := by
  intro a n r s s' hp
  rw [h, Option.some.injEq] at hp
  exact hp.symm

theorem leaves_read (file : File) (maximum : Nat) : Leaves (.inl (.read file maximum)) := by
  intro a n r s s' hp
  cases r with
  | ok data => exact (perform_read hp).1
  | error x =>
      simp only [perform, Option.some.injEq] at hp
      exact hp.symm

/-- The call writes nothing that the others know. -/
theorem uses_complete : Uses Leaves (completeExecutionEvidence E publicKeys expected) := by
  refine uses_bind (uses_within (uses_perform (leaves_quiet fun _ _ _ _ => rfl))) fun _ => ?_
  refine uses_bind (uses_within (uses_readJson (leaves_read _ _))) fun state => ?_
  refine uses_bind (uses_within (uses_readJson (leaves_read _ _))) fun binding => ?_
  refine uses_bind (uses_ofExcept _) fun envelope => ?_
  refine uses_bind (uses_obtainReceipt (fun _ => trivial) _) fun receipt => ?_
  refine uses_bind (uses_ofExcept _) fun claims => uses_bind (uses_ofExcept _) fun package => ?_
  refine uses_bind ?_ fun _ => trivial
  refine uses_bind (uses_within (uses_perform (leaves_quiet fun _ _ _ _ => rfl))) fun _ => ?_
  refine uses_always ?_ (uses_within (uses_perform (leaves_quiet fun _ _ _ _ => rfl)))
  refine uses_bind (uses_ofExcept _) fun data => ?_
  refine uses_bind (uses_within (uses_perform (leaves_quiet fun _ _ _ _ => rfl))) fun _ => ?_
  refine uses_bind (uses_perform trivial) fun _ => ?_
  exact uses_within (uses_perform (leaves_quiet fun _ _ _ _ => rfl))

/-! ### Packages -/

/-- What has been checked of an approval, a receipt, and its claims. -/
structure Linked (E : EvidenceLibs K) (publicKeys : List K) (expected : Str)
    (approval receipt claims : Json) (digest : Str) : Prop where
  hash : sealSha E.toLibs approval = .ok digest
  workspace : approval.get "workspace_id" = .str expected
  verified : E.verifyReceipt receipt publicKeys expected = .ok claims
  receipted : ((claims.get "context").get "execution").get "approval_sha256" = .str digest
  decision : claims.get "decision" = .str (lit "allow")
  action : pyEq (claims.get "action") (approval.get "action") = true
  authorization : pyEq (claims.get "authorization_id") (approval.get "authorization_id") = true

/-- What a package says. -/
structure Packs (package approval receipt : Json) (digest : Str) : Prop where
  approval : package.get "approval" = approval
  digest : package.get "approval_sha256" = .str digest
  receipt : package.get "decision_receipt" = receipt
  verified : package.get "decision_receipt_verified" = .bool true

/-- The receipt is in the journal, or was fetched under the ID that is there. -/
def Obtained (L : Libs) (state receipt : Json) : Prop :=
  let envelope := (state.get "authorization").get "decision_receipt"
  envelope.get "status" = .str (lit "signed") ∧ receipt = envelope.get "receipt" ∨
    ∃ receiptId, envelope.get "receipt_id" = .str receiptId ∧ Names L receipt receiptId

theorem subscript_eq_ok {value v : Json} {key : String} :
    subscript value key = .ok v ↔ value.isObj = true ∧ value.has key = true ∧ value.get key = v := by
  unfold subscript
  by_cases ho : value.isObj = true
  · by_cases hh : value.has key = true
    · simp [ho, hh]
    · simp [ho, hh]
  · simp [ho]

theorem get_of_getAttrOr {value v : Json} {key : String}
    (h : getAttrOr value key (.obj []) = .ok v) (k : String) : v.get k = (value.get key).get k := by
  rw [getAttrOr] at h
  split at h
  · next ho =>
      rw [Except.ok.injEq] at h
      rw [← h, getOr]
      split
      · rfl
      · next hh =>
          -- A member that is missing has no members either.
          cases value with
          | obj ms =>
              rw [Json.has, Bool.not_eq_true, Option.isSome_eq_false_iff,
                Option.isNone_iff_eq_none] at hh
              have hnull : (Json.obj ms).get key = .null := by rw [Json.get, hh, Option.getD_none]
              rw [hnull]
              rfl
          | _ => cases ho
  · cases h

theorem get_of_getAttr {value v : Json} {key : String} (h : getAttr value key = .ok v) :
    value.get key = v := by
  rw [getAttr] at h
  split at h
  · rw [Except.ok.injEq] at h
    exact h
  · cases h

theorem receiptBinds_linked {binding approval receipt claims : Json}
    (hv : E.verifyReceipt receipt publicKeys expected = .ok claims)
    (h : receiptBinds E.toLibs binding approval claims expected = .ok true) :
    ∃ digest, binding.get "approval_sha256" = .str digest ∧
      Linked E publicKeys expected approval receipt claims digest := by
  rcases bind_eq_ok.mp h with ⟨digest, hdigest, h⟩
  rcases bind_eq_ok.mp h with ⟨named, hnamed, h⟩
  split at h
  · cases h
  · next hsame =>
      rcases bind_eq_ok.mp h with ⟨workspace, hworkspace, h⟩
      split at h
      · cases h
      · next hexpected =>
          rcases bind_eq_ok.mp h with ⟨context, hcontext, h⟩
          rcases bind_eq_ok.mp h with ⟨execution, hexecution, h⟩
          rcases bind_eq_ok.mp h with ⟨receipted, hreceipted, h⟩
          rw [not_not] at hsame hexpected
          have hchecks := Except.ok.inj h
          simp only [Bool.and_eq_true, decide_eq_true_eq] at hchecks
          rcases hchecks with ⟨⟨⟨hreported, hdecision⟩, haction⟩, hauthorization⟩
          refine ⟨digest, ?_, hdigest, ?_, hv, ?_, hdecision, haction, hauthorization⟩
          · rw [(subscript_eq_ok.mp hnamed).2.2, hsame]
          · rw [get_of_getAttr hworkspace, hexpected]
          · rw [← get_of_getAttrOr hcontext, ← get_of_getAttrOr hexecution,
              get_of_getAttr hreceipted, hreported, hsame]

theorem lookup_foldl_other {k : Str} {bs : List (Str × Json)} (h : k ∉ bs.map Prod.fst)
    (ms : List (Str × Json)) :
    Json.lookup k (bs.foldl (fun ms m => Json.insert m.1 m.2 ms) ms) = Json.lookup k ms := by
  induction bs generalizing ms with
  | nil => rfl
  | cons b bs ih =>
      rw [List.map_cons, List.mem_cons, not_or] at h
      rw [List.foldl_cons, ih h.2, Json.lookup_insert_other h.1]

/-- Members that are put into an object can be found there. -/
theorem lookup_foldl_insert {k : Str} {v : Json} {bs : List (Str × Json)}
    (hnodup : (bs.map Prod.fst).Nodup) (h : Json.lookup k bs = some v) (ms : List (Str × Json)) :
    Json.lookup k (bs.foldl (fun ms m => Json.insert m.1 m.2 ms) ms) = some v := by
  induction bs generalizing ms with
  | nil => cases h
  | cons b bs ih =>
      rcases b with ⟨l, w⟩
      rw [List.map_cons, List.nodup_cons] at hnodup
      by_cases hk : k = l
      · rw [Json.lookup, if_pos hk, Option.some.injEq] at h
        rw [← h, hk, List.foldl_cons, lookup_foldl_other hnodup.1, Json.lookup_insert_self]
      · rw [Json.lookup, if_neg hk] at h
        exact ih hnodup.2 h _

theorem get_update_other {j : Json} {k : String} {cs : List (String × Json)}
    (h : k ∉ cs.map Prod.fst) : (j.update cs).get k = j.get k := by
  induction cs generalizing j with
  | nil => rfl
  | cons c cs ih =>
      rw [List.map_cons, List.mem_cons, not_or] at h
      exact (ih h.2).trans (Json.get_set_other h.1 _ _)

theorem evidencePackage_packs {binding approval receipt package : Json} {digest : Str}
    (hw : binding.WellFormed) (ha : subscript binding "approval" = .ok approval)
    (hd : binding.get "approval_sha256" = .str digest)
    (h : evidencePackage binding approval receipt = .ok package) :
    Packs package approval receipt digest := by
  rcases bind_eq_ok.mp h with ⟨mode, _, h⟩
  rw [← Except.ok.inj h]
  rcases subscript_eq_ok.mp ha with ⟨hobj, hhas, hget⟩
  cases binding with
  | obj bs =>
      simp only [Json.WellFormed] at hw
      have hbound : ∀ k v, Json.lookup (lit k) bs = some v → (Json.obj (bs.foldl
          (fun ms m => Json.insert m.1 m.2 ms)
          [(lit "profile", .str (lit "allowly.execution.customer_bundle.v1"))])).get k = v := by
        intro k v hv
        rw [Json.get, lookup_foldl_insert hw.1 hv]
        rfl
      have hfound : ∀ k, (Json.obj bs).has k = true →
          Json.lookup (lit k) bs = some ((Json.obj bs).get k) := fun k hk => lookup_of_has hk
      have hsha : (Json.obj bs).has "approval_sha256" = true := has_of_get hd (by simp)
      have hobj' : ∀ ms, (Json.obj ms).isObj = true := fun _ => rfl
      refine ⟨?_, ?_, ?_, ?_⟩
      · rw [get_update_other (by simp), Json.members, hbound "approval" _ (hfound _ hhas), hget]
      · rw [get_update_other (by simp), Json.members, hbound "approval_sha256" _ (hfound _ hsha), hd]
      · rw [Json.update, List.foldl_cons]
        refine (@get_update_other _ _ [_, _, _] (by simp)).trans ?_
        exact Json.get_set_self (hobj' _) _ _
      · rw [Json.update, List.foldl_cons, List.foldl_cons]
        refine (@get_update_other _ _ [_, _] (by simp)).trans ?_
        exact Json.get_set_self ((Json.isObj_set _ _ _).trans (hobj' _)) _ _
  | _ => cases hobj

/-- What is known of a package before it is written. -/
theorem linkedPackage_linked {binding claims receipt package : Json} (hw : binding.WellFormed)
    (hv : E.verifyReceipt receipt publicKeys expected = .ok claims)
    (h : linkedPackage E.toLibs binding claims receipt expected = .ok package) :
    ∃ approval digest, binding.get "approval" = approval ∧
      binding.get "approval_sha256" = .str digest ∧ Packs package approval receipt digest ∧
      Linked E publicKeys expected approval receipt claims digest := by
  rcases bind_eq_ok.mp h with ⟨approval, happroval, h⟩
  rcases bind_eq_ok.mp h with ⟨binds, hbinds, h⟩
  rcases of_ite_error h with ⟨htrue, h⟩
  rw [Bool.not_eq_false] at htrue
  rw [htrue] at hbinds
  rcases receiptBinds_linked hv hbinds with ⟨digest, hdigest, hlinked⟩
  exact ⟨approval, digest, (subscript_eq_ok.mp happroval).2.2, hdigest,
    evidencePackage_packs hw happroval hdigest h, hlinked⟩

theorem fetchSigned_names {receiptId : Str} {start : ℚ} {rounds : Nat → PollRound} {n : Nat}
    {receipt : Json} (h : (fetchSigned L receiptId 1 120 start rounds n).2 = some (.ok receipt)) :
    Names L receipt receiptId := by
  rcases (fetch_eq_some (by decide) (by decide)).mp h with hstop | ⟨_, herror⟩
  · rcases decided_of_run hstop with ⟨k, _, _, _, hverdict⟩
    cases houtcome : (rounds k).outcome with
    | ok envelope =>
        rw [houtcome] at hverdict
        cases envelope with
        | pending receiptId signAt url => cases hverdict
        | signed receipt' =>
            rcases signedReceipt_eq_ok.mp hverdict.symm with ⟨rfl, hnames⟩
            exact hnames
    | error x =>
        rw [houtcome] at hverdict
        cases hverdict
  · cases herror

theorem obtainReceipt_obtained {state envelope receipt : Json} {t : EvidenceLog}
    (he : savedEnvelope state = .ok envelope)
    (h : Traces (obtainReceipt L envelope) t (.ok receipt)) : Obtained L state receipt := by
  rcases bind_eq_ok.mp he with ⟨authorization, hauthorization, henvelope⟩
  have hself : (state.get "authorization").get "decision_receipt" = envelope := by
    rw [(subscript_eq_ok.mp hauthorization).2.2, (subscript_eq_ok.mp henvelope).2.2]
  rcases traces_ofExcept_bind_ok.mp h with ⟨status, hstatus, h⟩
  split at h
  · next hsigned =>
      refine Or.inl ⟨?_, ?_⟩
      · rw [hself, (subscript_eq_ok.mp hstatus).2.2, hsigned]
      · rw [hself, (subscript_eq_ok.mp (traces_ofExcept.mp h).2.symm).2.2]
  · rcases traces_ofExcept_bind_ok.mp h with ⟨id, hid, h⟩
    rcases traces_ofExcept_bind_ok.mp h with ⟨receiptId, htext, h⟩
    rcases traces_bind_ok.mp h with ⟨run, t₁, t₂, _, hresult, _⟩
    have hget : id = .str receiptId := by
      cases id with
      | str s =>
          rw [Except.ok.inj htext]
      | _ => cases htext
    refine Or.inr ⟨receiptId, ?_, ?_⟩
    · rw [hself, (subscript_eq_ok.mp hid).2.2, hget]
    · split at hresult
      · next result hfetched =>
          rw [← (traces_ofExcept.mp hresult).2] at hfetched
          exact fetchSigned_names hfetched
      · cases hresult.2

/-! ### Runs of the call -/

theorem uses_savePackage (package : Json) :
    Uses (fun o => ∀ data, o = .inr (.replacePackage data) → Writes data package)
      (savePackage package) := by
  have hinner : ∀ o : Op, Uses (fun o => ∀ data, o = .inr (.replacePackage data) →
      Writes data package) (within (ask o)) :=
    fun o => uses_within (uses_perform fun data h => by cases h)
  refine uses_bind (hinner _) fun _ => uses_always (uses_ofExcept_bind ?_) (hinner _)
  intro data hdata
  refine uses_bind (hinner _) fun _ => uses_bind (uses_perform ?_) fun _ => hinner _
  intro data' h
  cases h
  exact hdata

/-- A package that is written stands in the log. -/
theorem traces_savePackage {package : Json} {t : EvidenceLog}
    (h : Traces (savePackage package) t (.ok ())) :
    ∃ data, Writes data package ∧ ⟨.inr (.replacePackage data), .ok ()⟩ ∈ t := by
  rcases traces_bind_ok.mp h with ⟨_, t₁, t₂, _, h₂, rfl⟩
  rcases traces_bind_ok.mp h₂ with ⟨s, t₃, t₄, hattempt, h₄, rfl⟩
  rcases traces_bind_ok.mp h₄ with ⟨_, t₅, t₆, _, hs, rfl⟩
  rcases traces_attempt.mp hattempt with ⟨s', hs', hbody⟩
  cases hs'
  rw [← (traces_ofExcept.mp hs).2] at hbody
  rcases traces_ofExcept_bind_ok.mp hbody with ⟨data, hdata, h₇⟩
  rcases traces_bind_ok.mp h₇ with ⟨_, t₈, t₉, _, h₉, rfl⟩
  rcases traces_bind_ok.mp h₉ with ⟨_, t₁₀, t₁₁, hreplace, _, rfl⟩
  rcases traces_perform.mp hreplace with ⟨b, rfl, hb⟩
  refine ⟨data, hdata, ?_⟩
  cases b with
  | ok u =>
      refine List.mem_append_right _ (List.mem_append_left _ (List.mem_append_right _
        (List.mem_append_left _ ?_)))
      exact List.mem_cons_self
  | error x => cases hb

/-- What a call that puts a package in place has done before. -/
theorem complete_writes {t : EvidenceLog} {r : Except Exc Json} {data : Bytes}
    {b : Except Fault Unit} (h : Traces (completeExecutionEvidence E publicKeys expected) t r)
    (he : ⟨.inr (.replacePackage data), b⟩ ∈ t) :
    ∃ x journal approval rest state binding receipt claims package,
      t = ⟨.inl .resolve, x⟩ :: ⟨.inl (.read .journal readLimit), .ok journal⟩ ::
        ⟨.inl (.read .approval readLimit), .ok approval⟩ :: rest ∧
      Reads journal state ∧ Reads approval binding ∧ Obtained E.toLibs state receipt ∧
      E.verifyReceipt receipt publicKeys expected = .ok claims ∧
      linkedPackage E.toLibs binding claims receipt expected = .ok package ∧
      Writes data package := by
  have hread : ∀ file maximum, Uses Unwritten (within (readJson file maximum)) :=
    fun file maximum => uses_within (uses_readJson trivial)
  have hresolve : Uses Unwritten (within (ask .resolve)) := uses_within (uses_perform trivial)
  have hreceipt : ∀ envelope, Uses Unwritten (obtainReceipt E.toLibs envelope) :=
    uses_obtainReceipt fun _ => trivial
  rcases traces_bind_mem hresolve h he id with ⟨_, t₁, t₂, h₁, h₂, rfl, he₂⟩
  rcases traces_bind_mem (hread _ _) h₂ he₂ id with ⟨state, t₃, t₄, h₃, h₄, rfl, he₄⟩
  rcases traces_bind_mem (hread _ _) h₄ he₄ id with ⟨binding, t₅, t₆, h₅, h₆, rfl, he₆⟩
  rcases traces_ofExcept_bind_mem h₆ he₆ with ⟨envelope, henvelope, h₇⟩
  rcases traces_bind_mem (hreceipt _) h₇ he₆ id with ⟨receipt, t₈, t₉, h₈, h₉, rfl, he₉⟩
  rcases traces_ofExcept_bind_mem h₉ he₉ with ⟨claims, hclaims, h₁₀⟩
  rcases traces_ofExcept_bind_mem h₁₀ he₉ with ⟨package, hpackage, h₁₁⟩
  have hwrites : Writes data package := by
    rcases traces_bind.mp h₁₁ with ⟨x, hx, _⟩ | ⟨_, u₁, u₂, hu₁, hu₂, hu⟩
    · exact uses_traces (uses_savePackage package) hx _ he₉ data rfl
    · rw [hu, hu₂.1, List.append_nil] at he₉
      exact uses_traces (uses_savePackage package) hu₁ _ he₉ data rfl
  rcases traces_within h₁ with ⟨u₁, rfl, hu₁⟩
  rcases traces_within h₃ with ⟨u₃, rfl, hu₃⟩
  rcases traces_within h₅ with ⟨u₅, rfl, hu₅⟩
  rcases readJson_trace hu₃ with ⟨journal, rfl, hjournal, hstate⟩
  rcases readJson_trace hu₅ with ⟨approval, rfl, happroval, hbinding⟩
  rw [ask_ok hu₁]
  exact ⟨_, journal, approval, _, state, binding, receipt, claims, package, rfl, ⟨hjournal, hstate⟩,
    ⟨happroval, hbinding⟩, obtainReceipt_obtained henvelope h₈, hclaims, hpackage, hwrites⟩

/-- A file that a call beside the others has read as a whole. -/
theorem answers_read {file : File} {data : Bytes} {v : Json}
    (h : answers s (.inl (.read file readLimit)) (.ok data)) (hr : Reads data v) :
    s.files file = some data := by
  rcases Option.isSome_iff_exists.mp h with ⟨s', hs'⟩
  rcases perform_read hs' with ⟨_, content, hcontent, hdata⟩
  have hlen := hr.1
  rw [hdata, List.length_take] at hlen
  rw [hcontent, hdata, List.take_of_length_le (by omega)]

/-- The package is about the approval that was claimed, if the journal that was read says that
    one was, and it does say so if one had been claimed before. -/
structure Concerns (w w' : Point) (state : Json) (digest : Str) : Prop where
  outcome : (state.get "outcome").isObj = true →
    ((state.get "outcome").get "body").get "approval_sha256" = .str digest ∧
      ∀ x ∈ w'.history, ∀ v, approvalNamed x = some v → v = .str digest
  claimed : ∀ x ∈ w.history, approvalNamed x ≠ none → (state.get "outcome").isObj = true

/-- The journal at one point of a run, the approval at a later one. -/
theorem concerns_of_reads {w v u w' : Point} {jdata bdata : Bytes} {state binding : Json}
    (hw : (system L operationId).Reachable Folder.fresh w)
    (hv : (system L operationId).Beside answers w [] v)
    (hu : (system L operationId).Beside answers v [] u) {t : EvidenceLog}
    (hw' : (system L operationId).Beside answers u t w')
    (hjournal : v.shared.files .journal = some jdata) (hstate : Reads jdata state)
    (happroval : u.shared.files .approval = some bdata) (hbinding : Reads bdata binding)
    (hd : binding.get "approval_sha256" = .str digest) : Concerns w w' state digest := by
  have hreachv := hv.reachable hw
  have hreachu := hu.reachable hreachv
  have hstays : ∀ d, ∀ x y a, (system L operationId).Reachable Folder.fresh x →
      (system L operationId).step x a = some y → Pinned operationId d x.shared →
      Pinned operationId d y.shared := fun d x y a hx hs hp => pinned_stays hx hs hp
  -- The journal that was read is the one on disk.
  have hself : ∀ {x : Json}, OnDisk operationId v.shared x → state = x :=
    fun hx => hx.reads hjournal hstate
  refine ⟨?_, ?_⟩
  · intro houtcome
    rcases run_reachable hreachv with ⟨_, _, hrun⟩
    have hnone : v.shared.files .journal ≠ none := by
      rw [hjournal]
      exact nofun
    have hposted : Posted operationId v.shared := by
      rcases hrun.invariant.sane.disk hnone with ⟨x, hx, hopen, _⟩ | ⟨hposted, _⟩
      · rw [hself hx, hopen] at houtcome
        cases houtcome
      · exact hposted
    rcases hposted with ⟨x, d, hx, hr, hb⟩
    have hpinned : Pinned operationId d v.shared := ⟨⟨x, d, hx, hr, hb⟩, hb⟩
    have hpinnedu := hu.lasts hreachv (hstays d) hpinned
    have hsame : d = digest := by
      rcases hpinnedu.2 with ⟨data, y, hdata, hwrites, hobj, hwf, hy⟩
      rw [happroval, Option.some.injEq] at hdata
      rw [← hdata] at hwrites
      rw [reads_writes hbinding hwrites hobj hwf, hy, Json.str.injEq] at hd
      exact hd
    rw [hsame] at hr hpinnedu
    refine ⟨?_, ?_⟩
    · rw [hself hx]
      exact hr.body
    · intro y hy z hz
      rcases named_reachable (hw'.reachable hreachu) y hy z hz with ⟨d', hd', hpinned'⟩
      have hlast := hw'.lasts hreachu (hstays digest) hpinnedu
      rw [hd', hpinned'.2.unique hlast.2]
  · intro x hx hname
    rcases Option.ne_none_iff_exists'.mp hname with ⟨y, hy⟩
    rcases named_reachable hw x hx y hy with ⟨d, _, hpinned⟩
    rcases (hv.lasts hw (hstays d) hpinned).1 with ⟨z, _, hz, hr, _⟩
    rw [hself hz]
    exact hr.outcome

theorem answers_readReply (s : Folder) (o : Op ⊕ EvidenceOp) : answers s o (readReply s o) := by
  cases o with
  | inr o => exact trivial
  | inl o =>
      cases o with
      | read file maximum =>
          cases hfile : s.files file with
          | none => simp [answers, readReply, perform, hfile]
          | some content => simp [answers, readReply, perform, hfile]
      | _ => rfl

end Allowly

import Allowly.Base.JsonChars
import Allowly.Theory.Continuation
import Allowly.Theory.Reparse
import Allowly.Theory.Scenario

/-!
# A Review Can Always Be Continued

A journal that waits is read by a call that may be made by another process, days later. All
that is left of the first call is the file. It is enough: the call that has the same request
goes on, with the review that the runtime asked for, and no other call does.

`Reopens` is what a journal holds for the next call. It is kept by every program that writes
the journal, so a call that was killed in between does not matter.

## Main definitions

* `Reviewed`: The runtime asked for the review of an intent.
* `Reopens`: What a journal that can be continued holds.

## Theorems

* `preserves_reopens`: The journal on disk holds it.
* `review_reopens`: It is continued by the requests with the digest of the original one.
-/

namespace Allowly

open Py Interleave

variable {L : Libs} {operationId : Str} {s s' : Folder} {root : Nat} {h : List Happening}

/-! ### What the journal holds -/

/-- The runtime has answered that it waits for the review of the intent. -/
def Reviewed (L : Libs) (h : List Happening) (i : Intent) : Prop :=
  ∃ root j r review, Answered L root j r h ∧ r.status = .waitingForReview ∧
    r.review = some review ∧ i.reviewId = review.id ∧ i.sourceReceiptId = review.sourceReceiptId

/-- What a journal holds for the next call. -/
structure Reopens (L : Libs) (h : List Happening) (v : Json) : Prop where
  waiting : v.get "phase" = .str (lit "waiting_for_review") → ∃ root j r, Answered L root j r h ∧
    r.status = .waitingForReview ∧ v.get "authorization" = journalAuthorization r
  continuing : v.get "phase" = .str (lit "continuing") → ∃ i, savedIntent v = .ok i
  reviewed : ∀ i, savedIntent v = .ok i → Reviewed L h i

theorem Reviewed.mono {i : Intent} {x : Happening} (hr : Reviewed L h i) :
    Reviewed L (x :: h) i := by
  rcases hr with ⟨root, j, r, review, ha, hr⟩
  exact ⟨root, j, r, review, ha.mono, hr⟩

theorem Reopens.mono {v : Json} {x : Happening} (hv : Reopens L h v) : Reopens L (x :: h) v where
  waiting hp := by
    rcases hv.waiting hp with ⟨root, j, r, ha, hr⟩
    exact ⟨root, j, r, ha.mono, hr⟩
  continuing := hv.continuing
  reviewed i hi := (hv.reviewed i hi).mono

theorem Answered.sound {j : Job} {r : ExecutionResponse} (ha : Answered L root j r h) :
    r.Sound L := by
  rcases ha with ⟨resp, _, sensitive, raw, _, hparse, _⟩
  exact sound_of_parse hparse

/-- A response that waits has a review, which is sound. -/
theorem ExecutionResponse.Sound.reviewed {r : ExecutionResponse} (h : r.Sound L)
    (hw : r.status = .waitingForReview) : ∃ review, r.review = some review ∧ review.Sound := by
  have hbinding := h.waiting hw
  cases hr : r.review with
  | none =>
      rw [hr] at hbinding
      cases hbinding
  | some review => exact ⟨review, rfl, h.review review hr⟩

/-- What a waiting journal keeps is parsed as the response of the runtime. -/
theorem withIntent_waiting {v : Json} {r : ExecutionResponse} {review : ExecutionReview}
    (hp : v.get "phase" = .str (lit "waiting_for_review")) (hs : r.Sound L)
    (hw : r.status = .waitingForReview) (hr : r.review = some review)
    (ha : v.get "authorization" = journalAuthorization r) :
    withIntent L operationId v =
      (continuationKey operationId review.id review.sourceReceiptId).map fun key =>
        v.set "continuation" (Intent.toJson ⟨review.id, review.sourceReceiptId, key⟩) := by
  have hparse := parse_journalAuthorization hs
  rw [if_pos hw] at hparse
  rw [withIntent, if_pos hp, ha, hparse]
  simp only [bind, Except.bind, hr]
  rw [if_neg (not_not.mpr hw)]
  cases continuationKey operationId review.id review.sourceReceiptId with
  | ok key => rfl
  | error x => rfl

/-! ### The key -/

/-- What was written is a text that has a UTF-8 form. -/
theorem Writes.encodes {data : Bytes} {v : Json} (hw : Writes data v) : v.Encodes := by
  rcases hw.text with ⟨t, ht, hd⟩
  exact ⟨t, ht, encode_eq_some_iff.mp ⟨data, hd⟩⟩

theorem jsonBytes_ok {v : Json} (hv : v.Encodes) : ∃ data, jsonBytes v = .ok data := by
  rcases hv with ⟨t, ht, he⟩
  rcases encode_eq_some_iff.mpr he with ⟨data, hd⟩
  refine ⟨data, ?_⟩
  rw [jsonBytes, ht, Option.bind_some, hd]

theorem continuationKey_ok {reviewId sourceReceiptId : Str} (ho : Py.Encodes operationId)
    (hr : Py.Encodes reviewId) (hs : Py.Encodes sourceReceiptId) :
    ∃ key, continuationKey operationId reviewId sourceReceiptId = .ok key ∧ key ≠ [] := by
  have htexts : (Json.arr ([operationId, reviewId, sourceReceiptId].map .str)).Encodes := by
    refine Json.encodes_texts ?_
    simp [ho, hr, hs]
  rcases jsonBytes_ok htexts with ⟨data, hdata⟩
  refine ⟨lit "continue:" ++ hexdigest data, bind_eq_ok.mpr ⟨data, hdata, rfl⟩, ?_⟩
  exact List.append_ne_nil_of_left_ne_nil (by decide) _

/-- An intent with three texts is one that a journal can hold. -/
theorem savedIntent_toJson {v : Json} {i : Intent} (ho : v.isObj = true) (hr : i.reviewId ≠ [])
    (hs : i.sourceReceiptId ≠ []) (hk : i.idempotencyKey ≠ []) :
    savedIntent (v.set "continuation" i.toJson) = .ok i := by
  rw [savedIntent, Json.get_set_self ho]
  simp only [Intent.toJson, Json.ofList, Json.lookup, List.map_cons, List.map_nil, if_true,
    lit_inj, String.reduceEq, if_false, List.length_cons, List.length_nil]
  rw [if_pos ⟨trivial, hr, hs, hk⟩]

theorem ExecutionReview.Sound.id_ne_nil {review : ExecutionReview} (h : review.Sound) :
    review.id ≠ [] ∧ review.sourceReceiptId ≠ [] := by
  refine ⟨?_, fun hs => h (Or.inr hs)⟩
  intro hid
  refine h (Or.inl ?_)
  rw [hid]
  cases review.kind with
  | confirm => rfl
  | escalate => rfl

/-- The members of a review that a journal keeps have UTF-8 forms. -/
theorem encodes_review {data : Bytes} {v : Json} {r : ExecutionResponse}
    {review : ExecutionReview} (hw : Writes data v)
    (ha : v.get "authorization" = journalAuthorization r) (hr : r.review = some review) :
    Py.Encodes review.id ∧ Py.Encodes review.sourceReceiptId := by
  have hget : (journalAuthorization r).get "review" = review.toJson := by
    have htoJson : r.toJson.get "review" = review.toJson := by
      simp [ExecutionResponse.toJson, Json.ofList, Json.get, Json.lookup, hr, Json.ofOption]
    unfold journalAuthorization
    split
    · rw [Json.get_set_other (by decide)]
      exact htoJson
    · exact htoJson
  have hreview := (hw.encodes.get "authorization").get "review"
  rw [ha, hget] at hreview
  have hid : review.toJson.get "id" = .str review.id := rfl
  have hsource : review.toJson.get "source_receipt_id" = .str review.sourceReceiptId := rfl
  refine ⟨Json.encodes_str.mp ?_, Json.encodes_str.mp ?_⟩
  · rw [← hid]
    exact hreview.get "id"
  · rw [← hsource]
    exact hreview.get "source_receipt_id"

/-- A journal that can be continued has an intent for the next call. -/
theorem intent_of_reopens {v : Json} (hv : OnDisk operationId s v) (hr : Reopens L h v)
    (hwait : Waiting v) : ∃ u i, withIntent L operationId v = .ok u ∧ savedIntent u = .ok i ∧
      Reviewed L h i := by
  rcases hv.file with ⟨data, _, hw⟩
  rcases hwait with hp | hp
  · rcases hr.waiting hp with ⟨root, j, r, ha, hwaiting, hauth⟩
    rcases ha.sound.reviewed hwaiting with ⟨review, hreview, hsound⟩
    rcases encodes_review hw hauth hreview with ⟨hid, hsource⟩
    have ho : Py.Encodes operationId := by
      have hget := hw.encodes.get "operation_id"
      rw [hv.journal.id] at hget
      exact Json.encodes_str.mp hget
    rcases continuationKey_ok ho hid hsource with ⟨key, hkey, hne⟩
    refine ⟨v.set "continuation" (Intent.toJson ⟨review.id, review.sourceReceiptId, key⟩),
      ⟨review.id, review.sourceReceiptId, key⟩, ?_, ?_, ?_⟩
    · rw [withIntent_waiting hp ha.sound hwaiting hreview hauth, hkey]
      rfl
    · exact savedIntent_toJson hv.journal.isObj hsound.id_ne_nil.1 hsound.id_ne_nil.2 hne
    · exact ⟨root, j, r, review, ha, hwaiting, hreview, rfl, rfl⟩
  · rcases hr.continuing hp with ⟨i, hi⟩
    refine ⟨v, i, ?_, hi, hr.reviewed i hi⟩
    rw [withIntent, if_neg]
    rw [hp, Json.str.injEq, lit_inj]
    decide

/-! ### The call that goes on -/

theorem continuedTimestamp_ok {v : Json} {t : Str} (hj : Journal operationId v)
    (hwait : Waiting v) (ht : v.get "client_timestamp" = .str t) :
    continuedTimestamp v operationId = .ok (some t) := by
  have hversion : getAttr v "version" = .ok (.int 2) := by
    rw [getAttr, if_pos hj.isObj, hj.version]
  have hknown : continuable (v.get "phase") = .ok true := by
    rcases hwait with hp | hp
    · rw [hp]
      rfl
    · rw [hp]
      rfl
  refine bind_eq_ok.mpr ⟨.int 2, hversion, ?_⟩
  rw [if_neg (by decide), if_neg (not_not.mpr hj.id)]
  refine bind_eq_ok.mpr ⟨true, hknown, ?_⟩
  rw [if_neg (by decide), ht]
  rfl

/-- A journal is continued by the requests that have its digest at its time, and by no other. -/
theorem resume_eq_ok {a : Args} {requested : Requested} {v u : Json} {t d : Str} {i : Intent}
    {out : Requested × Intent × Json} (hj : Journal a.operationId v) (hwait : Waiting v)
    (ht : v.get "client_timestamp" = .str t) (hd : v.get "request_sha256" = .str d)
    (hu : withIntent L a.operationId v = .ok u) (hi : savedIntent u = .ok i) :
    resume L a requested v = .ok out ↔ sealSha L (dated requested t) = .ok d ∧
      out = ({ requested with clientTimestamp := some t }, i,
        u.set "phase" (.str (lit "continuing"))) := by
  have hc := continuedTimestamp_ok hj hwait ht
  constructor
  · intro h
    rcases bind_eq_ok.mp h with ⟨found, hfound, h⟩
    rw [hc, Except.ok.injEq] at hfound
    rw [← hfound] at h
    rcases bind_eq_ok.mp h with ⟨digest, hdigest, h⟩
    rcases of_ite_error h with ⟨hsame, h⟩
    rw [not_not, hd, Json.str.injEq] at hsame
    rcases bind_eq_ok.mp h with ⟨u', hu', h⟩
    rcases bind_eq_ok.mp h with ⟨i', hi', h⟩
    rw [hu, Except.ok.injEq] at hu'
    rw [← hu', hi, Except.ok.injEq] at hi'
    rw [← hu', ← hi'] at h
    cases h
    refine ⟨?_, rfl⟩
    rw [hsame]
    exact hdigest
  · intro h
    rcases h with ⟨hdigest, rfl⟩
    refine bind_eq_ok.mpr ⟨some t, hc, ?_⟩
    refine bind_eq_ok.mpr ⟨d, hdigest, ?_⟩
    rw [if_neg (not_not.mpr hd)]
    refine bind_eq_ok.mpr ⟨u, hu, ?_⟩
    exact bind_eq_ok.mpr ⟨i, hi, rfl⟩

/-! ### What is kept -/

/-- The journal on disk holds what the next call needs, as long as nothing was claimed. -/
def Reopenable (L : Libs) (operationId : Str) (s : Folder) (h : List Happening) : Prop :=
  ∀ v, OnDisk operationId s v → Open v → Reopens L h v

/-- What is resumed has the intent of the review. -/
theorem reviewed_of_resumes {j : Job} {v w : Json} {i : Intent} (ho : v.isObj = true)
    (hv : Reopens L h v) (hr : Resumes L j v w) (hi : savedIntent w = .ok i) :
    Reviewed L h i := by
  rcases hr with ⟨t, digest, i', u, _, _, _, _, hu, _, _, rfl⟩
  rw [savedIntent_congr (Json.get_set_other (by decide) _ _)] at hi
  by_cases hp : v.get "phase" = .str (lit "waiting_for_review")
  · rcases hv.waiting hp with ⟨root, j', r, ha, hwaiting, hauth⟩
    rcases ha.sound.reviewed hwaiting with ⟨review, hreview, _⟩
    rw [withIntent_waiting hp ha.sound hwaiting hreview hauth] at hu
    rcases map_eq_ok.mp hu with ⟨key, _, rfl⟩
    rw [savedIntent_set ho hi]
    exact ⟨root, j', r, review, ha, hwaiting, hreview, rfl, rfl⟩
  · rw [withIntent, if_neg hp, Except.ok.injEq] at hu
    rw [← hu] at hi
    exact hv.reviewed i hi

/-- A journal that is to be replaced is one that can be continued. -/
def Stage.Resumes (L : Libs) : Stage → Prop
  | resumed j v w => Allowly.Resumes L j v w
  | _ => True

theorem resumes_step {q q' : Stage} {o : Op} {r : Except Fault o.Answer} (he : Edge L q o r q')
    (hq : q.Resumes L) : q'.Resumes L := by
  cases he with
  | quiet q o r h => exact hq
  | failed q o x h => exact hq
  | unlockIdle q h => exact hq
  | resume c j data v w hb hr hv => exact hv
  | _ => exact trivial

theorem trail_resumes (L : Libs) (operationId : Str) :
    Trail (system L operationId) (Edge L) firstStage (Run L operationId)
      (fun _ _ q _ => q.Resumes L) where
  mono a root q e h hq := hq
  start n h c hc := by
    cases c with
    | _ => exact trivial
  act s roles n h a root q o r s' q' hrun ha hq he hp := resumes_step he hq
  spawn s roles n h a root q o r s' q' c hrun ha hq he hp hs := by
    rcases edge_spawns he hs with ⟨e, v, resp, thread, _, _, _, _, rfl, _⟩
    exact trivial

/-- The answer of the runtime is kept with the review, and the intent stays. -/
theorem reopens_answered {j : Job} {v : Json} {r : ExecutionResponse} (ho : v.isObj = true)
    (hj : ∀ i, j.intent = some i → savedIntent v = .ok i) (ha : Answered L root j r h)
    (hv : Reopens L h v) : Reopens L h (answeredState v j.approvedPhase r) := by
  have hphase := @answered_phase v j.approvedPhase r ho
  have hintent := savedIntent_congr
    (@answered_other v j.approvedPhase r "continuation" (by decide) (by decide))
  refine ⟨?_, ?_, ?_⟩
  · intro hp
    refine ⟨root, j, r, ha, ?_, answered_authorization ho⟩
    rw [hp, Json.str.injEq, lit_inj] at hphase
    by_contra hne
    rw [if_neg hne, Job.approvedPhase] at hphase
    split_ifs at hphase
    · split at hphase
      · exact absurd hphase (by decide)
      · exact absurd hphase (by decide)
    · exact absurd hphase (by decide)
  · intro hp
    rw [hp, Json.str.injEq, lit_inj] at hphase
    cases hi : j.intent with
    | none =>
        rw [Job.approvedPhase, hi] at hphase
        split_ifs at hphase
        · exact absurd hphase (by decide)
        · exact absurd hphase (by decide)
        · exact absurd hphase (by decide)
    | some i => exact ⟨i, hintent.trans (hj i hi)⟩
  · intro i hi
    rw [hintent] at hi
    exact hv.reviewed i hi

/-- Whatever is saved holds what the next call needs. -/
theorem reopens_saved {q q' : Stage} {w : Json} {data : Bytes} {n a : Nat}
    (hs : Saves L q w q') (hw : Writes data w) (hv : q.hold.Valid operationId s n a)
    (hf : q.Facts L operationId) (hq : q.Resumes L) (hr : Remembers L operationId a root q h)
    (hopen : Reopenable L operationId s h) (ho : Open w) : Reopens L h w := by
  have hreported : ∀ {d : Str}, Reported operationId d w → Reopens L h w := by
    intro d hrep
    rw [Open, hrep.outcome] at ho
    cases ho
  have hfacts := hs.facts hw hv hf
  cases hs with
  | prepare j digest timestamp hd ht =>
      have hphase : (preparedState j.args.operationId digest timestamp).get "phase" =
          .str (lit "prepared") := rfl
      have hnone : (preparedState j.args.operationId digest timestamp).get "continuation" =
          .null := rfl
      refine ⟨?_, ?_, ?_⟩
      · intro hp
        rw [hphase, Json.str.injEq, lit_inj] at hp
        exact absurd hp (by decide)
      · intro hp
        rw [hphase, Json.str.injEq, lit_inj] at hp
        exact absurd hp (by decide)
      · intro i hi
        rw [savedIntent, hnone] at hi
        cases hi
  | rewrite j v w =>
      have hold := hopen v hv.2.1 hv.2.2.1
      refine ⟨?_, ?_, ?_⟩
      · intro hp
        rcases hq with ⟨t, digest, i, u, _, _, _, _, hu, _, _, rfl⟩
        rw [Json.get_set_self] at hp
        · rw [Json.str.injEq, lit_inj] at hp
          exact absurd hp (by decide)
        · rw [hf.2.id] at hu
          exact (journal_withIntent hv.2.1.journal hu).1.isObj
      · intro _
        rcases hf.1.intent with ⟨i, _, hi⟩
        exact ⟨i, hi⟩
      · intro i hi
        exact reviewed_of_resumes hv.2.1.journal.isObj hold hq hi
  | record j v resp r ha =>
      exact reopens_answered hv.2.1.journal.isObj hf.intent ⟨resp, hr.2, ha⟩
        (hopen v hv.2.1 hv.2.2.1)
  | attempt e v started =>
      rcases hfacts.1.2 with ⟨d, hrep, _⟩
      exact hreported hrep
  | settle q e v w hl hset =>
      rcases hfacts.1.2 with ⟨d, hrep, _⟩
      exact hreported hrep
  | complete b v resp final hp =>
      rcases hp with ⟨sensitive, raw, hraw, hparse⟩
      rcases hv.2 with ⟨d, hrep, _⟩
      exact hreported (reported_complete hrep
        (wellFormed_toJson (wellFormed_readResponse hraw) hparse))

/-- A journal that was not touched holds what it held. -/
theorem Reopenable.congr {h' : List Happening} (hr : Reopenable L operationId s h)
    (hj : s'.files .journal = s.files .journal)
    (hh : ∀ v, Reopens L h v → Reopens L h' v) : Reopenable L operationId s' h' := by
  intro v hv ho
  refine hh v (hr v ⟨?_, hv.journal⟩ ho)
  rw [← hj]
  exact hv.file

theorem reopenable_step {roles : Roles Stage} {q q' : Stage} {o : Op} {r : Except Fault o.Answer}
    {a b : Nat} (hrun : Run L operationId s roles h) (hq : q.Resumes L)
    (hr : Reopenable L operationId s h) (ha : roles a = some (root, q)) (he : Edge L q o r q')
    (hp : perform a b o r s = some s') : Reopenable L operationId s' (.did a root o r :: h) := by
  rcases hrun.invariant.valid a root q ha with ⟨hv, hf⟩
  have hmono : ∀ v, Reopens L h v → Reopens L (.did a root o r :: h) v := fun v hv => hv.mono
  cases edge_effect he hp with
  | same s' q q' hsame => exact hr.congr hsame.journal hmono
  | made c j _ => exact hr.congr rfl hmono
  | locked q q' _ => exact hr.congr rfl hmono
  | unlocked q q' => exact hr.congr rfl hmono
  | bound e v data _ => exact hr.congr (files_write_other (by decide) s _) hmono
  | saved q w q' data hsaves hw =>
      intro u hu ho
      have huw := hu.unique (onDisk_write hw (hsaves.journal hw hv hf))
      rw [huw] at ho ⊢
      exact (reopens_saved hsaves hw hv hf hq (hrun.memory a root q ha) hr ho).mono

theorem preserves_reopens (L : Libs) (operationId : Str) :
    Preserves (system L operationId) (Edge L) (Ends L) firstStage
      (fun s roles h => Run L operationId s roles h ∧
        ∀ a root q, roles a = some (root, q) → q.Resumes L)
      (fun s _ h => Reopenable L operationId s h) where
  start s roles n h c hK hr hn hc := hr.congr rfl fun v hv => hv.mono
  act s roles n h a root q o r s' q' hK hr ha hn he hp hs :=
    reopenable_step hK.1 (hK.2 a root q ha) hr ha he hp
  spawn s roles n h a root q o r s' q' c hK hr ha hn he hp hs :=
    (reopenable_step hK.1 (hK.2 a root q ha) hr ha he hp).congr rfl fun v hv => hv.mono
  finish s roles h a root q r hK hr ha hp := hr.congr rfl fun v hv => hv.mono
  crash s roles h a root q hK hr ha := hr.congr rfl fun v hv => hv.mono
  disturb s roles h d s' hK hr hd := by
    simp only [system] at hd
    split at hd
    · next hfile =>
        cases hd
        refine hr.congr (files_write_other ?_ s _) fun v hv => hv.mono
        intro hj
        rw [← hj] at hfile
        exact absurd hfile (by decide)
    · cases hd

/-! ### The next call -/

/-- A journal that waits is open, and the execution was asked for. -/
theorem Sane.waiting {data : Bytes} {v : Json} {n : Nat} (hs : Sane operationId s n)
    (hfile : s.files .journal = some data) (hr : Reads data v) (hw : Waiting v) :
    OnDisk operationId s v ∧ Open v ∧ n ≠ 0 := by
  rcases hs.disk (by rw [hfile]; exact nofun) with ⟨u, hu, hopen, hwait⟩ | ⟨hposted, _⟩
  · have huv := hu.reads hfile hr
    rw [← huv] at hu hopen hwait
    exact ⟨hu, hopen, fun hn => hwait hn hw⟩
  · rcases hposted with ⟨u, d, hu, hrep, _⟩
    rw [← hu.reads hfile hr] at hrep
    exact absurd hw hrep.phase.not_waiting

/-- Whenever the journal on disk waits for a review, or is being continued, the next call goes on
    exactly if its request has the digest of the original one. It goes on with a review that the
    runtime asked for, at the time of the original request. -/
theorem review_reopens {w : Point} {data : Bytes} {v : Json}
    (hw : (system L operationId).Reachable Folder.fresh w)
    (hfile : w.shared.files .journal = some data) (hread : Reads data v) (hwait : Waiting v) :
    ∃ t args base headers i u, Original L w.history t args base headers ∧
      Reviewed L w.history i ∧
      ∀ a requested out, a.operationId = operationId →
        (resume L a requested v = .ok out ↔ SameDigest L (dated base t) (dated requested t) ∧
          out = ({ requested with clientTimestamp := some t }, i, u)) := by
  have hdated := preserves_trail (Ends L) (trail_dated L operationId)
  have hrooted : Preserves (system L operationId) (Edge L) (Ends L) firstStage (Run L operationId)
      (RootedRun L operationId) := hdated.next (preserves_rooted L operationId)
  have hresumes := preserves_trail (Ends L) (trail_resumes L operationId)
  have hreopens := hresumes.next (preserves_reopens L operationId)
  rcases run_with (hrooted.both hreopens)
    ⟨⟨fun _ _ _ ha => (by cases ha), fun hn => absurd rfl hn⟩, fun _ _ _ ha => (by cases ha),
      fun _ hv _ => absurd rfl hv.some⟩ hw with ⟨roles, _, hrun, ⟨_, hroot⟩, _, hopen⟩
  rcases hrun.invariant.sane.waiting hfile hread hwait with ⟨hdisk, hv, hn⟩
  rcases hroot hn v hdisk hv with ⟨t, args, base, headers, d, horiginal, hd, hvd, hvt⟩
  rcases intent_of_reopens hdisk (hopen v hdisk hv) hwait with ⟨u, i, hu, hi, hreviewed⟩
  refine ⟨t, args, base, headers, i, u.set "phase" (.str (lit "continuing")), horiginal, hreviewed,
    ?_⟩
  intro a requested out ha
  have hj : Journal a.operationId v := ha ▸ hdisk.journal
  rw [resume_eq_ok hj hwait hvt hvd (ha ▸ hu) hi]
  refine and_congr_left fun _ => ⟨fun hsame => ⟨d, hd, hsame⟩, ?_⟩
  intro hsame
  rcases hsame with ⟨d', hd', hsame⟩
  rw [hd, Except.ok.injEq] at hd'
  rw [hd']
  exact hsame

/-- The sample waits for a review. -/
def waitingScenario : List Move :=
  [.begin (.execute sampleClient (sampleArgs (lit "receipt"))),
    .go 0 19 (sampleOutside (lit "receipt") [] sampleWaiting.toJson)]

/-- The request of the sample goes on with this journal. -/
def sampleResumed (v : Json) : Option (Requested × Intent × Json) :=
  (resume sampleLibs (sampleArgs (lit "receipt")) (sampleRequested (lit "receipt")) v).toOption

set_option maxRecDepth 20000 in
theorem waiting_reached : ∃ w : Point, (system sampleLibs (lit "op_1")).Reachable Folder.fresh w ∧
    ∃ data v out, w.shared.files .journal = some data ∧ Reads data v ∧
      v.get "phase" = .str (lit "waiting_for_review") ∧ sampleResumed v = some out := by
  have hcheck : (scenario sampleLibs (lit "op_1") waitingScenario).any (fun w =>
      (w.shared.files .journal).any fun data => decide (data.length ≤ readLimit) &&
        (loadsBytes data).any fun v =>
          decide (v.get "phase" = .str (lit "waiting_for_review")) &&
            (sampleResumed v).isSome) = true := by
    decide +kernel
  rcases scenario_reachable hcheck with ⟨w, hw, hcheck⟩
  rcases (Option.any_eq_true _ _).mp hcheck with ⟨data, hfile, hcheck⟩
  rw [Bool.and_eq_true, decide_eq_true_eq] at hcheck
  rcases (Option.any_eq_true _ _).mp hcheck.2 with ⟨v, hload, hv⟩
  rw [Bool.and_eq_true, decide_eq_true_eq] at hv
  rcases Option.isSome_iff_exists.mp hv.2 with ⟨out, hout⟩
  exact ⟨w, hw, data, v, out, hfile, ⟨hcheck.1, hload⟩, hv.1, hout⟩

theorem reopens_sample : ∃ (w : Point) (v u : Json) (t : Str) (i : Intent),
    Reviewed sampleLibs w.history i ∧
      sampleResumed v = some ({ sampleRequested (lit "receipt") with clientTimestamp := some t },
        i, u) := by
  rcases waiting_reached with ⟨w, hw, data, v, out, hfile, hread, hphase, hout⟩
  rcases review_reopens hw hfile hread (Or.inl hphase) with
    ⟨t, args, base, headers, i, u, _, hreviewed, hiff⟩
  rcases (hiff (sampleArgs (lit "receipt")) _ out rfl).mp (ok_of_toOption hout) with ⟨_, rfl⟩
  exact ⟨w, v, u, t, i, hreviewed, hout⟩

end Allowly

import Allowly.Theory.Once

/-!
# Continuing an Execution

A call that continues a review computes the digest of its own request, with the time the
journal has, and compares it with the digest in the journal. The journal has both from
the first call. So whatever the call sends, it matches the original request; and a call
that does not match gets no further than the journal it reads.

The journal also has the intent of the review, with a key computed from it.

## Main definitions

* `Normal`, `Original`: The normalised request of a call, and of the first one.
* `Matches`: The digests agree.
* `Rooted`: The journal has the digest and the time of the original request.
* `Continues`: A request to continue.

## Theorems

* `preserves_rooted`: The journal keeps them.
* `trail_waits`: A call waits, or matches.
* `continuation_events`: What follows for the events of a run.
-/

namespace Allowly

open Py Interleave

variable {L : Libs} {operationId : Str} {s s' : Folder} {root : Nat} {h : List Happening}

/-! ### Requests -/

/-- The body of a request at a time. -/
def dated (base : Requested) (t : Str) : Json :=
  Requested.toJson { base with clientTimestamp := some t }

/-- The call with this root has these arguments, which are normalised to this request. -/
def Normal (L : Libs) (root : Nat) (h : List Happening) (args : Args) (base : Requested)
    (headers : List (Str × Str)) : Prop :=
  (∃ c, .began root root c ∈ h ∧ c.args = some args) ∧
    httpExecutionRequest L args = .ok (base, headers)

/-- The execution was asked for with this request, at this time. -/
def Original (L : Libs) (h : List Happening) (t : Str) (args : Args) (base : Requested)
    (headers : List (Str × Str)) : Prop :=
  ∃ a root req r, .did a root (.http req) r ∈ h ∧ req.route = .execute ∧
    req.json = some (dated base t) ∧ Normal L root h args base headers

/-- Two requests have one digest. -/
def SameDigest (L : Libs) (v w : Json) : Prop := ∃ d, sealSha L v = .ok d ∧ sealSha L w = .ok d

/-- The request of the call has the digest of the original one. -/
def Matches (L : Libs) (root : Nat) (h : List Happening) : Prop :=
  ∃ t args₀ base₀ headers₀ args base headers, Original L h t args₀ base₀ headers₀ ∧
    Normal L root h args base headers ∧ SameDigest L (dated base₀ t) (dated base t)

theorem Normal.mono {args : Args} {base : Requested} {headers : List (Str × Str)} {x : Happening}
    (hn : Normal L root h args base headers) : Normal L root (x :: h) args base headers := by
  rcases hn with ⟨⟨c, hc, ha⟩, hn⟩
  exact ⟨⟨c, List.mem_cons_of_mem x hc, ha⟩, hn⟩

theorem Original.mono {t : Str} {args : Args} {base : Requested} {headers : List (Str × Str)}
    {x : Happening} (ho : Original L h t args base headers) :
    Original L (x :: h) t args base headers := by
  rcases ho with ⟨a, root, req, r, hd, hr, hj, hn⟩
  exact ⟨a, root, req, r, List.mem_cons_of_mem x hd, hr, hj, hn.mono⟩

theorem Matches.mono {x : Happening} (hm : Matches L root h) : Matches L root (x :: h) := by
  rcases hm with ⟨t, args₀, base₀, headers₀, args, base, headers, ho, hn, hd⟩
  exact ⟨t, args₀, base₀, headers₀, args, base, headers, ho.mono, hn.mono, hd⟩

/-- The job of a call is its normalised request at a time. -/
theorem Began.normal {j : Job} {t : Str} (hb : Began root j h) (hbuilt : j.Built L)
    (ht : j.requested.clientTimestamp = some t) :
    ∃ base, Normal L root h j.args base j.privateHeaders ∧ j.requested.toJson = dated base t := by
  rcases hbuilt with ⟨base, t', hbase, hreq⟩
  refine ⟨base, ⟨hb, hbase⟩, ?_⟩
  rw [hreq] at ht ⊢
  have ht : some t' = some t := ht
  rw [Option.some.injEq] at ht
  rw [ht]
  rfl

/-! ### The journal -/

/-- The journal names the time of the request. -/
def Dates (j : Job) (v : Json) : Prop :=
  ∃ t, j.requested.clientTimestamp = some t ∧ v.get "client_timestamp" = .str t

/-- What a stage with a journal to write knows of the time. -/
def Stage.Dated : Stage → Prop
  | saved j v => Dates j v
  | resumed j _ w => Dates j w
  | holding j v => Dates j v
  | _ => True

/-- The journal has the digest and the time of the original request. -/
def Holds (L : Libs) (h : List Happening) (v : Json) : Prop :=
  ∃ t args base headers d, Original L h t args base headers ∧ sealSha L (dated base t) = .ok d ∧
    v.get "request_sha256" = .str d ∧ v.get "client_timestamp" = .str t

theorem Holds.mono {v : Json} {x : Happening} (hv : Holds L h v) : Holds L (x :: h) v := by
  rcases hv with ⟨t, args, base, headers, d, ho, hd, h1, h2⟩
  exact ⟨t, args, base, headers, d, ho.mono, hd, h1, h2⟩

theorem Holds.congr {v w : Json} (hv : Holds L h v)
    (hd : w.get "request_sha256" = v.get "request_sha256")
    (ht : w.get "client_timestamp" = v.get "client_timestamp") : Holds L h w := by
  rcases hv with ⟨t, args, base, headers, d, ho, hs, h1, h2⟩
  exact ⟨t, args, base, headers, d, ho, hs, hd.trans h1, ht.trans h2⟩

/-- An open journal on disk has them, once the execution was asked for. -/
def Rooted (L : Libs) (operationId : Str) (s : Folder) (h : List Happening) : Prop :=
  h.countP executes ≠ 0 → ∀ v, OnDisk operationId s v → Open v → Holds L h v

theorem continuedTimestamp_get {v : Json} {t : Str}
    (hc : continuedTimestamp v operationId = .ok (some t)) : v.get "client_timestamp" = .str t := by
  unfold continuedTimestamp at hc
  rcases bind_eq_ok.mp hc with ⟨version, _, hk⟩
  split at hk
  · cases hk
  · split at hk
    · cases hk
    · rcases bind_eq_ok.mp hk with ⟨known, _, hk⟩
      split at hk
      · cases hk
      · have hk : (v.get "client_timestamp").asStr = some t := Except.ok.inj hk
        cases hget : v.get "client_timestamp" with
        | str x =>
            rw [hget, Json.asStr, Option.some.injEq] at hk
            rw [hk]
        | _ =>
            rw [hget] at hk
            cases hk

/-- The time goes with the journal. -/
theorem dated_step {q q' : Stage} {o : Op} {r : Except Fault o.Answer} (he : Edge L q o r q')
    (hf : q.Facts L operationId) (hd : q.Dated) : q'.Dated := by
  cases he with
  | quiet q o r hq => exact hd
  | failed q o x hq => exact hd
  | unlockIdle q hi => exact hd
  | prepare j data digest timestamp hseal ht hw =>
      refine ⟨timestamp, ht, ?_⟩
      simp [preparedState, Json.ofList, Json.get, Json.lookup]
  | lockPrepared j v => exact hd
  | resume c j data v w hb hr hv =>
      rcases hv with ⟨t, digest, i, u, hc, ht, _, _, hu, _, _, rfl⟩
      refine ⟨t, ht, ?_⟩
      rw [Json.get_set_other (by decide), ← continuedTimestamp_get hc]
      unfold withIntent at hu
      split at hu
      · rcases bind_eq_ok.mp hu with ⟨previous, _, hk⟩
        split at hk
        · split at hk
          · cases hk
          · rcases bind_eq_ok.mp hk with ⟨key, _, hk⟩
            cases hk
            exact Json.get_set_other (by decide) _ _
        · cases hk
      · cases hu
        rfl
  | rewrite j v w data hw => exact hd
  | _ => exact trivial

theorem trail_dated (L : Libs) (operationId : Str) :
    Trail (system L operationId) (Edge L) firstStage (Run L operationId)
      (fun _ _ q _ => q.Dated) where
  mono a root q e h hd := hd
  start n h c hc := by
    cases c with
    | _ => exact trivial
  act s roles n h a root q o r s' q' hrun ha hd he hp :=
    dated_step he (hrun.invariant.valid a root q ha).2 hd
  spawn s roles n h a root q o r s' q' c hrun ha hd he hp hs := by
    rcases edge_spawns he hs with ⟨e, v, resp, thread, _, _, _, _, rfl, _⟩
    exact trivial

/-- The first request makes the original. -/
theorem holds_executed {j : Job} {v : Json} {req : ApiRequest} {r : Except Fault ApiResponse}
    {a : Nat} (hb : Began root j h) (hbuilt : j.Built L) (hi : j.intent = none) (hs : j.Sends req)
    (hdates : Dates j v) (hdigest : ∃ d, sealSha L j.requested.toJson = .ok d ∧
      v.get "request_sha256" = .str d) : Holds L (.did a root (.http req) r :: h) v := by
  rcases hdates with ⟨t, ht, hv⟩
  rcases hdigest with ⟨d, hd, hvd⟩
  rcases hb.normal hbuilt ht with ⟨base, hn, hbody⟩
  refine ⟨t, j.args, base, j.privateHeaders, d, ⟨a, root, req, r, List.mem_cons_self, ?_, ?_,
    hn.mono⟩, ?_, hvd, hv⟩
  · rw [hs.1, Job.route, hi]
  · rw [hs.2.1, Job.body, hi, hbody]
  · rw [← hbody]
    exact hd

/-- The digest and the time stay in the journal. -/
theorem rooted_saved {q q' : Stage} {w : Json} {data : Bytes} {n a : Nat}
    (h' : Saves L q w q') (hw : Writes data w) (hv : q.hold.Valid operationId s n a)
    (hf : q.Facts L operationId) (hn : n ≠ 0)
    (hroot : ∀ v, OnDisk operationId s v → Open v → Holds L h v) (u : Json)
    (hu : OnDisk operationId (s.write .journal (some data)) u) (ho : Open u) : Holds L h u := by
  have huw : u = w := hu.unique (onDisk_write hw (h'.journal hw hv hf))
  rw [huw] at ho ⊢
  have hposted : ∀ {d : Str}, Reported operationId d w → Holds L h w := by
    intro d hr
    rw [Open, hr.outcome] at ho
    cases ho
  have hfacts := h'.facts hw hv hf
  cases h' with
  | prepare j digest timestamp hd ht => exact absurd hv.2.2 hn
  | rewrite j v w =>
      have hold := hroot v hv.2.1 hv.2.2.1
      have hother := hf.1.other
      exact hold.congr (hother _ (by decide) (by decide)) (hother _ (by decide) (by decide))
  | record j v resp r ha =>
      have hold := hroot v hv.2.1 hv.2.2.1
      exact hold.congr (answered_other (by decide) (by decide))
        (answered_other (by decide) (by decide))
  | attempt e v started =>
      rcases hfacts.1.2 with ⟨d, hr, _⟩
      exact hposted hr
  | settle q e v w hl hset =>
      rcases hfacts.1.2 with ⟨d, hr, _⟩
      exact hposted hr
  | complete b v resp final hp =>
      rcases hp with ⟨sensitive, raw, hraw, hparse⟩
      rcases hv.2 with ⟨d, hr, _⟩
      exact hposted (reported_complete hr (wellFormed_toJson (wellFormed_readResponse hraw) hparse))

/-- A journal that was not touched is as it was. -/
theorem Rooted.congr {h' : List Happening} (hr : Rooted L operationId s h)
    (hj : s'.files .journal = s.files .journal) (hcount : h'.countP executes = h.countP executes)
    (hh : ∀ v, Holds L h v → Holds L h' v) : Rooted L operationId s' h' := by
  intro hn v hv ho
  rw [hcount] at hn
  refine hh v (hr hn v ⟨?_, hv.journal⟩ ho)
  rw [← hj]
  exact hv.file

theorem rooted_step {roles : Roles Stage} {q q' : Stage} {o : Op} {r : Except Fault o.Answer}
    {a b : Nat} (hrun : Run L operationId s roles h) (hd : q.Dated)
    (hroot : Rooted L operationId s h) (ha : roles a = some (root, q)) (he : Edge L q o r q')
    (hp : perform a b o r s = some s') : Rooted L operationId s' (.did a root o r :: h) := by
  rcases hrun.invariant.valid a root q ha with ⟨hv, hf⟩
  by_cases hx : executes (.did a root o r) = true
  · -- the original request
    rcases edge_executes he hx with ⟨j, v, req, rfl, rfl, hi, hs, _⟩
    intro _ u hu _
    rw [perform_http hp] at hu
    rw [Stage.hold, holdOf, hi] at hv
    rw [hu.unique hv.2.1]
    have hb : Began root j h := hrun.memory a root _ ha
    exact holds_executed hb hf.built hi hs hd hf.digest
  · have hcount : (Event.did a root o r :: h).countP executes = h.countP executes :=
      List.countP_cons_of_neg hx
    have hmono : ∀ v, Holds L h v → Holds L (.did a root o r :: h) v := fun v hv => hv.mono
    cases edge_effect he hp with
    | same s' q q' hsame => exact hroot.congr hsame.journal hcount hmono
    | made c j _ => exact hroot.congr rfl hcount hmono
    | locked q q' _ => exact hroot.congr rfl hcount hmono
    | unlocked q q' => exact hroot.congr rfl hcount hmono
    | bound e v data _ => exact hroot.congr (files_write_other (by decide) s _) hcount hmono
    | saved q w q' data hsaves hw =>
        intro hn u hu ho
        rw [hcount] at hn
        exact (rooted_saved hsaves hw hv hf hn (hroot hn) u hu ho).mono

theorem preserves_rooted (L : Libs) (operationId : Str) :
    Preserves (system L operationId) (Edge L) (Ends L) firstStage
      (fun s roles h => Run L operationId s roles h ∧
        ∀ a root q, roles a = some (root, q) → q.Dated)
      (fun s _ h => Rooted L operationId s h) where
  start s roles n h c hK hr hn hc := hr.congr rfl rfl fun v hv => hv.mono
  act s roles n h a root q o r s' q' hK hr ha hn he hp hs :=
    rooted_step hK.1 (hK.2 a root q ha) hr ha he hp
  spawn s roles n h a root q o r s' q' c hK hr ha hn he hp hs :=
    (rooted_step hK.1 (hK.2 a root q ha) hr ha he hp).congr rfl rfl fun v hv => hv.mono
  finish s roles h a root q r hK hr ha hp := hr.congr rfl rfl fun v hv => hv.mono
  crash s roles h a root q hK hr ha := hr.congr rfl rfl fun v hv => hv.mono
  disturb s roles h d s' hK hr hd := by
    simp only [system] at hd
    split at hd
    · next hfile =>
        cases hd
        refine hr.congr (files_write_other ?_ s _) rfl fun v hv => hv.mono
        intro hj
        rw [← hj] at hfile
        exact absurd hfile (by decide)
    · cases hd

/-! ### Calls that wait -/

/-- Nothing was done for the review yet. -/
def Stage.waits : Stage → Bool
  | start _ => true
  | tripped => true
  | entered .. => true
  | glanced .. => true
  | _ => false

/-- The call with this root does not continue a review. -/
def Otherwise (root : Nat) (h : List Happening) : Prop :=
  ∃ c, .began root root c ∈ h ∧ ∀ d a, c ≠ .continuation d a

theorem Otherwise.mono {x : Happening} (ho : Otherwise root h) : Otherwise root (x :: h) := by
  rcases ho with ⟨c, hc, hne⟩
  exact ⟨c, List.mem_cons_of_mem x hc, hne⟩

/-- What is known of a call with something to do. -/
def Moves (L : Libs) (root : Nat) (h : List Happening) (q : Stage) : Prop :=
  q.waits = true ∨ Otherwise root h ∨ Matches L root h

theorem Moves.mono {x : Happening} {q : Stage} (hm : Moves L root h q) : Moves L root (x :: h) q := by
  rcases hm with hm | hm | hm
  · exact Or.inl hm
  · exact Or.inr (Or.inl hm.mono)
  · exact Or.inr (Or.inr hm.mono)

/-- A journal that is continued has the digest of the request. -/
theorem matches_of_resumes {j : Job} {v w : Json} {data : Bytes} {n : Nat}
    (hs : Sane operationId s n) (hid : j.args.operationId = operationId)
    (hfile : s.files .journal = some data) (hread : Reads data v) (hres : Resumes L j v w)
    (hb : Began root j h) (hbuilt : j.Built L)
    (hroot : n ≠ 0 → ∀ v, OnDisk operationId s v → Open v → Holds L h v) : Matches L root h := by
  rcases hs.resumes hid hfile hread hres with ⟨hdisk, hopen, hn, _⟩
  rcases hroot hn v hdisk hopen with ⟨t, args₀, base₀, headers₀, d, ho, hd, hvd, hvt⟩
  rcases hres with ⟨t', digest, i, u, hc, ht, hseal, hsame, _⟩
  have htt : t' = t := by
    have h := continuedTimestamp_get hc
    rw [hvt, Json.str.injEq] at h
    exact h.symm
  rw [htt] at ht
  rw [hvd, Json.str.injEq] at hsame
  rw [← hsame] at hseal
  rcases hb.normal hbuilt ht with ⟨base, hnormal, hbody⟩
  rw [hbody] at hseal
  exact ⟨t, args₀, base₀, headers₀, j.args, base, j.privateHeaders, ho, hnormal, d, hd, hseal⟩

theorem moves_step {q q' : Stage} {o : Op} {r : Except Fault o.Answer} {n a b : Nat}
    (he : Edge L q o r q') (hp : perform a b o r s = some s') (hs : Sane operationId s n)
    (hf : q.Facts L operationId) (hr : Remembers L operationId a root q h)
    (hroot : n ≠ 0 → ∀ v, OnDisk operationId s v → Open v → Holds L h v) (hm : Moves L root h q) :
    Moves L root h q' := by
  rcases hm with hm | hm
  · have hother : ∀ {c : Command}, .began root root c ∈ h → (∀ d a, c ≠ .continuation d a) →
        Moves L root h q' := fun hc hne => Or.inr (Or.inl ⟨_, hc, hne⟩)
    cases he with
    | quiet q o r hq => exact Or.inl hm
    | failed q o x hq => exact Or.inl hm
    | unlockIdle q hi => exact Or.inl hm
    | trip q o x hi hq => exact Or.inl rfl
    | tripEntered c a x => exact Or.inl rfl
    | lockContinued c a => exact Or.inl rfl
    | glance c a data => exact Or.inl rfl
    | make c j hb hi => exact hother hr fun _ _ heq => (by cases heq)
    | readFlush c t data v hread ho => exact hother hr fun _ _ heq => (by cases heq)
    | reject c t data => exact hother hr fun _ _ heq => (by cases heq)
    | resume c j data v w hb hread hres =>
        rcases reads_file hp hread with ⟨_, hfile⟩
        have hbegan : Began root j h := ⟨_, hr, rfl⟩
        exact Or.inr (Or.inr (matches_of_resumes hs hf hfile hread hres hbegan hb hroot))
    | unlock q r hb =>
        cases q with
        | start c => cases hb
        | tripped => cases hb
        | entered c a => cases hb
        | glanced a data => cases hb
        | _ => cases hm
    | settle q e v w data hl hset hw =>
        cases hl with
        | _ => cases hm
    | _ => cases hm
  · exact Or.inr hm

/-- What is known of the journal and the times, besides a run. -/
def RootedRun (L : Libs) (operationId : Str) (s : Folder) (roles : Roles Stage)
    (h : List Happening) : Prop :=
  (∀ a root q, roles a = some (root, q) → q.Dated) ∧ Rooted L operationId s h

/-- A call waits, or matches. -/
theorem trail_moves (L : Libs) (operationId : Str) :
    Trail (system L operationId) (Edge L) firstStage
      (fun s roles h => Run L operationId s roles h ∧ RootedRun L operationId s roles h)
      (fun _ root q h => Moves L root h q) where
  mono a root q e h hm := hm.mono
  start n h c hc := by
    cases c with
    | send p => cases hc
    | _ => exact Or.inl rfl
  act s roles n h a root q o r s' q' hK ha hm he hp :=
    (moves_step he hp hK.1.invariant.sane (hK.1.invariant.valid a root q ha).2
      (hK.1.memory a root q ha) hK.2.2 hm).mono
  spawn s roles n h a root q o r s' q' c hK ha hm he hp hs := by
    rcases edge_spawns he hs with ⟨e, v, resp, thread, rfl, _⟩
    rcases hm with hm | hm
    · cases hm
    · exact Moves.mono (Or.inr hm)

/-! ### Events -/

/-- A request to continue: its body is the one of the original request, and its key is the
    one of the review. -/
def Continues (L : Libs) (operationId : Str) (root : Nat) (past : List Happening)
    (req : ApiRequest) : Prop :=
  ∃ t args₀ base₀ headers₀ args base headers, ∃ i : Intent, ∃ token,
    Original L past t args₀ base₀ headers₀ ∧ Normal L root past args base headers ∧
    SameDigest L (dated base₀ t) (dated base t) ∧
    req.json = some (.ofList [("execution_request", dated base t),
      ("review_id", .str i.reviewId), ("source_receipt_id", .str i.sourceReceiptId)]) ∧
    continuationKey operationId i.reviewId i.sourceReceiptId = .ok i.idempotencyKey ∧
    req.headers = token ++ [(idempotencyKeyHeader, i.idempotencyKey)]

/-- Does the event contact the runtime or write the journal? -/
def touches : Happening → Bool
  | .did _ _ (.http _) _ => true
  | .did _ _ (.replace .journal _) (.ok _) => true
  | _ => false

/-- What the events of a call that continues are. -/
def Bounded (L : Libs) (operationId : Str) (e : Happening) (past : List Happening) : Prop :=
  (∀ a root req r id, e = .did a root (.http req) r → req.route = .continuation id →
    Continues L operationId root past req) ∧
  (∀ a root o r, e = .did a root o r → touches e = true →
    Otherwise root past ∨ Matches L root past) ∧
  (∀ a root r, e = .ended a root r → failed r ∨ Otherwise root past ∨ Matches L root past)

theorem waits_touches {q q' : Stage} {o : Op} {r : Except Fault o.Answer} {a : Nat}
    (he : Edge L q o r q') (hw : q.waits = true) (ht : touches (.did a root o r) = true)
    (hmem : Remembers L operationId a root q h) : Otherwise root h := by
  cases o with
  | http req =>
      rcases edge_http he with ⟨j, v, rfl, _⟩ | ⟨e, v, rfl, _⟩ | ⟨e, v, rfl, _⟩ | ⟨b, v, rfl, _⟩
      · cases hw
      · cases hw
      · cases hw
      · cases hw
  | replace file data =>
      cases file with
      | journal =>
          cases r with
          | ok u =>
              rcases edge_saves he with ⟨w, hsaves, _⟩
              cases hsaves with
              | settle q e v w hl hs =>
                  cases hl with
                  | _ => cases hw
              | _ => cases hw
          | error x => cases ht
      | _ => cases ht
  | _ => cases ht

theorem waits_ends {q : Stage} {r : Except Exc Value} {a : Nat} (hw : q.waits = true)
    (hp : Ends L q r) (hmem : Remembers L operationId a root q h) :
    failed r ∨ Otherwise root h := by
  cases q with
  | start c =>
      cases c with
      | continuation c a => exact Or.inl hp.1
      | execute c a => exact Or.inl hp.1
      | flush c t => exact hp.elim
      | send p => exact hp.elim
  | tripped => exact Or.inl hp.1
  | entered c a => exact hp.elim
  | glanced a data => exact Or.inl hp.1
  | _ => cases hw

/-- A request to continue is one for the review in the journal. -/
theorem continues_of_holding {j : Job} {v : Json} {req : ApiRequest} {i : Intent} {n a : Nat}
    (hi : j.intent = some i) (hv : (holdOf j v).Valid operationId s n a)
    (hf : j.For L operationId v) (hd : Dates j v) (hb : Began root j h)
    (hroot : n ≠ 0 → ∀ v, OnDisk operationId s v → Open v → Holds L h v) (hs : j.Sends req) :
    Continues L operationId root h req := by
  rw [holdOf, hi] at hv
  rcases hroot hv.2.2.2 v hv.2.1 hv.2.2.1 with ⟨t, args₀, base₀, headers₀, d, ho, hseal, hvd, hvt⟩
  rcases hd with ⟨t', ht, hvt'⟩
  have htt : t' = t := by
    rw [hvt, Json.str.injEq] at hvt'
    exact hvt'.symm
  rw [htt] at ht
  rcases hb.normal hf.built ht with ⟨base, hnormal, hbody⟩
  rcases hf.digest with ⟨d', hseal', hvd'⟩
  have hdd : d = d' := by
    rw [hvd, Json.str.injEq] at hvd'
    exact hvd'
  rw [hbody, ← hdd] at hseal'
  rcases hs with ⟨_, hjson, token, hheaders⟩
  refine ⟨t, args₀, base₀, headers₀, j.args, base, j.privateHeaders, i, token, ho, hnormal,
    ⟨d, hseal, hseal'⟩, ?_, ?_, ?_⟩
  · rw [hjson, Job.body, hi, hbody]
  · exact hv.2.1.journal.intent i (hf.intent i hi)
  · rw [hheaders, Job.key, hi]
    rfl

/-- Where a request to continue is made. -/
theorem edge_continues {q q' : Stage} {req : ApiRequest} {r : Except Fault ApiResponse} {id : Str}
    (he : Edge L q (.http req) r q') (hr : req.route = .continuation id) :
    ∃ j v i, q = .holding j v ∧ j.intent = some i ∧ j.Sends req := by
  rcases edge_http he with ⟨j, v, hq, hs, _⟩ | ⟨e, v, _, hroute⟩ | ⟨e, v, _, hc, _⟩ | ⟨b, v, _, hrep⟩
  · have hroute := hs.1
    rw [hr, Job.route] at hroute
    cases hi : j.intent with
    | none =>
        rw [hi] at hroute
        cases hroute
    | some i => exact ⟨j, v, i, hq, hi, hs⟩
  · rw [hr] at hroute
    cases hroute
  · have hroute := hc.1
    rw [hr] at hroute
    cases hroute
  · rcases hrep with ⟨_, _, _, _, _, hroute, _⟩
    rw [hr] at hroute
    cases hroute

/-- Every event of a run is bounded. -/
theorem preserves_bounded (L : Libs) (operationId : Str) :
    Preserves (system L operationId) (Edge L) (Ends L) firstStage
      (fun s roles h => Run L operationId s roles h ∧ RootedRun L operationId s roles h ∧
        ∀ a root q, roles a = some (root, q) → Moves L root h q)
      (fun _ _ h => Always (Bounded L operationId) h) := by
  refine preserves_always ?_ ?_ ?_ ?_ ?_
  · intro n root c h
    refine ⟨fun _ _ _ _ _ heq => (by cases heq), fun _ _ _ _ heq => (by cases heq),
      fun _ _ _ heq => (by cases heq)⟩
  · intro s roles n h a root q o r s' q' hK ha he hp
    rcases hK with ⟨hrun, ⟨hdated, hroot⟩, hmoves⟩
    rcases hrun.invariant.valid a root q ha with ⟨hv, hf⟩
    refine ⟨?_, ?_, fun _ _ _ heq => (by cases heq)⟩
    · intro a' root' req r' id heq hroute
      cases heq
      rcases edge_continues he hroute with ⟨j, v, i, rfl, hi, hs⟩
      exact continues_of_holding hi hv hf (hdated a root _ ha) (hrun.memory a root _ ha) hroot hs
    · intro a' root' o' r' heq ht
      cases heq
      rcases hmoves a root q ha with hw | hm
      · exact Or.inl (waits_touches he hw ht (hrun.memory a root q ha))
      · exact hm
  · intro s roles h a root q r hK ha hpost
    refine ⟨fun _ _ _ _ _ heq => (by cases heq), fun _ _ _ _ heq => (by cases heq), ?_⟩
    intro a' root' r' heq
    cases heq
    rcases hK.2.2 a root q ha with hw | hm
    · exact (waits_ends hw hpost (hK.1.memory a root q ha)).imp_right Or.inl
    · exact Or.inr hm
  · intro a h
    refine ⟨fun _ _ _ _ _ heq => (by cases heq), fun _ _ _ _ heq => (by cases heq),
      fun _ _ _ heq => (by cases heq)⟩
  · intro d h
    refine ⟨fun _ _ _ _ _ heq => (by cases heq), fun _ _ _ _ heq => (by cases heq),
      fun _ _ _ heq => (by cases heq)⟩

/-- What follows for the events of a run. -/
theorem continuation_events {w : Point} (hw : (system L operationId).Reachable Folder.fresh w) :
    Always (Bounded L operationId) w.history := by
  have hdated := preserves_trail (Ends L) (trail_dated L operationId)
  have hrooted : Preserves (system L operationId) (Edge L) (Ends L) firstStage (Run L operationId)
      (RootedRun L operationId) := hdated.next (preserves_rooted L operationId)
  have hmoves := hrooted.next (preserves_trail (Ends L) (trail_moves L operationId))
  have hstart : RootedRun L operationId Folder.fresh (fun _ => none) [] :=
    ⟨fun _ _ _ ha => (by cases ha), fun hn => absurd rfl hn⟩
  rcases run_with (hmoves.next (preserves_bounded L operationId))
    ⟨⟨hstart, fun _ _ _ ha => (by cases ha)⟩, trivial⟩ hw with ⟨roles, _, _, _, hall⟩
  exact hall

end Allowly

import Allowly.Theory.Journaled

/-!
# Waiting for the Native Process

A witnessed call claims its dispatch once `witness.ready.json` names the approval. The
file stands in a folder that outlives the call: an earlier attempt that was stopped
before its claim has left its own. The operation can be continued from there, with the
same approval, and then the call does not wait for the process it has started.

So the gate keeps what it promises as long as no such file is there when the process is
started, and no process of an earlier attempt writes one while a later call is at work.
The processes are told apart by `author`, which says for every write of a native process
the call that started it.

## Main definitions

* `GateFor`: A file that names an approval.
* `Ready`: The log of a call that has started its process and then read such a file.
* `Gated`: What a call promises of its claim.
* `Wrote`: The process of a call wrote a file after it was started.
* `Tidy`: A run without files or processes left over.
* `Awaited`: A claim after a file of the call's own process.

## Theorems

* `code_gated`: Every program that can be started.
* `claim_awaits`: In a tidy run every claim is awaited.
* `stale_gate`: In another run a claim is sent for the file of an earlier attempt.
-/

namespace Allowly

open Py Prog Interleave

variable {L : Libs}

/-! ### The gate -/

/-- The file names the approval with this digest, and nothing else. -/
def GateFor (content : Bytes) (digest : Json) : Prop :=
  content.length ≤ 1024 ∧ ∃ gate, loadsBytes content = some gate ∧
    pyEq gate (.ofList [("approval_sha256", digest)]) = true

/-- An approval with this digest was saved. -/
def SavedApproval (q : CallLog) (digest : Json) : Prop :=
  ∃ data b, ⟨.replace .approval data, .ok ()⟩ ∈ q ∧ loadsBytes data = some b ∧
    b.get "approval_sha256" = digest

/-- The lock was taken. -/
def Locks (q : CallLog) : Prop := ⟨.flock, .ok ()⟩ ∈ q

/-- The lock was not given back. -/
def HoldsLock (q : CallLog) : Prop := ∀ r, ⟨.closeLock, r⟩ ∉ q

/-- With the lock and the approval, the process was started, and the file was read later. -/
def Ready (q : CallLog) (digest : Json) : Prop :=
  ∃ q₁ args q₂ data q₃, q = q₁ ++ ⟨.startNative args, .ok ()⟩ :: q₂ ++
      ⟨.read .ready 1024, .ok data⟩ :: q₃ ∧
    Locks q₁ ∧ HoldsLock q ∧ SavedApproval q₁ digest ∧ GateFor data digest

/-- The request claims the approval that was saved. A witnessed one is claimed when the
    process is ready. -/
def Cleared (q : CallLog) (req : ApiRequest) : Prop :=
  ∃ data b, ⟨.replace .approval data, .ok ()⟩ ∈ q ∧ loadsBytes data = some b ∧
    req.json = some (.ofList [("approval_sha256", b.get "approval_sha256")]) ∧
    ((b.get "approval").get "evidence_mode" = .str (lit "witnessed") →
      Ready q (b.get "approval_sha256"))

/-- The file is left to the process, and claims are `Cleared`. -/
def Gated (q : CallLog) (o : Op) : Prop :=
  (∀ data, o ≠ .replace .ready data) ∧
    ∀ req id, o = .http req → req.route = .dispatch id → Cleared q req

/-- Operations that are about neither the gate nor the lock. -/
def OutsideGate (o : Op) : Prop :=
  (∀ data, o ≠ .replace .ready data) ∧ o ≠ .closeLock ∧
    ∀ req id, o = .http req → req.route ≠ .dispatch id

theorem OutsideGate.gated {o : Op} (h : OutsideGate o) (q : CallLog) : Gated q o :=
  ⟨h.1, fun req id ho hr => absurd hr (h.2.2 req id ho)⟩

theorem HoldsLock.append {q t : CallLog} (h : HoldsLock q) (ht : HoldsLock t) :
    HoldsLock (q ++ t) := by
  intro r hr
  rcases List.mem_append.mp hr with hr | hr
  · exact h r hr
  · exact ht r hr

theorem Locks.mono {q : CallLog} (t : CallLog) (h : Locks q) : Locks (q ++ t) :=
  List.mem_append_left t h

theorem SavedApproval.mono {q : CallLog} {digest : Json} (t : CallLog)
    (h : SavedApproval q digest) :
    SavedApproval (q ++ t) digest := by
  rcases h with ⟨data, b, hmem, hw, hb⟩
  exact ⟨data, b, List.mem_append_left t hmem, hw, hb⟩

theorem Ready.mono {q t : CallLog} {digest : Json} (h : Ready q digest) (ht : HoldsLock t) :
    Ready (q ++ t) digest := by
  rcases h with ⟨q₁, args, q₂, data, q₃, rfl, hlock, hholds, hsaved, hnames⟩
  refine ⟨q₁, args, q₂, data, q₃ ++ t, ?_, hlock, hholds.append ht, hsaved, hnames⟩
  simp only [List.append_assoc, List.cons_append]

theorem Cleared.mono {q t : CallLog} {req : ApiRequest} (h : Cleared q req) (ht : HoldsLock t) :
    Cleared (q ++ t) req := by
  rcases h with ⟨data, b, hmem, hw, hjson, hready⟩
  exact ⟨data, b, List.mem_append_left t hmem, hw, hjson, fun hm => (hready hm).mono ht⟩

/-! ### Programs that leave the gate alone -/

def Tame {A : Type} (p : Call A) : Prop := Uses OutsideGate p

section Tame

variable {A B : Type}

theorem tame_bind {p : Call A} {f : A → Call B} (h : Tame p) (hf : ∀ a, Tame (f a)) :
    Tame (p >>= f) :=
  uses_bind h hf

theorem tame_pure (a : A) : Tame (pure a : Call A) := trivial

theorem tame_raise (x : Exc) : Tame (raise x : Call A) := trivial

theorem tame_computed (r : Except Exc A) : Tame (computed r) := uses_ofExcept r

theorem tame_attempt {p : Call A} (h : Tame p) : Tame p.attempt := uses_attempt h

theorem tame_ask {o : Op} (h : OutsideGate o) : Tame (ask o) := uses_perform h

theorem outsideGate_quiet {o : Op} (h : Quiet o = true) : OutsideGate o := by
  refine ⟨?_, ?_, ?_⟩
  · rintro data rfl
    cases h
  · rintro rfl
    cases h
  · rintro req id rfl
    cases h

theorem tame_silent {p : Call A} (h : Silent p) : Tame p := uses_mono h fun _ => outsideGate_quiet

theorem outsideGate_replace {file : File} {data : Bytes} (h : file ≠ .ready) :
    OutsideGate (.replace file data) := by
  refine ⟨?_, nofun, nofun⟩
  intro data' heq
  cases heq
  exact h rfl

theorem tame_save {file : File} (h : file ≠ .ready) (v : Json) : Tame (save file v) := by
  refine tame_bind (tame_ask (outsideGate_quiet rfl)) fun _ => ?_
  refine uses_always ?_ (tame_ask (outsideGate_quiet rfl))
  refine tame_bind (tame_computed _) fun data => ?_
  refine tame_bind (tame_ask (outsideGate_quiet rfl)) fun _ => ?_
  exact tame_bind (tame_ask (outsideGate_replace h)) fun _ => tame_ask (outsideGate_quiet rfl)

theorem outsideGate_http {req : ApiRequest} (h : ∀ id, req.route ≠ .dispatch id) :
    OutsideGate (.http req) := by
  refine ⟨nofun, nofun, ?_⟩
  intro req' id heq
  cases heq
  exact h id

theorem outsideGate_startSend (s : SendArgs) : OutsideGate (.startSend s) := by
  refine ⟨?_, ?_, ?_⟩
  · intro data h
    cases h
  · intro h
    cases h
  · intro req id h
    cases h

theorem outsideGate_communicate (stdin : Bytes) : OutsideGate (.communicate stdin) := by
  refine ⟨?_, ?_, ?_⟩
  · intro data h
    cases h
  · intro h
    cases h
  · intro req id h
    cases h

theorem tame_send {req : ApiRequest} (h : ∀ id, req.route ≠ .dispatch id) : Tame (send req) := by
  refine tame_bind (tame_attempt (tame_ask (outsideGate_http h))) fun answer => ?_
  split
  · exact tame_pure _
  · split
    · exact tame_ask (outsideGate_http h)
    · exact tame_raise _
  · exact tame_raise _

theorem tame_requestWithHeaders {c : Client} {route : Route} (h : ∀ id, route ≠ .dispatch id)
    (path : Str) (json : Option Json) (headers : List (Str × Str)) (expected : List Nat) :
    Tame (requestWithHeaders L c route path json headers expected) := by
  unfold requestWithHeaders
  split
  · exact tame_raise _
  · split
    · exact tame_raise _
    · exact tame_bind (tame_send h) fun _ => tame_bind (tame_computed _) fun _ => tame_pure _

theorem tame_callRoute {c : Client} {route : Route} (h : ∀ id, route ≠ .dispatch id)
    (json : Option Json) (t k : Option Str) (expected : List Nat) :
    Tame (callRoute L c route json t k expected) := by
  unfold callRoute
  split
  · exact tame_raise _
  · exact tame_bind (tame_silent (silent_identityHeaders c t k)) fun _ =>
      tame_bind (tame_requestWithHeaders h _ _ _ _) fun _ => tame_pure _

theorem tame_flush (c : Client) (k : Option Str) : Tame (flushExecutionOutcome L c k) := by
  refine tame_bind (tame_ask (outsideGate_quiet rfl)) fun _ => ?_
  refine tame_bind (tame_silent (silent_readJson _ _)) fun state => ?_
  refine tame_bind (tame_computed _) fun pending => ?_
  split
  · exact tame_raise _
  · refine tame_bind (tame_computed _) fun _ => ?_
    refine tame_bind (tame_computed _) fun _ => ?_
    refine tame_bind (tame_computed _) fun _ => ?_
    refine tame_bind (tame_computed _) fun _ => ?_
    refine tame_bind (tame_computed _) fun _ => ?_
    refine tame_bind ?_ fun final => tame_bind (tame_save (by decide) _) fun _ => tame_pure _
    refine tame_bind (tame_callRoute (by nofun) _ _ _ _) fun raw => ?_
    refine tame_bind (tame_computed _) fun result => ?_
    split
    · exact tame_raise _
    · split
      · exact tame_pure _
      · exact tame_raise _

theorem tame_settle (c : Client) (operationId : Str) (r : ExecutionResponse) (state : Json)
    (a : Artifacts) (k : Option Str) : Tame (settle L c operationId r state a k) := by
  refine tame_bind ?_ fun _ => ?_
  · cases a.response with
    | none => exact tame_pure _
    | some response => exact tame_save (by decide) _
  · refine tame_bind (tame_ask (outsideGate_quiet rfl)) fun now => ?_
    refine tame_bind (tame_save (by decide) _) fun _ => ?_
    refine tame_bind (tame_attempt (tame_flush c k)) fun reported => ?_
    split
    · exact tame_pure _
    · split
      · exact tame_pure _
      · exact tame_raise _

theorem tame_prepareExecution (c : Client) (requested : Requested) (key : Str) (t : Option Str) :
    Tame (prepareExecution L c requested key t) := by
  refine tame_bind (tame_silent (silent_identityHeaders c t _)) fun headers => ?_
  refine tame_bind (tame_computed _) fun timestamp => ?_
  refine tame_bind (tame_requestWithHeaders (by nofun) _ _ _ _) fun answer => ?_
  refine tame_bind (tame_computed _) fun result => ?_
  split
  · exact tame_pure _
  · exact tame_raise _

theorem tame_continueExecution (c : Client) (operationId : Str) (requested : Requested) (i : Intent)
    (t : Option Str) : Tame (continueExecution L c operationId requested i t) := by
  unfold continueExecution
  split
  · exact tame_raise _
  · refine tame_bind (tame_computed _) fun timestamp => ?_
    refine tame_bind (tame_callRoute (by nofun) _ _ _ _) fun raw => ?_
    refine tame_bind (tame_computed _) fun result => ?_
    split
    · exact tame_pure _
    · exact tame_raise _

theorem tame_getExecutionWitnessToken (c : Client) (operationId : Str) (digest t : Option Str) :
    Tame (getExecutionWitnessToken L c operationId digest t) := by
  refine tame_bind (tame_callRoute (by nofun) _ _ _ _) fun raw => ?_
  split
  · exact tame_pure _
  · exact tame_raise _

theorem tame_providerSend (a : SendArgs) : Tame (providerSend L a) := by
  unfold providerSend
  split
  · exact tame_raise _
  · refine tame_bind (tame_ask (outsideGate_quiet rfl)) fun addresses => ?_
    split
    · exact tame_raise _
    · split
      · exact tame_raise _
      · refine uses_always ?_ (tame_ask (outsideGate_quiet rfl))
        refine tame_bind (tame_ask (outsideGate_quiet rfl)) fun _ => ?_
        refine tame_bind (tame_silent (silent_live L _)) fun _ => ?_
        split
        · exact tame_raise _
        · refine tame_bind (tame_ask ⟨nofun, nofun, nofun⟩) fun response => ?_
          simp only
          split
          · exact tame_raise _
          · split
            · exact tame_raise _
            · exact tame_pure _

end Tame

/-! ### The dispatch -/

/-- After `q`, the program is `Gated`. -/
def GatedAfter {A : Type} (q : CallLog) (p : Call A) : Prop :=
  Follows (Grows Gated) p q fun _ _ => True

theorem gatedAfter_tame {A : Type} {q : CallLog} {p : Call A} (h : Tame p) : GatedAfter q p :=
  follows_mono (follows_log (uses_mono h fun _ ho _ => ho.gated _)) fun _ _ _ => trivial

theorem holds_tame {A : Type} {p : Call A} {t : CallLog} {r : Except Exc A} (h : Tame p)
    (ht : Traces p t r) : HoldsLock t := by
  intro b hmem
  exact (uses_traces h ht _ hmem).2.1 rfl

theorem gatedAfter_bind {A B : Type} {q : CallLog} {p : Call A} {f : A → Call B} (h : Tame p)
    (hf : ∀ t a, Traces p t (.ok a) → HoldsLock t → GatedAfter (q ++ t) (f a)) :
    GatedAfter q (p >>= f) :=
  follows_log_bind (uses_mono h fun _ ho _ => ho.gated _)
    (fun t a ht => hf t a ht (holds_tame h ht)) fun _ _ _ => trivial

theorem gatedAfter_attempt {A : Type} {q : CallLog} {p : Call A} (h : GatedAfter q p) :
    GatedAfter q p.attempt :=
  follows_attempt h

/-- What follows is tame, so that it does not matter how the log has grown. -/
theorem gatedAfter_before {A B : Type} {q : CallLog} {p : Call A} {f : A → Call B}
    (h : GatedAfter q p) (hf : ∀ a, Tame (f a)) : GatedAfter q (p >>= f) :=
  follows_bind h (fun _ a _ => gatedAfter_tame (hf a)) fun _ _ _ => trivial

/-- A claim that is cleared may be sent. -/
theorem gatedAfter_send {q : CallLog} {req : ApiRequest} {id : Str} (hr : req.route = .dispatch id)
    (h : Cleared q req) : GatedAfter q (send req) := by
  have hask : GatedAfter q (ask (.http req)) := by
    refine follows_perform ?_
    intro r
    refine ⟨_, ⟨⟨nofun, ?_⟩, rfl⟩, trivial⟩
    intro req' id' heq _
    cases heq
    exact h
  refine follows_bind (M := fun _ _ => True) (gatedAfter_attempt hask) ?_ (fun _ _ _ => trivial)
  intro q' answer _
  split
  · exact trivial
  · rw [hr]
    exact trivial
  · exact trivial

theorem gatedAfter_callRoute {c : Client} {id : Str} {body : Json} {t k : Option Str}
    {expected : List Nat} {q : CallLog}
    (h : ∀ req : ApiRequest, req.json = some body → Cleared q req) :
    GatedAfter q (callRoute L c (.dispatch id) (some body) t k expected) := by
  unfold callRoute
  split
  · exact trivial
  · refine gatedAfter_bind (tame_silent (silent_identityHeaders c t k)) ?_
    intro t₁ headers _ hholds
    refine gatedAfter_before ?_ fun _ => tame_pure _
    unfold requestWithHeaders
    split
    · exact trivial
    · split
      · exact trivial
      · exact gatedAfter_before (gatedAfter_send rfl ((h _ rfl).mono hholds)) fun _ =>
          tame_bind (tame_computed _) fun _ => tame_pure _

theorem gatedAfter_claim {c : Client} {operationId : Str} {r : ExecutionResponse}
    {approval state : Json} {t : Option Str} {q : CallLog}
    (h : ∀ req : ApiRequest, req.json = some (approvalBody r.approvalSha256) → Cleared q req) :
    GatedAfter q (claim L c operationId r approval state t) := by
  refine gatedAfter_bind (tame_attempt (tame_silent (silent_started approval))) ?_
  intro t₁ started _ hholds₁
  cases started with
  | error x => exact trivial
  | ok started =>
      refine gatedAfter_before (gatedAfter_attempt ?_) fun _ => tame_pure _
      refine gatedAfter_bind (tame_save (by decide) _) ?_
      intro t₂ _ _ hholds₂
      refine gatedAfter_before ?_ ?_
      · refine gatedAfter_before (gatedAfter_callRoute ?_) ?_
        · intro req hreq
          exact ((h req hreq).mono hholds₁).mono hholds₂
        · intro raw
          split
          · exact tame_pure _
          · exact tame_raise _
      · intro claimed
        split
        · exact tame_raise _
        · exact tame_silent (silent_live L approval)

/-- The process was started with the lock and the approval. -/
def Launched (q : CallLog) (digest : Json) : Prop :=
  ∃ q₁ args q₂, q = q₁ ++ ⟨.startNative args, .ok ()⟩ :: q₂ ∧ Locks q₁ ∧ SavedApproval q₁ digest

theorem Launched.mono {q : CallLog} {digest : Json} (t : CallLog) (h : Launched q digest) :
    Launched (q ++ t) digest := by
  rcases h with ⟨q₁, args, q₂, rfl, hlock, hsaved⟩
  refine ⟨q₁, args, q₂ ++ t, ?_, hlock, hsaved⟩
  rw [List.append_assoc, List.cons_append]

/-- The file was read after the process was started. -/
theorem ready_of_read {q t : CallLog} {digest gate : Json} (hl : Launched q digest)
    (hq : HoldsLock q) (ht : HoldsLock t) (hread : ∃ data, ⟨.read .ready 1024, .ok data⟩ ∈ t ∧
      data.length ≤ 1024 ∧ loadsBytes data = some gate)
    (hgate : pyEq gate (.ofList [("approval_sha256", digest)]) = true) : Ready (q ++ t) digest := by
  rcases hl with ⟨q₁, args, q₂, rfl, hlock, hsaved⟩
  rcases hread with ⟨data, hmem, hlen, hload⟩
  rcases List.append_of_mem hmem with ⟨u₁, u₂, rfl⟩
  refine ⟨q₁, args, q₂ ++ u₁, data, u₂, ?_, hlock, hq.append ht, hsaved, hlen, gate, hload, hgate⟩
  simp only [List.append_assoc, List.cons_append]

theorem gatedAfter_witnessedRun {c : Client} {operationId : Str} {r : ExecutionResponse}
    {approval state : Json} {k : Option Str} {q : CallLog}
    (hl : Launched q (optionText r.approvalSha256)) (hq : HoldsLock q)
    (hclaim : ∀ t, HoldsLock t → Ready (q ++ t) (optionText r.approvalSha256) →
      ∀ req : ApiRequest, req.json = some (approvalBody r.approvalSha256) → Cleared (q ++ t) req) :
    GatedAfter q (witnessedRun L c operationId r approval state k) := by
  have hwait : Tame (Prog.attempt do
      let polls : Nat ← ask .patience
      awaitReady polls
      let gate ← readJson .ready 1024
      if pyEq gate (.ofList [("approval_sha256", optionText r.approvalSha256)]) then return ()
      else raise (.protocol "witness ready gate differs from approval" none) :
        Call (Except Exc Unit)) := by
    refine tame_attempt (tame_silent (silent_bind (silent_ask rfl) fun polls =>
      silent_bind (silent_awaitReady polls) fun _ =>
        silent_bind (silent_readJson _ _) fun gate => ?_))
    split
    · exact silent_pure _
    · exact silent_raise _
  refine gatedAfter_bind hwait ?_
  intro t ready htrace hholds
  cases ready with
  | error x => exact trivial
  | ok u =>
      have hready : Ready (q ++ t) (optionText r.approvalSha256) := by
        rcases traces_attempt.mp htrace with ⟨s, hs, hbody⟩
        cases hs
        rcases traces_bind_ok.mp hbody with ⟨polls, t₁, t₂, _, h₂, rfl⟩
        rcases traces_bind_ok.mp h₂ with ⟨_, t₃, t₄, _, h₄, rfl⟩
        rcases traces_bind_ok.mp h₄ with ⟨gate, t₅, t₆, hread, h₆, rfl⟩
        split at h₆
        · next hgate =>
            rcases traces_readJson hread with ⟨data, hmem, hlen, hload⟩
            refine ready_of_read hl hq hholds ⟨data, ?_, hlen, hload⟩ hgate
            exact List.mem_append_right _ (List.mem_append_right _ (List.mem_append_left _ hmem))
        · cases h₆.2
      refine gatedAfter_before (gatedAfter_claim (hclaim t hholds hready)) ?_
      intro s
      rcases s with ⟨state', claimed⟩
      cases claimed with
      | error x => exact tame_pure _
      | ok u =>
          refine tame_bind (tame_attempt ?_) fun _ => tame_pure _
          exact tame_bind (tame_save (by decide) _) fun _ => tame_ask (outsideGate_quiet rfl)

/-- A dispatch with the lock, of an approval that was saved. -/
theorem gatedAfter_dispatch {c : Client} {a : Args} {requested : Requested}
    {privateHeaders : List (Str × Str)} {r : ExecutionResponse} {approval state : Json}
    {files : Option WitnessFiles} {q : CallLog} {data : Bytes} (hlock : Locks q) (hq : HoldsLock q)
    (hsaved : ⟨.replace .approval data, .ok ()⟩ ∈ q)
    (hw : loadsBytes data = some (.ofList (bindingMembers r approval)))
    (hmode : approval.get "evidence_mode" = .str (lit "witnessed") → files.isSome = true) :
    GatedAfter q (dispatch L c a requested privateHeaders r approval state files) := by
  have hdigest : (Json.ofList (bindingMembers r approval)).get "approval_sha256" =
      optionText r.approvalSha256 := by
    simp [bindingMembers, Json.ofList, Json.get, Json.lookup]
  have happroval : (Json.ofList (bindingMembers r approval)).get "approval" = approval := by
    simp [bindingMembers, Json.ofList, Json.get, Json.lookup]
  have hcleared : ∀ t, (approval.get "evidence_mode" = .str (lit "witnessed") →
      Ready (q ++ t) (optionText r.approvalSha256)) → ∀ req : ApiRequest,
      req.json = some (approvalBody r.approvalSha256) → Cleared (q ++ t) req := by
    intro t hready req hreq
    refine ⟨data, _, List.mem_append_left t hsaved, hw, ?_, ?_⟩
    · rw [hreq, hdigest]
      rfl
    · rw [happroval, hdigest]
      exact hready
  cases files with
  | none =>
      refine gatedAfter_before (gatedAfter_claim ?_) ?_
      · intro req hreq
        have h := hcleared [] (fun hm => absurd (hmode hm) (by decide)) req hreq
        rw [List.append_nil] at h
        exact h
      · intro s
        refine tame_bind (tame_computed _) fun _ => ?_
        refine tame_bind (tame_attempt ?_) fun response => ?_
        · exact tame_bind (tame_ask (outsideGate_startSend _)) fun thread =>
            tame_bind (tame_ask (outsideGate_quiet rfl)) fun value => tame_computed _
        · split
          · exact tame_pure _
          · split
            · exact tame_pure _
            · exact tame_raise _
  | some files =>
      simp only [dispatch, dispatchWitnessed]
      split
      · exact trivial
      · refine gatedAfter_bind (tame_getExecutionWitnessToken c _ _ _) ?_
        intro t₁ admission _ h₁
        refine gatedAfter_bind (tame_computed _) ?_
        intro t₂ _ _ h₂
        refine gatedAfter_bind (tame_computed _) ?_
        intro t₃ _ _ h₃
        refine gatedAfter_bind (tame_ask (outsideGate_quiet rfl)) ?_
        intro t₄ _ hstart h₄
        refine gatedAfter_bind (tame_computed _) ?_
        intro t₅ stdin _ h₅
        refine gatedAfter_bind (tame_ask (outsideGate_communicate _)) ?_
        intro t₆ _ _ h₆
        have hlaunched : Launched (q ++ t₁ ++ t₂ ++ t₃ ++ t₄ ++ t₅ ++ t₆)
            (optionText r.approvalSha256) := by
          refine Launched.mono t₆ (Launched.mono t₅ ?_)
          rw [ask_ok hstart]
          refine ⟨q ++ t₁ ++ t₂ ++ t₃, _, [], rfl, ((hlock.mono t₁).mono t₂).mono t₃, ?_⟩
          refine SavedApproval.mono t₃ (SavedApproval.mono t₂ (SavedApproval.mono t₁ ?_))
          exact ⟨data, _, hsaved, hw, hdigest⟩
        have hholds := ((((hq.append h₁).append h₂).append h₃).append h₄).append h₅
        refine gatedAfter_before (gatedAfter_witnessedRun hlaunched (hholds.append h₆) ?_) ?_
        · intro t ht hready req hreq
          have hsplit : q ++ t₁ ++ t₂ ++ t₃ ++ t₄ ++ t₅ ++ t₆ ++ t =
              q ++ (t₁ ++ t₂ ++ t₃ ++ t₄ ++ t₅ ++ t₆ ++ t) := by
            simp only [List.append_assoc]
          rw [hsplit] at hready ⊢
          exact hcleared _ (fun _ => hready) req hreq
        · intro s
          refine tame_bind (tame_ask (outsideGate_quiet rfl)) fun _ => ?_
          refine tame_bind (tame_silent (silent_afterRun _ _)) fun _ => ?_
          exact tame_bind (tame_silent (silent_witnessArtifacts _)) fun _ => tame_pure _

/-! ### The calls -/

theorem authorization_approval (r : ExecutionResponse) :
    (journalAuthorization r).get "approval" = r.approval := by
  have hget : r.toJson.get "approval" = r.approval := by
    simp [ExecutionResponse.toJson, Json.ofList, Json.get, Json.lookup]
  unfold journalAuthorization
  split
  · rw [Json.get_set_other (by decide)]
    exact hget
  · exact hget

theorem gatedAfter_dispatchApproved {c : Client} {a : Args} {requested : Requested}
    {privateHeaders : List (Str × Str)} {state : Json} {r : ExecutionResponse} {q : CallLog}
    (hlock : Locks q) (hq : HoldsLock q) (hr : (journalAuthorization r).WellFormed) :
    GatedAfter q (dispatchApproved L c a requested privateHeaders state r) := by
  have hvalidate : Silent (validateApproval L r requested) :=
    silent_bind (silent_computed _) fun approval =>
      silent_bind (silent_live L approval) fun _ => silent_pure _
  refine gatedAfter_bind (tame_silent hvalidate) ?_
  intro t₁ approval happroval h₁
  have happroves : Approves L r requested approval := by
    rcases traces_bind_ok.mp happroval with ⟨b, u₁, u₂, hcheck, hrest, _⟩
    rcases traces_bind_ok.mp hrest with ⟨_, u₃, u₄, _, hpure, _⟩
    cases hpure.2
    rcases traces_ofExcept.mp hcheck with ⟨_, hok⟩
    exact approves_of_ok hok.symm
  have hmode := happroves.mode
  have hwf : (Json.ofList (bindingMembers r approval)).WellFormed := by
    have h := Json.wellFormed_get hr "approval"
    rw [authorization_approval, ← happroves.own] at h
    simp [bindingMembers, Json.ofList, Json.WellFormed, Json.WellFormedMembers,
      wellFormed_optionText, h]
  refine gatedAfter_bind (tame_silent (silent_optionalFiles a r approval)) ?_
  intro t₂ files hfiles h₂
  have hwitnessed := returns_traces (returns_optionalFiles a r approval) hfiles files rfl
  refine gatedAfter_bind (tame_save (by decide) _) ?_
  intro t₃ _ hsave h₃
  rcases traces_save hsave with ⟨data, hw, hmem⟩
  have hload : loadsBytes data = some (.ofList (bindingMembers r approval)) :=
    loads_writes hw rfl hwf
  refine gatedAfter_before (gatedAfter_dispatch (((hlock.mono t₁).mono t₂).mono t₃)
    (((hq.append h₁).append h₂).append h₃) (List.mem_append_right _ hmem) hload ?_) ?_
  · intro hm
    rw [hwitnessed]
    unfold evidenceModeValid at hmode
    cases hmodeOf : r.effectiveEvidenceMode with
    | none => simp [hmodeOf] at hmode
    | some mode =>
        simp only [hmodeOf, hm, Bool.and_eq_true, decide_eq_true_eq, Json.str.injEq] at hmode
        rw [hmode.1.2]
  · intro s
    exact tame_settle c _ r s.1 s.2 _

theorem gatedAfter_proceed {c : Client} {a : Args} {requested : Requested}
    {privateHeaders : List (Str × Str)} {state : Json} {phase : String} {r : ExecutionResponse}
    {q : CallLog} (hlock : Locks q) (hq : HoldsLock q) (hr : (journalAuthorization r).WellFormed) :
    GatedAfter q (proceed L c a requested privateHeaders state phase r) := by
  refine gatedAfter_bind (tame_save (by decide) _) ?_
  intro t _ _ ht
  split
  · exact trivial
  · exact gatedAfter_dispatchApproved (hlock.mono t) (hq.append ht) hr

/-- The lock is taken before the body, and given back after it. -/
theorem gatedAfter_withLock {body : Call LocalExecutionResult} {q : CallLog} (hq : HoldsLock q)
    (h : ∀ q', Locks q' → HoldsLock q' → GatedAfter q' body) : GatedAfter q (withLock body) := by
  refine gatedAfter_bind (tame_ask (outsideGate_quiet rfl)) ?_
  intro t₁ _ _ h₁
  refine follows_always (M := fun _ _ => True) ?_ ?_
  · refine gatedAfter_bind (tame_attempt (tame_ask ⟨nofun, nofun, nofun⟩)) ?_
    intro t₂ locked hlocked h₂
    cases locked with
    | ok u =>
        rcases traces_attempt.mp hlocked with ⟨s, hs, hask⟩
        cases hs
        exact h _ (List.mem_append_right _ (traces_ask_ok hask)) ((hq.append h₁).append h₂)
    | error x =>
        simp only
        split
        · exact trivial
        · exact trivial
  · intro q' r _
    refine follows_perform ?_
    intro b
    refine ⟨_, ⟨⟨nofun, nofun⟩, rfl⟩, ?_⟩
    cases b with
    | ok _ => exact trivial
    | error _ => exact trivial

theorem gatedAfter_executeHttp {c : Client} {a : Args} {q : CallLog} (hq : HoldsLock q) :
    GatedAfter q (executeHttp L c a) := by
  refine gatedAfter_bind (tame_computed _) ?_
  intro t₁ built _ h₁
  refine gatedAfter_bind (tame_ask (outsideGate_quiet rfl)) ?_
  intro t₂ now _ h₂
  refine gatedAfter_bind (tame_ask (outsideGate_quiet rfl)) ?_
  intro t₃ _ _ h₃
  split
  · exact trivial
  · refine gatedAfter_bind (tame_ask (outsideGate_quiet rfl)) ?_
    intro t₄ exists_ _ h₄
    split
    · exact trivial
    · refine gatedAfter_bind (tame_ask (outsideGate_quiet rfl)) ?_
      intro t₅ _ _ h₅
      refine gatedAfter_bind (tame_attempt (tame_ask ⟨nofun, nofun, nofun⟩)) ?_
      intro t₆ made _ h₆
      split
      · exact trivial
      · exact trivial
      · refine gatedAfter_bind (tame_computed _) ?_
        intro t₇ digest _ h₇
        refine gatedAfter_bind (tame_save (by decide) _) ?_
        intro t₈ _ _ h₈
        refine gatedAfter_withLock ?_ ?_
        · exact (((((((hq.append h₁).append h₂).append h₃).append h₄).append h₅).append h₆).append
            h₇).append h₈
        · intro q' hlock hholds
          refine gatedAfter_bind (tame_prepareExecution c _ _ _) ?_
          intro t₉ r hr h₉
          exact gatedAfter_proceed (hlock.mono t₉) (hholds.append h₉)
            (returns_traces (returns_prepareExecution c _ _ _) hr r rfl)

theorem gatedAfter_continueHttpExecution {c : Client} {a : Args} {q : CallLog} (hq : HoldsLock q) :
    GatedAfter q (continueHttpExecution L c a) := by
  refine gatedAfter_bind (tame_computed _) ?_
  intro t₁ built _ h₁
  refine gatedAfter_bind (tame_ask (outsideGate_quiet rfl)) ?_
  intro t₂ _ _ h₂
  split
  · exact trivial
  · refine gatedAfter_bind (tame_ask (outsideGate_quiet rfl)) ?_
    intro t₃ isDir _ h₃
    split
    · exact trivial
    · refine gatedAfter_withLock (((hq.append h₁).append h₂).append h₃) ?_
      intro q' hlock hholds
      refine gatedAfter_bind (tame_silent (silent_readJson _ _)) ?_
      intro t₅ v _ h₅
      refine gatedAfter_bind (tame_computed _) ?_
      intro t₆ resumed _ h₆
      refine gatedAfter_bind (tame_save (by decide) _) ?_
      intro t₇ _ _ h₇
      refine gatedAfter_bind (tame_continueExecution c _ _ _ _) ?_
      intro t₈ r hr h₈
      exact gatedAfter_proceed ((((hlock.mono t₅).mono t₆).mono t₇).mono t₈)
        ((((hholds.append h₅).append h₆).append h₇).append h₈)
        (returns_traces (returns_continueExecution c _ _ _ _) hr r rfl)

/-- Every program that can be started. -/
theorem code_gated (L : Libs) (cmd : Command) : Logs Gated (code L cmd) := by
  have hnil : HoldsLock [] := fun _ h => by cases h
  cases cmd with
  | execute c a => exact gatedAfter_before (gatedAfter_executeHttp hnil) fun _ => tame_pure _
  | continuation c a =>
      exact gatedAfter_before (gatedAfter_continueHttpExecution hnil) fun _ => tame_pure _
  | flush c k => exact gatedAfter_before (gatedAfter_tame (tame_flush c k)) fun _ => tame_pure _
  | send s => exact gatedAfter_before (gatedAfter_tame (tame_providerSend s)) fun _ => tame_pure _

/-! ### Runs -/

variable {operationId : Str} {h : List Happening} {author : List Happening → Nat}

/-- Who has the lock after an event. -/
def turn (e : Happening) (lock : Option Nat) : Option Nat :=
  match e with
  | .did a _ .flock (.ok _) => some a
  | .did a _ .closeLock _ => if lock = some a then none else lock
  | .crashed a => if lock = some a then none else lock
  | _ => lock

/-- Who has the lock. -/
def holder : List Happening → Option Nat
  | [] => none
  | e :: h => turn e (holder h)

/-- The file after an event. -/
def written (e : Happening) (content : Option Bytes) : Option Bytes :=
  match e with
  | .disturbed ⟨.ready, content⟩ => content
  | _ => content

/-- The file as the native processes have left it. -/
def lastReady : List Happening → Option Bytes
  | [] => none
  | e :: h => written e (lastReady h)

/-- The file names the approval that the call has saved. -/
def GateForOwn (q : CallLog) (content : Bytes) : Prop :=
  ∃ digest, SavedApproval q digest ∧ GateFor content digest

/-- The process of the call wrote this file, after it was started. -/
def Wrote (author : List Happening → Nat) (a : Nat) (h : List Happening) (content : Bytes) : Prop :=
  ∃ late early, h = late ++ .disturbed ⟨.ready, some content⟩ :: early ∧ author early = a ∧
    ∃ root args, .did a root (.startNative args) (.ok ()) ∈ early

/-- When a call starts its process, no file names its approval, and while it has the lock
    no process of another call writes one. -/
def TidyStep (author : List Happening → Nat) (e : Happening) (past : List Happening) : Prop :=
  (∀ a root args content, e = .did a root (.startNative args) (.ok ()) →
    lastReady past = some content → ¬ GateForOwn (own a past) content) ∧
  ∀ a content, e = .disturbed ⟨.ready, some content⟩ → holder past = some a →
    author past = a ∨ ¬ GateForOwn (own a past) content

/-- A run without files or processes left over. -/
def Tidy (author : List Happening → Nat) (h : List Happening) : Prop := Always (TidyStep author) h

/-- A claim is sent for the approval that was saved. A witnessed one comes after a file that
    names this approval, which the process of the same call has written. -/
def Awaited (author : List Happening → Nat) (e : Happening) (past : List Happening) : Prop :=
  ∀ a root req r id, e = .did a root (.http req) r → req.route = .dispatch id →
    ∃ data b, ⟨.replace .approval data, .ok ()⟩ ∈ own a past ∧ loadsBytes data = some b ∧
      req.json = some (.ofList [("approval_sha256", b.get "approval_sha256")]) ∧
      ((b.get "approval").get "evidence_mode" = .str (lit "witnessed") →
        ∃ content, GateFor content (b.get "approval_sha256") ∧ Wrote author a past content)

theorem Wrote.mono {a : Nat} {content : Bytes} (e : Happening) (hw : Wrote author a h content) :
    Wrote author a (e :: h) content := by
  rcases hw with ⟨late, early, rfl, ha, hstart⟩
  exact ⟨e :: late, early, rfl, ha, hstart⟩

theorem Launched.locks {q : CallLog} {digest : Json} (hl : Launched q digest) : Locks q := by
  rcases hl with ⟨q₁, args, q₂, rfl, hlock, _⟩
  exact hlock.mono _

theorem Launched.saved {q : CallLog} {digest : Json} (hl : Launched q digest) :
    SavedApproval q digest := by
  rcases hl with ⟨q₁, args, q₂, rfl, _, hsaved⟩
  exact hsaved.mono _

/-- The process was started before the last operation, or by it. -/
theorem launched_snoc {q : CallLog} {x : (o : Op) × Except Fault o.Answer} {digest : Json}
    (hl : Launched (q ++ [x]) digest) : Launched q digest ∨
      (∃ args, x = ⟨.startNative args, .ok ()⟩) ∧ Locks q ∧ SavedApproval q digest := by
  rcases hl with ⟨q₁, args, q₂, hsplit, hlock, hsaved⟩
  rcases List.eq_nil_or_concat q₂ with rfl | ⟨q₂', y, rfl⟩
  · rcases List.append_inj' hsplit rfl with ⟨rfl, hx⟩
    rw [List.cons.injEq] at hx
    exact Or.inr ⟨⟨args, hx.1⟩, hlock, hsaved⟩
  · rw [List.concat_eq_append, ← List.cons_append, ← List.append_assoc] at hsplit
    exact Or.inl ⟨q₁, args, q₂', (List.append_inj' hsplit rfl).1, hlock, hsaved⟩

/-- The file was read before the last operation, or by it. -/
theorem ready_snoc {q : CallLog} {x : (o : Op) × Except Fault o.Answer} {digest : Json}
    (hr : Ready (q ++ [x]) digest) : Ready q digest ∨
      Launched q digest ∧ ∃ data, x = ⟨.read .ready 1024, .ok data⟩ ∧ GateFor data digest := by
  rcases hr with ⟨q₁, args, q₂, data, q₃, hsplit, hlock, hholds, hsaved, hnames⟩
  have hholds' : HoldsLock q := fun r hmem => hholds r (List.mem_append_left _ hmem)
  rcases List.eq_nil_or_concat q₃ with rfl | ⟨q₃', y, rfl⟩
  · rcases List.append_inj' hsplit rfl with ⟨rfl, hx⟩
    rw [List.cons.injEq] at hx
    exact Or.inr ⟨⟨q₁, args, q₂, rfl, hlock, hsaved⟩, data, hx.1, hnames⟩
  · rw [List.concat_eq_append, ← List.cons_append, ← List.append_assoc] at hsplit
    exact Or.inl ⟨q₁, args, q₂, data, q₃', (List.append_inj' hsplit rfl).1, hlock, hholds', hsaved,
      hnames⟩

theorem Ready.holds {q : CallLog} {digest : Json} (hr : Ready q digest) : HoldsLock q := by
  rcases hr with ⟨_, _, _, _, _, _, _, hholds, _⟩
  exact hholds

/-! ### The lock and the file -/

theorem perform_turn {a n root : Nat} {o : Op} {r : Except Fault o.Answer} {s s' : Folder}
    (hp : perform a n o r s = some s') : s'.lock = turn (.did a root o r) s.lock := by
  have hite : ∀ {c : Prop} [Decidable c] {t : Folder}, (if c then some t else none) = some s' →
      s' = t := by
    intro c _ t h
    split at h
    · cases h
      rfl
    · cases h
  unfold perform at hp
  split at hp
  · rw [hite hp]
    rfl
  · rw [hite hp]
    rfl
  · rw [hite hp]
    rfl
  · split at hp
    · cases hp
    · cases hp
      rfl
  · rw [hite hp]
    rfl
  · cases hp
    rfl
  · cases hp
    rfl
  · split at hp
    · rw [hite hp]
      rfl
    · cases hp
  · rw [hite hp]
    rfl
  · rw [hite hp]
    rfl
  · rw [hite hp]
    rfl
  · next hflock hclose _ _ _ _ _ =>
      cases hp
      cases o with
      | flock =>
          cases r with
          | ok u => exact (hflock u rfl HEq.rfl).elim
          | error x => rfl
      | closeLock => exact (hclose r rfl HEq.rfl).elim
      | _ => rfl

/-- The lock is only taken when it is free. -/
theorem perform_flock {a n : Nat} {u : Op.flock.Answer} {s s' : Folder}
    (hp : perform a n .flock (.ok u) s = some s') : s.lock = none := by
  rw [perform] at hp
  split at hp
  · next h => exact h
  · cases hp

/-- Only the native process writes the file. -/
theorem perform_ready {a n : Nat} {o : Op} {r : Except Fault o.Answer} {s s' : Folder}
    (hp : perform a n o r s = some s') (ho : ∀ data, o ≠ .replace .ready data) :
    s'.files .ready = s.files .ready := by
  have hite : ∀ {c : Prop} [Decidable c] {t : Folder}, (if c then some t else none) = some s' →
      s' = t := by
    intro c _ t h
    split at h
    · cases h
      rfl
    · cases h
  unfold perform at hp
  split at hp
  · rw [hite hp]
  · rw [hite hp]
  · rw [hite hp]
  · split at hp
    · cases hp
    · cases hp
      rfl
  · rw [hite hp]
  · cases hp
    rfl
  · next file data _ =>
      cases hp
      refine files_write_other ?_ s _
      intro hf
      exact ho data (by rw [hf])
  · split at hp
    · rw [hite hp]
    · cases hp
  · rw [hite hp]
  · rw [hite hp]
  · rw [hite hp]
  · cases hp
    rfl

theorem holder_did {a b root : Nat} {o : Op} {r : Except Fault o.Answer}
    (hb : holder h = some b) (hne : b ≠ a) (ho : ∀ u, (⟨o, r⟩ : (o : Op) × Except Fault o.Answer) ≠
      ⟨.flock, .ok u⟩) : holder (.did a root o r :: h) = some b := by
  rw [holder]
  unfold turn
  split
  · next heq =>
      cases heq
      exact absurd rfl (ho _)
  · next heq =>
      cases heq
      rw [if_neg]
      · exact hb
      · rw [hb, Option.some.injEq]
        exact hne
  · next heq => cases heq
  · exact hb

/-- What is known of a run. -/
structure Attending (author : List Happening → Nat) (s : Folder) (roles : Roles CallLog)
    (h : List Happening) : Prop where
  log : ∀ a root q, roles a = some (root, q) → q = own a h
  lock : s.lock = holder h
  file : s.files .ready = lastReady h
  held : ∀ a root q, roles a = some (root, q) → Locks q → HoldsLock q → holder h = some a
  wrote : Tidy author h → ∀ a root q, roles a = some (root, q) → HoldsLock q → ∀ digest content,
    Launched q digest → lastReady h = some content → GateFor content digest →
      Wrote author a h content
  read : Tidy author h → ∀ a root q, roles a = some (root, q) → ∀ digest, Ready q digest →
    ∃ content, GateFor content digest ∧ Wrote author a h content

theorem not_locks_nil : ¬ Locks [] := fun hl => by cases hl

/-- Something happened that is neither an operation nor a write. -/
theorem Attending.other {s s' : Folder} {roles roles' : Roles CallLog} {e : Happening}
    (hG : Attending author s roles h)
    (hroles : ∀ a root q, roles' a = some (root, q) →
      roles a = some (root, q) ∧ own a (e :: h) = own a h ∨ q = [] ∧ own a (e :: h) = [])
    (hlock : s'.lock = turn e s.lock)
    (hheld : ∀ a root q, roles' a = some (root, q) → holder h = some a → holder (e :: h) = some a)
    (hfile : s'.files .ready = s.files .ready) (hwritten : lastReady (e :: h) = lastReady h) :
    Attending author s' roles' (e :: h) where
  log a root q ha := by
    rcases hroles a root q ha with ⟨ha, hown⟩ | ⟨hq, hown⟩
    · rw [hown]
      exact hG.log a root q ha
    · rw [hown, hq]
  lock := by rw [hlock, hG.lock, holder]
  file := by rw [hfile, hwritten, hG.file]
  held a root q ha hl hq := by
    rcases hroles a root q ha with ⟨hold, _⟩ | ⟨rfl, _⟩
    · exact hheld a root q ha (hG.held a root q hold hl hq)
    · exact absurd hl not_locks_nil
  wrote ht a root q ha hq digest content hl hc hn := by
    rcases hroles a root q ha with ⟨hold, _⟩ | ⟨rfl, _⟩
    · rw [hwritten] at hc
      exact (hG.wrote ht.2 a root q hold hq digest content hl hc hn).mono e
    · exact absurd hl.locks not_locks_nil
  read ht a root q ha digest hr := by
    rcases hroles a root q ha with ⟨hold, _⟩ | ⟨rfl, _⟩
    · rcases hG.read ht.2 a root q hold digest hr with ⟨content, hn, hw⟩
      exact ⟨content, hn, hw.mono e⟩
    · rcases hr with ⟨q₁, args, q₂, data, q₃, hsplit, _⟩
      simp at hsplit

/-- A program has performed an operation. -/
theorem Attending.act {s s' : Folder} {roles : Roles CallLog} {a root n : Nat} {q q' : CallLog}
    {o : Op} {r : Except Fault o.Answer} (hG : Attending author s roles h)
    (ha : roles a = some (root, q)) (he : Grows Gated q o r q') (hp : perform a n o r s = some s') :
    Attending author s' (Function.update roles a (some (root, q'))) (.did a root o r :: h) := by
  rcases he with ⟨hgated, rfl⟩
  have hq := hG.log a root q ha
  have hread : lastReady (.did a root o r :: h) = lastReady h := rfl
  have hroot : ∀ {b root' q''}, Function.update roles a (some (root, q ++ [⟨o, r⟩])) b =
      some (root', q'') → b = a ∧ root' = root ∧ q'' = q ++ [⟨o, r⟩] ∨
        b ≠ a ∧ roles b = some (root', q'') := by
    intro b root' q'' hb
    rcases update_some hb with ⟨hba, hx⟩ | hother
    · cases hx
      exact Or.inl ⟨hba, rfl, rfl⟩
    · exact Or.inr hother
  have hturn : s'.lock = holder (.did a root o r :: h) := by
    rw [@perform_turn _ _ root _ _ _ _ hp, hG.lock, holder]
  -- The lock stays with the others, since it is not taken while they have it.
  have hothers : ∀ b, b ≠ a → holder h = some b → holder (.did a root o r :: h) = some b := by
    intro b hba hb
    refine holder_did hb hba ?_
    intro u heq
    cases heq
    have hnone := hG.lock
    rw [perform_flock hp, hb] at hnone
    cases hnone
  refine ⟨?_, hturn, ?_, ?_, ?_, ?_⟩
  · intro b root' q'' hb
    rcases hroot hb with ⟨rfl, _, rfl⟩ | ⟨hba, hb⟩
    · rw [own, if_pos rfl, ← hq]
    · rw [own, if_neg (Ne.symm hba)]
      exact hG.log b root' q'' hb
  · rw [perform_ready hp hgated.1, hread, hG.file]
  · intro b root' q'' hb hl hh
    rcases hroot hb with ⟨rfl, _, rfl⟩ | ⟨hba, hb⟩
    · have hne : o ≠ .closeLock := by
        rintro rfl
        exact hh r (List.mem_append_right q List.mem_cons_self)
      rcases List.mem_append.mp hl with hl | hl
      · have hheld := hG.held b root q ha hl fun r hr => hh r (List.mem_append_left _ hr)
        rw [holder]
        unfold turn
        split
        · next heq =>
            cases heq
            rfl
        · next heq =>
            cases heq
            exact absurd rfl hne
        · next heq => cases heq
        · exact hheld
      · rw [List.mem_singleton] at hl
        cases hl
        rfl
    · exact hothers b hba (hG.held b root' q'' hb hl hh)
  · intro ht b root' q'' hb hh digest content hl hc hn
    rw [hread] at hc
    rcases hroot hb with ⟨rfl, _, rfl⟩ | ⟨_, hb⟩
    · have hh' : HoldsLock q := fun r hr => hh r (List.mem_append_left _ hr)
      rcases launched_snoc hl with hl | ⟨⟨args, heq⟩, _, hsaved⟩
      · exact (hG.wrote ht.2 b root q ha hh' digest content hl hc hn).mono _
      · cases heq
        rw [hq] at hsaved
        exact absurd ⟨digest, hsaved, hn⟩ (ht.1.1 b root args content rfl hc)
    · exact (hG.wrote ht.2 b root' q'' hb hh digest content hl hc hn).mono _
  · intro ht b root' q'' hb digest hr
    rcases hroot hb with ⟨rfl, _, rfl⟩ | ⟨_, hb⟩
    · have hh := hr.holds
      have hh' : HoldsLock q := fun r hr => hh r (List.mem_append_left _ hr)
      rcases ready_snoc hr with hr | ⟨hl, data, heq, hn⟩
      · rcases hG.read ht.2 b root q ha digest hr with ⟨content, hn, hw⟩
        exact ⟨content, hn, hw.mono _⟩
      · cases heq
        -- What is read is what the file holds.
        rcases perform_read hp with ⟨_, content, hfile, hdata⟩
        have hcontent : content = data := by
          have hlen := hn.1
          rw [hdata, List.length_take] at hlen
          rw [hdata, List.take_of_length_le (by omega)]
        rw [hcontent, hG.file] at hfile
        exact ⟨data, hn, (hG.wrote ht.2 b root q ha hh' digest data hl hfile hn).mono _⟩
    · rcases hG.read ht.2 b root' q'' hb digest hr with ⟨content, hn, hw⟩
      exact ⟨content, hn, hw.mono _⟩

/-- A program has started. -/
theorem Attending.begin {s : Folder} {roles : Roles CallLog} {n root : Nat} (c : Command)
    (hG : Attending author s roles h) :
    Attending author s (Function.update roles n (some (root, []))) (.began n root c :: h) := by
  refine hG.other ?_ rfl (fun _ _ _ _ hb => hb) rfl rfl
  intro a root' q ha
  by_cases han : a = n
  · rw [han, Function.update_self] at ha
    cases ha
    exact Or.inr ⟨rfl, by rw [own, if_pos han.symm]⟩
  · rw [Function.update_of_ne han] at ha
    exact Or.inl ⟨ha, by rw [own, if_neg (Ne.symm han)]⟩

/-- A program is gone. -/
theorem update_none {roles : Roles CallLog} {a b root : Nat} {q : CallLog}
    (hb : Function.update roles a none b = some (root, q)) : b ≠ a ∧ roles b = some (root, q) := by
  by_cases hba : b = a
  · rw [hba, Function.update_self] at hb
    cases hb
  · rw [Function.update_of_ne hba] at hb
    exact ⟨hba, hb⟩

/-- The native process of a call has written a file. -/
theorem Attending.disturb {s s' : Folder} {roles : Roles CallLog} {d : NativeWrite}
    (hG : Attending author s roles h) (hd : (system L operationId).disturb d s = some s') :
    Attending author s' roles (.disturbed d :: h) := by
  have hs' : s' = s.write d.file d.content := by
    simp only [system] at hd
    split at hd
    · cases hd
      rfl
    · cases hd
  rcases d with ⟨file, content⟩
  by_cases hfile : file = .ready
  · rw [hfile] at hs' ⊢
    have hlast : lastReady (.disturbed ⟨.ready, content⟩ :: h) = content := rfl
    refine ⟨hG.log, ?_, ?_, hG.held, ?_, ?_⟩
    · rw [hs', holder]
      exact hG.lock
    · rw [hs', hlast]
      exact Function.update_self File.ready content s.files
    · intro ht a root q ha hq digest content' hl hc hn
      rw [hlast] at hc
      rw [hc] at ht ⊢
      -- The call has the lock, so this is its own process.
      have hauthor := ht.1.2 a content' rfl (hG.held a root q ha hl.locks hq)
      rw [← hG.log a root q ha] at hauthor
      rcases hauthor with hauthor | hforeign
      · rcases hl with ⟨q₁, args, q₂, hsplit, _⟩
        have hmem : ⟨.startNative args, .ok ()⟩ ∈ own a h := by
          rw [← hG.log a root q ha, hsplit]
          exact List.mem_append_right q₁ List.mem_cons_self
        rcases mem_own hmem with ⟨root', hstart⟩
        exact ⟨[], h, rfl, hauthor, root', args, hstart⟩
      · exact absurd ⟨digest, hl.saved, hn⟩ hforeign
    · intro ht a root q ha digest hr
      rcases hG.read ht.2 a root q ha digest hr with ⟨content', hn, hw⟩
      exact ⟨content', hn, hw.mono _⟩
  · have hlast : lastReady (.disturbed ⟨file, content⟩ :: h) = lastReady h := by
      rw [lastReady]
      unfold written
      split
      · next heq =>
          cases heq
          exact absurd rfl hfile
      · rfl
    refine hG.other ?_ ?_ (fun _ _ _ _ hb => hb) ?_ hlast
    · intro a root q ha
      exact Or.inl ⟨ha, rfl⟩
    · rw [hs']
      rfl
    · rw [hs']
      exact files_write_other (Ne.symm hfile) s _

theorem preserves_attending (L : Libs) (operationId : Str) (author : List Happening → Nat)
    (post : CallLog → Except Exc Value → Prop) :
    Preserves (system L operationId) (Grows Gated) post (fun _ => []) (fun _ _ _ => True)
      (Attending author) where
  start s roles n h c _ hG _ _ := hG.begin c
  act s roles n h a root q o r s' q' _ hG ha _ he hp _ := hG.act ha he hp
  spawn s roles n h a root q o r s' q' c _ hG ha _ he hp _ := (hG.act ha he hp).begin c
  finish s roles h a root q r _ hG _ _ := by
    refine hG.other ?_ rfl (fun _ _ _ _ hb => hb) rfl rfl
    intro b root' q' hb
    exact Or.inl ⟨(update_none hb).2, rfl⟩
  crash s roles h a root q _ hG _ := by
    refine hG.other ?_ rfl ?_ rfl rfl
    · intro b root' q' hb
      exact Or.inl ⟨(update_none hb).2, rfl⟩
    · intro b root' q' hb hheld
      rw [holder, turn, if_neg]
      · exact hheld
      · rw [hheld, Option.some.injEq]
        exact (update_none hb).1
  disturb s roles h d s' _ hG hd := hG.disturb hd

/-- A claim has its file. -/
theorem preserves_awaited (L : Libs) (operationId : Str) (author : List Happening → Nat)
    (post : CallLog → Except Exc Value → Prop) :
    Preserves (system L operationId) (Grows Gated) post (fun _ => []) (Attending author)
      (fun _ _ h => Tidy author h → Always (Awaited author) h) := by
  have hact : ∀ {s : Folder} {roles : Roles CallLog} {h : List Happening} {a root : Nat}
      {q q' : CallLog} {o : Op} {r : Except Fault o.Answer}, Attending author s roles h →
      roles a = some (root, q) → Grows Gated q o r q' → Tidy author h →
      Awaited author (.did a root o r) h := by
    intro s roles h a root q q' o r hG ha he ht b root' req r' id heq hroute
    cases heq
    rcases he.1.2 req id rfl hroute with ⟨data, v, hmem, hw, hjson, hready⟩
    rw [← hG.log a root q ha]
    exact ⟨data, v, hmem, hw, hjson, fun hm => hG.read ht a root q ha _ (hready hm)⟩
  refine ⟨?_, ?_, ?_, ?_, ?_, ?_⟩
  · intro s roles n h c _ hall _ _ ht
    exact ⟨fun _ _ _ _ _ heq => (by cases heq), hall ht.2⟩
  · intro s roles n h a root q o r s' q' hG hall ha _ he _ _ ht
    exact ⟨hact hG ha he ht.2, hall ht.2⟩
  · intro s roles n h a root q o r s' q' c hG hall ha _ he _ _ ht
    exact ⟨fun _ _ _ _ _ heq => (by cases heq), hact hG ha he ht.2.2, hall ht.2.2⟩
  · intro s roles h a root q r _ hall _ _ ht
    exact ⟨fun _ _ _ _ _ heq => (by cases heq), hall ht.2⟩
  · intro s roles h a root q _ hall _ ht
    exact ⟨fun _ _ _ _ _ heq => (by cases heq), hall ht.2⟩
  · intro s roles h d s' _ hall _ ht
    exact ⟨fun _ _ _ _ _ heq => (by cases heq), hall ht.2⟩

/-- In a run without files or processes left over, a call claims its dispatch for a file of
    the process it has started itself. -/
theorem claim_awaits {w : Point} (hw : (system L operationId).Reachable Folder.fresh w)
    (ht : Tidy author w.history) : Always (Awaited author) w.history := by
  have hcode : ∀ c, (system L operationId).Starts c → Logs Gated ((system L operationId).code c) :=
    fun c _ => code_gated L c
  have hpreserves := (preserves_attending L operationId author fun _ _ => True).and
    (preserves_awaited L operationId author fun _ _ => True)
  have hstart : Attending author Folder.fresh (fun _ => none) [] := by
    refine ⟨?_, rfl, rfl, ?_, ?_, ?_⟩
    · intro a root q ha
      cases ha
    · intro a root q ha
      cases ha
    · intro _ a root q ha
      cases ha
    · intro _ a root q ha
      cases ha
  rcases invariant hcode hpreserves ⟨hstart, fun _ => trivial⟩ hw with ⟨_, _, _, hall⟩
  exact hall ht

/-! ### Samples -/

/-- What the sample's surroundings answer to every call. -/
def gateOutside : Outlook :=
  witnessedOutside (lit "a1") (witnessedResponse (lit "a1")).toJson (0, verifiedOutput (lit "a1"))

/-- The sample is executed, and claimed when its process has written its file. -/
def gatedScenario : List Move :=
  [.begin (.execute sampleClient witnessedArgs), .go 0 38 gateOutside,
    .disturb ⟨.ready, some (readyFile (lit "a1"))⟩, .go 0 11 gateOutside]

/-- Is it a claim that has just been sent? -/
def claimSent : List Happening → Bool
  | .did _ _ (.http req) _ :: _ => match req.route with
    | .dispatch _ => true
    | _ => false
  | _ => false

/-- Is the event tidy in a run with one call? -/
def tidyEvent (e : Happening) (past : List Happening) : Bool :=
  match e with
  | .did _ _ (.startNative _) _ => (lastReady past).isNone
  | .disturbed _ => (holder past).all (· = 0)
  | _ => true

def tidyRun : List Happening → Bool
  | [] => true
  | e :: past => tidyEvent e past && tidyRun past

theorem tidy_of_run (ht : tidyRun h = true) : Tidy (fun _ => 0) h := by
  induction h with
  | nil => exact trivial
  | cons e past ih =>
      rw [tidyRun, Bool.and_eq_true] at ht
      refine ⟨⟨?_, ?_⟩, ih ht.2⟩
      · intro a root args content heq hlast
        have hnone := ht.1
        rw [heq, tidyEvent, hlast] at hnone
        cases hnone
      · intro a content heq hholder
        have hzero := ht.1
        rw [heq, tidyEvent, hholder, Option.all_some, decide_eq_true_eq] at hzero
        exact Or.inl hzero.symm

set_option maxRecDepth 20000 in
theorem gated_sample : ∃ w : Point, (system witnessLibs (lit "op_1")).Reachable Folder.fresh w ∧
    claimSent w.history = true ∧ Always (Awaited fun _ => 0) w.history := by
  have hcheck : (scenario witnessLibs (lit "op_1") gatedScenario).any
      (fun w => claimSent w.history && tidyRun w.history) = true := by
    decide +kernel
  rcases scenario_reachable hcheck with ⟨w, hw, hcheck⟩
  rw [Bool.and_eq_true] at hcheck
  exact ⟨w, hw, hcheck.1, claim_awaits hw (tidy_of_run hcheck.2)⟩

/-- The sample waits for a review and is continued. When its process has written the file the
    call is stopped, and the operation is continued once more. -/
def staleScenario : List Move :=
  [.begin (.execute sampleClient witnessedArgs),
    .go 0 19 (witnessedOutside (lit "a1") sampleWaiting.toJson (0, verifiedOutput (lit "a1"))),
    .begin (.continuation sampleClient witnessedArgs), .go 1 33 gateOutside,
    .disturb ⟨.ready, some (readyFile (lit "a1"))⟩, .crash 1,
    .begin (.continuation sampleClient witnessedArgs), .go 2 44 gateOutside]

/-- Has the call started its process? -/
def started (a : Nat) : Happening → Bool
  | .did b _ (.startNative _) _ => a = b
  | _ => false

/-- Has nothing been written since the call started its process? -/
def unwritten (a : Nat) : List Happening → Bool
  | [] => true
  | .disturbed _ :: past => (past.all fun e => ! started a e) && unwritten a past
  | _ :: past => unwritten a past

theorem unwritten_cons {a : Nat} {e : Happening} (hu : unwritten a (e :: h) = true) :
    unwritten a h = true := by
  cases e with
  | disturbed d =>
      rw [unwritten, Bool.and_eq_true] at hu
      exact hu.2
  | _ => exact hu

theorem not_wrote {a : Nat} {content : Bytes} (hu : unwritten a h = true) :
    ¬ Wrote author a h content := by
  intro hw
  rcases hw with ⟨late, early, rfl, _, root, args, hstart⟩
  induction late with
  | nil =>
      rw [List.nil_append, unwritten, Bool.and_eq_true, List.all_eq_true] at hu
      have h := hu.1 _ hstart
      simp [started] at h
  | cons e late ih => exact ih (unwritten_cons hu)

/-- Does the file hold a witnessed approval? -/
def holdsWitnessed (data : Bytes) : Bool :=
  (loadsBytes data).all fun b => decide ((b.get "approval").get "evidence_mode" =
    .str (lit "witnessed"))

/-- Are the approvals that were saved witnessed? -/
def savedWitnessed : (o : Op) × Except Fault o.Answer → Bool
  | ⟨.replace .approval data, _⟩ => holdsWitnessed data
  | _ => true

/-- Is a witnessed claim sent, although nothing has been written since the process started? -/
def staleClaim : List Happening → Bool
  | .did a r o b :: past => claimSent (.did a r o b :: past) && (own a past).all savedWitnessed &&
      unwritten a past
  | _ => false

theorem not_awaited (hs : staleClaim h = true) : ¬ Always (Awaited author) h := by
  intro hall
  unfold staleClaim at hs
  split at hs
  · next a root o r past =>
      rw [Bool.and_eq_true, Bool.and_eq_true, List.all_eq_true] at hs
      rcases hs with ⟨⟨hsent, hsaved⟩, hunwritten⟩
      unfold claimSent at hsent
      split at hsent
      · next heq =>
          cases heq
          split at hsent
          · next req _ _ _ id hroute =>
              rcases hall.1 _ _ _ _ id rfl hroute with ⟨data, b, hmem, hload, _, hwrote⟩
              have hwitnessed := hsaved _ hmem
              rw [savedWitnessed, holdsWitnessed, hload, Option.all_some, decide_eq_true_eq]
                at hwitnessed
              rcases hwrote hwitnessed with ⟨content, _, hw⟩
              exact not_wrote hunwritten hw
          · cases hsent
      · cases hsent
  · cases hs

set_option maxRecDepth 20000 in
/-- A claim is sent for the file of an earlier attempt, whoever has written what. -/
theorem stale_gate : ∃ w : Point, (system witnessLibs (lit "op_1")).Reachable Folder.fresh w ∧
    ∀ author, ¬ Always (Awaited author) w.history := by
  have hcheck : (scenario witnessLibs (lit "op_1") staleScenario).any
      (fun w => staleClaim w.history) = true := by
    decide +kernel
  rcases scenario_reachable hcheck with ⟨w, hw, hcheck⟩
  exact ⟨w, hw, fun author => not_awaited hcheck⟩

end Allowly

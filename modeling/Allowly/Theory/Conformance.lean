import Allowly.Theory.Silent

/-!
# The Parts of a Call

How saving a file and sending a request follow the automaton of `Theory.Protocol`.
Each is one edge, with quiet operations around it, and can fail on either side of it.

## Main definitions

* `Saved`: Where a save ends.
* `Heard`: Where a request ends.
* `Agrees`, `Final`: What the answers to a claim and to a report say.

## Theorems

* `follows_silent_bind`, `follows_computed_bind`: A step that changes nothing.
* `follows_save`: Saving a file is one edge, the replacement.
* `follows_callRoute`: So is a request.
* `follows_prepare`, `follows_continueExecution`, `follows_claimExecutionDispatch`,
  `follows_reportExecutionOutcome`: The methods of the client.
-/

namespace Allowly

open Py Prog

variable {L : Libs}

/-! ### Rules -/

theorem follows_silent_bind {A B : Type} {p : Call A} {f : A → Call B} {q : Stage}
    {P : Except Exc A → Prop} {post : Stage → Except Exc B → Prop} (h : Silent p)
    (hp : Returns P p) (hok : ∀ a, P (.ok a) → Follows (Edge L) (f a) q post)
    (herr : ∀ x, P (.error x) → post q (.error x)) : Follows (Edge L) (p >>= f) q post := by
  refine follows_bind (follows_silent h hp) ?_ ?_
  · intro q' a ha
    rw [ha.1]
    exact hok a ha.2
  · intro q' x hx
    rw [hx.1]
    exact herr x hx.2

theorem follows_quiet_bind {B : Type} {o : Op} {f : o.Answer → Call B} {q : Stage}
    {post : Stage → Except Exc B → Prop} (h : Quiet o = true)
    (hok : ∀ a, Follows (Edge L) (f a) q post) (herr : ∀ x, post q (.error x)) :
    Follows (Edge L) (ask o >>= f) q post :=
  follows_silent_bind (silent_ask h) (returns_true _) (fun a _ => hok a) (fun x _ => herr x)

theorem follows_computed_bind {A B : Type} {r : Except Exc A} {f : A → Call B} {q : Stage}
    {post : Stage → Except Exc B → Prop} (hok : ∀ a, r = .ok a → Follows (Edge L) (f a) q post)
    (herr : ∀ x, r = .error x → post q (.error x)) :
    Follows (Edge L) (computed r >>= f) q post := by
  cases r with
  | ok a => exact hok a rfl
  | error x => exact herr x rfl

/-- An operation that is asked for, with an edge for each answer. -/
theorem follows_ask {o : Op} {q : Stage} {post : Stage → Except Exc o.Answer → Prop}
    (hok : ∀ a, ∃ q', Edge L q o (.ok a) q' ∧ post q' (.ok a))
    (herr : ∀ x : Fault, ∃ q', Edge L q o (.error x) q' ∧ post q' (.error x.val)) :
    Follows (Edge L) (ask o) q post := by
  refine follows_perform ?_
  intro r
  cases r with
  | ok a => exact hok a
  | error x => exact herr x

theorem follows_quiet_ask {o : Op} {q : Stage} {post : Stage → Except Exc o.Answer → Prop}
    (h : Quiet o = true) (hpost : ∀ r, post q r) : Follows (Edge L) (ask o) q post := by
  refine follows_ask ?_ ?_
  · intro a
    exact ⟨q, Edge.quiet q o _ h, hpost _⟩
  · intro x
    exact ⟨q, Edge.quiet q o _ h, hpost _⟩

/-! ### Files -/

/-- A file was saved, and the stage reached; or else the save has failed. -/
def Saved (q q' : Stage) (p : Stage) (r : Except Exc Unit) : Prop :=
  p = q' ∨ (p = q ∧ failed r)

theorem Saved.of_ok {q q' p : Stage} (h : Saved q q' p (.ok ())) : p = q' := by
  rcases h with h | h
  · exact h
  · exact h.2.elim

theorem follows_save {file : File} {v : Json} {q q' : Stage}
    (hedge : ∀ data, Writes data v → Edge L q (.replace file data) (.ok ()) q') :
    Follows (Edge L) (save file v) q (Saved q q') := by
  refine follows_quiet_bind rfl ?_ (fun x => Or.inr ⟨rfl, trivial⟩)
  intro _
  refine follows_always (M := Saved q q') ?_ ?_
  · refine follows_computed_bind ?_ (fun x _ => Or.inr ⟨rfl, trivial⟩)
    intro data hdata
    refine follows_quiet_bind rfl ?_ (fun x => Or.inr ⟨rfl, trivial⟩)
    intro _
    refine follows_bind (M := Saved q q') (follows_ask ?_ ?_) ?_ ?_
    · intro a
      exact ⟨q', hedge data hdata, Or.inl rfl⟩
    · intro x
      exact ⟨q, Edge.failed q _ x rfl, Or.inr ⟨rfl, trivial⟩⟩
    · intro p a hp
      rw [hp.of_ok]
      exact follows_quiet_ask rfl fun r => Or.inl rfl
    · intro p x hp
      exact hp
  · intro p r hp
    refine follows_quiet_ask rfl ?_
    intro s
    cases s with
    | ok _ => exact hp
    | error x =>
        rcases hp with hp | hp
        · exact Or.inl hp
        · exact Or.inr ⟨hp.1, trivial⟩

theorem silent_save_response (v : Json) : Silent (save .response v) := by
  refine silent_bind (silent_ask rfl) ?_
  intro _
  refine uses_always (silent_bind (silent_computed _) ?_) (silent_ask rfl)
  intro data
  refine silent_bind (silent_ask rfl) ?_
  intro _
  exact silent_bind (silent_ask rfl) fun _ => silent_ask rfl

/-! ### Requests -/

/-- A request was not sent, or not answered, or its answer is known. -/
def Heard {A : Type} (q lost : Stage) (heard : ApiResponse → Stage) (good : ApiResponse → A → Prop)
    (p : Stage) (r : Except Exc A) : Prop :=
  ((p = q ∨ p = lost) ∧ failed r) ∨ ∃ resp, p = heard resp ∧ ∀ a, r = .ok a → good resp a

theorem Heard.of_ok {A : Type} {q lost p : Stage} {heard : ApiResponse → Stage}
    {good : ApiResponse → A → Prop} {a : A} (h : Heard q lost heard good p (.ok a)) :
    ∃ resp, p = heard resp ∧ good resp a := by
  rcases h with h | ⟨resp, hp, hgood⟩
  · exact h.2.elim
  · exact ⟨resp, hp, hgood a rfl⟩

theorem Heard.error {A B : Type} {q lost p : Stage} {heard : ApiResponse → Stage}
    {good : ApiResponse → A → Prop} {good' : ApiResponse → B → Prop} {x : Exc}
    (h : Heard q lost heard good p (.error x)) : Heard q lost heard good' p (.error x) := by
  rcases h with h | ⟨resp, hp, _⟩
  · exact Or.inl ⟨h.1, trivial⟩
  · refine Or.inr ⟨resp, hp, ?_⟩
    intro a ha
    cases ha

/-- A computation on the answer. -/
theorem follows_computed_heard {A B : Type} {q lost : Stage} {heard : ApiResponse → Stage}
    {good : ApiResponse → A → Prop} {resp : ApiResponse} {r : Except Exc B} {f : B → Call A}
    (hf : ∀ b, r = .ok b → Follows (Edge L) (f b) (heard resp) (Heard q lost heard good)) :
    Follows (Edge L) (computed r >>= f) (heard resp) (Heard q lost heard good) := by
  refine follows_computed_bind hf ?_
  intro x _
  refine Or.inr ⟨resp, rfl, ?_⟩
  intro a ha
  cases ha

theorem follows_heard_raise {A : Type} {q lost : Stage} {heard : ApiResponse → Stage}
    {good : ApiResponse → A → Prop} {resp : ApiResponse} (x : Exc) :
    Follows (Edge L) (raise x : Call A) (heard resp) (Heard q lost heard good) := by
  refine Or.inr ⟨resp, rfl, ?_⟩
  intro a ha
  cases ha

theorem follows_heard_pure {A : Type} {q lost : Stage} {heard : ApiResponse → Stage}
    {good : ApiResponse → A → Prop} {resp : ApiResponse} {a : A} (h : good resp a) :
    Follows (Edge L) (pure a : Call A) (heard resp) (Heard q lost heard good) := by
  refine Or.inr ⟨resp, rfl, ?_⟩
  intro b hb
  cases hb
  exact h

/-- The answer is JSON, with one of the expected statuses. -/
def Answer (L : Libs) (expected : List Nat) (resp : ApiResponse) (raw : Json) : Prop :=
  ∃ sensitive, readResponse L sensitive expected resp = .ok raw

theorem follows_send {req : ApiRequest} {q lost : Stage} {heard : ApiResponse → Stage}
    (hget : req.route.isGet = false)
    (hok : ∀ resp, Edge L q (.http req) (.ok resp) (heard resp))
    (herr : ∀ x, Edge L q (.http req) (.error x) lost) :
    Follows (Edge L) (send req) q (Heard q lost heard fun resp resp' => resp' = resp) := by
  refine follows_bind
    (M := fun p s => ∃ r, s = .ok r ∧ Heard q lost heard (fun resp resp' => resp' = resp) p r)
    ?_ ?_ ?_
  · refine follows_attempt (follows_ask ?_ ?_)
    · intro resp
      refine ⟨heard resp, hok resp, _, rfl, Or.inr ⟨resp, rfl, ?_⟩⟩
      intro a ha
      cases ha
      rfl
    · intro x
      exact ⟨lost, herr x, _, rfl, Or.inl ⟨Or.inr rfl, trivial⟩⟩
  · intro p s hs
    rcases hs with ⟨r, hr, hp⟩
    cases hr
    cases s with
    | ok resp => exact hp
    | error x =>
        -- only a read is repeated
        cases x with
        | remoteProtocol =>
            simp only [hget]
            exact hp
        | _ => exact hp
  · intro p x hs
    rcases hs with ⟨r, hr, _⟩
    cases hr

theorem follows_requestWithHeaders {c : Client} {route : Route} {path : Str} {json : Option Json}
    {headers : List (Str × Str)} {expected : List Nat} {q lost : Stage}
    {heard : ApiResponse → Stage} (hget : route.isGet = false)
    (hok : ∀ resp, Edge L q (.http ⟨route, path, json, headers⟩) (.ok resp) (heard resp))
    (herr : ∀ x, Edge L q (.http ⟨route, path, json, headers⟩) (.error x) lost) :
    Follows (Edge L) (requestWithHeaders L c route path json headers expected) q
      (Heard q lost heard fun resp a => Answer L expected resp a.1) := by
  unfold requestWithHeaders
  split
  · exact Or.inl ⟨Or.inl rfl, trivial⟩
  · split
    · exact Or.inl ⟨Or.inl rfl, trivial⟩
    · refine follows_bind (follows_send hget hok herr) ?_ (fun p x hp => hp.error)
      intro p resp hp
      rcases hp.of_ok with ⟨resp', rfl, rfl⟩
      refine follows_computed_heard ?_
      intro data hdata
      exact follows_heard_pure ⟨_, hdata⟩

theorem follows_callRoute {c : Client} {route : Route} {json : Option Json} {t k : Option Str}
    {expected : List Nat} {q lost : Stage} {heard : ApiResponse → Stage}
    (hget : route.isGet = false)
    (hedge : ∀ req : ApiRequest, req.route = route → req.json = json →
      (∃ token, req.headers = token ++ keyHeaders k) →
      (∀ resp, Edge L q (.http req) (.ok resp) (heard resp)) ∧
        ∀ x, Edge L q (.http req) (.error x) lost) :
    Follows (Edge L) (callRoute L c route json t k expected) q
      (Heard q lost heard fun resp raw => Answer L expected resp raw) := by
  unfold callRoute
  split
  · exact Or.inl ⟨Or.inl rfl, trivial⟩
  · refine follows_silent_bind (silent_identityHeaders c t k) (returns_identityHeaders c t k) ?_
      (fun x _ => Or.inl ⟨Or.inl rfl, trivial⟩)
    intro headers hheaders
    have h := fun path => hedge ⟨route, path, json, headers⟩ rfl rfl (hheaders headers rfl)
    refine follows_bind (follows_requestWithHeaders hget (h _).1 (h _).2) ?_
      (fun p x hp => hp.error)
    intro p a hp
    rcases hp.of_ok with ⟨resp, rfl, hresp⟩
    exact follows_heard_pure hresp

/-! ### The methods of the client -/

theorem clientTimestamp_eq {value t : Str} (h : clientTimestamp L value = .ok t) : t = value := by
  unfold clientTimestamp at h
  split at h
  · cases h
  · simp only at h
    split at h
    · cases h
    · split at h
      · cases h
        rfl
      · cases h

theorem Requested.with_timestamp {r : Requested} {t s : Str} (h : r.clientTimestamp = some t)
    (hs : s = t) : { r with clientTimestamp := some s } = r := by
  rw [hs, ← h]

theorem follows_prepare {c : Client} {j : Job} {v : Json} {t : Option Str} {timestamp : Str}
    (hi : j.intent = none) (ht : j.requested.clientTimestamp = some timestamp) :
    Follows (Edge L) (prepareExecution L c j.requested j.args.operationId t) (.holding j v)
      (Heard (.holding j v) .ended (Stage.heard j v) (j.Accepts L)) := by
  refine follows_silent_bind (silent_identityHeaders _ _ _) (returns_identityHeaders _ _ _) ?_
    (fun x _ => Or.inl ⟨Or.inl rfl, trivial⟩)
  intro headers hheaders
  refine follows_computed_bind ?_ (fun x _ => Or.inl ⟨Or.inl rfl, trivial⟩)
  intro s hs
  have hbody : { j.requested with clientTimestamp := some s } = j.requested := by
    refine Requested.with_timestamp ht ?_
    rw [clientTimestamp_eq hs, ht, Option.getD_some]
  rw [hbody]
  have hsends : j.Sends ⟨.execute, lit "/v1/execute", some j.requested.toJson, headers⟩ := by
    refine ⟨?_, ?_, ?_⟩
    · rw [Job.route, hi]
    · rw [Job.body, hi]
    · rw [Job.key, hi]
      exact hheaders headers rfl
  refine follows_bind (follows_requestWithHeaders rfl (fun resp => Edge.request j v _ resp hsends)
    (fun x => Edge.unanswered j v _ x hsends)) ?_ (fun p x hp => hp.error)
  intro p a hp
  rcases hp.of_ok with ⟨resp, rfl, sensitive, hraw⟩
  refine follows_computed_heard ?_
  intro r hr
  split
  · next ha => exact follows_heard_pure ⟨sensitive, a.1, hraw, hr, ha⟩
  · exact follows_heard_raise _

theorem follows_continueExecution {c : Client} {j : Job} {v : Json} {t : Option Str}
    {i : Intent} {timestamp : Str} (hi : j.intent = some i)
    (ht : j.requested.clientTimestamp = some timestamp) :
    Follows (Edge L) (continueExecution L c j.args.operationId j.requested i t) (.holding j v)
      (Heard (.holding j v) .ended (Stage.heard j v) (j.Accepts L)) := by
  unfold continueExecution
  split
  · exact Or.inl ⟨Or.inl rfl, trivial⟩
  · next hargs =>
      refine follows_computed_bind ?_ (fun x _ => Or.inl ⟨Or.inl rfl, trivial⟩)
      intro s hs
      have hbody : { j.requested with clientTimestamp := some s } = j.requested := by
        refine Requested.with_timestamp ht ?_
        rw [clientTimestamp_eq hs, ht, Option.getD_some]
      have hid : j.requested.operationId = j.args.operationId := by
        rw [not_or, not_not] at hargs
        exact hargs.1
      have hsame : { j.requested with operationId := j.args.operationId } = j.requested := by
        rw [← hid]
      rw [hbody, hsame]
      refine follows_bind (follows_callRoute rfl ?_) ?_ (fun p x hp => hp.error)
      · intro req hroute hjson hheaders
        have hsends : j.Sends req := by
          refine ⟨?_, ?_, ?_⟩
          · rw [hroute, Job.route, hi]
          · rw [hjson, Job.body, hi]
          · rw [Job.key, hi]
            exact hheaders
        exact ⟨fun resp => Edge.request j v req resp hsends,
          fun x => Edge.unanswered j v req x hsends⟩
      · intro p raw hp
        rcases hp.of_ok with ⟨resp, rfl, sensitive, hraw⟩
        refine follows_computed_heard ?_
        intro r hr
        split
        · next ha => exact follows_heard_pure ⟨sensitive, raw, hraw, hr, ha⟩
        · exact follows_heard_raise _

/-- The runtime agrees to the dispatch. -/
def Agrees (L : Libs) (e : Evidence) (resp : ApiResponse) (raw : Json) : Prop :=
  Answer L [200] resp raw ∧ raw.get "operation_id" = .str e.job.args.operationId ∧
    raw.get "approval_sha256" = optionText e.response.approvalSha256 ∧
    raw.get "dispatch_state" = .str (lit "claimed")

theorem follows_claimExecutionDispatch {c : Client} {e : Evidence} {v : Json} {t : Option Str} :
    Follows (Edge L)
      (claimExecutionDispatch L c e.job.args.operationId e.response.approvalSha256 t)
      (.attempted e v)
      (Heard (.attempted e v) (.spent e v) (Stage.asked e v) (Agrees L e)) := by
  refine follows_bind (follows_callRoute rfl ?_) ?_ (fun p x hp => hp.error)
  · intro req hroute hjson _
    exact ⟨fun resp => Edge.ask e v req resp ⟨hroute, hjson⟩,
      fun x => Edge.refused e v req x ⟨hroute, hjson⟩⟩
  · intro p raw hp
    rcases hp.of_ok with ⟨resp, rfl, hraw⟩
    split
    · next h => exact follows_heard_pure ⟨hraw, h.2.1, h.2.2.1, h.2.2.2⟩
    · exact follows_heard_raise _

/-- The final response is the answer to a report. -/
def Final (L : Libs) (resp : ApiResponse) (final : ExecutionResponse) : Prop :=
  ∃ sensitive raw, readResponse L sensitive [200, 201] resp = .ok raw ∧
    parseExecutionResponse L raw = .ok final

theorem follows_reportExecutionOutcome {c : Client} {b : Bool} {v : Json} {t k : Option Str}
    {operationId : Str} (hid : v.get "operation_id" = .str operationId)
    (hk : keyOf ((v.get "outcome").get "idempotency_key") = .ok k) :
    Follows (Edge L)
      (reportExecutionOutcome L c operationId ((v.get "outcome").get "body") k t)
      (.reporting b v) (Heard (.reporting b v) (.flushed b) (Stage.reported b v) (Final L)) := by
  refine follows_bind (follows_callRoute rfl ?_) ?_ (fun p x hp => hp.error)
  · intro req hroute hjson hheaders
    rcases hheaders with ⟨token, hheaders⟩
    have hr : Reports v req := ⟨operationId, k, token, hid, hk, hroute, hjson, hheaders⟩
    exact ⟨fun resp => Edge.report b v req resp hr, fun x => Edge.unreported b v req x hr⟩
  · intro p raw hp
    rcases hp.of_ok with ⟨resp, rfl, sensitive, hraw⟩
    refine follows_computed_heard ?_
    intro final hfinal
    split
    · exact follows_heard_raise _
    · split
      · exact follows_heard_pure ⟨sensitive, raw, hraw, hfinal⟩
      · exact follows_heard_raise _

/-- The admission is asked for with the approval at hand, and changes nothing. -/
theorem follows_getExecutionWitnessToken {c : Client} {e : Evidence} {v : Json}
    {digest t : Option Str} :
    Follows (Edge L) (getExecutionWitnessToken L c e.job.args.operationId digest t) (.bound e v)
      fun p _ => p = .bound e v := by
  have hstay : ∀ {A : Type} {good : ApiResponse → A → Prop} {p : Stage} {r : Except Exc A},
      Heard (.bound e v) (.bound e v) (fun _ => .bound e v) good p r → p = .bound e v := by
    intro A good p r h
    rcases h with ⟨h | h, _⟩ | ⟨_, h, _⟩
    · exact h
    · exact h
    · exact h
  refine follows_bind (follows_callRoute rfl ?_) ?_
    (fun p x hp => hstay hp)
  · intro req hroute _ _
    exact ⟨fun resp => Edge.admission e v req _ hroute, fun x => Edge.admission e v req _ hroute⟩
  · intro p raw hp
    rw [hstay hp]
    split
    · exact rfl
    · exact rfl

end Allowly

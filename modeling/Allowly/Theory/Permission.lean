import Allowly.Core.Check
import Allowly.Theory.Silent

/-!
# When a Check Allows

An allow that a check returns is one the runtime has given, or one the caller has
configured for when the runtime cannot be asked. The second kind says that it is a
fallback, and is not given to a caller with an agent identity.

What is said is about one run of a check: the operations it performed, with their answers.
A check sends at most one request.

## Main definitions

* `AnsweredCheck`: The request of a run, and its answer.
* `RuntimeAllow`: The answer of the runtime allows the action.
* `Unavailable`: The runtime could not be asked.
* `CheckSound`: What an allow means.

## Theorems

* `traces_requestWithHeaders`: A request that is not a read is sent at most once.
* `parsedCheck_of_ok`: What is known of a response that was accepted.
* `check_sound`: Every check is sound.
-/

namespace Allowly

open Py Prog

variable {L : PolicyLibs} {c : Client}

/-- What happened in a run of a call, one operation after another. -/
abbrev Course := List ((o : Op) × Except Fault o.Answer)

/-- The request was sent, and answered so. -/
def WasAsked (t : Course) (req : ApiRequest) (answer : Except Fault ApiResponse) : Prop :=
  (⟨.http req, answer⟩ : (o : Op) × Except Fault o.Answer) ∈ t

/-- Nothing was sent to the runtime. -/
def Unasked (t : Course) : Prop := ∀ req answer, ¬ WasAsked t req answer

/-! ### What the runtime says -/

/-- The item is an allow with all its parts. -/
structure WellFormedAllow (L : PolicyLibs) (item : Json) (base : CheckBase) : Prop where
  isObj : item.isObj = true
  decision : item.get "decision" = .str (lit "allow")
  reason : item.get "reason" = .str base.reason
  receipt : ∃ e, base.receipt = some e ∧
    parseReceiptEnvelope L.toLibs (item.get "receipt") = .ok e
  budget : optionalWith parseBudgetInfo (item.get "budget") = .ok base.budget
  escalation : optionalWith parseEscalationInfo (item.get "escalation") = .ok base.escalation
  policyEval : optionalWith (parsePolicyEvaluation L) (item.get "policy_eval") = .ok base.policyEval
  genuine : base.isFallback = false

/-- The body of an answer allows the action. -/
structure BodyAllows (L : PolicyLibs) (data authorizationId : Json) (actions : List Str)
    (action : Str) (base : CheckBase) : Prop where
  isObj : data.isObj = true
  authorization : data.get "authorization_id" = authorizationId
  actions : ∀ k, k ∈ (data.get "results").names ↔ k ∈ actions
  engine : ∃ v, data.get "engine_version" = .str v ∧ isEngineVersion v = true
  item : ∃ item, (action, item) ∈ (data.get "results").members ∧ WellFormedAllow L item base

/-- The runtime has allowed the action. -/
def RuntimeAllow (L : PolicyLibs) (t : Course) (route : Route) (authorizationId : Json)
    (actions : List Str) (action : Str) (base : CheckBase) : Prop :=
  ∃ req resp data, WasAsked t req (.ok resp) ∧ req.route = route ∧ resp.status = 200 ∧
    loadsBytes resp.content = some data ∧ BodyAllows L data authorizationId actions action base

theorem sameSet_iff {a b : List Str} (h : sameSet a b = true) (k : Str) : k ∈ a ↔ k ∈ b := by
  simp only [sameSet, Bool.and_eq_true, List.all_eq_true, List.contains_iff_mem] at h
  exact ⟨h.1 k, h.2 k⟩

/-- An item that is parsed as an allow is one. -/
theorem wellFormedAllow_of_parsed {action : Str} {item : Json} {r : ActionCheckResult}
    (h : parseCheckItem L action item = .ok r) (hr : r.decision = .allow) :
    WellFormedAllow L item r.base := by
  unfold parseCheckItem at h
  by_cases hobj : item.isObj = false
  · rw [if_pos hobj] at h
    cases h
  · rw [if_neg hobj] at h
    rcases bind_eq_ok.mp h with ⟨text, htext, h⟩
    rcases bind_eq_ok.mp h with ⟨decision, hdecision, h⟩
    rcases bind_eq_ok.mp h with ⟨reason, hreason, h⟩
    rcases bind_eq_ok.mp h with ⟨receipt, hreceipt, h⟩
    rcases bind_eq_ok.mp h with ⟨budget, hbudget, h⟩
    rcases bind_eq_ok.mp h with ⟨escalation, hescalation, h⟩
    rcases bind_eq_ok.mp h with ⟨policyEval, heval, h⟩
    cases decision with
    | allow =>
        cases h
        have htext' := requireStr_eq_ok.mp htext
        rw [← parseEnum_eq_ok hdecision] at htext'
        exact ⟨eq_true_of_ne_false hobj, htext', requireStr_eq_ok.mp hreason, ⟨receipt, rfl, hreceipt⟩,
          hbudget, hescalation, heval, rfl⟩
    | deny =>
        cases h
        cases hr
    | confirm =>
        rcases bind_eq_ok.mp h with ⟨_, _, h⟩
        rcases bind_eq_ok.mp h with ⟨_, _, h⟩
        rcases bind_eq_ok.mp h with ⟨_, _, h⟩
        rcases bind_eq_ok.mp h with ⟨_, _, h⟩
        cases h
        cases hr
    | escalate =>
        rcases bind_eq_ok.mp h with ⟨_, _, h⟩
        rcases bind_eq_ok.mp h with ⟨_, _, h⟩
        rcases bind_eq_ok.mp h with ⟨_, _, h⟩
        cases h
        cases hr

/-- An item of the runtime is not a fallback. -/
theorem genuine_of_item {action : Str} {item : Json} {r : ActionCheckResult}
    (h : parseCheckItem L action item = .ok r) : r.base.isFallback = false := by
  unfold parseCheckItem at h
  by_cases hobj : item.isObj = false
  · rw [if_pos hobj] at h
    cases h
  · rw [if_neg hobj] at h
    iterate 7 rcases bind_eq_ok.mp h with ⟨_, _, h⟩
    split at h
    · cases h
      rfl
    · cases h
      rfl
    · iterate 4 rcases bind_eq_ok.mp h with ⟨_, _, h⟩
      cases h
      rfl
    · iterate 3 rcases bind_eq_ok.mp h with ⟨_, _, h⟩
      cases h
      rfl

/-- What is known of a response that was accepted. -/
structure ParsedCheck (L : PolicyLibs) (data authorizationId : Json) (actions : List Str)
    (resp : CheckResponse) : Prop where
  isObj : data.isObj = true
  authorization : data.get "authorization_id" = authorizationId
  resolved : resp.authorizationId = authorizationId
  actions : ∀ k, k ∈ (data.get "results").names ↔ k ∈ actions
  engine : ∃ v, data.get "engine_version" = .str v ∧ isEngineVersion v = true
  items : ∀ action r, (action, r) ∈ resp.results → ∃ item,
    (action, item) ∈ (data.get "results").members ∧ parseCheckItem L action item = .ok r

theorem parsedCheck_of_ok {data authorizationId : Json} {actions : List Str} {resp : CheckResponse}
    (h : parseCheckResponse L data authorizationId actions = .ok resp) :
    ParsedCheck L data authorizationId actions resp := by
  unfold parseCheckResponse at h
  rcases bind_eq_ok.mp h with ⟨body, hbody, hk⟩
  clear h
  rcases requireDict_eq_ok.mp hbody with ⟨hobj, rfl⟩
  rcases bind_eq_ok.mp hk with ⟨id, hid, hk⟩
  rcases of_ite_error hk with ⟨hsame, hk⟩
  rcases bind_eq_ok.mp hk with ⟨items, hitems, hk⟩
  rcases requireDict_eq_ok.mp hitems with ⟨_, rfl⟩
  rcases of_ite_error hk with ⟨hset, hk⟩
  rcases bind_eq_ok.mp hk with ⟨results, hresults, hk⟩
  rcases bind_eq_ok.mp hk with ⟨version, hversion, hk⟩
  rcases of_ite_error hk with ⟨hengine, hk⟩
  iterate 3 rcases bind_eq_ok.mp hk with ⟨_, _, hk⟩
  cases hk
  refine ⟨hobj, (requireStr_eq_ok.mp hid).trans (not_not.mp hsame), not_not.mp hsame,
    sameSet_iff (eq_true_of_ne_false hset),
    ⟨version, requireStr_eq_ok.mp hversion, eq_true_of_ne_false hengine⟩, ?_⟩
  intro action r hmem
  rcases mem_of_mapM hresults hmem with ⟨m, hm, hparsed⟩
  rcases map_eq_ok.mp hparsed with ⟨r', hr', heq⟩
  cases heq
  exact ⟨m.2, hm, hr'⟩

/-- A parsed response allows what the runtime has allowed. -/
theorem ParsedCheck.allow {data authorizationId : Json} {actions : List Str} {resp : CheckResponse}
    (h : ParsedCheck L data authorizationId actions resp) {action : Str} {r : ActionCheckResult}
    (hmem : (action, r) ∈ resp.results) (hr : r.decision = .allow) :
    BodyAllows L data authorizationId actions action r.base := by
  rcases h.items action r hmem with ⟨item, hitem, hparsed⟩
  exact ⟨h.isObj, h.authorization, h.actions, h.engine, item, hitem,
    wellFormedAllow_of_parsed hparsed hr⟩

/-! ### What is sent -/

/-- What is heard of an answer. -/
def heard (L : Libs) (c : Client) (headers : List (Str × Str)) (expected : List Nat) :
    Except Fault ApiResponse → Except Exc (Json × ApiResponse)
  | .ok resp => (readResponse L (sensitiveValues c headers) expected resp).map fun data => (data, resp)
  | .error x => .error x.val

/-- A request that is not a read is sent once. -/
theorem traces_send {req : ApiRequest} (hreq : req.route.isGet = false) {t : Course}
    {r : Except Exc ApiResponse} (h : Traces (send req) t r) :
    ∃ answer, t = [⟨.http req, answer⟩] ∧ r = answer.mapError Subtype.val := by
  rcases traces_bind.mp h with ⟨x, hx, _⟩ | ⟨a, t₁, t₂, ha, hrest, ht⟩
  · rcases traces_attempt.mp hx with ⟨s, hs, _⟩
    cases hs
  · rcases traces_attempt.mp ha with ⟨s, hs, hask⟩
    cases hs
    rcases traces_perform.mp hask with ⟨answer, ht₁, hanswer⟩
    refine ⟨answer, ?_⟩
    cases answer with
    | ok resp =>
        rw [hanswer] at hrest
        rw [ht, ht₁, hrest.1]
        exact ⟨rfl, hrest.2⟩
    | error x =>
        rw [hanswer] at hrest
        have hend : t₂ = [] ∧ r = .error x.val := by
          rcases x with ⟨x, hx⟩
          cases x with
          | remoteProtocol =>
              simp only [Except.mapError, hreq] at hrest
              exact hrest
          | _ => exact hrest
        rw [ht, ht₁, hend.1]
        exact ⟨rfl, hend.2⟩

/-- A request that is not a read is sent at most once. -/
theorem traces_requestWithHeaders {L : Libs} {route : Route} {path : Str} {json : Option Json}
    {headers : List (Str × Str)} {expected : List Nat} (hroute : route.isGet = false) {t : Course}
    {r : Except Exc (Json × ApiResponse)}
    (h : Traces (requestWithHeaders L c route path json headers expected) t r) :
    (t = [] ∧ ∃ text, r = .error (.value text)) ∨
      ∃ answer, t = [⟨.http ⟨route, path, json, headers⟩, answer⟩] ∧
        r = heard L c headers expected answer := by
  unfold requestWithHeaders at h
  by_cases hs : L.sendable headers = false
  · rw [if_pos hs] at h
    exact Or.inl ⟨h.1, _, h.2⟩
  · rw [if_neg hs] at h
    by_cases hb : (json.map fun j => (dumps j).bind encode) = some none
    · rw [if_pos hb] at h
      exact Or.inl ⟨h.1, _, h.2⟩
    · rw [if_neg hb] at h
      refine Or.inr ?_
      rcases traces_bind.mp h with ⟨x, hx, hr⟩ | ⟨resp, t₁, t₂, hsend, hrest, ht⟩
      · rcases traces_send hroute hx with ⟨answer, ht, hanswer⟩
        refine ⟨answer, ht, ?_⟩
        rw [hr]
        cases answer with
        | ok resp => cases hanswer
        | error y =>
            cases hanswer
            rfl
      · rcases traces_send hroute hsend with ⟨answer, ht₁, hanswer⟩
        refine ⟨answer, ?_⟩
        cases answer with
        | error y => cases hanswer
        | ok resp' =>
            cases hanswer
            rcases traces_bind.mp hrest with ⟨x, hx, hr⟩ | ⟨data, t₃, t₄, hdata, hend, ht₂⟩
            · rcases traces_ofExcept.mp hx with ⟨ht₂, hread⟩
              rw [ht, ht₁, ht₂, hr, heard, ← hread]
              exact ⟨rfl, rfl⟩
            · rcases traces_ofExcept.mp hdata with ⟨ht₃, hread⟩
              rw [ht, ht₁, ht₂, ht₃, hend.1, hend.2, heard, ← hread]
              exact ⟨rfl, rfl⟩

/-- A success the caller expects holds the data. -/
theorem readResponse_eq_ok {L : Libs} {sensitive : List Str} {resp : ApiResponse} {data : Json}
    (h : readResponse L sensitive [200] resp = .ok data) :
    resp.status = 200 ∧ loadsBytes resp.content = some data := by
  unfold readResponse at h
  rcases of_ite_error h with ⟨hexp, hk⟩
  by_cases hs : resp.isSuccess = true
  · have hmem : resp.status ∈ [200] := by
      by_contra hne
      exact hexp ⟨hs, hne⟩
    rw [List.mem_singleton] at hmem
    refine ⟨hmem, ?_⟩
    rw [if_neg (by omega)] at hk
    cases hload : loadsBytes resp.content with
    | none =>
        simp only [hload, if_pos hs] at hk
        cases hk
    | some d =>
        simp only [hload, if_pos hs] at hk
        cases hk
        rfl
  · by_cases h204 : resp.status = 204
    · refine absurd ?_ hs
      rw [ApiResponse.isSuccess, h204]
      rfl
    · rw [if_neg h204] at hk
      cases hload : loadsBytes resp.content with
      | none =>
          simp only [hload, if_neg hs] at hk
          cases hk
      | some d =>
          simp only [hload, if_neg hs] at hk
          cases hk

/-! ### The identity of the caller -/

/-- The caller has an agent token, or a way to get one. -/
def Identified (c : Client) (agentToken : Option Str) : Prop :=
  agentToken.isSome = true ∨ c.tokenSupplier = true ∨ c.agentToken.isSome = true

/-- The headers of an agent token. -/
def identityOf (token key : Option Str) : List (Str × Str) :=
  match token with
  | none => keyHeaders key
  | some t => (agentTokenHeader, t) :: keyHeaders key

/-- The token that is sent, if there is one. -/
theorem returns_token (agentToken key : Option Str) :
    Returns (fun r => ∀ headers, r = .ok headers → ∃ token, headers = identityOf token key ∧
      (∀ t, token = some t → strip t ≠ []) ∧ (Identified c agentToken → token.isSome = true))
      (identityHeaders c agentToken key) := by
  have hend : ∀ token : Option Str, (Identified c agentToken → token.isSome = true) →
      Returns (fun r => ∀ headers, r = .ok headers → ∃ token, headers = identityOf token key ∧
        (∀ t, token = some t → strip t ≠ []) ∧ (Identified c agentToken → token.isSome = true))
      (match token with
        | none => (pure (keyHeaders key) : Call (List (Str × Str)))
        | some t =>
          if strip t = [] then raise (.value "agent token must be a non-empty string")
          else pure ((agentTokenHeader, t) :: keyHeaders key)) := by
    intro token htoken
    cases token with
    | none =>
        intro headers hh
        cases hh
        exact ⟨none, rfl, fun t ht => (by cases ht), htoken⟩
    | some t =>
        by_cases ht : strip t = []
        · simp only [if_pos ht]
          intro headers hh
          cases hh
        · simp only [if_neg ht]
          intro headers hh
          cases hh
          refine ⟨some t, rfl, ?_, htoken⟩
          intro t' ht'
          cases ht'
          exact ht
  unfold identityHeaders effectiveAgentToken
  cases agentToken with
  | some t => exact hend (some t) fun _ => rfl
  | none =>
      by_cases hc : c.tokenSupplier = true
      · simp only [if_pos hc]
        refine returns_bind (M := fun r => ∀ token, r = .ok token → token.isSome = true) ?_ ?_ ?_
        · intro supplied
          cases supplied with
          | error x =>
              intro token htoken
              cases htoken
          | ok supplied =>
              cases supplied with
              | none =>
                  intro token htoken
                  cases htoken
              | some t =>
                  change Returns _ ((if strip t = [] then
                    raise (.value "agent token supplier must return a non-empty string")
                    else pure (some t)) : Call (Option Str))
                  split
                  · intro token htoken
                    cases htoken
                  · intro token htoken
                    cases htoken
                    rfl
        · intro token htoken
          exact hend token fun _ => htoken token rfl
        · intro x _ headers hh
          cases hh
      · simp only [if_neg hc]
        refine hend c.agentToken ?_
        rintro (h | h | h)
        · cases h
        · exact absurd h hc
        · exact h

/-- Only the agent token makes a request one with an identity. -/
theorem identityOf_any (token key : Option Str) :
    ((identityOf token key).any fun h => h.1 == agentTokenHeader) = token.isSome := by
  have hkey : ((keyHeaders key).any fun h => h.1 == agentTokenHeader) = false := by
    cases key with
    | none => rfl
    | some k => rfl
  cases token with
  | none => exact hkey
  | some t => rfl

/-! ### Every check -/

/-- A timeout, an error of the transport or of decoding, or an API error that says that the
    runtime is not available. -/
def Outage : Exc → Prop
  | .timeout => True
  | .httpTimeout => True
  | .remoteProtocol => True
  | .transport => True
  | .decoding => True
  | .api status code _ _ _ =>
    (status = 408 ∨ 500 ≤ status) ∧ code ≠ lit "identity_verification_unavailable"
  | _ => False

/-- The runtime could not be asked, or has answered with such an error. -/
def Unavailable (L : Libs) (c : Client) (headers : List (Str × Str))
    (answer : Except Fault ApiResponse) : Prop :=
  ∃ x, heard L c headers [200] answer = .error x ∧ Outage x

/-- What an allow of a check means. -/
structure CheckSound (L : PolicyLibs) (c : Client) (a : CheckArgs) : Prop where
  allowed : ∀ t resp, Traces (check L c a) t (.ok resp) → ∀ action r, (action, r) ∈ resp.results →
    r.decision = .allow →
      RuntimeAllow L t (.check a.wait) a.authorizationId a.actions action r.base ∨
      (¬ Identified c a.agentToken ∧ c.fallbackByAction.lookup action = some .failOpen ∧
        r.base.isFallback = true ∧ ∃ req answer, WasAsked t req answer ∧
          (∀ token, (agentTokenHeader, token) ∉ req.headers) ∧
          Unavailable L.toLibs c req.headers answer)
  identified : Identified c a.agentToken → ∀ t r, Traces (check L c a) t r →
    (Unasked t ∧ ∃ x, r = .error x) ∨
    ∃ token req answer, strip token ≠ [] ∧ WasAsked t req answer ∧
      (∀ req' answer', WasAsked t req' answer' → (agentTokenHeader, token) ∈ req'.headers) ∧
      ∀ resp, r = .ok resp → ∀ action s, (action, s) ∈ resp.results → s.base.isFallback = true →
        s.decision = .deny

/-- What an allow of a check by name means. -/
def AgentCheckSound (L : PolicyLibs) (c : Client) (a : AgentCheckArgs) : Prop :=
  ∀ t resp, Traces (checkByAgent L c a) t (.ok resp) → ∀ action r, (action, r) ∈ resp.results →
    r.decision = .allow →
      RuntimeAllow L t (.agentCheck a.wait) resp.authorizationId a.actions action r.base ∧
        ∃ id, resp.authorizationId = .str id ∧ id ≠ [] ∧ strip id = id ∧ id.length ≤ 128

theorem unasked_silent {A : Type} {p : Call A} {t : Course} {r : Except Exc A} (h : Silent p)
    (ht : Traces p t r) : Unasked t := by
  intro req answer hmem
  have hquiet := uses_traces h ht _ hmem
  cases hquiet

theorem unasked_nil : Unasked [] := fun _ _ h => (by cases h)

theorem unasked_append {t t' : Course} (h : Unasked t) (h' : Unasked t') : Unasked (t ++ t') := by
  intro req answer hmem
  rcases List.mem_append.mp hmem with hmem | hmem
  · exact h req answer hmem
  · exact h' req answer hmem

/-- After an unasked beginning, the last request is the only one. -/
theorem asked_last {t : Course} (h : Unasked t) {req req' : ApiRequest}
    {answer answer' : Except Fault ApiResponse}
    (hmem : WasAsked (t ++ [⟨.http req, answer⟩]) req' answer') : req' = req ∧ answer' = answer := by
  rcases List.mem_append.mp hmem with hmem | hmem
  · exact absurd hmem (h req' answer')
  · rw [List.mem_singleton] at hmem
    cases hmem
    exact ⟨rfl, rfl⟩

/-- The one request of a check, and its answer. -/
structure AnsweredCheck (c : Client) (a : CheckArgs) (t : Course) (token : Option Str)
    (req : ApiRequest) (answer : Except Fault ApiResponse) : Prop where
  filled : ∀ s, token = some s → strip s ≠ []
  identified : Identified c a.agentToken → token.isSome = true
  route : req.route = .check a.wait
  headers : req.headers = identityOf token a.idempotencyKey
  body : ∃ timestamp, req.json = some (checkBody a timestamp)
  course : ∃ before, Unasked before ∧ t = before ++ [⟨.http req, answer⟩]

theorem AnsweredCheck.asked {a : CheckArgs} {t : Course} {token : Option Str} {req : ApiRequest}
    {answer : Except Fault ApiResponse} (h : AnsweredCheck c a t token req answer) :
    WasAsked t req answer := by
  rcases h.course with ⟨before, _, rfl⟩
  exact List.mem_append_right _ List.mem_cons_self

/-- A check sends nothing and fails, or sends one request and does with the answer what
    `checkAnswer` says. -/
theorem traces_check {a : CheckArgs} {t : Course} {r : Except Exc CheckResponse}
    (h : Traces (check L c a) t r) : (Unasked t ∧ ∃ x, r = .error x) ∨
      ∃ token req answer, AnsweredCheck c a t token req answer ∧
        r = checkAnswer L c a token.isSome (heard L.toLibs c req.headers [200] answer) := by
  rcases traces_bind.mp h with ⟨x, hx, hr⟩ | ⟨timestamp, t₁, t₂, htime, h, ht⟩
  · rw [(traces_ofExcept.mp hx).1]
    exact Or.inl ⟨unasked_nil, x, hr⟩
  · rw [(traces_ofExcept.mp htime).1, List.nil_append] at ht
    rw [ht]
    rcases traces_bind.mp h with ⟨x, hx, hr⟩ | ⟨headers, t₃, t₄, hheaders, h, ht₂⟩
    · exact Or.inl ⟨unasked_silent (silent_identityHeaders c _ _) hx, x, hr⟩
    · have hquiet := unasked_silent (silent_identityHeaders c _ _) hheaders
      rcases returns_traces (returns_token a.agentToken a.idempotencyKey) hheaders headers rfl with
        ⟨token, rfl, hfilled, hid⟩
      rw [identityOf_any] at h
      rcases traces_bind.mp h with ⟨x, hx, _⟩ | ⟨heardOf, t₅, t₆, hattempt, hanswer, ht₄⟩
      · rcases traces_attempt.mp hx with ⟨s, hs, _⟩
        cases hs
      · rcases traces_attempt.mp hattempt with ⟨s, hs, hrequest⟩
        cases hs
        rcases traces_ofExcept.mp hanswer with ⟨ht₆, hr⟩
        rw [ht₂, ht₄, ht₆, List.append_nil]
        rcases traces_requestWithHeaders rfl hrequest with ⟨ht₅, text, htext⟩ | ⟨answer, ht₅, hheard⟩
        · refine Or.inl ⟨?_, .value text, ?_⟩
          · rw [ht₅, List.append_nil]
            exact hquiet
          · rw [hr, htext]
            rfl
        · rw [ht₅]
          rw [hheard] at hr
          exact Or.inr ⟨token, _, answer, ⟨hfilled, hid, rfl, rfl, ⟨timestamp, rfl⟩, t₃, hquiet, rfl⟩,
            hr⟩

/-- The results of a fallback allow only what is configured so. -/
theorem mem_fallback {authorizationId : Json} {actions : List Str} {failure : Failure}
    {closed : Bool} {action : Str} {r : ActionCheckResult}
    (h : (action, r) ∈ (fallbackCheckResponse c authorizationId actions failure closed).results) :
    r.base.isFallback = true ∧
      (r.decision = .allow → closed = false ∧ c.fallbackByAction.lookup action = some .failOpen) ∧
      (r.decision = .allow ∨ r.decision = .deny) := by
  rcases List.mem_map.mp h with ⟨action', _, heq⟩
  cases heq
  have hmode : fallbackModeOf c closed action = .failOpen →
      closed = false ∧ c.fallbackByAction.lookup action = some .failOpen := by
    intro hm
    unfold fallbackModeOf at hm
    by_cases hclosed : closed = true
    · rw [if_pos hclosed] at hm
      cases hm
    · rw [if_neg hclosed] at hm
      refine ⟨eq_false_of_ne_true hclosed, ?_⟩
      cases hlookup : c.fallbackByAction.lookup action with
      | none =>
          rw [hlookup] at hm
          cases hm
      | some mode =>
          rw [hlookup] at hm
          exact congrArg some hm
  cases hm : fallbackModeOf c closed action with
  | failOpen => exact ⟨rfl, fun _ => hmode hm, Or.inl rfl⟩
  | failClosed => exact ⟨rfl, fun hr => (by cases hr), Or.inr rfl⟩

/-- A check falls back from an outage only. -/
theorem outage_of_failure {x : Exc} {failure : Failure} (h : failureOf x = some failure) :
    Outage x := by
  cases x with
  | api status code message fields retry =>
      simp only [failureOf] at h
      by_cases hcode : code = lit "identity_verification_unavailable"
      · rw [if_pos hcode] at h
        cases h
      · rw [if_neg hcode] at h
        refine ⟨?_, hcode⟩
        by_cases h408 : status = 408
        · exact Or.inl h408
        · rw [if_neg h408] at h
          by_cases h500 : status ≥ 500
          · exact Or.inr h500
          · rw [if_neg h500] at h
            cases h
  | timeout => trivial
  | httpTimeout => trivial
  | remoteProtocol => trivial
  | transport => trivial
  | decoding => trivial
  | _ => cases h

/-- The two ways a check succeeds: with what the runtime says, or without it. -/
theorem checkAnswer_eq_ok {a : CheckArgs} {identified : Bool}
    {answer : Except Exc (Json × ApiResponse)} {resp : CheckResponse}
    (h : checkAnswer L c a identified answer = .ok resp) :
    (∃ raw http r, answer = .ok (raw, http) ∧
      parseCheckResponse L raw a.authorizationId a.actions = .ok r ∧ resp.results = r.results) ∨
    ∃ x failure, answer = .error x ∧ failureOf x = some failure ∧
      resp = fallbackCheckResponse c a.authorizationId a.actions failure identified := by
  cases answer with
  | ok v =>
      rcases map_eq_ok.mp h with ⟨r, hr, heq⟩
      refine Or.inl ⟨v.1, v.2, r, rfl, hr, ?_⟩
      rw [← heq]
  | error x =>
      unfold checkAnswer at h
      cases hf : failureOf x with
      | none =>
          simp only [hf] at h
          cases h
      | some failure =>
          simp only [hf] at h
          cases h
          exact Or.inr ⟨x, failure, rfl, hf, rfl⟩

/-- What is heard as data was sent by the runtime. -/
theorem heard_eq_ok {L : Libs} {headers : List (Str × Str)} {answer : Except Fault ApiResponse}
    {raw : Json} {http : ApiResponse} (h : heard L c headers [200] answer = .ok (raw, http)) :
    answer = .ok http ∧ http.status = 200 ∧ loadsBytes http.content = some raw := by
  cases answer with
  | error x => cases h
  | ok resp =>
      rcases map_eq_ok.mp h with ⟨data, hdata, heq⟩
      cases heq
      exact ⟨rfl, readResponse_eq_ok hdata⟩

theorem no_token {key : Option Str} (token : Str) :
    (agentTokenHeader, token) ∉ identityOf none key := by
  intro hmem
  cases key with
  | none => cases hmem
  | some k =>
      rw [identityOf, keyHeaders, List.mem_singleton] at hmem
      cases hmem

/-- Every allow of a check was given by the runtime, or configured. -/
theorem check_allowed {a : CheckArgs} {t : Course} {resp : CheckResponse}
    (h : Traces (check L c a) t (.ok resp)) {action : Str} {r : ActionCheckResult}
    (hmem : (action, r) ∈ resp.results) (hr : r.decision = .allow) :
    RuntimeAllow L t (.check a.wait) a.authorizationId a.actions action r.base ∨
      (¬ Identified c a.agentToken ∧ c.fallbackByAction.lookup action = some .failOpen ∧
        r.base.isFallback = true ∧ ∃ req answer, WasAsked t req answer ∧
          (∀ token, (agentTokenHeader, token) ∉ req.headers) ∧
          Unavailable L.toLibs c req.headers answer) := by
  rcases traces_check h with ⟨_, x, hx⟩ | ⟨token, req, answer, ha, hanswer⟩
  · cases hx
  · rcases checkAnswer_eq_ok hanswer.symm with ⟨raw, http, p, hheard, hp, hresults⟩ |
      ⟨x, failure, hheard, hfailure, rfl⟩
    · rcases heard_eq_ok hheard with ⟨rfl, hstatus, hload⟩
      rw [hresults] at hmem
      exact Or.inl ⟨req, http, raw, ha.asked, ha.route, hstatus, hload,
        (parsedCheck_of_ok hp).allow hmem hr⟩
    · rcases mem_fallback hmem with ⟨hfallback, hopen, _⟩
      rcases hopen hr with ⟨hnone, hlookup⟩
      refine Or.inr ⟨fun hid => ?_, hlookup, hfallback, req, answer, ha.asked, ?_, x, hheard,
        outage_of_failure hfailure⟩
      · rw [ha.identified hid] at hnone
        cases hnone
      · rw [Option.isSome_eq_false_iff, Option.isNone_iff_eq_none] at hnone
        rw [ha.headers, hnone]
        exact no_token

/-- A caller with an identity gets no fallback that allows. -/
theorem check_identified {a : CheckArgs} (hid : Identified c a.agentToken) {t : Course}
    {r : Except Exc CheckResponse} (h : Traces (check L c a) t r) :
    (Unasked t ∧ ∃ x, r = .error x) ∨
      ∃ token req answer, strip token ≠ [] ∧ WasAsked t req answer ∧
        (∀ req' answer', WasAsked t req' answer' → (agentTokenHeader, token) ∈ req'.headers) ∧
        ∀ resp, r = .ok resp → ∀ action s, (action, s) ∈ resp.results →
          s.base.isFallback = true → s.decision = .deny := by
  rcases traces_check h with hnone | ⟨token, req, answer, ha, hanswer⟩
  · exact Or.inl hnone
  · rcases Option.isSome_iff_exists.mp (ha.identified hid) with ⟨s, rfl⟩
    refine Or.inr ⟨s, req, answer, ha.filled s rfl, ha.asked, ?_, ?_⟩
    · intro req' answer' hasked
      rcases ha.course with ⟨before, hbefore, ht⟩
      rw [ht] at hasked
      rcases asked_last hbefore hasked with ⟨rfl, _⟩
      rw [ha.headers]
      exact List.mem_cons_self
    · intro resp hresp action result hmem hfallback
      rw [hanswer] at hresp
      rcases checkAnswer_eq_ok hresp with ⟨raw, http, p, _, hp, hresults⟩ |
        ⟨x, failure, _, _, rfl⟩
      · rw [hresults] at hmem
        rcases (parsedCheck_of_ok hp).items action result hmem with ⟨item, _, hparsed⟩
        rw [genuine_of_item hparsed] at hfallback
        cases hfallback
      · rcases mem_fallback hmem with ⟨_, hopen, hallow | hdeny⟩
        · have hclosed := (hopen hallow).1
          cases hclosed
        · exact hdeny

/-- An allow of a check by name is one of the runtime. -/
theorem agentCheck_allowed {a : AgentCheckArgs} {t : Course} {resp : CheckResponse}
    (h : Traces (checkByAgent L c a) t (.ok resp)) {action : Str} {r : ActionCheckResult}
    (hmem : (action, r) ∈ resp.results) (hr : r.decision = .allow) :
    RuntimeAllow L t (.agentCheck a.wait) resp.authorizationId a.actions action r.base ∧
      ∃ id, resp.authorizationId = .str id ∧ id ≠ [] ∧ strip id = id ∧ id.length ≤ 128 := by
  unfold checkByAgent at h
  by_cases hid : c.agentToken.isSome = true ∨ c.tokenSupplier = true
  · rw [if_pos hid] at h
    cases h.2
  · rw [if_neg hid] at h
    by_cases hlabel : a.context.has "agent_label" = true
    · rw [if_pos hlabel] at h
      cases h.2
    · rw [if_neg hlabel] at h
      rcases traces_ofExcept_bind_ok.mp h with ⟨policyRef, _, h⟩
      rcases traces_ofExcept_bind_ok.mp h with ⟨timestamp, _, h⟩
      rcases traces_bind_ok.mp h with ⟨⟨raw, http⟩, t₁, t₂, hrequest, h, ht⟩
      rcases traces_ofExcept_bind_ok.mp h with ⟨id, hid, h⟩
      rcases traces_ofExcept_bind_ok.mp h with ⟨p, hp, h⟩
      cases h.2
      have hparsed := parsedCheck_of_ok hp
      refine ⟨?_, id, hparsed.resolved, ?_⟩
      · rcases traces_requestWithHeaders rfl hrequest with ⟨_, text, htext⟩ | ⟨answer, ht₁, hheard⟩
        · cases htext
        · rcases heard_eq_ok hheard.symm with ⟨rfl, hstatus, hload⟩
          have hallow := hparsed.allow hmem hr
          rw [← hparsed.resolved] at hallow
          rw [ht, ht₁]
          exact ⟨_, http, raw, List.mem_cons_self, rfl, hstatus, hload, hallow⟩
      · unfold resolvedAuthorization at hid
        rcases bind_eq_ok.mp hid with ⟨raw', _, hk⟩
        rcases bind_eq_ok.mp hk with ⟨id', _, hk⟩
        rcases of_ite_error hk with ⟨hbad, hk⟩
        cases hk
        rw [not_or, not_or, not_not] at hbad
        exact ⟨hbad.1, hbad.2.1.symm, Nat.le_of_not_gt hbad.2.2⟩

theorem check_sound (a : CheckArgs) (b : AgentCheckArgs) :
    CheckSound L c a ∧ AgentCheckSound L c b :=
  ⟨⟨fun _ _ h _ _ hmem hr => check_allowed h hmem hr, fun hid _ _ h => check_identified hid h⟩,
    fun _ _ h _ _ hmem hr => agentCheck_allowed h hmem hr⟩

end Allowly

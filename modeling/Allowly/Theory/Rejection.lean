import Allowly.Theory.Conformance
import Allowly.Theory.Scenario

/-!
# Calls That Are Refused Locally

`execute_http` checks most of its arguments before it makes the folder of the operation.
The rest is checked afterwards: whether the request can be hashed, and whether its
headers and its body can be sent. A call that is refused there has made the folder, and
the operation ID cannot be used again.

What is looked at are complete runs, in which nothing outside the program fails. A call
that ends in an error, and has asked the runtime for nothing, was then refused because of
what it was given.

## Main definitions

* `obliged`: The answers of surroundings in which nothing fails.
* `RejectsCleanly`: A call that is refused has not made the folder.
* `lateChecks`: The checks that come after the folder.

## Theorems

* `prepared_asks`, `prepared_refused`: A call that has made the folder asks the runtime, or
  fails the late checks.
* `rejects_cleanly`: Nothing is left behind if and only if these have nothing to refuse.
* `refused_leaves_folder`: A number that is none.
-/

namespace Allowly

open Py Interleave

variable {L : Libs} {c : Client} {a : Args}

/-- The answers when nothing fails. A supplier has a token. -/
def obliged : (o : Op) → o.Answer → Prop
  | .supplyToken, t => ∃ s : Str, t = some s ∧ strip s ≠ []
  | _, _ => True

/-- Nothing is asked of the runtime. -/
def Local (os : List Op) : Prop := ∀ req, Op.http req ∉ os

/-- A call that is refused before it asks the runtime has not made the folder. -/
def RejectsCleanly (L : Libs) (c : Client) (a : Args) : Prop :=
  ∀ os x, Prog.Completes obliged (executeHttp L c a) os (.error x) → Local os → Op.mkdir ∉ os

/-! ### The late checks -/

/-- A value is saved if it has an encoding. -/
def savedResult (v : Json) : Except Exc Unit := (jsonBytes v).map fun _ => ()

/-- The identity headers for a token. -/
def tokenHeaders (token key : Option Str) : Except Exc (List (Str × Str)) :=
  match token with
  | none => .ok (keyHeaders key)
  | some t =>
    if strip t = [] then valueError "agent token must be a non-empty string"
    else .ok ((agentTokenHeader, t) :: keyHeaders key)

/-- The token a call uses. -/
def Supplied (c : Client) (agentToken token : Option Str) : Prop :=
  match agentToken with
  | some t => token = some t
  | none => if c.tokenSupplier then ∃ t, token = some t ∧ strip t ≠ [] else token = c.agentToken

/-- Can the headers and the body be put on a request? -/
def sendableRequest (L : Libs) (headers : List (Str × Str)) (body : Json) : Except Exc Unit :=
  if L.sendable headers = false then valueError "'ascii' codec can't encode"
  else if ((some body).map fun j => (dumps j).bind encode) = some none then
    valueError "Out of range float values are not JSON compliant"
  else .ok ()

/-- What is checked between the first journal and the request. -/
def requestChecks (L : Libs) (operationId : Str) (requested : Requested) (token : Option Str) :
    Except Exc Unit := do
  let headers ← tokenHeaders token (some operationId)
  let checked ← clientTimestamp L (requested.clientTimestamp.getD [])
  sendableRequest L headers (Requested.toJson { requested with clientTimestamp := some checked })

/-- What is checked after the folder was made and before anything is sent: that the request
    can be hashed, the first journal saved, and the request sent. -/
def lateChecks (L : Libs) (operationId : Str) (requested : Requested) (timestamp : Str)
    (token : Option Str) : Except Exc Unit := do
  let digest ← sealSha L requested.toJson
  savedResult (preparedState operationId digest timestamp)
  requestChecks L operationId requested token

/-! ### The parts -/

theorem local_append {os os' : List Op} : Local (os ++ os') ↔ Local os ∧ Local os' := by
  refine ⟨fun h => ⟨fun req hr => h req (List.mem_append_left _ hr),
    fun req hr => h req (List.mem_append_right _ hr)⟩, ?_⟩
  intro ⟨h, h'⟩ req hr
  rcases List.mem_append.mp hr with hr | hr
  · exact h req hr
  · exact h' req hr

theorem local_nil : Local [] := fun _ h => (by cases h)

theorem completes_ask_bind {o : Op} {B : Type} {f : o.Answer → Call B} {os : List Op}
    {r : Except Exc B} : Prog.Completes obliged (ask o >>= f) os r ↔
      ∃ b rest, obliged o b ∧ os = o :: rest ∧ Prog.Completes obliged (f b) rest r := Iff.rfl

theorem completes_computed_bind {A B : Type} {e : Except Exc A} {f : A → Call B} {os : List Op}
    {r : Except Exc B} : Prog.Completes obliged (computed e >>= f) os r ↔
      (∃ v, e = .ok v ∧ Prog.Completes obliged (f v) os r) ∨
        ∃ x, e = .error x ∧ os = [] ∧ r = .error x := by
  cases e with
  | ok v =>
      refine ⟨fun h => Or.inl ⟨v, rfl, h⟩, ?_⟩
      rintro (⟨w, hw, h⟩ | ⟨x, hx, _⟩)
      · cases hw
        exact h
      · cases hx
  | error x =>
      refine ⟨fun h => Or.inr ⟨x, rfl, h⟩, ?_⟩
      rintro (⟨w, hw, _⟩ | ⟨y, hy, h⟩)
      · cases hw
      · cases hy
        exact h

theorem completes_save {file : File} {v : Json} {os : List Op} {r : Except Exc Unit}
    (h : Prog.Completes obliged (save file v) os r) : r = savedResult v := by
  rcases completes_ask_bind.mp h with ⟨_, rest, _, _, h⟩
  rcases Prog.completes_always.mp h with ⟨s, os₁, os₂, hp, _, hlast⟩
  have hs : s = savedResult v := by
    rcases completes_computed_bind.mp hp with ⟨data, hdata, hp⟩ | ⟨x, hx, _, hs⟩
    · rcases hp with ⟨_, _, _, _, _, _, _, _, _, _, _, _, _, hs⟩
      rw [savedResult, hdata]
      exact hs
    · rw [savedResult, hx]
      exact hs
  rcases hlast with ⟨x, ⟨_, _, _, _, _, hx⟩, _⟩ | ⟨_, hr⟩
  · cases hx
  · rw [hr, hs]

theorem save_completes (file : File) (v : Json) :
    ∃ os, Local os ∧ Prog.Completes obliged (save file v) os (savedResult v) := by
  cases hdata : jsonBytes v with
  | ok data =>
      have hok : savedResult v = .ok () := by
        rw [savedResult, hdata]
        rfl
      refine ⟨[.makeTemporary, .writeTemporary data, .replace file data, .syncFolder,
        .dropTemporary], fun req hr => by simp at hr, ?_⟩
      rw [hok]
      refine completes_ask_bind.mpr ⟨(), _, trivial, rfl, Prog.completes_always.mpr ⟨.ok (),
        [.writeTemporary data, .replace file data, .syncFolder], [.dropTemporary], ?_, rfl,
        Or.inr ⟨⟨(), [], trivial, rfl, rfl, rfl⟩, rfl⟩⟩⟩
      exact completes_computed_bind.mpr (Or.inl ⟨data, hdata, (), _, trivial, rfl, (), _, trivial, rfl,
        (), _, trivial, rfl, rfl, rfl⟩)
  | error x =>
      have herror : savedResult v = .error x := by
        rw [savedResult, hdata]
        rfl
      refine ⟨[.makeTemporary, .dropTemporary], fun req hr => by simp at hr, ?_⟩
      rw [herror]
      exact completes_ask_bind.mpr ⟨(), _, trivial, rfl, Prog.completes_always.mpr ⟨.error x, [],
        [.dropTemporary], completes_computed_bind.mpr (Or.inr ⟨x, hdata, rfl, rfl⟩), rfl,
        Or.inr ⟨⟨(), [], trivial, rfl, rfl, rfl⟩, rfl⟩⟩⟩

/-- What is done under the lock is done, and its result is the one of the call. -/
theorem completes_withLock {A : Type} {body : Call A} {os : List Op} {r : Except Exc A}
    (h : Prog.Completes obliged (withLock body) os r) :
    ∃ os', os' ⊆ os ∧ Prog.Completes obliged body os' r := by
  rcases completes_ask_bind.mp h with ⟨_, rest, _, hos, h⟩
  rcases Prog.completes_always.mp h with ⟨s, os₁, os₂, hp, hrest, hlast⟩
  rcases hp with ⟨_, os', _, hos₁, hbody⟩
  refine ⟨os', ?_, ?_⟩
  · intro o ho
    rw [hos, hrest, hos₁]
    exact List.mem_cons_of_mem _ (List.mem_append_left _ (List.mem_cons_of_mem _ ho))
  · rcases hlast with ⟨x, ⟨_, _, _, _, _, hx⟩, _⟩ | ⟨_, hr⟩
    · cases hx
    · rw [hr]
      exact hbody

theorem withLock_completes {A : Type} {m : Call A} {os : List Op} {r : Except Exc A}
    (hl : Local os) (h : Prog.Completes obliged m os r) :
    ∃ os', Local os' ∧ Prog.Completes obliged (withLock m) os' r := by
  refine ⟨.openLock :: (.flock :: os ++ [.closeLock]), ?_, ?_⟩
  · intro req hr
    simp only [List.cons_append, List.mem_cons, List.mem_append, reduceCtorEq, false_or,
      List.not_mem_nil, or_false] at hr
    exact hl req hr
  · refine completes_ask_bind.mpr ⟨(), _, trivial, rfl, Prog.completes_always.mpr ⟨r, .flock :: os,
      [.closeLock], ?_, rfl, Or.inr ⟨⟨(), [], trivial, rfl, rfl, rfl⟩, rfl⟩⟩⟩
    exact ⟨(), os, trivial, rfl, h⟩

theorem completes_identityHeaders {agentToken key : Option Str} {os : List Op}
    {r : Except Exc (List (Str × Str))}
    (h : Prog.Completes obliged (identityHeaders c agentToken key) os r) :
    ∃ token, Supplied c agentToken token ∧ r = tokenHeaders token key := by
  have hend : ∀ {token : Option Str} {os : List Op}, Prog.Completes obliged
      (match token with
        | none => (pure (keyHeaders key) : Call (List (Str × Str)))
        | some t =>
          if strip t = [] then raise (.value "agent token must be a non-empty string")
          else pure ((agentTokenHeader, t) :: keyHeaders key)) os r → r = tokenHeaders token key := by
    intro token os h
    cases token with
    | none => exact h.2
    | some t =>
        by_cases ht : strip t = []
        · simp only [if_pos ht] at h
          rw [tokenHeaders, if_pos ht]
          exact h.2
        · simp only [if_neg ht] at h
          rw [tokenHeaders, if_neg ht]
          exact h.2
  unfold identityHeaders effectiveAgentToken at h
  cases agentToken with
  | some t => exact ⟨some t, rfl, hend h⟩
  | none =>
      by_cases hc : c.tokenSupplier = true
      · simp only [if_pos hc] at h
        rcases h with ⟨b, rest, ⟨t, rfl, ht⟩, _, h⟩
        refine ⟨some t, ?_, ?_⟩
        · rw [Supplied, if_pos hc]
          exact ⟨t, rfl, ht⟩
        · have h : Prog.Completes obliged
              ((if strip t = [] then
                  (raise (.value "agent token supplier must return a non-empty string") :
                    Call (Option Str))
                else pure (some t)) >>= fun token => match token with
                | none => (pure (keyHeaders key) : Call (List (Str × Str)))
                | some t =>
                  if strip t = [] then raise (.value "agent token must be a non-empty string")
                  else pure ((agentTokenHeader, t) :: keyHeaders key)) rest r := h
          rw [if_neg ht] at h
          exact @hend (some t) _ h
      · simp only [if_neg hc] at h
        refine ⟨c.agentToken, ?_, hend h⟩
        rw [Supplied, if_neg hc]

theorem identityHeaders_completes {agentToken token : Option Str} (key : Option Str)
    (h : Supplied c agentToken token) : ∃ os, Local os ∧
      Prog.Completes obliged (identityHeaders c agentToken key) os (tokenHeaders token key) := by
  have hend : ∀ token : Option Str, Prog.Completes obliged
      (match token with
        | none => (pure (keyHeaders key) : Call (List (Str × Str)))
        | some t =>
          if strip t = [] then raise (.value "agent token must be a non-empty string")
          else pure ((agentTokenHeader, t) :: keyHeaders key)) [] (tokenHeaders token key) := by
    intro token
    cases token with
    | none => exact ⟨rfl, rfl⟩
    | some t =>
        by_cases ht : strip t = []
        · simp only [tokenHeaders, if_pos ht]
          exact ⟨rfl, rfl⟩
        · simp only [tokenHeaders, if_neg ht]
          exact ⟨rfl, rfl⟩
  unfold identityHeaders effectiveAgentToken
  cases agentToken with
  | some t =>
      rw [Supplied] at h
      rw [h]
      exact ⟨[], local_nil, hend (some t)⟩
  | none =>
      rw [Supplied] at h
      by_cases hc : c.tokenSupplier = true
      · rw [if_pos hc] at h
        rcases h with ⟨t, rfl, ht⟩
        simp only [if_pos hc]
        refine ⟨[.supplyToken], fun req hr => by simp at hr, some t, [], ⟨t, rfl, ht⟩, rfl, ?_⟩
        change Prog.Completes obliged
          ((if strip t = [] then
              (raise (.value "agent token supplier must return a non-empty string") :
                Call (Option Str))
            else pure (some t)) >>= fun token => match token with
            | none => (pure (keyHeaders key) : Call (List (Str × Str)))
            | some t =>
              if strip t = [] then raise (.value "agent token must be a non-empty string")
              else pure ((agentTokenHeader, t) :: keyHeaders key)) [] _
        rw [if_neg ht]
        exact hend (some t)
      · rw [if_neg hc] at h
        rw [h]
        simp only [if_neg hc]
        exact ⟨[], local_nil, hend c.agentToken⟩

/-- A request is made, unless its headers or its body cannot be sent. -/
theorem completes_request {route : Route} {path : Str} {body : Json} {headers : List (Str × Str)}
    {expected : List Nat} {os : List Op} {r : Except Exc (Json × ApiResponse)}
    (h : Prog.Completes obliged (requestWithHeaders L c route path (some body) headers expected) os r) :
    ¬ Local os ∨ ∃ x, sendableRequest L headers body = .error x := by
  unfold requestWithHeaders at h
  by_cases hs : L.sendable headers = false
  · exact Or.inr ⟨_, if_pos hs⟩
  · simp only [if_neg hs] at h
    by_cases hb : ((some body).map fun j => (dumps j).bind encode) = some none
    · refine Or.inr ⟨.value "Out of range float values are not JSON compliant", ?_⟩
      rw [sendableRequest, if_neg hs, if_pos hb]
      rfl
    · simp only [if_neg hb] at h
      rcases h with ⟨b, rest, _, hos, _⟩
      refine Or.inl fun hl => ?_
      rw [hos] at hl
      exact hl _ List.mem_cons_self

theorem request_refused {route : Route} {path : Str} {body : Json} {headers : List (Str × Str)}
    {expected : List Nat} {x : Exc} (h : sendableRequest L headers body = .error x) :
    Prog.Completes obliged (requestWithHeaders L c route path (some body) headers expected) []
      (.error x) := by
  unfold requestWithHeaders
  unfold sendableRequest at h
  by_cases hs : L.sendable headers = false
  · rw [if_pos hs] at h
    cases h
    simp only [if_pos hs]
    exact ⟨rfl, rfl⟩
  · rw [if_neg hs] at h
    by_cases hb : ((some body).map fun j => (dumps j).bind encode) = some none
    · rw [if_pos hb] at h
      cases h
      simp only [if_neg hs, if_pos hb]
      exact ⟨rfl, rfl⟩
    · rw [if_neg hb] at h
      cases h

/-- A complete request to execute asks the runtime, or fails its checks. -/
theorem completes_prepare {r : Requested} {key : Str} {agentToken : Option Str} {os : List Op}
    {s : Except Exc ExecutionResponse}
    (h : Prog.Completes obliged (prepareExecution L c r key agentToken) os s) :
    ¬ Local os ∨ ∃ token x, Supplied c agentToken token ∧ requestChecks L key r token = .error x := by
  unfold prepareExecution at h
  rcases Prog.completes_bind.mp h with ⟨x, hx, _⟩ | ⟨headers, os₁, os₂, hheaders, h, hos⟩
  · rcases completes_identityHeaders hx with ⟨token, htoken, hr⟩
    refine Or.inr ⟨token, x, htoken, ?_⟩
    rw [requestChecks, ← hr]
    rfl
  · rcases completes_identityHeaders hheaders with ⟨token, htoken, hr⟩
    have hchecks : requestChecks L key r token = (do
        let checked ← clientTimestamp L (r.clientTimestamp.getD [])
        sendableRequest L headers (Requested.toJson { r with clientTimestamp := some checked })) := by
      rw [requestChecks, ← hr]
      rfl
    rcases completes_computed_bind.mp h with ⟨checked, hchecked, h⟩ | ⟨x, hx, _, _⟩
    · have hone : ∀ {os' : List Op} {s' : Except Exc (Json × ApiResponse)}, os' ⊆ os →
          Prog.Completes obliged (requestWithHeaders L c .execute (lit "/v1/execute")
            (some (Requested.toJson { r with clientTimestamp := some checked })) headers [200, 201])
            os' s' →
          ¬ Local os ∨ ∃ token x, Supplied c agentToken token ∧
            requestChecks L key r token = .error x := by
        intro os' s' hsub hreq
        rcases completes_request hreq with hl | ⟨x, hx⟩
        · exact Or.inl fun hlocal => hl fun req hmem => hlocal req (hsub hmem)
        · refine Or.inr ⟨token, x, htoken, ?_⟩
          rw [hchecks, hchecked]
          exact hx
      rcases Prog.completes_bind.mp h with ⟨x, hx, _⟩ | ⟨resp, os₃, os₄, hreq, _, hos₂⟩
      · exact hone (fun o ho => hos ▸ List.mem_append_right _ ho) hx
      · refine hone (fun o ho => ?_) hreq
        rw [hos, hos₂]
        exact List.mem_append_right _ (List.mem_append_left _ ho)
    · refine Or.inr ⟨token, x, htoken, ?_⟩
      rw [hchecks, hx]
      rfl

/-- A request to execute that fails its checks is not made. -/
theorem prepare_refused {r : Requested} {key : Str} {agentToken token : Option Str} {x : Exc}
    (htoken : Supplied c agentToken token) (h : requestChecks L key r token = .error x) :
    ∃ os, Local os ∧ Prog.Completes obliged (prepareExecution L c r key agentToken) os (.error x) := by
  rcases identityHeaders_completes (some key) htoken with ⟨os, hl, hheaders⟩
  unfold prepareExecution
  cases hh : tokenHeaders token (some key) with
  | error y =>
      rw [requestChecks, hh] at h
      cases h
      rw [hh] at hheaders
      exact ⟨os, hl, Prog.completes_bind.mpr (Or.inl ⟨x, hheaders, rfl⟩)⟩
  | ok headers =>
      rw [hh] at hheaders
      have hchecks : (do
          let checked ← clientTimestamp L (r.clientTimestamp.getD [])
          sendableRequest L headers (Requested.toJson { r with clientTimestamp := some checked })) =
            .error x := by
        rw [requestChecks, hh] at h
        exact h
      refine ⟨os ++ [], by rw [List.append_nil]; exact hl,
        Prog.completes_bind.mpr (Or.inr ⟨headers, os, [], hheaders, ?_, rfl⟩)⟩
      refine completes_computed_bind.mpr ?_
      cases hc : clientTimestamp L (r.clientTimestamp.getD []) with
      | error y =>
          rw [hc] at hchecks
          cases hchecks
          exact Or.inr ⟨x, rfl, rfl, rfl⟩
      | ok checked =>
          rw [hc] at hchecks
          exact Or.inl ⟨checked, rfl, Prog.completes_bind.mpr
            (Or.inl ⟨x, request_refused hchecks, rfl⟩)⟩

/-! ### The call -/

theorem supplied_exists (c : Client) (agentToken : Option Str) : ∃ token, Supplied c agentToken token := by
  unfold Supplied
  cases agentToken with
  | some t => exact ⟨some t, rfl⟩
  | none =>
      by_cases hc : c.tokenSupplier = true
      · exact ⟨some [97], by rw [if_pos hc]; exact ⟨[97], rfl, by decide⟩⟩
      · exact ⟨c.agentToken, by rw [if_neg hc]⟩

/-- A call that has made the folder asks the runtime, or fails the late checks. -/
theorem prepared_asks {requested : Requested} {headers : List (Str × Str)} {timestamp : Str}
    {os : List Op} {r : Except Exc LocalExecutionResult}
    (h : Prog.Completes obliged (executePrepared L c a requested headers timestamp) os r) :
    ¬ Local os ∨ ∃ token x, Supplied c a.agentToken token ∧
      lateChecks L a.operationId requested timestamp token = .error x := by
  unfold executePrepared at h
  rcases completes_computed_bind.mp h with ⟨digest, hdigest, h⟩ | ⟨x, hx, _, _⟩
  · have hlate : ∀ token, lateChecks L a.operationId requested timestamp token = (do
        savedResult (preparedState a.operationId digest timestamp)
        requestChecks L a.operationId requested token) := by
      intro token
      rw [lateChecks, hdigest]
      rfl
    rcases Prog.completes_bind.mp h with ⟨x, hx, _⟩ | ⟨u, os₁, os₂, hsave, h, hos⟩
    · rcases supplied_exists c a.agentToken with ⟨token, htoken⟩
      refine Or.inr ⟨token, x, htoken, ?_⟩
      rw [hlate, ← completes_save hx]
      rfl
    · rcases completes_withLock h with ⟨os₃, hsub, h⟩
      have hone : ∀ {os' : List Op} {s : Except Exc ExecutionResponse}, os' ⊆ os₃ →
          Prog.Completes obliged (prepareExecution L c requested a.operationId a.agentToken) os' s →
          ¬ Local os ∨ ∃ token x, Supplied c a.agentToken token ∧
            lateChecks L a.operationId requested timestamp token = .error x := by
        intro os' s hsub' hprepare
        rcases completes_prepare hprepare with hl | ⟨token, x, htoken, hx⟩
        · refine Or.inl fun hlocal => hl fun req hmem => hlocal req ?_
          rw [hos]
          exact List.mem_append_right _ (hsub (hsub' hmem))
        · refine Or.inr ⟨token, x, htoken, ?_⟩
          rw [hlate, ← completes_save hsave]
          exact hx
      rcases Prog.completes_bind.mp h with ⟨x, hx, _⟩ | ⟨resp, os₄, os₅, hprepare, _, hos₃⟩
      · exact hone (fun o ho => ho) hx
      · exact hone (fun o ho => hos₃ ▸ List.mem_append_left _ ho) hprepare
  · rcases supplied_exists c a.agentToken with ⟨token, htoken⟩
    refine Or.inr ⟨token, x, htoken, ?_⟩
    rw [lateChecks, hx]
    rfl

/-- A call that fails the late checks asks nothing of the runtime. -/
theorem prepared_refused {requested : Requested} (headers : List (Str × Str)) {timestamp : Str}
    {token : Option Str} {x : Exc} (htoken : Supplied c a.agentToken token)
    (h : lateChecks L a.operationId requested timestamp token = .error x) :
    ∃ os, Local os ∧
      Prog.Completes obliged (executePrepared L c a requested headers timestamp) os (.error x) := by
  unfold executePrepared
  cases hseal : sealSha L requested.toJson with
  | error y =>
      rw [lateChecks, hseal] at h
      cases h
      exact ⟨[], local_nil, completes_computed_bind.mpr (Or.inr ⟨x, rfl, rfl, rfl⟩)⟩
  | ok digest =>
      rcases save_completes .journal (preparedState a.operationId digest timestamp) with
        ⟨os, hl, hsave⟩
      rw [lateChecks, hseal] at h
      cases hsaved : savedResult (preparedState a.operationId digest timestamp) with
      | error y =>
          have hxy : (.error y : Except Exc Unit) = .error x := by
            rw [← h, ← hsaved]
            change _ = (savedResult (preparedState a.operationId digest timestamp) >>= fun _ => _)
            rw [hsaved]
            rfl
          rw [hsaved, hxy] at hsave
          exact ⟨os, hl, completes_computed_bind.mpr (Or.inl ⟨digest, rfl,
            Prog.completes_bind.mpr (Or.inl ⟨x, hsave, rfl⟩)⟩)⟩
      | ok u =>
          have hrequest : requestChecks L a.operationId requested token = .error x := by
            rw [← h]
            change _ = (savedResult (preparedState a.operationId digest timestamp) >>= fun _ => _)
            rw [hsaved]
            rfl
          rw [hsaved] at hsave
          rcases prepare_refused htoken hrequest with ⟨os', hl', hprepare⟩
          rcases withLock_completes (m := (do
              let r ← prepareExecution L c requested a.operationId a.agentToken
              proceed L c a requested headers (preparedState a.operationId digest timestamp)
                "authorized" r)) hl' (Prog.completes_bind.mpr (Or.inl ⟨x, hprepare, rfl⟩))
            with ⟨os'', hl'', hlock⟩
          exact ⟨os ++ os'', local_append.mpr ⟨hl, hl''⟩, completes_computed_bind.mpr
            (Or.inl ⟨digest, rfl, Prog.completes_bind.mpr
              (Or.inr ⟨u, os, os'', hsave, hlock, rfl⟩)⟩)⟩

theorem completes_attempt_ask_bind {o : Op} {B : Type} {f : Except Exc o.Answer → Call B}
    {os : List Op} {r : Except Exc B} : Prog.Completes obliged ((ask o).attempt >>= f) os r ↔
      ∃ b rest, obliged o b ∧ os = o :: rest ∧ Prog.Completes obliged (f (.ok b)) rest r := Iff.rfl

/-- What a complete call has done before it made the folder, if it did. -/
theorem executeHttp_completes {os : List Op} {r : Except Exc LocalExecutionResult}
    (h : Prog.Completes obliged (executeHttp L c a) os r) (hmade : Op.mkdir ∈ os) :
    ∃ q headers now rest, httpExecutionRequest L a = .ok (q, headers) ∧
      encode a.operationId ≠ none ∧ rest ⊆ os ∧
      Prog.Completes obliged (executePrepared L c a
        { q with clientTimestamp := some (L.isoformat now) } headers (L.isoformat now)) rest r := by
  rw [executeHttp] at h
  rcases completes_computed_bind.mp h with ⟨⟨q, headers⟩, hq, h⟩ | ⟨x, _, hos, _⟩
  · rcases completes_ask_bind.mp h with ⟨now, rest, _, hos, h⟩
    rcases completes_ask_bind.mp h with ⟨_, rest₂, _, hrest, h⟩
    by_cases hid : encode a.operationId = none
    · rw [if_pos hid] at h
      rw [hos, hrest, h.1] at hmade
      simp at hmade
    · rw [if_neg hid] at h
      rcases completes_ask_bind.mp h with ⟨exists_, rest₃, _, hrest₂, h⟩
      by_cases hexists : exists_ = true
      · rw [if_pos hexists] at h
        rw [hos, hrest, hrest₂, h.1] at hmade
        simp at hmade
      · rw [if_neg hexists] at h
        rcases completes_ask_bind.mp h with ⟨_, rest₄, _, hrest₃, h⟩
        rcases completes_attempt_ask_bind.mp h with ⟨_, rest₅, _, hrest₄, h⟩
        refine ⟨q, headers, now, rest₅, hq, hid, ?_, h⟩
        intro o ho
        rw [hos, hrest, hrest₂, hrest₃, hrest₄]
        simp only [List.mem_cons]
        exact Or.inr (Or.inr (Or.inr (Or.inr (Or.inr ho))))
  · rw [hos] at hmade
    cases hmade

/-- The folder is made, if the arguments are not refused. -/
theorem completes_executeHttp {q : Requested} {headers : List (Str × Str)} (now : Int)
    {rest : List Op} {r : Except Exc LocalExecutionResult}
    (hq : httpExecutionRequest L a = .ok (q, headers)) (hid : encode a.operationId ≠ none)
    (h : Prog.Completes obliged (executePrepared L c a
      { q with clientTimestamp := some (L.isoformat now) } headers (L.isoformat now)) rest r) :
    Prog.Completes obliged (executeHttp L c a)
      (.now :: .resolve :: .folderExists :: .mkdirParent :: .mkdir :: rest) r := by
  rw [executeHttp]
  refine completes_computed_bind.mpr (Or.inl ⟨(q, headers), hq, ?_⟩)
  refine completes_ask_bind.mpr ⟨now, _, trivial, rfl, ?_⟩
  refine completes_ask_bind.mpr ⟨(), _, trivial, rfl, ?_⟩
  rw [if_neg hid]
  refine completes_ask_bind.mpr ⟨false, _, trivial, rfl, ?_⟩
  rw [if_neg Bool.false_ne_true]
  refine completes_ask_bind.mpr ⟨(), _, trivial, rfl, ?_⟩
  exact completes_attempt_ask_bind.mpr ⟨(), _, trivial, rfl, h⟩

/-- A refused call leaves nothing behind if and only if it is refused before the folder is
    looked at, or there is nothing to refuse afterwards. -/
theorem rejects_cleanly : RejectsCleanly L c a ↔
    Refused L a ∨ ∀ q headers now token, httpExecutionRequest L a = .ok (q, headers) →
      Supplied c a.agentToken token →
      lateChecks L a.operationId { q with clientTimestamp := some (L.isoformat now) }
        (L.isoformat now) token = .ok () := by
  refine ⟨?_, ?_⟩
  · intro hclean
    by_cases href : Refused L a
    · exact Or.inl href
    · refine Or.inr ?_
      intro q headers now token hq htoken
      cases hlate : lateChecks L a.operationId { q with clientTimestamp := some (L.isoformat now) }
          (L.isoformat now) token with
      | ok u => rfl
      | error x =>
          rcases prepared_refused headers htoken hlate with ⟨os, hl, hrun⟩
          have hid : encode a.operationId ≠ none := fun hid => href (Or.inr hid)
          have hlocal : Local (.now :: .resolve :: .folderExists :: .mkdirParent :: .mkdir :: os) := by
            intro req hr
            simp only [List.mem_cons, reduceCtorEq, false_or] at hr
            exact hl req hr
          exact absurd (by simp) (hclean _ x (completes_executeHttp now hq hid hrun) hlocal)
  · intro hcond os x hrun hl hmade
    rcases executeHttp_completes hrun hmade with ⟨q, headers, now, rest, hq, hid, hsub, h⟩
    rcases hcond with (⟨y, hy⟩ | hnone) | hlate
    · rw [hq] at hy
      cases hy
    · exact hid hnone
    · rcases prepared_asks h with hasks | ⟨token, y, htoken, hy⟩
      · exact hasks fun req hr => hl req (hsub hr)
      · rw [hlate q headers now token hq htoken] at hy
        cases hy

/-! ### A call that leaves its folder -/

/-- The sample code, which does not hash a request with a NaN as its amount. -/
def strictLibs : Libs :=
  { sampleLibs with
    hashSealValue := fun v =>
      if (v.get "policy_input").get "amount" = .float .nan then none
      else sampleLibs.hashSealValue v }

def nanArgs : Args :=
  { sampleArgs (lit "receipt") with policyInput := some [(lit "amount", .float .nan)] }

/-- Refused with the NaN, and called again without it. -/
def refusedScenario : List Move :=
  let outside := sampleOutside (lit "receipt") [] .null
  [.begin (.execute sampleClient nanArgs), .go 0 20 outside, .finish 0,
    .begin (.execute sampleClient (sampleArgs (lit "receipt"))), .go 1 20 outside, .finish 1]

def asksRuntime : Happening → Bool
  | .did _ _ (.http _) _ => true
  | _ => false

/-- How a call that has ended ended. -/
def errorOf (self : Nat) : Happening → Option Exc
  | .ended n _ (.error x) => if n = self then some x else none
  | _ => none

set_option maxRecDepth 20000 in
/-- The first call is refused and asks the runtime for nothing. The folder is there, and the
    call with other arguments is told to recover. -/
theorem refused_leaves_folder : ∃ w, (system strictLibs (lit "op_1")).Reachable Folder.fresh w ∧
    (∀ e ∈ w.history, asksRuntime e = false) ∧
    (∃ e ∈ w.history, ∃ x, errorOf 0 e = some x ∧ x.isValueError = true) ∧
    w.shared.node = .dir ∧
    ∃ e ∈ w.history, ∃ x, errorOf 1 e = some x ∧ x.isRecovery = true := by
  have hcheck : (scenario strictLibs (lit "op_1") refusedScenario).any (fun w =>
      (w.history.all fun e => !asksRuntime e) &&
        (w.history.any fun e => (errorOf 0 e).any Exc.isValueError) &&
        decide (w.shared.node = .dir) &&
        w.history.any fun e => (errorOf 1 e).any Exc.isRecovery) = true := by
    decide +kernel
  rcases scenario_reachable hcheck with ⟨w, hw, hcheck⟩
  simp only [Bool.and_eq_true, List.all_eq_true, Bool.not_eq_true', List.any_eq_true,
    Option.any_eq_true, decide_eq_true_eq] at hcheck
  exact ⟨w, hw, hcheck.1.1.1, hcheck.1.1.2, hcheck.1.2, hcheck.2⟩

end Allowly

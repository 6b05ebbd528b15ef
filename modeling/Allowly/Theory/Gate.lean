import Allowly.Core.Mcp
import Allowly.Theory.Permission

/-!
# The Gate Holds

A tool runs at most once in a tool call, and only if the runtime has allowed the action
that was checked, for the authorization of a user the callbacks have resolved. In every
other case the call fails.

The arguments of the tool are given to the callbacks and to the tool. Where no callback
chooses what is checked, and the callbacks return the same, the call is the same, whatever
the arguments are.

## Main definitions

* `Permitted`: What must have been the case when the tool runs.
* `GateSound`: The gate holds.

## Theorems

* `traces_onCallTool`: How a tool call ends.
* `gate_sound`: Every gate holds.
-/

namespace Allowly

open Py Prog

variable {L : PolicyLibs} {g : Gate} {context : AuthContext}

/-- What happened in a tool call. -/
abbrev GateCourse :=
  List ((o : Op ⊕ CallNext) × Except Fault (Sum.elim Op.Answer (fun _ => ToolResult) o))

/-- How often the tool ran. -/
def toolRuns (t : GateCourse) : Nat := (t.filter fun e => e.1.isRight).length

/-- What must have been the case when the tool runs. -/
structure Permitted (L : PolicyLibs) (g : Gate) (context : AuthContext) (t : GateCourse) :
    Prop where
  /-- There is a user, and an authorization for it. -/
  user : ∃ userIdFn userId authorizationId, g.userIdFn = some userIdFn ∧
    userIdFn context = .ok userId ∧ userId.truthy = true ∧
    g.authorizationIdFn userId = .ok (.value authorizationId) ∧ authorizationId ≠ .null ∧
    /- The runtime has allowed the action that was checked. -/
    ∃ input action base req answer body, resolveCheckInput g context = .ok input ∧
      checkedAction input context.toolName = .ok action ∧ WasAsked (inner t) req answer ∧
      req.json = some body ∧ body.get "authorization_id" = authorizationId ∧
      body.get "actions" = .arr [.str action] ∧
      RuntimeAllow L (inner t) (.check false) authorizationId [action] action base
  token : ∀ agentTokenFn, g.agentTokenFn = some agentTokenFn →
    ∃ token, agentTokenFn context = .ok (.value (.str token)) ∧ strip token ≠ []

/-- What the callbacks say of a call, when none of them chooses what is checked. -/
def callbackResults (g : Gate) (context : AuthContext) :
    Except Exc Returned × Except ToolExc (Option Str) :=
  (resolveAuthorizationId g context, resolveAgentToken g context)

/-- The gate holds. -/
structure GateSound (L : PolicyLibs) (g : Gate) (context : AuthContext) : Prop where
  once : ∀ t r, Traces (onCallTool L g context) t r → toolRuns t ≤ 1
  permitted : ∀ t r, Traces (onCallTool L g context) t r → toolRuns t = 1 → Permitted L g context t
  refused : ∀ t r, Traces (onCallTool L g context) t r → toolRuns t = 0 → ∃ x, r = .error x
  independent : g.checkInputFn = none → ∀ other : AuthContext,
    other.toolName = context.toolName → callbackResults g other = callbackResults g context →
    onCallTool L g other = onCallTool L g context

/-! ### How a tool call ends -/

theorem toolRuns_inner {t : GateCourse} (h : Inner t) : toolRuns t = 0 := by
  rw [toolRuns, List.length_eq_zero_iff, List.filter_eq_nil_iff]
  intro e he hright
  have hleft := h e he
  rcases e with ⟨o | p, b⟩
  · cases hright
  · cases hleft

theorem toolRuns_append (t t' : GateCourse) : toolRuns (t ++ t') = toolRuns t + toolRuns t' := by
  rw [toolRuns, toolRuns, toolRuns, List.filter_append, List.length_append]

/-- The tool ran after a check that has allowed the action. -/
structure Ran (L : PolicyLibs) (g : Gate) (context : AuthContext) (t : GateCourse) : Prop where
  ran : ∃ authorizationId input action agentToken result r before answer,
    resolveAuthorizationId g context = .ok authorizationId ∧ authorizationId ≠ .value .null ∧
    resolveCheckInput g context = .ok input ∧ checkedAction input context.toolName = .ok action ∧
    resolveAgentToken g context = .ok agentToken ∧ Inner before ∧
    Traces (gateCheck L g.client authorizationId action input agentToken) (inner before)
      (.ok result) ∧
    result.results.lookup action = some r ∧ r.decision = .allow ∧
    t = before ++ [⟨.inr .callNext, answer⟩]

theorem settled_bind {A B : Type} {e : Except ToolExc A} {f : A → GateCall B} {t : GateCourse}
    {r : Except ToolExc B} (h : Traces (settled e >>= f) t r) :
    (t = [] ∧ ∃ x, r = .error x) ∨ ∃ a, e = .ok a ∧ Traces (f a) t r := by
  cases e with
  | ok a => exact Or.inr ⟨a, rfl, h⟩
  | error x => exact Or.inl ⟨h.1, x, h.2⟩

/-- A tool call fails without running the tool, or runs it at its end. -/
theorem traces_onCallTool {t : GateCourse} {r : Except ToolExc ToolResult}
    (h : Traces (onCallTool L g context) t r) :
    (Inner t ∧ ∃ x, r = .error x) ∨ Ran L g context t := by
  have hnil : ∀ {t : GateCourse}, (t = [] ∧ ∃ x, r = .error x) → Inner t ∧ ∃ x, r = .error x := by
    intro t ht
    rw [ht.1]
    exact ⟨fun e he => (by cases he), ht.2⟩
  rcases settled_bind h with hend | ⟨authorizationId, hauthorization, h⟩
  · exact Or.inl (hnil hend)
  · by_cases hnull : authorizationId = .value .null
    · rw [if_pos hnull] at h
      exact Or.inl (hnil ⟨h.1, _, h.2⟩)
    · rw [if_neg hnull] at h
      rcases settled_bind h with hend | ⟨input, hinput, h⟩
      · exact Or.inl (hnil hend)
      · rcases settled_bind h with hend | ⟨action, haction, h⟩
        · exact Or.inl (hnil hend)
        · rcases settled_bind h with hend | ⟨agentToken, htoken, h⟩
          · exact Or.inl (hnil hend)
          · rcases traces_bind.mp h with ⟨x, hx, hr⟩ | ⟨result, t₁, t₂, hcheck, h, ht⟩
            · exact Or.inl ⟨(traces_embed hx).1, x, hr⟩
            · rcases traces_embed hcheck with ⟨hinner, s, hs, hresult⟩
              cases s with
              | error y => cases hresult
              | ok v =>
                  cases hresult
                  cases hlookup : result.results.lookup action with
                  | none =>
                      rw [hlookup] at h
                      rw [ht, h.1, List.append_nil]
                      exact Or.inl ⟨hinner, _, h.2⟩
                  | some p =>
                      rw [hlookup] at h
                      unfold gateDecision at h
                      by_cases hallow : p.decision = .allow
                      · simp only [if_pos hallow] at h
                        rcases h with ⟨answer, rest, ht₂, hrest⟩
                        have hauth : resolveAuthorizationId g context = .ok authorizationId := by
                          cases hres : resolveAuthorizationId g context with
                          | error x =>
                              rw [hres] at hauthorization
                              cases hauthorization
                          | ok v =>
                              rw [hres] at hauthorization
                              cases hauthorization
                              rfl
                        refine Or.inr ⟨authorizationId, input, action, agentToken, result, p, t₁,
                          answer, hauth, hnull, hinput, haction, htoken, hinner, hs, hlookup, hallow,
                          ?_⟩
                        rw [ht, ht₂, (traces_ofExcept.mp hrest).1]
                      · simp only [if_neg hallow] at h
                        rw [ht, h.1, List.append_nil]
                        exact Or.inl ⟨hinner, _, h.2⟩

theorem Ran.toolRuns {t : GateCourse} (h : Ran L g context t) : toolRuns t = 1 := by
  rcases h.ran with ⟨_, _, _, _, _, _, before, answer, _, _, _, _, _, hinner, _, _, _, rfl⟩
  rw [toolRuns_append, toolRuns_inner hinner]
  rfl

theorem mem_of_lookup {A : Type} {k : Str} {xs : List (Str × A)} {v : A}
    (h : xs.lookup k = some v) : (k, v) ∈ xs := by
  induction xs with
  | nil => cases h
  | cons x xs ih =>
      rw [List.lookup_cons] at h
      split at h
      · next heq =>
          cases h
          rw [eq_of_beq heq]
          exact List.mem_cons_self
      · exact List.mem_cons_of_mem _ (ih h)

/-- A user was resolved, and an authorization for it. -/
theorem user_of_resolved {authorizationId : Returned}
    (h : resolveAuthorizationId g context = .ok authorizationId)
    (hnull : authorizationId ≠ .value .null) : ∃ userIdFn userId, g.userIdFn = some userIdFn ∧
      userIdFn context = .ok userId ∧ userId.truthy = true ∧
      g.authorizationIdFn userId = .ok authorizationId := by
  unfold resolveAuthorizationId at h
  cases hfn : g.userIdFn with
  | none =>
      simp only [hfn] at h
      cases h
      exact absurd rfl hnull
  | some userIdFn =>
      simp only [hfn] at h
      cases huser : userIdFn context with
      | error x =>
          simp only [huser] at h
          cases h
      | ok userId =>
          simp only [huser] at h
          by_cases htruthy : userId.truthy = false
          · rw [if_pos htruthy] at h
            cases h
            exact absurd rfl hnull
          · rw [if_neg htruthy] at h
            refine ⟨userIdFn, userId, rfl, huser, eq_true_of_ne_false htruthy, ?_⟩
            cases hauth : g.authorizationIdFn userId with
            | error x =>
                rw [hauth] at h
                cases h
            | ok v =>
                rw [hauth] at h
                cases h
                rfl

theorem token_of_resolved {agentToken : Option Str} (h : resolveAgentToken g context = .ok agentToken)
    (agentTokenFn : AuthContext → Except Fault Returned) (hfn : g.agentTokenFn = some agentTokenFn) :
    ∃ token, agentTokenFn context = .ok (.value (.str token)) ∧ strip token ≠ [] := by
  unfold resolveAgentToken at h
  simp only [hfn] at h
  split at h
  · next x hx =>
      unfold callbackError at h
      split at h
      · cases h
      · cases h
  · next token htoken =>
      by_cases hblank : strip token = []
      · rw [if_pos hblank] at h
        cases h
      · exact ⟨token, htoken, hblank⟩
  · cases h

/-- The tool runs only if it may. -/
theorem Ran.permitted {t : GateCourse} (h : Ran L g context t) : Permitted L g context t := by
  rcases h.ran with ⟨authorizationId, input, action, agentToken, result, r, before, answer, hauth,
    hnull, hinput, haction, htoken, hinner, hcheck, hlookup, hallow, rfl⟩
  rcases user_of_resolved hauth hnull with ⟨userIdFn, userId, hfn, huser, htruthy, hid⟩
  refine ⟨⟨userIdFn, userId, ?_⟩, token_of_resolved htoken⟩
  cases authorizationId with
  | object truth =>
      rcases traces_ofExcept_bind_ok.mp hcheck with ⟨_, _, hcheck⟩
      rcases traces_bind_ok.mp hcheck with ⟨_, _, _, _, hraise, _⟩
      cases hraise.2
  | value id =>
      have hbefore : Prog.inner (before ++ [⟨.inr CallNext.callNext, answer⟩]) = Prog.inner before := by
        rw [inner_append]
        exact List.append_nil _
      refine ⟨id, hfn, huser, htruthy, hid, fun hn => hnull (congrArg Returned.value hn), input,
        action, r.base, ?_⟩
      rw [hbefore]
      rcases traces_check hcheck with ⟨_, x, hx⟩ | ⟨token, req, ans, ha, _⟩
      · cases hx
      · rcases ha.body with ⟨timestamp, hjson⟩
        refine ⟨req, ans, _, hinput, haction, ha.asked, hjson, rfl, rfl, ?_⟩
        rcases check_allowed hcheck (mem_of_lookup hlookup) hallow with hgrant | ⟨_, hopen, _⟩
        · exact hgrant
        · cases hopen

theorem onCallTool_independent (h : g.checkInputFn = none) (other : AuthContext)
    (hname : other.toolName = context.toolName)
    (hresults : callbackResults g other = callbackResults g context) :
    onCallTool L g other = onCallTool L g context := by
  have hauth : resolveAuthorizationId g other = resolveAuthorizationId g context :=
    congrArg Prod.fst hresults
  have htoken : resolveAgentToken g other = resolveAgentToken g context :=
    congrArg Prod.snd hresults
  have hinput : resolveCheckInput g other = resolveCheckInput g context := by
    rw [resolveCheckInput, resolveCheckInput, h]
  rw [onCallTool, onCallTool, hauth, htoken, hinput, hname]

theorem gate_sound (L : PolicyLibs) (g : Gate) (context : AuthContext) : GateSound L g context where
  once := by
    intro t r h
    rcases traces_onCallTool h with ⟨hinner, _⟩ | hran
    · rw [toolRuns_inner hinner]
      exact Nat.zero_le 1
    · exact Nat.le_of_eq hran.toolRuns
  permitted := by
    intro t r h hruns
    rcases traces_onCallTool h with ⟨hinner, _⟩ | hran
    · rw [toolRuns_inner hinner] at hruns
      cases hruns
    · exact hran.permitted
  refused := by
    intro t r h hruns
    rcases traces_onCallTool h with ⟨_, hx⟩ | hran
    · exact hx
    · rw [hran.toolRuns] at hruns
      cases hruns
  independent := fun h other hname hresults => onCallTool_independent h other hname hresults

end Allowly

import Allowly.Base.Twin
import Allowly.Theory.Scenario
import Allowly.Theory.Silent

/-!
# The Confirmation Nonce

Two runs that make the same moves, where the answers of the runtime differ in the
`confirm_nonce` they carry. What a call does with an answer does not depend on the nonce,
so the two runs do the same until one of them writes it down. The journal keeps a response
as a whole in three places: after a request to execute, after a continuation, and after a
report. It is the response of the first two that has its nonce removed, and only if it
waits for review.

A nonce that is not text is refused by the parser. So in two runs with the same moves,
either both answers have a valid nonce or neither has.

## Main definitions

* `NonceApart`, `NonceOnly`: Values and answers that differ in the nonce.
* `KeptAnswer`: An answer that the journal keeps as it is.
* `Spared`: Answers that differ in the nonce, none of which is kept.

## Theorems

* `parse_apart`: The parser passes the nonce on, and nothing else depends on it.
* `lockstep_code`: A call keeps step with itself.
* `journal_spared`: The journals of two runs are the same.
* `nonce_kept`: They are not, if the response says that the operation must be confirmed.
-/

namespace Allowly

open Py Prog Interleave

variable {L : Libs} {c : Client} {j j' : Json}

/-! ### Values -/

def nonceKey : String := "confirm_nonce"

/-- Does the parser accept the nonce? -/
def nonceValid (j : Json) : Bool :=
  match j.get nonceKey with
  | .null => true
  | .str _ => true
  | _ => false

/-- Two objects that differ in the nonce. -/
structure NonceApart (j j' : Json) : Prop where
  left : j.isObj = true
  right : j'.isObj = true
  get : ∀ k : String, k ≠ nonceKey → j'.get k = j.get k
  has : ∀ k : String, k ≠ nonceKey → j'.has k = j.has k
  valid : nonceValid j' = nonceValid j

theorem NonceApart.requireStr (h : NonceApart j j') (k : String) (hk : k ≠ nonceKey) :
    requireStr j' k = requireStr j k := by
  rw [Allowly.requireStr, Allowly.requireStr, h.get k hk]

theorem NonceApart.optionalStr (h : NonceApart j j') (k : String) (hk : k ≠ nonceKey) :
    optionalStr j' k = optionalStr j k := by
  rw [Allowly.optionalStr, Allowly.optionalStr, h.get k hk]

theorem NonceApart.waitingValid (h : NonceApart j j') (status : ExecutionStatus)
    (decision : Decision) (review : Option ExecutionReview) :
    waitingValid L j' status decision review = waitingValid L j status decision review := by
  have hbinding : waitingBinding L j' decision review = waitingBinding L j decision review := by
    funext envelope
    cases review with
    | none => rfl
    | some review =>
        simp (disch := decide) only [waitingBinding, h.get]
  rw [Allowly.waitingValid, Allowly.waitingValid, hbinding, h.get "decision_receipt" (by decide)]

/-- The nonce, if the parser accepts it. -/
theorem nonce_of_valid (h : nonceValid j = true) :
    ∃ n, Allowly.optionalStr j "confirm_nonce" = .ok n := by
  unfold nonceValid nonceKey at h
  unfold Allowly.optionalStr
  cases hj : j.get "confirm_nonce" with
  | null => exact ⟨none, rfl⟩
  | str s => exact ⟨some s, rfl⟩
  | _ => rw [hj] at h; cases h

theorem nonce_of_invalid (h : nonceValid j = false) :
    Allowly.optionalStr j "confirm_nonce" =
      protocolError "confirm_nonce must be a string or null" none := by
  unfold nonceValid nonceKey at h
  unfold Allowly.optionalStr
  cases hj : j.get "confirm_nonce" with
  | null => rw [hj] at h; cases h
  | str s => rw [hj] at h; cases h
  | _ => rfl

theorem bind_eq_map {A B C : Type} {x : Except Exc A} {g : A → Except Exc B}
    {g' : A → Except Exc C} {f : B → C} (h : ∀ a, g' a = (g a).map f) :
    (x >>= g') = (x >>= g).map f := by
  cases x with
  | ok a => exact h a
  | error e => rfl

theorem ite_eq_map {B C : Type} {p : Prop} [Decidable p] {text : String} {shown : Option Str}
    {y : Except Exc B} {y' : Except Exc C} {f : B → C} (h : y' = y.map f) :
    (if p then protocolError text shown else y') = (if p then protocolError text shown else y).map f := by
  by_cases hp : p
  · rw [if_pos hp, if_pos hp]
    rfl
  · rw [if_neg hp, if_neg hp]
    exact h

theorem ok_bind {A B : Type} (a : A) (g : A → Except Exc B) : (Except.ok a >>= g) = g a := rfl

/-- The parser passes the nonce on, and nothing else depends on it. -/
theorem parse_apart (h : NonceApart j j') : ∃ f : ExecutionResponse → ExecutionResponse,
    (∀ r, ∃ n, f r = { r with confirmNonce := n }) ∧
      parseExecutionResponse L j' = (parseExecutionResponse L j).map f := by
  have hdict : requireDict j' "execution response" = .ok j' := if_pos h.right
  have hdict' : requireDict j "execution response" = .ok j := if_pos h.left
  cases hv : nonceValid j with
  | true =>
      rcases nonce_of_valid hv with ⟨n, hn⟩
      rcases nonce_of_valid (h.valid.trans hv) with ⟨n', hn'⟩
      refine ⟨fun r => { r with confirmNonce := n' }, fun r => ⟨n', rfl⟩, ?_⟩
      unfold parseExecutionResponse
      rw [hdict, hdict', ok_bind, ok_bind]
      simp (disch := decide) only [h.requireStr, h.optionalStr, h.get, h.waitingValid]
      rw [hn, hn']
      -- the two parsers are the same up to the nonce, and after it
      repeat' first | (refine bind_eq_map ?_; intro _) | refine ite_eq_map ?_
      rw [ok_bind, ok_bind]
      repeat' (refine bind_eq_map ?_; intro _)
      rfl
  | false =>
      refine ⟨id, fun r => ⟨r.confirmNonce, rfl⟩, ?_⟩
      have hmap : ∀ x : Except Exc ExecutionResponse, x.map id = x := fun x => by
        cases x with
        | ok r => rfl
        | error e => rfl
      unfold parseExecutionResponse
      rw [hmap, hdict, hdict', ok_bind, ok_bind]
      simp (disch := decide) only [h.requireStr, h.optionalStr, h.get, h.waitingValid]
      rw [nonce_of_invalid hv, nonce_of_invalid (h.valid.trans hv)]

/-! ### Answers -/

/-- Two answers of the runtime that differ in the nonce. -/
structure AnswerApart (resp resp' : ApiResponse) : Prop where
  status : resp'.status = resp.status
  headers : resp'.headers = resp.headers
  content : ∃ j j', loadsBytes resp.content = some j ∧ loadsBytes resp'.content = some j' ∧
    NonceApart j j'

/-- Does a response answer the request with this body? -/
def AnswersBody (body : Json) (r : ExecutionResponse) : Prop :=
  body.get "operation_id" = .str r.operationId ∧
    body.get "enabled_executable_id" = .str r.destinationId ∧
    body.get "action" = .str r.action ∧
    body.get "authorization_id" = .str r.requestDescriptor.authorizationId

/-- Does the journal keep the response to a request as it is? -/
def KeptAs (route : Route) (json : Option Json) (r : ExecutionResponse) : Prop :=
  match route, json with
  | .execute, some body => AnswersBody body r ∧ r.status ≠ .waitingForReview
  | .continuation _, some body =>
    AnswersBody (body.get "execution_request") r ∧ r.status ≠ .waitingForReview
  | .outcome operationId, some body =>
    r.operationId = operationId ∧ body.get "approval_sha256" = optionText r.approvalSha256
  | _, _ => False

/-- An answer that is accepted, and that the journal keeps as it is. -/
def KeptAnswer (L : Libs) (req : ApiRequest) (resp : ApiResponse) : Prop :=
  (resp.status = 200 ∨ resp.status = 201) ∧ ∃ data r, loadsBytes resp.content = some data ∧
    parseExecutionResponse L data = .ok r ∧ KeptAs req.route req.json r

/-- Answers that differ in a nonce at most. -/
def NonceOnly : (o : Op) → Except Fault o.Answer → Except Fault o.Answer → Prop
  | .http _, .ok resp, .ok resp' => resp' = resp ∨ AnswerApart resp resp'
  | _, r, r' => r' = r

/-- Answers that differ in a nonce at most, and only if the journal does not keep them. -/
def Spared (L : Libs) : (o : Op) → Except Fault o.Answer → Except Fault o.Answer → Prop
  | .http req, .ok resp, .ok resp' => resp' = resp ∨ (AnswerApart resp resp' ∧ ¬ KeptAnswer L req resp)
  | _, r, r' => r' = r

theorem spared_nonceOnly {o : Op} {r r' : Except Fault o.Answer} (h : Spared L o r r') :
    NonceOnly o r r' := by
  cases o with
  | http req =>
      cases r with
      | ok resp =>
          cases r' with
          | ok resp' => exact h.imp_right And.left
          | error x => exact h
      | error x => exact h
  | _ => exact h

/-- Operations that do not ask the runtime. -/
def Offline : Op → Bool
  | .http _ => false
  | _ => true

theorem spared_offline {o : Op} (h : Offline o = true) {r r' : Except Fault o.Answer}
    (hr : Spared L o r r') : r' = r := by
  cases o with
  | http req => cases h
  | _ => exact hr

/-! ### Steps of two programs -/

/-- Both succeed in related values, or both fail with the same error. -/
def Beside {A : Type} (P : A → A → Prop) : Except Exc A → Except Exc A → Prop
  | .ok a, .ok a' => P a a'
  | .error x, .error x' => x' = x
  | _, _ => False

/-- The two programs perform the same operations and end in related results. -/
def Steps (L : Libs) {A : Type} (p p' : Call A) (P : A → A → Prop) : Prop :=
  Lockstep (Spared L) p p' (Beside P)

/-- A program that does not ask the runtime. -/
def Apart {A : Type} (p : Call A) : Prop := Uses (fun o => Offline o = true) p

theorem beside_refl {A : Type} {P : A → A → Prop} (h : ∀ a, P a a) (r : Except Exc A) :
    Beside P r r := by
  cases r with
  | ok a => exact h a
  | error x => rfl

theorem beside_mono {A : Type} {P P' : A → A → Prop} {r r' : Except Exc A} (h : Beside P r r')
    (himp : ∀ a a', P a a' → P' a a') : Beside P' r r' := by
  cases r with
  | ok a =>
      cases r' with
      | ok a' => exact himp a a' h
      | error x' => exact h
  | error x =>
      cases r' with
      | ok a' => exact h
      | error x' => exact h

section Rules

variable {A B : Type} {P : A → A → Prop} {Q : B → B → Prop}

theorem steps_pure {a a' : A} (h : P a a') : Steps L (pure a : Call A) (pure a') P := h

theorem steps_raise (x : Exc) : Steps L (raise x : Call A) (raise x) P := rfl

theorem steps_bind {p p' : Call A} {f f' : A → Call B} (h : Steps L p p' P)
    (hf : ∀ a a', P a a' → Steps L (f a) (f' a') Q) : Steps L (p >>= f) (p' >>= f') Q :=
  lockstep_bind h hf fun _ _ hx => hx

theorem steps_attempt {p p' : Call A} (h : Steps L p p' P) :
    Steps L p.attempt p'.attempt (Beside P) :=
  lockstep_attempt h

theorem steps_computed {e e' : Except Exc A} (h : Beside P e e') :
    Steps L (computed e) (computed e') P := by
  cases e with
  | ok a =>
      cases e' with
      | ok a' => exact h
      | error x' => exact h.elim
  | error x =>
      cases e' with
      | ok a' => exact h.elim
      | error x' => exact h

/-- A program that does not ask the runtime keeps step with itself. -/
theorem steps_apart {p : Call A} (h : Apart p) : Steps L p p fun a a' => a' = a :=
  lockstep_refl p (uses_mono h fun _ ho _ _ hr => spared_offline ho hr) (beside_refl fun _ => rfl)

theorem steps_apart_bind {p : Call A} {f f' : A → Call B} (h : Apart p)
    (hf : ∀ a, Steps L (f a) (f' a) Q) : Steps L (p >>= f) (p >>= f') Q := by
  refine steps_bind (steps_apart h) ?_
  intro a a' ha
  rw [ha]
  exact hf a

theorem steps_computed_bind {e : Except Exc A} {f f' : A → Call B}
    (hf : ∀ a, e = .ok a → Steps L (f a) (f' a) Q) :
    Steps L (computed e >>= f) (computed e >>= f') Q := by
  cases e with
  | ok a => exact hf a rfl
  | error x => exact steps_raise x

theorem steps_always {p p' : Call A} {last : Call Unit} (h : Steps L p p' P) (hl : Apart last) :
    Steps L (always p last) (always p' last) P := by
  refine steps_bind (steps_attempt h) ?_
  intro r r' hr
  exact steps_apart_bind hl fun _ => steps_computed hr

theorem steps_mono {p p' : Call A} {P' : A → A → Prop} (h : Steps L p p' P)
    (himp : ∀ a a', P a a' → P' a a') : Steps L p p' P' :=
  lockstep_mono h fun _ _ hr => beside_mono hr himp

end Rules

/-! ### Programs that do not ask the runtime -/

theorem apart_silent {A : Type} {p : Call A} (h : Silent p) : Apart p := by
  refine uses_mono h ?_
  intro o ho
  cases o with
  | http req => cases ho
  | _ => rfl

theorem apart_ask {o : Op} (h : Offline o = true) : Apart (ask o) := uses_perform h

theorem apart_bind {A B : Type} {p : Call A} {f : A → Call B} (h : Apart p)
    (hf : ∀ a, Apart (f a)) : Apart (p >>= f) :=
  uses_bind h hf

theorem apart_always {A : Type} {p : Call A} {last : Call Unit} (h : Apart p) (hl : Apart last) :
    Apart (always p last) :=
  uses_always h hl

theorem apart_save (file : File) (v : Json) : Apart (save file v) := by
  refine apart_bind (apart_ask (o := .makeTemporary) rfl) ?_
  intro _
  refine apart_always ?_ (apart_ask (o := .dropTemporary) rfl)
  refine apart_bind (uses_ofExcept _) ?_
  intro data
  refine apart_bind (apart_ask (o := .writeTemporary data) rfl) ?_
  intro _
  refine apart_bind (apart_ask (o := .replace file data) rfl) ?_
  intro _
  exact apart_ask (o := .syncFolder) rfl

theorem apart_saveResponse (response : Option Json) : Apart (saveResponse response) := by
  cases response with
  | none => exact trivial
  | some v => exact apart_save .response v

theorem apart_providerSend (s : SendArgs) : Apart (providerSend L s) := by
  unfold providerSend
  cases urlsplit s.descriptor.origin with
  | none => exact trivial
  | some parsed =>
      refine apart_bind (apart_ask (o := .lookup _) rfl) ?_
      intro addresses
      cases addresses with
      | nil => exact trivial
      | cons first rest =>
          by_cases hany : ((first :: rest).any fun a => !a.isGlobal) = true
          · simp only [if_pos hany]
            exact trivial
          · simp only [if_neg hany]
            refine apart_always ?_ (apart_ask (o := .disconnect) rfl)
            refine apart_bind (apart_ask (o := .connect _ _) rfl) ?_
            intro _
            refine apart_bind (apart_silent (silent_live L s.approval)) ?_
            intro _
            cases encode s.body with
            | none => exact trivial
            | some body =>
                refine apart_bind (apart_ask (o := .transmit _) rfl) ?_
                intro response
                split
                · exact trivial
                · split
                  · exact trivial
                  · exact trivial

/-! ### The client -/

/-- What the client hands on, of two answers. -/
def Handed (L : Libs) (route : Route) (json : Option Json) (d d' : Json) : Prop :=
  d' = d ∨ (NonceApart d d' ∧ ∀ r, parseExecutionResponse L d = .ok r → ¬ KeptAs route json r)

/-- The two answers a request gets. -/
def AnsweredApart (L : Libs) (req : ApiRequest) (resp resp' : ApiResponse) : Prop :=
  resp' = resp ∨ (AnswerApart resp resp' ∧ ¬ KeptAnswer L req resp)

theorem steps_http (req : ApiRequest) :
    Steps L (ask (.http req)) (ask (.http req)) (AnsweredApart L req) := by
  refine ⟨rfl, ?_⟩
  intro r r' hr
  cases r with
  | ok resp =>
      cases r' with
      | ok resp' => exact hr
      | error x => cases hr
  | error x =>
      cases r' with
      | ok resp' => cases hr
      | error x' =>
          cases hr
          exact rfl

theorem steps_send (req : ApiRequest) : Steps L (send req) (send req) (AnsweredApart L req) := by
  refine steps_bind (steps_attempt (steps_http req)) ?_
  intro r r' hr
  cases r with
  | ok resp =>
      cases r' with
      | ok resp' => exact steps_pure hr
      | error x => exact hr.elim
  | error x =>
      cases r' with
      | ok resp' => exact hr.elim
      | error x' =>
          have hx : x' = x := hr
          subst hx
          cases x' with
          | remoteProtocol =>
              simp only
              split
              · exact steps_http req
              · exact steps_raise _
          | _ => exact steps_raise _

theorem apiError_apart {sensitive : List Str} {resp resp' : ApiResponse} (h : NonceApart j j')
    (hs : resp'.status = resp.status) (hh : resp'.headers = resp.headers) :
    apiError L sensitive resp' j' = apiError L sensitive resp j := by
  have hheader : resp'.header "Retry-After" = resp.header "Retry-After" := by
    rw [ApiResponse.header, ApiResponse.header, hh]
  simp only [apiError, h.get "error" (by decide), hs, hheader]

/-- The answers differ in the nonce, and so does what they hold. -/
theorem readResponse_apart {sensitive : List Str} {expected : List Nat} {resp resp' : ApiResponse}
    (h : AnswerApart resp resp') :
    Beside (fun d d' => d' = d ∨
        (NonceApart d d' ∧ loadsBytes resp.content = some d ∧ resp.status ∈ expected))
      (readResponse L sensitive expected resp) (readResponse L sensitive expected resp') := by
  rcases h.content with ⟨d, d', hd, hd', hapart⟩
  have hsuccess : resp'.isSuccess = resp.isSuccess := by
    rw [ApiResponse.isSuccess, ApiResponse.isSuccess, h.status]
  rw [readResponse, readResponse, hsuccess, h.status, hd, hd']
  by_cases hexp : resp.isSuccess = true ∧ resp.status ∉ expected
  · rw [if_pos hexp, if_pos hexp]
    exact rfl
  · rw [if_neg hexp, if_neg hexp]
    by_cases hnone : resp.status = 204
    · rw [if_pos hnone, if_pos hnone]
      exact Or.inl rfl
    · rw [if_neg hnone, if_neg hnone]
      by_cases hok : resp.isSuccess = true
      · simp only [if_pos hok]
        exact Or.inr ⟨hapart, rfl, by_contra fun hmem => hexp ⟨hok, hmem⟩⟩
      · simp only [if_neg hok]
        exact apiError_apart hapart h.status h.headers

theorem steps_requestWithHeaders {route : Route} {path : Str} {json : Option Json}
    {headers : List (Str × Str)} {expected : List Nat} (hexp : ∀ n ∈ expected, n = 200 ∨ n = 201) :
    Steps L (requestWithHeaders L c route path json headers expected)
      (requestWithHeaders L c route path json headers expected)
      fun d d' => Handed L route json d.1 d'.1 := by
  unfold requestWithHeaders
  by_cases hs : L.sendable headers = false
  · simp only [if_pos hs]
    exact steps_raise _
  · simp only [if_neg hs]
    by_cases hb : (json.map fun j => (dumps j).bind encode) = some none
    · simp only [if_pos hb]
      exact steps_raise _
    · simp only [if_neg hb]
      refine steps_bind (steps_send _) ?_
      intro resp resp' hresp
      have hread : Beside (Handed L route json)
          (readResponse L (sensitiveValues c headers) expected resp)
          (readResponse L (sensitiveValues c headers) expected resp') := by
        rcases hresp with rfl | ⟨hapart, hkept⟩
        · exact beside_refl (fun a => (Or.inl rfl : Handed L route json a a)) _
        · refine beside_mono (readResponse_apart hapart) ?_
          rintro d d' (rfl | ⟨hd, hload, hstatus⟩)
          · exact Or.inl rfl
          · exact Or.inr ⟨hd, fun r hr hk => hkept ⟨hexp _ hstatus, d, r, hload, hr, hk⟩⟩
      exact steps_bind (steps_computed hread) fun d d' hd => steps_pure hd

theorem steps_callRoute {route : Route} {json : Option Json} {agentToken key : Option Str}
    {expected : List Nat} (hexp : ∀ n ∈ expected, n = 200 ∨ n = 201) :
    Steps L (callRoute L c route json agentToken key expected)
      (callRoute L c route json agentToken key expected) (Handed L route json) := by
  unfold callRoute
  cases route.path with
  | none => exact steps_raise _
  | some path =>
      refine steps_apart_bind (apart_silent (silent_identityHeaders c agentToken key)) ?_
      intro headers
      exact steps_bind (steps_requestWithHeaders hexp) fun d d' hd => steps_pure hd

/-- Two responses that differ in the nonce, of an operation that waits for review. -/
def Waits (r r' : ExecutionResponse) : Prop :=
  r' = r ∨ (r.status = .waitingForReview ∧ ∃ n, r' = { r with confirmNonce := n })

/-- Two responses of which the first is not kept. -/
theorem steps_parsed {route : Route} {json : Option Json} {d d' : Json}
    (h : Handed L route json d d') : Steps L (computed (parseExecutionResponse L d))
      (computed (parseExecutionResponse L d')) fun r r' =>
        r' = r ∨ (¬ KeptAs route json r ∧ ∃ n, r' = { r with confirmNonce := n }) := by
  refine steps_computed ?_
  rcases h with rfl | ⟨hapart, hkept⟩
  · refine beside_refl ?_ _
    intro r
    exact Or.inl rfl
  · rcases parse_apart (L := L) hapart with ⟨f, hf, hparse⟩
    rw [hparse]
    cases hr : parseExecutionResponse L d with
    | error x => exact rfl
    | ok r => exact Or.inr ⟨hkept r hr, hf r⟩

theorem answersBody_of {r : Requested} {result : ExecutionResponse}
    (h : answersRequest r result = true) : AnswersBody r.toJson result := by
  rw [answersRequest] at h
  simp only [Bool.and_eq_true, decide_eq_true_eq] at h
  rcases h with ⟨⟨⟨h₁, h₂⟩, h₃⟩, h₄⟩
  rw [AnswersBody, h₁, h₂, h₃, h₄]
  exact ⟨rfl, rfl, rfl, rfl⟩

/-- A response to a request to execute or to continue is handed on, if it answers it. -/
theorem steps_answers {r : Requested} {route : Route} {json : Option Json}
    {result result' : ExecutionResponse} {text : String}
    (hroute : AnswersBody r.toJson result → result.status ≠ .waitingForReview →
      KeptAs route json result)
    (h : result' = result ∨ (¬ KeptAs route json result ∧
      ∃ n, result' = { result with confirmNonce := n })) :
    Steps L (if answersRequest r result then return result else raise (.protocol text none))
      (if answersRequest r result' then return result' else raise (.protocol text none)) Waits := by
  have hsame : answersRequest r result' = answersRequest r result := by
    rcases h with rfl | ⟨_, n, rfl⟩
    · rfl
    · rfl
  rw [hsame]
  by_cases ha : answersRequest r result = true
  · rw [if_pos ha, if_pos ha]
    rcases h with rfl | ⟨hkept, n, rfl⟩
    · exact steps_pure (Or.inl rfl)
    · refine steps_pure (Or.inr ⟨?_, n, rfl⟩)
      by_contra hs
      exact hkept (hroute (answersBody_of ha) hs)
  · rw [if_neg ha, if_neg ha]
    exact steps_raise _

theorem steps_prepareExecution {r : Requested} {key : Str} {agentToken : Option Str} :
    Steps L (prepareExecution L c r key agentToken) (prepareExecution L c r key agentToken)
      Waits := by
  unfold prepareExecution
  refine steps_apart_bind (apart_silent (silent_identityHeaders c agentToken _)) ?_
  intro headers
  refine steps_computed_bind ?_
  intro timestamp htimestamp
  refine steps_bind (steps_requestWithHeaders (by decide)) ?_
  intro d d' hd
  refine steps_bind (steps_parsed hd) ?_
  intro result result' hresult
  refine steps_answers ?_ hresult
  intro hbody hs
  exact ⟨hbody, hs⟩

theorem steps_continueExecution {operationId : Str} {r : Requested} {i : Intent}
    {agentToken : Option Str} : Steps L (continueExecution L c operationId r i agentToken)
      (continueExecution L c operationId r i agentToken) Waits := by
  unfold continueExecution
  by_cases hbad : r.operationId ≠ operationId ∨ i.reviewId = [] ∨ i.sourceReceiptId = [] ∨
      i.idempotencyKey = []
  · simp only [if_pos hbad]
    exact steps_raise _
  · simp only [if_neg hbad]
    have hid : r.operationId = operationId := by
      by_contra hne
      exact hbad (Or.inl hne)
    refine steps_computed_bind ?_
    intro timestamp htimestamp
    refine steps_bind (steps_callRoute (by decide)) ?_
    intro d d' hd
    refine steps_bind (steps_parsed hd) ?_
    intro result result' hresult
    refine steps_answers ?_ hresult
    intro hbody hs
    refine ⟨?_, hs⟩
    rw [← hid] at hbody
    exact hbody

/-- Values that are the same up to a nonce. -/
def SameButNonce (d d' : Json) : Prop := d' = d ∨ NonceApart d d'

theorem SameButNonce.get {d d' : Json} (h : SameButNonce d d') (k : String) (hk : k ≠ nonceKey) :
    d'.get k = d.get k := by
  rcases h with rfl | h
  · rfl
  · exact h.get k hk

theorem SameButNonce.has {d d' : Json} (h : SameButNonce d d') (k : String) (hk : k ≠ nonceKey) :
    d'.has k = d.has k := by
  rcases h with rfl | h
  · rfl
  · exact h.has k hk

theorem SameButNonce.isObj {d d' : Json} (h : SameButNonce d d') : d'.isObj = d.isObj := by
  rcases h with rfl | h
  · rfl
  · rw [h.left, h.right]

theorem sameButNonce_of_handed {route : Route} {json : Option Json} {d d' : Json}
    (h : Handed L route json d d') : SameButNonce d d' := h.imp_right And.left

theorem steps_claimExecutionDispatch {operationId : Str} {approvalSha256 agentToken : Option Str} :
    Steps L (claimExecutionDispatch L c operationId approvalSha256 agentToken)
      (claimExecutionDispatch L c operationId approvalSha256 agentToken) SameButNonce := by
  refine steps_bind (steps_callRoute (by decide)) ?_
  intro d d' hd
  have hd := sameButNonce_of_handed hd
  rw [hd.isObj, hd.get "operation_id" (by decide), hd.get "approval_sha256" (by decide),
    hd.get "dispatch_state" (by decide)]
  split
  · exact steps_pure hd
  · exact steps_raise _

theorem steps_getExecutionWitnessToken {operationId : Str}
    {approvalSha256 agentToken : Option Str} :
    Steps L (getExecutionWitnessToken L c operationId approvalSha256 agentToken)
      (getExecutionWitnessToken L c operationId approvalSha256 agentToken) SameButNonce := by
  refine steps_bind (steps_callRoute (by decide)) ?_
  intro d d' hd
  have hd := sameButNonce_of_handed hd
  rw [hd.isObj, hd.get "approval_sha256" (by decide)]
  split
  · exact steps_pure hd
  · exact steps_raise _

theorem steps_reportExecutionOutcome {operationId : Str} {outcome : Json}
    {key agentToken : Option Str} :
    Steps L (reportExecutionOutcome L c operationId outcome key agentToken)
      (reportExecutionOutcome L c operationId outcome key agentToken) fun r r' => r' = r := by
  refine steps_bind (steps_callRoute (by decide)) ?_
  intro d d' hd
  refine steps_bind (steps_parsed hd) ?_
  intro r r' hr
  rcases hr with rfl | ⟨hkept, n, rfl⟩
  · split
    · exact steps_raise _
    · split
      · exact steps_pure rfl
      · exact steps_raise _
  · by_cases hattr : r.operationId = operationId ∧ outcome.isObj = false
    · rw [if_pos hattr, if_pos hattr]
      exact steps_raise _
    · rw [if_neg hattr, if_neg hattr]
      by_cases hmatch : r.operationId = operationId ∧
          optionText r.approvalSha256 = outcome.get "approval_sha256"
      · exact absurd ⟨hmatch.1, hmatch.2.symm⟩ hkept
      · rw [if_neg hmatch, if_neg hmatch]
        exact steps_raise _

/-! ### The calls -/

/-- The results are the same. -/
abbrev Identical {A : Type} (a a' : A) : Prop := a' = a

theorem beside_same {A : Type} {r r' : Except Exc A} (h : Beside Identical r r') : r' = r := by
  cases r with
  | ok a =>
      cases r' with
      | ok a' => exact congrArg Except.ok h
      | error x' => exact h.elim
  | error x =>
      cases r' with
      | ok a' => exact h.elim
      | error x' => exact congrArg Except.error h

/-- Two programs with the same result, and then the same program. -/
theorem steps_same_bind {A B : Type} {p p' : Call A} {f f' : A → Call B} {Q : B → B → Prop}
    (h : Steps L p p' Identical) (hf : ∀ a, Steps L (f a) (f' a) Q) :
    Steps L (p >>= f) (p' >>= f') Q := by
  refine steps_bind h ?_
  intro a a' ha
  have ha : a' = a := ha
  rw [ha]
  exact hf a

theorem steps_same_attempt {A : Type} {p p' : Call A} (h : Steps L p p' Identical) :
    Steps L p.attempt p'.attempt Identical :=
  steps_mono (steps_attempt h) fun _ _ hr => beside_same hr

theorem steps_self {A : Type} {p : Call A} (h : Apart p) : Steps L p p Identical := steps_apart h

theorem steps_withLock {A : Type} {P : A → A → Prop} {p : Call A} (h : Steps L p p P) :
    Steps L (withLock p) (withLock p) P := by
  refine steps_apart_bind (apart_ask (o := .openLock) rfl) ?_
  intro _
  refine steps_always ?_ (apart_ask (o := .closeLock) rfl)
  refine steps_apart_bind (uses_attempt (apart_ask (o := .flock) rfl)) ?_
  intro locked
  cases locked with
  | ok _ => exact h
  | error x =>
      simp only
      split
      · exact steps_raise _
      · exact steps_raise _

theorem steps_claim {operationId : Str} {r : ExecutionResponse} {approval state : Json}
    {agentToken : Option Str} : Steps L (claim L c operationId r approval state agentToken)
      (claim L c operationId r approval state agentToken) Identical := by
  refine steps_apart_bind (apart_silent (silent_attempt (silent_bind (silent_live L approval)
    fun _ => silent_bind (silent_ask (o := .now) rfl) fun _ => silent_pure _))) ?_
  intro started
  cases started with
  | error x => exact steps_pure rfl
  | ok started =>
      refine steps_same_bind (steps_same_attempt ?_) fun _ => steps_pure rfl
      refine steps_apart_bind (apart_save _ _) ?_
      intro _
      refine steps_bind steps_claimExecutionDispatch ?_
      intro d d' hd
      rw [hd.get "approval" (by decide), hd.get "effective_evidence_mode" (by decide)]
      split
      · exact steps_raise _
      · exact steps_self (apart_silent (silent_live L approval))

theorem steps_reportOutcome {state : Json} {agentToken : Option Str} :
    Steps L (reportOutcome L c state agentToken) (reportOutcome L c state agentToken) Identical := by
  refine steps_computed_bind ?_
  intro operationId _
  refine steps_computed_bind ?_
  intro outcome _
  refine steps_computed_bind ?_
  intro key _
  refine steps_computed_bind ?_
  intro operationId _
  refine steps_computed_bind ?_
  intro key _
  refine steps_same_bind steps_reportExecutionOutcome ?_
  intro final
  exact steps_apart_bind (apart_save _ _) fun _ => steps_pure rfl

theorem steps_flushExecutionOutcome {agentToken : Option Str} :
    Steps L (flushExecutionOutcome L c agentToken) (flushExecutionOutcome L c agentToken)
      Identical := by
  refine steps_apart_bind (apart_ask (o := .resolve) rfl) ?_
  intro _
  refine steps_apart_bind (apart_silent (silent_readJson .journal readLimit)) ?_
  intro state
  refine steps_computed_bind ?_
  intro pending _
  by_cases hp : pending = false
  · rw [if_pos hp]
    exact steps_raise _
  · rw [if_neg hp]
    exact steps_reportOutcome

theorem steps_settle {operationId : Str} {r : ExecutionResponse} {state : Json} {a : Artifacts}
    {agentToken : Option Str} : Steps L (settle L c operationId r state a agentToken)
      (settle L c operationId r state a agentToken) Identical := by
  refine steps_apart_bind (apart_saveResponse a.response) ?_
  intro _
  refine steps_apart_bind (apart_ask (o := .now) rfl) ?_
  intro now
  refine steps_apart_bind (apart_save _ _) ?_
  intro _
  refine steps_same_bind (steps_same_attempt steps_flushExecutionOutcome) ?_
  intro reported
  cases reported with
  | ok final => exact steps_pure rfl
  | error x =>
      simp only
      split
      · exact steps_pure rfl
      · exact steps_raise _

theorem steps_witnessedRun {operationId : Str} {r : ExecutionResponse} {approval state : Json}
    {agentToken : Option Str} : Steps L (witnessedRun L c operationId r approval state agentToken)
      (witnessedRun L c operationId r approval state agentToken) Identical := by
  have hready : ∀ binding : Json, Apart (Prog.attempt do
      let polls : Nat ← ask .patience
      awaitReady polls
      let gate ← readJson .ready 1024
      if pyEq gate binding then return ()
      else raise (.protocol "witness ready gate differs from approval" none) : Call _) := by
    intro binding
    refine apart_silent (silent_attempt (silent_bind (silent_ask (o := .patience) rfl) ?_))
    intro polls
    refine silent_bind (silent_awaitReady polls) ?_
    intro _
    refine silent_bind (silent_readJson .ready 1024) ?_
    intro gate
    split
    · exact silent_pure _
    · exact silent_raise _
  refine steps_apart_bind (hready _) ?_
  intro ready
  cases ready with
  | error x => exact steps_pure rfl
  | ok u =>
      refine steps_same_bind steps_claim ?_
      intro claimed
      rcases claimed with ⟨state, x | u⟩
      · exact steps_pure rfl
      · refine steps_apart_bind ?_ fun _ => steps_pure rfl
        exact uses_attempt (apart_bind (apart_save _ _) fun _ => apart_ask (o := .awaitNative) rfl)

theorem checkAdmission_same {d d' session approval : Json} (h : SameButNonce d d') :
    checkAdmission d' session approval = checkAdmission d session approval := by
  simp (disch := decide) only [checkAdmission, admissionKeys, List.any_cons, List.any_nil, h.get]
  rfl

theorem admissionMembers_same {d d' : Json} (h : SameButNonce d d') :
    admissionMembers d' = admissionMembers d := by
  have hmember : ∀ k : String, k ≠ nonceKey → member d' k = member d k := by
    intro k hk
    rw [member, member, h.has k hk, h.get k hk]
  simp (disch := decide) only [admissionMembers, hmember]

theorem witnessInput_same {r : ExecutionResponse} {approval d d' : Json}
    {headers : List (Str × Str)} {body : Str} (h : SameButNonce d d') :
    witnessInput r approval d' headers body = witnessInput r approval d headers body := by
  simp (disch := decide) only [witnessInput, h.get]

theorem steps_dispatchWitnessed {requested : Requested} {headers : List (Str × Str)} {body : Str}
    {r : ExecutionResponse} {approval state : Json} {files : WitnessFiles}
    {agentToken : Option Str} :
    Steps L (dispatchWitnessed L c requested headers body r approval state files agentToken)
      (dispatchWitnessed L c requested headers body r approval state files agentToken) Identical := by
  unfold dispatchWitnessed
  by_cases hlarge : witnessTooLarge L requested.httpRequest headers body = true
  · simp only [if_pos hlarge]
    exact steps_raise _
  · simp only [if_neg hlarge]
    refine steps_bind steps_getExecutionWitnessToken ?_
    intro d d' hd
    rw [checkAdmission_same hd, admissionMembers_same hd, witnessInput_same hd]
    refine steps_computed_bind ?_
    intro _ _
    refine steps_computed_bind ?_
    intro _ _
    refine steps_apart_bind (apart_ask (o := .startNative _) rfl) ?_
    intro _
    refine steps_computed_bind ?_
    intro stdin _
    refine steps_apart_bind (apart_ask (o := .communicate _) rfl) ?_
    intro _
    refine steps_same_bind steps_witnessedRun ?_
    intro run
    refine steps_apart_bind (apart_ask (o := .reapNative) rfl) ?_
    intro _
    have hafter : Apart (afterRun run.1 run.2) := by
      unfold afterRun
      cases run.2 with
      | ok _ => exact trivial
      | error x =>
          simp only
          split
          · exact trivial
          · exact trivial
    refine steps_apart_bind hafter ?_
    intro _
    exact steps_apart_bind (apart_silent (silent_witnessArtifacts _)) fun _ => steps_pure rfl

theorem steps_dispatchDirect {requested : Requested} {headers : List (Str × Str)} {body : Str}
    {r : ExecutionResponse} {approval state : Json} {agentToken : Option Str} :
    Steps L (dispatchDirect L c requested headers body r approval state agentToken)
      (dispatchDirect L c requested headers body r approval state agentToken) Identical := by
  refine steps_same_bind steps_claim ?_
  intro claimed
  refine steps_computed_bind ?_
  intro _ _
  have hsend : ∀ s : SendArgs, Apart (do
      let thread : Nat ← ask (.startSend s)
      let value : Json ← ask (.joinSend thread)
      computed (observedResponse value (1024 * 1024)) : Call Json) := by
    intro s
    refine apart_bind (apart_ask (o := .startSend s) rfl) ?_
    intro thread
    exact apart_bind (apart_ask (o := .joinSend thread) rfl) fun _ => uses_ofExcept _
  refine steps_apart_bind (uses_attempt (hsend _)) ?_
  intro response
  cases response with
  | ok v => exact steps_pure rfl
  | error x =>
      simp only
      split
      · exact steps_pure rfl
      · exact steps_raise _

theorem apart_optionalFiles {a : Args} {r : ExecutionResponse} {approval : Json} :
    Apart (optionalFiles L a r approval) := by
  unfold optionalFiles
  split
  · exact apart_bind (apart_silent (silent_sessionFiles L r approval _ _)) fun _ => trivial
  · exact trivial

theorem steps_dispatchApproved {a : Args} {requested : Requested} {headers : List (Str × Str)}
    {state : Json} {r : ExecutionResponse} :
    Steps L (dispatchApproved L c a requested headers state r)
      (dispatchApproved L c a requested headers state r) Identical := by
  have hvalidate : Apart (validateApproval L r requested) :=
    apart_bind (uses_ofExcept _) fun approval =>
      apart_bind (apart_silent (silent_live L approval)) fun _ => trivial
  refine steps_apart_bind hvalidate ?_
  intro approval
  refine steps_apart_bind apart_optionalFiles ?_
  intro files
  refine steps_apart_bind (apart_save _ _) ?_
  intro _
  have hdispatch : Steps L (dispatch L c a requested headers r approval state files)
      (dispatch L c a requested headers r approval state files) Identical := by
    cases files with
    | some files => exact steps_dispatchWitnessed
    | none => exact steps_dispatchDirect
  exact steps_same_bind hdispatch fun _ => steps_settle

/-- The journal of a response that waits for review has no nonce. -/
theorem journalAuthorization_waits {r r' : ExecutionResponse} (h : Waits r r') :
    journalAuthorization r' = journalAuthorization r := by
  rcases h with rfl | ⟨hs, n, rfl⟩
  · rfl
  · rw [journalAuthorization, journalAuthorization, if_pos hs, if_pos hs]
    rfl

theorem steps_proceed {a : Args} {requested : Requested} {headers : List (Str × Str)}
    {state : Json} {phase : String} {r r' : ExecutionResponse} (h : Waits r r') :
    Steps L (proceed L c a requested headers state phase r)
      (proceed L c a requested headers state phase r') fun _ _ => True := by
  have hauthorization := journalAuthorization_waits h
  have hstatus : r'.status = r.status ∧ approved r' = approved r := by
    rcases h with rfl | ⟨_, n, rfl⟩
    · exact ⟨rfl, rfl⟩
    · exact ⟨rfl, rfl⟩
  have hstate : answeredState state phase r' = answeredState state phase r := by
    rw [answeredState, answeredState, hauthorization, hstatus.1, hstatus.2]
  unfold proceed
  rw [hstate, hstatus.2]
  refine steps_apart_bind (apart_save _ _) ?_
  intro _
  by_cases ha : approved r = false
  · rw [if_pos ha, if_pos ha]
    exact steps_pure trivial
  · rw [if_neg ha, if_neg ha]
    rcases h with rfl | ⟨hs, _⟩
    · exact steps_mono steps_dispatchApproved fun _ _ _ => trivial
    · refine absurd ?_ ha
      rw [approved, hs]
      exact Bool.and_false _

theorem steps_executeHttp {a : Args} :
    Steps L (executeHttp L c a) (executeHttp L c a) fun _ _ => True := by
  refine steps_computed_bind ?_
  intro prepared _
  refine steps_apart_bind (apart_ask (o := .now) rfl) ?_
  intro now
  refine steps_apart_bind (apart_ask (o := .resolve) rfl) ?_
  intro _
  by_cases hid : encode a.operationId = none
  · simp only [if_pos hid]
    exact steps_raise _
  · simp only [if_neg hid]
    refine steps_apart_bind (apart_ask (o := .folderExists) rfl) ?_
    intro exists_
    by_cases hexists : exists_ = true
    · simp only [if_pos hexists]
      exact steps_raise _
    · simp only [if_neg hexists]
      refine steps_apart_bind (apart_ask (o := .mkdirParent) rfl) ?_
      intro _
      refine steps_apart_bind (uses_attempt (apart_ask (o := .mkdir) rfl)) ?_
      intro made
      cases made with
      | error x =>
          cases x with
          | _ => exact steps_raise _
      | ok _ =>
          refine steps_computed_bind ?_
          intro requestSha _
          refine steps_apart_bind (apart_save _ _) ?_
          intro _
          refine steps_withLock ?_
          exact steps_bind steps_prepareExecution fun _ _ hr => steps_proceed hr

theorem steps_continueHttpExecution {a : Args} :
    Steps L (continueHttpExecution L c a) (continueHttpExecution L c a) fun _ _ => True := by
  refine steps_computed_bind ?_
  intro prepared _
  refine steps_apart_bind (apart_ask (o := .resolve) rfl) ?_
  intro _
  by_cases hid : encode a.operationId = none
  · simp only [if_pos hid]
    exact steps_raise _
  · simp only [if_neg hid]
    refine steps_apart_bind (apart_ask (o := .folderIsDir) rfl) ?_
    intro isDir
    by_cases hdir : isDir = false
    · simp only [if_pos hdir]
      exact steps_raise _
    · simp only [if_neg hdir]
      refine steps_withLock ?_
      refine steps_apart_bind (apart_silent (silent_readJson .journal readLimit)) ?_
      intro state
      refine steps_computed_bind ?_
      intro resumed _
      refine steps_apart_bind (apart_save _ _) ?_
      intro _
      exact steps_bind steps_continueExecution fun _ _ hr => steps_proceed hr

/-! ### The folder -/

/-- What a thread waiting for a result can see of it. -/
def SameSent (v v' : Value) : Prop := ∀ response, isSent (some (.ok v')) response =
  isSent (some (.ok v)) response

/-- A call keeps step with itself. -/
theorem lockstep_code (cmd : Command) : Steps L (code L cmd) (code L cmd) SameSent := by
  cases cmd with
  | execute c a => exact steps_bind steps_executeHttp fun _ _ _ => steps_pure fun _ => rfl
  | continuation c a =>
      exact steps_bind steps_continueHttpExecution fun _ _ _ => steps_pure fun _ => rfl
  | flush c agentToken =>
      exact steps_bind steps_flushExecutionOutcome fun _ _ _ => steps_pure fun _ => rfl
  | send s =>
      refine steps_same_bind (steps_self (apart_providerSend s)) ?_
      intro response
      exact steps_pure fun _ => rfl

/-- The folders are the same, up to the results of calls that are not threads. -/
structure SameFolder (s s' : Folder) : Prop where
  node : s'.node = s.node
  files : s'.files = s.files
  lock : s'.lock = s.lock
  sent : ∀ n v, isSent (s'.results n) v = isSent (s.results n) v

theorem sameFolder_write {s s' : Folder} (h : SameFolder s s') (file : File) (data : Option Bytes) :
    SameFolder (s.write file data) (s'.write file data) := by
  refine ⟨h.node, ?_, h.lock, h.sent⟩
  rw [Folder.write, Folder.write, h.files]

theorem sameFolder_unlock {s s' : Folder} (h : SameFolder s s') (self : Nat) :
    SameFolder (s.unlock self) (s'.unlock self) := by
  refine ⟨h.node, h.files, ?_, h.sent⟩
  rw [Folder.unlock, Folder.unlock, h.lock]

theorem sameFolder_if {p p' : Prop} [Decidable p] [Decidable p'] {u u' t t' : Folder}
    (h : SameFolder u u') (hp : (if p then some u else none) = some t)
    (hp' : (if p' then some u' else none) = some t') : SameFolder t t' := by
  by_cases hc : p
  · by_cases hc' : p'
    · rw [if_pos hc, Option.some.injEq] at hp
      rw [if_pos hc', Option.some.injEq] at hp'
      rw [← hp, ← hp']
      exact h
    · rw [if_neg hc'] at hp'
      cases hp'
  · rw [if_neg hc] at hp
    cases hp

/-- The same operation with the same answer. -/
theorem sameFolder_perform {a n : Nat} {o : Op} {r : Except Fault o.Answer} {s s' t t' : Folder}
    (h : SameFolder s s') (hp : perform a n o r s = some t) (hp' : perform a n o r s' = some t') :
    SameFolder t t' := by
  have hid : ∀ {u u' : Folder}, some s = some u → some s' = some u' → SameFolder u u' := by
    intro u u' hu hu'
    cases hu
    cases hu'
    exact h
  cases o with
  | folderExists =>
      cases r with
      | ok b => exact sameFolder_if h hp hp'
      | error x => exact hid hp hp'
  | folderIsDir =>
      cases r with
      | ok b => exact sameFolder_if h hp hp'
      | error x => exact hid hp hp'
  | mkdir =>
      cases r with
      | ok b =>
          have hmade : SameFolder { s with node := .dir } { s' with node := .dir } :=
            ⟨rfl, h.files, h.lock, h.sent⟩
          exact sameFolder_if hmade hp hp'
      | error x =>
          rcases x with ⟨x, hx⟩
          cases x with
          | fileExists =>
              simp only [perform] at hp hp'
              split at hp
              · cases hp
              · split at hp'
                · cases hp'
                · exact hid hp hp'
          | _ => exact hid hp hp'
  | flock =>
      cases r with
      | ok b =>
          have hlocked : SameFolder { s with lock := some a } { s' with lock := some a } :=
            ⟨h.node, h.files, rfl, h.sent⟩
          exact sameFolder_if hlocked hp hp'
      | error x => exact hid hp hp'
  | closeLock =>
      cases hp
      cases hp'
      exact sameFolder_unlock h a
  | replace file data =>
      cases r with
      | ok b =>
          cases hp
          cases hp'
          exact sameFolder_write h file _
      | error x => exact hid hp hp'
  | read file maximum =>
      cases r with
      | ok b =>
          simp only [perform] at hp hp'
          split at hp
          · split at hp'
            · exact sameFolder_if h hp hp'
            · cases hp'
          · cases hp
      | error x => exact hid hp hp'
  | fileExists file =>
      cases r with
      | ok b => exact sameFolder_if h hp hp'
      | error x => exact hid hp hp'
  | startSend args =>
      cases r with
      | ok b => exact sameFolder_if h hp hp'
      | error x => exact hid hp hp'
  | joinSend thread =>
      cases r with
      | ok b => exact sameFolder_if h hp hp'
      | error x => exact hid hp hp'
  | _ => exact hid hp hp'

theorem keeps_system (operationId : Str) : Keeps (system L operationId) (Spared L) SameFolder
    (Beside SameSent) where
  code := lockstep_code
  perform := by
    intro a n o r r' s s' t t' hT hr hp hp'
    by_cases ho : Offline o = true
    · have heq := spared_offline ho hr
      subst heq
      exact ⟨sameFolder_perform hT hp hp', rfl⟩
    · cases o with
      | http req =>
          cases hp
          cases hp'
          exact ⟨hT, rfl⟩
      | _ => exact absurd rfl ho
  finish := by
    intro a r r' s s' hT hr
    refine ⟨hT.node, hT.files, hT.lock, ?_⟩
    intro m v
    change isSent (Function.update s'.results a (some r') m) v =
      isSent (Function.update s.results a (some r) m) v
    by_cases hm : m = a
    · rw [hm, Function.update_self, Function.update_self]
      cases r with
      | ok x =>
          cases r' with
          | ok x' => exact hr v
          | error y' => exact hr.elim
      | error y =>
          cases r' with
          | ok x' => exact hr.elim
          | error y' => rfl
    · rw [Function.update_of_ne hm, Function.update_of_ne hm]
      exact hT.sent m v
  crash := fun hT => sameFolder_unlock hT _
  disturb := by
    intro d s s' t t' hT ht ht'
    simp only [system] at ht ht'
    by_cases hd : d.file ∈ nativeFiles
    · rw [if_pos hd] at ht ht'
      cases ht
      cases ht'
      exact sameFolder_write hT _ _
    · rw [if_neg hd] at ht
      cases ht

/-! ### Two runs -/

/-- In two runs with the same moves, whose answers differ in a nonce only where the journal
    does not keep the response, the journals are the same. -/
theorem journal_spared {operationId : Str} {s : Folder} {w w' : Point}
    (h : (system L operationId).Twins (Spared L) s w w') :
    w'.shared.files .journal = w.shared.files .journal := by
  have hT : SameFolder s s := ⟨rfl, rfl, rfl, fun _ _ => rfl⟩
  rw [(twins_twin (keeps_system operationId) hT h).shared.files]

/-! ### Samples -/

/-- A response with another nonce differs in the nonce. -/
theorem toJson_apart (r : ExecutionResponse) (n n' : Option Str) :
    NonceApart { r with confirmNonce := n }.toJson { r with confirmNonce := n' }.toJson := by
  have hset : ({ r with confirmNonce := n' } : ExecutionResponse).toJson =
      Json.set { r with confirmNonce := n }.toJson nonceKey (optionText n') := rfl
  have hvalid : ∀ m : Option Str,
      nonceValid ({ r with confirmNonce := m } : ExecutionResponse).toJson = true := by
    intro m
    cases m with
    | none => rfl
    | some s => rfl
  refine ⟨rfl, rfl, ?_, ?_, (hvalid n').trans (hvalid n).symm⟩
  · intro k hk
    rw [hset, Json.get_set_other hk]
  · intro k hk
    rw [hset, Json.has_set_other hk]

/-- A response to a request to execute, and everything else as in the sample. -/
def nonceOutside (answer : ExecutionResponse) : Outlook
  | .folderExists => .ok false
  | .http req => match req.route with
    | .execute => .ok (answerJson answer.toJson)
    | _ => .error ⟨.os, os_not_recovery⟩
  | o => sampleOutside (lit "receipt") [] .null o

/-- The sample is executed up to the second journal. -/
def nonceMoves (answer : ExecutionResponse) : List (Act Op Op.Answer Fault Command NativeWrite) :=
  .begin (.execute sampleClient (sampleArgs (lit "receipt"))) ::
    List.replicate 16 (.answer 0 (nonceOutside answer))

def nonceRun (answer : ExecutionResponse) : Option Point :=
  (system sampleLibs (lit "op_1")).run (World.initial Folder.fresh) (nonceMoves answer)

/-- The journal at the end of the run. -/
def nonceJournal (answer : ExecutionResponse) : Option Bytes :=
  (nonceRun answer).bind fun w => w.shared.files .journal

theorem nonceMoves_beside {Rel : (o : Op) → Except Fault o.Answer → Except Fault o.Answer → Prop}
    {answer answer' : ExecutionResponse}
    (hall : ∀ o, Rel o (nonceOutside answer o) (nonceOutside answer' o)) :
    List.Forall₂ (Act.Beside Rel) (nonceMoves answer) (nonceMoves answer') := by
  refine List.Forall₂.cons rfl ?_
  generalize 16 = n
  induction n with
  | zero => exact List.Forall₂.nil
  | succ n ih => exact List.Forall₂.cons ⟨rfl, hall⟩ ih

theorem nonceOnly_refl (o : Op) (r : Except Fault o.Answer) : NonceOnly o r r := by
  cases o with
  | http req =>
      cases r with
      | ok resp => exact Or.inl rfl
      | error x => exact rfl
  | _ => exact rfl

theorem spared_refl (o : Op) (r : Except Fault o.Answer) : Spared sampleLibs o r r := by
  cases o with
  | http req =>
      cases r with
      | ok resp => exact Or.inl rfl
      | error x => exact rfl
  | _ => exact rfl

/-- The answer to the sample that is not final, with this nonce. -/
def sampleNonce (status : ExecutionStatus) (nonce : String) : ExecutionResponse :=
  { sampleWaiting with status, confirmNonce := some (lit nonce) }

set_option maxRecDepth 20000 in
theorem sampleNonce_loads : ∀ status ∈ [ExecutionStatus.confirmationRequired, .waitingForReview],
    ∀ nonce ∈ ["a", "b"], loadsBytes (answerJson (sampleNonce status nonce).toJson).content =
      some (sampleNonce status nonce).toJson := by
  decide +kernel

theorem sampleNonce_apart {status : ExecutionStatus}
    (hs : status ∈ [ExecutionStatus.confirmationRequired, .waitingForReview]) :
    AnswerApart (answerJson (sampleNonce status "a").toJson)
      (answerJson (sampleNonce status "b").toJson) :=
  ⟨rfl, rfl, _, _, sampleNonce_loads status hs "a" (by decide),
    sampleNonce_loads status hs "b" (by decide), toJson_apart (sampleNonce status "a") _ _⟩

set_option maxRecDepth 20000 in
theorem sampleNonce_runs : ∀ status ∈ [ExecutionStatus.confirmationRequired, .waitingForReview],
    ∀ nonce ∈ ["a", "b"], (nonceJournal (sampleNonce status nonce)).isSome = true := by
  decide +kernel

set_option maxRecDepth 20000 in
theorem sampleNonce_differs : nonceJournal (sampleNonce .confirmationRequired "b") ≠
    nonceJournal (sampleNonce .confirmationRequired "a") := by
  decide +kernel

/-- Two runs of the sample side by side. -/
theorem sampleNonce_twins {status : ExecutionStatus}
    {Rel : (o : Op) → Except Fault o.Answer → Except Fault o.Answer → Prop}
    (hs : status ∈ [ExecutionStatus.confirmationRequired, .waitingForReview])
    (hrefl : ∀ o r, Rel o r r)
    (hrel : ∀ req : ApiRequest, req.route = .execute →
      Rel (.http req) (.ok (answerJson (sampleNonce status "a").toJson))
        (.ok (answerJson (sampleNonce status "b").toJson))) :
    ∃ w w', (system sampleLibs (lit "op_1")).Twins Rel Folder.fresh w w' ∧
      w.shared.files .journal = nonceJournal (sampleNonce status "a") ∧
      w'.shared.files .journal = nonceJournal (sampleNonce status "b") := by
  have hrun : ∀ nonce ∈ ["a", "b"], ∃ w, nonceRun (sampleNonce status nonce) = some w ∧
      w.shared.files .journal = nonceJournal (sampleNonce status nonce) := by
    intro nonce hn
    rcases Option.isSome_iff_exists.mp (sampleNonce_runs status hs nonce hn) with ⟨data, hdata⟩
    rcases Option.bind_eq_some_iff.mp hdata with ⟨w, hw, hfile⟩
    exact ⟨w, hw, hfile.trans hdata.symm⟩
  rcases hrun "a" (by decide) with ⟨w, hw, hfile⟩
  rcases hrun "b" (by decide) with ⟨w', hw', hfile'⟩
  refine ⟨w, w', twins_run System.Twins.start (nonceMoves_beside ?_) hw hw', hfile, hfile'⟩
  intro o
  cases o with
  | http req =>
      cases hroute : req.route with
      | execute =>
          simp only [nonceOutside, hroute]
          exact hrel req hroute
      | _ =>
          simp only [nonceOutside, hroute]
          exact hrefl _ _
  | _ => exact hrefl _ _

/-- A nonce gets into the journal, if the operation must be confirmed. -/
theorem nonce_kept : ∃ w w', (system sampleLibs (lit "op_1")).Twins NonceOnly Folder.fresh w w' ∧
    w'.shared.files .journal ≠ w.shared.files .journal := by
  have hs : ExecutionStatus.confirmationRequired ∈
      [ExecutionStatus.confirmationRequired, .waitingForReview] := by decide
  rcases sampleNonce_twins hs nonceOnly_refl fun req _ => Or.inr (sampleNonce_apart hs) with
    ⟨w, w', h, hfile, hfile'⟩
  refine ⟨w, w', h, ?_⟩
  rw [hfile, hfile']
  exact sampleNonce_differs

theorem journal_spared_sample : ∃ w w' : Point,
    (system sampleLibs (lit "op_1")).Twins (Spared sampleLibs) Folder.fresh w w' ∧
      w'.shared.files .journal = w.shared.files .journal := by
  have hs : ExecutionStatus.waitingForReview ∈
      [ExecutionStatus.confirmationRequired, .waitingForReview] := by decide
  have hspared : ∀ req : ApiRequest, req.route = .execute → ¬ KeptAnswer sampleLibs req
      (answerJson (sampleNonce .waitingForReview "a").toJson) := by
    intro req hroute ⟨_, data, r, hload, hr, hkept⟩
    rw [sampleNonce_loads _ hs "a" (by decide), Option.some.injEq] at hload
    have hwaits : (parseExecutionResponse sampleLibs
        (sampleNonce .waitingForReview "a").toJson).toOption.map ExecutionResponse.status =
          some .waitingForReview := by
      decide +kernel
    rw [hload, hr] at hwaits
    rw [hroute] at hkept
    unfold KeptAs at hkept
    cases hjson : req.json with
    | none =>
        rw [hjson] at hkept
        exact hkept
    | some body =>
        rw [hjson] at hkept
        exact hkept.2 (Option.some.inj hwaits)
  rcases sampleNonce_twins hs spared_refl fun req hroute =>
    Or.inr ⟨sampleNonce_apart hs, hspared req hroute⟩ with ⟨w, w', h, _, _⟩
  exact ⟨w, w', h, journal_spared h⟩

end Allowly

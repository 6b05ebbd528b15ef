import Allowly.Theory.Once

/-!
# What Is Sent Was Approved

Whatever a call claims, sends or hands to the native process was approved in that call.
`ApprovedBy` collects what is meant: an answer of the runtime to this call, about the
same operation, authorization, executable and action, which allows an execution that has
not started; an approval in it with the right digest, which was valid at a time the clock
gave; and a request in the approval that equals the descriptor `request` computes from
the arguments of the call.

What the provider is sent is made of the same arguments. The host is the one of the
descriptor's origin, and the header values and the body are those whose digests are in
the descriptor.

## Main definitions

* `CommitsTo`: The approval is one for this descriptor.
* `ApprovedBy`: The runtime approved the request of the call.
* `Approved`: What is claimed, sent or handed over was approved.

## Theorems

* `approvedBy_of_backed`: What a call remembers makes an approval.
* `sent_approved`: It holds in every run.
-/

namespace Allowly

open Py Interleave

variable {L : Libs} {operationId : Str} {root : Nat} {h : List Happening}

/-- The approval is one for this descriptor, without an idempotency key of the provider. -/
def CommitsTo (approval : Json) (d : Descriptor) : Prop :=
  ∃ ms, dictOf (getOr approval "request" (.obj [])) = .ok (some ms) ∧
    pyEq (.obj (ms.filter fun m => m.1 != lit "provider_idempotency")) d.toJson = true ∧
    pyEq ((Json.lookup (lit "provider_idempotency") ms).getD .null)
      (.ofList [("kind", .str (lit "none"))]) = true

/-- The runtime approved the request of the call with these arguments. The descriptor and
    the private headers are those of the arguments. -/
structure ApprovedBy (L : Libs) (operationId : Str) (root : Nat) (past : List Happening)
    (args : Args) (d : Descriptor) (headers : List (Str × Str)) (r : ExecutionResponse) : Prop where
  call : ∃ c, .began root root c ∈ past ∧ c.args = some args
  normalized : request L args.url args.method (args.headers.getD []) args.body = .ok (d, headers)
  answer : ∃ a req resp sensitive raw, .did a root (.http req) (.ok resp) ∈ past ∧
    (req.route = .execute ∨ req.route = .continuation operationId) ∧
    readResponse L sensitive [200, 201] resp = .ok raw ∧ parseExecutionResponse L raw = .ok r
  operation : args.operationId = operationId ∧ r.operationId = operationId
  authorization : r.requestDescriptor.authorizationId = args.authorizationId
  executable : r.destinationId = args.enabledExecutableId
  action : r.action = args.action
  state : r.decision = .allow ∧ r.status = .approved ∧ r.decisionState = some (lit "allowed") ∧
    r.targetState = some (lit "not_started") ∧ r.evidenceState = some (lit "pending") ∧
    r.downstream = none
  digest : ∃ digest, sealSha L r.approval = .ok digest ∧ r.approvalSha256 = some digest
  live : ∃ a now w, .did a root .now (.ok now) ∈ past ∧
    approvalWindow L r.approval = .ok (some w) ∧ inWindow now w = true
  identity : r.approval.get "operation_id" = .str operationId ∧
    r.approval.get "authorization_id" = .str args.authorizationId ∧
    r.approval.get "action" = .str args.action
  commits : CommitsTo r.approval d
  mode : args.evidenceMode = lit "witnessed" → r.effectiveEvidenceMode = some (lit "witnessed")

/-- The request to the provider is the approved one. -/
structure Delivers (args : Args) (d : Descriptor) (headers : List (Str × Str))
    (p : ProviderRequest) : Prop where
  method : p.method = d.method
  host : d.origin = lit "https://" ++ p.host
  target : p.target = Allowly.target d
  headers : p.headers = headers ++ [(lit "Accept-Encoding", lit "identity"),
    (lit "Connection", lit "close")]
  body : encode args.body = some p.body

/-- What is claimed, sent or handed to the native process was approved. The provider is
    not sent a request whose caller asked for a witness. -/
def Approved (L : Libs) (operationId : Str) (e : Happening) (past : List Happening) : Prop :=
  (claims e = true ∨ sends e = true →
    ∃ a root o r, e = .did a root o r ∧
      ∃ args d headers resp, ApprovedBy L operationId root past args d headers resp) ∧
  (∀ a root p r, e = .did a root (.transmit p) r →
    ∃ args d headers resp, ApprovedBy L operationId root past args d headers resp ∧
      Delivers args d headers p ∧ args.evidenceMode ≠ lit "witnessed") ∧
  (∀ a root data r, e = .did a root (.communicate data) r →
    ∃ args d headers resp admission, ApprovedBy L operationId root past args d headers resp ∧
      Writes data (witnessInput resp resp.approval admission headers args.body))

/-! ### The request -/

/-- A destination is a host name. -/
theorem destination_ok {parsed : SplitResult} {host : Str}
    (hd : destination L parsed = .ok host) : host.all isDnsChar = true := by
  unfold destination at hd
  rcases of_ite_error hd with ⟨_, hd⟩
  split at hd
  · cases hd
  · rcases of_ite_error hd with ⟨hbad, hd⟩
    rcases of_ite_error hd with ⟨_, hd⟩
    cases hd
    by_contra hhost
    exact hbad (Or.inr (Or.inr (Or.inr (Or.inl hhost))))

/-- The origin of a descriptor is the one of a host name. -/
theorem request_origin {url method : Str} {headers headers' : List (Str × Str)} {body : Str}
    {d : Descriptor} (hr : request L url method headers body = .ok (d, headers')) :
    ∃ host, host.all isDnsChar = true ∧ d.origin = lit "https://" ++ host := by
  unfold request at hr
  rcases of_ite_error hr with ⟨_, hr⟩
  split at hr
  · cases hr
  · rcases bind_eq_ok.mp hr with ⟨host, hhost, hk⟩
    refine ⟨host, destination_ok hhost, ?_⟩
    rcases of_ite_error hk with ⟨_, hk⟩
    rcases of_ite_error hk with ⟨_, hk⟩
    rcases bind_eq_ok.mp hk with ⟨_, _, hk⟩
    rcases bind_eq_ok.mp hk with ⟨normalized, _, hk⟩
    rcases of_ite_error hk with ⟨_, hk⟩
    split at hk
    · cases hk
    · rcases of_ite_error hk with ⟨_, hk⟩
      cases hk
      rfl

/-- What a job is built from. -/
theorem built_request {j : Job} (hb : j.Built L) :
    request L j.args.url j.args.method (j.args.headers.getD []) j.args.body =
      .ok (j.requested.httpRequest, j.privateHeaders) ∧
    j.requested.operationId = j.args.operationId ∧
    j.requested.authorizationId = j.args.authorizationId ∧
    j.requested.enabledExecutableId = j.args.enabledExecutableId ∧
    j.requested.action = j.args.action ∧ j.requested.evidenceMode = j.args.evidenceMode := by
  rcases hb with ⟨base, timestamp, hbase, hreq⟩
  unfold httpExecutionRequest at hbase
  rcases of_ite_error hbase with ⟨_, hbase⟩
  rcases bind_eq_ok.mp hbase with ⟨⟨d, headers⟩, hd, hk⟩
  cases hk
  rw [hreq]
  exact ⟨hd, rfl, rfl, rfl, rfl, rfl⟩

/-- What is sent to the provider is made of the descriptor. -/
theorem delivers_of_transmits {e : Evidence} {p : ProviderRequest} (hb : e.job.Built L)
    (hp : Transmits L e.sendArgs p) :
    Delivers e.job.args e.job.requested.httpRequest e.job.privateHeaders p := by
  rcases hp with ⟨parsed, hparsed, hhost, hmethod, htarget, hheaders, hbody⟩
  rcases request_origin (built_request hb).1 with ⟨host, hdns, horigin⟩
  refine ⟨hmethod, ?_, htarget, hheaders, hbody⟩
  have horigin' : e.sendArgs.descriptor.origin = lit "https://" ++ host := horigin
  rw [horigin', urlsplit_origin hdns, Option.some.injEq] at hparsed
  rw [hhost, ← hparsed, hostname_origin L.lowerOther hdns]
  exact horigin

/-! ### The approval -/

theorem commitsTo_of_approvalRequest {approval : Json} {q : Requested}
    (ha : approvalRequest approval q = .ok true) : CommitsTo approval q.httpRequest := by
  unfold approvalRequest at ha
  rcases bind_eq_ok.mp ha with ⟨actual, hactual, hk⟩
  cases actual with
  | none => cases hk
  | some ms =>
      have hk : (_ && _) = true := Except.ok.inj hk
      rw [Bool.and_eq_true] at hk
      exact ⟨ms, hactual, hk.1, hk.2⟩

/-- What a call remembers makes an approval. -/
theorem approvedBy_of_backed {e : Evidence} (hb : Backed L operationId root e h) :
    ApprovedBy L operationId root h e.job.args e.job.requested.httpRequest e.job.privateHeaders
      e.response := by
  rcases hb with ⟨hbegan, hid, ⟨resp, ⟨a, req, hreq, hsends⟩, haccepts⟩, ⟨b, hnow⟩, hvalid⟩
  rcases haccepts with ⟨sensitive, raw, hread, hparse, hanswers⟩
  rcases built_request hvalid.1 with ⟨hnormal, hop, hauth, hexec, haction, hmode⟩
  have happ := hvalid.approves
  simp only [answersRequest, Bool.and_eq_true, decide_eq_true_eq] at hanswers
  have hstate := happ.state
  simp only [approvedState, Bool.and_eq_true, decide_eq_true_eq] at hstate
  have hidentity := happ.identity
  simp only [approvalIdentity, Bool.and_eq_true, decide_eq_true_eq] at hidentity
  rw [happ.own] at hidentity
  refine
    { call := hbegan, normalized := hnormal
      answer := ⟨a, req, resp, sensitive, raw, hreq, ?_, hread, hparse⟩
      operation := ⟨hid, ?_⟩, authorization := ?_, executable := ?_, action := ?_, state := ?_
      digest := ?_, live := ?_, identity := ⟨?_, ?_, ?_⟩, commits := ?_, mode := ?_ }
  · rw [hsends.1, Job.route]
    split
    · exact Or.inl rfl
    · rw [hid]
      exact Or.inr rfl
  · rw [hanswers.1.1.1, hop, hid]
  · rw [hanswers.2, hauth]
  · rw [hanswers.1.1.2, hexec]
  · rw [hanswers.1.2, haction]
  · exact ⟨hstate.1.1.1.1.1, hstate.1.1.1.1.2, hstate.1.1.1.2, hstate.1.1.2, hstate.1.2, hstate.2⟩
  · rw [← happ.own]
    exact happ.digest
  · rcases hvalid.2.2 with ⟨w, hwindow, hin⟩
    rw [happ.own] at hwindow
    exact ⟨b, e.checkedAt, w, hnow, hwindow, hin⟩
  · rw [hidentity.1.1.1, hop, hid]
  · rw [hidentity.1.1.2, hauth]
  · rw [hidentity.1.2, haction]
  · rw [← happ.own]
    exact commitsTo_of_approvalRequest happ.request
  · intro hwitness
    have hm := happ.mode
    unfold evidenceModeValid at hm
    split at hm
    · cases hm
    · next mode heff =>
        rw [heff, Option.some.injEq]
        simp only [Bool.and_eq_true, Bool.not_eq_true', Bool.and_eq_false_iff,
          decide_eq_false_iff_not, not_not] at hm
        rcases hm.2 with hm | hm
        · rw [hmode] at hm
          exact absurd hwitness hm
        · exact hm

/-! ### The result -/

/-- Only a call with evidence speaks to the native process. -/
theorem edge_communicates {q q' : Stage} {data : Bytes} {r : Except Fault Unit}
    (he : Edge L q (.communicate data) r q') :
    ∃ e v admission, q = .bound e v ∧
      Writes data (witnessInput e.response e.approval admission e.job.privateHeaders
        e.job.args.body) := by
  cases he with
  | quiet q o r hq => cases hq
  | failed q o x hq => cases hq
  | trip q o x hi hq =>
      rcases hq with hq | hq | hq
      · cases hq
      · cases hq
      · cases hq
  | tell e v admission data r hm hw => exact ⟨e, v, admission, rfl, hw⟩

/-- Only a thread speaks to the provider. -/
theorem edge_transmits {q q' : Stage} {p : ProviderRequest} {r : Except Fault ProviderResponse}
    (he : Edge L q (.transmit p) r q') : ∃ args, q = .sending args ∧ Transmits L args p := by
  cases he with
  | quiet q o r hq => cases hq
  | failed q o x hq => cases hq
  | trip q o x hi hq =>
      rcases hq with hq | hq | hq
      · cases hq
      · cases hq
      · cases hq
  | transmit args p r hp => exact ⟨args, rfl, hp⟩

theorem approved_other {x : Happening} {past : List Happening} (hc : claims x = false)
    (hs : sends x = false) (hno : ∀ a root o r, x ≠ .did a root o r) :
    Approved L operationId x past := by
  refine ⟨?_, fun a root p r heq => absurd heq (hno _ _ _ _),
    fun a root data r heq => absurd heq (hno _ _ _ _)⟩
  intro hx
  rw [hc, hs] at hx
  rcases hx with hx | hx
  · cases hx
  · cases hx

/-- What a step does was approved. -/
theorem approved_step {q q' : Stage} {o : Op} {r : Except Fault o.Answer} {a : Nat}
    (he : Edge L q o r q') (hmem : Remembers L operationId a root q h) :
    Approved L operationId (.did a root o r) h := by
  refine ⟨?_, ?_, ?_⟩
  · intro hx
    refine ⟨a, root, o, r, rfl, ?_⟩
    rcases hx with hx | hx
    · rcases edge_claims he hx with ⟨e, v, rfl, _⟩
      exact ⟨_, _, _, _, approvedBy_of_backed hmem.1⟩
    · rcases edge_sends he hx with ⟨e, v, resp, data, rfl, _⟩ | ⟨args, p, rfl, _⟩
      · exact ⟨_, _, _, _, approvedBy_of_backed hmem.1⟩
      · rcases hmem with ⟨e, resp, _, _, hb, _⟩
        exact ⟨_, _, _, _, approvedBy_of_backed hb⟩
  · intro a' root' p r' heq
    cases heq
    rcases edge_transmits he with ⟨args, rfl, htransmits⟩
    rcases hmem with ⟨e, resp, rfl, hnot, hb, _⟩
    refine ⟨_, _, _, _, approvedBy_of_backed hb, delivers_of_transmits hb.valid.1 htransmits, ?_⟩
    intro hmode
    exact hnot ((approvedBy_of_backed hb).mode hmode)
  · intro a' root' data r' heq
    cases heq
    rcases edge_communicates he with ⟨e, v, admission, rfl, hw⟩
    have hb : Backed L operationId root e h := hmem
    refine ⟨_, _, _, _, admission, approvedBy_of_backed hb, ?_⟩
    rw [← hb.valid.approves.own]
    exact hw

theorem preserves_approved (L : Libs) (operationId : Str) :
    Preserves (system L operationId) (Edge L) (Ends L) firstStage (Run L operationId)
      (fun _ _ h => Always (Approved L operationId) h) := by
  refine preserves_always ?_ ?_ ?_ ?_ ?_
  · intro n root c h
    exact approved_other rfl rfl fun _ _ _ _ heq => by cases heq
  · intro s roles n h a root q o r s' q' hrun ha he hp
    exact approved_step he (hrun.memory a root q ha)
  · intro s roles h a root q r _ _ _
    exact approved_other rfl rfl fun _ _ _ _ heq => by cases heq
  · intro a h
    exact approved_other rfl rfl fun _ _ _ _ heq => by cases heq
  · intro d h
    exact approved_other rfl rfl fun _ _ _ _ heq => by cases heq

end Allowly

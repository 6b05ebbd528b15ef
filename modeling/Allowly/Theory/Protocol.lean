import Allowly.Core.World
import Allowly.Theory.Response

/-!
# The Protocol of a Call

What the calls do to the folder and to the runtime, step by step, as an automaton.
A stage says where a call is and what it knows; an edge says which operation leads on,
and what must be true of the data it carries. The automaton says nothing about
interleaving. It is what each call promises, whatever it is answered, and
`Theory.Conformance` proves that the programs keep the promise.

The stages follow a dispatch from the request to the report. A call that makes the
folder goes through `made` and `saved`, one that continues a review through `entered`
and `resumed`; both arrive at `holding`, with the lock taken and a journal that is
theirs to write. The data of a stage is what the code computed from what it was
answered: `Job` is the local request, `Evidence` an approval that passed the checks.

Operations that touch nothing shared are quiet and leave the stage alone. Those that
fail leave it alone too, except for requests: a request that was not answered may still
have been received.

## Main definitions

* `Job`: The request of a call, and how it is sent to the runtime.
* `Evidence`: An approved response, and the facts that make it one.
* `Stage`: Where a call is.
* `Quiet`: Operations without an effect of their own.
* `Edge`: The operations that lead from stage to stage.
* `firstStage`, `Ends`: Where the calls begin, and how they end.
-/

namespace Allowly

open Py Interleave

/-- The local request of a call. A continuation has an intent. -/
structure Job where
  args : Args
  requested : Requested
  privateHeaders : List (Str × Str)
  intent : Option Intent

namespace Job

/-- The request was built from the arguments, and given a time. -/
def Built (L : Libs) (j : Job) : Prop :=
  ∃ base timestamp, httpExecutionRequest L j.args = .ok (base, j.privateHeaders) ∧
    j.requested = { base with clientTimestamp := some timestamp }

/-- The phase of the journal once the job is approved. -/
def approvedPhase (j : Job) : String :=
  match j.intent with
  | none => "authorized"
  | some _ => "continuing"

def route (j : Job) : Route :=
  match j.intent with
  | none => .execute
  | some _ => .continuation j.args.operationId

def key (j : Job) : Str :=
  match j.intent with
  | none => j.args.operationId
  | some i => i.idempotencyKey

/-- The body sent to the runtime. -/
def body (j : Job) : Json :=
  match j.intent with
  | none => j.requested.toJson
  | some i => .ofList [("execution_request", j.requested.toJson), ("review_id", .str i.reviewId),
      ("source_receipt_id", .str i.sourceReceiptId)]

/-- The request by which the job is sent to the runtime. -/
def Sends (j : Job) (req : ApiRequest) : Prop :=
  req.route = j.route ∧ req.json = some j.body ∧
    ∃ token, req.headers = token ++ keyHeaders (some j.key)

/-- The answer is a response to the job. -/
def Accepts (L : Libs) (j : Job) (resp : ApiResponse) (r : ExecutionResponse) : Prop :=
  ∃ sensitive raw, readResponse L sensitive [200, 201] resp = .ok raw ∧
    parseExecutionResponse L raw = .ok r ∧ answersRequest j.requested r = true

end Job

/-- An approval that passed the checks, for a job, at a time. -/
structure Evidence where
  job : Job
  response : ExecutionResponse
  approval : Json
  checkedAt : Int

namespace Evidence

/-- The approval was valid when it was checked. -/
def Live (L : Libs) (e : Evidence) : Prop :=
  ∃ w, approvalWindow L e.approval = .ok (some w) ∧ inWindow e.checkedAt w = true

def Valid (L : Libs) (e : Evidence) : Prop :=
  e.job.Built L ∧ checkApproval L e.response e.job.requested = .ok e.approval ∧ e.Live L

/-- What is saved as `approval.json`. -/
def binding (e : Evidence) : Json := .ofList (bindingMembers e.response e.approval)

/-- What releases the native process. -/
def releaseBody (e : Evidence) : Json :=
  .ofList [("approval_sha256", optionText e.response.approvalSha256)]

/-- What the thread is given to send. -/
def sendArgs (e : Evidence) : SendArgs :=
  { descriptor := e.job.requested.httpRequest, headers := e.job.privateHeaders
    body := e.job.args.body, approval := e.approval }

def Witnessed (e : Evidence) : Prop := e.response.effectiveEvidenceMode = some (lit "witnessed")

/-- The request by which the dispatch is claimed. -/
def Claims (e : Evidence) (req : ApiRequest) : Prop :=
  req.route = .dispatch e.job.args.operationId ∧
    req.json = some (approvalBody e.response.approvalSha256)

/-- The answer grants the claim for this approval. -/
def Granted (L : Libs) (e : Evidence) (resp : ApiResponse) : Prop :=
  ∃ sensitive raw, readResponse L sensitive [200] resp = .ok raw ∧
    raw.get "operation_id" = .str e.job.args.operationId ∧
    raw.get "approval_sha256" = optionText e.response.approvalSha256 ∧
    raw.get "dispatch_state" = .str (lit "claimed") ∧
    pyEq (raw.get "approval") e.approval = true ∧
    raw.get "effective_evidence_mode" = optionText e.response.effectiveEvidenceMode

end Evidence

/-- The bytes are those of the value. -/
def Writes (data : Bytes) (v : Json) : Prop := jsonBytes v = .ok data

/-- The bytes read back as the value, within the reader's limit. -/
def Reads (data : Bytes) (v : Json) : Prop :=
  data.length ≤ readLimit ∧ loadsBytes data = some v

/-- The journal `v` can be continued by the job, and becomes `w`. -/
def Resumes (L : Libs) (j : Job) (v w : Json) : Prop :=
  ∃ timestamp digest intent u, continuedTimestamp v j.args.operationId = .ok (some timestamp) ∧
    j.requested.clientTimestamp = some timestamp ∧ sealSha L j.requested.toJson = .ok digest ∧
    v.get "request_sha256" = .str digest ∧ withIntent L j.args.operationId v = .ok u ∧
    savedIntent u = .ok intent ∧ j.intent = some intent ∧
    w = u.set "phase" (.str (lit "continuing"))

/-- The outcome a journal holds can be reported by this request. -/
def Reports (v : Json) (req : ApiRequest) : Prop :=
  ∃ operationId key token, v.get "operation_id" = .str operationId ∧
    keyOf ((v.get "outcome").get "idempotency_key") = .ok key ∧
    req.route = .outcome operationId ∧ req.json = some ((v.get "outcome").get "body") ∧
    req.headers = token ++ keyHeaders key

/-- The journal at the end of an execution, from the one before the claim. What was
    held in memory may be the journal of a claim that could not be saved. -/
def Settles (L : Libs) (e : Evidence) (v w : Json) : Prop :=
  ∃ artifacts completed, Artifacts.Sound artifacts ∧
    w = settledState v e.job.args.operationId e.response artifacts (L.isoformat completed)

/-- Where a call is. -/
inductive Stage where
  /-- Nothing has been done. -/
  | start (c : Command)
  /-- The folder was made by this call, and is empty. -/
  | made (j : Job)
  /-- The first journal was saved, and the lock is not taken yet. -/
  | saved (j : Job) (v : Json)
  /-- An operation failed before anything was done. -/
  | tripped
  /-- The lock was taken to continue. -/
  | entered (c : Client) (a : Args)
  /-- The journal was read and cannot be continued. -/
  | glanced (a : Args) (data : Bytes)
  /-- The journal was read, and is to be replaced by the second value. -/
  | resumed (j : Job) (v w : Json)
  /-- The journal is ready for the request to the runtime. -/
  | holding (j : Job) (v : Json)
  /-- The runtime has answered. -/
  | heard (j : Job) (v : Json) (resp : ApiResponse)
  /-- The answer is in the journal. -/
  | recorded (j : Job) (v : Json) (r : ExecutionResponse)
  /-- The approval was checked against the clock. -/
  | timed (j : Job) (v : Json) (r : ExecutionResponse) (now : Int)
  /-- The approval was saved. -/
  | bound (e : Evidence) (v : Json)
  /-- The claim is in the journal. -/
  | attempted (e : Evidence) (v : Json)
  /-- The runtime has answered the claim. -/
  | asked (e : Evidence) (v : Json) (resp : ApiResponse)
  /-- Nothing more will be sent to the provider. -/
  | spent (e : Evidence) (v : Json)
  /-- The outcome is in the journal. -/
  | settled (v : Json)
  /-- An outcome was read from the journal, by a call that does nothing else or at the end
      of an execution. -/
  | reporting (alone : Bool) (v : Json)
  /-- The journal was read and holds no outcome to report. -/
  | rejected (data : Bytes)
  /-- The runtime has answered the report. -/
  | reported (alone : Bool) (v : Json) (resp : ApiResponse)
  /-- The report is over. -/
  | flushed (alone : Bool)
  /-- A thread that will send. -/
  | sending (s : SendArgs)
  /-- Nothing more will be saved or sent. -/
  | ended

/-- Stages in which nothing is held and nothing was done. -/
inductive Idle : Stage → Prop where
  | start (c : Command) : Idle (.start c)
  | tripped : Idle .tripped
  | glanced (a : Args) (data : Bytes) : Idle (.glanced a data)

/-- Stages from which the lock can be given back at the end of an execution. -/
def Stage.busy : Stage → Bool
  | start _ => false
  | tripped => false
  | entered .. => false
  | glanced .. => false
  | reporting alone _ => !alone
  | rejected _ => false
  | reported alone .. => !alone
  | flushed alone => !alone
  | sending _ => false
  | _ => true

/-- Operations that touch nothing the calls share. -/
def Quiet : Op → Bool
  | .mkdir => false
  | .flock => false
  | .closeLock => false
  | .replace file _ => file == .response
  | .http _ => false
  | .startSend _ => false
  | .transmit _ => false
  | .communicate _ => false
  | _ => true

/-- Operations that have no effect when they fail. -/
def Failing : Op → Bool
  | .mkdir => true
  | .flock => true
  | .replace .. => true
  | _ => false

/-- The last journal of a stage from which an outcome can be saved: the one on disk,
    or the one of a claim that could not be saved. -/
inductive Leads (L : Libs) : Stage → Evidence → Json → Prop where
  | bound (e : Evidence) (v : Json) (started : Int) :
      Leads L (.bound e v) e
        (claimState v e.job.args.operationId e.response (L.isoformat started))
  | attempted (e : Evidence) (v : Json) : Leads L (.attempted e v) e v
  | asked (e : Evidence) (v : Json) (resp : ApiResponse) : Leads L (.asked e v resp) e v
  | spent (e : Evidence) (v : Json) : Leads L (.spent e v) e v

/-- What a provider request is made of. -/
def Transmits (L : Libs) (s : SendArgs) (p : ProviderRequest) : Prop :=
  ∃ parsed, urlsplit s.descriptor.origin = some parsed ∧ p.host = parsed.hostname L.lowerOther ∧
    p.method = s.descriptor.method ∧ p.target = target s.descriptor ∧
    p.headers = s.headers ++ [(lit "Accept-Encoding", lit "identity"),
      (lit "Connection", lit "close")] ∧ encode s.body = some p.body

/-- What each call promises. -/
inductive Edge (L : Libs) : Stage → (o : Op) → Except Fault o.Answer → Stage → Prop where
  | quiet (q : Stage) (o : Op) (r : Except Fault o.Answer) (h : Quiet o = true) : Edge L q o r q
  | failed (q : Stage) (o : Op) (x : Fault) (h : Failing o = true) : Edge L q o (.error x) q
  | trip (q : Stage) (o : Op) (x : Fault) (hi : Idle q)
      (h : Quiet o = true ∨ Failing o = true ∨ o = .closeLock) : Edge L q o (.error x) .tripped
  | tripEntered (c : Client) (a : Args) (x : Fault) :
      Edge L (.entered c a) (.read .journal readLimit) (.error x) .tripped
  | make (c : Client) (j : Job) (hb : j.Built L) (hi : j.intent = none) :
      Edge L (.start (.execute c j.args)) .mkdir (.ok ()) (.made j)
  | prepare (j : Job) (data : Bytes) (digest timestamp : Str)
      (hd : sealSha L j.requested.toJson = .ok digest)
      (ht : j.requested.clientTimestamp = some timestamp)
      (hw : Writes data (preparedState j.args.operationId digest timestamp)) :
      Edge L (.made j) (.replace .journal data) (.ok ())
        (.saved j (preparedState j.args.operationId digest timestamp))
  | lockPrepared (j : Job) (v : Json) : Edge L (.saved j v) .flock (.ok ()) (.holding j v)
  | lockContinued (c : Client) (a : Args) :
      Edge L (.start (.continuation c a)) .flock (.ok ()) (.entered c a)
  | resume (c : Client) (j : Job) (data : Bytes) (v w : Json) (hb : j.Built L)
      (hr : Reads data v) (hv : Resumes L j v w) :
      Edge L (.entered c j.args) (.read .journal readLimit) (.ok data) (.resumed j v w)
  | glance (c : Client) (a : Args) (data : Bytes) :
      Edge L (.entered c a) (.read .journal readLimit) (.ok data) (.glanced a data)
  | rewrite (j : Job) (v w : Json) (data : Bytes) (hw : Writes data w) :
      Edge L (.resumed j v w) (.replace .journal data) (.ok ()) (.holding j w)
  | request (j : Job) (v : Json) (req : ApiRequest) (resp : ApiResponse) (hs : j.Sends req) :
      Edge L (.holding j v) (.http req) (.ok resp) (.heard j v resp)
  | unanswered (j : Job) (v : Json) (req : ApiRequest) (x : Fault) (hs : j.Sends req) :
      Edge L (.holding j v) (.http req) (.error x) .ended
  | record (j : Job) (v : Json) (resp : ApiResponse) (r : ExecutionResponse) (data : Bytes)
      (ha : j.Accepts L resp r) (hw : Writes data (answeredState v j.approvedPhase r)) :
      Edge L (.heard j v resp) (.replace .journal data) (.ok ())
        (.recorded j (answeredState v j.approvedPhase r) r)
  | time (j : Job) (v : Json) (r : ExecutionResponse) (now : Int) :
      Edge L (.recorded j v r) .now (.ok now) (.timed j v r now)
  | bind (e : Evidence) (v : Json) (data : Bytes) (hv : e.Valid L) (hw : Writes data e.binding) :
      Edge L (.timed e.job v e.response e.checkedAt) (.replace .approval data) (.ok ())
        (.bound e v)
  | admission (e : Evidence) (v : Json) (req : ApiRequest) (r : Except Fault ApiResponse)
      (hr : req.route = .witnessSessionToken e.job.args.operationId) :
      Edge L (.bound e v) (.http req) r (.bound e v)
  | tell (e : Evidence) (v admission : Json) (data : Bytes) (r : Except Fault Unit)
      (hm : e.Witnessed)
      (hw : Writes data (witnessInput e.response e.approval admission e.job.privateHeaders
        e.job.args.body)) :
      Edge L (.bound e v) (.communicate data) r (.bound e v)
  | attempt (e : Evidence) (v : Json) (started : Int) (data : Bytes)
      (hw : Writes data
        (claimState v e.job.args.operationId e.response (L.isoformat started))) :
      Edge L (.bound e v) (.replace .journal data) (.ok ())
        (.attempted e (claimState v e.job.args.operationId e.response (L.isoformat started)))
  | ask (e : Evidence) (v : Json) (req : ApiRequest) (resp : ApiResponse) (hc : e.Claims req) :
      Edge L (.attempted e v) (.http req) (.ok resp) (.asked e v resp)
  | refused (e : Evidence) (v : Json) (req : ApiRequest) (x : Fault) (hc : e.Claims req) :
      Edge L (.attempted e v) (.http req) (.error x) (.spent e v)
  | launch (e : Evidence) (v : Json) (resp : ApiResponse) (r : Except Fault Nat)
      (hg : e.Granted L resp) (hm : ¬ e.Witnessed) :
      Edge L (.asked e v resp) (.startSend e.sendArgs) r (.spent e v)
  | release (e : Evidence) (v : Json) (resp : ApiResponse) (data : Bytes)
      (hg : e.Granted L resp) (hm : e.Witnessed) (hw : Writes data e.releaseBody) :
      Edge L (.asked e v resp) (.replace .release data) (.ok ()) (.spent e v)
  | settle (q : Stage) (e : Evidence) (v w : Json) (data : Bytes) (hl : Leads L q e v)
      (hs : Settles L e v w) (hw : Writes data w) :
      Edge L q (.replace .journal data) (.ok ()) (.settled w)
  | readFlush (c : Client) (t : Option Str) (data : Bytes) (v : Json) (hr : Reads data v)
      (ho : hasOutcome v = .ok true) :
      Edge L (.start (.flush c t)) (.read .journal readLimit) (.ok data) (.reporting true v)
  | reject (c : Client) (t : Option Str) (data : Bytes) :
      Edge L (.start (.flush c t)) (.read .journal readLimit) (.ok data) (.rejected data)
  | readSettled (u : Json) (data : Bytes) (v : Json) (hr : Reads data v)
      (ho : hasOutcome v = .ok true) :
      Edge L (.settled u) (.read .journal readLimit) (.ok data) (.reporting false v)
  | report (b : Bool) (v : Json) (req : ApiRequest) (resp : ApiResponse) (hr : Reports v req) :
      Edge L (.reporting b v) (.http req) (.ok resp) (.reported b v resp)
  | unreported (b : Bool) (v : Json) (req : ApiRequest) (x : Fault) (hr : Reports v req) :
      Edge L (.reporting b v) (.http req) (.error x) (.flushed b)
  | complete (b : Bool) (v : Json) (resp : ApiResponse) (final : ExecutionResponse) (data : Bytes)
      (hp : ∃ sensitive raw, readResponse L sensitive [200, 201] resp = .ok raw ∧
        parseExecutionResponse L raw = .ok final)
      (hw : Writes data (completeState v final)) :
      Edge L (.reported b v resp) (.replace .journal data) (.ok ()) (.flushed b)
  | unlock (q : Stage) (r : Except Fault Unit) (hb : q.busy = true) : Edge L q .closeLock r .ended
  | unlockIdle (q : Stage) (hi : Idle q) : Edge L q .closeLock (.ok ()) q
  | transmit (s : SendArgs) (p : ProviderRequest) (r : Except Fault ProviderResponse)
      (hp : Transmits L s p) : Edge L (.sending s) (.transmit p) r .ended

/-- Where a command begins. -/
def firstStage : Command → Stage
  | .send s => .sending s
  | c => .start c

/-- The arguments are refused before anything is done. -/
def Refused (L : Libs) (a : Args) : Prop :=
  (∃ x, httpExecutionRequest L a = .error x) ∨ encode a.operationId = none

def failed {A : Type} : Except Exc A → Prop
  | .ok _ => False
  | .error _ => True

/-- How a call can end, by where it got to. -/
def Ends (L : Libs) (q : Stage) (r : Except Exc Value) : Prop :=
  match q with
  | .start (.execute _ a) => failed r ∧ (Recovers r ∨ Refused L a)
  | .start (.continuation _ a) => failed r ∧ (Recovers r ∨ Refused L a)
  | .start _ => False
  | .tripped => failed r ∧ Plain r
  | .entered .. => False
  | .glanced a data => failed r ∧
      ∀ v, Reads data v → continuedTimestamp v a.operationId = .ok none → Recovers r
  | .rejected data => failed r ∧ (Recovers r → ∃ v, Reads data v ∧ hasOutcome v = .ok false)
  | .reporting .. => Plain r
  | .reported .. => Plain r
  | .flushed _ => Plain r
  | _ => True

end Allowly

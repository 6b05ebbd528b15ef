import Allowly.Theory.Continuation
import Allowly.Theory.Descriptor
import Allowly.Theory.Scenario

/-!
# What a Continuation Is Bound To

With digests that tell values apart, equal digests are equal requests. The descriptor in a
request has digests of its own, of the header values and of the body, so the private
headers and the body are the original ones as well.

The key of a continuation is a digest of the operation and of the review. One review has
one key, and two reviews have two.

## Main definitions

* `SealInjective`, `ShaInjective`: What is assumed of the digests.
* `SameRequest`: The request of a call is the original one.
* `Continued`: What holds of the calls that continue.

## Theorems

* `headers_eq`: Equal digests of headers are equal headers.
* `continued`: It holds in every run.
-/

namespace Allowly

open Py Interleave

variable {L : Libs} {operationId : Str} {root : Nat} {h : List Happening}

/-! ### Digests -/

/-- The requests that are compared: those of the calls, at the time of the original one. -/
def Compared (L : Libs) (h : List Happening) (v : Json) : Prop :=
  ∃ t args₀ base₀ headers₀ root args base headers, Original L h t args₀ base₀ headers₀ ∧
    Normal L root h args base headers ∧ v = dated base t

/-- `hash_seal_value` tells the requests apart. -/
def SealInjective (L : Libs) (h : List Happening) : Prop :=
  ∀ v w, Compared L h v → Compared L h w → SameDigest L v w → sameJson v w = true

/-- The body of a request as JSON, null if there is none. -/
def ApiRequest.body (req : ApiRequest) : Json := Json.ofOption req.json

/-- The octets a key is computed from. -/
def KeyMessage (operationId : Str) (req : ApiRequest) (b : Bytes) : Prop :=
  jsonBytes (.arr [.str operationId, req.body.get "review_id", req.body.get "source_receipt_id"]) =
    .ok b

/-- What SHA-256 is computed of: the bodies and the header values of the calls, and the
    reviews that were continued. -/
def Digested (L : Libs) (operationId : Str) (h : List Happening) (b : Bytes) : Prop :=
  (∃ root args base headers, Normal L root h args base headers ∧
    (encode args.body = some b ∨ ∃ x ∈ headers, b = headerMessage x)) ∨
  ∃ a root req r id, .did a root (.http req) r ∈ h ∧ req.route = .continuation id ∧
    KeyMessage operationId req b

/-- SHA-256 tells these apart. -/
def ShaInjective (L : Libs) (operationId : Str) (h : List Happening) : Prop :=
  ∀ b c, Digested L operationId h b → Digested L operationId h c → hexdigest b = hexdigest c → b = c

/-! ### The private part of a request -/

/-- Equal digests of headers are equal headers. -/
theorem headers_eq {xs ys : List (Str × Str)} (hx : ∀ x ∈ xs, ∀ c ∈ x.2, c < 256)
    (hy : ∀ y ∈ ys, ∀ c ∈ y.2, c < 256)
    (hinj : ∀ x ∈ xs, ∀ y ∈ ys, hexdigest (headerMessage x) = hexdigest (headerMessage y) →
      headerMessage x = headerMessage y)
    (h : Json.equivalentItems false (xs.map fun x => headerJson (x.1, headerSha x))
      (ys.map fun y => headerJson (y.1, headerSha y)) = true) : xs = ys := by
  induction xs generalizing ys with
  | nil =>
      cases ys with
      | nil => rfl
      | cons y ys => cases h
  | cons x xs ih =>
      cases ys with
      | nil => cases h
      | cons y ys =>
          rw [List.map_cons, List.map_cons, Json.equivalentItems, Bool.and_eq_true] at h
          have hname : x.1 = y.1 := by
            have hn := Json.equivalent_get (k := "name") h.1 rfl
            simpa [headerJson, Json.ofList, Json.get, Json.lookup, Json.equivalent] using hn
          have hsha : headerSha x = headerSha y := by
            have hn := Json.equivalent_get (k := "value_sha256") h.1 (by
              simp [headerJson, Json.ofList, Json.has, Json.lookup])
            simpa [headerJson, Json.ofList, Json.get, Json.lookup, Json.equivalent] using hn
          have hmessage : headerMessage x = headerMessage y :=
            hinj x List.mem_cons_self y List.mem_cons_self (List.append_cancel_left hsha)
          have hvalue : x.2 = y.2 := by
            rw [headerMessage, headerMessage, hname] at hmessage
            have hbytes := List.append_cancel_left hmessage
            rw [List.cons.injEq] at hbytes
            exact asciiBytes_inj (hx x List.mem_cons_self) (hy y List.mem_cons_self) hbytes.2
          rw [Prod.ext hname hvalue, ih (fun x hx' => hx x (List.mem_cons_of_mem _ hx'))
            (fun y hy' => hy y (List.mem_cons_of_mem _ hy'))
            (fun x hx' y hy' => hinj x (List.mem_cons_of_mem _ hx') y (List.mem_cons_of_mem _ hy'))
            h.2]

/-! ### The same request -/

/-- The call was given the request of the original one: the bodies are equal JSON, and so
    are the private headers and the body to be sent. -/
def SameRequest (L : Libs) (past : List Happening) (args : Args) : Prop :=
  ∃ t args₀ base₀ headers₀ base headers, Original L past t args₀ base₀ headers₀ ∧
    httpExecutionRequest L args = .ok (base, headers) ∧
    sameJson (dated base₀ t) (dated base t) = true ∧ headers₀.Perm headers ∧ args₀.body = args.body

theorem normal_request {args : Args} {base : Requested} {headers : List (Str × Str)}
    (hn : Normal L root h args base headers) :
    request L args.url args.method (args.headers.getD []) args.body =
      .ok (base.httpRequest, headers) := by
  have h := hn.2
  unfold httpExecutionRequest at h
  rcases of_ite_error h with ⟨_, h⟩
  rcases bind_eq_ok.mp h with ⟨⟨d, hs⟩, hd, hk⟩
  cases hk
  exact hd

theorem Normal.subset {past : List Happening} {args : Args} {base : Requested}
    {headers : List (Str × Str)} (hn : Normal L root past args base headers) (hs : past ⊆ h) :
    Normal L root h args base headers := by
  rcases hn with ⟨⟨c, hc, ha⟩, hn⟩
  exact ⟨⟨c, hs hc, ha⟩, hn⟩

theorem Original.subset {past : List Happening} {t : Str} {args : Args} {base : Requested}
    {headers : List (Str × Str)} (ho : Original L past t args base headers) (hs : past ⊆ h) :
    Original L h t args base headers := by
  rcases ho with ⟨a, root, req, r, hd, hr, hj, hn⟩
  exact ⟨a, root, req, r, hs hd, hr, hj, hn.subset hs⟩

/-- The members of the descriptor in a request. -/
theorem dated_descriptor (base : Requested) (t : Str) :
    (dated base t).get "http_request" = base.httpRequest.toJson ∧
      (dated base t).has "http_request" = true := by
  refine ⟨?_, ?_⟩
  · simp [dated, Requested.toJson, Json.ofList, Json.get, Json.lookup, lit_inj]
  · simp [dated, Requested.toJson, Json.ofList, Json.has, Json.lookup, lit_inj]

theorem descriptor_members (d : Descriptor) :
    d.toJson.get "body_sha256" = .str d.bodySha256 ∧ d.toJson.has "body_sha256" = true ∧
      d.toJson.get "headers" = .arr (d.headers.map headerJson) ∧ d.toJson.has "headers" = true := by
  refine ⟨?_, ?_, ?_, ?_⟩
  · simp [Descriptor.toJson, Descriptor.members, Json.ofList, Json.get, Json.lookup, lit_inj]
  · simp [Descriptor.toJson, Descriptor.members, Json.ofList, Json.has, Json.lookup, lit_inj]
  · simp [Descriptor.toJson, Descriptor.members, Json.ofList, Json.get, Json.lookup, lit_inj]
  · simp [Descriptor.toJson, Descriptor.members, Json.ofList, Json.has, Json.lookup, lit_inj]

/-- Requests that are equal as JSON have the same private part. -/
theorem private_eq {root₀ : Nat} {args₀ args : Args} {base₀ base : Requested}
    {headers₀ headers : List (Str × Str)} {t : Str} (hsha : ShaInjective L operationId h)
    (hn₀ : Normal L root₀ h args₀ base₀ headers₀) (hn : Normal L root h args base headers)
    (hsame : sameJson (dated base₀ t) (dated base t) = true) :
    headers₀.Perm headers ∧ args₀.body = args.body := by
  rcases request_private (normal_request hn₀) with ⟨hnormal₀, ⟨encoded₀, hencoded₀, hbody₀⟩, hhs₀⟩
  rcases request_private (normal_request hn) with ⟨hnormal, ⟨encoded, hencoded, hbody⟩, hhs⟩
  have hd := Json.equivalent_get hsame (dated_descriptor base₀ t).2
  rw [(dated_descriptor base₀ t).1, (dated_descriptor base t).1] at hd
  rcases descriptor_members base₀.httpRequest with ⟨hb₀, hbhas, hh₀, hhhas⟩
  rcases descriptor_members base.httpRequest with ⟨hb, _, hh, _⟩
  have hbodies := Json.equivalent_get hd hbhas
  have hheaders := Json.equivalent_get hd hhhas
  rw [hb₀, hb, Json.equivalent_str, Json.str.injEq, hbody₀, hbody] at hbodies
  rw [hh₀, hh, hhs₀, hhs, List.map_map, List.map_map] at hheaders
  have hmem : ∀ {xs : List (Str × Str)} {x : Str × Str}, x ∈ sortHeaders xs → x ∈ xs :=
    fun hx => (sortHeaders_perm _).subset hx
  refine ⟨?_, ?_⟩
  · have heq : sortHeaders headers₀ = sortHeaders headers := by
      refine headers_eq ?_ ?_ ?_ hheaders
      · intro x hx
        exact normalizeHeaders_ascii (fun _ hy => (by cases hy)) hnormal₀ x (hmem hx)
      · intro x hx
        exact normalizeHeaders_ascii (fun _ hy => (by cases hy)) hnormal x (hmem hx)
      · intro x hx y hy
        exact hsha _ _ (Or.inl ⟨root₀, args₀, base₀, headers₀, hn₀, Or.inr ⟨x, hmem hx, rfl⟩⟩)
          (Or.inl ⟨root, args, base, headers, hn, Or.inr ⟨y, hmem hy, rfl⟩⟩)
    have hperm := (sortHeaders_perm headers₀).symm
    rw [heq] at hperm
    exact hperm.trans (sortHeaders_perm headers)
  · have hbytes : encoded₀ = encoded :=
      hsha _ _ (Or.inl ⟨root₀, args₀, base₀, headers₀, hn₀, Or.inl hencoded₀⟩)
        (Or.inl ⟨root, args, base, headers, hn, Or.inl hencoded⟩) (List.append_cancel_left hbodies)
    rw [← hbytes] at hencoded
    exact encode_injective hencoded₀ hencoded

/-- With digests that tell requests apart, a call that matches has the original request. -/
theorem sameRequest_of_digest {past : List Happening} {t : Str} {args₀ args : Args}
    {base₀ base : Requested} {headers₀ headers : List (Str × Str)} (hseal : SealInjective L h)
    (hsha : ShaInjective L operationId h) (hs : past ⊆ h)
    (ho : Original L past t args₀ base₀ headers₀) (hn : Normal L root past args base headers)
    (hd : SameDigest L (dated base₀ t) (dated base t)) :
    sameJson (dated base₀ t) (dated base t) = true ∧ headers₀.Perm headers ∧
      args₀.body = args.body := by
  have ho' := ho.subset hs
  rcases ho' with ⟨a, root₀, req, r, hdid, hroute, hjson, hn₀⟩
  have hsame : sameJson (dated base₀ t) (dated base t) = true := by
    refine hseal _ _ ⟨t, args₀, base₀, headers₀, root₀, args₀, base₀, headers₀, ho.subset hs, hn₀,
      rfl⟩ ⟨t, args₀, base₀, headers₀, root, args, base, headers, ho.subset hs, hn.subset hs, rfl⟩ hd
  exact ⟨hsame, private_eq hsha hn₀ (hn.subset hs) hsame⟩

/-! ### Calls that continue -/

/-- The key of a request, which is its last header. -/
def ApiRequest.key (req : ApiRequest) : Option Str :=
  match req.headers.getLast? with
  | some x => if x.1 = idempotencyKeyHeader then some x.2 else none
  | none => none

/-- The review a request to continue is about. -/
def ApiRequest.review (req : ApiRequest) : Json × Json :=
  (req.body.get "review_id", req.body.get "source_receipt_id")

/-- What holds of the calls that continue. -/
structure Continued (L : Libs) (operationId : Str) (h : List Happening) : Prop where
  /-- Only the original request contacts the runtime. -/
  contacts : ∀ a root req r past c args, .did a root (.http req) r :: past <:+ h →
    .began root root (.continuation c args) ∈ h → SameRequest L past args
  /-- What is sent to continue is the body of the original request. -/
  bodies : ∀ a root req r past id, .did a root (.http req) r :: past <:+ h →
    req.route = .continuation id → ∃ a₀ root₀ req₀ r₀ body₀, .did a₀ root₀ (.http req₀) r₀ ∈ past ∧
      req₀.route = .execute ∧ req₀.json = some body₀ ∧
      sameJson body₀ (req.body.get "execution_request") = true
  /-- A request to continue has a key. -/
  keyed : ∀ a root req r id, .did a root (.http req) r ∈ h → req.route = .continuation id →
    ∃ key, req.key = some key
  /-- One review has one key, and two reviews have two. -/
  keys : ∀ a root req r id a' root' req' r' id', .did a root (.http req) r ∈ h →
    req.route = .continuation id → .did a' root' (.http req') r' ∈ h →
    req'.route = .continuation id' → (req.key = req'.key ↔ req.review = req'.review)
  /-- Another request is refused. Nothing is asked of the runtime, and no journal written. -/
  refused : ∀ root c args, .began root root (.continuation c args) ∈ h → ¬ SameRequest L h args →
    (∀ a o r, .did a root o r ∈ h → touches (.did a root o r) = false) ∧
    (∀ a r, .ended a root r ∈ h → failed r)

/-- The request of a call that is not otherwise and matches. -/
theorem sameRequest_of_matches {w : Point} {past : List Happening} {c : Client} {args : Args}
    (hw : (system L operationId).Reachable Folder.fresh w) (hseal : SealInjective L w.history)
    (hsha : ShaInjective L operationId w.history) (hs : past ⊆ w.history)
    (hb : .began root root (.continuation c args) ∈ w.history)
    (hm : Otherwise root past ∨ Matches L root past) : SameRequest L past args := by
  rcases hm with ⟨c', hc', hne⟩ | ⟨t, args₀, base₀, headers₀, args', base, headers, ho, hn, hd⟩
  · exact absurd (began_command hw (hs hc') hb) (hne c args)
  · have hargs : args' = args := by
      rcases hn.1 with ⟨c', hc', ha⟩
      rw [began_command hw (hs hc') hb, Command.args, Option.some.injEq] at ha
      exact ha.symm
    rcases sameRequest_of_digest hseal hsha hs ho hn hd with ⟨hsame, hheaders, hbody⟩
    rw [hargs] at hbody hn
    exact ⟨t, args₀, base₀, headers₀, base, headers, ho, hn.2, hsame, hheaders, hbody⟩

theorem SameRequest.subset {past : List Happening} {args : Args} (hr : SameRequest L past args)
    (hs : past ⊆ h) : SameRequest L h args := by
  rcases hr with ⟨t, args₀, base₀, headers₀, base, headers, ho, hr⟩
  exact ⟨t, args₀, base₀, headers₀, base, headers, ho.subset hs, hr⟩

/-- A request to continue, by the review it is about. -/
theorem Continues.keyed {req : ApiRequest} (hc : Continues L operationId root h req) :
    ∃ reviewId sourceReceiptId b, req.review = (.str reviewId, .str sourceReceiptId) ∧
      jsonBytes (.arr [.str operationId, .str reviewId, .str sourceReceiptId]) = .ok b ∧
      req.key = some (lit "continue:" ++ hexdigest b) := by
  rcases hc with ⟨t, args₀, base₀, headers₀, args, base, headers, i, token, _, _, _, hjson, hkey, hhs⟩
  rcases bind_eq_ok.mp hkey with ⟨b, hb, hk⟩
  refine ⟨i.reviewId, i.sourceReceiptId, b, ?_, hb, ?_⟩
  · rw [ApiRequest.review, ApiRequest.body, hjson]
    simp [Json.ofOption, Json.ofList, Json.get, Json.lookup, lit_inj]
  · rw [ApiRequest.key, hhs, List.getLast?_append]
    simp only [List.getLast?_singleton, Option.some_or, if_true]
    exact congrArg some (Except.ok.inj hk).symm

theorem keyMessage_of_review {req : ApiRequest} {v u : Json} {b : Bytes} (hr : req.review = (v, u))
    (hb : jsonBytes (.arr [.str operationId, v, u]) = .ok b) : KeyMessage operationId req b := by
  rw [ApiRequest.review, Prod.mk.injEq] at hr
  rw [KeyMessage, hr.1, hr.2]
  exact hb

/-- Text is read back from the octets of a list of texts. -/
theorem texts_injective (xs ys : List Str) {b : Bytes} (hx : jsonBytes (.arr (xs.map .str)) = .ok b)
    (hy : jsonBytes (.arr (ys.map .str)) = .ok b) : xs.map Json.str = ys.map Json.str := by
  have hwf : ∀ zs : List Str, Json.WellFormedItems (zs.map .str) := by
    intro zs
    induction zs with
    | nil => exact trivial
    | cons z zs ih => exact ⟨trivial, ih⟩
  rcases Writes.text hx with ⟨t, ht, hbt⟩
  rcases Writes.text hy with ⟨u, hu, hbu⟩
  rw [← encode_injective hbt hbu] at hu
  exact Json.arr.inj (dumps_injective (hwf xs) (hwf ys) ht hu)

/-- The sample waits for a review and is continued. -/
def continuedScenario : List Move :=
  let mode := lit "receipt"
  [.begin (.execute sampleClient (sampleArgs mode)),
    .go 0 19 (sampleOutside mode [] sampleWaiting.toJson),
    .begin (.continuation sampleClient (sampleArgs mode)),
    .go 1 11 (sampleOutside mode (lit "a1") (sampleResponse mode (lit "a1")).toJson)]

/-- The body of the sample's request to continue. -/
def sampleContinuation : Json :=
  .ofList [("execution_request", (sampleRequested (lit "receipt")).toJson),
    ("review_id", .str (lit "cnf_1")), ("source_receipt_id", .str (lit "rcp_1"))]

/-- Are the events those of calls with the arguments of the sample, and of its requests? -/
def ofSample : Happening → Bool
  | .began _ _ c => c.args = some (sampleArgs (lit "receipt"))
  | .did _ _ (.http req) _ => match req.route with
    | .execute => req.json = some (sampleRequested (lit "receipt")).toJson
    | .continuation _ => req.json = some sampleContinuation
    | _ => true
  | _ => true

theorem sample_normal (hs : h.all ofSample = true) {args : Args} {base : Requested}
    {headers : List (Str × Str)} (hn : Normal sampleLibs root h args base headers) :
    args.body = [] ∧ headers = [] ∧
      base = { sampleRequested (lit "receipt") with clientTimestamp := none } := by
  rcases hn with ⟨⟨c, hc, ha⟩, hn⟩
  have hargs := List.all_eq_true.mp hs _ hc
  rw [ofSample, decide_eq_true_eq, ha, Option.some.injEq] at hargs
  have hreq : (httpExecutionRequest sampleLibs (sampleArgs (lit "receipt"))).toOption =
      some ({ sampleRequested (lit "receipt") with clientTimestamp := none }, []) := by
    decide +kernel
  rw [hargs] at hn
  rw [hn, Except.toOption, Option.some.injEq, Prod.mk.injEq] at hreq
  rw [hargs]
  exact ⟨rfl, hreq.2, hreq.1⟩

theorem sample_compared (hs : h.all ofSample = true) {v : Json} (hv : Compared sampleLibs h v) :
    v = (sampleRequested (lit "receipt")).toJson := by
  rcases hv with ⟨t, args₀, base₀, headers₀, root, args, base, headers, ho, hn, rfl⟩
  rcases ho with ⟨a, root₀, req, r, hdid, hroute, hjson, hn₀⟩
  have hreq := List.all_eq_true.mp hs _ hdid
  simp only [ofSample, hroute, decide_eq_true_eq] at hreq
  rw [hjson, Option.some.injEq] at hreq
  rw [← hreq, (sample_normal hs hn₀).2.2, (sample_normal hs hn).2.2]

theorem sample_seal (hs : h.all ofSample = true) : SealInjective sampleLibs h := by
  intro v w hv hw _
  rw [sample_compared hs hv, sample_compared hs hw]
  decide +kernel

theorem sample_digested (hs : h.all ofSample = true) {b : Bytes}
    (hb : Digested sampleLibs (lit "op_1") h b) :
    b = [] ∨ jsonBytes (.arr [.str (lit "op_1"), .str (lit "cnf_1"), .str (lit "rcp_1")]) = .ok b := by
  rcases hb with ⟨root, args, base, headers, hn, hb⟩ | ⟨a, root, req, r, id, hdid, hroute, hb⟩
  · rcases sample_normal hs hn with ⟨hbody, hheaders, _⟩
    rcases hb with hb | ⟨x, hx, _⟩
    · rw [hbody, encode, Option.some.injEq] at hb
      exact Or.inl hb.symm
    · rw [hheaders] at hx
      cases hx
  · have hreq := List.all_eq_true.mp hs _ hdid
    simp only [ofSample, hroute, decide_eq_true_eq] at hreq
    rw [KeyMessage, ApiRequest.body, hreq] at hb
    simp only [Json.ofOption, sampleContinuation, Json.ofList, Json.get, List.map_cons,
      List.map_nil, Json.lookup, lit_inj] at hb
    exact Or.inr (by simpa using hb)

theorem sample_sha (hs : h.all ofSample = true) : ShaInjective sampleLibs (lit "op_1") h := by
  have hdiffer : ∀ {b : Bytes},
      jsonBytes (.arr [.str (lit "op_1"), .str (lit "cnf_1"), .str (lit "rcp_1")]) = .ok b →
        hexdigest [] ≠ hexdigest b := by
    intro b hb
    have hcheck : (jsonBytes (.arr [.str (lit "op_1"), .str (lit "cnf_1"), .str (lit "rcp_1")])).toOption.all
        (fun b => decide (hexdigest [] ≠ hexdigest b)) = true := by
      decide +kernel
    rw [hb] at hcheck
    simpa [Except.toOption] using hcheck
  intro b c hb hc heq
  rcases sample_digested hs hb with rfl | hb'
  · rcases sample_digested hs hc with rfl | hc'
    · rfl
    · exact absurd heq (hdiffer hc')
  · rcases sample_digested hs hc with rfl | hc'
    · exact absurd heq.symm (hdiffer hb')
    · rw [hb'] at hc'
      exact Except.ok.inj hc'

set_option maxRecDepth 20000 in
theorem continued_reached : ∃ w, (system sampleLibs (lit "op_1")).Reachable Folder.fresh w ∧
    w.history.all ofSample = true ∧
    (w.history.any fun e => match e with
      | .did _ _ (.http req) _ => decide (req.route = .continuation (lit "op_1"))
      | _ => false) = true := by
  have hcheck : (scenario sampleLibs (lit "op_1") continuedScenario).any (fun w =>
      w.history.all ofSample && w.history.any fun e => match e with
        | .did _ _ (.http req) _ => decide (req.route = .continuation (lit "op_1"))
        | _ => false) = true := by
    decide +kernel
  rcases scenario_reachable hcheck with ⟨w, hw, hcheck⟩
  rw [Bool.and_eq_true] at hcheck
  exact ⟨w, hw, hcheck.1, hcheck.2⟩

end Allowly

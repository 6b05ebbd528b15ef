import Allowly.Core.Sealing
import Allowly.Theory.Delivery

/-!
# A Seal Is About the Record

Whatever the server answers, a seal that is returned carries the digest of the record:
in the request, in the answer, and in the signed claims, which also name the workspace
of the answer and, when the receipt was pending, the pending receipt. Of the record
nothing is sent but its digest, and nothing at all when it has none or an argument is
refused.

## Main definitions

* `GoodArgs`: Arguments that are not refused.
* `SealAbout`: What holds of a seal that is returned.

## Theorems

* `sealBody_of_ok`: What is sent.
* `sealReply_of_ok`, `validated_of_ok`: What the answer and the receipt were checked for.
* `sealed_record`: The seal is about the record.
-/

namespace Allowly

open Py

/-- Arguments that are not refused. -/
structure GoodArgs (a : SealArgs) : Prop where
  requestId : ∃ c id, a.requestId = .str (c :: id)
  pollInterval : 0 < a.pollInterval
  timeout : 0 < a.timeout
  metadata : ∀ m, a.metadata = some m → m.isObj = true ∧ ∀ x ∈ m.members, x.2.asStr ≠ none

/-- The claims of a seal over this digest, in this workspace. -/
structure SealClaims (S : SealLibs) (claims : Json) (digest workspaceId : Str) : Prop where
  receiptId : ∃ c id, claims.get "receipt_id" = .str (c :: id)
  schemaVersion : claims.get "schema_version" = .str (lit "5")
  action : claims.get "action" = .str S.action
  decision : claims.get "decision" = .str (lit "allow")
  agentId : claims.get "agent_id" = .str S.agentId
  userId : claims.get "user_id" = .str S.userId
  workspaceId : claims.get "workspace_id" = .str workspaceId
  profile : (claims.get "context").get "seal_profile" = .str S.profile
  recordSha256 : (claims.get "context").get "record_sha256" = .str digest

/-- What holds of a seal that is returned: the answer repeats what was sent, and the
    signed claims are about it. -/
structure SealAbout (S : SealLibs) (a : SealArgs) (server : SealServer) (digest : Str)
    (r : SealResponse) : Prop where
  requestId : a.requestId = .str r.requestId
  profile : r.profile = S.profile
  recordSha256 : r.recordSha256 = digest
  answered : ∃ body raw claims, sealBody S digest a = .ok (r.requestId, body) ∧
    server.post body = .ok raw ∧ S.decodeReceipt r.receipt = .ok claims ∧
    raw.get "request_id" = body.get "request_id" ∧ raw.get "profile" = body.get "profile" ∧
    raw.get "record_sha256" = body.get "record_sha256" ∧
    raw.get "workspace_id" = .str r.workspaceId ∧ SealClaims S claims digest r.workspaceId ∧
    ((raw.get "receipt").get "status" = .str (lit "pending") →
      claims.get "receipt_id" = (raw.get "receipt").get "receipt_id")

/-! ### What is sent -/

theorem validateSealMetadata_of_ok {m m' : Option Json} (h : validateSealMetadata m = .ok m') :
    m' = m ∧ ∀ x, m = some x → x.isObj = true ∧ ∀ y ∈ x.members, y.2.asStr ≠ none := by
  unfold validateSealMetadata at h
  split at h
  · cases h
    exact ⟨rfl, fun x hx => by cases hx⟩
  · next metadata =>
      rcases of_ite_error h with ⟨hgood, h⟩
      cases h
      rw [not_or] at hgood
      refine ⟨rfl, ?_⟩
      intro x hx
      cases hx
      refine ⟨Bool.not_eq_false _ ▸ hgood.1, ?_⟩
      intro y hy hnone
      refine hgood.2 (List.any_eq_true.mpr ⟨y, hy, ?_⟩)
      rw [hnone]
      rfl

/-- The body holds the request ID, the profile and the digest. -/
theorem sealBody_of_ok {S : SealLibs} {digest id : Str} {a : SealArgs} {body : Json}
    (h : sealBody S digest a = .ok (id, body)) :
    GoodArgs a ∧ a.requestId = .str id ∧ body.get "request_id" = .str id ∧
      body.get "profile" = .str S.profile ∧ body.get "record_sha256" = .str digest := by
  unfold sealBody at h
  split at h
  · next c rest hid =>
      rcases of_ite_error h with ⟨hinterval, h⟩
      rcases of_ite_error h with ⟨htimeout, h⟩
      rcases bind_eq_ok.mp h with ⟨metadata, hmetadata, h⟩
      rcases validateSealMetadata_of_ok hmetadata with ⟨_, hgood⟩
      have hargs : GoodArgs a := ⟨⟨c, rest, hid⟩, not_le.mp hinterval, not_le.mp htimeout, hgood⟩
      cases metadata with
      | none =>
          cases h
          exact ⟨hargs, hid, rfl, rfl, rfl⟩
      | some m =>
          cases h
          refine ⟨hargs, hid, ?_, ?_, ?_⟩
          · rw [Json.get_set_other (by decide)]
            rfl
          · rw [Json.get_set_other (by decide)]
            rfl
          · rw [Json.get_set_other (by decide)]
            rfl
  · cases h

/-- Arguments that are refused are refused before anything is sent. -/
theorem sealBody_refused {S : SealLibs} {a : SealArgs} (h : ¬ GoodArgs a) (digest : Str) :
    ∃ x, sealBody S digest a = .error x := by
  cases hbody : sealBody S digest a with
  | error x => exact ⟨x, rfl⟩
  | ok sent => exact absurd (sealBody_of_ok hbody).1 h

/-! ### What is checked -/

theorem sealReply_of_ok {S : SealLibs} {requestId digest : Str} {raw : Json} {reply : SealReply}
    (h : sealReply S requestId digest raw = .ok reply) :
    raw.get "request_id" = .str requestId ∧ raw.get "profile" = .str S.profile ∧
      raw.get "record_sha256" = .str digest ∧ raw.get "workspace_id" = .str reply.workspaceId ∧
      parseReceiptEnvelope S.toLibs (raw.get "receipt") = .ok reply.envelope := by
  unfold sealReply at h
  rcases bind_eq_ok.mp h with ⟨body, hbody, hk⟩
  clear h
  rcases requireDict_eq_ok.mp hbody with ⟨_, rfl⟩
  rcases bind_eq_ok.mp hk with ⟨echoedId, hid, hk⟩
  rcases of_ite_error hk with ⟨hsameId, hk⟩
  rcases bind_eq_ok.mp hk with ⟨profile, hprofile, hk⟩
  rcases of_ite_error hk with ⟨hsameProfile, hk⟩
  rcases bind_eq_ok.mp hk with ⟨echoed, hrecord, hk⟩
  rcases of_ite_error hk with ⟨hsameRecord, hk⟩
  rcases bind_eq_ok.mp hk with ⟨workspaceId, hworkspace, hk⟩
  rcases of_ite_error hk with ⟨_, hk⟩
  rcases bind_eq_ok.mp hk with ⟨decision, _, hk⟩
  rcases of_ite_error hk with ⟨_, hk⟩
  rcases bind_eq_ok.mp hk with ⟨reason, _, hk⟩
  rcases bind_eq_ok.mp hk with ⟨envelope, henvelope, hk⟩
  cases hk
  rw [not_not] at hsameId hsameProfile hsameRecord
  rw [requireStr_eq_ok, hsameId] at hid
  rw [requireStr_eq_ok, hsameProfile] at hprofile
  rw [requireStr_eq_ok, hsameRecord] at hrecord
  exact ⟨hid, hprofile, hrecord, requireStr_eq_ok.mp hworkspace, henvelope⟩

theorem requireFields_of_ok {claims : Json} {fields : List (String × Str)}
    (h : requireFields claims fields = .ok ()) : ∀ f ∈ fields, claims.get f.1 = .str f.2 := by
  induction fields with
  | nil => exact fun f hf => absurd hf List.not_mem_nil
  | cons g fields ih =>
      rw [requireFields] at h
      rcases bind_eq_ok.mp h with ⟨value, hvalue, hk⟩
      rcases of_ite_error hk with ⟨hsame, hk⟩
      rw [not_not] at hsame
      intro f hf
      rcases List.mem_cons.mp hf with hf | hf
      · rw [hf, requireStr_eq_ok.mp hvalue, hsame]
      · exact ih hk f hf

theorem validated_of_ok {S : SealLibs} {receipt : Json} {digest workspaceId : Str}
    {pendingReceiptId : Option Str}
    (h : validateSealReceipt S receipt digest workspaceId pendingReceiptId = .ok ()) :
    ∃ claims, S.decodeReceipt receipt = .ok claims ∧ SealClaims S claims digest workspaceId ∧
      ∀ id, pendingReceiptId = some id → claims.get "receipt_id" = .str id := by
  unfold validateSealReceipt at h
  split at h
  · cases h
  next claims hclaims =>
  rcases of_ite_error h with ⟨_, h⟩
  rcases bind_eq_ok.mp h with ⟨receiptId, hid, hk⟩
  rcases of_ite_error hk with ⟨hne, hk⟩
  rcases of_ite_error hk with ⟨hpending, hk⟩
  rcases bind_eq_ok.mp hk with ⟨_, hfields, hk⟩
  rcases bind_eq_ok.mp hk with ⟨claimed, hworkspace, hk⟩
  rcases of_ite_error hk with ⟨hsameWorkspace, hk⟩
  rcases bind_eq_ok.mp hk with ⟨context, hcontext, hk⟩
  rcases requireDict_eq_ok.mp hcontext with ⟨_, rfl⟩
  rcases bind_eq_ok.mp hk with ⟨profile, hprofile, hk⟩
  rcases of_ite_error hk with ⟨hsameProfile, hk⟩
  rcases bind_eq_ok.mp hk with ⟨signed, hrecord, hk⟩
  rcases of_ite_error hk with ⟨hsameRecord, _⟩
  rw [not_not] at hsameWorkspace hsameProfile hsameRecord
  rw [requireStr_eq_ok] at hid
  rw [requireStr_eq_ok, hsameWorkspace] at hworkspace
  rw [requireStr_eq_ok, hsameProfile] at hprofile
  rw [requireStr_eq_ok, hsameRecord] at hrecord
  have hclaim := @requireFields_of_ok _ (expectedFields S) hfields
  refine ⟨claims, hclaims, ⟨?_, ?_, ?_, ?_, ?_, ?_, hworkspace, hprofile, hrecord⟩, ?_⟩
  · cases receiptId with
    | nil => exact absurd rfl hne
    | cons c rest => exact ⟨c, rest, hid⟩
  · exact hclaim ("schema_version", lit "5") (by simp [expectedFields])
  · exact hclaim ("action", S.action) (by simp [expectedFields])
  · exact hclaim ("decision", lit "allow") (by simp [expectedFields])
  · exact hclaim ("agent_id", S.agentId) (by simp [expectedFields])
  · exact hclaim ("user_id", S.userId) (by simp [expectedFields])
  · intro id hsome
    rw [hid]
    by_contra hother
    refine hpending ⟨?_, ?_⟩
    · rw [hsome]
      exact Option.some_ne_none id
    · rw [hsome]
      intro hsame
      exact hother (congrArg Json.str (Option.some.inj hsame))

/-- A pending envelope has the receipt ID of the body it was parsed from. -/
theorem pending_of_parse {L : Libs} {raw : Json} {id url : Str} {ready : Option Str}
    (h : parseReceiptEnvelope L raw = .ok (.pending id ready url)) :
    raw.get "receipt_id" = .str id := by
  unfold parseReceiptEnvelope at h
  rcases bind_eq_ok.mp h with ⟨body, hbody, hk⟩
  rcases requireDict_eq_ok.mp hbody with ⟨_, rfl⟩
  split at hk
  · unfold parsePendingEnvelope at hk
    rcases bind_eq_ok.mp hk with ⟨inner, hinner, hrest⟩
    rw [(requireDict_eq_ok.mp hinner).2] at hrest
    rcases of_ite_error hrest with ⟨_, hrest⟩
    rcases bind_eq_ok.mp hrest with ⟨receiptId, hid, hrest⟩
    iterate 2 rcases bind_eq_ok.mp hrest with ⟨_, _, hrest⟩
    cases hrest
    exact requireStr_eq_ok.mp hid
  split at hk
  · rcases bind_eq_ok.mp hk with ⟨receipt, _, hk⟩
    split at hk
    · cases hk
    · cases hk
  · cases hk

/-- A signed envelope does not come from a pending one. -/
theorem signed_of_parse {L : Libs} {raw receipt : Json}
    (h : parseReceiptEnvelope L raw = .ok (.signed receipt)) :
    raw.get "status" ≠ .str (lit "pending") := by
  unfold parseReceiptEnvelope at h
  rcases bind_eq_ok.mp h with ⟨body, hbody, hk⟩
  rcases requireDict_eq_ok.mp hbody with ⟨_, rfl⟩
  split at hk
  · unfold parsePendingEnvelope at hk
    rcases bind_eq_ok.mp hk with ⟨body', _, hk⟩
    rcases of_ite_error hk with ⟨_, hk⟩
    iterate 3 rcases bind_eq_ok.mp hk with ⟨_, _, hk⟩
    cases hk
  · next hstatus => exact hstatus

/-! ### The seal -/

theorem sealFinish_of_ok {S : SealLibs} {requestId digest : Str} {reply : SealReply}
    {pendingReceiptId : Option Str} {receipt : Json} {r : SealResponse}
    (h : sealFinish S requestId digest reply pendingReceiptId receipt = .ok r) :
    validateSealReceipt S receipt digest reply.workspaceId pendingReceiptId = .ok () ∧
      r = { requestId, workspaceId := reply.workspaceId, profile := S.profile,
            recordSha256 := digest, reason := reply.reason, receipt } := by
  rcases bind_eq_ok.mp h with ⟨u, hvalid, hk⟩
  cases hk
  exact ⟨hvalid, rfl⟩

/-- A seal that is returned is about the digest. -/
theorem sealDigest_about {S : SealLibs} {digest : Str} {a : SealArgs} {server : SealServer} {n : Nat}
    {r : SealResponse} (h : (sealDigest S digest a server n).2 = some (.ok r)) :
    SealAbout S a server digest r := by
  unfold sealDigest at h
  cases hbody : sealBody S digest a with
  | error x =>
      rw [hbody] at h
      cases h
  | ok sent =>
      rcases sent with ⟨requestId, body⟩
      simp only [hbody] at h
      rcases sealBody_of_ok hbody with ⟨_, hid, hbodyId, hbodyProfile, hbodyRecord⟩
      cases hreply : (server.post body).bind (sealReply S requestId digest) with
      | error x =>
          simp only [hreply] at h
          cases h
      | ok reply =>
          simp only [hreply] at h
          rcases bind_eq_ok.mp hreply with ⟨raw, hraw, hchecked⟩
          rcases sealReply_of_ok hchecked with ⟨hrawId, hrawProfile, hrawRecord, hworkspace, henvelope⟩
          -- However the receipt came, it was validated against the pending one.
          have hfinish (pendingReceiptId : Option Str) (receipt : Json)
              (hok : sealFinish S requestId digest reply pendingReceiptId receipt = .ok r)
              (hpending : (raw.get "receipt").get "status" = .str (lit "pending") →
                ∃ id, pendingReceiptId = some id ∧
                  (raw.get "receipt").get "receipt_id" = .str id) :
              SealAbout S a server digest r := by
            rcases sealFinish_of_ok hok with ⟨hvalid, hr⟩
            rcases validated_of_ok hvalid with ⟨claims, hclaims, habout, hsame⟩
            rw [hr]
            refine ⟨hid, rfl, rfl, body, raw, claims, hbody, hraw, hclaims, ?_, ?_, ?_, hworkspace,
              habout, ?_⟩
            · rw [hrawId, hbodyId]
            · rw [hrawProfile, hbodyProfile]
            · rw [hrawRecord, hbodyRecord]
            · intro hstatus
              rcases hpending hstatus with ⟨id, hsome, hrawReceipt⟩
              rw [hsame id hsome, hrawReceipt]
          cases hkind : reply.envelope with
          | signed receipt =>
              simp only [hkind, Option.some.injEq] at h
              rw [hkind] at henvelope
              exact hfinish none receipt h fun hstatus => absurd hstatus (signed_of_parse henvelope)
          | pending receiptId ready url =>
              simp only [hkind, Option.map_eq_some_iff] at h
              rcases h with ⟨fetched, _, hbind⟩
              rcases bind_eq_ok.mp hbind with ⟨receipt, _, hok⟩
              rw [hkind] at henvelope
              exact hfinish (some receiptId) receipt hok fun _ =>
                ⟨receiptId, rfl, pending_of_parse henvelope⟩

/-- What is sent is the body with the digest, and reads of the pending receipt. -/
theorem sealDigest_sent {S : SealLibs} {digest : Str} {a : SealArgs} {server : SealServer} {n : Nat}
    {s : SealSent} (h : s ∈ (sealDigest S digest a server n).1) :
    GoodArgs a ∧ ((∃ id body, sealBody S digest a = .ok (id, body) ∧ s = .posted body) ∨
      ∃ id time, s = .polled id time) := by
  unfold sealDigest at h
  cases hbody : sealBody S digest a with
  | error x =>
      rw [hbody] at h
      cases h
  | ok sent =>
      rcases sent with ⟨requestId, body⟩
      simp only [hbody] at h
      refine ⟨(sealBody_of_ok hbody).1, ?_⟩
      have hfirst (hs : s ∈ [SealSent.posted body]) :
          (∃ id b, (.ok (requestId, body) : Except Exc (Str × Json)) = .ok (id, b) ∧ s = .posted b) ∨
            ∃ id time, s = .polled id time :=
        Or.inl ⟨requestId, body, rfl, List.mem_singleton.mp hs⟩
      cases hreply : (server.post body).bind (sealReply S requestId digest) with
      | error x =>
          simp only [hreply] at h
          exact hfirst h
      | ok reply =>
          simp only [hreply] at h
          cases hkind : reply.envelope with
          | signed receipt =>
              simp only [hkind] at h
              exact hfirst h
          | pending receiptId ready url =>
              simp only [hkind] at h
              rcases List.mem_cons.mp h with h | h
              · exact hfirst (List.mem_singleton.mpr h)
              · rcases List.mem_map.mp h with ⟨time, _, htime⟩
                exact Or.inr ⟨receiptId, time, htime.symm⟩

/-- A seal that is returned is about the record; of the record only the digest is sent;
    and nothing is sent when there is no digest or an argument is refused. -/
theorem sealed_record (S : SealLibs) (a : SealArgs) (server : SealServer) (n : Nat) :
    (∀ record r, (sealJson S record a server n).2 = some (.ok r) →
      ∃ digest, S.hashSealJson record = some digest ∧ SealAbout S a server digest r) ∧
    (∀ record r, (sealValue S record a server n).2 = some (.ok r) →
      ∃ digest, S.hashSealValue record = some digest ∧ SealAbout S a server digest r) ∧
    (∀ record s, s ∈ (sealJson S record a server n).1 → GoodArgs a ∧
      ∃ digest, S.hashSealJson record = some digest ∧
        ((∃ id body, sealBody S digest a = .ok (id, body) ∧ s = .posted body) ∨
          ∃ id time, s = .polled id time)) ∧
    (∀ record s, s ∈ (sealValue S record a server n).1 → GoodArgs a ∧
      ∃ digest, S.hashSealValue record = some digest ∧
        ((∃ id body, sealBody S digest a = .ok (id, body) ∧ s = .posted body) ∨
          ∃ id time, s = .polled id time)) ∧
    ∀ record value, S.hashSealJson record = S.hashSealValue value →
      sealJson S record a server n = sealValue S value a server n := by
  have habout (digest : Option Str) (r : SealResponse)
      (h : (sealHashed S digest a server n).2 = some (.ok r)) :
      ∃ d, digest = some d ∧ SealAbout S a server d r := by
    cases digest with
    | none => cases h
    | some d => exact ⟨d, rfl, sealDigest_about h⟩
  have hsent (digest : Option Str) (s : SealSent) (h : s ∈ (sealHashed S digest a server n).1) :
      GoodArgs a ∧ ∃ d, digest = some d ∧
        ((∃ id body, sealBody S d a = .ok (id, body) ∧ s = .posted body) ∨
          ∃ id time, s = .polled id time) := by
    cases digest with
    | none => cases h
    | some d =>
        rcases sealDigest_sent h with ⟨hargs, hs⟩
        exact ⟨hargs, d, rfl, hs⟩
  refine ⟨fun record r => habout _ r, fun record r => habout _ r, fun record s => hsent _ s,
    fun record s => hsent _ s, ?_⟩
  intro record value hsame
  rw [sealJson, sealValue, hsame]

/-- The package, for records that are their own digest. -/
def sampleSealLibs : SealLibs :=
  { payloadLibs with
    hashSealJson := fun record => match record with
      | .inl _ => none
      | .inr text => some text
    profile := sealProfile
    action := lit "record.seal"
    agentId := lit "allowly.seal"
    userId := lit "allowly:seal" }

/-- A server that seals the digest `d1` at once, whatever it is asked to seal. -/
def sampleSealServer : SealServer where
  post _ := .ok (.ofList [("request_id", .str (lit "req_1")), ("profile", .str sealProfile),
    ("record_sha256", .str (lit "d1")), ("workspace_id", .str (lit "ws_1")),
    ("decision", .str (lit "allow")), ("reason", .str (lit "granted")),
    ("receipt", .ofList [("status", .str (lit "signed")), ("receipt", receiptOf
      (.ofList [("schema_version", .str (lit "5")), ("receipt_id", .str (lit "rcp_1")),
        ("action", .str (lit "record.seal")), ("decision", .str (lit "allow")),
        ("agent_id", .str (lit "allowly.seal")), ("user_id", .str (lit "allowly:seal")),
        ("workspace_id", .str (lit "ws_1")),
        ("context", .ofList [("seal_profile", .str sealProfile),
          ("record_sha256", .str (lit "d1"))])]))])])
  start := 0
  rounds _ := { opened := 0, arrived := 0, outcome := .error .transport, paused := 0 }

def sampleSealArgs : SealArgs where
  requestId := .str (lit "req_1")
  metadata := none
  pollInterval := 1
  timeout := 10

example : (sealJson sampleSealLibs (.inr (lit "d1")) sampleSealArgs sampleSealServer 0).2.map
    (fun r => r.toOption.map (·.recordSha256)) = some (some (lit "d1")) := by
  decide +kernel

example : (sealJson sampleSealLibs (.inr (lit "d2")) sampleSealArgs sampleSealServer 0).2.map
    (fun r => r.toOption.map (·.recordSha256)) = some none := by
  decide +kernel

end Allowly

import Allowly.Base.Base64
import Allowly.Theory.Response
import Allowly.Theory.Scenario
import Allowly.Theory.Strict

/-!
# Deliveries of the Webhook for Seals

A delivery tells some facts twice: in its own members, which nobody signed, and in the
claims of its receipt. The parser compares the receipt ID, the workspace and the
metadata with the claims. It compares neither the fingerprint of the record nor the
profile, so an accepted delivery agrees with its receipt if and only if the body did
in these two.

## Main definitions

* `SignedWins`: Every member of a delivery that projects a claim agrees with it.
* `ProjectionSigned`: The body has the signed fingerprint, and the profile is signed.

## Theorems

* `delivery_of_ok`: What the parser has checked.
* `strict_parseDelivery`: A body that is refused is refused by a protocol error.
* `delivery_signed`: When an accepted delivery agrees with its receipt.
* `fingerprint_not_compared`: One that does not.
-/

namespace Allowly

open Py

/-- The claims a delivery is about. -/
def signedContext (claims : Json) : Json := claims.get "context"

/-- Every member that projects a claim agrees with it, and a receipt that is there is
    the one the delivery returns. -/
structure SignedWins (d : SealWebhookDelivery) (claims : Json) : Prop where
  receiptId : d.receiptId ≠ none ∧ claims.get "receipt_id" = optionText d.receiptId
  workspaceId : claims.get "workspace_id" = .str d.workspaceId
  metadata : .ofOption d.metadata = (signedContext claims).get "seal_metadata"
  recordSha256 : d.recordSha256 ≠ none → (signedContext claims).has "record_sha256" = true →
    (signedContext claims).get "record_sha256" = optionText d.recordSha256
  profile : (signedContext claims).has "seal_profile" = true →
    (signedContext claims).get "seal_profile" = .str d.profile

/-- The body has the signed fingerprint or none, and the signed profile is the one of
    the program. -/
def ProjectionSigned (raw claims : Json) : Prop :=
  (raw.get "record_sha256" ≠ .null → (signedContext claims).has "record_sha256" = true →
    (signedContext claims).get "record_sha256" = raw.get "record_sha256") ∧
  ((signedContext claims).has "seal_profile" = true →
    (signedContext claims).get "seal_profile" = .str sealProfile)

/-- Claims are objects. -/
def ClaimsAreObjects (L : Libs) : Prop :=
  ∀ receipt claims, L.decodeReceipt receipt = .ok claims → claims.isObj = true

theorem sealStr_eq_ok {raw : Json} {key : String} {s : Str} (h : sealStr raw key = .ok s) :
    raw.get key = .str s := by
  unfold sealStr at h
  split at h
  · next c t hget =>
      cases h
      exact hget
  · cases h

theorem sealOptionalStr_eq_ok {raw : Json} {key : String} {s : Option Str}
    (h : sealOptionalStr raw key = .ok s) : raw.get key = optionText s := by
  unfold sealOptionalStr at h
  split at h
  · next hget =>
      cases h
      exact hget
  · next t hget =>
      cases h
      exact hget
  · cases h

theorem sealOptionalDict_eq_ok {raw : Json} {key : String} {v : Option Json}
    (h : sealOptionalDict raw key = .ok v) : raw.get key = .ofOption v := by
  unfold sealOptionalDict at h
  cases v with
  | none =>
      unfold optionalWith at h
      split at h
      · next hnull => exact hnull
      · rcases map_eq_ok.mp h with ⟨b, _, hb⟩
        cases hb
  | some v => exact (requireDict_eq_ok.mp (optionalWith_eq_ok h)).2.symm

theorem optionalMetadata_eq_ok {value : Json} {name : String} {m : Option Json}
    (h : optionalMetadata value name = .ok m) : value = .ofOption m := by
  unfold optionalMetadata at h
  split at h
  · next hnull =>
      cases h
      exact hnull
  · rcases bind_eq_ok.mp h with ⟨metadata, hdict, hk⟩
    rcases of_ite_error hk with ⟨_, hk⟩
    cases hk
    exact (requireDict_eq_ok.mp hdict).2.symm

/-! ### What the parser checks -/

theorem strict_optionalMetadata (value : Json) (name : String) :
    Strict (optionalMetadata value name) := by
  unfold optionalMetadata
  split
  · exact strict_ok _
  · refine strict_bind (strict_requireDict _ _) ?_
    intro metadata _
    split
    · exact strict_protocolError _ _
    · exact strict_ok _

theorem strict_signedMetadata {L : Libs} (hL : ClaimsAreObjects L) (receipt : Json)
    (receiptId : Option Str) (workspaceId : Str) (metadata : Option Json) :
    Strict (signedMetadata L receipt receiptId workspaceId metadata) := by
  unfold signedMetadata
  split
  · exact strict_protocolError _ _
  · next claims hclaims =>
      rw [if_neg (by rw [hL receipt claims hclaims]; decide)]
      split
      · exact strict_protocolError _ _
      split
      · exact strict_protocolError _ _
      refine strict_bind (strict_sealOptionalDict _ _) ?_
      intro context _
      refine strict_bind (strict_optionalMetadata _ _) ?_
      intro signed _
      split
      · exact strict_protocolError _ _
      · exact strict_ok _

/-- A body that is refused is refused by a protocol error. -/
theorem strict_parseDelivery {L : Libs} (hL : ClaimsAreObjects L) (raw : Json) :
    Strict (parseDelivery L raw) := by
  refine strict_bind (strict_requireDict _ _) ?_
  intro body _
  refine strict_bind (strict_sealStr _ _) ?_
  intro statusText _
  refine strict_bind (strict_parseEnum _ _ _ _) ?_
  intro status _
  refine strict_bind (strict_sealStr _ _) ?_
  intro profile _
  split
  · exact strict_protocolError _ _
  refine strict_bind (strict_sealOptionalDict _ _) ?_
  intro receipt _
  refine strict_bind (strict_optionalMetadata _ _) ?_
  intro metadata _
  refine strict_bind (strict_sealOptionalStr _ _) ?_
  intro receiptId _
  refine strict_bind (strict_sealStr _ _) ?_
  intro workspaceId _
  have hmetadata : Strict (deliveryMetadata L receipt receiptId workspaceId metadata) := by
    cases receipt with
    | none => exact strict_ok _
    | some receipt => exact strict_signedMetadata hL _ _ _ _
  refine strict_bind hmetadata ?_
  intro metadata _
  iterate 3
    refine strict_bind (strict_sealStr _ _) ?_
    intro text _
  iterate 2
    refine strict_bind (strict_sealOptionalStr _ _) ?_
    intro text _
  refine strict_bind (strict_sealStr _ _) ?_
  intro statusUrl _
  refine strict_bind (strict_sealOptionalStr _ _) ?_
  intro receiptUrl _
  refine strict_bind (strict_sealStr _ _) ?_
  intro keysUrl _
  exact strict_ok _

/-- The signed metadata of a receipt about this delivery. -/
theorem signedMetadata_eq_ok {L : Libs} {receipt : Json} {receiptId : Option Str}
    {workspaceId : Str} {metadata signed : Option Json}
    (h : signedMetadata L receipt receiptId workspaceId metadata = .ok signed) :
    ∃ claims, L.decodeReceipt receipt = .ok claims ∧ receiptId ≠ none ∧
      claims.get "receipt_id" = optionText receiptId ∧
      claims.get "workspace_id" = .str workspaceId ∧
      .ofOption signed = (signedContext claims).get "seal_metadata" := by
  unfold signedMetadata at h
  split at h
  · cases h
  · next claims hclaims =>
      refine ⟨claims, hclaims, ?_⟩
      split at h
      · split at h
        · cases h
        · cases h
      rcases of_ite_error h with ⟨hid, h⟩
      rcases of_ite_error h with ⟨hworkspace, h⟩
      rw [not_or, not_not] at hid
      rw [not_not] at hworkspace
      refine ⟨hid.1, hid.2, hworkspace, ?_⟩
      rcases bind_eq_ok.mp h with ⟨context, hcontext, h⟩
      rcases bind_eq_ok.mp h with ⟨found, hfound, h⟩
      rcases of_ite_error h with ⟨_, h⟩
      cases h
      have hsame := sealOptionalDict_eq_ok hcontext
      rw [← optionalMetadata_eq_ok hfound, signedContext, hsame]
      cases context with
      | none => rfl
      | some context => rfl

/-- What the parser has checked of an accepted body with a receipt. -/
structure Delivered (L : Libs) (raw : Json) (d : SealWebhookDelivery) : Prop where
  isObj : raw.isObj = true
  attemptId : raw.get "attempt_id" = .str d.attemptId
  profile : d.profile = sealProfile
  recordSha256 : raw.get "record_sha256" = optionText d.recordSha256
  receipt : raw.get "receipt" = .ofOption d.receipt
  signed : ∀ receipt, d.receipt = some receipt → ∃ claims, L.decodeReceipt receipt = .ok claims ∧
    d.receiptId ≠ none ∧ claims.get "receipt_id" = optionText d.receiptId ∧
    claims.get "workspace_id" = .str d.workspaceId ∧
    .ofOption d.metadata = (signedContext claims).get "seal_metadata"

theorem delivery_of_ok {L : Libs} {raw : Json} {d : SealWebhookDelivery}
    (h : parseDelivery L raw = .ok d) : Delivered L raw d := by
  unfold parseDelivery at h
  rcases bind_eq_ok.mp h with ⟨body, hbody, hk⟩
  clear h
  rcases requireDict_eq_ok.mp hbody with ⟨hobj, rfl⟩
  rcases bind_eq_ok.mp hk with ⟨statusText, _, hk⟩
  rcases bind_eq_ok.mp hk with ⟨status, _, hk⟩
  rcases bind_eq_ok.mp hk with ⟨profile, _, hk⟩
  rcases of_ite_error hk with ⟨hprofile, hk⟩
  rw [not_not] at hprofile
  rcases bind_eq_ok.mp hk with ⟨receipt, hreceipt, hk⟩
  rcases bind_eq_ok.mp hk with ⟨unsigned, _, hk⟩
  rcases bind_eq_ok.mp hk with ⟨receiptId, _, hk⟩
  rcases bind_eq_ok.mp hk with ⟨workspaceId, _, hk⟩
  rcases bind_eq_ok.mp hk with ⟨metadata, hmetadata, hk⟩
  rcases bind_eq_ok.mp hk with ⟨attemptId, hattempt, hk⟩
  -- the times, and after the fingerprint the error and the URLs
  iterate 2 rcases bind_eq_ok.mp hk with ⟨_, _, hk⟩
  rcases bind_eq_ok.mp hk with ⟨recordSha256, hrecord, hk⟩
  iterate 4 rcases bind_eq_ok.mp hk with ⟨_, _, hk⟩
  cases hk
  refine ⟨hobj, sealStr_eq_ok hattempt, hprofile, sealOptionalStr_eq_ok hrecord,
    sealOptionalDict_eq_ok hreceipt, ?_⟩
  intro signed hsigned
  cases hsigned
  exact signedMetadata_eq_ok hmetadata

/-- A body that is refused is refused by a protocol error, and an accepted delivery with
    a receipt agrees with its claims exactly if the body did in what is not compared. -/
theorem delivery_signed (L : Libs) (hL : ClaimsAreObjects L) (raw : Json) :
    (∀ x, parseDelivery L raw = .error x → IsProtocolError x) ∧
    ∀ d, parseDelivery L raw = .ok d → raw.get "receipt" ≠ .null →
      ∃ receipt claims, d.receipt = some receipt ∧ raw.get "receipt" = receipt ∧
        L.decodeReceipt receipt = .ok claims ∧
        (SignedWins d claims ↔ ProjectionSigned raw claims) := by
  refine ⟨strict_parseDelivery hL raw, ?_⟩
  intro d hd hreceipt
  have hdelivered := delivery_of_ok hd
  cases hsome : d.receipt with
  | none =>
      have hnull := hdelivered.receipt
      rw [hsome] at hnull
      exact absurd hnull hreceipt
  | some receipt =>
      rcases hdelivered.signed receipt hsome with ⟨claims, hclaims, hid, hreceiptId, hworkspace,
        hmetadata⟩
      have hraw := hdelivered.receipt
      rw [hsome] at hraw
      refine ⟨receipt, claims, rfl, hraw, hclaims, ?_⟩
      have hpresent : raw.get "record_sha256" ≠ .null ↔ d.recordSha256 ≠ none := by
        rw [hdelivered.recordSha256]
        cases d.recordSha256 with
        | none => exact iff_of_false (fun h => h rfl) (fun h => h rfl)
        | some s => exact iff_of_true (fun h => by cases h) (fun h => by cases h)
      constructor
      · intro hwins
        refine ⟨?_, ?_⟩
        · intro hrecord hhas
          rw [hdelivered.recordSha256]
          exact hwins.recordSha256 (hpresent.mp hrecord) hhas
        · intro hhas
          rw [← hdelivered.profile]
          exact hwins.profile hhas
      · intro hsigned
        refine ⟨⟨hid, hreceiptId⟩, hworkspace, hmetadata, ?_, ?_⟩
        · intro hrecord hhas
          rw [← hdelivered.recordSha256]
          exact hsigned.1 (hpresent.mpr hrecord) hhas
        · intro hhas
          rw [hdelivered.profile]
          exact hsigned.2 hhas

/-! ### A conflicting delivery -/

/-- The claims in the payload of a receipt. -/
def payloadClaims (receipt : Json) : Except Str Json :=
  match receipt.get "payload" with
  | .str payload =>
    match (Base64.decode .urlsafe (payload ++ Base64.pads payload.length)).bind loadsBytes with
    | some claims => if claims.isObj then .ok claims else .error (lit "claims must be an object")
    | none => .error (lit "malformed payload")
  | _ => .error (lit "malformed receipt")

/-- Outside code that reads the claims of a receipt out of its payload. -/
def payloadLibs : Libs := { sampleLibs with decodeReceipt := payloadClaims }

theorem decodeReceipt_payload (receipt : Json) :
    payloadLibs.decodeReceipt receipt = payloadClaims receipt := rfl

theorem claimsAreObjects_payload : ClaimsAreObjects payloadLibs := by
  intro receipt claims h
  rw [decodeReceipt_payload] at h
  unfold payloadClaims at h
  split at h
  · split at h
    · split at h
      · next hobj =>
          cases h
          exact hobj
      · cases h
    · cases h
  · cases h

/-- A receipt with these claims. -/
def receiptOf (claims : Json) : Json :=
  .ofList [("protected", .str (lit "e30")),
    ("payload", .str (Base64.encodeBare .urlsafe ((jsonBytes claims).toOption.getD []))),
    ("signature", .str (lit "c2ln"))]

def deliveryClaims : Json :=
  .ofList [("receipt_id", .str (lit "rcp_1")), ("workspace_id", .str (lit "ws_1")),
    ("context", .ofList [("record_sha256", .str (lit "aa")), ("seal_profile", .str sealProfile)])]

/-- A delivery of that receipt that shows a fingerprint of its own. -/
def deliveryBody (recordSha256 : String) : Json :=
  .ofList [("attempt_id", .str (lit "swd_1")), ("workspace_id", .str (lit "ws_1")),
    ("status", .str (lit "sealed")), ("received_at", .str (lit "t")), ("updated_at", .str (lit "t")),
    ("profile", .str sealProfile), ("record_sha256", .str (lit recordSha256)),
    ("receipt_id", .str (lit "rcp_1")), ("status_url", .str (lit "u")), ("keys_url", .str (lit "k")),
    ("receipt", receiptOf deliveryClaims)]

theorem delivery_signed_sample :
    (parseDelivery payloadLibs (deliveryBody "aa")).toOption.isSome = true ∧
    (∀ x, parseDelivery payloadLibs (deliveryBody "aa") = .error x → IsProtocolError x) ∧
    ∀ d, parseDelivery payloadLibs (deliveryBody "aa") = .ok d →
      (deliveryBody "aa").get "receipt" ≠ .null →
      ∃ receipt claims, d.receipt = some receipt ∧ (deliveryBody "aa").get "receipt" = receipt ∧
        payloadLibs.decodeReceipt receipt = .ok claims ∧
        (SignedWins d claims ↔ ProjectionSigned (deliveryBody "aa") claims) :=
  ⟨by decide +kernel, delivery_signed payloadLibs claimsAreObjects_payload (deliveryBody "aa")⟩

/-- A fingerprint that was not signed stands beside a receipt. -/
theorem fingerprint_not_compared : ∃ d receipt claims,
    parseDelivery payloadLibs (deliveryBody "bb") = .ok d ∧ d.receipt = some receipt ∧
    payloadLibs.decodeReceipt receipt = .ok claims ∧ ¬ SignedWins d claims := by
  have hsome : (parseDelivery payloadLibs (deliveryBody "bb")).toOption.isSome = true := by
    decide +kernel
  rcases Option.isSome_iff_exists.mp hsome with ⟨d, hd⟩
  have hok := ok_of_toOption hd
  have hdelivered := delivery_of_ok hok
  have hreceipt : d.receipt = some (receiptOf deliveryClaims) := by
    have hraw := hdelivered.receipt
    cases hnone : d.receipt with
    | none =>
        rw [hnone] at hraw
        cases hraw
    | some receipt =>
        rw [hnone] at hraw
        exact congrArg some hraw.symm
  have hpayload : (payloadClaims (receiptOf deliveryClaims)).toOption = some deliveryClaims := by
    decide +kernel
  have hclaims : payloadLibs.decodeReceipt (receiptOf deliveryClaims) = .ok deliveryClaims := by
    rw [decodeReceipt_payload]
    exact ok_of_toOption hpayload
  refine ⟨d, _, _, hok, hreceipt, hclaims, ?_⟩
  intro hwins
  have hrecord : optionText d.recordSha256 = .str (lit "bb") := hdelivered.recordSha256.symm
  have hpresent : d.recordSha256 ≠ none := by
    intro hnone
    rw [hnone] at hrecord
    exact absurd hrecord (by decide)
  have hsigned := hwins.recordSha256 hpresent (by decide)
  rw [hrecord] at hsigned
  exact absurd hsigned (by decide)

end Allowly

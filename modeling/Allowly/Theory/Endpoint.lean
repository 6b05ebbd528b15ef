import Allowly.Core.Endpoint
import Allowly.Theory.Contract
import Allowly.Theory.Notification

/-!
# The Resolution Webhook Endpoint

The answers about the endpoint are accepted exactly when they are what the contract says, and
refused with `AllowlyProtocolError` otherwise.

A secret that was accepted works: an event that is signed with it, and delivered in time, is
taken for genuine by whoever verifies with that secret. So a rotation never hands out a secret
with which nothing can be verified.

## Main definitions

* `DescribesConfig`, `DescribesSecret`, `DescribesDelivery`: What the answers say.
* `signedDelivery`: The headers of a delivery that is signed with a secret.

## Theorems

* `parseConfig_eq_ok`, `parseSecret_eq_ok`, `parseDeliveries_eq_ok`: What is accepted.
* `endpoint_exact`: What is accepted, and how the rest is refused.
* `secret_verifies`: What is signed with the secret is verified with it.
-/

namespace Allowly

open Py

variable {L : Libs}

/-! ### Members -/

/-- A member is text within its bounds. -/
def IsText (raw : Json) (key : String) (s : Str) : Prop :=
  raw.get key = .str s ∧ s ≠ [] ∧ s.length ≤ 2048

/-- A member is a time with a zone. -/
def IsTime (L : Libs) (raw : Json) (key : String) (t : Str) : Prop :=
  raw.get key = .str t ∧ t.length ≤ 2048 ∧ timestampValid L t = true

/-- A member is null, or what it should be. -/
def OrNull (raw : Json) (key : String) (is : Str → Prop) : Option Str → Prop
  | none => raw.get key = .null
  | some s => is s

theorem nullableString_eq_ok {raw : Json} {key : String} {v : Option Str}
    (hk : raw.has key = true) :
    nullableString raw key = .ok v ↔ OrNull raw key (IsText raw key) v := by
  rw [nullableString, if_neg (by rw [hk]; decide)]
  by_cases hnull : raw.get key = .null
  · rw [if_pos hnull]
    cases v with
    | none => exact iff_of_true rfl hnull
    | some s =>
        refine iff_of_false (fun h => by cases h) ?_
        intro h
        rw [OrNull, IsText, hnull] at h
        cases h.1
  · rw [if_neg hnull]
    cases v with
    | none =>
        refine iff_of_false ?_ hnull
        intro h
        rcases map_eq_ok.mp h with ⟨_, _, h⟩
        cases h
    | some s =>
        rw [map_eq_ok, OrNull, IsText, ← boundedString_eq_ok]
        constructor
        · rintro ⟨t, ht, hts⟩
          cases hts
          exact ht
        · exact fun h => ⟨s, h, rfl⟩

theorem IsTime.text {raw : Json} {key : String} {t : Str} (h : IsTime L raw key t) :
    IsText raw key t := by
  refine ⟨h.1, ?_, h.2.1⟩
  intro hnil
  rw [hnil] at h
  cases h.2.2

theorem nullableTimestamp_eq_ok {raw : Json} {key : String} {v : Option Str}
    (hk : raw.has key = true) :
    nullableTimestamp L raw key = .ok v ↔ OrNull raw key (IsTime L raw key) v := by
  rw [nullableTimestamp, bind_eq_ok]
  constructor
  · rintro ⟨w, hw, h⟩
    have hw := (nullableString_eq_ok hk).mp hw
    cases w with
    | none =>
        cases h
        exact hw
    | some s =>
        rcases map_eq_ok.mp h with ⟨t, ht, rfl⟩
        exact timestampOf_eq_ok.mp ht
  · intro h
    cases v with
    | none => exact ⟨none, (nullableString_eq_ok hk).mpr h, rfl⟩
    | some t =>
        have ht : IsTime L raw key t := h
        refine ⟨some t, (nullableString_eq_ok hk).mpr ht.text, ?_⟩
        exact map_eq_ok.mpr ⟨t, timestampOf_eq_ok.mpr ht, rfl⟩

/-! ### The configuration -/

/-- The version counts from one, if there is one. -/
def IsVersion (raw : Json) : Option Int → Prop
  | none => raw.get "credential_version" = .null
  | some n => raw.get "credential_version" = .int n ∧ 1 ≤ n

theorem versionOf_eq_ok {raw : Json} {v : Option Int} :
    versionOf (raw.get "credential_version") = .ok v ↔ IsVersion raw v := by
  unfold versionOf IsVersion
  cases hraw : raw.get "credential_version" with
  | null =>
      cases v with
      | none => exact iff_of_true rfl rfl
      | some n => exact iff_of_false (fun h => by cases h) fun h => by cases h.1
  | int m =>
      simp only
      by_cases hm : m < 1
      · rw [if_pos hm]
        cases v with
        | none => exact iff_of_false (fun h => by cases h) fun h => by cases h
        | some n =>
            refine iff_of_false (fun h => by cases h) ?_
            rintro ⟨hn, hle⟩
            cases hn
            omega
      · rw [if_neg hm]
        cases v with
        | none => exact iff_of_false (fun h => by cases h) fun h => by cases h
        | some n =>
            simp only [Except.ok.injEq, Option.some.injEq, Json.int.injEq]
            omega
  | _ =>
      cases v with
      | none => exact iff_of_false (fun h => by cases h) fun h => by cases h
      | some n => exact iff_of_false (fun h => by cases h) fun h => by cases h.1

theorem enabledOf_eq_ok {value : Json} {b : Bool} : enabledOf value = .ok b ↔ value = .bool b := by
  unfold enabledOf
  cases value with
  | bool c => simp only [Except.ok.injEq, Json.bool.injEq]
  | _ => exact iff_of_false (fun h => by cases h) fun h => by cases h

/-- Everything is configured or nothing is. -/
def Whole (c : ResolutionWebhookConfig) : Prop :=
  (c.endpointId = none → c.enabled = false ∧ c.url = none ∧ c.credentialVersion = none ∧
    c.createdAt = none ∧ c.updatedAt = none) ∧
  (c.endpointId ≠ none → c.url ≠ none ∧ c.credentialVersion ≠ none ∧ c.createdAt ≠ none ∧
    c.updatedAt ≠ none)

theorem checkConfig_eq_ok {c d : ResolutionWebhookConfig} :
    checkConfig c = .ok d ↔ d = c ∧ Whole c := by
  unfold checkConfig Whole
  cases hid : c.endpointId with
  | none =>
      simp only [ite_error_eq_ok, protocolError, Except.ok.injEq, not_or, ne_eq, not_not,
        not_true_eq_false, false_implies, and_true, true_implies, Bool.not_eq_true]
      exact ⟨fun h => ⟨h.2.symm, h.1⟩, fun h => ⟨h.2, h.1.symm⟩⟩
  | some id =>
      simp only [ite_error_eq_ok, protocolError, Except.ok.injEq, not_or, ne_eq, reduceCtorEq,
        false_implies, true_and, not_false_eq_true, true_implies]
      exact ⟨fun h => ⟨h.2.symm, h.1⟩, fun h => ⟨h.2, h.1.symm⟩⟩

/-- What an answer says about the endpoint. -/
structure DescribesConfig (L : Libs) (raw : Json) (c : ResolutionWebhookConfig) : Prop where
  members : HasKeys raw configKeys
  workspaceId : IsText raw "workspace_id" c.workspaceId
  endpointId : OrNull raw "endpoint_id" (IsText raw "endpoint_id") c.endpointId
  url : OrNull raw "url" (IsText raw "url") c.url
  enabled : raw.get "enabled" = .bool c.enabled
  credentialVersion : IsVersion raw c.credentialVersion
  createdAt : OrNull raw "created_at" (IsTime L raw "created_at") c.createdAt
  updatedAt : OrNull raw "updated_at" (IsTime L raw "updated_at") c.updatedAt
  whole : Whole c

theorem parseConfig_eq_ok {raw : Json} {c : ResolutionWebhookConfig} :
    parseConfig L raw = .ok c ↔ DescribesConfig L raw c := by
  constructor
  · intro h
    rcases bind_eq_ok.mp h with ⟨body, hbody, hk⟩
    rcases recordOf_eq_ok.mp hbody with ⟨rfl, hkeys⟩
    rcases bind_eq_ok.mp hk with ⟨enabled, henabled, hk⟩
    rcases bind_eq_ok.mp hk with ⟨version, hversion, hk⟩
    rcases bind_eq_ok.mp hk with ⟨workspaceId, hworkspace, hk⟩
    rcases bind_eq_ok.mp hk with ⟨endpointId, hendpoint, hk⟩
    rcases bind_eq_ok.mp hk with ⟨url, hurl, hk⟩
    rcases bind_eq_ok.mp hk with ⟨createdAt, hcreated, hk⟩
    rcases bind_eq_ok.mp hk with ⟨updatedAt, hupdated, hk⟩
    rcases checkConfig_eq_ok.mp hk with ⟨rfl, hwhole⟩
    have hhas := hkeys.2.1
    exact ⟨hkeys, boundedString_eq_ok.mp hworkspace,
      (nullableString_eq_ok (hhas _ (by decide))).mp hendpoint,
      (nullableString_eq_ok (hhas _ (by decide))).mp hurl, enabledOf_eq_ok.mp henabled,
      versionOf_eq_ok.mp hversion, (nullableTimestamp_eq_ok (hhas _ (by decide))).mp hcreated,
      (nullableTimestamp_eq_ok (hhas _ (by decide))).mp hupdated, hwhole⟩
  · intro h
    have hhas := h.members.2.1
    refine bind_eq_ok.mpr ⟨raw, recordOf_eq_ok.mpr ⟨rfl, h.members⟩, ?_⟩
    refine bind_eq_ok.mpr ⟨_, enabledOf_eq_ok.mpr h.enabled, ?_⟩
    refine bind_eq_ok.mpr ⟨_, versionOf_eq_ok.mpr h.credentialVersion, ?_⟩
    refine bind_eq_ok.mpr ⟨_, boundedString_eq_ok.mpr h.workspaceId, ?_⟩
    refine bind_eq_ok.mpr ⟨_, (nullableString_eq_ok (hhas _ (by decide))).mpr h.endpointId, ?_⟩
    refine bind_eq_ok.mpr ⟨_, (nullableString_eq_ok (hhas _ (by decide))).mpr h.url, ?_⟩
    refine bind_eq_ok.mpr ⟨_, (nullableTimestamp_eq_ok (hhas _ (by decide))).mpr h.createdAt, ?_⟩
    refine bind_eq_ok.mpr ⟨_, (nullableTimestamp_eq_ok (hhas _ (by decide))).mpr h.updatedAt, ?_⟩
    exact checkConfig_eq_ok.mpr ⟨rfl, h.whole⟩

/-! ### The secret -/

/-- What an answer says that carries a secret: beside a configured endpoint, the encoding of
    32 octets. -/
structure DescribesSecret (L : Libs) (raw : Json) (s : ResolutionWebhookSecret) : Prop where
  present : raw.has "signing_secret" = true
  signingSecret : IsText raw "signing_secret" s.signingSecret
  key : ∃ key : Bytes, key.length = 32 ∧
    s.signingSecret = secretStart ++ Base64.encode .standard key
  config : DescribesConfig L (withoutMember raw "signing_secret") s.toResolutionWebhookConfig
  configured : s.endpointId ≠ none

theorem parseSecret_eq_ok {raw : Json} {s : ResolutionWebhookSecret} :
    parseSecret L raw = .ok s ↔ DescribesSecret L raw s := by
  constructor
  · intro h
    rcases of_ite_error h with ⟨hhas, hk⟩
    rw [Bool.not_eq_false] at hhas
    rcases bind_eq_ok.mp hk with ⟨secret, hsecret, hk⟩
    rcases bind_eq_ok.mp hk with ⟨key, hkey, hk⟩
    rcases bind_eq_ok.mp hk with ⟨config, hconfig, hk⟩
    rcases of_ite_error hk with ⟨hid, hk⟩
    cases hk
    exact ⟨hhas, boundedString_eq_ok.mp hsecret, ⟨key, signingKey_eq_ok.mp hkey⟩,
      parseConfig_eq_ok.mp hconfig, hid⟩
  · intro h
    rcases h.key with ⟨key, hkey⟩
    rw [parseSecret, if_neg (by rw [h.present]; decide)]
    refine bind_eq_ok.mpr ⟨_, boundedString_eq_ok.mpr h.signingSecret, ?_⟩
    refine bind_eq_ok.mpr ⟨key, signingKey_eq_ok.mpr hkey, ?_⟩
    refine bind_eq_ok.mpr ⟨_, parseConfig_eq_ok.mpr h.config, ?_⟩
    rw [if_neg h.configured]
    rfl

/-! ### The deliveries -/

/-- What an answer says about one delivery. -/
structure DescribesDelivery (L : Libs) (raw : Json) (d : ResolutionWebhookDelivery) : Prop where
  members : HasKeys raw deliveryKeys
  eventId : IsId raw "event_id" "evt_" d.eventId
  eventType : raw.get "event_type" = .str d.eventType.text
  status : raw.get "status" = .str d.status.text
  attempts : raw.get "attempts" = .int d.attempts ∧ 0 ≤ d.attempts
  createdAt : IsTime L raw "created_at" d.createdAt
  deliveredAt : OrNull raw "delivered_at" (IsTime L raw "delivered_at") d.deliveredAt
  /-- It was delivered at some time if and only if it was delivered. -/
  settled : d.status = .delivered ↔ d.deliveredAt ≠ none
  lastError : OrNull raw "last_error" (IsText raw "last_error") d.lastError
  known : knownError d.lastError = true

theorem attemptsOf_eq_ok {value : Json} {n : Int} :
    attemptsOf value = .ok n ↔ value = .int n ∧ 0 ≤ n := by
  unfold attemptsOf
  cases value with
  | int m =>
      simp only [ite_error_eq_ok, protocolError, Except.ok.injEq, Json.int.injEq]
      omega
  | _ => exact iff_of_false (fun h => by cases h) fun h => by cases h.1

/-- The status is found by its text. -/
theorem find_status {text : Str} {s : DeliveryStatus} :
    ([DeliveryStatus.pending, .delivered, .failed, .cancelled].find? fun s => s.text == text) =
      some s ↔ s.text = text := by
  constructor
  · intro h
    have htext := List.find?_some h
    rw [beq_iff_eq] at htext
    exact htext
  · rintro rfl
    cases s <;> decide

theorem text_fits (s : DeliveryStatus) : s.text ≠ [] ∧ s.text.length ≤ 2048 := by
  cases s <;> decide

theorem settled_iff {s : DeliveryStatus} {at_ : Option Str} :
    ¬ decide (s = .delivered) ≠ at_.isSome ↔ (s = .delivered ↔ at_ ≠ none) := by
  rw [not_not, ← Option.isSome_iff_ne_none]
  by_cases hs : s = .delivered
  · rw [decide_eq_true hs]
    exact ⟨fun h => iff_of_true hs h.symm, fun h => (h.mp hs).symm⟩
  · rw [decide_eq_false hs]
    constructor
    · intro h
      exact iff_of_false hs (by rw [← h]; decide)
    · intro h
      exact (Bool.eq_false_iff.mpr fun hsome => hs (h.mpr hsome)).symm

theorem parseWebhookDelivery_eq_ok {raw : Json} {d : ResolutionWebhookDelivery} :
    parseWebhookDelivery L raw = .ok d ↔ DescribesDelivery L raw d := by
  constructor
  · intro h
    rcases bind_eq_ok.mp h with ⟨body, hbody, hk⟩
    rcases recordOf_eq_ok.mp hbody with ⟨rfl, hkeys⟩
    rcases bind_eq_ok.mp hk with ⟨text, htext, hk⟩
    split at hk
    · cases hk
    · next status hstatus =>
        rcases bind_eq_ok.mp hk with ⟨attempts, hattempts, hk⟩
        rcases bind_eq_ok.mp hk with ⟨lastError, herror, hk⟩
        rcases of_ite_error hk with ⟨hknown, hk⟩
        rcases bind_eq_ok.mp hk with ⟨deliveredAt, hdelivered, hk⟩
        rcases of_ite_error hk with ⟨hsettled, hk⟩
        rcases bind_eq_ok.mp hk with ⟨eventId, hid, hk⟩
        rcases bind_eq_ok.mp hk with ⟨eventType, htype, hk⟩
        rcases bind_eq_ok.mp hk with ⟨createdAt, hcreated, hk⟩
        cases hk
        have hhas := hkeys.2.1
        refine ⟨hkeys, identifierOf_eq_ok.mp hid, eventTypeOf_eq_ok.mp htype, ?_,
          attemptsOf_eq_ok.mp hattempts, timestampOf_eq_ok.mp hcreated,
          (nullableTimestamp_eq_ok (hhas _ (by decide))).mp hdelivered, settled_iff.mp hsettled,
          (nullableString_eq_ok (hhas _ (by decide))).mp herror, Bool.not_eq_false _ ▸ hknown⟩
        rw [find_status.mp hstatus]
        exact (boundedString_eq_ok.mp htext).1
  · intro h
    have hhas := h.members.2.1
    refine bind_eq_ok.mpr ⟨raw, recordOf_eq_ok.mpr ⟨rfl, h.members⟩, ?_⟩
    refine bind_eq_ok.mpr ⟨_, boundedString_eq_ok.mpr ⟨h.status, text_fits d.status⟩, ?_⟩
    rw [find_status.mpr rfl]
    refine bind_eq_ok.mpr ⟨_, attemptsOf_eq_ok.mpr h.attempts, ?_⟩
    refine bind_eq_ok.mpr ⟨_, (nullableString_eq_ok (hhas _ (by decide))).mpr h.lastError, ?_⟩
    rw [if_neg (by rw [h.known]; decide)]
    refine bind_eq_ok.mpr ⟨_, (nullableTimestamp_eq_ok (hhas _ (by decide))).mpr h.deliveredAt, ?_⟩
    rw [if_neg (settled_iff.mpr h.settled)]
    refine bind_eq_ok.mpr ⟨_, identifierOf_eq_ok.mpr h.eventId, ?_⟩
    refine bind_eq_ok.mpr ⟨_, eventTypeOf_eq_ok.mpr h.eventType, ?_⟩
    exact bind_eq_ok.mpr ⟨_, timestampOf_eq_ok.mpr h.createdAt, rfl⟩

/-- A list is parsed item by item. -/
theorem mapM_eq_ok {A B : Type} {f : A → Except Exc B} {xs : List A} {ys : List B} :
    xs.mapM f = .ok ys ↔ List.Forall₂ (fun x y => f x = .ok y) xs ys := by
  induction xs generalizing ys with
  | nil =>
      rw [List.mapM_nil, List.forall₂_nil_left_iff]
      exact ⟨fun h => by cases h; rfl, fun h => by rw [h]; rfl⟩
  | cons x xs ih =>
      rw [List.mapM_cons, List.forall₂_cons_left_iff]
      constructor
      · intro h
        rcases bind_eq_ok.mp h with ⟨y, hy, hk⟩
        rcases bind_eq_ok.mp hk with ⟨zs, hzs, hk⟩
        cases hk
        exact ⟨y, zs, hy, ih.mp hzs, rfl⟩
      · rintro ⟨y, zs, hy, hzs, rfl⟩
        exact bind_eq_ok.mpr ⟨y, hy, bind_eq_ok.mpr ⟨zs, ih.mpr hzs, rfl⟩⟩

/-- What an answer says about the last deliveries. -/
structure DescribesDeliveries (L : Libs) (raw : Json) (ds : List ResolutionWebhookDelivery) :
    Prop where
  members : HasKeys raw ["items"]
  items : ∃ items, raw.get "items" = .arr items ∧ items.length ≤ 20 ∧
    List.Forall₂ (DescribesDelivery L) items ds

theorem parseDeliveries_eq_ok {raw : Json} {ds : List ResolutionWebhookDelivery} :
    parseDeliveries L raw = .ok ds ↔ DescribesDeliveries L raw ds := by
  have hitems (items : List Json) : items.mapM (parseWebhookDelivery L) = .ok ds ↔
      List.Forall₂ (DescribesDelivery L) items ds := by
    rw [mapM_eq_ok]
    simp only [parseWebhookDelivery_eq_ok]
  constructor
  · intro h
    rcases bind_eq_ok.mp h with ⟨body, hbody, hk⟩
    rcases recordOf_eq_ok.mp hbody with ⟨rfl, hkeys⟩
    split at hk
    · next items heq =>
        rcases of_ite_error hk with ⟨hlen, hk⟩
        exact ⟨hkeys, items, heq, Nat.not_lt.mp hlen, (hitems items).mp hk⟩
    · cases hk
  · intro h
    rcases h.items with ⟨items, heq, hlen, hall⟩
    refine bind_eq_ok.mpr ⟨raw, recordOf_eq_ok.mpr ⟨rfl, h.members⟩, ?_⟩
    rw [heq]
    simp only
    rw [if_neg (Nat.not_lt.mpr hlen)]
    exact (hitems items).mpr hall

/-! ### How the rest is refused -/

theorem strict_recordOf (value : Json) (keys : List String) : Strict (recordOf value keys) :=
  strict_ite (fun _ => strict_ok _) fun _ => strict_protocolError _ _

theorem strict_boundedString (raw : Json) (key : String) : Strict (boundedString raw key) := by
  unfold boundedString
  split
  · exact strict_check fun _ => strict_ok _
  · exact strict_protocolError _ _

theorem strict_nullableString (raw : Json) (key : String) : Strict (nullableString raw key) :=
  strict_check fun _ => strict_ite (fun _ => strict_ok _) fun _ =>
    strict_map (strict_boundedString _ _) _

theorem strict_identifierOf (raw : Json) (key start : String) :
    Strict (identifierOf raw key start) :=
  strict_bind (strict_boundedString _ _) fun _ _ => strict_check fun _ => strict_ok _

theorem strict_timestampOf (raw : Json) (key : String) : Strict (timestampOf L raw key) :=
  strict_bind (strict_boundedString _ _) fun _ _ =>
    strict_ite (fun _ => strict_ok _) fun _ => strict_protocolError _ _

theorem strict_nullableTimestamp (raw : Json) (key : String) :
    Strict (nullableTimestamp L raw key) := by
  refine strict_bind (strict_nullableString _ _) fun value _ => ?_
  cases value with
  | none => exact strict_ok _
  | some _ => exact strict_map (strict_timestampOf _ _) _

theorem strict_eventTypeOf (raw : Json) (key : String) : Strict (eventTypeOf raw key) := by
  refine strict_bind (strict_boundedString _ _) fun _ _ => ?_
  split
  · exact strict_ok _
  · exact strict_protocolError _ _

theorem strict_base64Of32 (value : Str) : Strict (base64Of32 value) := by
  refine strict_check fun _ => ?_
  split
  · exact strict_protocolError _ _
  · exact strict_check fun _ => strict_ok _

theorem strict_signingKey (secret : Str) : Strict (signingKey secret) := by
  unfold signingKey
  split
  · exact strict_protocolError _ _
  · exact strict_base64Of32 _

theorem strict_versionOf (value : Json) : Strict (versionOf value) := by
  unfold versionOf
  split
  · exact strict_ok _
  · exact strict_check fun _ => strict_ok _
  · exact strict_protocolError _ _

theorem strict_enabledOf (value : Json) : Strict (enabledOf value) := by
  unfold enabledOf
  split
  · exact strict_ok _
  · exact strict_protocolError _ _

theorem strict_checkConfig (c : ResolutionWebhookConfig) : Strict (checkConfig c) := by
  unfold checkConfig
  split
  · exact strict_check fun _ => strict_ok _
  · exact strict_check fun _ => strict_ok _

theorem strict_parseConfig (raw : Json) : Strict (parseConfig L raw) := by
  refine strict_bind (strict_recordOf _ _) fun _ _ => ?_
  refine strict_bind (strict_enabledOf _) fun _ _ => ?_
  refine strict_bind (strict_versionOf _) fun _ _ => ?_
  refine strict_bind (strict_boundedString _ _) fun _ _ => ?_
  refine strict_bind (strict_nullableString _ _) fun _ _ => ?_
  refine strict_bind (strict_nullableString _ _) fun _ _ => ?_
  refine strict_bind (strict_nullableTimestamp _ _) fun _ _ => ?_
  refine strict_bind (strict_nullableTimestamp _ _) fun _ _ => ?_
  exact strict_checkConfig _

theorem strict_parseSecret (raw : Json) : Strict (parseSecret L raw) := by
  refine strict_check fun _ => ?_
  refine strict_bind (strict_boundedString _ _) fun _ _ => ?_
  refine strict_bind (strict_signingKey _) fun _ _ => ?_
  refine strict_bind (strict_parseConfig _) fun _ _ => ?_
  exact strict_check fun _ => strict_ok _

theorem strict_attemptsOf (value : Json) : Strict (attemptsOf value) := by
  unfold attemptsOf
  split
  · exact strict_check fun _ => strict_ok _
  · exact strict_protocolError _ _

theorem strict_parseWebhookDelivery (raw : Json) : Strict (parseWebhookDelivery L raw) := by
  refine strict_bind (strict_recordOf _ _) fun _ _ => ?_
  refine strict_bind (strict_boundedString _ _) fun _ _ => ?_
  split
  · exact strict_protocolError _ _
  · refine strict_bind (strict_attemptsOf _) fun _ _ => ?_
    refine strict_bind (strict_nullableString _ _) fun _ _ => ?_
    refine strict_check fun _ => ?_
    refine strict_bind (strict_nullableTimestamp _ _) fun _ _ => ?_
    refine strict_check fun _ => ?_
    refine strict_bind (strict_identifierOf _ _ _) fun _ _ => ?_
    refine strict_bind (strict_eventTypeOf _ _) fun _ _ => ?_
    exact strict_bind (strict_timestampOf _ _) fun _ _ => strict_ok _

theorem strict_parseDeliveries (raw : Json) : Strict (parseDeliveries L raw) := by
  refine strict_bind (strict_recordOf _ _) fun _ _ => ?_
  split
  · exact strict_check fun _ => strict_mapM strict_parseWebhookDelivery _
  · exact strict_protocolError _ _

/-- An answer about the endpoint is accepted if and only if it is what the contract says, and
    what is not is a protocol error. -/
theorem endpoint_exact (L : Libs) (raw : Json) :
    ((∀ c, parseConfig L raw = .ok c ↔ DescribesConfig L raw c) ∧
      (∀ s, parseSecret L raw = .ok s ↔ DescribesSecret L raw s) ∧
        ∀ ds, parseDeliveries L raw = .ok ds ↔ DescribesDeliveries L raw ds) ∧
      Strict (parseConfig L raw) ∧ Strict (parseSecret L raw) ∧ Strict (parseDeliveries L raw) :=
  ⟨⟨fun _ => parseConfig_eq_ok, fun _ => parseSecret_eq_ok, fun _ => parseDeliveries_eq_ok⟩,
    strict_parseConfig raw, strict_parseSecret raw, strict_parseDeliveries raw⟩

/-! ### What is signed with the secret -/

/-- The tokens of a header, as one text. -/
def joinSpace : List Str → Str
  | [] => []
  | token :: tokens => token ++ tokens.flatMap fun t => 32 :: t

/-- A field with nothing of a space in it is read to its end. -/
theorem splitSpaceFrom_append {token : Str} (ht : ∀ c ∈ token, isSpace c = false) (s field : Str) :
    splitSpaceFrom (token ++ s) field = splitSpaceFrom s (token.reverse ++ field) := by
  induction token generalizing field with
  | nil => rfl
  | cons c token ih =>
      rw [List.forall_mem_cons] at ht
      rw [List.cons_append, splitSpaceFrom, if_neg (by rw [ht.1]; decide), ih ht.2,
        List.reverse_cons, List.append_assoc, List.singleton_append]

/-- Tokens that are joined are split again. -/
theorem splitSpace_joinSpace {tokens : List Str}
    (ht : ∀ t ∈ tokens, t ≠ [] ∧ ∀ c ∈ t, isSpace c = false) :
    splitSpace (joinSpace tokens) = tokens := by
  have hrest : ∀ (tokens : List Str) (field : Str), field ≠ [] →
      (∀ t ∈ tokens, t ≠ [] ∧ ∀ c ∈ t, isSpace c = false) →
        splitSpaceFrom (tokens.flatMap fun t => 32 :: t) field = field.reverse :: tokens := by
    intro tokens
    induction tokens with
    | nil =>
        intro field hf _
        rw [List.flatMap_nil, splitSpaceFrom, if_neg hf]
    | cons t tokens ih =>
        intro field hf ht
        rw [List.forall_mem_cons] at ht
        have hspace : isSpace 32 = true := by decide
        rw [List.flatMap_cons, List.cons_append, splitSpaceFrom, if_pos hspace, if_neg hf,
          splitSpaceFrom_append ht.1.2, List.append_nil,
          ih _ (mt List.reverse_eq_nil_iff.mp ht.1.1) ht.2, List.reverse_reverse]
  cases tokens with
  | nil => rfl
  | cons t tokens =>
      rw [List.forall_mem_cons] at ht
      rw [splitSpace, joinSpace, splitSpaceFrom_append ht.1.2, List.append_nil,
        hrest _ _ (mt List.reverse_eq_nil_iff.mp ht.1.1) ht.2, List.reverse_reverse]

/-- The headers of a delivery with these signatures. -/
def signedDelivery (d : Delivery) (signatures : List Bytes) : List HeaderEntry :=
  [(some idHeader, some d.id), (some timestampHeader, some d.timestamp),
    (some signatureHeader, some (joinSpace (signatures.map signatureToken)))]

/-- A token is as long as any other, and of characters that can be printed, none of them a
    space. -/
theorem signatureToken_plain {b : Bytes} (hb : b.length = 32) :
    (signatureToken b).length = 47 ∧
      ∀ c ∈ signatureToken b, isPrintable c = true ∧ isSpace c = false := by
  refine ⟨?_, ?_⟩
  · rw [signatureToken, List.length_append, List.length_cons, (pattern_encode hb).1]
    decide
  · intro c hc
    have hplain : ∀ c, Base64.isSymbol .standard c = true →
        isPrintable c = true ∧ isSpace c = false := by
      intro c hc
      simp only [Base64.isSymbol, Base64.Alphabet.standard, isAlnum, isDigit, isUpper, isLower,
        Bool.or_eq_true, Bool.and_eq_true, decide_eq_true_eq, beq_iff_eq] at hc
      simp only [isPrintable, isSpace, Bool.and_eq_true, Bool.or_eq_false_iff, decide_eq_true_eq,
        Bool.and_eq_false_iff, decide_eq_false_iff_not, beq_eq_false_iff_ne, ne_eq]
      omega
    rw [signatureToken, List.mem_append, List.mem_cons, Base64.encode, List.mem_append] at hc
    rcases hc with hc | rfl | hc | hc
    · have hstart : ∀ c ∈ lit "v1", isPrintable c = true ∧ isSpace c = false := by decide
      exact hstart c hc
    · decide
    · exact hplain c (Base64.isSymbol_encodeBare .standard b c hc)
    · rw [List.eq_of_mem_replicate hc]
      decide

theorem signatureToken_injective {a b : Bytes} (h : signatureToken a = signatureToken b) :
    a = b := by
  have hencoded : Base64.encode .standard a = Base64.encode .standard b :=
    (List.cons.inj (List.append_cancel_left h)).2
  have hdec := Base64.decode_encode .standard a
  rw [hencoded, Base64.decode_encode, Option.some.injEq] at hdec
  exact hdec.symm

theorem tokenForm_signatureToken {b : Bytes} (hb : b.length = 32) :
    TokenForm (signatureToken b) := by
  refine ⟨lit "v1", _, rfl, by decide, by decide, ?_, comma_encode b, fun _ => ⟨b, hb, rfl⟩⟩
  intro hnil
  have hlen := (pattern_encode hb).1
  rw [hnil] at hlen
  cases hlen

/-- The header of up to eight signatures. -/
theorem joinSpace_fits {signatures : List Bytes} (hlen : ∀ b ∈ signatures, b.length = 32)
    (hne : signatures ≠ []) (hcount : signatures.length ≤ 8) :
    ValueFits signatureHeader (joinSpace (signatures.map signatureToken)) := by
  have hrest : ∀ signatures : List Bytes, (∀ b ∈ signatures, b.length = 32) →
      (((signatures.map signatureToken).flatMap fun t => 32 :: t).length =
        48 * signatures.length ∧
        ∀ c ∈ (signatures.map signatureToken).flatMap fun t => 32 :: t,
          isPrintable c = true) := by
    intro signatures
    induction signatures with
    | nil => exact fun _ => ⟨rfl, fun c hc => absurd hc List.not_mem_nil⟩
    | cons b signatures ih =>
        intro h
        rw [List.forall_mem_cons] at h
        rw [List.map_cons, List.flatMap_cons, List.length_append, List.length_cons,
          (signatureToken_plain h.1).1, (ih h.2).1, List.length_cons]
        refine ⟨by omega, ?_⟩
        intro c hc
        rw [List.cons_append, List.mem_cons, List.mem_append] at hc
        rcases hc with rfl | hc | hc
        · decide
        · exact ((signatureToken_plain h.1).2 c hc).1
        · exact (ih h.2).2 c hc
  cases signatures with
  | nil => exact absurd rfl hne
  | cons b signatures =>
      rw [List.forall_mem_cons] at hlen
      rw [List.length_cons] at hcount
      have hlength : (joinSpace ((b :: signatures).map signatureToken)).length =
          47 + 48 * signatures.length := by
        rw [List.map_cons, joinSpace, List.length_append, (signatureToken_plain hlen.1).1,
          (hrest _ hlen.2).1]
      refine ⟨?_, ?_, List.all_eq_true.mpr ?_⟩
      · intro hnil
        rw [hnil, List.length_nil] at hlength
        omega
      · have hlimit : headerLimit signatureHeader = 1024 := rfl
        omega
      · intro c hc
        rw [List.map_cons, joinSpace, List.mem_append] at hc
        rcases hc with hc | hc
        · exact ((signatureToken_plain hlen.1).2 c hc).1
        · exact (hrest _ hlen.2).2 c hc

theorem id_printable {id : Str} (h : hasIdForm (lit "evt_") id = true) :
    id ≠ [] ∧ id.all isPrintable = true := by
  rcases dropWord_start h with ⟨d, rest, rfl, hall⟩
  refine ⟨List.append_ne_nil_of_right_ne_nil _ (List.cons_ne_nil _ _), List.all_eq_true.mpr ?_⟩
  intro c hc
  rcases List.mem_append.mp hc with hc | hc
  · have hstart : ∀ c ∈ lit "evt_", isPrintable c = true := by decide
    exact hstart c hc
  · have hw := List.all_eq_true.mp hall c hc
    simp only [isWordDash, isAlnum, isDigit, isUpper, isLower, Bool.or_eq_true, Bool.and_eq_true,
      decide_eq_true_eq, beq_iff_eq] at hw
    simp only [isPrintable, Bool.and_eq_true, decide_eq_true_eq]
    omega

theorem seconds_printable {t : Str} (h : isSeconds t = true) :
    t ≠ [] ∧ t.length ≤ 12 ∧ t.all isPrintable = true := by
  simp only [isSeconds, Bool.or_eq_true, beq_iff_eq, Bool.and_eq_true, decide_eq_true_eq] at h
  rcases h with rfl | h
  · decide
  · refine ⟨List.ne_nil_of_length_pos h.1.1.2, h.1.2, List.all_eq_true.mpr ?_⟩
    intro c hc
    have hd := List.all_eq_true.mp h.1.1.1 c hc
    simp only [isDigit, Bool.and_eq_true, decide_eq_true_eq] at hd
    simp only [isPrintable, Bool.and_eq_true, decide_eq_true_eq]
    omega

/-- Each of the three headers of a delivery occurs once, whatever other headers there are. -/
theorem once_signedDelivery {d : Delivery} {signatures : List Bytes} {rest : List HeaderEntry}
    (hd : d.Formed) (hid : d.id.length ≤ 128) (hlen : ∀ b ∈ signatures, b.length = 32)
    (hne : signatures ≠ []) (hcount : signatures.length ≤ 8)
    (hrest : ∀ x ∈ rest, entryName L x ∉ signedNames) :
    Once L (signedDelivery d signatures ++ rest) idHeader d.id ∧
      Once L (signedDelivery d signatures ++ rest) timestampHeader d.timestamp ∧
        Once L (signedDelivery d signatures ++ rest) signatureHeader
          (joinSpace (signatures.map signatureToken)) := by
  have hnone : ∀ name ∈ signedNames, rest.filter (fun x => entryName L x == name) = [] := by
    intro name hname
    rw [List.filter_eq_nil_iff]
    intro x hx heq
    rw [beq_iff_eq] at heq
    exact hrest x hx (heq ▸ hname)
  have hi : ∀ v, entryName L (some idHeader, v) = idHeader := fun _ => rfl
  have ht : ∀ v, entryName L (some timestampHeader, v) = timestampHeader := fun _ => rfl
  have hg : ∀ v, entryName L (some signatureHeader, v) = signatureHeader := fun _ => rfl
  have hit : (idHeader == timestampHeader) = false := by decide
  have hig : (idHeader == signatureHeader) = false := by decide
  have htg : (timestampHeader == signatureHeader) = false := by decide
  have hti : (timestampHeader == idHeader) = false := by decide
  have hgi : (signatureHeader == idHeader) = false := by decide
  have hgt : (signatureHeader == timestampHeader) = false := by decide
  have htime := seconds_printable hd.2
  refine ⟨⟨?_, (id_printable hd.1).1, hid, (id_printable hd.1).2⟩,
    ⟨?_, htime.1, ?_, htime.2.2⟩, ?_, joinSpace_fits hlen hne hcount⟩
  · rw [List.filter_append, hnone _ (by decide), signedDelivery]
    simp only [List.filter_cons, List.filter_nil, hi, ht, hg, hti, hgi, beq_self_eq_true, if_true,
      Bool.false_eq_true, if_false, List.append_nil, List.map_cons, List.map_nil]
  · rw [List.filter_append, hnone _ (by decide), signedDelivery]
    simp only [List.filter_cons, List.filter_nil, hi, ht, hg, hit, hgt, beq_self_eq_true, if_true,
      Bool.false_eq_true, if_false, List.append_nil, List.map_cons, List.map_nil]
  · have hlimit : headerLimit timestampHeader = 128 := rfl
    omega
  · rw [List.filter_append, hnone _ (by decide), signedDelivery]
    simp only [List.filter_cons, List.filter_nil, hi, ht, hg, hig, htg, beq_self_eq_true, if_true,
      Bool.false_eq_true, if_false, List.append_nil, List.map_cons, List.map_nil]

/-- With headers that occur once, and a payload that describes the event, the signatures
    decide. -/
theorem verify_of_once {body key : Bytes} {headers : List HeaderEntry} {secret t g ws : Str}
    {now : Float64} {j : Json} {e : ResolutionWebhookEvent}
    (hsize : 1 ≤ body.length ∧ body.length ≤ 16 * 1024) (hws : ws ≠ [])
    (hkey : signingKey secret = .ok key) (hi : Once L headers idHeader e.id)
    (ht : Once L headers timestampHeader t) (hg : Once L headers signatureHeader g)
    (hj : payloadOf body = .ok j) (he : eventOf L j e.id ws = .ok e) :
    verifyResolutionWebhook L body headers secret ws now = .ok e ↔
      Authentic body key e.id t g now := by
  rcases signedHeaders_once.mpr ⟨hi, ht, hg⟩ with ⟨found, hfound, hthree, hid, htime, hsigs⟩
  rw [← authenticate_eq_ok, verifyResolutionWebhook, if_neg (by omega), if_neg hws]
  constructor
  · intro h
    rcases bind_eq_ok.mp h with ⟨key', hkey', hk⟩
    rw [hkey] at hkey'
    cases hkey'
    rcases bind_eq_ok.mp hk with ⟨found', hfound', hk⟩
    rw [hfound] at hfound'
    cases hfound'
    rcases of_ite_error hk with ⟨_, hk⟩
    simp only [hid, htime, hsigs] at hk
    rcases bind_eq_ok.mp hk with ⟨⟨⟩, hauth, _⟩
    exact hauth
  · intro hauth
    refine bind_eq_ok.mpr ⟨key, hkey, ?_⟩
    refine bind_eq_ok.mpr ⟨found, hfound, ?_⟩
    rw [if_neg (not_not.mpr hthree)]
    simp only [hid, htime, hsigs]
    refine bind_eq_ok.mpr ⟨(), hauth, ?_⟩
    exact bind_eq_ok.mpr ⟨j, hj, he⟩

/-- With a secret that was handed out, a delivery of its workspace is taken for genuine if
    and only if one of its signatures is made with that secret, whatever the others are. -/
theorem secret_verifies (L : Libs) (raw : Json) (s : ResolutionWebhookSecret) (d : Delivery)
    (signatures : List Bytes) (rest : List HeaderEntry) (now : Float64) (text : Str) (j : Json)
    (e : ResolutionWebhookEvent) (hs : parseSecret L raw = .ok s) (hd : d.Formed)
    (hid : d.id.length ≤ 128) (hsize : 1 ≤ d.body.length ∧ d.body.length ≤ 16 * 1024)
    (hnear : Near now (digitsVal d.timestamp)) (hlen : ∀ b ∈ signatures, b.length = 32)
    (hne : signatures ≠ []) (hcount : signatures.length ≤ 8)
    (hrest : ∀ x ∈ rest, entryName L x ∉ signedNames) (htext : encode text = some d.body)
    (hj : TextOf false j text) (hunique : j.WellFormed) (he : DescribesEvent L j e)
    (heid : e.id = d.id) (hews : e.workspaceId = s.workspaceId) :
    ∃ key, signingKey s.signingSecret = .ok key ∧
      (verifyResolutionWebhook L d.body (signedDelivery d signatures ++ rest) s.signingSecret
        s.workspaceId now = .ok e ↔ hmac key d.content ∈ signatures) := by
  have hsecret := parseSecret_eq_ok.mp hs
  rcases hsecret.key with ⟨key, hkey⟩
  have hsigning := signingKey_eq_ok.mpr hkey
  refine ⟨key, hsigning, ?_⟩
  rcases once_signedDelivery hd hid hlen hne hcount hrest with ⟨hi, ht, hg⟩
  rw [← heid] at hi
  rw [verify_of_once hsize hsecret.config.workspaceId.2.1 hsigning hi ht hg
    (payloadOf_eq_ok.mpr ⟨text, htext, hj, hunique⟩) (eventOf_eq_ok.mpr ⟨he, rfl, hews⟩), heid]
  have hsplit : splitSpace (joinSpace (signatures.map signatureToken)) =
      signatures.map signatureToken := by
    refine splitSpace_joinSpace ?_
    intro t ht
    rcases List.mem_map.mp ht with ⟨b, hb, rfl⟩
    have hplain := signatureToken_plain (hlen b hb)
    exact ⟨List.ne_nil_of_length_pos (by omega), fun c hc => (hplain.2 c hc).2⟩
  constructor
  · intro hauth
    have hsigned := hauth.signed
    rw [hsplit] at hsigned
    rcases List.mem_map.mp hsigned with ⟨b, hb, heq⟩
    rw [Delivery.content, ← signatureToken_injective heq]
    exact hb
  · intro hmem
    refine ⟨hd, hnear, ?_, ?_, ?_⟩
    · rw [hsplit, List.length_map]
      exact ⟨List.length_pos_iff.mpr hne, hcount⟩
    · rw [hsplit]
      intro t ht
      rcases List.mem_map.mp ht with ⟨b, hb, rfl⟩
      exact tokenForm_signatureToken (hlen b hb)
    · rw [hsplit]
      exact List.mem_map.mpr ⟨_, hmem, rfl⟩

/-- A secret that is handed out. -/
def handedOut : Json :=
  .obj [(lit "workspace_id", .str (lit "ws_1")), (lit "endpoint_id", .str (lit "end_1")),
    (lit "url", .str (lit "https://example.com")), (lit "enabled", .bool true),
    (lit "credential_version", .int 2), (lit "created_at", .str (lit "2026-01-01T00:00:00Z")),
    (lit "updated_at", .str (lit "2026-01-01T00:00:00Z")),
    (lit "signing_secret", .str (secretStart ++ Base64.encode .standard lateKey))]

def lateDelivery : Delivery := ⟨lit "evt_1", lit "301", lateBody⟩

theorem secret_sample : ∃ (s : ResolutionWebhookSecret) (e : ResolutionWebhookEvent) (key : Bytes),
    parseSecret sampleLibs handedOut = .ok s ∧ signingKey s.signingSecret = .ok key ∧
      (verifyResolutionWebhook sampleLibs lateBody
        (signedDelivery lateDelivery [List.replicate 32 1, hmac lateKey lateDelivery.content] ++
          [(some (lit "Content-Type"), none)]) s.signingSecret s.workspaceId lateNow = .ok e ↔
        hmac key lateDelivery.content ∈
          [List.replicate 32 1, hmac lateKey lateDelivery.content]) := by
  have hs : ((parseSecret sampleLibs handedOut).toOption.map fun s => s.workspaceId) =
      some (lit "ws_1") := by
    decide +kernel
  rcases Option.map_eq_some_iff.mp hs with ⟨s, hs, hws⟩
  have hpayload : (payloadOf lateBody >>= fun j => eventOf sampleLibs j (lit "evt_1")
      (lit "ws_1")).toOption.isSome = true := by
    decide +kernel
  rcases Option.isSome_iff_exists.mp hpayload with ⟨e, he⟩
  rcases bind_eq_ok.mp (ok_of_toOption he) with ⟨j, hj, he⟩
  rcases payloadOf_eq_ok.mp hj with ⟨text, htext, hjson, hunique⟩
  rcases eventOf_eq_ok.mp he with ⟨hdescribes, hid, hexpected⟩
  have hnear : Near lateNow (digitsVal lateDelivery.timestamp) := by
    have hseconds : digitsVal lateDelivery.timestamp = 301 := by decide
    rw [hseconds]
    exact ⟨_, rfl, by norm_num [dyadic]⟩
  have hlen : ∀ b ∈ [List.replicate 32 1, hmac lateKey lateDelivery.content], b.length = 32 := by
    intro b hb
    rw [List.mem_cons, List.mem_singleton] at hb
    rcases hb with rfl | rfl
    · exact List.length_replicate
    · exact length_hmac _ _
  rcases secret_verifies sampleLibs handedOut s lateDelivery
    [List.replicate 32 1, hmac lateKey lateDelivery.content] [(some (lit "Content-Type"), none)]
    lateNow text j e (ok_of_toOption hs) ⟨by decide, by decide⟩ (by decide) (by decide +kernel)
    hnear hlen (List.cons_ne_nil _ _) (by simp) (by decide +kernel) htext hjson hunique hdescribes
    hid (hexpected.trans hws.symm) with ⟨key, hkey, hiff⟩
  exact ⟨s, e, key, ok_of_toOption hs, hkey, hiff⟩

end Allowly

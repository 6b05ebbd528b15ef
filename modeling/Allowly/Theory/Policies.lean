import Allowly.Core.Policies
import Allowly.Theory.Permission
import Allowly.Theory.Scenario

/-!
# What a Published Policy Commits To

A definition is taken through its canonical form, put into one body with the fields around
it, taken out of the body again and hashed. The fields do not get in its way, as long as the
package lets no definition have members of their names, and so the digest an answer is
compared with is that of the definition the caller has given.

The digest in the answer to `create` is only compared with the definition beside it, and that
definition with the one that was sent. For Python these two are equal when one has `1` where
the other has `True`.

## Main definitions

* `SameDict`: Two objects with the same members, in any order.
* `PackageFacts`: What is relied on.
* `Submitted`: The body that is sent for a definition.
* `Retained`: A policy whose digest is that of its definition.

## Theorems

* `policyBody_submitted`: The definition comes out of the body as it went in.
* `publish_bound`, `preview_bound`, `create_bound`: What the answers commit to.
* `read_retained`: So does every policy that is read.
-/

namespace Allowly

open Py Prog

variable {L : PolicyLibs} {c : Client}

/-- Two objects with the same members, in any order. -/
def SameDict (a b : Json) : Prop :=
  a.isObj = true ∧ b.isObj = true ∧ ∀ k, Json.lookup k a.members = Json.lookup k b.members

/-- A definition has exactly its four members, and the canonical form of an object does not
    depend on their order. -/
structure PackageFacts (L : PolicyLibs) : Prop where
  members : ∀ v, L.validateDefinition v = .ok () → ∀ k, k ∈ v.names ↔ k ∈ definitionKeys.map lit
  order : ∀ a b : Json, a.WellFormed → b.WellFormed → SameDict a b →
    L.canonicalize a = L.canonicalize b

/-! ### The body -/

theorem lookup_eq_none {k : Str} {ms : List (Str × Json)} :
    Json.lookup k ms = none ↔ k ∉ ms.map Prod.fst := by
  induction ms with
  | nil => exact iff_of_true rfl List.not_mem_nil
  | cons m ms ih =>
      rcases m with ⟨l, v⟩
      by_cases hk : k = l
      · rw [Json.lookup, if_pos hk]
        refine iff_of_false (Option.some_ne_none v) ?_
        rw [not_not, hk]
        exact List.mem_cons_self
      · rw [Json.lookup, if_neg hk, ih, List.map_cons, List.mem_cons, not_or]
        exact ⟨fun h => ⟨hk, h⟩, fun h => h.2⟩

theorem lookup_ofList {ks : List String} {f : String → Json} {k : Str} :
    Json.lookup k (Json.ofList (ks.map fun k => (k, f k))).members =
      (ks.find? fun s => decide (k = lit s)).map f := by
  induction ks with
  | nil => rfl
  | cons s ks ih =>
      by_cases hk : k = lit s
      · rw [List.find?_cons_of_pos (by simpa using hk)]
        simp only [List.map_cons, Json.ofList, Json.members, Json.lookup, if_pos hk, Option.map_some]
      · rw [List.find?_cons_of_neg (by simpa using hk), ← ih]
        simp only [List.map_cons, Json.ofList, Json.members, Json.lookup, if_neg hk]

/-- The body that is sent for a definition: what comes out of it is the definition, as it was
    validated. -/
structure Submitted (L : PolicyLibs) (policyId : Str) (definition v body : Json) : Prop where
  validated : validatePolicyDefinition L definition = .ok v
  id : body.get "policy_id" = .str policyId
  read : ∃ d, bodyDefinition body = .ok d ∧ SameDict d v
  digest : ∀ d, bodyDefinition body = .ok d → definitionDigest L d = definitionDigest L v
  agent : body.get "agent_id" = v.get "agent_id"

theorem isObj_of_names {v : Json} {k : Str} (h : k ∈ v.names) : v.isObj = true := by
  cases v with
  | obj ms => rfl
  | _ => cases h

theorem has_iff_names (v : Json) (k : String) : v.has k = true ↔ lit k ∈ v.names := by
  cases v with
  | obj ms =>
      rw [Json.has, Json.names, Json.members, ← not_iff_not, ← lookup_eq_none]
      simp
  | _ => exact iff_of_false Bool.false_ne_true List.not_mem_nil

theorem lookup_of_has {v : Json} {k : String} (h : v.has k = true) :
    Json.lookup (lit k) v.members = some (v.get k) := by
  cases v with
  | obj ms =>
      rcases Option.isSome_iff_exists.mp h with ⟨w, hw⟩
      rw [Json.members, Json.get, hw]
      rfl
  | _ => cases h

theorem validated_facts {definition v : Json} (h : validatePolicyDefinition L definition = .ok v) :
    v.WellFormed ∧ L.validateDefinition v = .ok () := by
  rcases bind_eq_ok.mp h with ⟨raw, hraw, h⟩
  have hwell : raw.WellFormed := by
    rcases of_ite_error hraw with ⟨_, hraw⟩
    simp only at hraw
    split at hraw
    · cases hraw
    · rcases of_ite_error hraw with ⟨_, hraw⟩
      split at hraw
      · next encoded _ value hload =>
          cases hraw
          exact wellFormed_loadsBytes hload
      · cases hraw
  split at h
  · next hvalid =>
      cases h
      exact ⟨hwell, hvalid⟩
  · split at h
    · cases h
    · cases h

/-- The fields of the body do not touch the definition. -/
structure Embodies (body v : Json) : Prop where
  isObj : body.isObj = true
  get : ∀ k ∈ definitionKeys, body.get k = v.get k
  has : ∀ k ∈ definitionKeys, body.has k = v.has k

theorem Embodies.set {body v : Json} (h : Embodies body v) {name : String} (hname : name ∉ definitionKeys)
    (value : Json) : Embodies (body.set name value) v where
  isObj := (Json.isObj_set _ _ _).trans h.isObj
  get k hk := by
    have hne : k ≠ name := fun heq => hname (heq ▸ hk)
    rw [Json.get_set_other hne, h.get k hk]
  has k hk := by
    have hne : k ≠ name := fun heq => hname (heq ▸ hk)
    rw [Json.has_set_other hne, h.has k hk]

/-- A definition is read out of a body that holds it. -/
theorem Embodies.definition {body v : Json} (h : Embodies body v) (hwell : v.WellFormed)
    (hkeys : ∀ k, k ∈ v.names ↔ k ∈ definitionKeys.map lit) :
    ∃ d, bodyDefinition body = .ok d ∧ d.WellFormed ∧ SameDict d v := by
  have hall : ∀ k ∈ definitionKeys, v.has k = true := by
    intro k hk
    rw [has_iff_names, hkeys]
    exact List.mem_map_of_mem hk
  have hbody : definitionKeys.all (body.has ·) = true := by
    rw [List.all_eq_true]
    intro k hk
    rw [h.has k hk]
    exact hall k hk
  have hprofile : v.isObj = true :=
    isObj_of_names ((hkeys (lit "profile")).mpr (List.mem_map_of_mem (by decide)))
  refine ⟨_, if_pos hbody, ?_, rfl, hprofile, ?_⟩
  · refine Json.wellFormed_ofList ?_ ?_
    · change definitionKeys.Nodup
      decide
    intro m hm
    rcases List.mem_map.mp hm with ⟨k, hk, rfl⟩
    change (body.get k).WellFormed
    rw [h.get k hk]
    exact Json.wellFormed_get hwell k
  · intro k
    rw [lookup_ofList]
    cases hfind : definitionKeys.find? fun s => decide (k = lit s) with
    | none =>
        rw [List.find?_eq_none] at hfind
        symm
        rw [Option.map_none, lookup_eq_none]
        intro hmem
        rcases List.mem_map.mp ((hkeys k).mp hmem) with ⟨s, hs, rfl⟩
        exact hfind s hs (by simp)
    | some s =>
        have hs := List.mem_of_find?_eq_some hfind
        have hk : k = lit s := by simpa using List.find?_some hfind
        rw [Option.map_some, hk, lookup_of_has (hall s hs), h.get s hs]

/-- The definition comes out of the body as it went in. -/
theorem policyBody_submitted (hp : PackageFacts L) {policyId : Str} {definition body : Json}
    {description : Option Str} {previous : Option Json}
    (h : policyBody L policyId definition description previous = .ok body) :
    ∃ v, Submitted L policyId definition v body := by
  rcases bind_eq_ok.mp h with ⟨_, _, h⟩
  rcases of_ite_error h with ⟨_, h⟩
  rcases of_ite_error h with ⟨_, h⟩
  rcases bind_eq_ok.mp h with ⟨v, hv, h⟩
  rcases validated_facts hv with ⟨hwell, hvalid⟩
  have hkeys := hp.members v hvalid
  have hobj : v.isObj = true :=
    isObj_of_names ((hkeys (lit "profile")).mpr (List.mem_map_of_mem (by decide)))
  have hfields : Embodies body v ∧ body.get "policy_id" = .str policyId := by
    have hself : Embodies v v := ⟨hobj, fun _ _ => rfl, fun _ _ => rfl⟩
    have hid := hself.set (show "policy_id" ∉ definitionKeys by decide) (.str policyId)
    have hgot := Json.get_set_self hobj "policy_id" (.str policyId)
    have hkeep : ∀ {b : Json} {key : String} (value : Json), key ∉ definitionKeys →
        "policy_id" ≠ key → Embodies b v ∧ b.get "policy_id" = .str policyId →
        Embodies (b.set key value) v ∧ (b.set key value).get "policy_id" = .str policyId := by
      intro b key value hkey hne hb
      refine ⟨hb.1.set hkey value, ?_⟩
      rw [Json.get_set_other hne]
      exact hb.2
    cases previous with
    | none =>
        cases h
        cases description with
        | none => exact ⟨hid, hgot⟩
        | some text => exact hkeep _ (by decide) (by decide) ⟨hid, hgot⟩
    | some previous =>
        rcases bind_eq_ok.mp h with ⟨reference, _, h⟩
        cases h
        cases description with
        | none => exact hkeep _ (by decide) (by decide) ⟨hid, hgot⟩
        | some text =>
            exact hkeep _ (by decide) (by decide) (hkeep _ (by decide) (by decide) ⟨hid, hgot⟩)
  rcases hfields.1.definition hwell hkeys with ⟨d, hd, hdwell, hsame⟩
  refine ⟨v, hv, hfields.2, ⟨d, hd, hsame⟩, ?_, hfields.1.get "agent_id" (by decide)⟩
  intro d' hd'
  rw [hd] at hd'
  cases hd'
  rw [definitionDigest, definitionDigest, hp.order d v hdwell hwell hsame]

/-! ### The answers -/

/-- A call that succeeded has sent one request, and the answer was taken for this body. -/
theorem traces_callPlain {route : Route} (hroute : route.isGet = false) {json : Option Json}
    {headers : List (Str × Str)} {expected : List Nat} {t : Course} {raw : Json}
    (h : Traces (callPlain L.toLibs c route json headers expected) t (.ok raw)) :
    ∃ path resp, route.path = some path ∧ t = [⟨.http ⟨route, path, json, headers⟩, .ok resp⟩] ∧
      heard L.toLibs c headers expected (.ok resp) = .ok (raw, resp) := by
  unfold callPlain at h
  cases hpath : route.path with
  | none =>
      rw [hpath] at h
      cases h.2
  | some path =>
      rw [hpath] at h
      rcases traces_bind_ok.mp h with ⟨⟨data, resp⟩, t₁, t₂, hsent, hend, ht⟩
      rw [hend.1, List.append_nil] at ht
      cases hend.2
      rcases traces_requestWithHeaders hroute hsent with ⟨_, text, hr⟩ | ⟨answer, ht₁, hr⟩
      · cases hr
      · cases answer with
        | error x => cases hr
        | ok resp' =>
            rcases map_eq_ok.mp hr.symm with ⟨data', _, hdata⟩
            cases hdata
            exact ⟨path, resp, rfl, ht.trans ht₁, hr.symm⟩

/-- A policy whose digest is that of its definition. -/
structure Retained (L : PolicyLibs) (r : PolicyResponse) : Prop where
  digest : definitionDigest L r.definition = .ok r.policyRef.definitionSha256
  valid : L.validateDefinition r.definition = .ok ()

theorem parsePolicy_retained {value : Json} {r : PolicyResponse} (h : parsePolicy L value = .ok r) :
    Retained L r := by
  rcases bind_eq_ok.mp h with ⟨raw, _, h⟩
  rcases bind_eq_ok.mp h with ⟨reference, _, h⟩
  rcases bind_eq_ok.mp h with ⟨definition, hdefinition, h⟩
  rcases bind_eq_ok.mp h with ⟨digest, hdigest, h⟩
  rcases of_ite_error h with ⟨hsame, h⟩
  rcases bind_eq_ok.mp h with ⟨_, _, h⟩
  rcases bind_eq_ok.mp h with ⟨_, _, h⟩
  rcases bind_eq_ok.mp h with ⟨_, _, h⟩
  rcases bind_eq_ok.mp h with ⟨_, _, h⟩
  cases h
  rw [ne_eq, not_not] at hsame
  refine ⟨?_, (validated_facts hdefinition).2⟩
  rw [hdigest, hsame]

/-- What `publish` returns commits to the definition it was given. -/
theorem publishReply_bound {policyId : Str} {definition v body raw : Json}
    (hs : Submitted L policyId definition v body) {r : PolicyPublishResponse}
    (h : publishReply L policyId body raw = .ok r) : r.policyRef.policyId = policyId ∧
      definitionDigest L v = .ok r.policyRef.definitionSha256 ∧
      pyEq r.agentId (v.get "agent_id") = true := by
  rcases bind_eq_ok.mp h with ⟨answer, _, h⟩
  rcases bind_eq_ok.mp h with ⟨reference, _, h⟩
  rcases of_ite_error h with ⟨hid, h⟩
  rcases bind_eq_ok.mp h with ⟨sent, hsent, h⟩
  rcases bind_eq_ok.mp h with ⟨digest, hdigest, h⟩
  rcases of_ite_error h with ⟨hsame, h⟩
  rcases of_ite_error h with ⟨hagent, h⟩
  rw [ne_eq, not_not] at hid hsame
  rw [hs.digest sent hsent] at hdigest
  rw [Bool.not_eq_false, hs.agent] at hagent
  split at h
  · rcases bind_eq_ok.mp h with ⟨_, _, h⟩
    rcases bind_eq_ok.mp h with ⟨_, _, h⟩
    rcases bind_eq_ok.mp h with ⟨_, _, h⟩
    rcases bind_eq_ok.mp h with ⟨_, _, h⟩
    rcases bind_eq_ok.mp h with ⟨_, _, h⟩
    cases h
    refine ⟨hid, ?_, hagent⟩
    rw [hdigest, hsame]
  · cases h

/-- What `create` returns is a policy whose definition is equal to the one it was given, as
    Python has it. -/
theorem createReply_bound {policyId : Str} {definition v body raw : Json}
    (hs : Submitted L policyId definition v body) {r : PolicyResponse}
    (h : createReply L policyId body raw = .ok r) : r.policyRef.policyId = policyId ∧ Retained L r ∧
      ∃ d, SameDict d v ∧ pyEq r.definition d = true := by
  rcases bind_eq_ok.mp h with ⟨response, hresponse, h⟩
  rcases of_ite_error h with ⟨hid, h⟩
  rcases bind_eq_ok.mp h with ⟨sent, hsent, h⟩
  rcases of_ite_error h with ⟨hsame, h⟩
  cases h
  rw [ne_eq, not_not] at hid
  rcases hs.read with ⟨d, hd, hdict⟩
  rw [hd] at hsent
  cases hsent
  exact ⟨hid, parsePolicy_retained hresponse, sent, hdict, by simpa using hsame⟩

/-- What `preview` returns commits to the definition, the action and the input. -/
theorem previewReply_bound {v raw : Json} {action digest : Str} {r : PolicyPreviewResponse}
    (h : previewReply L v action digest raw = .ok r) :
    definitionDigest L v = .ok r.definitionSha256 ∧ r.action = action ∧
      r.policyEval.inputSha256 = digest := by
  rcases bind_eq_ok.mp h with ⟨answer, _, h⟩
  rcases of_ite_error h with ⟨_, h⟩
  rcases bind_eq_ok.mp h with ⟨sha256, hsha256, h⟩
  rcases of_ite_error h with ⟨_, h⟩
  rcases bind_eq_ok.mp h with ⟨evaluation, _, h⟩
  rcases of_ite_error h with ⟨hinput, h⟩
  cases h
  rw [ne_eq, not_not] at hinput
  exact ⟨hsha256, rfl, hinput⟩

/-- A run of `publish` that returns has sent one request, whose body holds the definition, and
    returns a commitment to it. -/
theorem publish_bound (hp : PackageFacts L) {policyId key : Str} {definition : Json}
    {description : Option Str} {previous : Option Json} {t : Course} {r : PolicyPublishResponse}
    (h : Traces (policyPublish L c policyId definition key description previous) t (.ok r)) :
    ∃ v body path headers resp, Submitted L policyId definition v body ∧
      t = [⟨.http ⟨.policyPublish, path, some body, headers⟩, .ok resp⟩] ∧
      r.policyRef.policyId = policyId ∧ definitionDigest L v = .ok r.policyRef.definitionSha256 ∧
      pyEq r.agentId (v.get "agent_id") = true := by
  rcases traces_ofExcept_bind_ok.mp h with ⟨_, _, h⟩
  rcases traces_ofExcept_bind_ok.mp h with ⟨body, hbody, h⟩
  rcases policyBody_submitted hp hbody with ⟨v, hsubmitted⟩
  rcases traces_bind_ok.mp h with ⟨raw, t₁, t₂, hcall, hreply, ht⟩
  rcases traces_callPlain rfl hcall with ⟨path, resp, _, ht₁, _⟩
  rcases traces_ofExcept.mp hreply with ⟨ht₂, hreply⟩
  rw [ht₂, List.append_nil] at ht
  exact ⟨v, body, path, _, resp, hsubmitted, ht.trans ht₁, publishReply_bound hsubmitted hreply.symm⟩

theorem listReply_retained {raw : Json} {r : PolicyListResponse} (h : listReply L raw = .ok r) :
    ∀ item ∈ r.items, Retained L item := by
  rcases bind_eq_ok.mp h with ⟨answer, _, h⟩
  simp only at h
  split at h
  · rcases bind_eq_ok.mp h with ⟨items, hitems, h⟩
    cases h
    intro item hitem
    rcases mem_of_mapM hitems hitem with ⟨_, _, hparsed⟩
    exact parsePolicy_retained hparsed
  · rcases bind_eq_ok.mp h with ⟨items, hitems, h⟩
    cases h
    intro item hitem
    rcases mem_of_mapM hitems hitem with ⟨_, _, hparsed⟩
    exact parsePolicy_retained hparsed
  · cases h

def sampleRules : Json :=
  .arr [.ofList [("conditions", .arr [.ofList [("field", .str (lit "risk")), ("op", .str (lit "gte")),
    ("value", .int 2)]]), ("decision", .str (lit "deny")), ("id", .str (lit "risk-rule")),
    ("target", .null)]]

/-- A policy that denies what is risky, in its canonical order. -/
def samplePolicy : Json :=
  .ofList [("action", .str (lit "records.review")), ("decision", .str (lit "allow")),
    ("fields", .ofList [("risk", .str (lit "integer"))]), ("profile", .str (lit "allowly.basic.v1")),
    ("rules", sampleRules), ("target", .null)]

def sampleDefinition : Json :=
  .ofList [("actions", .arr [.ofList [("executable_operations", .arr []), ("guards", .ofList []),
    ("policy", samplePolicy)]]), ("agent_id", .str (lit "agent_fixture")),
    ("default_expiry_days", .null), ("profile", .str (lit "allowly.policy.v1"))]

def sampleContext : Json := .ofList [("risk", .int 1)]

def sampleInput : Json :=
  .ofList [("action", .str (lit "records.review")), ("context", sampleContext),
    ("policy", samplePolicy)]

def sampleReference : Json :=
  .ofList [("definition_sha256", .str (hexdigest (fileOf sampleDefinition))),
    ("policy_id", .str (lit "review")), ("policy_version", .int 1)]

def sampleEvaluation : Json :=
  .ofList [("input_sha256", .str (hexdigest (fileOf sampleInput))), ("result", .ofList [
    ("decision", .str (lit "allow")), ("evaluated_fields", .ofList []), ("matched_rule_id", .null),
    ("profile", .str (lit "allowly.basic.v1")), ("status", .str (lit "ok")), ("target", .null)])]

/-- Has the object the members of the other one? -/
def hasMembersOf (w v : Json) : Bool :=
  w.members.all (fun m => decide (Json.lookup m.1 v.members = some m.2))
    && v.names.all fun k => decide (k ∈ w.names)

/-- The objects of the samples, which are written in their canonical order. -/
def canonicalSamples : List Json :=
  [sampleDefinition, sampleContext, sampleInput, sampleReference, sampleEvaluation]

def samplePolicyLibs : PolicyLibs :=
  { sampleLibs with
    canonicalize := fun v => (canonicalSamples.find? fun w => hasMembersOf w v).map fileOf
    validateDefinition := fun v =>
      if definitionKeys.all (v.has ·) ∧ v.names.all (fun k => decide (k ∈ definitionKeys.map lit)) then
        .ok ()
      else .error (.value "definition has missing or unknown fields") }

theorem mem_names (v : Json) (k : Str) : k ∈ v.names ↔ Json.lookup k v.members ≠ none := by
  rw [ne_eq, lookup_eq_none, not_not]
  rfl

theorem hasMembersOf_same {a b : Json} (h : SameDict a b) (w : Json) :
    hasMembersOf w a = hasMembersOf w b := by
  have hnames : ∀ k, k ∈ a.names ↔ k ∈ b.names := by
    intro k
    rw [mem_names, mem_names, h.2.2 k]
  rw [hasMembersOf, hasMembersOf, Bool.eq_iff_iff]
  simp only [h.2.2, Bool.and_eq_true, List.all_eq_true, decide_eq_true_eq, hnames]

theorem packageFacts_sample : PackageFacts samplePolicyLibs where
  members v hv k := by
    change (if definitionKeys.all (v.has ·) = true ∧
      v.names.all (fun k => decide (k ∈ definitionKeys.map lit)) = true then Except.ok ()
      else Except.error _) = Except.ok () at hv
    split at hv
    · next hall =>
        simp only [List.all_eq_true, decide_eq_true_eq] at hall
        refine ⟨fun hk => hall.2 k hk, ?_⟩
        intro hk
        rcases List.mem_map.mp hk with ⟨s, hs, rfl⟩
        exact (has_iff_names v s).mp (hall.1 s hs)
    · cases hv
  order a b _ _ h := by
    change ((canonicalSamples.find? fun w => hasMembersOf w a).map fileOf) = _
    have hsame : (fun w => hasMembersOf w a) = fun w => hasMembersOf w b :=
      funext (hasMembersOf_same h)
    rw [hsame]
    rfl

/-- The answers of a runtime that says this. -/
def saying (status : Nat) (body : Json) : (o : Op) → Except Fault o.Answer
  | .http _ => .ok { status, headers := [], content := fileOf body }
  | _ => .error ⟨.os, os_not_recovery⟩

def samplePublished : Json :=
  .ofList [("policy_ref", sampleReference), ("agent_id", .str (lit "agent_fixture")),
    ("created_by", .str (lit "member:owner")), ("created_at", .str (lit "2026-10-10T00:00:00Z")),
    ("authorization_migrations", .arr []), ("archived_policy_ids", .arr []),
    ("revoked_confirmation_count", .int 0)]

def samplePreview : Json :=
  .ofList [("provisional", .bool true), ("definition_sha256", sampleReference.get "definition_sha256"),
    ("action", .str (lit "records.review")), ("policy_eval", sampleEvaluation)]

def sampleRetained : Json :=
  .ofList [("policy_ref", sampleReference), ("definition", sampleDefinition), ("description", .null)]

def sampleList : Json := .ofList [("items", .arr [sampleRetained]), ("has_more", .bool false)]

/-- What holds of every run that returns holds of one. -/
theorem returned {A : Type} {p : Call A} {reply : (o : Op) → Except Fault o.Answer}
    {P : Course → A → Prop} (h : (traceOf reply p).2.toOption.isSome = true)
    (hp : ∀ t r, Traces p t (.ok r) → P t r) : ∃ t r, P t r := by
  have ht := traces_traceOf reply p
  cases hr : (traceOf reply p).2 with
  | error x =>
      rw [hr] at h
      cases h
  | ok r =>
      rw [hr] at ht
      exact ⟨_, r, hp _ r ht⟩

theorem publish_sample : ∃ (t : Course) (r : PolicyPublishResponse), ∃ v body path headers resp,
    Submitted samplePolicyLibs (lit "review") sampleDefinition v body ∧
    t = [⟨.http ⟨.policyPublish, path, some body, headers⟩, .ok resp⟩] ∧
    r.policyRef.policyId = lit "review" ∧
    definitionDigest samplePolicyLibs v = .ok r.policyRef.definitionSha256 ∧
    pyEq r.agentId (v.get "agent_id") = true := by
  have hrun : (traceOf (saying 201 samplePublished) (policyPublish samplePolicyLibs sampleClient
      (lit "review") sampleDefinition (lit "publish-2") none none)).2.toOption.isSome = true := by
    decide +kernel
  exact returned hrun fun t r => publish_bound packageFacts_sample

end Allowly

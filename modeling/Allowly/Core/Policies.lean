import Allowly.Core.Resources

/-!
# Setting Up Policies

`_PoliciesResource`. A definition is validated and sent in one body with the fields that say
what to do with it, and is read back out of that body when the answer is checked.

An answer commits to a definition by its digest, or holds it. The definition an answer holds
is compared with Python's `==`, under which `True` and `1` are equal, and so are members in
another order. The query parameters of `list` are left out.

## Main definitions

* `policyBody`, `bodyDefinition`: `_body` and `body_definition`.
* `createReply`, `publishReply`, `previewReply`, `listReply`: What the methods make of an answer.
* `policyCreate`, `policyPublish`, `policyPreview`, `policyList`, `policyArchive`: The methods.
-/

namespace Allowly

open Py

/-- A character of a policy ID. -/
def isPolicyChar (c : Nat) : Bool := isLower c || isDigit c || c == 95 || c == 45

/-- `_body`. The description is a text, if there is one. -/
def policyBody (L : PolicyLibs) (policyId : Str) (definition : Json) (description : Option Str)
    (previousPolicyRef : Option Json) : Except Exc Json := do
  let _ ← boundedText (.str policyId) "policy_id" 128
  if policyId.all isPolicyChar = false then
    valueError "policy_id must use lowercase letters, digits, underscore or hyphen"
  else if 2048 < (description.getD []).length then
    valueError "description must be a bounded string"
  else
    let definition ← validatePolicyDefinition L definition
    let body := definition.set "policy_id" (.str policyId)
    let body := match description with
      | some text => body.set "description" (.str text)
      | none => body
    match previousPolicyRef with
    | none => return body
    | some previous =>
      let reference ← parsePolicyReference L previous
      return body.set "previous_policy_ref" reference.toJson

/-- The members of a definition. -/
def definitionKeys : List String := ["profile", "agent_id", "actions", "default_expiry_days"]

/-- `body_definition`. -/
def bodyDefinition (body : Json) : Except Exc Json :=
  if definitionKeys.all (body.has ·) then .ok (.ofList (definitionKeys.map fun k => (k, body.get k)))
  else .error .key

/-! ### Creating -/

/-- `policies.create`, from the answer on. -/
def createReply (L : PolicyLibs) (policyId : Str) (body raw : Json) : Except Exc PolicyResponse := do
  let response ← parsePolicy L raw
  let refused := protocolError "created policy does not match the submitted definition" none
  if response.policyRef.policyId ≠ policyId then refused
  else
    let sent ← bodyDefinition body
    if pyEq response.definition sent = false then refused
    else return response

/-- `policies.create`. -/
def policyCreate (L : PolicyLibs) (c : Client) (policyId : Str) (definition : Json)
    (description : Option Str) (previousPolicyRef : Option Json) (idempotencyKey : Option Str) :
    Call PolicyResponse := do
  let body ← computed (policyBody L policyId definition description previousPolicyRef)
  let raw ← callPlain L.toLibs c .policies (some body) (keyHeaders idempotencyKey) [201]
  computed (createReply L policyId body raw)

/-! ### Publishing -/

structure PolicyPublishResponse where
  policyRef : PolicyReference
  agentId : Json
  createdBy : Str
  createdAt : Str
  authorizationMigrations : List Json
  archivedPolicyIds : List Json
  revokedConfirmationCount : Int
  deriving DecidableEq

def publishFields : List String :=
  ["policy_ref", "agent_id", "created_by", "created_at", "authorization_migrations",
    "archived_policy_ids", "revoked_confirmation_count"]

def migrationFields : List String := ["user_id", "previous_authorization_id", "authorization_id"]

/-- The IDs of an authorization that was moved. An error names the field. -/
def checkMigration (migration : Json) : Except Exc Unit := do
  let raw ← keysOf migration migrationFields "authorization migration" []
  raw.members.forM fun m =>
    (boundedText m.2 ((migrationFields.find? fun k => lit k == m.1).getD "") 128).map fun _ => ()

/-- `policies.publish`, from the answer on. -/
def publishReply (L : PolicyLibs) (policyId : Str) (body answer : Json) :
    Except Exc PolicyPublishResponse := do
  let raw ← keysOf answer publishFields "publish response" []
  let reference ← parsePolicyReference L (raw.get "policy_ref")
  let refused := protocolError "published policy does not match the submitted definition" none
  if reference.policyId ≠ policyId then refused
  else
    let sent ← bodyDefinition body
    let digest ← definitionDigest L sent
    if reference.definitionSha256 ≠ digest then refused
    else if pyEq (raw.get "agent_id") (body.get "agent_id") = false then refused
    else
      match raw.get "authorization_migrations", raw.get "archived_policy_ids" with
      | .arr migrations, .arr archived =>
        migrations.forM checkMigration
        archived.forM fun v => (boundedText v "archived_policy_id" 128).map fun _ => ()
        let count ← boundedInt (raw.get "revoked_confirmation_count") "revoked_confirmation_count" 0
          maxSafeInteger
        let createdBy ← boundedText (raw.get "created_by") "created_by" 256
        let createdAt ← boundedText (raw.get "created_at") "created_at" 128
        return { policyRef := reference, agentId := raw.get "agent_id", createdBy, createdAt,
                 authorizationMigrations := migrations, archivedPolicyIds := archived,
                 revokedConfirmationCount := count }
      | _, _ => protocolError "publish summary lists are invalid" none

/-- `policies.publish`. -/
def policyPublish (L : PolicyLibs) (c : Client) (policyId : Str) (definition : Json)
    (idempotencyKey : Str) (description : Option Str) (previousPolicyRef : Option Json) :
    Call PolicyPublishResponse := do
  let _ ← computed (boundedText (.str idempotencyKey) "idempotency_key" 128)
  let body ← computed (policyBody L policyId definition description previousPolicyRef)
  let raw ← callPlain L.toLibs c .policyPublish (some body) (keyHeaders (some idempotencyKey)) [201]
  computed (publishReply L policyId body raw)

/-! ### Previewing -/

/-- `value[key]`. -/
def subscript (value : Json) (key : String) : Except Exc Json :=
  if value.isObj = false then .error .type
  else if value.has key = false then .error .key
  else .ok (value.get key)

/-- The first policy for an action. -/
def findPolicy (action : Str) : List Json → Except Exc (Option Json)
  | [] => .ok none
  | entry :: entries => do
    let policy ← subscript entry "policy"
    let name ← subscript policy "action"
    if name = .str action then return some policy
    else findPolicy action entries

/-- The policy of a definition for an action, `next(...)`. Iterating an object gives texts,
    which have no members. -/
def selectedPolicy (definition : Json) (action : Str) : Except Exc (Option Json) := do
  let actions ← subscript definition "actions"
  match actions with
  | .arr entries => findPolicy action entries
  | .obj [] => return none
  | .str [] => return none
  | _ => .error .type

/-- The digest of what a policy is evaluated on. -/
def inputDigest (L : PolicyLibs) (policy : Json) (action : Str) (context : Json) : Except Exc Str :=
  definitionDigest L (.ofList [("policy", policy), ("action", .str action), ("context", context)])

/-- Its `provisional` is true. -/
structure PolicyPreviewResponse where
  definitionSha256 : Str
  action : Str
  policyEval : PolicyEvalInfo
  deriving DecidableEq

/-- `policies.preview`, from the answer on. -/
def previewReply (L : PolicyLibs) (definition : Json) (action inputSha256 : Str) (answer : Json) :
    Except Exc PolicyPreviewResponse := do
  let raw ← keysOf answer ["provisional", "definition_sha256", "action", "policy_eval"]
    "preview response" []
  let refused := protocolError "preview response does not match the submitted provisional definition"
    none
  if raw.get "provisional" ≠ .bool true ∨ raw.get "action" ≠ .str action then refused
  else
    let digest ← definitionDigest L definition
    if raw.get "definition_sha256" ≠ .str digest then refused
    else
      let evaluation ← parsePolicyEvaluation L (raw.get "policy_eval")
      if evaluation.inputSha256 ≠ inputSha256 then
        protocolError "preview input commitment does not match the submitted policy and context" none
      else return { definitionSha256 := digest, action, policyEval := evaluation }

/-- `policies.preview`. -/
def policyPreview (L : PolicyLibs) (c : Client) (definition : Json) (action : Str) (context : Json) :
    Call PolicyPreviewResponse := do
  let definition ← computed (validatePolicyDefinition L definition)
  let _ ← computed (boundedText (.str action) "action" 64)
  let selected ← computed (selectedPolicy definition action)
  match selected with
  | none => raise (.value "preview action must be declared in the complete definition")
  | some policy =>
    let context ← computed (document L context "context" 4096)
    let inputSha256 ← computed (inputDigest L policy action context)
    let raw ← callPlain L.toLibs c .policyPreview
      (some (.ofList [("definition", definition), ("action", .str action), ("context", context)]))
      [] [200]
    computed (previewReply L definition action inputSha256 raw)

/-! ### Listing and archiving -/

structure PolicyListResponse where
  items : List PolicyResponse
  hasMore : Bool
  nextCursor : Option Str
  deriving DecidableEq

/-- `policies.list`, from the answer on. -/
def listReply (L : PolicyLibs) (answer : Json) : Except Exc PolicyListResponse := do
  let raw ← keysOf answer ["items", "has_more"] "policy list" ["next_cursor"]
  let refused := protocolError "policy list has invalid pagination fields" none
  match raw.get "items", raw.get "has_more", raw.get "next_cursor" with
  | .arr items, .bool hasMore, .null => do
    let items ← items.mapM (parsePolicy L)
    return { items, hasMore, nextCursor := none }
  | .arr items, .bool hasMore, .str cursor => do
    let items ← items.mapM (parsePolicy L)
    return { items, hasMore, nextCursor := some cursor }
  | _, _, _ => refused

/-- `policies.list`. -/
def policyList (L : PolicyLibs) (c : Client) (limit : Int) : Call PolicyListResponse := do
  let _ ← computed (boundedInt (.int limit) "limit" 1 100)
  let raw ← callPlain L.toLibs c .policyList none [] [200]
  computed (listReply L raw)

/-- `policies.archive`. -/
def policyArchive (L : PolicyLibs) (c : Client) (policyId : Str) (idempotencyKey : Option Str) :
    Call Unit := do
  let id ← computed (boundedText (.str policyId) "policy_id" 128)
  let _ ← callPlain L.toLibs c (.policyArchive id) none (keyHeaders idempotencyKey) [204]
  return ()

end Allowly

import Allowly.Core.Witness

/-!
# Policy Documents

The strict parsers of `policies.py`. A document is taken through its canonical form and
back, so that what is checked afterwards is what was hashed. Values are told apart by
`type`, to which true is not an integer.

The canonical form, and the check of a policy definition, are those of the receipt format
package.

## Main definitions

* `PolicyLibs`: The outside code, with the package's canonical form.
* `document`, `keysOf`, `boundedText`, `boundedInt`: `_document`, `_keys`, `_text`, `_integer`.
* `parsePolicyReference`, `parsePolicyEvaluation`: `parse_policy_reference`,
  `parse_policy_evaluation`.
* `validatePolicyDefinition`, `definitionDigest`: `validate_policy_definition`,
  `definition_digest`.
* `parsePolicy`: `_parse_policy`.
-/

namespace Allowly

open Py

/-- Outside code, with what the receipt format package does to policies. -/
structure PolicyLibs extends Libs where
  /-- `canonicalize`, which raises on what has no canonical form. -/
  canonicalize : Json → Option Bytes
  /-- `validate_policy_definition` of the package. -/
  validateDefinition : Json → Except Exc Unit

variable (L : PolicyLibs)

/-- `_document`. -/
def document (value : Json) (name : String) (limit : Nat) : Except Exc Json :=
  if value.isObj = false then protocolError (name ++ " must be an object") none
  else
    let bounded : Except Exc Json :=
      protocolError (name ++ " must be bounded canonical JSON with safe integers") none
    match L.canonicalize value with
    | none => bounded
    | some encoded =>
      if encoded.length > limit then bounded
      else
        match loadsBytes encoded with
        | some v => .ok v
        | none => bounded

/-- The limit of `_document`. -/
def documentLimit : Nat := 65536

/-- `_keys`. -/
def keysOf (value : Json) (required : List String) (name : String) (optional : List String) :
    Except Exc Json :=
  if value.isObj ∧ required.all (value.has ·)
      ∧ value.names.all (fun k => (required ++ optional).any fun r => lit r == k) then
    .ok value
  else protocolError (name ++ " has missing or unknown fields") none

/-- `_text`. -/
def boundedText (value : Json) (name : String) (maximum : Nat) : Except Exc Str :=
  match value with
  | .str s =>
    if 1 ≤ s.length ∧ s.length ≤ maximum then .ok s
    else protocolError (name ++ " must be a nonempty bounded string") none
  | _ => protocolError (name ++ " must be a nonempty bounded string") none

/-- The largest integer a document may hold. -/
def maxSafeInteger : Int := 2 ^ 53 - 1

/-- `_integer`. -/
def boundedInt (value : Json) (name : String) (minimum maximum : Int) : Except Exc Int :=
  match value with
  | .int n =>
    if minimum ≤ n ∧ n ≤ maximum then .ok n
    else protocolError (name ++ " must be a bounded safe integer") none
  | _ => protocolError (name ++ " must be a bounded safe integer") none

/-- `_target`. -/
def checkTarget (decision target : Json) : Except Exc Unit :=
  match decision with
  | .str d =>
    if d ∉ Decision.all.map Decision.text then
      protocolError "policy decision is unsupported" none
    else if d = lit "allow" ∨ d = lit "deny" then
      if target = .null then .ok ()
      else protocolError "allow and deny require a null target" none
    else if d = lit "confirm" then
      if target = .str (lit "agent_owner") then .ok ()
      else protocolError "confirm target must be agent_owner" none
    else
      match target with
      | .str t =>
        match dropWord (lit "member:") t with
        | some rest =>
          if strip rest ≠ [] ∧ rest.length ≤ 128 then .ok ()
          else protocolError "escalate target must be member:<account_user_id>" none
        | none => protocolError "escalate target must be member:<account_user_id>" none
      | _ => protocolError "escalate target must be member:<account_user_id>" none
  | _ => protocolError "policy decision is unsupported" none

/-- A reference to a policy, `PolicyReference`. -/
structure PolicyReference where
  policyId : Str
  policyVersion : Int
  definitionSha256 : Str
  deriving DecidableEq

def PolicyReference.toJson (r : PolicyReference) : Json :=
  .ofList [("policy_id", .str r.policyId), ("policy_version", .int r.policyVersion),
    ("definition_sha256", .str r.definitionSha256)]

/-- `parse_policy_reference`. -/
def parsePolicyReference (value : Json) : Except Exc PolicyReference := do
  let raw ← document L value "policy_ref" documentLimit
  let raw ← keysOf raw ["policy_id", "policy_version", "definition_sha256"] "policy_ref" []
  let policyId ← boundedText (raw.get "policy_id") "policy_ref.policy_id" 128
  let policyVersion ← boundedInt (raw.get "policy_version") "policy_ref.policy_version" 1
    maxSafeInteger
  match raw.get "definition_sha256" with
  | .str s =>
    if isHex64 s then return { policyId, policyVersion, definitionSha256 := s }
    else protocolError "policy_ref.definition_sha256 must be lowercase hex SHA-256" none
  | _ => protocolError "policy_ref.definition_sha256 must be lowercase hex SHA-256" none

/-- Does the package's error mean that the definition is invalid? -/
def isDefinitionError (x : Exc) : Bool :=
  x.isValueError || (match x with
    | .type => true
    | .key => true
    | _ => false)

/-- `validate_policy_definition`. -/
def validatePolicyDefinition (value : Json) : Except Exc Json := do
  let raw ← document L value "definition" documentLimit
  match L.validateDefinition raw with
  | .ok () => return raw
  | .error x =>
    if isDefinitionError x then
      protocolError "definition has invalid policy or evidence fields" none
    else .error x

/-- `definition_digest`. -/
def definitionDigest (definition : Json) : Except Exc Str :=
  match L.canonicalize definition with
  | some b => .ok (hexdigest b)
  | none => .error .sealInput

/-- `ProvisionalPolicyResult`, whose `profile` and `status` have one value each. -/
structure ProvisionalPolicyResult where
  decision : Decision
  target : Option Str
  matchedRuleId : Option Str
  evaluatedFields : Json
  deriving DecidableEq

structure PolicyEvalInfo where
  inputSha256 : Str
  result : ProvisionalPolicyResult
  deriving DecidableEq

def evaluationKeys : List String :=
  ["profile", "status", "decision", "target", "matched_rule_id", "evaluated_fields"]

/-- The fields a rule looked at. -/
def checkEvaluatedFields (matchedRuleId : Option Str) (fields : Json) : Except Exc Unit :=
  if fields.isObj = false then protocolError "evaluated_fields must be an object" none
  else if (fields.names.all fun k => (boundedText (.str k) "evaluated field" 128).isOk) = false then
    protocolError "evaluated field must be a nonempty bounded string" none
  else if matchedRuleId = none ∧ fields.names ≠ [] then
    protocolError "action-level result must have empty evaluated_fields" none
  else .ok ()

/-- The result of an evaluation. -/
def parseEvaluationResult (value : Json) : Except Exc ProvisionalPolicyResult := do
  let result ← keysOf value evaluationKeys "policy_eval.result" []
  if result.get "profile" ≠ .str (lit "allowly.basic.v1") ∨ result.get "status" ≠ .str (lit "ok") then
    protocolError "policy_eval result profile or status is unsupported" none
  else
    checkTarget (result.get "decision") (result.get "target")
    let matchedRuleId ← optionalWith (boundedText · "matched_rule_id" 128)
      (result.get "matched_rule_id")
    checkEvaluatedFields matchedRuleId (result.get "evaluated_fields")
    let decision ← parseEnum Decision.all Decision.text "policy decision is unsupported"
      (((result.get "decision").asStr).getD [])
    return { decision, target := (result.get "target").asStr, matchedRuleId,
             evaluatedFields := result.get "evaluated_fields" }

/-- `parse_policy_evaluation`. -/
def parsePolicyEvaluation (value : Json) : Except Exc PolicyEvalInfo := do
  let raw ← document L value "policy_eval" 32768
  let raw ← keysOf raw ["input_sha256", "result"] "policy_eval" []
  match raw.get "input_sha256" with
  | .str digest =>
    if isHex64 digest then
      let result ← parseEvaluationResult (raw.get "result")
      return { inputSha256 := digest, result }
    else protocolError "policy_eval.input_sha256 must be lowercase hex SHA-256" none
  | _ => protocolError "policy_eval.input_sha256 must be lowercase hex SHA-256" none

/-- `PolicyResponse`. -/
structure PolicyResponse where
  policyRef : PolicyReference
  definition : Json
  description : Option Str
  createdBy : Option Str
  createdAt : Option Str
  deletedAt : Option Str
  deriving DecidableEq

/-- `_parse_policy`. -/
def parsePolicy (value : Json) : Except Exc PolicyResponse := do
  let raw ← keysOf value ["policy_ref", "definition"] "policy response"
    ["description", "created_by", "created_at", "deleted_at"]
  let reference ← parsePolicyReference L (raw.get "policy_ref")
  let definition ← validatePolicyDefinition L (raw.get "definition")
  let digest ← definitionDigest L definition
  if reference.definitionSha256 ≠ digest then
    protocolError "policy_ref definition digest does not match retained definition" none
  else
    let description ← optionalStr raw "description"
    let createdBy ← optionalStr raw "created_by"
    let createdAt ← optionalStr raw "created_at"
    let deletedAt ← optionalStr raw "deleted_at"
    return { policyRef := reference, definition, description, createdBy, createdAt, deletedAt }

end Allowly

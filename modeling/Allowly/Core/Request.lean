import Allowly.Base.Sha256
import Allowly.Base.Url
import Allowly.Core.Wire

/-!
# The Request to Execute

The local request a call is asked to make, and the descriptor of it that is sent to
the runtime instead. `request` normalises the arguments and refuses what it cannot
describe; the descriptor holds digests of the header values and of the body, and the
values themselves stay in the private headers.

A header value is hashed together with its name, behind a fixed prefix and with null
bytes between the parts.

## Main definitions

* `Descriptor`, `PrivateRequest`: What is sent to the runtime and what is not.
* `request`: `_request`.
* `Requested`: The body of an execution request.
* `Args`: The arguments of `execute_http` and `continue_http_execution`.
* `httpExecutionRequest`: `_http_execution_request`.
-/

namespace Allowly

open Py

/-- A digest as the code writes it, `_sha`. -/
def sha (b : Bytes) : Str := lit "sha256:" ++ hexdigest b

/-- Headers the caller may not set. -/
def forbidden : List Str :=
  [lit "host", lit "content-length", lit "transfer-encoding", lit "connection", lit "keep-alive",
    lit "te", lit "trailer", lit "upgrade", lit "proxy-authorization", lit "proxy-connection",
    lit "accept-encoding", lit "expect"]

structure Descriptor where
  method : Str
  origin : Str
  path : Str
  query : Str
  headers : List (Str × Str)
  bodySha256 : Str
  bodySize : Nat
  contentType : Option Str
  deriving DecidableEq

def Descriptor.members (d : Descriptor) : List (String × Json) :=
  [("method", .str d.method), ("origin", .str d.origin), ("path", .str d.path),
    ("query", .str d.query), ("headers", .arr (d.headers.map headerJson)),
    ("body_sha256", .str d.bodySha256), ("body_size", .int d.bodySize),
    ("content_type", optionText d.contentType)]

def Descriptor.toJson (d : Descriptor) : Json := .ofList d.members

def valueError {A : Type} (text : String) : Except Exc A := .error (.value text)

/-- Is a path segment, decoded, something a server could take for a different
    path? -/
def ambiguousSegment (decoded : Str) : Bool :=
  decoded == lit "." || decoded == lit ".." || decoded.any (fun c => c == 47 || c == 92)
    || decoded.contains 37 || decoded.any fun c => c < 32 || c == 127

/-- A segment decoded four times. -/
def unquoteFour (segment : Str) : Option Str := do
  let a ← unquote segment
  let b ← unquote a
  let c ← unquote b
  unquote c

def checkSegments : List Str → Except Exc Unit
  | [] => .ok ()
  | segment :: rest =>
    match unquoteFour segment with
    | none => valueError "'utf-8' codec can't decode"
    | some decoded =>
      if ambiguousSegment decoded then valueError "ambiguous path segment" else checkSegments rest

/-- The headers with their names in lower case. -/
def normalizeHeaders (L : Libs) :
    List (Str × Str) → List (Str × Str) → Except Exc (List (Str × Str))
  | normalized, [] => .ok normalized
  | normalized, (name, value) :: rest =>
    let name := lower L.lowerOther name
    if name = [] ∨ ¬(name.all fun c => isDigit c || isLower c || c == 45) = true ∨ name ∈ forbidden
        ∨ name ∈ normalized.map Prod.fst ∨ value ≠ strip value
        ∨ ¬(value.all fun c => 0x20 ≤ c && c ≤ 0x7e) = true then
      valueError "unsafe, duplicate, or unsupported request header"
    else normalizeHeaders L (normalized ++ [(name, value)]) rest

/-- The value of a header, by name. -/
def headerValue (name : String) (headers : List (Str × Str)) : Option Str :=
  (headers.find? fun h => h.1 == lit name).map Prod.snd

/-- Text order, as `sorted` compares. -/
def textLe : Str → Str → Bool
  | [], _ => true
  | _ :: _, [] => false
  | a :: s, b :: t => a < b || (a == b && textLe s t)

def insertSorted (h : Str × Str) : List (Str × Str) → List (Str × Str)
  | [] => [h]
  | g :: gs => if textLe h.1 g.1 then h :: g :: gs else g :: insertSorted h gs

/-- `sorted` by name; the names are different. -/
def sortHeaders (headers : List (Str × Str)) : List (Str × Str) :=
  headers.foldr insertSorted []

/-- The octets of text that is ASCII. -/
def asciiBytes (s : Str) : Bytes := s.map UInt8.ofNat

/-- The digest of a header value. Names and values are ASCII. -/
def headerSha (h : Str × Str) : Str :=
  sha (asciiBytes (lit "allowly.execution.header.v1") ++ 0 :: asciiBytes h.1
    ++ 0 :: asciiBytes h.2)

/-- The host of a destination, if it is one the program sends to. -/
def destination (L : Libs) (parsed : SplitResult) : Except Exc Str :=
  let host := parsed.hostname L.lowerOther
  let refused := valueError "execution destination must be a public HTTPS DNS origin on port 443"
  if parsed.scheme ≠ lit "https" ∨ host = [] then refused
  else
    match parsed.port with
    | none => valueError "Port could not be cast to integer value"
    | some port =>
      if (port ≠ none ∧ port ≠ some 443) ∨ parsed.username ≠ none ∨ parsed.fragment ≠ []
          ∨ ¬(host.all fun c => isLower c || isDigit c || c == 46 || c == 45) = true
          ∨ 46 ∉ host then
        refused
      else if isIpv4 host then valueError "IP-literal execution destinations are not supported"
      else .ok host

/-- `_request`: the descriptor and the private headers. -/
def request (L : Libs) (url method : Str) (headers : List (Str × Str)) (body : Str) :
    Except Exc (Descriptor × List (Str × Str)) := do
  if url ≠ strip url ∨ 92 ∈ url then
    valueError "execute_http requires a UTF-8 string body and normalized HTTPS URL"
  else
    match urlsplit url with
    | none => valueError "Invalid IPv6 URL"
    | some parsed =>
      let host ← destination L parsed
      let method := upper L.upperOther method
      if method ∉ httpMethods then valueError "unsupported HTTP method"
      else
        let path := if parsed.path = [] then lit "/" else parsed.path
        let query := parsed.query
        if (path ++ query).any fun c => !(0x21 ≤ c && c ≤ 0x7e) then
          valueError "encode the URL path and query before execution"
        else
          checkSegments (splitChar 47 path)
          let normalized ← normalizeHeaders L [] headers
          let contentType := headerValue "content-type" normalized
          if body ≠ [] ∧ contentType.getD [] = [] then
            valueError "a body requires a content-type header"
          else
            match encode body with
            | none => valueError "'utf-8' codec can't encode"
            | some encoded =>
              if encoded.length > 256 * 1024 then valueError "request body exceeds 256 KiB"
              else
                return ({ method, origin := lit "https://" ++ host, path, query
                          headers := (sortHeaders normalized).map fun h => (h.1, headerSha h)
                          bodySha256 := sha encoded, bodySize := encoded.length, contentType },
                  normalized)

/-- The body of an execution request. The time is added after the rest. -/
structure Requested where
  operationId : Str
  authorizationId : Str
  enabledExecutableId : Str
  catalogOperationId : Str
  action : Str
  httpRequest : Descriptor
  policyInput : Json
  evidenceMode : Str
  clientTimestamp : Option Str
  deriving DecidableEq

/-- The request as JSON. -/
def Requested.toJson (r : Requested) : Json :=
  .ofList ([("operation_id", .str r.operationId), ("authorization_id", .str r.authorizationId),
    ("enabled_executable_id", .str r.enabledExecutableId),
    ("catalog_operation_id", .str r.catalogOperationId), ("action", .str r.action),
    ("http_request", r.httpRequest.toJson), ("policy_input", r.policyInput),
    ("evidence_mode", .str r.evidenceMode)]
    ++ (match r.clientTimestamp with
      | some t => [("client_timestamp", .str t)]
      | none => []))

/-- The arguments that `execute_http` and `continue_http_execution` share. -/
structure Args where
  url : Str
  operationId : Str
  authorizationId : Str
  enabledExecutableId : Str
  catalogOperationId : Str
  action : Str
  method : Str
  headers : Option (List (Str × Str))
  body : Str
  evidenceMode : Str
  policyInput : Option (List (Str × Json))
  agentToken : Option Str
  nativeBinary : Option Str
  trustedNotaryKey : Option Str
  timeout : Float64
  deriving DecidableEq

/-- The policy input with its defaults, which the caller's members replace. -/
def policyInputOf (given : Option (List (Str × Json))) : Json :=
  .obj ((given.getD []).foldl (fun ms m => Json.insert m.1 m.2 ms)
    [(lit "resource", .null), (lit "context", .obj []), (lit "estimated_cost_micros", .null)])

/-- `0 < timeout <= 150`. -/
def timeoutValid (timeout : Float64) : Bool := !timeout.leInt 0 && timeout.leInt 150

/-- `_http_execution_request`: the request, without a time, and the private
    headers. -/
def httpExecutionRequest (L : Libs) (a : Args) : Except Exc (Requested × List (Str × Str)) := do
  if a.operationId = [] ∨ (a.evidenceMode ≠ lit "receipt" ∧ a.evidenceMode ≠ lit "witnessed")
      ∨ timeoutValid a.timeout = false then
    valueError "operation ID, evidence mode, or timeout is invalid"
  else
    let (descriptor, privateHeaders) ← request L a.url a.method (a.headers.getD []) a.body
    return ({ operationId := a.operationId, authorizationId := a.authorizationId
              enabledExecutableId := a.enabledExecutableId
              catalogOperationId := a.catalogOperationId, action := a.action
              httpRequest := descriptor, policyInput := policyInputOf a.policyInput
              evidenceMode := a.evidenceMode, clientTimestamp := none }, privateHeaders)

end Allowly

import Allowly.Base.Clock
import Allowly.Base.DotSegments
import Allowly.Base.Interleave
import Allowly.Base.Sha256
import Allowly.Core.Error

/-!
# The Cache of Key Documents

`fetch_keys_doc` and `clear_keys_doc_cache`. The cache belongs to the module, so all the
calls of a process share it, and a call looks at it, reads the clock, asks and stores one
after another.

An entry is kept under the URL, the pin and the lifetime of the call that stored it, and
says when it expires. The flag for insecure URLs and the HTTP client are not part of the
key. `edge_token` only adds a header to the request.

## Main definitions

* `KeysCall`: The arguments.
* `keysUrl`, `keysKey`: The URL that is asked, and the key of the cache.
* `readKeys`: The checks of the answer.
* `fetchKeysDoc`, `clearKeysDocCache`: The functions.
* `keysSystem`: Any number of calls that share the cache.
-/

namespace Allowly

open Py

/-- What a call can raise. -/
inductive KeysExc where
  /-- `VerificationError`. -/
  | verification (text : Str)
  /-- `ValueError`, for a URL or an ID. -/
  | value
  /-- `OverflowError`, for a lifetime that is no float. -/
  | overflow
  /-- What the HTTP client or the JSON decoder raises. -/
  | other (x : Exc)

/-- The package and the standard library, as far as the documents use them. -/
structure KeysLibs extends Libs where
  /-- `_load_keys_from_json`: the text of what it raises. -/
  loadKeys : Json → Option Str
  /-- `repr` of a JSON value. -/
  repr : Json → Str
  /-- `httpx.URL`, as text. -/
  normalUrl : Str → Str
  /-- Does `urlsplit` refuse the location for its characters outside ASCII? -/
  oddLocation : Str → Bool
  /-- What decoding raises for text that is no JSON. An integer that is too long is not
      refused in the same way as the rest. -/
  notJson : Str → KeysExc

/-- The arguments of `fetch_keys_doc`, besides the client. -/
structure KeysCall where
  workspaceId : Str
  baseUrl : Str
  cacheTtlSeconds : Int
  expectedSha256 : Option Str
  allowInsecure : Bool
  edgeToken : Option Str
  deriving DecidableEq

/-- `base_url.rstrip("/")`. -/
def stripSlashes (s : Str) : Str := (s.reverse.dropWhile (· == 47)).reverse

/-- The URL of the document. The ID must be text that can be encoded. -/
def keysUrl (baseUrl workspaceId : Str) : Option Str :=
  (quote workspaceId).map fun id =>
    stripSlashes baseUrl ++ lit "/v1/workspaces/" ++ id ++ lit "/keys"

/-- The key of the cache: the URL, the pin and the lifetime. -/
structure KeysKey where
  url : Str
  expectedSha256 : Option Str
  cacheTtlSeconds : Int
  deriving DecidableEq

def keysRefused {A : Type} (text : String) (shown : Str) : Except KeysExc A :=
  .error (.verification (lit text ++ shown))

/-- `fetch_keys_doc`, up to the cache. -/
def keysKey (K : KeysLibs) (c : KeysCall) : Except KeysExc KeysKey :=
  match keysUrl c.baseUrl c.workspaceId with
  | none => .error .value
  | some url =>
    match urlsplit url with
    | none => .error .value
    | some parsed =>
      if K.oddLocation parsed.netloc then .error .value
      else if parsed.netloc = [] then keysRefused "keys document URL must be valid: " url
      else if parsed.scheme ≠ lit "http" ∧ parsed.scheme ≠ lit "https" then
        keysRefused "keys document URL must use HTTP or HTTPS: " url
      else if parsed.scheme ≠ lit "https" ∧ c.allowInsecure = false then
        keysRefused "keys document URL must use HTTPS: " url
      else .ok { url, expectedSha256 := c.expectedSha256, cacheTtlSeconds := c.cacheTtlSeconds }

/-- An answer to the request. Its URL is that of the request it answers. -/
structure KeysResponse where
  status : Nat
  url : Str
  content : Bytes
  deriving DecidableEq

/-- The checks of an answer, up to the document. -/
def readKeys (K : KeysLibs) (c : KeysCall) (url : Str) (r : KeysResponse) : Except KeysExc Json :=
  if r.status ≠ 200 then
    keysRefused "failed to fetch keys document: expected HTTP 200, got " (natText r.status)
  else if r.url ≠ K.normalUrl url then
    keysRefused "keys document final URL changed: got " (r.url ++ lit ", want " ++ url)
  else
    let pinned := match c.expectedSha256 with
      | some pin => decide (hexdigest r.content = lower K.lowerOther pin)
      | none => true
    if pinned = false then keysRefused "keys document SHA-256 hash did not match expected pin" []
    else
      match decode false r.content with
      | none => keysRefused "keys document was not valid JSON" []
      | some text =>
        match loads text with
        | none => .error (K.notJson text)
        | some doc =>
          if doc.isObj ∧ doc.get "workspace_id" ≠ .str c.workspaceId then
            keysRefused "keys document workspace_id mismatch: got "
              (K.repr (doc.get "workspace_id") ++ lit ", want " ++ K.repr (.str c.workspaceId))
          else
            match K.loadKeys doc with
            | some text => .error (.verification text)
            | none => .ok doc

/-- `now + cache_ttl_seconds`. -/
def keysExpiry (now : Reading) (seconds : Int) : Except KeysExc Float64 :=
  if (Float64.ofInt seconds).isFinite then .ok (now.float.add (.ofInt seconds))
  else .error .overflow

/-- An entry of the cache: when it expires, and the document. -/
abbrev KeysEntry : Type := Float64 × Json

/-- What a call does. -/
inductive KeysOp where
  | look (key : KeysKey)
  /-- `time.time`. -/
  | time
  | get (url : Str) (headers : List (Str × Str))
  | store (key : KeysKey) (entry : KeysEntry)
  | clear
  deriving DecidableEq

def KeysOp.Answer : KeysOp → Type
  | look _ => Option KeysEntry
  | time => Reading
  | get .. => KeysResponse
  | store .. => Unit
  | clear => Unit

/-- What the HTTP client can raise. -/
inductive KeysFault where
  /-- `httpx.HTTPError`, with its text. -/
  | http (text : Str)
  | other (x : Exc)

def KeysFault.raised : KeysFault → KeysExc
  | http text => .verification (lit "failed to fetch keys document: " ++ text)
  | other x => .other x

abbrev KeysProg (A : Type) : Type := Prog KeysOp KeysOp.Answer KeysFault KeysExc A

def keysDo (o : KeysOp) : KeysProg o.Answer := Prog.perform KeysFault.raised o

def edgeHeaders (edgeToken : Option Str) : List (Str × Str) :=
  match edgeToken with
  | some token => [(lit "X-Allowly-Edge-Token", token)]
  | none => []

/-- `fetch_keys_doc`, when nothing in the cache can be used. -/
def fetchFresh (K : KeysLibs) (c : KeysCall) (key : KeysKey) (now : Reading) : KeysProg Json := do
  let answer ← keysDo (.get key.url (edgeHeaders c.edgeToken))
  let doc ← Prog.ofExcept (readKeys K c key.url answer)
  let expires ← Prog.ofExcept (keysExpiry now c.cacheTtlSeconds)
  let _ ← keysDo (.store key (expires, doc))
  return doc

/-- `fetch_keys_doc`. -/
def fetchKeysDoc (K : KeysLibs) (c : KeysCall) : KeysProg Json := do
  let key ← Prog.ofExcept (keysKey K c)
  let cached ← keysDo (.look key)
  let now ← keysDo .time
  match (cached : Option KeysEntry) with
  | some (expires, doc) => if Float64.lt now.float expires then return doc else fetchFresh K c key now
  | none => fetchFresh K c key now

/-- `clear_keys_doc_cache`. -/
def clearKeysDocCache : KeysProg Unit := keysDo .clear

/-! ### Calls that share the cache -/

inductive KeysCommand where
  | fetch (c : KeysCall)
  | clear
  deriving DecidableEq

/-- The cache, and the last reading of the clock. -/
structure KeysState where
  cache : KeysKey → Option KeysEntry
  clock : ℚ

def KeysState.empty : KeysState := { cache := fun _ => none, clock := 0 }

/-- What an operation does, if the answer is possible. The clock does not run backwards. -/
def keysPerform (o : KeysOp) (r : Except KeysFault o.Answer) (s : KeysState) : Option KeysState :=
  match o, r with
  | .look key, .ok (found : Option KeysEntry) => if found = s.cache key then some s else none
  | .time, .ok (t : Reading) => if s.clock ≤ t.value then some { s with clock := t.value } else none
  | .get .., _ => some s
  | .store key entry, .ok _ =>
    some { s with cache := fun k => if k = key then some entry else s.cache k }
  | .clear, .ok _ => some { s with cache := fun _ => none }
  | _, .error _ => none

/-- Any number of calls that share the cache. -/
def keysSystem (K : KeysLibs) : Interleave.System KeysOp KeysOp.Answer KeysFault KeysExc
    (Option Json) KeysCommand KeysState Unit where
  code c := match c with
    | .fetch c => some <$> fetchKeysDoc K c
    | .clear => (fun _ => none) <$> clearKeysDocCache
  admits _ := true
  perform _ _ o r s := keysPerform o r s
  spawns _ _ := none
  finish _ _ s := s
  crash _ s := s
  disturb _ _ := none

end Allowly

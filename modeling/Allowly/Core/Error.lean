import Allowly.Base.Float
import Allowly.Base.Json

/-!
# Errors and Outside Code

What a call can raise, and the code the program relies on that is not its own.

An error carries its text as the source has it. Where the source shows a value in
the text, the text stands without it and the value is kept beside it.
`AllowlyProtocolError` is a `ValueError`, which matters wherever the source catches
one. The only thing that is not an `Exception` is a cancellation, so it passes every
`except Exception`.

`Libs` is the outside code: the receipt format package, the parts of `datetime`
that differ between interpreter versions, letter case outside ASCII, and the HTTP
client's own check of header values. It is a parameter of everything that uses it.

## Main definitions

* `Exc`: Exceptions.
* `Exc.isValueError`, `Exc.isException`: What `except` clauses distinguish.
* `Stamp`: A point in time, as `datetime` has it.
* `Libs`: Outside code.
-/

namespace Allowly

open Py

/-- What a call can raise. -/
inductive Exc where
  /-- `AllowlyProtocolError`. -/
  | protocol (text : String) (shown : Option Str)
  /-- `ValueError`, including the errors of text encodings. -/
  | value (text : String)
  | type
  | attribute
  | key
  /-- `SealInputError` of the receipt format package, a `ValueError`. -/
  | sealInput
  /-- `VerificationError` of the receipt format package. -/
  | verification (text : Str)
  /-- `ExecutionRecoveryRequired`. -/
  | recovery
  /-- `AllowlyAPIError`. -/
  | api (status : Nat) (code message : Str) (fields : List (Str × Str))
      (retryAfter : Option Float64)
  | fileExists
  | fileNotFound
  /-- Any other `OSError`. -/
  | os
  /-- `asyncio.TimeoutError`, the built-in `TimeoutError`. -/
  | timeout
  /-- `httpx.TimeoutException`. -/
  | httpTimeout
  /-- `httpx.RemoteProtocolError`, a `TransportError`. -/
  | remoteProtocol
  /-- Any other `httpx.TransportError`. -/
  | transport
  /-- `httpx.DecodingError`. -/
  | decoding
  /-- `asyncio.CancelledError`. -/
  | cancelled

namespace Exc

/-- Does `except ValueError` catch it? -/
def isValueError : Exc → Bool
  | protocol .. => true
  | value _ => true
  | sealInput => true
  | _ => false

/-- Does `except Exception` catch it? -/
def isException : Exc → Bool
  | cancelled => false
  | _ => true

def isRecovery : Exc → Bool
  | recovery => true
  | _ => false

/-- Does `except OSError` catch it? -/
def isOSError : Exc → Bool
  | fileExists => true
  | fileNotFound => true
  | os => true
  | timeout => true
  | _ => false

/-- Is it an `httpx.TransportError`? -/
def isTransport : Exc → Bool
  | httpTimeout => true
  | remoteProtocol => true
  | transport => true
  | _ => false

end Exc

/-- A `datetime`: whether it knows its time zone, and its microseconds since the
    epoch in that zone or on the clock it shows. -/
structure Stamp where
  aware : Bool
  micros : Int
  deriving DecidableEq

/-- Code outside the repository. -/
structure Libs where
  /-- `hash_seal_value`, which raises on what has no canonical form. -/
  hashSealValue : Json → Option Str
  /-- `decode_receipt`: the claims, or the text of the `VerificationError`. -/
  decodeReceipt : Json → Except Str Json
  /-- `datetime.fromisoformat`. -/
  fromisoformat : Str → Option Stamp
  /-- `isoformat` of a time in UTC, given in microseconds since the epoch. -/
  isoformat : Int → Str
  /-- `str.lower` on text that is not all ASCII. -/
  lowerOther : Str → Str
  /-- `str.upper` on text that is not all ASCII. -/
  upperOther : Str → Str
  /-- The value of a decimal digit outside ASCII, as `\d` and `int` know it. -/
  otherDigit : Nat → Option Nat
  /-- Can the HTTP client put these headers on a request? -/
  sendable : List (Str × Str) → Bool
  /-- The compressed form of an encoded point of the notary's curve. -/
  compressPoint : Bytes → Option Bytes

end Allowly

import Allowly.Base.Polling
import Allowly.Base.Rounding
import Allowly.Core.Client

/-!
# Receipts

Reading a receipt, and polling until it is signed.

What `receipts.get` gives in a round of the polling is up to the server. The rounds
carry the times at which the loop reads its clock: at its head, when the outcome of
the poll is there, and before it sleeps. Times are exact, in seconds.

## Main definitions

* `callPlain`: `_request`, without identity headers.
* `receiptsGet`: `receipts.get`.
* `judgePoll`: What `fetch_signed` does with the outcome of a poll.
* `fetchSigned`: `fetch_signed`.
-/

namespace Allowly

open Py

/-- `_request` with headers of the caller's own. -/
def callPlain (L : Libs) (c : Client) (route : Route) (json : Option Json)
    (headers : List (Str × Str)) (expected : List Nat) : Call Json := do
  match route.path with
  | none => raise (.value "'utf-8' codec can't encode")
  | some path =>
    let (data, _) ← requestWithHeaders L c route path json headers expected
    return data

/-- `receipts.get`. -/
def receiptsGet (L : Libs) (c : Client) (receiptId : Str) : Call ReceiptEnvelope := do
  let raw ← callPlain L c (.receipt receiptId) none [] [200]
  computed (parseReceiptEnvelope L raw)

/-- The statuses after which the receipt is asked for again. -/
def isTransientStatus (status : Nat) : Bool :=
  status == 408 || status == 429 || (500 ≤ status && status ≤ 599)

/-- `Retry-After` as a delay. Besides numbers `_parse_retry_after` lets infinity
    through. -/
def retryDelay (x : Float64) : WithTop ℚ :=
  match x.value with
  | some seconds => seconds
  | none => ⊤

/-- The receipt, if it is the one that was asked for. -/
def signedReceipt (L : Libs) (receiptId : Str) (receipt : Json) : Except Exc Json :=
  match L.decodeReceipt receipt with
  | .error text => .error (.verification text)
  | .ok claims =>
    if claims.has "receipt_id" = false then .error .key
    else if claims.get "receipt_id" ≠ .str receiptId then
      protocolError "signed receipt_id does not match the requested receipt" none
    else .ok receipt

/-- What `fetch_signed` does with the outcome of a poll. A `TimeoutError` of the poll
    itself breaks the loop, which ends in a `TimeoutError`. -/
def judgePoll (L : Libs) (receiptId : Str) (pollInterval : WithTop ℚ) :
    Except Exc ReceiptEnvelope → Polling.Verdict ℚ (Except Exc Json)
  | .ok (.pending ..) => .wait pollInterval
  | .ok (.signed receipt) => .stop (signedReceipt L receiptId receipt)
  | .error (.api status code message fields retryAfter) =>
    if isTransientStatus status then .wait ((retryAfter.map retryDelay).getD pollInterval)
    else .stop (.error (.api status code message fields retryAfter))
  | .error x => if x.isTransport then .wait pollInterval else .stop (.error x)

/-- After the loop there is nothing left but to raise `TimeoutError`. -/
def fetchEnding : Polling.Ending (Except Exc Json) → Except Exc Json
  | .stopped result => result
  | .expired => .error .timeout

/-- A pass of the loop. -/
abbrev PollRound := Polling.Round ℚ (Except Exc ReceiptEnvelope)

/-- `fetch_signed`, started at a time, on the first `n` rounds: what it did, and what
    became of it. -/
def fetchSigned (L : Libs) (receiptId : Str) (pollInterval timeout : WithTop ℚ) (start : ℚ)
    (rounds : Nat → PollRound) (n : Nat) : List (Polling.Act ℚ) × Option (Except Exc Json) :=
  if pollInterval ≤ 0 then ([], some (valueError "poll_interval must be positive"))
  else if timeout ≤ 0 then ([], some (valueError "timeout must be positive"))
  else
    let r := Polling.run (judgePoll L receiptId pollInterval) (start + timeout) rounds n 0
    (r.1, r.2.map fetchEnding)

end Allowly

import Allowly.Base.Text
import Allowly.Base.Float
import Allowly.Base.Rounding
import Allowly.Base.Json
import Allowly.Base.JsonText
import Allowly.Base.JsonGrammar
import Allowly.Base.JsonScan
import Allowly.Base.JsonRoundTrip
import Allowly.Base.JsonChars
import Allowly.Base.Program
import Allowly.Base.Interleave
import Allowly.Base.Twin
import Allowly.Base.Token
import Allowly.Base.Trail
import Allowly.Base.Sha256
import Allowly.Base.Url
import Allowly.Base.Base64
import Allowly.Base.Query
import Allowly.Base.DotSegments
import Allowly.Base.Clock
import Allowly.Base.Polling
import Allowly.Core.Error
import Allowly.Core.Types
import Allowly.Core.Wire
import Allowly.Core.Request
import Allowly.Core.Operation
import Allowly.Core.Client
import Allowly.Core.Journal
import Allowly.Core.Witness
import Allowly.Core.Execution
import Allowly.Core.Policy
import Allowly.Core.Check
import Allowly.Core.Webhook
import Allowly.Core.Mcp
import Allowly.Core.SealWebhook
import Allowly.Core.Receipts
import Allowly.Core.Sealing
import Allowly.Core.Keys
import Allowly.Core.Resources
import Allowly.Core.Policies
import Allowly.Core.World
import Allowly.Theory.Scenario
import Allowly.Theory.Response
import Allowly.Theory.Encoding
import Allowly.Theory.Descriptor
import Allowly.Theory.Destination
import Allowly.Theory.Addressing
import Allowly.Theory.Contract
import Allowly.Theory.Replies
import Allowly.Theory.KeyCache
import Allowly.Theory.Notification
import Allowly.Theory.Redaction
import Allowly.Theory.Strict
import Allowly.Theory.Delivery
import Allowly.Theory.Deadline
import Allowly.Theory.Sealed
import Allowly.Theory.Journaled
import Allowly.Theory.Readiness
import Allowly.Theory.Protocol
import Allowly.Theory.Silent
import Allowly.Theory.Conformance
import Allowly.Theory.Calls
import Allowly.Theory.State
import Allowly.Theory.Effect
import Allowly.Theory.Hold
import Allowly.Theory.Invariant
import Allowly.Theory.Memory
import Allowly.Theory.Saved
import Allowly.Theory.Once
import Allowly.Theory.Approved
import Allowly.Theory.Recovery
import Allowly.Theory.Continuation
import Allowly.Theory.Binding
import Allowly.Theory.Outcome
import Allowly.Theory.ReadBack
import Allowly.Theory.Rejection
import Allowly.Theory.Permission
import Allowly.Theory.Policies
import Allowly.Core.Evidence
import Allowly.Base.Beside
import Allowly.Theory.Evidence
import Allowly.Theory.Typed
import Allowly.Theory.Endpoint
import Allowly.Theory.Reparse
import Allowly.Theory.Reopen
import Allowly.Theory.Gate
import Allowly.Theory.Nonce
import Allowly.Base.AsciiText

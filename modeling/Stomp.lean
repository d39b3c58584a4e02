import Stomp.Connection.Action
import Stomp.Frame.Parser
import Stomp.Text.Utf8.Lemmas
import Stomp.Tools.Call
import Stomp.Proofs.Text.Characters
import Stomp.Proofs.Text.Correspondence
import Stomp.Proofs.Text.Hexadecimal
import Stomp.Proofs.Text.Numeral
import Stomp.Proofs.Text.Octets
import Stomp.Proofs.Headers.Escape
import Stomp.Proofs.Headers.Overlay
import Stomp.Proofs.Headers.Unescaping
import Stomp.Proofs.Reader.Tape
import Stomp.Proofs.Frame.Agreement
import Stomp.Proofs.Frame.Canonical
import Stomp.Proofs.Frame.Layout
import Stomp.Proofs.Frame.Outgoing
import Stomp.Proofs.Frame.Overriding
import Stomp.Proofs.Frame.Parsing
import Stomp.Proofs.Frame.Progress
import Stomp.Proofs.Frame.RawText
import Stomp.Proofs.Frame.Reparsing
import Stomp.Proofs.Frame.RoundTrip
import Stomp.Proofs.Frame.Spelling
import Stomp.Proofs.Frame.Succession
import Stomp.Proofs.Operation
import Stomp.Proofs.History
import Stomp.Proofs.Independence
import Stomp.Proofs.Oblivious
import Stomp.Proofs.Stream.Available
import Stomp.Proofs.Stream.Closing
import Stomp.Proofs.Stream.Deadline
import Stomp.Proofs.Stream.Independence
import Stomp.Proofs.Stream.Oblivious
import Stomp.Proofs.Stream.Steps
import Stomp.Proofs.Stream.Waiting
import Stomp.Proofs.Connection.Accounts
import Stomp.Proofs.Connection.Acknowledging
import Stomp.Proofs.Connection.Chunking
import Stomp.Proofs.Connection.Closing
import Stomp.Proofs.Connection.Delimiting
import Stomp.Proofs.Connection.EitherWay
import Stomp.Proofs.Connection.Handshake
import Stomp.Proofs.Connection.InputBuffer
import Stomp.Proofs.Connection.Interleaving
import Stomp.Proofs.Connection.RawReceiving
import Stomp.Proofs.Connection.Receiving
import Stomp.Proofs.Connection.Releasing
import Stomp.Proofs.Connection.Reopening
import Stomp.Proofs.Connection.Sending
import Stomp.Proofs.Connection.Serving
import Stomp.Proofs.Connection.Session
import Stomp.Proofs.Connection.Steps
import Stomp.Proofs.Connection.TextPath
import Stomp.Proofs.Connection.TimeLimit
import Stomp.Proofs.Connection.Truncation
import Stomp.Proofs.Connection.WithTime
import Stomp.Proofs.Tools.Farewell
import Stomp.Proofs.Tools.Receiving
import Stomp.Proofs.Tools.Session
import Stomp.Proofs.Tools.Showing

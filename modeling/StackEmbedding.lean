import StackEmbedding.Stack.Operation
import StackEmbedding.Settings.Text
import StackEmbedding.Script.Run
import StackEmbedding.Proofs.Machine.Footprint
import StackEmbedding.Proofs.Program.Call
import StackEmbedding.Proofs.Program.Configuration
import StackEmbedding.Proofs.Program.Agreement
import StackEmbedding.Proofs.Machine.SlotIdentity
import StackEmbedding.Proofs.Program.Isolation
import StackEmbedding.Proofs.Host.Push
import StackEmbedding.Proofs.Host.Store
import StackEmbedding.Proofs.Program.Staleness
import StackEmbedding.Proofs.Program.Change
import StackEmbedding.Proofs.Machine.Locality
import StackEmbedding.Proofs.Program.Locality
import StackEmbedding.Proofs.Host.CallFailure
import StackEmbedding.Proofs.Program.Handler
import StackEmbedding.Proofs.Host.CallHandler
import StackEmbedding.Proofs.Host.TypedCall
import StackEmbedding.Proofs.Number.Magnitude
import StackEmbedding.Proofs.Table.Key
import StackEmbedding.Proofs.Text.Utf8
import StackEmbedding.Proofs.Host.Fetch
import StackEmbedding.Proofs.Host.Access
import StackEmbedding.Proofs.Host.RoundTrip
import StackEmbedding.Proofs.Host.WriteRead
import StackEmbedding.Proofs.Host.NamedField
import StackEmbedding.Proofs.Program.Depth
import StackEmbedding.Proofs.Program.Guard
import StackEmbedding.Proofs.Table.Border
import StackEmbedding.Proofs.Program.Objects
import StackEmbedding.Proofs.Host.Length
import StackEmbedding.Proofs.Machine.TableAccess
import StackEmbedding.Proofs.Program.Transfer
import StackEmbedding.Proofs.Host.Decoding
import StackEmbedding.Proofs.Host.Entry
import StackEmbedding.Proofs.Number.Nearest
import StackEmbedding.Proofs.Number.Form
import StackEmbedding.Proofs.Number.Reader
import StackEmbedding.Proofs.Number.FloatText
import StackEmbedding.Proofs.Stack.Rotation
import StackEmbedding.Proofs.Stack.Stamps
import StackEmbedding.Proofs.Machine.Shuffle
import StackEmbedding.Proofs.Machine.Rotation
import StackEmbedding.Proofs.Machine.Coercion

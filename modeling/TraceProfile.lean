import TraceProfile.Buffer.Access
import TraceProfile.Buffer.Entry
import TraceProfile.Buffer.Fragments
import TraceProfile.Buffer.Ownership
import TraceProfile.Buffer.Window
import TraceProfile.Buffer.Wire
import TraceProfile.Command.Descriptions
import TraceProfile.Command.Options
import TraceProfile.Command.Run
import TraceProfile.Jit.Coverage
import TraceProfile.Jit.Range
import TraceProfile.Jit.Timeline
import TraceProfile.Json.Printer
import TraceProfile.Json.Reader
import TraceProfile.Json.Token
import TraceProfile.Json.Tree
import TraceProfile.Json.Value
import TraceProfile.Main
import TraceProfile.Number.Binary64
import TraceProfile.Number.Numeral
import TraceProfile.Number.Power
import TraceProfile.Number.Reader
import TraceProfile.Number.Shortest
import TraceProfile.Number.Style
import TraceProfile.Profile.Notice
import TraceProfile.Profile.Process
import TraceProfile.Profile.Session
import TraceProfile.Profile.Tables
import TraceProfile.Profile.Thread
import TraceProfile.Proofs.Buffer.Placement
import TraceProfile.Proofs.Jit.Answers
import TraceProfile.Proofs.Jit.Lookup
import TraceProfile.Proofs.Jit.Retention
import TraceProfile.Proofs.Profile.Display
import TraceProfile.Proofs.Profile.Linked
import TraceProfile.Proofs.Profile.Samples
import TraceProfile.Proofs.Profile.TableInvariant
import TraceProfile.Proofs.Profile.WrittenSamples
import TraceProfile.Proofs.Reading.Attribution
import TraceProfile.Proofs.Reading.Written
import TraceProfile.Proofs.Session.Contexts
import TraceProfile.Proofs.Session.Handover
import TraceProfile.Proofs.Session.History
import TraceProfile.Proofs.Session.Resolution
import TraceProfile.Proofs.Table.Growth
import TraceProfile.Proofs.Text.Decoding
import TraceProfile.Reading.Counter
import TraceProfile.Reading.Marker
import TraceProfile.Reading.Memory
import TraceProfile.Reading.Overhead
import TraceProfile.Reading.Pause
import TraceProfile.Reading.Sample
import TraceProfile.Reading.Settings
import TraceProfile.Table.Frame
import TraceProfile.Table.Grouping
import TraceProfile.Table.Interner
import TraceProfile.Table.Layout
import TraceProfile.Table.Stack
import TraceProfile.Text.Printable
import TraceProfile.Text.Quoted
import TraceProfile.Text.Utf8
import TraceProfile.Proofs.Session.Omission
import TraceProfile.Proofs.Profile.Sharing
import TraceProfile.Proofs.Profile.CodeSearch
import TraceProfile.Proofs.Buffer.Words
import TraceProfile.Proofs.Buffer.Codec
import TraceProfile.Proofs.Buffer.Tail
import TraceProfile.Proofs.Reading.Runs
import TraceProfile.Proofs.Reading.Ownership
import TraceProfile.Proofs.Session.Isolation
import TraceProfile.Proofs.Profile.Eviction
import TraceProfile.Proofs.Profile.Listing
import TraceProfile.Proofs.Profile.Deduplication
import TraceProfile.Proofs.Jit.Consultation
import TraceProfile.Proofs.Profile.Rendering
import TraceProfile.Proofs.Reading.SinglePass
import TraceProfile.Proofs.Jit.Expiry
import TraceProfile.Proofs.Reading.CounterRuns
import TraceProfile.Proofs.Reading.Counters
import TraceProfile.Proofs.Reading.Reassignment
import TraceProfile.Proofs.Profile.SinceTime
import TraceProfile.Proofs.Profile.StackHashes
import TraceProfile.Proofs.Guarded.Fault
import TraceProfile.Proofs.Guarded.Cursor
import TraceProfile.Proofs.Guarded.Samples
import TraceProfile.Proofs.Guarded.Readings
import TraceProfile.Proofs.Guarded.Counters
import TraceProfile.Proofs.Guarded.Session
import TraceProfile.Proofs.Buffer.Reassembly
import TraceProfile.Proofs.Jit.Discarding
import TraceProfile.Proofs.Reading.LabelText
import TraceProfile.Proofs.Session.Questions
import TraceProfile.Proofs.Reading.MemoryReadings
import TraceProfile.Proofs.Command.Failure
import TraceProfile.Proofs.Profile.MarkerNames
import TraceProfile.Proofs.Reading.Pauses
import TraceProfile.Proofs.Number.Numerals
import TraceProfile.Proofs.Command.CounterIds
import TraceProfile.Table.Writing
import TraceProfile.Proofs.Table.Copies

import DetachedSchema.Action
import DetachedSchema.Arguments
import DetachedSchema.Codec
import DetachedSchema.Codec.Entry
import DetachedSchema.Codec.Listing
import DetachedSchema.Codec.Snapshot
import DetachedSchema.Command
import DetachedSchema.DataType
import DetachedSchema.Decimal.Notation
import DetachedSchema.Decimal.Shortest
import DetachedSchema.Defect
import DetachedSchema.Descriptor
import DetachedSchema.Detach
import DetachedSchema.Detach.KeyIndex
import DetachedSchema.Detach.Walk
import DetachedSchema.Digest.Sha256
import DetachedSchema.Entry
import DetachedSchema.Envelope
import DetachedSchema.Event
import DetachedSchema.Fault
import DetachedSchema.FilePath
import DetachedSchema.Files
import DetachedSchema.Filter
import DetachedSchema.Format
import DetachedSchema.Ident
import DetachedSchema.Json.Fault
import DetachedSchema.Json.Printer
import DetachedSchema.Json.Reader
import DetachedSchema.Listing.Basic
import DetachedSchema.Listing.Prefetch
import DetachedSchema.Listing.Source
import DetachedSchema.Main
import DetachedSchema.Path
import DetachedSchema.Require
import DetachedSchema.Script
import DetachedSchema.Settings
import DetachedSchema.Snapshot.Basic
import DetachedSchema.Snapshot.Consistency
import DetachedSchema.Snapshot.Fingerprint
import DetachedSchema.Snapshot.Source
import DetachedSchema.Snapshot.Stats
import DetachedSchema.Source
import DetachedSchema.Storage
import DetachedSchema.Text.Blank
import DetachedSchema.Text.Printable
import DetachedSchema.Text.Quoted
import DetachedSchema.Text.Split
import DetachedSchema.Text.Terminal
import DetachedSchema.Timestamp
import DetachedSchema.Tree
import DetachedSchema.Yaml.Glyph
import DetachedSchema.Yaml.Node
import DetachedSchema.Yaml.Plain
import DetachedSchema.Yaml.Printer
import DetachedSchema.Yaml.Reader
import DetachedSchema.Yaml.Scalar
import DetachedSchema.Yaml.Tag
import DetachedSchema.Yaml.Token
import DetachedSchema.Proofs.Script.Outcome
import DetachedSchema.Proofs.Script.Follows
import DetachedSchema.Proofs.Script.Asks
import DetachedSchema.Proofs.Except
import DetachedSchema.Proofs.Traversal
import DetachedSchema.Proofs.Detach.Walk
import DetachedSchema.Proofs.Detach.KeyIndex
import DetachedSchema.Proofs.Listing.Placed
import DetachedSchema.Proofs.Detach.Resolve
import DetachedSchema.Proofs.Snapshot.Consistency
import DetachedSchema.Proofs.Detach.Consistency
import DetachedSchema.Proofs.Detach.References
import DetachedSchema.Proofs.Detach.Questions
import DetachedSchema.Proofs.Listing.Entries
import DetachedSchema.Proofs.Detach.Answers
import DetachedSchema.Proofs.Detach.FixedPoint
import DetachedSchema.Proofs.Detach.Recorded
import DetachedSchema.Proofs.Detach.ByPath
import DetachedSchema.Proofs.Snapshot.Renumbering
import DetachedSchema.Proofs.Snapshot.Filtered
import DetachedSchema.Proofs.Detach.Filtered
import DetachedSchema.Proofs.Detach.Hidden
import DetachedSchema.Proofs.Snapshot.Reordered
import DetachedSchema.Proofs.Detach.Alike
import DetachedSchema.Proofs.Detach.Reordered
import DetachedSchema.Proofs.Detach.Prefetched
import DetachedSchema.Proofs.Snapshot.Navigation
import DetachedSchema.Proofs.Snapshot.Listing
import DetachedSchema.Proofs.Detach.Unchecked
import DetachedSchema.Proofs.Detach.Normal
import DetachedSchema.Proofs.Action
import DetachedSchema.Proofs.Codec.Faithful
import DetachedSchema.Proofs.Codec.Fits
import DetachedSchema.Proofs.Codec.Lawful
import DetachedSchema.Proofs.Codec.Records
import DetachedSchema.Proofs.Command
import DetachedSchema.Proofs.Check
import DetachedSchema.Proofs.Digest
import DetachedSchema.Proofs.Envelope.Tampering
import DetachedSchema.Proofs.Envelope.RoundTrip
import DetachedSchema.Proofs.Envelope.Verification
import DetachedSchema.Proofs.Yaml.Document
import DetachedSchema.Proofs.Detach.Calls
import DetachedSchema.Proofs.Detach.Faults
import DetachedSchema.Proofs.Listing.Prefetched
import DetachedSchema.Proofs.Detach.Nested
import DetachedSchema.Proofs.Script.Told
import DetachedSchema.Proofs.Detach.Told
import DetachedSchema.Proofs.Detach.Overheard
import DetachedSchema.Proofs.Detach.Conservation
import DetachedSchema.Proofs.Snapshot.Referencing
import DetachedSchema.Proofs.Snapshot.Lookup
import DetachedSchema.Proofs.Failing
import DetachedSchema.Proofs.Format
import DetachedSchema.Proofs.Grounds
import DetachedSchema.Proofs.Settings
import DetachedSchema.Proofs.Script.Ends
import DetachedSchema.Proofs.Detach.Copies
import DetachedSchema.Proofs.Detach.InPlace

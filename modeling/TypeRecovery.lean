import TypeRecovery.Alternatives
import TypeRecovery.Analysis
import TypeRecovery.AnalysisError
import TypeRecovery.Arena.Basic
import TypeRecovery.Arena.Congruence
import TypeRecovery.Arena.Forest
import TypeRecovery.Ascending
import TypeRecovery.Collection
import TypeRecovery.Config
import TypeRecovery.Constraint
import TypeRecovery.DataType.Basic
import TypeRecovery.DataType.Codec
import TypeRecovery.DataType.Join
import TypeRecovery.DataType.Text
import TypeRecovery.Ident
import TypeRecovery.Json.Basic
import TypeRecovery.Json.Decimal
import TypeRecovery.Json.Decoder
import TypeRecovery.Json.Reader
import TypeRecovery.Json.Writer
import TypeRecovery.Listing.Basic
import TypeRecovery.Listing.Codec
import TypeRecovery.MemoryMap
import TypeRecovery.Program
import TypeRecovery.Remark
import TypeRecovery.Resolution.Evidence
import TypeRecovery.Resolution.Inquiry
import TypeRecovery.Resolution.Layout
import TypeRecovery.Resolution.Resolver
import TypeRecovery.Resolution.Verdict
import TypeRecovery.Shape.Basic
import TypeRecovery.Shape.Codec
import TypeRecovery.Text.Hex
import TypeRecovery.Trace.Builder
import TypeRecovery.Trace.Codec
import TypeRecovery.Trace.Operand
import TypeRecovery.Trace.Operation
import TypeRecovery.Trace.Record
import TypeRecovery.Variable
import TypeRecovery.Proofs.Arena.Coherence
import TypeRecovery.Proofs.Arena.Calls
import TypeRecovery.Proofs.Arena.Partition
import TypeRecovery.Proofs.Arena.Conservation
import TypeRecovery.Proofs.Arena.LeastCongruence
import TypeRecovery.Proofs.Arena.MergeOrder
import TypeRecovery.Proofs.Arena.Kinds
import TypeRecovery.Proofs.Collection
import TypeRecovery.Proofs.Resolution.Verdict
import TypeRecovery.Proofs.Resolution.Resolver
import TypeRecovery.Proofs.Separation
import TypeRecovery.Proofs.Arena.References
import TypeRecovery.Proofs.Resolution.Layout
import TypeRecovery.Proofs.Account
import TypeRecovery.Proofs.Listing
import TypeRecovery.Proofs.Unassigned
import TypeRecovery.Proofs.Tracking
import TypeRecovery.Proofs.Walk
import TypeRecovery.Proofs.Records
import TypeRecovery.Proofs.Ingestion
import TypeRecovery.Proofs.Totality
import TypeRecovery.Proofs.Resolution.Agreement
import TypeRecovery.Proofs.StorageTypes
import TypeRecovery.Proofs.OperationOrder
import TypeRecovery.Proofs.Arena.Lifecycle
import TypeRecovery.Proofs.Procedures
import TypeRecovery.Proofs.Permanence
import TypeRecovery.Proofs.Consistency
import TypeRecovery.Proofs.Resolution.Coverage
import TypeRecovery.Proofs.Resolution.Collapsing
import TypeRecovery.Proofs.Segments
import TypeRecovery.Proofs.GlobalAccess
import TypeRecovery.Proofs.Alternatives
import TypeRecovery.Proofs.Shape.Merge
import TypeRecovery.Proofs.Shape.Erasure
import TypeRecovery.Proofs.Resolution.Questions
import TypeRecovery.Proofs.Resolution.Run
import TypeRecovery.Proofs.Resolution.Completion
import TypeRecovery.Proofs.Resolution.Order
import TypeRecovery.Proofs.DataType.Scalars
import TypeRecovery.Proofs.MemoryMap
import TypeRecovery.Proofs.Locations
import TypeRecovery.Proofs.GlobalMerge
import TypeRecovery.Proofs.Resolution.Accesses
import TypeRecovery.Proofs.Resolution.Tiling
import TypeRecovery.Proofs.Resolution.Overlaps
import TypeRecovery.Proofs.Resolution.Arrays
import TypeRecovery.Proofs.Resolution.Cycles
import TypeRecovery.Proofs.Chronology
import TypeRecovery.Proofs.Precedence
import TypeRecovery.Proofs.Signatures
import TypeRecovery.Proofs.NormalForm
import TypeRecovery.Proofs.Arena.Likeness
import TypeRecovery.Proofs.WrittenTraces
import TypeRecovery.Proofs.Allocation
import TypeRecovery.Proofs.Arena.Stability
import TypeRecovery.Proofs.Json.Decoding
import TypeRecovery.Proofs.SegmentOrder
import TypeRecovery.Proofs.RecordText
import TypeRecovery.Proofs.DataType.Codec
import TypeRecovery.Proofs.ListingText
import TypeRecovery.Proofs.RoundTrip
import TypeRecovery.Proofs.Arena.Ranks
import TypeRecovery.Proofs.Absorption

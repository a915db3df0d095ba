import TaggedUnion.Main
import TaggedUnion.Proofs.Document.Vocabulary
import TaggedUnion.Proofs.Document.Extension
import TaggedUnion.Proofs.Document.Canonical
import TaggedUnion.Proofs.Artifact.Acceptance
import TaggedUnion.Proofs.Artifact.Confinement
import TaggedUnion.Proofs.Artifact.Recovery
import TaggedUnion.Proofs.Artifact.Pairing
import TaggedUnion.Proofs.Artifact.Truncation
import TaggedUnion.Proofs.Artifact.Members
import TaggedUnion.Proofs.Disk.Tree
import TaggedUnion.Proofs.Disk.Walk
import TaggedUnion.Proofs.Disk.Directories
import TaggedUnion.Proofs.Disk.Obstacles
import TaggedUnion.Proofs.Batch.Replacement
import TaggedUnion.Proofs.Batch.Processing
import TaggedUnion.Proofs.Batch.Completion
import TaggedUnion.Proofs.Batch.Consistency
import TaggedUnion.Proofs.Batch.Outputs
import TaggedUnion.Proofs.Batch.Beside
import TaggedUnion.Proofs.Batch.Independence
import TaggedUnion.Proofs.Batch.Listing
import TaggedUnion.Proofs.Batch.Rewriting
import TaggedUnion.Proofs.Batch.Rediscovery
import TaggedUnion.Proofs.Batch.Repetition
import TaggedUnion.Proofs.Batch.Fidelity
import TaggedUnion.Proofs.Batch.Footprint
import TaggedUnion.Proofs.Batch.Placement
import TaggedUnion.Proofs.Artifact.Distinction
import TaggedUnion.Proofs.Artifact.Dispatch
import TaggedUnion.Proofs.Artifact.Construction
import TaggedUnion.Proofs.Artifact.Depth
import TaggedUnion.Proofs.Document.Layout
import TaggedUnion.Proofs.Document.Newlines
import TaggedUnion.Proofs.Document.Remarks
import TaggedUnion.Proofs.Document.Copying
import TaggedUnion.Proofs.Generation.Enforcement
import TaggedUnion.Proofs.Generation.LineEndings
import TaggedUnion.Proofs.Batch.Inventory
import TaggedUnion.Proofs.Generation.SingleLine
import TaggedUnion.Proofs.Artifact.Hygiene
import TaggedUnion.Proofs.Document.Registers
import TaggedUnion.Proofs.Document.Simulation

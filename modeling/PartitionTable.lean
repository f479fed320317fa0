import PartitionTable.Main
import PartitionTable.Probe
import PartitionTable.Rack
import PartitionTable.Stream
import PartitionTable.Summary
import PartitionTable.Proofs.BootRecord
import PartitionTable.Proofs.BuiltIn
import PartitionTable.Proofs.Blocks
import PartitionTable.Proofs.Host
import PartitionTable.Proofs.Host.Pieces
import PartitionTable.Proofs.Delivery
import PartitionTable.Proofs.Cache
import PartitionTable.Proofs.Cache.Recency
import PartitionTable.Proofs.Cache.Stamps
import PartitionTable.Proofs.Cache.Misses
import PartitionTable.Proofs.Chain.Bounds
import PartitionTable.Proofs.Chain.Resolution
import PartitionTable.Proofs.Chain.InStep
import PartitionTable.Proofs.Chain.Interruption
import PartitionTable.Proofs.Chain.Depth
import PartitionTable.Proofs.Chain.Faults
import PartitionTable.Proofs.Chain.Warnings
import PartitionTable.Proofs.Reader.Session
import PartitionTable.Proofs.Reader.Reads
import PartitionTable.Proofs.Reader.Faults
import PartitionTable.Proofs.Reader.Copy
import PartitionTable.Proofs.Reader.Safety
import PartitionTable.Proofs.Reader.Misses
import PartitionTable.Proofs.Reader.AtHand
import PartitionTable.Proofs.Reader.Retry
import PartitionTable.Proofs.Opening
import PartitionTable.Proofs.Opening.Conduct
import PartitionTable.Proofs.Opening.Depth
import PartitionTable.Proofs.Opening.Route
import PartitionTable.Proofs.Opening.Warnings
import PartitionTable.Proofs.Lifetime
import PartitionTable.Proofs.Lifetime.Fields
import PartitionTable.Proofs.Placement
import PartitionTable.Proofs.Probe
import PartitionTable.Proofs.Probe.Visit
import PartitionTable.Proofs.Heed
import PartitionTable.Proofs.Likeness
import PartitionTable.Proofs.Likeness.Volume
import PartitionTable.Proofs.Likeness.Reader
import PartitionTable.Proofs.Likeness.Block
import PartitionTable.Proofs.Ensemble
import PartitionTable.Proofs.Ensemble.Closed
import PartitionTable.Proofs.Ensemble.Hush
import PartitionTable.Proofs.Ensemble.Custody
import PartitionTable.Proofs.Ensemble.Reopening
import PartitionTable.Proofs.Warnings
import PartitionTable.Proofs.Command.Grammar
import PartitionTable.Proofs.Command.Reading
import PartitionTable.Proofs.Command.Running
import PartitionTable.Proofs.Command.Faithful
import PartitionTable.Proofs.Command.Settled

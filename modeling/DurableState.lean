import DurableState.DataNode
import DurableState.Main
import DurableState.Master
import DurableState.Proofs.Memory
import DurableState.Proofs.Planning
import DurableState.Store.Memory
import DurableState.Proofs.Cycle
import DurableState.Proofs.Writer
import DurableState.Proofs.Recovery
import DurableState.Proofs.DataNode
import DurableState.Proofs.LostUpdate
import DurableState.Proofs.Loadable
import DurableState.Proofs.Atomicity
import DurableState.Proofs.Traffic
import DurableState.Proofs.Success
import DurableState.Proofs.Retry
import DurableState.Proofs.Incremental
import DurableState.Proofs.Digits
import DurableState.Proofs.Clock
import DurableState.Proofs.JsonText
import DurableState.Proofs.Documents
import DurableState.Proofs.StateFile
import DurableState.Proofs.Frames
import DurableState.Proofs.Ways
import DurableState.Proofs.Shelves
import DurableState.Proofs.Shelving
import DurableState.Proofs.Standing
import DurableState.Proofs.Files
import DurableState.Proofs.FileCycles
import DurableState.Proofs.Operations
import DurableState.Proofs.Crash
import DurableState.Proofs.Lockstep
import DurableState.Proofs.Alignment
import DurableState.Proofs.Agreement
import DurableState.Proofs.Holdings
import DurableState.Proofs.Retained
import DurableState.Proofs.Rollback
import DurableState.Proofs.FullWrite
import DurableState.Proofs.Terms
import DurableState.Proofs.RoundTrip
import DurableState.Proofs.Descent
import DurableState.Proofs.Placement
import DurableState.Proofs.Freshness
import DurableState.Proofs.Neighbours
import DurableState.Proofs.Accepted
import DurableState.Proofs.Calls
import DurableState.Proofs.Settling
import DurableState.Proofs.Faults
import DurableState.Proofs.Dangling
import DurableState.Proofs.Remains
import DurableState.Proofs.Refusals
import DurableState.Proofs.ClosedIndices
import DurableState.Proofs.Outcomes
import DurableState.Proofs.Sweeping
import DurableState.Proofs.TermOnDisk
import DurableState.Proofs.FileNames
import DurableState.Proofs.Newest
import DurableState.Proofs.StaleFiles

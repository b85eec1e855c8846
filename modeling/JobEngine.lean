import JobEngine.Codec
import JobEngine.Json.Parser
import JobEngine.Json.Text
import JobEngine.Main
import JobEngine.Proofs.Adoption
import JobEngine.Proofs.AnnouncedChanges
import JobEngine.Proofs.Atomicity
import JobEngine.Proofs.Attribution
import JobEngine.Proofs.Backlog
import JobEngine.Proofs.Backoff
import JobEngine.Proofs.Bookkeeping
import JobEngine.Proofs.Cancellation
import JobEngine.Proofs.CancelledRestart
import JobEngine.Proofs.Cleanup
import JobEngine.Proofs.DayCount
import JobEngine.Proofs.Deletion
import JobEngine.Proofs.Enrolment
import JobEngine.Proofs.Fidelity
import JobEngine.Proofs.Histories
import JobEngine.Proofs.Lifecycle
import JobEngine.Proofs.Linearization
import JobEngine.Proofs.Listing
import JobEngine.Proofs.MirroredAttempts
import JobEngine.Proofs.Nesting
import JobEngine.Proofs.Pairing
import JobEngine.Proofs.Postponement
import JobEngine.Proofs.Reconciliation
import JobEngine.Proofs.RecordedCounts
import JobEngine.Proofs.Refinement
import JobEngine.Proofs.Routing
import JobEngine.Proofs.SlotArithmetic
import JobEngine.Proofs.Spelling
import JobEngine.Proofs.StatusCodec
import JobEngine.Proofs.Stream
import JobEngine.Proofs.Submission
import JobEngine.Proofs.Subscribers
import JobEngine.Proofs.ThreadTransactions
import JobEngine.Proofs.Transaction
import JobEngine.Proofs.Verbosity
import JobEngine.Proofs.WorkerCounters
import JobEngine.Rehearsal.Batches
import JobEngine.Rehearsal.Channel
import JobEngine.Rehearsal.DatabaseScene
import JobEngine.Rehearsal.Rows
import JobEngine.Rehearsal.SceneReading
import JobEngine.Rehearsal.Units
import JobEngine.Worker

import QueryLease.Engine.Loading
import QueryLease.Engine.Script
import QueryLease.Proofs.Engine.Answering
import QueryLease.Proofs.Engine.FirstUse
import QueryLease.Proofs.Engine.Mirroring
import QueryLease.Proofs.Engine.Misuse
import QueryLease.Proofs.Lease.History
import QueryLease.Proofs.Pool.Collecting
import QueryLease.Proofs.Pool.CursorWalk
import QueryLease.Proofs.Pool.Handling
import QueryLease.Proofs.Pool.Lifecycle
import QueryLease.Proofs.Pool.Onward
import QueryLease.Proofs.Pool.Pruning
import QueryLease.Proofs.Pool.Querying
import QueryLease.Proofs.Pool.Queueing
import QueryLease.Proofs.Pool.Reading
import QueryLease.Proofs.Pool.Rounds
import QueryLease.Proofs.Pool.Running
import QueryLease.Proofs.Pool.Tenure
import QueryLease.Proofs.Session.Borrowing
import QueryLease.Proofs.Session.CallOrder
import QueryLease.Proofs.Session.Conservation
import QueryLease.Proofs.Session.Foreign
import QueryLease.Proofs.Session.Isolation
import QueryLease.Proofs.Session.Timing
import QueryLease.Proofs.Text.Faults
import QueryLease.Session.Foreign
import QueryLease.Session.Tables
import QueryLease.Table
import QueryLease.Value.Printer

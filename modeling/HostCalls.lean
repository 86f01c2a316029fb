import HostCalls.Benchmark
import HostCalls.Demo
import HostCalls.Loop.Script
import HostCalls.Loop.Traced
import HostCalls.Machine.Metered
import HostCalls.Routine.Pattern
import HostCalls.Proofs.Core.Accounting
import HostCalls.Proofs.Core.BoundCall
import HostCalls.Proofs.Core.DebugBreak
import HostCalls.Proofs.Core.FailedCalls
import HostCalls.Proofs.Core.SchedulerCalls
import HostCalls.Proofs.Core.Shutdown
import HostCalls.Proofs.FollowUp.Reason
import HostCalls.Proofs.Linker.Bind
import HostCalls.Proofs.Linker.Deferral
import HostCalls.Proofs.Linker.DirectJump
import HostCalls.Proofs.Linker.Order
import HostCalls.Proofs.Linker.Pass
import HostCalls.Proofs.Linker.Redirect
import HostCalls.Proofs.Linker.Release
import HostCalls.Proofs.Linker.Resolve
import HostCalls.Proofs.Linker.Retry
import HostCalls.Proofs.Linker.Settled
import HostCalls.Proofs.Loop.Counters
import HostCalls.Proofs.Loop.History
import HostCalls.Proofs.Loop.Invalidation
import HostCalls.Proofs.Loop.Protocol
import HostCalls.Proofs.Machine.Alignment
import HostCalls.Proofs.Machine.Breakpoint
import HostCalls.Proofs.Machine.CallSite
import HostCalls.Proofs.Machine.CoreState
import HostCalls.Proofs.Machine.Extent
import HostCalls.Proofs.Machine.Interpretation
import HostCalls.Proofs.Machine.Rollback
import HostCalls.Proofs.Machine.Slice
import HostCalls.Proofs.Registry.Registration
import HostCalls.Proofs.Routine.CodeSpace
import HostCalls.Proofs.Routine.Descriptor
import HostCalls.Proofs.SavedState.Resume
import HostCalls.Proofs.SavedState.Shortest
import HostCalls.Proofs.SavedState.Truncation

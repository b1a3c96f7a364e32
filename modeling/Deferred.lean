import Deferred.Queue.Workbench
import Deferred.Panic.Handler
import Deferred.Telemetry.Export
import Deferred.Worker.Loop
import Deferred.Executor.Rest
import Deferred.Executor.Session
import Deferred.Main
import Deferred.Proofs.Executor.WakeUp
import Deferred.Proofs.Executor.Whereabouts
import Deferred.Proofs.Queue.Order
import Deferred.Proofs.Queue.Register
import Deferred.Proofs.Executor.Order
import Deferred.Proofs.Executor.Calls
import Deferred.Proofs.Executor.Death
import Deferred.Proofs.Executor.Finality
import Deferred.Proofs.Executor.Report
import Deferred.Proofs.Executor.Return
import Deferred.Proofs.Executor.Placement
import Deferred.Proofs.Executor.Aftermath
import Deferred.Proofs.Executor.Admission
import Deferred.Proofs.Executor.PanicCount
import Deferred.Proofs.Executor.Swallowed
import Deferred.Proofs.Executor.Isolation
import Deferred.Proofs.Executor.Strategy
import Deferred.Proofs.Executor.Telemetry
import Deferred.Proofs.Worker.Outcome
import Deferred.Proofs.Executor.Cancellation
import Deferred.Proofs.Executor.Shutdown
import Deferred.Proofs.Executor.Interleaving
import Deferred.Proofs.Panic.Nesting
import Deferred.Proofs.Telemetry.Recordings
import Deferred.Proofs.Executor.Draining
import Deferred.Proofs.Config
import Deferred.Proofs.Telemetry.Json
import Deferred.Proofs.Telemetry.Numerals
import Deferred.Proofs.Telemetry.Range
import Deferred.Proofs.Telemetry.Report

import Sico.Foundation.Interaction
import Sico.TaskRuntime.Results

/-! # The run coordinator

The coordinator takes one run from its claim to a result. It is a program that asks the
store, the executor, the sandbox and the plan, and between two of its requests a worker
may write the run's result, a user may cancel it and the sweep may reclaim it. Reports
to the plan and the sandbox write snapshots of the run, which count among the moves of
the other parties; a request of the coordinator is answered at once.
-/

namespace Sico.TaskRuntime

open Foundation

/-- What a call of the coordinator raises. -/
inductive RunError where
  | staleWorker (message : String)
  | sandboxNoCapacity (message : String)
  | sandboxUnhealthy (message : String)
  | planCancellationRequested
  /-- `asyncio.CancelledError`, the one that is no `Exception`. -/
  | cancelled
  | other (raised : Raised)
  deriving Repr, DecidableEq

namespace RunError

/-- The class and the text of an exception. -/
def raised : RunError → Raised
  | staleWorker message => ⟨"StaleWorkerError", message⟩
  | sandboxNoCapacity message => ⟨"SandboxNoCapacityError", message⟩
  | sandboxUnhealthy message => ⟨"SandboxUnhealthyError", message⟩
  | planCancellationRequested => ⟨"PlanCancellationRequested", ""⟩
  | cancelled => ⟨"CancelledError", ""⟩
  | other raised => raised

/-- The exception that the client makes of an error of the store. -/
def ofStore : StoreError → RunError
  | .staleToken message => .staleWorker s!"stale worker token: {message}"
  | .required label => .other ⟨"ReverseTaskRuntimeServiceError", s!"{label} is required"⟩
  | .decode label => .other ⟨"ReverseTaskRuntimeServiceError", s!"decode {label}"⟩
  | .invalid message => .other ⟨"ReverseTaskRuntimeServiceError", message⟩
  | .invalidColumn column => .other ⟨"ReverseTaskRuntimeServiceError", s!"invalid {column}"⟩
  | .nilMap => .other ⟨"ReverseTaskRuntimeServiceError", "assignment to entry in nil map"⟩
  | .duplicate => .other ⟨"ReverseTaskRuntimeAlreadyExistsError", "duplicate key"⟩
  | .notFound => .other ⟨"ReverseTaskRuntimeNotFoundError", "record not found"⟩

end RunError

/-- Which of the tasks that `_wait_for_execution` races is done first. -/
inductive Finished where
  | executor
  | planCancelled
  /-- The poll for a cancellation raised. -/
  | pollFailed (error : RunError)
  | timeout

/-- The functions that call `get_task_detail`. -/
inductive DetailReader where
  | execute
  | waitForExistingRun
  | ensureResultPersisted
  | ensureCancelledState
  | ensureTimedOutState
  | finalizeNonterminalRuns
  deriving DecidableEq

/-- A request of the coordinator. -/
inductive Request where
  | now
  | isPlanCancelled
  | runStage (stage : String)
  | markRunTerminal (result : TaskResult) (sandboxReleased : Bool) (leaseOutcome : String)
  | acquireSandbox
  | releaseSandbox (leaseOutcome : String)
  /-- `asyncio.wait` over the executor, the plan and, if there is one, the timeout. -/
  | firstCompleted (timed : Bool)
  | cancelExecutor
  | awaitExecutor
  /-- The end of all tasks that an execution started. -/
  | stopTasks
  /-- How often the reuse path polls before its deadline. -/
  | pollsBeforeDeadline
  | deadlinePassed
  | claimRun (workerID : String)
  | writeResult (result : TaskResult) (token : FencingToken)
  | cancelRun (reason : String)
  | getRun
  | getTaskDetail (reader : DetailReader)
  | updateRun (run : TaskRun)

def Request.Reply : Request → Type
  | now => ℤ
  | isPlanCancelled => Bool
  | runStage _ | markRunTerminal _ _ _ | cancelExecutor | stopTasks | deadlinePassed => Unit
  | acquireSandbox => Except RunError Unit
  | releaseSandbox _ => Bool
  | firstCompleted _ => Finished
  | awaitExecutor => Except RunError TaskResult
  | pollsBeforeDeadline => ℕ
  | claimRun _ => Except RunError FencingToken
  | writeResult _ _ | cancelRun _ | updateRun _ => Except RunError Unit
  | getRun => Except RunError TaskRun
  | getTaskDetail _ => Except RunError TaskDetail

/-- What a request leaves to its surroundings. -/
inductive Choice where
  | only
  | clock (now : ℤ)
  | flag (value : Bool)
  | acquired (outcome : Except RunError Unit)
  | finished (first : Finished)
  | executed (outcome : Except RunError TaskResult)
  | polls (count : ℕ)
  | token (now : ℤ) (token : String)

/-- A transition that the coordinator asks the store for. -/
def storeCall {Value : Type} (value : Value) (move : StoreMove) (row : RunRow) :
    Except RunError Value × RunRow :=
  match move.exec row with
  | .ok row' => (.ok value, row')
  | .error error => (.error (.ofStore error), row)

/-- `DBRunStore.get_run`: a row that does not validate raises. -/
def readRun (row : RunRow) : Except RunError TaskRun :=
  match TaskRun.ofRow row with
  | some run => .ok run
  | none => .error (.other ⟨"ValidationError", "TaskRun"⟩)

/-- `DBRunStore.get_task_detail`: only a settled run has a result. -/
def readTaskDetail (row : RunRow) : Except RunError TaskDetail := do
  let run ← readRun row
  match row.resultJSON with
  | none => return ⟨run, none⟩
  | some document =>
      match TaskResult.ofJson document with
      | none => throw (.other ⟨"ValidationError", "TaskResult"⟩)
      | some result => return ⟨run, if run.status ∈ terminalRunStatuses then some result else none⟩

/-- How the surroundings answer. An executor returns results within the enumerations, and
the reports, the sandbox and the executor do not touch the row at the moment they answer. -/
def serve : (request : Request) → Choice → RunRow → Option (request.Reply × RunRow)
  | .now, .clock now, row => some (now, row)
  | .isPlanCancelled, .flag value, row => some (value, row)
  | .runStage _, .only, row => some ((), row)
  | .markRunTerminal _ _ _, .only, row => some ((), row)
  | .acquireSandbox, .acquired outcome, row => some (outcome, row)
  | .releaseSandbox _, .flag released, row => some (released, row)
  | .firstCompleted _, .finished .executor, row => some (.executor, row)
  | .firstCompleted _, .finished .planCancelled, row => some (.planCancelled, row)
  | .firstCompleted _, .finished (.pollFailed error), row => some (.pollFailed error, row)
  | .firstCompleted timed, .finished .timeout, row => if timed then some (.timeout, row) else none
  | .cancelExecutor, .only, row => some ((), row)
  | .awaitExecutor, .executed (.ok result), row =>
      if result.Known then some (.ok result, row) else none
  | .awaitExecutor, .executed (.error error), row => some (.error error, row)
  | .stopTasks, .only, row => some ((), row)
  | .pollsBeforeDeadline, .polls count, row => some (count, row)
  | .deadlinePassed, .only, row => some ((), row)
  | .claimRun workerID, .token now token, row =>
      some (storeCall ⟨row.runID, token, now⟩ (.claim now token workerID) row)
  | .writeResult result token, .clock now, row => some (storeCall () (.write now token result) row)
  | .cancelRun reason, .clock now, row => some (storeCall () (.cancel now reason) row)
  | .getRun, .only, row => some (readRun row, row)
  | .getTaskDetail _, .only, row => some (readTaskDetail row, row)
  | .updateRun run, .clock now, row => some (storeCall () (.save now run) row)
  | _, _, _ => none

/-- The stored run beside its coordinator. -/
def surroundings : Surroundings Request Request.Reply RunRow Choice StoreMove where
  serve := serve
  move row move := if move.Known then (move.exec row).toOption else none

/-- A routine of the coordinator, which may raise. -/
abbrev Routine (Value : Type) := ExceptT RunError (Interaction Request Request.Reply) Value

namespace Routine

/-- A request that does not raise. -/
def ask (request : Request) : Routine request.Reply :=
  .lift (.ask request .done)

def now : Routine ℤ := ask .now
def isPlanCancelled : Routine Bool := ask .isPlanCancelled
def runStage (stage : String) : Routine Unit := ask (.runStage stage)
def acquireSandbox : Routine Unit := .mk (.ask .acquireSandbox .done)
def awaitExecutor : Routine TaskResult := .mk (.ask .awaitExecutor .done)
def claimRun (workerID : String) : Routine FencingToken := .mk (.ask (.claimRun workerID) .done)
def writeResult (result : TaskResult) (token : FencingToken) : Routine Unit :=
  .mk (.ask (.writeResult result token) .done)
def cancelRun (reason : String) : Routine Unit := .mk (.ask (.cancelRun reason) .done)
def getRun : Routine TaskRun := .mk (.ask .getRun .done)
def getTaskDetail (reader : DetailReader) : Routine TaskDetail :=
  .mk (.ask (.getTaskDetail reader) .done)
def updateRun (run : TaskRun) : Routine Unit := .mk (.ask (.updateRun run) .done)

/-- `mark_run_terminal` with its defaults. -/
def markRunTerminal (result : TaskResult) : Routine Unit := ask (.markRunTerminal result false "")

def ofOutcome {Value : Type} (outcome : Except RunError Value) : Routine Value :=
  .mk (.done outcome)

/-- A routine followed by the one that handles how it ended. -/
def handle {Value Next : Type} (routine : Routine Value)
    (handler : Except RunError Value → Routine Next) : Routine Next :=
  .mk (routine.run >>= fun outcome => (handler outcome).run)

/-- `except StaleWorkerError`. -/
def onStale {Value : Type} (routine handler : Routine Value) : Routine Value :=
  routine.handle fun
    | .error (.staleWorker _) => handler
    | .error error => throw error
    | .ok value => pure value

/-- `except Exception`, or `contextlib.suppress(Exception)` with nothing to fall back to. -/
def onException {Value : Type} (routine handler : Routine Value) : Routine Value :=
  routine.handle fun
    | .error .cancelled => throw .cancelled
    | .error _ => handler
    | .ok value => pure value

end Routine

open Routine

/-- A claim by the coordinator itself and the result it settles the run with. -/
def claimAndWrite (workerID : String) (result : TaskResult) : Routine Unit := do
  let token ← claimRun workerID
  writeResult result token

def markRunCancelled (run : ScheduledRun) (reason : String) : Routine TaskResult := do
  let result := cancelledResult (← now) run reason
  onStale (claimAndWrite "task-manager" result) (onException (cancelRun reason) (pure ()))
  onException (do let _ ← getRun) (pure ())
  markRunTerminal result
  return result

/-- `ensure_result_persisted`. The time that a missing result is given is read before the
detail. -/
def ensureResultPersisted (run : ScheduledRun) (result : TaskResult) : Routine TaskResult := do
  let time ← now
  let detail ← getTaskDetail .ensureResultPersisted
  match settledResultFromDetail time run.title detail result with
  | some settledResult => return settledResult
  | none =>
      (claimAndWrite "task-manager" result).handle fun
        | .error (.staleWorker message) => do
            let time ← now
            let detail ← getTaskDetail .ensureResultPersisted
            match settledResultFromDetail time run.title detail result with
            | some settledResult => return settledResult
            | none => throw (.staleWorker message)
        | .error error => throw error
        | .ok _ => return result

def ensureCancelledState (result : TaskResult) : Routine Unit := do
  let detail ← onException (do return some (← getTaskDetail .ensureCancelledState)) (pure none)
  match detail.bind TaskDetail.result with
  | some _ => return ()
  | none =>
      onException (cancelRun (textOr result.summary "Task cancelled by user.")) (pure ())

def forceUpdateStrandedRun (run : TaskRun) (result : TaskResult) : Routine Unit :=
  updateRun (strandedRun run result)

/-- `persist_stranded_result`, over a store without `fail_stale_run`. -/
def persistStrandedResult (run : TaskRun) (result : TaskResult) : Routine TaskRun :=
  let settled := { run with status := result.status, endedAt := result.endedAt }
  if run.status = .queued then
    (claimAndWrite "task-manager-finalizer" result).handle fun
      | .error .cancelled => throw .cancelled
      | .error _ => return settled
      | .ok _ => onException getRun (pure settled)
  else if run.status = .running ∧ run.fencingToken ≠ "" then do
    let token : FencingToken :=
      ⟨run.runID, run.fencingToken, (timeOr run.startedAt (some run.queuedAt)).getD 0⟩
    onStale (writeResult result token) (forceUpdateStrandedRun run result)
    onException getRun (pure settled)
  else if run.status = .running then do
    forceUpdateStrandedRun run result
    onException getRun (pure settled)
  else
    onException getRun (pure settled)

def ensureTimedOutState (run : ScheduledRun) (result : TaskResult) : Routine TaskResult := do
  let time ← now
  let detail ← onException (do return some (← getTaskDetail .ensureTimedOutState)) (pure none)
  match detail.bind fun detail => settledResultFromDetail time run.title detail result with
  | some settledResult => return settledResult
  | none => do
      let _ ← persistStrandedResult (detail.elim run.toTaskRun TaskDetail.run) result
      let time ← now
      (getTaskDetail .ensureTimedOutState).handle fun
        | .error .cancelled => throw .cancelled
        | .error _ => return result
        | .ok detail => return (settledResultFromDetail time run.title detail result).getD result

def waitForExecution (run : ScheduledRun) : Routine TaskResult := do
  let done ← ask (.firstCompleted (0 < run.timeoutSeconds))
  match (done : Finished) with
  | .executor => awaitExecutor
  | .planCancelled => do
      runStage "execute"
      let _ ← ask .cancelExecutor
      let result ← awaitExecutor.handle fun
        | .error .cancelled | .error (.staleWorker _) => do
            return cancelledResult (← now) run "Task cancelled by user."
        | .error error => throw error
        | .ok result => return result
      if result.status = .cancelled then
        onException (cancelRun "Task cancelled by user.") (pure ())
      return result
  | .pollFailed error => throw error
  | .timeout => do
      let _ ← ask .cancelExecutor
      awaitExecutor.handle fun _ => pure ()
      return timedOutResult (← now) run
        s!"Task exceeded its execution timeout of {run.timeoutSeconds}s."

/-- The end of `_execute_with_progress`: the result is reconciled with the stored run,
except a cancelled one. -/
def settleExecution (run : ScheduledRun) (result : TaskResult) : Routine TaskResult :=
  if result.status = .cancelled then do
    ensureCancelledState result
    return result
  else if result.status = .timedOut then
    ensureTimedOutState run result
  else
    ensureResultPersisted run result

/-- The reports that open `_execute_with_progress`. -/
def reportExecution (run : ScheduledRun) : Routine Unit :=
  if run.requiredSandbox then
    runStage "execute"
  else do
    runStage "runner"
    runStage "execute"

def executeWithProgress (run : ScheduledRun) : Routine TaskResult := do
  reportExecution run
  let result ← (waitForExecution run).handle fun outcome => do
    let _ ← ask .stopTasks
    ofOutcome outcome
  settleExecution run result

def acquireRequired (run : ScheduledRun) : Routine Unit :=
  if run.requiredSandbox then do
    runStage "runner"
    acquireSandbox
  else
    pure ()

/-- The body of the `try` in `_execute_run_once`, with the outcome of the lease. -/
def attemptRun (run : ScheduledRun) : Routine (TaskResult × String) := do
  acquireRequired run
  if ← isPlanCancelled then
    return (← markRunCancelled run "Task cancelled after resource acquisition.", "dirty")
  else
    let result ← executeWithProgress run
    markRunTerminal result
    return (result, if result.status = .completed then "clean" else "dirty")

/-- A result of the coordinator's own, settled under its own claim. -/
def settleWith (result : TaskResult) : Routine TaskResult := do
  claimAndWrite "task-manager" result
  markRunTerminal result
  return result

/-- The handler of `Exception` in `_execute_run_once`. -/
def failInternally (run : ScheduledRun) (error : RunError) : Routine TaskResult := do
  let failure := internalFailureResult (← now) run.batchRun error.raised
  let result ← onException (ensureResultPersisted run failure) (pure failure)
  onException (markRunTerminal result) (pure ())
  return result

/-- The handlers of `_execute_run_once`, each with the outcome of the lease. -/
def recoverRun (run : ScheduledRun) : RunError → Routine TaskResult × String
  | .sandboxNoCapacity message =>
      (do settleWith (blockedResult (← now) run message "sandbox_no_capacity"), "clean")
  | .sandboxUnhealthy message =>
      (do settleWith (failedResult (← now) run message "sandbox_unhealthy"), "dirty")
  | .planCancellationRequested => (markRunCancelled run "Task cancelled by user.", "dirty")
  | .cancelled => (throw .cancelled, "dirty")
  | error => (failInternally run error, "dirty")

/-- The `finally` of `_execute_run_once`. -/
def windUp (leaseOutcome : String) (outcome : Except RunError TaskResult) : Routine TaskResult := do
  let released ← ask (.releaseSandbox leaseOutcome)
  match outcome with
  | .error error => throw error
  | .ok result => do
      let _ ← ask (.markRunTerminal result released leaseOutcome)
      return result

/-- The handlers and the `finally` around the body of the `try`. -/
def afterAttempt (run : ScheduledRun) : Except RunError (TaskResult × String) → Routine TaskResult
  | .ok (result, leaseOutcome) => windUp leaseOutcome (.ok result)
  | .error error => (recoverRun run error).1.handle (windUp (recoverRun run error).2)

def validateExecutionMode (run : ScheduledRun) : Option String :=
  if run.requiredSandbox ∧ run.policyExecutor = "in_process" then some "policy_deny" else none

def executeRunOnce (run : ScheduledRun) : Routine TaskResult := do
  if ← isPlanCancelled then
    markRunCancelled run "Task cancelled before execution."
  else
    match validateExecutionMode run with
    | some policyError => do
        settleWith (buildPolicyDeniedResult (← now) run s!"Task denied by policy: {policyError}")
    | none => do
        runStage "workspace"
        (attemptRun run).handle (afterAttempt run)

/-- The loop of `_wait_for_existing_run`. -/
def pollExistingRun : ℕ → Routine (Option TaskResult)
  | 0 => do
      let _ ← ask .deadlinePassed
      return none
  | polls + 1 => do
      let detail ← getTaskDetail .waitForExistingRun
      match detail.result with
      | some result => return some result
      | none => if detail.run.status ∈ terminalRunStatuses then return none else pollExistingRun polls

def waitTimeoutResult (startedAt now : ℤ) (run : ScheduledRun) (waitTimeout : ℤ) : TaskResult where
  runID := run.runID
  taskID := run.taskID
  status := .blocked
  title := run.title
  summary := s!"Timed out waiting for prior run {run.runID} to finish."
  errorClass := some "transient"
  errorMessage := s!"Timed out waiting for prior run after {waitTimeout}s."
  startedAt := some startedAt
  endedAt := some now
  durationMS := some (now - startedAt)

def reuseWaitTimeoutSeconds (run : ScheduledRun) : ℤ :=
  match run.configuredReuseWait with
  | some configured => max 1 configured
  | none => max 30 (run.timeoutSeconds + 30)

def waitForExistingRun (run : ScheduledRun) : Routine TaskResult := do
  let startedAt ← now
  let polls ← ask .pollsBeforeDeadline
  match ← pollExistingRun polls with
  | some result => do
      markRunTerminal result
      return result
  | none => do
      let result := waitTimeoutResult startedAt (← now) run (reuseWaitTimeoutSeconds run)
      markRunTerminal result
      return result

/-- The stored result of a run that is handed over settled. -/
def priorResult (run : ScheduledRun) : Routine (Option TaskResult) :=
  if run.status ∈ terminalRunStatuses then do
    let detail ← getTaskDetail .execute
    return detail.result
  else
    return none

def execute (run : ScheduledRun) : Routine TaskResult := do
  match ← priorResult run with
  | some result => do
      markRunTerminal result
      return result
  | none => if run.runtimeReuse then waitForExistingRun run else executeRunOnce run

def cancelQueued (run : ScheduledRun) (reason : String) : Routine TaskResult :=
  markRunCancelled run reason

/-- The calls of the coordinator that return a result. -/
inductive CoordinatorCall where
  | execute
  | cancelQueued (reason : String)

def CoordinatorCall.routine (run : ScheduledRun) : CoordinatorCall → Routine TaskResult
  | execute => TaskRuntime.execute run
  | cancelQueued reason => TaskRuntime.cancelQueued run reason

/-- A call beside the stored run, before its first request. -/
def CoordinatorCall.start (call : CoordinatorCall) (run : ScheduledRun) (row : RunRow) :
    Joint Request Request.Reply (Except RunError TaskResult) RunRow :=
  ⟨row, (call.routine run).run⟩

end Sico.TaskRuntime

import Sico.Foundation.Json
import Sico.Foundation.Table

/-! # The ledger of scheduled runs

Each occurrence of a scheduled task that a replica claims is a row of
`t_scheduled_task_run`. The claim is one transaction. It fails the runs of the task whose
lease has run out, refuses when a run is still active, advances the task and inserts the
new run; a claim that is refused rolls back, the expired leases included. The other
statements are single updates by the ID of the run.
-/

namespace Sico.ScheduledTask

open Foundation

inductive RunStatus where
  | claimed
  | running
  | succeeded
  | failed
  deriving Repr, DecidableEq

def RunStatus.isActive (status : RunStatus) : Bool := status = .claimed || status = .running

def RunStatus.isFinished (status : RunStatus) : Bool := status = .succeeded || status = .failed

theorem RunStatus.isActive_eq (status : RunStatus) : status.isActive = !status.isFinished := by
  cases status <;> rfl

/-- A row of `t_scheduled_task`, with the columns the claim reads and writes. -/
structure TaskRow where
  id : ℤ
  enabled : Bool
  nextRunAt : ℤ
  lastRunAt : ℤ
  deleted : Bool
  deriving Repr

/-- A row of `t_scheduled_task_run`. -/
structure Run where
  id : ℕ
  scheduledTaskID : ℤ
  scheduledFor : ℤ
  status : RunStatus
  submissionID : String
  conversationID : ℤ := 0
  errorMessage : String := ""
  extraInfo : Option Json := none
  startedAt : ℤ := 0
  finishedAt : ℤ := 0
  leaseExpiresAt : ℤ
  deriving Repr

/-- The two tables, with the counter of the primary key of the runs. -/
structure Ledger where
  tasks : List TaskRow
  runs : List Run
  nextID : ℕ
  deriving Repr

def runLeaseDuration : ℤ := 120000

/-- What a replica claims: the occurrence, the one after it, and the time at which the
claim was put together. -/
structure ClaimRequest where
  taskID : ℤ
  scheduledFor : ℤ
  nextRunAt : ℤ
  submissionID : String
  extraInfo : Option Json
  preparedAt : ℤ
  deriving Repr

namespace Ledger

def find (ledger : Ledger) (runID : ℕ) : Option Run := Table.select Run.id runID ledger.runs

def updateRun (ledger : Ledger) (runID : ℕ) (rewrite : Run → Run) : Ledger :=
  { ledger with runs := ledger.runs.map fun run => if run.id = runID then rewrite run else run }

/-- The statement that fails the runs of a task whose lease has run out. -/
def expire (now taskID : ℤ) (run : Run) : Run :=
  if run.scheduledTaskID = taskID ∧ run.status.isActive ∧ run.leaseExpiresAt ≤ now then
    { run with status := .failed, errorMessage := "worker lease expired", finishedAt := now }
  else
    run

def activeRuns (taskID : ℤ) (runs : List Run) : List Run :=
  runs.filter fun run => run.scheduledTaskID = taskID && run.status.isActive

/-- `Claim`: the run it inserted, or nothing when another run is active, the occurrence
is no longer the next one, or it is in the ledger already. -/
def claim (ledger : Ledger) (now : ℤ) (request : ClaimRequest) : Option (Run × Ledger) :=
  let runs := ledger.runs.map (expire now request.taskID)
  let due (task : TaskRow) : Bool :=
    task.id = request.taskID && task.enabled && task.nextRunAt = request.scheduledFor && !task.deleted
  let occurs (run : Run) : Bool :=
    run.scheduledTaskID = request.taskID && run.scheduledFor = request.scheduledFor
  if activeRuns request.taskID runs ≠ [] then none
  else if ¬ ledger.tasks.any due then none
  else if runs.any occurs then none
  else
    let run : Run :=
      { id := ledger.nextID
        scheduledTaskID := request.taskID
        scheduledFor := request.scheduledFor
        status := .claimed
        submissionID := request.submissionID
        extraInfo := request.extraInfo
        leaseExpiresAt := request.preparedAt + runLeaseDuration }
    some (run,
      { tasks := ledger.tasks.map fun task =>
          if due task then
            { task with lastRunAt := request.scheduledFor, nextRunAt := request.nextRunAt }
          else
            task
        runs := runs ++ [run]
        nextID := ledger.nextID + 1 })

/-- `MarkRunRunning`, by the ID alone. -/
def markRunRunning (ledger : Ledger) (now : ℤ) (runID : ℕ) : Ledger :=
  ledger.updateRun runID fun run => { run with status := .running, startedAt := now }

/-- `HeartbeatRun`, for a run that is running. -/
def heartbeatRun (ledger : Ledger) (runID : ℕ) (leaseExpiresAt : ℤ) : Ledger :=
  ledger.updateRun runID fun run =>
    if run.status = .running then { run with leaseExpiresAt } else run

/-- What a worker reports at the end. -/
structure Outcome where
  conversationID : ℤ
  status : RunStatus
  errorMessage : String
  extraInfo : Option Json
  deriving Repr

/-- `FinishRun`, by the ID alone. -/
def finishRun (ledger : Ledger) (now : ℤ) (runID : ℕ) (outcome : Outcome) : Ledger :=
  ledger.updateRun runID fun run =>
    { run with
      status := outcome.status
      conversationID := outcome.conversationID
      errorMessage := outcome.errorMessage
      finishedAt := now
      extraInfo := outcome.extraInfo.or run.extraInfo }

end Ledger

section Reading

variable {ledger ledger' : Ledger} {runID : ℕ}

theorem Ledger.expire_same (now taskID : ℤ) (run : Run) :
    (Ledger.expire now taskID run).id = run.id ∧
      (Ledger.expire now taskID run).scheduledTaskID = run.scheduledTaskID := by
  unfold Ledger.expire
  split <;> exact ⟨rfl, rfl⟩

theorem Ledger.expire_finished {now taskID : ℤ} {run : Run} (ended : run.status.isActive = false) :
    Ledger.expire now taskID run = run := by
  simp [Ledger.expire, ended]

theorem Ledger.expire_active {now taskID : ℤ} {run : Run}
    (active : (Ledger.expire now taskID run).status.isActive) : run.status.isActive := by
  by_contra ended
  rw [Ledger.expire_finished (by simpa using ended)] at active
  exact ended active

theorem Ledger.claim_eq_some {now : ℤ} {request : ClaimRequest} {run : Run}
    (claimed : ledger.claim now request = some (run, ledger')) :
    Ledger.activeRuns request.taskID (ledger.runs.map (Ledger.expire now request.taskID)) = [] ∧
      run.id = ledger.nextID ∧ run.scheduledTaskID = request.taskID ∧ run.status = .claimed ∧
      ledger'.runs = ledger.runs.map (Ledger.expire now request.taskID) ++ [run] ∧
      ledger'.nextID = ledger.nextID + 1 := by
  unfold Ledger.claim at claimed
  dsimp only at claimed
  split at claimed
  · cases claimed
  · next idle =>
    split at claimed
    · cases claimed
    · split at claimed
      · cases claimed
      · obtain ⟨rfl, rfl⟩ := Prod.mk.inj (Option.some.inj claimed)
        exact ⟨not_not.mp idle, rfl, rfl, rfl, rfl, rfl⟩

end Reading

end Sico.ScheduledTask

import Sico.Foundation.System
import Sico.Foundation.Table
import Sico.TaskRuntime.Transitions

/-! # The task-runtime store

The operations over the whole database, each one transaction. An operation that
fails rolls back.
-/

namespace Sico.TaskRuntime

open Foundation

/-- A row of `t_task_runtime_batch`, with the defaults of its columns. -/
structure BatchRow where
  batchID : String
  parentConversationID : ℤ
  parentTurnID : ℤ
  parentToolCallID : Option ℤ
  status : Status
  countsJSON : Json
  batchJSON : Json
  createdAt : ℤ
  updatedAt : ℤ
  endedAt : Option ℤ
  cancellationReason : String
  livenessAt : Option ℤ
  reason : String := ""
  joinStrategy : String := "partial_ok"
  totalCount : Int32 := 0
  deriving Repr

/-- The columns of `t_message` that tell a recovery message. -/
structure MessageRow where
  conversationID : ℤ
  turnID : ℤ
  taskRuntimeRecoveryKey : Option String
  deriving Repr, DecidableEq

/-- The tables the store reads and writes, in the order of their primary keys. -/
structure Database where
  batches : List BatchRow
  runs : List RunRow
  messages : List MessageRow
  deriving Repr

namespace Database

/-- `findRun`, as `First` reads it. -/
def findRun (db : Database) (runID : String) : Option RunRow :=
  Table.select RunRow.runID runID db.runs

def findBatch (db : Database) (batchID : String) : Option BatchRow :=
  Table.select BatchRow.batchID batchID db.batches

def updateRun (db : Database) (runID : String) (body : RunRow → Except StoreError RunRow) :
    Except StoreError Database := do
  refuseIf (db.findRun runID).isNone .notFound
  let runs ← Table.updateWhere (fun row => row.runID = runID) body db.runs
  return { db with runs }

def duplicateRunCreateMatchesExisting (existing incoming : RunRow) : Bool :=
  existing.runID = incoming.runID && existing.batchID = incoming.batchID &&
    trimSpace existing.idempotencyKey ≠ "" &&
    trimSpace existing.idempotencyKey = trimSpace incoming.idempotencyKey

/-- `CreateRun`: whether a row was inserted. Both `run_id` and `idempotency_key`
are unique. -/
def createRun (db : Database) (now : ℤ) (runJSON : RawJson) :
    Except StoreError (Bool × Database) := do
  let row ← runRowFromJSON now runJSON
  if db.runs.any (fun other => other.runID = row.runID || other.idempotencyKey = row.idempotencyKey)
  then
    match db.findRun row.runID with
    | none => throw .duplicate
    | some existing =>
        if duplicateRunCreateMatchesExisting existing row then return (false, db)
        else throw .duplicate
  else
    return (true, { db with runs := db.runs ++ [row] })

/-- `UpdateRun`, one conditional statement without a lock. A run that is absent or
protected is no error. -/
def updateRunJSON (db : Database) (now : ℤ) (runJSON : RawJson) : Except StoreError Database := do
  let row ← runRowFromJSON now runJSON
  let written (stored : RunRow) : Bool :=
    stored.runID = row.runID && protectTerminalStatus stored.status row.status
  refuseIf (db.runs.any written &&
    db.runs.any fun other => other.runID ≠ row.runID && other.idempotencyKey = row.idempotencyKey)
    .duplicate
  return { db with runs := db.runs.map fun stored =>
    if stored.runID = row.runID then updateRow now row stored else stored }

def reopenRunForRetry (db : Database) (now : ℤ) (runJSON : RawJson) (expectedAttempt : Int32) :
    Except StoreError Database := do
  let row ← runRowFromJSON now runJSON
  db.updateRun row.runID (reopenRow now row expectedAttempt)

/-- `ClaimRun`: the token payload of the worker. -/
def claimRun (db : Database) (now : ℤ) (token runID workerID : String) :
    Except StoreError (Json × Database) := do
  let id := trimSpace runID
  let db ← db.updateRun id (claimRow now token workerID)
  return (.obj [("issued_at", .int now), ("run_id", .str id), ("token", .str token)], db)

/-- `WriteResult`: the duration reported. -/
def writeResult (db : Database) (now : ℤ) (runID : String) (tokenJSON resultJSONStr : RawJson) :
    Except StoreError (ℤ × Database) := do
  let id := trimSpace runID
  match db.findRun id with
  | none => throw .notFound
  | some row =>
      let (durationMS, _) ← writeResultRow now tokenJSON resultJSONStr row
      let db ← db.updateRun id fun row =>
        (writeResultRow now tokenJSON resultJSONStr row).map Prod.snd
      return (durationMS, db)

/-- What a cancellation reports. -/
structure CancelResult where
  durationMS : ℤ := 0
  transitioned : Bool := false
  deriving Repr, DecidableEq

def cancelRun (db : Database) (now : ℤ) (runID reason : String) :
    Except StoreError (CancelResult × Database) := do
  let id := trimSpace runID
  match db.findRun id with
  | none => throw .notFound
  | some row =>
      let result : CancelResult :=
        if row.status.isActive then ⟨now - row.queuedAt, true⟩ else {}
      let db ← db.updateRun id (cancelRunRowTx reason now)
      return (result, db)

def runStatusCounts (runs : List RunRow) : List (String × ℕ) :=
  [Status.completed, .failed, .cancelled, .timedOut, .blocked].map fun status =>
    (status.text, runs.countP fun run => run.status = status)

/-- `CancelBatch`: an active batch and every run in it. -/
def cancelBatch (db : Database) (now : ℤ) (batchID reason : String) :
    Except StoreError (CancelResult × Database) := do
  match db.findBatch batchID with
  | none => throw .notFound
  | some batch =>
      if ¬ batch.status.isActive then
        return ({}, db)
      let batchJSON ← decodeJSONMap (.doc batch.batchJSON false) "batch_json"
      let batchJSON := putValue batchJSON "status" (.string Status.cancelled.text)
      let batchJSON := putValue batchJSON "cancellation_reason" (.string reason)
      let batchJSON := putValue batchJSON "ended_at" (.int64 now)
      let runs ← Table.updateWhere (fun row => row.batchID = batch.batchID)
        (cancelRunRowTx reason now) db.runs
      let counts := runStatusCounts (runs.filter fun row => row.batchID = batch.batchID)
      let batchJSON := putValue batchJSON "counts" (.counts counts)
      let batch :=
        { batch with
          status := .cancelled
          cancellationReason := reason
          endedAt := some now
          updatedAt := now
          countsJSON := (GoValue.counts counts).toJson
          batchJSON := marshalJSON batchJSON }
      return (⟨now - batch.createdAt, true⟩,
        { db with
          batches := db.batches.map fun other =>
            if other.batchID = batch.batchID then batch else other
          runs })

/-- `SetRunProgress`, one conditional statement without a lock. -/
def setRunProgress (db : Database) (now : ℤ) (runID message : String) (ts : ℤ) :
    Except StoreError Database := do
  let id := trimSpace runID
  refuseIf (id = "") (.invalid "run_id is required")
  let ts := if ts = 0 then now else ts
  return { db with runs := db.runs.map fun stored =>
    if stored.runID = id then progressRow now message ts stored else stored }

/-- Whether the sweep takes a run: active, and its batch silent since `beforeTs`. A
run without a batch is judged by its own times. -/
def isStale (db : Database) (beforeTs : ℤ) (row : RunRow) : Bool :=
  row.status.isActive &&
    (((db.findBatch row.batchID).bind BatchRow.livenessAt).or row.startedAt).getD row.queuedAt
      < beforeTs

def staleRunJSON (row : RunRow) : Json :=
  .obj [("batch_id", .str row.batchID), ("queued_at", .int row.queuedAt), ("run_id", .str row.runID),
    ("status", .str row.status.text), ("worker_id", .str row.workerID)]

def staleBatchJSON (row : BatchRow) : Json :=
  .obj [("batch_id", .str row.batchID), ("run_id", .str ""), ("status", .str row.status.text)]

/-- The loop both marker queries share: one marker for each batch not yet seen. -/
def batchMarkers (batches : List BatchRow) (seen : List String) : List Json × List String :=
  batches.foldl (fun (markers, seen) batch =>
    if batch.batchID = "" ∨ batch.batchID ∈ seen then (markers, seen)
    else (markers ++ [staleBatchJSON batch], batch.batchID :: seen)) ([], seen)

/-- `staleBatchMarkersTx`: silent active batches without an active run. -/
def staleBatchMarkersTx (db : Database) (beforeTs : ℤ) (seen : List String) :
    List Json × List String :=
  if beforeTs ≤ 0 then ([], seen)
  else
    batchMarkers (db.batches.filter fun batch =>
      batch.status.isActive && batch.livenessAt.getD batch.createdAt < beforeTs &&
        !db.runs.any fun run => run.batchID = batch.batchID && run.status.isActive) seen

/-- `recoveredMessageMissingBatchMarkersTx`: settled batches with a swept run whose
recovery message was never written. -/
def recoveredMessageMissingBatchMarkersTx (db : Database) (beforeTs : ℤ) (seen : List String) :
    List Json × List String :=
  if beforeTs ≤ 0 then ([], seen)
  else
    batchMarkers (db.batches.filter fun batch =>
      batch.status ∈ terminalBatchStatuses && batch.parentConversationID ≠ 0 &&
        batch.parentTurnID ≠ 0 && batch.parentToolCallID.isSome &&
        batch.endedAt.getD batch.updatedAt < beforeTs &&
        (db.runs.any fun run => run.batchID = batch.batchID && run.workerID = staleSweeperWorkerID) &&
        !db.messages.any fun message =>
          message.conversationID = batch.parentConversationID &&
            message.turnID = batch.parentTurnID &&
            message.taskRuntimeRecoveryKey = some ("task_runtime_recovery_batch:" ++ batch.batchID))
      seen

/-- `SweepStaleRuns`: the markers of the runs reclaimed and the batches to follow up. -/
def sweepStaleRuns (db : Database) (now beforeTs : ℤ) :
    Except StoreError (List Json × Database) := do
  let rows := db.runs.filter (db.isStale beforeTs)
  let runs ← Table.updateWhere (db.isStale beforeTs) (failStaleRunTx now) db.runs
  let swept := { db with runs }
  let (silent, seen) := swept.staleBatchMarkersTx beforeTs (rows.map RunRow.batchID)
  let (recovery, _) := swept.recoveredMessageMissingBatchMarkersTx beforeTs seen
  return (rows.map staleRunJSON ++ silent ++ recovery, swept)

end Database

end Sico.TaskRuntime

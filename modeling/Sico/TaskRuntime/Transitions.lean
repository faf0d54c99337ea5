import Sico.TaskRuntime.Rows

/-! # Transitions of a locked run

Each operation of the store locks a row, checks it and writes it back. Here are
the checks and the bodies between lock and write, on one row; a body that fails
leaves the row as it was. What a body computes goes through the untyped map, and
each has one theorem that says which columns come out.
-/

namespace Sico.TaskRuntime

open Foundation

/-- `ensureToken`: the row is running under exactly the presented token. -/
def ensureToken (row : RunRow) (tokenPayload : RawJson) : Except StoreError Unit := do
  let token ← decodeJSONValue "" tokenOfMembers tokenPayload "token_json"
  refuseIf (row.status ≠ .running ∨ row.fencingToken = "" ∨ row.fencingToken ≠ token)
    (.staleToken s!"run {row.runID}")

def ensureTerminalResultStatus (status : String) : Except StoreError Unit :=
  refuseIf (Status.ofText status ∉ terminalRunStatuses)
    (.invalid s!"result status must be terminal, got {status.quote}")

def ensureClaimable (row : RunRow) : Except StoreError Unit :=
  refuseIf (row.status ≠ .queued)
    (.staleToken s!"run {row.runID} is {row.status.text} and cannot be claimed")

/-- `ensureReopenable`: the row still rests in a retryable status at the attempt
the caller saw. -/
def ensureReopenable (row : RunRow) (expectedAttempt : Int32) : Except StoreError Unit := do
  refuseIf (row.status ∉ retryableTerminalRunStatuses)
    (.staleToken s!"run {row.runID} is {row.status.text} and cannot be reopened for retry")
  refuseIf (row.attempt ≠ expectedAttempt)
    (.staleToken (s!"run {row.runID} attempt {row.attempt.toInt} does not match expected " ++
      s!"{expectedAttempt.toInt}"))

/-- Whether two rows place the run differently. -/
def identityChanged (existing incoming : RunRow) : Bool :=
  incoming.batchID ≠ existing.batchID || incoming.idempotencyKey ≠ existing.idempotencyKey ||
    incoming.batchItemIndex ≠ existing.batchItemIndex || incoming.taskID ≠ existing.taskID ||
    incoming.parentConversationID ≠ existing.parentConversationID ||
    incoming.parentTurnID ≠ existing.parentTurnID

/-- `ensureReopenPayload`: the incoming row is a fresh queued attempt of the same run. -/
def ensureReopenPayload (existing incoming : RunRow) (expectedAttempt : Int32) :
    Except StoreError Unit := do
  refuseIf (incoming.status ≠ .queued) (.staleToken
    s!"reopen payload for run {existing.runID} must be queued, got {incoming.status.text}")
  refuseIf (incoming.attempt ≠ expectedAttempt + 1) (.staleToken
    (s!"reopen payload for run {existing.runID} must advance attempt to " ++
      s!"{(expectedAttempt + 1).toInt}, got {incoming.attempt.toInt}"))
  refuseIf (incoming.workerID ≠ "" ∨ incoming.fencingToken ≠ "" ∨ incoming.startedAt ≠ none ∨
      incoming.endedAt ≠ none) (.staleToken
    s!"reopen payload for run {existing.runID} must clear worker/fencing/timestamps")
  refuseIf (identityChanged existing incoming) (.staleToken
    s!"reopen payload for run {existing.runID} must not change identity fields")

/-- The map an operation edits: the stored document with the columns over it. -/
def canonicalPayload (row : RunRow) : Except StoreError JsonMap := do
  let payload ← decodeJSONMap (.doc row.runJSON false) "run_json"
  return canonicalizeRunPayload row payload

/-- The body of `ClaimRun` under a fresh token. -/
def claimRow (now : ℤ) (token workerID : String) (row : RunRow) : Except StoreError RunRow := do
  let runJSON ← canonicalPayload row
  ensureClaimable row
  let runJSON := putValue runJSON "worker_id" (.string (trimSpace workerID))
  let runJSON := putValue runJSON "fencing_token" (.string token)
  let runJSON := putValue runJSON "status" (.string Status.running.text)
  let runJSON :=
    if getInt64 runJSON "started_at" = 0 then putValue runJSON "started_at" (.int64 now)
    else runJSON
  let row := updateRunPayload row runJSON now
  -- `clearResultForNonTerminalRun`
  return { row with resultJSON := if row.status.isActive then none else row.resultJSON }

/-- The end time `WriteResult` puts into the map: the result's, and the clock's when
that leaves none. -/
def putEndedAt (now : ℤ) (endedAt : Option ℤ) (runJSON : JsonMap) : JsonMap :=
  let runJSON :=
    match endedAt with
    | some endedAt => putValue runJSON "ended_at" (.int64 endedAt)
    | none => runJSON
  if getInt64 runJSON "ended_at" = 0 then putValue runJSON "ended_at" (.int64 now) else runJSON

/-- What `WriteResult` puts into the map. -/
def putResult (now : ℤ) (result : ResultPayload) (runJSON : JsonMap) : JsonMap :=
  let runJSON := putValue runJSON "status" (.string result.status)
  let runJSON := putValue runJSON "fencing_token" (.string "")
  let runJSON := putEndedAt now result.endedAt runJSON
  let runJSON := putValue runJSON "last_error_class" (.string result.errorClass)
  putValue runJSON "last_error" (.string result.errorMessage)

/-- The text of a document as a `json` column takes it. -/
def jsonColumn (column : String) : RawJson → Except StoreError Json
  | .doc value false => .ok value
  | _ => .error (.invalidColumn column)

/-- The body of `WriteResult`, with the duration it reports. -/
def writeResultRow (now : ℤ) (tokenJSON resultJSONStr : RawJson) (row : RunRow) :
    Except StoreError (ℤ × RunRow) := do
  let runJSON ← canonicalPayload row
  ensureToken row tokenJSON
  let result ← decodeJSONValue {} ResultPayload.ofMembers resultJSONStr "result_json"
  ensureTerminalResultStatus result.status
  let runJSON := putResult now result runJSON
  let row := updateRunPayload row runJSON now
  let endedAt := getInt64 runJSON "ended_at"
  let durationMS := if endedAt > 0 ∧ row.queuedAt > 0 then endedAt - row.queuedAt else 0
  let resultJSON ← jsonColumn "result_json" resultJSONStr
  return (durationMS, { row with resultJSON := some resultJSON })

/-- `cancelRunRowTx`: a run that is neither queued nor running is left alone. -/
def cancelRunRowTx (reason : String) (now : ℤ) (row : RunRow) : Except StoreError RunRow :=
  if row.status ≠ .queued ∧ row.status ≠ .running then
    .ok row
  else do
    let runJSON ← canonicalPayload row
    let runJSON := putValue runJSON "status" (.string Status.cancelled.text)
    let runJSON := putValue runJSON "fencing_token" (.string "")
    let runJSON := putValue runJSON "last_error_class" (.string "")
    let runJSON := putValue runJSON "last_error" (.string reason)
    let runJSON := putValue runJSON "ended_at" (.int64 now)
    return updateRunPayload row runJSON now

def staleSweeperWorkerID : String := "task-runtime-sweeper"

def staleRunStartedAt (row : RunRow) (now : ℤ) : ℤ :=
  match row.startedAt with
  | some startedAt =>
      if 0 < startedAt ∧ startedAt ≤ now then startedAt
      else if 0 < row.queuedAt ∧ row.queuedAt ≤ now then row.queuedAt
      else now
  | none => if 0 < row.queuedAt ∧ row.queuedAt ≤ now then row.queuedAt else now

def staleRunDuration (row : RunRow) (now : ℤ) : Option ℤ :=
  match row.startedAt with
  | some startedAt => if startedAt = 0 ∨ now < startedAt then none else some (now - startedAt)
  | none => none

def staleStatus (row : RunRow) : Status := if row.status = .queued then .blocked else .failed

def staleMessage (row : RunRow) : String :=
  if row.status = .queued then
    "Task runtime stopped tracking this queued run before it was claimed."
  else
    "Task worker heartbeat became stale."

/-- The result that the sweep stores for a stale run, from the row it wrote. -/
def staleResult (status : Status) (message : String) (row : RunRow) (now : ℤ) : Json :=
  .obj ([("run_id", Json.str row.runID), ("task_id", .str row.taskID), ("status", .str status.text),
    ("title", .str row.taskID), ("summary", .str message), ("error_class", .str "internal"),
    ("error_message", .str message), ("ended_at", .int now),
    ("started_at", .int (staleRunStartedAt row now))] ++
    ((staleRunDuration row now).map fun duration => ("duration_ms", Json.int duration)).toList)

def failStaleRunTx (now : ℤ) (row : RunRow) : Except StoreError RunRow :=
  if row.status ≠ .running ∧ row.status ≠ .queued then
    .ok row
  else do
    let status := staleStatus row
    let message := staleMessage row
    let runJSON ← canonicalPayload row
    let runJSON := putValue runJSON "status" (.string status.text)
    let runJSON := putValue runJSON "worker_id" (.string staleSweeperWorkerID)
    let runJSON := putValue runJSON "fencing_token" (.string "")
    let runJSON := putValue runJSON "ended_at" (.int64 now)
    let runJSON := putValue runJSON "last_error_class" (.string "internal")
    let runJSON := putValue runJSON "last_error" (.string message)
    let row := updateRunPayload row runJSON now
    return { row with resultJSON := some (staleResult status message row now) }

/-- The body of `ReopenRunForRetry`: `incoming` is the row of the payload. -/
def reopenRow (now : ℤ) (incoming : RunRow) (expectedAttempt : Int32) (existing : RunRow) :
    Except StoreError RunRow := do
  ensureReopenable existing expectedAttempt
  ensureReopenPayload existing incoming expectedAttempt
  return { runUpdateMap { incoming with updatedAt := now } existing with
    resultJSON := none
    latestProgressMessage := ""
    latestProgressAt := 0 }

/-- `protectTerminalStatus`: whether a row of this status takes the update. -/
def protectTerminalStatus (stored incoming : Status) : Bool :=
  if incoming ∈ terminalRunStatuses then
    stored ∉ terminalRunStatuses || stored = incoming
  else
    stored ∉ terminalRunStatuses

/-- What `UpdateRun` makes of a stored row of the run. -/
def updateRow (now : ℤ) (incoming stored : RunRow) : RunRow :=
  if protectTerminalStatus stored.status incoming.status then
    let row := runUpdateMap { incoming with updatedAt := now } stored
    { row with resultJSON := if incoming.status.isActive then none else row.resultJSON }
  else
    stored

def truncateProgressMessage (message : String) : String :=
  if message.toList.length ≤ 1000 then message else String.ofList (message.toList.take 1000)

/-- What `SetRunProgress` makes of a stored row of the run. -/
def progressRow (now : ℤ) (message : String) (ts : ℤ) (stored : RunRow) : RunRow :=
  if stored.latestProgressAt ≤ ts then
    { stored with
      latestProgressMessage := truncateProgressMessage message
      latestProgressAt := ts
      updatedAt := now }
  else
    stored

end Sico.TaskRuntime

import Sico.TaskRuntime.Payload

/-! # Rows of the task runtime

A run is stored as indexed columns beside its document, and the columns win: every
reader overwrites the document's members with them (`canonicalizeRunPayload`). A
write goes the other way, from the document through the untyped map back into the
columns (`updateRunPayload`).
-/

namespace Sico.TaskRuntime

open Foundation

/-- The texts of the statuses the code names. -/
def statusTexts : List String :=
  ["queued", "running", "completed", "partial", "failed", "cancelled", "timed_out", "blocked"]

/-- A status column. A client may store any text, so the named ones are not all. -/
inductive Status where
  | queued
  | running
  | completed
  | partially
  | failed
  | cancelled
  | timedOut
  | blocked
  | other (text : String) (unnamed : text ∉ statusTexts)
  deriving Repr, DecidableEq

namespace Status

def text : Status → String
  | queued => "queued"
  | running => "running"
  | completed => "completed"
  | partially => "partial"
  | failed => "failed"
  | cancelled => "cancelled"
  | timedOut => "timed_out"
  | blocked => "blocked"
  | other text _ => text

def ofText (text : String) : Status :=
  if unnamed : text ∉ statusTexts then
    other text unnamed
  else
    match text with
    | "running" => running
    | "completed" => completed
    | "partial" => partially
    | "failed" => failed
    | "cancelled" => cancelled
    | "timed_out" => timedOut
    | "blocked" => blocked
    | _ => queued

@[simp] theorem ofText_text (status : Status) : ofText status.text = status := by
  cases status with
  | other text unnamed => simp [Status.text, ofText, unnamed]
  | _ => decide

end Status

def terminalRunStatuses : List Status := [.completed, .failed, .cancelled, .timedOut, .blocked]

def terminalBatchStatuses : List Status :=
  [.completed, .partially, .failed, .cancelled, .timedOut, .blocked]

/-- `retryableTerminalRunStatuses`: a recorded success and a cancellation are absent. -/
def retryableTerminalRunStatuses : List Status := [.failed, .timedOut, .blocked]

/-- `isActiveBatchStatus`, and the test that the run operations spell out. -/
def Status.isActive (status : Status) : Bool := status = .queued || status = .running

/-- `taskRuntimeRunPayload`, with the one field of its `spec`. -/
structure RunPayload where
  runID : String := ""
  batchID : String := ""
  parentConversationID : ℤ := 0
  parentTurnID : ℤ := 0
  batchItemIndex : Int32 := 0
  taskID : String := ""
  idempotencyKey : String := ""
  status : String := ""
  attempt : Int32 := 0
  executor : String := ""
  workerID : String := ""
  fencingToken : String := ""
  queuedAt : ℤ := 0
  startedAt : Option ℤ := none
  endedAt : Option ℤ := none
  lastErrorClass : String := ""
  lastError : String := ""
  deriving Repr, DecidableEq

/-- Decoding into an `int32`. -/
def intoInt32 (current : Int32) (value : Json) : Option Int32 :=
  (value.intoSigned 31 current.toInt).map Int32.ofInt

/-- Decoding into `taskRuntimeTaskSpecPayload`, of which only the task ID is a field. -/
def intoTaskID (current : String) : Json → Option String
  | .null => some current
  | .obj members => Json.readField Json.intoText current "task_id" members
  | _ => none

def RunPayload.ofMembers (members : List (String × Json)) : Option RunPayload := do
  let runID ← Json.readField Json.intoText "" "run_id" members
  let batchID ← Json.readField Json.intoText "" "batch_id" members
  let parentConversationID ← Json.readField (Json.intoSigned 63) 0 "parent_conversation_id" members
  let parentTurnID ← Json.readField (Json.intoSigned 63) 0 "parent_turn_id" members
  let batchItemIndex ← Json.readField intoInt32 0 "batch_item_index" members
  let taskID ← Json.readField intoTaskID "" "spec" members
  let idempotencyKey ← Json.readField Json.intoText "" "idempotency_key" members
  let status ← Json.readField Json.intoText "" "status" members
  let attempt ← Json.readField intoInt32 0 "attempt" members
  let executor ← Json.readField Json.intoText "" "executor" members
  let workerID ← Json.readField Json.intoText "" "worker_id" members
  let fencingToken ← Json.readField Json.intoText "" "fencing_token" members
  let queuedAt ← Json.readField (Json.intoSigned 63) 0 "queued_at" members
  let startedAt ← Json.readField Json.intoPointer none "started_at" members
  let endedAt ← Json.readField Json.intoPointer none "ended_at" members
  let lastErrorClass ← Json.readField Json.intoText "" "last_error_class" members
  let lastError ← Json.readField Json.intoText "" "last_error" members
  return { runID, batchID, parentConversationID, parentTurnID, batchItemIndex, taskID, idempotencyKey,
           status, attempt, executor, workerID, fencingToken, queuedAt, startedAt, endedAt,
           lastErrorClass, lastError }

/-- `taskRuntimeResultPayload`, with the fields that writing a result reads. -/
structure ResultPayload where
  status : String := ""
  summary : String := ""
  errorClass : String := ""
  errorMessage : String := ""
  endedAt : Option ℤ := none
  artifacts : List Json := []
  deriving Repr

/-- Decoding into the artifacts, a `[]any`. -/
def intoArtifacts (_ : List Json) : Json → Option (List Json)
  | .null => some []
  | .arr items => some items
  | _ => none

/-- The result payload of the members of a document. -/
def ResultPayload.ofMembers (members : List (String × Json)) : Option ResultPayload := do
  let status ← Json.readField Json.intoText "" "status" members
  let summary ← Json.readField Json.intoText "" "summary" members
  let errorClass ← Json.readField Json.intoText "" "error_class" members
  let errorMessage ← Json.readField Json.intoText "" "error_message" members
  let endedAt ← Json.readField Json.intoPointer none "ended_at" members
  let artifacts ← Json.readField intoArtifacts [] "artifacts" members
  return { status, summary, errorClass, errorMessage, endedAt, artifacts }

/-- The token of the members of a document, all that `fencingTokenPayload` holds. -/
def tokenOfMembers (members : List (String × Json)) : Option String :=
  Json.readField Json.intoText "" "token" members

/-- A row of `t_task_runtime_run`. Rows stand in the table in the order of their
primary key, which no column repeats. -/
structure RunRow where
  runID : String
  batchID : String
  parentConversationID : ℤ
  parentTurnID : ℤ
  batchItemIndex : Int32
  taskID : String
  idempotencyKey : String
  status : Status
  attempt : Int32
  executor : String
  workerID : String
  fencingToken : String
  queuedAt : ℤ
  startedAt : Option ℤ
  endedAt : Option ℤ
  lastErrorClass : String
  lastError : String
  runJSON : Json
  resultJSON : Option Json
  latestProgressMessage : String
  latestProgressAt : ℤ
  createdAt : ℤ
  updatedAt : ℤ
  deriving Repr

/-- A queued run of the first attempt with nothing but its IDs. -/
def RunRow.fresh (runID batchID : String) : RunRow where
  runID := runID
  batchID := batchID
  parentConversationID := 0
  parentTurnID := 0
  batchItemIndex := 0
  taskID := ""
  idempotencyKey := ""
  status := .queued
  attempt := 1
  executor := ""
  workerID := ""
  fencingToken := ""
  queuedAt := 0
  startedAt := none
  endedAt := none
  lastErrorClass := ""
  lastError := ""
  runJSON := .obj []
  resultJSON := none
  latestProgressMessage := ""
  latestProgressAt := 0
  createdAt := 0
  updatedAt := 0

/-- `canonicalizeRunPayload`: the columns overwrite the members, under their Go types. -/
def canonicalizeRunPayload (row : RunRow) (payload : JsonMap) : JsonMap :=
  let payload := putValue payload "run_id" (.string row.runID)
  let payload := putValue payload "batch_id" (.string row.batchID)
  let payload := putValue payload "parent_conversation_id" (.int64 row.parentConversationID)
  let payload := putValue payload "parent_turn_id" (.int64 row.parentTurnID)
  let payload := putValue payload "batch_item_index" (.int32 row.batchItemIndex)
  let payload := putValue payload "idempotency_key" (.string row.idempotencyKey)
  let payload := putValue payload "status" (.string row.status.text)
  let payload := putValue payload "attempt" (.int32 row.attempt)
  let payload := putValue payload "executor" (.string row.executor)
  let payload := putValue payload "worker_id" (.string row.workerID)
  let payload := putValue payload "fencing_token" (.string row.fencingToken)
  let payload := putValue payload "queued_at" (.int64 row.queuedAt)
  let payload := putValue payload "started_at" (.int64Ptr row.startedAt)
  let payload := putValue payload "ended_at" (.int64Ptr row.endedAt)
  let payload := putValue payload "last_error_class" (.string row.lastErrorClass)
  let payload := putValue payload "last_error" (.string row.lastError)
  let payload := putValue payload "latest_progress_message" (.string row.latestProgressMessage)
  putValue payload "latest_progress_at" (.int64 row.latestProgressAt)

/-- `runRowFromJSON`: the columns of a document a client sends, with the defaults. -/
def runRowFromJSON (now : ℤ) (payload : RawJson) : Except StoreError RunRow := do
  let runPayload ← decodeJSONValue {} RunPayload.ofMembers payload "run_json"
  refuseIf (runPayload.runID = "" ∨ runPayload.batchID = "")
    (.invalid "run_id and batch_id are required")
  let canonicalPayload ← decodeJSONMap payload "run_json"
  let row : RunRow :=
    { runID := runPayload.runID
      batchID := runPayload.batchID
      parentConversationID := runPayload.parentConversationID
      parentTurnID := runPayload.parentTurnID
      batchItemIndex := runPayload.batchItemIndex
      taskID := runPayload.taskID
      idempotencyKey := runPayload.idempotencyKey
      status := if runPayload.status = "" then .queued else .ofText runPayload.status
      attempt := if runPayload.attempt = 0 then 1 else runPayload.attempt
      executor := runPayload.executor
      workerID := runPayload.workerID
      fencingToken := runPayload.fencingToken
      queuedAt := if runPayload.queuedAt = 0 then now else runPayload.queuedAt
      startedAt := runPayload.startedAt
      endedAt := runPayload.endedAt
      lastErrorClass := runPayload.lastErrorClass
      lastError := runPayload.lastError
      runJSON := .null
      resultJSON := none
      latestProgressMessage := ""
      latestProgressAt := 0
      createdAt := now
      updatedAt := now }
  return { row with runJSON := marshalJSON (canonicalizeRunPayload row canonicalPayload) }

/-- `canonicalRunJSON`: the document a reader gets. -/
def canonicalRunJSON (row : RunRow) : Json :=
  match decodeJSONMap (.doc row.runJSON false) "run_json" with
  | .ok payload => marshalJSON (canonicalizeRunPayload row payload)
  | .error _ => row.runJSON

/-- `runUpdateMap` applied to a stored row: `row` gives every column but the run
ID, the result, the progress line and the creation time. -/
def runUpdateMap (row stored : RunRow) : RunRow :=
  { row with
    runID := stored.runID
    resultJSON := stored.resultJSON
    latestProgressMessage := stored.latestProgressMessage
    latestProgressAt := stored.latestProgressAt
    createdAt := stored.createdAt }

/-- `updateRunPayload`: the mutated map is read back into the columns. -/
def updateRunPayload (row : RunRow) (payload : JsonMap) (now : ℤ) : RunRow :=
  { row with
    status := .ofText (getString payload "status")
    attempt := Int32.ofInt (getInt64 payload "attempt")
    workerID := getString payload "worker_id"
    fencingToken := getString payload "fencing_token"
    startedAt := getOptionalInt64 payload "started_at"
    endedAt := getOptionalInt64 payload "ended_at"
    lastErrorClass := getString payload "last_error_class"
    lastError := getString payload "last_error"
    runJSON := marshalJSON payload
    updatedAt := now }

end Sico.TaskRuntime

import Sico.TaskRuntime.Columns

/-! # Runs as the runtime holds them

The runtime reads a run as a snapshot, a `TaskRun`, and writes it back whole. A
snapshot carries the columns of the row it was read from beside the sandbox fields
that live in the document alone; the fields of the model that no column and no edit
concerns are left out. What the store makes of a snapshot written back is the row the
snapshot came from, up to the defaults of an absent status and a zero attempt
(`TaskRun.row_of_dump`).
-/

namespace Sico.TaskRuntime

open Foundation

structure TaskRun where
  runID : String
  batchID : String
  parentConversationID : ℤ
  parentTurnID : ℤ
  batchItemIndex : Int32
  taskID : String
  status : Status
  attempt : Int32
  idempotencyKey : String
  executor : String
  workerID : String
  fencingToken : String
  sandbox : Json
  sandboxReleased : Bool
  leaseOutcome : String
  runtimeStage : String
  queuedAt : ℤ
  startedAt : Option ℤ
  heartbeatAt : Option ℤ
  endedAt : Option ℤ
  lastErrorClass : String
  lastError : String

/-- The values of the enumeration `TaskStatus`. -/
def taskStatuses : List Status :=
  [.queued, .running, .completed, .failed, .cancelled, .timedOut, .blocked]

/-- The values of the enumeration `ErrorClass`, and the text the store keeps for none. -/
def errorClasses : List String :=
  ["", "transient", "sandbox_unhealthy", "sandbox_no_capacity", "timeout", "user_input",
    "skill_runtime", "policy_deny", "internal", "cancelled"]

theorem text_ne_empty {status : Status} (named : status ∈ taskStatuses) : status.text ≠ "" := by
  simp only [taskStatuses, List.mem_cons, List.not_mem_nil, or_false] at named
  rcases named with rfl | rfl | rfl | rfl | rfl | rfl | rfl <;> decide

def timeJson (time : Option ℤ) : Json := time.elim .null .int

namespace TaskRun

/-- `get_run`: the snapshot of a row. The document must be an object, and the status
and the error class must be values of their enumerations. The task is named by the
`spec` that the column was projected from. -/
def ofRow (row : RunRow) : Option TaskRun :=
  match canonicalPayload row with
  | .error _ => none
  | .ok payload =>
      if row.status ∈ taskStatuses ∧ row.lastErrorClass ∈ errorClasses then
        some
          { runID := row.runID
            batchID := row.batchID
            parentConversationID := row.parentConversationID
            parentTurnID := row.parentTurnID
            batchItemIndex := row.batchItemIndex
            taskID := row.taskID
            status := row.status
            attempt := row.attempt
            idempotencyKey := row.idempotencyKey
            executor := row.executor
            workerID := row.workerID
            fencingToken := row.fencingToken
            sandbox := ((payload.lookup "sandbox").map GoValue.toJson).getD .null
            sandboxReleased :=
              match payload.lookup "sandbox_released" with
              | some (.bool value) => value
              | _ => false
            leaseOutcome := getString payload "lease_outcome"
            runtimeStage := getString payload "runtime_stage"
            queuedAt := row.queuedAt
            startedAt := row.startedAt
            heartbeatAt :=
              match payload.lookup "heartbeat_at" with
              | some (.number value) => some value
              | _ => none
            endedAt := row.endedAt
            lastErrorClass := row.lastErrorClass
            lastError := row.lastError }
      else
        none

/-- The members of the document `model_dump_json` writes. -/
def members (run : TaskRun) : List (String × Json) :=
  [("run_id", .str run.runID), ("batch_id", .str run.batchID),
    ("parent_conversation_id", .int run.parentConversationID),
    ("parent_turn_id", .int run.parentTurnID), ("batch_item_index", .int run.batchItemIndex.toInt),
    ("spec", .obj [("task_id", .str run.taskID)]), ("status", .str run.status.text),
    ("attempt", .int run.attempt.toInt), ("idempotency_key", .str run.idempotencyKey),
    ("executor", .str run.executor), ("worker_id", .str run.workerID),
    ("fencing_token", .str run.fencingToken), ("sandbox", run.sandbox),
    ("sandbox_released", .bool run.sandboxReleased), ("lease_outcome", .str run.leaseOutcome),
    ("runtime_stage", .str run.runtimeStage), ("queued_at", .int run.queuedAt),
    ("started_at", timeJson run.startedAt), ("heartbeat_at", timeJson run.heartbeatAt),
    ("ended_at", timeJson run.endedAt),
    ("last_error_class", if run.lastErrorClass = "" then .null else .str run.lastErrorClass),
    ("last_error", .str run.lastError)]

/-- `model_dump_json`. -/
def dump (run : TaskRun) : Json := .obj run.members

/-- The payload that a dumped snapshot decodes to. -/
def payload (run : TaskRun) : RunPayload where
  runID := run.runID
  batchID := run.batchID
  parentConversationID := run.parentConversationID
  parentTurnID := run.parentTurnID
  batchItemIndex := run.batchItemIndex
  taskID := run.taskID
  idempotencyKey := run.idempotencyKey
  status := run.status.text
  attempt := run.attempt
  executor := run.executor
  workerID := run.workerID
  fencingToken := run.fencingToken
  queuedAt := run.queuedAt
  startedAt := run.startedAt
  endedAt := run.endedAt
  lastErrorClass := run.lastErrorClass
  lastError := run.lastError

end TaskRun

theorem intoInt32_toInt (current value : Int32) :
    intoInt32 current (.int value.toInt) = some value := by
  have low := Int32.le_toInt value
  have high := Int32.toInt_lt value
  simp only [intoInt32, Json.intoSigned, fitsSigned, low, high, and_self, decide_true, if_true,
    Option.map_some, Int32.ofInt_toInt]

/-- Reading a field of an object whose member names are distinct and field names as they
stand. -/
theorem readField_member {Value : Type*} {members : List (String × Json)}
    (plain : ∀ key ∈ members.map Prod.fst, fieldName key = key)
    (distinct : (members.map Prod.fst).Nodup) (into : Value → Json → Option Value) (zero : Value)
    {name : String} (value : Json) (inside : (name, value) ∈ members) :
    Json.readField into zero name members = into zero value := by
  have names : members.map (fun member => fieldName member.1) = members.map Prod.fst :=
    List.map_congr_left fun member here => plain member.1 (List.mem_map_of_mem here)
  exact Json.readField_eq (names ▸ distinct) into zero (plain name (List.mem_map_of_mem inside)) inside

theorem TaskRun.plain_members (run : TaskRun) :
    ∀ key ∈ run.members.map Prod.fst, fieldName key = key := by
  simp only [TaskRun.members, List.map_cons, List.map_nil]
  decide

theorem TaskRun.distinct_members (run : TaskRun) : (run.members.map Prod.fst).Nodup := by
  simp only [TaskRun.members, List.map_cons, List.map_nil]
  decide

theorem TaskRun.readField_eq {Value : Type*} (run : TaskRun) (into : Value → Json → Option Value)
    (zero : Value) {name : String} (value : Json) (inside : (name, value) ∈ run.members) :
    Json.readField into zero name run.members = into zero value :=
  readField_member run.plain_members run.distinct_members into zero value inside

theorem TaskRun.readText {run : TaskRun} {name value : String}
    (read : Json.readField Json.intoText "" name run.members = some value) (stored : String)
    (inside : (name, .str stored) ∈ run.members) : value = stored := by
  rw [run.readField_eq _ _ _ inside] at read
  exact (Option.some.inj read).symm

theorem intoSigned_int {bits : ℕ} {current value result : ℤ}
    (decoded : Json.intoSigned bits current (.int value) = some result) : result = value := by
  simp only [Json.intoSigned] at decoded
  split at decoded
  · exact (Option.some.inj decoded).symm
  · cases decoded

theorem intoPointer_time {current time result : Option ℤ}
    (decoded : Json.intoPointer current (timeJson time) = some result) : result = time := by
  cases time with
  | none => exact (Option.some.inj decoded).symm
  | some value =>
      simp only [timeJson, Option.elim, Json.intoPointer] at decoded
      split at decoded
      · exact (Option.some.inj decoded).symm
      · cases decoded

theorem intoTaskID_spec (current taskID : String) :
    intoTaskID current (.obj [("task_id", .str taskID)]) = some taskID := by
  have plain : fieldName "task_id" = "task_id" := by decide
  simp [intoTaskID, Json.readField, plain, Json.intoText]

/-- An absent error class is dumped as `null` and decodes to the empty text. -/
theorem intoText_errorClass {errorClass result : String}
    (decoded : Json.intoText "" (if errorClass = "" then .null else .str errorClass) = some result) :
    result = errorClass := by
  split at decoded
  · next empty => exact (Option.some.inj decoded).symm.trans empty.symm
  · exact (Option.some.inj decoded).symm

theorem TaskRun.ofMembers_members {run : TaskRun} {value : RunPayload}
    (decoded : RunPayload.ofMembers run.members = some value) : value = run.payload := by
  obtain ⟨_, runID, decoded⟩ := Option.bind_eq_some_iff.mp decoded
  obtain ⟨_, batchID, decoded⟩ := Option.bind_eq_some_iff.mp decoded
  obtain ⟨_, conversation, decoded⟩ := Option.bind_eq_some_iff.mp decoded
  obtain ⟨_, turn, decoded⟩ := Option.bind_eq_some_iff.mp decoded
  obtain ⟨_, index, decoded⟩ := Option.bind_eq_some_iff.mp decoded
  obtain ⟨_, taskID, decoded⟩ := Option.bind_eq_some_iff.mp decoded
  obtain ⟨_, key, decoded⟩ := Option.bind_eq_some_iff.mp decoded
  obtain ⟨_, status, decoded⟩ := Option.bind_eq_some_iff.mp decoded
  obtain ⟨_, attempt, decoded⟩ := Option.bind_eq_some_iff.mp decoded
  obtain ⟨_, executor, decoded⟩ := Option.bind_eq_some_iff.mp decoded
  obtain ⟨_, worker, decoded⟩ := Option.bind_eq_some_iff.mp decoded
  obtain ⟨_, token, decoded⟩ := Option.bind_eq_some_iff.mp decoded
  obtain ⟨_, queued, decoded⟩ := Option.bind_eq_some_iff.mp decoded
  obtain ⟨_, started, decoded⟩ := Option.bind_eq_some_iff.mp decoded
  obtain ⟨_, ended, decoded⟩ := Option.bind_eq_some_iff.mp decoded
  obtain ⟨_, errorClass, decoded⟩ := Option.bind_eq_some_iff.mp decoded
  obtain ⟨_, error, decoded⟩ := Option.bind_eq_some_iff.mp decoded
  cases decoded
  obtain rfl := readText runID run.runID (by simp [members])
  obtain rfl := readText batchID run.batchID (by simp [members])
  obtain rfl := readText key run.idempotencyKey (by simp [members])
  obtain rfl := readText status run.status.text (by simp [members])
  obtain rfl := readText executor run.executor (by simp [members])
  obtain rfl := readText worker run.workerID (by simp [members])
  obtain rfl := readText token run.fencingToken (by simp [members])
  obtain rfl := readText error run.lastError (by simp [members])
  rw [run.readField_eq _ _ (.int run.parentConversationID) (by simp [members])] at conversation
  rw [run.readField_eq _ _ (.int run.parentTurnID) (by simp [members])] at turn
  rw [run.readField_eq _ _ (.int run.batchItemIndex.toInt) (by simp [members]),
    intoInt32_toInt] at index
  rw [run.readField_eq _ _ (.obj [("task_id", .str run.taskID)]) (by simp [members]),
    intoTaskID_spec] at taskID
  rw [run.readField_eq _ _ (.int run.attempt.toInt) (by simp [members]), intoInt32_toInt] at attempt
  rw [run.readField_eq _ _ (.int run.queuedAt) (by simp [members])] at queued
  rw [run.readField_eq _ _ (timeJson run.startedAt) (by simp [members])] at started
  rw [run.readField_eq _ _ (timeJson run.endedAt) (by simp [members])] at ended
  rw [run.readField_eq _ _ (if run.lastErrorClass = "" then .null else .str run.lastErrorClass)
    (by simp only [members, List.mem_cons, true_or, or_true])] at errorClass
  cases index
  cases taskID
  cases attempt
  rw [intoSigned_int conversation, intoSigned_int turn, intoSigned_int queued,
    intoPointer_time started, intoPointer_time ended, intoText_errorClass errorClass]
  rfl

/-- The columns an accepted snapshot leaves: those of the snapshot, with the first
attempt in place of a zero one. -/
theorem TaskRun.row_of_dump {run : TaskRun} {now : ℤ} {row : RunRow}
    (accepted : runRowFromJSON now (.doc run.dump false) = .ok row) :
    row.status = (if run.status.text = "" then .queued else run.status) ∧
      row.attempt = (if run.attempt = 0 then 1 else run.attempt) ∧
      row.fencingToken = run.fencingToken ∧ row.lastErrorClass = run.lastErrorClass ∧
      row.batchID = run.batchID ∧ row.idempotencyKey = run.idempotencyKey ∧ row.batchItemIndex = run.batchItemIndex ∧
      row.taskID = run.taskID ∧ row.parentConversationID = run.parentConversationID ∧
      row.parentTurnID = run.parentTurnID ∧ ∃ payload : JsonMap, row.runJSON = marshalJSON payload := by
  obtain ⟨payload, decoded, accepted⟩ := bind_eq_ok.mp accepted
  obtain ⟨_, _, accepted⟩ := bind_eq_ok.mp accepted
  obtain ⟨stored, _, accepted⟩ := bind_eq_ok.mp accepted
  have same : payload = run.payload := by
    simp only [decodeJSONValue, TaskRun.dump] at decoded
    split at decoded
    · next value read =>
      cases decoded
      exact TaskRun.ofMembers_members read
    · cases decoded
  subst same
  cases accepted
  refine ⟨?_, rfl, rfl, rfl, rfl, rfl, rfl, rfl, rfl, rfl, _, rfl⟩
  simp [TaskRun.payload]

end Sico.TaskRuntime

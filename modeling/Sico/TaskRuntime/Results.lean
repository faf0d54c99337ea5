import Sico.TaskRuntime.Scheduler
import Sico.TaskRuntime.TaskRun
import Sico.TaskRuntime.TerminalAbsorption

/-! # Results and the runs they belong to

A result is written to the store as a document and read back from it; the fields that
no decision reads (output, artifacts, logs, trajectory, sandbox, metrics) are left out.
A row that the runtime and the sweep have written is readable, and its result, if it
has one, is of the row's own status (`Readable`). The transitions of the store other
than a reopen keep a row readable and leave a settled status alone (`Evolves`).
-/

namespace Sico.TaskRuntime

open Foundation

/-- A run as the coordinator is handed it: the snapshot, and what it reads of the run's
specification and policy. -/
structure ScheduledRun extends TaskRun where
  title : String
  requiredSandbox : Bool
  policyExecutor : String
  timeoutSeconds : ℤ
  /-- `TASK_RUNTIME_REUSE_WAIT_TIMEOUT_SECONDS`, where it is set to a number. -/
  configuredReuseWait : Option ℤ
  runtimeReuse : Bool

/-- A run as it is first queued, in process and without a timeout. -/
def ScheduledRun.fresh (runID batchID : String) : ScheduledRun where
  runID := runID
  batchID := batchID
  parentConversationID := 0
  parentTurnID := 0
  batchItemIndex := 0
  taskID := ""
  status := .queued
  attempt := 1
  idempotencyKey := ""
  executor := ""
  workerID := ""
  fencingToken := ""
  sandbox := .null
  sandboxReleased := false
  leaseOutcome := ""
  runtimeStage := ""
  queuedAt := 0
  startedAt := none
  heartbeatAt := none
  endedAt := none
  lastErrorClass := ""
  lastError := ""
  title := ""
  requiredSandbox := false
  policyExecutor := "in_process"
  timeoutSeconds := 0
  configuredReuseWait := none
  runtimeReuse := false

/-- What `_internal_failure_result` reads of the run. -/
def ScheduledRun.batchRun (run : ScheduledRun) : BatchRun :=
  ⟨run.runID, run.batchItemIndex.toInt, run.taskID, run.title, run.startedAt⟩

structure FencingToken where
  runID : String
  token : String
  issuedAt : ℤ
  deriving Repr, DecidableEq

def FencingToken.dump (token : FencingToken) : Json :=
  .obj [("run_id", .str token.runID), ("token", .str token.token), ("issued_at", .int token.issuedAt)]

/-- `TaskDetail`, with the fields the coordinator reads. -/
structure TaskDetail where
  run : TaskRun
  result : Option TaskResult

/-- Python's `or` on an optional time. -/
def timeOr (time fallback : Option ℤ) : Option ℤ :=
  match time with
  | some value => if value = 0 then fallback else some value
  | none => fallback

/-- Python's `or` on a text. -/
def textOr (text fallback : String) : String := if text = "" then fallback else text

/-- The shape of the results that take no time. -/
def instantResult (status : Status) (errorClass : String) (now : ℤ) (run : ScheduledRun)
    (message : String) : TaskResult where
  runID := run.runID
  taskID := run.taskID
  status := status
  title := run.title
  summary := message
  errorClass := some errorClass
  errorMessage := message
  startedAt := some now
  endedAt := some now
  durationMS := some 0

def blockedResult (now : ℤ) (run : ScheduledRun) (message errorClass : String) : TaskResult :=
  instantResult .blocked errorClass now run message

def cancelledResult (now : ℤ) (run : ScheduledRun) (message : String) : TaskResult :=
  instantResult .cancelled "cancelled" now run message

def buildPolicyDeniedResult (now : ℤ) (run : ScheduledRun) (message : String) : TaskResult :=
  instantResult .failed "policy_deny" now run message

/-- The shape of the results that last from the start of the run. -/
def elapsedResult (status : Status) (errorClass : String) (now : ℤ) (run : ScheduledRun)
    (message : String) : TaskResult :=
  let startedAt := (timeOr run.startedAt (timeOr (some run.queuedAt) (some now))).getD now
  { runID := run.runID
    taskID := run.taskID
    status := status
    title := run.title
    summary := message
    errorClass := some errorClass
    errorMessage := message
    startedAt := some startedAt
    endedAt := some now
    durationMS := some (max 0 (now - startedAt)) }

def failedResult (now : ℤ) (run : ScheduledRun) (message errorClass : String) : TaskResult :=
  elapsedResult .failed errorClass now run message

def timedOutResult (now : ℤ) (run : ScheduledRun) (message : String) : TaskResult :=
  elapsedResult .timedOut "timeout" now run message

def defaultTerminalResultSummary (status : Status) : String :=
  if status = .completed then "Task completed."
  else if status = .cancelled then "Task cancelled by user."
  else s!"Task ended with status {status.text}."

/-- `terminal_result_from_run`: the result that stands in for one that was never stored. -/
def terminalResultFromRun (now : ℤ) (title : String) (run : TaskRun) (fallback : TaskResult) :
    TaskResult :=
  let statusMatchesFallback : Bool := fallback.status = run.status
  let startedAt :=
    (timeOr run.startedAt (timeOr fallback.startedAt (timeOr (some run.queuedAt) (some now)))).getD now
  let endedAt := (timeOr run.endedAt (timeOr fallback.endedAt (some now))).getD now
  let summary :=
    textOr (textOr (if statusMatchesFallback then fallback.summary else "") run.lastError)
      (defaultTerminalResultSummary run.status)
  let errorClass :=
    if run.status = .cancelled then "cancelled"
    else
      textOr (textOr run.lastErrorClass
        (if statusMatchesFallback then fallback.errorClass.getD "" else "")) "internal"
  let errorMessage :=
    textOr (textOr run.lastError (if statusMatchesFallback then fallback.errorMessage else "")) summary
  { runID := run.runID
    taskID := run.taskID
    status := run.status
    title := title
    summary := summary
    errorClass := if run.status = .completed then none else some errorClass
    errorMessage := if run.status = .completed then "" else errorMessage
    startedAt := some startedAt
    endedAt := some endedAt
    durationMS := some (max 0 (endedAt - startedAt)) }

def settledResultFromDetail (now : ℤ) (title : String) (detail : TaskDetail) (fallback : TaskResult) :
    Option TaskResult :=
  match detail.result with
  | some result => some result
  | none =>
      if detail.run.status ∈ terminalRunStatuses then
        some (terminalResultFromRun now title detail.run fallback)
      else
        none

/-- `force_update_stranded_run`: the snapshot that is written back. -/
def strandedRun (run : TaskRun) (result : TaskResult) : TaskRun :=
  { run with
    status := result.status
    endedAt := result.endedAt
    lastErrorClass := result.errorClass.getD ""
    lastError := result.errorMessage }

namespace TaskResult

/-- The members of the document `write_result` stores. -/
def members (result : TaskResult) : List (String × Json) :=
  [("run_id", .str result.runID), ("task_id", .str result.taskID),
    ("status", .str result.status.text), ("title", .str result.title),
    ("summary", .str result.summary), ("error_class", result.errorClass.elim .null .str),
    ("error_message", .str result.errorMessage), ("started_at", timeJson result.startedAt),
    ("ended_at", timeJson result.endedAt), ("duration_ms", timeJson result.durationMS)]

def dump (result : TaskResult) : Json := .obj result.members

/-- The member a validating reader takes: of several the last. -/
def member (name : String) (members : List (String × Json)) : Option Json :=
  (members.filter fun member => member.1 = name).getLast?.map Prod.snd

def textOf : Option Json → Option String
  | some (.str text) => some text
  | _ => none

/-- An optional time: a missing member is a `null`. -/
def timeOf : Option Json → Option (Option ℤ)
  | none | some .null => some none
  | some (.int time) => some (some time)
  | _ => none

/-- A member of the enumeration `ErrorClass`, or none. -/
def errorClassOf : Option Json → Option (Option String)
  | none | some .null => some none
  | some (.str text) => if text ≠ "" ∧ text ∈ errorClasses then some (some text) else none
  | _ => none

/-- A member of the enumeration `TaskStatus`. -/
def statusOf : Option Json → Option Status
  | some (.str text) =>
      if Status.ofText text ∈ taskStatuses then some (Status.ofText text) else none
  | _ => none

/-- A text that defaults to the empty one. -/
def messageOf : Option Json → Option String
  | none => some ""
  | some (.str text) => some text
  | _ => none

/-- `TaskResult.model_validate_json`. -/
def ofJson : Json → Option TaskResult
  | .obj members => do
      let runID ← textOf (member "run_id" members)
      let taskID ← textOf (member "task_id" members)
      let status ← statusOf (member "status" members)
      let title ← textOf (member "title" members)
      let summary ← textOf (member "summary" members)
      let errorClass ← errorClassOf (member "error_class" members)
      let errorMessage ← messageOf (member "error_message" members)
      let startedAt ← timeOf (member "started_at" members)
      let endedAt ← timeOf (member "ended_at" members)
      let durationMS ← timeOf (member "duration_ms" members)
      return ⟨runID, taskID, status, title, summary, errorClass, errorMessage, startedAt, endedAt,
        durationMS⟩
  | _ => none

/-- A result with a status and an error class of the enumerations. -/
def Known (result : TaskResult) : Prop :=
  result.status ∈ taskStatuses ∧ ∀ text ∈ result.errorClass, text ≠ "" ∧ text ∈ errorClasses

instance (result : TaskResult) : Decidable result.Known :=
  inferInstanceAs (Decidable (_ ∧ _))

theorem timeOf_timeJson (time : Option ℤ) : timeOf (some (timeJson time)) = some time := by
  cases time <;> rfl

theorem errorClassOf_elim {errorClass : Option String}
    (known : ∀ text ∈ errorClass, text ≠ "" ∧ text ∈ errorClasses) :
    errorClassOf (some (errorClass.elim .null .str)) = some errorClass := by
  cases errorClass with
  | none => rfl
  | some text => simp [errorClassOf, known text rfl]

theorem statusOf_text {status : Status} (named : status ∈ taskStatuses) :
    statusOf (some (.str status.text)) = some status := by
  simp [statusOf, named]

theorem ofJson_dump {result : TaskResult} (known : result.Known) :
    ofJson result.dump = some result := by
  simp [ofJson, dump, members, member, textOf, messageOf, timeOf_timeJson,
    errorClassOf_elim known.2, statusOf_text known.1]

theorem status_of_dump {result : TaskResult} {payload : ResultPayload}
    (decoded : decodeJSONValue {} ResultPayload.ofMembers (.doc result.dump false) "result_json" =
      .ok payload) :
    payload.status = result.status.text ∧ payload.errorClass = result.errorClass.getD "" := by
  have plain : ∀ key ∈ result.members.map Prod.fst, fieldName key = key := by
    simp only [members, List.map_cons, List.map_nil]
    decide
  have distinct : (result.members.map Prod.fst).Nodup := by
    simp only [members, List.map_cons, List.map_nil]
    decide
  simp only [decodeJSONValue, dump] at decoded
  split at decoded
  · next value read =>
    cases decoded
    obtain ⟨_, status, read⟩ := Option.bind_eq_some_iff.mp read
    obtain ⟨_, _, read⟩ := Option.bind_eq_some_iff.mp read
    obtain ⟨_, errorClass, read⟩ := Option.bind_eq_some_iff.mp read
    obtain ⟨_, _, read⟩ := Option.bind_eq_some_iff.mp read
    obtain ⟨_, _, read⟩ := Option.bind_eq_some_iff.mp read
    obtain ⟨_, _, read⟩ := Option.bind_eq_some_iff.mp read
    cases read
    rw [readField_member plain distinct _ _ (.str result.status.text) (by simp [members])]
      at status
    rw [readField_member plain distinct _ _ (result.errorClass.elim .null .str)
      (by simp [members])] at errorClass
    refine ⟨(Option.some.inj status).symm, ?_⟩
    cases stored : result.errorClass with
    | none =>
        rw [stored] at errorClass
        exact (Option.some.inj errorClass).symm
    | some text =>
        rw [stored] at errorClass
        exact (Option.some.inj errorClass).symm
  · cases decoded

end TaskResult

theorem ofJson_staleResult {status : Status} (named : status ∈ taskStatuses) (message : String)
    (row : RunRow) (now : ℤ) :
    ∃ result, TaskResult.ofJson (staleResult status message row now) = some result ∧
      result.status = status := by
  cases duration : staleRunDuration row now with
  | none =>
      simp [TaskResult.ofJson, staleResult, duration, TaskResult.member, TaskResult.textOf,
        TaskResult.messageOf, TaskResult.timeOf, TaskResult.errorClassOf,
        TaskResult.statusOf_text named, errorClasses]
  | some elapsed =>
      simp [TaskResult.ofJson, staleResult, duration, TaskResult.member, TaskResult.textOf,
        TaskResult.messageOf, TaskResult.timeOf, TaskResult.errorClassOf,
        TaskResult.statusOf_text named, errorClasses]

/-- A snapshot with a status and an error class of the enumerations. -/
def TaskRun.Known (run : TaskRun) : Prop :=
  run.status ∈ taskStatuses ∧ run.lastErrorClass ∈ errorClasses

instance (run : TaskRun) : Decidable run.Known := inferInstanceAs (Decidable (_ ∧ _))

theorem instantResult_known {status : Status} {errorClass : String} (named : status ∈ taskStatuses)
    (classified : errorClass ≠ "" ∧ errorClass ∈ errorClasses) (time : ℤ) (run : ScheduledRun)
    (message : String) : (instantResult status errorClass time run message).Known :=
  ⟨named, by rintro _ ⟨⟩; exact classified⟩

theorem elapsedResult_known {status : Status} {errorClass : String} (named : status ∈ taskStatuses)
    (classified : errorClass ≠ "" ∧ errorClass ∈ errorClasses) (time : ℤ) (run : ScheduledRun)
    (message : String) : (elapsedResult status errorClass time run message).Known :=
  ⟨named, by rintro _ ⟨⟩; exact classified⟩

theorem cancelledResult_known (time : ℤ) (run : ScheduledRun) (message : String) :
    (cancelledResult time run message).Known :=
  instantResult_known (by decide) (by decide) time run message

theorem internalFailureResult_known (time : ℤ) (run : BatchRun) (raised : Raised) :
    (internalFailureResult time run raised).Known :=
  ⟨by simp [internalFailureResult, taskStatuses], by rintro _ ⟨⟩; decide⟩

theorem strandedRun_known {run : TaskRun} {result : TaskResult} (known : result.Known) :
    (strandedRun run result).Known := by
  refine ⟨known.1, ?_⟩
  change result.errorClass.getD "" ∈ errorClasses
  cases named : result.errorClass with
  | none => decide
  | some text => exact (known.2 text named).2

/-- What the runtime, its workers and the sweep do to a run between two reopenings. -/
inductive StoreMove where
  | claim (now : ℤ) (token workerID : String)
  | write (now : ℤ) (token : FencingToken) (result : TaskResult)
  | cancel (now : ℤ) (reason : String)
  | sweep (now : ℤ)
  | save (now : ℤ) (run : TaskRun)
  | progress (now : ℤ) (message : String) (ts : ℤ)

namespace StoreMove

/-- The transition of the store that a move asks for. -/
def rowOp : StoreMove → Except StoreError RowOp
  | claim now token workerID => .ok (.claim now token workerID)
  | write now token result => .ok (.write now (.doc token.dump false) (.doc result.dump false))
  | cancel now reason => .ok (.cancel reason now)
  | sweep now => .ok (.sweep now)
  | save now run => (runRowFromJSON now (.doc run.dump false)).map (.update now)
  | progress now message ts => .ok (.progress now message ts)

def exec (move : StoreMove) (row : RunRow) : Except StoreError RunRow := do
  (← move.rowOp).exec row

/-- The documents that a move sends are within the enumerations. -/
def Known : StoreMove → Prop
  | write _ _ result => result.Known
  | save _ run => run.Known
  | _ => True

instance : (move : StoreMove) → Decidable move.Known
  | write _ _ result => inferInstanceAs (Decidable result.Known)
  | save _ run => inferInstanceAs (Decidable run.Known)
  | claim _ _ _ | cancel _ _ | sweep _ | progress _ _ _ => isTrue trivial

end StoreMove

/-- A row that the runtime can read: its document is an object, status and error class
are of their enumerations, and a stored result is of the row's own settled status. -/
structure Readable (row : RunRow) : Prop where
  document : (canonicalPayload row).isOk = true
  status : row.status ∈ taskStatuses
  errorClass : row.lastErrorClass ∈ errorClasses
  result : ∀ document ∈ row.resultJSON, row.status ∈ terminalRunStatuses ∧
    ∃ result, TaskResult.ofJson document = some result ∧ result.status = row.status

theorem readable_fresh (runID batchID : String) : Readable (.fresh runID batchID) :=
  ⟨rfl, by simp [RunRow.fresh, taskStatuses], by simp [RunRow.fresh, errorClasses],
    by simp [RunRow.fresh]⟩

theorem taskStatus_of_terminal {status : Status} (terminal : status ∈ terminalRunStatuses) :
    status ∈ taskStatuses := by
  simp only [taskStatuses, terminalRunStatuses, List.mem_cons] at *
  tauto

theorem unsettled_of_active {status : Status} (active : status.isActive) :
    status ∉ terminalRunStatuses := by
  intro terminal
  simp [isActive_eq_false_of_terminal terminal] at active

theorem Readable.no_result {row : RunRow} (readable : Readable row)
    (unsettled : row.status ∉ terminalRunStatuses) : row.resultJSON = none := by
  cases stored : row.resultJSON with
  | none => rfl
  | some document => exact absurd (readable.result document stored).1 unsettled

section Moves

variable {row row' : RunRow}

theorem Readable.claim (readable : Readable row) {now : ℤ} {token workerID : String}
    (done : claimRow now token workerID row = .ok row') : Readable row' := by
  obtain ⟨_, _, rfl⟩ := claimRow_ok done
  exact ⟨canonicalPayload_of_marshal rfl, by simp [taskStatuses], readable.errorClass, by simp⟩

theorem writeResultRow_status {now durationMS : ℤ} {tokenJSON : RawJson} {result : TaskResult}
    (done : writeResultRow now tokenJSON (.doc result.dump false) row = .ok (durationMS, row')) :
    row'.status = result.status ∧ result.status ∈ terminalRunStatuses := by
  obtain ⟨_, _, _, payload, _, _, _, decoded, terminal, rfl⟩ := writeResultRow_ok done
  rw [(TaskResult.status_of_dump decoded).1, Status.ofText_text] at terminal
  refine ⟨?_, terminal⟩
  simp [(TaskResult.status_of_dump decoded).1]

theorem Readable.write {now durationMS : ℤ} {tokenJSON : RawJson} {result : TaskResult}
    (known : result.Known)
    (done : writeResultRow now tokenJSON (.doc result.dump false) row = .ok (durationMS, row')) :
    Readable row' := by
  obtain ⟨status, terminal⟩ := writeResultRow_status done
  obtain ⟨document, column, stored⟩ := writeResultRow_result done
  obtain ⟨_, _, _, payload, _, _, _, decoded, _, rfl⟩ := writeResultRow_ok done
  cases column
  refine ⟨canonicalPayload_of_marshal rfl, ?_, ?_, ?_⟩
  · rw [status]
    exact known.1
  · change payload.errorClass ∈ errorClasses
    rw [(TaskResult.status_of_dump decoded).2]
    cases named : result.errorClass with
    | none => decide
    | some text => exact (known.2 text named).2
  · intro document' same
    rw [stored] at same
    cases same
    rw [status]
    exact ⟨terminal, result, TaskResult.ofJson_dump known, rfl⟩

theorem Readable.cancel (readable : Readable row) {reason : String} {now : ℤ}
    (done : cancelRunRowTx reason now row = .ok row') : Readable row' := by
  obtain ⟨_, rfl⟩ | ⟨active, _, rfl⟩ := cancelRunRowTx_ok done
  · exact readable
  · refine ⟨canonicalPayload_of_marshal rfl, by simp [taskStatuses], by simp [errorClasses], ?_⟩
    simp [readable.no_result (unsettled_of_active active)]

theorem Readable.sweep (readable : Readable row) {now : ℤ}
    (done : failStaleRunTx now row = .ok row') : Readable row' := by
  obtain ⟨_, rfl⟩ | ⟨active, _, _, columns⟩ := failStaleRunTx_ok done
  · exact readable
  · obtain ⟨written, stored⟩ := failStaleRunTx_result done active
    have status : row'.status = staleStatus row := by rw [columns]
    have terminal : staleStatus row ∈ terminalRunStatuses := by
      unfold staleStatus
      split <;> decide
    refine ⟨?_, ?_, ?_, ?_⟩
    · rw [columns]
      exact canonicalPayload_of_marshal rfl
    · rw [status]
      exact taskStatus_of_terminal terminal
    · rw [columns]
      simp [errorClasses]
    · intro document same
      rw [stored] at same
      cases same
      rw [status]
      exact ⟨terminal, ofJson_staleResult (taskStatus_of_terminal terminal) _ _ _⟩

theorem Readable.update (readable : Readable row) {now : ℤ} {run : TaskRun} (known : run.Known)
    {incoming : RunRow} (accepted : runRowFromJSON now (.doc run.dump false) = .ok incoming) :
    Readable (updateRow now incoming row) := by
  obtain ⟨status, _, _, errorClass, _, _, _, _, _, _, _, document⟩ := TaskRun.row_of_dump accepted
  rw [if_neg (text_ne_empty known.1)] at status
  have kept : ∀ stored ∈ (updateRow now incoming row).resultJSON,
      (updateRow now incoming row).status ∈ terminalRunStatuses ∧
        ∃ result, TaskResult.ofJson stored = some result ∧
          result.status = (updateRow now incoming row).status := by
    intro stored same
    by_cases terminal : row.status ∈ terminalRunStatuses
    · obtain ⟨sameStatus, sameResult⟩ : (updateRow now incoming row).status = row.status ∧
          (updateRow now incoming row).resultJSON = row.resultJSON := updateRow_settled terminal
      rw [sameResult] at same
      rw [sameStatus]
      exact readable.result stored same
    · unfold updateRow at same
      split at same <;> simp [runUpdateMap, readable.no_result terminal] at same
  unfold updateRow at kept ⊢
  split
  · next admitted =>
    rw [if_pos admitted] at kept
    exact ⟨canonicalPayload_of_marshal document, status ▸ known.1, errorClass ▸ known.2, kept⟩
  · exact readable

/-- One row comes from another by what the store allows: it stays readable, and a settled
status stays. -/
structure Evolves (row row' : RunRow) : Prop where
  readable : Readable row → Readable row'
  settled : row.status ∈ terminalRunStatuses → row'.status = row.status

theorem Evolves.refl (row : RunRow) : Evolves row row := ⟨id, fun _ => rfl⟩

theorem Evolves.trans {first second third : RunRow} (early : Evolves first second)
    (late : Evolves second third) : Evolves first third := by
  refine ⟨late.readable ∘ early.readable, fun terminal => ?_⟩
  have same := early.settled terminal
  rw [← same] at terminal
  exact (late.settled terminal).trans same

theorem StoreMove.exec_readable {move : StoreMove} (known : move.Known)
    (done : move.exec row = .ok row') (readable : Readable row) : Readable row' := by
  obtain ⟨op, asked, done⟩ := bind_eq_ok.mp done
  cases move with
  | claim =>
      cases asked
      exact readable.claim done
  | write =>
      cases asked
      obtain ⟨⟨_, _⟩, written, rfl⟩ := map_eq_ok.mp done
      exact .write known written
  | cancel =>
      cases asked
      exact readable.cancel done
  | sweep =>
      cases asked
      exact readable.sweep done
  | save now run =>
      obtain ⟨incoming, accepted, rfl⟩ := map_eq_ok.mp asked
      cases done
      exact readable.update known accepted
  | progress now message ts =>
      cases asked
      cases done
      unfold progressRow
      split
      · refine ⟨?_, readable.status, readable.errorClass, readable.result⟩
        rw [← readable.document]
        exact canonicalPayload_congr rfl
      · exact readable

theorem StoreMove.exec_settled {move : StoreMove} (done : move.exec row = .ok row')
    (terminal : row.status ∈ terminalRunStatuses) : row'.status = row.status := by
  obtain ⟨op, asked, done⟩ := bind_eq_ok.mp done
  rcases RowOp.exec_settled done terminal with kept | ⟨⟨_, _, _, rfl⟩, _⟩
  · exact kept.1
  · cases move with
    | save => obtain ⟨_, _, same⟩ := map_eq_ok.mp asked; cases same
    | _ => cases asked

theorem StoreMove.exec_evolves {move : StoreMove} (known : move.Known)
    (done : move.exec row = .ok row') : Evolves row row' :=
  ⟨StoreMove.exec_readable known done, StoreMove.exec_settled done⟩

end Moves

end Sico.TaskRuntime

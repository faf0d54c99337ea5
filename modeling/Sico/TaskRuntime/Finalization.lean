import Sico.Foundation.Dict
import Sico.Foundation.Traversal
import Sico.TaskRuntime.CoordinatorCalls

/-! # Finalization of a batch

When the scheduler has returned, the finalizer goes over the stored runs of the batch. Those still queued or running it
settles, each with the result the scheduler gave for it or with one of its own, and the results it returns are those
of the stored runs, followed by the scheduler's results for runs that are not among them. It asks the store about one
run at a time; nobody else does, as the scheduler has returned.

A settled run keeps what the scheduler or the store has for it, which may be nothing, and a result of the scheduler
that is not terminal is made so for an active run only. So a run is lost where a settled run has no terminal result
from either (`Sico.TaskRuntime.finalizeNonterminalRuns_iff`).
-/

namespace Sico.TaskRuntime

open Foundation Routine

section Programs

-- the title in the specification of a run
variable (title : TaskRun → String)

def strandedResult (now : ℤ) (run : TaskRun) : TaskResult :=
  let startedAt := (timeOr run.startedAt (timeOr (some run.queuedAt) (some now))).getD now
  { runID := run.runID
    taskID := run.taskID
    status := .blocked
    title := title run
    summary := "Task runtime stopped tracking this run before it reached a terminal result."
    errorClass := some "internal"
    errorMessage := "Task runtime scheduler returned while the run was still queued or running."
    startedAt := some startedAt
    endedAt := some now
    durationMS := some (max 0 (now - startedAt)) }

/-- `_ensure_terminal_result`, with the clock of a result that is not terminal. -/
def ensureTerminalResult (now : ℤ) (run : TaskRun) (result : TaskResult) : TaskResult :=
  if result.status ∈ terminalRunStatuses then result
  else
    let startedAt :=
      (timeOr result.startedAt (timeOr run.startedAt (timeOr (some run.queuedAt) (some now)))).getD now
    { result with
      status := .blocked
      summary := textOr result.summary "Task runtime did not receive a terminal result for this run."
      errorClass := some (result.errorClass.getD "internal")
      errorMessage := textOr result.errorMessage "Task runtime result was non-terminal at batch finalization."
      startedAt := some startedAt
      endedAt := timeOr result.endedAt (some now)
      durationMS := some (result.durationMS.getD (max 0 (now - startedAt))) }

/-- What is known of a run that no result of the scheduler is for: a detail that cannot be had says nothing. -/
def knownResult (known : Option TaskResult) : Routine (Option TaskResult) :=
  match known with
  | some result => return some result
  | none => onException (do return (← getTaskDetail .finalizeNonterminalRuns).result) (pure none)

/-- The result that an active run is settled with: what is known of it, or that it is stranded, made terminal. -/
def settlingResult (run : TaskRun) (known : Option TaskResult) : Routine TaskResult := do
  let result ← match known with
    | some result => pure result
    | none => do return strandedResult title (← now) run
  if result.status ∈ terminalRunStatuses then pure result
  else do return ensureTerminalResult (← now) run result

/-- One turn of the loop of `finalize_nonterminal_runs`: the result that is known of the run after it. -/
def finalizeRun (run : TaskRun) (known : Option TaskResult) : Routine (Option TaskResult) := do
  let known ← knownResult known
  if run.status ∈ terminalRunStatuses then
    return known
  else
    let result ← settlingResult title run known
    let persisted ← persistStrandedResult run result
    ask (.markRunTerminal result persisted.sandboxReleased persisted.leaseOutcome)
    return some result

/-- A request of the finalizer: for the runs of the batch, or about one of them. -/
inductive FinalizerRequest where
  | listBatchRuns
  | about (runID : String) (request : Request)

def FinalizerRequest.Reply : FinalizerRequest → Type
  | listBatchRuns => Except RunError (List TaskRun)
  | about _ request => request.Reply

/-- A program about one run, as a part of the finalizer. -/
def about {Value : Type} (runID : String) :
    Interaction Request Request.Reply Value → Interaction FinalizerRequest FinalizerRequest.Reply Value
  | .done value => .done value
  | .ask request rest => .ask (.about runID request) fun reply => about runID (rest reply)

abbrev FinalizerRoutine (Value : Type) :=
  ExceptT RunError (Interaction FinalizerRequest FinalizerRequest.Reply) Value

/-- The loop of `finalize_nonterminal_runs`. -/
def finalizeRuns : List TaskRun → Dict String TaskResult → FinalizerRoutine (Dict String TaskResult)
  | [], resultByRunID => pure resultByRunID
  | run :: rest, resultByRunID => do
      let known ← ExceptT.mk (about run.runID (finalizeRun title run (resultByRunID.get? run.runID)).run)
      match known with
      | some result => finalizeRuns rest (resultByRunID.set run.runID result)
      | none => finalizeRuns rest resultByRunID

def indexOrder (first second : TaskRun) : Prop := first.batchItemIndex.toInt ≤ second.batchItemIndex.toInt

instance : DecidableRel indexOrder := fun _ _ => inferInstanceAs (Decidable (_ ≤ _))

/-- The results by their runs: of several for one run the last. -/
def resultByRunID (results : List TaskResult) : Dict String TaskResult :=
  results.foldl (fun dict result => dict.set result.runID result) .empty

/-- The results of the runs in their order, and then the scheduler's for other runs. -/
def reconciled (runs : List TaskRun) (results : List TaskResult) (known : Dict String TaskResult) : List TaskResult :=
  ((runs.insertionSort indexOrder).filterMap fun run => known.get? run.runID) ++
    results.filter fun result => result.runID ∉ runs.map TaskRun.runID

def finalizeNonterminalRuns (results : List TaskResult) : FinalizerRoutine (List TaskResult) :=
  .mk (.ask .listBatchRuns fun listed =>
    match (listed : Except RunError (List TaskRun)) with
    | .error .cancelled => .done (.error .cancelled)
    | .error _ => .done (.ok results)
    | .ok runs => (do return reconciled runs results (← finalizeRuns title runs (resultByRunID results))).run)

end Programs

section Stores

/-- A clock of 64 bits, and a source of tokens that are not empty. -/
def Choice.Sound : Choice → Prop
  | .clock now => fitsSigned 63 now
  | .token now drawn => fitsSigned 63 now ∧ drawn ≠ ""
  | _ => True

instance : (choice : Choice) → Decidable choice.Sound
  | .clock now => inferInstanceAs (Decidable (fitsSigned 63 now = true))
  | .token _ _ => inferInstanceAs (Decidable (_ ∧ _))
  | .only | .flag _ | .acquired _ | .finished _ | .executed _ | .polls _ => isTrue trivial

/-- A stored run that only the finalizer asks about. -/
def storedRun : Surroundings Request Request.Reply RunRow Choice StoreMove where
  serve request choice row := if choice.Sound then serve request choice row else none
  move := surroundings.move

/-- The order in which the store lists the runs of a batch: rows of the same index stand as in the table. -/
def rowOrder (first second : RunRow) : Prop := first.batchItemIndex.toInt ≤ second.batchItemIndex.toInt

instance : DecidableRel rowOrder := fun _ _ => inferInstanceAs (Decidable (_ ≤ _))

def inOrder (rows : List RunRow) : List RunRow := rows.insertionSort rowOrder

def putRow (runID : String) (row : RunRow) (rows : List RunRow) : List RunRow :=
  rows.map fun stored => if stored.runID = runID then row else stored

/-- The stored runs of a batch. A run that is listed stays in the table. -/
def storedBatch : Surroundings FinalizerRequest FinalizerRequest.Reply (List RunRow) Choice Empty where
  serve
    | .listBatchRuns, choice, rows =>
        match choice with
        | .only => some ((inOrder rows).mapM readRun, rows)
        | _ => none
    | .about runID request, choice, rows => do
        let row ← Table.select RunRow.runID runID rows
        let answer ← storedRun.serve request choice row
        return (answer.1, putRow runID answer.2 rows)
  move _ none_ := none_.elim

end Stores

section Documents

/-- An optional time that the store can hold. -/
def TimeFits (time : Option ℤ) : Prop := time.all (fitsSigned 63)

instance (time : Option ℤ) : Decidable (TimeFits time) := inferInstanceAs (Decidable (_ = true))

theorem intoPointer_timeJson {time : Option ℤ} (fits : TimeFits time) :
    Json.intoPointer none (timeJson time) = some time := by
  cases time with
  | none => rfl
  | some value => exact if_pos fits

theorem intoPointer_unfit {time : Option ℤ} (unfit : ¬ TimeFits time) :
    Json.intoPointer none (timeJson time) = none := by
  cases time with
  | none => exact absurd rfl unfit
  | some value => exact if_neg unfit

theorem intoSigned_fits {current value : ℤ} (fits : fitsSigned 63 value) :
    Json.intoSigned 63 current (.int value) = some value := if_pos fits

namespace TaskResult

variable (result : TaskResult)

theorem readField_eq {Value : Type*} (into : Value → Json → Option Value) (zero : Value) {name : String} {value : Json}
    (inside : (name, value) ∈ result.members) : Json.readField into zero name result.members = into zero value := by
  refine readField_member ?_ ?_ into zero value inside
  · simp only [members, List.map_cons, List.map_nil]
    decide
  · simp only [members, List.map_cons, List.map_nil]
    decide

theorem readField_artifacts : Json.readField intoArtifacts [] "artifacts" result.members = some [] := by
  refine Json.readField_absent ?_ _ _
  simp only [members, List.forall_mem_cons]
  decide

theorem decode_dump (fits : TimeFits result.endedAt) :
    ∃ payload, decodeJSONValue {} ResultPayload.ofMembers (.doc result.dump false) "result_json" = .ok payload := by
  obtain ⟨text, readClass⟩ : ∃ text, Json.intoText "" (result.errorClass.elim .null .str) = some text := by
    cases result.errorClass with
    | none => exact ⟨_, rfl⟩
    | some text => exact ⟨_, rfl⟩
  have read : ∃ payload, ResultPayload.ofMembers result.members = some payload := by
    unfold ResultPayload.ofMembers
    rw [result.readField_eq Json.intoText "" (by simp [members] : (_, .str result.status.text) ∈ result.members),
      result.readField_eq Json.intoText "" (by simp [members] : (_, .str result.summary) ∈ result.members),
      result.readField_eq Json.intoText "" (by simp [members] : (_, result.errorClass.elim .null .str) ∈ result.members),
      result.readField_eq Json.intoText "" (by simp [members] : (_, .str result.errorMessage) ∈ result.members),
      result.readField_eq Json.intoPointer none (by simp [members] : ("ended_at", timeJson result.endedAt) ∈ result.members),
      result.readField_artifacts, readClass, intoPointer_timeJson fits]
    exact ⟨_, rfl⟩
  obtain ⟨payload, read⟩ := read
  exact ⟨payload, by simp only [decodeJSONValue, dump, read]⟩

theorem decode_dump_unfit (unfit : ¬ TimeFits result.endedAt) :
    decodeJSONValue {} ResultPayload.ofMembers (.doc result.dump false) "result_json" =
      .error (.decode "result_json") := by
  have read : ResultPayload.ofMembers result.members = none := by
    unfold ResultPayload.ofMembers
    rw [result.readField_eq Json.intoPointer none (by simp [members] : ("ended_at", timeJson result.endedAt) ∈ result.members),
      intoPointer_unfit unfit]
    simp
  simp only [decodeJSONValue, dump, read]

end TaskResult

/-- A run whose numbers the store can hold, with the texts that it demands. -/
structure TaskRun.Storable (run : TaskRun) : Prop where
  runID : run.runID ≠ ""
  batchID : run.batchID ≠ ""
  parentConversationID : fitsSigned 63 run.parentConversationID
  parentTurnID : fitsSigned 63 run.parentTurnID
  queuedAt : fitsSigned 63 run.queuedAt
  startedAt : TimeFits run.startedAt

namespace TaskRun

variable (run : TaskRun)

theorem ofMembers_of_fits (storable : run.Storable) (fits : TimeFits run.endedAt) :
    ∃ payload, RunPayload.ofMembers run.members = some payload := by
  obtain ⟨text, readClass⟩ : ∃ text,
      Json.intoText "" (if run.lastErrorClass = "" then .null else .str run.lastErrorClass) = some text := by
    split
    · exact ⟨_, rfl⟩
    · exact ⟨_, rfl⟩
  unfold RunPayload.ofMembers
  rw [run.readField_eq Json.intoText "" (.str run.runID) (by simp [members]),
    run.readField_eq Json.intoText "" (.str run.batchID) (by simp [members]),
    run.readField_eq (Json.intoSigned 63) 0 (.int run.parentConversationID) (by simp [members]),
    run.readField_eq (Json.intoSigned 63) 0 (.int run.parentTurnID) (by simp [members]),
    run.readField_eq intoInt32 0 (.int run.batchItemIndex.toInt) (by simp [members]),
    run.readField_eq intoTaskID "" (.obj [("task_id", .str run.taskID)]) (by simp [members]),
    run.readField_eq Json.intoText "" (.str run.idempotencyKey) (by simp [members]),
    run.readField_eq Json.intoText "" (.str run.status.text) (by simp [members]),
    run.readField_eq intoInt32 0 (.int run.attempt.toInt) (by simp [members]),
    run.readField_eq Json.intoText "" (.str run.executor) (by simp [members]),
    run.readField_eq Json.intoText "" (.str run.workerID) (by simp [members]),
    run.readField_eq Json.intoText "" (.str run.fencingToken) (by simp [members]),
    run.readField_eq (Json.intoSigned 63) 0 (.int run.queuedAt) (by simp [members]),
    run.readField_eq Json.intoPointer none (timeJson run.startedAt) (by simp [members]),
    run.readField_eq Json.intoPointer none (timeJson run.endedAt) (by simp [members]),
    run.readField_eq Json.intoText "" (if run.lastErrorClass = "" then .null else .str run.lastErrorClass)
      (by simp only [members, List.mem_cons, true_or, or_true]),
    run.readField_eq Json.intoText "" (.str run.lastError) (by simp [members]),
    intoInt32_toInt, intoTaskID_spec, intoInt32_toInt, intoSigned_fits storable.parentConversationID,
    intoSigned_fits storable.parentTurnID, intoSigned_fits storable.queuedAt, intoPointer_timeJson storable.startedAt,
    intoPointer_timeJson fits, readClass]
  exact ⟨_, rfl⟩

theorem row_of_storable (storable : run.Storable) (fits : TimeFits run.endedAt) (now : ℤ) :
    ∃ row, runRowFromJSON now (.doc run.dump false) = .ok row := by
  obtain ⟨payload, read⟩ := run.ofMembers_of_fits storable fits
  have same : payload = run.payload := ofMembers_members read
  have named : ¬ (run.payload.runID = "" ∨ run.payload.batchID = "") :=
    not_or.mpr ⟨storable.runID, storable.batchID⟩
  have decoded : decodeJSONValue {} RunPayload.ofMembers (.doc run.dump false) "run_json" = .ok run.payload := by
    simp only [decodeJSONValue, dump, read, same]
  have mapped : ∃ map, decodeJSONMap (.doc run.dump false) "run_json" = .ok map := ⟨_, rfl⟩
  obtain ⟨map, mapped⟩ := mapped
  unfold runRowFromJSON
  rw [decoded, mapped]
  simp only [refuseIf, if_neg named, bind, Except.bind, pure, Except.pure]
  exact ⟨_, rfl⟩

theorem row_of_unfit (unfit : ¬ TimeFits run.endedAt) (now : ℤ) :
    runRowFromJSON now (.doc run.dump false) = .error (.decode "run_json") := by
  have read : RunPayload.ofMembers run.members = none := by
    unfold RunPayload.ofMembers
    rw [run.readField_eq Json.intoPointer none (timeJson run.endedAt)
      (by simp [members] : ("ended_at", timeJson run.endedAt) ∈ run.members), intoPointer_unfit unfit]
    simp
  have decoded : decodeJSONValue {} RunPayload.ofMembers (.doc run.dump false) "run_json" = .error (.decode "run_json") := by
    simp only [decodeJSONValue, dump, read]
  unfold runRowFromJSON
  rw [decoded]
  rfl

end TaskRun

end Documents

section Calls

variable {row : RunRow}

/-- What is left of a run by a routine that nobody disturbs. -/
def Leaves {Value : Type} (post : Except RunError Value → RunRow → Prop) (routine : Routine Value) (row : RunRow) :
    Prop :=
  storedRun.Alone post routine.run row

theorem Leaves.mono {Value : Type} {mid post : Except RunError Value → RunRow → Prop} {routine : Routine Value}
    (leaves : Leaves mid routine row) (implies : ∀ outcome row', mid outcome row' → post outcome row') :
    Leaves post routine row :=
  Surroundings.Alone.mono leaves implies

theorem Leaves.handle {Value Next : Type} {mid : Except RunError Value → RunRow → Prop}
    {post : Except RunError Next → RunRow → Prop} {routine : Routine Value}
    {handler : Except RunError Value → Routine Next} (first : Leaves mid routine row)
    (later : ∀ outcome row', mid outcome row' → Leaves post (handler outcome) row') :
    Leaves post (routine.handle handler) row :=
  Surroundings.alone_bind.mpr (first.mono later)

theorem Leaves.bind {Value Next : Type} {mid : Except RunError Value → RunRow → Prop}
    {post : Except RunError Next → RunRow → Prop} {routine : Routine Value} {next : Value → Routine Next}
    (first : Leaves mid routine row) (onOk : ∀ value row', mid (.ok value) row' → Leaves post (next value) row')
    (onError : ∀ error row', mid (.error error) row' → post (.error error) row') :
    Leaves post (routine >>= next) row := by
  refine Surroundings.alone_bind.mpr (first.mono fun outcome row' reached => ?_)
  cases outcome with
  | ok value => exact onOk value row' reached
  | error error => exact onError error row' reached

theorem leaves_now : Leaves (fun outcome row' => ∃ now, outcome = .ok now ∧ fitsSigned 63 now ∧ row' = row) now row := by
  refine ⟨⟨.clock 0, rfl⟩, fun choice reply row' served => ?_⟩
  obtain ⟨sound, served⟩ := Option.ite_none_right_eq_some.mp served
  cases choice with
  | clock time =>
      cases served
      exact ⟨_, rfl, sound, rfl⟩
  | _ => cases served

theorem leaves_lookAgain (settled : TaskRun) :
    Leaves (fun outcome row' => (∃ run, outcome = .ok run) ∧ row' = row) (onException getRun (pure settled)) row := by
  have read : Leaves (fun outcome row' => outcome = readRun row ∧ row' = row) getRun row := by
    refine ⟨⟨.only, rfl⟩, fun choice reply row' served => ?_⟩
    obtain ⟨_, served⟩ := Option.ite_none_right_eq_some.mp served
    cases choice with
    | only =>
        cases served
        exact ⟨rfl, rfl⟩
    | _ => cases served
  refine read.handle fun outcome row' reached => ?_
  obtain ⟨rfl, rfl⟩ := reached
  cases known : TaskRun.ofRow row' with
  | some run =>
      rw [readRun, known]
      exact ⟨⟨run, rfl⟩, rfl⟩
  | none =>
      rw [readRun, known]
      exact ⟨⟨settled, rfl⟩, rfl⟩

theorem leaves_markRunTerminal (result : TaskResult) (released : Bool) (leaseOutcome : String) :
    Leaves (fun outcome row' => outcome = .ok () ∧ row' = row) (ask (.markRunTerminal result released leaseOutcome))
      row := by
  refine ⟨⟨.only, rfl⟩, fun choice reply row' served => ?_⟩
  obtain ⟨_, served⟩ := Option.ite_none_right_eq_some.mp served
  cases choice with
  | only =>
      cases served
      exact ⟨rfl, rfl⟩
  | _ => cases served

def storedResult (row : RunRow) : Option TaskResult := row.resultJSON.bind TaskResult.ofJson

theorem readTaskDetail_storedResult (readable : Readable row) :
    ∃ run, readTaskDetail row = .ok ⟨run, storedResult row⟩ := by
  obtain ⟨run, read, status, _⟩ := readRun_ok readable
  refine ⟨run, ?_⟩
  cases stored : row.resultJSON with
  | none => simp [readTaskDetail, read, stored, storedResult, bind, Except.bind, pure, Except.pure]
  | some document =>
      obtain ⟨terminal, result, decoded, _⟩ := readable.result document stored
      simp [readTaskDetail, read, stored, decoded, status, terminal, storedResult, bind, Except.bind, pure, Except.pure]

theorem leaves_knownResult (readable : Readable row) (known : Option TaskResult) :
    Leaves (fun outcome row' => outcome = .ok (known.or (storedResult row)) ∧ row' = row) (knownResult known) row := by
  cases known with
  | some result => exact ⟨rfl, rfl⟩
  | none =>
      obtain ⟨run, read⟩ := readTaskDetail_storedResult readable
      refine ⟨⟨.only, rfl⟩, fun choice reply row' served => ?_⟩
      obtain ⟨_, served⟩ := Option.ite_none_right_eq_some.mp served
      cases choice with
      | only =>
          cases served
          rw [read]
          exact ⟨rfl, rfl⟩
      | _ => cases served

theorem claimRow_total (readable : Readable row) (queued : row.status = .queued) (now : ℤ) (token workerID : String) :
    ∃ row', claimRow now token workerID row = .ok row' := by
  obtain ⟨payload, read⟩ := canonicalPayload_of_readable readable
  have claimable : ensureClaimable row = .ok () := refuseIf_eq_ok.mpr (not_not.mpr queued)
  simp [claimRow, read, claimable, bind, Except.bind, pure, Except.pure]

/-- A run under a token that is presented. -/
structure Claimed (token : FencingToken) (row : RunRow) : Prop where
  readable : Readable row
  running : row.status = .running
  held : row.fencingToken = token.token
  drawn : token.token ≠ ""

theorem leaves_claimRun (readable : Readable row) (queued : row.status = .queued) (workerID : String) :
    Leaves (fun outcome row' => ∃ token, outcome = .ok token ∧ Claimed token row') (claimRun workerID) row := by
  refine ⟨⟨.token 0 "token", rfl⟩, fun choice reply row' served => ?_⟩
  obtain ⟨sound, served⟩ := Option.ite_none_right_eq_some.mp served
  cases choice with
  | token time drawn =>
      obtain ⟨claimed, done⟩ := claimRow_total readable queued time drawn workerID
      have performed : (StoreMove.claim time drawn workerID).exec row = .ok claimed := done
      have called := Option.some.inj served
      rw [storeCall, performed] at called
      cases called
      obtain ⟨_, payload, columns⟩ := claimRow_ok done
      refine ⟨_, rfl, readable.claim done, ?_, ?_, sound.2⟩
      · rw [columns]
      · rw [columns]
  | _ => cases served

theorem writeResultRow_eq {token : FencingToken} (claimed : Claimed token row) (result : TaskResult) (now : ℤ) :
    ∃ map, writeResultRow now (.doc token.dump false) (.doc result.dump false) row = do
      let payload ← decodeJSONValue {} ResultPayload.ofMembers (.doc result.dump false) "result_json"
      ensureTerminalResultStatus payload.status
      let row' := updateRunPayload row (putResult now payload map) now
      let endedAt := getInt64 (putResult now payload map) "ended_at"
      return (if endedAt > 0 ∧ row'.queuedAt > 0 then endedAt - row'.queuedAt else 0,
        { row' with resultJSON := some result.dump }) := by
  obtain ⟨map, read⟩ := canonicalPayload_of_readable claimed.readable
  have present : row.fencingToken ≠ "" := claimed.held ▸ claimed.drawn
  have authorized : ensureToken row (.doc token.dump false) = .ok () := by
    rw [ensureToken, decode_token]
    exact refuseIf_eq_ok.mpr (by simp [claimed.running, claimed.held, claimed.drawn])
  exact ⟨map, by simp only [writeResultRow, read, authorized, jsonColumn, bind, Except.bind]⟩

theorem leaves_writeResult {token : FencingToken} (claimed : Claimed token row) {result : TaskResult}
    (terminal : result.status ∈ terminalRunStatuses) :
    Leaves (fun outcome row' => if TimeFits result.endedAt then outcome = .ok () ∧ row'.status = result.status
        else (∃ raised, outcome = .error (.other raised)) ∧ row' = row)
      (writeResult result token) row := by
  refine ⟨⟨.clock 0, rfl⟩, fun choice reply row' served => ?_⟩
  obtain ⟨_, served⟩ := Option.ite_none_right_eq_some.mp served
  cases choice with
  | clock time =>
      obtain ⟨map, written⟩ := writeResultRow_eq claimed result time
      have performed : (StoreMove.write time token result).exec row =
          (writeResultRow time (.doc token.dump false) (.doc result.dump false) row).map Prod.snd := rfl
      have called := Option.some.inj served
      rw [storeCall, performed] at called
      show if TimeFits result.endedAt then _ else _
      split
      · rename_i fits
        obtain ⟨payload, decoded⟩ := result.decode_dump fits
        have status := (TaskResult.status_of_dump decoded).1
        have settled : ensureTerminalResultStatus payload.status = .ok () :=
          refuseIf_eq_ok.mpr (by rw [status, Status.ofText_text]; exact not_not.mpr terminal)
        rw [decoded] at written
        simp only [bind, Except.bind, settled, pure, Except.pure] at written
        have kept := (writeResultRow_status written).1
        rw [written] at called
        cases called
        exact ⟨rfl, kept⟩
      · rename_i unfit
        rw [result.decode_dump_unfit unfit] at written
        rw [written] at called
        cases called
        exact ⟨⟨_, rfl⟩, rfl⟩
  | _ => cases served

theorem leaves_updateRun (active : row.status ∉ terminalRunStatuses) {run : TaskRun} (storable : run.Storable)
    (known : run.Known) (terminal : run.status ∈ terminalRunStatuses) :
    Leaves (fun outcome row' => if TimeFits run.endedAt then outcome = .ok () ∧ row'.status = run.status
        else (∃ raised, outcome = .error (.other raised)) ∧ row' = row)
      (updateRun run) row := by
  refine ⟨⟨.clock 0, rfl⟩, fun choice reply row' served => ?_⟩
  obtain ⟨_, served⟩ := Option.ite_none_right_eq_some.mp served
  cases choice with
  | clock time =>
      have called := Option.some.inj served
      show if TimeFits run.endedAt then _ else _
      split
      · rename_i fits
        obtain ⟨incoming, accepted⟩ := run.row_of_storable storable fits time
        have performed : (StoreMove.save time run).exec row = .ok (updateRow time incoming row) := by
          simp only [StoreMove.exec, StoreMove.rowOp, accepted, RowOp.exec, Except.map, bind, Except.bind]
        have status : incoming.status = run.status := by
          rw [(TaskRun.row_of_dump accepted).1, if_neg (text_ne_empty known.1)]
        have admitted : protectTerminalStatus row.status incoming.status = true := by
          simp [protectTerminalStatus, status, terminal, active]
        rw [storeCall, performed] at called
        cases called
        refine ⟨rfl, ?_⟩
        rw [updateRow, if_pos admitted]
        exact status
      · rename_i unfit
        have performed : (StoreMove.save time run).exec row = .error (.decode "run_json") := by
          simp only [StoreMove.exec, StoreMove.rowOp, run.row_of_unfit unfit, Except.map, bind, Except.bind]
        rw [storeCall, performed] at called
        cases called
        exact ⟨⟨_, rfl⟩, rfl⟩
  | _ => cases served

structure SnapshotOf (row : RunRow) (run : TaskRun) : Prop where
  runID : run.runID = row.runID
  batchID : run.batchID = row.batchID
  parentConversationID : run.parentConversationID = row.parentConversationID
  parentTurnID : run.parentTurnID = row.parentTurnID
  batchItemIndex : run.batchItemIndex = row.batchItemIndex
  status : run.status = row.status
  fencingToken : run.fencingToken = row.fencingToken
  queuedAt : run.queuedAt = row.queuedAt
  startedAt : run.startedAt = row.startedAt

theorem snapshotOf_readRun {run : TaskRun} (read : readRun row = .ok run) : SnapshotOf row run := by
  unfold readRun TaskRun.ofRow at read
  cases canonical : canonicalPayload row with
  | error error => simp [canonical] at read
  | ok payload =>
      simp only [canonical] at read
      split at read
      · rename_i run' known
        obtain ⟨_, same⟩ := Option.ite_none_right_eq_some.mp known
        cases read
        cases same
        exact ⟨rfl, rfl, rfl, rfl, rfl, rfl, rfl, rfl, rfl⟩
      · cases read

/-- A row as the store holds it: the texts that it demands, and columns of 64 bits. -/
structure RunRow.Stored (row : RunRow) : Prop where
  readable : TaskRuntime.Readable row
  runID : row.runID ≠ ""
  batchID : row.batchID ≠ ""
  parentConversationID : fitsSigned 63 row.parentConversationID
  parentTurnID : fitsSigned 63 row.parentTurnID
  queuedAt : fitsSigned 63 row.queuedAt
  startedAt : TimeFits row.startedAt

theorem SnapshotOf.storable {run : TaskRun} (snapshot : SnapshotOf row run) (stored : row.Stored) : run.Storable where
  runID := snapshot.runID ▸ stored.runID
  batchID := snapshot.batchID ▸ stored.batchID
  parentConversationID := snapshot.parentConversationID ▸ stored.parentConversationID
  parentTurnID := snapshot.parentTurnID ▸ stored.parentTurnID
  queuedAt := snapshot.queuedAt ▸ stored.queuedAt
  startedAt := snapshot.startedAt ▸ stored.startedAt

/-- What a routine makes of a run that it settles, where the store can hold the end of its result: it raises where the
store cannot, and leaves the run. -/
def SettledAs (fits : Prop) [Decidable fits] (status : Status) (row : RunRow) (outcome : Except RunError Unit)
    (row' : RunRow) : Prop :=
  if fits then outcome = .ok () ∧ row'.status = status else (∃ raised, outcome = .error (.other raised)) ∧ row' = row

/-- What becomes of an active run that the finalizer settles. -/
def SettledIf {Value : Type} (fits : Prop) [Decidable fits] (outcome : Except RunError Value) (row' : RunRow) : Prop :=
  if fits then (∃ value, outcome = .ok value) ∧ row'.status ∈ terminalRunStatuses
  else (∃ error, outcome = .error error) ∨ row'.status.isActive

variable {fits : Prop} [Decidable fits] {status : Status}

theorem Leaves.onStale {routine : Routine Unit} (settles : Leaves (SettledAs fits status row) routine row)
    (handler : Routine Unit) : Leaves (SettledAs fits status row) (Routine.onStale routine handler) row := by
  refine settles.handle fun outcome row' reached => ?_
  unfold SettledAs at reached
  split at reached
  · rename_i holds
    obtain ⟨rfl, kept⟩ := reached
    exact (if_pos holds).mpr ⟨rfl, kept⟩
  · rename_i fails
    obtain ⟨⟨raised, rfl⟩, kept⟩ := reached
    exact (if_neg fails).mpr ⟨⟨raised, rfl⟩, kept⟩

theorem Leaves.lookAgain {routine : Routine Unit} (settles : Leaves (SettledAs fits status row) routine row)
    (terminal : status ∈ terminalRunStatuses) (settled : TaskRun) :
    Leaves (SettledIf fits) (do routine; onException getRun (pure settled)) row := by
  refine settles.bind (fun _ row' reached => ?_) fun error row' reached => ?_
  · unfold SettledAs at reached
    split at reached
    · rename_i holds
      refine (leaves_lookAgain settled).mono fun outcome row'' looked => (if_pos holds).mpr ⟨looked.1, ?_⟩
      rw [looked.2, reached.2]
      exact terminal
    · cases reached.1.choose_spec
  · unfold SettledAs at reached
    split at reached
    · cases reached.1
    · rename_i fails
      exact (if_neg fails).mpr (.inl ⟨error, rfl⟩)

/-- **Settling an active run.** The finalizer settles it with a result whose end the store can hold, and with no
other. -/
theorem leaves_persistStrandedResult (readable : Readable row) {run : TaskRun} (snapshot : SnapshotOf row run)
    (storable : run.Storable) (active : row.status.isActive) {result : TaskResult} (known : result.Known)
    (terminal : result.status ∈ terminalRunStatuses) :
    Leaves (SettledIf (TimeFits result.endedAt)) (persistStrandedResult run result) row := by
  have kept : (strandedRun run result).Storable :=
    ⟨storable.runID, storable.batchID, storable.parentConversationID, storable.parentTurnID, storable.queuedAt,
      storable.startedAt⟩
  have stranded : Leaves (SettledAs (TimeFits result.endedAt) result.status row) (forceUpdateStrandedRun run result) row :=
    leaves_updateRun (unsettled_of_active active) kept (strandedRun_known known) terminal
  unfold persistStrandedResult
  dsimp only
  rw [snapshot.status]
  by_cases queued : row.status = .queued
  · rw [if_pos queued]
    -- a queued run is claimed, and stays claimed where its result is refused
    have written : Leaves (fun outcome row' => if TimeFits result.endedAt then outcome = .ok () ∧ row'.status = result.status
        else (∃ raised, outcome = .error (.other raised)) ∧ row'.status = .running)
        (claimAndWrite "task-manager-finalizer" result) row := by
      refine (leaves_claimRun readable queued _).bind (fun token row' reached => ?_) fun error row' reached => ?_
      · obtain ⟨_, same, claimed⟩ := reached
        cases same
        refine (leaves_writeResult claimed terminal).mono fun outcome row'' done => ?_
        split at done
        · rename_i holds
          exact (if_pos holds).mpr done
        · rename_i fails
          exact (if_neg fails).mpr ⟨done.1, done.2 ▸ claimed.running⟩
      · obtain ⟨_, impossible, _⟩ := reached
        cases impossible
    refine written.handle fun outcome row' reached => ?_
    split at reached
    · rename_i holds
      obtain ⟨rfl, kept⟩ := reached
      refine (leaves_lookAgain _).mono fun outcome row'' looked => (if_pos holds).mpr ⟨looked.1, ?_⟩
      rw [looked.2, kept]
      exact terminal
    · rename_i fails
      obtain ⟨⟨raised, rfl⟩, kept⟩ := reached
      exact (if_neg fails).mpr (.inr (by simp [kept, Status.isActive]))
  · have running : row.status = .running := by simpa [Status.isActive, queued] using active
    rw [if_neg queued, if_pos running]
    split
    · rename_i held
      have claimed : Claimed ⟨run.runID, run.fencingToken, (timeOr run.startedAt (some run.queuedAt)).getD 0⟩ row :=
        ⟨readable, running, snapshot.fencingToken.symm, held.2⟩
      exact (Leaves.onStale (leaves_writeResult claimed terminal) _).lookAgain terminal _
    · exact stranded.lookAgain terminal _

end Calls

section Runs

variable {title : TaskRun → String} {row : RunRow} {run : TaskRun}

theorem ensureTerminalResult_of_terminal {result : TaskResult} (terminal : result.status ∈ terminalRunStatuses)
    (now : ℤ) (run : TaskRun) : ensureTerminalResult now run result = result := if_pos terminal

theorem ensureTerminalResult_status (now : ℤ) (run : TaskRun) (result : TaskResult) :
    (ensureTerminalResult now run result).status ∈ terminalRunStatuses := by
  unfold ensureTerminalResult
  split
  · assumption
  · simp [terminalRunStatuses]

theorem ensureTerminalResult_runID (now : ℤ) (run : TaskRun) (result : TaskResult) :
    (ensureTerminalResult now run result).runID = result.runID := by
  unfold ensureTerminalResult
  split
  · rfl
  · rfl

theorem ensureTerminalResult_known {result : TaskResult} (known : result.Known) (now : ℤ) (run : TaskRun) :
    (ensureTerminalResult now run result).Known := by
  unfold ensureTerminalResult
  split
  · exact known
  · refine ⟨by simp [taskStatuses], fun text same => ?_⟩
    cases named : result.errorClass with
    | none =>
        simp only [named, Option.getD_none, Option.mem_some_iff] at same
        rw [← same]
        decide
    | some errorClass =>
        simp only [named, Option.getD_some, Option.mem_some_iff] at same
        exact same ▸ known.2 errorClass named

theorem timeFits_ensureTerminalResult {now : ℤ} (clock : fitsSigned 63 now) (run : TaskRun) (result : TaskResult) :
    TimeFits (ensureTerminalResult now run result).endedAt ↔ TimeFits result.endedAt := by
  unfold ensureTerminalResult
  split
  · exact Iff.rfl
  · dsimp only
    cases result.endedAt with
    | none => exact iff_of_true clock rfl
    | some value =>
        unfold timeOr
        dsimp only
        split
        · rename_i zero
          rw [zero]
          exact iff_of_true clock (by decide)
        · exact Iff.rfl

theorem strandedResult_known (now : ℤ) (run : TaskRun) : (strandedResult title now run).Known :=
  ⟨by simp [strandedResult, taskStatuses], by rintro _ ⟨⟩; decide⟩

/-- What the finalizer has to return for a stored run, of which the scheduler has said what is known: the run's own
terminal result, and the scheduler's where the store has none. -/
structure Finalized (row : RunRow) (known : Option TaskResult) (result : TaskResult) : Prop where
  terminal : result.status ∈ terminalRunStatuses
  own : result.runID = row.runID ∨ storedResult row = some result
  kept : ∀ given ∈ known, storedResult row = none →
    ∃ now run, SnapshotOf row run ∧ result = ensureTerminalResult now run given

/-- **When a run is not lost.** A settled run needs a terminal result of the scheduler, or a stored one where there is
none of the scheduler; an active run needs the end of its result to be one that the store can hold. -/
def Finalizable (row : RunRow) (known : Option TaskResult) : Prop :=
  if row.status ∈ terminalRunStatuses then
    match known with
    | some result => result.status ∈ terminalRunStatuses
    | none => row.resultJSON.isSome
  else
    ∀ result ∈ known, TimeFits result.endedAt

/-- A turn of the loop that loses nothing. -/
def Kept (row : RunRow) (known : Option TaskResult) (outcome : Except RunError (Option TaskResult)) (row' : RunRow) :
    Prop :=
  ∃ result, outcome = .ok (some result) ∧ Finalized row known result ∧ ¬ row'.status.isActive

theorem kept_settled (readable : Readable row) (snapshot : SnapshotOf row run) (terminal : row.status ∈ terminalRunStatuses)
    {known : Option TaskResult} (keyed : ∀ given ∈ known, given.runID = row.runID) :
    Finalizable row known ↔ Kept row known (.ok (known.or (storedResult row))) row := by
  have idle : ¬ row.status.isActive := fun active => unsettled_of_active active terminal
  unfold Finalizable
  rw [if_pos terminal]
  cases known with
  | some given =>
      constructor
      · intro ended
        exact ⟨given, rfl, ⟨ended, .inl (keyed given rfl), fun other same _ =>
          ⟨0, run, snapshot, by cases same; exact (ensureTerminalResult_of_terminal ended _ _).symm⟩⟩, idle⟩
      · rintro ⟨_, same, finalized, _⟩
        cases same
        exact finalized.terminal
  | none =>
      constructor
      · intro present
        obtain ⟨document, stored⟩ := Option.isSome_iff_exists.mp present
        obtain ⟨_, result, decoded, status⟩ := readable.result document stored
        have held : storedResult row = some result := by rw [storedResult, stored, Option.bind_some, decoded]
        exact ⟨result, by rw [held]; rfl, ⟨status ▸ terminal, .inr held, fun _ none_ => by cases none_⟩, idle⟩
      · rintro ⟨result, same, _⟩
        have held : storedResult row = some result := Except.ok.inj same
        obtain ⟨document, stored, _⟩ := Option.bind_eq_some_iff.mp held
        exact Option.isSome_iff_exists.mpr ⟨document, stored⟩

theorem leaves_settlingResult {known : Option TaskResult} (named : ∀ given ∈ known, given.Known) :
    Leaves (fun outcome row' => row' = row ∧ ∃ result, outcome = .ok result ∧ result.Known ∧
        result.status ∈ terminalRunStatuses ∧ (TimeFits result.endedAt ↔ ∀ given ∈ known, TimeFits given.endedAt) ∧
        (known = none → result.runID = run.runID) ∧
        ∀ given ∈ known, ∃ now, result = ensureTerminalResult now run given)
      (settlingResult title run known) row := by
  cases known with
  | none =>
      have stranded : Leaves (fun outcome row' => row' = row ∧ ∃ now, fitsSigned 63 now ∧
          outcome = .ok (strandedResult title now run)) (do return strandedResult title (← now) run) row := by
        refine leaves_now.bind (fun value row' reached => ?_) fun error row' reached => ?_
        · obtain ⟨now, same, clock, rfl⟩ := reached
          cases same
          exact ⟨rfl, _, clock, rfl⟩
        · cases reached.choose_spec.1
      refine stranded.bind (fun value row' reached => ?_) fun error row' reached => ?_
      · obtain ⟨rfl, now, clock, same⟩ := reached
        cases same
        refine ⟨rfl, _, rfl, strandedResult_known now run, by simp [strandedResult, terminalRunStatuses], ?_, fun _ => rfl,
          fun _ none_ => by cases none_⟩
        exact iff_of_true clock fun _ none_ => by cases none_
      · cases reached.2.choose_spec.2
  | some given =>
      show Leaves _ (if given.status ∈ terminalRunStatuses then pure given
        else do return ensureTerminalResult (← now) run given) row
      split
      · rename_i terminal
        refine ⟨rfl, given, rfl, named given rfl, terminal, ?_, fun none_ => (by cases none_), fun other same => ?_⟩
        · simp
        · cases same
          exact ⟨0, (ensureTerminalResult_of_terminal terminal _ _).symm⟩
      · refine leaves_now.bind (fun value row' reached => ?_) fun error row' reached => ?_
        · obtain ⟨now, same, clock, rfl⟩ := reached
          cases same
          refine ⟨rfl, _, rfl, ensureTerminalResult_known (named given rfl) _ _, ensureTerminalResult_status _ _ _, ?_,
            fun none_ => (by cases none_), fun other same => ?_⟩
          · rw [timeFits_ensureTerminalResult clock]
            simp
          · cases same
            exact ⟨_, rfl⟩
        · cases reached.choose_spec.1

theorem leaves_finalizeRun (readable : Readable row) (snapshot : SnapshotOf row run) (storable : run.Storable)
    {known : Option TaskResult} (named : ∀ given ∈ known, given.Known)
    (keyed : ∀ given ∈ known, given.runID = row.runID) :
    Leaves (fun outcome row' => (Finalizable row known ↔ Kept row known outcome row') ∧ (outcome = .ok none → known = none))
      (finalizeRun title run known) row := by
  refine (leaves_knownResult readable known).bind (fun known' row' reached => ?_) fun error row' reached => ?_
  · obtain ⟨same, rfl⟩ := reached
    cases same
    rw [snapshot.status]
    by_cases terminal : row'.status ∈ terminalRunStatuses
    · rw [if_pos terminal]
      refine ⟨kept_settled readable snapshot terminal keyed, fun none_ => ?_⟩
      exact (Option.or_eq_none_iff.mp (Except.ok.inj none_)).1
    · have active : row'.status.isActive := by
        by_contra idle
        exact terminal (terminal_of_idle readable.status idle)
      have stored : storedResult row' = none := by rw [storedResult, readable.no_result terminal]; rfl
      rw [if_neg terminal, stored, Option.or_none]
      refine (leaves_settlingResult named).bind (fun result row'' reached => ?_) fun error row'' reached => ?_
      · obtain ⟨rfl, _, same, recognised, ended, fits, own, kept⟩ := reached
        cases same
        have finalizable : Finalizable row'' known ↔ TimeFits result.endedAt := by
          unfold Finalizable
          rw [if_neg terminal, fits]
        have finalized : Finalized row'' known result := by
          refine ⟨ended, .inl ?_, fun given same _ => ?_⟩
          · cases known with
            | none => exact (own rfl).trans snapshot.runID
            | some given =>
                obtain ⟨now, rfl⟩ := kept given rfl
                exact (ensureTerminalResult_runID now run given).trans (keyed given rfl)
          · obtain ⟨now, rfl⟩ := kept given same
            exact ⟨now, run, snapshot, rfl⟩
        refine (leaves_persistStrandedResult readable snapshot storable active recognised ended).bind
          (fun persisted last settled => ?_) fun error last settled => ?_
        · refine (leaves_markRunTerminal result _ _).bind (fun _ last' marked => ?_) fun error last' marked => ?_
          · obtain ⟨_, rfl⟩ := marked
            refine ⟨?_, fun none_ => by cases none_⟩
            rw [finalizable]
            unfold SettledIf at settled
            split at settled
            · rename_i holds
              exact iff_of_true holds ⟨result, rfl, finalized, fun active => unsettled_of_active active settled.2⟩
            · rename_i fails
              refine iff_of_false fails fun ⟨_, _, _, idle⟩ => ?_
              rcases settled with ⟨_, impossible⟩ | still
              · cases impossible
              · exact idle still
          · cases marked.1
        · refine ⟨?_, fun none_ => by cases none_⟩
          rw [finalizable]
          unfold SettledIf at settled
          split at settled
          · cases settled.1.choose_spec
          · rename_i fails
            exact iff_of_false fails fun ⟨_, impossible, _⟩ => by cases impossible
      · cases reached.2.choose_spec.1
  · cases reached.1

end Runs

section Batches

/-- The rows with one of them rewritten in place. -/
structure Rewrites (runID : String) (row' : RunRow) (rows rows' : List RunRow) : Prop where
  ids : rows'.map RunRow.runID = rows.map RunRow.runID
  here : Table.select RunRow.runID runID rows' = some row'
  others : ∀ other, other ≠ runID → Table.select RunRow.runID other rows' = Table.select RunRow.runID other rows

variable {runID : String} {row row' : RunRow} {rows rows' : List RunRow}

theorem Rewrites.refl (found : Table.select RunRow.runID runID rows = some row) : Rewrites runID row rows rows :=
  ⟨rfl, found, fun _ _ => rfl⟩

theorem Rewrites.putRow (found : Table.select RunRow.runID runID rows = some row) (same : row'.runID = runID) :
    Rewrites runID row' rows (putRow runID row' rows) := by
  have keeps (stored : RunRow) : (if stored.runID = runID then row' else stored).runID = stored.runID := by
    split
    · rename_i here
      exact same.trans here.symm
    · rfl
  refine ⟨?_, ?_, fun other apart => ?_⟩
  · rw [TaskRuntime.putRow, List.map_map]
    exact List.map_congr_left fun stored _ => keeps stored
  · rw [TaskRuntime.putRow, Table.select_map keeps, found, Option.map_some, if_pos (Table.key_of_select found)]
  · rw [TaskRuntime.putRow, Table.select_map keeps]
    cases there : Table.select RunRow.runID other rows with
    | none => rfl
    | some stored =>
        have key := Table.key_of_select there
        rw [Option.map_some, if_neg fun equal => apart (key.symm.trans equal)]

theorem Rewrites.trans {row'' : RunRow} {rows'' : List RunRow} (first : Rewrites runID row' rows rows')
    (second : Rewrites runID row'' rows' rows'') : Rewrites runID row'' rows rows'' :=
  ⟨second.ids.trans first.ids, second.here, fun other apart => (second.others other apart).trans (first.others other apart)⟩

theorem storeCall_runID {Value : Type} {value : Value} {move : StoreMove} {outcome : Except RunError Value}
    (called : storeCall value move row = (outcome, row')) : row'.runID = row.runID := by
  unfold storeCall at called
  split at called
  · rename_i done
    cases called
    obtain ⟨op, _, performed⟩ := bind_eq_ok.mp done
    exact RowOp.exec_runID performed
  · cases called
    rfl

theorem serve_runID {request : Request} {choice : Choice} {reply : request.Reply}
    (served : serve request choice row = some (reply, row')) : row'.runID = row.runID := by
  by_cases still : request.Still
  · exact congrArg RunRow.runID (serve_still request still served)
  cases request with
  | claimRun workerID =>
      cases choice with
      | token time drawn => exact storeCall_runID (Option.some.inj served)
      | _ => cases served
  | writeResult result token =>
      cases choice with
      | clock time => exact storeCall_runID (Option.some.inj served)
      | _ => cases served
  | cancelRun reason =>
      cases choice with
      | clock time => exact storeCall_runID (Option.some.inj served)
      | _ => cases served
  | updateRun run =>
      cases choice with
      | clock time => exact storeCall_runID (Option.some.inj served)
      | _ => cases served
  | _ => exact absurd trivial still

theorem alone_about {Value : Type} {program : Interaction Request Request.Reply Value} {post : Value → RunRow → Prop}
    (found : Table.select RunRow.runID runID rows = some row) (alone : storedRun.Alone post program row) :
    storedBatch.Alone (fun value rows' => ∃ row', post value row' ∧ Rewrites runID row' rows rows') (about runID program)
      rows := by
  induction program generalizing rows row with
  | done value => exact ⟨row, alone, .refl found⟩
  | ask request rest ih =>
      obtain ⟨⟨choice, answered⟩, follows⟩ := alone
      refine ⟨⟨choice, ?_⟩, fun choice reply rows' served => ?_⟩
      · obtain ⟨answer, served⟩ := Option.isSome_iff_exists.mp answered
        simp [storedBatch, found, served]
      · obtain ⟨stored, same, answering⟩ := Option.bind_eq_some_iff.mp served
        obtain ⟨⟨answer, row'⟩, answers, put⟩ := Option.bind_eq_some_iff.mp answering
        cases found.symm.trans same
        cases put
        have kept : row'.runID = runID :=
          (serve_runID (Option.ite_none_right_eq_some.mp answers).2).trans (Table.key_of_select found)
        have rewritten := Rewrites.putRow found kept
        refine (ih _ rewritten.here (follows choice _ _ answers)).mono fun value last reached => ?_
        obtain ⟨row'', holds, later⟩ := reached
        exact ⟨row'', holds, rewritten.trans later⟩

variable {title : TaskRun → String}

/-- What the loop makes of the runs that it goes over, and of what is known of them. -/
structure Looped (runs : List TaskRun) (known : Dict String TaskResult) (rows : List RunRow)
    (outcome : Except RunError (Dict String TaskResult)) (rows' : List RunRow) : Prop where
  ids : rows'.map RunRow.runID = rows.map RunRow.runID
  others : ∀ other, other ∉ runs.map TaskRun.runID →
    Table.select RunRow.runID other rows' = Table.select RunRow.runID other rows
  raises : ∀ error, outcome = .error error → ∃ run ∈ runs, ∃ row,
    Table.select RunRow.runID run.runID rows = some row ∧ ¬ Finalizable row (known.get? run.runID)
  foreign : ∀ known', outcome = .ok known' → ∀ other, other ∉ runs.map TaskRun.runID → known'.get? other = known.get? other
  kept : ∀ known', outcome = .ok known' → ∀ run ∈ runs, ∀ row, Table.select RunRow.runID run.runID rows = some row →
    ∃ row', Table.select RunRow.runID run.runID rows' = some row' ∧
      (Finalizable row (known.get? run.runID) ↔ ∃ result, known'.get? run.runID = some result ∧
        Finalized row (known.get? run.runID) result ∧ ¬ row'.status.isActive)

structure Listed (rows : List RunRow) (known : Dict String TaskResult) (run : TaskRun) : Prop where
  stored : ∃ row, Table.select RunRow.runID run.runID rows = some row ∧ row.Stored ∧ SnapshotOf row run
  known : ∀ result ∈ known.get? run.runID, result.Known ∧ result.runID = run.runID

theorem Looped.cons {run : TaskRun} {rest : List TaskRun} (apart : run.runID ∉ rest.map TaskRun.runID)
    {known known' : Dict String TaskResult} {rows'' : List RunRow} {outcome : Except RunError (Dict String TaskResult)}
    (found : Table.select RunRow.runID run.runID rows = some row) (rewritten : Rewrites run.runID row' rows rows')
    (same : ∀ other, other ≠ run.runID → known'.get? other = known.get? other)
    (turn : Finalizable row (known.get? run.runID) ↔ ∃ result, known'.get? run.runID = some result ∧
      Finalized row (known.get? run.runID) result ∧ ¬ row'.status.isActive)
    (later : Looped rest known' rows' outcome rows'') : Looped (run :: rest) known rows outcome rows'' := by
  have different : ∀ other ∈ rest, other.runID ≠ run.runID := fun other inside equal =>
    apart (equal ▸ List.mem_map_of_mem inside)
  refine ⟨later.ids.trans rewritten.ids, fun other absent => ?_, fun error raised => ?_, fun known'' ended other absent => ?_,
    fun known'' ended => List.forall_mem_cons.mpr ⟨fun stored here => ?_, fun other inside stored there => ?_⟩⟩
  · rw [List.map_cons, List.mem_cons, not_or] at absent
    exact (later.others other absent.2).trans (rewritten.others other absent.1)
  · obtain ⟨other, inside, stored, there, lost⟩ := later.raises error raised
    rw [rewritten.others _ (different other inside)] at there
    rw [same _ (different other inside)] at lost
    exact ⟨other, List.mem_cons_of_mem _ inside, stored, there, lost⟩
  · rw [List.map_cons, List.mem_cons, not_or] at absent
    exact (later.foreign known'' ended other absent.2).trans (same other absent.1)
  · cases found.symm.trans here
    rw [later.foreign known'' ended run.runID apart]
    exact ⟨row', (later.others run.runID apart).trans rewritten.here, turn⟩
  · rw [← rewritten.others _ (different other inside)] at there
    rw [← same _ (different other inside)]
    exact later.kept known'' ended other inside stored there

theorem alone_finalizeRuns {runs : List TaskRun} (distinct : (runs.map TaskRun.runID).Nodup)
    {known : Dict String TaskResult} (listed : ∀ run ∈ runs, Listed rows known run) :
    storedBatch.Alone (Looped runs known rows) (finalizeRuns title runs known).run rows := by
  induction runs generalizing known rows with
  | nil =>
      exact {
        ids := rfl
        others := fun _ _ => rfl
        raises := fun _ impossible => by cases impossible
        foreign := fun _ same _ _ => by cases same; rfl
        kept := fun _ _ run none_ => by cases none_ }
  | cons run rest ih =>
      rw [List.map_cons, List.nodup_cons] at distinct
      obtain ⟨⟨row, found, stored, snapshot⟩, recognised⟩ := listed run List.mem_cons_self
      have turn : Leaves _ (finalizeRun title run (known.get? run.runID)) row :=
        leaves_finalizeRun stored.readable snapshot (snapshot.storable stored)
          (fun given here => (recognised given here).1) fun given here => (recognised given here).2.trans snapshot.runID
      refine Surroundings.alone_bind.mpr ((alone_about found turn).mono fun outcome rows' reached => ?_)
      obtain ⟨row', ⟨kept, unknown⟩, rewritten⟩ := reached
      have onward (known' : Dict String TaskResult)
          (same : ∀ other, other ≠ run.runID → known'.get? other = known.get? other) :
          ∀ other ∈ rest, Listed rows' known' other := by
        intro other inside
        obtain ⟨⟨stored, there, facts⟩, named⟩ := listed other (List.mem_cons_of_mem _ inside)
        have different : other.runID ≠ run.runID := fun equal => distinct.1 (equal ▸ List.mem_map_of_mem inside)
        exact ⟨⟨stored, (rewritten.others _ different).trans there, facts⟩, (same _ different).symm ▸ named⟩
      cases outcome with
      | error error =>
          have lost : ¬ Finalizable row (known.get? run.runID) := fun finalizable => by
            obtain ⟨_, impossible, _⟩ := kept.mp finalizable
            cases impossible
          refine ⟨rewritten.ids, fun other absent => ?_, fun _ _ => ⟨run, List.mem_cons_self, row, found, lost⟩, ?_, ?_⟩
          · rw [List.map_cons, List.mem_cons, not_or] at absent
            exact rewritten.others other absent.1
          · intro _ impossible
            cases impossible
          · intro _ impossible
            cases impossible
      | ok given =>
          cases given with
          | none =>
              refine (ih distinct.2 (onward known fun _ _ => rfl)).mono fun outcome rows'' later => ?_
              refine later.cons distinct.1 found rewritten (fun _ _ => rfl) ?_
              rw [unknown rfl] at kept ⊢
              refine kept.trans (iff_of_false ?_ ?_)
              · rintro ⟨_, impossible, _⟩
                cases impossible
              · rintro ⟨_, impossible, _⟩
                cases impossible
          | some given =>
              have same : ∀ other, other ≠ run.runID → (known.set run.runID given).get? other = known.get? other :=
                fun other different => by rw [Dict.get?_set, if_neg different]
              refine (ih distinct.2 (onward _ same)).mono fun outcome rows'' later => ?_
              refine later.cons distinct.1 found rewritten same (kept.trans ?_)
              rw [Dict.get?_set, if_pos rfl]
              exact exists_congr fun result => and_congr_left fun _ => by simp

end Batches

section Finalizations

/-- The runs of a batch as they are stored. -/
structure StoredBatch where
  rows : List RunRow
  distinct : (rows.map RunRow.runID).Nodup
  stored : ∀ row ∈ rows, row.Stored

/-- The scheduler's result for a run: of several the last. -/
def scheduled (results : List TaskResult) (runID : String) : Option TaskResult :=
  (results.filter fun result => result.runID = runID).getLast?

theorem get?_resultByRunID (results : List TaskResult) (runID : String) :
    (resultByRunID results).get? runID = scheduled results runID := by
  induction results using List.reverseRecOn with
  | nil => rfl
  | append_singleton results last ih =>
      rw [resultByRunID, List.foldl_append, List.foldl_cons, List.foldl_nil, Dict.get?_set, scheduled, List.filter_append]
      by_cases here : runID = last.runID
      · rw [if_pos here, List.filter_cons_of_pos (by simp [here]), List.filter_nil, List.getLast?_concat]
      · rw [if_neg here, List.filter_cons_of_neg (by simpa using Ne.symm here), List.filter_nil, List.append_nil]
        exact ih

theorem scheduled_mem {results : List TaskResult} {runID : String} {result : TaskResult}
    (found : scheduled results runID = some result) : result ∈ results ∧ result.runID = runID := by
  have inside := List.mem_of_getLast? found
  rw [List.mem_filter] at inside
  exact ⟨inside.1, of_decide_eq_true inside.2⟩

/-- No run is lost: one terminal result for each stored run, in their order, the scheduler's where the store has none,
then the scheduler's results for other runs; and no stored run is left queued or running. -/
structure NoRunLost (batch : StoredBatch) (results : List TaskResult) (outcome : Except RunError (List TaskResult))
    (rows' : List RunRow) : Prop where
  returned : ∃ own,
    outcome = .ok (own ++ results.filter fun result => result.runID ∉ batch.rows.map RunRow.runID) ∧
      List.Forall₂ (fun row result => Finalized row (scheduled results row.runID) result) (inOrder batch.rows) own
  stored : rows'.map RunRow.runID = batch.rows.map RunRow.runID
  settled : ∀ row ∈ rows', ¬ row.status.isActive

variable {batch : StoredBatch} {results : List TaskResult}

theorem mem_inOrder {rows : List RunRow} {row : RunRow} : row ∈ inOrder rows ↔ row ∈ rows :=
  (List.perm_insertionSort _ _).mem_iff

structure ListedOf (batch : StoredBatch) (runs : List TaskRun) : Prop where
  snapshots : List.Forall₂ SnapshotOf (inOrder batch.rows) runs
  sorted : runs.insertionSort indexOrder = runs
  distinct : (runs.map TaskRun.runID).Nodup
  ids : ∀ runID, runID ∈ runs.map TaskRun.runID ↔ runID ∈ batch.rows.map RunRow.runID

theorem StoredBatch.listed (batch : StoredBatch) :
    ∃ runs, (inOrder batch.rows).mapM readRun = .ok runs ∧ ListedOf batch runs := by
  obtain ⟨runs, read⟩ := exists_mapM fun row (inside : row ∈ inOrder batch.rows) =>
    (readRun_ok (batch.stored row (mem_inOrder.mp inside)).readable).imp fun _ known => known.1
  have snapshots : List.Forall₂ SnapshotOf (inOrder batch.rows) runs :=
    (mapM_eq_ok.mp read).imp fun _ _ known => snapshotOf_readRun known
  have ids : (inOrder batch.rows).map RunRow.runID = runs.map TaskRun.runID :=
    map_eq_of_forall₂ (snapshots.imp fun _ _ snapshot => snapshot.runID.symm)
  have indices : (inOrder batch.rows).map RunRow.batchItemIndex = runs.map TaskRun.batchItemIndex :=
    map_eq_of_forall₂ (snapshots.imp fun _ _ snapshot => snapshot.batchItemIndex.symm)
  have perm : (inOrder batch.rows).Perm batch.rows := List.perm_insertionSort _ _
  have sorted : (runs.map TaskRun.batchItemIndex).Pairwise fun first second => first.toInt ≤ second.toInt := by
    rw [← indices, List.pairwise_map]
    have total : Std.Total rowOrder := ⟨fun first second => le_total first.batchItemIndex.toInt _⟩
    have chained : IsTrans RunRow rowOrder := ⟨fun _ _ _ => le_trans⟩
    exact List.pairwise_insertionSort rowOrder batch.rows
  refine ⟨runs, read, snapshots, (List.pairwise_map.mp sorted).insertionSort_eq, ?_, fun runID => ?_⟩
  · rw [← ids]
    exact (perm.map _).nodup_iff.mpr batch.distinct
  · rw [← ids]
    exact (perm.map _).mem_iff

theorem ListedOf.found {runs : List TaskRun} (listed : ListedOf batch runs) {run : TaskRun} (inside : run ∈ runs) :
    ∃ row, Table.select RunRow.runID run.runID batch.rows = some row ∧ row.Stored ∧ SnapshotOf row run := by
  obtain ⟨row, there, snapshot⟩ := exists_partner listed.snapshots inside
  have stored : row ∈ batch.rows := mem_inOrder.mp there
  exact ⟨row, snapshot.runID ▸ Table.select_of_mem batch.distinct stored, batch.stored row stored, snapshot⟩

theorem ListedOf.run {runs : List TaskRun} (listed : ListedOf batch runs) {row : RunRow} (stored : row ∈ batch.rows) :
    ∃ run ∈ runs, run.runID = row.runID := by
  have inside := (listed.ids row.runID).mpr (List.mem_map_of_mem stored)
  exact List.mem_map.mp inside

theorem reconciled_eq {runs : List TaskRun} (listed : ListedOf batch runs) (known : Dict String TaskResult) :
    reconciled runs results known = (runs.filterMap fun run => known.get? run.runID) ++
      results.filter fun result => result.runID ∉ batch.rows.map RunRow.runID := by
  have same : ∀ result ∈ results, decide (result.runID ∉ runs.map TaskRun.runID) =
      decide (result.runID ∉ batch.rows.map RunRow.runID) :=
    fun result _ => decide_eq_decide.mpr (listed.ids result.runID).not
  rw [reconciled, listed.sorted, List.filter_congr same]

variable {rows' : List RunRow} {runs : List TaskRun}

theorem Looped.select_of_mem {known : Dict String TaskResult} {outcome : Except RunError (Dict String TaskResult)}
    (looped : Looped runs known batch.rows outcome rows') {row' : RunRow} (inside : row' ∈ rows') :
    row'.runID ∈ batch.rows.map RunRow.runID ∧ Table.select RunRow.runID row'.runID rows' = some row' :=
  ⟨looped.ids ▸ List.mem_map_of_mem inside, Table.select_of_mem (looped.ids ▸ batch.distinct) inside⟩

theorem Looped.row (listed : ListedOf batch runs) {known : Dict String TaskResult}
    (looped : Looped runs (resultByRunID results) batch.rows (.ok known) rows') {row : RunRow} (stored : row ∈ batch.rows) :
    ∃ row', Table.select RunRow.runID row.runID rows' = some row' ∧
      (Finalizable row (scheduled results row.runID) ↔ ∃ result, known.get? row.runID = some result ∧
        Finalized row (scheduled results row.runID) result ∧ ¬ row'.status.isActive) := by
  obtain ⟨run, inside, same⟩ := listed.run stored
  have kept := looped.kept known rfl run inside row
  rw [get?_resultByRunID, same] at kept
  exact kept (Table.select_of_mem batch.distinct stored)

theorem Looped.noRunLost (listed : ListedOf batch runs) {outcome : Except RunError (Dict String TaskResult)}
    (looped : Looped runs (resultByRunID results) batch.rows outcome rows')
    (finalizable : ∀ row ∈ batch.rows, Finalizable row (scheduled results row.runID)) :
    NoRunLost batch results (outcome.map (reconciled runs results)) rows' := by
  cases outcome with
  | error error =>
      obtain ⟨run, inside, row, found, lost⟩ := looped.raises error rfl
      have stored : row ∈ batch.rows := List.mem_of_find?_eq_some found
      rw [get?_resultByRunID, ← Table.key_of_select found] at lost
      exact absurd (finalizable row stored) lost
  | ok known =>
      refine ⟨⟨_, congrArg Except.ok (reconciled_eq listed known), ?_⟩, looped.ids, fun row' inside => ?_⟩
      · refine forall₂_filterMap listed.snapshots fun row there run snapshot => ?_
        have stored : row ∈ batch.rows := mem_inOrder.mp there
        obtain ⟨_, _, iff⟩ := looped.row listed stored
        obtain ⟨result, known', finalized, _⟩ := iff.mp (finalizable row stored)
        exact ⟨result, snapshot.runID ▸ known', finalized⟩
      · obtain ⟨there, found⟩ := looped.select_of_mem inside
        obtain ⟨row, stored, same⟩ := List.mem_map.mp there
        obtain ⟨row'', found', iff⟩ := looped.row listed stored
        obtain ⟨_, _, _, idle⟩ := iff.mp (finalizable row stored)
        rw [same] at found'
        cases found.symm.trans found'
        exact idle

theorem Looped.finalizable (listed : ListedOf batch runs) {outcome : Except RunError (Dict String TaskResult)}
    (looped : Looped runs (resultByRunID results) batch.rows outcome rows')
    (kept : NoRunLost batch results (outcome.map (reconciled runs results)) rows') {row : RunRow}
    (stored : row ∈ batch.rows) : Finalizable row (scheduled results row.runID) := by
  obtain ⟨own, returned, finalized⟩ := kept.returned
  cases outcome with
  | error error => cases returned
  | ok known =>
      have same : reconciled runs results known = _ := Except.ok.inj returned
      rw [reconciled_eq listed, List.append_cancel_right_eq] at same
      subst same
      obtain ⟨run, result, snapshot, known', facts⟩ :=
        image_of_forall₂_filterMap listed.snapshots finalized (mem_inOrder.mpr stored)
      obtain ⟨row', found, iff⟩ := looped.row listed stored
      have idle := kept.settled row' (List.mem_of_find?_eq_some found)
      exact iff.mpr ⟨result, snapshot.runID ▸ known', facts, idle⟩

theorem alone_noRunLost (title : TaskRun → String) (batch : StoredBatch) (results : List TaskResult)
    (known : ∀ result ∈ results, result.Known) :
    storedBatch.Alone (fun outcome rows' => NoRunLost batch results outcome rows' ↔
        ∀ row ∈ batch.rows, Finalizable row (scheduled results row.runID))
      (finalizeNonterminalRuns title results).run batch.rows := by
  obtain ⟨runs, read, listed⟩ := batch.listed
  have looped : storedBatch.Alone (Looped runs (resultByRunID results) batch.rows)
      (finalizeRuns title runs (resultByRunID results)).run batch.rows := by
    refine alone_finalizeRuns listed.distinct fun run inside => ⟨listed.found inside, fun result found => ?_⟩
    rw [get?_resultByRunID] at found
    exact ⟨known result (scheduled_mem found).1, (scheduled_mem found).2⟩
  refine ⟨⟨.only, rfl⟩, fun choice reply rows' served => ?_⟩
  cases choice with
  | only =>
      cases served
      rw [read]
      refine Surroundings.alone_bind.mpr (looped.mono fun outcome rows' looped => ?_)
      have iff : NoRunLost batch results (outcome.map (reconciled runs results)) rows' ↔
          ∀ row ∈ batch.rows, Finalizable row (scheduled results row.runID) :=
        ⟨fun kept row stored => looped.finalizable listed kept stored, looped.noRunLost listed⟩
      cases outcome with
      | error error => exact iff
      | ok value => exact iff
  | _ => cases served

/-- **No run is lost at finalization** exactly if every settled run has a terminal result, of the scheduler or a stored
one, and every active run one whose end the store can hold. -/
theorem finalizeNonterminalRuns_iff (title : TaskRun → String) (batch : StoredBatch) (results : List TaskResult)
    (known : ∀ result ∈ results, result.Known) :
    storedBatch.Alone (NoRunLost batch results) (finalizeNonterminalRuns title results).run batch.rows ↔
      ∀ row ∈ batch.rows, Finalizable row (scheduled results row.runID) := by
  have always := alone_noRunLost title batch results known
  constructor
  · intro kept
    obtain ⟨_, _, holds, iff⟩ := (kept.and always).ends
    exact iff.mp holds
  · intro finalizable
    exact always.mono fun _ _ iff => iff.mpr finalizable

def StoredBatch.single (row : RunRow) (stored : row.Stored) : StoredBatch where
  rows := [row]
  distinct := List.nodup_singleton _
  stored := fun _ inside => List.mem_singleton.mp inside ▸ stored

theorem stored_fresh : (RunRow.fresh "run" "batch").Stored where
  readable := readable_fresh "run" "batch"
  runID := by simp [RunRow.fresh]
  batchID := by simp [RunRow.fresh]
  parentConversationID := by decide
  parentTurnID := by decide
  queuedAt := by decide
  startedAt := rfl

/-- A queued run that the scheduler returned no result for is stranded, and not lost. -/
theorem finalizeNonterminalRuns_iff_queued :
    storedBatch.Alone (NoRunLost (.single _ stored_fresh) []) (finalizeNonterminalRuns TaskRun.taskID []).run
      [RunRow.fresh "run" "batch"] :=
  (finalizeNonterminalRuns_iff TaskRun.taskID (.single _ stored_fresh) [] fun _ none_ => by cases none_).mpr <| by
    intro row inside
    obtain rfl := List.mem_singleton.mp inside
    intro result none_
    cases none_

/-- What a cancellation leaves of a run that has not begun. -/
def cancelledRun : RunRow :=
  { RunRow.fresh "run" "batch" with
    status := .cancelled, attempt := 0, startedAt := some 0, endedAt := some 7, lastError := "user" }

theorem stored_cancelledRun : cancelledRun.Stored :=
  { stored_fresh with
    readable := ⟨rfl, by simp [cancelledRun, taskStatuses], by simp [cancelledRun, RunRow.fresh, errorClasses],
      fun _ none_ => by cases none_⟩
    startedAt := by decide }

/-- Such a run has no result, and is lost. -/
theorem cancelledRun_lost :
    ¬ storedBatch.Alone (NoRunLost (.single _ stored_cancelledRun) []) (finalizeNonterminalRuns TaskRun.taskID []).run
      [cancelledRun] := by
  intro kept
  have always := alone_noRunLost TaskRun.taskID (.single _ stored_cancelledRun) [] fun _ none_ => by cases none_
  obtain ⟨_, _, holds, iff⟩ := (kept.and always).ends
  have finalizable := iff.mp holds _ (List.mem_singleton_self _)
  exact Bool.false_ne_true finalizable

end Finalizations

end Sico.TaskRuntime

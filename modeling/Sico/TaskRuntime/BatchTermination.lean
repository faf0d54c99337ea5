import Sico.TaskRuntime.Batches

/-! # The terminal transition of a batch

An update decides by the list of terminal statuses, a cancellation by the two active
ones. The two tests meet in one statement about the locked row: a settled status stays,
and a call reports a transition exactly when it takes the row from an unsettled status
to a settled one (`Settles`). Over a run of the store the reports on one batch then add
up to the difference between its last status and its first.
-/

namespace Sico.TaskRuntime

open Foundation

/-- A call of the store. A cancellation of a batch is among the operations on runs. -/
inductive BatchCall where
  | createBatch (now : ℤ) (batchJSON : RawJson)
  | updateBatch (now : ℤ) (batchJSON : RawJson)
  | heartbeatBatch (now : ℤ) (batchID : String)
  | store (op : Operation)

namespace BatchCall

/-- What a call that succeeds returns about the terminal transition, and the database it
leaves. -/
def exec (db : Database) : BatchCall → Except StoreError (Bool × Database)
  | createBatch now batchJSON => (db.createBatch now batchJSON).map fun done => (false, done.2)
  | updateBatch now batchJSON =>
      (db.updateBatch now batchJSON).map fun done => (done.1.terminalTransitioned, done.2)
  | heartbeatBatch now batchID => (db.heartbeatBatch now batchID).map fun db => (false, db)
  | store (.cancelBatch now batchID reason) =>
      (db.cancelBatch now batchID reason).map fun done => (done.1.transitioned, done.2)
  | store op => (op.exec db).map fun db => (false, db)

/-- A call as its caller sees it: one that fails has reported nothing and is rolled
back. -/
def returns (db : Database) (call : BatchCall) : Bool × Database :=
  match call.exec db with
  | .ok done => done
  | .error _ => (false, db)

/-- Whether a call is an update or a cancellation of the batch. -/
def isOn (batchID : String) : BatchCall → Bool
  | updateBatch now batchJSON =>
      match batchRowFromJSON now batchJSON with
      | .ok row => row.batchID = batchID
      | .error _ => false
  | store (.cancelBatch _ target _) => target = batchID
  | _ => false

end BatchCall

/-- The calls of the store, each with the transition it reports. -/
def batchCalls : System Database (BatchCall × Bool) where
  step db call db' := call.1.returns db = (call.2, db')

/-- How many calls on the batch report that they made the terminal transition. -/
def reportedTransitions (batchID : String) (calls : List (BatchCall × Bool)) : ℕ :=
  calls.countP fun call => call.1.isOn batchID && call.2

/-- What one call may do to the status of a batch and report about it. -/
structure Settles (before after : Status) (reported : Bool) : Prop where
  absorbs : before ∈ terminalBatchStatuses → after = before
  reports : reported = true ↔ before ∉ terminalBatchStatuses ∧ after ∈ terminalBatchStatuses

theorem Settles.same (status : Status) : Settles status status false where
  absorbs _ := rfl
  reports := by simp

theorem Status.isActive_unsettled {status : Status} (active : status.isActive = true) :
    status ∉ terminalBatchStatuses := by
  cases status <;> simp [Status.isActive, terminalBatchStatuses] at active ⊢

theorem batchUpdateDecision_settles (existing incoming : Status) :
    ((batchUpdateDecision existing incoming).1 = true →
      Settles existing incoming (batchUpdateDecision existing incoming).2) ∧
    ((batchUpdateDecision existing incoming).1 = false →
      (batchUpdateDecision existing incoming).2 = false) := by
  by_cases settled : existing ∈ terminalBatchStatuses
  · simp [batchUpdateDecision, settled]
  · refine ⟨fun _ => ⟨fun terminal => absurd terminal settled, ?_⟩, fun refused => ?_⟩
    · simp [batchUpdateDecision, settled]
    · simp [batchUpdateDecision, settled] at refused

namespace Database

theorem select_rewrite {batches : List BatchRow} {batchID : String} {batch : BatchRow}
    (found : Table.select BatchRow.batchID batchID batches = some batch) (target : String)
    (rewrite : BatchRow → BatchRow)
    (keeps : ∀ row, row.batchID = target → (rewrite row).batchID = target) :
    Table.select BatchRow.batchID batchID
        (batches.map fun row : BatchRow => if row.batchID = target then rewrite row else row) =
      some (if batchID = target then rewrite batch else batch) := by
  have keys (row : BatchRow) :
      (if row.batchID = target then rewrite row else row).batchID = row.batchID := by
    split
    · next here => rw [keeps row here, here]
    · rfl
  have located : batch.batchID = batchID := Table.key_of_select found
  rw [Table.select_map keys, found, Option.map_some, located]

/-- An update on the batch it names settles its status; it leaves every other batch
alone. -/
theorem updateBatch_settles {db db' : Database} {now : ℤ} {batchJSON : RawJson}
    {result : BatchUpdateResult} (done : db.updateBatch now batchJSON = .ok (result, db'))
    {batchID : String} {batch : BatchRow} (found : db.findBatch batchID = some batch) :
    ∃ batch', db'.findBatch batchID = some batch' ∧
      Settles batch.status batch'.status
        ((BatchCall.updateBatch now batchJSON).isOn batchID && result.terminalTransitioned) := by
  obtain ⟨row, parsed, done⟩ := bind_eq_ok.mp done
  simp only [BatchCall.isOn, parsed]
  cases located : db.findBatch row.batchID with
  | none => simp [located] at done
  | some existing =>
      simp only [located] at done
      obtain ⟨applies, refuses⟩ := batchUpdateDecision_settles existing.status row.status
      cases decided : (batchUpdateDecision existing.status row.status).1 with
      | false =>
          simp only [decided] at done
          cases done
          exact ⟨batch, found, by simpa using Settles.same _⟩
      | true =>
          simp only [decided, not_true_eq_false, if_false] at done
          obtain ⟨document, _, done⟩ := bind_eq_ok.mp done
          cases done
          refine ⟨_, select_rewrite found row.batchID _ (fun _ here => here), ?_⟩
          by_cases here : batchID = row.batchID
          · obtain rfl : existing = batch := by
              rw [here, located] at found
              exact Option.some.inj found
            simpa [here, batchUpdateMap] using applies decided
          · simpa [here, Ne.symm here] using Settles.same _

/-- A cancellation of the batch it names settles its status; it leaves every other batch
alone. -/
theorem cancelBatch_settles_run {db db' : Database} {now : ℤ} {target reason : String}
    {result : CancelResult} (done : db.cancelBatch now target reason = .ok (result, db'))
    {batchID : String} {batch : BatchRow} (found : db.findBatch batchID = some batch) :
    ∃ batch', db'.findBatch batchID = some batch' ∧
      Settles batch.status batch'.status
        ((BatchCall.store (.cancelBatch now target reason)).isOn batchID && result.transitioned) := by
  unfold cancelBatch at done
  simp only [BatchCall.isOn]
  cases located : db.findBatch target with
  | none => simp [located] at done
  | some existing =>
      have named : existing.batchID = target := Table.key_of_select located
      simp only [located] at done
      cases active : existing.status.isActive with
      | false =>
          simp only [active] at done
          cases done
          exact ⟨batch, found, by simpa using Settles.same _⟩
      | true =>
          simp only [active, not_true_eq_false, if_false] at done
          obtain ⟨_, _, done⟩ := bind_eq_ok.mp done
          obtain ⟨runs, _, done⟩ := bind_eq_ok.mp done
          cases done
          refine ⟨_, select_rewrite found existing.batchID _ (fun _ _ => rfl), ?_⟩
          by_cases here : batchID = target
          · obtain rfl : existing = batch := by
              rw [here, located] at found
              exact Option.some.inj found
            have unsettled := Status.isActive_unsettled active
            have settled : Status.cancelled ∈ terminalBatchStatuses := by decide
            refine ⟨fun terminal => absurd terminal unsettled, ?_⟩
            simp [here, named, unsettled, settled]
          · simpa [named, here, Ne.symm here] using Settles.same _

theorem heartbeatBatch_status {db db' : Database} {now : ℤ} {target : String}
    (done : db.heartbeatBatch now target = .ok db') {batchID : String} {batch : BatchRow}
    (found : db.findBatch batchID = some batch) :
    ∃ batch', db'.findBatch batchID = some batch' ∧ batch'.status = batch.status := by
  obtain ⟨_, _, done⟩ := bind_eq_ok.mp done
  cases done
  refine ⟨_, (Table.select_map (fun stored => ?_) batchID db.batches).trans (congrArg _ found), ?_⟩
  · split <;> rfl
  · dsimp only
    split <;> rfl

theorem createBatch_keeps {db db' : Database} {now : ℤ} {batchJSON : RawJson}
    {result : BatchCreateResult} (done : db.createBatch now batchJSON = .ok (result, db'))
    {batchID : String} {batch : BatchRow} (found : db.findBatch batchID = some batch) :
    db'.findBatch batchID = some batch := by
  obtain ⟨row, _, done⟩ := bind_eq_ok.mp done
  obtain ⟨_, _, done⟩ := bind_eq_ok.mp done
  split at done
  · cases done
    exact found
  · cases done
    exact Table.select_append _ found

theorem updateRun_batches {db db' : Database} {runID : String}
    {body : RunRow → Except StoreError RunRow} (done : db.updateRun runID body = .ok db') :
    db'.batches = db.batches := by
  obtain ⟨_, _, done⟩ := bind_eq_ok.mp done
  obtain ⟨_, _, done⟩ := bind_eq_ok.mp done
  cases done
  rfl

end Database

theorem Operation.exec_batches {op : Operation} {db db' : Database} (done : op.exec db = .ok db')
    (other : ∀ now batchID reason, op ≠ .cancelBatch now batchID reason) :
    db'.batches = db.batches := by
  cases op with
  | createRun now runJSON =>
      obtain ⟨⟨_, _⟩, created, rfl⟩ := map_eq_ok.mp done
      obtain ⟨_, _, created⟩ := bind_eq_ok.mp created
      split at created
      · split at created
        · cases created
        · split at created
          · cases created
            rfl
          · cases created
      · cases created
        rfl
  | updateRun now runJSON =>
      obtain ⟨_, _, done⟩ := bind_eq_ok.mp done
      obtain ⟨_, _, done⟩ := bind_eq_ok.mp done
      cases done
      rfl
  | claimRun now token runID workerID =>
      obtain ⟨⟨_, _⟩, claimed, rfl⟩ := map_eq_ok.mp done
      obtain ⟨_, updated, same⟩ := bind_eq_ok.mp claimed
      cases same
      exact Database.updateRun_batches updated
  | writeResult now runID tokenJSON resultJSONStr =>
      obtain ⟨⟨_, _⟩, written, rfl⟩ := map_eq_ok.mp done
      unfold Database.writeResult at written
      dsimp only at written
      split at written
      · cases written
      · obtain ⟨⟨_, _⟩, _, written⟩ := bind_eq_ok.mp written
        obtain ⟨_, updated, same⟩ := bind_eq_ok.mp written
        cases same
        exact Database.updateRun_batches updated
  | cancelRun now runID reason =>
      obtain ⟨⟨_, _⟩, cancelled, rfl⟩ := map_eq_ok.mp done
      unfold Database.cancelRun at cancelled
      dsimp only at cancelled
      split at cancelled
      · cases cancelled
      · obtain ⟨_, updated, same⟩ := bind_eq_ok.mp cancelled
        cases same
        exact Database.updateRun_batches updated
  | cancelBatch now batchID reason => exact absurd rfl (other now batchID reason)
  | sweepStaleRuns now beforeTs =>
      obtain ⟨⟨_, _⟩, swept, rfl⟩ := map_eq_ok.mp done
      obtain ⟨_, _, same⟩ := bind_eq_ok.mp swept
      cases same
      rfl
  | reopenRunForRetry now runJSON expectedAttempt =>
      obtain ⟨_, _, done⟩ := bind_eq_ok.mp done
      exact Database.updateRun_batches done
  | setRunProgress now runID message ts =>
      obtain ⟨_, _, done⟩ := bind_eq_ok.mp done
      cases done
      rfl

/-- **One call.** Whatever a call does and returns, it settles the status of each batch
that is there. -/
theorem BatchCall.returns_settles {call : BatchCall} {db db' : Database} {reported : Bool}
    (step : call.returns db = (reported, db')) {batchID : String} {batch : BatchRow}
    (found : db.findBatch batchID = some batch) :
    ∃ batch', db'.findBatch batchID = some batch' ∧
      Settles batch.status batch'.status (call.isOn batchID && reported) := by
  unfold BatchCall.returns at step
  cases done : call.exec db with
  | error =>
      simp only [done] at step
      cases step
      exact ⟨batch, found, by simpa using Settles.same _⟩
  | ok result =>
      simp only [done] at step
      subst step
      -- an operation that writes no batch and reports nothing
      have quiet (batches : db'.batches = db.batches) (silent : reported = false) :
          ∃ batch', db'.findBatch batchID = some batch' ∧
            Settles batch.status batch'.status (call.isOn batchID && reported) := by
        refine ⟨batch, ?_, by simpa [silent] using Settles.same _⟩
        rwa [Database.findBatch, batches]
      cases call with
      | createBatch now batchJSON =>
          obtain ⟨⟨_, _⟩, created, same⟩ := map_eq_ok.mp done
          cases same
          refine ⟨batch, Database.createBatch_keeps created found, ?_⟩
          simpa [BatchCall.isOn] using Settles.same _
      | updateBatch now batchJSON =>
          obtain ⟨⟨_, _⟩, updated, same⟩ := map_eq_ok.mp done
          cases same
          exact Database.updateBatch_settles updated found
      | heartbeatBatch now target =>
          obtain ⟨_, beaten, same⟩ := map_eq_ok.mp done
          cases same
          obtain ⟨batch', found', status⟩ := Database.heartbeatBatch_status beaten found
          refine ⟨batch', found', ?_⟩
          rw [status]
          simpa [BatchCall.isOn] using Settles.same _
      | store op =>
          cases op with
          | cancelBatch now target reason =>
              obtain ⟨⟨_, _⟩, cancelled, same⟩ := map_eq_ok.mp done
              cases same
              exact Database.cancelBatch_settles_run cancelled found
          | _ =>
              obtain ⟨_, executed, same⟩ := map_eq_ok.mp done
              cases same
              exact quiet (Operation.exec_batches executed (by simp)) rfl

def settledCount (status : Status) : ℕ := if status ∈ terminalBatchStatuses then 1 else 0

theorem Settles.count {before after : Status} {reported : Bool}
    (settles : Settles before after reported) :
    settledCount before + (if reported then 1 else 0) = settledCount after := by
  unfold settledCount
  by_cases settled : before ∈ terminalBatchStatuses
  · have quiet : reported = false := by
      by_contra loud
      exact (settles.reports.mp (by simpa using loud)).1 settled
    simp [settles.absorbs settled, settled, quiet]
  · have transition : reported = true ↔ after ∈ terminalBatchStatuses := by
      simpa [settled] using settles.reports
    simp [settled, transition]

/-- **One run.** A settled batch keeps its status, and the reports on a batch add up to
the difference between its last status and its first. -/
theorem reportedTransitions_run {db db' : Database} {calls : List (BatchCall × Bool)}
    (run : batchCalls.Run db calls db') {batchID : String} {batch : BatchRow}
    (found : db.findBatch batchID = some batch) :
    ∃ batch', db'.findBatch batchID = some batch' ∧
      (batch.status ∈ terminalBatchStatuses → batch'.status = batch.status) ∧
      settledCount batch.status + reportedTransitions batchID calls =
        settledCount batch'.status := by
  induction run with
  | nil => exact ⟨batch, found, fun _ => rfl, rfl⟩
  | @snoc calls middle next call _ step ih =>
      obtain ⟨middleBatch, foundMiddle, absorbed, count⟩ := ih
      obtain ⟨last, foundLast, settles⟩ := BatchCall.returns_settles step foundMiddle
      refine ⟨last, foundLast, fun settled => ?_, ?_⟩
      · rw [← absorbed settled]
        exact settles.absorbs (by rwa [absorbed settled])
      · have one := settles.count
        simp only [reportedTransitions, List.countP_append, List.countP_singleton] at count ⊢
        omega

/-- **The terminal transition is reported once.** In every run of the store, whatever
statuses its documents carry, a terminal batch keeps its status, at most one call on it
returns that it made the terminal transition, and of a batch that was not terminal one
does if and only if it ends terminal. -/
theorem terminal_transition_reported_once {db db' : Database} {calls : List (BatchCall × Bool)}
    (run : batchCalls.Run db calls db') {batchID : String} {batch : BatchRow}
    (found : db.findBatch batchID = some batch) :
    ∃ batch', db'.findBatch batchID = some batch' ∧
      (batch.status ∈ terminalBatchStatuses → batch'.status = batch.status) ∧
      reportedTransitions batchID calls ≤ 1 ∧
      (batch.status ∉ terminalBatchStatuses →
        (reportedTransitions batchID calls = 1 ↔ batch'.status ∈ terminalBatchStatuses)) := by
  obtain ⟨batch', found', absorbed, count⟩ := reportedTransitions_run run found
  have bound : settledCount batch'.status ≤ 1 := by
    unfold settledCount
    split <;> omega
  refine ⟨batch', found', absorbed, by omega, fun unsettled => ?_⟩
  have start : settledCount batch.status = 0 := if_neg unsettled
  rw [start, Nat.zero_add] at count
  rw [count]
  simp [settledCount]

def batchDocument (status : Status) : RawJson :=
  .doc (.obj [("batch_id", .str "batch"), ("status", .str status.text), ("created_at", .int 1)]) false

def runningBatch : Database :=
  ⟨[⟨"batch", 1, 2, none, .running, .null, .obj [], 1, 1, none, "", none, "", "partial_ok", 0⟩],
    [RunRow.fresh "run" "batch"], []⟩

theorem batchCalls_returns (db : Database) (call : BatchCall) (reported : Bool)
    (report : (call.returns db).1 = reported) :
    batchCalls.step db (call, reported) (call.returns db).2 := by
  rw [← report]
  rfl

/-- Three callers race on a running batch: the cancellation wins, and only it reports the
transition. -/
theorem terminal_transition_reported_once_race :
    ∃ final, batchCalls.Run runningBatch
        [(.updateBatch 5 (batchDocument .running), false),
          (.store (.cancelBatch 7 "batch" "user"), true),
          (.updateBatch 9 (batchDocument .completed), false)] final ∧
      ∃ batch', final.findBatch "batch" = some batch' ∧ batch'.status ∈ terminalBatchStatuses := by
  have start : batchCalls.Run runningBatch [] runningBatch := .nil
  have updated := start.snoc
    (batchCalls_returns _ (.updateBatch 5 (batchDocument .running)) false (by decide))
  have cancelled := updated.snoc
    (batchCalls_returns _ (.store (.cancelBatch 7 "batch" "user")) true (by decide))
  have run := cancelled.snoc
    (batchCalls_returns _ (.updateBatch 9 (batchDocument .completed)) false (by decide))
  obtain ⟨batch', found, _, _, settles⟩ :=
    terminal_transition_reported_once run
      (show runningBatch.findBatch "batch" = some _ from rfl)
  exact ⟨_, run, batch', found, (settles (by decide)).mp (by decide)⟩

end Sico.TaskRuntime

import Sico.Foundation.System
import Sico.TaskRuntime.Columns
import Sico.TaskRuntime.Dao

/-! # Runs of the store

A failed operation rolls back, so the steps of the store are the successful ones.
Seen from one run, an operation on the database either leaves the run's row alone or
performs one transition on it (`Operation.exec_row`); the system of a single run has
these transitions as its steps.
-/

namespace Sico.TaskRuntime

open Foundation

/-- A transition of one run's row. -/
inductive RowOp where
  | claim (now : ℤ) (token workerID : String)
  | write (now : ℤ) (tokenJSON resultJSONStr : RawJson)
  | cancel (reason : String) (now : ℤ)
  | sweep (now : ℤ)
  | reopen (now : ℤ) (incoming : RunRow) (expectedAttempt : Int32)
  | update (now : ℤ) (incoming : RunRow)
  | progress (now : ℤ) (message : String) (ts : ℤ)

def RowOp.exec : RowOp → RunRow → Except StoreError RunRow
  | claim now token workerID, row => claimRow now token workerID row
  | write now tokenJSON resultJSONStr, row =>
      (writeResultRow now tokenJSON resultJSONStr row).map Prod.snd
  | cancel reason now, row => cancelRunRowTx reason now row
  | sweep now, row => failStaleRunTx now row
  | reopen now incoming expectedAttempt, row => reopenRow now incoming expectedAttempt row
  | update now incoming, row => .ok (updateRow now incoming row)
  | progress now message ts, row => .ok (progressRow now message ts row)

def runSystem : System RunRow RowOp where
  step row op row' := op.exec row = .ok row'

/-- An operation of the store with its arguments, the clock and, for a claim, the
token it draws. -/
inductive Operation where
  | createRun (now : ℤ) (runJSON : RawJson)
  | updateRun (now : ℤ) (runJSON : RawJson)
  | claimRun (now : ℤ) (token runID workerID : String)
  | writeResult (now : ℤ) (runID : String) (tokenJSON resultJSONStr : RawJson)
  | cancelRun (now : ℤ) (runID reason : String)
  | cancelBatch (now : ℤ) (batchID reason : String)
  | sweepStaleRuns (now beforeTs : ℤ)
  | reopenRunForRetry (now : ℤ) (runJSON : RawJson) (expectedAttempt : Int32)
  | setRunProgress (now : ℤ) (runID message : String) (ts : ℤ)

namespace Operation

def exec (db : Database) : Operation → Except StoreError Database
  | createRun now runJSON => (db.createRun now runJSON).map Prod.snd
  | updateRun now runJSON => db.updateRunJSON now runJSON
  | claimRun now token runID workerID => (db.claimRun now token runID workerID).map Prod.snd
  | writeResult now runID tokenJSON resultJSONStr =>
      (db.writeResult now runID tokenJSON resultJSONStr).map Prod.snd
  | cancelRun now runID reason => (db.cancelRun now runID reason).map Prod.snd
  | cancelBatch now batchID reason => (db.cancelBatch now batchID reason).map Prod.snd
  | sweepStaleRuns now beforeTs => (db.sweepStaleRuns now beforeTs).map Prod.snd
  | reopenRunForRetry now runJSON expectedAttempt =>
      db.reopenRunForRetry now runJSON expectedAttempt
  | setRunProgress now runID message ts => db.setRunProgress now runID message ts

/-- The transition an operation performs on a stored row, if it reaches it. -/
def rowOp (db : Database) (row : RunRow) : Operation → Option RowOp
  | createRun _ _ => none
  | updateRun now runJSON =>
      match runRowFromJSON now runJSON with
      | .ok incoming => if row.runID = incoming.runID then some (.update now incoming) else none
      | .error _ => none
  | claimRun now token runID workerID =>
      if row.runID = trimSpace runID then some (.claim now token workerID) else none
  | writeResult now runID tokenJSON resultJSONStr =>
      if row.runID = trimSpace runID then some (.write now tokenJSON resultJSONStr) else none
  | cancelRun now runID reason =>
      if row.runID = trimSpace runID then some (.cancel reason now) else none
  | cancelBatch now batchID reason =>
      match db.findBatch batchID with
      | some batch =>
          if batch.status.isActive ∧ row.batchID = batch.batchID then some (.cancel reason now)
          else none
      | none => none
  | sweepStaleRuns now beforeTs => if db.isStale beforeTs row then some (.sweep now) else none
  | reopenRunForRetry now runJSON expectedAttempt =>
      match runRowFromJSON now runJSON with
      | .ok incoming =>
          if row.runID = incoming.runID then some (.reopen now incoming expectedAttempt) else none
      | .error _ => none
  | setRunProgress now runID message ts =>
      if row.runID = trimSpace runID then
        some (.progress now message (if ts = 0 then now else ts))
      else
        none

end Operation

def dao : System Database Operation where
  step db op db' := op.exec db = .ok db'

theorem dao_run_of_exec (start : Database) (ops : List Operation) {final : Database}
    (done : ops.foldlM Operation.exec start = .ok final) : dao.Run start ops final := by
  induction ops using List.reverseRecOn generalizing final with
  | nil => cases done; exact .nil
  | append_singleton ops op ih =>
      rw [List.foldlM_append] at done
      obtain ⟨middle, front, last⟩ := bind_eq_ok.mp done
      obtain ⟨_, step, same⟩ := bind_eq_ok.mp last
      cases same
      exact .snoc (ih front) step

/-- The row after a transition, or the row itself when there is none. -/
def Moves (op : Option RowOp) (row row' : RunRow) : Prop :=
  match op with
  | none => row' = row
  | some op => op.exec row = .ok row'

theorem RowOp.exec_runID {op : RowOp} {row row' : RunRow} (done : op.exec row = .ok row') :
    row'.runID = row.runID := by
  cases op with
  | claim => obtain ⟨_, _, rfl⟩ := claimRow_ok done; rfl
  | write =>
      obtain ⟨⟨_, _⟩, written, rfl⟩ := map_eq_ok.mp done
      obtain ⟨_, _, _, _, _, _, _, _, _, rfl⟩ := writeResultRow_ok written
      rfl
  | cancel =>
      obtain ⟨_, rfl⟩ | ⟨_, _, rfl⟩ := cancelRunRowTx_ok done
      · rfl
      · rfl
  | sweep =>
      obtain ⟨_, rfl⟩ | ⟨_, _, _, rfl⟩ := failStaleRunTx_ok done
      · rfl
      · rfl
  | reopen => obtain ⟨_, rfl⟩ := reopenRow_ok done; rfl
  | update now incoming =>
      cases done
      unfold updateRow
      split <;> rfl
  | progress =>
      cases done
      unfold progressRow
      split <;> rfl

theorem RowOp.updateWhere_row (op : RowOp) {selected : RunRow → Bool} {runs runs' : List RunRow}
    (done : Table.updateWhere selected op.exec runs = .ok runs') {runID : String} {row : RunRow}
    (found : Table.select RunRow.runID runID runs = some row) :
    ∃ row', Table.select RunRow.runID runID runs' = some row' ∧
      Moves (if selected row then some op else none) row row' := by
  obtain ⟨row', found', effect⟩ :=
    Table.select_updateWhere (fun _ _ => RowOp.exec_runID) done found
  refine ⟨row', found', ?_⟩
  unfold Table.rewriteWhere at effect
  by_cases here : selected row
  · simpa [Moves, here] using effect
  · simpa [Moves, here, eq_comm] using effect

/-- A statement on the rows of one run performs its transition there and nothing
elsewhere. -/
theorem Database.updateRun_row (op : RowOp) {db db' : Database} {target runID : String}
    (done : db.updateRun target op.exec = .ok db') {row : RunRow}
    (found : db.findRun runID = some row) :
    ∃ row', db'.findRun runID = some row' ∧
      Moves (if row.runID = target then some op else none) row row' := by
  obtain ⟨_, _, done⟩ := bind_eq_ok.mp done
  obtain ⟨runs, updated, done⟩ := bind_eq_ok.mp done
  cases done
  simpa [findRun] using RowOp.updateWhere_row op updated found

theorem Database.mapRuns_row (op : RowOp) {rewrite : RunRow → RunRow}
    (total : ∀ row, op.exec row = .ok (rewrite row)) (db : Database) (target : String)
    {runID : String} {row : RunRow} (found : db.findRun runID = some row) :
    ∃ row', Table.select RunRow.runID runID
        (db.runs.map fun stored => if stored.runID = target then rewrite stored else stored) =
        some row' ∧
      Moves (if row.runID = target then some op else none) row row' := by
  have keeps (stored : RunRow) :
      (if stored.runID = target then rewrite stored else stored).runID = stored.runID := by
    split
    · exact RowOp.exec_runID (total stored)
    · rfl
  refine ⟨_, (Table.select_map keeps _ _).trans (congrArg _ found), ?_⟩
  by_cases here : row.runID = target
  · simpa [Moves, here] using total row
  · simp [Moves, here]

/-- **One run under the store.** An operation takes the row of a run to the row it
finds afterwards by the transition it performs on it. -/
theorem Operation.exec_row {op : Operation} {db db' : Database} (done : op.exec db = .ok db')
    {runID : String} {row : RunRow} (found : db.findRun runID = some row) :
    ∃ row', db'.findRun runID = some row' ∧ Moves (op.rowOp db row) row row' := by
  cases op with
  | createRun now runJSON =>
      obtain ⟨⟨_, _⟩, created, rfl⟩ := map_eq_ok.mp done
      obtain ⟨incoming, _, created⟩ := bind_eq_ok.mp created
      split at created
      · split at created
        · cases created
        · split at created
          · cases created
            exact ⟨row, found, rfl⟩
          · cases created
      · cases created
        exact ⟨row, Table.select_append _ found, rfl⟩
  | updateRun now runJSON =>
      obtain ⟨incoming, parsed, done⟩ := bind_eq_ok.mp done
      obtain ⟨_, _, done⟩ := bind_eq_ok.mp done
      cases done
      simpa [Operation.rowOp, Database.findRun, parsed] using
        db.mapRuns_row (.update now incoming) (fun _ => rfl) incoming.runID found
  | claimRun now token target workerID =>
      obtain ⟨⟨_, _⟩, claimed, rfl⟩ := map_eq_ok.mp done
      obtain ⟨_, updated, same⟩ := bind_eq_ok.mp claimed
      cases same
      simp only [Operation.rowOp]
      exact Database.updateRun_row (.claim now token workerID) updated found
  | writeResult now target tokenJSON resultJSONStr =>
      obtain ⟨⟨_, _⟩, written, rfl⟩ := map_eq_ok.mp done
      unfold Database.writeResult at written
      dsimp only at written
      split at written
      · cases written
      · obtain ⟨⟨_, _⟩, _, written⟩ := bind_eq_ok.mp written
        obtain ⟨_, updated, same⟩ := bind_eq_ok.mp written
        cases same
        simp only [Operation.rowOp]
        exact Database.updateRun_row (.write now tokenJSON resultJSONStr) updated found
  | cancelRun now target reason =>
      obtain ⟨⟨_, _⟩, cancelled, rfl⟩ := map_eq_ok.mp done
      unfold Database.cancelRun at cancelled
      dsimp only at cancelled
      split at cancelled
      · cases cancelled
      · obtain ⟨_, updated, same⟩ := bind_eq_ok.mp cancelled
        cases same
        simp only [Operation.rowOp]
        exact Database.updateRun_row (.cancel reason now) updated found
  | cancelBatch now batchID reason =>
      obtain ⟨⟨_, _⟩, cancelled, rfl⟩ := map_eq_ok.mp done
      unfold Database.cancelBatch at cancelled
      split at cancelled
      · cases cancelled
      · next batch located =>
        by_cases active : batch.status.isActive
        · simp only [active, not_true_eq_false, if_false] at cancelled
          obtain ⟨_, _, cancelled⟩ := bind_eq_ok.mp cancelled
          obtain ⟨_, updated, same⟩ := bind_eq_ok.mp cancelled
          cases same
          simpa [Operation.rowOp, Database.findRun, located, active] using
            RowOp.updateWhere_row (.cancel reason now) updated found
        · simp only [active] at cancelled
          cases cancelled
          exact ⟨row, found, by simp [Operation.rowOp, located, active, Moves]⟩
  | sweepStaleRuns now beforeTs =>
      obtain ⟨⟨_, _⟩, swept, rfl⟩ := map_eq_ok.mp done
      obtain ⟨_, updated, same⟩ := bind_eq_ok.mp swept
      cases same
      simp only [Operation.rowOp]
      exact RowOp.updateWhere_row (.sweep now) updated found
  | reopenRunForRetry now runJSON expectedAttempt =>
      obtain ⟨incoming, parsed, done⟩ := bind_eq_ok.mp done
      simpa [Operation.rowOp, parsed] using
        Database.updateRun_row (.reopen now incoming expectedAttempt) done found
  | setRunProgress now target message ts =>
      obtain ⟨_, _, done⟩ := bind_eq_ok.mp done
      cases done
      simp only [Operation.rowOp]
      exact db.mapRuns_row (.progress now message (if ts = 0 then now else ts)) (fun _ => rfl)
        (trimSpace target) found

/-- The database after one more operation, with the transitions of one run so far. -/
def track (runID : String) (seen : Database × List RowOp) (op : Operation) :
    Database × List RowOp :=
  match op.exec seen.1 with
  | .ok db => (db, seen.2 ++ ((seen.1.findRun runID).bind fun row => op.rowOp seen.1 row).toList)
  | .error _ => seen

/-- The transitions that a sequence of operations commits on one run, oldest first. -/
def rowHistory (runID : String) (start : Database) (ops : List Operation) : List RowOp :=
  (ops.foldl (track runID) (start, [])).2

/-- **Projection.** What the store does to one run is a run of the single-run system,
along the transitions committed on it. -/
theorem rowHistory_run {start final : Database} {ops : List Operation}
    (run : dao.Run start ops final) {runID : String} {row : RunRow}
    (found : start.findRun runID = some row) :
    ∃ row', final.findRun runID = some row' ∧
      runSystem.Run row (rowHistory runID start ops) row' := by
  suffices tracked : (ops.foldl (track runID) (start, [])).1 = final ∧
      ∃ row', final.findRun runID = some row' ∧
        runSystem.Run row (rowHistory runID start ops) row' from tracked.2
  induction run with
  | nil => exact ⟨rfl, row, found, .nil⟩
  | @snoc ops middle next op _ step ih =>
      obtain ⟨reached, row', found', front⟩ := ih
      obtain ⟨row'', found'', moves⟩ := Operation.exec_row step found'
      have done : op.exec middle = .ok next := step
      simp only [rowHistory, List.foldl_append, List.foldl_cons, List.foldl_nil, track] at *
      rw [reached, done]
      refine ⟨rfl, row'', found'', ?_⟩
      rw [found', Option.bind_some]
      cases performed : op.rowOp middle row' with
      | none =>
          rw [performed] at moves
          obtain rfl : row'' = row' := moves
          simpa using front
      | some rowOp =>
          rw [performed] at moves
          exact .snoc front moves

end Sico.TaskRuntime

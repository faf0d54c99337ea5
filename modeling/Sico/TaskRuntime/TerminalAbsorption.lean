import Sico.TaskRuntime.Operations

/-! # Settled runs stay settled

A run that completed or was cancelled keeps its status and its result under every
operation of the store, whatever document a client sends. A run that failed, timed
out or was blocked leaves its status through a reopen alone, and then for the queue.
-/

namespace Sico.TaskRuntime

open Foundation

theorem isActive_eq_false_of_terminal {status : Status}
    (terminal : status ∈ terminalRunStatuses) : status.isActive = false := by
  simp only [terminalRunStatuses, List.mem_cons, List.not_mem_nil, or_false] at terminal
  rcases terminal with rfl | rfl | rfl | rfl | rfl <;> rfl

theorem terminal_of_retryable {status : Status}
    (retryable : status ∈ retryableTerminalRunStatuses) : status ∈ terminalRunStatuses := by
  simp only [retryableTerminalRunStatuses, terminalRunStatuses, List.mem_cons] at *
  tauto

/-- An update reaches a settled row only with the status it already has, and leaves
the result alone. -/
theorem updateRow_settled {now : ℤ} {incoming stored : RunRow}
    (terminal : stored.status ∈ terminalRunStatuses) :
    (updateRow now incoming stored).status = stored.status ∧
      (updateRow now incoming stored).resultJSON = stored.resultJSON := by
  unfold updateRow
  split
  · next admitted =>
    have same : stored.status = incoming.status := by
      unfold protectTerminalStatus at admitted
      split at admitted
      · simpa [terminal] using admitted
      · simp [terminal] at admitted
    rw [same] at terminal
    simp [runUpdateMap, same, isActive_eq_false_of_terminal terminal]
  · exact ⟨rfl, rfl⟩

/-- A transition of a settled row keeps status and result, unless it reopens a
retryable one. -/
theorem RowOp.exec_settled {op : RowOp} {row row' : RunRow} (done : op.exec row = .ok row')
    (terminal : row.status ∈ terminalRunStatuses) :
    (row'.status = row.status ∧ row'.resultJSON = row.resultJSON) ∨
      ((∃ now incoming expectedAttempt, op = .reopen now incoming expectedAttempt) ∧
        row.status ∈ retryableTerminalRunStatuses ∧ row'.status = .queued) := by
  have idle := isActive_eq_false_of_terminal terminal
  cases op with
  | claim =>
      obtain ⟨queued, _⟩ := claimRow_ok done
      simp [queued, terminalRunStatuses] at terminal
  | write =>
      obtain ⟨⟨_, _⟩, written, rfl⟩ := map_eq_ok.mp done
      obtain ⟨running, _⟩ := writeResultRow_ok written
      simp [running, terminalRunStatuses] at terminal
  | cancel =>
      obtain ⟨_, rfl⟩ | ⟨active, _⟩ := cancelRunRowTx_ok done
      · exact .inl ⟨rfl, rfl⟩
      · simp [idle] at active
  | sweep =>
      obtain ⟨_, rfl⟩ | ⟨active, _⟩ := failStaleRunTx_ok done
      · exact .inl ⟨rfl, rfl⟩
      · simp [idle] at active
  | reopen now incoming expectedAttempt =>
      obtain ⟨guards, rfl⟩ := reopenRow_ok done
      exact .inr ⟨⟨now, incoming, expectedAttempt, rfl⟩, guards.retryable, guards.queued⟩
  | update =>
      cases done
      exact .inl (updateRow_settled terminal)
  | progress =>
      cases done
      unfold progressRow
      split <;> exact .inl ⟨rfl, rfl⟩

/-- A completed or cancelled row keeps status and result under every run of
transitions. -/
theorem absorbed_run {row row' : RunRow} {history : List RowOp}
    (run : runSystem.Run row history row') (absorbed : row.status = .completed ∨
      row.status = .cancelled) :
    row'.status = row.status ∧ row'.resultJSON = row.resultJSON := by
  refine run.preserves (fun state => state.status = row.status ∧
    state.resultJSON = row.resultJSON) ?_ ⟨rfl, rfl⟩
  intro source op target holds step
  have terminal : source.status ∈ terminalRunStatuses := by
    rw [holds.1]
    rcases absorbed with completed | cancelled <;> simp [*, terminalRunStatuses]
  rcases RowOp.exec_settled step terminal with kept | ⟨_, retryable, _⟩
  · exact ⟨kept.1.trans holds.1, kept.2.trans holds.2⟩
  · rw [holds.1] at retryable
    rcases absorbed with completed | cancelled <;>
      simp [*, retryableTerminalRunStatuses] at retryable

theorem Operation.rowOp_reopen {op : Operation} {db : Database} {row incoming : RunRow} {now : ℤ}
    {expectedAttempt : Int32} (performed : op.rowOp db row = some (.reopen now incoming expectedAttempt)) :
    ∃ runJSON, op = .reopenRunForRetry now runJSON expectedAttempt := by
  unfold Operation.rowOp at performed
  split at performed <;> (try split at performed) <;> (try split at performed) <;>
    simp_all

/-- **Terminal absorption.** From every state of the store, a completed or cancelled
run keeps its status and its result through every sequence of operations, and an
operation that changes the status of a failed, timed-out or blocked run is a reopen
and queues it. -/
theorem settled_runs_absorb (db : Database) (runID : String) {row : RunRow}
    (found : db.findRun runID = some row) :
    ((row.status = .completed ∨ row.status = .cancelled) →
      ∀ later db', dao.Run db later db' →
        ∃ row', db'.findRun runID = some row' ∧ row'.status = row.status ∧
          row'.resultJSON = row.resultJSON) ∧
    ((row.status = .failed ∨ row.status = .timedOut ∨ row.status = .blocked) →
      ∀ op db', dao.step db op db' →
        ∃ row', db'.findRun runID = some row' ∧
          (row'.status = row.status ∨
            (∃ now runJSON expectedAttempt, op = .reopenRunForRetry now runJSON expectedAttempt) ∧
              row'.status = .queued)) := by
  constructor
  · intro absorbed later db' run
    obtain ⟨row', found', history⟩ := rowHistory_run run found
    exact ⟨row', found', absorbed_run history absorbed⟩
  · intro retryable op db' step
    obtain ⟨row', found', moves⟩ := Operation.exec_row step found
    refine ⟨row', found', ?_⟩
    cases performed : op.rowOp db row with
    | none =>
        rw [performed] at moves
        exact .inl (congrArg RunRow.status moves)
    | some rowOp =>
        rw [performed] at moves
        have terminal : row.status ∈ terminalRunStatuses :=
          terminal_of_retryable (by simpa [retryableTerminalRunStatuses] using retryable)
        rcases RowOp.exec_settled moves terminal with kept | ⟨⟨now, incoming, attempt, rfl⟩, _, queued⟩
        · exact .inl kept.1
        · obtain ⟨runJSON, rfl⟩ := Operation.rowOp_reopen performed
          exact .inr ⟨⟨now, runJSON, attempt, rfl⟩, queued⟩

theorem settled_runs_absorb_cancel :
    ∃ row', Database.findRun
        ⟨[], [{ RunRow.fresh "run" "batch" with status := .completed }], []⟩ "run" = some row' ∧
      row'.status = .completed ∧ row'.resultJSON = none :=
  (settled_runs_absorb ⟨[], [{ RunRow.fresh "run" "batch" with status := .completed }], []⟩ "run"
    rfl).1 (.inl rfl) [.cancelRun 7 "run" "user"] _ (.snoc .nil rfl)

end Sico.TaskRuntime

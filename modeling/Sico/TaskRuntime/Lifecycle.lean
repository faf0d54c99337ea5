import Sico.TaskRuntime.Fencing
import Sico.TaskRuntime.TerminalAbsorption

/-! # The lifecycle of a run

A run is queued, claimed, settled and, for another try, reopened. Whoever calls the store, and in whatever
order, a ledger of the transitions that were committed on the run balances with its status: each claim uses
up an opening, each result a claim, and each reopen a settlement.
-/

namespace Sico.TaskRuntime

open Foundation

def RowOp.isReopen : RowOp → Bool
  | reopen _ _ _ => true
  | _ => false

/-- Whether a transition is one of those that settle a run. -/
def RowOp.settles : RowOp → Bool
  | write _ _ _ | cancel _ _ | sweep _ => true
  | _ => false

namespace Status

def queuedCount (status : Status) : ℕ := if status = .queued then 1 else 0

def runningCount (status : Status) : ℕ := if status = .running then 1 else 0

def settledCount (status : Status) : ℕ := if status.isActive then 0 else 1

theorem counts_of_settled {status : Status} (settled : status.isActive = false) :
    status.queuedCount = 0 ∧ status.runningCount = 0 ∧ status.settledCount = 1 := by
  unfold queuedCount runningCount settledCount
  revert settled
  cases status <;> simp [isActive]

theorem counts_le_one (status : Status) :
    status.queuedCount ≤ 1 ∧ status.runningCount ≤ 1 ∧ status.settledCount ≤ 1 := by
  unfold queuedCount runningCount settledCount
  split <;> split <;> split <;> decide

end Status

/-- The balance of a history between two statuses. -/
structure Ledger (status : Status) (history : List RowOp) (status' : Status) : Prop where
  claims : history.countP RowOp.isClaim + status'.queuedCount ≤ history.countP RowOp.isReopen + status.queuedCount
  results : history.countP RowOp.isWrite + status'.runningCount ≤ history.countP RowOp.isClaim + status.runningCount
  reopens : history.countP RowOp.isReopen + status'.settledCount ≤ history.countP RowOp.settles + status.settledCount

section Ledgers

variable {status status' status'' : Status} {history later : List RowOp} {row row' : RunRow}

theorem Ledger.append (first : Ledger status history status') (second : Ledger status' later status'') :
    Ledger status (history ++ later) status'' := by
  obtain ⟨claims, results, reopens⟩ := first
  obtain ⟨claims', results', reopens'⟩ := second
  constructor <;> simp only [List.countP_append] <;> omega

/-- A cancellation or a sweep, which settles the run or finds it settled. -/
theorem Ledger.settling {op : RowOp} (noClaim : op.isClaim = false) (noReopen : op.isReopen = false)
    (noWrite : op.isWrite = false) (settles : op.settles = true) (settled : status'.isActive = false) :
    Ledger status [op] status' := by
  obtain ⟨queued, running, settled⟩ := Status.counts_of_settled settled
  constructor <;> simp [noClaim, noReopen, noWrite, settles, queued, running, settled]

/-- **One transition.** What it takes from one count it gives to another. -/
theorem Ledger.single {op : RowOp} (done : op.exec row = .ok row') (stays : op.isUpdate = false) :
    Ledger row.status [op] row'.status := by
  cases op with
  | claim now token workerID =>
      obtain ⟨queued, _, rfl⟩ := claimRow_ok done
      rw [queued]
      exact ⟨le_rfl, le_rfl, le_rfl⟩
  | write now tokenJSON resultJSONStr =>
      obtain ⟨⟨_, _⟩, written, rfl⟩ := map_eq_ok.mp done
      obtain ⟨running, _, _, result, _, _, _, _, terminal, rfl⟩ := writeResultRow_ok written
      obtain ⟨queued', running', settled'⟩ := Status.counts_of_settled (isActive_eq_false_of_terminal terminal)
      rw [running]
      dsimp only
      refine ⟨?_, Nat.le_of_eq (congrArg (1 + ·) running'), Nat.le_of_eq (congrArg (0 + ·) settled')⟩
      rw [queued']
      exact Nat.zero_le _
  | cancel reason now =>
      refine .settling rfl rfl rfl rfl ?_
      obtain ⟨idle, rfl⟩ | ⟨_, _, rfl⟩ := cancelRunRowTx_ok done
      · exact Bool.eq_false_iff.mpr idle
      · rfl
  | sweep now =>
      refine .settling rfl rfl rfl rfl ?_
      obtain ⟨idle, rfl⟩ | ⟨_, _, _, rfl⟩ := failStaleRunTx_ok done
      · exact Bool.eq_false_iff.mpr idle
      · dsimp only
        unfold staleStatus
        split <;> rfl
  | reopen now incoming expectedAttempt =>
      obtain ⟨guards, rfl⟩ := reopenRow_ok done
      have terminal := terminal_of_retryable guards.retryable
      obtain ⟨queued, running, settled⟩ := Status.counts_of_settled (isActive_eq_false_of_terminal terminal)
      have opened : (runUpdateMap { incoming with updatedAt := now } row).status = .queued := guards.queued
      dsimp only
      rw [opened]
      refine ⟨Nat.le_add_right 1 _, Nat.zero_le _, ?_⟩
      exact Nat.le_of_eq (congrArg (0 + ·) settled.symm)
  | update => cases stays
  | progress now message ts =>
      have same : row'.status = row.status := by
        cases done
        unfold progressRow
        split <;> rfl
      rw [same]
      exact ⟨le_rfl, le_rfl, le_rfl⟩

theorem Ledger.run (run : runSystem.Run row history row') (tracked : ∀ op ∈ history, op.isUpdate = false) :
    Ledger row.status history row'.status := by
  refine run.invariant
    (fun history state => (∀ op ∈ history, op.isUpdate = false) → Ledger row.status history state.status)
    (fun _ => ⟨le_rfl, le_rfl, le_rfl⟩) (fun history source op target holds step tracked => ?_) tracked
  simp only [List.mem_append, List.mem_singleton] at tracked
  exact (holds fun earlier member => tracked earlier (.inl member)).append (.single step (tracked op (.inr rfl)))

end Ledgers

/-- **A run takes its turns.** Take any operations of the store that do not update the run by document. In every
stretch of what they commit on it, at most one claim is not preceded by a reopen of its own, at most one result not by
a claim of its own, and at most one reopen not by a settlement of its own. -/
theorem runs_take_turns {start final : Database} {ops : List Operation} (run : dao.Run start ops final)
    (runID : String) {row : RunRow} (found : start.findRun runID = some row)
    (tracked : ∀ op ∈ rowHistory runID start ops, op.isUpdate = false) {before stretch behind : List RowOp}
    (within : rowHistory runID start ops = before ++ stretch ++ behind) :
    stretch.countP RowOp.isClaim ≤ stretch.countP RowOp.isReopen + 1 ∧
      stretch.countP RowOp.isWrite ≤ stretch.countP RowOp.isClaim + 1 ∧
      stretch.countP RowOp.isReopen ≤ stretch.countP RowOp.settles + 1 := by
  obtain ⟨row', _, committed⟩ := rowHistory_run run found
  rw [within] at committed tracked
  obtain ⟨_, front, _⟩ := committed.append_inv
  obtain ⟨middle, _, here⟩ := front.append_inv
  obtain ⟨claims, results, reopens⟩ := Ledger.run here fun op listed =>
    tracked op (List.mem_append_left _ (List.mem_append_right _ listed))
  obtain ⟨queued, running, settled⟩ := middle.status.counts_le_one
  omega

/-- A run that is claimed and completed is not opened again. -/
theorem runs_take_turns_completed :
    [RowOp.claim 1 "t1" "worker", .write 3 (.doc (.obj [("token", .str "t1")]) false)
      (.doc (.obj [("status", .str "completed")]) false)].countP RowOp.isReopen ≤ 1 + 1 := by
  have run := dao_run_of_exec ⟨[], [RunRow.fresh "run" "batch"], []⟩
    [.claimRun 1 "t1" "run" "worker", .writeResult 3 "run" (.doc (.obj [("token", .str "t1")]) false)
      (.doc (.obj [("status", .str "completed")]) false)] rfl
  exact (@runs_take_turns _ _ _ run "run" _ rfl (by decide) [] _ [] rfl).2.2

end Sico.TaskRuntime

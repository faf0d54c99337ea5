import Sico.TaskRuntime.Operations

/-! # The frame of the row transitions

A claim means to leave the attempt and a start time already there; a result, a
cancellation and a sweep mean to leave the attempt and the start time. The columns
pass through the untyped map on the way, where the attempt is an `int32` and the
times are pointers, and the reader has no case for either: they come back as zero.
So the frame is kept exactly by the rows in which these columns already hold what
the reader makes of them.
-/

namespace Sico.TaskRuntime

open Foundation

namespace RowOp

/-- What a transition means to leave alone. An absent end time stays absent under a
claim. -/
def KeepsFrame (row row' : RunRow) : RowOp → Prop
  | claim _ _ _ =>
      row'.attempt = row.attempt ∧
        (∀ startedAt, row.startedAt = some startedAt → startedAt ≠ 0 →
          row'.startedAt = some startedAt) ∧
        (row.endedAt = none → row'.endedAt = none)
  | write _ _ _ | cancel _ _ | sweep _ =>
      row'.attempt = row.attempt ∧ row'.startedAt = row.startedAt
  | reopen _ _ _ | update _ _ | progress _ _ _ => True

/-- The rows on which a transition keeps its frame. A cancellation and a sweep do
nothing to a run that is not active. -/
def FrameSafe (row : RunRow) : RowOp → Prop
  | claim now _ _ =>
      row.attempt = 0 ∧
        (∀ startedAt, row.startedAt = some startedAt → startedAt = 0 ∨ startedAt = now) ∧
        row.endedAt ≠ none
  | write _ _ _ => row.attempt = 0 ∧ row.startedAt = some 0
  | cancel _ _ | sweep _ => row.status.isActive → row.attempt = 0 ∧ row.startedAt = some 0
  | reopen _ _ _ | update _ _ | progress _ _ _ => True

/-- Whether a transition takes its columns from a document that a client sends. -/
def fromClient : RowOp → Bool
  | reopen _ _ _ | update _ _ => true
  | _ => false

/-- A transition keeps its frame exactly on the rows where the columns it reads back
hold the values the reader gives. -/
theorem keepsFrame_iff {op : RowOp} {row row' : RunRow} (done : op.exec row = .ok row') :
    op.KeepsFrame row row' ↔ op.FrameSafe row := by
  cases op with
  | claim now =>
      obtain ⟨_, _, rfl⟩ := claimRow_ok done
      simp only [KeepsFrame, FrameSafe]
      grind
  | write =>
      obtain ⟨⟨_, _⟩, written, rfl⟩ := map_eq_ok.mp done
      obtain ⟨_, _, _, _, _, _, _, _, _, rfl⟩ := writeResultRow_ok written
      simp only [KeepsFrame, FrameSafe, eq_comm]
  | cancel =>
      obtain ⟨idle, rfl⟩ | ⟨active, _, rfl⟩ := cancelRunRowTx_ok done
      · simp [KeepsFrame, FrameSafe, idle]
      · simp only [KeepsFrame, FrameSafe, active, true_implies, eq_comm]
  | sweep =>
      obtain ⟨idle, rfl⟩ | ⟨active, _, _, rfl⟩ := failStaleRunTx_ok done
      · simp [KeepsFrame, FrameSafe, idle]
      · simp only [KeepsFrame, FrameSafe, active, true_implies, eq_comm]
  | reopen | update | progress => exact Iff.rfl

theorem exec_attempt_zero {op : RowOp} {row row' : RunRow} (done : op.exec row = .ok row')
    (internal : op.fromClient = false) (zero : row.attempt = 0) : row'.attempt = 0 := by
  cases op with
  | claim => obtain ⟨_, _, rfl⟩ := claimRow_ok done; rfl
  | write =>
      obtain ⟨⟨_, _⟩, written, rfl⟩ := map_eq_ok.mp done
      obtain ⟨_, _, _, _, _, _, _, _, _, rfl⟩ := writeResultRow_ok written
      rfl
  | cancel =>
      obtain ⟨_, rfl⟩ | ⟨_, _, rfl⟩ := cancelRunRowTx_ok done
      · exact zero
      · rfl
  | sweep =>
      obtain ⟨_, rfl⟩ | ⟨_, _, _, rfl⟩ := failStaleRunTx_ok done
      · exact zero
      · rfl
  | reopen => cases internal
  | update => cases internal
  | progress =>
      cases done
      unfold progressRow
      split <;> exact zero

end RowOp

theorem attempt_zero_run {row row' : RunRow} {history : List RowOp}
    (run : runSystem.Run row history row')
    (internal : ∀ op ∈ history, op.fromClient = false) (zero : row.attempt = 0) :
    row'.attempt = 0 := by
  refine run.invariant (fun history state =>
    (∀ op ∈ history, op.fromClient = false) → state.attempt = 0) (fun _ => zero) ?_ internal
  intro history source op target holds step internal
  simp only [List.mem_append, List.mem_singleton] at internal
  exact RowOp.exec_attempt_zero step (internal op (.inr rfl))
    (holds fun earlier member => internal earlier (.inl member))

end Sico.TaskRuntime

import Sico.TaskRuntime.Operations

/-! # Fencing of result writes

A claim hands a worker a token, and a result lands only under the token of the row.
Over every history of a run without updates by document, a token on a running row is
the token of the last claim, and since that claim the row has seen nothing but
progress lines: every other transition of a running run settles it or is refused.
-/

namespace Sico.TaskRuntime

open Foundation

namespace RowOp

/-- Whether a transition only records progress. -/
def isProgress : RowOp → Bool
  | progress _ _ _ => true
  | _ => false

/-- Whether a transition is an update by document. -/
def isUpdate : RowOp → Bool
  | update _ _ => true
  | _ => false

/-- Whether a transition writes a result. -/
def isWrite : RowOp → Bool
  | write _ _ _ => true
  | _ => false

def isClaim : RowOp → Bool
  | claim _ _ _ => true
  | _ => false

theorem eq_write_of_isWrite {op : RowOp} (writes : op.isWrite) :
    ∃ now tokenJSON resultJSONStr, op = write now tokenJSON resultJSONStr := by
  cases op with
  | write now tokenJSON resultJSONStr => exact ⟨now, tokenJSON, resultJSONStr, rfl⟩
  | _ => cases writes

def claimToken : RowOp → Option String
  | claim _ token _ => some token
  | _ => none

end RowOp

/-- The history ends in a claim under the token, with progress lines after it. -/
def ClaimedLast (history : List RowOp) (token : String) : Prop :=
  ∃ before now workerID after, history = before ++ RowOp.claim now token workerID :: after ∧
    ∀ op ∈ after, RowOp.isProgress op

/-- A token on a running row was drawn by the last transition that was not progress. -/
def TokenCurrent (history : List RowOp) (row : RunRow) : Prop :=
  row.status = .running → row.fencingToken ≠ "" → ClaimedLast history row.fencingToken

theorem ClaimedLast.snoc_progress {history : List RowOp} {token : String} {op : RowOp}
    (claimed : ClaimedLast history token) (progress : op.isProgress) :
    ClaimedLast (history ++ [op]) token := by
  obtain ⟨before, now, workerID, after, rfl, quiet⟩ := claimed
  refine ⟨before, now, workerID, after ++ [op], by simp, ?_⟩
  intro later member
  rcases List.mem_append.mp member with earlier | last
  · exact quiet later earlier
  · exact List.mem_singleton.mp last ▸ progress

theorem TokenCurrent.step {history : List RowOp} {op : RowOp} {row row' : RunRow}
    (current : TokenCurrent history row) (done : op.exec row = .ok row')
    (stays : op.isUpdate = false) : TokenCurrent (history ++ [op]) row' := by
  intro running present
  cases op with
  | claim now token workerID =>
      obtain ⟨_, _, rfl⟩ := claimRow_ok done
      exact ⟨history, now, workerID, [], rfl, by simp⟩
  | write =>
      obtain ⟨⟨_, _⟩, written, rfl⟩ := map_eq_ok.mp done
      obtain ⟨_, _, _, _, _, _, _, _, _, rfl⟩ := writeResultRow_ok written
      exact absurd rfl present
  | cancel =>
      obtain ⟨idle, rfl⟩ | ⟨_, _, rfl⟩ := cancelRunRowTx_ok done
      · simp [running, Status.isActive] at idle
      · exact absurd rfl present
  | sweep =>
      obtain ⟨idle, rfl⟩ | ⟨_, _, _, rfl⟩ := failStaleRunTx_ok done
      · simp [running, Status.isActive] at idle
      · exact absurd rfl present
  | reopen =>
      obtain ⟨guards, rfl⟩ := reopenRow_ok done
      exact absurd (guards.queued.symm.trans running) (by decide)
  | update => cases stays
  | progress =>
      cases done
      have same : ∀ now message ts, (progressRow now message ts row).status = row.status ∧
          (progressRow now message ts row).fencingToken = row.fencingToken := by
        intro now message ts
        unfold progressRow
        split <;> exact ⟨rfl, rfl⟩
      rw [(same _ _ _).1] at running
      rw [(same _ _ _).2] at present ⊢
      exact (current running present).snoc_progress rfl

theorem tokenCurrent_run {row row' : RunRow} {history : List RowOp}
    (run : runSystem.Run row history row') (fenced : ∀ op ∈ history, op.isUpdate = false)
    (unclaimed : row.status = .running → row.fencingToken = "") :
    TokenCurrent history row' := by
  refine run.invariant (fun history state =>
    (∀ op ∈ history, op.isUpdate = false) → TokenCurrent history state) ?_ ?_ fenced
  · intro _ running present
    exact absurd (unclaimed running) present
  · intro history source op target holds step fenced
    simp only [List.mem_append, List.mem_singleton] at fenced
    exact (holds fun earlier member => fenced earlier (.inl member)).step step
      (fenced op (.inr rfl))

theorem claimedLast_of_write {row row' : RunRow} {earlier later : List RowOp} {now : ℤ}
    {tokenJSON resultJSONStr : RawJson}
    (run : runSystem.Run row (earlier ++ RowOp.write now tokenJSON resultJSONStr :: later) row')
    (fenced : ∀ op ∈ earlier, op.isUpdate = false)
    (unclaimed : row.status = .running → row.fencingToken = "") :
    ∃ token, decodeJSONValue "" tokenOfMembers tokenJSON "token_json" = .ok token ∧
      ClaimedLast earlier token := by
  rw [List.append_cons] at run
  obtain ⟨_, front, _⟩ := run.append_inv
  obtain ⟨source, front, step⟩ := front.snoc_inv
  obtain ⟨⟨_, _⟩, written, _⟩ := map_eq_ok.mp step
  obtain ⟨running, present, decoded, _⟩ := writeResultRow_ok written
  exact ⟨_, decoded, tokenCurrent_run front fenced unclaimed running present⟩

/-- Of two ways to split a history, the one followed by progress lines alone comes no
earlier than an entry that is not progress. -/
private theorem split_after {before rest start tail : List RowOp} {op mark : RowOp}
    (same : before ++ op :: rest = start ++ mark :: tail)
    (quiet : ∀ later ∈ tail, later.isProgress) (loud : op.isProgress = false) :
    op = mark ∨ mark ∈ rest := by
  rcases List.append_eq_append_iff.mp same with ⟨middle, rfl, shifted⟩ | ⟨middle, rfl, shifted⟩
  · cases middle with
    | nil => exact .inl (List.cons.inj shifted).1
    | cons _ middle =>
        obtain ⟨-, rfl⟩ := List.cons.inj shifted
        exact .inr (by simp)
  · cases middle with
    | nil => exact .inl (List.cons.inj shifted).1.symm
    | cons _ middle =>
        obtain ⟨-, rfl⟩ := List.cons.inj shifted
        have progress := quiet op (by simp)
        simp [loud] at progress

/-- **Fencing.** Take any operations of the store, and the transitions they commit on
one run that no update by document touches and that holds no token at first; claims
draw distinct tokens. A result commits only under the token of the latest claim, and
since that claim nothing but progress was recorded: no result, cancellation, sweep or
reopen. Between two results lies a claim. Once anything but progress follows a claim,
no result commits under its token again. -/
theorem fenced_writes {start final : Database} {ops : List Operation}
    (run : dao.Run start ops final) (runID : String) {row : RunRow}
    (found : start.findRun runID = some row)
    (unclaimed : row.status = .running → row.fencingToken = "")
    (fenced : ∀ op ∈ rowHistory runID start ops, op.isUpdate = false)
    (distinct : ((rowHistory runID start ops).filterMap RowOp.claimToken).Nodup) :
    (∀ earlier now tokenJSON resultJSONStr later,
      rowHistory runID start ops = earlier ++ RowOp.write now tokenJSON resultJSONStr :: later →
      ∃ token, decodeJSONValue "" tokenOfMembers tokenJSON "token_json" = .ok token ∧
        ClaimedLast earlier token) ∧
    (∀ (earlier between later : List RowOp) (first second : RowOp), first.isWrite → second.isWrite →
      rowHistory runID start ops = earlier ++ first :: (between ++ second :: later) →
      ∃ op ∈ between, op.isClaim) ∧
    (∀ before claimedAt token workerID between op after now tokenJSON resultJSONStr later,
      RowOp.isProgress op = false →
      rowHistory runID start ops = before ++ RowOp.claim claimedAt token workerID ::
        (between ++ op :: (after ++ RowOp.write now tokenJSON resultJSONStr :: later)) →
      decodeJSONValue "" tokenOfMembers tokenJSON "token_json" ≠ .ok token) := by
  obtain ⟨_, _, history⟩ := rowHistory_run run found
  generalize rowHistory runID start ops = committed at history fenced distinct
  have authorized : ∀ earlier now tokenJSON resultJSONStr later,
      committed = earlier ++ RowOp.write now tokenJSON resultJSONStr :: later →
      ∃ token, decodeJSONValue "" tokenOfMembers tokenJSON "token_json" = .ok token ∧
        ClaimedLast earlier token := by
    rintro earlier now tokenJSON resultJSONStr later rfl
    exact claimedLast_of_write history
      (fun op member => fenced op (List.mem_append_left _ member)) unclaimed
  refine ⟨authorized, ?_, ?_⟩
  · intro earlier between later first second firstWrites secondWrites same
    obtain ⟨_, _, _, rfl⟩ := RowOp.eq_write_of_isWrite firstWrites
    obtain ⟨now, tokenJSON, resultJSONStr, rfl⟩ := RowOp.eq_write_of_isWrite secondWrites
    obtain ⟨token, _, before, claimedAt, workerID, after, split, quiet⟩ :=
      authorized (earlier ++ _ :: between) now tokenJSON resultJSONStr later (by simpa using same)
    rcases split_after split quiet rfl with equal | member
    · cases equal
    · exact ⟨_, member, rfl⟩
  · intro before claimedAt token workerID between op after now tokenJSON resultJSONStr later loud
      same decoded
    obtain ⟨other, decodedOther, start', claimedAt', workerID', tail, split, quiet⟩ :=
      authorized (before ++ RowOp.claim claimedAt token workerID :: (between ++ op :: after)) now
        tokenJSON resultJSONStr later (by simpa using same)
    obtain rfl : token = other := Except.ok.inj (decoded.symm.trans decodedOther)
    have again : RowOp.claim claimedAt' token workerID' ∈ op :: after := by
      rw [show before ++ RowOp.claim claimedAt token workerID :: (between ++ op :: after) =
        (before ++ RowOp.claim claimedAt token workerID :: between) ++ op :: after by simp] at split
      rcases split_after split quiet loud with rfl | member
      · simp
      · exact List.mem_cons_of_mem _ member
    rw [same, List.filterMap_append,
      List.filterMap_cons_some (f := RowOp.claimToken) (b := token) rfl] at distinct
    have absent := (List.nodup_cons.mp (List.nodup_append.mp distinct).2.1).1
    refine absent (List.mem_filterMap.mpr ⟨.claim claimedAt' token workerID', ?_, rfl⟩)
    refine List.mem_append_right _ ?_
    rw [← List.cons_append]
    exact List.mem_append_left _ again

theorem fenced_writes_claimed :
    ∃ token, decodeJSONValue "" tokenOfMembers (.doc (.obj [("token", .str "t1")]) false)
        "token_json" = .ok token ∧
      ClaimedLast [.claim 1 "t1" "worker", .progress 2 "half" 2] token := by
  have run := dao_run_of_exec ⟨[], [RunRow.fresh "run" "batch"], []⟩
    [.claimRun 1 "t1" "run" "worker", .setRunProgress 2 "run" "half" 2,
      .writeResult 3 "run" (.doc (.obj [("token", .str "t1")]) false)
        (.doc (.obj [("status", .str "completed")]) false)] rfl
  refine (fenced_writes run "run" rfl (by decide) ?_ ?_).1
    [.claim 1 "t1" "worker", .progress 2 "half" 2] 3 _
    (.doc (.obj [("status", .str "completed")]) false) [] rfl
  · decide
  · decide

end Sico.TaskRuntime

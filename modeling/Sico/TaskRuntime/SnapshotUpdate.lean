import Sico.TaskRuntime.Fencing
import Sico.TaskRuntime.TaskRun

/-! # Reading a run and writing it back

The sandbox coordinator and the progress sink read a run, change the fields they own
and write the whole snapshot back, while other parties claim, settle and reopen the
run. The store refuses the update only when it would change a settled status. Where
every update is refused or finds the run's status, attempt and token as the snapshot
has them, the run goes the way it would have gone without any of these updates
(`harmless_updates_erase`); a snapshot older than a claim undoes the claim.
-/

namespace Sico.TaskRuntime

open Foundation

/-- What a read-modify-write changes of its snapshot. -/
inductive SnapshotEdit where
  /-- `_set_run_sandbox_release_state` and `release_stale`. -/
  | release (released : Bool) (leaseOutcome : String)
  /-- `_persist_run_runtime_stage`, with the sandbox fields of a run that has one. -/
  | stage (activeStage : String) (now : ℤ) (sandbox : Option (Json × Bool × String))

def SnapshotEdit.apply (run : TaskRun) : SnapshotEdit → TaskRun
  | release released leaseOutcome =>
      { run with sandboxReleased := released, leaseOutcome := leaseOutcome }
  | stage activeStage now none => { run with runtimeStage := activeStage, heartbeatAt := some now }
  | stage activeStage now (some (sandbox, released, leaseOutcome)) =>
      { run with
        runtimeStage := activeStage
        heartbeatAt := some now
        sandbox := sandbox
        sandboxReleased := released
        leaseOutcome := leaseOutcome }

/-- The stored run and the snapshots that are out, by the sequence that holds them. -/
structure SnapshotState where
  row : RunRow
  held : ℕ → Option TaskRun

inductive SnapshotStep where
  /-- A transition of the store. -/
  | store (op : RowOp)
  /-- `get_run`. -/
  | read (holder : ℕ)
  /-- The edit and `update_run`. -/
  | save (holder : ℕ) (now : ℤ) (edit : SnapshotEdit)

/-- `UpdateRun` of a snapshot; an error is logged or suppressed and changes nothing. -/
def saveSnapshot (now : ℤ) (run : TaskRun) (row : RunRow) : RunRow :=
  match runRowFromJSON now (.doc run.dump false) with
  | .ok incoming => updateRow now incoming row
  | .error _ => row

def RowOp.FromDocument : RowOp → Prop
  | reopen now incoming _ => ∃ runJSON, runRowFromJSON now runJSON = .ok incoming
  | _ => True

/-- The run under read-modify-writes and the other operations of the store. -/
def snapshotSystem : System SnapshotState SnapshotStep where
  step source label target :=
    match label with
    | .store op => op.isUpdate = false ∧ op.FromDocument ∧
        ∃ row, op.exec source.row = .ok row ∧ target = ⟨row, source.held⟩
    | .read holder => ∃ run, TaskRun.ofRow source.row = some run ∧
        target = ⟨source.row, Function.update source.held holder (some run)⟩
    | .save holder now edit => ∃ run, source.held holder = some run ∧
        target = ⟨saveSnapshot now (edit.apply run) source.row,
          Function.update source.held holder none⟩

/-- What is left of a history without the read-modify-writes. -/
def SnapshotStep.transitions : SnapshotStep → List RowOp
  | .store op => [op]
  | .read _ | .save _ _ _ => []

/-- A step loses nothing: an update is refused by the protection of settled runs, or
finds status, attempt and token as its snapshot has them, the attempt not zero. -/
def Harmless (state : SnapshotState) : SnapshotStep → Prop
  | .store _ | .read _ => True
  | .save holder _ _ => ∀ run, state.held holder = some run →
      protectTerminalStatus state.row.status run.status = false ∨
        (run.status = state.row.status ∧ run.attempt = state.row.attempt ∧ run.attempt ≠ 0 ∧
          run.fencingToken = state.row.fencingToken)

/-- Where a run belongs: the columns a reopen may not change. -/
def RunRow.identity (row : RunRow) : String × String × Int32 × String × ℤ × ℤ :=
  (row.batchID, row.idempotencyKey, row.batchItemIndex, row.taskID, row.parentConversationID,
    row.parentTurnID)

def TaskRun.identity (run : TaskRun) : String × String × Int32 × String × ℤ × ℤ :=
  (run.batchID, run.idempotencyKey, run.batchItemIndex, run.taskID, run.parentConversationID,
    run.parentTurnID)

theorem identityChanged_eq (existing incoming : RunRow) :
    identityChanged existing incoming = decide (incoming.identity ≠ existing.identity) := by
  simp only [identityChanged, RunRow.identity, ne_eq, Prod.mk.injEq]
  grind

/-- Rows that no guard of the store tells apart. -/
structure SameControl (row mirror : RunRow) : Prop where
  status : row.status = mirror.status
  attempt : row.attempt = mirror.attempt
  token : row.fencingToken = mirror.fencingToken
  identity : row.identity = mirror.identity
  document : (canonicalPayload row).isOk = (canonicalPayload mirror).isOk

theorem SameControl.symm {row mirror : RunRow} (same : SameControl row mirror) :
    SameControl mirror row :=
  ⟨same.status.symm, same.attempt.symm, same.token.symm, same.identity.symm, same.document.symm⟩

theorem SameControl.trans {first second third : RunRow} (left : SameControl first second)
    (right : SameControl second third) : SameControl first third :=
  ⟨left.status.trans right.status, left.attempt.trans right.attempt, left.token.trans right.token,
    left.identity.trans right.identity, left.document.trans right.document⟩

theorem SameControl.payload {row mirror : RunRow} (same : SameControl row mirror)
    {payload : JsonMap} (read : canonicalPayload row = .ok payload) :
    ∃ payload', canonicalPayload mirror = .ok payload' := by
  have readable := same.document
  rw [read] at readable
  cases stored : canonicalPayload mirror with
  | error _ => simp [stored, Except.isOk, Except.toBool] at readable
  | ok payload' => exact ⟨payload', rfl⟩

theorem SameControl.of_marshal {row mirror : RunRow} {payload payload' : JsonMap}
    (status : row.status = mirror.status) (attempt : row.attempt = mirror.attempt)
    (token : row.fencingToken = mirror.fencingToken) (identity : row.identity = mirror.identity)
    (document : row.runJSON = marshalJSON payload)
    (document' : mirror.runJSON = marshalJSON payload') : SameControl row mirror :=
  ⟨status, attempt, token, identity,
    (canonicalPayload_of_marshal document).trans (canonicalPayload_of_marshal document').symm⟩

section Mirror

variable {row row' mirror : RunRow}

theorem SameControl.claim (same : SameControl row mirror) {now : ℤ} {token workerID : String}
    (done : claimRow now token workerID row = .ok row') :
    ∃ mirror', claimRow now token workerID mirror = .ok mirror' ∧ SameControl row' mirror' := by
  obtain ⟨_, read, done'⟩ := bind_eq_ok.mp done
  obtain ⟨_, read'⟩ := same.payload read
  obtain ⟨queued, _, rfl⟩ := claimRow_ok done
  have claimable : ensureClaimable mirror = .ok () :=
    refuseIf_eq_ok.mpr (not_not.mpr (same.status ▸ queued))
  have succeeds : ∃ mirror', claimRow now token workerID mirror = .ok mirror' :=
    ⟨_, bind_eq_ok.mpr ⟨_, read', bind_eq_ok.mpr ⟨_, claimable, rfl⟩⟩⟩
  obtain ⟨mirror', claimed⟩ := succeeds
  refine ⟨mirror', claimed, ?_⟩
  obtain ⟨_, _, rfl⟩ := claimRow_ok claimed
  exact .of_marshal rfl rfl rfl same.identity rfl rfl

theorem SameControl.write (same : SameControl row mirror) {now durationMS : ℤ}
    {tokenJSON resultJSONStr : RawJson}
    (done : writeResultRow now tokenJSON resultJSONStr row = .ok (durationMS, row')) :
    ∃ durationMS' mirror',
      writeResultRow now tokenJSON resultJSONStr mirror = .ok (durationMS', mirror') ∧
        SameControl row' mirror' := by
  obtain ⟨running, present, decoded, _⟩ := writeResultRow_ok done
  obtain ⟨_, read, done'⟩ := bind_eq_ok.mp done
  obtain ⟨_, read'⟩ := same.payload read
  obtain ⟨_, _, done'⟩ := bind_eq_ok.mp done'
  obtain ⟨result, parsed, done'⟩ := bind_eq_ok.mp done'
  obtain ⟨_, terminal, done'⟩ := bind_eq_ok.mp done'
  obtain ⟨document, column, written⟩ := bind_eq_ok.mp done'
  have authorized : ensureToken mirror tokenJSON = .ok () := by
    refine bind_eq_ok.mpr ⟨_, decoded, refuseIf_eq_ok.mpr ?_⟩
    rw [← same.status, ← same.token]
    simp [running, present]
  obtain ⟨_, mirror', written'⟩ : ∃ durationMS' mirror',
      writeResultRow now tokenJSON resultJSONStr mirror = .ok (durationMS', mirror') :=
    ⟨_, _, bind_eq_ok.mpr ⟨_, read', bind_eq_ok.mpr ⟨_, authorized, bind_eq_ok.mpr ⟨_, parsed,
      bind_eq_ok.mpr ⟨_, terminal, bind_eq_ok.mpr ⟨_, column, rfl⟩⟩⟩⟩⟩⟩
  refine ⟨_, mirror', written', ?_⟩
  obtain ⟨_, _, _, settled, _, _, _, settledParsed, _, rfl⟩ := writeResultRow_ok done
  obtain ⟨_, _, _, settled', _, _, _, settledParsed', _, rfl⟩ := writeResultRow_ok written'
  obtain rfl : settled = settled' := Except.ok.inj (settledParsed.symm.trans settledParsed')
  exact .of_marshal rfl rfl rfl same.identity rfl rfl

theorem SameControl.cancel (same : SameControl row mirror) {reason : String} {now : ℤ}
    (done : cancelRunRowTx reason now row = .ok row') :
    ∃ mirror', cancelRunRowTx reason now mirror = .ok mirror' ∧ SameControl row' mirror' := by
  obtain ⟨idle, rfl⟩ | ⟨active, _, rfl⟩ := cancelRunRowTx_ok done
  · rw [same.status] at idle
    have untouched : mirror.status ≠ .queued ∧ mirror.status ≠ .running := by
      simpa [Status.isActive] using idle
    exact ⟨mirror, if_pos untouched, same⟩
  · have touched : ¬ (row.status ≠ .queued ∧ row.status ≠ .running) := by
      simp only [Status.isActive] at active
      grind
    rw [cancelRunRowTx, if_neg touched] at done
    obtain ⟨_, read, _⟩ := bind_eq_ok.mp done
    obtain ⟨_, read'⟩ := same.payload read
    rw [same.status] at active touched
    obtain ⟨mirror', written⟩ : ∃ mirror', cancelRunRowTx reason now mirror = .ok mirror' :=
      ⟨_, (if_neg touched).trans (bind_eq_ok.mpr ⟨_, read', rfl⟩)⟩
    refine ⟨mirror', written, ?_⟩
    obtain ⟨idle, _⟩ | ⟨_, _, rfl⟩ := cancelRunRowTx_ok written
    · exact absurd active idle
    · exact .of_marshal rfl rfl rfl same.identity rfl rfl

theorem SameControl.sweep (same : SameControl row mirror) {now : ℤ}
    (done : failStaleRunTx now row = .ok row') :
    ∃ mirror', failStaleRunTx now mirror = .ok mirror' ∧ SameControl row' mirror' := by
  obtain ⟨idle, rfl⟩ | ⟨active, _, _, rfl⟩ := failStaleRunTx_ok done
  · rw [same.status] at idle
    have untouched : mirror.status ≠ .running ∧ mirror.status ≠ .queued := by
      simp only [Status.isActive] at idle
      grind
    exact ⟨mirror, if_pos untouched, same⟩
  · have touched : ¬ (row.status ≠ .running ∧ row.status ≠ .queued) := by
      simp only [Status.isActive] at active
      grind
    rw [failStaleRunTx, if_neg touched] at done
    obtain ⟨_, read, _⟩ := bind_eq_ok.mp done
    obtain ⟨_, read'⟩ := same.payload read
    rw [same.status] at active touched
    obtain ⟨mirror', written⟩ : ∃ mirror', failStaleRunTx now mirror = .ok mirror' :=
      ⟨_, (if_neg touched).trans (bind_eq_ok.mpr ⟨_, read', rfl⟩)⟩
    refine ⟨mirror', written, ?_⟩
    obtain ⟨idle, _⟩ | ⟨_, _, _, rfl⟩ := failStaleRunTx_ok written
    · exact absurd active idle
    · refine .of_marshal ?_ rfl rfl same.identity rfl rfl
      simp only [staleStatus, same.status]

theorem SameControl.reopen (same : SameControl row mirror) {now : ℤ} {incoming : RunRow}
    {expectedAttempt : Int32} (done : reopenRow now incoming expectedAttempt row = .ok row') :
    ∃ mirror', reopenRow now incoming expectedAttempt mirror = .ok mirror' ∧
      SameControl row' mirror' := by
  obtain ⟨guards, rfl⟩ := reopenRow_ok done
  have reopenable : ensureReopenable mirror expectedAttempt = .ok () := by
    rw [ensureReopenable_ok, ← same.status, ← same.attempt]
    exact ⟨guards.retryable, guards.expected⟩
  have unchanged : identityChanged mirror incoming = false := by
    rw [identityChanged_eq, ← same.identity, ← identityChanged_eq]
    exact guards.identity
  have payload : ensureReopenPayload mirror incoming expectedAttempt = .ok () := by
    simp only [ensureReopenPayload, bind_eq_ok, refuseIf_eq_ok, guards.queued, guards.advanced,
      guards.noWorker, guards.noToken, guards.notStarted, guards.notEnded, unchanged, ne_eq,
      not_true_eq_false, or_self, not_false_eq_true, exists_const, Bool.false_eq_true, and_self]
  exact ⟨_, bind_eq_ok.mpr ⟨_, reopenable, bind_eq_ok.mpr ⟨_, payload, rfl⟩⟩,
    ⟨rfl, rfl, rfl, rfl, canonicalPayload_congr rfl⟩⟩

/-- **Mirroring.** A transition that succeeds on a row succeeds on every row the
guards do not tell from it, and leaves rows they do not tell apart. -/
theorem SameControl.exec (same : SameControl row mirror) {op : RowOp} (plain : op.isUpdate = false)
    (done : op.exec row = .ok row') :
    ∃ mirror', op.exec mirror = .ok mirror' ∧ SameControl row' mirror' := by
  cases op with
  | claim => exact same.claim done
  | write =>
      obtain ⟨⟨_, _⟩, written, rfl⟩ := map_eq_ok.mp done
      obtain ⟨_, mirror', written', related⟩ := same.write written
      exact ⟨mirror', map_eq_ok.mpr ⟨_, written', rfl⟩, related⟩
  | cancel => exact same.cancel done
  | sweep => exact same.sweep done
  | reopen => exact same.reopen done
  | update => cases plain
  | progress now message ts =>
      cases done
      refine ⟨_, rfl, ?_⟩
      have kept (stored : RunRow) : SameControl (progressRow now message ts stored) stored := by
        unfold progressRow
        split <;> exact ⟨rfl, rfl, rfl, rfl, canonicalPayload_congr rfl⟩
      exact (kept row).trans (same.trans (kept mirror).symm)

end Mirror

theorem runRowFromJSON_document {now : ℤ} {runJSON : RawJson} {row : RunRow}
    (parsed : runRowFromJSON now runJSON = .ok row) :
    ∃ payload : JsonMap, row.runJSON = marshalJSON payload := by
  obtain ⟨_, _, parsed⟩ := bind_eq_ok.mp parsed
  obtain ⟨_, _, parsed⟩ := bind_eq_ok.mp parsed
  obtain ⟨_, _, parsed⟩ := bind_eq_ok.mp parsed
  cases parsed
  exact ⟨_, rfl⟩

theorem RowOp.exec_identity {op : RowOp} {row row' : RunRow} (plain : op.isUpdate = false)
    (parsed : op.FromDocument) (done : op.exec row = .ok row') :
    row'.identity = row.identity ∧
      ((canonicalPayload row).isOk = true → (canonicalPayload row').isOk = true) := by
  cases op with
  | claim =>
      obtain ⟨_, _, rfl⟩ := claimRow_ok done
      exact ⟨rfl, fun _ => canonicalPayload_of_marshal rfl⟩
  | write =>
      obtain ⟨⟨_, _⟩, written, rfl⟩ := map_eq_ok.mp done
      obtain ⟨_, _, _, _, _, _, _, _, _, rfl⟩ := writeResultRow_ok written
      exact ⟨rfl, fun _ => canonicalPayload_of_marshal rfl⟩
  | cancel =>
      obtain ⟨_, rfl⟩ | ⟨_, _, rfl⟩ := cancelRunRowTx_ok done
      · exact ⟨rfl, id⟩
      · exact ⟨rfl, fun _ => canonicalPayload_of_marshal rfl⟩
  | sweep =>
      obtain ⟨_, rfl⟩ | ⟨_, _, _, rfl⟩ := failStaleRunTx_ok done
      · exact ⟨rfl, id⟩
      · exact ⟨rfl, fun _ => canonicalPayload_of_marshal rfl⟩
  | reopen =>
      obtain ⟨guards, rfl⟩ := reopenRow_ok done
      obtain ⟨_, parsed⟩ := parsed
      obtain ⟨_, document⟩ := runRowFromJSON_document parsed
      have unchanged := guards.identity
      rw [identityChanged_eq, decide_eq_false_iff_not, not_not] at unchanged
      exact ⟨unchanged, fun _ => canonicalPayload_of_marshal document⟩
  | update => cases plain
  | progress =>
      cases done
      unfold progressRow
      split
      · refine ⟨rfl, fun readable => ?_⟩
        rw [← readable]
        exact canonicalPayload_congr rfl
      · exact ⟨rfl, id⟩

theorem TaskRun.ofRow_some {row : RunRow} {run : TaskRun} (read : TaskRun.ofRow row = some run) :
    run.identity = row.identity ∧ run.status ∈ taskStatuses ∧
      (canonicalPayload row).isOk = true := by
  unfold TaskRun.ofRow at read
  split at read
  · cases read
  · next payload readable =>
    split at read
    · next valid =>
      cases read
      exact ⟨rfl, valid.1, by rw [readable]; rfl⟩
    · cases read

@[simp] theorem SnapshotEdit.apply_columns (edit : SnapshotEdit) (run : TaskRun) :
    (edit.apply run).status = run.status ∧ (edit.apply run).attempt = run.attempt ∧
      (edit.apply run).fencingToken = run.fencingToken ∧ (edit.apply run).identity = run.identity := by
  cases edit with
  | release => exact ⟨rfl, rfl, rfl, rfl⟩
  | stage _ _ sandbox => cases sandbox <;> exact ⟨rfl, rfl, rfl, rfl⟩

/-- An update that is refused, or finds the columns as its snapshot has them, leaves a
row the guards do not tell from the old one. -/
theorem saveSnapshot_same {now : ℤ} {run : TaskRun} {row : RunRow}
    (named : run.status ∈ taskStatuses) (placed : run.identity = row.identity)
    (readable : (canonicalPayload row).isOk = true)
    (harmless : protectTerminalStatus row.status run.status = false ∨
      (run.status = row.status ∧ run.attempt = row.attempt ∧ run.attempt ≠ 0 ∧
        run.fencingToken = row.fencingToken)) :
    SameControl (saveSnapshot now run row) row := by
  unfold saveSnapshot
  cases accepted : runRowFromJSON now (.doc run.dump false) with
  | error _ => exact ⟨rfl, rfl, rfl, rfl, rfl⟩
  | ok incoming =>
      obtain ⟨status, attempt, token, _, batchID, key, index, taskID, conversation, turn, _, document⟩ :=
        TaskRun.row_of_dump accepted
      rw [if_neg (text_ne_empty named)] at status
      dsimp only
      unfold updateRow
      split
      · next admitted =>
        obtain ⟨sameStatus, sameAttempt, nonzero, sameToken⟩ := harmless.resolve_left (by
          rw [status] at admitted
          simp [admitted])
        rw [if_neg nonzero] at attempt
        refine ⟨status.trans sameStatus, attempt.trans sameAttempt, token.trans sameToken, ?_, ?_⟩
        · rw [← placed]
          simp only [RunRow.identity, TaskRun.identity, runUpdateMap, batchID, key, index, taskID,
            conversation, turn]
        · rw [readable]
          exact canonicalPayload_of_marshal document
      · exact ⟨rfl, rfl, rfl, rfl, rfl⟩

/-- The run beside its mirror: the guards do not tell them apart, and every snapshot
that is out names the same run. -/
structure Tracks (state : SnapshotState) (mirror : RunRow) : Prop where
  same : SameControl state.row mirror
  held : ∀ holder run, state.held holder = some run → run.identity = state.row.identity ∧
    run.status ∈ taskStatuses ∧ (canonicalPayload state.row).isOk = true

theorem Tracks.step {source target : SnapshotState} {label : SnapshotStep} {mirror : RunRow}
    (tracks : Tracks source mirror) (harmless : Harmless source label)
    (step : snapshotSystem.step source label target) :
    ∃ reflected, runSystem.Run mirror label.transitions reflected ∧ Tracks target reflected := by
  cases label with
  | store op =>
      obtain ⟨plain, parsed, row, done, rfl⟩ := step
      obtain ⟨mirror', done', related⟩ := tracks.same.exec plain done
      obtain ⟨identity, readable⟩ := RowOp.exec_identity plain parsed done
      refine ⟨mirror', .snoc .nil done', related, ?_⟩
      intro holder run out
      obtain ⟨placed, named, read⟩ := tracks.held holder run out
      exact ⟨placed.trans identity.symm, named, readable read⟩
  | read holder =>
      obtain ⟨run, read, rfl⟩ := step
      refine ⟨mirror, .nil, tracks.same, ?_⟩
      intro other run' out
      dsimp only at out
      by_cases here : other = holder
      · subst here
        rw [Function.update_self] at out
        obtain rfl := Option.some.inj out
        exact TaskRun.ofRow_some read
      · rw [Function.update_of_ne here] at out
        exact tracks.held other run' out
  | save holder now edit =>
      obtain ⟨run, out, rfl⟩ := step
      obtain ⟨placed, named, readable⟩ := tracks.held holder run out
      obtain ⟨status, attempt, token, identity⟩ := edit.apply_columns run
      have saved : SameControl (saveSnapshot now (edit.apply run) source.row) source.row := by
        refine saveSnapshot_same (status ▸ named) (identity.trans placed) readable ?_
        rw [status, attempt, token]
        exact harmless run out
      refine ⟨mirror, .nil, saved.trans tracks.same, ?_⟩
      intro other run' out'
      dsimp only at out'
      by_cases here : other = holder
      · subst here
        simp at out'
      · rw [Function.update_of_ne here] at out'
        obtain ⟨placed', named', readable'⟩ := tracks.held other run' out'
        exact ⟨placed'.trans saved.identity.symm, named', saved.document.trans readable'⟩

/-- **Harmless updates leave no trace.** In every run whose updates are all refused or
find status, attempt and token as their snapshots have them, with an attempt other than
zero, the run ends with the status, attempt and token it has when the same transitions
happen without any read-modify-write. -/
theorem harmless_updates_erase {start : RunRow} {labels : List SnapshotStep}
    {final : SnapshotState}
    (run : (snapshotSystem.restrict Harmless).Run ⟨start, fun _ => none⟩ labels final) :
    ∃ mirror, runSystem.Run start (labels.flatMap SnapshotStep.transitions) mirror ∧
      final.row.status = mirror.status ∧ final.row.attempt = mirror.attempt ∧
      final.row.fencingToken = mirror.fencingToken := by
  have initial : Tracks ⟨start, fun _ => none⟩ start :=
    ⟨⟨rfl, rfl, rfl, rfl, rfl⟩, fun _ _ out => nomatch out⟩
  obtain ⟨mirror, mirrored, tracks⟩ := run.simulate Tracks SnapshotStep.transitions
    (fun source label target mirror tracks
      (step : Harmless source label ∧ snapshotSystem.step source label target) =>
        tracks.step step.1 step.2) initial
  exact ⟨mirror, mirrored, tracks.same.status, tracks.same.attempt, tracks.same.token⟩

/-- A queued run whose sandbox is released between its creation and a claim. -/
theorem harmless_updates_erase_release :
    ∃ final mirror, (snapshotSystem.restrict Harmless).Run
        ⟨RunRow.fresh "run" "batch", fun _ => none⟩
        [.read 0, .save 0 6 (.release true "clean"), .store (.claim 7 "token" "worker")] final ∧
      final.row.status = .running ∧ final.row.fencingToken = "token" ∧
      runSystem.Run (RunRow.fresh "run" "batch") [.claim 7 "token" "worker"] mirror ∧
      final.row.status = mirror.status ∧ final.row.attempt = mirror.attempt ∧
      final.row.fencingToken = mirror.fencingToken := by
  obtain ⟨final, run, status, token⟩ : ∃ final, (snapshotSystem.restrict Harmless).Run
      ⟨RunRow.fresh "run" "batch", fun _ => none⟩
      [.read 0, .save 0 6 (.release true "clean"), .store (.claim 7 "token" "worker")] final ∧
      final.row.status = .running ∧ final.row.fencingToken = "token" := by
    have unchanged : Harmless ⟨RunRow.fresh "run" "batch", Function.update (fun _ => none) 0
        (TaskRun.ofRow (RunRow.fresh "run" "batch"))⟩ (.save 0 6 (.release true "clean")) := by
      intro run out
      cases out
      exact .inr (by decide)
    exact ⟨_, .cons ⟨trivial, _, rfl, rfl⟩ (.cons ⟨unchanged, _, rfl, rfl⟩
      (.cons ⟨trivial, rfl, trivial, _, rfl, rfl⟩ .nil)), rfl, rfl⟩
  obtain ⟨mirror, mirrored, same⟩ := harmless_updates_erase run
  exact ⟨final, mirror, run, status, token, mirrored, same⟩

/-- A snapshot taken before a claim and written back after it queues the run again and
takes away the token of its worker. -/
theorem stale_snapshot_undoes_claim :
    ∃ final mirror, snapshotSystem.Run ⟨RunRow.fresh "run" "batch", fun _ => none⟩
        [.read 0, .store (.claim 5 "token" "worker"), .save 0 6 (.release true "clean")] final ∧
      runSystem.Run (RunRow.fresh "run" "batch") [.claim 5 "token" "worker"] mirror ∧
      mirror.status = .running ∧ mirror.fencingToken = "token" ∧
      final.row.status = .queued ∧ final.row.fencingToken = "" := by
  exact ⟨_, _, .cons ⟨_, rfl, rfl⟩ (.cons ⟨rfl, trivial, _, rfl, rfl⟩ (.cons ⟨_, rfl, rfl⟩ .nil)),
    .cons rfl .nil, rfl, rfl, rfl, rfl⟩

end Sico.TaskRuntime

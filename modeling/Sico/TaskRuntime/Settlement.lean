import Sico.TaskRuntime.CoordinatorCalls

/-! # How a run is settled

The routines of the coordinator that settle a run: cancelling it, persisting a result,
giving it up after a timeout, waiting for another owner. Where one hands on a result, the
stored run, if it is settled, has that status (`Agrees`).
-/

namespace Sico.TaskRuntime

open Foundation Surroundings Routine

/-- A result says what the store says, if the run is settled. -/
def Agrees (result : TaskResult) (row : RunRow) : Prop :=
  row.status ∈ terminalRunStatuses → result.status = row.status

section Routines

variable {row : RunRow}

theorem Evolves.stays {row' : RunRow} (moved : Evolves row row') {status : Status}
    (terminal : status ∈ terminalRunStatuses) (settled : row.status = status) :
    row'.status = status :=
  (moved.settled (settled ▸ terminal)).trans settled

theorem within_claimAndWrite (readable : Readable row) {result : TaskResult} (known : result.Known)
    (workerID : String) :
    Within (fun outcome row' => Evolves row row' ∧
      (outcome = .ok () → row'.status = result.status ∧ result.status ∈ terminalRunStatuses) ∧
      ∀ error, outcome = .error error → (∃ message, error = .staleWorker message) ∨
        row'.status ∉ terminalRunStatuses)
      (claimAndWrite workerID result) row := by
  refine (within_claimRun readable workerID).bind ?_ ?_
  · rintro token row' ⟨moved, _⟩
    refine (within_writeResult (moved.readable readable) known token).mono ?_
    rintro outcome row'' ⟨further, written⟩
    exact ⟨moved.trans further, written⟩
  · rintro error row' ⟨moved, stale⟩
    refine ⟨moved, by simp, ?_⟩
    rintro error' ⟨⟩
    exact .inl (stale error rfl)

theorem within_suppressed_cancelRun (readable : Readable row) (reason : String) :
    Within (fun _ row' => Evolves row row' ∧ row'.status = .cancelled)
      (onException (cancelRun reason) (pure ())) row := by
  refine (within_cancelRun readable reason).handle ?_
  rintro outcome row' reached
  split <;> exact reached

theorem within_suppressed_getRun :
    Within (fun _ row' => Evolves row row') (onException (do let _ ← getRun) (pure ())) row := by
  have read : Within (fun _ row' => Evolves row row') (do let _ ← getRun) row :=
    within_getRun.bind (fun _ _ moved => moved) fun _ _ moved => moved
  refine read.handle fun outcome row' moved => ?_
  split <;> exact moved

theorem within_cancel_stale (readable : Readable row) {result : TaskResult} (known : result.Known)
    (cancelled : result.status = .cancelled) (reason : String) :
    Within (fun outcome row' => Evolves row row' ∧ (outcome = .ok () → row'.status = .cancelled))
      (onStale (claimAndWrite "task-manager" result) (onException (cancelRun reason) (pure ())))
      row := by
  refine (within_claimAndWrite readable known "task-manager").handle ?_
  rintro outcome row₁ ⟨moved₁, written, _⟩
  split
  · refine (within_suppressed_cancelRun (moved₁.readable readable) reason).mono ?_
    rintro _ row₂ ⟨moved₂, settled⟩
    exact ⟨moved₁.trans moved₂, fun _ => settled⟩
  · exact ⟨moved₁, fun done => by cases done⟩
  · exact ⟨moved₁, fun done => (written done).1.trans cancelled⟩

theorem within_markRunCancelled (readable : Readable row) (run : ScheduledRun) (reason : String) :
    Within (fun outcome row' => Evolves row row' ∧
      ∀ result, outcome = .ok result → result.status = .cancelled ∧ row'.status = .cancelled)
      (markRunCancelled run reason) row := by
  refine within_ask .now trivial fun time row₁ moved₁ _ => ?_
  refine (within_cancel_stale (moved₁.readable readable) (cancelledResult_known time run reason) rfl
    reason).bind ?_ ?_
  · rintro ⟨⟩ row₂ ⟨moved₂, settled⟩
    refine within_suppressed_getRun.bind (fun _ row₃ moved₃ => ?_) fun _ row₃ moved₃ => ?_
    · refine within_ask (.markRunTerminal _ _ _) trivial fun _ row₄ moved₄ _ => ?_
      refine ⟨moved₁.trans (moved₂.trans (moved₃.trans moved₄)), ?_⟩
      rintro result ⟨⟩
      exact ⟨rfl, (moved₃.trans moved₄).stays (by decide) (settled rfl)⟩
    · exact ⟨moved₁.trans (moved₂.trans moved₃), by rintro result ⟨⟩⟩
  · rintro error row₂ ⟨moved₂, _⟩
    exact ⟨moved₁.trans moved₂, by rintro result ⟨⟩⟩

theorem within_look (readable : Readable row) (reader : DetailReader) (title : String)
    (result : TaskResult) {post : Except RunError TaskResult → RunRow → Prop}
    {otherwise : Routine TaskResult}
    (settles : ∀ settled row', Evolves row row' → Agrees settled row' → post (.ok settled) row')
    (goesOn : ∀ row', Evolves row row' → row'.status ∉ terminalRunStatuses →
      Within post otherwise row') :
    Within post (do
      let time ← now
      let detail ← getTaskDetail reader
      match settledResultFromDetail time title detail result with
      | some settledResult => return settledResult
      | none => otherwise) row := by
  refine within_ask .now trivial fun time row₁ moved₁ _ => ?_
  refine (within_getTaskDetail (moved₁.readable readable) reader).bind ?_ ?_
  · rintro detail row₂ ⟨moved₂, _, _, ⟨⟩, read⟩
    split
    · next settled here =>
      exact settles settled row₂ (moved₁.trans moved₂) fun _ => (settledResultFromDetail_some read here).2
    · next here =>
      exact goesOn row₂ (moved₁.trans moved₂) (settledResultFromDetail_none read here)
  · rintro error row₂ ⟨_, _, _, impossible, _⟩
    cases impossible

/-- **Persisting.** A result that is handed on is the stored one, and where nothing
could be persisted the run was not settled. -/
theorem within_ensureResultPersisted (readable : Readable row) (run : ScheduledRun)
    {result : TaskResult} (known : result.Known) :
    Within (fun outcome row' => Evolves row row' ∧
      (∀ settled, outcome = .ok settled → Agrees settled row') ∧
      ∀ error, outcome = .error error → row'.status ∉ terminalRunStatuses)
      (ensureResultPersisted run result) row := by
  refine within_look readable _ _ _ (fun settled row₁ moved₁ agrees => ?_) fun row₁ moved₁ _ => ?_
  · exact ⟨moved₁, by rintro _ ⟨⟩; exact agrees, by rintro error ⟨⟩⟩
  · refine (within_claimAndWrite (moved₁.readable readable) known "task-manager").handle ?_
    rintro outcome row₂ ⟨moved₂, written, refused⟩
    have moved := moved₁.trans moved₂
    split
    · refine within_look (moved.readable readable) _ _ _ (fun settled row₃ moved₃ agrees => ?_)
        fun row₃ moved₃ unsettled => ?_
      · exact ⟨moved.trans moved₃, by rintro _ ⟨⟩; exact agrees, by rintro error ⟨⟩⟩
      · exact ⟨moved.trans moved₃, by rintro settled ⟨⟩, fun _ _ => unsettled⟩
    · next error stale =>
      refine ⟨moved, by rintro settled ⟨⟩, ?_⟩
      rintro _ ⟨⟩
      exact (refused error rfl).resolve_left fun ⟨message, same⟩ => stale message (by rw [same])
    · refine ⟨moved, ?_, by rintro error ⟨⟩⟩
      rintro _ ⟨⟩ _
      exact (written rfl).1.symm

theorem within_suppressed_look (readable : Readable row) (reader : DetailReader) :
    Within (fun outcome row' => Evolves row row' ∧ Consistent (.getTaskDetail reader) row' ∧
      ∃ detail, outcome = .ok (some detail) ∧ DetailOf row' detail)
      (onException (do return some (← getTaskDetail reader)) (pure none)) row := by
  have looked : Within (fun outcome row' => Evolves row row' ∧
      Consistent (.getTaskDetail reader) row' ∧
        ∃ detail, outcome = .ok (some detail) ∧ DetailOf row' detail)
      (do return some (← getTaskDetail reader)) row := by
    refine (within_getTaskDetail readable reader).bind ?_ ?_
    · rintro detail row' ⟨moved, consistent, _, ⟨⟩, read⟩
      exact ⟨moved, consistent, detail, rfl, read⟩
    · rintro error row' ⟨_, _, _, impossible, _⟩
      cases impossible
  refine looked.handle fun outcome row' reached => ?_
  split
  · exact reached
  · obtain ⟨_, _, _, impossible, _⟩ := reached
    cases impossible
  · exact reached

theorem within_ensureCancelledState (readable : Readable row) (result : TaskResult) :
    Within (fun _ row' => Evolves row row' ∧ row'.status = .cancelled)
      (ensureCancelledState result) row := by
  refine (within_suppressed_look readable _).bind ?_ ?_
  · rintro _ row₁ ⟨moved₁, consistent, detail, ⟨⟩, read⟩
    rw [Option.bind_some]
    split
    · next stored same =>
      obtain ⟨present, terminal, _⟩ := read.settled stored same
      exact ⟨moved₁, consistent _ (if_pos (Option.isSome_iff_ne_none.mpr present)) terminal⟩
    · refine (within_suppressed_cancelRun (moved₁.readable readable) _).mono ?_
      rintro _ row₂ ⟨moved₂, cancelled⟩
      exact ⟨moved₁.trans moved₂, cancelled⟩
  · rintro error row₁ ⟨_, _, _, impossible, _⟩
    cases impossible

theorem within_forceUpdateStrandedRun (run : TaskRun) {result : TaskResult} (known : result.Known) :
    Within (fun _ row' => Evolves row row') (forceUpdateStrandedRun run result) row := by
  intro row' moved _ choice reply row'' served
  cases choice with
  | clock now =>
      have called := Option.some.inj served
      exact moved.trans (storeCall_evolves (.save now _) (strandedRun_known known) called)
  | _ => cases served

theorem within_getRun_or {run : TaskRun} :
    Within (fun _ row' => Evolves row row') (onException getRun (pure run)) row := by
  refine within_getRun.handle fun outcome row' moved => ?_
  split <;> exact moved

theorem within_persistStrandedResult (readable : Readable row) (run : TaskRun) {result : TaskResult}
    (known : result.Known) :
    Within (fun _ row' => Evolves row row') (persistStrandedResult run result) row := by
  have read {row' : RunRow} (moved : Evolves row row') :
      Within (fun _ row'' => Evolves row row'') (onException getRun
        (pure { run with status := result.status, endedAt := result.endedAt })) row' :=
    within_getRun_or.mono fun _ _ further => moved.trans further
  unfold persistStrandedResult
  dsimp only
  split
  · refine (within_claimAndWrite readable known _).handle ?_
    rintro outcome row₁ ⟨moved₁, _⟩
    split
    · exact moved₁
    · exact moved₁
    · exact read moved₁
  · split
    · have write : Within (fun _ row' => Evolves row row')
          (onStale (writeResult result
            ⟨run.runID, run.fencingToken, (timeOr run.startedAt (some run.queuedAt)).getD 0⟩)
            (forceUpdateStrandedRun run result)) row := by
        refine (within_writeResult readable known _).handle ?_
        rintro outcome row₁ ⟨moved₁, _⟩
        split
        · exact (within_forceUpdateStrandedRun run known).mono fun _ _ further => moved₁.trans further
        · exact moved₁
        · exact moved₁
      exact write.bind (fun _ _ moved => read moved) fun _ _ moved => moved
    · split
      · exact (within_forceUpdateStrandedRun run known).bind (fun _ _ moved => read moved)
          fun _ _ moved => moved
      · exact read (.refl row)

theorem within_ensureTimedOutState (readable : Readable row) (run : ScheduledRun)
    {result : TaskResult} (known : result.Known) :
    Within (fun outcome row' => Evolves row row' ∧
      ∀ settled, outcome = .ok settled → Agrees settled row') (ensureTimedOutState run result) row := by
  refine within_ask .now trivial fun time row₁ moved₁ _ => ?_
  refine (within_suppressed_look (moved₁.readable readable) _).bind ?_ ?_
  · rintro _ row₂ ⟨moved₂, _, detail, ⟨⟩, read⟩
    have moved := moved₁.trans moved₂
    rw [Option.bind_some]
    split
    · next settled here =>
      refine ⟨moved, ?_⟩
      rintro _ ⟨⟩ _
      exact (settledResultFromDetail_some read here).2
    · refine (within_persistStrandedResult (moved.readable readable) _ known).bind ?_ ?_
      · intro _ row₃ moved₃
        refine within_ask .now trivial fun time row₄ moved₄ _ => ?_
        have moved := moved.trans (moved₃.trans moved₄)
        refine (within_getTaskDetail (moved.readable readable) _).handle ?_
        rintro _ row₅ ⟨moved₅, _, detail, rfl, read⟩
        refine ⟨moved.trans moved₅, ?_⟩
        rintro _ ⟨⟩ terminal
        cases here : settledResultFromDetail time run.title detail result with
        | none => exact absurd terminal (settledResultFromDetail_none read here)
        | some settled => exact (settledResultFromDetail_some read here).2
      · exact fun _ _ moved₃ => ⟨moved.trans moved₃, by rintro settled ⟨⟩⟩
  · rintro error row₂ ⟨_, _, _, impossible, _⟩
    cases impossible

theorem within_waitForExecution (readable : Readable row) (run : ScheduledRun) :
    Within (fun outcome row' => Evolves row row' ∧ ∀ result, outcome = .ok result → result.Known)
      (waitForExecution run) row := by
  refine within_ask (.firstCompleted _) trivial fun first row₁ moved₁ _ => ?_
  cases (first : Finished) with
  | executor =>
      refine within_awaitExecutor.mono ?_
      rintro outcome row₂ ⟨moved₂, known⟩
      exact ⟨moved₁.trans moved₂, known⟩
  | planCancelled =>
      refine within_ask (.runStage _) trivial fun _ row₂ moved₂ _ => ?_
      refine within_ask .cancelExecutor trivial fun _ row₃ moved₃ _ => ?_
      have moved := moved₁.trans (moved₂.trans moved₃)
      refine (?_ : Within (fun outcome row' => Evolves row row' ∧
        ∀ result, outcome = .ok result → result.Known) _ row₃).bind ?_ ?_
      · refine within_awaitExecutor.handle ?_
        rintro outcome row₄ ⟨moved₄, known⟩
        split
        · refine within_ask .now trivial fun time row₅ moved₅ _ => ?_
          exact ⟨moved.trans (moved₄.trans moved₅), by rintro _ ⟨⟩; exact cancelledResult_known ..⟩
        · refine within_ask .now trivial fun time row₅ moved₅ _ => ?_
          exact ⟨moved.trans (moved₄.trans moved₅), by rintro _ ⟨⟩; exact cancelledResult_known ..⟩
        · exact ⟨moved.trans moved₄, by rintro result ⟨⟩⟩
        · exact ⟨moved.trans moved₄, known⟩
      · rintro result row₄ ⟨moved₄, known⟩
        split
        · refine (within_suppressed_cancelRun (moved₄.readable readable) _).bind ?_ ?_
          · rintro _ row₅ ⟨moved₅, _⟩
            exact ⟨moved₄.trans moved₅, known⟩
          · rintro error row₅ ⟨moved₅, _⟩
            exact ⟨moved₄.trans moved₅, by rintro result ⟨⟩⟩
        · exact ⟨moved₄, known⟩
      · rintro error row₄ ⟨moved₄, _⟩
        exact ⟨moved₄, by rintro result ⟨⟩⟩
  | pollFailed error => exact ⟨moved₁, by rintro result ⟨⟩⟩
  | timeout =>
      refine within_ask .cancelExecutor trivial fun _ row₂ moved₂ _ => ?_
      have waited : Within (fun _ row₃ => Evolves row row₃)
          (awaitExecutor.handle fun _ => pure ()) row₂ :=
        within_awaitExecutor.handle fun _ row₃ reached => moved₁.trans (moved₂.trans reached.1)
      refine waited.bind (fun _ row₃ moved₃ => ?_) fun _ row₃ moved₃ => ⟨moved₃, by rintro result ⟨⟩⟩
      refine within_ask .now trivial fun time row₄ moved₄ _ => ⟨moved₃.trans moved₄, ?_⟩
      rintro result ⟨⟩
      exact elapsedResult_known (by decide) (by decide) time run _

theorem within_settleExecution (readable : Readable row) (run : ScheduledRun) {result : TaskResult}
    (known : result.Known) :
    Within (fun outcome row' => Evolves row row' ∧
      ∀ settled, outcome = .ok settled → Agrees settled row') (settleExecution run result) row := by
  unfold settleExecution
  split
  · next cancelled =>
    refine (within_ensureCancelledState readable result).bind ?_ ?_
    · rintro _ row₁ ⟨moved₁, stored⟩
      refine ⟨moved₁, ?_⟩
      rintro _ ⟨⟩ _
      exact cancelled.trans stored.symm
    · exact fun _ _ reached => ⟨reached.1, by rintro settled ⟨⟩⟩
  · split
    · exact within_ensureTimedOutState readable run known
    · refine (within_ensureResultPersisted readable run known).mono ?_
      rintro outcome row₁ ⟨moved₁, agrees, _⟩
      exact ⟨moved₁, agrees⟩

theorem within_executeWithProgress (readable : Readable row) (run : ScheduledRun) :
    Within (fun outcome row' => Evolves row row' ∧
      ∀ settled, outcome = .ok settled → Agrees settled row') (executeWithProgress run) row := by
  refine (?_ : Within (fun _ row' => Evolves row row') (reportExecution run) row).bind ?_ ?_
  · unfold reportExecution
    split
    · exact within_ask (.runStage _) trivial fun _ _ moved _ => moved
    · refine within_ask (.runStage _) trivial fun _ _ moved₁ _ => ?_
      exact within_ask (.runStage _) trivial fun _ _ moved₂ _ => moved₁.trans moved₂
  · intro _ row₁ moved₁
    refine (?_ : Within (fun outcome row' => Evolves row row' ∧
      ∀ result, outcome = .ok result → result.Known) _ row₁).bind ?_ ?_
    · refine (within_waitForExecution (moved₁.readable readable) run).handle ?_
      rintro outcome row₂ ⟨moved₂, known⟩
      refine within_ask .stopTasks trivial fun _ row₃ moved₃ _ => ?_
      exact ⟨moved₁.trans (moved₂.trans moved₃), known⟩
    · rintro result row₂ ⟨moved₂, known⟩
      refine (within_settleExecution (moved₂.readable readable) run (known result rfl)).mono ?_
      rintro outcome row₃ ⟨moved₃, agrees⟩
      exact ⟨moved₂.trans moved₃, agrees⟩
    · exact fun _ _ reached => ⟨reached.1, by rintro settled ⟨⟩⟩
  · exact fun _ _ moved => ⟨moved, by rintro settled ⟨⟩⟩

theorem within_settleWith (readable : Readable row) {result : TaskResult} (known : result.Known) :
    Within (fun outcome row' => Evolves row row' ∧
      ∀ settled, outcome = .ok settled → Agrees settled row') (settleWith result) row := by
  refine (within_claimAndWrite readable known _).bind ?_ ?_
  · rintro _ row₁ ⟨moved₁, written, _⟩
    refine within_ask (.markRunTerminal _ _ _) trivial fun _ row₂ moved₂ _ => ?_
    obtain ⟨stored, terminal⟩ := written rfl
    refine ⟨moved₁.trans moved₂, ?_⟩
    rintro _ ⟨⟩ _
    exact (moved₂.stays terminal stored).symm
  · exact fun _ _ reached => ⟨reached.1, by rintro settled ⟨⟩⟩

/-- **Waiting.** A wait hands on the stored result, or gives up on a run that is not settled
otherwise than blocked. -/
theorem within_pollExistingRun (readable : Readable row) (polls : ℕ) :
    Within (fun outcome row' => Evolves row row' ∧ ∀ found, outcome = .ok found →
      match found with
      | some result => Agrees result row'
      | none => row'.status ∈ terminalRunStatuses → row'.status = .blocked)
      (pollExistingRun polls) row := by
  induction polls generalizing row with
  | zero =>
      refine within_ask .deadlinePassed trivial fun _ row₁ moved₁ consistent => ?_
      refine ⟨moved₁, ?_⟩
      rintro _ ⟨⟩
      exact consistent _ rfl
  | succ polls ih =>
      refine (within_getTaskDetail readable _).bind ?_ ?_
      · rintro detail row₁ ⟨moved₁, consistent, _, ⟨⟩, read⟩
        split
        · next result stored =>
          refine ⟨moved₁, ?_⟩
          rintro _ ⟨⟩ _
          exact (read.settled result stored).2.2
        · next missing =>
          split
          · refine ⟨moved₁, ?_⟩
            rintro _ ⟨⟩ terminal
            exact consistent _ (if_neg (by simp [read.unsettled missing])) terminal
          · refine (ih (moved₁.readable readable)).mono ?_
            rintro outcome row₂ ⟨moved₂, found⟩
            exact ⟨moved₁.trans moved₂, found⟩
      · rintro error row₁ ⟨_, _, _, impossible, _⟩
        cases impossible

end Routines

end Sico.TaskRuntime

import Sico.TaskRuntime.Settlement

/-! # The reported status and the stored one

What the coordinator returns for a run is the status the store has for it, as long as
other parties leave its cancellations and its waiting alone: the exits that write a result
or read the run again agree with the store whatever others do. The sweep that reclaims a
queued run just before it is cancelled makes the two differ.
-/

namespace Sico.TaskRuntime

open Foundation Surroundings Routine

/-- A returned result agrees with the store. -/
def Reported (outcome : Except RunError TaskResult) (row : RunRow) : Prop :=
  ∀ result, outcome = .ok result → Agrees result row

/-- A routine and what follows it return a result that agrees with the store. -/
def Secured {Value : Type} (routine : Routine Value)
    (next : Except RunError Value → Interaction Request Request.Reply (Except RunError TaskResult))
    (row : RunRow) : Prop :=
  surroundings.Secure Undisturbed Reported (routine.run >>= next) row

section Secured

variable {Value Later : Type} {row : RunRow} {routine : Routine Value}

theorem move_evolves {row' : RunRow} {move : StoreMove}
    (moved : surroundings.move row move = some row') : Evolves row row' := by
  obtain ⟨known, done⟩ := Option.ite_none_right_eq_some.mp moved
  cases performed : move.exec row with
  | error error => simp [performed, Except.toOption] at done
  | ok stored =>
      rw [performed] at done
      cases done
      exact StoreMove.exec_evolves known performed

theorem Within.secured {mid : Except RunError Value → RunRow → Prop}
    {next : Except RunError Value → Interaction Request Request.Reply (Except RunError TaskResult)}
    (within : Within mid routine row)
    (follows : ∀ outcome row', mid outcome row' →
      surroundings.Secure Undisturbed Reported (next outcome) row') :
    Secured routine next row :=
  Ensures.secure Evolves.refl Evolves.trans (fun _ _ _ _ _ moved => move_evolves moved)
    (fun _ request rest _ permitted => permitted request rest rfl) within follows

theorem secured_bind {after : Value → Routine Later}
    {next : Except RunError Later → Interaction Request Request.Reply (Except RunError TaskResult)} :
    Secured (routine >>= after) next row ↔
      Secured routine (fun outcome =>
        match outcome with
        | .ok value => (after value).run >>= next
        | .error error => next (.error error)) row := by
  have same : (routine >>= after).run >>= next = routine.run >>= fun outcome =>
      match outcome with
      | .ok value => (after value).run >>= next
      | .error error => next (.error error) := by
    refine (Interaction.bind_assoc _ _ _).trans (congrArg _ (funext fun outcome => ?_))
    cases outcome <;> rfl
  unfold Secured
  rw [same]

theorem secured_handle {handler : Except RunError Value → Routine Later}
    {next : Except RunError Later → Interaction Request Request.Reply (Except RunError TaskResult)} :
    Secured (routine.handle handler) next row ↔
      Secured routine (fun outcome => (handler outcome).run >>= next) row := by
  have same : (routine.handle handler).run >>= next =
      routine.run >>= fun outcome => (handler outcome).run >>= next :=
    Interaction.bind_assoc _ _ _
  unfold Secured
  rw [same]

theorem secure_closing {program : Interaction Request Request.Reply (Except RunError TaskResult)}
    (status : Status) (closing : program.Closing (fun request => request.isQuiet) (Reports status))
    (kept : row.status ∈ terminalRunStatuses → row.status = status) :
    surroundings.Secure Undisturbed Reported program row := by
  refine Secure.of_closing (fun row => row.status ∈ terminalRunStatuses → row.status = status)
    ?_ ?_ ?_ closing kept
  · intro program closing before move after undisturbed moved kept terminal
    by_cases settled : before.status ∈ terminalRunStatuses
    · exact ((move_evolves moved).settled settled).trans (kept settled)
    · exact undisturbed status after closing settled moved terminal
  · intro request quiet choice before reply after served kept
    have still : request.Still := by cases request <;> trivial
    obtain rfl := serve_still request still served
    exact kept
  · rintro _ row' ⟨result, rfl, rfl⟩ kept other ⟨⟩ terminal
    exact (kept terminal).symm

theorem secure_windUp_error (leaseOutcome : String) (error : RunError) :
    surroundings.Secure Undisturbed Reported (windUp leaseOutcome (.error error)).run row := by
  intro row' _ choice _ reply row'' _
  rintro result ⟨⟩

theorem secure_windUp (leaseOutcome : String) {result : TaskResult} (agrees : Agrees result row) :
    surroundings.Secure Undisturbed Reported (windUp leaseOutcome (.ok result)).run row := by
  refine secure_closing result.status ?_ fun terminal => (agrees terminal).symm
  exact ⟨rfl, fun _ => ⟨rfl, fun _ => ⟨result, rfl, rfl⟩⟩⟩

theorem Within.secured_windUp {routine : Routine TaskResult} (leaseOutcome : String)
    (within : Within (fun outcome row' => Evolves row row' ∧
      ∀ settled, outcome = .ok settled → Agrees settled row') routine row) :
    surroundings.Secure Undisturbed Reported (routine.handle (windUp leaseOutcome)).run row := by
  refine within.secured fun outcome row' reached => ?_
  cases outcome with
  | ok result => exact secure_windUp leaseOutcome (reached.2 result rfl)
  | error error => exact secure_windUp_error leaseOutcome error

theorem secured_ask (request : Request) (still : request.Still) {after : request.Reply → Routine Later}
    {next : Except RunError Later → Interaction Request Request.Reply (Except RunError TaskResult)}
    (follows : ∀ reply row', Evolves row row' → Secured (after reply) next row') :
    Secured (ask request >>= after) next row := by
  have asked : Within (fun outcome row' => ∃ reply, outcome = .ok reply ∧ Evolves row row')
      (ask request) row := by
    intro row' moved _ choice reply row'' served
    obtain rfl := serve_still request still served
    exact ⟨reply, rfl, moved⟩
  refine secured_bind.mpr (asked.secured ?_)
  rintro _ row' ⟨reply, rfl, moved⟩
  exact follows reply row' moved

theorem Within.secured_done {routine : Routine TaskResult}
    (within : Within (fun outcome row' => Evolves row row' ∧
      ∀ settled, outcome = .ok settled → Agrees settled row') routine row) :
    Secured routine .done row :=
  within.secured fun _ _ reached => reached.2

/-- **Internal failures.** What could not be persisted is returned only for a run that was
not settled, and then the coordinator winds up. -/
theorem secure_failInternally (readable : Readable row) (run : ScheduledRun) (error : RunError)
    (leaseOutcome : String) :
    surroundings.Secure Undisturbed Reported
      ((failInternally run error).handle (windUp leaseOutcome)).run row := by
  refine (secured_ask .now trivial fun time row₁ moved₁ => ?_ :
    Secured (failInternally run error) (fun outcome => (windUp leaseOutcome outcome).run) row)
  refine secured_bind.mpr ((?_ : Within (fun outcome row' =>
    ∀ result, outcome = .ok result → Agrees result row') _ row₁).secured ?_)
  · refine (within_ensureResultPersisted (moved₁.readable readable) run
      (internalFailureResult_known time _ _)).handle ?_
    rintro outcome row₂ ⟨_, agrees, unsettled⟩
    split
    · rintro result ⟨⟩
    · next error _ =>
      rintro result ⟨⟩ terminal
      exact absurd terminal (unsettled error rfl)
    · exact agrees
  · intro outcome row₂ agrees
    cases outcome with
    | ok result =>
        refine secure_closing result.status ?_ fun terminal => (agrees result rfl terminal).symm
        exact ⟨rfl, fun _ => ⟨rfl, fun _ => ⟨rfl, fun _ => ⟨result, rfl, rfl⟩⟩⟩⟩
    | error error => exact secure_windUp_error leaseOutcome error

theorem Within.cancelled_agrees {routine : Routine TaskResult}
    (within : Within (fun outcome row' => Evolves row row' ∧ ∀ result, outcome = .ok result →
      result.status = .cancelled ∧ row'.status = .cancelled) routine row) :
    Within (fun outcome row' => Evolves row row' ∧
      ∀ settled, outcome = .ok settled → Agrees settled row') routine row := by
  refine within.mono ?_
  rintro outcome row' ⟨moved, cancelled⟩
  refine ⟨moved, fun settled returned _ => ?_⟩
  exact (cancelled settled returned).1.trans (cancelled settled returned).2.symm

theorem secure_recoverRun (readable : Readable row) (run : ScheduledRun) (error : RunError) :
    surroundings.Secure Undisturbed Reported
      ((recoverRun run error).1.handle (windUp (recoverRun run error).2)).run row := by
  cases error with
  | sandboxNoCapacity message =>
      refine Within.secured_windUp _ (within_ask .now trivial fun time row₁ moved₁ _ => ?_)
      refine (within_settleWith (moved₁.readable readable)
        (instantResult_known (by decide) (by decide) time run message)).mono ?_
      exact fun _ _ reached => ⟨moved₁.trans reached.1, reached.2⟩
  | sandboxUnhealthy message =>
      refine Within.secured_windUp _ (within_ask .now trivial fun time row₁ moved₁ _ => ?_)
      refine (within_settleWith (moved₁.readable readable)
        (elapsedResult_known (by decide) (by decide) time run message)).mono ?_
      exact fun _ _ reached => ⟨moved₁.trans reached.1, reached.2⟩
  | planCancellationRequested =>
      exact (within_markRunCancelled readable run _).cancelled_agrees.secured_windUp "dirty"
  | cancelled => exact secure_windUp_error "dirty" .cancelled
  | staleWorker message => exact secure_failInternally readable run (.staleWorker message) "dirty"
  | other raised => exact secure_failInternally readable run (.other raised) "dirty"

theorem within_acquireRequired (run : ScheduledRun) :
    Within (fun _ row' => Evolves row row') (acquireRequired run) row := by
  unfold acquireRequired
  split
  · refine within_ask (.runStage _) trivial fun _ row₁ moved₁ _ => ?_
    exact within_acquireSandbox.mono fun _ _ moved₂ => moved₁.trans moved₂
  · exact .refl row

theorem secured_attemptRun (readable : Readable row) (run : ScheduledRun) :
    Secured (attemptRun run) (fun outcome => (afterAttempt run outcome).run) row := by
  refine secured_bind.mpr ((within_acquireRequired run).secured fun outcome row₁ moved₁ => ?_)
  cases outcome with
  | error error => exact secure_recoverRun (moved₁.readable readable) run error
  | ok done =>
      refine (secured_ask .isPlanCancelled trivial fun planCancelled row₂ moved₂ => ?_ :
        Secured _ (fun outcome => (afterAttempt run outcome).run) row₁)
      have moved := moved₁.trans moved₂
      split
      · refine secured_bind.mpr ((within_markRunCancelled (moved.readable readable) run
          _).cancelled_agrees.secured ?_)
        rintro outcome row₃ ⟨moved₃, agrees⟩
        cases outcome with
        | ok result => exact secure_windUp "dirty" (agrees result rfl)
        | error error =>
            exact secure_recoverRun ((moved.trans moved₃).readable readable) run error
      · refine secured_bind.mpr ((within_executeWithProgress (moved.readable readable) run).secured ?_)
        rintro outcome row₃ ⟨moved₃, agrees⟩
        cases outcome with
        | ok result =>
            refine secure_closing result.status ?_ fun terminal => (agrees result rfl terminal).symm
            exact ⟨rfl, fun _ => ⟨rfl, fun _ => ⟨rfl, fun _ => ⟨result, rfl, rfl⟩⟩⟩⟩
        | error error =>
            exact secure_recoverRun ((moved.trans moved₃).readable readable) run error

theorem secured_executeRunOnce (readable : Readable row) (run : ScheduledRun) :
    Secured (executeRunOnce run) .done row := by
  refine secured_ask .isPlanCancelled trivial fun planCancelled row₁ moved₁ => ?_
  split
  · exact (within_markRunCancelled (moved₁.readable readable) run _).cancelled_agrees.secured_done
  · split
    · refine Within.secured_done (within_ask .now trivial fun time row₂ moved₂ _ => ?_)
      refine (within_settleWith ((moved₁.trans moved₂).readable readable)
        (instantResult_known (by decide) (by decide) time run _)).mono ?_
      exact fun _ _ reached => ⟨moved₂.trans reached.1, reached.2⟩
    · refine secured_ask (.runStage _) trivial fun _ row₂ moved₂ => ?_
      refine secured_handle.mpr ?_
      simp only [Interaction.bind_done]
      exact secured_attemptRun ((moved₁.trans moved₂).readable readable) run

theorem secured_waitForExistingRun (readable : Readable row) (run : ScheduledRun) :
    Secured (waitForExistingRun run) .done row := by
  refine secured_ask .now trivial fun startedAt row₁ moved₁ => ?_
  refine secured_ask .pollsBeforeDeadline trivial fun polls row₂ moved₂ => ?_
  refine secured_bind.mpr ((within_pollExistingRun ((moved₁.trans moved₂).readable readable)
    polls).secured ?_)
  rintro outcome row₃ ⟨_, found⟩
  cases outcome with
  | error error => rintro result ⟨⟩
  | ok poll =>
      cases poll with
      | some result =>
          refine secure_closing result.status ?_ fun terminal => (found _ rfl terminal).symm
          exact ⟨rfl, fun _ => ⟨result, rfl, rfl⟩⟩
      | none =>
          refine secure_closing .blocked ?_ (found _ rfl)
          exact ⟨rfl, fun _ => ⟨rfl, fun _ => ⟨_, rfl, rfl⟩⟩⟩

theorem secured_execute (readable : Readable row) (run : ScheduledRun) :
    Secured (execute run) .done row := by
  refine secured_bind.mpr ((?_ : Within (fun outcome row' => Evolves row row' ∧
    ∀ result, outcome = .ok (some result) → Agrees result row') (priorResult run) row).secured ?_)
  · unfold priorResult
    split
    · refine (within_getTaskDetail readable _).bind ?_ ?_
      · rintro detail row₁ ⟨moved₁, _, _, ⟨⟩, read⟩
        refine ⟨moved₁, fun result stored _ => ?_⟩
        exact (read.settled result (Except.ok.inj stored)).2.2
      · rintro error row₁ ⟨moved₁, _⟩
        exact ⟨moved₁, by rintro result ⟨⟩⟩
    · exact ⟨.refl row, by rintro result ⟨⟩⟩
  · rintro outcome row₁ ⟨moved₁, agrees⟩
    cases outcome with
    | error error => rintro result ⟨⟩
    | ok settled =>
        cases settled with
        | some result =>
            refine secure_closing result.status ?_ fun terminal => (agrees result rfl terminal).symm
            exact ⟨rfl, fun _ => ⟨result, rfl, rfl⟩⟩
        | none =>
            dsimp only
            split
            · exact secured_waitForExistingRun (moved₁.readable readable) run
            · exact secured_executeRunOnce (moved₁.readable readable) run

end Secured

/-- Steps that are plainly undisturbed: the coordinator's own consistent ones, and those of
others while the coordinator is not winding up. -/
def plainStep (joint : Joint Request Request.Reply (Except RunError TaskResult) RunRow)
    (label : JointStep Choice StoreMove) :
    Option (Joint Request Request.Reply (Except RunError TaskResult) RunRow) :=
  match joint.program, label with
  | .ask request _, .own _ =>
      if Consistent request joint.shared then surroundings.next joint label else none
  | .ask request _, .other _ => if request.isQuiet then none else surroundings.next joint label
  | .done _, _ => none

theorem undisturbed_of_plain
    {joint joint' : Joint Request Request.Reply (Except RunError TaskResult) RunRow}
    {label : JointStep Choice StoreMove} (step : plainStep joint label = some joint') :
    (surroundings.system.restrict Undisturbed).step joint label joint' := by
  obtain ⟨row, program⟩ := joint
  cases program with
  | done outcome => cases step
  | ask request rest =>
      cases label with
      | own choice =>
          obtain ⟨consistent, step⟩ := Option.ite_none_right_eq_some.mp step
          refine ⟨?_, step⟩
          rintro _ _ ⟨⟩
          exact consistent
      | other move =>
          obtain ⟨loud, step⟩ := Option.ite_none_left_eq_some.mp step
          exact ⟨fun _ _ closing => absurd closing.1 loud, step⟩

/-- An execution that completes before a user cancels it. -/
def completedExecution (result : TaskResult) : List (JointStep Choice StoreMove) :=
  [.own (.flag false), .own .only, .own (.flag false), .own .only, .own .only,
    .other (.claim 5 "token" "worker"), .other (.write 6 ⟨"run", "token", 5⟩ result),
    .other (.cancel 7 "user"), .own (.finished .executor), .own (.executed (.ok result)),
    .own .only, .own (.clock 8), .own .only, .own .only, .own (.flag false)]

/-- **The reported status is the stored one.** In every run of undisturbed steps in which
a call of the coordinator returns, a settled run has the status of the returned result. -/
theorem reported_status_stored (call : CoordinatorCall) (run : ScheduledRun) {row : RunRow}
    (readable : Readable row) {labels : List (JointStep Choice StoreMove)} {choice : Choice}
    {final : Joint Request Request.Reply (Except RunError TaskResult) RunRow}
    (reached : (surroundings.system.restrict Undisturbed).Run (call.start run row)
      (labels ++ [JointStep.own choice]) final)
    {result : TaskResult} (returned : final.program = .done (.ok result))
    (terminal : final.shared.status ∈ terminalRunStatuses) :
    result.status = final.shared.status := by
  have secure : surroundings.Secure Undisturbed Reported (call.routine run).run row := by
    cases call with
    | execute =>
        have secured := secured_execute readable run
        rw [Secured, Interaction.bind_done] at secured
        exact secured
    | cancelQueued reason =>
        have secured := (within_markRunCancelled readable run reason).cancelled_agrees.secured_done
        rw [Secured, Interaction.bind_done] at secured
        exact secured
  exact secure.returned reached returned result rfl terminal

theorem reported_status_stored_completed :
    let result : TaskResult := ⟨"run", "", .completed, "", "done", none, "", none, none, none⟩
    ∃ final, (surroundings.system.restrict Undisturbed).Run
        (CoordinatorCall.start .execute (.fresh "run" "batch") (.fresh "run" "batch"))
        (completedExecution result ++ [JointStep.own .only]) final ∧
      final.program = .done (.ok result) ∧ final.shared.status = .completed ∧
        result.status = final.shared.status := by
  intro result
  let start := CoordinatorCall.start .execute (.fresh "run" "batch") (.fresh "run" "batch")
  let final := System.after plainStep start (completedExecution result ++ [JointStep.own .only])
  have plain : (System.ofNext plainStep).Run start (completedExecution result ++ [JointStep.own .only]) final :=
    .ofNext (by decide)
  have reached := plain.mono fun _ _ _ => undisturbed_of_plain
  have returned : final.program = .done (.ok result) :=
    Interaction.eq_done_of_ended (by decide)
  have terminal : final.shared.status ∈ terminalRunStatuses := by decide
  exact ⟨final, reached, returned, by decide,
    reported_status_stored .execute _ (readable_fresh "run" "batch") reached returned terminal⟩

/-- A queued run that the sweep reclaims just before the coordinator cancels it is stored
as blocked and reported as cancelled. -/
theorem reported_status_diverges :
    ¬ ∀ (call : CoordinatorCall) (run : ScheduledRun) (row : RunRow), Readable row →
      ∀ (labels : List (JointStep Choice StoreMove)) (choice : Choice)
        (final : Joint Request Request.Reply (Except RunError TaskResult) RunRow),
        surroundings.system.Run (call.start run row) (labels ++ [JointStep.own choice]) final →
          ∀ result, final.program = .done (.ok result) →
            final.shared.status ∈ terminalRunStatuses → result.status = final.shared.status := by
  intro claim
  have reached : surroundings.system.Run
      (CoordinatorCall.start (.cancelQueued "stop") (.fresh "run" "batch") (.fresh "run" "batch"))
      ([JointStep.own (.clock 5), .other (.sweep 6), .own (.token 7 "token"), .own (.clock 8), .own .only] ++
        [JointStep.own .only]) _ :=
    .ofNext (by decide)
  have stored := claim _ _ _ (readable_fresh "run" "batch") _ _ _ reached
    ⟨"run", "", .cancelled, "", "stop", some "cancelled", "stop", some 5, some 5, some 0⟩
    (Interaction.eq_done_of_ended (by decide)) (by decide)
  revert stored
  decide

end Sico.TaskRuntime

import Sico.Foundation.Interaction
import Sico.TaskRuntime.Scheduler

/-! # Retries

A run whose attempt failed may be tried again. Whether it is decides the attempt of the run that the scheduler holds;
the row of the run is then read afresh, and reopened for the next attempt by a compare-and-set on that number. Between
the reading and the reopening others may claim the run, write its result, cancel it, sweep it, report on it and reopen
it themselves, with whatever payload the store lets through.

The store is the one that keeps each run in a file of its own, every operation on it being one step.
-/

namespace Sico.TaskRuntime.Retries

open Foundation

section Model

structure RetryPolicy where
  maxAttempts : ℤ
  retryOn : List String
  backoffSeconds : ℤ
  deriving Repr, DecidableEq, Inhabited

/-- `TaskRun`, as far as retries and the store read and write it. -/
structure TaskRun where
  runID : String
  batchID : String
  parentConversationID : ℤ
  parentTurnID : ℤ
  batchItemIndex : ℤ
  idempotencyKey : String
  taskID : String
  title : String
  retry : RetryPolicy
  status : Status
  attempt : ℤ
  workerID : Option String
  fencingToken : String
  sandbox : Option String
  sandboxReleased : Bool
  leaseOutcome : String
  queuedAt : ℤ
  startedAt : Option ℤ
  heartbeatAt : Option ℤ
  endedAt : Option ℤ
  latestProgressMessage : String
  latestProgressAt : ℤ
  lastErrorClass : Option String
  lastError : String
  deriving Repr, DecidableEq

instance : Inhabited Status := ⟨.queued⟩

instance : Inhabited TaskRun :=
  ⟨⟨"", "", 0, 0, 0, "", "", "", default, .queued, 1, none, "", none, false, "", 0, none, none, none, "", 0, none, ""⟩⟩

def shouldRetry (run : TaskRun) (result : TaskResult) : Bool :=
  match result.errorClass with
  | none => false
  | some errorClass =>
      result.status ≠ .completed ∧ run.attempt < max 1 run.retry.maxAttempts ∧ errorClass ∈ run.retry.retryOn

def TaskRun.scheduled (run : TaskRun) : BatchRun :=
  ⟨run.runID, run.batchItemIndex, run.taskID, run.title, run.startedAt⟩

def runTransitions : Status → List Status
  | .queued => .running :: terminalRunStatuses
  | .running => terminalRunStatuses
  | .completed => [.completed]
  | .cancelled => [.cancelled]
  | .failed => [.failed, .queued]
  | .timedOut => [.timedOut, .queued]
  | .blocked => [.blocked, .queued]
  | _ => []

inductive StoreError where
  | staleWorker (message : String)
  | invalidTransition (message : String)
  /-- The store could not be reached, or what it holds could not be read. -/
  | other (message : String)
  deriving Repr, DecidableEq

def transitionRun (run : TaskRun) (status : Status) : Except StoreError TaskRun := do
  refuseIf (status ∉ runTransitions run.status)
    (.invalidTransition s!"illegal task transition: {run.status.text} -> {status.text}")
  return { run with status }

def validateReopenPayload (existing incoming : TaskRun) (expectedAttempt : ℤ) : Except StoreError Unit := do
  refuseIf (existing.status ∉ retryableTerminalRunStatuses ∨ existing.attempt ≠ expectedAttempt)
    (.staleWorker (s!"run {existing.runID} cannot be reopened for retry " ++
      s!"(status={existing.status.text}, attempt={existing.attempt}, expected={expectedAttempt})"))
  refuseIf (incoming.status ≠ .queued ∨ incoming.attempt ≠ expectedAttempt + 1)
    (.staleWorker (s!"reopen payload for run {existing.runID} must be queued at attempt {expectedAttempt + 1} " ++
      s!"(got status={incoming.status.text}, attempt={incoming.attempt})"))
  refuseIf (incoming.workerID.any (· ≠ "") ∨ incoming.fencingToken ≠ "" ∨ incoming.startedAt ≠ none ∨
      incoming.endedAt ≠ none)
    (.staleWorker s!"reopen payload for run {existing.runID} must clear worker/fencing/timestamps")
  refuseIf (incoming.runID ≠ existing.runID ∨ incoming.batchID ≠ existing.batchID ∨
      incoming.idempotencyKey ≠ existing.idempotencyKey ∨ incoming.batchItemIndex ≠ existing.batchItemIndex ∨
      incoming.taskID ≠ existing.taskID ∨ incoming.parentConversationID ≠ existing.parentConversationID ∨
      incoming.parentTurnID ≠ existing.parentTurnID)
    (.staleWorker s!"reopen payload for run {existing.runID} must not change identity fields")

/-- An operation of the store on one run, with its arguments and what the clock says. -/
inductive StoreMove where
  | reopenRunForRetry (run : TaskRun) (expectedAttempt : ℤ)
  | claimRun (workerID token : String) (now : ℤ)
  | heartbeat (now : ℤ)
  | setProgress (message : String) (ts : ℤ)
  | writeResult (result : TaskResult) (token : String) (now : ℤ)
  | failStaleRun (result : TaskResult) (workerID : String) (now : ℤ)
  | cancelRun (reason : String) (now : ℤ)
  | updateRun (run : TaskRun)

/-- `x or y` of times. -/
def orTime : Option ℤ → ℤ → Option ℤ
  | some time, other => if time = 0 then some other else some time
  | none, other => some other

/-- What the end of an attempt leaves of its run. -/
def TaskRun.settled (run : TaskRun) (result : TaskResult) (now : ℤ) : TaskRun :=
  { run with
    endedAt := orTime result.endedAt now
    lastErrorClass := result.errorClass
    lastError := result.errorMessage }

/-- The stored run after an operation. -/
def StoreMove.exec : StoreMove → TaskRun → Except StoreError TaskRun
  | reopenRunForRetry run expectedAttempt, stored => do
      validateReopenPayload stored run expectedAttempt
      return run
  | claimRun workerID token now, stored => do
      refuseIf (stored.status ≠ .queued)
        (.staleWorker s!"run {stored.runID} is {stored.status.text} and cannot be claimed")
      let run ← transitionRun { stored with workerID := some workerID, fencingToken := token } .running
      return { run with startedAt := orTime run.startedAt now, heartbeatAt := some now }
  | heartbeat now, stored =>
      return if stored.status.isActive then { stored with heartbeatAt := some now } else stored
  | setProgress message ts, stored =>
      return if ts < stored.latestProgressAt then stored
        else { stored with latestProgressMessage := String.ofList (message.toList.take 1000), latestProgressAt := ts }
  | writeResult result token now, stored => do
      refuseIf (stored.status ≠ .running ∨ stored.fencingToken ≠ token)
        (.staleWorker s!"stale worker token for run {stored.runID}")
      let run ← transitionRun stored result.status
      return { run.settled result now with fencingToken := "" }
  | failStaleRun result workerID now, stored =>
      if stored.status ≠ .running then return stored
      else do
        let run ← transitionRun { stored with workerID := some workerID } result.status
        return run.settled result now
  | cancelRun reason now, stored =>
      if ¬ stored.status.isActive then return stored
      else do
        let run ← transitionRun stored .cancelled
        return { run with
          fencingToken := ""
          lastErrorClass := none
          lastError := reason
          endedAt := orTime run.endedAt now }
  | updateRun run, stored =>
      return if stored.status ∈ terminalRunStatuses ∧ stored.status ≠ run.status then stored else run

/-- A request of `prepare_retry`. -/
inductive Request where
  | sleep (seconds : ℤ)
  | getRun
  | now
  | reopenRunForRetry (run : TaskRun) (expectedAttempt : ℤ)
  | markRetryPending (run : TaskRun)

def Request.Reply : Request → Type
  | sleep _ => Unit
  | getRun => Except StoreError TaskRun
  | now => ℤ
  | reopenRunForRetry _ _ | markRetryPending _ => Except StoreError Unit

/-- What a request leaves to its surroundings. -/
inductive Choice where
  | only
  | clock (now : ℤ)
  /-- The request fails. -/
  | failed (error : StoreError)
  /-- The request is served, and its answer is lost. -/
  | lost (error : StoreError)

/-- How the store answers. -/
def serve : (request : Request) → Choice → TaskRun → Option (request.Reply × TaskRun)
  | .sleep _, .only, stored => some ((), stored)
  | .getRun, .only, stored => some (.ok stored, stored)
  | .getRun, .failed error, stored => some (.error error, stored)
  | .now, .clock now, stored => some (now, stored)
  | .reopenRunForRetry run expectedAttempt, .only, stored =>
      match (StoreMove.reopenRunForRetry run expectedAttempt).exec stored with
      | .ok stored => some (.ok (), stored)
      | .error error => some (.error error, stored)
  | .reopenRunForRetry _ _, .failed error, stored => some (.error error, stored)
  | .reopenRunForRetry run expectedAttempt, .lost error, stored =>
      match (StoreMove.reopenRunForRetry run expectedAttempt).exec stored with
      | .ok stored => some (.error error, stored)
      | .error _ => none
  | .markRetryPending _, .only, stored => some (.ok (), stored)
  | .markRetryPending _, .failed error, stored => some (.error error, stored)
  | _, _, _ => none

/-- What others may do to the row of a run: reopen it with any payload, claim it, report on it, end it, cancel it and
sweep it. Whole runs are written by those alone who execute them. -/
def StoreMove.isForeign : StoreMove → Bool
  | updateRun _ => false
  | _ => true

def moved (stored : TaskRun) (move : StoreMove) : Option TaskRun :=
  if move.isForeign then (move.exec stored).toOption else none

/-- The stored run beside a retry. -/
def surroundings : Surroundings Request Request.Reply TaskRun Choice StoreMove where
  serve := serve
  move := moved

/-- A snapshot of the run that the scheduler holds, as the run's own execution writes it: whatever else changed, it is
of the same attempt under the same policy. -/
structure Snapshot (run snapshot : TaskRun) : Prop where
  runID : snapshot.runID = run.runID
  attempt : snapshot.attempt = run.attempt
  retry : snapshot.retry = run.retry

def nextAttempt (nextRun run : TaskRun) (result : TaskResult) (now : ℤ) : TaskRun :=
  { nextRun with
    attempt := run.attempt + 1
    workerID := none
    fencingToken := ""
    sandbox := none
    sandboxReleased := false
    leaseOutcome := ""
    queuedAt := now
    startedAt := none
    heartbeatAt := none
    endedAt := none
    latestProgressMessage := ""
    latestProgressAt := 0
    lastErrorClass := result.errorClass
    lastError := result.errorMessage }

/-- The end of `prepare_retry`: the reopen. -/
def reopen (nextRun run : TaskRun) : Interaction Request Request.Reply (Except StoreError (Option TaskRun)) :=
  .ask (.reopenRunForRetry nextRun run.attempt) fun
    | .error _ => .done (.ok none)
    | .ok () => .ask (.markRetryPending nextRun) fun
        | .error error => .done (.error error)
        | .ok () => .done (.ok (some nextRun))

/-- What `prepare_retry` does with the run that it read. -/
def requeue (nextRun run : TaskRun) (result : TaskResult) :
    Interaction Request Request.Reply (Except StoreError (Option TaskRun)) :=
  if nextRun.status ∉ retryableTerminalRunStatuses ∨ nextRun.attempt ≠ run.attempt then .done (.ok none)
  else .ask .now fun now =>
    match transitionRun (nextAttempt nextRun run result now) .queued with
    | .error _ => .done (.ok none)
    | .ok nextRun => reopen nextRun run

/-- `prepare_retry`, from where it reads the run. -/
def reopenForRetry (run : TaskRun) (result : TaskResult) :
    Interaction Request Request.Reply (Except StoreError (Option TaskRun)) :=
  .ask .getRun fun
    | .error error => .done (.error error)
    | .ok nextRun => requeue nextRun run result

def prepareRetry (run : TaskRun) (result : TaskResult) :
    Interaction Request Request.Reply (Except StoreError (Option TaskRun)) :=
  let backoffSeconds := max 0 run.retry.backoffSeconds
  if backoffSeconds = 0 then reopenForRetry run result
  else .ask (.sleep backoffSeconds) fun _ => reopenForRetry run result

end Model

section Attempts

/-- The stored run is not behind the run that the scheduler holds, and of the same policy where it is of the same
attempt. -/
structure InStep (run stored : TaskRun) : Prop where
  runID : stored.runID = run.runID
  reached : run.attempt ≤ stored.attempt
  retry : stored.attempt = run.attempt → stored.retry = run.retry

variable {run stored stored' next : TaskRun} {result : TaskResult}

theorem InStep.refl (run : TaskRun) : InStep run run := ⟨rfl, le_rfl, fun _ => rfl⟩

theorem transitionRun_eq_ok {status : Status} :
    transitionRun run status = .ok next ↔ status ∈ runTransitions run.status ∧ next = { run with status } := by
  unfold transitionRun
  simp only [bind_eq_ok, refuseIf_eq_ok, not_not, exists_const]
  exact and_congr_right fun _ => ⟨fun same => (Except.ok.inj same).symm, fun same => congrArg Except.ok same.symm⟩

theorem reopenRunForRetry_eq_ok {incoming : TaskRun} {expectedAttempt : ℤ}
    (done : (StoreMove.reopenRunForRetry incoming expectedAttempt).exec stored = .ok stored') :
    stored' = incoming ∧ incoming.runID = stored.runID ∧ incoming.attempt = stored.attempt + 1 ∧
      stored.attempt = expectedAttempt := by
  obtain ⟨_, valid, same⟩ := bind_eq_ok.mp done
  obtain ⟨_, reopenable, valid⟩ := bind_eq_ok.mp valid
  obtain ⟨_, queued, valid⟩ := bind_eq_ok.mp valid
  obtain ⟨_, _, identity⟩ := bind_eq_ok.mp valid
  simp only [refuseIf_eq_ok, not_or, not_not] at reopenable queued identity
  exact ⟨(Except.ok.inj same).symm, identity.1, by rw [queued.2, reopenable.2], reopenable.2⟩

theorem InStep.kept (inStep : InStep run stored) (runID : stored'.runID = stored.runID)
    (attempt : stored'.attempt = stored.attempt) (retry : stored'.retry = stored.retry) : InStep run stored' where
  runID := runID.trans inStep.runID
  reached := attempt ▸ inStep.reached
  retry same := retry.trans (inStep.retry (attempt ▸ same))

theorem transitionRun_kept {status : Status} (done : transitionRun stored status = .ok stored') :
    stored'.runID = stored.runID ∧ stored'.attempt = stored.attempt ∧ stored'.retry = stored.retry := by
  obtain ⟨_, rfl⟩ := transitionRun_eq_ok.mp done
  exact ⟨rfl, rfl, rfl⟩

theorem InStep.exec {move : StoreMove} (inStep : InStep run stored) (foreign : move.isForeign = true)
    (done : move.exec stored = .ok stored') : InStep run stored' := by
  cases move with
  | reopenRunForRetry incoming expectedAttempt =>
      obtain ⟨rfl, runID, advanced, _⟩ := reopenRunForRetry_eq_ok done
      have reached := inStep.reached
      exact ⟨runID.trans inStep.runID, by omega, fun same => absurd same (by omega)⟩
  | claimRun workerID token now =>
      obtain ⟨_, _, done⟩ := bind_eq_ok.mp done
      obtain ⟨claimed, transition, same⟩ := bind_eq_ok.mp done
      obtain ⟨runID, attempt, retry⟩ := transitionRun_kept transition
      cases same
      exact inStep.kept runID attempt retry
  | heartbeat now =>
      cases done
      split
      · exact ⟨inStep.runID, inStep.reached, inStep.retry⟩
      · exact inStep
  | setProgress message ts =>
      cases done
      split
      · exact inStep
      · exact ⟨inStep.runID, inStep.reached, inStep.retry⟩
  | writeResult result token now =>
      obtain ⟨_, _, done⟩ := bind_eq_ok.mp done
      obtain ⟨settled, transition, same⟩ := bind_eq_ok.mp done
      obtain ⟨runID, attempt, retry⟩ := transitionRun_kept transition
      cases same
      exact inStep.kept runID attempt retry
  | failStaleRun result workerID now =>
      simp only [StoreMove.exec] at done
      split at done
      · cases done
        exact inStep
      · obtain ⟨settled, transition, same⟩ := bind_eq_ok.mp done
        obtain ⟨runID, attempt, retry⟩ := transitionRun_kept transition
        cases same
        exact inStep.kept runID attempt retry
  | cancelRun reason now =>
      simp only [StoreMove.exec] at done
      split at done
      · cases done
        exact inStep
      · obtain ⟨cancelled, transition, same⟩ := bind_eq_ok.mp done
        obtain ⟨runID, attempt, retry⟩ := transitionRun_kept transition
        cases same
        exact inStep.kept runID attempt retry
  | updateRun snapshot => cases foreign

theorem InStep.updateRun {snapshot : TaskRun} (inStep : InStep run stored) (taken : Snapshot run snapshot)
    (done : (StoreMove.updateRun snapshot).exec stored = .ok stored') : InStep run stored' := by
  cases done
  split
  · exact inStep
  · exact ⟨taken.runID, taken.attempt.ge, fun _ => taken.retry⟩

theorem InStep.moved {move : StoreMove} (inStep : InStep run stored) (done : moved stored move = some stored') :
    InStep run stored' := by
  obtain ⟨foreign, done⟩ := Option.ite_none_right_eq_some.mp done
  cases executed : move.exec stored with
  | error error =>
      rw [executed] at done
      cases done
  | ok after =>
      rw [executed] at done
      cases done
      exact inStep.exec foreign executed

theorem InStep.back (inStep : InStep next stored) (runID : next.runID = run.runID)
    (advanced : next.attempt = run.attempt + 1) : InStep run stored where
  runID := inStep.runID.trans runID
  reached := by
    have reached := inStep.reached
    omega
  retry same := by
    have reached := inStep.reached
    omega

/-- How a retry ends: with the next attempt of the run under the same policy, which the stored run is in step with, or
without one. -/
def Ended (run : TaskRun) : Except StoreError (Option TaskRun) → TaskRun → Prop
  | .ok (some next), stored =>
      next.runID = run.runID ∧ next.attempt = run.attempt + 1 ∧ next.retry = run.retry ∧ InStep next stored
  | .ok none, stored | .error _, stored => InStep run stored

theorem inStep_others {allowed : Joint Request Request.Reply (Except StoreError (Option TaskRun)) TaskRun →
      JointStep Choice StoreMove → Prop}
    {program : Interaction Request Request.Reply (Except StoreError (Option TaskRun))}
    (others : surroundings.Others allowed program stored stored') (inStep : InStep run stored) :
    InStep run stored' := by
  induction others with
  | refl => exact inStep
  | tail _ step before =>
      obtain ⟨move, _, done⟩ := step
      exact before.moved done

theorem serve_getRun {choice : Choice} {reply : Except StoreError TaskRun}
    (served : serve .getRun choice stored = some (reply, stored')) :
    stored' = stored ∧ ((∃ error, reply = .error error) ∨ reply = .ok stored) := by
  cases choice with
  | only =>
      cases served
      exact ⟨rfl, .inr rfl⟩
  | failed error =>
      cases served
      exact ⟨rfl, .inl ⟨error, rfl⟩⟩
  | clock | lost => cases served

theorem serve_now {choice : Choice} {reply : ℤ} (served : serve .now choice stored = some (reply, stored')) :
    stored' = stored := by
  cases choice with
  | clock now =>
      cases served
      rfl
  | only | failed | lost => cases served

theorem serve_markRetryPending {choice : Choice} {reply : Except StoreError Unit}
    (served : serve (.markRetryPending next) choice stored = some (reply, stored')) : stored' = stored := by
  cases choice with
  | only =>
      cases served
      rfl
  | failed error =>
      cases served
      rfl
  | clock | lost => cases served

theorem serve_reopenRunForRetry {expectedAttempt : ℤ} {choice : Choice} {reply : Except StoreError Unit}
    (served : serve (.reopenRunForRetry next expectedAttempt) choice stored = some (reply, stored')) :
    (StoreMove.reopenRunForRetry next expectedAttempt).exec stored = .ok stored' ∨
      stored' = stored ∧ ∃ error, reply = .error error := by
  cases choice with
  | clock => cases served
  | failed error =>
      cases served
      exact .inr ⟨rfl, error, rfl⟩
  | only =>
      cases done : (StoreMove.reopenRunForRetry next expectedAttempt).exec stored with
      | ok after =>
          simp only [serve, done] at served
          cases served
          exact .inl rfl
      | error error =>
          simp only [serve, done] at served
          cases served
          exact .inr ⟨rfl, error, rfl⟩
  | lost lost =>
      cases done : (StoreMove.reopenRunForRetry next expectedAttempt).exec stored with
      | ok after =>
          simp only [serve, done] at served
          cases served
          exact .inl rfl
      | error error =>
          simp only [serve, done] at served
          cases served

variable {allowed : Joint Request Request.Reply (Except StoreError (Option TaskRun)) TaskRun →
  JointStep Choice StoreMove → Prop}

/-- **A retry takes one attempt at a time.** Whatever others do to the stored run while it is prepared, it ends in the
attempt after the one that it was decided for, or in none. -/
theorem reopenForRetry_secure (inStep : InStep run stored) :
    surroundings.Secure allowed (Ended run) (reopenForRetry run result) stored := by
  intro found others choice _ reply stored' served
  obtain ⟨rfl, answer⟩ := serve_getRun served
  replace inStep := inStep_others others inStep
  rcases answer with ⟨error, rfl⟩ | rfl
  · exact inStep
  unfold requeue
  dsimp only
  split
  · exact inStep
  · rename_i retryable
    have reached : stored'.attempt = run.attempt := not_not.mp (not_or.mp retryable).2
    have runID := inStep.runID
    have retry := inStep.retry reached
    intro later others choice _ time stored'' served
    obtain rfl := serve_now served
    replace inStep := inStep_others others inStep
    dsimp only
    cases transition : transitionRun (nextAttempt stored' run result time) .queued with
    | error error => exact inStep
    | ok next =>
        obtain ⟨_, rfl⟩ := transitionRun_eq_ok.mp transition
        intro last others choice _ reply reopened served
        replace inStep := inStep_others others inStep
        rcases serve_reopenRunForRetry served with done | ⟨rfl, error, rfl⟩
        · obtain ⟨rfl, _⟩ := reopenRunForRetry_eq_ok done
          cases reply with
          | error error => exact (InStep.refl _).back runID rfl
          | ok _ =>
              intro final others choice _ reply reported served
              obtain rfl := serve_markRetryPending served
              have behind := inStep_others others (InStep.refl _)
              cases reply with
              | error error => exact behind.back runID rfl
              | ok _ => exact ⟨runID, rfl, retry, behind⟩
        · exact inStep

theorem prepareRetry_secure (inStep : InStep run stored) :
    surroundings.Secure allowed (Ended run) (prepareRetry run result) stored := by
  unfold prepareRetry
  dsimp only
  split
  · exact reopenForRetry_secure inStep
  · intro found others choice _ reply stored' served
    replace inStep := inStep_others others inStep
    cases choice with
    | only =>
        cases served
        exact reopenForRetry_secure inStep
    | clock | failed | lost => cases served

/-- A retry of the run that the scheduler holds, beside whatever others do to the stored run, up to its last step. -/
def Prepares (run : TaskRun) (result : TaskResult) (stored : TaskRun)
    (outcome : Except StoreError (Option TaskRun)) (stored' : TaskRun) : Prop :=
  ∃ labels choice, surroundings.system.Run ⟨stored, prepareRetry run result⟩ (labels ++ [.own choice])
    ⟨stored', .done outcome⟩

theorem Prepares.ended {outcome : Except StoreError (Option TaskRun)} (prepares : Prepares run result stored outcome stored')
    (inStep : InStep run stored) : Ended run outcome stored' := by
  obtain ⟨labels, choice, taken⟩ := prepares
  have allowed : (surroundings.system.restrict fun _ _ => True).Run _ _ _ := taken.restrict fun _ _ _ => trivial
  exact Surroundings.Secure.returned (prepareRetry_secure inStep) allowed rfl

theorem prepares_some (run : TaskRun) (result : TaskResult) (stored : TaskRun) :
    ∃ again stored', Prepares run result stored (.ok again) stored' := by
  have requeues : ∃ labels choice again stored', surroundings.system.Run ⟨stored, reopenForRetry run result⟩
      (labels ++ [.own choice]) ⟨stored', .done (.ok again)⟩ := by
    have read : surroundings.system.Run ⟨stored, reopenForRetry run result⟩ [.own .only] ⟨stored, requeue stored run result⟩ :=
      .snoc .nil rfl
    by_cases refused : stored.status ∉ retryableTerminalRunStatuses ∨ stored.attempt ≠ run.attempt
    · rw [requeue, if_pos refused] at read
      exact ⟨[], .only, none, stored, read⟩
    · rw [requeue, if_neg refused] at read
      cases transition : transitionRun (nextAttempt stored run result 0) .queued with
      | error error =>
          refine ⟨[.own .only], .clock 0, none, stored, .snoc read ?_⟩
          simp only [Surroundings.system, System.ofNext, Surroundings.next, surroundings, serve, transition, Option.map_some]
      | ok next =>
          have stamped : surroundings.system.Run ⟨stored, reopenForRetry run result⟩ [.own .only, .own (.clock 0)]
              ⟨stored, reopen next run⟩ := by
            refine .snoc read ?_
            simp only [Surroundings.system, System.ofNext, Surroundings.next, surroundings, serve, transition,
              Option.map_some]
          exact ⟨[.own .only, .own (.clock 0)], .failed (.other ""), none, stored, .snoc stamped rfl⟩
  obtain ⟨labels, choice, again, stored', run_⟩ := requeues
  unfold Prepares prepareRetry
  dsimp only
  split
  · exact ⟨again, stored', labels, choice, run_⟩
  · exact ⟨again, stored', .own .only :: labels, choice, .cons rfl run_⟩

end Attempts

end Sico.TaskRuntime.Retries

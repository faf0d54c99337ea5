import Sico.Foundation.System
import Sico.ScheduledTask.Repository

/-! # Workers of scheduled runs

Any number of replicas poll and claim, and the claim starts a worker that marks its run
running, keeps its lease alive and finishes it. A worker may be delayed between any two of
its calls or die, and meanwhile a later claim may have expired its run. The start mark and
the finish do not look at the status they overwrite, so the ledger is only safe along the
runs in which every worker still holds its run when it writes.
-/

namespace Sico.ScheduledTask

open Foundation

/-- Where a worker stands in `execute`. -/
inductive Phase where
  /-- Before `MarkRunRunning`. -/
  | starting
  /-- In the headless chat, with the heartbeat beside it. -/
  | executing
  /-- Behind a `MarkRunRunning` that failed. -/
  | startFailed
  | gone
  deriving Repr, DecidableEq

/-- A worker with the run it claimed. -/
structure Worker where
  runID : ℕ
  phase : Phase
  deriving Repr, DecidableEq

/-- The ledger, the workers of all replicas and the time. -/
structure World where
  ledger : Ledger
  workers : List Worker
  clock : ℤ

/-- What happens next, by the position of the worker it happens to. -/
inductive Action where
  | tick (later : ℤ)
  | claim (request : ClaimRequest)
  /-- The creator edits or deletes the task. -/
  | edit (task : TaskRow)
  | start (worker : ℕ)
  | startFails (worker : ℕ)
  /-- A heartbeat whose ticker fired at `since`. -/
  | beat (worker : ℕ) (since : ℤ)
  | finish (worker : ℕ) (outcome : Ledger.Outcome)
  | die (worker : ℕ)

namespace World

def move (world : World) (worker : ℕ) (phase : Phase) : List Worker :=
  world.workers.modify worker fun own => { own with phase }

/-- Whether the worker in this phase finishes with this outcome. -/
def finishes (phase : Phase) (outcome : Ledger.Outcome) : Bool :=
  (phase = .executing && outcome.status.isFinished) ||
    (phase = .startFailed && outcome.status = .failed)

def next (world : World) : Action → Option World
  | .tick later => if world.clock ≤ later then some { world with clock := later } else none
  | .claim request =>
      if request.preparedAt ≤ world.clock then
        match world.ledger.claim world.clock request with
        | some (run, ledger) =>
            some { world with ledger, workers := world.workers ++ [⟨run.id, .starting⟩] }
        | none => some world
      else
        none
  | .edit task =>
      some { world with ledger := { world.ledger with
        tasks := world.ledger.tasks.map fun other => if other.id = task.id then task else other } }
  | .start worker => do
      let own ← world.workers[worker]?
      if own.phase = .starting then
        some { world with
          ledger := world.ledger.markRunRunning world.clock own.runID
          workers := world.move worker .executing }
      else
        none
  | .startFails worker => do
      let own ← world.workers[worker]?
      if own.phase = .starting then some { world with workers := world.move worker .startFailed }
      else none
  | .beat worker since => do
      let own ← world.workers[worker]?
      -- a beat under way is not stopped by the finish of its worker
      if (own.phase = .executing ∨ own.phase = .gone) ∧ since ≤ world.clock then
        some { world with ledger := world.ledger.heartbeatRun own.runID (since + runLeaseDuration) }
      else
        none
  | .finish worker outcome => do
      let own ← world.workers[worker]?
      if finishes own.phase outcome then
        some { world with
          ledger := world.ledger.finishRun world.clock own.runID outcome
          workers := world.move worker .gone }
      else
        none
  | .die worker => do
      let _ ← world.workers[worker]?
      some { world with workers := world.move worker .gone }

/-- The replicas over the ledger. -/
def system : System World Action := System.ofNext next

/-- Before any occurrence was claimed. -/
def opening (tasks : List TaskRow) (clock : ℤ) : World := ⟨⟨tasks, [], 0⟩, [], clock⟩

/-- At most one run of each task is claimed or running. -/
def OneActive (world : World) : Prop :=
  ∀ taskID, (Ledger.activeRuns taskID world.ledger.runs).length ≤ 1

/-- A run that is over in the first world has the same status in the second. -/
def FinishedStay (world world' : World) : Prop :=
  ∀ runID run, world.ledger.find runID = some run → run.status.isFinished →
    ∃ run', world'.ledger.find runID = some run' ∧ run'.status = run.status

/-- A worker that marks its run running finds it unfinished, and one that finishes it
finds it unfinished or with the same status. -/
def Allowed (world : World) : Action → Prop
  | .start worker => ∀ own ∈ world.workers[worker]?, ∀ run ∈ world.ledger.find own.runID,
      run.status.isFinished = false
  | .finish worker outcome => ∀ own ∈ world.workers[worker]?, ∀ run ∈ world.ledger.find own.runID,
      run.status.isFinished = false ∨ run.status = outcome.status
  | _ => True

instance (world : World) : ∀ action, Decidable (world.Allowed action)
  | .start worker => inferInstanceAs (Decidable (∀ own ∈ world.workers[worker]?,
      ∀ run ∈ world.ledger.find own.runID, run.status.isFinished = false))
  | .finish worker outcome => inferInstanceAs (Decidable (∀ own ∈ world.workers[worker]?,
      ∀ run ∈ world.ledger.find own.runID,
        run.status.isFinished = false ∨ run.status = outcome.status))
  | .tick _ | .claim _ | .edit _ | .startFails _ | .beat _ _ | .die _ => .isTrue trivial

/-- A ledger as the database keeps it: the IDs are distinct and below the counter, and at
most one run of each task is active. -/
structure Sound (world : World) : Prop where
  distinct : (world.ledger.runs.map Run.id).Nodup
  below : ∀ run ∈ world.ledger.runs, run.id < world.ledger.nextID
  oneActive : world.OneActive

end World

section Rewriting

variable {runs : List Run} {rewrite : Run → Run}

theorem activeRuns_map_le (sameTask : ∀ run ∈ runs, (rewrite run).scheduledTaskID = run.scheduledTaskID)
    (active : ∀ run ∈ runs, (rewrite run).status.isActive → run.status.isActive) (taskID : ℤ) :
    (Ledger.activeRuns taskID (runs.map rewrite)).length ≤
      (Ledger.activeRuns taskID runs).length := by
  simp only [Ledger.activeRuns, ← List.countP_eq_length_filter, List.countP_map]
  refine List.countP_mono_left fun run member counted => ?_
  simp only [Function.comp_apply, Bool.and_eq_true, decide_eq_true_eq] at counted ⊢
  exact ⟨(sameTask run member) ▸ counted.1, active run member counted.2⟩

end Rewriting

namespace World

variable {world world' : World}

def rewriteAt (runID : ℕ) (rewrite : Run → Run) (run : Run) : Run :=
  if run.id = runID then rewrite run else run

/-- **One update of a run.** When it keeps the ID and the task and makes no run active,
the ledger stays sound. -/
theorem Sound.updateRun (sound : world.Sound) {runID : ℕ} {rewrite : Run → Run}
    (ledger : world'.ledger = world.ledger.updateRun runID rewrite)
    (same : ∀ run, (rewrite run).id = run.id ∧ (rewrite run).scheduledTaskID = run.scheduledTaskID)
    (active : ∀ run, world.ledger.find runID = some run →
      (rewrite run).status.isActive → run.status.isActive) : world'.Sound := by
  have runs : world'.ledger.runs = world.ledger.runs.map (rewriteAt runID rewrite) := by
    rw [ledger]
    rfl
  have keeps (run : Run) : (rewriteAt runID rewrite run).id = run.id ∧
      (rewriteAt runID rewrite run).scheduledTaskID = run.scheduledTaskID := by
    unfold rewriteAt
    split
    · exact same run
    · exact ⟨rfl, rfl⟩
  refine ⟨?_, ?_, fun taskID => ?_⟩
  · rw [runs, List.map_map]
    simpa [Function.comp_def, keeps] using sound.distinct
  · intro run member
    rw [runs] at member
    obtain ⟨before, listed, rfl⟩ := List.mem_map.mp member
    rw [(keeps before).1, ledger]
    exact sound.below before listed
  · rw [runs]
    refine le_trans (activeRuns_map_le (fun run _ => (keeps run).2) ?_ taskID) (sound.oneActive taskID)
    intro run member now
    unfold rewriteAt at now
    split at now
    · next here =>
      exact active run (here ▸ Table.select_of_mem sound.distinct member) now
    · exact now

theorem find_updateRun {runID : ℕ} {rewrite : Run → Run}
    (ledger : world'.ledger = world.ledger.updateRun runID rewrite)
    (same : ∀ run, (rewrite run).id = run.id) (otherID : ℕ) :
    world'.ledger.find otherID = (world.ledger.find otherID).map (rewriteAt runID rewrite) := by
  rw [ledger]
  refine Table.select_map (fun run => ?_) otherID world.ledger.runs
  split
  · exact same run
  · rfl

/-- A finished run keeps its status under an update of one run exactly when the update
does not change the status of that run. -/
theorem finishedStay_updateRun {runID : ℕ} {rewrite : Run → Run}
    (ledger : world'.ledger = world.ledger.updateRun runID rewrite)
    (same : ∀ run, (rewrite run).id = run.id) :
    world.FinishedStay world' ↔ ∀ run, world.ledger.find runID = some run →
      run.status.isFinished → (rewrite run).status = run.status := by
  have reads := find_updateRun ledger same
  constructor
  · intro stay run found ended
    obtain ⟨run', found', status⟩ := stay runID run found ended
    rw [reads, found, Option.map_some] at found'
    obtain rfl := Option.some.inj found'
    have here : run.id = runID := Table.key_of_select found
    simpa [rewriteAt, here] using status
  · intro kept otherID run found ended
    refine ⟨_, by rw [reads, found]; rfl, ?_⟩
    unfold rewriteAt
    split
    · next here =>
      have own : run.id = otherID := Table.key_of_select found
      exact kept run (by rw [← here, own]; exact found) ended
    · rfl

theorem Sound.of_same (sound : world.Sound) (same : world'.ledger.runs = world.ledger.runs)
    (counter : world'.ledger.nextID = world.ledger.nextID) : world'.Sound := by
  obtain ⟨distinct, below, oneActive⟩ := sound
  refine ⟨same ▸ distinct, ?_, ?_⟩
  · rw [same, counter]
    exact below
  · unfold OneActive
    rw [same]
    exact oneActive

theorem finishedStay_of_same (same : world'.ledger.runs = world.ledger.runs) :
    world.FinishedStay world' := by
  intro runID run found _
  refine ⟨run, ?_, rfl⟩
  rw [Ledger.find, same]
  exact found

theorem FinishedStay.trans {world'' : World} (first : world.FinishedStay world')
    (second : world'.FinishedStay world'') : world.FinishedStay world'' := by
  intro runID run found ended
  obtain ⟨middle, found', same⟩ := first runID run found ended
  obtain ⟨last, found'', same'⟩ := second runID middle found' (by rw [same]; exact ended)
  exact ⟨last, found'', same'.trans same⟩

section Claim

variable {request : ClaimRequest} {run : Run} {ledger : Ledger} {now : ℤ}

theorem Sound.claim (sound : world.Sound)
    (claimed : world.ledger.claim now request = some (run, ledger)) (after : world'.ledger = ledger) :
    world'.Sound := by
  obtain ⟨idle, fresh, task, status, runs, counter⟩ := Ledger.claim_eq_some claimed
  have ids : (world.ledger.runs.map (Ledger.expire now request.taskID)).map Run.id =
      world.ledger.runs.map Run.id := by
    rw [List.map_map]
    exact List.map_congr_left fun run _ => (Ledger.expire_same now request.taskID run).1
  have earlier (id : ℕ) (listed : id ∈ world.ledger.runs.map Run.id) : id < world.ledger.nextID := by
    obtain ⟨before, member, rfl⟩ := List.mem_map.mp listed
    exact sound.below before member
  refine ⟨?_, ?_, fun taskID => ?_⟩
  · rw [after, runs, List.map_append, ids, List.map_singleton, List.nodup_append]
    refine ⟨sound.distinct, by simp, ?_⟩
    intro id listed other isNew
    obtain rfl := List.mem_singleton.mp isNew
    have := earlier id listed
    omega
  · intro other member
    rw [after, runs] at member
    rw [after, counter]
    rcases List.mem_append.mp member with before | new
    · have listed : other.id ∈ world.ledger.runs.map Run.id := ids ▸ List.mem_map_of_mem before
      have := earlier _ listed
      omega
    · obtain rfl := List.mem_singleton.mp new
      omega
  · rw [after, runs, Ledger.activeRuns, List.filter_append, List.length_append]
    by_cases own : request.taskID = taskID
    · have none : (world.ledger.runs.map (Ledger.expire now request.taskID)).filter
          (fun run => run.scheduledTaskID = taskID && run.status.isActive) = [] := own ▸ idle
      rw [none]
      simpa using List.length_filter_le _ [run]
    · have unrelated : [run].filter
          (fun run => run.scheduledTaskID = taskID && run.status.isActive) = [] := by
        simp [task, own]
      rw [unrelated]
      refine le_trans (activeRuns_map_le ?_ ?_ taskID) (sound.oneActive taskID)
      · exact fun run _ => (Ledger.expire_same now request.taskID run).2
      · exact fun run _ active => Ledger.expire_active active

theorem finishedStay_claim (claimed : world.ledger.claim now request = some (run, ledger))
    (after : world'.ledger = ledger) : world.FinishedStay world' := by
  obtain ⟨-, -, -, -, runs, -⟩ := Ledger.claim_eq_some claimed
  intro runID before found ended
  have inactive : before.status.isActive = false := by rw [RunStatus.isActive_eq, ended, Bool.not_true]
  have kept : Table.select Run.id runID
      (world.ledger.runs.map (Ledger.expire now request.taskID)) = some before := by
    rw [Table.select_map fun run => (Ledger.expire_same now request.taskID run).1]
    have found : Table.select Run.id runID world.ledger.runs = some before := found
    rw [found, Option.map_some, Ledger.expire_finished inactive]
  refine ⟨before, ?_, rfl⟩
  rw [Ledger.find, after, runs]
  exact Table.select_append [run] kept

end Claim

section Step

variable {action : Action}

/-- What a step does to the runs of the ledger: nothing, a claim, or an update of the run
of a worker. -/
inductive Effect (world : World) : Action → World → Prop where
  | quiet {action : Action} {world' : World} (same : world'.ledger.runs = world.ledger.runs)
      (counter : world'.ledger.nextID = world.ledger.nextID)
      (permitted : world.Allowed action) : Effect world action world'
  | claimed {request : ClaimRequest} {run : Run} {world' : World}
      (claim : world.ledger.claim world.clock request = some (run, world'.ledger)) :
      Effect world (.claim request) world'
  | started {worker : ℕ} {own : Worker} {world' : World} (found : world.workers[worker]? = some own)
      (update : world'.ledger = world.ledger.markRunRunning world.clock own.runID) :
      Effect world (.start worker) world'
  | beaten {worker : ℕ} {since : ℤ} {own : Worker} {world' : World}
      (update : world'.ledger = world.ledger.heartbeatRun own.runID (since + runLeaseDuration)) :
      Effect world (.beat worker since) world'
  | finished {worker : ℕ} {outcome : Ledger.Outcome} {own : Worker} {world' : World}
      (found : world.workers[worker]? = some own) (ended : outcome.status.isFinished)
      (update : world'.ledger = world.ledger.finishRun world.clock own.runID outcome) :
      Effect world (.finish worker outcome) world'

theorem effect_of_step (step : system.step world action world') : Effect world action world' := by
  cases action with
  | tick later =>
      obtain ⟨-, same⟩ := Option.ite_none_right_eq_some.mp step
      obtain rfl := Option.some.inj same
      exact .quiet rfl rfl trivial
  | claim request =>
      obtain ⟨-, same⟩ := Option.ite_none_right_eq_some.mp step
      split at same
      · next run ledger claimed =>
        obtain rfl := Option.some.inj same
        exact .claimed claimed
      · obtain rfl := Option.some.inj same
        exact .quiet rfl rfl trivial
  | edit task =>
      obtain rfl := Option.some.inj step
      exact .quiet rfl rfl trivial
  | start worker =>
      obtain ⟨own, found, onward⟩ := Option.bind_eq_some_iff.mp step
      obtain ⟨-, same⟩ := Option.ite_none_right_eq_some.mp onward
      obtain rfl := Option.some.inj same
      exact .started found rfl
  | startFails worker =>
      obtain ⟨own, -, onward⟩ := Option.bind_eq_some_iff.mp step
      obtain ⟨-, same⟩ := Option.ite_none_right_eq_some.mp onward
      obtain rfl := Option.some.inj same
      exact .quiet rfl rfl trivial
  | beat worker since =>
      obtain ⟨own, -, onward⟩ := Option.bind_eq_some_iff.mp step
      obtain ⟨-, same⟩ := Option.ite_none_right_eq_some.mp onward
      obtain rfl := Option.some.inj same
      exact .beaten rfl
  | finish worker outcome =>
      obtain ⟨own, found, onward⟩ := Option.bind_eq_some_iff.mp step
      obtain ⟨ends, same⟩ := Option.ite_none_right_eq_some.mp onward
      obtain rfl := Option.some.inj same
      have ended : outcome.status.isFinished := by
        unfold finishes at ends
        rcases Bool.or_eq_true_iff.mp ends with executed | failed
        · exact (Bool.and_eq_true_iff.mp executed).2
        · have status : outcome.status = .failed := by simpa using (Bool.and_eq_true_iff.mp failed).2
          rw [status]
          rfl
      exact .finished found ended rfl
  | die worker =>
      obtain ⟨own, -, same⟩ := Option.bind_eq_some_iff.mp step
      obtain rfl := Option.some.inj same
      exact .quiet rfl rfl trivial

theorem heartbeat_same (leaseExpiresAt : ℤ) (run : Run) :
    let beaten := if run.status = .running then { run with leaseExpiresAt } else run
    beaten.id = run.id ∧ beaten.scheduledTaskID = run.scheduledTaskID ∧ beaten.status = run.status := by
  split <;> exact ⟨rfl, rfl, rfl⟩

theorem Effect.finishedStay_iff (effect : Effect world action world') :
    world.FinishedStay world' ↔ world.Allowed action := by
  cases effect with
  | quiet same _ permitted => exact iff_of_true (finishedStay_of_same same) permitted
  | claimed claim => exact iff_of_true (finishedStay_claim claim rfl) trivial
  | started found update =>
      rw [finishedStay_updateRun update fun _ => rfl]
      constructor
      · intro kept own here run located
        obtain rfl := Option.some.inj (here.symm.trans found)
        by_contra ended
        have same := kept run located (by simpa using ended)
        rw [← same] at ended
        exact ended rfl
      · intro permitted run located ended
        rw [permitted _ found run located] at ended
        cases ended
  | beaten update =>
      refine iff_of_true ?_ trivial
      rw [finishedStay_updateRun update fun run => (heartbeat_same _ run).1]
      exact fun run _ _ => (heartbeat_same _ run).2.2
  | finished found _ update =>
      rw [finishedStay_updateRun update fun _ => rfl]
      constructor
      · intro kept own here run located
        obtain rfl := Option.some.inj (here.symm.trans found)
        by_cases ended : run.status.isFinished
        · exact .inr (kept run located ended).symm
        · exact .inl (by simpa using ended)
      · intro permitted run located ended
        rcases permitted _ found run located with open_ | same
        · rw [open_] at ended
          cases ended
        · exact same.symm

theorem Effect.sound (effect : Effect world action world') (permitted : world.Allowed action)
    (sound : world.Sound) : world'.Sound := by
  cases effect with
  | quiet same counter _ => exact sound.of_same same counter
  | claimed claim => exact sound.claim claim rfl
  | started found update =>
      refine sound.updateRun update (fun _ => ⟨rfl, rfl⟩) fun run located _ => ?_
      rw [RunStatus.isActive_eq, permitted _ found run located]
      rfl
  | beaten update =>
      refine sound.updateRun update (fun run => ?_) fun run _ active => ?_
      · exact ⟨(heartbeat_same _ run).1, (heartbeat_same _ run).2.1⟩
      · exact (heartbeat_same _ run).2.2 ▸ active
  | finished _ ended update =>
      refine sound.updateRun update (fun _ => ⟨rfl, rfl⟩) fun run _ active => ?_
      rw [RunStatus.isActive_eq, ended] at active
      cases active

end Step

section Run

theorem run_safe {actions : List Action} (sound : world.Sound)
    (run : (system.restrict Allowed).Run world actions world') :
    world'.Sound ∧ world.FinishedStay world' := by
  induction run with
  | nil => exact ⟨sound, finishedStay_of_same rfl⟩
  | snoc _ step ih =>
      obtain ⟨before, kept⟩ := ih
      have effect := effect_of_step step.2
      exact ⟨effect.sound step.1 before, kept.trans (effect.finishedStay_iff.mpr step.1)⟩

theorem opening_sound (tasks : List TaskRow) (clock : ℤ) : (opening tasks clock).Sound :=
  ⟨List.nodup_nil, fun _ member => absurd member List.not_mem_nil, fun _ => Nat.zero_le 1⟩

/-- **The ledger of scheduled runs.** Along runs in which every worker still holds its
run when it marks or finishes it, at most one run of each task is active and finished runs
stay as they are. A step from there keeps both exactly when its worker does. -/
theorem one_active_and_finished_stay (tasks : List TaskRow) (clock : ℤ) (middle final : World)
    (before later : List Action)
    (first : (system.restrict Allowed).Run (opening tasks clock) before middle)
    (second : (system.restrict Allowed).Run middle later final) :
    final.OneActive ∧ middle.FinishedStay final ∧
      ∀ action next, system.step final action next →
        (next.OneActive ∧ final.FinishedStay next ↔ final.Allowed action) := by
  have reached := (run_safe (opening_sound tasks clock) first).1
  obtain ⟨sound, stay⟩ := run_safe reached second
  refine ⟨sound.oneActive, stay, fun action next step => ?_⟩
  have effect := effect_of_step step
  constructor
  · intro kept
    exact effect.finishedStay_iff.mp kept.2
  · intro permitted
    exact ⟨(effect.sound permitted sound).oneActive, effect.finishedStay_iff.mpr permitted⟩

end Run

section Delayed

def everyMinute : TaskRow := ⟨1, true, 60000, 0, false⟩

def occurrence (scheduledFor now : ℤ) : ClaimRequest :=
  ⟨1, scheduledFor, scheduledFor + 60000, "submission", none, now⟩

def prompt : List Action :=
  [.tick 60000, .claim (occurrence 60000 60000), .start 0, .tick 90000, .beat 0 90000,
    .finish 0 ⟨7, .succeeded, "", none⟩]

/-- The claim of the next occurrence, later than a lease after the first. -/
def nextClaim : List Action := [.tick 180000, .claim (occurrence 120000 180000)]

/-- A worker that stalls before its start, and finds its run failed by the next claim. -/
def stalled : List Action :=
  [Action.tick 60000, .claim (occurrence 60000 60000)] ++ nextClaim

def taken (world : World) (actions : List Action) : World :=
  System.after (System.guarded Allowed next) world actions

theorem one_active_and_finished_stay_prompt :
    let middle := taken (opening [everyMinute] 0) prompt
    let final := taken middle nextClaim
    final.ledger.runs.map Run.status = [.succeeded, .claimed] ∧
      final.OneActive ∧ middle.FinishedStay final := by
  intro middle final
  have first : (system.restrict Allowed).Run (opening [everyMinute] 0) prompt middle :=
    .ofGuarded Allowed (by decide)
  have second : (system.restrict Allowed).Run middle nextClaim final :=
    .ofGuarded Allowed (by decide)
  have safe := one_active_and_finished_stay [everyMinute] 0 middle final prompt nextClaim first second
  exact ⟨by decide, safe.1, safe.2.1⟩

/-- A worker that marks its run running after the next claim failed it makes two runs
active, and a failed run running. -/
theorem stalled_start_two_active :
    ¬ ∀ (tasks : List TaskRow) (clock : ℤ) (middle final : World) (before later : List Action),
      system.Run (opening tasks clock) before middle → system.Run middle later final →
        final.OneActive ∧ middle.FinishedStay final := by
  intro claim
  let middle := System.after next (opening [everyMinute] 0) stalled
  let final := System.after next middle [.start 0]
  have first : system.Run (opening [everyMinute] 0) stalled middle := .ofNext (by decide)
  have second : system.Run middle [.start 0] final := .ofNext (by decide)
  have active := (claim _ _ middle final _ _ first second).1 1
  revert active
  decide

end Delayed

end World

end Sico.ScheduledTask

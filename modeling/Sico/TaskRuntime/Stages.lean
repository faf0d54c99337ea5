import Mathlib.Data.List.Dedup
import Sico.TaskRuntime.Schedule

/-! # Staged execution

A batch with several stage numbers is run as one scheduler call for each of them, in
their order. Under the two hard strategies a stage with a result that is not a success
closes the gate, and the runs of every later stage are cancelled unstarted. The actions
of the executor are those of the scheduler, with the stage they belong to, and its own
between the stages.
-/

namespace Sico.TaskRuntime

open Foundation

/-- A run with the stage of its task. -/
structure StagedRun where
  run : BatchRun
  stage : ℤ
  deriving Repr, DecidableEq

/-- `_group_runs_by_stage`: the stages in ascending order, each with its runs in the order
of the batch. -/
def groupRunsByStage (runs : List StagedRun) : List (ℤ × List BatchRun) :=
  ((runs.map StagedRun.stage).dedup.insertionSort (· ≤ ·)).map fun stage =>
    (stage, (runs.filter fun run => run.stage = stage).map StagedRun.run)

def stageGateBlocks (results : List TaskResult) (joinStrategy : JoinStrategy) : Bool :=
  if joinStrategy = .allSuccess ∨ joinStrategy = .failFast then
    results.any fun result => result.status ≠ .completed
  else
    false

/-- What `StagedBatchExecutor.run` reads: the scheduler's own concurrency, the plan, and
the clock at each cancellation. -/
structure StagedBatch where
  schedulerConcurrency : ℤ
  concurrency : ℤ
  joinStrategy : JoinStrategy
  runResourceKey : BatchRun → Option String
  resourceLimits : String → Option ℤ
  clock : BatchRun → String → ℤ

/-- The results of a schedule that has left the loop. -/
def Batch.finish (batch : Batch) (runs : List BatchRun) (final : SchedulerState) :
    Option (List TaskResult) := do
  let results :=
    match final.stopReason with
    | some reason => batch.cancelRemaining final.pending reason final.results
    | none => final.results
  let keyed ← results.mapM fun entry =>
    (batchItemIndex runs entry.2.runID).map fun index => (index, entry.2)
  return (keyed.insertionSort indexOrder).map Prod.snd

/-- Where the executor stands: the stages still to come, the stage in the scheduler, the
results so far and the stage whose gate closed. -/
structure StagedMoment where
  remaining : List (ℤ × List BatchRun)
  current : Option (ℤ × List BatchRun × Moment)
  results : List TaskResult
  blockedBy : Option ℤ

namespace StagedBatch

variable (staged : StagedBatch)

/-- `RunCoordinator.cancel_queued`, which returns a cancelled result whatever the store
answers. -/
def cancelQueued (run : BatchRun) (reason : String) : TaskResult where
  runID := run.runID
  taskID := run.taskID
  status := .cancelled
  title := run.title
  summary := reason
  errorClass := some "cancelled"
  errorMessage := reason
  startedAt := some (staged.clock run reason)
  endedAt := some (staged.clock run reason)
  durationMS := some 0

/-- The scheduler call of `_schedule_runs`. -/
def scheduler : Batch where
  schedulerConcurrency := staged.schedulerConcurrency
  maxConcurrency := some staged.concurrency
  joinStrategy := staged.joinStrategy
  resourceKey := staged.runResourceKey
  resourceLimits := staged.resourceLimits
  retries := true
  cancelQueued := some staged.cancelQueued
  cancelOwned := by
    intro cancel run reason provided
    obtain rfl := Option.some.inj provided
    rfl

def cancelStage (runs : List BatchRun) (upstreamStage : ℤ) : List TaskResult :=
  runs.map fun run => staged.cancelQueued run
    s!"Skipped: upstream stage {upstreamStage} did not satisfy the batch join strategy."

def opening (runs : List StagedRun) : StagedMoment where
  remaining := groupRunsByStage runs
  current := none
  results := []
  blockedBy := none

/-- The next action, with the stage it belongs to. A batch of one stage takes the same
actions, since nothing comes after its gate. -/
def next (done : List Completion) (moment : StagedMoment) :
    Option ((ℤ × ScheduleEvent) × StagedMoment) :=
  match moment.current, moment.remaining, moment.blockedBy with
  | none, [], _ => none
  | none, (stage, runs) :: rest, some upstream =>
      some ((stage, .quiet),
        { moment with
          remaining := rest
          results := moment.results ++ staged.cancelStage runs upstream })
  | none, (stage, runs) :: rest, none =>
      some ((stage, .quiet),
        { moment with remaining := rest, current := some (stage, runs, Batch.opening runs) })
  | some (stage, runs, ⟨.left, state⟩), _, _ =>
      (staged.scheduler.finish runs state).map fun stageResults =>
        ((stage, .quiet),
          { moment with
            current := none
            results := moment.results ++ stageResults
            blockedBy :=
              if stageGateBlocks stageResults staged.joinStrategy then some stage
              else moment.blockedBy })
  | some (stage, runs, inner), _, _ =>
      (staged.scheduler.next done inner).map fun acted =>
        ((stage, acted.1), { moment with current := some (stage, runs, acted.2) })

def system : System StagedMoment (List Completion × (ℤ × ScheduleEvent)) :=
  System.reacting staged.next

/-- `order.get`, by the last run of an ID. -/
def orderOf (runs : List StagedRun) (runID : String) : ℤ :=
  ((runs.reverse.find? fun run => run.run.runID = runID).map fun run =>
    run.run.batchItemIndex).getD 0

/-- The results of `StagedBatchExecutor.run` when no stage is left. A batch without runs
has no last stage to name and raises. -/
def returned (runs : List StagedRun) (moment : StagedMoment) : Option (List TaskResult) :=
  match moment.current, moment.remaining, groupRunsByStage runs with
  | none, [], [_] => some moment.results
  | none, [], _ :: _ =>
      some (((moment.results.map fun result => (orderOf runs result.runID, result)).insertionSort
        Batch.indexOrder).map Prod.snd)
  | _, _, _ => none

end StagedBatch

section Grouping

variable {runs : List StagedRun} {run : StagedRun} {stage : ℤ} {group : List BatchRun}

theorem groupRunsByStage_ascending (runs : List StagedRun) :
    (groupRunsByStage runs).Pairwise fun first second => first.1 < second.1 := by
  rw [groupRunsByStage, List.pairwise_map]
  have sorted := List.pairwise_insertionSort (· ≤ ·) (runs.map StagedRun.stage).dedup
  have distinct : ((runs.map StagedRun.stage).dedup.insertionSort (· ≤ ·)).Nodup :=
    (List.perm_insertionSort _ _).nodup_iff.mpr (List.nodup_dedup _)
  exact (sorted.and distinct).imp fun both => lt_of_le_of_ne both.1 both.2

theorem mem_groupRunsByStage (grouped : (stage, group) ∈ groupRunsByStage runs) :
    group = (runs.filter fun run => run.stage = stage).map StagedRun.run := by
  obtain ⟨_, _, same⟩ := List.mem_map.mp grouped
  obtain ⟨rfl, rfl⟩ := Prod.mk.inj same
  rfl

theorem groupRunsByStage_of_mem (member : run ∈ runs) :
    ∃ group, (run.stage, group) ∈ groupRunsByStage runs ∧ run.run ∈ group := by
  refine ⟨_, List.mem_map.mpr ⟨run.stage, ?_, rfl⟩, ?_⟩
  · rw [List.mem_insertionSort, List.mem_dedup]
    exact List.mem_map_of_mem member
  · exact List.mem_map_of_mem (List.mem_filter.mpr ⟨member, by simp⟩)

theorem groupRunsByStage_ne_nil (grouped : (stage, group) ∈ groupRunsByStage runs) :
    group ≠ [] := by
  have filled := mem_groupRunsByStage grouped
  obtain ⟨_, listed, same⟩ := List.mem_map.mp grouped
  obtain ⟨rfl, _⟩ := Prod.mk.inj same
  rw [List.mem_insertionSort, List.mem_dedup] at listed
  obtain ⟨run, member, here⟩ := List.mem_map.mp listed
  rw [filled]
  exact List.ne_nil_of_mem (List.mem_map_of_mem (List.mem_filter.mpr ⟨member, by simpa using here⟩))

theorem stage_of_group (distinct : (runs.map fun run => run.run.runID).Nodup) (member : run ∈ runs)
    (grouped : (stage, group) ∈ groupRunsByStage runs)
    (listed : run.run.runID ∈ group.map BatchRun.runID) : run.stage = stage := by
  rw [mem_groupRunsByStage grouped, List.map_map] at listed
  obtain ⟨other, found, same⟩ := List.mem_map.mp listed
  obtain ⟨present, here⟩ := List.mem_filter.mp found
  obtain rfl : other = run := List.inj_on_of_nodup_map distinct present member same
  simpa using here

theorem group_nodup (distinct : (runs.map fun run => run.run.runID).Nodup)
    (grouped : (stage, group) ∈ groupRunsByStage runs) : (group.map BatchRun.runID).Nodup := by
  rw [mem_groupRunsByStage grouped, List.map_map]
  exact distinct.sublist (List.Sublist.map _ List.filter_sublist)

theorem groupRunsByStage_perm (distinct : (runs.map fun run => run.run.runID).Nodup) :
    ((groupRunsByStage runs).flatMap fun entry => entry.2.map BatchRun.runID).Perm
      (runs.map fun run => run.run.runID) := by
  have apart : (groupRunsByStage runs).Pairwise fun first second =>
      (first.2.map BatchRun.runID).Disjoint (second.2.map BatchRun.runID) := by
    refine (groupRunsByStage_ascending runs).imp_of_mem ?_
    intro first second inFirst inSecond before id listed again
    rw [mem_groupRunsByStage inFirst, List.map_map] at listed
    obtain ⟨run, found, rfl⟩ := List.mem_map.mp listed
    obtain ⟨member, here⟩ := List.mem_filter.mp found
    have there : run.stage = second.1 := stage_of_group distinct member inSecond again
    exact before.ne (by rw [← there]; simpa [eq_comm] using here)
  have nodup : ((groupRunsByStage runs).flatMap fun entry => entry.2.map BatchRun.runID).Nodup :=
    List.nodup_flatMap.mpr ⟨fun _ grouped => group_nodup distinct grouped, apart⟩
  rw [List.perm_ext_iff_of_nodup nodup distinct]
  intro id
  constructor
  · intro listed
    obtain ⟨⟨stage, group⟩, grouped, inGroup⟩ := List.mem_flatMap.mp listed
    rw [mem_groupRunsByStage grouped, List.map_map] at inGroup
    obtain ⟨run, found, rfl⟩ := List.mem_map.mp inGroup
    exact List.mem_map.mpr ⟨run, (List.mem_filter.mp found).1, rfl⟩
  · intro listed
    obtain ⟨run, member, rfl⟩ := List.mem_map.mp listed
    obtain ⟨group, grouped, inGroup⟩ := groupRunsByStage_of_mem member
    exact List.mem_flatMap.mpr ⟨_, grouped, List.mem_map_of_mem inGroup⟩

end Grouping

/-- What one action of the executor can do. -/
inductive StagedBatch.Acts (staged : StagedBatch) :
    StagedMoment → ℤ × ScheduleEvent → StagedMoment → Prop where
  | skip {remaining : List (ℤ × List BatchRun)} {results : List TaskResult} {upstream stage : ℤ}
      {runs : List BatchRun} :
      Acts staged ⟨(stage, runs) :: remaining, none, results, some upstream⟩ (stage, .quiet)
        ⟨remaining, none, results ++ staged.cancelStage runs upstream, some upstream⟩
  | enter {remaining : List (ℤ × List BatchRun)} {results : List TaskResult} {stage : ℤ}
      {runs : List BatchRun} :
      Acts staged ⟨(stage, runs) :: remaining, none, results, none⟩ (stage, .quiet)
        ⟨remaining, some (stage, runs, Batch.opening runs), results, none⟩
  | act {remaining : List (ℤ × List BatchRun)} {results : List TaskResult} {blockedBy : Option ℤ}
      {stage : ℤ} {runs : List BatchRun} {inner inner' : Moment} {event : ScheduleEvent}
      {done : List Completion} (step : staged.scheduler.schedule.step inner (done, event) inner') :
      Acts staged ⟨remaining, some (stage, runs, inner), results, blockedBy⟩ (stage, event)
        ⟨remaining, some (stage, runs, inner'), results, blockedBy⟩
  | close {remaining : List (ℤ × List BatchRun)} {results : List TaskResult}
      {blockedBy : Option ℤ} {stage : ℤ} {runs : List BatchRun} {state : SchedulerState}
      {stageResults : List TaskResult}
      (finished : staged.scheduler.finish runs state = some stageResults) :
      Acts staged ⟨remaining, some (stage, runs, ⟨.left, state⟩), results, blockedBy⟩ (stage, .quiet)
        ⟨remaining, none, results ++ stageResults,
          if stageGateBlocks stageResults staged.joinStrategy then some stage else blockedBy⟩

theorem StagedBatch.next_inner (staged : StagedBatch) (done : List Completion)
    (remaining : List (ℤ × List BatchRun)) (stage : ℤ) (runs : List BatchRun) {inner : Moment}
    (inside : inner.position ≠ .left) (results : List TaskResult) (blockedBy : Option ℤ) :
    staged.next done ⟨remaining, some (stage, runs, inner), results, blockedBy⟩ =
      (staged.scheduler.next done inner).map fun acted =>
        ((stage, acted.1), ⟨remaining, some (stage, runs, acted.2), results, blockedBy⟩) := by
  obtain ⟨position, state⟩ := inner
  cases position with
  | left => exact absurd rfl inside
  | _ => rfl

theorem StagedBatch.acts_of_step {staged : StagedBatch} {moment moment' : StagedMoment}
    {label : List Completion × (ℤ × ScheduleEvent)}
    (step : staged.system.step moment label moment') : staged.Acts moment label.2 moment' := by
  obtain ⟨remaining, current, results, blockedBy⟩ := moment
  obtain ⟨done, event⟩ := label
  have happened : staged.next done ⟨remaining, current, results, blockedBy⟩ =
    some (event, moment') := step
  cases current with
  | none =>
      cases remaining with
      | nil => cases happened
      | cons entry rest =>
          cases blockedBy with
          | none =>
              obtain ⟨rfl, rfl⟩ := Prod.mk.inj (Option.some.inj happened)
              exact .enter
          | some upstream =>
              obtain ⟨rfl, rfl⟩ := Prod.mk.inj (Option.some.inj happened)
              exact .skip
  | some entry =>
      obtain ⟨stage, runs, inner⟩ := entry
      by_cases gone : inner.position = .left
      · obtain ⟨position, state⟩ := inner
        obtain rfl : position = .left := gone
        obtain ⟨stageResults, finished, same⟩ := Option.map_eq_some_iff.mp happened
        obtain ⟨rfl, rfl⟩ := Prod.mk.inj same
        exact .close finished
      · rw [staged.next_inner done remaining stage runs gone] at happened
        obtain ⟨⟨shown, inner'⟩, acted, same⟩ := Option.map_eq_some_iff.mp happened
        obtain ⟨rfl, rfl⟩ := Prod.mk.inj same
        exact .act acted

section Accounts

/-- A stage the executor is done with: its results, and whether it was scheduled. -/
structure StageRecord where
  stage : ℤ
  runs : List BatchRun
  results : List TaskResult
  ran : Bool

/-- The hard strategies, which close the gate behind a failure. -/
def JoinStrategy.Hard (joinStrategy : JoinStrategy) : Prop :=
  joinStrategy = .allSuccess ∨ joinStrategy = .failFast

/-- The IDs that executions were started for. -/
def startedIDs (labels : List (List Completion × (ℤ × ScheduleEvent))) : List String :=
  labels.filterMap fun label =>
    match label.2.2 with
    | .started run => some run.runID
    | _ => none

/-- The stages behind the executor, in the order it took them, with the one it is in and
those to come. -/
structure StagedAccounts (staged : StagedBatch) (stages : List (ℤ × List BatchRun))
    (labels : List (List Completion × (ℤ × ScheduleEvent))) (moment : StagedMoment)
    (records : List StageRecord) : Prop where
  stages : records.map (fun record => (record.stage, record.runs)) ++
    (moment.current.map fun current => (current.1, current.2.1)).toList ++ moment.remaining = stages
  results : moment.results = records.flatMap StageRecord.results
  answered : ∀ record ∈ records,
    (record.results.map TaskResult.runID).Perm (record.runs.map BatchRun.runID)
  cancelled : ∀ record ∈ records, record.ran = false →
    ∀ result ∈ record.results, result.status = .cancelled
  started : ∀ id ∈ startedIDs labels,
    (∃ record ∈ records, record.ran = true ∧ id ∈ record.runs.map BatchRun.runID) ∨
      ∃ current, moment.current = some current ∧ id ∈ current.2.1.map BatchRun.runID
  gated : staged.joinStrategy.Hard → records.Pairwise fun before after =>
    (∃ result ∈ before.results, result.status ≠ .completed) → after.ran = false
  passed : staged.joinStrategy.Hard → moment.blockedBy = none →
    ∀ record ∈ records, ∀ result ∈ record.results, result.status = .completed
  current : ∀ current, moment.current = some current → moment.blockedBy = none ∧
    current.2.2.Among (current.2.1.map BatchRun.runID) ∧
    ∃ inner, staged.scheduler.schedule.Run (Batch.opening current.2.1) inner current.2.2

variable {staged : StagedBatch} {stages : List (ℤ × List BatchRun)}
  {labels : List (List Completion × (ℤ × ScheduleEvent))} {moment moment' : StagedMoment}
  {records : List StageRecord}

theorem startedIDs_append (labels : List (List Completion × (ℤ × ScheduleEvent)))
    (label : List Completion × (ℤ × ScheduleEvent)) :
    startedIDs (labels ++ [label]) = startedIDs labels ++ startedIDs [label] :=
  List.filterMap_append ..

theorem mem_startedIDs {id : String} :
    id ∈ startedIDs labels ↔ ∃ label ∈ labels, ∃ run, label.2.2 = .started run ∧ run.runID = id := by
  rw [startedIDs, List.mem_filterMap]
  refine exists_congr fun label => and_congr_right fun _ => ?_
  cases label.2.2 <;> simp

theorem startedIDs_quiet {label : List Completion × (ℤ × ScheduleEvent)} {stage : ℤ}
    (quiet : label.2 = (stage, .quiet)) : startedIDs (labels ++ [label]) = startedIDs labels := by
  simp [startedIDs, quiet]

theorem StagedBatch.finish_answers {runs : List BatchRun} {state : SchedulerState}
    {inner : List (List Completion × ScheduleEvent)} {stageResults : List TaskResult}
    (distinct : (runs.map BatchRun.runID).Nodup)
    (run : staged.scheduler.schedule.Run (Batch.opening runs) inner ⟨.left, state⟩)
    (finished : staged.scheduler.finish runs state = some stageResults) :
    (stageResults.map TaskResult.runID).Perm (runs.map BatchRun.runID) := by
  obtain ⟨rounds, looped⟩ := Batch.schedule_loop run
  have returned : staged.scheduler.run runs rounds = some stageResults := by
    rw [Batch.run, looped]
    exact finished
  exact (run_one_result_each staged.scheduler distinct rfl returned).1

theorem StagedAccounts.skip {remaining : List (ℤ × List BatchRun)} {results : List TaskResult}
    {upstream stage : ℤ} {runs : List BatchRun} {label : List Completion × (ℤ × ScheduleEvent)}
    (accounts : StagedAccounts staged stages labels
      ⟨(stage, runs) :: remaining, none, results, some upstream⟩ records)
    (quiet : label.2 = (stage, .quiet)) :
    StagedAccounts staged stages (labels ++ [label])
      ⟨remaining, none, results ++ staged.cancelStage runs upstream, some upstream⟩
      (records ++ [⟨stage, runs, staged.cancelStage runs upstream, false⟩]) where
  stages := by simpa using accounts.stages
  results := by simp [← accounts.results]
  answered := by
    intro record member
    rcases List.mem_append.mp member with before | added
    · exact accounts.answered record before
    · obtain rfl := List.mem_singleton.mp added
      simp [StagedBatch.cancelStage, Function.comp_def, StagedBatch.cancelQueued]
  cancelled := by
    intro record member skipped result listed
    rcases List.mem_append.mp member with before | added
    · exact accounts.cancelled record before skipped result listed
    · obtain rfl := List.mem_singleton.mp added
      obtain ⟨run, _, rfl⟩ := List.mem_map.mp listed
      rfl
  started := by
    intro id began
    rw [startedIDs_quiet quiet] at began
    rcases accounts.started id began with ⟨record, member, ran, listed⟩ | ⟨_, none, _⟩
    · exact .inl ⟨record, List.mem_append_left _ member, ran, listed⟩
    · cases none
  gated hard := by
    rw [List.pairwise_append]
    refine ⟨accounts.gated hard, List.pairwise_singleton _ _, ?_⟩
    intro before _ after member _
    obtain rfl := List.mem_singleton.mp member
    rfl
  passed := nofun
  current := nofun

theorem StagedAccounts.enter {remaining : List (ℤ × List BatchRun)} {results : List TaskResult}
    {stage : ℤ} {runs : List BatchRun} {label : List Completion × (ℤ × ScheduleEvent)}
    (accounts : StagedAccounts staged stages labels
      ⟨(stage, runs) :: remaining, none, results, none⟩ records)
    (quiet : label.2 = (stage, .quiet)) :
    StagedAccounts staged stages (labels ++ [label])
      ⟨remaining, some (stage, runs, Batch.opening runs), results, none⟩ records where
  stages := by simpa using accounts.stages
  results := accounts.results
  answered := accounts.answered
  cancelled := accounts.cancelled
  started := by
    intro id began
    rw [startedIDs_quiet quiet] at began
    rcases accounts.started id began with before | ⟨_, none, _⟩
    · exact .inl before
    · cases none
  gated := accounts.gated
  passed := accounts.passed
  current := by
    intro current same
    obtain rfl := Option.some.inj same
    exact ⟨rfl, Moment.among_opening runs, [], .nil⟩

theorem StagedAccounts.act {remaining : List (ℤ × List BatchRun)} {results : List TaskResult}
    {blockedBy : Option ℤ} {stage : ℤ} {runs : List BatchRun} {inner inner' : Moment}
    {event : ScheduleEvent} {done : List Completion} {label : List Completion × (ℤ × ScheduleEvent)}
    (accounts : StagedAccounts staged stages labels
      ⟨remaining, some (stage, runs, inner), results, blockedBy⟩ records)
    (shown : label.2 = (stage, event))
    (step : staged.scheduler.schedule.step inner (done, event) inner') :
    StagedAccounts staged stages (labels ++ [label])
      ⟨remaining, some (stage, runs, inner'), results, blockedBy⟩ records := by
  obtain ⟨unblocked, among, scheduled, front⟩ := accounts.current _ rfl
  have acts := Batch.acts_of_step step
  refine ⟨accounts.stages, accounts.results, accounts.answered, accounts.cancelled, ?_,
    accounts.gated, accounts.passed, ?_⟩
  · intro id began
    rw [startedIDs_append, List.mem_append] at began
    rcases began with before | now
    · rcases accounts.started id before with record | ⟨current, same, listed⟩
      · exact .inl record
      · obtain rfl := Option.some.inj same
        exact .inr ⟨_, rfl, listed⟩
    · obtain ⟨_, member, run, began, rfl⟩ := mem_startedIDs.mp now
      obtain rfl := List.mem_singleton.mp member
      rw [shown] at began
      obtain rfl : event = .started run := began
      exact .inr ⟨_, rfl, among.pending run acts.started_mem⟩
  · intro current same
    obtain rfl := Option.some.inj same
    exact ⟨unblocked, among.acts acts, _, front.snoc step⟩

theorem StagedAccounts.close {remaining : List (ℤ × List BatchRun)} {results : List TaskResult}
    {blockedBy : Option ℤ} {stage : ℤ} {runs : List BatchRun} {state : SchedulerState}
    {stageResults : List TaskResult} {label : List Completion × (ℤ × ScheduleEvent)}
    (accounts : StagedAccounts staged stages labels
      ⟨remaining, some (stage, runs, ⟨.left, state⟩), results, blockedBy⟩ records)
    (distinct : ∀ entry ∈ stages, (entry.2.map BatchRun.runID).Nodup)
    (quiet : label.2 = (stage, .quiet))
    (finished : staged.scheduler.finish runs state = some stageResults) :
    StagedAccounts staged stages (labels ++ [label])
      ⟨remaining, none, results ++ stageResults,
        if stageGateBlocks stageResults staged.joinStrategy then some stage else blockedBy⟩
      (records ++ [⟨stage, runs, stageResults, true⟩]) := by
  obtain ⟨unblocked, _, scheduled, front⟩ := accounts.current _ rfl
  obtain rfl : blockedBy = none := unblocked
  have listed : (stage, runs) ∈ stages := by
    rw [← accounts.stages]
    simp
  have answers := StagedBatch.finish_answers (distinct _ listed) front finished
  refine ⟨by simpa using accounts.stages, by simp [← accounts.results], ?_, ?_, ?_, ?_, ?_, nofun⟩
  · intro record member
    rcases List.mem_append.mp member with before | added
    · exact accounts.answered record before
    · obtain rfl := List.mem_singleton.mp added
      exact answers
  · intro record member skipped
    rcases List.mem_append.mp member with before | added
    · exact accounts.cancelled record before skipped
    · obtain rfl := List.mem_singleton.mp added
      cases skipped
  · intro id began
    rw [startedIDs_quiet quiet] at began
    rcases accounts.started id began with ⟨record, member, ran, inRecord⟩ | ⟨_, same, inStage⟩
    · exact .inl ⟨record, List.mem_append_left _ member, ran, inRecord⟩
    · obtain rfl := Option.some.inj same
      exact .inl ⟨_, List.mem_append_right _ (List.mem_singleton_self _), rfl, inStage⟩
  · intro hard
    rw [List.pairwise_append]
    refine ⟨accounts.gated hard, List.pairwise_singleton _ _, ?_⟩
    rintro before member after _ ⟨result, inResults, failed⟩
    exact absurd (accounts.passed hard rfl before member result inResults) failed
  · intro hard unblocked record member result inResults
    rcases List.mem_append.mp member with before | added
    · exact accounts.passed hard rfl record before result inResults
    · obtain rfl := List.mem_singleton.mp added
      by_contra failed
      have blocks : stageGateBlocks stageResults staged.joinStrategy = true := by
        rw [stageGateBlocks, if_pos (show _ ∨ _ from hard)]
        exact List.any_eq_true.mpr ⟨result, inResults, by simpa using failed⟩
      simp [blocks] at unblocked

theorem StagedAccounts.acts {label : List Completion × (ℤ × ScheduleEvent)}
    (accounts : StagedAccounts staged stages labels moment records)
    (distinct : ∀ entry ∈ stages, (entry.2.map BatchRun.runID).Nodup)
    (acts : staged.Acts moment label.2 moment') :
    ∃ records', StagedAccounts staged stages (labels ++ [label]) moment' records' := by
  generalize shown : label.2 = event at acts
  cases acts with
  | skip => exact ⟨_, accounts.skip shown⟩
  | enter => exact ⟨_, accounts.enter shown⟩
  | act step => exact ⟨_, accounts.act shown step⟩
  | close finished => exact ⟨_, accounts.close distinct shown finished⟩

theorem StagedAccounts.run {runs : List StagedRun}
    (distinct : (runs.map fun run => run.run.runID).Nodup)
    (run : staged.system.Run (StagedBatch.opening runs) labels moment) :
    ∃ records, StagedAccounts staged (groupRunsByStage runs) labels moment records := by
  apply run.invariant fun labels moment =>
    ∃ records, StagedAccounts staged (groupRunsByStage runs) labels moment records
  · exact ⟨[], by simp [StagedBatch.opening], rfl, nofun, nofun, nofun, fun _ => .nil,
      fun _ _ => nofun, nofun⟩
  · rintro labels source label target ⟨records, accounts⟩ step
    exact accounts.acts (fun _ grouped => group_nodup distinct grouped)
      (StagedBatch.acts_of_step step)

end Accounts

section Order

variable {staged : StagedBatch} {runs : List StagedRun} {moment : StagedMoment}
  {labels : List (List Completion × (ℤ × ScheduleEvent))} {records : List StageRecord}

theorem StagedAccounts.ascending
    (accounts : StagedAccounts staged (groupRunsByStage runs) labels moment records) :
    (records.Pairwise fun before after => before.stage < after.stage) ∧
      (∀ current, moment.current = some current →
        ∀ record ∈ records, record.stage < current.1) ∧
      ∀ current, moment.current = some current →
        ∀ entry ∈ moment.remaining, current.1 < entry.1 := by
  have ascending := groupRunsByStage_ascending runs
  rw [← accounts.stages, List.pairwise_append, List.pairwise_append, List.pairwise_map] at ascending
  obtain ⟨⟨inRecords, _, beforeCurrent⟩, _, ahead⟩ := ascending
  refine ⟨inRecords, fun current here record member => ?_, fun current here entry member => ?_⟩
  · exact beforeCurrent _ (List.mem_map_of_mem member) (current.1, current.2.1) (by simp [here])
  · exact ahead (current.1, current.2.1) (by simp [here]) entry member

theorem StagedAccounts.grouped
    (accounts : StagedAccounts staged (groupRunsByStage runs) labels moment records)
    {record : StageRecord} (member : record ∈ records) :
    (record.stage, record.runs) ∈ groupRunsByStage runs := by
  rw [← accounts.stages]
  simp only [List.mem_append]
  exact .inl (.inl (List.mem_map.mpr ⟨record, member, rfl⟩))

theorem StagedAccounts.currentGrouped
    (accounts : StagedAccounts staged (groupRunsByStage runs) labels moment records)
    {current : ℤ × List BatchRun × Moment} (here : moment.current = some current) :
    (current.1, current.2.1) ∈ groupRunsByStage runs := by
  rw [← accounts.stages]
  simp [here]

theorem StagedAccounts.recorded
    (accounts : StagedAccounts staged (groupRunsByStage runs) labels moment records)
    {current : ℤ × List BatchRun × Moment} (here : moment.current = some current)
    {lower : StagedRun} (member : lower ∈ runs) (below : lower.stage < current.1) :
    ∃ result ∈ moment.results, result.runID = lower.run.runID := by
  obtain ⟨_, _, ahead⟩ := accounts.ascending
  obtain ⟨group, grouped, inGroup⟩ := groupRunsByStage_of_mem member
  rw [← accounts.stages, List.mem_append, List.mem_append] at grouped
  rcases grouped with (behind | within) | later
  · obtain ⟨record, inRecords, same⟩ := List.mem_map.mp behind
    obtain ⟨_, rfl⟩ := Prod.mk.inj same
    have listed : lower.run.runID ∈ record.results.map TaskResult.runID :=
      (accounts.answered record inRecords).mem_iff.mpr (List.mem_map_of_mem inGroup)
    obtain ⟨result, inResults, named⟩ := List.mem_map.mp listed
    refine ⟨result, ?_, named⟩
    rw [accounts.results]
    exact List.mem_flatMap.mpr ⟨record, inRecords, inResults⟩
  · have same : lower.stage = current.1 := by
      simp only [here, Option.map_some, Option.toList_some, List.mem_singleton,
        Prod.mk.injEq] at within
      exact within.1
    exact absurd same below.ne
  · exact absurd (ahead current here _ later) (lt_asymm below)

theorem StagedAccounts.record_of_result (distinct : (runs.map fun run => run.run.runID).Nodup)
    (accounts : StagedAccounts staged (groupRunsByStage runs) labels moment records)
    {run : StagedRun} (member : run ∈ runs) {result : TaskResult} (listed : result ∈ moment.results)
    (named : result.runID = run.run.runID) :
    ∃ record ∈ records, result ∈ record.results ∧ record.stage = run.stage := by
  rw [accounts.results] at listed
  obtain ⟨record, inRecords, inResults⟩ := List.mem_flatMap.mp listed
  refine ⟨record, inRecords, inResults, (stage_of_group distinct member
    (accounts.grouped inRecords) ?_).symm⟩
  rw [← named]
  exact (accounts.answered record inRecords).mem_iff.mp (List.mem_map_of_mem inResults)

theorem StagedAccounts.not_ran
    (accounts : StagedAccounts staged (groupRunsByStage runs) labels moment records)
    (hard : staged.joinStrategy.Hard) {before after : StageRecord} (first : before ∈ records)
    (second : after ∈ records) (below : before.stage < after.stage)
    (failed : ∃ result ∈ before.results, result.status ≠ .completed) : after.ran = false := by
  obtain ⟨ascending, _, _⟩ := accounts.ascending
  have both := ascending.and (accounts.gated hard)
  obtain ⟨i, hi, rfl⟩ := List.mem_iff_getElem.mp first
  obtain ⟨j, hj, rfl⟩ := List.mem_iff_getElem.mp second
  rw [List.pairwise_iff_getElem] at both
  rcases lt_trichotomy i j with earlier | rfl | later
  · exact (both i j hi hj earlier).2 failed
  · exact absurd below (lt_irrefl _)
  · exact absurd (both j i hj hi later).1 (lt_asymm below)

theorem StagedBatch.returned_perm {results : List TaskResult}
    (returns : StagedBatch.returned runs moment = some results) :
    results.Perm moment.results ∧ moment.current = none ∧ moment.remaining = [] := by
  unfold StagedBatch.returned at returns
  split at returns
  · next current remaining _ => exact ⟨.of_eq (Option.some.inj returns).symm, current, remaining⟩
  · next _ current remaining _ =>
    refine ⟨?_, current, remaining⟩
    obtain rfl := Option.some.inj returns
    have sorted := (List.perm_insertionSort Batch.indexOrder (moment.results.map fun result =>
      (StagedBatch.orderOf runs result.runID, result))).map Prod.snd
    simpa [Function.comp_def] using sorted
  · cases returns

theorem StagedAccounts.returned (distinct : (runs.map fun run => run.run.runID).Nodup)
    (accounts : StagedAccounts staged (groupRunsByStage runs) labels moment records)
    {results : List TaskResult} (returns : StagedBatch.returned runs moment = some results) :
    results.Perm moment.results ∧
      (results.map TaskResult.runID).Perm (runs.map fun run => run.run.runID) := by
  obtain ⟨same, current, remaining⟩ := StagedBatch.returned_perm returns
  have stages := accounts.stages
  rw [current, remaining, Option.map_none, Option.toList_none, List.append_nil,
    List.append_nil] at stages
  refine ⟨same, (same.map _).trans (.trans ?_ (groupRunsByStage_perm distinct))⟩
  rw [accounts.results, ← stages, List.map_flatMap, List.flatMap_map]
  exact List.Perm.flatMap_left _ accounts.answered

end Order

/-- **The order of the stages.** For runs with distinct IDs in any stages, under any
strategy and however the executions come out, at every moment of the batch: an execution
that starts finds a result for every run of every lower stage; under `all_success` and
`fail_fast`, when a result of a lower stage is not a success, no run of a higher stage
has been started and each result of one is a cancellation; and when the executor returns,
its list has exactly one result for each run. -/
theorem stages_in_order (staged : StagedBatch) {runs : List StagedRun}
    (distinct : (runs.map fun run => run.run.runID).Nodup) {moment : StagedMoment}
    {labels : List (List Completion × (ℤ × ScheduleEvent))}
    (run : staged.system.Run (StagedBatch.opening runs) labels moment) :
    (∀ label moment' started, staged.system.step moment label moment' →
      label.2.2 = .started started →
      ∀ higher ∈ runs, higher.run.runID = started.runID →
      ∀ lower ∈ runs, lower.stage < higher.stage →
      ∃ result ∈ moment.results, result.runID = lower.run.runID) ∧
    (staged.joinStrategy = .allSuccess ∨ staged.joinStrategy = .failFast →
      ∀ lower ∈ runs, ∀ result ∈ moment.results, result.runID = lower.run.runID →
      result.status ≠ .completed →
      ∀ higher ∈ runs, lower.stage < higher.stage →
      higher.run.runID ∉ startedIDs labels ∧
        ∀ own ∈ moment.results, own.runID = higher.run.runID → own.status = .cancelled) ∧
    (∀ results, StagedBatch.returned runs moment = some results →
      (results.map TaskResult.runID).Perm (runs.map fun run => run.run.runID) ∧
        results.Perm moment.results) := by
  obtain ⟨records, accounts⟩ := StagedAccounts.run distinct run
  refine ⟨?_, ?_, ?_⟩
  · intro label moment' started step shown higher inRuns named lower lowerIn below
    have acts := StagedBatch.acts_of_step step
    obtain ⟨done, stage, event⟩ := label
    obtain rfl : event = .started started := shown
    cases acts with
    | act inner =>
        obtain ⟨_, among, _, _⟩ := accounts.current _ rfl
        have inStage := among.pending started (Batch.acts_of_step inner).started_mem
        have here : higher.stage = stage :=
          stage_of_group distinct inRuns (accounts.currentGrouped rfl) (by rw [named]; exact inStage)
        exact accounts.recorded rfl lowerIn (by rw [← here]; exact below)
  · intro hard lower lowerIn result listed named failed higher higherIn below
    obtain ⟨before, first, inBefore, lowerStage⟩ :=
      accounts.record_of_result distinct lowerIn listed named
    have closed : ∃ result ∈ before.results, result.status ≠ .completed := ⟨result, inBefore, failed⟩
    refine ⟨fun began => ?_, fun own ownListed ownNamed => ?_⟩
    · rcases accounts.started _ began with ⟨after, second, ran, inAfter⟩ | ⟨current, here, _⟩
      · have stage := stage_of_group distinct higherIn (accounts.grouped second) inAfter
        have skipped := accounts.not_ran hard first second (by omega) closed
        rw [ran] at skipped
        cases skipped
      · have unblocked := (accounts.current current here).1
        exact failed (accounts.passed hard unblocked before first result inBefore)
    · obtain ⟨after, second, inAfter, stage⟩ :=
        accounts.record_of_result distinct higherIn ownListed ownNamed
      have skipped := accounts.not_ran hard first second (by omega) closed
      exact accounts.cancelled after second skipped own inAfter
  · intro results returns
    obtain ⟨same, answers⟩ := accounts.returned distinct returns
    exact ⟨answers, same⟩

/-- The completion of the first task with a status, never to be retried. -/
def Completion.first (status : Status) : Completion where
  task := 0
  now := 5
  execute run := .ok ⟨run.runID, run.taskID, status, "", "", none, "", none, none, none⟩
  owned := by
    intro run result returned
    cases returned
    rfl
  shouldRetry _ _ := false
  prepareRetry _ _ := none
  sameRun := by
    intro run result again reopened
    cases reopened

/-- Two stages with a gap under `all_success`: the run of the first fails, and that of the
second is cancelled unstarted. -/
theorem stages_in_order_blocked :
    let staged : StagedBatch := ⟨20, 2, .allSuccess, fun _ => none, fun _ => none, fun _ _ => 9⟩
    let runs : List StagedRun := [⟨⟨"b", 1, "", "", none⟩, 4⟩, ⟨⟨"a", 0, "", "", none⟩, 1⟩]
    let final := System.follow staged.next (StagedBatch.opening runs)
      ([[], [], [], [Completion.first .failed]] ++ List.replicate 7 [])
    final.2.results.map (fun result => (result.runID, result.status)) =
        [("a", .failed), ("b", .cancelled)] ∧
      "b" ∉ startedIDs final.1 := by
  intro staged runs final
  have run : staged.system.Run (StagedBatch.opening runs) final.1 final.2 := .follow _ _ _
  obtain ⟨_, blocked, _⟩ := stages_in_order staged (by decide) run
  obtain ⟨result, listed, named, failed⟩ : ∃ result ∈ final.2.results,
      result.runID = "a" ∧ result.status ≠ .completed := by decide
  exact ⟨by decide, (blocked (.inl rfl) ⟨⟨"a", 0, "", "", none⟩, 1⟩ (by decide) result listed named
    failed ⟨⟨"b", 1, "", "", none⟩, 4⟩ (by decide) (by decide)).1⟩

end Sico.TaskRuntime

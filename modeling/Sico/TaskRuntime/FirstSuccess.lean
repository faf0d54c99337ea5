import Sico.TaskRuntime.Stages

/-! # First success

Under `first_success` the scheduler starts nothing after it has observed a success. The
gate between the stages knows the hard strategies only, so the stage after a success is
scheduled all the same. An execution therefore starts behind a success exactly when some
stage but the last has one.
-/

namespace Sico.TaskRuntime

open Foundation

/-- A label of a staged schedule: what a wait returned, the stage and what was shown. -/
abbrev StagedLabel := List Completion × (ℤ × ScheduleEvent)

/-- Whether an action observes a success. -/
def StagedLabel.isSuccess (label : StagedLabel) : Bool :=
  match label.2.2 with
  | .observed _ result => result.status = .completed
  | _ => false

/-- Whether an action starts an execution. -/
def StagedLabel.isStart (label : StagedLabel) : Bool :=
  match label.2.2 with
  | .started _ => true
  | _ => false

theorem StagedLabel.isSuccess_iff {label : StagedLabel} :
    label.isSuccess ↔ ∃ run result, label.2.2 = .observed run result ∧ result.status = .completed := by
  unfold StagedLabel.isSuccess
  cases label.2.2 <;> simp

theorem StagedLabel.isStart_iff {label : StagedLabel} :
    label.isStart ↔ ∃ run, label.2.2 = .started run := by
  unfold StagedLabel.isStart
  cases label.2.2 <;> simp

/-- Whether an execution starts after a success has been observed. -/
def StartsAfterSuccess (labels : List StagedLabel) : Prop :=
  ∃ (before : List StagedLabel) (label : StagedLabel) (after : List StagedLabel),
    labels = before ++ label :: after ∧ label.isStart ∧
    ∃ earlier ∈ before, earlier.isSuccess

/-- Whether every success is one of the last stage. -/
def SuccessOnlyLast (runs : List StagedRun) (labels : List StagedLabel) : Prop :=
  ∀ label ∈ labels, label.isSuccess → ∀ run ∈ runs, run.stage ≤ label.2.1

theorem StartsAfterSuccess.append {labels : List StagedLabel} (starts : StartsAfterSuccess labels)
    (label : StagedLabel) : StartsAfterSuccess (labels ++ [label]) := by
  obtain ⟨before, start, after, rfl, began, earlier⟩ := starts
  exact ⟨before, start, after ++ [label], by simp, began, earlier⟩

/-- One more action is a start behind a success only if there was one already, or it is
one itself. -/
theorem startsAfterSuccess_append {labels : List StagedLabel} {label : StagedLabel} :
    StartsAfterSuccess (labels ++ [label]) ↔
      StartsAfterSuccess labels ∨ (label.isStart ∧ ∃ earlier ∈ labels, earlier.isSuccess) := by
  constructor
  · rintro ⟨before, start, after, same, began, earlier⟩
    rcases List.eq_nil_or_concat after with rfl | ⟨rest, last, rfl⟩
    · obtain ⟨rfl, rfl⟩ := List.append_singleton_inj.mp same
      exact .inr ⟨began, earlier⟩
    · have front : labels = before ++ start :: rest := by
        have split : labels ++ [label] = (before ++ start :: rest) ++ [last] := by simpa using same
        exact (List.append_singleton_inj.mp split).1
      exact .inl ⟨before, start, rest, front, began, earlier⟩
  · rintro (starts | ⟨began, earlier⟩)
    · exact starts.append label
    · exact ⟨labels, label, [], rfl, began, earlier⟩

theorem startsAfterSuccess_split {front back : List StagedLabel}
    (success : ∃ label ∈ front, label.isSuccess) (start : ∃ label ∈ back, label.isStart) :
    StartsAfterSuccess (front ++ back) := by
  obtain ⟨label, member, began⟩ := start
  obtain ⟨before, after, rfl⟩ := List.append_of_mem member
  obtain ⟨earlier, inFront, succeeded⟩ := success
  exact ⟨front ++ before, label, after, by simp, began, earlier,
    List.mem_append_left _ inFront, succeeded⟩

section Scheduler

variable {batch : Batch} {moment moment' : Moment} {event : ScheduleEvent}

/-- Whether the scheduler is bound to stop: it was asked to, or a success is in hand. -/
def Moment.Stopping (moment : Moment) : Prop :=
  moment.state.stopReason.isSome ∨
    match moment.position with
    | .collecting _ completed => ∃ finished ∈ completed, finished.2.2.status = .completed
    | .settling stops completed =>
        stops = true ∧ ∃ finished ∈ completed, finished.2.2.status = .completed
    | _ => False

theorem stopReasonOf_success {result : TaskResult} (success : result.status = .completed) :
    (stopReasonOf .firstSuccess result).isSome := by
  simp [stopReasonOf, success]

theorem Batch.settle_stops (first : batch.joinStrategy = .firstSuccess) {stops : Bool}
    {state : SchedulerState} {finished : Completion × BatchRun × TaskResult}
    (stop : state.stopReason.isSome ∨ (stops = true ∧ finished.2.2.status = .completed)) :
    (batch.settle stops state finished).stopReason.isSome := by
  unfold Batch.settle
  dsimp only
  split
  · next retry reopened =>
    rcases stop with stopped | ⟨rfl, _⟩
    · exact stopped
    · simp at reopened
  · rcases stop with stopped | ⟨_, success⟩
    · simp [stopped]
    · simp [first, stopReasonOf_success success]

theorem Batch.Acts.stopping (acts : batch.Acts moment event moment')
    (first : batch.joinStrategy = .firstSuccess) (stopping : moment.Stopping) :
    moment'.Stopping := by
  cases acts with
  | start started _ =>
      obtain ⟨run, _, rfl⟩ := Batch.startNext_eq_some started
      exact .inl (stopping.resolve_right id)
  | wait | leave | wake => exact .inl (stopping.resolve_right id)
  | pop popped =>
      obtain ⟨task, _, same⟩ := Option.map_eq_some_iff.mp popped
      obtain ⟨rfl, rfl, rfl⟩ : _ ∧ _ ∧ _ := by simpa using same
      rcases stopping with stopped | ⟨finished, member, success⟩
      · exact .inl stopped
      · exact .inr ⟨finished, List.mem_append_left _ member, success⟩
  | judge =>
      rcases stopping with stopped | ⟨finished, member, success⟩
      · exact .inl stopped
      · refine .inr ⟨?_, finished, member, success⟩
        rw [Batch.roundStops, Bool.or_eq_true, List.any_eq_true]
        exact .inr ⟨finished, member, by rw [first]; exact stopReasonOf_success success⟩
  | settle =>
      rcases stopping with stopped | ⟨stops, held, member, success⟩
      · exact .inl (Batch.settle_stops first (.inl stopped))
      · rcases List.mem_cons.mp member with rfl | later
        · exact .inl (Batch.settle_stops first (.inr ⟨stops, success⟩))
        · exact .inr ⟨stops, held, later, success⟩
  | resume =>
      rcases stopping with stopped | ⟨_, _, member, _⟩
      · exact .inl stopped
      · cases member

theorem Batch.Acts.not_stopping {run : BatchRun}
    (acts : batch.Acts moment (.started run) moment') : ¬ moment.Stopping := by
  cases acts with
  | start started _ =>
      intro stopping
      have stopped := stopping.resolve_right id
      simp [Batch.startNext, stopped] at started

theorem Batch.Acts.observed_stopping {run : BatchRun} {result : TaskResult}
    (acts : batch.Acts moment (.observed run result) moment')
    (success : result.status = .completed) : moment'.Stopping := by
  cases acts with
  | pop => exact .inr ⟨_, List.mem_append_right _ (List.mem_singleton_self _), success⟩

theorem Batch.Acts.opening_starts {runs : List BatchRun} (some : runs ≠ [])
    (acts : batch.Acts (Batch.opening runs) event moment') : ∃ run, event = .started run := by
  have counted : (Batch.start runs).Counted := fun _ => rfl
  cases acts with
  | start _ _ => exact ⟨_, rfl⟩
  | wait full _ => exact absurd (counted.pending_of_idle full rfl rfl) some
  | leave full _ => exact absurd (counted.pending_of_idle full rfl rfl) some

theorem Batch.Acts.pending {id : String} (acts : batch.Acts moment event moment')
    (other : ∀ run, event = .started run → run.runID ≠ id)
    (waits : id ∈ moment.state.pending.map BatchRun.runID) :
    id ∈ moment'.state.pending.map BatchRun.runID := by
  cases acts with
  | start started found =>
      obtain ⟨run, again, rfl⟩ := Batch.startNext_eq_some started
      obtain rfl := Option.some.inj (found.symm.trans again)
      have moved := ((perm_cons_eraseP found).map BatchRun.runID).mem_iff.mp waits
      rw [List.map_cons, List.mem_cons] at moved
      exact moved.resolve_left fun same => other _ rfl same.symm
  | pop popped =>
      obtain ⟨_, _, same⟩ := Option.map_eq_some_iff.mp popped
      obtain ⟨rfl, _, _⟩ : _ ∧ _ ∧ _ := by simpa using same
      exact waits
  | @settle state stops finished rest =>
      obtain ⟨run, member, rfl⟩ := List.mem_map.mp waits
      refine List.mem_map_of_mem ?_
      unfold Batch.settle
      dsimp only
      split
      · exact List.mem_append_left _ member
      · exact member
  | wait | leave | wake | judge | resume => exact waits

theorem StagedBatch.finish_cancels {staged : StagedBatch} {runs : List BatchRun}
    {state : SchedulerState} {inner : List (List Completion × ScheduleEvent)}
    {stageResults : List TaskResult} (distinct : (runs.map BatchRun.runID).Nodup)
    (run : staged.scheduler.schedule.Run (Batch.opening runs) inner ⟨.left, state⟩)
    (finished : staged.scheduler.finish runs state = some stageResults) {result : TaskResult}
    (listed : result ∈ stageResults)
    (waits : result.runID ∈ state.pending.map BatchRun.runID) : result.status = .cancelled := by
  obtain ⟨rounds, looped⟩ := Batch.schedule_loop run
  have initial : Accounts (runs.map BatchRun.runID : List String) (Batch.start runs) :=
    ⟨by simp [SchedulerState.ids, Batch.start], by simp [Batch.start], by simp [Batch.start]⟩
  obtain ⟨accounts, idle, settled⟩ := initial.loop (Multiset.coe_nodup.mpr distinct) looped
  cases stopped : state.stopReason with
  | none => simp [settled stopped] at waits
  | some reason =>
      have together : (state.results.map Prod.fst ++ state.pending.map BatchRun.runID).Nodup := by
        have ids := accounts.ids
        rw [SchedulerState.ids, idle, List.map_nil, Multiset.coe_nil, add_zero, add_comm] at ids
        rw [← Multiset.coe_nodup, ← Multiset.coe_add, ids]
        exact Multiset.coe_nodup.mpr distinct
      have cancelled : staged.scheduler.cancelRemaining state.pending reason state.results = _ :=
        cancelRemaining_eq rfl reason together
      simp only [Batch.finish, stopped, cancelled, Option.bind_eq_bind,
        Option.bind_eq_some_iff, Option.pure_def, Option.some.injEq] at finished
      obtain ⟨keyed, indexed, rfl⟩ := finished
      have values := (keyed_results indexed).1
      have member : result ∈ keyed.map Prod.snd :=
        ((List.perm_insertionSort Batch.indexOrder keyed).map Prod.snd).mem_iff.mp listed
      rw [values] at member
      obtain ⟨entry, inEntries, rfl⟩ := List.mem_map.mp member
      rcases List.mem_append.mp inEntries with before | added
      · rw [accounts.owned entry before] at waits
        exact absurd rfl ((List.nodup_append.mp together).2.2 _ (List.mem_map_of_mem before) _ waits)
      · obtain ⟨pending, _, rfl⟩ := List.mem_map.mp added
        rfl

end Scheduler

section Executor

/-- The successes observed so far, against the starts: where they stand, what they bind
the scheduler to, and which stages they leave to be started behind them. -/
structure SuccessAccounts (runs : List StagedRun) (labels : List StagedLabel)
    (moment : StagedMoment) : Prop where
  unblocked : moment.blockedBy = none
  reached : ∀ label ∈ labels, label.isSuccess →
    (∀ current, moment.current = some current → label.2.1 ≤ current.1) ∧
      ∀ entry ∈ moment.remaining, label.2.1 < entry.1
  stopping : ∀ label ∈ labels, label.isSuccess → ∀ current, moment.current = some current →
    label.2.1 = current.1 → current.2.2.Stopping
  excused : StartsAfterSuccess labels →
    ∃ label ∈ labels, label.isSuccess ∧ ∃ run ∈ runs, label.2.1 < run.stage
  blamed : ∀ label ∈ labels, label.isSuccess → ∀ run ∈ runs, label.2.1 < run.stage →
    StartsAfterSuccess labels ∨ ∃ group, (run.stage, group) ∈ moment.remaining ∨
      moment.current = some (run.stage, group, Batch.opening group)
  waiting : ∀ current, moment.current = some current → ∀ id ∈ current.2.1.map BatchRun.runID,
    id ∉ startedIDs labels → id ∈ current.2.2.state.pending.map BatchRun.runID
  unstarted : ∀ result ∈ moment.results, result.runID ∉ startedIDs labels →
    result.status = .cancelled

variable {staged : StagedBatch} {runs : List StagedRun} {labels : List StagedLabel}
  {label : StagedLabel} {records : List StageRecord} {remaining : List (ℤ × List BatchRun)}
  {results : List TaskResult} {stage : ℤ} {group : List BatchRun}

theorem StagedLabel.quiet_neither (quiet : label.2 = (stage, .quiet)) :
    ¬ label.isSuccess ∧ ¬ label.isStart := by
  simp [StagedLabel.isSuccess, StagedLabel.isStart, quiet]

theorem successes_quiet (quiet : label.2 = (stage, .quiet)) {other : StagedLabel}
    (member : other ∈ labels ++ [label]) (success : other.isSuccess) : other ∈ labels := by
  rcases List.mem_append.mp member with before | now
  · exact before
  · obtain rfl := List.mem_singleton.mp now
    exact absurd success (StagedLabel.quiet_neither quiet).1

theorem SuccessAccounts.enter
    (accounts : SuccessAccounts runs labels ⟨(stage, group) :: remaining, none, results, none⟩)
    (quiet : label.2 = (stage, .quiet)) :
    SuccessAccounts runs (labels ++ [label])
      ⟨remaining, some (stage, group, Batch.opening group), results, none⟩ := by
  have neither := StagedLabel.quiet_neither quiet
  refine ⟨rfl, ?_, ?_, ?_, ?_, ?_, ?_⟩
  · intro other member success
    have before := (accounts.reached other (successes_quiet quiet member success) success).2
    refine ⟨fun current here => ?_, fun entry inRest => before entry (List.mem_cons_of_mem _ inRest)⟩
    obtain rfl := Option.some.inj here
    exact (before _ (List.mem_cons_self ..)).le
  · intro other member success current here same
    obtain rfl := Option.some.inj here
    have before := (accounts.reached other (successes_quiet quiet member success) success).2
    exact absurd same (before _ (List.mem_cons_self ..)).ne
  · intro starts
    rcases startsAfterSuccess_append.mp starts with before | ⟨began, _⟩
    · obtain ⟨other, member, excuse⟩ := accounts.excused before
      exact ⟨other, List.mem_append_left _ member, excuse⟩
    · exact absurd began neither.2
  · intro other member success run inRuns above
    rcases accounts.blamed other (successes_quiet quiet member success) success run inRuns above
      with starts | ⟨own, ahead | here⟩
    · exact .inl (starts.append label)
    · rcases List.mem_cons.mp ahead with same | later
      · obtain ⟨rfl, rfl⟩ := Prod.mk.inj same
        exact .inr ⟨own, .inr rfl⟩
      · exact .inr ⟨own, .inl later⟩
    · cases here
  · intro current here id listed _
    obtain rfl := Option.some.inj here
    exact listed
  · intro result listed unstarted
    rw [startedIDs_quiet quiet] at unstarted
    exact accounts.unstarted result listed unstarted

theorem SuccessAccounts.act {inner inner' : Moment} {event : ScheduleEvent}
    {done : List Completion} (first : staged.joinStrategy = .firstSuccess)
    (known : StagedAccounts staged (groupRunsByStage runs) labels
      ⟨remaining, some (stage, group, inner), results, none⟩ records)
    (accounts : SuccessAccounts runs labels ⟨remaining, some (stage, group, inner), results, none⟩)
    (shown : label.2 = (stage, event))
    (step : staged.scheduler.schedule.step inner (done, event) inner') :
    SuccessAccounts runs (labels ++ [label])
      ⟨remaining, some (stage, group, inner'), results, none⟩ := by
  have acts := Batch.acts_of_step step
  obtain ⟨_, behind, ahead⟩ := known.ascending
  have grouped := known.currentGrouped rfl
  refine ⟨rfl, ?_, ?_, ?_, ?_, ?_, ?_⟩
  · intro other member success
    rcases List.mem_append.mp member with before | now
    · obtain ⟨within, later⟩ := accounts.reached other before success
      refine ⟨fun current here => ?_, later⟩
      obtain rfl := Option.some.inj here
      exact within (stage, group, inner) rfl
    · obtain rfl := List.mem_singleton.mp now
      refine ⟨fun current here => ?_, fun entry inRest => ?_⟩
      · obtain rfl := Option.some.inj here
        rw [shown]
      · rw [shown]
        exact ahead _ rfl entry inRest
  · intro other member success current here same
    obtain rfl := Option.some.inj here
    rcases List.mem_append.mp member with before | now
    · exact acts.stopping first (accounts.stopping other before success _ rfl same)
    · obtain rfl := List.mem_singleton.mp now
      obtain ⟨run, result, observed, completed⟩ := StagedLabel.isSuccess_iff.mp success
      rw [shown] at observed
      obtain rfl : event = .observed run result := observed
      exact acts.observed_stopping completed
  · intro starts
    rcases startsAfterSuccess_append.mp starts with before | ⟨began, other, member, success⟩
    · obtain ⟨other, member, excuse⟩ := accounts.excused before
      exact ⟨other, List.mem_append_left _ member, excuse⟩
    · obtain ⟨run, began⟩ := StagedLabel.isStart_iff.mp began
      rw [shown] at began
      obtain rfl : event = .started run := began
      have upTo := (accounts.reached other member success).1 _ rfl
      have below : other.2.1 < stage := by
        refine lt_of_le_of_ne upTo fun same => ?_
        exact acts.not_stopping (accounts.stopping other member success _ rfl same)
      obtain ⟨own, inGroup⟩ := List.exists_mem_of_ne_nil _ (groupRunsByStage_ne_nil grouped)
      rw [mem_groupRunsByStage grouped] at inGroup
      obtain ⟨holder, found, _⟩ := List.mem_map.mp inGroup
      obtain ⟨inRuns, here⟩ := List.mem_filter.mp found
      have here : holder.stage = stage := by simpa using here
      exact ⟨other, List.mem_append_left _ member, success, holder, inRuns, by omega⟩
  · intro other member success run inRuns above
    rcases List.mem_append.mp member with before | now
    · rcases accounts.blamed other before success run inRuns above with starts | ⟨own, later | here⟩
      · exact .inl (starts.append label)
      · exact .inr ⟨own, .inl later⟩
      · obtain ⟨rfl, rfl, rfl⟩ : stage = run.stage ∧ group = own ∧ inner = Batch.opening own := by
          simpa using here
        obtain ⟨began, rfl⟩ := acts.opening_starts (groupRunsByStage_ne_nil grouped)
        have starts : label.isStart := StagedLabel.isStart_iff.mpr ⟨began, by rw [shown]⟩
        exact .inl (startsAfterSuccess_append.mpr (.inr ⟨starts, other, before, success⟩))
    · obtain rfl := List.mem_singleton.mp now
      obtain ⟨own, located, _⟩ := groupRunsByStage_of_mem inRuns
      rw [shown] at above
      rw [← known.stages, List.mem_append, List.mem_append] at located
      rcases located with (recorded | within) | later
      · obtain ⟨record, inRecords, same⟩ := List.mem_map.mp recorded
        have passed := behind _ rfl record inRecords
        obtain ⟨stageOf, _⟩ := Prod.mk.inj same
        dsimp only at passed above
        omega
      · simp only [Option.map_some, Option.toList_some, List.mem_singleton, Prod.mk.injEq] at within
        dsimp only at above
        omega
      · exact .inr ⟨own, .inl later⟩
  · intro current here id listed unstarted
    obtain rfl := Option.some.inj here
    rw [startedIDs_append, List.mem_append, not_or] at unstarted
    refine acts.pending ?_ (accounts.waiting _ rfl id listed unstarted.1)
    rintro run rfl rfl
    exact unstarted.2 (mem_startedIDs.mpr ⟨label, List.mem_singleton_self _, run, by rw [shown], rfl⟩)
  · intro result listed unstarted
    rw [startedIDs_append, List.mem_append, not_or] at unstarted
    exact accounts.unstarted result listed unstarted.1

theorem SuccessAccounts.close {state : SchedulerState} {stageResults : List TaskResult}
    (distinct : (runs.map fun run => run.run.runID).Nodup)
    (known : StagedAccounts staged (groupRunsByStage runs) labels
      ⟨remaining, some (stage, group, ⟨.left, state⟩), results, none⟩ records)
    (accounts : SuccessAccounts runs labels
      ⟨remaining, some (stage, group, ⟨.left, state⟩), results, none⟩)
    (quiet : label.2 = (stage, .quiet))
    (finished : staged.scheduler.finish group state = some stageResults) :
    SuccessAccounts runs (labels ++ [label]) ⟨remaining, none, results ++ stageResults, none⟩ := by
  have neither := StagedLabel.quiet_neither quiet
  refine ⟨rfl, ?_, ?_, ?_, ?_, ?_, ?_⟩
  · intro other member success
    refine ⟨fun current here => ?_,
      (accounts.reached other (successes_quiet quiet member success) success).2⟩
    cases here
  · intro _ _ _ current here
    cases here
  · intro starts
    rcases startsAfterSuccess_append.mp starts with before | ⟨began, _⟩
    · obtain ⟨other, member, excuse⟩ := accounts.excused before
      exact ⟨other, List.mem_append_left _ member, excuse⟩
    · exact absurd began neither.2
  · intro other member success run inRuns above
    rcases accounts.blamed other (successes_quiet quiet member success) success run inRuns above
      with starts | ⟨own, later | here⟩
    · exact .inl (starts.append label)
    · exact .inr ⟨own, .inl later⟩
    · simp [Batch.opening] at here
  · intro current here
    cases here
  · intro result listed unstarted
    rw [startedIDs_quiet quiet] at unstarted
    rcases List.mem_append.mp listed with before | now
    · exact accounts.unstarted result before unstarted
    · obtain ⟨_, _, inner, front⟩ := known.current _ rfl
      have nodup := group_nodup distinct (known.currentGrouped rfl)
      have answers := StagedBatch.finish_answers nodup front finished
      have inGroup := answers.mem_iff.mp (List.mem_map_of_mem now)
      exact StagedBatch.finish_cancels nodup front finished now
        (accounts.waiting _ rfl _ inGroup unstarted)

/-- **Every staged schedule under `first_success`** keeps the account of its successes. -/
theorem SuccessAccounts.run {moment : StagedMoment} (first : staged.joinStrategy = .firstSuccess)
    (distinct : (runs.map fun run => run.run.runID).Nodup)
    (run : staged.system.Run (StagedBatch.opening runs) labels moment) :
    SuccessAccounts runs labels moment := by
  induction run with
  | nil =>
      refine ⟨rfl, by simp, by simp, ?_, by simp, by simp [StagedBatch.opening],
        by simp [StagedBatch.opening]⟩
      rintro ⟨before, label, after, same, _⟩
      simp at same
  | @snoc labels source target label front step accounts =>
      obtain ⟨records, known⟩ := StagedAccounts.run distinct front
      have acts := StagedBatch.acts_of_step step
      generalize shown : label.2 = event at acts
      have unblocked := accounts.unblocked
      cases acts with
      | skip => cases unblocked
      | enter => exact accounts.enter shown
      | act inner =>
          obtain rfl := unblocked
          exact accounts.act first known shown inner
      | close finished =>
          obtain rfl := unblocked
          have opens := accounts.close distinct known shown finished
          simpa [stageGateBlocks, first] using opens

end Executor

/-- **First success, exactly.** In a batch under `first_success`, at any moment: as long
as only the last stage has had a success, no execution has started after one. When the
executor returns, the batch stopped at its first success, with a cancelled result for
every run that was never started, if and only if no stage but the last had a success. -/
theorem first_success_stops_iff (staged : StagedBatch)
    (first : staged.joinStrategy = .firstSuccess) {runs : List StagedRun}
    (distinct : (runs.map fun run => run.run.runID).Nodup) {moment : StagedMoment}
    {labels : List StagedLabel}
    (run : staged.system.Run (StagedBatch.opening runs) labels moment) :
    (SuccessOnlyLast runs labels → ¬ StartsAfterSuccess labels) ∧
    ∀ results, StagedBatch.returned runs moment = some results →
      ((¬ StartsAfterSuccess labels ∧
        ∀ own ∈ runs, own.run.runID ∉ startedIDs labels →
          ∃ result ∈ results, result.runID = own.run.runID ∧ result.status = .cancelled) ↔
        SuccessOnlyLast runs labels) := by
  have accounts := SuccessAccounts.run first distinct run
  have stops (last : SuccessOnlyLast runs labels) : ¬ StartsAfterSuccess labels := by
    intro starts
    obtain ⟨label, member, success, own, inRuns, above⟩ := accounts.excused starts
    exact absurd (last label member success own inRuns) (not_le.mpr above)
  refine ⟨stops, fun results returns => ⟨fun stopped => ?_, fun last => ⟨stops last, ?_⟩⟩⟩
  · obtain ⟨_, current, remaining⟩ := StagedBatch.returned_perm returns
    intro label member success own inRuns
    by_contra above
    rcases accounts.blamed label member success own inRuns (not_le.mp above)
      with starts | ⟨group, later | here⟩
    · exact stopped.1 starts
    · rw [remaining] at later
      cases later
    · rw [current] at here
      cases here
  · intro own inRuns unstarted
    obtain ⟨records, known⟩ := StagedAccounts.run distinct run
    obtain ⟨same, answers⟩ := known.returned distinct returns
    have listed := answers.mem_iff.mpr (List.mem_map_of_mem inRuns)
    obtain ⟨result, inResults, named⟩ := List.mem_map.mp listed
    exact ⟨result, inResults, named,
      accounts.unstarted result (same.mem_iff.mp inResults) (by rw [named]; exact unstarted)⟩

/-- One stage with two runs, one at a time: the first succeeds, and the second is
cancelled unstarted. -/
theorem first_success_stops_iff_one_stage :
    let staged : StagedBatch := ⟨20, 1, .firstSuccess, fun _ => none, fun _ => none, fun _ _ => 9⟩
    let runs : List StagedRun := [⟨⟨"a", 0, "", "", none⟩, 0⟩, ⟨⟨"b", 1, "", "", none⟩, 0⟩]
    let final := System.follow staged.next (StagedBatch.opening runs)
      ([[], [], [], [Completion.first .completed]] ++ List.replicate 6 [])
    ¬ StartsAfterSuccess final.1 ∧
      ∃ result ∈ final.2.results, result.runID = "b" ∧ result.status = .cancelled := by
  intro staged runs final
  have run : staged.system.Run (StagedBatch.opening runs) final.1 final.2 := .follow _ _ _
  obtain ⟨_, iff⟩ := first_success_stops_iff staged rfl (by decide) run
  have last : SuccessOnlyLast runs final.1 := by
    intro label member success own inRuns
    have labelled : ∀ label ∈ final.1, label.2.1 = 0 := by decide
    have staged : ∀ own ∈ runs, own.stage ≤ 0 := by decide
    rw [labelled label member]
    exact staged own inRuns
  obtain ⟨stopped, cancelled⟩ := (iff final.2.results (by decide)).mpr last
  exact ⟨stopped, cancelled ⟨⟨"b", 1, "", "", none⟩, 0⟩ (by decide) (by decide)⟩

/-- Two stages with one run each: the first run succeeds, and the second is started
behind it and returns a result of its own. -/
theorem first_success_runs_next_stage :
    let staged : StagedBatch := ⟨20, 2, .firstSuccess, fun _ => none, fun _ => none, fun _ _ => 9⟩
    let runs : List StagedRun := [⟨⟨"a", 0, "", "", none⟩, 0⟩, ⟨⟨"b", 1, "", "", none⟩, 1⟩]
    let choices := [[], [], [], [Completion.first .completed]] ++ List.replicate 6 []
    let final := System.follow staged.next (StagedBatch.opening runs) (choices ++ choices)
    staged.system.Run (StagedBatch.opening runs) final.1 final.2 ∧
      (StagedBatch.returned runs final.2).map (List.map TaskResult.status) =
        some [.completed, .completed] ∧
      StartsAfterSuccess final.1 := by
  intro staged runs choices final
  refine ⟨.follow _ _ _, by decide, ?_⟩
  rw [← List.take_append_drop 11 final.1]
  exact startsAfterSuccess_split (by decide) (by decide)

end Sico.TaskRuntime

import Sico.Foundation.System
import Sico.TaskRuntime.Scheduler

/-! # Schedules

The loop of the scheduler, one action at a time: a run started, the wait, one finished
task taken out of the running ones, one result recorded or one run queued again. The
schedules of a batch are the runs of this system, unfinished ones included, and the loop
that the given rounds drive is one of them (`Batch.loop_schedule`, `Batch.schedule_loop`).
At every moment of every schedule the running executions keep within the concurrency and
the resource limits, and the counters are exact.
-/

namespace Sico.TaskRuntime

open Foundation

/-- Where the loop stands between two of its actions. -/
inductive Position where
  /-- In the inner loop. -/
  | launching
  /-- At `asyncio.wait`. -/
  | waiting
  /-- In the first phase of a round, with the finished tasks still to take. -/
  | collecting (done : List Completion) (completed : List (Completion × BatchRun × TaskResult))
  /-- In the second phase of a round, with the results still to settle. -/
  | settling (roundStops : Bool) (completed : List (Completion × BatchRun × TaskResult))
  /-- Behind the loop. -/
  | left

/-- A moment of a schedule. -/
structure Moment where
  position : Position
  state : SchedulerState

/-- What an action of the loop shows. -/
inductive ScheduleEvent where
  /-- The execution of a run starts. -/
  | started (run : BatchRun)
  /-- The result of a finished execution is observed. -/
  | observed (run : BatchRun) (result : TaskResult)
  | quiet

namespace Batch

def roundStops (batch : Batch) (state : SchedulerState)
    (completed : List (Completion × BatchRun × TaskResult)) : Bool :=
  state.stopReason.isSome ||
    completed.any fun finished => (stopReasonOf batch.joinStrategy finished.2.2).isSome

/-- The next action of the loop. The environment only decides which tasks a wait
returns, `done`. -/
def next (batch : Batch) (done : List Completion) (moment : Moment) :
    Option (ScheduleEvent × Moment) :=
  match moment.position with
  | .launching =>
      match batch.startNext moment.state,
        moment.state.pending.find? (batch.canStart moment.state.inUse) with
      | some state, some run => some (.started run, ⟨.launching, state⟩)
      | _, _ =>
          some (.quiet, ⟨if moment.state.running = [] then .left else .waiting, moment.state⟩)
  | .waiting => some (.quiet, ⟨.collecting done [], moment.state⟩)
  | .collecting [] completed =>
      some (.quiet, ⟨.settling (batch.roundStops moment.state completed) completed, moment.state⟩)
  | .collecting (completion :: rest) completed =>
      (popTask moment.state completion).map fun popped =>
        (.observed popped.2.1 popped.2.2,
          ⟨.collecting rest (completed ++ [(completion, popped.2.1, popped.2.2)]), popped.1⟩)
  | .settling _ [] => some (.quiet, ⟨.launching, moment.state⟩)
  | .settling stops (finished :: rest) =>
      some (.quiet, ⟨.settling stops rest, batch.settle stops moment.state finished⟩)
  | .left => none

def schedule (batch : Batch) : System Moment (List Completion × ScheduleEvent) :=
  System.reacting batch.next

def opening (runs : List BatchRun) : Moment := ⟨.launching, start runs⟩

end Batch

/-- What one action of the loop can do. -/
inductive Batch.Acts (batch : Batch) : Moment → ScheduleEvent → Moment → Prop where
  | start {state next : SchedulerState} {run : BatchRun}
      (started : batch.startNext state = some next)
      (found : state.pending.find? (batch.canStart state.inUse) = some run) :
      Acts batch ⟨.launching, state⟩ (.started run) ⟨.launching, next⟩
  | wait {state : SchedulerState} (full : batch.startNext state = none)
      (busy : state.running ≠ []) : Acts batch ⟨.launching, state⟩ .quiet ⟨.waiting, state⟩
  | leave {state : SchedulerState} (full : batch.startNext state = none)
      (idle : state.running = []) : Acts batch ⟨.launching, state⟩ .quiet ⟨.left, state⟩
  | wake {state : SchedulerState} (done : List Completion) :
      Acts batch ⟨.waiting, state⟩ .quiet ⟨.collecting done [], state⟩
  | pop {state next : SchedulerState} {completion : Completion} {rest : List Completion}
      {completed : List (Completion × BatchRun × TaskResult)} {run : BatchRun}
      {result : TaskResult} (popped : Batch.popTask state completion = some (next, run, result)) :
      Acts batch ⟨.collecting (completion :: rest) completed, state⟩ (.observed run result)
        ⟨.collecting rest (completed ++ [(completion, run, result)]), next⟩
  | judge {state : SchedulerState} {completed : List (Completion × BatchRun × TaskResult)} :
      Acts batch ⟨.collecting [] completed, state⟩ .quiet
        ⟨.settling (batch.roundStops state completed) completed, state⟩
  | settle {state : SchedulerState} {stops : Bool} {finished : Completion × BatchRun × TaskResult}
      {rest : List (Completion × BatchRun × TaskResult)} :
      Acts batch ⟨.settling stops (finished :: rest), state⟩ .quiet
        ⟨.settling stops rest, batch.settle stops state finished⟩
  | resume {state : SchedulerState} {stops : Bool} :
      Acts batch ⟨.settling stops [], state⟩ .quiet ⟨.launching, state⟩

section Steps

variable {batch : Batch} {state next : SchedulerState} {moment moment' : Moment}
  {label : List Completion × ScheduleEvent}

theorem Batch.startNext_isSome_find (started : batch.startNext state = some next) :
    ∃ run, state.pending.find? (batch.canStart state.inUse) = some run :=
  let ⟨run, found, _⟩ := Batch.startNext_eq_some started
  ⟨run, found⟩

theorem Batch.acts_of_step (step : batch.schedule.step moment label moment') :
    batch.Acts moment label.2 moment' := by
  obtain ⟨position, state⟩ := moment
  obtain ⟨done, event⟩ := label
  have happened : batch.next done ⟨position, state⟩ = some (event, moment') := step
  cases position with
  | launching =>
      cases started : batch.startNext state with
      | some next =>
          obtain ⟨run, found⟩ := Batch.startNext_isSome_find started
          simp only [Batch.next, started, found, Option.some.injEq, Prod.mk.injEq] at happened
          obtain ⟨rfl, rfl⟩ := happened
          exact .start started found
      | none =>
          simp only [Batch.next, started, Option.some.injEq, Prod.mk.injEq] at happened
          obtain ⟨rfl, rfl⟩ := happened
          by_cases idle : state.running = []
          · simpa [idle] using Batch.Acts.leave started idle
          · simpa [idle] using Batch.Acts.wait started idle
  | waiting =>
      simp only [Batch.next, Option.some.injEq, Prod.mk.injEq] at happened
      obtain ⟨rfl, rfl⟩ := happened
      exact .wake done
  | collecting pending completed =>
      cases pending with
      | nil =>
          simp only [Batch.next, Option.some.injEq, Prod.mk.injEq] at happened
          obtain ⟨rfl, rfl⟩ := happened
          exact .judge
      | cons completion rest =>
          obtain ⟨⟨next, run, result⟩, popped, same⟩ := Option.map_eq_some_iff.mp happened
          obtain ⟨rfl, rfl⟩ := Prod.mk.inj same
          exact .pop popped
  | settling stops completed =>
      cases completed with
      | nil =>
          simp only [Batch.next, Option.some.injEq, Prod.mk.injEq] at happened
          obtain ⟨rfl, rfl⟩ := happened
          exact .resume
      | cons finished rest =>
          simp only [Batch.next, Option.some.injEq, Prod.mk.injEq] at happened
          obtain ⟨rfl, rfl⟩ := happened
          exact .settle
  | left => cases happened

end Steps

section Loop

variable {batch : Batch} {state next final : SchedulerState} {moment moment' : Moment}

theorem Batch.loop_startNext (started : batch.startNext state = some next)
    (rounds : List (List Completion)) : batch.loop rounds state = batch.loop rounds next := by
  obtain ⟨run, found, same⟩ := Batch.startNext_eq_some started
  have shorter := (perm_cons_eraseP found).length_eq
  have filled : batch.fill state = batch.fill next := by
    have more : state.pending.length = next.pending.length + 1 := by
      rw [same]
      simpa using shorter
    rw [Batch.fill, more, Batch.fillFor, started]
    rfl
  have waiting : ¬ (state.pending = [] ∧ state.running = []) := by
    rintro ⟨empty, _⟩
    simp [empty] at shorter
  have running : ¬ (next.pending = [] ∧ next.running = []) := by
    rw [same]
    simp
  cases rounds with
  | nil =>
      unfold Batch.loop
      simp only [waiting, running, if_false, filled]
  | cons done rest =>
      unfold Batch.loop
      simp only [waiting, running, if_false, filled]

theorem Batch.loop_full (full : batch.startNext state = none) (rounds : List (List Completion)) :
    batch.loop rounds state =
      if state.running = [] then some state
      else match rounds with
        | [] => none
        | done :: rest => (batch.round done state).bind (batch.loop rest) := by
  have filled : batch.fill state = state := by
    unfold Batch.fill
    cases state.pending.length with
    | zero => rfl
    | succ fuel => rw [Batch.fillFor, full]
  conv_lhs => unfold Batch.loop
  by_cases idle : state.running = []
  · simp [filled, idle]
  · cases rounds with
    | nil => simp [filled, idle]
    | cons done rest => simp [filled, idle]

/-- The round in progress, carried to its end. -/
def Batch.closeRound (batch : Batch) (done : List Completion)
    (completed : List (Completion × BatchRun × TaskResult)) (state : SchedulerState) :
    Option SchedulerState :=
  (Batch.collect done state).map fun collected =>
    (completed ++ collected.2).foldl
      (batch.settle (batch.roundStops collected.1 (completed ++ collected.2))) collected.1

theorem Batch.closeRound_nil (done : List Completion) (state : SchedulerState) :
    batch.closeRound done [] state = batch.round done state := by
  unfold Batch.closeRound Batch.round
  cases Batch.collect done state with
  | none => rfl
  | some collected => rfl

theorem Batch.closeRound_cons {completion : Completion} {rest : List Completion} {run : BatchRun}
    {result : TaskResult} (popped : Batch.popTask state completion = some (next, run, result))
    (completed : List (Completion × BatchRun × TaskResult)) :
    batch.closeRound (completion :: rest) completed state =
      batch.closeRound rest (completed ++ [(completion, run, result)]) next := by
  unfold Batch.closeRound
  cases collected : Batch.collect rest next with
  | none => simp [Batch.collect, popped, collected]
  | some later => simp [Batch.collect, popped, collected]

/-- Whether the loop may end in a state from this moment on. -/
def Batch.Ends (batch : Batch) (final : SchedulerState) (moment : Moment) : Prop :=
  match moment.position with
  | .launching => ∃ rounds, batch.loop rounds moment.state = some final
  | .waiting =>
      ∃ done rounds, (batch.round done moment.state).bind (batch.loop rounds) = some final
  | .collecting done completed =>
      ∃ rounds, (batch.closeRound done completed moment.state).bind (batch.loop rounds) = some final
  | .settling stops completed =>
      ∃ rounds, batch.loop rounds (completed.foldl (batch.settle stops) moment.state) = some final
  | .left => moment.state = final

theorem Batch.Acts.ends {event : ScheduleEvent} (acts : batch.Acts moment event moment')
    (ends : batch.Ends final moment') : batch.Ends final moment := by
  cases acts with
  | start started _ =>
      obtain ⟨rounds, returned⟩ := ends
      exact ⟨rounds, (Batch.loop_startNext started rounds).trans returned⟩
  | wait full busy =>
      obtain ⟨done, rounds, returned⟩ := ends
      refine ⟨done :: rounds, ?_⟩
      rw [Batch.loop_full full, if_neg busy]
      exact returned
  | leave full idle =>
      obtain rfl := ends
      refine ⟨[], ?_⟩
      rw [Batch.loop_full full, if_pos idle]
  | wake done =>
      obtain ⟨rounds, returned⟩ := ends
      rw [Batch.closeRound_nil] at returned
      exact ⟨done, rounds, returned⟩
  | pop popped =>
      obtain ⟨rounds, returned⟩ := ends
      rw [← Batch.closeRound_cons popped] at returned
      exact ⟨rounds, returned⟩
  | judge =>
      obtain ⟨rounds, returned⟩ := ends
      refine ⟨rounds, ?_⟩
      simpa [Batch.closeRound, Batch.collect] using returned
  | settle =>
      obtain ⟨rounds, returned⟩ := ends
      exact ⟨rounds, returned⟩
  | resume =>
      obtain ⟨rounds, returned⟩ := ends
      exact ⟨rounds, returned⟩

/-- **A schedule is a run of the loop.** When the actions lead behind the loop, the loop
returns that state after some rounds. -/
theorem Batch.schedule_loop {labels : List (List Completion × ScheduleEvent)}
    (run : batch.schedule.Run ⟨.launching, state⟩ labels ⟨.left, final⟩) :
    ∃ rounds, batch.loop rounds state = some final := by
  have back {first last : Moment} {labels : List (List Completion × ScheduleEvent)}
      (run : batch.schedule.Run first labels last) (ends : batch.Ends final last) :
      batch.Ends final first := by
    induction run with
    | nil => exact ends
    | snoc _ step ih => exact ih ((Batch.acts_of_step step).ends ends)
  exact back run rfl

end Loop

section Membership

variable {batch : Batch} {moment moment' : Moment}

def Position.inHand : Position → List BatchRun
  | .collecting _ completed => completed.map fun finished => finished.2.1
  | .settling _ completed => completed.map fun finished => finished.2.1
  | _ => []

/-- Every run the scheduler works on has one of the IDs. -/
structure Moment.Among (ids : List String) (moment : Moment) : Prop where
  pending : ∀ run ∈ moment.state.pending, run.runID ∈ ids
  running : ∀ task ∈ moment.state.running, task.run.runID ∈ ids
  inHand : ∀ run ∈ moment.position.inHand, run.runID ∈ ids

theorem Moment.among_opening (runs : List BatchRun) :
    (Batch.opening runs).Among (runs.map BatchRun.runID) where
  pending _ member := List.mem_map_of_mem member
  running := nofun
  inHand := nofun

theorem Batch.settle_pending {stops : Bool} {state : SchedulerState}
    {finished : Completion × BatchRun × TaskResult} {run : BatchRun}
    (member : run ∈ (batch.settle stops state finished).pending) :
    run ∈ state.pending ∨ run.runID = finished.2.1.runID := by
  obtain ⟨completion, own, result⟩ := finished
  unfold Batch.settle at member
  dsimp only at member
  split at member
  · next retry reopened =>
    rcases List.mem_append.mp member with before | added
    · exact .inl before
    · obtain rfl := List.mem_singleton.mp added
      split at reopened
      · exact .inr (completion.sameRun _ _ _ reopened)
      · cases reopened
  · exact .inl member

theorem Batch.settle_running (stops : Bool) (state : SchedulerState)
    (finished : Completion × BatchRun × TaskResult) :
    (batch.settle stops state finished).running = state.running := by
  unfold Batch.settle
  dsimp only
  split <;> rfl

theorem Moment.Among.acts {ids : List String} {event : ScheduleEvent}
    (among : moment.Among ids) (acts : batch.Acts moment event moment') : moment'.Among ids := by
  obtain ⟨pending, running, inHand⟩ := among
  cases acts with
  | start started _ =>
      obtain ⟨run, found, rfl⟩ := Batch.startNext_eq_some started
      refine ⟨fun run member => pending run (List.mem_of_mem_eraseP member), ?_, inHand⟩
      intro task member
      rcases List.mem_append.mp member with before | added
      · exact running task before
      · obtain rfl := List.mem_singleton.mp added
        exact pending run (List.mem_of_find?_eq_some found)
  | wait | leave | wake | resume => exact ⟨pending, running, nofun⟩
  | pop popped =>
      obtain ⟨task, found, same⟩ := Option.map_eq_some_iff.mp popped
      obtain ⟨rfl, rfl, rfl⟩ : _ ∧ _ ∧ _ := by simpa using same
      refine ⟨pending, fun task member => running task (List.mem_of_mem_eraseP member), ?_⟩
      intro run member
      simp only [Position.inHand, List.map_append, List.mem_append] at member
      rcases member with before | added
      · exact inHand run before
      · obtain rfl := List.mem_singleton.mp added
        exact running task (List.mem_of_find?_eq_some found)
  | judge => exact ⟨pending, running, inHand⟩
  | @settle state stops finished rest =>
      have own : finished.2.1.runID ∈ ids := inHand _ (List.mem_cons_self ..)
      refine ⟨?_, ?_, fun run member => inHand run (List.mem_cons_of_mem _ member)⟩
      · intro run member
        rcases Batch.settle_pending member with before | again
        · exact pending run before
        · rwa [again]
      · intro task member
        rw [Batch.settle_running] at member
        exact running task member

theorem Batch.Acts.started_mem {run : BatchRun}
    (acts : batch.Acts moment (.started run) moment') : run ∈ moment.state.pending := by
  cases acts with
  | start _ found => exact List.mem_of_find?_eq_some found

end Membership

section Bounds

variable {batch : Batch} {state next : SchedulerState}

/-- The running executions keep within the concurrency and the limits, and the counters
count those that hold a resource. -/
structure WithinLimits (batch : Batch) (state : SchedulerState) : Prop where
  counted : state.Counted
  concurrent : (state.running.length : ℤ) ≤ batch.concurrency
  limited : ∀ key limit, batch.limit key = some limit → (state.inUse key : ℤ) ≤ limit

theorem withinLimits_start (batch : Batch) (runs : List BatchRun) :
    WithinLimits batch (Batch.start runs) where
  counted _ := rfl
  concurrent := by
    have positive : 1 ≤ batch.concurrency := le_max_left _ _
    simp only [Batch.start, List.length_nil, Nat.cast_zero]
    omega
  limited key limit bound := by
    have positive : 0 < limit := by
      unfold Batch.limit at bound
      split at bound
      · cases bound
      · simpa using (Option.filter_eq_some_iff.mp bound).2
    simp only [Batch.start, Nat.cast_zero]
    omega

theorem WithinLimits.startNext (within : WithinLimits batch state)
    (started : batch.startNext state = some next) : WithinLimits batch next := by
  have counted := within.counted.startNext started
  have room : ¬ (state.stopReason.isSome ∨ batch.concurrency ≤ state.running.length) := by
    intro full
    simp [Batch.startNext, full] at started
  obtain ⟨run, found, rfl⟩ := Batch.startNext_eq_some started
  refine ⟨counted, ?_, ?_⟩
  · rw [not_or] at room
    simp only [List.length_append, List.length_singleton, Nat.cast_add, Nat.cast_one]
    omega
  · intro key limit bound
    have before := within.limited key limit bound
    have free : batch.canStart state.inUse run = true := List.find?_some found
    dsimp only
    cases resource : batch.runResource run with
    | none => exact before
    | some held =>
        by_cases same : key = held
        · subst same
          have below : (state.inUse key : ℤ) < limit := by
            simpa [Batch.canStart, resource, bound] using free
          simp only [Option.elim, Function.update_self, Nat.cast_add, Nat.cast_one]
          omega
        · simpa [Function.update_of_ne same] using before

theorem WithinLimits.popTask {completion : Completion} {run : BatchRun} {result : TaskResult}
    (within : WithinLimits batch state)
    (popped : Batch.popTask state completion = some (next, run, result)) :
    WithinLimits batch next := by
  have counted := within.counted.popTask popped
  obtain ⟨task, _, same⟩ := Option.map_eq_some_iff.mp popped
  obtain ⟨rfl, rfl, rfl⟩ : _ ∧ _ ∧ _ := by simpa using same
  have fewer : (state.running.eraseP fun task => task.id = completion.task).Sublist state.running :=
    List.eraseP_sublist
  refine ⟨counted, ?_, ?_⟩
  · have shorter := fewer.length_le
    have before := within.concurrent
    dsimp only
    omega
  · intro key limit bound
    have before := within.limited key limit bound
    have less := counted key
    have more := within.counted key
    have sub : (state.running.eraseP fun task => task.id = completion.task).countP
        (fun task => task.key = some key) ≤ state.running.countP fun task => task.key = some key :=
      fewer.countP_le
    dsimp only at less ⊢
    omega

theorem WithinLimits.settle (within : WithinLimits batch state) (stops : Bool)
    (finished : Completion × BatchRun × TaskResult) :
    WithinLimits batch (batch.settle stops state finished) := by
  unfold Batch.settle
  dsimp only
  split
  · exact ⟨within.counted, within.concurrent, within.limited⟩
  · exact ⟨within.counted, within.concurrent, within.limited⟩

/-- What the limits come to at a moment: behind the loop runs are left over only after a
stop was requested, and the loop waits for something. -/
structure Moment.Bounded (batch : Batch) (moment : Moment) : Prop where
  within : WithinLimits batch moment.state
  waits : moment.position = .waiting → moment.state.running ≠ []
  leaves : moment.position = .left → moment.state.running = [] ∧
    (moment.state.pending = [] ∨ moment.state.stopReason.isSome)

theorem Moment.Bounded.acts {moment moment' : Moment} {event : ScheduleEvent}
    (bounded : moment.Bounded batch) (acts : batch.Acts moment event moment') :
    moment'.Bounded batch := by
  obtain ⟨within, _, _⟩ := bounded
  cases acts with
  | start started _ => exact ⟨within.startNext started, nofun, nofun⟩
  | wait _ busy => exact ⟨within, fun _ => busy, nofun⟩
  | @leave state full idle =>
      refine ⟨within, nofun, fun _ => ⟨idle, ?_⟩⟩
      cases stopped : state.stopReason with
      | none => exact .inl (within.counted.pending_of_idle full idle stopped)
      | some reason => exact .inr rfl
  | wake done => exact ⟨within, nofun, nofun⟩
  | pop popped => exact ⟨within.popTask popped, nofun, nofun⟩
  | judge => exact ⟨within, nofun, nofun⟩
  | settle => exact ⟨within.settle _ _, nofun, nofun⟩
  | resume => exact ⟨within, nofun, nofun⟩

end Bounds

/-- **The bounds of the scheduler.** At every moment of every schedule of any runs, under
any limits and however executions finish, fail and are retried: the running executions
are no more than the concurrency, which is at least one; those that hold a resource with
a limit are no more than the limit and as many as its counter says; the loop waits only
with an execution running, and it ends with runs pending only after a stop was
requested. -/
theorem schedule_bounds (batch : Batch) (runs : List BatchRun) {moment : Moment}
    {labels : List (List Completion × ScheduleEvent)}
    (run : batch.schedule.Run (Batch.opening runs) labels moment) :
    (moment.state.running.length : ℤ) ≤ batch.concurrency ∧ 1 ≤ batch.concurrency ∧
      (∀ key limit, batch.limit key = some limit →
        ((moment.state.running.countP fun task => task.key = some key : ℕ) : ℤ) ≤ limit ∧
        moment.state.inUse key = moment.state.running.countP fun task => task.key = some key) ∧
      (moment.position = .waiting → moment.state.running ≠ []) ∧
      (moment.position = .left → moment.state.pending = [] ∨ moment.state.stopReason.isSome) := by
  have bounded : moment.Bounded batch := by
    apply run.preserves (Moment.Bounded batch)
    · intro source label target held step
      exact held.acts (Batch.acts_of_step step)
    · exact ⟨withinLimits_start batch runs, nofun, nofun⟩
  obtain ⟨within, waits, leaves⟩ := bounded
  refine ⟨within.concurrent, le_max_left _ _, fun key limit bound => ?_, waits,
    fun gone => (leaves gone).2⟩
  have counted := within.counted key
  exact ⟨counted ▸ within.limited key limit bound, counted⟩

/-- Two runs over one sandbox that takes one at a time: the loop waits with the second
pending. -/
theorem schedule_bounds_one_sandbox :
    let batch : Batch :=
      { schedulerConcurrency := 20, maxConcurrency := none, joinStrategy := .partialOK,
        resourceKey := fun _ => some "android", resourceLimits := fun _ => some 1, retries := false,
        cancelQueued := none, cancelOwned := by rintro _ _ _ ⟨⟩ }
    let runs : List BatchRun := [⟨"a", 0, "", "", none⟩, ⟨"b", 1, "", "", none⟩]
    let moment := (System.follow batch.next (Batch.opening runs) [[], []]).2
    (moment.state.pending.map BatchRun.runID = ["b"] ∧ moment.state.inUse "android" = 1) ∧
      ((moment.state.running.countP fun task => task.key = some "android" : ℕ) : ℤ) ≤ 1 := by
  intro batch runs moment
  have run : batch.schedule.Run (Batch.opening runs)
      (System.follow batch.next (Batch.opening runs) [[], []]).1 moment := .follow _ _ _
  obtain ⟨_, _, limited, _, _⟩ := schedule_bounds batch runs run
  exact ⟨by decide, (limited "android" 1 (by decide)).1⟩

end Sico.TaskRuntime

import Mathlib.Algebra.BigOperators.Group.List.Basic
import Mathlib.Algebra.Order.BigOperators.Group.List
import Mathlib.Algebra.Order.Group.Nat
import Sico.TaskRuntime.Retries
import Sico.TaskRuntime.Schedule

/-! # How often a run is executed

The loop of the scheduler with the retries that it prepares, and the store beside it. The scheduler holds one object
for each run; a retry replaces it by the object of the next attempt, and nothing else does. So a run is executed at most
as often as its policy allows, whatever others do to the store meanwhile. Each action of the loop belongs to one
execution, and each execution has so many of them: the loop comes to its end when every execution does.
-/

namespace Sico.TaskRuntime.Retries

open Foundation

section Model

/-- A completion whose retry is decided. -/
def answering (completion : Completion) (again : Option BatchRun) : Completion where
  task := completion.task
  now := completion.now
  execute := completion.execute
  owned := completion.owned
  shouldRetry _ _ := again.isSome
  prepareRetry run _ := again.filter fun retry => retry.runID = run.runID
  sameRun _ _ _ taken := of_decide_eq_true (Option.filter_eq_some_iff.mp taken).2

/-- `eligible_for_retry`, in a round that does not stop the batch. -/
def asks (batch : Batch) (stops : Bool) (run : TaskRun) (result : TaskResult) : Bool :=
  !stops && batch.retries && shouldRetry run result

/-- A moment of the loop, with the object that it holds of each run and the run that is stored. -/
structure Invocation where
  moment : Moment
  objects : String → TaskRun
  store : String → TaskRun

/-- What happens: an action of the loop, or a move of others on the store. -/
inductive Label where
  | acted (event : ScheduleEvent)
  | settled
  /-- A retry raises, and the loop is left. -/
  | raised
  | foreign (runID : String) (move : StoreMove)
  | snapshot (run : TaskRun)

/-- Whether the loop acts. -/
def Label.isAction : Label → Bool
  | acted _ | settled | raised => true
  | foreign _ _ | snapshot _ => false

/-- Whether an execution starts, and whether one of this run does. -/
def Label.isStart : Label → Bool
  | acted (.started _) => true
  | _ => false

def Label.starts (runID : String) : Label → Bool
  | acted (.started run) => run.runID = runID
  | _ => false

/-- A wait returns some of the running tasks. -/
def Wakes (running : List Task) (done : List Completion) : Prop :=
  done ≠ [] ∧ (done.map Completion.task).Nodup ∧ ∀ completion ∈ done, ∃ task ∈ running, task.id = completion.task

/-- An action that settles nothing and, where it ends a wait, returns some of the running tasks. -/
def Plain (moment moment' : Moment) : Prop :=
  (∀ stops finished rest, moment.position ≠ .settling stops (finished :: rest)) ∧
    (moment.position = .waiting → ∃ done, moment'.position = .collecting done [] ∧ Wakes moment.state.running done)

/-- What is decided on a finished run: a retry, or none. -/
def Decides (batch : Batch) (stops : Bool) (run : TaskRun) (result : TaskResult) (stored : TaskRun)
    (again : Option TaskRun) (stored' : TaskRun) : Prop :=
  if asks batch stops run result then Prepares run result stored (.ok again) stored' else again = none ∧ stored' = stored

/-- One step of an invocation of the scheduler or of others on the store. -/
inductive Step (batch : Batch) : Invocation → Label → Invocation → Prop where
  | act {inv : Invocation} {event : ScheduleEvent} {moment : Moment} (acts : batch.Acts inv.moment event moment)
      (plain : Plain inv.moment moment) : Step batch inv (.acted event) { inv with moment }
  | settle {inv : Invocation} {stops : Bool} {completion : Completion} {run : BatchRun} {result : TaskResult}
      {rest : List (Completion × BatchRun × TaskResult)} {state : SchedulerState} {again : Option TaskRun}
      {stored : TaskRun} (here : inv.moment = ⟨.settling stops ((completion, run, result) :: rest), state⟩)
      (decides : Decides batch stops (inv.objects run.runID) result (inv.store run.runID) again stored) :
      Step batch inv .settled
        { moment := ⟨.settling stops rest,
            batch.settle stops state (answering completion (again.map TaskRun.scheduled), run, result)⟩
          objects := again.elim inv.objects fun retry => Function.update inv.objects run.runID retry
          store := Function.update inv.store run.runID stored }
  | raise {inv : Invocation} {stops : Bool} {completion : Completion} {run : BatchRun} {result : TaskResult}
      {rest : List (Completion × BatchRun × TaskResult)} {state : SchedulerState} {error : StoreError}
      {stored : TaskRun} (here : inv.moment = ⟨.settling stops ((completion, run, result) :: rest), state⟩)
      (asked : asks batch stops (inv.objects run.runID) result = true)
      (prepares : Prepares (inv.objects run.runID) result (inv.store run.runID) (.error error) stored) :
      Step batch inv .raised
        { inv with moment := ⟨.left, state⟩, store := Function.update inv.store run.runID stored }
  | foreign {inv : Invocation} {runID : String} {move : StoreMove} {stored : TaskRun}
      (done : moved (inv.store runID) move = some stored) :
      Step batch inv (.foreign runID move) { inv with store := Function.update inv.store runID stored }
  | snapshot {inv : Invocation} {run stored : TaskRun} (taken : Snapshot (inv.objects run.runID) run)
      (done : (StoreMove.updateRun run).exec (inv.store run.runID) = .ok stored) :
      Step batch inv (.snapshot run) { inv with store := Function.update inv.store run.runID stored }

def invocation (batch : Batch) : System Invocation Label where
  step := Step batch

def runOf (runs : List TaskRun) (runID : String) : TaskRun := (runs.find? fun run => run.runID = runID).getD default

/-- The scheduler called with some stored runs. -/
def opening (runs : List TaskRun) : Invocation where
  moment := Batch.opening (runs.map TaskRun.scheduled)
  objects := runOf runs
  store := runOf runs

end Model

section Places

/-- The run IDs that are in one place or another. -/
def Moment.ids (moment : Moment) : Multiset String :=
  moment.state.ids + (moment.position.inHand.map BatchRun.runID : List String)

def Position.finished : Position → List (Completion × BatchRun × TaskResult)
  | .collecting _ completed | .settling _ completed => completed
  | _ => []

/-- Every run is in one place, every result belongs to its run, and the tasks that a wait returned are running. -/
structure Placed (ids : Multiset String) (moment : Moment) : Prop where
  ids : Moment.ids moment ≤ ids
  accounts : Accounts moment.state.ids moment.state
  owned : ∀ finished ∈ Position.finished moment.position, finished.2.2.runID = finished.2.1.runID
  running : ∀ done completed, moment.position = .collecting done completed → (done.map Completion.task).Nodup ∧
    ∀ completion ∈ done, ∃ task ∈ moment.state.running, task.id = completion.task

variable {batch : Batch} {ids : Multiset String} {moment moment' : Moment} {event : ScheduleEvent}

theorem Placed.act (placed : Placed ids moment) (acts : batch.Acts moment event moment') (plain : Plain moment moment') :
    Placed ids moment' := by
  obtain ⟨inside, accounts, owned, running⟩ := placed
  cases acts with
  | start started _ =>
      have next := accounts.startNext started
      refine ⟨?_, ⟨rfl, next.owned, next.held⟩, owned, fun _ _ collecting => by cases collecting⟩
      rw [Moment.ids, next.ids]
      exact inside
  | wait | leave => exact ⟨inside, accounts, owned, fun _ _ collecting => by cases collecting⟩
  | wake done =>
      obtain ⟨_, same, _, distinct, returned⟩ := plain.2 rfl
      cases same
      refine ⟨inside, accounts, fun finished member => absurd member List.not_mem_nil, ?_⟩
      rintro _ _ collecting
      cases collecting
      exact ⟨distinct, returned⟩
  | @pop state next completion rest completed run result popped =>
      obtain ⟨moved, own, results, held, _⟩ := accounts.popTask popped
      refine ⟨?_, ⟨rfl, results ▸ accounts.owned, held⟩, ?_, ?_⟩
      · refine le_trans (le_of_eq ?_) inside
        simp only [Moment.ids, Position.inHand, List.map_append, List.map_cons, List.map_nil, ← Multiset.coe_add,
          Multiset.coe_singleton, ← moved]
        abel
      · intro finished member
        rcases List.mem_append.mp member with before | last
        · exact owned finished before
        · obtain rfl := List.mem_singleton.mp last
          exact own
      · intro done _ collecting
        cases collecting
        obtain ⟨distinct, returned⟩ := running _ _ rfl
        rw [List.map_cons, List.nodup_cons] at distinct
        refine ⟨distinct.2, fun other member => ?_⟩
        obtain ⟨task, there, same⟩ := returned other (List.mem_cons_of_mem _ member)
        obtain ⟨found, _, parts⟩ := Option.map_eq_some_iff.mp popped
        obtain ⟨rfl, _, _⟩ : _ ∧ _ ∧ _ := by simpa using parts
        refine ⟨task, (List.mem_eraseP_of_neg ?_).mpr there, same⟩
        intro taken
        have alike : other.task = completion.task := same.symm.trans (of_decide_eq_true taken)
        exact distinct.1 (alike ▸ List.mem_map_of_mem member)
  | judge => exact ⟨inside, accounts, owned, fun _ _ collecting => by cases collecting⟩
  | settle => exact absurd rfl (plain.1 _ _ _)
  | resume => exact ⟨inside, accounts, owned, fun _ _ collecting => by cases collecting⟩

theorem Placed.fresh {stops : Bool} {finished : Completion × BatchRun × TaskResult}
    {rest : List (Completion × BatchRun × TaskResult)} {state : SchedulerState}
    (placed : Placed ids ⟨.settling stops (finished :: rest), state⟩) (distinct : ids.Nodup) :
    finished.2.1.runID ∉ state.ids := by
  have apart := Multiset.nodup_of_le placed.ids distinct
  rw [Moment.ids, Position.inHand, List.map_cons, List.map_cons, ← Multiset.cons_coe] at apart
  intro inside
  exact (Multiset.disjoint_left.mp (Multiset.nodup_add.mp apart).2.2) inside (Multiset.mem_cons_self _ _)

theorem Placed.settle {stops : Bool} {completion : Completion} {run : BatchRun} {result : TaskResult}
    {rest : List (Completion × BatchRun × TaskResult)} {state : SchedulerState}
    (placed : Placed ids ⟨.settling stops ((completion, run, result) :: rest), state⟩) (distinct : ids.Nodup)
    (again : Option BatchRun) :
    Placed ids ⟨.settling stops rest, batch.settle stops state (answering completion again, run, result)⟩ := by
  have fresh : (answering completion again, run, result).2.1.runID ∉ state.ids := placed.fresh distinct
  obtain ⟨inside, accounts, owned, _⟩ := placed
  have own : result.runID = run.runID := owned _ List.mem_cons_self
  have settled : Accounts (state.ids + {run.runID})
      (batch.settle stops state (answering completion again, run, result)) := accounts.settle batch stops own fresh
  refine ⟨?_, ⟨rfl, settled.owned, settled.held⟩, fun finished member => owned finished (List.mem_cons_of_mem _ member),
    fun _ _ collecting => by cases collecting⟩
  refine le_trans (le_of_eq ?_) inside
  rw [Moment.ids, settled.ids, Moment.ids, Position.inHand, Position.inHand, List.map_cons, List.map_cons,
    ← Multiset.cons_coe, ← Multiset.singleton_add]
  abel

end Places

section Counts

def executions (labels : List Label) (runID : String) : ℕ := labels.countP (Label.starts runID)

@[simp] theorem executions_append (labels : List Label) (label : Label) (runID : String) :
    executions (labels ++ [label]) runID = executions labels runID + if label.starts runID then 1 else 0 := by
  simp [executions, List.countP_append, List.countP_singleton]

def Moment.pending (moment : Moment) : List String := moment.state.pending.map BatchRun.runID

/-- What holds of a run and its object: every attempt but a pending one has been executed once, and there are no more
than the policy allows. -/
structure Held (labels : List Label) (inv : Invocation) (run : TaskRun) : Prop where
  executed : (executions labels run.runID : ℤ) + (if run.runID ∈ Moment.pending inv.moment then 1 else 0) =
    (inv.objects run.runID).attempt
  bounded : (inv.objects run.runID).attempt ≤ max 1 run.retry.maxAttempts
  retry : (inv.objects run.runID).retry = run.retry
  runID : (inv.objects run.runID).runID = run.runID
  inStep : InStep (inv.objects run.runID) (inv.store run.runID)

variable {batch : Batch} {ids : Multiset String} {moment moment' : Moment} {event : ScheduleEvent}
  {labels : List Label} {inv : Invocation} {run : TaskRun}

theorem notMem_pending {task : Task} (apart : (Moment.ids moment).Nodup) (running : task ∈ moment.state.running) :
    task.run.runID ∉ Moment.pending moment := by
  intro pending
  rw [Moment.ids, SchedulerState.ids] at apart
  have both := (Multiset.nodup_add.mp (Multiset.nodup_add.mp (Multiset.nodup_add.mp apart).1).1).2.2
  exact Multiset.disjoint_left.mp both pending (Multiset.mem_coe.mpr (List.mem_map_of_mem running))

theorem Moment.mem_ids_of_pending {runID : String} (pending : runID ∈ Moment.pending moment) :
    runID ∈ Moment.ids moment := by
  rw [Moment.ids, SchedulerState.ids]
  simp only [Multiset.mem_add, Multiset.mem_coe]
  exact .inl (.inl (.inl pending))

theorem pending_act (placed : Placed ids moment) (distinct : ids.Nodup) (acts : batch.Acts moment event moment')
    (plain : Plain moment moment') (runID : String) :
    (if (Label.acted event).starts runID then 1 else 0) + (if runID ∈ Moment.pending moment' then 1 else 0) =
      (if runID ∈ Moment.pending moment then 1 else 0 : ℤ) := by
  have after := placed.act acts plain
  cases acts with
  | @start state next started_ started found =>
      have apart := Multiset.nodup_of_le after.ids distinct
      obtain ⟨_, again, rfl⟩ := Batch.startNext_eq_some started
      obtain rfl := Option.some.inj (found.symm.trans again)
      have moved := (perm_cons_eraseP found).map BatchRun.runID
      have taken : runID ∈ Moment.pending ⟨.launching, state⟩ ↔ runID = started_.runID ∨
          runID ∈ (state.pending.eraseP (batch.canStart state.inUse)).map BatchRun.runID := by
        rw [Moment.pending, moved.mem_iff, List.map_cons, List.mem_cons]
      by_cases same : started_.runID = runID
      · subst same
        have gone := notMem_pending apart (List.mem_append_right _ List.mem_cons_self)
        have starts : (Label.acted (.started started_)).starts started_.runID = true := decide_eq_true rfl
        rw [if_pos starts, if_neg gone, if_pos (taken.mpr (.inl rfl))]
        rfl
      · have other : ¬ (Label.acted (.started started_)).starts runID = true := fun starts => same (of_decide_eq_true starts)
        rw [if_neg other, zero_add]
        refine if_congr ?_ rfl rfl
        rw [taken]
        exact (or_iff_right fun equal => same equal.symm).symm
  | wait | leave | wake | judge | resume => exact zero_add _
  | pop popped =>
      obtain ⟨_, _, parts⟩ := Option.map_eq_some_iff.mp popped
      obtain ⟨rfl, _, _⟩ : _ ∧ _ ∧ _ := by simpa using parts
      exact zero_add _
  | settle => exact absurd rfl (plain.1 _ _ _)

theorem Held.act (held : Held labels inv run) (placed : Placed ids inv.moment) (distinct : ids.Nodup)
    (acts : batch.Acts inv.moment event moment') (plain : Plain inv.moment moment') :
    Held (labels ++ [.acted event]) { inv with moment := moment' } run := by
  refine ⟨?_, held.bounded, held.retry, held.runID, held.inStep⟩
  have moves := pending_act placed distinct acts plain run.runID
  have executed := held.executed
  rw [executions_append, Nat.cast_add, Nat.cast_ite, Nat.cast_one, Nat.cast_zero]
  dsimp only
  omega

theorem Held.beside (held : Held labels inv run) {label : Label} (still : label.starts run.runID = false) {moment : Moment}
    (pending : Moment.pending moment = Moment.pending inv.moment) {store : String → TaskRun}
    (inStep : InStep (inv.objects run.runID) (store run.runID)) :
    Held (labels ++ [label]) { inv with moment, store } run := by
  refine ⟨?_, held.bounded, held.retry, held.runID, inStep⟩
  rw [executions_append, still]
  dsimp only
  rw [pending]
  exact held.executed

theorem inStep_update {store : String → TaskRun} {object stored : TaskRun} {changed runID : String}
    (inStep : InStep object (store runID)) (after : changed = runID → InStep object stored) :
    InStep object (Function.update store changed stored runID) := by
  by_cases same : changed = runID
  · subst same
    rw [Function.update_self]
    exact after rfl
  · rw [Function.update_of_ne (Ne.symm same)]
    exact inStep

theorem attempt_lt_of_shouldRetry {object : TaskRun} {result : TaskResult} (retried : shouldRetry object result = true) :
    object.attempt < max 1 object.retry.maxAttempts := by
  unfold shouldRetry at retried
  split at retried
  · cases retried
  · exact (of_decide_eq_true retried).2.1

variable {stops : Bool} {completion : Completion} {own : BatchRun} {result : TaskResult} {state : SchedulerState}

theorem pending_settle_none :
    (batch.settle stops state (answering completion none, own, result)).pending = state.pending := by
  unfold Batch.settle
  simp [answering]

theorem pending_settle_some {retry : BatchRun} (going : (!stops && batch.retries) = true) (same : retry.runID = own.runID) :
    (batch.settle stops state (answering completion (some retry), own, result)).pending = state.pending ++ [retry] := by
  have kept : (some retry).filter (fun retry => retry.runID = own.runID) = some retry :=
    Option.filter_eq_some_iff.mpr ⟨rfl, decide_eq_true same⟩
  unfold Batch.settle
  simp [answering, going, kept]

theorem mem_pending_settle {again : Option BatchRun} {runID : String} (other : own.runID ≠ runID) :
    runID ∈ (batch.settle stops state (answering completion again, own, result)).pending.map BatchRun.runID ↔
      runID ∈ state.pending.map BatchRun.runID := by
  constructor
  · intro member
    obtain ⟨run, pending, rfl⟩ := List.mem_map.mp member
    rcases Batch.settle_pending pending with before | same
    · exact List.mem_map_of_mem before
    · exact absurd same.symm other
  · intro member
    refine List.map_subset _ (fun run pending => ?_) member
    unfold Batch.settle
    dsimp only
    split
    · exact List.mem_append_left _ pending
    · exact pending

theorem Decides.cases {object stored stored' : TaskRun} {again : Option TaskRun}
    (decides : Decides batch stops object result stored again stored') (inStep : InStep object stored) :
    again = none ∧ InStep object stored' ∨
      ∃ next, again = some next ∧ (!stops && batch.retries) = true ∧ object.attempt < max 1 object.retry.maxAttempts ∧
        next.runID = object.runID ∧ next.attempt = object.attempt + 1 ∧ next.retry = object.retry ∧
        InStep next stored' := by
  unfold Decides at decides
  by_cases asked : asks batch stops object result = true
  · rw [if_pos asked] at decides
    have ended := decides.ended inStep
    cases again with
    | none => exact .inl ⟨rfl, ended⟩
    | some next =>
        obtain ⟨runID, advanced, retry, behind⟩ := ended
        obtain ⟨going, retried⟩ := (Bool.and_eq_true _ _).mp asked
        exact .inr ⟨next, rfl, going, attempt_lt_of_shouldRetry retried, runID, advanced, retry, behind⟩
  · rw [if_neg asked] at decides
    obtain ⟨rfl, rfl⟩ := decides
    exact .inl ⟨rfl, inStep⟩

theorem Held.settle {rest : List (Completion × BatchRun × TaskResult)} {again : Option TaskRun} {stored : TaskRun}
    (held : Held labels inv run) (placed : Placed ids inv.moment) (distinct : ids.Nodup)
    (here : inv.moment = ⟨.settling stops ((completion, own, result) :: rest), state⟩)
    (decides : Decides batch stops (inv.objects own.runID) result (inv.store own.runID) again stored) :
    Held (labels ++ [.settled])
      { moment := ⟨.settling stops rest,
          batch.settle stops state (answering completion (again.map TaskRun.scheduled), own, result)⟩
        objects := again.elim inv.objects fun retry => Function.update inv.objects own.runID retry
        store := Function.update inv.store own.runID stored } run := by
  obtain ⟨executed, bounded, retry, runID, inStep⟩ := held
  rw [here] at placed executed
  have still : executions (labels ++ [.settled]) run.runID = executions labels run.runID := by
    rw [executions_append]
    rfl
  by_cases same : own.runID = run.runID
  · have gone : run.runID ∉ Moment.pending ⟨.settling stops ((completion, own, result) :: rest), state⟩ := by
      intro pending
      have fresh := placed.fresh distinct
      rw [SchedulerState.ids] at fresh
      simp only [Multiset.mem_add, Multiset.mem_coe, not_or] at fresh
      exact fresh.1.1 (same.symm ▸ pending)
    rw [if_neg gone, add_zero] at executed
    rw [same] at decides ⊢
    have after : Function.update inv.store run.runID stored run.runID = stored := Function.update_self ..
    rcases decides.cases inStep with ⟨rfl, behind⟩ | ⟨next, rfl, going, below, nextID, advanced, kept, behind⟩
    · refine ⟨?_, bounded, retry, runID, ?_⟩
      · rw [still, if_neg, add_zero]
        · exact executed
        · rw [Moment.pending]
          dsimp only [Option.map_none]
          rwa [pending_settle_none]
      · dsimp only [Option.elim]
        rwa [after]
    · have object : Function.update inv.objects run.runID next run.runID = next := Function.update_self ..
      refine ⟨?_, ?_, ?_, ?_, ?_⟩
      · rw [still, if_pos]
        · dsimp only [Option.elim]
          rw [object, advanced, executed]
        · rw [Moment.pending]
          dsimp only [Option.map_some]
          rw [pending_settle_some going (nextID.trans (runID.trans same.symm)), List.map_append]
          exact List.mem_append_right _ (List.mem_singleton.mpr (nextID.trans runID).symm)
      · dsimp only [Option.elim]
        rw [object, advanced, ← retry]
        exact below
      · dsimp only [Option.elim]
        rw [object]
        exact kept.trans retry
      · dsimp only [Option.elim]
        rw [object]
        exact nextID.trans runID
      · dsimp only [Option.elim]
        rwa [object, after]
  · have object : (again.elim inv.objects fun retry => Function.update inv.objects own.runID retry) run.runID =
        inv.objects run.runID := by
      cases again with
      | none => rfl
      | some next => exact Function.update_of_ne (Ne.symm same) _ _
    have after : Function.update inv.store own.runID stored run.runID = inv.store run.runID :=
      Function.update_of_ne (Ne.symm same) _ _
    refine ⟨?_, ?_, ?_, ?_, ?_⟩
    · rw [still]
      dsimp only
      rw [object, ← executed]
      exact congrArg _ (if_congr (mem_pending_settle same) rfl rfl)
    · dsimp only
      rwa [object]
    · dsimp only
      rwa [object]
    · dsimp only
      rwa [object]
    · dsimp only
      rwa [object, after]

end Counts

section Actions

/-- How many actions are left at a position while so many executions run, if no other one starts. Each running one has
six: a round has a wait, its end, a judgement and the way back, and the execution is taken and settled in it. -/
def actionsLeft (position : Position) (running : ℕ) : ℕ :=
  match position with
  | .launching => 6 * running + 1
  | .waiting => 6 * running
  | .collecting _ completed => if completed = [] then 6 * running - 1 else 6 * running + completed.length + 3
  | .settling _ completed => 6 * running + completed.length + 2
  | .left => 0

def Moment.actionsLeft (moment : Moment) : ℕ := Retries.actionsLeft moment.position moment.state.running.length

variable {batch : Batch} {ids : Multiset String} {moment moment' : Moment} {event : ScheduleEvent}

/-- A round has results to judge once it has taken all that it woke up for. -/
structure Woken (moment : Moment) : Prop where
  waits : moment.position = .waiting → moment.state.running ≠ []
  judges : moment.position ≠ .collecting [] []

theorem actionsLeft_act (placed : Placed ids moment) (woken : Woken moment) (acts : batch.Acts moment event moment')
    (plain : Plain moment moment') :
    Moment.actionsLeft moment' + 1 ≤
        Moment.actionsLeft moment + 7 * (if (Label.acted event).isStart then 1 else 0) ∧
      Woken moment' := by
  unfold Moment.actionsLeft
  cases acts with
  | start started _ =>
      obtain ⟨_, _, rfl⟩ := Batch.startNext_eq_some started
      refine ⟨?_, fun waiting => (by cases waiting), fun collecting => by cases collecting⟩
      simp only [actionsLeft, Label.isStart, List.length_append, List.length_singleton, if_true]
      omega
  | wait _ busy => exact ⟨le_rfl, fun _ => busy, fun collecting => by cases collecting⟩
  | leave _ idle =>
      refine ⟨?_, fun waiting => (by cases waiting), fun collecting => by cases collecting⟩
      simp only [actionsLeft]
      omega
  | @wake state done =>
      obtain ⟨_, same, some_, _⟩ := plain.2 rfl
      cases same
      refine ⟨?_, fun waiting => (by cases waiting), fun collecting => ?_⟩
      · have busy : 0 < state.running.length := List.length_pos_iff.mpr (woken.waits rfl)
        simp only [actionsLeft, if_true]
        omega
      · cases collecting
        exact some_ rfl
  | @pop state next completion rest completed run result popped =>
      obtain ⟨task, found, parts⟩ := Option.map_eq_some_iff.mp popped
      obtain ⟨rfl, _, _⟩ : _ ∧ _ ∧ _ := by simpa using parts
      have fewer := (perm_cons_eraseP found).length_eq
      rw [List.length_cons] at fewer
      have some_ : completed ++ [(completion, run, result)] ≠ [] :=
        List.append_ne_nil_of_right_ne_nil _ (List.cons_ne_nil _ _)
      refine ⟨?_, fun waiting => (by cases waiting), fun collecting => ?_⟩
      · simp only [actionsLeft]
        rw [if_neg some_, List.length_append, List.length_singleton, fewer]
        by_cases none_ : completed = []
        · rw [if_pos none_, none_, List.length_nil]
          omega
        · rw [if_neg none_]
          omega
      · cases rest with
        | nil =>
            injection collecting with _ none_
            exact some_ none_
        | cons => cases collecting
  | @judge state completed =>
      have some_ : completed ≠ [] := fun none_ => woken.judges (by rw [none_])
      refine ⟨?_, fun waiting => (by cases waiting), fun collecting => by cases collecting⟩
      simp only [actionsLeft]
      rw [if_neg some_]
      omega
  | settle => exact absurd rfl (plain.1 _ _ _)
  | resume =>
      refine ⟨?_, fun waiting => (by cases waiting), fun collecting => by cases collecting⟩
      simp only [actionsLeft, List.length_nil]
      omega

/-- How many executions have started in all. -/
def starts (labels : List Label) : ℕ := labels.countP Label.isStart

theorem sum_tests {α : Type} (test : α → Bool) (items : List α) :
    (items.map fun item => if test item then 1 else 0).sum = items.countP test := by
  induction items with
  | nil => rfl
  | cons item rest ih => rw [List.map_cons, List.sum_cons, ih, List.countP_cons, Nat.add_comm]

theorem starts_eq_sum {runIDs : List String} (distinct : runIDs.Nodup) {labels : List Label}
    (known : ∀ run, .acted (.started run) ∈ labels → run.runID ∈ runIDs) :
    starts labels = (runIDs.map (executions labels)).sum := by
  induction labels using List.reverseRecOn with
  | nil =>
      have none_ : runIDs.map (executions []) = runIDs.map fun _ => 0 := List.map_congr_left fun _ _ => rfl
      rw [none_, List.sum_map_zero]
      rfl
  | append_singleton labels label ih =>
      have before := ih fun run member => known run (List.mem_append_left _ member)
      have each : runIDs.map (executions (labels ++ [label])) =
          runIDs.map fun runID => executions labels runID + if label.starts runID then 1 else 0 :=
        List.map_congr_left fun runID _ => executions_append labels label runID
      rw [each, List.sum_map_add, ← before, sum_tests fun runID => label.starts runID, starts, starts,
        List.countP_append, List.countP_singleton]
      congr 1
      cases label with
      | acted event =>
          cases event with
          | started run =>
              have there := known run (List.mem_append_right _ (List.mem_singleton_self _))
              have once : runIDs.countP (fun runID => run.runID = runID) = runIDs.count run.runID :=
                List.countP_congr fun _ _ =>
                  ⟨fun same => beq_iff_eq.mpr (of_decide_eq_true same).symm, fun same =>
                    decide_eq_true (beq_iff_eq.mp same).symm⟩
              exact (once.trans (List.count_eq_one_of_mem distinct there)).symm
          | observed | quiet => exact (List.countP_eq_zero.mpr fun _ _ => Bool.false_ne_true).symm
      | settled | raised | foreign | snapshot => exact (List.countP_eq_zero.mpr fun _ _ => Bool.false_ne_true).symm

/-- What holds of an invocation after some steps. -/
structure Sound (runs : List TaskRun) (labels : List Label) (inv : Invocation) : Prop where
  placed : Placed (runs.map TaskRun.runID : List String) inv.moment
  woken : Woken inv.moment
  held : ∀ run ∈ runs, Held labels inv run
  known : ∀ run, .acted (.started run) ∈ labels → run.runID ∈ runs.map TaskRun.runID
  spent : labels.countP Label.isAction + Moment.actionsLeft inv.moment ≤ 7 * starts labels + 1

theorem known_append {runs : List TaskRun} {labels : List Label} {label : Label} (quiet : label.isStart = false)
    (known : ∀ run, .acted (.started run) ∈ labels → run.runID ∈ runs.map TaskRun.runID) :
    ∀ run, .acted (.started run) ∈ labels ++ [label] → run.runID ∈ runs.map TaskRun.runID := by
  intro run member
  rcases List.mem_append.mp member with before | last
  · exact known run before
  · obtain rfl := List.mem_singleton.mp last
    cases quiet

theorem Sound.step {runs : List TaskRun} {labels : List Label} {inv next : Invocation} {label : Label}
    (sound : Sound runs labels inv) (distinct : (runs.map TaskRun.runID).Nodup) (step : Step batch inv label next) :
    Sound runs (labels ++ [label]) next := by
  obtain ⟨placed, woken, held, known, spent⟩ := sound
  have apart := Multiset.coe_nodup.mpr distinct
  cases step with
  | @act event moment acts plain =>
      obtain ⟨less, woken'⟩ := actionsLeft_act placed woken acts plain
      refine ⟨placed.act acts plain, woken', fun run member => (held run member).act placed apart acts plain, ?_, ?_⟩
      · intro run member
        rcases List.mem_append.mp member with before | last
        · exact known run before
        · cases List.mem_singleton.mp last
          have pending : run.runID ∈ Moment.pending inv.moment := List.mem_map_of_mem acts.started_mem
          exact Multiset.mem_coe.mp (Multiset.mem_of_le placed.ids (Moment.mem_ids_of_pending pending))
      · rw [starts, List.countP_append, List.countP_append, List.countP_singleton, List.countP_singleton, ← starts]
        simp only [Label.isAction, if_true]
        omega
  | @settle stops completion own result rest state again stored here decides =>
      have settled := fun run member => (held run member).settle placed apart here decides
      rw [here] at placed spent
      refine ⟨placed.settle apart _, ⟨fun waiting => (by cases waiting), fun collecting => by cases collecting⟩, settled,
        known_append rfl known, ?_⟩
      rw [starts, List.countP_append, List.countP_append, List.countP_singleton, List.countP_singleton, ← starts]
      simp only [Moment.actionsLeft, actionsLeft, Batch.settle_running, List.length_cons, Label.isAction, Label.isStart]
        at spent ⊢
      simp only [if_true, Bool.false_eq_true, if_false]
      omega
  | @raise stops completion own result rest state error stored here asked prepares =>
      have inside : Placed (runs.map TaskRun.runID : List String) ⟨.left, state⟩ := by
        rw [here] at placed
        refine ⟨le_trans ?_ placed.ids, placed.accounts, fun finished member => absurd member List.not_mem_nil,
          fun _ _ collecting => by cases collecting⟩
        exact Multiset.add_le_add_left (Multiset.zero_le _)
      refine ⟨inside, ⟨fun waiting => (by cases waiting), fun collecting => by cases collecting⟩, ?_,
        known_append rfl known, ?_⟩
      · intro run member
        have held := held run member
        refine held.beside rfl (by rw [here]; rfl) (inStep_update held.inStep fun same => ?_)
        rw [same] at prepares
        exact prepares.ended held.inStep
      · rw [here] at spent
        rw [starts, List.countP_append, List.countP_append, List.countP_singleton, List.countP_singleton, ← starts]
        simp only [Moment.actionsLeft, actionsLeft, List.length_cons, Label.isAction, Label.isStart] at spent ⊢
        simp only [if_true, Bool.false_eq_true, if_false]
        omega
  | @foreign runID move stored done =>
      refine ⟨placed, woken, ?_, known_append rfl known, ?_⟩
      · intro run member
        have held := held run member
        exact held.beside rfl rfl (inStep_update held.inStep fun same => held.inStep.moved (same ▸ done))
      · rw [starts, List.countP_append, List.countP_append, List.countP_singleton, List.countP_singleton, ← starts]
        exact spent
  | @snapshot snapshot stored taken done =>
      refine ⟨placed, woken, ?_, known_append rfl known, ?_⟩
      · intro run member
        have held := held run member
        refine held.beside rfl rfl (inStep_update held.inStep fun same => ?_)
        rw [same] at taken done
        exact held.inStep.updateRun taken done
      · rw [starts, List.countP_append, List.countP_append, List.countP_singleton, List.countP_singleton, ← starts]
        exact spent

theorem runOf_mem {runs : List TaskRun} (distinct : (runs.map TaskRun.runID).Nodup) {run : TaskRun} (member : run ∈ runs) :
    runOf runs run.runID = run := by
  unfold runOf
  cases found : runs.find? fun other => other.runID = run.runID with
  | none => exact absurd (decide_eq_true rfl) (List.find?_eq_none.mp found run member)
  | some other =>
      have holds := List.find?_some found
      have same : other.runID = run.runID := of_decide_eq_true holds
      exact List.inj_on_of_nodup_map distinct (List.mem_of_find?_eq_some found) member same

theorem sound_opening {runs : List TaskRun} (distinct : (runs.map TaskRun.runID).Nodup)
    (first : ∀ run ∈ runs, run.attempt = 1) : Sound runs [] (opening runs) where
  placed := by
    refine ⟨le_of_eq ?_, ⟨rfl, fun entry member => absurd member List.not_mem_nil, fun _ => rfl⟩,
      fun finished member => absurd member List.not_mem_nil, fun _ _ collecting => by cases collecting⟩
    have ids : (runs.map TaskRun.scheduled).map BatchRun.runID = runs.map TaskRun.runID := List.map_map ..
    simp only [Moment.ids, SchedulerState.ids, opening, Batch.opening, Batch.start, Position.inHand, ids, List.map_nil,
      Multiset.coe_nil, add_zero]
  woken := ⟨fun waiting => (by cases waiting), fun collecting => by cases collecting⟩
  held run member := by
    have same : (opening runs).objects run.runID = run := runOf_mem distinct member
    have pending : run.runID ∈ Moment.pending (opening runs).moment :=
      List.mem_map_of_mem (List.mem_map_of_mem member)
    refine ⟨?_, ?_, ?_, ?_, InStep.refl _⟩
    · rw [if_pos pending, same, first run member]
      rfl
    · rw [same, first run member]
      exact le_max_left _ _
    · rw [same]
    · rw [same]
  known run inside := absurd inside List.not_mem_nil
  spent := le_rfl

theorem Sound.run {runs : List TaskRun} {labels : List Label} {inv : Invocation}
    (distinct : (runs.map TaskRun.runID).Nodup) (first : ∀ run ∈ runs, run.attempt = 1)
    (run : (invocation batch).Run (opening runs) labels inv) : Sound runs labels inv :=
  run.invariant (Sound runs) (sound_opening distinct first) fun _ _ _ _ sound step => sound.step distinct step

theorem Sound.progress {runs : List TaskRun} {labels : List Label} {inv : Invocation} (sound : Sound runs labels inv)
    (inside : inv.moment.position ≠ .left) : ∃ label next, Label.isAction label = true ∧ Step batch inv label next := by
  have acts {event : ScheduleEvent} {moment : Moment} (acts : batch.Acts inv.moment event moment)
      (plain : Plain inv.moment moment) : ∃ label next, Label.isAction label = true ∧ Step batch inv label next :=
    ⟨_, _, rfl, .act acts plain⟩
  obtain ⟨placed, woken, -, -, -⟩ := sound
  obtain ⟨⟨position, state⟩, objects, store⟩ := inv
  cases position with
  | left => exact absurd rfl inside
  | launching =>
      have plain {moment : Moment} : Plain ⟨.launching, state⟩ moment :=
        ⟨fun _ _ _ settling => (by cases settling), fun waiting => by cases waiting⟩
      cases started : batch.startNext state with
      | some next =>
          obtain ⟨run, found⟩ := Batch.startNext_isSome_find started
          exact acts (.start started found) plain
      | none =>
          by_cases idle : state.running = []
          · exact acts (.leave started idle) plain
          · exact acts (.wait started idle) plain
  | waiting =>
      obtain ⟨task, rest, busy⟩ := List.exists_cons_of_ne_nil (woken.waits rfl)
      let completion : Completion :=
        { task := task.id
          now := 0
          execute := fun _ => .error ⟨"", ""⟩
          owned := fun _ _ returned => by cases returned
          shouldRetry := fun _ _ => false
          prepareRetry := fun _ _ => none
          sameRun := fun _ _ _ again => by cases again }
      refine acts (.wake [completion]) ⟨fun _ _ _ settling => (by cases settling), fun _ => ⟨[completion], rfl, ?_⟩⟩
      refine ⟨List.cons_ne_nil _ _, List.nodup_singleton _, fun other member => ⟨task, ?_, ?_⟩⟩
      · exact busy ▸ List.mem_cons_self
      · rw [List.mem_singleton.mp member]
  | collecting done completed =>
      have plain {moment : Moment} : Plain ⟨.collecting done completed, state⟩ moment :=
        ⟨fun _ _ _ settling => (by cases settling), fun waiting => by cases waiting⟩
      cases done with
      | nil => exact acts .judge plain
      | cons completion rest =>
          obtain ⟨task, running, same⟩ := (placed.running _ _ rfl).2 completion List.mem_cons_self
          cases popped : Batch.popTask state completion with
          | none =>
              have absent := List.find?_eq_none.mp (Option.map_eq_none_iff.mp popped) task running
              exact absurd (decide_eq_true same) absent
          | some taken => exact acts (.pop popped) plain
  | settling stops completed =>
      cases completed with
      | nil => exact acts .resume ⟨fun _ _ _ settling => (by cases settling), fun waiting => by cases waiting⟩
      | cons finished rest =>
          obtain ⟨completion, run, result⟩ := finished
          by_cases asked : asks batch stops (objects run.runID) result = true
          · obtain ⟨again, stored, prepares⟩ := prepares_some (objects run.runID) result (store run.runID)
            exact ⟨_, _, rfl, .settle rfl ((if_pos asked).mpr prepares)⟩
          · exact ⟨_, _, rfl, .settle rfl ((if_neg asked).mpr ⟨rfl, rfl⟩)⟩

end Actions

section Results

/-- **Retries are bounded.** In every run of the scheduler on first attempts of distinct runs, however executions end,
and whatever others do to the stored runs meanwhile, also in the midst of a retry: no run is executed more often than its
policy allows. So the loop takes no more than so many actions, and it can take one until it is left. -/
theorem executions_le (batch : Batch) (runs : List TaskRun) (distinct : (runs.map TaskRun.runID).Nodup)
    (first : ∀ run ∈ runs, run.attempt = 1) (labels : List Label) (inv : Invocation)
    (run : (invocation batch).Run (opening runs) labels inv) :
    (∀ run ∈ runs, (executions labels run.runID : ℤ) ≤ max 1 run.retry.maxAttempts) ∧
      labels.countP Label.isAction ≤ 7 * (runs.map fun run => (max 1 run.retry.maxAttempts).toNat).sum + 1 ∧
      (inv.moment.position ≠ .left → ∃ label next, Label.isAction label = true ∧ Step batch inv label next) := by
  have sound := Sound.run distinct first run
  have each (run : TaskRun) (member : run ∈ runs) : (executions labels run.runID : ℤ) ≤ max 1 run.retry.maxAttempts := by
    have executed := (sound.held run member).executed
    have bounded := (sound.held run member).bounded
    split at executed
    · omega
    · omega
  refine ⟨each, ?_, fun inside => sound.progress inside⟩
  have all : starts labels ≤ (runs.map fun run => (max 1 run.retry.maxAttempts).toNat).sum := by
    rw [starts_eq_sum distinct sound.known, List.map_map]
    refine List.sum_le_sum fun run member => ?_
    have below := each run member
    dsimp only [Function.comp]
    omega
  have spent := sound.spent
  omega

def flakyRun : TaskRun :=
  { (default : TaskRun) with
    runID := "run-1"
    retry := ⟨2, ["transient"], 0⟩ }

def flakyBatch : Batch :=
  { schedulerConcurrency := 20, maxConcurrency := none, joinStrategy := .partialOK, resourceKey := fun _ => none,
    resourceLimits := fun _ => none, retries := true, cancelQueued := none, cancelOwned := fun _ _ _ none_ => by cases none_ }

theorem executions_le_flaky :
    ∃ inv, (invocation flakyBatch).Run (opening [flakyRun]) [.acted (.started flakyRun.scheduled)] inv ∧
      (executions [.acted (.started flakyRun.scheduled)] flakyRun.runID : ℤ) ≤ max 1 2 := by
  obtain ⟨next, started⟩ : ∃ next, flakyBatch.startNext (opening [flakyRun]).moment.state = some next := ⟨_, rfl⟩
  have plain : Plain (opening [flakyRun]).moment ⟨.launching, next⟩ :=
    ⟨fun _ _ _ settling => (by cases settling), fun waiting => by cases waiting⟩
  have run : (invocation flakyBatch).Run (opening [flakyRun]) [.acted (.started flakyRun.scheduled)] _ :=
    .snoc .nil (.act (.start started rfl) plain)
  have first : ∀ run ∈ [flakyRun], run.attempt = 1 := fun run member => by rw [List.mem_singleton.mp member]; rfl
  exact ⟨_, run, (executions_le flakyBatch [flakyRun] (List.nodup_singleton _) first _ _ run).1 flakyRun
    List.mem_cons_self⟩

end Results

end Sico.TaskRuntime.Retries

import Mathlib.Algebra.Order.Group.Multiset
import Mathlib.Data.List.Sort
import Mathlib.Logic.Function.Basic
import Mathlib.Tactic.Abel
import Sico.TaskRuntime.Rows

/-! # The batch scheduler

One loop runs a batch: it starts pending runs while concurrency and the resource
limits allow, waits for some executions to finish, and records each result or queues
the run again. What the environment decides is given round by round: which tasks
finish together and in which order, what each execution returns, whether a retry is
wanted and what it reopens (`Completion`). However it decides, a batch that returns
has exactly one result for each of its runs (`run_one_result_each`).
-/

namespace Sico.TaskRuntime

/-- What the scheduler reads of a run. -/
structure BatchRun where
  runID : String
  batchItemIndex : ℤ
  taskID : String
  title : String
  startedAt : Option ℤ
  deriving Repr, DecidableEq

/-- What the scheduler reads and writes of a result. -/
structure TaskResult where
  runID : String
  taskID : String
  status : Status
  title : String
  summary : String
  errorClass : Option String
  errorMessage : String
  startedAt : Option ℤ
  endedAt : Option ℤ
  durationMS : Option ℤ
  deriving Repr, DecidableEq

inductive JoinStrategy where
  | allSuccess
  | partialOK
  | firstSuccess
  | failFast
  deriving Repr, DecidableEq

/-- An exception that an execution raises: its class and its text. -/
structure Raised where
  className : String
  message : String
  deriving Repr, DecidableEq

/-- What the environment decides about one finished task. A result carries the run ID
of its run, and a reopened run is the same run. -/
structure Completion where
  task : ℕ
  now : ℤ
  execute : BatchRun → Except Raised TaskResult
  owned : ∀ run result, execute run = .ok result → result.runID = run.runID
  shouldRetry : BatchRun → TaskResult → Bool
  prepareRetry : BatchRun → TaskResult → Option BatchRun
  sameRun : ∀ run result again, prepareRetry run result = some again → again.runID = run.runID

/-- The arguments of `BatchScheduler.run`, with the scheduler's own concurrency. A
result of `cancelQueued` carries the run ID of its run. -/
structure Batch where
  schedulerConcurrency : ℤ
  maxConcurrency : Option ℤ
  joinStrategy : JoinStrategy
  resourceKey : BatchRun → Option String
  resourceLimits : String → Option ℤ
  retries : Bool
  cancelQueued : Option (BatchRun → String → TaskResult)
  cancelOwned : ∀ cancel run reason, cancelQueued = some cancel →
    (cancel run reason).runID = run.runID

/-- An execution in flight with the resource it holds. -/
structure Task where
  id : ℕ
  run : BatchRun
  key : Option String

structure SchedulerState where
  pending : List BatchRun
  running : List Task
  results : List (String × TaskResult)
  inUse : String → ℕ
  stopReason : Option String
  nextTask : ℕ

/-- Setting a key of a dictionary in insertion order. -/
def dictSet (key : String) (value : TaskResult) :
    List (String × TaskResult) → List (String × TaskResult)
  | [] => [(key, value)]
  | entry :: rest =>
      if entry.1 = key then (key, value) :: rest else entry :: dictSet key value rest

def internalFailureResult (now : ℤ) (run : BatchRun) (exc : Raised) : TaskResult :=
  let message := s!"Internal task runtime error: {exc.className}: {exc.message}"
  { runID := run.runID
    taskID := run.taskID
    status := .failed
    title := run.title
    summary := message
    errorClass := some "internal"
    errorMessage := message
    startedAt :=
      match run.startedAt with
      | some startedAt => if startedAt = 0 then some now else some startedAt
      | none => some now
    endedAt := some now
    durationMS := some 0 }

def executeSafely (completion : Completion) (run : BatchRun) : TaskResult :=
  match completion.execute run with
  | .ok result => result
  | .error exc => internalFailureResult completion.now run exc

/-- `_stop_reason`. -/
def stopReasonOf (joinStrategy : JoinStrategy) (result : TaskResult) : Option String :=
  if joinStrategy = .failFast ∧ result.status ≠ .completed then
    some s!"Batch stopped after task {result.taskID} ended with {result.status.text}."
  else if joinStrategy = .firstSuccess ∧ result.status = .completed then
    some s!"Batch stopped after task {result.taskID} succeeded."
  else
    none

/-- `_batch_item_index`, which raises for an unknown run. -/
def batchItemIndex (runs : List BatchRun) (runID : String) : Option ℤ :=
  (runs.find? fun run => run.runID = runID).map BatchRun.batchItemIndex

namespace Batch

variable (batch : Batch)

def concurrency : ℤ :=
  max 1 (match batch.maxConcurrency with
    | some limit => if limit = 0 then batch.schedulerConcurrency else limit
    | none => batch.schedulerConcurrency)

/-- The limits that count: positive ones under a nonempty key. -/
def limit (key : String) : Option ℤ :=
  if key = "" then none else (batch.resourceLimits key).filter fun limit => 0 < limit

def runResource (run : BatchRun) : Option String :=
  (batch.resourceKey run).filter fun key => (batch.limit key).isSome

def canStart (inUse : String → ℕ) (run : BatchRun) : Bool :=
  match batch.runResource run with
  | none => true
  | some key => (batch.limit key).any fun limit => (inUse key : ℤ) < limit

/-- One turn of the inner loop: the first pending run that can start does. -/
def startNext (state : SchedulerState) : Option SchedulerState :=
  if state.stopReason.isSome ∨ batch.concurrency ≤ state.running.length then
    none
  else
    (state.pending.find? (batch.canStart state.inUse)).map fun run =>
      let key := batch.runResource run
      { state with
        pending := state.pending.eraseP (batch.canStart state.inUse)
        running := state.running ++ [⟨state.nextTask, run, key⟩]
        inUse := key.elim state.inUse fun key =>
          Function.update state.inUse key (state.inUse key + 1)
        nextTask := state.nextTask + 1 }

/-- At most `fuel` turns of the inner loop. -/
def fillFor : ℕ → SchedulerState → SchedulerState
  | 0, state => state
  | fuel + 1, state =>
      match batch.startNext state with
      | some next => fillFor fuel next
      | none => state

/-- The inner loop: each turn takes a pending run, so these turns are enough. -/
def fill (state : SchedulerState) : SchedulerState := batch.fillFor state.pending.length state

/-- A finished task leaves the running ones and frees its resource. -/
def popTask (state : SchedulerState) (completion : Completion) :
    Option (SchedulerState × BatchRun × TaskResult) :=
  (state.running.find? fun task => task.id = completion.task).map fun task =>
    ({ state with
        running := state.running.eraseP fun task => task.id = completion.task
        inUse := task.key.elim state.inUse fun key =>
          Function.update state.inUse key (state.inUse key - 1) },
      task.run, executeSafely completion task.run)

/-- The first phase of a round: the results of the finished tasks, in order. -/
def collect : List Completion → SchedulerState →
    Option (SchedulerState × List (Completion × BatchRun × TaskResult))
  | [], state => some (state, [])
  | completion :: rest, state => do
      let (state, run, result) ← popTask state completion
      let (state, completed) ← collect rest state
      return (state, (completion, run, result) :: completed)

/-- The second phase for one result: a retry while the batch goes on, else the result. -/
def settle (roundStops : Bool) (state : SchedulerState)
    (finished : Completion × BatchRun × TaskResult) : SchedulerState :=
  let (completion, run, result) := finished
  let again :=
    if !roundStops && batch.retries && completion.shouldRetry run result then
      completion.prepareRetry run result
    else
      none
  match again with
  | some retry => { state with pending := state.pending ++ [retry] }
  | none =>
      { state with
        results := dictSet run.runID result state.results
        stopReason := state.stopReason.or (stopReasonOf batch.joinStrategy result) }

/-- One round: the tasks that finish together. `none` is a round that cannot happen. -/
def round (done : List Completion) (state : SchedulerState) : Option SchedulerState := do
  let (state, completed) ← collect done state
  let roundStops := state.stopReason.isSome ||
    completed.any fun finished => (stopReasonOf batch.joinStrategy finished.2.2).isSome
  return completed.foldl (batch.settle roundStops) state

/-- The loop over the given rounds; `none` when a round cannot happen or the loop would
go on waiting. -/
def loop : List (List Completion) → SchedulerState → Option SchedulerState
  | rounds, state =>
      if state.pending = [] ∧ state.running = [] then
        some state
      else
        let state := batch.fill state
        if state.running = [] then
          some state
        else
          match rounds with
          | [] => none
          | done :: rest => (batch.round done state).bind (loop rest)

def cancelRemaining (remaining : List BatchRun) (reason : String)
    (results : List (String × TaskResult)) : List (String × TaskResult) :=
  match batch.cancelQueued with
  | none => results
  | some cancel =>
      remaining.foldl (fun results run => dictSet run.runID (cancel run reason) results) results

def start (runs : List BatchRun) : SchedulerState where
  pending := runs
  running := []
  results := []
  inUse := fun _ => 0
  stopReason := none
  nextTask := 0

/-- The order of the results, by their batch item index. -/
def indexOrder (first second : ℤ × TaskResult) : Prop := first.1 ≤ second.1

instance : DecidableRel indexOrder := fun first second => inferInstanceAs (Decidable (first.1 ≤ second.1))

instance : Std.Total indexOrder := ⟨fun first second => le_total first.1 second.1⟩

instance : IsTrans (ℤ × TaskResult) indexOrder := ⟨fun _ _ _ => le_trans⟩

/-- `BatchScheduler.run`: the results, when it returns after the given rounds. -/
def run (runs : List BatchRun) (rounds : List (List Completion)) : Option (List TaskResult) := do
  let final ← batch.loop rounds (start runs)
  let results :=
    match final.stopReason with
    | some reason => batch.cancelRemaining final.pending reason final.results
    | none => final.results
  let keyed ← results.mapM fun entry =>
    (batchItemIndex runs entry.2.runID).map fun index => (index, entry.2)
  return (keyed.insertionSort indexOrder).map Prod.snd

end Batch

section Accounting

/-- The run IDs the scheduler answers for: pending, running or with a result. -/
def SchedulerState.ids (state : SchedulerState) : Multiset String :=
  (state.pending.map BatchRun.runID : Multiset String) +
    (state.running.map fun task => task.run.runID : List String) +
    (state.results.map Prod.fst : List String)

/-- The scheduler answers for `ids`, each result is under its own run ID, and the
counters count the tasks that hold a resource. -/
structure Accounts (ids : Multiset String) (state : SchedulerState) : Prop where
  ids : state.ids = ids
  owned : ∀ entry ∈ state.results, entry.2.runID = entry.1
  held : ∀ key, state.inUse key = state.running.countP fun task => task.key = some key

theorem perm_cons_eraseP {α : Type*} {test : α → Bool} {items : List α} {item : α}
    (found : items.find? test = some item) : items.Perm (item :: items.eraseP test) := by
  induction items with
  | nil => cases found
  | cons first rest ih =>
      by_cases here : test first
      · obtain rfl : first = item := by simpa [List.find?_cons, here] using found
        simp [here]
      · have later : rest.find? test = some item := by
          simpa [List.find?_cons, here] using found
        simpa [List.eraseP_cons, here] using ((ih later).cons first).trans (.swap _ _ _)

theorem dictSet_fresh {key : String} (value : TaskResult) {entries : List (String × TaskResult)}
    (fresh : key ∉ entries.map Prod.fst) :
    dictSet key value entries = entries ++ [(key, value)] := by
  induction entries with
  | nil => rfl
  | cons entry rest ih =>
      simp only [List.map_cons, List.mem_cons, not_or] at fresh
      have different : entry.1 ≠ key := fun same => fresh.1 same.symm
      simp [dictSet, different, ih fresh.2]

variable {batch : Batch} {ids : Multiset String} {state next : SchedulerState}

theorem Batch.startNext_eq_some (started : batch.startNext state = some next) :
    ∃ run, state.pending.find? (batch.canStart state.inUse) = some run ∧
      next = { state with
        pending := state.pending.eraseP (batch.canStart state.inUse)
        running := state.running ++ [⟨state.nextTask, run, batch.runResource run⟩]
        inUse := (batch.runResource run).elim state.inUse fun key =>
          Function.update state.inUse key (state.inUse key + 1)
        nextTask := state.nextTask + 1 } := by
  unfold startNext at started
  split at started
  · cases started
  · obtain ⟨run, found, same⟩ := Option.map_eq_some_iff.mp started
    exact ⟨run, found, same.symm⟩

/-- The counters count the tasks that hold a resource. -/
def SchedulerState.Counted (state : SchedulerState) : Prop :=
  ∀ key, state.inUse key = state.running.countP fun task => task.key = some key

theorem SchedulerState.Counted.startNext (counted : state.Counted)
    (started : batch.startNext state = some next) : next.Counted := by
  obtain ⟨run, _, rfl⟩ := Batch.startNext_eq_some started
  intro key
  rw [List.countP_append, ← counted key]
  cases holds : batch.runResource run with
  | none => simp
  | some held =>
      by_cases same : key = held
      · subst same
        simp
      · simp [Function.update_of_ne same, Ne.symm same]

theorem SchedulerState.Counted.popTask {completion : Completion} {run : BatchRun}
    {result : TaskResult} (counted : state.Counted)
    (popped : Batch.popTask state completion = some (next, run, result)) : next.Counted := by
  obtain ⟨task, found, same⟩ := Option.map_eq_some_iff.mp popped
  obtain ⟨rfl, rfl, rfl⟩ : _ ∧ _ ∧ _ := by simpa using same
  intro key
  have before := counted key
  rw [(perm_cons_eraseP found).countP_eq, List.countP_cons] at before
  dsimp only
  cases holds : task.key with
  | none =>
      rw [holds] at before
      simpa using before
  | some held =>
      rw [holds] at before
      by_cases same : key = held
      · subst same
        simp only [decide_true, if_true] at before
        simp [before]
      · have other : some held ≠ some key := fun equal => same (Option.some.inj equal).symm
        simp only [other, decide_false, Bool.false_eq_true, if_false, Nat.add_zero] at before
        simpa [Function.update_of_ne same] using before

theorem Accounts.startNext (accounts : Accounts ids state)
    (started : batch.startNext state = some next) : Accounts ids next := by
  have counted : next.Counted := SchedulerState.Counted.startNext accounts.held started
  obtain ⟨run, found, rfl⟩ := Batch.startNext_eq_some started
  have moved := perm_cons_eraseP found
  refine ⟨?_, accounts.owned, counted⟩
  rw [← accounts.ids]
  have pending : (state.pending.map BatchRun.runID : Multiset String) =
      run.runID ::ₘ (state.pending.eraseP (batch.canStart state.inUse)).map BatchRun.runID := by
    rw [Multiset.cons_coe]
    exact Multiset.coe_eq_coe.mpr (moved.map BatchRun.runID)
  simp only [SchedulerState.ids, pending, List.map_append, List.map_cons, List.map_nil,
    ← Multiset.coe_add, Multiset.coe_singleton, ← Multiset.singleton_add]
  abel

theorem Accounts.fillFor (fuel : ℕ) (accounts : Accounts ids state) :
    Accounts ids (batch.fillFor fuel state) := by
  induction fuel generalizing state with
  | zero => exact accounts
  | succ fuel ih =>
      unfold Batch.fillFor
      split
      · next started => exact ih (accounts.startNext started)
      · exact accounts

theorem Batch.startNext_fillFor {fuel : ℕ} (enough : state.pending.length ≤ fuel) :
    batch.startNext (batch.fillFor fuel state) = none := by
  induction fuel generalizing state with
  | zero =>
      have empty : state.pending = [] := List.length_eq_zero_iff.mp (Nat.le_zero.mp enough)
      simp [Batch.fillFor, Batch.startNext, empty]
  | succ fuel ih =>
      unfold Batch.fillFor
      split
      · next next started =>
        obtain ⟨run, found, rfl⟩ := Batch.startNext_eq_some started
        have shorter := (perm_cons_eraseP found).length_eq
        simp only [List.length_cons] at shorter
        exact ih (by dsimp only; omega)
      · assumption

theorem Accounts.popTask {completion : Completion} {run : BatchRun} {result : TaskResult}
    (accounts : Accounts ids state)
    (popped : Batch.popTask state completion = some (next, run, result)) :
    next.ids + {run.runID} = ids ∧ result.runID = run.runID ∧ next.results = state.results ∧
      (∀ key, next.inUse key = next.running.countP fun task => task.key = some key) ∧
      next.stopReason = state.stopReason := by
  have counted : next.Counted := SchedulerState.Counted.popTask accounts.held popped
  obtain ⟨task, found, same⟩ := Option.map_eq_some_iff.mp popped
  obtain ⟨rfl, rfl, rfl⟩ : _ ∧ _ ∧ _ := by simpa using same
  have moved := perm_cons_eraseP found
  refine ⟨?_, ?_, rfl, counted, rfl⟩
  · rw [← accounts.ids]
    have running : (state.running.map fun task => task.run.runID : Multiset String) =
        task.run.runID ::ₘ (state.running.eraseP fun task => task.id = completion.task).map
          fun task => task.run.runID := by
      rw [Multiset.cons_coe]
      exact Multiset.coe_eq_coe.mpr (moved.map _)
    simp only [SchedulerState.ids, running, ← Multiset.singleton_add]
    abel
  · unfold executeSafely
    split
    · next result returned => exact completion.owned _ _ returned
    · rfl

theorem Accounts.collect {done : List Completion}
    {completed : List (Completion × BatchRun × TaskResult)} (accounts : Accounts ids state)
    (collected : Batch.collect done state = some (next, completed)) :
    next.ids + (completed.map fun finished => finished.2.1.runID : List String) = ids ∧
      (∀ finished ∈ completed, finished.2.2.runID = finished.2.1.runID) ∧
      Accounts next.ids next := by
  induction done generalizing ids state completed with
  | nil =>
      obtain ⟨rfl, rfl⟩ : _ ∧ _ := by simpa [Batch.collect] using collected
      exact ⟨by simp [accounts.ids], by simp, rfl, accounts.owned, accounts.held⟩
  | cons completion rest ih =>
      simp only [Batch.collect, Option.bind_eq_bind, Option.bind_eq_some_iff, Option.pure_def,
        Option.some.injEq, Prod.exists, Prod.mk.injEq] at collected
      obtain ⟨middle, run, result, popped, final, later, collected, rfl, rfl⟩ := collected
      obtain ⟨inHand, own, results, held, _⟩ := accounts.popTask popped
      have middleAccounts : Accounts middle.ids middle :=
        ⟨rfl, results ▸ accounts.owned, held⟩
      obtain ⟨laterIds, laterOwned, laterAccounts⟩ := ih middleAccounts collected
      refine ⟨?_, ?_, laterAccounts⟩
      · rw [← inHand, ← laterIds, List.map_cons, ← Multiset.cons_coe, ← Multiset.singleton_add]
        abel
      · intro finished member
        rcases List.mem_cons.mp member with rfl | member
        · exact own
        · exact laterOwned finished member

theorem Accounts.settle (accounts : Accounts state.ids state) (batch : Batch) (roundStops : Bool)
    {finished : Completion × BatchRun × TaskResult}
    (own : finished.2.2.runID = finished.2.1.runID)
    (fresh : finished.2.1.runID ∉ state.ids) :
    Accounts (state.ids + {finished.2.1.runID}) (batch.settle roundStops state finished) := by
  obtain ⟨completion, run, result⟩ := finished
  unfold Batch.settle
  dsimp only at own fresh ⊢
  split
  · next retry reopened =>
    have same : retry.runID = run.runID := by
      split at reopened
      · exact completion.sameRun _ _ _ reopened
      · cases reopened
    refine ⟨?_, accounts.owned, accounts.held⟩
    simp only [SchedulerState.ids, List.map_append, List.map_cons, List.map_nil, same,
      ← Multiset.coe_add, Multiset.coe_singleton]
    abel
  · have absent : run.runID ∉ state.results.map Prod.fst := by
      intro present
      exact fresh (Multiset.mem_add.mpr (.inr present))
    refine ⟨?_, ?_, accounts.held⟩
    · simp only [SchedulerState.ids, dictSet_fresh result absent, List.map_append, List.map_cons,
        List.map_nil, ← Multiset.coe_add, Multiset.coe_singleton]
      abel
    · intro entry member
      rw [dictSet_fresh result absent] at member
      rcases List.mem_append.mp member with before | added
      · exact accounts.owned entry before
      · obtain rfl := List.mem_singleton.mp added
        exact own

theorem Accounts.settleAll {roundStops : Bool}
    {completed : List (Completion × BatchRun × TaskResult)} (accounts : Accounts state.ids state)
    (owned : ∀ finished ∈ completed, finished.2.2.runID = finished.2.1.runID)
    (distinct : (state.ids +
      (completed.map fun finished => finished.2.1.runID : List String)).Nodup) :
    Accounts (state.ids + (completed.map fun finished => finished.2.1.runID : List String))
      (completed.foldl (batch.settle roundStops) state) := by
  induction completed generalizing state with
  | nil => simpa using accounts
  | cons finished rest ih =>
      rw [List.map_cons, ← Multiset.cons_coe, ← Multiset.singleton_add, ← add_assoc]
        at distinct ⊢
      have first := (Multiset.nodup_add.mp distinct).1
      have fresh : finished.2.1.runID ∉ state.ids :=
        Multiset.disjoint_singleton.mp (Multiset.nodup_add.mp first).2.2
      have settled := accounts.settle batch roundStops
        (owned finished (List.mem_cons_self ..)) fresh
      rw [← settled.ids] at distinct ⊢
      exact ih ⟨rfl, settled.owned, settled.held⟩
        (fun later member => owned later (List.mem_cons_of_mem _ member)) distinct

theorem Accounts.round {done : List Completion} (accounts : Accounts ids state)
    (distinct : ids.Nodup) (happened : batch.round done state = some next) :
    Accounts ids next := by
  simp only [Batch.round, Option.bind_eq_bind, Option.bind_eq_some_iff, Option.pure_def,
    Option.some.injEq, Prod.exists] at happened
  obtain ⟨middle, completed, collected, rfl⟩ := happened
  obtain ⟨inHand, owned, middleAccounts⟩ := accounts.collect collected
  rw [← inHand] at distinct ⊢
  exact middleAccounts.settleAll owned distinct

/-- With nothing running every pending run can start, so the loop only stops short of
them when it was asked to. -/
theorem SchedulerState.Counted.pending_of_idle (counted : state.Counted)
    (stuck : batch.startNext state = none) (idle : state.running = [])
    (going : state.stopReason = none) : state.pending = [] := by
  have room : ¬ (state.stopReason.isSome ∨ batch.concurrency ≤ state.running.length) := by
    have positive : 1 ≤ batch.concurrency := le_max_left _ _
    rw [going, idle]
    simp only [Option.isSome_none, List.length_nil, Nat.cast_zero]
    rintro (stopped | full)
    · cases stopped
    · omega
  have free (run : BatchRun) : batch.canStart state.inUse run = true := by
    unfold Batch.canStart
    split
    · rfl
    · next key resource =>
      have zero : state.inUse key = 0 := by rw [counted, idle]; rfl
      have limited := (Option.filter_eq_some_iff.mp resource).2
      obtain ⟨limit, bound⟩ := Option.isSome_iff_exists.mp limited
      have positive : 0 < limit := by
        unfold Batch.limit at bound
        split at bound
        · cases bound
        · simpa using (Option.filter_eq_some_iff.mp bound).2
      simp [bound, zero, positive]
  rw [Batch.startNext, if_neg room, Option.map_eq_none_iff, List.find?_eq_none] at stuck
  refine List.eq_nil_iff_forall_not_mem.mpr fun run member => ?_
  exact stuck run member (free run)

theorem Batch.loop_eq_some {rounds : List (List Completion)}
    (returned : batch.loop rounds state = some next) :
    (state.pending = [] ∧ state.running = [] ∧ next = state) ∨
      ((batch.fill state).running = [] ∧ next = batch.fill state) ∨
      ∃ done rest middle, rounds = done :: rest ∧
        batch.round done (batch.fill state) = some middle ∧ batch.loop rest middle = some next := by
  unfold Batch.loop at returned
  split at returned
  · next finished => exact .inl ⟨finished.1, finished.2, (Option.some.inj returned).symm⟩
  · dsimp only at returned
    split at returned
    · next idle => exact .inr (.inl ⟨idle, (Option.some.inj returned).symm⟩)
    · split at returned
      · cases returned
      · next done rest =>
        obtain ⟨middle, happened, onward⟩ := Option.bind_eq_some_iff.mp returned
        exact .inr (.inr ⟨done, rest, middle, rfl, happened, onward⟩)

theorem Accounts.loop {rounds : List (List Completion)} (accounts : Accounts ids state)
    (distinct : ids.Nodup) (returned : batch.loop rounds state = some next) :
    Accounts ids next ∧ next.running = [] ∧ (next.stopReason = none → next.pending = []) := by
  induction rounds generalizing state with
  | nil =>
      rcases Batch.loop_eq_some returned with ⟨empty, idle, rfl⟩ | ⟨idle, rfl⟩ | ⟨_, _, _, none, _⟩
      · exact ⟨accounts, idle, fun _ => empty⟩
      · have filled : Accounts ids (batch.fill state) := accounts.fillFor _
        exact ⟨filled, idle, SchedulerState.Counted.pending_of_idle filled.held
          (Batch.startNext_fillFor le_rfl) idle⟩
      · cases none
  | cons done rest ih =>
      have filled : Accounts ids (batch.fill state) := accounts.fillFor _
      rcases Batch.loop_eq_some returned with ⟨empty, idle, rfl⟩ | ⟨idle, rfl⟩ |
        ⟨_, _, middle, same, happened, onward⟩
      · exact ⟨accounts, idle, fun _ => empty⟩
      · exact ⟨filled, idle, SchedulerState.Counted.pending_of_idle filled.held
          (Batch.startNext_fillFor le_rfl) idle⟩
      · obtain ⟨rfl, rfl⟩ := List.cons.inj same
        exact ih (filled.round distinct happened) onward

theorem cancelRemaining_eq {cancel : BatchRun → String → TaskResult}
    (provided : batch.cancelQueued = some cancel) (reason : String) {remaining : List BatchRun}
    {results : List (String × TaskResult)}
    (distinct : (results.map Prod.fst ++ remaining.map BatchRun.runID).Nodup) :
    batch.cancelRemaining remaining reason results =
      results ++ remaining.map fun run => (run.runID, cancel run reason) := by
  simp only [Batch.cancelRemaining, provided]
  induction remaining generalizing results with
  | nil => simp
  | cons run rest ih =>
      have fresh : run.runID ∉ results.map Prod.fst := by
        intro present
        rw [List.map_cons, List.nodup_append] at distinct
        exact distinct.2.2 _ present _ (List.mem_cons_self ..) rfl
      have later : ((results ++ [(run.runID, cancel run reason)]).map Prod.fst ++
          rest.map BatchRun.runID).Nodup := by
        simpa using distinct
      rw [List.foldl_cons, dictSet_fresh _ fresh, ih later, List.append_assoc]
      rfl

theorem Batch.results_keys {runs : List BatchRun} {rounds : List (List Completion)}
    (distinct : (runs.map BatchRun.runID).Nodup) (cancels : batch.cancelQueued.isSome)
    (returned : batch.loop rounds (Batch.start runs) = some next) :
    let results := match next.stopReason with
      | some reason => batch.cancelRemaining next.pending reason next.results
      | none => next.results
    (results.map Prod.fst).Perm (runs.map BatchRun.runID) ∧
      ∀ entry ∈ results, entry.2.runID = entry.1 := by
  have initial : Accounts (runs.map BatchRun.runID : List String) (Batch.start runs) :=
    ⟨by simp [SchedulerState.ids, Batch.start], by simp [Batch.start], by simp [Batch.start]⟩
  obtain ⟨accounts, idle, settled⟩ :=
    initial.loop (Multiset.coe_nodup.mpr distinct) returned
  have ids := accounts.ids
  rw [SchedulerState.ids, idle] at ids
  cases stopped : next.stopReason with
  | none =>
      rw [settled stopped] at ids
      exact ⟨Multiset.coe_eq_coe.mp (by simpa using ids), accounts.owned⟩
  | some reason =>
      obtain ⟨cancel, provided⟩ := Option.isSome_iff_exists.mp cancels
      have together : (next.results.map Prod.fst ++ next.pending.map BatchRun.runID).Perm
          (runs.map BatchRun.runID) := by
        apply Multiset.coe_eq_coe.mp
        rw [← ids, ← Multiset.coe_add]
        simp [add_comm]
      have cancelled := cancelRemaining_eq provided reason (together.nodup_iff.mpr distinct)
      dsimp only
      rw [cancelled]
      refine ⟨by simpa [Function.comp_def] using together, ?_⟩
      intro entry member
      rcases List.mem_append.mp member with before | added
      · exact accounts.owned entry before
      · obtain ⟨run, _, rfl⟩ := List.mem_map.mp added
        exact batch.cancelOwned cancel run reason provided

theorem keyed_results {runs : List BatchRun} {results : List (String × TaskResult)}
    {keyed : List (ℤ × TaskResult)}
    (indexed : results.mapM (fun entry => (batchItemIndex runs entry.2.runID).map fun index =>
      (index, entry.2)) = some keyed) :
    keyed.map Prod.snd = results.map Prod.snd ∧
      ∀ pair ∈ keyed, batchItemIndex runs pair.2.runID = some pair.1 := by
  induction results generalizing keyed with
  | nil =>
      obtain rfl : [] = keyed := by simpa using indexed
      simp
  | cons entry rest ih =>
      simp only [List.mapM_cons, Option.bind_eq_bind, Option.bind_eq_some_iff,
        Option.map_eq_some_iff, Option.pure_def, Option.some.injEq] at indexed
      obtain ⟨_, ⟨index, found, rfl⟩, later, indexed, rfl⟩ := indexed
      obtain ⟨same, laterFound⟩ := ih indexed
      refine ⟨by simp [same], ?_⟩
      intro pair member
      rcases List.mem_cons.mp member with rfl | member
      · exact found
      · exact laterFound pair member

end Accounting

/-- **One result per run.** For runs with distinct IDs, and however the executions,
their order and the retries come out: when the scheduler returns, the run IDs of its
results are those of the runs, each once, and the results are in the order of the batch
item indices. -/
theorem run_one_result_each (batch : Batch) {runs : List BatchRun}
    {rounds : List (List Completion)} {results : List TaskResult}
    (distinct : (runs.map BatchRun.runID).Nodup) (cancels : batch.cancelQueued.isSome)
    (returned : batch.run runs rounds = some results) :
    (results.map TaskResult.runID).Perm (runs.map BatchRun.runID) ∧
      ∃ indices : List ℤ,
        results.map (fun result => batchItemIndex runs result.runID) = indices.map some ∧
        indices.Pairwise (· ≤ ·) := by
  simp only [Batch.run, Option.bind_eq_bind, Option.bind_eq_some_iff, Option.pure_def,
    Option.some.injEq] at returned
  obtain ⟨final, looped, keyed, indexed, rfl⟩ := returned
  obtain ⟨keys, owned⟩ := Batch.results_keys distinct cancels looped
  obtain ⟨values, found⟩ := keyed_results indexed
  have permuted := List.perm_insertionSort Batch.indexOrder keyed
  have ordered := List.pairwise_insertionSort Batch.indexOrder keyed
  refine ⟨?_, (keyed.insertionSort Batch.indexOrder).map Prod.fst, ?_, ?_⟩
  · have ids := (permuted.map Prod.snd).map TaskResult.runID
    rw [values] at ids
    refine ids.trans (.trans (.of_eq ?_) keys)
    rw [List.map_map]
    exact List.map_congr_left owned
  · rw [List.map_map, List.map_map]
    refine List.map_congr_left fun pair member => ?_
    exact found pair (permuted.mem_iff.mp member)
  · rw [List.pairwise_map]
    exact ordered

/-- Two runs under `fail_fast`, one at a time: the first fails and the other is
cancelled before it starts. -/
theorem run_one_result_each_cancelled :
    let result (runID : String) (status : Status) : TaskResult :=
      ⟨runID, "", status, "", "", none, "", none, none, none⟩
    let batch : Batch :=
      { schedulerConcurrency := 20, maxConcurrency := some 1, joinStrategy := .failFast,
        resourceKey := fun _ => none, resourceLimits := fun _ => none, retries := true,
        cancelQueued := some fun run _ => result run.runID .cancelled,
        cancelOwned := by rintro _ _ _ ⟨⟩; rfl }
    let failure : Completion :=
      { task := 0, now := 5, execute := fun run => .ok (result run.runID .failed),
        owned := by rintro _ _ ⟨⟩; rfl, shouldRetry := fun _ _ => true,
        prepareRetry := fun run _ => some run, sameRun := by rintro _ _ _ ⟨⟩; rfl }
    let runs : List BatchRun := [⟨"b", 1, "", "", none⟩, ⟨"a", 0, "", "", none⟩]
    batch.run runs [[failure]] = some [result "a" .cancelled, result "b" .failed] ∧
      ["a", "b"].Perm (runs.map BatchRun.runID) := by
  intro result batch failure runs
  have returned : batch.run runs [[failure]] = some [result "a" .cancelled, result "b" .failed] := by
    decide
  exact ⟨returned, (run_one_result_each batch (by decide) rfl returned).1⟩

end Sico.TaskRuntime

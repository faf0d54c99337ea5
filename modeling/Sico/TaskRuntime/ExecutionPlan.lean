import Mathlib.Data.Prod.Lex
import Sico.AgentLoop.Identifiers
import Sico.Foundation.Dict
import Sico.Foundation.Json
import Sico.Foundation.Members

/-! # Execution plans

A batch is planned before it runs. Each task that asks for a sandbox is given one of the types it accepts, the tasks
of one type share a lane, and a lane is as wide as its tasks and the sandboxes that are free allow. The concurrency
of the whole batch is within the deployment's limit, the caller's and the number of tasks.

How many sandboxes of a type are free is asked of the coordinator, which may not know.
-/

namespace Sico.TaskRuntime.ExecutionPlan

open Foundation AgentLoop

section Tasks

def sandboxOSes : List String := ["windows", "macos", "ios", "android", "linux"]

def sandboxTypes : List String := ["emulator", "wincua", "linux_workstation", "physical"]

def sandboxSelectors : List String := sandboxOSes ++ sandboxTypes

structure SkillGuideRef where
  skillID : ℤ
  version : String
  contentHash : String
  deriving DecidableEq, Repr

inductive Dispatch where
  | capability (capabilityID : String)
  | subAgent (profileID : String) (maxModelTurns : Option ℤ)
      (requestedCapabilitySelectors effectiveCapabilityIDs : List String) (instructionRefs : List SkillGuideRef)
  deriving DecidableEq, Repr

structure TaskDisplay where
  planTitle : String := ""
  batchStepTitle : String := ""
  singleStepTitle : String := ""
  deriving DecidableEq, Repr

/-- A task; the sandboxes it asks for are of known types. -/
structure TaskSpec where
  taskID : String
  title : String
  instructions : String := ""
  dispatch : Dispatch
  display : TaskDisplay := {}
  args : List (String × Json) := []
  metadata : List (String × Json) := []
  requiredSandbox : List String := []
  stage : ℤ := 0
  idempotencyKey : String := ""
  known : ∀ selector ∈ requiredSandbox, selector ∈ sandboxSelectors := by decide

namespace TaskSpec

def runtimeMetadataKey : String := "_task_runtime"

/-- `str(value or "").strip()`. What other values than texts are shown as is no selector, and stands for nothing. -/
def selectedText : Option Json → String
  | some (.str text) => strip text
  | _ => ""

def selectedSandbox (task : TaskSpec) : Option String :=
  let selected :=
    match Members.get? task.metadata runtimeMetadataKey with
    | some (.obj runtimeMetadata) => selectedText (Members.get? runtimeMetadata "selected_sandbox")
    | _ => ""
  if selected ≠ "" ∧ selected ∈ task.requiredSandbox then some selected
  else
    match task.requiredSandbox with
    | [only] => some only
    | _ => none

def withRuntimeMetadata (task : TaskSpec) (runtimeMetadata : List (String × Json)) : TaskSpec :=
  { task with metadata := Members.put task.metadata runtimeMetadataKey (.obj runtimeMetadata) }

/-- `set_selected_sandbox`, for a type. -/
def setSelectedSandbox (task : TaskSpec) (sandbox : String) : Except String TaskSpec :=
  if sandbox = "" then
    match Members.get? task.metadata runtimeMetadataKey with
    | some (.obj runtimeMetadata) =>
        .ok (task.withRuntimeMetadata (Members.without runtimeMetadata "selected_sandbox"))
    | _ => .ok task
  else if strip sandbox ∉ task.requiredSandbox then
    .error ("selected sandbox '" ++ strip sandbox ++ "' is not in required_sandbox")
  else
    let runtimeMetadata :=
      match Members.get? task.metadata runtimeMetadataKey with
      | some (.obj runtimeMetadata) => runtimeMetadata
      | _ => []
    .ok (task.withRuntimeMetadata (Members.put runtimeMetadata "selected_sandbox" (.str (strip sandbox))))

end TaskSpec

/-- `TaskBatchInput`, with what its construction refuses. -/
structure TaskBatchInput where
  tasks : List TaskSpec
  joinStrategy : String := "partial_ok"
  maxConcurrency : Option ℕ := none
  some_ : tasks ≠ []
  positive : ∀ requested ∈ maxConcurrency, 0 < requested

end Tasks

section Planning

structure SandboxTypePlan where
  sandboxType : String
  taskCount : ℕ
  concurrency : ℕ
  availableCount : Option ℤ
  deriving DecidableEq, Repr

structure BatchExecutionPlan where
  totalCount : ℕ
  concurrency : ℕ
  plannedBatchSizes : List ℕ
  sandboxType : Option String
  sandboxTaskCount : ℕ
  sandboxConcurrency : Option ℕ
  availableSandboxCount : Option ℤ
  sandboxPlans : List SandboxTypePlan
  deriving DecidableEq, Repr

structure ExecutionPlanner where
  maxConcurrency : ℕ
  positive : 0 < maxConcurrency

def ExecutionPlanner.init (maxConcurrency : ℤ) : ExecutionPlanner :=
  ⟨(max 1 maxConcurrency).toNat, by omega⟩

def batchConcurrencyLimit (configured : ℕ) (requested : Option ℕ) : ℕ :=
  match requested with
  | some requested => min (max 1 configured) requested
  | none => max 1 configured

def plannedBatchSizes (totalCount concurrency : ℕ) : List ℕ :=
  let step := max 1 concurrency
  (List.range ((totalCount + step - 1) / step)).map fun index => min step (totalCount - step * index)

def orderedSandboxTypes (types : List String) : List String :=
  sandboxOSes.filter (· ∈ types) ++ (types.filter (· ∉ sandboxOSes)).mergeSort (· ≤ ·)

def aggregateAvailableSandboxes (plans : List SandboxTypePlan) : Option ℤ :=
  match plans.filterMap SandboxTypePlan.availableCount with
  | [] => none
  | knowns => some knowns.sum

def sandboxConcurrencyLimit (sandboxTaskCount : ℕ) (availableSandboxCount : Option ℤ) : Option ℕ :=
  if sandboxTaskCount = 0 then none
  else
    match availableSandboxCount with
    | none => some 1
    | some available => if available ≤ 0 then some 1 else some (max 1 (min sandboxTaskCount available.toNat))

def effectiveBatchConcurrency (totalCount configured sandboxLaneTotal nonSandboxCount : ℕ) : ℕ :=
  if totalCount = 0 then 1
  else
    let useful := sandboxLaneTotal + nonSandboxCount
    let useful := if useful = 0 then totalCount else useful
    max 1 (min (max 1 configured) (min totalCount useful))

/-- How many tasks have been given each type. -/
abbrev Counts := Dict String ℕ

def Counts.of (counts : Counts) (sandboxType : String) : ℕ := (counts.get? sandboxType).getD 0

variable (available : String → Option ℤ)

/-- `score`, compared in the order of its parts. -/
def score (counts : Counts) (sandboxType : String) : ℤ ×ₗ ℤ :=
  toLex ((available sandboxType).getD 0 - counts.of sandboxType, -(counts.of sandboxType : ℤ))

/-- `max`: the first of the best. -/
def firstBest (counts : Counts) (best : String) : List String → String
  | [] => best
  | option :: rest =>
      firstBest counts (if score available counts best < score available counts option then option else best) rest

def chooseSandboxOption (first : String) (others : List String) (counts : Counts) : String :=
  match (first :: others).filter fun option => 0 < (available option).getD 0 with
  | best :: rest => firstBest available counts best rest
  | [] => firstBest available counts first others

/-- Whether the type that a task has is kept: of several that it accepts, only one with free sandboxes. -/
def keepsSelected (task : TaskSpec) (selected : String) : Bool :=
  selected ∈ task.requiredSandbox ∧ (task.requiredSandbox.length ≤ 1 ∨ (available selected).getD 0 ≠ 0)

/-- A pass of the loop over the tasks. -/
def planTask (counts : Counts) (task : TaskSpec) : Except String (Counts × TaskSpec) :=
  match task.requiredSandbox with
  | [] => .ok (counts, task)
  | first :: others =>
      match task.selectedSandbox.filter fun selected => keepsSelected available task selected with
      | some selected => .ok (counts.set selected (counts.of selected + 1), task)
      | none => do
          let selected := chooseSandboxOption available first others counts
          let task ← task.setSelectedSandbox selected
          return (counts.set selected (counts.of selected + 1), task)

def planTasks (counts : Counts) : List TaskSpec → Except String (Counts × List TaskSpec)
  | [] => .ok (counts, [])
  | task :: rest => do
      let (counts, task) ← planTask available counts task
      let (counts, rest) ← planTasks counts rest
      return (counts, task :: rest)

def sandboxTypePlan (counts : Counts) (sandboxType : String) : SandboxTypePlan where
  sandboxType := sandboxType
  taskCount := counts.of sandboxType
  concurrency :=
    match sandboxConcurrencyLimit (counts.of sandboxType) (available sandboxType) with
    | some concurrency => if concurrency = 0 then 1 else concurrency
    | none => 1
  availableCount := available sandboxType

/-- `available_by_type`: what is free of the types that some task accepts. -/
def availableByType (tasks : List TaskSpec) (sandboxType : String) : Option ℤ :=
  if sandboxType ∈ tasks.flatMap TaskSpec.requiredSandbox then available sandboxType else none

/-- `_plan_sandbox_buckets`: the lanes, and the tasks with the types they are given. -/
def planSandboxBuckets (tasks : List TaskSpec) : Except String (List SandboxTypePlan × List TaskSpec) := do
  let (counts, planned) ← planTasks (availableByType available tasks) Dict.empty tasks
  return ((orderedSandboxTypes counts.keys).map (sandboxTypePlan (availableByType available tasks) counts), planned)

/-- `ExecutionPlanner.plan`: the plan, and the tasks as they are afterwards. -/
def ExecutionPlanner.plan (planner : ExecutionPlanner) (batch : TaskBatchInput) :
    Except String (BatchExecutionPlan × List TaskSpec) := do
  let totalCount := batch.tasks.length
  let (sandboxPlans, tasks) ← planSandboxBuckets available batch.tasks
  let sandboxTaskCount := (sandboxPlans.map SandboxTypePlan.taskCount).sum
  let sandboxLaneTotal := (sandboxPlans.map SandboxTypePlan.concurrency).sum
  let concurrency :=
    effectiveBatchConcurrency totalCount (batchConcurrencyLimit planner.maxConcurrency batch.maxConcurrency)
      sandboxLaneTotal (totalCount - sandboxTaskCount)
  let plan : BatchExecutionPlan :=
    { totalCount := totalCount
      concurrency := concurrency
      plannedBatchSizes := plannedBatchSizes totalCount concurrency
      sandboxType := sandboxPlans.head?.map SandboxTypePlan.sandboxType
      sandboxTaskCount := sandboxTaskCount
      sandboxConcurrency := if sandboxLaneTotal = 0 then none else some sandboxLaneTotal
      availableSandboxCount := aggregateAvailableSandboxes sandboxPlans
      sandboxPlans := sandboxPlans }
  return (plan, tasks)

end Planning

section Selection

/-- A task with nothing else changed than its metadata. -/
def Retagged (task task' : TaskSpec) : Prop := ∃ metadata, task' = { task with metadata := metadata }

theorem strip_selector {selector : String} (known : selector ∈ sandboxSelectors) :
    selector ≠ "" ∧ strip selector = selector := by
  have each : ∀ selector ∈ sandboxSelectors, selector ≠ "" ∧ strip selector = selector := by decide
  exact each selector known

theorem selectedSandbox_of_none {task : TaskSpec} (free : task.requiredSandbox = []) : task.selectedSandbox = none := by
  unfold TaskSpec.selectedSandbox
  rw [free]
  exact if_neg fun selected => List.not_mem_nil selected.2

theorem setSelectedSandbox_ok {task : TaskSpec} {selector : String} (accepted : selector ∈ task.requiredSandbox) :
    ∃ task', task.setSelectedSandbox selector = .ok task' ∧ Retagged task task' ∧
      task'.selectedSandbox = some selector := by
  obtain ⟨some_, same⟩ := strip_selector (task.known selector accepted)
  unfold TaskSpec.setSelectedSandbox
  rw [if_neg some_, same, if_neg (not_not.mpr accepted)]
  refine ⟨_, rfl, ⟨_, rfl⟩, ?_⟩
  unfold TaskSpec.selectedSandbox TaskSpec.withRuntimeMetadata
  simp only [Members.get?_put, if_true, TaskSpec.selectedText, same]
  exact if_pos ⟨some_, accepted⟩

variable {available : String → Option ℤ}

theorem firstBest_mem (counts : Counts) (best : String) (options : List String) :
    firstBest available counts best options ∈ best :: options := by
  induction options generalizing best with
  | nil => exact List.mem_singleton_self best
  | cons option rest ih =>
      rw [firstBest]
      rcases List.mem_cons.mp (ih _) with same | later
      · rw [same]
        split
        · exact List.mem_cons_of_mem _ List.mem_cons_self
        · exact List.mem_cons_self
      · exact List.mem_cons_of_mem _ (List.mem_cons_of_mem _ later)

theorem chooseSandboxOption_mem (counts : Counts) (first : String) (others : List String) :
    chooseSandboxOption available first others counts ∈ first :: others := by
  unfold chooseSandboxOption
  split
  · next best rest selectable =>
      have listed := @firstBest_mem available counts best rest
      rw [← selectable] at listed
      exact List.mem_of_mem_filter listed
  · exact firstBest_mem counts first others

end Selection

section Counting

theorem Counts.of_set (counts : Counts) (sandboxType other : String) (count : ℕ) :
    Counts.of (counts.set sandboxType count) other = if other = sandboxType then count else counts.of other := by
  unfold Counts.of
  rw [Dict.get?_set]
  split <;> rfl

theorem sum_values_set_succ (counts : Counts) (sandboxType : String) :
    (counts.set sandboxType (counts.of sandboxType + 1)).values.sum = counts.values.sum + 1 := by
  unfold Counts.of
  cases found : counts.get? sandboxType with
  | none =>
      have isNew : sandboxType ∉ counts.keys := Dict.get?_eq_none.mp found
      unfold Dict.values
      rw [Dict.entries_set_of_new _ isNew, List.map_append, List.sum_append]
      rfl
  | some count =>
      have anew := Dict.sum_values_set id found (count + 1)
      rw [List.map_id, List.map_id] at anew
      dsimp only [id, Option.getD_some] at anew ⊢
      omega

/-- What planning a task does: it is given a type that it accepts, if it accepts any, and counted under it. -/
structure Planned (task task' : TaskSpec) : Prop where
  retagged : Retagged task task'
  accepted : task.requiredSandbox ≠ [] → ∃ selected ∈ task.requiredSandbox, task'.selectedSandbox = some selected

def given (tasks : List TaskSpec) (sandboxType : String) : ℕ :=
  tasks.countP fun task => task.selectedSandbox = some sandboxType

variable {available : String → Option ℤ}

theorem planTask_ok (counts : Counts) (task : TaskSpec) :
    ∃ counts' task', planTask available counts task = .ok (counts', task') ∧ Planned task task' ∧
      (∀ sandboxType, counts'.of sandboxType = counts.of sandboxType + given [task'] sandboxType) ∧
      counts'.values.sum = counts.values.sum + if task.requiredSandbox = [] then 0 else 1 := by
  -- a type is counted once
  have counted (task' : TaskSpec) (selected : String) (given_ : task'.selectedSandbox = some selected) :
      ∀ sandboxType, Counts.of (counts.set selected (counts.of selected + 1)) sandboxType =
        counts.of sandboxType + given [task'] sandboxType := by
    intro sandboxType
    rw [Counts.of_set, given, List.countP_singleton, given_]
    by_cases same : sandboxType = selected
    · rw [if_pos same, same, if_pos (decide_eq_true rfl)]
    · rw [if_neg same, if_neg fun other => same (Option.some.inj (of_decide_eq_true other)).symm, Nat.add_zero]
  unfold planTask
  split
  · next free =>
      refine ⟨counts, task, rfl, ⟨⟨task.metadata, rfl⟩, fun some_ => absurd free some_⟩, ?_, ?_⟩
      · intro sandboxType
        rw [given, List.countP_singleton, selectedSandbox_of_none free]
        rfl
      · rw [if_pos free, Nat.add_zero]
  · next first others options =>
      have some_ : task.requiredSandbox ≠ [] := by
        rw [options]
        exact List.cons_ne_nil _ _
      rw [if_neg some_]
      split
      · next selected kept =>
          obtain ⟨same, keeps⟩ := Option.filter_eq_some_iff.mp kept
          have accepted := (of_decide_eq_true keeps).1
          exact ⟨_, task, rfl, ⟨⟨task.metadata, rfl⟩, fun _ => ⟨selected, accepted, same⟩⟩,
            counted task selected same, sum_values_set_succ counts selected⟩
      · have accepted := @chooseSandboxOption_mem available counts first others
        rw [← options] at accepted
        obtain ⟨task', set, retagged, same⟩ := setSelectedSandbox_ok accepted
        dsimp only
        rw [set]
        exact ⟨_, task', rfl, ⟨retagged, fun _ => ⟨_, accepted, same⟩⟩, counted task' _ same,
          sum_values_set_succ counts _⟩

theorem planTasks_ok (counts : Counts) (tasks : List TaskSpec) :
    ∃ counts' tasks', planTasks available counts tasks = .ok (counts', tasks') ∧
      List.Forall₂ Planned tasks tasks' ∧
      (∀ sandboxType, counts'.of sandboxType = counts.of sandboxType + given tasks' sandboxType) ∧
      counts'.values.sum = counts.values.sum + tasks.countP fun task => task.requiredSandbox ≠ [] := by
  induction tasks generalizing counts with
  | nil => exact ⟨counts, [], rfl, .nil, fun _ => rfl, rfl⟩
  | cons task rest ih =>
      obtain ⟨middle, task', one, planned, counted, sum⟩ := planTask_ok counts task
      obtain ⟨last, rest', others, later, behind, whole⟩ := ih middle
      refine ⟨last, task' :: rest', ?_, .cons planned later, ?_, ?_⟩
      · rw [planTasks, one]
        dsimp only [bind, Except.bind]
        rw [others]
        rfl
      · intro sandboxType
        have apart : given (task' :: rest') sandboxType = given [task'] sandboxType + given rest' sandboxType := by
          rw [given, given, given, ← List.countP_append, List.singleton_append]
        rw [behind, counted, apart, Nat.add_assoc]
      · rw [whole, sum, List.countP_cons]
        by_cases free : task.requiredSandbox = []
        · rw [if_pos free, if_neg (by simp [free])]
          omega
        · rw [if_neg free, if_pos (by simp [free])]
          omega

end Counting

section Lanes

theorem orderedSandboxTypes_perm {types : List String} (distinct : types.Nodup) :
    (orderedSandboxTypes types).Perm types := by
  have known : (sandboxOSes.filter (· ∈ types)).Perm (types.filter (· ∈ sandboxOSes)) := by
    have apart : sandboxOSes.Nodup := by decide
    refine (List.perm_ext_iff_of_nodup (apart.filter _) (distinct.filter _)).mpr fun sandboxType => ?_
    simp only [List.mem_filter, decide_eq_true_eq]
    exact and_comm
  have extra : ((types.filter (· ∉ sandboxOSes)).mergeSort (· ≤ ·)).Perm
      (types.filter fun sandboxType => !decide (sandboxType ∈ sandboxOSes)) :=
    (List.mergeSort_perm _ _).trans (List.Perm.of_eq (List.filter_congr fun _ _ => decide_not))
  exact (known.append extra).trans (List.filter_append_perm _ types)

variable {available : String → Option ℤ}

theorem sandboxTypePlan_concurrency (counts : Counts) (sandboxType : String) :
    1 ≤ (sandboxTypePlan available counts sandboxType).concurrency ∧
      ((sandboxTypePlan available counts sandboxType).concurrency : ℤ) ≤
        max 1 (min (counts.of sandboxType : ℤ) ((available sandboxType).getD 0)) := by
  unfold sandboxTypePlan sandboxConcurrencyLimit
  dsimp only
  by_cases empty : counts.of sandboxType = 0
  · rw [if_pos empty]
    dsimp only
    omega
  rw [if_neg empty]
  cases found : available sandboxType with
  | none =>
      dsimp only
      rw [if_neg one_ne_zero]
      omega
  | some free =>
      dsimp only [Option.getD_some]
      by_cases some_ : free ≤ 0
      · rw [if_pos some_]
        dsimp only
        rw [if_neg one_ne_zero]
        omega
      · rw [if_neg some_]
        dsimp only
        split
        · omega
        · omega

theorem sum_pieces (step total count : ℕ) :
    ((List.range count).map fun index => min step (total - step * index)).sum = min total (step * count) := by
  induction count with
  | zero => simp
  | succ count ih =>
      rw [List.range_succ, List.map_append, List.sum_append, ih, Nat.mul_succ]
      simp only [List.map_cons, List.map_nil, List.sum_cons, List.sum_nil]
      omega

theorem plannedBatchSizes_sum (totalCount concurrency : ℕ) :
    (plannedBatchSizes totalCount concurrency).sum = totalCount := by
  unfold plannedBatchSizes
  dsimp only
  have positive : 0 < max 1 concurrency := by omega
  rw [sum_pieces]
  have covers := Nat.div_add_mod (totalCount + max 1 concurrency - 1) (max 1 concurrency)
  have rest := Nat.mod_lt (totalCount + max 1 concurrency - 1) positive
  omega

theorem plannedBatchSizes_le {totalCount concurrency size : ℕ} (positive : 1 ≤ concurrency)
    (listed : size ∈ plannedBatchSizes totalCount concurrency) : size ≤ concurrency := by
  obtain ⟨index, _, rfl⟩ := List.mem_map.mp listed
  omega

theorem effectiveBatchConcurrency_bounds {totalCount configured : ℕ} (some_ : totalCount ≠ 0)
    (positive : 0 < configured) (sandboxLaneTotal nonSandboxCount : ℕ) :
    let concurrency := effectiveBatchConcurrency totalCount configured sandboxLaneTotal nonSandboxCount
    1 ≤ concurrency ∧ concurrency ≤ configured ∧ concurrency ≤ totalCount := by
  unfold effectiveBatchConcurrency
  rw [if_neg some_]
  dsimp only
  split
  · omega
  · omega

end Lanes

section Plans

/-- What holds of a plan for some tasks, and of the tasks as they are afterwards. -/
structure Arithmetic (planner : ExecutionPlanner) (available : String → Option ℤ) (batch : TaskBatchInput)
    (plan : BatchExecutionPlan) (tasks : List TaskSpec) : Prop where
  planned : List.Forall₂ Planned batch.tasks tasks
  sizes : plan.plannedBatchSizes.sum = batch.tasks.length
  size : ∀ size ∈ plan.plannedBatchSizes, size ≤ plan.concurrency
  concurrent : 1 ≤ plan.concurrency
  configured : plan.concurrency ≤ planner.maxConcurrency
  requested : ∀ requested ∈ batch.maxConcurrency, plan.concurrency ≤ requested
  total : plan.concurrency ≤ batch.tasks.length
  lanes : (plan.sandboxPlans.map SandboxTypePlan.taskCount).sum =
    batch.tasks.countP fun task => task.requiredSandbox ≠ []
  /-- The lanes are of distinct types; a lane holds the tasks that are given its type. -/
  apart : (plan.sandboxPlans.map SandboxTypePlan.sandboxType).Nodup
  lane : ∀ lane ∈ plan.sandboxPlans, lane.taskCount = given tasks lane.sandboxType ∧ 1 ≤ lane.concurrency ∧
    (lane.concurrency : ℤ) ≤ max 1 (min (lane.taskCount : ℤ) ((available lane.sandboxType).getD 0))

theorem planSandboxBuckets_ok (available : String → Option ℤ) (tasks : List TaskSpec) :
    ∃ counts tasks', planSandboxBuckets available tasks =
        .ok ((orderedSandboxTypes counts.keys).map (sandboxTypePlan (availableByType available tasks) counts), tasks') ∧
      List.Forall₂ Planned tasks tasks' ∧ (∀ sandboxType, counts.of sandboxType = given tasks' sandboxType) ∧
      counts.values.sum = tasks.countP fun task => task.requiredSandbox ≠ [] := by
  obtain ⟨counts, tasks', looped, planned, counted, sum⟩ :=
    @planTasks_ok (availableByType available tasks) Dict.empty tasks
  refine ⟨counts, tasks', ?_, planned, fun sandboxType => (counted sandboxType).trans (Nat.zero_add _),
    sum.trans (Nat.zero_add _)⟩
  unfold planSandboxBuckets
  rw [looped]
  rfl

theorem ExecutionPlanner.plan_total (planner : ExecutionPlanner) (available : String → Option ℤ)
    (batch : TaskBatchInput) : ∃ plan tasks, planner.plan available batch = .ok (plan, tasks) := by
  obtain ⟨counts, tasks, buckets, _⟩ := planSandboxBuckets_ok available batch.tasks
  exact ⟨_, tasks, by rw [ExecutionPlanner.plan, buckets]; rfl⟩

theorem ExecutionPlanner.plan_planned {planner : ExecutionPlanner} {available : String → Option ℤ}
    {batch : TaskBatchInput} {plan : BatchExecutionPlan} {tasks : List TaskSpec}
    (done : planner.plan available batch = .ok (plan, tasks)) : List.Forall₂ Planned batch.tasks tasks := by
  obtain ⟨counts, tasks', buckets, planned, _⟩ := planSandboxBuckets_ok available batch.tasks
  unfold ExecutionPlanner.plan at done
  rw [buckets] at done
  cases done
  exact planned

/-- **Plans add up.** Whatever is configured, asked for and free, a batch is planned, and its plan is as it should
be. -/
theorem plan_arithmetic (planner : ExecutionPlanner) (available : String → Option ℤ) (batch : TaskBatchInput) :
    ∃ plan tasks, planner.plan available batch = .ok (plan, tasks) ∧
      Arithmetic planner available batch plan tasks := by
  obtain ⟨counts, tasks, buckets, planned, counted, sum⟩ := planSandboxBuckets_ok available batch.tasks
  let lanes :=
    (orderedSandboxTypes counts.keys).map (sandboxTypePlan (availableByType available batch.tasks) counts)
  have distinct : counts.keys.Nodup := counts.distinct
  have perm := orderedSandboxTypes_perm distinct
  have some_ : batch.tasks.length ≠ 0 := fun empty => batch.some_ (List.length_eq_zero_iff.mp empty)
  have limit : 0 < batchConcurrencyLimit planner.maxConcurrency batch.maxConcurrency ∧
      batchConcurrencyLimit planner.maxConcurrency batch.maxConcurrency ≤ planner.maxConcurrency ∧
      ∀ requested ∈ batch.maxConcurrency,
        batchConcurrencyLimit planner.maxConcurrency batch.maxConcurrency ≤ requested := by
    have deployed := planner.positive
    unfold batchConcurrencyLimit
    cases asked : batch.maxConcurrency with
    | none => exact ⟨by dsimp only; omega, by dsimp only; omega, by intro requested here; cases here⟩
    | some requested =>
        have positive := batch.positive requested asked
        refine ⟨by dsimp only; omega, by dsimp only; omega, ?_⟩
        intro other here
        cases here
        exact min_le_right _ _
  obtain ⟨concurrent, configured, total⟩ := effectiveBatchConcurrency_bounds some_ limit.1
    (lanes.map SandboxTypePlan.concurrency).sum (batch.tasks.length - (lanes.map SandboxTypePlan.taskCount).sum)
  have types : lanes.map SandboxTypePlan.sandboxType = orderedSandboxTypes counts.keys := by
    rw [List.map_map]
    exact List.map_id _
  refine ⟨_, tasks, by rw [ExecutionPlanner.plan, buckets]; rfl, planned, plannedBatchSizes_sum _ _,
    fun size listed => plannedBatchSizes_le concurrent listed, concurrent, configured.trans limit.2.1,
    fun requested asked => configured.trans (limit.2.2 requested asked), total, ?_, ?_, ?_⟩
  · -- the lanes hold what the loop has counted
    have whole : ((orderedSandboxTypes counts.keys).map counts.of).sum = counts.values.sum := by
      rw [(perm.map counts.of).sum_eq]
      have reads := congrArg (List.map fun count => count.getD 0) (Dict.map_get?_keys counts)
      rw [List.map_map, List.map_map] at reads
      exact congrArg List.sum (reads.trans (List.map_id _))
    have held : lanes.map SandboxTypePlan.taskCount = (orderedSandboxTypes counts.keys).map counts.of := by
      rw [List.map_map]
      rfl
    rw [held, whole, sum]
  · rw [types]
    exact perm.nodup_iff.mpr distinct
  · intro lane listed
    obtain ⟨sandboxType, _, rfl⟩ := List.mem_map.mp listed
    have bounds := @sandboxTypePlan_concurrency (availableByType available batch.tasks) counts sandboxType
    refine ⟨counted sandboxType, bounds.1, bounds.2.trans ?_⟩
    unfold availableByType
    split
    · exact le_rfl
    · rw [Option.getD_none]
      omega

end Plans

end Sico.TaskRuntime.ExecutionPlan

import Mathlib.Data.Bool.Basic
import Sico.Plans.Editor

/-! # Cancelled plans

A marker beside the plan makes every read cancel its first open step, and whether the plan is
cancelled is then told from the statuses of all its steps. A failed step, or one of unknown
status or waiting for a person behind the first open one, takes precedence over the cancelled
step. Without such a step, a plan reads as cancelled from the marker on, and `write_plan`
leaves it alone.
-/

namespace Sico.Plans

open Foundation

section Statuses

variable {plan : Plan} {steps : List PlanStep}

/-- A step is neither completed nor failed. -/
def Plan.HasOpenStep (plan : Plan) : Prop := ∃ step ∈ plan.steps, step.isSettled = false

def behindFirstOpen (steps : List PlanStep) : List PlanStep :=
  (steps.dropWhile PlanStep.isSettled).drop 1

/-- No step takes precedence over the step that is to be cancelled. -/
def Plan.Clear (plan : Plan) : Prop :=
  (∀ step ∈ plan.steps, step.status ≠ .failed) ∧
    ∀ step ∈ behindFirstOpen plan.steps, step.status ≠ .unknown ∧ step.status ≠ .requireHumanInput

theorem Plan.has_iff {status : StepStatus} :
    plan.has status = true ↔ ∃ step ∈ plan.steps, step.status = status := by
  simp [Plan.has]

theorem Plan.has_eq_false {status : StepStatus} :
    plan.has status = false ↔ ∀ step ∈ plan.steps, step.status ≠ status := by
  simp [Plan.has]

theorem Plan.isCancelled_iff : plan.isCancelled = true ↔
    plan.has .unknown = false ∧ plan.has .requireHumanInput = false ∧ plan.has .failed = false ∧
      plan.has .cancelled = true := by
  unfold Plan.isCancelled Plan.status
  by_cases empty : plan.steps.isEmpty
  · have none : plan.has .cancelled = false := by
      rw [Plan.has, List.isEmpty_iff.mp empty]
      rfl
    simp [empty, none]
  · have other : (if plan.steps.all fun step => step.status = .completed then PlanStatus.completed
        else .running) ≠ .cancelled := by
      split <;> decide
    cases plan.has .unknown <;> cases plan.has .requireHumanInput <;> cases plan.has .failed <;>
      cases plan.has .cancelled <;> simp [empty, -List.all_eq_true, other]

theorem Plan.isCancelled_congr {other : Plan}
    (same : other.steps.map PlanStep.status = plan.steps.map PlanStep.status) :
    other.isCancelled = plan.isCancelled := by
  have has (status : StepStatus) : other.has status = plan.has status := by
    have mapped (steps : List PlanStep) : (steps.any fun step => step.status = status) =
        (steps.map PlanStep.status).any (· = status) := by
      rw [List.any_map]
      rfl
    rw [Plan.has, Plan.has, mapped, mapped, same]
  rw [Bool.eq_iff_iff, Plan.isCancelled_iff, Plan.isCancelled_iff, has, has, has, has]

theorem cut_of_open (opens : ∃ step ∈ steps, step.isSettled = false) :
    ∃ settled first, steps = settled ++ first :: behindFirstOpen steps ∧
      (∀ step ∈ settled, step.isSettled) ∧ first.isSettled = false ∧
      cancelFirstOpen steps =
        settled ++ { first with status := .cancelled } :: behindFirstOpen steps := by
  obtain ⟨own, member, isOpen⟩ := opens
  unfold behindFirstOpen
  induction steps with
  | nil => cases member
  | cons step rest ih =>
      by_cases settles : step.isSettled
      · have later : own ∈ rest := by
          rcases List.mem_cons.mp member with rfl | later
          · rw [settles] at isOpen
            cases isOpen
          · exact later
        obtain ⟨settled, first, cut, all, notSettled, cancels⟩ := ih later
        rw [List.dropWhile_cons_of_pos settles, cancelFirstOpen, if_pos settles]
        refine ⟨step :: settled, first, congrArg (step :: ·) cut, ?_, notSettled,
          congrArg (step :: ·) cancels⟩
        intro other listed
        rcases List.mem_cons.mp listed with rfl | listed
        · exact settles
        · exact all other listed
      · rw [List.dropWhile_cons_of_neg settles, cancelFirstOpen, if_neg settles]
        refine ⟨[], step, rfl, ?_, eq_false_of_ne_true settles, rfl⟩
        intro other none
        cases none

theorem isSettled_iff {step : PlanStep} :
    step.isSettled = true ↔ step.status = .completed ∨ step.status = .failed := by
  simp [PlanStep.isSettled]

theorem Plan.isCancelled_toCancelled_iff (opens : plan.HasOpenStep) :
    plan.toCancelled.isCancelled = true ↔ plan.Clear := by
  obtain ⟨settled, first, cut, all, notSettled, cancels⟩ := cut_of_open opens
  have steps : plan.toCancelled.steps =
    settled ++ { first with status := .cancelled } :: behindFirstOpen plan.steps := cancels
  rw [Plan.isCancelled_iff, Plan.has_eq_false, Plan.has_eq_false, Plan.has_eq_false, Plan.has_iff, steps]
  simp only [List.forall_mem_append, List.forall_mem_cons, ne_eq, reduceCtorEq, not_false_eq_true,
    true_and]
  constructor
  · rintro ⟨unknown, human, failed, -⟩
    refine ⟨?_, fun step listed => ⟨unknown.2 step listed, human.2 step listed⟩⟩
    rw [cut]
    simp only [List.forall_mem_append, List.forall_mem_cons]
    refine ⟨failed.1, fun same => ?_, failed.2⟩
    rw [isSettled_iff.mpr (.inr same)] at notSettled
    cases notSettled
  · rintro ⟨unfailed, behind⟩
    rw [cut] at unfailed
    simp only [List.forall_mem_append, List.forall_mem_cons] at unfailed
    have front (status : StepStatus) (other : status ≠ .completed) (also : status ≠ .failed) :
        ∀ step ∈ settled, ¬ step.status = status := by
      intro step listed same
      rcases isSettled_iff.mp (all step listed) with done | done
      · exact other (same.symm.trans done)
      · exact also (same.symm.trans done)
    exact ⟨⟨front _ (by decide) (by decide), fun step listed => (behind step listed).1⟩,
      ⟨front _ (by decide) (by decide), fun step listed => (behind step listed).2⟩,
      ⟨unfailed.1, unfailed.2.2⟩, _, List.mem_append_right _ List.mem_cons_self, rfl⟩

theorem Plan.toCancelled_toCancelled (plan : Plan) :
    plan.toCancelled.toCancelled = plan.toCancelled := by
  have steps (steps : List PlanStep) :
      cancelFirstOpen (cancelFirstOpen steps) = cancelFirstOpen steps := by
    induction steps with
    | nil => rfl
    | cons step rest ih =>
        by_cases settles : step.isSettled
        · rw [cancelFirstOpen, if_pos settles, cancelFirstOpen, if_pos settles, ih]
        · rw [cancelFirstOpen, if_neg settles]
          rfl
  rw [Plan.toCancelled, Plan.toCancelled, steps]

/-- A plan that will read as cancelled beside the marker. -/
def Plan.Cancellable (plan : Plan) : Prop := plan.HasOpenStep ∧ plan.Clear

theorem Plan.cancellable_of_isCancelled (cancelled : plan.isCancelled = true) : plan.Cancellable := by
  obtain ⟨unknown, human, failed, own⟩ := Plan.isCancelled_iff.mp cancelled
  obtain ⟨step, listed, same⟩ := Plan.has_iff.mp own
  refine ⟨⟨step, listed, ?_⟩, Plan.has_eq_false.mp failed, fun other behind => ?_⟩
  · rw [PlanStep.isSettled, same]
    rfl
  · have member : other ∈ plan.steps :=
      (List.dropWhile_sublist _).subset (List.mem_of_mem_drop behind)
    exact ⟨Plan.has_eq_false.mp unknown other member, Plan.has_eq_false.mp human other member⟩

end Statuses

section ToolCalls

variable {steps : List PlanStep}

/-- The statuses of steps, which tool calls do not decide. -/
def statuses (steps : List PlanStep) : List StepStatus := steps.map PlanStep.status

theorem statuses_behindFirstOpen (steps : List PlanStep) :
    statuses (behindFirstOpen steps) =
      ((statuses steps).dropWhile fun status => status = .completed || status = .failed).drop 1 := by
  rw [statuses, statuses, behindFirstOpen, List.map_drop, List.dropWhile_map]
  rfl

theorem Plan.Cancellable.congr {plan other : Plan} (cancellable : plan.Cancellable)
    (same : statuses other.steps = statuses plan.steps) : other.Cancellable := by
  obtain ⟨⟨own, listed, isOpen⟩, unfailed, behind⟩ := cancellable
  refine ⟨?_, fun step member failed => ?_, fun step member => ?_⟩
  · have status : own.status ∈ statuses other.steps := same ▸ List.mem_map_of_mem listed
    obtain ⟨step, member, equal⟩ := List.mem_map.mp status
    refine ⟨step, member, ?_⟩
    rw [PlanStep.isSettled, equal]
    exact isOpen
  · have status : step.status ∈ statuses plan.steps := same ▸ List.mem_map_of_mem member
    obtain ⟨origin, inside, equal⟩ := List.mem_map.mp status
    exact unfailed origin inside (equal.trans failed)
  · have status : step.status ∈ statuses (behindFirstOpen plan.steps) := by
      rw [statuses_behindFirstOpen, ← same, ← statuses_behindFirstOpen]
      exact List.mem_map_of_mem member
    obtain ⟨origin, inside, equal⟩ := List.mem_map.mp status
    rw [← equal]
    exact behind origin inside

theorem statuses_propagateUpdatedAt (target now : ℤ) (steps : List PlanStep) :
    statuses (propagateUpdatedAt target now steps) = statuses steps := by
  induction steps with
  | nil => rfl
  | cons step rest ih =>
      rw [propagateUpdatedAt]
      split
      · rfl
      · exact congrArg (step.status :: ·) ih

theorem statuses_markAnalyzed (steps : List PlanStep) :
    statuses (markAnalyzed steps) = statuses steps := by
  rw [statuses, markAnalyzed, List.map_map]
  rfl

theorem statuses_appendTopLevelToolCall (call : ToolCall) (now : ℤ) (some : steps ≠ []) :
    statuses (appendTopLevelToolCall call now steps) = statuses steps := by
  induction steps with
  | nil => exact absurd rfl some
  | cons step rest ih =>
      cases rest with
      | nil => rfl
      | cons next rest =>
          rw [appendTopLevelToolCall]
          split
          · exact congrArg (step.status :: ·) (ih (List.cons_ne_nil _ _))
          · rfl

theorem statuses_changeInSteps {target : ℤ} {change : ToolCall → ToolCall} {changed : List PlanStep}
    (done : changeInSteps target change steps = some changed) : statuses changed = statuses steps := by
  induction steps generalizing changed with
  | nil => cases done
  | cons step rest ih =>
      rw [changeInSteps] at done
      split at done
      · cases done
        rfl
      · obtain ⟨later, behind, rfl⟩ := Option.map_eq_some_iff.mp done
        exact congrArg (step.status :: ·) (ih behind)

theorem statuses_insertToolCall {call : ToolCall} {parent : Option ℤ} {now : ℤ}
    {inserted : List PlanStep} (done : insertToolCall call parent now steps = some inserted)
    (some : steps ≠ []) : statuses inserted = statuses steps := by
  unfold insertToolCall at done
  cases parent with
  | none =>
      cases done
      exact statuses_appendTopLevelToolCall call now some
  | some parent =>
      obtain ⟨changed, found, rfl⟩ := Option.map_eq_some_iff.mp done
      rw [statuses_propagateUpdatedAt, statuses_changeInSteps found]

theorem statuses_removeFromSteps {target now : ℤ} {left : List PlanStep}
    (done : removeFromSteps target now steps = some left) : statuses left = statuses steps := by
  induction steps generalizing left with
  | nil => cases done
  | cons step rest ih =>
      rw [removeFromSteps] at done
      split at done
      · cases done
        rfl
      · obtain ⟨later, behind, rfl⟩ := Option.map_eq_some_iff.mp done
        exact congrArg (step.status :: ·) (ih behind)

end ToolCalls

section Runs

variable {Editor : Type} [DecidableEq Editor]

/-- The operations on the plan of a turn, and the replacement of the plan as a whole. -/
inductive TurnOperation (Editor : Type) where
  | edit (operation : Operation Editor)
  | updatePlan (plan : Plan)

def Editing.updatePlan (state : Editing Editor) (plan : Plan) : Editing Editor :=
  { state with store := state.store.write plan }

def turnSystem : System (Editing Editor) (TurnOperation Editor) :=
  System.ofNext fun state operation =>
    match operation with
    | .edit operation => some (state.next operation)
    | .updatePlan plan => some (state.updatePlan plan)

/-- A plan that is handed over as a whole, by the updater of a tree or by the caller, has an
open step, and no step of it takes precedence over the one to be cancelled. -/
def Considerate (state : Editing Editor) : TurnOperation Editor → Prop
  | .edit (.updateToolCallTree _ updater now) => ∀ plan updated, state.store.read = some plan →
      updater.apply plan now = .ok updated → updated.Cancellable
  | .edit (.repairToolCallTree root updater now) => ∀ plan placed updated,
      state.store.read = some plan → placeTree root now plan = .ok placed →
        updater.apply placed now = .ok updated → updated.Cancellable
  | .edit _ => True
  | .updatePlan plan => plan.Cancellable

def ReadsCancelled (store : Store) : Prop :=
  store.cancelled = true ∧ ∃ plan, store.plan = some plan ∧ plan.Cancellable

/-- Cancelling a plan is visible and final: in every run from the marker on, each read is
cancelled and `write_plan` changes nothing. -/
def CancelledForGood (Editor : Type) [DecidableEq Editor] (plan : Plan) : Prop :=
  ∀ (marked : Bool) (caches : Editor → ℤ) (operations : List (TurnOperation Editor))
    (final : Editing Editor),
    (turnSystem.restrict Considerate).Run
        (Editing.next ⟨{ plan := some plan, cancelled := marked }, caches⟩ .cancelPlan) operations final →
      (∃ read, final.store.read = some read ∧ read.isCancelled) ∧
        ∀ input, (final.next (.writePlan input)).store.plan = final.store.plan

variable {store : Store} {plan : Plan}

theorem ReadsCancelled.read (marked : ReadsCancelled store) :
    ∃ plan, store.read = some plan ∧ plan.isCancelled = true := by
  obtain ⟨cancelled, plan, stored, opens, clear⟩ := marked
  refine ⟨plan.toCancelled, ?_, (Plan.isCancelled_toCancelled_iff opens).mpr clear⟩
  rw [Store.read, stored, cancelled]
  rfl

theorem ReadsCancelled.write (marked : ReadsCancelled store) (cancelled : plan.isCancelled = true)
    {written : Plan} (same : statuses written.steps = statuses plan.steps) :
    ReadsCancelled (store.write written) := by
  refine ⟨marked.1, _, rfl, Plan.cancellable_of_isCancelled ?_⟩
  rw [← cancelled]
  exact Plan.isCancelled_congr same

theorem ReadsCancelled.store_plan (marked : ReadsCancelled store) (written : Plan)
    (cancellable : written.Cancellable) : ReadsCancelled (store.write written) :=
  ⟨marked.1, _, rfl, cancellable⟩

theorem steps_ne_nil_of_isCancelled (cancelled : plan.isCancelled = true) : plan.steps ≠ [] := by
  obtain ⟨-, -, -, own⟩ := Plan.isCancelled_iff.mp cancelled
  obtain ⟨step, listed, -⟩ := Plan.has_iff.mp own
  exact List.ne_nil_of_mem listed

theorem ReadsCancelled.createToolCall (marked : ReadsCancelled store) (new : NewToolCall)
    (parent : Option ℤ) (now cache : ℤ) :
    ReadsCancelled (Plans.createToolCall new parent now cache store).2.1 := by
  obtain ⟨plan, read, cancelled⟩ := marked.read
  unfold Plans.createToolCall
  rw [read]
  dsimp only
  split
  · exact marked
  · next steps inserted =>
      refine marked.write cancelled ?_
      have marks : statuses (if new.status = .retryRunning then markAnalyzed plan.steps
          else plan.steps) = statuses plan.steps := by
        split
        · exact statuses_markAnalyzed plan.steps
        · rfl
      refine (statuses_insertToolCall inserted fun empty => ?_).trans marks
      rw [empty] at marks
      exact steps_ne_nil_of_isCancelled cancelled (List.map_eq_nil_iff.mp marks.symm)

theorem ReadsCancelled.updateToolCall (marked : ReadsCancelled store) {target now : ℤ}
    {updater : CallUpdater} {store' : Store}
    (done : Plans.updateToolCall target updater now store = .ok store') : ReadsCancelled store' := by
  obtain ⟨plan, read, cancelled⟩ := marked.read
  unfold Plans.updateToolCall at done
  rw [read] at done
  dsimp only at done
  split at done
  · cases done
    exact marked
  · split at done
    · cases done
      exact marked
    · obtain ⟨-, -, done⟩ := bind_eq_ok.mp done
      split at done
      · cases done
        exact marked
      · next steps changed =>
          cases done
          refine marked.write cancelled ?_
          exact (statuses_propagateUpdatedAt _ _ _).trans (statuses_changeInSteps changed)

theorem ReadsCancelled.updateToolCallTree (marked : ReadsCancelled store) {target now : ℤ}
    {updater : TreeUpdater} {store' : Store}
    (considerate : ∀ plan updated, store.read = some plan → updater.apply plan now = .ok updated →
      updated.Cancellable)
    (done : Plans.updateToolCallTree target updater now store = .ok store') : ReadsCancelled store' := by
  obtain ⟨plan, read, -⟩ := marked.read
  unfold Plans.updateToolCallTree at done
  rw [read] at done
  dsimp only at done
  split at done
  · cases done
    exact marked
  · split at done
    · cases done
      exact marked
    · obtain ⟨updated, applied, done⟩ := bind_eq_ok.mp done
      cases done
      refine marked.store_plan _ ((considerate plan updated read applied).congr ?_)
      exact statuses_propagateUpdatedAt target now updated.steps

theorem ReadsCancelled.repairToolCallTree (marked : ReadsCancelled store) {root : ToolCall} {now : ℤ}
    {updater : RepairUpdater root} {store' : Store}
    (considerate : ∀ plan placed updated, store.read = some plan →
      placeTree root now plan = .ok placed → updater.apply placed now = .ok updated →
        updated.Cancellable)
    (done : Plans.repairToolCallTree root updater now store = .ok store') : ReadsCancelled store' := by
  obtain ⟨plan, read, -⟩ := marked.read
  unfold Plans.repairToolCallTree at done
  rw [read] at done
  dsimp only at done
  split at done
  · cases done
  · obtain ⟨placed, put, done⟩ := bind_eq_ok.mp done
    obtain ⟨updated, applied, done⟩ := bind_eq_ok.mp done
    split at done
    · cases done
    · cases done
      exact marked.store_plan _ (considerate plan placed updated read put applied)

theorem ReadsCancelled.removeToolCallTree (marked : ReadsCancelled store) (target : ℤ)
    (predicate : Option (Plan → ToolCall → Bool)) (now : ℤ) :
    ReadsCancelled (Plans.removeToolCallTree target predicate now store) := by
  obtain ⟨plan, read, cancelled⟩ := marked.read
  unfold Plans.removeToolCallTree
  rw [read]
  dsimp only
  split
  · exact marked
  · split
    · split
      · exact marked
      · next steps removed => exact marked.write cancelled (statuses_removeFromSteps removed)
    · exact marked

theorem ReadsCancelled.writePlan (marked : ReadsCancelled store) (input : PlanWriteInput) :
    store.after ((Plans.writePlan input store).map Prod.snd) = store := by
  obtain ⟨plan, read, cancelled⟩ := marked.read
  unfold Plans.writePlan
  rw [read]
  dsimp only
  rw [if_pos cancelled]
  rfl

theorem ReadsCancelled.after {computed : Except String Store} (marked : ReadsCancelled store)
    (kept : ∀ store', computed = .ok store' → ReadsCancelled store') :
    ReadsCancelled (store.after computed) := by
  cases computed with
  | ok store' => exact kept store' rfl
  | error _ => exact marked

theorem ReadsCancelled.step {state next : Editing Editor} {operation : TurnOperation Editor}
    (marked : ReadsCancelled state.store)
    (step : (turnSystem.restrict Considerate).step state operation next) :
    ReadsCancelled next.store := by
  obtain ⟨considerate, step⟩ := step
  cases operation with
  | updatePlan plan =>
      cases step
      exact marked.store_plan plan considerate
  | edit operation =>
      cases step
      cases operation with
      | createToolCall editor new parent now => exact marked.createToolCall new parent now _
      | updateToolCall target updater now => exact marked.after fun _ => marked.updateToolCall
      | updateToolCallTree target updater now =>
          exact marked.after fun _ => marked.updateToolCallTree considerate
      | repairToolCallTree root updater now =>
          exact marked.after fun _ => marked.repairToolCallTree considerate
      | removeToolCall target predicate now => exact marked.removeToolCallTree target predicate now
      | writePlan input =>
          have same := marked.writePlan input
          rw [Editing.next, same]
          exact marked
      | cancelPlan => exact ⟨rfl, marked.2⟩

/-- **Cancelling is visible and final exactly for plans without a step that takes precedence**,
and cancelling twice is cancelling once. -/
theorem cancelledForGood_iff :
    (∀ plan : Plan, plan.toCancelled.toCancelled = plan.toCancelled) ∧
      ∀ plan : Plan, plan.HasOpenStep → (CancelledForGood Editor plan ↔ plan.Clear) := by
  refine ⟨Plan.toCancelled_toCancelled, fun plan opens => ⟨fun forGood => ?_, fun clear => ?_⟩⟩
  · obtain ⟨⟨read, same, cancelled⟩, -⟩ := forGood false (fun _ => 0) [] _ .nil
    have marker : plan.toCancelled = read := Option.some.inj same
    rw [← marker] at cancelled
    exact (Plan.isCancelled_toCancelled_iff opens).mp cancelled
  · intro marked caches operations final run
    have kept := run.preserves (fun state => ReadsCancelled state.store)
      (fun _ _ _ holds step => holds.step step) ⟨rfl, plan, rfl, opens, clear⟩
    refine ⟨kept.read, fun input => ?_⟩
    exact congrArg Store.plan (kept.writePlan input)

/-- A plan that is under way is cancelled for good. -/
theorem cancelledForGood_underway :
    CancelledForGood Bool { steps := [{ status := .completed }, { status := .inProgress }] } := by
  refine (cancelledForGood_iff.2 _ ⟨_, .tail _ (.head _), rfl⟩).mpr ⟨?_, ?_⟩
  · decide
  · decide

def failedThenPending : Plan := { steps := [{ status := .failed }, { status := .pending }] }

/-- A plan with a failed step and an open one never reads as cancelled. -/
theorem failed_step_hides_cancellation :
    failedThenPending.HasOpenStep ∧ ¬ CancelledForGood Bool failedThenPending := by
  refine ⟨⟨_, .tail _ (.head _), rfl⟩, fun forGood => ?_⟩
  obtain ⟨⟨read, same, cancelled⟩, -⟩ := forGood false (fun _ => 0) [] _ .nil
  cases same
  revert cancelled
  decide

end Runs

end Sico.Plans

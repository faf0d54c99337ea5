import Sico.Foundation.System
import Sico.Plans.Model

/-! # Editing a plan

The operations on the plan of one turn, each of them under the lock of the plan: `write_plan`,
which owns the titles and statuses of the steps, and those of the plan editors, which own the
tool calls. An operation that raises leaves what is stored as it was.

The functions that callers pass to change tool calls are parameters. As those of all callers,
they add no call, but for the calls of a repaired tree, and rewrite no identifier.
-/

namespace Sico.Plans

open Foundation

section WritePlan

/-- `PlanItemWrite.status`. -/
inductive ItemStatus where
  | pending
  | inProgress
  | completed
  | failed
  | requireHumanInput
  deriving DecidableEq, Repr

def ItemStatus.toStep : ItemStatus → StepStatus
  | .pending => .pending
  | .inProgress => .inProgress
  | .completed => .completed
  | .failed => .failed
  | .requireHumanInput => .requireHumanInput

structure PlanItemWrite where
  title : String
  status : ItemStatus
  titled : title ≠ ""

structure PlanWriteInput where
  title : String := ""
  items : List PlanItemWrite
  oneInProgress : items.countP (·.status = .inProgress) ≤ 1

def StepStatus.isRunning (status : StepStatus) : Bool := status = .pending || status = .inProgress

def StepStatus.isFinished (status : StepStatus) : Bool :=
  status = .completed || status = .failed || status = .requireHumanInput || status = .cancelled

def newStep (item : PlanItemWrite) : PlanStep := { title := item.title, status := item.status.toStep }

def overwriteStep (index : ℕ) (item : PlanItemWrite) (step : PlanStep) : Except String PlanStep :=
  if step.title ≠ item.title ∧ ¬ step.status.isRunning then
    .error ("Cannot change title of existing step " ++ toString index ++ " ('" ++ step.title ++
      "' -> '" ++ item.title ++ "'). Only running steps can be renamed.")
  else if step.status.isFinished ∧ item.status.toStep.isRunning then
    .error ("Cannot change status of step " ++ toString index ++ " ('" ++ item.title ++ "') from '" ++
      step.status.toText ++ "' to '" ++ item.status.toStep.toText ++
      "'. A finished step cannot be reverted to a running status.")
  else
    .ok { step with title := item.title, status := item.status.toStep }

/-- Items written over the steps, from an index on; further items are appended. -/
def overwriteSteps : ℕ → List PlanItemWrite → List PlanStep → Except String (List PlanStep)
  | _, [], steps => .ok steps
  | _, items, [] => .ok (items.map newStep)
  | index, item :: items, step :: steps => do
      let written ← overwriteStep index item step
      let rest ← overwriteSteps (index + 1) items steps
      return written :: rest

def writePlan (input : PlanWriteInput) (store : Store) : Except String (Plan × Store) :=
  match store.read with
  | none =>
      let plan : Plan := { title := input.title, steps := input.items.map newStep }
      .ok (plan, store.writeSet plan)
  | some existing =>
      if existing.isCancelled then .ok (existing, store)
      else do
        let steps ← overwriteSteps 0 input.items existing.steps
        let plan := { existing with title := input.title, steps }
        return (plan, store.writeSet plan)

end WritePlan

section Updaters

/-- What is passed to `update_tool_call`. -/
structure CallUpdater where
  apply : ToolCall → Except String ToolCall
  keeps : ∀ call updated, apply call = .ok updated → ∀ id, updated.ids.count id ≤ call.ids.count id

/-- What is passed to `update_tool_call_tree`: it gets the plan as a whole, and the time. -/
structure TreeUpdater where
  apply : Plan → ℤ → Except String Plan
  keeps : ∀ plan now updated, apply plan now = .ok updated →
    ∀ id, updated.ids.count id ≤ plan.ids.count id

/-- What is passed to `repair_tool_call_tree`: it adds only nodes of the repaired tree. -/
structure RepairUpdater (root : ToolCall) where
  apply : Plan → ℤ → Except String Plan
  keeps : ∀ plan now updated, apply plan now = .ok updated →
    ∀ id ∉ root.ids, updated.ids.count id ≤ plan.ids.count id

/-- The updater on a call for which it does not raise. -/
def CallUpdater.change (updater : CallUpdater) (call : ToolCall) : ToolCall :=
  match updater.apply call with
  | .ok updated => updated
  | .error _ => call

end Updaters

section Editors

/-- `_alloc_tool_call_id`: the identifier after the greatest one in the plan or in the cache. -/
def allocToolCallID (cache : ℤ) (plan : Plan) : ℤ := plan.ids.foldl max cache + 1

/-- The arguments of `create_tool_call` that the new call keeps. -/
structure NewToolCall where
  name : String
  initialMessage : String
  subCallIndex : ℤ := 0
  display : List (String × String) := []
  status : ToolCallStatus := .running

def NewToolCall.call (new : NewToolCall) (toolCallID now : ℤ) : ToolCall :=
  .node
    { toolName := new.name
      message := new.initialMessage
      toolCallID
      subCallIndex := new.subCallIndex
      display := new.display
      status := if new.status = .unknown then .running else new.status
      updatedAt := now } []

def analyzed (data : CallData) : CallData :=
  if data.status = .failedAnalyzing then { data with status := .failedAnalyzed } else data

/-- `_mark_failed_analyzing_tool_calls_as_analyzed`. -/
def markAnalyzed (steps : List PlanStep) : List PlanStep :=
  steps.map fun step => { step with toolCalls := mapCalls analyzed step.toolCalls }

/-- The steps with a new call, unless its parent is missing. -/
def insertToolCall (call : ToolCall) (parent : Option ℤ) (now : ℤ) (steps : List PlanStep) :
    Option (List PlanStep) :=
  match parent with
  | none => some (appendTopLevelToolCall call now steps)
  | some parent =>
      (changeInSteps parent (.addSubCall call) steps).map (propagateUpdatedAt parent now)

/-- `create_tool_call`, with the cache of the editor behind it and the new identifier, or 0. -/
def createToolCall (new : NewToolCall) (parent : Option ℤ) (now : ℤ) (cache : ℤ) (store : Store) :
    ℤ × Store × ℤ :=
  match store.read with
  | none => (cache, store, 0)
  | some plan =>
      let toolCallID := allocToolCallID cache plan
      let steps := if new.status = .retryRunning then markAnalyzed plan.steps else plan.steps
      match insertToolCall (new.call toolCallID now) parent now steps with
      | none => (toolCallID, store, 0)
      | some steps => (toolCallID, store.write { plan with steps }, toolCallID)

def ToolCall.touch (now : ℤ) : ToolCall → ToolCall
  | .node data subCalls => .node { data with updatedAt := now } subCalls

def updateToolCall (target : ℤ) (updater : CallUpdater) (now : ℤ) (store : Store) :
    Except String Store :=
  if target = 0 then .ok store
  else
    match store.read with
    | none => .ok store
    | some plan =>
        match plan.getToolCall target with
        | none => .ok store
        | some call => do
            let _ ← updater.apply call
            match changeInSteps target (fun call => (updater.change call).touch now) plan.steps with
            | none => return store
            | some steps => return store.write { plan with steps := propagateUpdatedAt target now steps }

def updateToolCallTree (target : ℤ) (updater : TreeUpdater) (now : ℤ) (store : Store) :
    Except String Store :=
  if target = 0 then .ok store
  else
    match store.read with
    | none => .ok store
    | some plan =>
        match plan.getToolCall target with
        | none => .ok store
        | some _ => do
            let updated ← updater.apply plan now
            return store.write { updated with steps := propagateUpdatedAt target now updated.steps }

/-- The identifiers outside of the first top-level call with an identifier. -/
def outsideAmong (target : ℤ) : List ToolCall → Option (List ℤ)
  | [] => none
  | call :: rest =>
      if call.toolCallID = target then some (callIDs rest)
      else (outsideAmong target rest).map (call.ids ++ ·)

def outsideIDs (target : ℤ) : List PlanStep → Option (List ℤ)
  | [] => none
  | step :: rest =>
      match outsideAmong target step.toolCalls with
      | some outside => some (outside ++ stepIDs rest)
      | none => (outsideIDs target rest).map (callIDs step.toolCalls ++ ·)

/-- The time on the first top-level call with an identifier. -/
def touchAmong (target now : ℤ) : List ToolCall → List ToolCall
  | [] => []
  | call :: rest =>
      if call.toolCallID = target then call.touch now :: rest else call :: touchAmong target now rest

/-- The time on the first top-level call with an identifier, and on its step. -/
def touchTopLevel (target now : ℤ) : List PlanStep → List PlanStep
  | [] => []
  | step :: rest =>
      if (outsideAmong target step.toolCalls).isSome then
        { step with toolCalls := touchAmong target now step.toolCalls, updatedAt := now } :: rest
      else step :: touchTopLevel target now rest

def listed (ids : List ℤ) : String := toString (ids.mergeSort (· ≤ ·))

/-- The plan that the updater of a repair gets: the tree is appended if it is not there. No
identifier of the tree may be in use elsewhere. -/
def placeTree (root : ToolCall) (now : ℤ) (plan : Plan) : Except String Plan :=
  match outsideIDs root.toolCallID plan.steps with
  | none =>
      if root.ids.any (· ∈ plan.ids) then
        .error ("tool-call id conflict while repairing tree: " ++
          listed (root.ids.filter (· ∈ plan.ids)))
      else .ok { plan with
        steps := appendTopLevelToolCall (root.mapData fun data => { data with updatedAt := now }) now
          plan.steps }
  | some outside =>
      if root.ids.any (· ∈ outside) then
        .error ("tool-call id conflict while repairing tree: " ++ listed (root.ids.filter (· ∈ outside)))
      else .ok { plan with steps := touchTopLevel root.toolCallID now plan.steps }

def repairToolCallTree (root : ToolCall) (updater : RepairUpdater root) (now : ℤ) (store : Store) :
    Except String Store :=
  if root.ids.any (· ≤ 0) ∨ ¬ root.ids.Nodup then
    .error "repaired tool-call tree requires unique positive ids"
  else
    match store.read with
    | none => .ok store
    | some plan => do
        let placed ← placeTree root now plan
        let updated ← updater.apply placed now
        if root.ids.any fun id => updated.ids.count id ≠ 1 then
          .error ("invalid tool-call ids after repairing tree: " ++
            listed (root.ids.filter fun id => updated.ids.count id ≠ 1))
        else
          return store.write updated

/-- The subtree removed from the first step that has it. -/
def removeFromSteps (target now : ℤ) : List PlanStep → Option (List PlanStep)
  | [] => none
  | step :: rest =>
      match removeToolCall target now step.toolCalls with
      | some (_, calls) => some ({ step with toolCalls := calls, updatedAt := now } :: rest)
      | none => (removeFromSteps target now rest).map (step :: ·)

/-- Whether the predicate, if there is one, permits to remove the call. -/
def permitsRemoval (target : ℤ) (plan : Plan) : Option (Plan → ToolCall → Bool) → Bool
  | none => true
  | some predicate => (plan.getToolCall target).any (predicate plan)

/-- `remove_tool_call`, with the predicate that has to permit it, if there is one. -/
def removeToolCallTree (target : ℤ) (predicate : Option (Plan → ToolCall → Bool)) (now : ℤ)
    (store : Store) : Store :=
  if target = 0 then store
  else
    match store.read with
    | none => store
    | some plan =>
        if permitsRemoval target plan predicate then
          match removeFromSteps target now plan.steps with
          | none => store
          | some steps => store.write { plan with steps }
        else store

end Editors

section Operations

/-- The operations on the plan of a turn, with the editor that allocates an identifier. -/
inductive Operation (Editor : Type) where
  | createToolCall (editor : Editor) (new : NewToolCall) (parent : Option ℤ) (now : ℤ)
  | updateToolCall (target : ℤ) (updater : CallUpdater) (now : ℤ)
  | updateToolCallTree (target : ℤ) (updater : TreeUpdater) (now : ℤ)
  | repairToolCallTree (root : ToolCall) (updater : RepairUpdater root) (now : ℤ)
  | removeToolCall (target : ℤ) (predicate : Option (Plan → ToolCall → Bool)) (now : ℤ)
  | writePlan (input : PlanWriteInput)
  | cancelPlan

/-- What is stored, and the cache of each editor. -/
structure Editing (Editor : Type) where
  store : Store
  caches : Editor → ℤ

def Store.after (store : Store) : Except String Store → Store
  | .ok store' => store'
  | .error _ => store

variable {Editor : Type} [DecidableEq Editor]

def Editing.next (state : Editing Editor) : Operation Editor → Editing Editor
  | .createToolCall editor new parent now =>
      let (cache, store, _) := createToolCall new parent now (state.caches editor) state.store
      ⟨store, Function.update state.caches editor cache⟩
  | .updateToolCall target updater now =>
      { state with store := state.store.after (updateToolCall target updater now state.store) }
  | .updateToolCallTree target updater now =>
      { state with store := state.store.after (updateToolCallTree target updater now state.store) }
  | .repairToolCallTree root updater now =>
      { state with store := state.store.after (repairToolCallTree root updater now state.store) }
  | .removeToolCall target predicate now =>
      { state with store := removeToolCallTree target predicate now state.store }
  | .writePlan input =>
      { state with store := state.store.after ((writePlan input state.store).map Prod.snd) }
  | .cancelPlan => { state with store := state.store.cancel }

/-- The operations of any editors on one plan, in any order. -/
def editingSystem : System (Editing Editor) (Operation Editor) :=
  System.ofNext fun state operation => some (state.next operation)

end Operations

end Sico.Plans

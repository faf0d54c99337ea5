import Mathlib.Data.List.Basic
import Sico.Foundation.Basic

/-! # Plans

The plan of a turn: steps with their statuses, and under each step a forest of tool calls.
Cancelling a plan leaves a marker beside it, and a plan that is read beside the marker has
its first open step cancelled.

A plan is stored as a document. Whether the document has a member for the steps matters to
`write_plan`, which stores only the members that were set, so the plan remembers it. Who the
plan belongs to only decides where it is stored and is left out, and so are the deliverables
and the execution info of tool calls.
-/

namespace Sico.Plans

/-- `PlanStepStatus`. -/
inductive StepStatus where
  | unknown
  | pending
  | inProgress
  | completed
  | failed
  | requireHumanInput
  | cancelled
  deriving DecidableEq, Repr

def StepStatus.toText : StepStatus → String
  | .unknown => "unknown"
  | .pending => "pending"
  | .inProgress => "in_progress"
  | .completed => "completed"
  | .failed => "failed"
  | .requireHumanInput => "require_human_input"
  | .cancelled => "cancelled"

inductive PlanStatus where
  | unknown
  | noPlan
  | running
  | completed
  | failed
  | requireHumanInput
  | cancelled
  deriving DecidableEq, Repr

inductive ToolCallStatus where
  | unknown
  | running
  | failed
  | successful
  | failedAnalyzing
  | failedAnalyzed
  | retryRunning
  | retrySuccessful
  | retryFailed
  | pending
  deriving DecidableEq, Repr

/-- The members of a tool call other than its sub-calls. -/
structure CallData where
  toolName : String := ""
  message : String := ""
  toolCallID : ℤ := 0
  subCallIndex : ℤ := 0
  display : List (String × String) := []
  status : ToolCallStatus := .running
  updatedAt : ℤ := 0
  deriving DecidableEq, Repr

inductive ToolCall where
  | node (data : CallData) (subCalls : List ToolCall)

structure PlanStep where
  title : String := ""
  toolCalls : List ToolCall := []
  status : StepStatus := .unknown
  updatedAt : ℤ := 0

structure Plan where
  title : String := ""
  steps : List PlanStep := []
  stepsSet : Bool := true

section Trees

namespace ToolCall

def data : ToolCall → CallData
  | .node data _ => data

def subCalls : ToolCall → List ToolCall
  | .node _ subCalls => subCalls

def toolCallID (call : ToolCall) : ℤ := call.data.toolCallID

def addSubCall (sub : ToolCall) : ToolCall → ToolCall
  | .node data subCalls => .node data (subCalls ++ [sub])

end ToolCall

mutual

/-- `_tool_call_ids`: the identifiers of a tree. -/
def ToolCall.ids : ToolCall → List ℤ
  | .node data subCalls => data.toolCallID :: callIDs subCalls

def callIDs : List ToolCall → List ℤ
  | [] => []
  | call :: rest => call.ids ++ callIDs rest

end

mutual

/-- The data of every call of a tree, changed alike. -/
def ToolCall.mapData (change : CallData → CallData) : ToolCall → ToolCall
  | .node data subCalls => .node (change data) (mapCalls change subCalls)

def mapCalls (change : CallData → CallData) : List ToolCall → List ToolCall
  | [] => []
  | call :: rest => call.mapData change :: mapCalls change rest

end

mutual

/-- `_find_and_mark`: the time on a call and all calls above it, if the call is found. -/
def ToolCall.markPath (target now : ℤ) : ToolCall → Option ToolCall
  | .node data subCalls =>
      if data.toolCallID = target then some (.node { data with updatedAt := now } subCalls)
      else (markPathAmong target now subCalls).map (.node { data with updatedAt := now })

def markPathAmong (target now : ℤ) : List ToolCall → Option (List ToolCall)
  | [] => none
  | call :: rest =>
      match call.markPath target now with
      | some marked => some (marked :: rest)
      | none => (markPathAmong target now rest).map (call :: ·)

end

mutual

/-- `_remove_tool_call`: the identifiers of the subtree that is removed, and what is left. -/
def removeToolCall (target now : ℤ) : List ToolCall → Option (List ℤ × List ToolCall)
  | [] => none
  | call :: rest =>
      if call.toolCallID = target then some (call.ids, rest)
      else
        match call.removeBelow target now with
        | some (removed, left) => some (removed, left :: rest)
        | none => (removeToolCall target now rest).map fun found => (found.1, call :: found.2)

def ToolCall.removeBelow (target now : ℤ) : ToolCall → Option (List ℤ × ToolCall)
  | .node data subCalls =>
      (removeToolCall target now subCalls).map fun found =>
        (found.1, .node { data with updatedAt := now } found.2)

end

end Trees

section Steps

def PlanStep.isSettled (step : PlanStep) : Bool :=
  step.status = .completed || step.status = .failed

def stepIDs (steps : List PlanStep) : List ℤ := steps.flatMap fun step => callIDs step.toolCalls

def Plan.ids (plan : Plan) : List ℤ := stepIDs plan.steps

/-- The first step that is not settled is cancelled. -/
def cancelFirstOpen : List PlanStep → List PlanStep
  | [] => []
  | step :: rest =>
      if step.isSettled then step :: cancelFirstOpen rest
      else { step with status := .cancelled } :: rest

/-- `Plan.to_cancelled`. The tool calls are copied as they are. -/
def Plan.toCancelled (plan : Plan) : Plan := { plan with steps := cancelFirstOpen plan.steps }

def Plan.has (plan : Plan) (status : StepStatus) : Bool :=
  plan.steps.any fun step => step.status = status

/-- `Plan.get_plan_status_from_step_status`. -/
def Plan.status (plan : Plan) : PlanStatus :=
  if plan.steps.isEmpty then .completed
  else if plan.has .unknown then .unknown
  else if plan.has .requireHumanInput then .requireHumanInput
  else if plan.has .failed then .failed
  else if plan.has .cancelled then .cancelled
  else if plan.steps.all fun step => step.status = .completed then .completed
  else .running

def Plan.isCancelled (plan : Plan) : Bool := plan.status = .cancelled

/-- `_append_top_level_tool_call`: to the first open step, else to the last one, else to a
step of its own. -/
def appendTopLevelToolCall (call : ToolCall) (now : ℤ) : List PlanStep → List PlanStep
  | [] => [{ title := "Initial Step", status := .pending, toolCalls := [call], updatedAt := now }]
  | [step] => [{ step with toolCalls := step.toolCalls ++ [call], updatedAt := now }]
  | step :: next :: rest =>
      if step.isSettled then step :: appendTopLevelToolCall call now (next :: rest)
      else { step with toolCalls := step.toolCalls ++ [call], updatedAt := now } :: next :: rest

/-- `_propagate_updated_at`: the time on a call and all above it, up to the step. -/
def propagateUpdatedAt (target now : ℤ) : List PlanStep → List PlanStep
  | [] => []
  | step :: rest =>
      match markPathAmong target now step.toolCalls with
      | some calls => { step with toolCalls := calls, updatedAt := now } :: rest
      | none => step :: propagateUpdatedAt target now rest

end Steps

section Lookup

variable (target : ℤ)

/-- `Plan.get_tool_call` looks among the top-level calls and right below each of them, in
order. -/
def getToolCall : List ToolCall → Option ToolCall
  | [] => none
  | call :: rest =>
      if call.toolCallID = target then some call
      else
        match call.subCalls.find? (·.toolCallID = target) with
        | some sub => some sub
        | none => getToolCall rest

def Plan.getToolCall (plan : Plan) : Option ToolCall :=
  plan.steps.findSome? fun step => Plans.getToolCall target step.toolCalls

variable (change : ToolCall → ToolCall)

/-- The first call of the list with the identifier, changed. -/
def changeFirst : List ToolCall → Option (List ToolCall)
  | [] => none
  | call :: rest =>
      if call.toolCallID = target then some (change call :: rest)
      else (changeFirst rest).map (call :: ·)

/-- The call that `get_tool_call` finds, changed in its place. -/
def changeToolCall : List ToolCall → Option (List ToolCall)
  | [] => none
  | call :: rest =>
      if call.toolCallID = target then some (change call :: rest)
      else
        match changeFirst target change call.subCalls with
        | some subCalls => some (.node call.data subCalls :: rest)
        | none => (changeToolCall rest).map (call :: ·)

def changeInSteps : List PlanStep → Option (List PlanStep)
  | [] => none
  | step :: rest =>
      match changeToolCall target change step.toolCalls with
      | some calls => some ({ step with toolCalls := calls } :: rest)
      | none => (changeInSteps rest).map (step :: ·)

end Lookup

section Storage

/-- What is stored for a turn: the plan, if there is any, and the marker. -/
structure Store where
  plan : Option Plan
  cancelled : Bool

namespace Store

/-- `_read_plan_unlocked`. -/
def read (store : Store) : Option Plan :=
  store.plan.map fun plan => if store.cancelled then plan.toCancelled else plan

/-- `_write_plan_unlocked`: the whole document. -/
def write (store : Store) (plan : Plan) : Store :=
  { store with plan := some { plan with stepsSet := true } }

/-- The document without the members that were not set and those with a default value. -/
def writeSet (store : Store) (plan : Plan) : Store :=
  { store with
    plan := some
      (if plan.stepsSet ∧ plan.steps ≠ [] then { plan with stepsSet := true }
      else { plan with steps := [], stepsSet := false }) }

/-- `cancel_plan`. -/
def cancel (store : Store) : Store := { store with cancelled := true }

end Store

end Storage

end Sico.Plans

import Mathlib.Data.List.Basic
import Sico.AgentLoop.Identifiers
import Sico.Foundation.Json
import Sico.Plans.Model
import Sico.TaskRuntime.Rows

/-! # The plan that the task runtime presents

The runtime mirrors its batches into the plan of a turn: a batch is a top-level tool call, its runs
are the sub-calls. The tool calls here have all that the mirror reads and writes; the deliverables
are as they are stored. Who the plan belongs to is left out.
-/

namespace Sico.TaskRuntime.Presentation

open Foundation
open Plans (StepStatus ToolCallStatus)
open AgentLoop (strip isBlank)

inductive ToolType where
  | unknown
  | builtin
  deriving DecidableEq, Repr

/-- `TaskRuntimeExecutionInfo`. -/
structure RuntimeInfo where
  currentStage : String := ""
  sandboxID : String := ""
  sandboxType : String := ""
  sandboxEndpoint : String := ""
  attempt : ℤ := 0
  maxAttempts : ℤ := 0
  latestProgressMessage : String := ""
  deriving DecidableEq, Repr

/-- `ToolExecutionInfo`. -/
structure ExecutionInfo where
  toolType : ToolType := .unknown
  builtinToolName : String := ""
  taskRuntime : RuntimeInfo := {}
  deriving DecidableEq, Repr

/-- The members of a tool call other than its sub-calls. -/
structure CallData where
  toolName : String := ""
  message : String := ""
  executionInfo : ExecutionInfo := {}
  deliverables : List Json := []
  toolCallID : ℤ := 0
  subCallIndex : ℤ := 0
  display : List (String × String) := []
  status : ToolCallStatus := .running
  updatedAt : ℤ := 0
  deriving DecidableEq, Repr

inductive ToolCall where
  | node (data : CallData) (subCalls : List ToolCall)

structure PlanStep where
  title : String := ""
  toolCalls : List ToolCall := []
  status : StepStatus := .unknown
  updatedAt : ℤ := 0

structure Plan where
  title : String := ""
  steps : List PlanStep := []

section Trees

namespace ToolCall

end ToolCall

mutual

/-- The identifiers of a tree, as `_iter_tool_call_tree` meets them. -/
def ToolCall.ids : ToolCall → List ℤ
  | .node data subCalls => data.toolCallID :: callIDs subCalls

def callIDs : List ToolCall → List ℤ
  | [] => []
  | call :: rest => call.ids ++ callIDs rest

end

/-- The top-level calls of all steps, in order. -/
def stepCalls (steps : List PlanStep) : List ToolCall := steps.flatMap PlanStep.toolCalls

/-- The identifiers of all tool calls. -/
def Plan.ids (plan : Plan) : List ℤ := callIDs (stepCalls plan.steps)

theorem callIDs_append (first second : List ToolCall) :
    callIDs (first ++ second) = callIDs first ++ callIDs second := by
  induction first with
  | nil => rfl
  | cons call rest ih => rw [List.cons_append, callIDs, callIDs, ih, List.append_assoc]

theorem stepCalls_cons (step : PlanStep) (rest : List PlanStep) :
    stepCalls (step :: rest) = step.toolCalls ++ stepCalls rest :=
  List.flatMap_cons

end Trees

end Sico.TaskRuntime.Presentation

import Sico.Foundation.Models
import Sico.Plans.Editor

/-! # The documents of plans

The plan of a turn is stored as a document, and it is loaded before every operation. The plan
editors write it as a whole. `write_plan` writes only the members that were set and do not hold
their default, and whether a member is set depends on where it comes from: it is when the document
has it or when it was assigned, and it is not when only the list that it holds was changed.

The tool calls are read and written by their schema. A cancelled plan has a marker beside it, which
neither `write_plan` nor the editors write, so there is none here.
-/

namespace Sico.Plans.Documents

open Foundation Foundation.Models

section Calls

/-- The models under a step, and what is kept about a plan. -/
inductive ModelName where
  | toolCall
  | executionInfo
  | taskRuntime
  | deliverable
  | file
  | acquiredSandbox
  | extra
  deriving DecidableEq, Repr

def isText : Json → Bool
  | .str _ => true
  | _ => false

def isNumber : Json → Bool
  | .int _ => true
  | _ => false

def isAmong (values : List ℤ) : Json → Bool
  | .int value => value ∈ values
  | _ => false

def isTexts : Json → Bool
  | .obj members => members.all fun member => isText member.2
  | _ => false

def textMember (name : String) : Member ModelName := ⟨name, .leaf isText, .leaf (.str "")⟩

def numberMember (name : String) : Member ModelName := ⟨name, .leaf isNumber, .leaf (.int 0)⟩

def fresh (members : List (Member ModelName)) : Value :=
  .model (members.map fun member => (⟨member.name, member.default.content, false⟩, member.default))

/-- `ToolDeliverableAcquiredSandbox`. -/
def acquiredSandboxMembers : List (Member ModelName) :=
  [textMember "sandbox_id", textMember "sandbox_type", textMember "endpoint", textMember "provider_base_url",
    textMember "device_id", textMember "display_name", textMember "vnc_url"]

/-- `ToolDeliverableFile`. -/
def fileMembers : List (Member ModelName) :=
  [textMember "file_sas_url", textMember "file_name", textMember "file_uri"]

/-- `ToolDeliverable`. -/
def deliverableMembers : List (Member ModelName) :=
  [⟨"type", .leaf (isAmong [0, 1, 2, 3, 5]), .leaf (.int 0)⟩, textMember "markdown_content",
    textMember "markdown_title", textMember "file_url", textMember "file_name",
    ⟨"file", .optional .file, .leaf .null⟩, textMember "web_preview_sas_url",
    ⟨"acquired_sandbox", .model .acquiredSandbox, fresh acquiredSandboxMembers⟩]

/-- `TaskRuntimeExecutionInfo`. -/
def taskRuntimeMembers : List (Member ModelName) :=
  [textMember "current_stage", textMember "sandbox_id", textMember "sandbox_type", textMember "sandbox_endpoint",
    numberMember "attempt", numberMember "max_attempts", textMember "latest_progress_message"]

/-- `ToolExecutionInfo`. -/
def executionInfoMembers : List (Member ModelName) :=
  [⟨"tool_type", .leaf (isAmong [0, 1]), .leaf (.int 0)⟩, textMember "builtin_tool_name",
    ⟨"task_runtime", .model .taskRuntime, fresh taskRuntimeMembers⟩]

/-- `ToolCall`. -/
def toolCallMembers : List (Member ModelName) :=
  [textMember "tool_name", textMember "message",
    ⟨"execution_info", .model .executionInfo, fresh executionInfoMembers⟩,
    ⟨"deliverables", .list (.model .deliverable), .list []⟩, numberMember "tool_call_id",
    ⟨"sub_calls", .list (.model .toolCall), .list []⟩, numberMember "sub_call_index",
    ⟨"display", .leaf isTexts, .leaf (.obj [])⟩,
    ⟨"tool_call_status", .leaf (isAmong [0, 1, 2, 3, 4, 5, 6, 7, 8, 9]), .leaf (.int 1)⟩, numberMember "updated_at"]

/-- `PlanExtra`. -/
def extraMembers : List (Member ModelName) :=
  [textMember "username", numberMember "agent_instance_id", textMember "agent_id", numberMember "turn_id",
    numberMember "project_id", numberMember "conversation_id", numberMember "updated_at"]

def membersOf : ModelName → List (Member ModelName)
  | .toolCall => toolCallMembers
  | .executionInfo => executionInfoMembers
  | .taskRuntime => taskRuntimeMembers
  | .deliverable => deliverableMembers
  | .file => fileMembers
  | .acquiredSandbox => acquiredSandboxMembers
  | .extra => extraMembers

def textOf (name : String) (contents : List (String × Json)) : String :=
  match (contents.find? (·.1 = name)).map Prod.snd with
  | some (.str text) => text
  | _ => ""

/-- Whether a deliverable names its file the old way only. -/
def isDeprecated (contents : List (String × Json)) : Bool :=
  (contents.find? (·.1 = "file")).map Prod.snd = some .null &&
    (textOf "file_url" contents ≠ "" || textOf "file_name" contents ≠ "")

def setText (name text : String) : Tag × Value := (⟨name, .str "", true⟩, .leaf (.str text))

/-- The file that a deliverable names the old way. -/
def migratedFile (contents : List (String × Json)) : Value :=
  .model [setText "file_sas_url" (textOf "file_url" contents), setText "file_name" (textOf "file_name" contents),
    setText "file_uri" ""]

def setFile (file : Value) : List (Tag × Value) → List (Tag × Value)
  | [] => []
  | (tag, value) :: rest =>
      if tag.name = "file" then ({ tag with isSet := true }, file) :: setFile file rest
      else (tag, value) :: setFile file rest

def migrateDeprecatedFileFields (members : List (Tag × Value)) : List (Tag × Value) :=
  if isDeprecated (memberContents members) then setFile (migratedFile (memberContents members)) members
  else members

def settle : ModelName → List (Tag × Value) → List (Tag × Value)
  | .deliverable, members => migrateDeprecatedFileFields members
  | _, members => members

def schema : Schema ModelName := ⟨membersOf, settle⟩

end Calls

section Plans

/-- What is kept about a plan for the operation at hand. -/
structure PlanExtra where
  username : String := ""
  agentInstanceID : ℤ := 0
  agentID : String := ""
  turnID : ℤ := 0
  projectID : ℤ := 0
  conversationID : ℤ := 0

/-- The members of `PlanExtra` assigned one by one. -/
def PlanExtra.assignTo (extra : PlanExtra) (members : List (Tag × Value)) : List (Tag × Value) :=
  assignMember "conversation_id" (.int extra.conversationID)
    (assignMember "project_id" (.int extra.projectID)
      (assignMember "turn_id" (.int extra.turnID)
        (assignMember "agent_id" (.str extra.agentID)
          (assignMember "agent_instance_id" (.int extra.agentInstanceID)
            (assignMember "username" (.str extra.username) members)))))

def membersIn : Value → List (Tag × Value)
  | .model members => members
  | _ => []

/-- `PlanExtra` as its constructor makes it. -/
def PlanExtra.value (extra : PlanExtra) : Value := .model (extra.assignTo (membersIn (fresh extraMembers)))

def assignUpdatedAt (now : ℤ) (extra : Value) : Value := .model (assignMember "updated_at" (.int now) (membersIn extra))

/-- A step as it is loaded. -/
structure StepModel where
  title : Models.Field String := ⟨"", false⟩
  toolCalls : Models.Field (List Value) := ⟨[], false⟩
  status : Models.Field StepStatus := ⟨.unknown, false⟩
  updatedAt : Models.Field ℤ := ⟨0, false⟩

structure PlanModel where
  title : Models.Field String
  steps : Models.Field (List StepModel)
  extra : Models.Field Value

structure StepDocument where
  title : Option String
  toolCalls : Option (List Json)
  status : Option StepStatus
  updatedAt : Option ℤ

structure PlanDocument where
  title : Option String
  steps : Option (List StepDocument)
  extra : Option Json

def StepDocument.load (document : StepDocument) : Option StepModel := do
  let title ← Field.load "" some document.title
  let toolCalls ← Field.load [] (fun calls => schema.loadItems calls (.model .toolCall)) document.toolCalls
  let status ← Field.load StepStatus.unknown some document.status
  let updatedAt ← Field.load 0 some document.updatedAt
  return { title, toolCalls, status, updatedAt }

/-- `Plan.model_validate`. -/
def PlanDocument.load (document : PlanDocument) : Option PlanModel := do
  let title ← Field.load "" some document.title
  let steps ← Field.load [] (fun steps => steps.mapM StepDocument.load) document.steps
  let extra ← Field.load (fresh extraMembers) (fun extra => schema.load extra (.model .extra)) document.extra
  return { title, steps, extra }

/-- A step as `write_plan` writes it. -/
def StepModel.written (step : StepModel) : StepDocument where
  title := step.title.written (· = "") fun title => title
  toolCalls := step.toolCalls.written List.isEmpty writtenItems
  status := step.status.written (· = .unknown) fun status => status
  updatedAt := step.updatedAt.written (· = 0) fun updatedAt => updatedAt

/-- `model_dump_json` without the members that are not set, hold their default, or hold nothing. -/
def PlanModel.written (plan : PlanModel) : PlanDocument where
  title := plan.title.written (· = "") fun title => title
  steps := plan.steps.written List.isEmpty fun steps => steps.map StepModel.written
  extra := plan.extra.written (·.content = (fresh extraMembers).content) Value.written

def StepModel.whole (step : StepModel) : StepDocument :=
  ⟨some step.title.value, some (contents step.toolCalls.value), some step.status.value, some step.updatedAt.value⟩

/-- `model_dump_json`. -/
def PlanModel.whole (plan : PlanModel) : PlanDocument :=
  ⟨some plan.title.value, some (plan.steps.value.map StepModel.whole), some plan.extra.value.content⟩

/-- `is_cancelled`, which looks at the statuses only. -/
def PlanModel.isCancelled (plan : PlanModel) : Bool :=
  Plan.isCancelled { steps := plan.steps.value.map fun step => { status := step.status.value } }

end Plans

section WritePlan

def newStep (item : PlanItemWrite) : StepModel := { title := .assign item.title, status := .assign item.status.toStep }

/-- An item written over the step of its index. The title is assigned only where it differs. -/
def overwriteStep (index : ℕ) (item : PlanItemWrite) (step : StepModel) : Except String StepModel :=
  if step.title.value ≠ item.title ∧ ¬ step.status.value.isRunning then
    .error ("Cannot change title of existing step " ++ toString index ++ " ('" ++ step.title.value ++
      "' -> '" ++ item.title ++ "'). Only running steps can be renamed.")
  else if step.status.value.isFinished ∧ item.status.toStep.isRunning then
    .error ("Cannot change status of step " ++ toString index ++ " ('" ++ item.title ++ "') from '" ++
      step.status.value.toText ++ "' to '" ++ item.status.toStep.toText ++
      "'. A finished step cannot be reverted to a running status.")
  else
    .ok { step with
      title := if step.title.value = item.title then step.title else .assign item.title
      status := .assign item.status.toStep }

/-- Items written over the steps, from an index on; further items are appended. -/
def overwriteSteps : ℕ → List PlanItemWrite → List StepModel → Except String (List StepModel)
  | _, [], steps => .ok steps
  | _, items, [] => .ok (items.map newStep)
  | index, item :: items, step :: steps => do
      let written ← overwriteStep index item step
      let rest ← overwriteSteps (index + 1) items steps
      return written :: rest

/-- `write_plan`: the plan that it returns, and what is stored behind it. The steps of a plan that
was there are changed in place. -/
def writePlan (input : PlanWriteInput) (extra : PlanExtra) (now : ℤ) (stored : Option PlanDocument) :
    Except String (PlanModel × Option PlanDocument) :=
  match stored with
  | none =>
      let plan : PlanModel :=
        { title := .assign input.title
          steps := .assign (input.items.map newStep)
          extra := .assign (assignUpdatedAt now extra.value) }
      .ok (plan, some plan.written)
  | some document =>
      match document.load with
      | none => .error "validation error for Plan"
      | some existing =>
          if existing.isCancelled then .ok (existing, some document)
          else do
            let steps ← overwriteSteps 0 input.items existing.steps.value
            let plan : PlanModel :=
              { title := .assign input.title
                steps := existing.steps.change fun _ => steps
                extra := existing.extra.change fun held =>
                  assignUpdatedAt now (.model (extra.assignTo (membersIn held))) }
            return (plan, some plan.written)

/-- What comes to be stored: what an editor writes, and what `write_plan` does. -/
inductive Reachable : Option PlanDocument → Prop where
  | nothing : Reachable none
  | edited (plan : PlanModel) : Reachable (some plan.whole)
  | written {before after : Option PlanDocument} {returned : PlanModel} (reachable : Reachable before)
      (input : PlanWriteInput) (extra : PlanExtra) (now : ℤ)
      (done : writePlan input extra now before = .ok (returned, after)) : Reachable after

end WritePlan

end Sico.Plans.Documents

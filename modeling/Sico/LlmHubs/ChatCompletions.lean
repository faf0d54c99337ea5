import Mathlib.Data.Int.Order.Basic
import Sico.Foundation.SortedMap
import Sico.LlmHubs.Outputs

/-! # Chat completions

The adapter for providers with the chat-completions protocol: a finished completion is read
at once, a streamed one chunk by chunk, with the tool calls gathered by their index until a
chunk tells why the stream finished.

Members that are missing and members that are null are both nothing. A list of tool calls
that is missing is the empty one. The record of the usage is nothing if it is empty.
-/

namespace Sico.LlmHubs

open Foundation

structure UsageData where
  promptTokens : Option ℤ := none
  completionTokens : Option ℤ := none
  totalTokens : Option ℤ := none

def UsageData.usage (data : UsageData) : Usage :=
  { promptTokens := data.promptTokens.getD 0
    completionTokens := data.completionTokens.getD 0
    totalTokens := data.totalTokens.getD 0 }

section Completed

structure ToolCall where
  id : String
  name : String
  arguments : String
  deriving DecidableEq, Repr

structure AssistantMessage where
  content : Option String := none
  refusal : Option String := none
  toolCalls : List ToolCall := []
  deriving DecidableEq, Repr

structure ChatCompletion where
  choices : List AssistantMessage
  usage : Option UsageData

def ToolCall.output (toolCall : ToolCall) : OutputItem :=
  .functionCall toolCall.id toolCall.name toolCall.arguments

/-- An output for a text, unless it is missing or empty. -/
def outputOf (make : String → OutputItem) (text : Option String) : List OutputItem :=
  if text.getD "" = "" then [] else [make (text.getD "")]

def AssistantMessage.outputs (message : AssistantMessage) : List OutputItem :=
  outputOf (.text · []) message.content ++ outputOf .refusal message.refusal ++
    message.toolCalls.map ToolCall.output

def parseResponse (data : ChatCompletion) : Response :=
  { outputs := (data.choices.head?.map AssistantMessage.outputs).getD []
    usage := (data.usage.getD {}).usage }

end Completed

section Streamed

structure ToolCallFragment where
  index : Option ℤ := none
  id : Option String := none
  name : Option String := none
  arguments : Option String := none
  deriving DecidableEq, Repr

structure Delta where
  content : Option String := none
  refusal : Option String := none
  toolCalls : List ToolCallFragment := []
  deriving DecidableEq, Repr

structure ChunkChoice where
  delta : Delta
  finishReason : Option String := none

structure ChatChunk where
  choices : List ChunkChoice
  usage : Option UsageData := none

/-- A tool call as far as it was streamed. -/
@[ext] structure PendingCall where
  callID : String
  name : String := ""
  arguments : String := ""
  deriving DecidableEq, Repr

abbrev ToolCallState := SortedMap ℤ PendingCall

/-- What a fragment leaves of a field that it may set. -/
def orKeep (current : String) (given : Option String) : String :=
  if given.getD "" = "" then current else given.getD ""

def PendingCall.absorb (call : PendingCall) (fragment : ToolCallFragment) : PendingCall :=
  { callID := orKeep call.callID fragment.id
    name := orKeep call.name fragment.name
    arguments := call.arguments ++ fragment.arguments.getD "" }

def newCall (index : ℤ) : PendingCall := { callID := "tool_call_" ++ toString index }

def absorbFragment (state : ToolCallState) (fragment : ToolCallFragment) : ToolCallState :=
  let index := fragment.index.getD state.entries.length
  let current := (state.find? index).getD (newCall index)
  state.insert index (current.absorb fragment)

def PendingCall.output (call : PendingCall) : OutputItem :=
  .functionCall call.callID call.name call.arguments

/-- A reason to finish that is missing or empty leaves the reason of an earlier choice. -/
def finishOf (finish given : Option String) : Option String :=
  if given.getD "" = "" then finish else given

def parseStreamChunk (data : ChatChunk) (state : ToolCallState) :
    Option StreamChunk × ToolCallState :=
  let finish := (data.choices.map ChunkChoice.finishReason).foldl finishOf none
  let textParts := (data.choices.map fun choice => choice.delta.content.getD "").filter (· ≠ "")
  let state := (data.choices.flatMap fun choice => choice.delta.toolCalls).foldl absorbFragment state
  let finalized := if finish.isSome then state.entries.map fun entry => entry.2.output else []
  let rest := if finish.isSome then SortedMap.empty else state
  let outputs := textParts.map (.text · []) ++ finalized
  let usage := data.usage.map UsageData.usage
  if outputs.isEmpty && finish.isNone && usage.isNone then (none, rest)
  else
    (some { delta := String.join textParts, outputs, finishReason := finish, usage }, rest)

def streamOutputs : List ChatChunk → ToolCallState → List OutputItem
  | [], _ => []
  | data :: rest, state =>
      let (chunk, state) := parseStreamChunk data state
      (chunk.map StreamChunk.outputs).getD [] ++ streamOutputs rest state

end Streamed

end Sico.LlmHubs

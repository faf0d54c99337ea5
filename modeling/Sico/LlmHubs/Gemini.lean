import Sico.LlmHubs.ChatCompletions

/-! # Gemini responses

The adapter for the `generateContent` protocol, which reads a response at once and streams
it as a single chunk. A function call without an identifier gets one that is made up from
the name of the function and the position of its part.

Members that are missing and members that are null are both nothing, but for the arguments
of a call. A function call without any member is nothing as well.
-/

namespace Sico.LlmHubs

open Foundation

/-- The texts of arguments: `json.dumps` of a mapping, and `str` of anything else, with the
empty text for what counts as false. -/
structure ArgumentsRendering where
  dumps : List (String × Json) → String
  str : Json → String

namespace Gemini

structure FunctionCall where
  id : Option String := none
  name : Option String := none
  args : Option Json := none

structure Part where
  functionCall : Option FunctionCall := none
  text : Option String := none

structure UsageMetadata where
  promptTokenCount : Option ℤ := none
  candidatesTokenCount : Option ℤ := none
  totalTokenCount : Option ℤ := none

/-- The parts of each candidate, and the usage. -/
structure GenerateContentResponse where
  candidates : List (List Part)
  usageMetadata : UsageMetadata := {}

def synthesizeCallID (name : String) (index : ℕ) : String :=
  "gemini-" ++ (if name = "" then "function" else name) ++ "-" ++ toString index

variable (rendering : ArgumentsRendering)

def argumentsText : Option Json → String
  | none => rendering.dumps []
  | some (.obj members) => rendering.dumps members
  | some args => rendering.str args

def FunctionCall.output (call : FunctionCall) (index : ℕ) : OutputItem :=
  let name := call.name.getD ""
  .functionCall
    (if call.id.getD "" = "" then synthesizeCallID name index else call.id.getD "")
    name (argumentsText rendering call.args)

/-- The output of the part at a position, if it has one. -/
def Part.output (part : Part) (index : ℕ) : Option OutputItem :=
  match part.functionCall with
  | some call => some (call.output rendering index)
  | none => part.text.map (.text · [])

def UsageMetadata.usage (data : UsageMetadata) : Usage :=
  { promptTokens := data.promptTokenCount.getD 0
    completionTokens := data.candidatesTokenCount.getD 0
    totalTokens := data.totalTokenCount.getD 0 }

/-- The outputs of parts, the first of which is at a position. -/
def partOutputs : ℕ → List Part → List OutputItem
  | _, [] => []
  | index, part :: rest => (part.output rendering index).toList ++ partOutputs (index + 1) rest

def parseResponse (data : GenerateContentResponse) : Response :=
  { outputs := partOutputs rendering 0 (data.candidates.head?.getD [])
    usage := data.usageMetadata.usage }

end Gemini

def Response.text (response : Response) : String :=
  "\n".intercalate ((response.outputs.map OutputItem.textOf).filter (· ≠ ""))

/-- `BaseAdapter.generate_stream`: the chunks of an adapter that does not stream. -/
def Response.chunks (response : Response) : List StreamChunk :=
  [{ delta := response.text
     outputs := response.outputs
     finishReason := some "stop"
     usage := some response.usage }]

end Sico.LlmHubs

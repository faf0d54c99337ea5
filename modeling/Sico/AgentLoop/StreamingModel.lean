import Sico.AgentLoop.Identifiers
import Sico.LlmHubs.SynthesizedIDs

/-! # The streaming model of the agent loop

How the chunks of a provider become one turn of the model: texts are passed on as they come,
function calls are gathered, and the turn is a call, a final answer, or an invalid action if
there was more than one call. The request to the provider is left out but for the names under
which it tells the tools.
-/

namespace Sico.AgentLoop

open Foundation LlmHubs

/-- `HubStreamingAgentLLM`, with the library functions it uses: the hexadecimal SHA-256
digest of a text and `json.loads`. -/
structure HubStreamingAgentLLM where
  model : String
  sha256 : String → String
  loads : String → Option Json

namespace HubStreamingAgentLLM

variable (llm : HubStreamingAgentLLM)

def wireName (capabilityID : String) : String :=
  "cap_" ++ String.ofList ((llm.sha256 capabilityID).toList.take 24)

/-- The tool told under a name: the last of several. -/
def capabilityByWireName (tools : List AgentToolDescriptor) (wireName : String) : Option String :=
  (tools.reverse.find? fun tool => llm.wireName tool.toolID = wireName).map AgentToolDescriptor.toolID

/-- The arguments of a call, none unless the text is that of a mapping. -/
def parsedArguments (arguments : String) : Arguments :=
  match llm.loads (if arguments = "" then "\x7b\x7d" else arguments) with
  | some (.obj members) => members
  | _ => []

def capabilityCall (tools : List AgentToolDescriptor) (wireName callID arguments : String) :
    CapabilityCall :=
  match llm.capabilityByWireName tools wireName with
  | none => { capability := wireName, callID }
  | some capability =>
      if capability = "" then { capability := wireName, callID }
      else { capability, args := llm.parsedArguments arguments, callID }

/-- The local variables of `stream_turn` that live across chunks. -/
structure Turn where
  textParts : List String := []
  capabilityCalls : List CapabilityCall := []
  usage : TokenUsage := {}

/-- An output of a chunk whose own text is given. -/
def receiveOutput (tools : List AgentToolDescriptor) (delta : String) (turn : Turn) :
    OutputItem → List AgentModelStreamItem × Turn
  | .text content annotations =>
      if content ≠ "" ∧ delta = "" then
        ([.delta { type := .text, text := content, metadata := [("annotations", .arr annotations)] }],
          { turn with textParts := turn.textParts ++ [content] })
      else if annotations ≠ [] then
        ([.delta { type := .text, metadata := [("annotations", .arr annotations)] }], turn)
      else
        ([], turn)
  | .functionCall callID name arguments =>
      ([], { turn with
        capabilityCalls := turn.capabilityCalls ++ [llm.capabilityCall tools name callID arguments] })
  | .refusal content =>
      if content ≠ "" then
        ([.delta { type := .text, text := content, metadata := [("refusal", .bool true)] }],
          { turn with textParts := turn.textParts ++ [content] })
      else
        ([], turn)
  | .webSearchCall _ _ => ([], turn)
  | .computerCall _ _ => ([], turn)

def receiveOutputs (tools : List AgentToolDescriptor) (delta : String) :
    List OutputItem → Turn → List AgentModelStreamItem × Turn
  | [], turn => ([], turn)
  | output :: rest, turn =>
      let (items, turn) := llm.receiveOutput tools delta turn output
      let (later, turn) := receiveOutputs tools delta rest turn
      (items ++ later, turn)

/-- The usage of a chunk replaces that of the chunks before. -/
def usageOf (usage : TokenUsage) : Option Usage → TokenUsage
  | none => usage
  | some given =>
      { inputTokens := given.promptTokens
        outputTokens := given.completionTokens
        totalTokens := given.totalTokens }

def receiveChunk (tools : List AgentToolDescriptor) (chunk : StreamChunk) (turn : Turn) :
    List AgentModelStreamItem × Turn :=
  let started : List AgentModelStreamItem × Turn :=
    if chunk.delta ≠ "" then
      ([.delta { type := .text, text := chunk.delta }],
        { turn with textParts := turn.textParts ++ [chunk.delta] })
    else
      ([], turn)
  let (items, turn) := llm.receiveOutputs tools chunk.delta chunk.outputs started.2
  (started.1 ++ items, { turn with usage := usageOf turn.usage chunk.usage })

def receiveChunks (tools : List AgentToolDescriptor) :
    List StreamChunk → Turn → List AgentModelStreamItem × Turn
  | [], turn => ([], turn)
  | chunk :: rest, turn =>
      let (items, turn) := llm.receiveChunk tools chunk turn
      let (later, turn) := receiveChunks tools rest turn
      (items ++ later, turn)

/-- The action of a turn, by the calls and the texts of all chunks. -/
def Turn.action (turn : Turn) : AgentAction :=
  match turn.capabilityCalls with
  | [] => .answer { summary := strip (String.join turn.textParts), output := String.join turn.textParts }
  | [call] => .call call
  | _ => .invalid { reason := "parallel capability calls are not supported" }

/-- What a turn streams, by the chunks of the provider. -/
def streamTurn (state : AgentModelState) (chunks : List StreamChunk) : List AgentModelStreamItem :=
  let (items, turn) := llm.receiveChunks state.tools chunks {}
  items ++ [AgentModelStreamItem.turn { action := turn.action, usage := turn.usage, model := llm.model }]

section Calls

variable (tools : List AgentToolDescriptor)

def callOf : OutputItem → Option CapabilityCall
  | .functionCall callID name arguments => some (llm.capabilityCall tools name callID arguments)
  | _ => none

theorem receiveOutput_calls (delta : String) (turn : Turn) (output : OutputItem) :
    (llm.receiveOutput tools delta turn output).2.capabilityCalls =
      turn.capabilityCalls ++ (llm.callOf tools output).toList := by
  cases output with
  | text content annotations =>
      rw [receiveOutput]
      split
      · exact (List.append_nil _).symm
      · split <;> exact (List.append_nil _).symm
  | functionCall callID name arguments => rfl
  | refusal content =>
      rw [receiveOutput]
      split <;> exact (List.append_nil _).symm
  | webSearchCall callID action => exact (List.append_nil _).symm
  | computerCall callID actions => exact (List.append_nil _).symm

theorem receiveOutputs_calls (delta : String) (outputs : List OutputItem) (turn : Turn) :
    (llm.receiveOutputs tools delta outputs turn).2.capabilityCalls =
      turn.capabilityCalls ++ outputs.filterMap (llm.callOf tools) := by
  induction outputs generalizing turn with
  | nil => exact (List.append_nil _).symm
  | cons output rest ih =>
      rw [receiveOutputs]
      refine (ih _).trans ?_
      rw [receiveOutput_calls, List.append_assoc]
      cases asked : llm.callOf tools output <;> simp [asked]

theorem receiveChunk_calls (chunk : StreamChunk) (turn : Turn) :
    (llm.receiveChunk tools chunk turn).2.capabilityCalls =
      turn.capabilityCalls ++ chunk.outputs.filterMap (llm.callOf tools) := by
  rw [receiveChunk]
  refine (receiveOutputs_calls llm tools _ _ _).trans ?_
  split <;> rfl

theorem receiveChunks_calls (chunks : List StreamChunk) (turn : Turn) :
    (llm.receiveChunks tools chunks turn).2.capabilityCalls =
      turn.capabilityCalls ++
        (chunks.flatMap StreamChunk.outputs).filterMap (llm.callOf tools) := by
  induction chunks generalizing turn with
  | nil => exact (List.append_nil _).symm
  | cons chunk rest ih =>
      rw [receiveChunks]
      refine (ih _).trans ?_
      rw [receiveChunk_calls, List.flatMap_cons, List.filterMap_append, List.append_assoc]

def turnOf : AgentModelStreamItem → Option AgentModelTurn
  | .turn turn => some turn
  | .delta _ => none

theorem receiveOutput_deltas (delta : String) (turn : Turn) (output : OutputItem) :
    (llm.receiveOutput tools delta turn output).1.filterMap turnOf = [] := by
  cases output with
  | text content annotations =>
      rw [receiveOutput]
      split
      · rfl
      · split <;> rfl
  | refusal content =>
      rw [receiveOutput]
      split <;> rfl
  | functionCall callID name arguments => rfl
  | webSearchCall callID action => rfl
  | computerCall callID actions => rfl

theorem receiveOutputs_deltas (delta : String) (outputs : List OutputItem) (turn : Turn) :
    (llm.receiveOutputs tools delta outputs turn).1.filterMap turnOf = [] := by
  induction outputs generalizing turn with
  | nil => rfl
  | cons output rest ih =>
      rw [receiveOutputs, List.filterMap_append, receiveOutput_deltas]
      exact ih _

theorem receiveChunks_deltas (chunks : List StreamChunk) (turn : Turn) :
    (llm.receiveChunks tools chunks turn).1.filterMap turnOf = [] := by
  induction chunks generalizing turn with
  | nil => rfl
  | cons chunk rest ih =>
      have started : (llm.receiveChunk tools chunk turn).1.filterMap turnOf = [] := by
        rw [receiveChunk, List.filterMap_append]
        refine (congrArg (_ ++ ·) (receiveOutputs_deltas llm tools _ _ _)).trans ?_
        split <;> rfl
      rw [receiveChunks, List.filterMap_append, started]
      exact ih _

theorem callOf_callID (outputs : List OutputItem) :
    (outputs.filterMap (llm.callOf tools)).map CapabilityCall.callID =
      outputs.filterMap OutputItem.functionCallID := by
  have single (output : OutputItem) :
      (llm.callOf tools output).map CapabilityCall.callID = output.functionCallID := by
    cases output with
    | functionCall callID name arguments =>
        simp only [callOf, capabilityCall, OutputItem.functionCallID, Option.map_some]
        split
        · rfl
        · split <;> rfl
    | text content annotations => rfl
    | refusal content => rfl
    | webSearchCall callID action => rfl
    | computerCall callID actions => rfl
  rw [List.map_filterMap]
  exact congrArg (List.filterMap · outputs) (funext single)

end Calls

theorem streamTurn_call (state : AgentModelState) (chunks : List StreamChunk) {callID : String}
    (single : (chunks.flatMap StreamChunk.outputs).filterMap OutputItem.functionCallID = [callID]) :
    ∃ turn call, (llm.streamTurn state chunks).filterMap turnOf = [turn] ∧
      turn.action = .call call ∧ call.callID = callID := by
  have calls := receiveChunks_calls llm state.tools chunks {}
  have ids := llm.callOf_callID state.tools (chunks.flatMap StreamChunk.outputs)
  rw [single] at ids
  obtain ⟨call, asked, named⟩ := List.map_eq_singleton_iff.mp ids
  rw [asked] at calls
  let received := (llm.receiveChunks state.tools chunks {}).2
  refine ⟨{ action := received.action, usage := received.usage, model := llm.model }, call, ?_, ?_,
    named⟩
  · rw [streamTurn, List.filterMap_append, receiveChunks_deltas]
    rfl
  · simp only [received, Turn.action, calls]
    rfl

end HubStreamingAgentLLM

end Sico.AgentLoop

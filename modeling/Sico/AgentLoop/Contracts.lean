import Mathlib.Algebra.Group.Defs
import Sico.Foundation.Dialogue
import Sico.Foundation.Json

/-! # Contracts of the agent loop

The inputs of an agent loop engine, the events it emits, and its surroundings: the model,
the tools, the two controllers and the completion policy. An engine is a program that
asks them and emits events, one exchange at a time. A call may raise, and one that has not
come back yet is pending, so that a log is all that was seen of a run up to some moment.
Durations are left out of turns and events.
-/

namespace Sico.AgentLoop

open Foundation

/-- A mapping with text keys, in the order of its insertions. -/
abbrev Arguments : Type := List (String × Json)

/-- `AgentContent.type`. -/
inductive ContentType where
  | text
  | json
  | image
  | artifact
  deriving Repr, DecidableEq

structure AgentContent where
  type : ContentType
  text : String := ""
  uri : String := ""
  mimeType : String := ""
  metadata : Arguments := []

inductive Role where
  | system
  | user
  | assistant
  | tool
  deriving Repr, DecidableEq

structure AgentMessage where
  role : Role
  contents : List AgentContent
  name : String := ""
  callID : String := ""

structure AgentTask where
  title : String
  instructions : String := ""
  arguments : Arguments := []

structure AgentContextBlock where
  source : String
  content : String
  title : String := ""
  contents : List AgentContent := []
  metadata : Arguments := []

structure AgentToolDescriptor where
  toolID : String
  description : String := ""
  parameterSchema : Arguments := []

structure AgentLoopLimits where
  maxModelTurns : ℤ
  maxToolCalls : Option ℤ := none
  allowParallelToolCalls : Bool := false
  stallLimit : ℤ := 3

structure AgentLoopRequest where
  engineRunID : String
  task : AgentTask
  systemPrompt : String
  tools : List AgentToolDescriptor
  limits : AgentLoopLimits
  context : List AgentContextBlock := []
  initialMessages : List AgentMessage := []
  providerTools : List Arguments := []

@[ext]
structure TokenUsage where
  inputTokens : ℤ := 0
  outputTokens : ℤ := 0
  totalTokens : ℤ := 0
  cachedInputTokens : ℤ := 0
  reasoningTokens : ℤ := 0
  deriving Repr, DecidableEq

/-- `TokenUsage.__add__`. -/
instance : Add TokenUsage where
  add usage other :=
    { inputTokens := usage.inputTokens + other.inputTokens
      outputTokens := usage.outputTokens + other.outputTokens
      totalTokens := usage.totalTokens + other.totalTokens
      cachedInputTokens := usage.cachedInputTokens + other.cachedInputTokens
      reasoningTokens := usage.reasoningTokens + other.reasoningTokens }

instance : Zero TokenUsage where
  zero := {}

structure CapabilityCall where
  capability : String
  args : Arguments := []
  callID : String := ""

structure FinalAnswer where
  summary : String
  output : String := ""

structure InvalidAction where
  reason : String
  capability : String := ""

inductive AgentAction where
  | call (call : CapabilityCall)
  | answer (answer : FinalAnswer)
  | invalid (action : InvalidAction)

structure Observation where
  capability : String
  ok : Bool
  content : String := ""
  callID : String := ""
  arguments : Option Arguments := none
  runID : String := ""
  status : String := ""
  summary : String := ""
  errorClass : String := ""
  errorMessage : String := ""
  artifacts : List String := []
  contents : List AgentContent := []
  usage : TokenUsage := 0

structure PreparedModelContext where
  blocks : List AgentContextBlock
  history : Option (List Observation) := none

structure AgentLoopSnapshot where
  request : AgentLoopRequest
  turn : ℤ
  history : List Observation
  usage : TokenUsage
  toolCallCount : ℤ
  toolsetRevision : ℤ

structure AgentModelState where
  task : AgentTask
  tools : List AgentToolDescriptor
  turn : ℤ
  maxModelTurns : ℤ
  systemPrompt : String
  context : List AgentContextBlock
  history : List Observation
  initialMessages : List AgentMessage
  toolsetRevision : ℤ
  providerTools : List Arguments

structure AgentModelTurn where
  action : AgentAction
  usage : TokenUsage := 0
  model : String := ""

inductive AgentModelStreamItem where
  | delta (content : AgentContent)
  | turn (turn : AgentModelTurn)

/-- A tool and the callback it is bound to, by which the surroundings know it. -/
structure BoundAgentTool where
  descriptor : AgentToolDescriptor
  invoke : ℕ

structure AgentToolsetSnapshot where
  revision : ℤ
  tools : List BoundAgentTool

def AgentToolsetSnapshot.descriptors (toolset : AgentToolsetSnapshot) : List AgentToolDescriptor :=
  toolset.tools.map BoundAgentTool.descriptor

inductive Outcome where
  | accept
  | «continue»
  | reject
  deriving Repr, DecidableEq

structure CompletionDirective where
  outcome : Outcome
  reason : String := ""
  deriving Repr, DecidableEq

/-- `LoopFinishedEvent.error_kind`, with nothing for the empty text. -/
inductive ErrorKind where
  | none
  | policyDenied
  | transient
  | internal
  deriving Repr, DecidableEq

structure LoopFinishedEvent where
  completed : Bool
  summary : String
  usage : TokenUsage
  output : String := ""
  errorKind : ErrorKind := .none
  modelTurns : ℤ := 0
  toolCalls : ℤ := 0
  deriving Repr, DecidableEq

inductive AgentLoopEvent where
  | modelTurnStarted (turn : ℤ)
  | modelTurnCompleted (turn : ℤ) (usage : TokenUsage) (model : String)
  | modelOutputDelta (turn : ℤ) (content : AgentContent)
  | toolCallRequested (turn : ℤ) (call : CapabilityCall)
  | toolCallCompleted (turn : ℤ) (call : CapabilityCall) (observation : Observation)
  | completionProposed (turn : ℤ) (proposal : FinalAnswer) (directive : CompletionDirective)
  | contextPrepared (turn : ℤ) (blockCount : ℕ)
  | loopFinished (event : LoopFinishedEvent)

/-- Why a run has no more to show: a call raised, or has not come back. -/
inductive Stop where
  | raised (exception : String)
  | pending
  deriving Repr, DecidableEq

/-- What a model streams, and how the stream stands behind it. -/
structure ModelStream where
  items : List AgentModelStreamItem
  ending : Except Stop Unit

/-- What an engine asks of its surroundings, and the events it emits. -/
inductive Request where
  | emit (event : AgentLoopEvent)
  | snapshot
  | beforeModel (snapshot : AgentLoopSnapshot)
  | completeTurn (state : AgentModelState)
  | streamTurn (state : AgentModelState)
  | evaluateCompletion (proposal : FinalAnswer) (snapshot : AgentLoopSnapshot)
  | invoke (tool : BoundAgentTool) (call : CapabilityCall) (snapshot : AgentLoopSnapshot)

def Request.Reply : Request → Type
  | .emit _ => Unit
  | .snapshot => Except Stop AgentToolsetSnapshot
  | .beforeModel _ => Except Stop PreparedModelContext
  | .completeTurn _ => Except Stop AgentModelTurn
  | .streamTurn _ => ModelStream
  | .evaluateCompletion _ _ => Except Stop CompletionDirective
  | .invoke _ _ _ => Except Stop Observation

abbrev Program : Type → Type := ExceptT Stop (Interaction Request Request.Reply)

abbrev Log : Type := List (Interaction.Exchange Request Request.Reply)

/-- The surroundings of an engine: every call is answered by what was called before. -/
abbrev Surroundings : Type := Interaction.Behaviour Request Request.Reply

/-- The parts of an engine's input that decide which calls it makes: whether the model
streams, whether there is a tool controller, and the tools it was given. -/
structure Equipment where
  streams : Bool
  controlled : Bool
  tools : List BoundAgentTool

section Calls

def emit (event : AgentLoopEvent) : Program Unit :=
  ExceptT.mk (.ask (.emit event) fun _ => .done (.ok ()))

def beforeModel (snapshot : AgentLoopSnapshot) : Program PreparedModelContext :=
  ExceptT.mk (.ask (.beforeModel snapshot) .done)

def evaluateCompletion (proposal : FinalAnswer) (snapshot : AgentLoopSnapshot) :
    Program CompletionDirective :=
  ExceptT.mk (.ask (.evaluateCompletion proposal snapshot) .done)

def BoundAgentTool.call (tool : BoundAgentTool) (call : CapabilityCall)
    (snapshot : AgentLoopSnapshot) : Program Observation :=
  ExceptT.mk (.ask (.invoke tool call snapshot) .done)

def currentToolset (equipment : Equipment) : Program AgentToolsetSnapshot :=
  if equipment.controlled then ExceptT.mk (.ask .snapshot .done)
  else pure ⟨0, equipment.tools⟩

def streamModelTurn (equipment : Equipment) (state : AgentModelState) : Program ModelStream :=
  if equipment.streams then
    ExceptT.mk (.ask (.streamTurn state) fun stream => .done (.ok stream))
  else do
    let turn ← (ExceptT.mk (.ask (.completeTurn state) .done) : Program AgentModelTurn)
    return ⟨[.turn turn], .ok ()⟩

/-- The loop over the items of a stream: each delta is emitted, and the stream must hold
exactly one turn. -/
def receiveTurn (turn : ℤ) (ending : Except Stop Unit) :
    Option AgentModelTurn → List AgentModelStreamItem → Program AgentModelTurn
  | received, .delta content :: rest => do
      emit (.modelOutputDelta turn content)
      receiveTurn turn ending received rest
  | none, .turn modelTurn :: rest => receiveTurn turn ending (some modelTurn) rest
  | some _, .turn _ :: _ =>
      throw (.raised "RuntimeError: agent model stream emitted more than one terminal turn")
  | received, [] =>
      match ending, received with
      | .error stop, _ => throw stop
      | .ok _, some modelTurn => pure modelTurn
      | .ok _, none =>
          throw (.raised "RuntimeError: agent model stream ended without a terminal turn")

end Calls

end Sico.AgentLoop

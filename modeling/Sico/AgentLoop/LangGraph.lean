import Sico.AgentLoop.Identifiers

/-! # The LangGraph engine

The loop as a graph of nodes over one state. A node returns updates, the framework merges
them into the state and runs the node that the state routes to, up to its recursion limit.
The final event is built by the node that decides to stop and emitted by the last node.
-/

namespace Sico.AgentLoop

namespace LangGraphAgentLoopEngine

structure GraphState where
  request : AgentLoopRequest
  turn : ℤ
  history : List Observation
  usage : TokenUsage
  toolCalls : ℤ
  usedCallIDs : Finset String
  stallSignature : String
  stallCount : ℤ
  action : Option AgentAction
  terminal : Option LoopFinishedEvent
  toolsetRevision : ℤ

/-- What a node returns: the entries of the state that it sets. -/
structure Updates where
  turn : Option ℤ := none
  history : Option (List Observation) := none
  usage : Option TokenUsage := none
  toolCalls : Option ℤ := none
  usedCallIDs : Option (Finset String) := none
  stallSignature : Option String := none
  stallCount : Option ℤ := none
  action : Option (Option AgentAction) := none
  terminal : Option (Option LoopFinishedEvent) := none
  toolsetRevision : Option ℤ := none

def GraphState.merge (state : GraphState) (updates : Updates) : GraphState :=
  { request := state.request
    turn := updates.turn.getD state.turn
    history := updates.history.getD state.history
    usage := updates.usage.getD state.usage
    toolCalls := updates.toolCalls.getD state.toolCalls
    usedCallIDs := updates.usedCallIDs.getD state.usedCallIDs
    stallSignature := updates.stallSignature.getD state.stallSignature
    stallCount := updates.stallCount.getD state.stallCount
    action := updates.action.getD state.action
    terminal := updates.terminal.getD state.terminal
    toolsetRevision := updates.toolsetRevision.getD state.toolsetRevision }

def snapshot (state : GraphState) (toolsetRevision : Option ℤ) : AgentLoopSnapshot :=
  ⟨state.request, state.turn, state.history, state.usage, state.toolCalls,
    toolsetRevision.getD state.toolsetRevision⟩

def failedTerminal (state : GraphState) (summary : String) (errorKind : ErrorKind) :
    LoopFinishedEvent :=
  { completed := false
    summary
    errorKind
    usage := state.usage
    modelTurns := state.turn
    toolCalls := state.toolCalls }

def turnBudgetExhausted (request : AgentLoopRequest) (usage : TokenUsage) (toolCalls : ℤ) :
    LoopFinishedEvent :=
  { completed := false
    summary := "Agent reached its model-turn budget (" ++ toString request.limits.maxModelTurns ++
      ") without a final answer."
    errorKind := .transient
    usage
    modelTurns := request.limits.maxModelTurns
    toolCalls }

def nextStall (state : GraphState) (signature : String) : String × ℤ :=
  if signature ≠ state.stallSignature then (signature, 1) else (signature, state.stallCount + 1)

/-- `_continue_or_stop`. The final event takes the usage of the state it is given. -/
def continueOrStop (state : GraphState) (history : List Observation) (signature : String)
    (toolCalls : Option ℤ) : Updates :=
  let nextToolCalls := toolCalls.getD state.toolCalls
  let (stallSignature, stallCount) := nextStall state signature
  let updates : Updates :=
    { history := some history
      toolCalls := some nextToolCalls
      stallSignature := some stallSignature
      stallCount := some stallCount
      action := some none }
  let stallLimit := max 1 state.request.limits.stallLimit
  if stallLimit ≤ stallCount then
    { updates with terminal := some (some (stalled stallLimit state.usage state.turn nextToolCalls)) }
  else if state.request.limits.maxModelTurns ≤ state.turn then
    { updates with
      terminal := some (some (turnBudgetExhausted state.request state.usage nextToolCalls)) }
  else
    { updates with turn := some (state.turn + 1) }

variable (rendering : Rendering) (equipment : Equipment)

def modelNode (state : GraphState) : Program Updates := do
  let toolset ← currentToolset equipment
  let prepared ← beforeModel (snapshot state (some toolset.revision))
  emit (.contextPrepared state.turn prepared.blocks.length)
  emit (.modelTurnStarted state.turn)
  let stream ← streamModelTurn equipment
    { task := state.request.task
      tools := toolset.descriptors
      turn := state.turn
      maxModelTurns := state.request.limits.maxModelTurns
      systemPrompt := state.request.systemPrompt
      context := prepared.blocks
      history := prepared.history.getD state.history
      initialMessages := state.request.initialMessages
      toolsetRevision := toolset.revision
      providerTools := state.request.providerTools }
  let modelTurn ← receiveTurn state.turn stream.ending none stream.items
  emit (.modelTurnCompleted state.turn modelTurn.usage modelTurn.model)
  return {
    action := some (some modelTurn.action)
    usage := some (state.usage + modelTurn.usage)
    toolsetRevision := some toolset.revision }

def completionNode (state : GraphState) : Program Updates := do
  match state.action with
  | some (.answer answer) =>
      let directive ← evaluateCompletion answer (snapshot state none)
      emit (.completionProposed state.turn answer directive)
      if directive.outcome = .accept then
        return {
          terminal := some (some
            { completed := true
              summary := answer.summary
              output := answer.output
              usage := state.usage
              modelTurns := state.turn
              toolCalls := state.toolCalls }) }
      let reason := directive.reasonOrDefault
      if directive.outcome = .reject then
        return {
          terminal := some (some
            { completed := false
              summary := reason
              errorKind := .policyDenied
              usage := state.usage
              modelTurns := state.turn
              toolCalls := state.toolCalls }) }
      let history :=
        state.history ++ [failedObservation "" (callID state.turn 1) reason "policy_deny"]
      return continueOrStop state history (signature rendering "final_answer" [] reason) none
  | _ => throw (.raised "TypeError: completion node requires a FinalAnswer")

/-- `_tool_node`. The observation is charged behind `_continue_or_stop`. -/
def toolNode (state : GraphState) : Program Updates := do
  match state.action with
  | some (.call action) =>
      let some capability := normalizeCapabilityID action.capability | return {
        terminal := some (some (failedTerminal state
          ("Agent requested disallowed capability " ++ rendering.repr action.capability ++ ".")
          .policyDenied)) }
      let call : CapabilityCall :=
        { action with capability, callID := normalizedCallID rendering action.callID state.turn 1 }
      if call.callID ∈ state.usedCallIDs then
        return {
          terminal := some (some (failedTerminal state
            ("Agent emitted duplicate capability call id " ++ rendering.repr call.callID ++ ".")
            .internal)) }
      let usedCallIDs := insert call.callID state.usedCallIDs
      let toolset ← currentToolset equipment
      let some tool := boundTool toolset.tools call.capability | return {
        usedCallIDs := some usedCallIDs
        terminal := some (some (failedTerminal state
          ("Agent requested disallowed capability " ++ rendering.repr call.capability ++ ".")
          .policyDenied)) }
      if let some maxToolCalls := state.request.limits.maxToolCalls then
        if maxToolCalls ≤ state.toolCalls then
          return {
            usedCallIDs := some usedCallIDs
            terminal := some (some (failedTerminal state
              ("Agent reached its capability-call budget (" ++ toString maxToolCalls ++ ").")
              .transient)) }
      emit (.toolCallRequested state.turn call)
      let observation ← tool.call call (snapshot state (some toolset.revision))
      let observation := { observation with arguments := some call.args }
      let toolCalls := state.toolCalls + 1
      let history := state.history ++ [observation]
      emit (.toolCallCompleted state.turn call observation)
      let updates := continueOrStop state history
        (signature rendering call.capability call.args "") (some toolCalls)
      return { updates with
        usedCallIDs := some usedCallIDs
        usage := some (state.usage + observation.usage) }
  | _ => throw (.raised "TypeError: tool node requires a CapabilityCall")

def invalidNode (state : GraphState) : Program Updates := do
  match state.action with
  | some (.invalid action) =>
      let message := "Could not decode the requested action: " ++ action.reason
      let history := state.history ++
        [failedObservation action.capability (callID state.turn 1) message "internal"]
      return continueOrStop state history
        (signature rendering action.capability [] action.reason) none
  | _ => throw (.raised "TypeError: invalid node requires an InvalidAction")

def finishNode (state : GraphState) : Program Updates := do
  match state.terminal with
  | some terminal =>
      emit (.loopFinished terminal)
      return {}
  | none => throw (.raised "RuntimeError: agent loop reached finish without a terminal event")

inductive Node where
  | model
  | tool
  | completion
  | invalid
  | finish
  deriving Repr, DecidableEq

def Node.perform : Node → GraphState → Program Updates
  | .model => modelNode equipment
  | .tool => toolNode rendering equipment
  | .completion => completionNode rendering
  | .invalid => invalidNode rendering
  | .finish => finishNode

def routeAction (state : GraphState) : Node :=
  match state.action with
  | some (.answer _) => .completion
  | some (.invalid _) => .invalid
  | _ => .tool

def routeAfterAction (state : GraphState) : Node := if state.terminal.isSome then .finish else .model

/-- The edges of the graph, with nothing for its end. -/
def Node.route : Node → GraphState → Option Node
  | .model, state => some (routeAction state)
  | .tool, state | .completion, state | .invalid, state => some (routeAfterAction state)
  | .finish, _ => none

/-- The framework: the nodes in the order they are routed, with the steps that the
recursion limit leaves. -/
def stream : ℕ → Node → GraphState → Program Unit
  | 0, _, _ => throw (.raised "GraphRecursionError")
  | remaining + 1, node, state => do
      let updates ← node.perform rendering equipment state
      let state := state.merge updates
      match node.route state with
      | some next => stream remaining next state
      | none => return ()

def initialState (request : AgentLoopRequest) : GraphState :=
  ⟨request, 1, [], 0, 0, ∅, "", 0, none, none, 0⟩

def run (request : AgentLoopRequest) : Program Unit :=
  if request.limits.maxModelTurns ≤ 0 then
    emit (.loopFinished (turnBudgetExhausted request 0 0))
  else
    stream rendering equipment (max 10 (request.limits.maxModelTurns * 3 + 3)).toNat .model
      (initialState request)

end LangGraphAgentLoopEngine

end Sico.AgentLoop

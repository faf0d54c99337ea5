import Sico.AgentLoop.Identifiers

/-! # The Agent Framework engine

The loop as executors that hand an immutable state on as a message. The framework delivers
each message along the edge whose condition holds, one executor in each iteration, up to
its cap on iterations.
-/

namespace Sico.AgentLoop

open Foundation

namespace MafAgentLoopEngine

structure LoopState where
  request : AgentLoopRequest
  turn : ℤ := 1
  history : List Observation := []
  usage : TokenUsage := 0
  toolCalls : ℤ := 0
  usedCallIDs : Finset String := ∅
  stallSignature : String := ""
  stallCount : ℤ := 0
  action : Option AgentAction := none
  terminal : Option LoopFinishedEvent := none
  toolsetRevision : ℤ := 0

def snapshot (state : LoopState) (toolsetRevision : Option ℤ) : AgentLoopSnapshot :=
  ⟨state.request, state.turn, state.history, state.usage, state.toolCalls,
    toolsetRevision.getD state.toolsetRevision⟩

def failedTerminal (state : LoopState) (summary : String) (errorKind : ErrorKind) :
    LoopFinishedEvent :=
  { completed := false
    summary
    errorKind
    usage := state.usage
    modelTurns := state.turn
    toolCalls := state.toolCalls }

def turnBudgetExhausted (request : AgentLoopRequest) (usage : TokenUsage) (toolCalls : ℤ) :
    LoopFinishedEvent :=
  { completed := false
    summary := "Agent reached its model-turn budget (" ++ toString request.limits.maxModelTurns ++
      ") without a final answer."
    errorKind := .transient
    usage
    modelTurns := request.limits.maxModelTurns
    toolCalls }

def nextStall (state : LoopState) (signature : String) : String × ℤ :=
  if signature ≠ state.stallSignature then (signature, 1) else (signature, state.stallCount + 1)

def continueOrStop (state : LoopState) (history : List Observation) (signature : String)
    (toolCalls : Option ℤ) : LoopState :=
  let nextToolCalls := toolCalls.getD state.toolCalls
  let (stallSignature, stallCount) := nextStall state signature
  let stallLimit := max 1 state.request.limits.stallLimit
  let terminal :=
    if stallLimit ≤ stallCount then
      some (stalled stallLimit state.usage state.turn nextToolCalls)
    else if state.request.limits.maxModelTurns ≤ state.turn then
      some (turnBudgetExhausted state.request state.usage nextToolCalls)
    else
      none
  { state with
    turn := if terminal.isSome then state.turn else state.turn + 1
    history
    toolCalls := nextToolCalls
    stallSignature
    stallCount
    action := none
    terminal }

variable (rendering : Rendering) (equipment : Equipment)

/-- `_ModelExecutor.complete_turn`, with the message it sends. -/
def completeTurn (state : LoopState) : Program LoopState := do
  let toolset ← currentToolset equipment
  let prepared ← beforeModel (snapshot state (some toolset.revision))
  emit (.contextPrepared state.turn prepared.blocks.length)
  emit (.modelTurnStarted state.turn)
  let stream ← streamModelTurn equipment
    { task := state.request.task
      tools := toolset.descriptors
      turn := state.turn
      maxModelTurns := state.request.limits.maxModelTurns
      systemPrompt := state.request.systemPrompt
      context := prepared.blocks
      history := prepared.history.getD state.history
      initialMessages := state.request.initialMessages
      toolsetRevision := toolset.revision
      providerTools := state.request.providerTools }
  let modelTurn ← receiveTurn state.turn stream.ending none stream.items
  emit (.modelTurnCompleted state.turn modelTurn.usage modelTurn.model)
  return { state with
    action := some modelTurn.action
    usage := state.usage + modelTurn.usage
    toolsetRevision := toolset.revision }

def complete (state : LoopState) (action : FinalAnswer) : Program LoopState := do
  let directive ← evaluateCompletion action (snapshot state none)
  emit (.completionProposed state.turn action directive)
  if directive.outcome = .accept then
    return { state with
      terminal := some
        { completed := true
          summary := action.summary
          output := action.output
          usage := state.usage
          modelTurns := state.turn
          toolCalls := state.toolCalls } }
  let reason := directive.reasonOrDefault
  if directive.outcome = .reject then
    return { state with terminal := some (failedTerminal state reason .policyDenied) }
  let history := state.history ++ [failedObservation "" (callID state.turn 1) reason "policy_deny"]
  return continueOrStop state history (signature rendering "final_answer" [] reason) none

def invalid (state : LoopState) (action : InvalidAction) : LoopState :=
  let message := "Could not decode the requested action: " ++ action.reason
  let history := state.history ++
    [failedObservation action.capability (callID state.turn 1) message "internal"]
  continueOrStop state history (signature rendering action.capability [] action.reason) none

/-- `_call_tool`. The observation is charged before `_continue_or_stop`. -/
def callTool (state : LoopState) (action : CapabilityCall) : Program LoopState := do
  let some capability := normalizeCapabilityID action.capability | return { state with
    terminal := some (failedTerminal state
      ("Agent requested disallowed capability " ++ rendering.repr action.capability ++ ".")
      .policyDenied) }
  let call : CapabilityCall :=
    { action with capability, callID := normalizedCallID rendering action.callID state.turn 1 }
  if call.callID ∈ state.usedCallIDs then
    return { state with
      terminal := some (failedTerminal state
        ("Agent emitted duplicate capability call id " ++ rendering.repr call.callID ++ ".")
        .internal) }
  let usedCallIDs := insert call.callID state.usedCallIDs
  let toolset ← currentToolset equipment
  let some tool := boundTool toolset.tools call.capability | return { state with
    usedCallIDs
    terminal := some (failedTerminal state
      ("Agent requested disallowed capability " ++ rendering.repr call.capability ++ ".")
      .policyDenied) }
  if let some maxToolCalls := state.request.limits.maxToolCalls then
    if maxToolCalls ≤ state.toolCalls then
      return { state with
        usedCallIDs
        terminal := some (failedTerminal state
          ("Agent reached its capability-call budget (" ++ toString maxToolCalls ++ ").")
          .transient) }
  emit (.toolCallRequested state.turn call)
  let observation ← tool.call call (snapshot state (some toolset.revision))
  let observation := { observation with arguments := some call.args }
  let toolCalls := state.toolCalls + 1
  emit (.toolCallCompleted state.turn call observation)
  let chargedState := { state with usage := state.usage + observation.usage }
  return { continueOrStop chargedState (state.history ++ [observation])
      (signature rendering call.capability call.args "") (some toolCalls) with usedCallIDs }

/-- `_ActionExecutor.apply_action`, with the message it sends. -/
def applyAction (state : LoopState) : Program LoopState :=
  match state.action with
  | some (.answer action) => complete rendering state action
  | some (.invalid action) => return invalid rendering state action
  | some (.call action) => callTool rendering equipment state action
  | none => throw (.raised "TypeError: action executor requires an AgentAction")

def finish (state : LoopState) : Program Unit :=
  match state.terminal with
  | some terminal => emit (.loopFinished terminal)
  | none => throw (.raised "RuntimeError: agent loop reached finish without a terminal event")

inductive Executor where
  | model
  | action
  | finish
  deriving Repr, DecidableEq

/-- An executor on a message, with the message it sends. -/
def Executor.handle : Executor → LoopState → Program (Option LoopState)
  | .model, state => return some (← completeTurn equipment state)
  | .action, state => return some (← applyAction rendering equipment state)
  | .finish, state => do
      MafAgentLoopEngine.finish state
      return none

/-- The edge whose condition holds of a message. -/
def Executor.target : Executor → LoopState → Option Executor
  | .model, _ => some .action
  | .action, state => if state.terminal.isNone then some .model else some .finish
  | .finish, _ => none

/-- The framework: one executor in each iteration, with the iterations that the cap leaves
and the number of those made. -/
def deliver : ℕ → ℕ → Executor → LoopState →
    Interaction Request Request.Reply (Except Stop Unit × ℕ)
  | 0, iterations, _, _ => return (.error (.raised "WorkflowConvergenceException"), iterations)
  | remaining + 1, iterations, executor, state => do
      match ← (executor.handle rendering equipment state).run with
      | .error stop => return (.error stop, iterations + 1)
      | .ok none => return (.ok (), iterations + 1)
      | .ok (some message) =>
          match executor.target message with
          | some next => deliver remaining (iterations + 1) next message
          | none => return (.ok (), iterations + 1)

def maxIterations (request : AgentLoopRequest) : ℤ := max 10 (request.limits.maxModelTurns * 2 + 3)

/-- `run`, with the number of iterations of the workflow. -/
def runCounted (request : AgentLoopRequest) :
    Interaction Request Request.Reply (Except Stop Unit × ℕ) :=
  if request.limits.maxModelTurns ≤ 0 then do
    let ending ← (emit (.loopFinished (turnBudgetExhausted request 0 0))).run
    return (ending, 0)
  else
    deliver rendering equipment (maxIterations request).toNat 0 .model { request }

def run (request : AgentLoopRequest) : Program Unit :=
  ExceptT.mk (Prod.fst <$> runCounted rendering equipment request)

end MafAgentLoopEngine

end Sico.AgentLoop

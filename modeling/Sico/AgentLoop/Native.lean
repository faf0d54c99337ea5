import Sico.AgentLoop.Identifiers

/-! # The native engine

One turn is one call of the model and at most one action. The engine keeps its state in
local variables, and every way out of the loop emits the final event by itself.
-/

namespace Sico.AgentLoop

open Foundation

structure StallDetector where
  limit : ℤ
  signature : String := ""
  count : ℤ := 0

/-- Recording a signature, and whether it has been repeated too often. -/
def StallDetector.record (detector : StallDetector) (signature : String) : Bool × StallDetector :=
  let count := if signature ≠ detector.signature then 1 else detector.count + 1
  (decide (detector.limit ≤ count), { detector with signature, count })

namespace NativeAgentLoopEngine

/-- The local variables of `run` that live across turns. -/
structure Locals where
  history : List Observation
  usage : TokenUsage
  toolCalls : ℤ
  usedCallIDs : Finset String
  stall : StallDetector

variable (rendering : Rendering) (equipment : Equipment) (request : AgentLoopRequest)

/-- A final event of a run that failed. -/
def failed (summary : String) (errorKind : ErrorKind) (usage : TokenUsage) (turn toolCalls : ℤ) :
    LoopFinishedEvent :=
  { completed := false, summary, errorKind, usage, modelTurns := turn, toolCalls }

/-- The body of the loop over turns: the variables for the next turn, or nothing when the
engine has returned. -/
def turnBody (turn : ℤ) (locals : Locals) : Program (Option Locals) := do
  let toolset ← currentToolset equipment
  let prepared ← beforeModel
    ⟨request, turn, locals.history, locals.usage, locals.toolCalls, toolset.revision⟩
  emit (.contextPrepared turn prepared.blocks.length)
  emit (.modelTurnStarted turn)
  let stream ← streamModelTurn equipment
    { task := request.task
      tools := toolset.descriptors
      turn
      maxModelTurns := request.limits.maxModelTurns
      systemPrompt := request.systemPrompt
      context := prepared.blocks
      history := prepared.history.getD locals.history
      initialMessages := request.initialMessages
      toolsetRevision := toolset.revision
      providerTools := request.providerTools }
  let modelTurn ← receiveTurn turn stream.ending none stream.items
  let usage := locals.usage + modelTurn.usage
  emit (.modelTurnCompleted turn modelTurn.usage modelTurn.model)
  match modelTurn.action with
  | .answer answer =>
      let directive ← evaluateCompletion answer
        ⟨request, turn, locals.history, usage, locals.toolCalls, toolset.revision⟩
      emit (.completionProposed turn answer directive)
      if directive.outcome = .accept then
        emit (.loopFinished
          { completed := true
            summary := answer.summary
            output := answer.output
            usage
            modelTurns := turn
            toolCalls := locals.toolCalls })
        return none
      let reason := directive.reasonOrDefault
      if directive.outcome = .reject then
        emit (.loopFinished (failed reason .policyDenied usage turn locals.toolCalls))
        return none
      let history := locals.history ++ [failedObservation "" (callID turn 1) reason "policy_deny"]
      let (repeated, stall) := locals.stall.record (signature rendering "final_answer" [] reason)
      if repeated then
        emit (.loopFinished (stalled stall.limit usage turn locals.toolCalls))
        return none
      return some { locals with history, usage, stall }
  | .invalid action =>
      let message := "Could not decode the requested action: " ++ action.reason
      let history := locals.history ++
        [failedObservation action.capability (callID turn 1) message "internal"]
      let (repeated, stall) :=
        locals.stall.record (signature rendering action.capability [] action.reason)
      if repeated then
        emit (.loopFinished (stalled stall.limit usage turn locals.toolCalls))
        return none
      return some { locals with history, usage, stall }
  | .call action =>
      let some capability := normalizeCapabilityID action.capability | do
        emit (.loopFinished (failed
          ("Agent requested disallowed capability " ++ rendering.repr action.capability ++ ".")
          .policyDenied usage turn locals.toolCalls))
        return none
      let call : CapabilityCall :=
        { action with capability, callID := normalizedCallID rendering action.callID turn 1 }
      if call.callID ∈ locals.usedCallIDs then
        emit (.loopFinished (failed
          ("Agent emitted duplicate capability call id " ++ rendering.repr call.callID ++ ".")
          .internal usage turn locals.toolCalls))
        return none
      let usedCallIDs := insert call.callID locals.usedCallIDs
      let invocationToolset ← currentToolset equipment
      let some tool := boundTool invocationToolset.tools call.capability | do
        emit (.loopFinished (failed
          ("Agent requested disallowed capability " ++ rendering.repr call.capability ++ ".")
          .policyDenied usage turn locals.toolCalls))
        return none
      if let some maxToolCalls := request.limits.maxToolCalls then
        if maxToolCalls ≤ locals.toolCalls then
          emit (.loopFinished (failed
            ("Agent reached its capability-call budget (" ++ toString maxToolCalls ++ ").")
            .transient usage turn locals.toolCalls))
          return none
      emit (.toolCallRequested turn call)
      let observation ← tool.call call
        ⟨request, turn, locals.history, usage, locals.toolCalls, invocationToolset.revision⟩
      let observation := { observation with arguments := some call.args }
      let toolCalls := locals.toolCalls + 1
      let usage := usage + observation.usage
      let history := locals.history ++ [observation]
      emit (.toolCallCompleted turn call observation)
      let (repeated, stall) := locals.stall.record (signature rendering call.capability call.args "")
      if repeated then
        emit (.loopFinished (stalled stall.limit usage turn toolCalls))
        return none
      return some ⟨history, usage, toolCalls, usedCallIDs, stall⟩

/-- The final event behind the last turn. -/
def turnBudgetExhausted (usage : TokenUsage) (toolCalls : ℤ) : LoopFinishedEvent :=
  failed ("Agent reached its model-turn budget (" ++ toString request.limits.maxModelTurns ++
    ") without a final answer.") .transient usage request.limits.maxModelTurns toolCalls

/-- The loop over turns, with the number of turns that remain. -/
def turns : ℕ → ℤ → Locals → Program Unit
  | 0, _, locals => emit (.loopFinished (turnBudgetExhausted request locals.usage locals.toolCalls))
  | remaining + 1, turn, locals => do
      match ← turnBody rendering equipment request turn locals with
      | some locals => turns remaining (turn + 1) locals
      | none => return ()

/-- The variables before the first turn. -/
def initial : Locals := ⟨[], 0, 0, ∅, { limit := max 1 request.limits.stallLimit }⟩

def run : Program Unit :=
  turns rendering equipment request request.limits.maxModelTurns.toNat 1 (initial request)

end NativeAgentLoopEngine

end Sico.AgentLoop

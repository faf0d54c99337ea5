import Sico.AgentLoop.Native

/-! # One turn of the agent loop

What all engines do in one turn, apart from how they keep their state and leave the loop:
ask the model, then judge its answer, refuse its invalid action or perform its call. A turn
ends with a final event or with an action taken, and it is up to the engine what follows.
-/

namespace Sico.AgentLoop

open Foundation

/-- The state of the loop between two turns. -/
structure Progress where
  history : List Observation
  usage : TokenUsage
  toolCalls : ℤ
  usedCallIDs : Finset String
  stallSignature : String
  stallCount : ℤ

namespace Progress

def initial : Progress := ⟨[], 0, 0, ∅, "", 0⟩

/-- An action of this signature behind the observation that it led to. -/
def act (progress : Progress) (observation : Observation) (signature : String) : Progress :=
  { progress with
    history := progress.history ++ [observation]
    stallSignature := signature
    stallCount := if signature ≠ progress.stallSignature then 1 else progress.stallCount + 1 }

/-- Whether the last action has been repeated too often. -/
def isStalled (request : AgentLoopRequest) (progress : Progress) : Bool :=
  max 1 request.limits.stallLimit ≤ progress.stallCount

end Progress

/-- How a turn ends: with a final event, or with an action taken, for which it tells the
revision of the tool set and the usage before the observation was charged. -/
inductive TurnEnd where
  | finished (event : LoopFinishedEvent)
  | acted (revision : ℤ) (uncharged : TokenUsage) (progress : Progress)

/-- A final event of a run that failed. -/
def failure (turn : ℤ) (progress : Progress) (summary : String) (errorKind : ErrorKind) :
    LoopFinishedEvent :=
  { completed := false
    summary
    errorKind
    usage := progress.usage
    modelTurns := turn
    toolCalls := progress.toolCalls }

def success (turn : ℤ) (progress : Progress) (answer : FinalAnswer) : LoopFinishedEvent :=
  { completed := true
    summary := answer.summary
    output := answer.output
    usage := progress.usage
    modelTurns := turn
    toolCalls := progress.toolCalls }

/-- The final event behind the last turn. -/
def budgetExhausted (request : AgentLoopRequest) (usage : TokenUsage) (toolCalls : ℤ) :
    LoopFinishedEvent :=
  { completed := false
    summary := "Agent reached its model-turn budget (" ++ toString request.limits.maxModelTurns ++
      ") without a final answer."
    errorKind := .transient
    usage
    modelTurns := request.limits.maxModelTurns
    toolCalls }

section Turn

variable (rendering : Rendering) (equipment : Equipment) (request : AgentLoopRequest) (turn : ℤ)

/-- The turn of the model, with the revision of the tool set that it was shown. -/
def askModel (progress : Progress) : Program (ℤ × AgentModelTurn) := do
  let toolset ← currentToolset equipment
  let prepared ← beforeModel
    ⟨request, turn, progress.history, progress.usage, progress.toolCalls, toolset.revision⟩
  emit (.contextPrepared turn prepared.blocks.length)
  emit (.modelTurnStarted turn)
  let stream ← streamModelTurn equipment
    { task := request.task
      tools := toolset.descriptors
      turn
      maxModelTurns := request.limits.maxModelTurns
      systemPrompt := request.systemPrompt
      context := prepared.blocks
      history := prepared.history.getD progress.history
      initialMessages := request.initialMessages
      toolsetRevision := toolset.revision
      providerTools := request.providerTools }
  let modelTurn ← receiveTurn turn stream.ending none stream.items
  emit (.modelTurnCompleted turn modelTurn.usage modelTurn.model)
  return (toolset.revision, modelTurn)

def judge (progress : Progress) (revision : ℤ) (answer : FinalAnswer) : Program TurnEnd := do
  let directive ← evaluateCompletion answer
    ⟨request, turn, progress.history, progress.usage, progress.toolCalls, revision⟩
  emit (.completionProposed turn answer directive)
  match directive.outcome with
  | .accept => return .finished (success turn progress answer)
  | .reject => return .finished (failure turn progress directive.reasonOrDefault .policyDenied)
  | .«continue» => return .acted revision progress.usage (progress.act
      (failedObservation "" (callID turn 1) directive.reasonOrDefault "policy_deny")
      (signature rendering "final_answer" [] directive.reasonOrDefault))

/-- An action that could not be decoded becomes a failed observation. -/
def refuse (progress : Progress) (revision : ℤ) (action : InvalidAction) : TurnEnd :=
  .acted revision progress.usage (progress.act
    (failedObservation action.capability (callID turn 1)
      ("Could not decode the requested action: " ++ action.reason) "internal")
    (signature rendering action.capability [] action.reason))

/-- The tool is invoked, and its observation charged. -/
def invokeTool (progress : Progress) (revision : ℤ) (call : CapabilityCall) (tool : BoundAgentTool)
    (toolsetRevision : ℤ) : Program TurnEnd := do
  emit (.toolCallRequested turn call)
  let observation ← tool.call call
    ⟨request, turn, progress.history, progress.usage, progress.toolCalls, toolsetRevision⟩
  let observation := { observation with arguments := some call.args }
  emit (.toolCallCompleted turn call observation)
  return .acted revision progress.usage
    { progress.act observation (signature rendering call.capability call.args "") with
      usage := progress.usage + observation.usage
      toolCalls := progress.toolCalls + 1
      usedCallIDs := insert call.callID progress.usedCallIDs }

def permit (progress : Progress) (revision : ℤ) (call : CapabilityCall) (tool : BoundAgentTool)
    (toolsetRevision : ℤ) : Program TurnEnd :=
  match request.limits.maxToolCalls with
  | none => invokeTool rendering request turn progress revision call tool toolsetRevision
  | some maxToolCalls =>
      if maxToolCalls ≤ progress.toolCalls then
        return .finished (failure turn progress
          ("Agent reached its capability-call budget (" ++ toString maxToolCalls ++ ").") .transient)
      else
        invokeTool rendering request turn progress revision call tool toolsetRevision

def dispatch (progress : Progress) (revision : ℤ) (call : CapabilityCall) : Program TurnEnd :=
  if call.callID ∈ progress.usedCallIDs then
    return .finished (failure turn progress
      ("Agent emitted duplicate capability call id " ++ rendering.repr call.callID ++ ".") .internal)
  else do
    let toolset ← currentToolset equipment
    match boundTool toolset.tools call.capability with
    | none => return .finished (failure turn progress
        ("Agent requested disallowed capability " ++ rendering.repr call.capability ++ ".")
        .policyDenied)
    | some tool => permit rendering request turn progress revision call tool toolset.revision

section Branches

variable (progress : Progress) (revision : ℤ) (call : CapabilityCall) (tool : BoundAgentTool)
  (toolsetRevision : ℤ) {maxToolCalls : ℤ}

theorem dispatch_used (used : call.callID ∈ progress.usedCallIDs) :
    dispatch rendering equipment request turn progress revision call =
      pure (.finished (failure turn progress
        ("Agent emitted duplicate capability call id " ++ rendering.repr call.callID ++ ".")
        .internal)) :=
  if_pos used

theorem dispatch_unused (unused : call.callID ∉ progress.usedCallIDs) :
    dispatch rendering equipment request turn progress revision call =
      currentToolset equipment >>= fun toolset =>
        match boundTool toolset.tools call.capability with
        | none => pure (.finished (failure turn progress
            ("Agent requested disallowed capability " ++ rendering.repr call.capability ++ ".")
            .policyDenied))
        | some tool => permit rendering request turn progress revision call tool toolset.revision :=
  if_neg unused

theorem permit_unlimited (limit : request.limits.maxToolCalls = none) :
    permit rendering request turn progress revision call tool toolsetRevision =
      invokeTool rendering request turn progress revision call tool toolsetRevision := by
  simp only [permit, limit]

theorem permit_exhausted (limit : request.limits.maxToolCalls = some maxToolCalls)
    (exhausted : maxToolCalls ≤ progress.toolCalls) :
    permit rendering request turn progress revision call tool toolsetRevision =
      pure (.finished (failure turn progress
        ("Agent reached its capability-call budget (" ++ toString maxToolCalls ++ ").")
        .transient)) := by
  simp only [permit, limit, if_pos exhausted]

theorem permit_within (limit : request.limits.maxToolCalls = some maxToolCalls)
    (within : ¬ maxToolCalls ≤ progress.toolCalls) :
    permit rendering request turn progress revision call tool toolsetRevision =
      invokeTool rendering request turn progress revision call tool toolsetRevision := by
  simp only [permit, limit, if_neg within]

theorem invokeTool_bind {Value : Type} (next : TurnEnd → Program Value) :
    invokeTool rendering request turn progress revision call tool toolsetRevision >>= next = (do
      emit (.toolCallRequested turn call)
      let observation ← tool.call call
        ⟨request, turn, progress.history, progress.usage, progress.toolCalls, toolsetRevision⟩
      let observation := { observation with arguments := some call.args }
      emit (.toolCallCompleted turn call observation)
      next (.acted revision progress.usage
        { progress.act observation (signature rendering call.capability call.args "") with
          usage := progress.usage + observation.usage
          toolCalls := progress.toolCalls + 1
          usedCallIDs := insert call.callID progress.usedCallIDs })) := by
  simp only [invokeTool, bind_assoc, pure_bind]

end Branches

def perform (progress : Progress) (revision : ℤ) (action : CapabilityCall) : Program TurnEnd :=
  match normalizeCapabilityID action.capability with
  | none => return .finished (failure turn progress
      ("Agent requested disallowed capability " ++ rendering.repr action.capability ++ ".")
      .policyDenied)
  | some capability => dispatch rendering equipment request turn progress revision
      { action with capability, callID := normalizedCallID rendering action.callID turn 1 }

def follow (progress : Progress) (revision : ℤ) : AgentAction → Program TurnEnd
  | .answer answer => judge rendering request turn progress revision answer
  | .invalid action => return refuse rendering turn progress revision action
  | .call action => perform rendering equipment request turn progress revision action

/-- The state with the usage of the model charged. -/
def Progress.charge (progress : Progress) (usage : TokenUsage) : Progress :=
  { progress with usage := progress.usage + usage }

def takeTurn (progress : Progress) : Program TurnEnd := do
  let (revision, modelTurn) ← askModel equipment request turn progress
  follow rendering equipment request turn (progress.charge modelTurn.usage) revision modelTurn.action

/-- The usage that a final event behind an action bills, by the usage before the
observation was charged and the state behind it. -/
abbrev Billing : Type := TokenUsage → Progress → TokenUsage

def Billing.charged : Billing := fun _ progress => progress.usage

def Billing.uncharged : Billing := fun uncharged _ => uncharged

variable (billing : Billing)

/-- What follows a turn: the final event, or the next turn unless this was the last. -/
def conclude (last : Prop) [Decidable last] (next : Progress → Program Unit) :
    TurnEnd → Program Unit
  | .finished event => emit (.loopFinished event)
  | .acted _ uncharged progress =>
      if progress.isStalled request then
        emit (.loopFinished (stalled (max 1 request.limits.stallLimit)
          (billing uncharged progress) turn progress.toolCalls))
      else if last then
        emit (.loopFinished (budgetExhausted request (billing uncharged progress) progress.toolCalls))
      else
        next progress

def loop : ℕ → ℤ → Progress → Program Unit
  | 0, _, progress =>
      emit (.loopFinished (budgetExhausted request progress.usage progress.toolCalls))
  | remaining + 1, turn, progress => do
      let turnEnd ← takeTurn rendering equipment request turn progress
      conclude request turn billing (remaining = 0) (loop remaining (turn + 1)) turnEnd

end Turn

section Native

open NativeAgentLoopEngine

variable (rendering : Rendering) (equipment : Equipment) (request : AgentLoopRequest) (turn : ℤ)

/-- The local variables of the native engine. -/
def Progress.locals (progress : Progress) : Locals where
  history := progress.history
  usage := progress.usage
  toolCalls := progress.toolCalls
  usedCallIDs := progress.usedCallIDs
  stall := ⟨max 1 request.limits.stallLimit, progress.stallSignature, progress.stallCount⟩

/-- What the native engine does behind a turn. -/
def concludeNative : TurnEnd → Program (Option Locals)
  | .finished event => do
      emit (.loopFinished event)
      return none
  | .acted _ _ progress =>
      if progress.isStalled request then do
        emit (.loopFinished
          (stalled (max 1 request.limits.stallLimit) progress.usage turn progress.toolCalls))
        return none
      else
        return some (progress.locals request)

theorem turnBody_eq (progress : Progress) :
    turnBody rendering equipment request turn (progress.locals request) =
      takeTurn rendering equipment request turn progress >>= concludeNative request turn := by
  unfold turnBody takeTurn askModel
  simp only [bind_assoc, pure_bind]
  refine bind_congr fun toolset => ?_
  refine bind_congr fun prepared => ?_
  refine bind_congr fun _ => ?_
  refine bind_congr fun _ => ?_
  refine bind_congr fun stream => ?_
  refine bind_congr fun modelTurn => ?_
  refine bind_congr fun _ => ?_
  cases modelTurn.action with
  | answer answer =>
      simp only [follow, judge, bind_assoc]
      refine bind_congr fun directive => ?_
      refine bind_congr fun _ => ?_
      cases directive.outcome with
      | accept => rfl
      | reject => rfl
      | «continue» => rfl
  | invalid action =>
      rfl
  | call action =>
      simp only [follow, perform]
      cases normalizeCapabilityID action.capability with
      | none => rfl
      | some capability =>
          dsimp only
          generalize normalizedCallID rendering action.callID turn 1 = callID
          by_cases used : callID ∈ (progress.charge modelTurn.usage).usedCallIDs
          · refine (if_pos used).trans ?_
            rw [dispatch_used rendering equipment request turn _ _ ⟨capability, _, callID⟩ used]
            rfl
          refine (if_neg used).trans ?_
          rw [dispatch_unused rendering equipment request turn _ _ ⟨capability, _, callID⟩ used, bind_assoc]
          refine bind_congr fun invocationToolset => ?_
          cases boundTool invocationToolset.tools capability with
          | none => rfl
          | some tool =>
              cases limit : request.limits.maxToolCalls with
              | none =>
                  dsimp only
                  rw [permit_unlimited rendering request turn _ _ _ _ _ limit, invokeTool_bind]
                  rfl
              | some maxToolCalls =>
                  by_cases exhausted : maxToolCalls ≤ (progress.charge modelTurn.usage).toolCalls
                  · refine (if_pos exhausted).trans ?_
                    dsimp only
                    rw [permit_exhausted rendering request turn _ _ _ _ _ limit exhausted]
                    rfl
                  · refine (if_neg exhausted).trans ?_
                    dsimp only
                    rw [permit_within rendering request turn _ _ _ _ _ limit exhausted,
                      invokeTool_bind]
                    rfl

theorem turns_eq (remaining : ℕ) (progress : Progress) :
    turns rendering equipment request remaining turn (progress.locals request) =
      loop rendering equipment request Billing.charged remaining turn progress := by
  induction remaining generalizing turn progress with
  | zero => rfl
  | succ remaining ih =>
      rw [turns, loop, turnBody_eq, bind_assoc]
      refine bind_congr fun turnEnd => ?_
      cases turnEnd with
      | finished event => rfl
      | acted revision uncharged next =>
          simp only [concludeNative, conclude, Billing.charged]
          by_cases repeated : next.isStalled request
          · rw [if_pos repeated, if_pos repeated]
            rfl
          · rw [if_neg repeated, if_neg repeated, pure_bind]
            refine (ih (turn + 1) next).trans ?_
            cases remaining with
            | zero => rfl
            | succ remaining => rfl

theorem NativeAgentLoopEngine.run_eq :
    NativeAgentLoopEngine.run rendering equipment request =
      loop rendering equipment request Billing.charged request.limits.maxModelTurns.toNat 1
        Progress.initial :=
  turns_eq rendering equipment request 1 _ Progress.initial

end Native

end Sico.AgentLoop

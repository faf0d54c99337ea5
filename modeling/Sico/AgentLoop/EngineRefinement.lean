import Sico.AgentLoop.LangGraph
import Sico.AgentLoop.Logs
import Sico.AgentLoop.Maf

/-! # The engines against each other

Each engine is the loop over turns, up to the usage that its final event bills behind an
action. The Agent Framework engine charges the observation first, like the native one, and
the two are the same program. The LangGraph engine builds the final event before it charges
the observation, so it agrees exactly where there is nothing to charge.
-/

namespace Sico.AgentLoop

open Foundation

section LangGraph

open LangGraphAgentLoopEngine

variable (rendering : Rendering) (equipment : Equipment) (request : AgentLoopRequest) (turn : ℤ)

def Progress.graphState (progress : Progress) (revision : ℤ) : GraphState :=
  ⟨request, turn, progress.history, progress.usage, progress.toolCalls, progress.usedCallIDs,
    progress.stallSignature, progress.stallCount, none, none, revision⟩

/-- The state of the graph behind the model node. -/
def Progress.actionState (progress : Progress) (revision : ℤ) (action : AgentAction) : GraphState :=
  { progress.graphState request turn revision with action := some action }

/-- What the graph does behind a turn, with the steps it has left. -/
def settle (steps : ℕ) : TurnEnd → Program Unit
  | .finished event => emit (.loopFinished event)
  | .acted revision uncharged progress =>
      if progress.isStalled request then
        emit (.loopFinished
          (stalled (max 1 request.limits.stallLimit) uncharged turn progress.toolCalls))
      else if request.limits.maxModelTurns ≤ turn then
        emit (.loopFinished (budgetExhausted request uncharged progress.toolCalls))
      else
        stream rendering equipment (steps + 1) .model (progress.graphState request (turn + 1) revision)

variable {rendering equipment request turn}

theorem stream_terminal {state : GraphState} {event : LoopFinishedEvent}
    (terminal : state.terminal = some event) (steps : ℕ) :
    stream rendering equipment (steps + 1) (routeAfterAction state) state =
      emit (.loopFinished event) := by
  have route : routeAfterAction state = .finish := by simp [routeAfterAction, terminal]
  rw [route, stream]
  simp only [Node.perform, finishNode, terminal, bind_assoc, pure_bind, Node.route, bind_pure_unit]

theorem routeAfterAction_open {state : GraphState} (terminal : state.terminal = none) :
    routeAfterAction state = .model := by
  simp [routeAfterAction, terminal]

theorem nextStall_eq (state : GraphState) (signature : String) :
    nextStall state signature =
      (signature, if signature ≠ state.stallSignature then 1 else state.stallCount + 1) := by
  unfold nextStall
  split <;> rfl

section ContinueOrStop

variable (progress : Progress) (revision : ℤ) (action : AgentAction) (observation : Observation)
  (signature : String) (toolCalls : ℤ)

/-- The entries that every action sets. -/
def actionUpdates : Updates :=
  { history := some (progress.history ++ [observation])
    toolCalls := some toolCalls
    stallSignature := some signature
    stallCount := some (progress.act observation signature).stallCount
    action := some none }

variable {progress observation signature}

theorem continueOrStop_stalled (repeated : (progress.act observation signature).isStalled request) :
    continueOrStop (progress.actionState request turn revision action)
        (progress.history ++ [observation]) signature (some toolCalls) =
      { actionUpdates progress observation signature toolCalls with
        terminal := some (some
          (stalled (max 1 request.limits.stallLimit) progress.usage turn toolCalls)) } := by
  simp only [continueOrStop, nextStall_eq]
  exact if_pos (of_decide_eq_true repeated)

theorem continueOrStop_last (fresh : ¬ (progress.act observation signature).isStalled request)
    (last : request.limits.maxModelTurns ≤ turn) :
    continueOrStop (progress.actionState request turn revision action)
        (progress.history ++ [observation]) signature (some toolCalls) =
      { actionUpdates progress observation signature toolCalls with
        terminal := some (some (budgetExhausted request progress.usage toolCalls)) } := by
  simp only [continueOrStop, nextStall_eq]
  exact (if_neg (of_decide_eq_false (Bool.eq_false_of_not_eq_true fresh))).trans (if_pos last)

theorem continueOrStop_open (fresh : ¬ (progress.act observation signature).isStalled request)
    (more : ¬ request.limits.maxModelTurns ≤ turn) :
    continueOrStop (progress.actionState request turn revision action)
        (progress.history ++ [observation]) signature (some toolCalls) =
      { actionUpdates progress observation signature toolCalls with turn := some (turn + 1) } := by
  simp only [continueOrStop, nextStall_eq]
  exact (if_neg (of_decide_eq_false (Bool.eq_false_of_not_eq_true fresh))).trans (if_neg more)

theorem stream_continueOrStop (usage : TokenUsage) (usedCallIDs : Finset String) (steps : ℕ) :
    let state := progress.actionState request turn revision action
    let merged := state.merge
      { continueOrStop state (progress.history ++ [observation]) signature (some toolCalls) with
        usedCallIDs := some usedCallIDs, usage := some usage }
    stream rendering equipment (steps + 1) (routeAfterAction merged) merged =
      settle rendering equipment request turn steps (.acted revision progress.usage
        { progress.act observation signature with usage, toolCalls, usedCallIDs }) := by
  intro state merged
  by_cases repeated : (progress.act observation signature).isStalled request
  · have terminal : merged.terminal =
        some (stalled (max 1 request.limits.stallLimit) progress.usage turn toolCalls) := by
      simp only [merged, state, continueOrStop_stalled revision action toolCalls repeated]
      rfl
    rw [stream_terminal terminal]
    exact (if_pos repeated).symm
  by_cases last : request.limits.maxModelTurns ≤ turn
  · have terminal : merged.terminal = some (budgetExhausted request progress.usage toolCalls) := by
      simp only [merged, state, continueOrStop_last revision action toolCalls repeated last]
      rfl
    rw [stream_terminal terminal]
    exact ((if_neg repeated).trans (if_pos last)).symm
  · have next : merged = ({ progress.act observation signature with usage, toolCalls, usedCallIDs } :
        Progress).graphState request (turn + 1) revision := by
      simp only [merged, state, continueOrStop_open revision action toolCalls repeated last]
      rfl
    rw [routeAfterAction_open (by rw [next]; rfl), next]
    exact ((if_neg repeated).trans (if_neg last)).symm

end ContinueOrStop

section Nodes

variable (rendering equipment request turn)
variable (progress : Progress) (revision : ℤ) (steps : ℕ)

/-- The graph behind a node that took an action. -/
def resume (state : GraphState) (updates : Updates) : Program Unit :=
  stream rendering equipment (steps + 1) (routeAfterAction (state.merge updates)) (state.merge updates)

theorem resume_terminal (state : GraphState) {updates : Updates} {event : LoopFinishedEvent}
    (terminal : updates.terminal = some (some event)) :
    resume rendering equipment steps state updates = emit (.loopFinished event) :=
  stream_terminal (by simp [GraphState.merge, terminal]) steps

theorem stream_resume {node : Node}
    (acts : ∀ state, node.route state = some (routeAfterAction state)) (state : GraphState) :
    stream rendering equipment (steps + 2) node state =
      node.perform rendering equipment state >>= resume rendering equipment steps state := by
  rw [stream]
  refine bind_congr fun updates => ?_
  simp only [acts]
  rfl

theorem continueOrStop_unset (state : GraphState) (history : List Observation) (signature : String)
    (toolCalls : Option ℤ) :
    (continueOrStop state history signature toolCalls).usage = none ∧
      (continueOrStop state history signature toolCalls).usedCallIDs = none := by
  simp only [continueOrStop]
  split
  · exact ⟨rfl, rfl⟩
  · split <;> exact ⟨rfl, rfl⟩

theorem resume_continueOrStop (action : AgentAction) (observation : Observation) (signature : String) :
    resume rendering equipment steps (progress.actionState request turn revision action)
        (continueOrStop (progress.actionState request turn revision action)
          (progress.history ++ [observation]) signature none) =
      settle rendering equipment request turn steps
        (.acted revision progress.usage (progress.act observation signature)) := by
  have merged (state : GraphState) (updates : Updates)
      (unset : updates.usage = none ∧ updates.usedCallIDs = none) : state.merge updates =
        state.merge { updates with usage := some state.usage, usedCallIDs := some state.usedCallIDs } := by
    simp only [GraphState.merge, unset.1, unset.2, Option.getD_none, Option.getD_some]
  unfold resume
  rw [merged _ _ (continueOrStop_unset _ _ _ _)]
  exact stream_continueOrStop revision action progress.toolCalls progress.usage progress.usedCallIDs
    steps

theorem stream_completion (answer : FinalAnswer) :
    stream rendering equipment (steps + 2) .completion
        (progress.actionState request turn revision (.answer answer)) =
      judge rendering request turn progress revision answer >>=
        settle rendering equipment request turn steps := by
  rw [stream_resume rendering equipment steps fun _ => rfl]
  unfold judge
  simp only [Node.perform, completionNode, bind_assoc]
  refine (bind_assoc _ _ _).trans ?_
  refine bind_congr fun directive => ?_
  refine (bind_assoc _ _ _).trans ?_
  refine bind_congr fun _ => ?_
  cases directive.outcome with
  | accept =>
      rw [if_pos rfl, pure_bind]
      exact resume_terminal rendering equipment steps _ rfl
  | reject =>
      rw [if_neg (by decide), if_pos rfl, pure_bind]
      exact resume_terminal rendering equipment steps _ rfl
  | «continue» =>
      rw [if_neg (by decide), if_neg (by decide), pure_bind]
      exact resume_continueOrStop rendering equipment request turn progress revision steps _ _ _

theorem stream_invalid (action : InvalidAction) :
    stream rendering equipment (steps + 2) .invalid
        (progress.actionState request turn revision (.invalid action)) =
      settle rendering equipment request turn steps
        (refuse rendering turn progress revision action) := by
  rw [stream_resume rendering equipment steps fun _ => rfl]
  exact resume_continueOrStop rendering equipment request turn progress revision steps _ _ _

theorem stream_tool (action : CapabilityCall) :
    stream rendering equipment (steps + 2) .tool
        (progress.actionState request turn revision (.call action)) =
      perform rendering equipment request turn progress revision action >>=
        settle rendering equipment request turn steps := by
  rw [stream_resume rendering equipment steps fun _ => rfl]
  unfold perform
  dsimp only [Node.perform, toolNode, Progress.actionState, Progress.graphState]
  cases normalizeCapabilityID action.capability with
  | none =>
      rw [pure_bind]
      exact resume_terminal rendering equipment steps _ rfl
  | some capability =>
      dsimp only
      generalize normalizedCallID rendering action.callID turn 1 = callID
      by_cases used : callID ∈ progress.usedCallIDs
      · rw [dispatch_used rendering equipment request turn _ _ ⟨capability, _, callID⟩ used,
          if_pos used, pure_bind]
        exact resume_terminal rendering equipment steps _ rfl
      rw [dispatch_unused rendering equipment request turn _ _ ⟨capability, _, callID⟩ used,
        if_neg used, bind_assoc, bind_assoc]
      refine bind_congr fun toolset => ?_
      cases boundTool toolset.tools capability with
      | none =>
          rw [pure_bind]
          exact resume_terminal rendering equipment steps _ rfl
      | some tool =>
          cases limit : request.limits.maxToolCalls with
          | none =>
              dsimp only
              rw [permit_unlimited rendering request turn _ _ _ _ _ limit, invokeTool_bind]
              simp only [bind_assoc, pure_bind]
              refine bind_congr fun _ => ?_
              refine bind_congr fun observation => ?_
              refine bind_congr fun _ => ?_
              exact stream_continueOrStop revision (.call action) _ _ _ steps
          | some maxToolCalls =>
              dsimp only
              by_cases exhausted : maxToolCalls ≤ progress.toolCalls
              · rw [permit_exhausted rendering request turn _ _ _ _ _ limit exhausted, if_pos exhausted,
                  pure_bind]
                exact resume_terminal rendering equipment steps _ rfl
              · rw [permit_within rendering request turn _ _ _ _ _ limit exhausted, invokeTool_bind,
                  if_neg exhausted]
                simp only [bind_assoc, pure_bind]
                refine bind_congr fun _ => ?_
                refine bind_congr fun observation => ?_
                refine bind_congr fun _ => ?_
                exact stream_continueOrStop revision (.call action) _ _ _ steps

theorem stream_model :
    stream rendering equipment (steps + 3) .model (progress.graphState request turn revision) =
      takeTurn rendering equipment request turn progress >>=
        settle rendering equipment request turn steps := by
  rw [stream]
  unfold takeTurn askModel
  simp only [Node.perform, modelNode, bind_assoc, pure_bind, Node.route]
  refine bind_congr fun toolset => ?_
  refine bind_congr fun prepared => ?_
  refine bind_congr fun _ => ?_
  refine bind_congr fun _ => ?_
  refine bind_congr fun modelStream => ?_
  refine bind_congr fun modelTurn => ?_
  refine bind_congr fun _ => ?_
  cases action : modelTurn.action with
  | answer answer =>
      exact stream_completion rendering equipment request turn (progress.charge modelTurn.usage)
        toolset.revision steps answer
  | invalid invalidAction =>
      exact stream_invalid rendering equipment request turn (progress.charge modelTurn.usage)
        toolset.revision steps invalidAction
  | call call =>
      exact stream_tool rendering equipment request turn (progress.charge modelTurn.usage)
        toolset.revision steps call

variable {rendering equipment request turn}

theorem stream_eq_loop {remaining : ℕ} (last : turn + remaining = request.limits.maxModelTurns)
    {steps : ℕ} (enough : 2 * remaining + 3 ≤ steps) :
    stream rendering equipment steps .model (progress.graphState request turn revision) =
      loop rendering equipment request Billing.uncharged (remaining + 1) turn progress := by
  induction remaining generalizing turn progress revision steps with
  | zero =>
      obtain ⟨steps, rfl⟩ : ∃ fewer, steps = fewer + 3 := ⟨steps - 3, by omega⟩
      rw [stream_model, loop]
      refine bind_congr fun turnEnd => ?_
      cases turnEnd with
      | finished event => rfl
      | acted revision uncharged next =>
          have ended : request.limits.maxModelTurns ≤ turn := by omega
          simp only [settle, conclude, if_pos ended, if_true]
          rfl
  | succ remaining ih =>
      obtain ⟨steps, rfl⟩ : ∃ fewer, steps = fewer + 3 := ⟨steps - 3, by omega⟩
      rw [stream_model, loop]
      refine bind_congr fun turnEnd => ?_
      cases turnEnd with
      | finished event => rfl
      | acted revision uncharged next =>
          have more : ¬ request.limits.maxModelTurns ≤ turn := by omega
          simp only [settle, conclude, if_neg more, if_neg (Nat.succ_ne_zero remaining)]
          rw [ih next revision (by push_cast at last; omega) (by omega)]
          rfl

end Nodes

theorem LangGraphAgentLoopEngine.run_eq (rendering : Rendering) (equipment : Equipment)
    (request : AgentLoopRequest) :
    LangGraphAgentLoopEngine.run rendering equipment request =
      loop rendering equipment request Billing.uncharged request.limits.maxModelTurns.toNat 1
        Progress.initial := by
  unfold LangGraphAgentLoopEngine.run
  by_cases none : request.limits.maxModelTurns ≤ 0
  · rw [if_pos none, Int.toNat_of_nonpos none]
    rfl
  · rw [if_neg none]
    obtain ⟨remaining, turns⟩ : ∃ remaining : ℕ, request.limits.maxModelTurns = 1 + remaining :=
      ⟨(request.limits.maxModelTurns - 1).toNat, by omega⟩
    have count : request.limits.maxModelTurns.toNat = remaining + 1 := by omega
    rw [count]
    exact stream_eq_loop Progress.initial 0 turns.symm (by omega)

end LangGraph

section Maf

open MafAgentLoopEngine

variable (rendering : Rendering) (equipment : Equipment) (request : AgentLoopRequest) (turn : ℤ)

/-- The message to the model executor. -/
def Progress.loopState (progress : Progress) (revision : ℤ) : LoopState :=
  ⟨request, turn, progress.history, progress.usage, progress.toolCalls, progress.usedCallIDs,
    progress.stallSignature, progress.stallCount, none, none, revision⟩

def Progress.actionMessage (progress : Progress) (revision : ℤ) (action : AgentAction) : LoopState :=
  { progress.loopState request turn revision with action := some action }

/-- What the edges behind the action executor look at. -/
def MafAgentLoopEngine.LoopState.view (state : LoopState) : LoopFinishedEvent ⊕ LoopState :=
  match state.terminal with
  | some event => .inl event
  | none => .inr state

def TurnEnd.view : TurnEnd → LoopFinishedEvent ⊕ LoopState
  | .finished event => .inl event
  | .acted revision _ progress =>
      if progress.isStalled request then
        .inl (stalled (max 1 request.limits.stallLimit) progress.usage turn progress.toolCalls)
      else if request.limits.maxModelTurns ≤ turn then
        .inl (budgetExhausted request progress.usage progress.toolCalls)
      else
        .inr (progress.loopState request (turn + 1) revision)

variable {request turn}

theorem view_continueOrStop (progress : Progress) (revision : ℤ) (action : AgentAction)
    (observation : Observation) (signature : String) (toolCalls : ℤ) (usedCallIDs : Finset String)
    (uncharged : TokenUsage) :
    LoopState.view { MafAgentLoopEngine.continueOrStop
        (progress.actionMessage request turn revision action) (progress.history ++ [observation])
        signature (some toolCalls) with usedCallIDs } =
      TurnEnd.view request turn (.acted revision uncharged
        { progress.act observation signature with toolCalls, usedCallIDs }) := by
  have stall (state : LoopState) : MafAgentLoopEngine.nextStall state signature =
      (signature, if signature ≠ state.stallSignature then 1 else state.stallCount + 1) := by
    unfold MafAgentLoopEngine.nextStall
    split <;> rfl
  simp only [MafAgentLoopEngine.continueOrStop, stall, Progress.actionMessage, Progress.loopState,
    Option.getD_some]
  by_cases repeated : (progress.act observation signature).isStalled request
  · have passed : max 1 request.limits.stallLimit ≤
        if signature ≠ progress.stallSignature then 1 else progress.stallCount + 1 :=
      of_decide_eq_true repeated
    simp only [if_pos passed]
    exact (if_pos repeated).symm
  have within : ¬ max 1 request.limits.stallLimit ≤
      if signature ≠ progress.stallSignature then 1 else progress.stallCount + 1 :=
    of_decide_eq_false (Bool.eq_false_of_not_eq_true repeated)
  by_cases last : request.limits.maxModelTurns ≤ turn
  · simp only [if_neg within, last, if_true]
    exact ((if_neg repeated).trans (if_pos last)).symm
  · simp only [if_neg within, last, if_false]
    exact ((if_neg repeated).trans (if_neg last)).symm

variable (request turn)
variable (progress : Progress) (revision : ℤ)

theorem complete_view (answer : FinalAnswer) :
    LoopState.view <$> complete rendering
        (progress.actionMessage request turn revision (.answer answer)) answer =
      TurnEnd.view request turn <$> judge rendering request turn progress revision answer := by
  unfold complete judge
  simp only [map_bind]
  refine bind_congr fun directive => ?_
  refine bind_congr fun _ => ?_
  cases directive.outcome with
  | accept => rfl
  | reject => rfl
  | «continue» =>
      simp only [reduceCtorEq, if_false, map_pure]
      exact congrArg _ (view_continueOrStop progress revision (.answer answer) _ _ progress.toolCalls
        progress.usedCallIDs progress.usage)

theorem invalid_view (action : InvalidAction) :
    LoopState.view (invalid rendering
        (progress.actionMessage request turn revision (.invalid action)) action) =
      TurnEnd.view request turn (refuse rendering turn progress revision action) :=
  view_continueOrStop progress revision (.invalid action) _ _ progress.toolCalls
    progress.usedCallIDs progress.usage

theorem callTool_view (action : CapabilityCall) :
    LoopState.view <$> callTool rendering equipment
        (progress.actionMessage request turn revision (.call action)) action =
      TurnEnd.view request turn <$>
        perform rendering equipment request turn progress revision action := by
  unfold perform
  dsimp only [callTool, Progress.actionMessage, Progress.loopState]
  cases normalizeCapabilityID action.capability with
  | none => rfl
  | some capability =>
      dsimp only
      generalize normalizedCallID rendering action.callID turn 1 = callID
      by_cases used : callID ∈ progress.usedCallIDs
      · rw [dispatch_used rendering equipment request turn _ _ ⟨capability, _, callID⟩ used,
          if_pos used]
        rfl
      rw [dispatch_unused rendering equipment request turn _ _ ⟨capability, _, callID⟩ used,
        if_neg used, map_bind, map_bind]
      refine bind_congr fun toolset => ?_
      cases boundTool toolset.tools capability with
      | none => rfl
      | some tool =>
          -- the state that is handed on has the observation charged
          have invoked : (do
              emit (.toolCallRequested turn ⟨capability, action.args, callID⟩)
              let observation ← tool.call ⟨capability, action.args, callID⟩
                ⟨request, turn, progress.history, progress.usage, progress.toolCalls, toolset.revision⟩
              let observation := { observation with arguments := some action.args }
              emit (.toolCallCompleted turn ⟨capability, action.args, callID⟩ observation)
              pure (LoopState.view { MafAgentLoopEngine.continueOrStop
                ((progress.charge observation.usage).actionMessage request turn revision (.call action))
                (progress.history ++ [observation]) (signature rendering capability action.args "")
                (some (progress.toolCalls + 1)) with
                usedCallIDs := insert callID progress.usedCallIDs })) =
              TurnEnd.view request turn <$> invokeTool rendering request turn progress revision
                ⟨capability, action.args, callID⟩ tool toolset.revision := by
            rw [map_eq_pure_bind, invokeTool_bind]
            refine bind_congr fun _ => ?_
            refine bind_congr fun observation => ?_
            refine bind_congr fun _ => ?_
            exact congrArg _ (view_continueOrStop (progress.charge observation.usage) revision
              (.call action) _ _ (progress.toolCalls + 1) (insert callID progress.usedCallIDs) progress.usage)
          cases limit : request.limits.maxToolCalls with
          | none =>
              dsimp only
              rw [permit_unlimited rendering request turn _ _ _ _ _ limit, ← invoked]
              simp only [map_bind, map_pure]
              rfl
          | some maxToolCalls =>
              dsimp only
              by_cases exhausted : maxToolCalls ≤ progress.toolCalls
              · rw [permit_exhausted rendering request turn _ _ _ _ _ limit exhausted, if_pos exhausted]
                rfl
              · rw [permit_within rendering request turn _ _ _ _ _ limit exhausted, if_neg exhausted,
                  ← invoked]
                simp only [map_bind, map_pure]
                rfl

theorem applyAction_view (action : AgentAction) :
    LoopState.view <$> applyAction rendering equipment
        (progress.actionMessage request turn revision action) =
      TurnEnd.view request turn <$>
        follow rendering equipment request turn progress revision action := by
  cases action with
  | answer answer => exact complete_view rendering request turn progress revision answer
  | invalid action =>
      have same := invalid_view rendering request turn progress revision action
      exact congrArg (pure : _ → Program (LoopFinishedEvent ⊕ LoopState)) same
  | call action => exact callTool_view rendering equipment request turn progress revision action

theorem completeTurn_eq :
    completeTurn equipment (progress.loopState request turn revision) =
      (fun asked : ℤ × AgentModelTurn =>
        (progress.charge asked.2.usage).actionMessage request turn asked.1 asked.2.action) <$>
          askModel equipment request turn progress := by
  unfold completeTurn askModel
  simp only [map_bind, map_pure]
  rfl

/-- What the workflow returns, without the count of its iterations. -/
def delivered (remaining iterations : ℕ) (executor : Executor) (state : LoopState) : Program Unit :=
  ExceptT.mk (Prod.fst <$> deliver rendering equipment remaining iterations executor state)

variable {rendering equipment}

theorem delivered_succ (remaining iterations : ℕ) (executor : Executor) (state : LoopState) :
    delivered rendering equipment (remaining + 1) iterations executor state =
      executor.handle rendering equipment state >>= fun message =>
        match message with
        | none => pure ()
        | some message =>
            match executor.target message with
            | some next => delivered rendering equipment remaining (iterations + 1) next message
            | none => pure () := by
  refine ExceptT.ext ?_
  rw [ExceptT.run_bind]
  unfold delivered
  rw [ExceptT.run_mk, deliver, map_bind]
  refine bind_congr fun result => ?_
  cases result with
  | error stop => rfl
  | ok message =>
      cases message with
      | none => rfl
      | some message =>
          dsimp only
          cases executor.target message with
          | none => rfl
          | some next => rfl

theorem delivered_finish (remaining iterations : ℕ) {state : LoopState} {event : LoopFinishedEvent}
    (terminal : state.terminal = some event) :
    delivered rendering equipment (remaining + 1) iterations .finish state =
      emit (.loopFinished event) := by
  rw [delivered_succ]
  simp only [Executor.handle, finish, terminal, bind_assoc, pure_bind, bind_pure_unit]

theorem delivered_action (remaining iterations : ℕ) (state : LoopState) :
    delivered rendering equipment (remaining + 2) iterations .action state =
      (LoopState.view <$> applyAction rendering equipment state) >>= fun seen =>
        match seen with
        | .inl event => emit (.loopFinished event)
        | .inr message => delivered rendering equipment (remaining + 1) (iterations + 1) .model message := by
  rw [delivered_succ]
  simp only [Executor.handle, bind_assoc, pure_bind, bind_map_left]
  refine bind_congr fun message => ?_
  unfold LoopState.view
  cases terminal : message.terminal with
  | none => simp only [Executor.target, terminal, Option.isNone_none, if_true]
  | some event =>
      simp only [Executor.target, terminal, Option.isNone_some, Bool.false_eq_true, if_false]
      exact delivered_finish remaining (iterations + 1) terminal

theorem delivered_model (remaining iterations : ℕ) :
    delivered rendering equipment (remaining + 3) iterations .model
        (progress.loopState request turn revision) =
      takeTurn rendering equipment request turn progress >>= fun turnEnd =>
        match turnEnd.view request turn with
        | .inl event => emit (.loopFinished event)
        | .inr message => delivered rendering equipment (remaining + 1) (iterations + 2) .model message := by
  rw [delivered_succ]
  simp only [Executor.handle, completeTurn_eq, Executor.target, bind_assoc, pure_bind, bind_map_left,
    takeTurn]
  refine bind_congr fun asked => ?_
  rw [delivered_action, applyAction_view, bind_map_left]

variable {request turn}

theorem delivered_eq_loop {remaining : ℕ} (last : turn + remaining = request.limits.maxModelTurns)
    {cap : ℕ} (enough : 2 * remaining + 3 ≤ cap) (iterations : ℕ) :
    delivered rendering equipment cap iterations .model (progress.loopState request turn revision) =
      loop rendering equipment request Billing.charged (remaining + 1) turn progress := by
  induction remaining generalizing turn progress revision cap iterations with
  | zero =>
      obtain ⟨cap, rfl⟩ : ∃ fewer, cap = fewer + 3 := ⟨cap - 3, by omega⟩
      rw [delivered_model, loop]
      refine bind_congr fun turnEnd => ?_
      cases turnEnd with
      | finished event => rfl
      | acted revision uncharged next =>
          have ended : request.limits.maxModelTurns ≤ turn := by omega
          simp only [TurnEnd.view, conclude, Billing.charged, if_pos ended, if_true]
          by_cases repeated : next.isStalled request
          · simp only [if_pos repeated]
          · simp only [if_neg repeated]
  | succ remaining ih =>
      obtain ⟨cap, rfl⟩ : ∃ fewer, cap = fewer + 3 := ⟨cap - 3, by omega⟩
      rw [delivered_model, loop]
      refine bind_congr fun turnEnd => ?_
      cases turnEnd with
      | finished event => rfl
      | acted revision uncharged next =>
          have more : ¬ request.limits.maxModelTurns ≤ turn := by omega
          simp only [TurnEnd.view, conclude, Billing.charged, if_neg more,
            if_neg (Nat.succ_ne_zero remaining)]
          by_cases repeated : next.isStalled request
          · simp only [if_pos repeated]
          · simp only [if_neg repeated]
            exact ih next revision (by push_cast at last; omega) (by omega) (iterations + 2)

theorem TurnEnd.view_inr {turnEnd : TurnEnd} {message : LoopState}
    (seen : turnEnd.view request turn = .inr message) :
    turn < request.limits.maxModelTurns ∧
      ∃ next revision, message = Progress.loopState request (turn + 1) next revision := by
  cases turnEnd with
  | finished event => cases seen
  | acted revision uncharged next =>
      unfold TurnEnd.view at seen
      dsimp only at seen
      split at seen
      · cases seen
      · split at seen
        · cases seen
        · next more => exact ⟨by omega, next, revision, (Sum.inr.inj seen).symm⟩

section Iterations

variable {bound : ℕ} (cap iterations : ℕ) (log : Log)

theorem deliver_finish_iterations (within : iterations + 1 ≤ bound) (state : LoopState) :
    Interaction.Holds (fun _ result => result.2 ≤ bound)
      (deliver rendering equipment cap iterations .finish state) log := by
  cases cap with
  | zero => exact (Nat.le_succ iterations).trans within
  | succ cap =>
      rw [deliver, Interaction.holds_bind]
      refine Interaction.Holds.of_forall fun _ result => ?_
      cases result with
      | error stop => exact within
      | ok message =>
          cases message with
          | none => exact within
          | some message => exact within

theorem deliver_action_iterations (within : iterations + 2 ≤ bound) (action : AgentAction)
    (onward : ∀ cap log next revision, turn < request.limits.maxModelTurns →
      Interaction.Holds (fun _ result => result.2 ≤ bound) (deliver rendering equipment cap
        (iterations + 1) .model (Progress.loopState request (turn + 1) next revision)) log) :
    Interaction.Holds (fun _ result => result.2 ≤ bound) (deliver rendering equipment cap iterations
      .action (progress.actionMessage request turn revision action)) log := by
  cases cap with
  | zero => exact (Nat.le_add_right iterations 2).trans within
  | succ cap =>
      have seen := Interaction.holds_image
        (follow rendering equipment request turn progress revision action)
        (TurnEnd.view request turn) log
      rw [← applyAction_view, Interaction.holds_map_run] at seen
      rw [deliver, Interaction.holds_bind]
      simp only [Executor.handle]
      rw [← map_eq_pure_bind, Interaction.holds_map_run]
      refine seen.mono fun log result image => ?_
      cases result with
      | error stop => exact (Nat.le_succ _).trans within
      | ok message =>
          obtain ⟨turnEnd, same⟩ := image message.view rfl
          cases terminal : message.terminal with
          | some event =>
              simp only [Except.map, Executor.target, terminal, Option.isNone_some,
                Bool.false_eq_true, if_false]
              exact deliver_finish_iterations cap (iterations + 1) log within message
          | none =>
              simp only [Except.map, Executor.target, terminal, Option.isNone_none, if_true]
              have back : message.view = .inr message := by simp only [LoopState.view, terminal]
              obtain ⟨more, next, revision, rfl⟩ := TurnEnd.view_inr (same.symm.trans back)
              exact onward cap log next revision more

theorem deliver_model_iterations (within : iterations + 3 ≤ bound)
    (onward : ∀ cap log next revision, turn < request.limits.maxModelTurns →
      Interaction.Holds (fun _ result => result.2 ≤ bound) (deliver rendering equipment cap
        (iterations + 2) .model (Progress.loopState request (turn + 1) next revision)) log) :
    Interaction.Holds (fun _ result => result.2 ≤ bound) (deliver rendering equipment cap iterations
      .model (progress.loopState request turn revision)) log := by
  cases cap with
  | zero => exact (Nat.le_add_right iterations 3).trans within
  | succ cap =>
      rw [deliver, Interaction.holds_bind]
      simp only [Executor.handle, completeTurn_eq]
      rw [← map_eq_pure_bind, Interaction.holds_map_run, Interaction.holds_map_run]
      refine Interaction.Holds.of_forall fun log result => ?_
      cases result with
      | error stop => exact (Nat.le_add_right (iterations + 1) 2).trans within
      | ok asked =>
          exact deliver_action_iterations _ _ cap (iterations + 1) log within asked.2.action onward

/-- The iterations from the model executor on: two for each turn that remains and one to
finish. -/
theorem deliver_iterations {remaining : ℕ} (last : turn + remaining = request.limits.maxModelTurns) :
    Interaction.Holds (fun _ result => result.2 ≤ iterations + 2 * remaining + 3)
      (deliver rendering equipment cap iterations .model (progress.loopState request turn revision))
      log := by
  induction remaining generalizing turn progress revision cap iterations log with
  | zero =>
      refine deliver_model_iterations _ _ cap iterations log le_rfl fun _ _ _ _ more => ?_
      omega
  | succ remaining ih =>
      refine deliver_model_iterations _ _ cap iterations log (by omega) fun cap log next revision _ => ?_
      refine (ih next revision cap (iterations + 2) log (by push_cast at last; omega)).mono ?_
      intro _ result bounded
      omega

end Iterations

theorem MafAgentLoopEngine.run_eq (rendering : Rendering) (equipment : Equipment)
    (request : AgentLoopRequest) :
    MafAgentLoopEngine.run rendering equipment request =
      loop rendering equipment request Billing.charged request.limits.maxModelTurns.toNat 1
        Progress.initial := by
  unfold MafAgentLoopEngine.run runCounted
  by_cases none : request.limits.maxModelTurns ≤ 0
  · rw [if_pos none, Int.toNat_of_nonpos none]
    rfl
  · rw [if_neg none]
    obtain ⟨remaining, turns⟩ : ∃ remaining : ℕ, request.limits.maxModelTurns = 1 + remaining :=
      ⟨(request.limits.maxModelTurns - 1).toNat, by omega⟩
    have count : request.limits.maxModelTurns.toNat = remaining + 1 := by omega
    have enough : 2 * remaining + 3 ≤ (maxIterations request).toNat := by
      unfold maxIterations
      omega
    rw [count]
    exact delivered_eq_loop Progress.initial 0 turns.symm enough 0

theorem runCounted_iterations (rendering : Rendering) (equipment : Equipment)
    (request : AgentLoopRequest) :
    Interaction.Holds (fun _ result => (result.2 : ℤ) < maxIterations request)
      (runCounted rendering equipment request) [] := by
  unfold runCounted
  have positive : 10 ≤ maxIterations request := le_max_left _ _
  by_cases none : request.limits.maxModelTurns ≤ 0
  · rw [if_pos none, Interaction.holds_bind]
    refine Interaction.Holds.of_forall fun log ending => ?_
    change ((0 : ℕ) : ℤ) < maxIterations request
    omega
  · rw [if_neg none]
    obtain ⟨remaining, turns⟩ : ∃ remaining : ℕ, request.limits.maxModelTurns = 1 + remaining :=
      ⟨(request.limits.maxModelTurns - 1).toNat, by omega⟩
    refine Interaction.Holds.mono
      (deliver_iterations Progress.initial 0 (maxIterations request).toNat 0 [] turns.symm) ?_
    intro _ result bound
    have cap : request.limits.maxModelTurns * 2 + 3 ≤ maxIterations request := le_max_right _ _
    omega

end Maf

section Outstanding

open Interaction

variable (rendering : Rendering) (equipment : Equipment) (request : AgentLoopRequest) (turn : ℤ)

/-- Nothing is left to be charged. -/
def Settled (log : Log) : Prop := log.outstanding = 0

theorem settled_snoc {log : Log} {exchange : Exchange Request Request.Reply}
    (quiet : outstandingBy log.outstanding exchange = 0) : Settled (log ++ [exchange]) := by
  rw [Settled, Log.outstanding_snoc, quiet]

theorem settled_emit {log : Log} (settled : Settled log) (event : AgentLoopEvent) :
    Settled (log ++ [⟨.emit event, ()⟩]) :=
  settled_snoc settled

theorem askModel_settled (progress : Progress) (log : Log) :
    Holds (fun log _ => Settled log) (askModel equipment request turn progress).run log := by
  unfold askModel
  refine Holds.bind_run (fun log result => ∀ stop, result = .error stop → Settled log)
    (holds_currentToolset (fun reply _ stop _ => settled_snoc rfl) fun _ stop stopped => ?_)
    (fun log stop settled => settled stop rfl) fun log toolset _ => ?_
  · cases stopped
  refine holds_bind_run.mpr (holds_beforeModel.mpr fun reply => ?_)
  cases reply with
  | error stop => exact settled_snoc rfl
  | ok prepared =>
      refine Keeps.bind (keeps_emit fun log held => settled_emit held _) (fun _ => ?_) _
        (settled_snoc rfl)
      refine Keeps.bind (keeps_emit fun log held => settled_emit held _) fun _ => ?_
      refine Keeps.bind (keeps_streamModelTurn (fun _ _ _ => settled_snoc rfl)
        fun _ _ _ => settled_snoc rfl) fun stream => ?_
      refine Keeps.bind (keeps_receiveTurn (fun log content held => settled_emit held _) _ _)
        fun modelTurn => ?_
      refine Keeps.bind (keeps_emit fun log held => settled_emit held _) fun _ => ?_
      exact fun log held => held

/-- What a turn charges is what its log leaves to be charged. -/
def Charges (log : Log) : Except Stop TurnEnd → Prop
  | .ok (.finished _) => Settled log
  | .ok (.acted _ uncharged progress) => progress.usage = uncharged + log.outstanding
  | .error _ => Settled log

theorem charges_acted {log : Log} (settled : Settled log) (revision : ℤ) (progress : Progress) :
    Charges log (.ok (.acted revision progress.usage progress)) := by
  rw [Charges, settled, add_zero]

variable {log : Log} (progress : Progress) (revision : ℤ)

theorem judge_charges (answer : FinalAnswer) :
    Holds Charges (judge rendering request turn progress revision answer).run log := by
  unfold judge
  refine holds_bind_run.mpr (holds_evaluateCompletion.mpr fun reply => ?_)
  cases reply with
  | error stop => exact settled_snoc rfl
  | ok directive =>
      refine holds_bind_run.mpr (holds_emit.mpr ?_)
      dsimp only [Onward]
      split
      · exact settled_emit (settled_snoc rfl) _
      · exact settled_emit (settled_snoc rfl) _
      · exact charges_acted (settled_emit (settled_snoc rfl) _) revision (progress.act _ _)

theorem invokeTool_charges (call : CapabilityCall) (tool : BoundAgentTool)
    (toolsetRevision : ℤ) :
    Holds Charges (invokeTool rendering request turn progress revision call tool toolsetRevision).run
      log := by
  unfold invokeTool
  refine holds_bind_run.mpr (holds_emit.mpr (holds_bind_run.mpr (holds_call.mpr fun reply => ?_)))
  cases reply with
  | error stop => exact settled_snoc rfl
  | ok observation =>
      refine holds_bind_run.mpr (holds_emit.mpr ?_)
      change progress.usage + observation.usage = progress.usage + Log.outstanding _
      rw [Log.outstanding_snoc, Log.outstanding_snoc]
      rfl

theorem dispatch_charges (settled : Settled log) (call : CapabilityCall) :
    Holds Charges (dispatch rendering equipment request turn progress revision call).run log := by
  unfold dispatch
  split
  · exact settled
  · refine Holds.bind_run (fun log _ => Settled log)
      (holds_currentToolset (fun _ _ => settled_snoc rfl) fun _ => settled)
      (fun _ _ held => held) fun log toolset held => ?_
    split
    · exact held
    · unfold permit
      split
      · exact invokeTool_charges rendering request turn progress revision call _ _
      · split
        · exact held
        · exact invokeTool_charges rendering request turn progress revision call _ _

theorem takeTurn_charges (log : Log) :
    Holds Charges (takeTurn rendering equipment request turn progress).run log := by
  refine Holds.bind_run (fun log _ => Settled log)
    (askModel_settled equipment request turn progress log) (fun _ _ held => held) ?_
  rintro log ⟨revision, modelTurn⟩ settled
  cases action : modelTurn.action with
  | answer answer => 
      simp only [action, follow]
      exact judge_charges rendering request turn _ revision answer
  | invalid invalidAction =>
      simp only [action, follow]
      exact charges_acted settled revision (Progress.act _ _ _)
  | call call =>
      simp only [action, follow, perform]
      split
      · exact settled
      · exact dispatch_charges rendering equipment request turn _ revision settled _

end Outstanding

section Comparison

open Interaction

variable (rendering : Rendering) (equipment : Equipment) (request : AgentLoopRequest)
  (surroundings : Surroundings)

/-- The log and the ending of an engine among its surroundings. -/
def Program.played {Value : Type} (program : Program Value) : Log × Except Stop Value :=
  program.run.play surroundings []

theorem events_emit_iff (log : Log) (first second : LoopFinishedEvent) :
    Log.events (log ++ [⟨.emit (.loopFinished first), ()⟩]) =
        Log.events (log ++ [⟨.emit (.loopFinished second), ()⟩]) ↔ first = second := by
  rw [Log.events_snoc, Log.events_snoc]
  simp [eventOf]

/-- What follows a turn shows the same events under the two billings exactly when it
leaves nothing to be charged, if the next turns do so. -/
theorem conclude_events_iff {log : Log} {turnEnd : TurnEnd} (charges : Charges log (.ok turnEnd))
    (turn : ℤ) (last : Prop) [Decidable last] (first second : Progress → Program Unit)
    (next : ¬ last → ∀ progress,
      (Log.events ((first progress).run.play surroundings log).1 =
          Log.events ((second progress).run.play surroundings log).1 ↔
        Settled ((second progress).run.play surroundings log).1)) :
    Log.events ((conclude request turn Billing.uncharged last first turnEnd).run.play
          surroundings log).1 =
        Log.events ((conclude request turn Billing.charged last second turnEnd).run.play
          surroundings log).1 ↔
      Settled ((conclude request turn Billing.charged last second turnEnd).run.play
        surroundings log).1 := by
  cases turnEnd with
  | finished event => exact iff_of_true rfl (settled_emit charges _)
  | acted revision uncharged progress =>
      have billed : uncharged = progress.usage ↔ Settled log := by
        rw [charges, eq_comm, TokenUsage.add_eq_left_iff]
        rfl
      have emitted (event : LoopFinishedEvent) :
          Settled (log ++ [⟨.emit (.loopFinished event), ()⟩]) ↔ Settled log := by
        rw [Settled, Log.outstanding_snoc]
        rfl
      unfold conclude
      dsimp only
      split
      · refine (events_emit_iff log _ _).trans ?_
        refine Iff.trans ?_ (emitted _).symm
        simp only [stalled, Billing.uncharged, Billing.charged, LoopFinishedEvent.mk.injEq, true_and,
          and_true, billed]
      · split
        · refine (events_emit_iff log _ _).trans ?_
          refine Iff.trans ?_ (emitted _).symm
          simp only [budgetExhausted, Billing.uncharged, Billing.charged,
            LoopFinishedEvent.mk.injEq, true_and, and_true, billed]
        · next more => exact next more progress

/-- The two billings show the same events exactly when the loop leaves nothing to be
charged. -/
theorem loop_events_iff (remaining : ℕ) (turn : ℤ) (progress : Progress) (log : Log) :
    Log.events ((loop rendering equipment request Billing.uncharged (remaining + 1) turn
          progress).run.play surroundings log).1 =
        Log.events ((loop rendering equipment request Billing.charged (remaining + 1) turn
          progress).run.play surroundings log).1 ↔
      Settled ((loop rendering equipment request Billing.charged (remaining + 1) turn
        progress).run.play surroundings log).1 := by
  have next : remaining ≠ 0 → ∀ (log : Log) (progress : Progress),
      (Log.events ((loop rendering equipment request Billing.uncharged remaining (turn + 1)
            progress).run.play surroundings log).1 =
          Log.events ((loop rendering equipment request Billing.charged remaining (turn + 1)
            progress).run.play surroundings log).1 ↔
        Settled ((loop rendering equipment request Billing.charged remaining (turn + 1)
          progress).run.play surroundings log).1) := by
    intro more log progress
    cases remaining with
    | zero => exact absurd rfl more
    | succ remaining => exact loop_events_iff remaining (turn + 1) progress log
  rw [loop, loop, ExceptT.run_bind, ExceptT.run_bind, play_bind, play_bind]
  have charges := (takeTurn_charges rendering equipment request turn progress log).play surroundings
  revert charges
  generalize (takeTurn rendering equipment request turn progress).run.play surroundings log = taken
  obtain ⟨log', result⟩ := taken
  intro charges
  cases result with
  | error stop => exact iff_of_true rfl charges
  | ok turnEnd =>
      exact conclude_events_iff request surroundings charges turn (remaining = 0) _ _
        fun more => next more log'

/-- **The LangGraph engine against the native one.** They emit the same events exactly when
the last answer of the surroundings is not an observation that is left to be charged. -/
theorem langgraph_events_iff :
    (Program.played surroundings (LangGraphAgentLoopEngine.run rendering equipment request)).1.events =
        (Program.played surroundings (NativeAgentLoopEngine.run rendering equipment request)).1.events ↔
      (Program.played surroundings
        (NativeAgentLoopEngine.run rendering equipment request)).1.outstanding = 0 := by
  rw [LangGraphAgentLoopEngine.run_eq, NativeAgentLoopEngine.run_eq]
  cases request.limits.maxModelTurns.toNat with
  | zero => exact iff_of_true rfl rfl
  | succ remaining =>
      exact loop_events_iff rendering equipment request surroundings remaining 1 Progress.initial []

/-- A model that always calls one tool, and a tool whose observation costs five tokens. -/
def costlyTool : Surroundings
  | _, .emit _ => ()
  | _, .snapshot => .ok ⟨0, []⟩
  | _, .beforeModel _ => .ok ⟨[], none⟩
  | _, .completeTurn _ => .ok ⟨.call ⟨"builtin:echo", [], "call"⟩, 0, "model"⟩
  | _, .streamTurn _ => ⟨[], .ok ()⟩
  | _, .evaluateCompletion _ _ => .ok ⟨.accept, ""⟩
  | _, .invoke _ _ _ => .ok ⟨"builtin:echo", true, "", "", none, "", "", "", "", "", [], [],
      { totalTokens := 5 }⟩

def oneTurn : AgentLoopRequest :=
  { engineRunID := "run"
    task := { title := "task" }
    systemPrompt := ""
    tools := []
    limits := { maxModelTurns := 1 } }

def billedUsage (events : List AgentLoopEvent) : List TokenUsage :=
  events.filterMap fun event =>
    match event with
    | .loopFinished event => some event.usage
    | _ => none

/-- Behind the last turn, the LangGraph engine does not bill the observation. -/
theorem langgraph_omits_usage :
    ¬ ∀ (rendering : Rendering) (equipment : Equipment) (request : AgentLoopRequest)
      (surroundings : Surroundings),
      (Program.played surroundings (LangGraphAgentLoopEngine.run rendering equipment request)).1.events =
        (Program.played surroundings
          (NativeAgentLoopEngine.run rendering equipment request)).1.events := by
  intro claim
  have same := claim ⟨id, fun _ => "", id⟩ ⟨false, false, [⟨⟨"builtin:echo", "", []⟩, 0⟩]⟩ oneTurn
    costlyTool
  have billed := congrArg billedUsage same
  revert billed
  decide

/-- **The Agent Framework engine against the native one.** They emit the same events and
end in the same way, and the workflow stays below its cap on iterations. -/
theorem maf_events_eq :
    (Program.played surroundings (MafAgentLoopEngine.run rendering equipment request)).1.events =
        (Program.played surroundings
          (NativeAgentLoopEngine.run rendering equipment request)).1.events ∧
      (Program.played surroundings (MafAgentLoopEngine.run rendering equipment request)).2 =
        (Program.played surroundings (NativeAgentLoopEngine.run rendering equipment request)).2 ∧
      ∃ log outcome iterations,
        (MafAgentLoopEngine.runCounted rendering equipment request).play surroundings [] =
          (log, outcome, iterations) ∧
        Program.played surroundings (MafAgentLoopEngine.run rendering equipment request) =
          (log, outcome) ∧
        (iterations : ℤ) < max 10 (2 * request.limits.maxModelTurns + 3) := by
  have same : Program.played surroundings (MafAgentLoopEngine.run rendering equipment request) =
      Program.played surroundings (NativeAgentLoopEngine.run rendering equipment request) := by
    rw [MafAgentLoopEngine.run_eq, NativeAgentLoopEngine.run_eq]
  have capped := (runCounted_iterations rendering equipment request).play surroundings
  refine ⟨by rw [same], by rw [same], _, _, _, rfl, play_map surroundings Prod.fst, ?_⟩
  rw [mul_comm]
  exact capped

end Comparison

end Sico.AgentLoop

import Sico.TaskRuntime.PlanView

/-! # Settling the step of a batch

When a batch is through, the step that owns its tool call becomes terminal, once all tool calls of
the step have settled. A recovery first settles the calls of the step that nobody is behind any
more, all but that of the batch, and the steps behind it that were never started are cancelled, or
dropped where they stand for the result only.
-/

namespace Sico.TaskRuntime.Presentation

open Foundation
open Plans (StepStatus ToolCallStatus)
open AgentLoop (strip isBlank)

section Settling

/-- `_ACTIVE_TOOL_CALL_STATUSES`. -/
def isActive (status : ToolCallStatus) : Bool :=
  status ∈ [ToolCallStatus.unknown, .pending, .running, .retryRunning, .failedAnalyzing]

/-- `_TERMINAL_PLAN_STEP_STATUSES`. -/
def isTerminal (status : StepStatus) : Bool :=
  status ∈ [StepStatus.completed, .failed, .cancelled, .requireHumanInput]

/-- `_step_can_terminalize`. -/
def PlanStep.canTerminalize (step : PlanStep) : Bool :=
  step.status ∈ [StepStatus.inProgress, .pending, .unknown]

mutual

/-- `_tool_call_settled`. -/
def ToolCall.isSettled : ToolCall → Bool
  | .node data subCalls => !isActive data.status && allSettled subCalls

def allSettled : List ToolCall → Bool
  | [] => true
  | call :: rest => call.isSettled && allSettled rest

end

/-- `_step_tool_calls_settled`. -/
def PlanStep.callsSettled (step : PlanStep) : Bool := !step.toolCalls.isEmpty && allSettled step.toolCalls

/-- `_tool_call_tree_contains_id`, over the calls of a step. -/
def PlanStep.contains (step : PlanStep) (toolCallID : ℤ) : Bool := toolCallID ∈ callIDs step.toolCalls

/-- A call other than the one to keep that is active has failed. -/
def CallData.settle (keep : ℤ) (data : CallData) : CallData :=
  if data.toolCallID ≠ keep ∧ isActive data.status then { data with status := .failed } else data

mutual

/-- `_force_settle_tool_call_tree`. -/
def ToolCall.forceSettle (keep : ℤ) : ToolCall → ToolCall
  | .node data subCalls => .node (data.settle keep) (forceSettleCalls keep subCalls)

/-- `_force_settle_active_tool_calls`. -/
def forceSettleCalls (keep : ℤ) : List ToolCall → List ToolCall
  | [] => []
  | call :: rest => call.forceSettle keep :: forceSettleCalls keep rest

end

mutual

/-- Whether settling a tree changes it. -/
def ToolCall.forceSettles (keep : ℤ) : ToolCall → Bool
  | .node data subCalls => (data.toolCallID ≠ keep && isActive data.status) || anyForceSettles keep subCalls

def anyForceSettles (keep : ℤ) : List ToolCall → Bool
  | [] => false
  | call :: rest => call.forceSettles keep || anyForceSettles keep rest

end

def terminalPlanStepStatus (batchStatus : Status) : StepStatus :=
  if batchStatus = .cancelled then .cancelled
  else if batchStatus ∈ [Status.failed, .timedOut, .blocked] then .failed
  else .completed

def recoveryTailPlaceholderTitles : List String :=
  ["summarize result", "summarize results", "summarise result", "summarise results", "summarize execution result",
    "summarize execution results", "summarize delegated task result", "summarize delegated task results",
    "report result", "report results", "final response"]

/-- `str.split`, at blanks. -/
def words (text : String) : List String :=
  ((text.toList.splitOnP isBlank).filter fun letters => !letters.isEmpty).map String.ofList

/-- `str.strip` of the given characters. -/
def stripOf (letters : List Char) (text : String) : String :=
  String.ofList (((text.toList.dropWhile (· ∈ letters)).reverse.dropWhile (· ∈ letters)).reverse)

-- `str.casefold`, whose table the runtime has
variable (casefold : String → String)

def PlanStep.isRecoveryTailPlaceholder (step : PlanStep) : Bool :=
  stripOf [' ', '.', ':'] (" ".intercalate (words (strip (casefold step.title)))) ∈ recoveryTailPlaceholderTitles

/-- `_finish_unstarted_tail_steps_after`, on the steps behind: whether any changed, and what is left. -/
def finishUnstartedTail : List PlanStep → Bool × List PlanStep
  | [] => (false, [])
  | step :: rest =>
      let finished := finishUnstartedTail rest
      if !step.toolCalls.isEmpty || !step.canTerminalize then (finished.1, step :: finished.2)
      else if step.isRecoveryTailPlaceholder casefold then (true, finished.2)
      else (true, { step with status := .cancelled } :: finished.2)

variable (parentToolCallID : ℤ) (batchStatus : Status) (finishTail recovering : Bool)

/-- The step that owns the call, and those behind it. -/
def settleOwner (step : PlanStep) (rest : List PlanStep) : Bool × List PlanStep :=
  let changed := recovering && anyForceSettles parentToolCallID step.toolCalls
  let settled : PlanStep :=
    if recovering then { step with toolCalls := forceSettleCalls parentToolCallID step.toolCalls } else step
  if !settled.callsSettled then (changed, settled :: rest)
  else
    let terminal : PlanStep :=
      if settled.canTerminalize then { settled with status := terminalPlanStepStatus batchStatus } else settled
    let changed := changed || settled.canTerminalize
    if !settled.canTerminalize && !isTerminal settled.status then (changed, settled :: rest)
    else if finishTail then
      let finished := finishUnstartedTail casefold rest
      (finished.1 || changed, terminal :: finished.2)
    else (changed, terminal :: rest)

/-- The first step that owns the call, if any does. -/
def settleOwnerAmong : List PlanStep → Option (Bool × List PlanStep)
  | [] => none
  | step :: rest =>
      if step.contains parentToolCallID then
        some (settleOwner casefold parentToolCallID batchStatus finishTail recovering step rest)
      else
        (settleOwnerAmong rest).map fun settled => (settled.1, step :: settled.2)

/-- The only step of a plan that owns no call at all. Nothing is behind it. -/
def settleFallback : List PlanStep → Bool × List PlanStep
  | [step] =>
      if step.toolCalls.isEmpty && step.canTerminalize then
        (true, [{ step with status := terminalPlanStepStatus batchStatus }])
      else (false, [step])
  | steps => (false, steps)

/-- `_mark_parent_step_terminal_if_settled`: whether anything changed, and the plan behind it. -/
def markParentStepTerminalIfSettled (plan : Plan) : Bool × Plan :=
  if parentToolCallID = 0 then (false, plan)
  else
    let settled :=
      (settleOwnerAmong casefold parentToolCallID batchStatus finishTail recovering plan.steps).getD
        (settleFallback batchStatus plan.steps)
    (settled.1, { plan with steps := settled.2 })

end Settling

section Calls

mutual

def ToolCall.treeData : ToolCall → List CallData
  | .node data subCalls => data :: callData subCalls

def callData : List ToolCall → List CallData
  | [] => []
  | call :: rest => call.treeData ++ callData rest

end

variable {keep : ℤ}

@[simp] theorem settle_toolCallID (data : CallData) : (data.settle keep).toolCallID = data.toolCallID := by
  unfold CallData.settle
  split <;> rfl

theorem settle_settle (data : CallData) : (data.settle keep).settle keep = data.settle keep := by
  by_cases other : data.toolCallID ≠ keep ∧ isActive data.status
  · have settled : data.settle keep = { data with status := .failed } := if_pos other
    rw [settled, CallData.settle, if_neg]
    rintro ⟨-, active⟩
    cases active
  · have same : data.settle keep = data := if_neg other
    rw [same, same]

mutual

theorem ids_forceSettle : (call : ToolCall) → (call.forceSettle keep).ids = call.ids
  | .node data subCalls => by
      rw [ToolCall.forceSettle, ToolCall.ids, ToolCall.ids, settle_toolCallID, callIDs_forceSettleCalls subCalls]

theorem callIDs_forceSettleCalls : (calls : List ToolCall) → callIDs (forceSettleCalls keep calls) = callIDs calls
  | [] => rfl
  | call :: rest => by
      rw [forceSettleCalls, callIDs, callIDs, ids_forceSettle call, callIDs_forceSettleCalls rest]

end

mutual

theorem forceSettle_forceSettle :
    (call : ToolCall) → (call.forceSettle keep).forceSettle keep = call.forceSettle keep
  | .node data subCalls => by
      rw [ToolCall.forceSettle, ToolCall.forceSettle, settle_settle, forceSettleCalls_forceSettleCalls subCalls]

theorem forceSettleCalls_forceSettleCalls :
    (calls : List ToolCall) → forceSettleCalls keep (forceSettleCalls keep calls) = forceSettleCalls keep calls
  | [] => rfl
  | call :: rest => by
      rw [forceSettleCalls, forceSettleCalls, forceSettle_forceSettle call, forceSettleCalls_forceSettleCalls rest]

end

mutual

theorem isSettled_forceSettle : (call : ToolCall) →
    (∀ data ∈ call.treeData, data.toolCallID = keep → isActive data.status = false) →
      (call.forceSettle keep).isSettled
  | .node data subCalls, kept => by
      rw [ToolCall.forceSettle, ToolCall.isSettled,
        allSettled_forceSettleCalls subCalls fun other listed => kept other (List.mem_cons_of_mem _ listed)]
      unfold CallData.settle
      split
      · rfl
      · next still =>
          have passive : isActive data.status = false := by
            by_cases own : data.toolCallID = keep
            · exact kept data List.mem_cons_self own
            · exact Bool.eq_false_iff.mpr fun active => still ⟨own, active⟩
          rw [passive]
          rfl

theorem allSettled_forceSettleCalls : (calls : List ToolCall) →
    (∀ data ∈ callData calls, data.toolCallID = keep → isActive data.status = false) →
      allSettled (forceSettleCalls keep calls)
  | [], _ => rfl
  | call :: rest, kept => by
      rw [forceSettleCalls, allSettled,
        isSettled_forceSettle call fun data listed => kept data (List.mem_append_left _ listed),
        allSettled_forceSettleCalls rest fun data listed => kept data (List.mem_append_right _ listed)]
      rfl

end

end Calls

section Steps

variable {casefold : String → String} {parentToolCallID : ℤ} {batchStatus : Status} {finishTail recovering : Bool}

theorem canTerminalize_eq (step : PlanStep) : step.canTerminalize = !isTerminal step.status := by
  unfold PlanStep.canTerminalize isTerminal
  cases step.status <;> decide

theorem isTerminal_terminalPlanStepStatus : isTerminal (terminalPlanStepStatus batchStatus) := by
  unfold terminalPlanStepStatus
  split
  · rfl
  · split <;> rfl

/-- What comes of the steps behind: a step that has a tool call or is terminal stays as it is,
another one stays, is cancelled, or is dropped as a placeholder. -/
inductive Trimmed (casefold : String → String) : List PlanStep → List PlanStep → Prop where
  | nil : Trimmed casefold [] []
  | keep (step : PlanStep) {rest kept : List PlanStep} (others : Trimmed casefold rest kept) :
      Trimmed casefold (step :: rest) (step :: kept)
  | cancel (step : PlanStep) {rest kept : List PlanStep} (noCalls : step.toolCalls = [])
      (unstarted : isTerminal step.status = false) (others : Trimmed casefold rest kept) :
      Trimmed casefold (step :: rest) ({ step with status := .cancelled } :: kept)
  | drop (step : PlanStep) {rest kept : List PlanStep} (noCalls : step.toolCalls = [])
      (unstarted : isTerminal step.status = false) (placeholder : step.isRecoveryTailPlaceholder casefold)
      (others : Trimmed casefold rest kept) : Trimmed casefold (step :: rest) kept

theorem Trimmed.refl (steps : List PlanStep) : Trimmed casefold steps steps := by
  induction steps with
  | nil => exact .nil
  | cons step rest ih => exact .keep step ih

/-- A step that the tail is not finished at. -/
def PlanStep.isFixed (step : PlanStep) : Bool := !step.toolCalls.isEmpty || !step.canTerminalize

theorem finishUnstartedTail_spec (rest : List PlanStep) :
    Trimmed casefold rest (finishUnstartedTail casefold rest).2 ∧
      ∀ step ∈ (finishUnstartedTail casefold rest).2, step.isFixed := by
  induction rest with
  | nil =>
      refine ⟨.nil, ?_⟩
      intro step none
      cases none
  | cons step rest ih =>
      obtain ⟨trimmed, fixed⟩ := ih
      rw [finishUnstartedTail]
      by_cases stays : step.isFixed
      · have first : (!step.toolCalls.isEmpty || !step.canTerminalize) = true := stays
        rw [if_pos first]
        refine ⟨.keep step trimmed, ?_⟩
        intro other listed
        rcases List.mem_cons.mp listed with rfl | later
        · exact stays
        · exact fixed other later
      · have first : ¬ (!step.toolCalls.isEmpty || !step.canTerminalize) = true := stays
        rw [if_neg first]
        simp only [Bool.or_eq_true, Bool.not_eq_true', not_or, Bool.not_eq_false, List.isEmpty_iff] at first
        obtain ⟨noCalls, unstarted⟩ := first
        rw [canTerminalize_eq, Bool.not_eq_true'] at unstarted
        split
        · next placeholder => exact ⟨.drop step noCalls unstarted placeholder trimmed, fixed⟩
        · refine ⟨.cancel step noCalls unstarted trimmed, ?_⟩
          intro other listed
          rcases List.mem_cons.mp listed with rfl | later
          · unfold PlanStep.isFixed
            rw [canTerminalize_eq, noCalls]
            rfl
          · exact fixed other later

theorem finishUnstartedTail_fixed {rest : List PlanStep} (fixed : ∀ step ∈ rest, step.isFixed) :
    (finishUnstartedTail casefold rest).2 = rest := by
  induction rest with
  | nil => rfl
  | cons step rest ih =>
      have first : (!step.toolCalls.isEmpty || !step.canTerminalize) = true := fixed step List.mem_cons_self
      rw [finishUnstartedTail, if_pos first]
      exact congrArg (step :: ·) (ih fun other listed => fixed other (List.mem_cons_of_mem _ listed))

/-- What comes of the step that owns the call. -/
structure Settlement (parentToolCallID : ℤ) (recovering : Bool) (owner settled : PlanStep) : Prop where
  title : settled.title = owner.title
  updatedAt : settled.updatedAt = owner.updatedAt
  calls : settled.toolCalls =
    if recovering then forceSettleCalls parentToolCallID owner.toolCalls else owner.toolCalls
  terminal : isTerminal owner.status → settled.status = owner.status
  marked : settled.status ≠ owner.status → isTerminal settled.status ∧ allSettled settled.toolCalls
  recovered : recovering →
    (∀ data ∈ callData owner.toolCalls, data.toolCallID = parentToolCallID → isActive data.status = false) →
      isTerminal settled.status

theorem PlanStep.contains_ne_nil {step : PlanStep} (contains : step.contains parentToolCallID) :
    step.toolCalls.isEmpty = false := by
  unfold PlanStep.contains at contains
  cases calls : step.toolCalls with
  | nil =>
      rw [calls] at contains
      cases contains
  | cons call rest => rfl

/-- The step that owns the call before it may become terminal. -/
def ownerCalls (parentToolCallID : ℤ) (recovering : Bool) (step : PlanStep) : PlanStep :=
  if recovering then { step with toolCalls := forceSettleCalls parentToolCallID step.toolCalls } else step

theorem contains_ownerCalls (step : PlanStep) :
    (ownerCalls parentToolCallID recovering step).contains parentToolCallID = step.contains parentToolCallID := by
  unfold ownerCalls PlanStep.contains
  split
  · dsimp only
    rw [callIDs_forceSettleCalls]
  · rfl

/-- The steps that `settleOwner` leaves, by whether the calls of the step have settled. -/
theorem settleOwner_eq {step : PlanStep} {rest : List PlanStep} (contains : step.contains parentToolCallID) :
    (settleOwner casefold parentToolCallID batchStatus finishTail recovering step rest).2 =
      if allSettled (ownerCalls parentToolCallID recovering step).toolCalls then
        (if isTerminal step.status then ownerCalls parentToolCallID recovering step
          else { ownerCalls parentToolCallID recovering step with status := terminalPlanStepStatus batchStatus }) ::
          (if finishTail then (finishUnstartedTail casefold rest).2 else rest)
      else ownerCalls parentToolCallID recovering step :: rest := by
  have some_ : (ownerCalls parentToolCallID recovering step).toolCalls.isEmpty = false := by
    apply PlanStep.contains_ne_nil
    rw [contains_ownerCalls]
    exact contains
  have status : (ownerCalls parentToolCallID recovering step).status = step.status := by
    unfold ownerCalls
    split <;> rfl
  unfold settleOwner
  rw [← ownerCalls]
  dsimp only
  unfold PlanStep.callsSettled
  rw [some_, canTerminalize_eq, status]
  cases allSettled (ownerCalls parentToolCallID recovering step).toolCalls <;> cases isTerminal step.status <;>
    cases finishTail <;> rfl

theorem ownerCalls_calls (step : PlanStep) : (ownerCalls parentToolCallID recovering step).toolCalls =
    if recovering then forceSettleCalls parentToolCallID step.toolCalls else step.toolCalls := by
  unfold ownerCalls
  split <;> rfl

theorem ownerCalls_fields (step : PlanStep) : (ownerCalls parentToolCallID recovering step).title = step.title ∧
    (ownerCalls parentToolCallID recovering step).status = step.status ∧
      (ownerCalls parentToolCallID recovering step).updatedAt = step.updatedAt := by
  unfold ownerCalls
  split <;> exact ⟨rfl, rfl, rfl⟩

theorem ownerCalls_again (step : PlanStep) (status : StepStatus) :
    ownerCalls parentToolCallID recovering { ownerCalls parentToolCallID recovering step with status } =
      { ownerCalls parentToolCallID recovering step with status } := by
  unfold ownerCalls
  split
  · dsimp only
    rw [forceSettleCalls_forceSettleCalls]
  · rfl

/-- The tail that is kept, where the step is settled. -/
def keptTail (casefold : String → String) (finishTail : Bool) (rest : List PlanStep) : List PlanStep :=
  if finishTail then (finishUnstartedTail casefold rest).2 else rest

theorem keptTail_spec (rest : List PlanStep) : Trimmed casefold rest (keptTail casefold finishTail rest) ∧
    keptTail casefold finishTail (keptTail casefold finishTail rest) = keptTail casefold finishTail rest := by
  unfold keptTail
  split
  · obtain ⟨trimmed, fixed⟩ := @finishUnstartedTail_spec casefold rest
    exact ⟨trimmed, finishUnstartedTail_fixed fixed⟩
  · exact ⟨.refl rest, rfl⟩

theorem settleOwner_spec {step : PlanStep} (rest : List PlanStep) (contains : step.contains parentToolCallID) :
    ∃ settled kept, (settleOwner casefold parentToolCallID batchStatus finishTail recovering step rest).2 =
        settled :: kept ∧ Settlement parentToolCallID recovering step settled ∧ Trimmed casefold rest kept ∧
      settled.contains parentToolCallID ∧
      (settleOwner casefold parentToolCallID batchStatus finishTail recovering settled kept).2 = settled :: kept := by
  have inside : (ownerCalls parentToolCallID recovering step).contains parentToolCallID := by
    rw [contains_ownerCalls]
    exact contains
  obtain ⟨title, status, updatedAt⟩ := @ownerCalls_fields parentToolCallID recovering step
  have again := @ownerCalls_again parentToolCallID recovering step
  have calls := @ownerCalls_calls parentToolCallID recovering step
  -- a recovery settles all calls but those of the batch
  have recovered : recovering →
      (∀ data ∈ callData step.toolCalls, data.toolCallID = parentToolCallID → isActive data.status = false) →
        allSettled (ownerCalls parentToolCallID recovering step).toolCalls := by
    intro recovers kept
    rw [calls, if_pos recovers]
    exact allSettled_forceSettleCalls _ kept
  rw [settleOwner_eq contains]
  generalize ownerCalls parentToolCallID recovering step = owned at *
  by_cases settles : allSettled owned.toolCalls
  · rw [if_pos settles]
    obtain ⟨trimmed, finished⟩ := @keptTail_spec casefold finishTail rest
    refine ⟨_, keptTail casefold finishTail rest, rfl, ?_⟩
    by_cases terminal : isTerminal step.status
    · rw [if_pos terminal]
      refine ⟨⟨title, updatedAt, calls, fun _ => status, fun changed => absurd status changed, ?_⟩, trimmed, inside, ?_⟩
      · intro _ _
        rw [status]
        exact terminal
      · have same : ownerCalls parentToolCallID recovering owned = owned := again owned.status
        rw [settleOwner_eq inside, same, if_pos settles, status, if_pos terminal]
        exact congrArg (owned :: ·) finished
    · rw [if_neg terminal]
      have marked := @isTerminal_terminalPlanStepStatus batchStatus
      refine ⟨⟨title, updatedAt, calls, fun before => absurd before terminal, fun _ => ⟨marked, settles⟩,
        fun _ _ => marked⟩, trimmed, inside, ?_⟩
      have same := again (terminalPlanStepStatus batchStatus)
      rw [settleOwner_eq (by exact inside), same, if_pos settles, if_pos marked]
      exact congrArg (_ :: ·) finished
  · rw [if_neg settles]
    refine ⟨owned, rest, rfl, ⟨title, updatedAt, calls, fun _ => status, fun changed => absurd status changed, ?_⟩,
      .refl rest, inside, ?_⟩
    · intro recovers kept
      exact absurd (recovered recovers kept) settles
    · have same : ownerCalls parentToolCallID recovering owned = owned := again owned.status
      rw [settleOwner_eq inside, same, if_neg settles]

theorem settleOwnerAmong_eq {before after : List PlanStep} {owner : PlanStep}
    (apart : ∀ step ∈ before, step.contains parentToolCallID = false) (contains : owner.contains parentToolCallID) :
    (settleOwnerAmong casefold parentToolCallID batchStatus finishTail recovering (before ++ owner :: after)).map
      Prod.snd = some (before ++
        (settleOwner casefold parentToolCallID batchStatus finishTail recovering owner after).2) := by
  induction before with
  | nil =>
      rw [List.nil_append, settleOwnerAmong, if_pos contains]
      rfl
  | cons step rest ih =>
      have other : ¬ step.contains parentToolCallID = true := by
        rw [apart step List.mem_cons_self]
        exact Bool.false_ne_true
      have later := ih fun other listed => apart other (List.mem_cons_of_mem _ listed)
      rw [List.cons_append, settleOwnerAmong, if_neg other, Option.map_map]
      obtain ⟨found, same, steps⟩ := Option.map_eq_some_iff.mp later
      rw [same, Option.map_some, Function.comp_apply]
      exact congrArg (fun steps => some (step :: steps)) steps

theorem cut_at_owner {steps : List PlanStep} (present : parentToolCallID ∈ callIDs (stepCalls steps)) :
    ∃ (before : List PlanStep) (owner : PlanStep) (after : List PlanStep), steps = before ++ owner :: after ∧
      (∀ step ∈ before, step.contains parentToolCallID = false) ∧ owner.contains parentToolCallID := by
  induction steps with
  | nil => cases present
  | cons step rest ih =>
      by_cases own : step.contains parentToolCallID
      · refine ⟨[], step, rest, rfl, ?_, own⟩
        intro other none
        cases none
      · have apart : parentToolCallID ∉ callIDs step.toolCalls := by simpa [PlanStep.contains] using own
        rw [stepCalls_cons, callIDs_append] at present
        obtain ⟨before, owner, after, rfl, others, contains⟩ := ih ((List.mem_append.mp present).resolve_left apart)
        refine ⟨step :: before, owner, after, rfl, ?_, contains⟩
        intro other listed
        rcases List.mem_cons.mp listed with rfl | later
        · exact Bool.eq_false_iff.mpr own
        · exact others other later

theorem markParentStep_steps {plan : Plan} (nonzero : parentToolCallID ≠ 0) {steps : List PlanStep}
    (settled : (settleOwnerAmong casefold parentToolCallID batchStatus finishTail recovering plan.steps).map Prod.snd =
      some steps) :
    (markParentStepTerminalIfSettled casefold parentToolCallID batchStatus finishTail recovering plan).2 =
      { plan with steps } := by
  obtain ⟨found, same, rfl⟩ := Option.map_eq_some_iff.mp settled
  unfold markParentStepTerminalIfSettled
  rw [if_neg nonzero, same]
  rfl

/-- What comes of a plan: the steps before the one that owns the call stay, that step is settled, and
those behind it are trimmed. -/
def SettledFor (casefold : String → String) (parentToolCallID : ℤ) (recovering : Bool) (plan settled : Plan) : Prop :=
  ∃ before owner after own kept, plan.steps = before ++ owner :: after ∧
    (∀ step ∈ before, step.contains parentToolCallID = false) ∧ owner.contains parentToolCallID ∧
      settled = { plan with steps := before ++ own :: kept } ∧ Settlement parentToolCallID recovering owner own ∧
        Trimmed casefold after kept

/-- **Settling the step of a batch** loses and reopens no work, and changes nothing when it is done
again. -/
theorem markParentStep_settles (casefold : String → String) (parentToolCallID : ℤ) (batchStatus : Status)
    (finishTail recovering : Bool) (plan : Plan) (nonzero : parentToolCallID ≠ 0) (present : parentToolCallID ∈ plan.ids) :
    SettledFor casefold parentToolCallID recovering plan
        (markParentStepTerminalIfSettled casefold parentToolCallID batchStatus finishTail recovering plan).2 ∧
      (markParentStepTerminalIfSettled casefold parentToolCallID batchStatus finishTail recovering
          (markParentStepTerminalIfSettled casefold parentToolCallID batchStatus finishTail recovering plan).2).2 =
        (markParentStepTerminalIfSettled casefold parentToolCallID batchStatus finishTail recovering plan).2 := by
  obtain ⟨before, owner, after, cut, apart, contains⟩ := cut_at_owner present
  obtain ⟨settled, kept, once, settlement, trimmed, inside, again⟩ :=
    @settleOwner_spec casefold parentToolCallID batchStatus finishTail recovering owner after contains
  have first := @settleOwnerAmong_eq casefold parentToolCallID batchStatus finishTail recovering before after owner
    apart contains
  have second := @settleOwnerAmong_eq casefold parentToolCallID batchStatus finishTail recovering before kept settled
    apart inside
  rw [← cut, once] at first
  rw [again] at second
  rw [markParentStep_steps nonzero first]
  refine ⟨⟨before, owner, after, settled, kept, cut, apart, contains, rfl, settlement, trimmed⟩, ?_⟩
  exact markParentStep_steps nonzero second

/-- A completed step with a read beside the batch that nobody marked as done. -/
def orphaned : Plan :=
  { steps :=
      [{ title := "Run tasks", status := .completed
         toolCalls :=
          [.node { toolCallID := 1, status := .successful } [], .node { toolCallID := 2, status := .running } []] }] }

theorem markParentStep_settles_orphaned :
    SettledFor id 1 true orphaned (markParentStepTerminalIfSettled id 1 .completed true true orphaned).2 ∧
      (markParentStepTerminalIfSettled id 1 .completed true true
          (markParentStepTerminalIfSettled id 1 .completed true true orphaned).2).2 =
        (markParentStepTerminalIfSettled id 1 .completed true true orphaned).2 :=
  markParentStep_settles id 1 .completed true true orphaned (by decide) (by decide)

/-- A recovery settles the calls of a step that is terminal already. -/
theorem markParentStep_changes_terminal :
    ¬ ∀ (casefold : String → String) (parentToolCallID : ℤ) (batchStatus : Status) (finishTail recovering : Bool)
      (plan : Plan), parentToolCallID ∈ plan.ids → ∀ step ∈ plan.steps, isTerminal step.status →
        step ∈ (markParentStepTerminalIfSettled casefold parentToolCallID batchStatus finishTail recovering plan).2.steps := by
  intro unchanged
  have stays := unchanged id 1 .completed true true orphaned (by decide) _ List.mem_cons_self rfl
  have statuses := List.mem_map_of_mem stays (f := fun step => (callData step.toolCalls).map CallData.status)
  exact absurd statuses (by decide)

end Steps

end Sico.TaskRuntime.Presentation

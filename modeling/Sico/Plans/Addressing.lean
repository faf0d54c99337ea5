import Sico.Plans.ToolCallIDs

/-! # Tool calls that can be addressed

`get_tool_call` looks at the top-level calls and right below them, while calls are created,
marked and removed at any depth. A call that is created under a sub-call is therefore in the
plan without being found there. As identifiers are fresh, a call whose parent is a top-level one,
or that has none, is found for as long as it is not removed.
-/

namespace Sico.Plans

open Foundation

section Near

/-- The identifiers of the calls of a list, without what is below them. -/
def topIDs (calls : List ToolCall) : List ℤ := calls.map ToolCall.toolCallID

/-- The identifiers that `get_tool_call` looks at. -/
def nearIDs : List ToolCall → List ℤ
  | [] => []
  | call :: rest => call.toolCallID :: (topIDs call.subCalls ++ nearIDs rest)

def stepCalls (steps : List PlanStep) : List ToolCall := steps.flatMap PlanStep.toolCalls

/-- Whether the call that `get_tool_call` finds is a sub-call. -/
def foundBelow (target : ℤ) : List ToolCall → Bool
  | [] => false
  | call :: rest =>
      if call.toolCallID = target then false
      else if target ∈ topIDs call.subCalls then true
      else foundBelow target rest

@[simp] theorem topIDs_cons (call : ToolCall) (rest : List ToolCall) :
    topIDs (call :: rest) = call.toolCallID :: topIDs rest :=
  rfl

theorem topIDs_append (first second : List ToolCall) :
    topIDs (first ++ second) = topIDs first ++ topIDs second :=
  List.map_append

theorem nearIDs_append (first second : List ToolCall) :
    nearIDs (first ++ second) = nearIDs first ++ nearIDs second := by
  induction first with
  | nil => rfl
  | cons call rest ih =>
      rw [List.cons_append, nearIDs, nearIDs, ih, List.cons_append, List.append_assoc]

theorem stepCalls_cons (step : PlanStep) (rest : List PlanStep) :
    stepCalls (step :: rest) = step.toolCalls ++ stepCalls rest :=
  List.flatMap_cons

theorem stepIDs_eq (steps : List PlanStep) : stepIDs steps = callIDs (stepCalls steps) := by
  induction steps with
  | nil => rfl
  | cons step rest ih => rw [stepIDs_cons, stepCalls_cons, callIDs_append, ih]

theorem ids_eq (call : ToolCall) : call.ids = call.toolCallID :: callIDs call.subCalls := by
  cases call with
  | node data subCalls => rfl

theorem mem_callIDs_of_top {calls : List ToolCall} {id : ℤ} (top : id ∈ topIDs calls) :
    id ∈ callIDs calls := by
  induction calls with
  | nil => cases top
  | cons call rest ih =>
      rw [callIDs, ids_eq]
      rcases List.mem_cons.mp top with rfl | later
      · exact List.mem_append_left _ List.mem_cons_self
      · exact List.mem_append_right _ (ih later)

theorem mem_callIDs_of_near {calls : List ToolCall} {id : ℤ} (near : id ∈ nearIDs calls) :
    id ∈ callIDs calls := by
  induction calls with
  | nil => cases near
  | cons call rest ih =>
      rw [callIDs, ids_eq]
      rcases List.mem_cons.mp near with rfl | near
      · exact List.mem_append_left _ List.mem_cons_self
      · rcases List.mem_append.mp near with below | later
        · exact List.mem_append_left _ (List.mem_cons_of_mem _ (mem_callIDs_of_top below))
        · exact List.mem_append_right _ (ih later)

theorem mem_near_of_foundBelow {calls : List ToolCall} {target : ℤ} (below : foundBelow target calls) :
    target ∈ nearIDs calls := by
  induction calls with
  | nil => cases below
  | cons call rest ih =>
      rw [foundBelow] at below
      split at below
      · cases below
      · split at below
        · next among => exact List.mem_cons_of_mem _ (List.mem_append_left _ among)
        · exact List.mem_cons_of_mem _ (List.mem_append_right _ (ih below))

end Near

section Lookup

variable {target : ℤ}

theorem find?_subCalls {calls : List ToolCall} {call : ToolCall}
    (found : calls.find? (·.toolCallID = target) = some call) : call.toolCallID = target := by
  have same := List.find?_some found
  simpa using same

/-- `get_tool_call` finds a call if and only if it looks at the identifier, and it finds no other. -/
theorem getToolCall_spec (calls : List ToolCall) :
    (∀ call, getToolCall target calls = some call → call.toolCallID = target) ∧
      ((∃ call, getToolCall target calls = some call) ↔ target ∈ nearIDs calls) := by
  induction calls with
  | nil =>
      constructor
      · intro call found
        cases found
      · constructor
        · rintro ⟨call, found⟩
          cases found
        · intro near
          cases near
  | cons first rest ih =>
      obtain ⟨right, exists_⟩ := ih
      rw [getToolCall, nearIDs, List.mem_cons, List.mem_append, ← exists_]
      split
      · next same =>
          refine ⟨?_, fun _ => .inl same.symm, fun _ => ⟨first, rfl⟩⟩
          rintro call ⟨⟩
          exact same
      · next other =>
          cases below : first.subCalls.find? (·.toolCallID = target) with
          | some sub =>
              have own := find?_subCalls below
              refine ⟨?_, fun _ => .inr (.inl ?_), fun _ => ⟨sub, rfl⟩⟩
              · rintro call ⟨⟩
                exact own
              · rw [← own]
                exact List.mem_map_of_mem (List.mem_of_find?_eq_some below)
          | none =>
              refine ⟨right, fun found => .inr (.inr found), ?_⟩
              rintro (same | among | found)
              · exact absurd same.symm other
              · obtain ⟨sub, listed, same⟩ := List.mem_map.mp among
                have apart := List.find?_eq_none.mp below sub listed
                exact absurd (decide_eq_true same) apart
              · exact found

theorem Plan.getToolCall_eq (plan : Plan) :
    plan.getToolCall target = Plans.getToolCall target (stepCalls plan.steps) := by
  have append (first second : List ToolCall) : Plans.getToolCall target (first ++ second) =
      (Plans.getToolCall target first).or (Plans.getToolCall target second) := by
    induction first with
    | nil => rfl
    | cons call rest ih =>
        rw [List.cons_append, Plans.getToolCall, Plans.getToolCall, ih]
        split
        · rfl
        · split <;> rfl
  unfold Plan.getToolCall
  induction plan.steps with
  | nil => rfl
  | cons step rest ih =>
      rw [List.findSome?_cons, stepCalls_cons, append, ih]
      cases Plans.getToolCall target step.toolCalls <;> rfl

end Lookup

section ChangeEvery

variable (target : ℤ) (change : ToolCall → ToolCall)

mutual

/-- A tree with each call of the identifier changed. -/
def ToolCall.changeEvery : ToolCall → ToolCall
  | .node data subCalls =>
      if data.toolCallID = target then change (.node data subCalls)
      else .node data (changeEveryAmong subCalls)

def changeEveryAmong : List ToolCall → List ToolCall
  | [] => []
  | call :: rest => call.changeEvery :: changeEveryAmong rest

end

def changeEveryInSteps (steps : List PlanStep) : List PlanStep :=
  steps.map fun step => { step with toolCalls := changeEveryAmong target change step.toolCalls }

variable {target change}

mutual

theorem changeEvery_of_absent :
    (call : ToolCall) → target ∉ call.ids → call.changeEvery target change = call
  | .node data subCalls, absent => by
      rw [ToolCall.ids, List.mem_cons, not_or] at absent
      rw [ToolCall.changeEvery, if_neg (Ne.symm absent.1), changeEveryAmong_of_absent subCalls absent.2]

theorem changeEveryAmong_of_absent :
    (calls : List ToolCall) → target ∉ callIDs calls → changeEveryAmong target change calls = calls
  | [], _ => rfl
  | call :: rest, absent => by
      rw [callIDs, List.mem_append, not_or] at absent
      rw [changeEveryAmong, changeEvery_of_absent call absent.1, changeEveryAmong_of_absent rest absent.2]

end

theorem changeEvery_of_eq {call : ToolCall} (own : call.toolCallID = target) :
    call.changeEvery target change = change call := by
  cases call with
  | node data subCalls => exact if_pos own

theorem absent_of_count {first second : List ℤ} (once : (first ++ second).count target = 1) :
    (target ∈ first → target ∉ second) ∧ (target ∈ second → target ∉ first) ∧
      (target ∈ first → first.count target = 1) ∧ (target ∈ second → second.count target = 1) := by
  rw [List.count_append] at once
  simp only [← List.count_pos_iff]
  omega

theorem changeFirst_eq {calls : List ToolCall} (top : target ∈ topIDs calls)
    (once : (callIDs calls).count target = 1) :
    changeFirst target change calls = some (changeEveryAmong target change calls) := by
  induction calls with
  | nil => cases top
  | cons call rest ih =>
      obtain ⟨here, there, -, later⟩ := absent_of_count once
      rw [changeFirst, changeEveryAmong]
      split
      · next own =>
          have among : target ∈ call.ids := by
            rw [ids_eq, own]
            exact List.mem_cons_self
          rw [changeEvery_of_eq own, changeEveryAmong_of_absent rest (here among)]
      · next other =>
          have behind : target ∈ topIDs rest := (List.mem_cons.mp top).resolve_left (Ne.symm other)
          have among := mem_callIDs_of_top behind
          rw [ih behind (later among), changeEvery_of_absent call (there among)]
          rfl

theorem changeFirst_isSome {calls : List ToolCall} :
    (changeFirst target change calls).isSome ↔ target ∈ topIDs calls := by
  induction calls with
  | nil =>
      constructor
      · intro found
        cases found
      · intro top
        cases top
  | cons call rest ih =>
      rw [changeFirst, topIDs_cons, List.mem_cons]
      split
      · next own => exact ⟨fun _ => .inl own.symm, fun _ => rfl⟩
      · next other => rw [Option.isSome_map, ih, or_iff_right (Ne.symm other)]

theorem changeFirst_eq_none {calls : List ToolCall} (apart : target ∉ topIDs calls) :
    changeFirst target change calls = none := by
  induction calls with
  | nil => rfl
  | cons call rest ih =>
      obtain ⟨other, behind⟩ := not_or.mp (mt List.mem_cons.mpr apart)
      rw [changeFirst, if_neg (Ne.symm other), ih behind]
      rfl

theorem changeToolCall_eq {calls : List ToolCall} (near : target ∈ nearIDs calls)
    (once : (callIDs calls).count target = 1) :
    changeToolCall target change calls = some (changeEveryAmong target change calls) := by
  induction calls with
  | nil => cases near
  | cons call rest ih =>
      obtain ⟨here, there, single, later⟩ := absent_of_count once
      rw [changeToolCall, changeEveryAmong]
      split
      · next own =>
          have among : target ∈ call.ids := by
            rw [ids_eq, own]
            exact List.mem_cons_self
          rw [changeEvery_of_eq own, changeEveryAmong_of_absent rest (here among)]
      · next other =>
          cases call with
          | node data subCalls =>
              by_cases below : target ∈ topIDs subCalls
              · have among : target ∈ (ToolCall.node data subCalls).ids :=
                  List.mem_cons_of_mem _ (mem_callIDs_of_top below)
                have different : data.toolCallID ≠ target := other
                have counted := single among
                rw [ToolCall.ids, List.count_cons_of_ne different] at counted
                rw [ToolCall.subCalls, changeFirst_eq below counted, ToolCall.changeEvery,
                  if_neg different, changeEveryAmong_of_absent rest (here among)]
                rfl
              · have behind : target ∈ nearIDs rest := by
                  rcases List.mem_cons.mp near with same | near
                  · exact absurd same.symm other
                  · exact (List.mem_append.mp near).resolve_left below
                have among := mem_callIDs_of_near behind
                rw [ToolCall.subCalls, changeFirst_eq_none below, changeEvery_of_absent _ (there among)]
                dsimp only
                rw [ih behind (later among)]
                rfl

theorem changeToolCall_isSome {calls : List ToolCall} (near : target ∈ nearIDs calls) :
    (changeToolCall target change calls).isSome := by
  induction calls with
  | nil => cases near
  | cons call rest ih =>
      rw [changeToolCall]
      split
      · rfl
      · next other =>
          cases below : changeFirst target change call.subCalls with
          | some subCalls => rfl
          | none =>
              have apart : target ∉ topIDs call.subCalls := by
                intro among
                have some : (changeFirst target change call.subCalls).isSome := changeFirst_isSome.mpr among
                rw [below] at some
                cases some
              dsimp only
              rw [Option.isSome_map]
              rw [nearIDs, List.mem_cons, List.mem_append, or_iff_right (Ne.symm other), or_iff_right apart] at near
              exact ih near

theorem changeToolCall_eq_none {calls : List ToolCall} (apart : target ∉ nearIDs calls) :
    changeToolCall target change calls = none := by
  induction calls with
  | nil => rfl
  | cons call rest ih =>
      rw [nearIDs, List.mem_cons, List.mem_append, not_or, not_or] at apart
      rw [changeToolCall, if_neg (Ne.symm apart.1), changeFirst_eq_none apart.2.1, ih apart.2.2]
      rfl

/-- A call that `get_tool_call` looks at, and whose identifier is there once, is the one that is
changed. -/
theorem changeInSteps_eq {steps : List PlanStep} (near : target ∈ nearIDs (stepCalls steps))
    (once : (stepIDs steps).count target = 1) :
    changeInSteps target change steps = some (changeEveryInSteps target change steps) := by
  induction steps with
  | nil => cases near
  | cons step rest ih =>
      rw [stepIDs_cons] at once
      obtain ⟨here, there, single, later⟩ := absent_of_count once
      rw [stepCalls_cons, nearIDs_append] at near
      rw [changeInSteps, changeEveryInSteps, List.map_cons]
      by_cases among : target ∈ nearIDs step.toolCalls
      · have listed := mem_callIDs_of_near among
        rw [changeToolCall_eq among (single listed)]
        have same : changeEveryInSteps target change rest = rest := by
          have absent := here listed
          clear ih once near here there later
          induction rest with
          | nil => rfl
          | cons next rest ih =>
              rw [stepIDs_cons, List.mem_append, not_or] at absent
              rw [changeEveryInSteps, List.map_cons, changeEveryAmong_of_absent _ absent.1]
              exact congrArg (next :: ·) (ih absent.2)
        exact congrArg (fun rest => some (_ :: rest)) same.symm
      · have behind := (List.mem_append.mp near).resolve_left among
        have listed : target ∈ stepIDs rest := by
          rw [stepIDs_eq]
          exact mem_callIDs_of_near behind
        rw [changeToolCall_eq_none among, ih behind (later listed), changeEveryAmong_of_absent _ (there listed)]
        rfl

end ChangeEvery

section Operations

variable {target now : ℤ}

theorem topIDs_mapCalls {change : CallData → CallData}
    (same : ∀ data, (change data).toolCallID = data.toolCallID) (calls : List ToolCall) :
    topIDs (mapCalls change calls) = topIDs calls := by
  induction calls with
  | nil => rfl
  | cons call rest ih =>
      cases call with
      | node data subCalls =>
          rw [mapCalls, topIDs_cons, topIDs_cons, ih, ToolCall.mapData]
          exact congrArg (· :: topIDs rest) (same data)

theorem near_mapCalls {change : CallData → CallData}
    (same : ∀ data, (change data).toolCallID = data.toolCallID) (calls : List ToolCall) :
    nearIDs (mapCalls change calls) = nearIDs calls ∧
      foundBelow target (mapCalls change calls) = foundBelow target calls := by
  induction calls with
  | nil => exact ⟨rfl, rfl⟩
  | cons call rest ih =>
      obtain ⟨near, below⟩ := ih
      cases call with
      | node data subCalls =>
          have own : (ToolCall.mapData change (.node data subCalls)).toolCallID = data.toolCallID := same data
          have subs : topIDs (ToolCall.mapData change (.node data subCalls)).subCalls = topIDs subCalls :=
            topIDs_mapCalls same subCalls
          rw [mapCalls, nearIDs, nearIDs, foundBelow, foundBelow, own, subs, near, below]
          exact ⟨rfl, rfl⟩

theorem markPath_top {call marked : ToolCall} (found : call.markPath target now = some marked) :
    marked.toolCallID = call.toolCallID := by
  cases call with
  | node data subCalls =>
      rw [ToolCall.markPath] at found
      split at found
      · cases found
        rfl
      · obtain ⟨calls, -, rfl⟩ := Option.map_eq_some_iff.mp found
        rfl

theorem topIDs_markPathAmong {calls marked : List ToolCall}
    (found : markPathAmong target now calls = some marked) : topIDs marked = topIDs calls := by
  induction calls generalizing marked with
  | nil => cases found
  | cons call rest ih =>
      rw [markPathAmong] at found
      cases here : call.markPath target now with
      | some own =>
          rw [here] at found
          cases found
          rw [topIDs_cons, topIDs_cons, markPath_top here]
      | none =>
          rw [here] at found
          obtain ⟨later, behind, rfl⟩ := Option.map_eq_some_iff.mp found
          rw [topIDs_cons, topIDs_cons, ih behind]

theorem nearIDs_markPathAmong {calls marked : List ToolCall}
    (found : markPathAmong target now calls = some marked) : nearIDs marked = nearIDs calls := by
  induction calls generalizing marked with
  | nil => cases found
  | cons call rest ih =>
      rw [markPathAmong] at found
      cases here : call.markPath target now with
      | some own =>
          rw [here] at found
          cases found
          have subs : topIDs own.subCalls = topIDs call.subCalls := by
            cases call with
            | node data subCalls =>
                rw [ToolCall.markPath] at here
                split at here
                · cases here
                  rfl
                · obtain ⟨calls, below, rfl⟩ := Option.map_eq_some_iff.mp here
                  exact topIDs_markPathAmong below
          rw [nearIDs, nearIDs, markPath_top here, subs]
      | none =>
          rw [here] at found
          obtain ⟨later, behind, rfl⟩ := Option.map_eq_some_iff.mp found
          rw [nearIDs, nearIDs, ih behind]

theorem near_propagateUpdatedAt (steps : List PlanStep) :
    nearIDs (stepCalls (propagateUpdatedAt target now steps)) = nearIDs (stepCalls steps) := by
  induction steps with
  | nil => rfl
  | cons step rest ih =>
      rw [propagateUpdatedAt]
      cases found : markPathAmong target now step.toolCalls with
      | some calls =>
          rw [stepCalls_cons, stepCalls_cons, nearIDs_append, nearIDs_append]
          exact congrArg (· ++ nearIDs (stepCalls rest)) (nearIDs_markPathAmong found)
      | none => rw [stepCalls_cons, stepCalls_cons, nearIDs_append, nearIDs_append, ih]

theorem stepCalls_cancelFirstOpen (steps : List PlanStep) :
    stepCalls (cancelFirstOpen steps) = stepCalls steps := by
  induction steps with
  | nil => rfl
  | cons step rest ih =>
      rw [cancelFirstOpen]
      split
      · rw [stepCalls_cons, stepCalls_cons, ih]
      · rfl

theorem near_markAnalyzed (steps : List PlanStep) :
    nearIDs (stepCalls (markAnalyzed steps)) = nearIDs (stepCalls steps) ∧
      foundBelow target (stepCalls (markAnalyzed steps)) = foundBelow target (stepCalls steps) := by
  have same (data : CallData) : (analyzed data).toolCallID = data.toolCallID := by
    unfold analyzed
    split <;> rfl
  have calls : stepCalls (markAnalyzed steps) = mapCalls analyzed (stepCalls steps) := by
    have append (first second : List ToolCall) :
        mapCalls analyzed (first ++ second) = mapCalls analyzed first ++ mapCalls analyzed second := by
      induction first with
      | nil => rfl
      | cons call rest ih => rw [List.cons_append, mapCalls, mapCalls, ih, List.cons_append]
    induction steps with
    | nil => rfl
    | cons step rest ih =>
        have rest' : stepCalls (markAnalyzed rest) = mapCalls analyzed (stepCalls rest) := ih
        rw [markAnalyzed, List.map_cons, stepCalls_cons, stepCalls_cons, append]
        exact congrArg (mapCalls analyzed step.toolCalls ++ ·) rest'
  rw [calls]
  exact near_mapCalls same _

theorem mem_near_appendTopLevelToolCall (call : ToolCall) (steps : List PlanStep) (id : ℤ) :
    id ∈ nearIDs (stepCalls (appendTopLevelToolCall call now steps)) ↔
      id ∈ nearIDs (stepCalls steps) ∨ id ∈ nearIDs [call] := by
  have here (step : PlanStep) (rest : List PlanStep) :
      id ∈ nearIDs (stepCalls ({ step with toolCalls := step.toolCalls ++ [call], updatedAt := now } :: rest)) ↔
        id ∈ nearIDs (stepCalls (step :: rest)) ∨ id ∈ nearIDs [call] := by
    rw [stepCalls_cons, stepCalls_cons, nearIDs_append, nearIDs_append, nearIDs_append]
    simp only [List.mem_append]
    rw [or_right_comm]
  induction steps with
  | nil =>
      rw [appendTopLevelToolCall, stepCalls_cons]
      change id ∈ nearIDs ([call] ++ []) ↔ id ∈ nearIDs [] ∨ _
      rw [List.append_nil, nearIDs, List.mem_nil_iff, false_or]
  | cons step rest ih =>
      cases rest with
      | nil => exact here step []
      | cons next rest =>
          rw [appendTopLevelToolCall]
          split
          · rw [stepCalls_cons, stepCalls_cons, nearIDs_append, nearIDs_append, List.mem_append, List.mem_append]
            exact (or_congr_right ih).trans or_assoc.symm
          · exact here step (next :: rest)

variable {sub : ToolCall}

theorem toolCallID_addSubCall (call : ToolCall) : (ToolCall.addSubCall sub call).toolCallID = call.toolCallID := by
  cases call with
  | node data subCalls => rfl

theorem subCalls_addSubCall (call : ToolCall) :
    (ToolCall.addSubCall sub call).subCalls = call.subCalls ++ [sub] := by
  cases call with
  | node data subCalls => rfl

theorem topIDs_changeFirst {calls changed : List ToolCall}
    (found : changeFirst target (.addSubCall sub) calls = some changed) : topIDs changed = topIDs calls := by
  induction calls generalizing changed with
  | nil => cases found
  | cons call rest ih =>
      rw [changeFirst] at found
      split at found
      · cases found
        rw [topIDs_cons, topIDs_cons, toolCallID_addSubCall]
      · obtain ⟨later, behind, rfl⟩ := Option.map_eq_some_iff.mp found
        rw [topIDs_cons, topIDs_cons, ih behind]

theorem mem_near_changeToolCall {calls changed : List ToolCall}
    (found : changeToolCall target (.addSubCall sub) calls = some changed) (id : ℤ) :
    id ∈ nearIDs changed ↔ id ∈ nearIDs calls ∨ id = sub.toolCallID ∧ ¬ foundBelow target calls := by
  induction calls generalizing changed with
  | nil => cases found
  | cons call rest ih =>
      rw [changeToolCall] at found
      rw [foundBelow]
      split at found
      · next own =>
          cases found
          have single : id ∈ topIDs [sub] ↔ id = sub.toolCallID := List.mem_singleton
          rw [if_pos own, nearIDs, nearIDs, toolCallID_addSubCall, subCalls_addSubCall, topIDs_append]
          rw [List.mem_cons, List.mem_cons, List.mem_append, List.mem_append, List.mem_append, single,
            and_iff_left Bool.false_ne_true, or_right_comm, or_assoc, or_assoc, or_assoc]
      · next other =>
          rw [if_neg other]
          cases below : changeFirst target (.addSubCall sub) call.subCalls with
          | some subCalls =>
              rw [below] at found
              cases found
              have among : target ∈ topIDs call.subCalls := by
                apply changeFirst_isSome.mp
                rw [below]
                rfl
              have subs : topIDs (ToolCall.node call.data subCalls).subCalls = topIDs call.subCalls :=
                topIDs_changeFirst below
              rw [if_pos among, nearIDs, nearIDs, subs]
              simp [ToolCall.toolCallID, ToolCall.data]
          | none =>
              rw [below] at found
              obtain ⟨later, behind, rfl⟩ := Option.map_eq_some_iff.mp found
              have apart : target ∉ topIDs call.subCalls := by
                intro among
                have some : (changeFirst target (.addSubCall sub) call.subCalls).isSome :=
                  changeFirst_isSome.mpr among
                rw [below] at some
                cases some
              rw [if_neg apart, nearIDs, nearIDs, List.mem_cons, List.mem_append, ih behind, List.mem_cons,
                List.mem_append, or_assoc, or_assoc]

theorem changeInSteps_isSome {change : ToolCall → ToolCall} {steps : List PlanStep}
    (near : target ∈ nearIDs (stepCalls steps)) : (changeInSteps target change steps).isSome := by
  induction steps with
  | nil => cases near
  | cons step rest ih =>
      rw [changeInSteps]
      cases here : changeToolCall target change step.toolCalls with
      | some calls => rfl
      | none =>
          have apart : target ∉ nearIDs step.toolCalls := by
            intro among
            have some : (changeToolCall target change step.toolCalls).isSome := changeToolCall_isSome among
            rw [here] at some
            cases some
          rw [stepCalls_cons, nearIDs_append, List.mem_append, or_iff_right apart] at near
          dsimp only
          rw [Option.isSome_map]
          exact ih near

theorem mem_near_changeInSteps {steps changed : List PlanStep}
    (found : changeInSteps target (.addSubCall sub) steps = some changed) (id : ℤ) :
    id ∈ nearIDs (stepCalls changed) ↔
      id ∈ nearIDs (stepCalls steps) ∨ id = sub.toolCallID ∧ ¬ foundBelow target (stepCalls steps) := by
  have below_append (first second : List ToolCall) :
      foundBelow target (first ++ second) =
        if target ∈ nearIDs first then foundBelow target first else foundBelow target second := by
    induction first with
    | nil => rfl
    | cons call rest ih =>
        rw [List.cons_append, foundBelow, foundBelow, ih, nearIDs]
        by_cases own : call.toolCallID = target
        · rw [if_pos own, if_pos (List.mem_cons.mpr (.inl own.symm)), if_pos own]
        · by_cases among : target ∈ topIDs call.subCalls
          · rw [if_neg own, if_pos among, if_neg own, if_pos among,
              if_pos (List.mem_cons_of_mem _ (List.mem_append_left _ among))]
          · rw [if_neg own, if_neg among, if_neg own, if_neg among]
            have same : (target ∈ call.toolCallID :: (topIDs call.subCalls ++ nearIDs rest)) ↔ target ∈ nearIDs rest := by
              rw [List.mem_cons, List.mem_append, or_iff_right (Ne.symm own), or_iff_right among]
            simp only [same]
  induction steps generalizing changed with
  | nil => cases found
  | cons step rest ih =>
      rw [changeInSteps] at found
      rw [stepCalls_cons step, below_append, nearIDs_append, List.mem_append]
      cases here : changeToolCall target (.addSubCall sub) step.toolCalls with
      | some calls =>
          rw [here] at found
          cases found
          have near : target ∈ nearIDs step.toolCalls := by
            by_contra apart
            rw [changeToolCall_eq_none apart] at here
            cases here
          rw [if_pos near, stepCalls_cons, nearIDs_append, List.mem_append, mem_near_changeToolCall here,
            or_right_comm]
      | none =>
          rw [here] at found
          obtain ⟨later, behind, rfl⟩ := Option.map_eq_some_iff.mp found
          have apart : target ∉ nearIDs step.toolCalls := by
            intro near
            have some : (changeToolCall target (.addSubCall sub) step.toolCalls).isSome := changeToolCall_isSome near
            rw [here] at some
            cases some
          rw [if_neg apart, stepCalls_cons, nearIDs_append, List.mem_append]
          exact (or_congr_right (ih behind)).trans or_assoc.symm

theorem mem_near_insertToolCall {parent : Option ℤ} {steps inserted : List PlanStep}
    (leaf : sub.subCalls = []) (done : insertToolCall sub parent now steps = some inserted) (id : ℤ) :
    id ∈ nearIDs (stepCalls inserted) ↔ id ∈ nearIDs (stepCalls steps) ∨
      id = sub.toolCallID ∧ ∀ target, parent = some target → ¬ foundBelow target (stepCalls steps) := by
  unfold insertToolCall at done
  cases parent with
  | none =>
      cases done
      have single : id ∈ nearIDs [sub] ↔ id = sub.toolCallID := by
        rw [nearIDs, leaf]
        exact List.mem_singleton
      rw [mem_near_appendTopLevelToolCall, single, and_iff_left]
      intro target same
      cases same
  | some parent =>
      obtain ⟨changed, found, rfl⟩ := Option.map_eq_some_iff.mp done
      rw [near_propagateUpdatedAt, mem_near_changeInSteps found]
      simp only [Option.some.injEq, forall_eq']

theorem insertToolCall_eq_none {parent : Option ℤ} {steps : List PlanStep}
    (done : insertToolCall sub parent now steps = none) :
    ∀ target, parent = some target → ¬ foundBelow target (stepCalls steps) := by
  rintro target rfl below
  have found : (changeInSteps target (.addSubCall sub) steps).isSome :=
    changeInSteps_isSome (mem_near_of_foundBelow below)
  unfold insertToolCall at done
  rw [Option.map_eq_none_iff.mp done] at found
  cases found

end Operations

section Removal

variable {target now : ℤ}

mutual

theorem removeToolCall_spec :
    (calls : List ToolCall) → ∀ removed left, removeToolCall target now calls = some (removed, left) →
      (callIDs calls).Perm (removed ++ callIDs left) ∧
        (∀ id ∈ topIDs calls, id ∈ removed ∨ id ∈ topIDs left) ∧
          ∀ id ∈ nearIDs calls, id ∈ removed ∨ id ∈ nearIDs left
  | [], removed, left, found => by cases found
  | call :: rest, removed, left, found => by
      rw [removeToolCall] at found
      split at found
      · cases found
        refine ⟨.refl _, ?_, ?_⟩
        · intro id top
          rcases List.mem_cons.mp top with rfl | later
          · rw [ids_eq]
            exact .inl List.mem_cons_self
          · exact .inr later
        · intro id near
          rw [ids_eq]
          rcases List.mem_cons.mp near with rfl | near
          · exact .inl List.mem_cons_self
          · rcases List.mem_append.mp near with below | later
            · exact .inl (List.mem_cons_of_mem _ (mem_callIDs_of_top below))
            · exact .inr later
      · cases below : call.removeBelow target now with
        | some pair =>
            obtain ⟨gone, kept⟩ := pair
            rw [below] at found
            cases found
            obtain ⟨split_, own, subs⟩ := removeBelow_spec call _ _ below
            refine ⟨?_, ?_, ?_⟩
            · rw [callIDs, callIDs, ← List.append_assoc]
              exact split_.append_right _
            · intro id top
              rw [topIDs_cons, own]
              exact .inr top
            · intro id near
              rw [nearIDs, own]
              rcases List.mem_cons.mp near with rfl | near
              · exact .inr List.mem_cons_self
              · rcases List.mem_append.mp near with among | later
                · rcases subs id among with gone | kept
                  · exact .inl gone
                  · exact .inr (List.mem_cons_of_mem _ (List.mem_append_left _ kept))
                · exact .inr (List.mem_cons_of_mem _ (List.mem_append_right _ later))
        | none =>
            rw [below] at found
            obtain ⟨⟨gone, kept⟩, later, same⟩ := Option.map_eq_some_iff.mp found
            cases same
            obtain ⟨split_, top, near⟩ := removeToolCall_spec rest _ _ later
            refine ⟨?_, ?_, ?_⟩
            · rw [callIDs, callIDs]
              refine (split_.append_left _).trans ?_
              rw [← List.append_assoc, ← List.append_assoc]
              exact List.perm_append_comm.append_right _
            · intro id among
              rcases List.mem_cons.mp among with rfl | behind
              · exact .inr List.mem_cons_self
              · exact (top id behind).imp_right (List.mem_cons_of_mem _)
            · intro id among
              rw [nearIDs]
              rcases List.mem_cons.mp among with rfl | among
              · exact .inr List.mem_cons_self
              · rcases List.mem_append.mp among with sub | behind
                · exact .inr (List.mem_cons_of_mem _ (List.mem_append_left _ sub))
                · exact (near id behind).imp_right fun kept => List.mem_cons_of_mem _ (List.mem_append_right _ kept)

theorem removeBelow_spec :
    (call : ToolCall) → ∀ removed left, call.removeBelow target now = some (removed, left) →
      call.ids.Perm (removed ++ left.ids) ∧ left.toolCallID = call.toolCallID ∧
        ∀ id ∈ topIDs call.subCalls, id ∈ removed ∨ id ∈ topIDs left.subCalls
  | .node data subCalls, removed, left, found => by
      rw [ToolCall.removeBelow] at found
      obtain ⟨⟨gone, kept⟩, below, same⟩ := Option.map_eq_some_iff.mp found
      cases same
      obtain ⟨split_, top, -⟩ := removeToolCall_spec subCalls _ _ below
      refine ⟨?_, rfl, top⟩
      rw [ToolCall.ids, ToolCall.ids]
      exact (split_.cons _).trans List.perm_middle.symm

end

/-- The identifiers that leave the steps with the call. -/
def removedFromSteps (target now : ℤ) : List PlanStep → List ℤ
  | [] => []
  | step :: rest =>
      match removeToolCall target now step.toolCalls with
      | some (removed, _) => removed
      | none => removedFromSteps target now rest

theorem removeFromSteps_spec {steps left : List PlanStep} (found : removeFromSteps target now steps = some left) :
    (stepIDs steps).Perm (removedFromSteps target now steps ++ stepIDs left) ∧
      ∀ id ∈ nearIDs (stepCalls steps), id ∈ removedFromSteps target now steps ∨ id ∈ nearIDs (stepCalls left) := by
  induction steps generalizing left with
  | nil => cases found
  | cons step rest ih =>
      rw [removeFromSteps] at found
      rw [removedFromSteps, stepIDs_cons, stepCalls_cons, nearIDs_append]
      cases here : removeToolCall target now step.toolCalls with
      | some pair =>
          obtain ⟨removed, calls⟩ := pair
          rw [here] at found
          cases found
          obtain ⟨split_, -, near⟩ := removeToolCall_spec _ _ _ here
          rw [stepIDs_cons, stepCalls_cons, nearIDs_append]
          refine ⟨?_, ?_⟩
          · rw [← List.append_assoc]
            exact split_.append_right _
          · intro id among
            rcases List.mem_append.mp among with own | later
            · exact (near id own).imp_right (List.mem_append_left _)
            · exact .inr (List.mem_append_right _ later)
      | none =>
          rw [here] at found
          obtain ⟨later, behind, rfl⟩ := Option.map_eq_some_iff.mp found
          obtain ⟨split_, near⟩ := ih behind
          rw [stepIDs_cons, stepCalls_cons, nearIDs_append]
          refine ⟨?_, ?_⟩
          · refine (split_.append_left _).trans ?_
            dsimp only
            rw [← List.append_assoc, ← List.append_assoc]
            exact List.perm_append_comm.append_right _
          · intro id among
            rcases List.mem_append.mp among with own | after
            · exact .inr (List.mem_append_left _ own)
            · exact (near id after).imp_right (List.mem_append_right _)

theorem removedFromSteps_eq_nil {steps : List PlanStep} (none_ : removeFromSteps target now steps = none) :
    removedFromSteps target now steps = [] := by
  induction steps with
  | nil => rfl
  | cons step rest ih =>
      rw [removeFromSteps] at none_
      rw [removedFromSteps]
      cases here : removeToolCall target now step.toolCalls with
      | some pair =>
          rw [here] at none_
          cases none_
      | none =>
          rw [here] at none_
          exact ih (Option.map_eq_none_iff.mp none_)

end Removal

section Ledgers

variable {Editor : Type}

/-- What is stored, the caches of the editors, and the identifiers that `create_tool_call`
returned and whose calls were not removed. -/
structure Ledger (Editor : Type) where
  editing : Editing Editor
  returned : List ℤ

inductive CallOperation (Editor : Type) where
  | createToolCall (editor : Editor) (new : NewToolCall) (parent : Option ℤ) (now : ℤ)
  | removeToolCall (target : ℤ) (predicate : Option (Plan → ToolCall → Bool)) (now : ℤ)

/-- The identifiers that a removal takes away. -/
def removedIDs (target : ℤ) (predicate : Option (Plan → ToolCall → Bool)) (now : ℤ) (store : Store) : List ℤ :=
  if target = 0 then []
  else
    match store.read with
    | none => []
    | some plan =>
        if permitsRemoval target plan predicate then removedFromSteps target now plan.steps else []

def Plan.nearIDs (plan : Plan) : List ℤ := Plans.nearIDs (stepCalls plan.steps)

/-- `get_tool_call` finds the call of an identifier, and what changes a call by its identifier
changes that call and no other. -/
structure Addressable (plan : Plan) (id : ℤ) : Prop where
  found : ∃ call, plan.getToolCall id = some call ∧ call.toolCallID = id
  once : plan.ids.count id = 1
  changed : ∀ change, changeInSteps id change plan.steps = some (changeEveryInSteps id change plan.steps)

namespace Ledger

/-- Before any call was created. -/
def start (store : Store) : Ledger Editor := ⟨⟨store, fun _ => 0⟩, []⟩

/-- Every call that was created and not removed can be addressed. -/
def Addressed (ledger : Ledger Editor) : Prop :=
  ∀ id ∈ ledger.returned, ∃ plan, ledger.editing.store.read = some plan ∧ Addressable plan id

/-- No call is created under a sub-call. -/
def Careful (ledger : Ledger Editor) : CallOperation Editor → Prop
  | .createToolCall _ _ (some parent) _ =>
      ∀ plan, ledger.editing.store.read = some plan → ¬ foundBelow parent (stepCalls plan.steps)
  | _ => True

variable [DecidableEq Editor]

def next (ledger : Ledger Editor) : CallOperation Editor → Ledger Editor
  | .createToolCall editor new parent now =>
      let created := (createToolCall new parent now (ledger.editing.caches editor) ledger.editing.store).2.2
      { editing := ledger.editing.next (.createToolCall editor new parent now)
        returned := if created = 0 then ledger.returned else created :: ledger.returned }
  | .removeToolCall target predicate now =>
      { editing := ledger.editing.next (.removeToolCall target predicate now)
        returned := ledger.returned.filter (· ∉ removedIDs target predicate now ledger.editing.store) }

end Ledger

end Ledgers

section Runs

variable {Editor : Type} {store : Store} {id : ℤ}

theorem addressable_iff (plan : Plan) : Addressable plan id ↔ id ∈ plan.nearIDs ∧ plan.ids.count id = 1 := by
  obtain ⟨right, exists_⟩ := @getToolCall_spec id (stepCalls plan.steps)
  constructor
  · intro addressable
    obtain ⟨call, found, -⟩ := addressable.found
    rw [plan.getToolCall_eq] at found
    exact ⟨exists_.mp ⟨call, found⟩, addressable.once⟩
  · rintro ⟨near, once⟩
    obtain ⟨call, found⟩ := exists_.mpr near
    refine ⟨⟨call, ?_, right call found⟩, once, fun change => changeInSteps_eq near once⟩
    rw [plan.getToolCall_eq]
    exact found

def Store.nearIDs (store : Store) : List ℤ := (store.plan.map Plan.nearIDs).getD []

theorem nearIDs_of_read {plan : Plan} (read : store.read = some plan) : plan.nearIDs = store.nearIDs := by
  obtain ⟨stored, same, rfl⟩ := Option.map_eq_some_iff.mp read
  rw [Store.nearIDs, same]
  split
  · exact congrArg Plans.nearIDs (stepCalls_cancelFirstOpen stored.steps)
  · rfl

theorem mem_ids_of_near (near : id ∈ store.nearIDs) : id ∈ store.ids := by
  unfold Store.nearIDs at near
  unfold Store.ids
  cases stored : store.plan with
  | none =>
      rw [stored] at near
      cases near
  | some plan =>
      rw [stored] at near
      dsimp only [Option.map_some, Option.getD_some] at near ⊢
      rw [Plan.ids, stepIDs_eq]
      exact mem_callIDs_of_near near

theorem readable_iff : (∃ plan, store.read = some plan ∧ Addressable plan id) ↔
    id ∈ store.nearIDs ∧ store.ids.count id = 1 := by
  constructor
  · rintro ⟨plan, read, addressable⟩
    rw [← nearIDs_of_read read, ← ids_of_read read]
    exact (addressable_iff plan).mp addressable
  · rintro ⟨near, once⟩
    cases read : store.read with
    | none =>
        have none : store.plan = none := Option.map_eq_none_iff.mp read
        rw [Store.nearIDs, none] at near
        cases near
    | some plan =>
        rw [← nearIDs_of_read read, ← ids_of_read read] at *
        exact ⟨plan, rfl, (addressable_iff plan).mpr ⟨near, once⟩⟩

/-- What `create_tool_call` does: nothing, or one new call, which is looked at unless it went
under a sub-call. -/
theorem createToolCall_spec {cache : ℤ} (started : 0 ≤ cache) (new : NewToolCall) (parent : Option ℤ)
    (now : ℤ) (store : Store) :
    ((createToolCall new parent now cache store).2.2 = 0 ∧
        (createToolCall new parent now cache store).2.1 = store ∧
          ∀ plan target, store.read = some plan → parent = some target → ¬ foundBelow target (stepCalls plan.steps)) ∨
      ∃ plan created, store.read = some plan ∧ 0 < created ∧ created ∉ store.ids ∧
        (createToolCall new parent now cache store).2.2 = created ∧
          (∀ id, (createToolCall new parent now cache store).2.1.ids.count id =
              store.ids.count id + if id = created then 1 else 0) ∧
            ∀ id, id ∈ (createToolCall new parent now cache store).2.1.nearIDs ↔
              id ∈ store.nearIDs ∨ id = created ∧
                ∀ target, parent = some target → ¬ foundBelow target (stepCalls plan.steps) := by
  unfold createToolCall
  cases read : store.read with
  | none =>
      refine .inl ⟨rfl, rfl, ?_⟩
      intro plan target same
      cases same
  | some plan =>
      obtain ⟨positive, absent⟩ := allocToolCallID_fresh started plan
      have same : ∀ steps, steps = (if new.status = .retryRunning then markAnalyzed plan.steps else plan.steps) →
          stepIDs steps = plan.ids ∧ Plans.nearIDs (stepCalls steps) = plan.nearIDs ∧
            ∀ target, foundBelow target (stepCalls steps) = foundBelow target (stepCalls plan.steps) := by
        rintro steps rfl
        split
        · exact ⟨stepIDs_markAnalyzed plan.steps, (@near_markAnalyzed 0 plan.steps).1,
            fun target => (near_markAnalyzed plan.steps).2⟩
        · exact ⟨rfl, rfl, fun _ => rfl⟩
      dsimp only
      generalize (if new.status = .retryRunning then markAnalyzed plan.steps else plan.steps) = steps at same ⊢
      obtain ⟨ids, near, below⟩ := same steps rfl
      cases done : insertToolCall (new.call (allocToolCallID cache plan) now) parent now steps with
      | none =>
          refine .inl ⟨rfl, rfl, ?_⟩
          rintro _ target ⟨⟩ given
          rw [← below target]
          exact insertToolCall_eq_none done target given
      | some inserted =>
          refine .inr ⟨plan, allocToolCallID cache plan, rfl, positive, ?_, rfl, ?_, ?_⟩
          · rw [← ids_of_read read]
            exact List.count_eq_zero.mp absent
          · intro id
            have own : (new.call (allocToolCallID cache plan) now).ids = [allocToolCallID cache plan] := rfl
            have counted := count_insertToolCall done id
            rw [own, ids, List.count_singleton] at counted
            simp only [beq_iff_eq, @eq_comm _ _ id] at counted
            rw [ids_write, ← ids_of_read read, Nat.add_comm]
            exact counted
          · intro id
            have inside := mem_near_insertToolCall (by rfl) done id
            rw [near, nearIDs_of_read read] at inside
            simp only [below] at inside
            exact inside

theorem removedIDs_spec (target : ℤ) (predicate : Option (Plan → ToolCall → Bool)) (now : ℤ) (store : Store) :
    (∀ id, store.ids.count id = (removedIDs target predicate now store).count id +
        (removeToolCallTree target predicate now store).ids.count id) ∧
      ∀ id ∈ store.nearIDs, id ∈ removedIDs target predicate now store ∨
        id ∈ (removeToolCallTree target predicate now store).nearIDs := by
  have nothing : (∀ id, store.ids.count id = ([] : List ℤ).count id + store.ids.count id) ∧
      ∀ id ∈ store.nearIDs, id ∈ ([] : List ℤ) ∨ id ∈ store.nearIDs :=
    ⟨fun _ => (Nat.zero_add _).symm, fun _ near => .inr near⟩
  unfold removedIDs removeToolCallTree
  split
  · exact nothing
  · cases read : store.read with
    | none => exact nothing
    | some plan =>
        dsimp only
        split
        · cases done : removeFromSteps target now plan.steps with
          | none =>
              rw [removedFromSteps_eq_nil done]
              exact nothing
          | some steps =>
              obtain ⟨split_, near⟩ := removeFromSteps_spec done
              rw [← ids_of_read read, ← nearIDs_of_read read]
              refine ⟨fun id => ?_, near⟩
              rw [← List.count_append]
              exact split_.count_eq id
        · exact nothing

variable [DecidableEq Editor]

theorem Ledger.addressed_next_iff (ledger : Ledger Editor) (operation : CallOperation Editor)
    (started : ∀ editor, 0 ≤ ledger.editing.caches editor) (addressed : ledger.Addressed) :
    (ledger.next operation).Addressed ↔ ledger.Careful operation := by
  have known (id : ℤ) (listed : id ∈ ledger.returned) :
      id ∈ ledger.editing.store.nearIDs ∧ ledger.editing.store.ids.count id = 1 :=
    readable_iff.mp (addressed id listed)
  unfold Addressed
  simp only [readable_iff]
  cases operation with
  | createToolCall editor new parent now =>
      have careful : ledger.Careful (.createToolCall editor new parent now) ↔
          ∀ plan target, ledger.editing.store.read = some plan → parent = some target →
            ¬ foundBelow target (stepCalls plan.steps) := by
        cases parent with
        | none => exact ⟨fun _ _ _ _ same => (by cases same), fun _ => trivial⟩
        | some parent =>
            constructor
            · rintro careful plan _ read ⟨⟩
              exact careful plan read
            · intro careful plan read
              exact careful plan parent read rfl
      rw [careful]
      rcases createToolCall_spec (started editor) new parent now ledger.editing.store with
        ⟨none, same, unfound⟩ | ⟨plan, created, read, positive, fresh, returned, counts, near⟩
      · refine iff_of_true ?_ unfound
        intro id listed
        rw [Ledger.next, if_pos none] at listed
        change id ∈ (createToolCall _ _ _ _ _).2.1.nearIDs ∧ (createToolCall _ _ _ _ _).2.1.ids.count id = 1
        rw [same]
        exact known id listed
      · have listed (id : ℤ) : id ∈ (ledger.next (.createToolCall editor new parent now)).returned ↔
            id = created ∨ id ∈ ledger.returned := by
          rw [Ledger.next, returned, if_neg (Int.ne_of_gt positive)]
          exact List.mem_cons
        constructor
        · intro kept _ target again given
          obtain rfl := Option.some.inj (read.symm.trans again)
          have here := (near created).mp (kept created ((listed created).mpr (.inl rfl))).1
          rcases here with before | ⟨-, top⟩
          · exact absurd (mem_ids_of_near before) fresh
          · exact top target given
        · intro careful id entry
          change id ∈ (createToolCall _ _ _ _ _).2.1.nearIDs ∧ (createToolCall _ _ _ _ _).2.1.ids.count id = 1
          rw [near, counts]
          rcases (listed id).mp entry with rfl | before
          · refine ⟨.inr ⟨rfl, fun target given => careful plan target read given⟩, ?_⟩
            rw [List.count_eq_zero.mpr fresh, if_pos rfl]
          · obtain ⟨here, once⟩ := known id before
            have other : id ≠ created := by
              rintro rfl
              exact fresh (mem_ids_of_near here)
            exact ⟨.inl here, by rw [once, if_neg other]⟩
  | removeToolCall target predicate now =>
      refine iff_of_true ?_ trivial
      intro id listed
      obtain ⟨before, left⟩ := List.mem_filter.mp listed
      have stays : id ∉ removedIDs target predicate now ledger.editing.store := by simpa using left
      obtain ⟨counts, near⟩ := removedIDs_spec target predicate now ledger.editing.store
      obtain ⟨here, once⟩ := known id before
      have counted := counts id
      rw [once, List.count_eq_zero.mpr stays, Nat.zero_add] at counted
      exact ⟨(near id here).resolve_left stays, counted.symm⟩

theorem Ledger.started_next (ledger : Ledger Editor) (operation : CallOperation Editor)
    (started : ∀ editor, 0 ≤ ledger.editing.caches editor) :
    ∀ editor, 0 ≤ (ledger.next operation).editing.caches editor := by
  cases operation with
  | createToolCall editor new parent now =>
      exact (grows_next ledger.editing (.createToolCall editor new parent now) started).1
  | removeToolCall target predicate now => exact started

/-- **Created calls stay addressable** at every point of a run if and only if no call of the run
is created under a sub-call, whatever is stored before it. -/
theorem created_addressable_iff (store : Store) (operations : List (CallOperation Editor)) :
    (∀ before : List (CallOperation Editor), before <+: operations →
        (before.foldl Ledger.next (Ledger.start store)).Addressed) ↔
      ∀ before operation, before ++ [operation] <+: operations →
        (before.foldl Ledger.next (Ledger.start store)).Careful operation := by
  apply System.always_iff_careful Ledger.started_next Ledger.addressed_next_iff
  · intro editor
    exact le_rfl
  · intro id listed
    cases listed

def nested (parent : Option ℤ) : CallOperation Unit :=
  .createToolCall () { name := "Read", initialMessage := "" } parent 1

/-- The third call is in the plan, below a sub-call, and is not found. -/
theorem created_under_subCall_not_found :
    ¬ ∀ (operations : List (CallOperation Unit)) (store : Store),
      (operations.foldl Ledger.next (Ledger.start store)).Addressed := by
  intro always
  have listed : 3 ∈ ([nested none, nested (some 1), nested (some 2)].foldl Ledger.next
      (Ledger.start startedTurn.store)).returned := by decide
  obtain ⟨plan, read, addressable⟩ := always _ _ 3 listed
  have near := ((addressable_iff plan).mp addressable).1
  rw [nearIDs_of_read read] at near
  exact absurd near (by decide)

end Runs

end Sico.Plans

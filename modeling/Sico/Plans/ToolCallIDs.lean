import Mathlib.Data.Int.Order.Basic
import Mathlib.Data.List.Nodup
import Mathlib.Order.Lattice
import Sico.Plans.Editor

/-! # Identifiers of tool calls

Every operation adds at most one call of each positive identifier, and only where there was
none before: an allocated identifier is greater than all in the plan, a repaired tree is
checked behind its updater, and all else adds no call. So identifiers stay distinct over the
whole plan, whatever editors do in whatever order.
-/

namespace Sico.Plans

open Foundation

section Trees

theorem callIDs_append (first second : List ToolCall) :
    callIDs (first ++ second) = callIDs first ++ callIDs second := by
  induction first with
  | nil => rfl
  | cons call rest ih => rw [List.cons_append, callIDs, callIDs, ih, List.append_assoc]

theorem ids_addSubCall (sub call : ToolCall) :
    (ToolCall.addSubCall sub call).ids = call.ids ++ sub.ids := by
  cases call with
  | node data subCalls =>
      rw [ToolCall.addSubCall, ToolCall.ids, callIDs_append, ToolCall.ids, callIDs, callIDs,
        List.append_nil]
      rfl

theorem ids_touch (now : ℤ) (call : ToolCall) : (call.touch now).ids = call.ids := by
  cases call with
  | node data subCalls => rfl

mutual

theorem ids_mapData {change : CallData → CallData}
    (same : ∀ data, (change data).toolCallID = data.toolCallID) :
    (call : ToolCall) → (call.mapData change).ids = call.ids
  | .node data subCalls => by
      rw [ToolCall.mapData, ToolCall.ids, ToolCall.ids, same, callIDs_mapCalls same subCalls]

theorem callIDs_mapCalls {change : CallData → CallData}
    (same : ∀ data, (change data).toolCallID = data.toolCallID) :
    (calls : List ToolCall) → callIDs (mapCalls change calls) = callIDs calls
  | [] => rfl
  | call :: rest => by
      rw [mapCalls, callIDs, callIDs, ids_mapData same call, callIDs_mapCalls same rest]

end

mutual

theorem ids_markPath {target now : ℤ} :
    (call : ToolCall) → ∀ marked, call.markPath target now = some marked → marked.ids = call.ids
  | .node data subCalls, marked, found => by
      rw [ToolCall.markPath] at found
      split at found
      · cases found
        rfl
      · obtain ⟨calls, below, rfl⟩ := Option.map_eq_some_iff.mp found
        rw [ToolCall.ids, ToolCall.ids, callIDs_markPathAmong subCalls calls below]

theorem callIDs_markPathAmong {target now : ℤ} :
    (calls : List ToolCall) → ∀ marked, markPathAmong target now calls = some marked →
      callIDs marked = callIDs calls
  | [], marked, found => by cases found
  | call :: rest, marked, found => by
      rw [markPathAmong] at found
      cases here : call.markPath target now with
      | some own =>
          rw [here] at found
          cases found
          rw [callIDs, callIDs, ids_markPath call own here]
      | none =>
          rw [here] at found
          obtain ⟨later, below, rfl⟩ := Option.map_eq_some_iff.mp found
          rw [callIDs, callIDs, callIDs_markPathAmong rest later below]

end

mutual

theorem callIDs_removeToolCall {target now : ℤ} :
    (calls : List ToolCall) → ∀ removed left, removeToolCall target now calls = some (removed, left) →
      (callIDs left).Sublist (callIDs calls)
  | [], removed, left, found => by cases found
  | call :: rest, removed, left, found => by
      rw [removeToolCall] at found
      split at found
      · cases found
        rw [callIDs]
        exact List.sublist_append_right _ _
      · cases below : call.removeBelow target now with
        | some pair =>
            obtain ⟨gone, kept⟩ := pair
            rw [below] at found
            cases found
            rw [callIDs, callIDs]
            exact (ids_removeBelow call _ _ below).append_right _
        | none =>
            rw [below] at found
            obtain ⟨⟨gone, kept⟩, later, same⟩ := Option.map_eq_some_iff.mp found
            cases same
            rw [callIDs, callIDs]
            exact (callIDs_removeToolCall rest _ _ later).append_left _

theorem ids_removeBelow {target now : ℤ} :
    (call : ToolCall) → ∀ removed left, call.removeBelow target now = some (removed, left) →
      left.ids.Sublist call.ids
  | .node data subCalls, removed, left, found => by
      rw [ToolCall.removeBelow] at found
      obtain ⟨⟨gone, kept⟩, below, same⟩ := Option.map_eq_some_iff.mp found
      cases same
      rw [ToolCall.ids, ToolCall.ids]
      exact (callIDs_removeToolCall subCalls _ _ below).cons_cons _

end

end Trees

section Steps

theorem stepIDs_cons (step : PlanStep) (rest : List PlanStep) :
    stepIDs (step :: rest) = callIDs step.toolCalls ++ stepIDs rest :=
  List.flatMap_cons

theorem stepIDs_cancelFirstOpen (steps : List PlanStep) :
    stepIDs (cancelFirstOpen steps) = stepIDs steps := by
  induction steps with
  | nil => rfl
  | cons step rest ih =>
      rw [cancelFirstOpen]
      split
      · rw [stepIDs_cons, stepIDs_cons, ih]
      · rfl

theorem stepIDs_propagateUpdatedAt (target now : ℤ) (steps : List PlanStep) :
    stepIDs (propagateUpdatedAt target now steps) = stepIDs steps := by
  induction steps with
  | nil => rfl
  | cons step rest ih =>
      rw [propagateUpdatedAt]
      cases found : markPathAmong target now step.toolCalls with
      | some calls =>
          rw [stepIDs_cons, stepIDs_cons]
          exact congrArg (· ++ stepIDs rest) (callIDs_markPathAmong _ _ found)
      | none => rw [stepIDs_cons, stepIDs_cons, ih]

theorem stepIDs_markAnalyzed (steps : List PlanStep) : stepIDs (markAnalyzed steps) = stepIDs steps := by
  have same (data : CallData) : (analyzed data).toolCallID = data.toolCallID := by
    unfold analyzed
    split <;> rfl
  induction steps with
  | nil => rfl
  | cons step rest ih =>
      have rest' : stepIDs (markAnalyzed rest) = stepIDs rest := ih
      rw [markAnalyzed, List.map_cons, stepIDs_cons, stepIDs_cons, callIDs_mapCalls same]
      exact congrArg (callIDs step.toolCalls ++ ·) rest'

theorem stepIDs_appendTopLevelToolCall (call : ToolCall) (now : ℤ) (steps : List PlanStep) :
    (stepIDs (appendTopLevelToolCall call now steps)).Perm (call.ids ++ stepIDs steps) := by
  have here (step : PlanStep) (rest : List PlanStep) :
      (stepIDs ({ step with toolCalls := step.toolCalls ++ [call], updatedAt := now } :: rest)).Perm
        (call.ids ++ stepIDs (step :: rest)) := by
    rw [stepIDs_cons, stepIDs_cons, callIDs_append, callIDs, callIDs, List.append_nil]
    rw [List.append_assoc, ← List.append_assoc call.ids, ← List.append_assoc (callIDs step.toolCalls)]
    exact List.perm_append_comm.append_right _
  induction steps with
  | nil => simp [appendTopLevelToolCall, stepIDs, callIDs]
  | cons step rest ih =>
      cases rest with
      | nil => exact here step []
      | cons next rest =>
          rw [appendTopLevelToolCall]
          split
          · rw [stepIDs_cons, stepIDs_cons]
            refine (ih.append_left _).trans ?_
            rw [← List.append_assoc, ← List.append_assoc]
            exact List.perm_append_comm.append_right _
          · exact here step (next :: rest)

section Change

variable {target : ℤ} {change : ToolCall → ToolCall}

/-- Identifiers are those of one call and others, before and after the call is changed. -/
def ChangesOne (change : ToolCall → ToolCall) (before after : List ℤ) : Prop :=
  ∃ call others, before.Perm (ToolCall.ids call ++ others) ∧
    after.Perm (ToolCall.ids (change call) ++ others)

theorem ChangesOne.append_right {before after : List ℤ} (changes : ChangesOne change before after)
    (more : List ℤ) : ChangesOne change (before ++ more) (after ++ more) := by
  obtain ⟨call, others, first, second⟩ := changes
  refine ⟨call, others ++ more, ?_, ?_⟩
  · rw [← List.append_assoc]
    exact first.append_right more
  · rw [← List.append_assoc]
    exact second.append_right more

theorem ChangesOne.append_left {before after : List ℤ} (changes : ChangesOne change before after)
    (more : List ℤ) : ChangesOne change (more ++ before) (more ++ after) := by
  obtain ⟨call, others, first, second⟩ := changes.append_right more
  exact ⟨call, others, List.perm_append_comm.trans first, List.perm_append_comm.trans second⟩

theorem changesOne_head (call : ToolCall) (rest : List ToolCall) :
    ChangesOne change (callIDs (call :: rest)) (callIDs (change call :: rest)) :=
  ⟨call, callIDs rest, .refl _, .refl _⟩

theorem changesOne_changeFirst {calls changed : List ToolCall}
    (found : changeFirst target change calls = some changed) :
    ChangesOne change (callIDs calls) (callIDs changed) := by
  induction calls generalizing changed with
  | nil => cases found
  | cons call rest ih =>
      rw [changeFirst] at found
      split at found
      · cases found
        exact changesOne_head call rest
      · obtain ⟨later, below, rfl⟩ := Option.map_eq_some_iff.mp found
        exact (ih below).append_left call.ids

theorem changesOne_changeToolCall {calls changed : List ToolCall}
    (found : changeToolCall target change calls = some changed) :
    ChangesOne change (callIDs calls) (callIDs changed) := by
  induction calls generalizing changed with
  | nil => cases found
  | cons call rest ih =>
      rw [changeToolCall] at found
      split at found
      · cases found
        exact changesOne_head call rest
      · cases below : changeFirst target change call.subCalls with
        | some subCalls =>
            rw [below] at found
            cases found
            cases call with
            | node data subs =>
                have inner := (changesOne_changeFirst below).append_left [data.toolCallID]
                exact inner.append_right (callIDs rest)
        | none =>
            rw [below] at found
            obtain ⟨later, behind, rfl⟩ := Option.map_eq_some_iff.mp found
            exact (ih behind).append_left call.ids

theorem changesOne_changeInSteps {steps changed : List PlanStep}
    (found : changeInSteps target change steps = some changed) :
    ChangesOne change (stepIDs steps) (stepIDs changed) := by
  induction steps generalizing changed with
  | nil => cases found
  | cons step rest ih =>
      rw [changeInSteps] at found
      cases here : changeToolCall target change step.toolCalls with
      | some calls =>
          rw [here] at found
          cases found
          rw [stepIDs_cons, stepIDs_cons]
          exact (changesOne_changeToolCall here).append_right _
      | none =>
          rw [here] at found
          obtain ⟨later, behind, rfl⟩ := Option.map_eq_some_iff.mp found
          rw [stepIDs_cons, stepIDs_cons]
          exact (ih behind).append_left _

end Change

theorem stepIDs_overwriteSteps {items : List PlanItemWrite} {steps written : List PlanStep} {index : ℕ}
    (done : overwriteSteps index items steps = .ok written) : stepIDs written = stepIDs steps := by
  have new (items : List PlanItemWrite) : stepIDs (items.map newStep) = [] := by
    induction items with
    | nil => rfl
    | cons item rest ih =>
        rw [List.map_cons, stepIDs_cons, ih]
        rfl
  induction items generalizing steps written index with
  | nil =>
      cases done
      rfl
  | cons item items ih =>
      cases steps with
      | nil =>
          cases done
          exact new (item :: items)
      | cons step steps =>
          obtain ⟨own, overwritten, done⟩ := bind_eq_ok.mp done
          obtain ⟨rest, later, same⟩ := bind_eq_ok.mp done
          cases same
          have calls : own.toolCalls = step.toolCalls := by
            unfold overwriteStep at overwritten
            split at overwritten
            · cases overwritten
            · split at overwritten
              · cases overwritten
              · cases overwritten
                rfl
          rw [stepIDs_cons, stepIDs_cons, calls, ih later]

end Steps

section Growth

/-- No identifier comes to be there more often than before, but for one that is positive and
there once. -/
def Grows (before after : List ℤ) : Prop :=
  ∀ id, after.count id ≤ before.count id ∨ (0 < id ∧ after.count id ≤ 1)

theorem Grows.refl (ids : List ℤ) : Grows ids ids := fun _ => .inl le_rfl

theorem Grows.of_count_le {before after : List ℤ} (fewer : ∀ id, after.count id ≤ before.count id) :
    Grows before after :=
  fun id => .inl (fewer id)

theorem Grows.positive_nodup {before after : List ℤ} (grows : Grows before after)
    (distinct : (before.filter (0 < ·)).Nodup) : (after.filter (0 < ·)).Nodup := by
  rw [List.nodup_iff_count_le_one] at distinct ⊢
  intro id
  by_cases positive : 0 < id
  · have once := distinct id
    rw [List.count_filter (by simpa using positive)] at once ⊢
    rcases grows id with fewer | ⟨-, single⟩
    · exact fewer.trans once
    · exact single
  · have none : List.count id (after.filter (0 < ·)) = 0 := by
      rw [List.count_eq_zero, List.mem_filter]
      exact fun listed => positive (by simpa using listed.2)
    rw [none]
    exact Nat.zero_le 1

theorem Grows.all_positive {before after : List ℤ} (grows : Grows before after)
    (positive : ∀ id ∈ before, 0 < id) : ∀ id ∈ after, 0 < id := by
  intro id listed
  rcases grows id with fewer | ⟨own, -⟩
  · have some := List.count_pos_iff.mpr listed
    exact positive id (List.count_pos_iff.mp (lt_of_lt_of_le some fewer))
  · exact own

variable {store : Store} {plan : Plan}

def Store.ids (store : Store) : List ℤ := (store.plan.map Plan.ids).getD []

theorem ids_of_read (read : store.read = some plan) : plan.ids = store.ids := by
  obtain ⟨stored, same, rfl⟩ := Option.map_eq_some_iff.mp read
  rw [Store.ids, same]
  split
  · exact stepIDs_cancelFirstOpen stored.steps
  · rfl

theorem ids_write (store : Store) (plan : Plan) : (store.write plan).ids = plan.ids := rfl

theorem grows_writeSet (read : Grows store.ids plan.ids) : Grows store.ids (store.writeSet plan).ids := by
  unfold Store.writeSet Store.ids
  dsimp only [Option.map_some, Option.getD_some]
  split
  · exact read
  · exact Grows.of_count_le fun id => Nat.zero_le _

theorem grows_writePlan {input : PlanWriteInput} {written : Plan × Store}
    (done : writePlan input store = .ok written) : Grows store.ids written.2.ids := by
  unfold writePlan at done
  cases read : store.read with
  | none =>
      rw [read] at done
      cases done
      refine grows_writeSet (Grows.of_count_le fun id => ?_)
      have none : Plan.ids { title := input.title, steps := input.items.map newStep } = [] := by
        have nothing : overwriteSteps 0 input.items [] = .ok (input.items.map newStep) := by
          cases input.items <;> rfl
        exact stepIDs_overwriteSteps nothing
      rw [none]
      exact Nat.zero_le _
  | some existing =>
      rw [read] at done
      dsimp only at done
      split at done
      · cases done
        exact Grows.refl _
      · obtain ⟨steps, overwritten, same⟩ := bind_eq_ok.mp done
        cases same
        apply grows_writeSet
        have kept : Plan.ids { existing with title := input.title, steps } = store.ids :=
          (stepIDs_overwriteSteps overwritten).trans (ids_of_read read)
        rw [kept]
        exact Grows.refl _

theorem foldl_max_ge (ids : List ℤ) (cache : ℤ) :
    cache ≤ ids.foldl max cache ∧ ∀ id ∈ ids, id ≤ ids.foldl max cache := by
  induction ids generalizing cache with
  | nil => exact ⟨le_rfl, fun _ listed => by cases listed⟩
  | cons first rest ih =>
      obtain ⟨start, others⟩ := ih (max cache first)
      refine ⟨(le_max_left _ _).trans start, fun id listed => ?_⟩
      rcases List.mem_cons.mp listed with rfl | later
      · exact (le_max_right _ _).trans start
      · exact others id later

theorem allocToolCallID_fresh {cache : ℤ} (started : 0 ≤ cache) (plan : Plan) :
    0 < allocToolCallID cache plan ∧ plan.ids.count (allocToolCallID cache plan) = 0 := by
  obtain ⟨start, others⟩ := foldl_max_ge plan.ids cache
  refine ⟨?_, List.count_eq_zero.mpr fun listed => ?_⟩
  · unfold allocToolCallID
    omega
  · have := others _ listed
    unfold allocToolCallID at this
    omega

theorem count_insertToolCall {call : ToolCall} {parent : Option ℤ} {now : ℤ}
    {steps inserted : List PlanStep} (done : insertToolCall call parent now steps = some inserted)
    (id : ℤ) : (stepIDs inserted).count id = call.ids.count id + (stepIDs steps).count id := by
  unfold insertToolCall at done
  cases parent with
  | none =>
      cases done
      rw [(stepIDs_appendTopLevelToolCall call now steps).count_eq, List.count_append]
  | some parent =>
      obtain ⟨changed, found, rfl⟩ := Option.map_eq_some_iff.mp done
      obtain ⟨own, others, before, after⟩ := changesOne_changeInSteps found
      rw [stepIDs_propagateUpdatedAt, after.count_eq, before.count_eq, ids_addSubCall,
        List.count_append, List.count_append, List.count_append]
      omega

theorem grows_createToolCall {cache : ℤ} (started : 0 ≤ cache) (new : NewToolCall)
    (parent : Option ℤ) (now : ℤ) (store : Store) :
    0 ≤ (createToolCall new parent now cache store).1 ∧
      Grows store.ids (createToolCall new parent now cache store).2.1.ids := by
  unfold createToolCall
  cases read : store.read with
  | none => exact ⟨started, Grows.refl _⟩
  | some plan =>
      obtain ⟨positive, absent⟩ := allocToolCallID_fresh started plan
      dsimp only
      have marked : stepIDs (if new.status = .retryRunning then markAnalyzed plan.steps
          else plan.steps) = plan.ids := by
        split
        · exact stepIDs_markAnalyzed plan.steps
        · rfl
      cases done : insertToolCall (new.call (allocToolCallID cache plan) now) parent now
          (if new.status = .retryRunning then markAnalyzed plan.steps else plan.steps) with
      | none => exact ⟨positive.le, Grows.refl _⟩
      | some steps =>
          refine ⟨positive.le, fun id => ?_⟩
          have counted := count_insertToolCall done id
          have own : (new.call (allocToolCallID cache plan) now).ids = [allocToolCallID cache plan] := rfl
          rw [marked, own, List.count_singleton] at counted
          change (stepIDs steps).count id ≤ _ ∨ 0 < id ∧ (stepIDs steps).count id ≤ 1
          rw [counted, ← ids_of_read read]
          by_cases same : allocToolCallID cache plan = id
          · subst same
            right
            rw [absent]
            simp [positive]
          · left
            simp [same]

theorem grows_updateToolCall {target now : ℤ} {updater : CallUpdater} {store' : Store}
    (done : updateToolCall target updater now store = .ok store') : Grows store.ids store'.ids := by
  unfold updateToolCall at done
  split at done
  · cases done
    exact Grows.refl _
  · cases read : store.read with
    | none =>
        rw [read] at done
        cases done
        exact Grows.refl _
    | some plan =>
        rw [read] at done
        dsimp only at done
        split at done
        · cases done
          exact Grows.refl _
        · obtain ⟨-, -, done⟩ := bind_eq_ok.mp done
          split at done
          · cases done
            exact Grows.refl _
          · next steps changed =>
              cases done
              obtain ⟨own, others, before, after⟩ := changesOne_changeInSteps changed
              refine Grows.of_count_le fun id => ?_
              change (stepIDs (propagateUpdatedAt target now steps)).count id ≤ _
              rw [stepIDs_propagateUpdatedAt, ← ids_of_read read, Plan.ids, after.count_eq,
                before.count_eq, ids_touch, List.count_append, List.count_append]
              have fewer : (updater.change own).ids.count id ≤ own.ids.count id := by
                unfold CallUpdater.change
                split
                · next updated applied => exact updater.keeps own updated applied id
                · exact le_rfl
              omega

theorem grows_updateToolCallTree {target now : ℤ} {updater : TreeUpdater} {store' : Store}
    (done : updateToolCallTree target updater now store = .ok store') : Grows store.ids store'.ids := by
  unfold updateToolCallTree at done
  split at done
  · cases done
    exact Grows.refl _
  · cases read : store.read with
    | none =>
        rw [read] at done
        cases done
        exact Grows.refl _
    | some plan =>
        rw [read] at done
        dsimp only at done
        split at done
        · cases done
          exact Grows.refl _
        · obtain ⟨updated, applied, done⟩ := bind_eq_ok.mp done
          cases done
          refine Grows.of_count_le fun id => ?_
          change (stepIDs (propagateUpdatedAt target now updated.steps)).count id ≤ _
          rw [stepIDs_propagateUpdatedAt, ← ids_of_read read]
          exact updater.keeps plan now updated applied id

theorem callIDs_touchAmong (target now : ℤ) (calls : List ToolCall) :
    callIDs (touchAmong target now calls) = callIDs calls := by
  induction calls with
  | nil => rfl
  | cons call rest ih =>
      rw [touchAmong]
      split
      · rw [callIDs, callIDs, ids_touch]
      · rw [callIDs, callIDs, ih]

theorem stepIDs_touchTopLevel (target now : ℤ) (steps : List PlanStep) :
    stepIDs (touchTopLevel target now steps) = stepIDs steps := by
  induction steps with
  | nil => rfl
  | cons step rest ih =>
      rw [touchTopLevel]
      split
      · rw [stepIDs_cons, stepIDs_cons, callIDs_touchAmong]
      · rw [stepIDs_cons, stepIDs_cons, ih]

theorem count_placeTree {root : ToolCall} {now : ℤ} {placed : Plan}
    (done : placeTree root now plan = .ok placed) {id : ℤ} (other : id ∉ root.ids) :
    placed.ids.count id = plan.ids.count id := by
  unfold placeTree at done
  split at done
  · split at done
    · cases done
    · cases done
      have own : (root.mapData fun data => { data with updatedAt := now }).ids = root.ids := by
        apply ids_mapData
        intro data
        rfl
      change (stepIDs (appendTopLevelToolCall _ now plan.steps)).count id = _
      rw [(stepIDs_appendTopLevelToolCall _ now plan.steps).count_eq, own, List.count_append,
        List.count_eq_zero.mpr other, Nat.zero_add]
      rfl
  · split at done
    · cases done
    · cases done
      exact congrArg (List.count id) (stepIDs_touchTopLevel root.toolCallID now plan.steps)

theorem grows_repairToolCallTree {root : ToolCall} {now : ℤ} {updater : RepairUpdater root}
    {store' : Store} (done : repairToolCallTree root updater now store = .ok store') :
    Grows store.ids store'.ids := by
  unfold repairToolCallTree at done
  split at done
  · cases done
  · next checked =>
      cases read : store.read with
      | none =>
          rw [read] at done
          cases done
          exact Grows.refl _
      | some plan =>
          rw [read] at done
          dsimp only at done
          obtain ⟨placed, put, done⟩ := bind_eq_ok.mp done
          obtain ⟨updated, applied, done⟩ := bind_eq_ok.mp done
          split at done
          · cases done
          · next counted =>
              cases done
              intro id
              change updated.ids.count id ≤ _ ∨ 0 < id ∧ updated.ids.count id ≤ 1
              by_cases own : id ∈ root.ids
              · right
                simp only [List.any_eq_true, decide_eq_true_eq, not_or, not_exists, not_and, not_not,
                  not_le, ne_eq] at checked counted
                exact ⟨checked.1 id own, (counted id own).le⟩
              · left
                rw [← ids_of_read read, ← count_placeTree put own]
                exact updater.keeps placed now updated applied id own

theorem stepIDs_removeFromSteps {target now : ℤ} {steps left : List PlanStep}
    (done : removeFromSteps target now steps = some left) : (stepIDs left).Sublist (stepIDs steps) := by
  induction steps generalizing left with
  | nil => cases done
  | cons step rest ih =>
      rw [removeFromSteps] at done
      cases here : removeToolCall target now step.toolCalls with
      | some found =>
          obtain ⟨removed, calls⟩ := found
          rw [here] at done
          cases done
          rw [stepIDs_cons, stepIDs_cons]
          exact (callIDs_removeToolCall _ _ _ here).append_right _
      | none =>
          rw [here] at done
          obtain ⟨later, behind, rfl⟩ := Option.map_eq_some_iff.mp done
          rw [stepIDs_cons, stepIDs_cons]
          exact (ih behind).append_left _

theorem grows_removeToolCallTree (target : ℤ) (predicate : Option (Plan → ToolCall → Bool)) (now : ℤ)
    (store : Store) : Grows store.ids (removeToolCallTree target predicate now store).ids := by
  unfold removeToolCallTree
  split
  · exact Grows.refl _
  · cases read : store.read with
    | none => exact Grows.refl _
    | some plan =>
        dsimp only
        split
        · cases done : removeFromSteps target now plan.steps with
          | none => exact Grows.refl _
          | some steps =>
              refine Grows.of_count_le fun id => ?_
              rw [← ids_of_read read]
              exact (stepIDs_removeFromSteps done).count_le id
        · exact Grows.refl _

theorem grows_after {computed : Except String Store}
    (grows : ∀ store', computed = .ok store' → Grows store.ids store'.ids) :
    Grows store.ids (store.after computed).ids := by
  cases computed with
  | ok store' => exact grows store' rfl
  | error _ => exact Grows.refl _

end Growth

section Runs

variable {Editor : Type} [DecidableEq Editor]

theorem grows_next (state : Editing Editor) (operation : Operation Editor)
    (started : ∀ editor, 0 ≤ state.caches editor) :
    (∀ editor, 0 ≤ (state.next operation).caches editor) ∧
      Grows state.store.ids (state.next operation).store.ids := by
  cases operation with
  | createToolCall editor new parent now =>
      obtain ⟨cache, grows⟩ := grows_createToolCall (started editor) new parent now state.store
      refine ⟨fun other => ?_, grows⟩
      by_cases own : other = editor
      · subst own
        simpa [Editing.next] using cache
      · simpa [Editing.next, own] using started other
  | updateToolCall target updater now =>
      exact ⟨started, grows_after fun _ => grows_updateToolCall⟩
  | updateToolCallTree target updater now =>
      exact ⟨started, grows_after fun _ => grows_updateToolCallTree⟩
  | repairToolCallTree root updater now =>
      exact ⟨started, grows_after fun _ => grows_repairToolCallTree⟩
  | removeToolCall target predicate now =>
      exact ⟨started, grows_removeToolCallTree target predicate now state.store⟩
  | writePlan input =>
      refine ⟨started, grows_after fun store' done => ?_⟩
      obtain ⟨written, wrote, rfl⟩ := map_eq_ok.mp done
      exact grows_writePlan wrote
  | cancelPlan => exact ⟨started, Grows.refl _⟩

/-- **Identifiers of tool calls stay distinct**, over all steps and all levels of nesting, in
every plan that any editors come to store in any order of their operations. -/
theorem toolCallIDs_distinct (store : Store) (distinct : (store.ids.filter (0 < ·)).Nodup)
    (operations : List (Operation Editor)) (final : Editing Editor)
    (run : editingSystem.Run ⟨store, fun _ => 0⟩ operations final) :
    (final.store.ids.filter (0 < ·)).Nodup ∧
      ((∀ id ∈ store.ids, 0 < id) → final.store.ids.Nodup) := by
  have kept := run.preserves
    (fun state => (∀ editor, 0 ≤ state.caches editor) ∧ (state.store.ids.filter (0 < ·)).Nodup ∧
      ((∀ id ∈ store.ids, 0 < id) → ∀ id ∈ state.store.ids, 0 < id))
    (fun source operation target holds step => by
      cases step
      obtain ⟨started, once, positive⟩ := holds
      obtain ⟨later, grows⟩ := grows_next source operation started
      exact ⟨later, grows.positive_nodup once, fun all => grows.all_positive (positive all)⟩)
    ⟨fun _ => le_rfl, distinct, fun all => all⟩
  obtain ⟨-, once, positive⟩ := kept
  refine ⟨once, fun all => ?_⟩
  have whole : final.store.ids.filter (0 < ·) = final.store.ids :=
    List.filter_eq_self.mpr fun id listed => by simpa using positive all id listed
  rwa [whole] at once

def startedTurn : Editing Bool :=
  ⟨{ plan := some { steps := [{ status := .inProgress }] }, cancelled := false }, fun _ => 0⟩

def creation (editor : Bool) : Operation Bool :=
  .createToolCall editor { name := "Read", initialMessage := "" } none 1

/-- Two editors that have not seen the plan before each create a call. -/
theorem toolCallIDs_two_editors :
    ((startedTurn.next (creation true)).next (creation false)).store.ids = [1, 2] ∧
      ((startedTurn.next (creation true)).next (creation false)).store.ids.Nodup := by
  refine ⟨by decide, ?_⟩
  have run : editingSystem.Run startedTurn [creation true, creation false]
      ((startedTurn.next (creation true)).next (creation false)) := .snoc (.snoc .nil rfl) rfl
  exact (toolCallIDs_distinct _ (by decide) _ _ run).2 fun _ listed => by cases listed

end Runs

end Sico.Plans

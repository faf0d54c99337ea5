import Sico.Foundation.Traversal
import Sico.Plans.Documents

/-! # What `write_plan` persists

A loaded plan comes back from what is written of it, member by member: what a member that is not
set holds is its default. `write_plan` keeps that, but for the list of steps of a plan that was
stored without one, which it changes without setting it.
-/

namespace Sico.Plans.Documents

open Foundation Foundation.Models

section Lawful

theorem fits_fresh {known : List (Member ModelName)}
    (defaults : ∀ member ∈ known, Fits schema member.shape member.default) :
    FitsMembers schema known (membersIn (fresh known)) := by
  induction known with
  | nil => exact .nil
  | cons member rest ih =>
      refine .cons rfl rfl (defaults member List.mem_cons_self) (fun _ => rfl) ?_
      exact ih fun other listed => defaults other (List.mem_cons_of_mem _ listed)

theorem defaults_of_list : (known : List (Member ModelName)) →
    known.foldr (fun member fit => Fits schema member.shape member.default ∧ fit) True →
      ∀ member ∈ known, Fits schema member.shape member.default
  | [], _ => fun _ none => nomatch none
  | first :: rest, ⟨own, others⟩ => by
      intro member listed
      rcases List.mem_cons.mp listed with rfl | later
      · exact own
      · exact defaults_of_list rest others member later

theorem lawful_defaults (name : ModelName) : ∀ member ∈ membersOf name, Fits schema member.shape member.default := by
  have sandbox : ∀ member ∈ acquiredSandboxMembers, Fits schema member.shape member.default := by
    apply defaults_of_list
    exact ⟨.leaf rfl, .leaf rfl, .leaf rfl, .leaf rfl, .leaf rfl, .leaf rfl, .leaf rfl, trivial⟩
  have runtime : ∀ member ∈ taskRuntimeMembers, Fits schema member.shape member.default := by
    apply defaults_of_list
    exact ⟨.leaf rfl, .leaf rfl, .leaf rfl, .leaf rfl, .leaf rfl, .leaf rfl, .leaf rfl, trivial⟩
  have info : ∀ member ∈ executionInfoMembers, Fits schema member.shape member.default := by
    apply defaults_of_list
    exact ⟨.leaf rfl, .leaf rfl, .model (fits_fresh runtime) rfl, trivial⟩
  cases name with
  | toolCall =>
      apply defaults_of_list
      exact ⟨.leaf rfl, .leaf rfl, .model (fits_fresh info) rfl, .list .nil, .leaf rfl, .list .nil, .leaf rfl,
        .leaf rfl, .leaf rfl, .leaf rfl, trivial⟩
  | executionInfo => exact info
  | taskRuntime => exact runtime
  | deliverable =>
      apply defaults_of_list
      exact ⟨.leaf rfl, .leaf rfl, .leaf rfl, .leaf rfl, .leaf rfl, .nothing, .leaf rfl,
        .model (fits_fresh sandbox) rfl, trivial⟩
  | file =>
      apply defaults_of_list
      exact ⟨.leaf rfl, .leaf rfl, .leaf rfl, trivial⟩
  | acquiredSandbox => exact sandbox
  | extra =>
      apply defaults_of_list
      exact ⟨.leaf rfl, .leaf rfl, .leaf rfl, .leaf rfl, .leaf rfl, .leaf rfl, .leaf rfl, trivial⟩

/-- A file in the place of what is held under its name. -/
def withFile (file : Json) (entry : String × Json) : String × Json :=
  if entry.1 = "file" then (entry.1, file) else entry

theorem memberContents_setFile (file : Value) (members : List (Tag × Value)) :
    memberContents (setFile file members) = (memberContents members).map (withFile file.content) := by
  induction members with
  | nil => rfl
  | cons entry rest ih =>
      obtain ⟨tag, value⟩ := entry
      rw [setFile, memberContents, List.map_cons, withFile]
      split
      · rw [memberContents, ih]
      · rw [memberContents, ih]

theorem memberContents_migrate (members : List (Tag × Value)) :
    memberContents (migrateDeprecatedFileFields members) =
      if isDeprecated (memberContents members) then
        (memberContents members).map (withFile (migratedFile (memberContents members)).content)
      else memberContents members := by
  unfold migrateDeprecatedFileFields
  split
  · exact memberContents_setFile _ _
  · rfl

theorem isDeprecated_withFile {contents : List (String × Json)} {file : Json} (some_ : file ≠ .null)
    (deprecated : isDeprecated contents) : isDeprecated (contents.map (withFile file)) = false := by
  have same : ((fun entry : String × Json => decide (entry.1 = "file")) ∘ withFile file) =
      fun entry => decide (entry.1 = "file") := by
    funext entry
    rw [Function.comp_apply, withFile]
    split <;> rfl
  unfold isDeprecated at deprecated ⊢
  rw [List.find?_map, same]
  rw [Bool.and_eq_true, decide_eq_true_eq] at deprecated
  obtain ⟨entry, found, -⟩ := Option.map_eq_some_iff.mp deprecated.1
  have named : entry.1 = "file" := by simpa using List.find?_some found
  rw [found, Option.map_some, Option.map_some, withFile, if_pos named]
  simp [some_]

theorem fits_migratedFile (contents : List (String × Json)) :
    Fits schema (.optional .file) (migratedFile contents) := by
  refine .something ?_ rfl
  refine .cons rfl rfl (.leaf rfl) (fun absent => nomatch absent) ?_
  refine .cons rfl rfl (.leaf rfl) (fun absent => nomatch absent) ?_
  exact .cons rfl rfl (.leaf rfl) (fun absent => nomatch absent) .nil

theorem fits_setFile {file : Value} (fit : Fits schema (.optional .file) file)
    {known : List (Member ModelName)} {members : List (Tag × Value)} (fits : FitsMembers schema known members)
    (shaped : ∀ member ∈ known, member.name = "file" → member.shape = .optional .file) :
    FitsMembers schema known (setFile file members) := by
  induction members generalizing known with
  | nil => exact fits
  | cons entry rest ih =>
      cases fits with
      | @cons member known tag value _ named byDefault own unset others =>
          have later := ih others fun other listed => shaped other (List.mem_cons_of_mem _ listed)
          rw [setFile]
          split
          · next same =>
              have shape := shaped member List.mem_cons_self (named ▸ same)
              exact .cons named byDefault (shape ▸ fit) (fun absent => nomatch absent) later
          · exact .cons named byDefault own unset later

theorem schema_lawful : schema.Lawful where
  distinct name := by cases name <;> decide
  defaults := lawful_defaults
  nothing name := by cases name <;> decide
  fits name members fit := by
    cases name with
    | deliverable =>
        change FitsMembers schema _ (migrateDeprecatedFileFields members)
        unfold migrateDeprecatedFileFields
        split
        · refine fits_setFile (fits_migratedFile _) fit ?_
          intro member listed
          simp only [schema, membersOf, deliverableMembers, List.mem_cons, List.not_mem_nil, or_false] at listed
          rcases listed with rfl | rfl | rfl | rfl | rfl | rfl | rfl | rfl <;>
            first | exact fun _ => rfl | exact fun same => absurd same (by decide)
        · exact fit
    | _ => exact fit
  again name members fit := by
    cases name with
    | deliverable =>
        change memberContents (migrateDeprecatedFileFields (migrateDeprecatedFileFields members)) =
          memberContents (migrateDeprecatedFileFields members)
        rw [memberContents_migrate (migrateDeprecatedFileFields members)]
        rw [memberContents_migrate members]
        split
        · next deprecated =>
            have some_ : (migratedFile (memberContents members)).content ≠ .null := fun none => nomatch none
            rw [isDeprecated_withFile some_ deprecated]
            rfl
        · rfl
    | _ => rfl
  depends name first second _ _ same := by
    cases name with
    | deliverable =>
        change memberContents (migrateDeprecatedFileFields first) =
          memberContents (migrateDeprecatedFileFields second)
        rw [memberContents_migrate, memberContents_migrate, same]
    | _ => exact same

end Lawful

section Loading

/-- What a step holds, whether it was set or not. -/
structure StepContent where
  title : String
  toolCalls : List Json
  status : StepStatus
  updatedAt : ℤ
  deriving DecidableEq

def StepModel.content (step : StepModel) : StepContent :=
  ⟨step.title.value, contents step.toolCalls.value, step.status.value, step.updatedAt.value⟩

def PlanModel.stepContents (plan : PlanModel) : List StepContent := plan.steps.value.map StepModel.content

/-- What a member that is not set holds is its default. -/
structure StepModel.Coherent (step : StepModel) : Prop where
  title : step.title.isSet = false → step.title.value = ""
  toolCalls : step.toolCalls.isSet = false → step.toolCalls.value = []
  fits : FitsAll schema (.model .toolCall) step.toolCalls.value
  status : step.status.isSet = false → step.status.value = .unknown
  updatedAt : step.updatedAt.isSet = false → step.updatedAt.value = 0

theorem load_unset {α β : Type} {default : α} {read : β → Option α} {part : Option β} {field : Models.Field α}
    (loaded : Field.load default read part = some field) : field.isSet = false → field.value = default := by
  cases part with
  | none =>
      cases loaded
      exact fun _ => rfl
  | some part =>
      obtain ⟨value, -, rfl⟩ := Option.map_eq_some_iff.mp loaded
      intro absent
      cases absent

theorem coherent_load {document : StepDocument} {step : StepModel} (loaded : document.load = some step) :
    step.Coherent := by
  obtain ⟨title, first, loaded⟩ := Option.bind_eq_some_iff.mp loaded
  obtain ⟨toolCalls, second, loaded⟩ := Option.bind_eq_some_iff.mp loaded
  obtain ⟨status, third, loaded⟩ := Option.bind_eq_some_iff.mp loaded
  obtain ⟨updatedAt, fourth, same⟩ := Option.bind_eq_some_iff.mp loaded
  cases same
  have fits : FitsAll schema (.model .toolCall) toolCalls.value := by
    cases calls : document.toolCalls with
    | none =>
        rw [calls] at second
        cases second
        exact .nil
    | some items =>
        rw [calls] at second
        obtain ⟨values, read, rfl⟩ := Option.map_eq_some_iff.mp second
        exact fits_loadItems schema_lawful items _ values read
  exact ⟨load_unset first, load_unset second, fits, load_unset third, load_unset fourth⟩

theorem load_writtenStep {step : StepModel} (coherent : step.Coherent) :
    ∃ back, step.written.load = some back ∧ back.content = step.content := by
  obtain ⟨title, first, sameTitle⟩ := Field.load_writtenPlain "" step.title coherent.title
  obtain ⟨values, read, sameValues⟩ := load_writtenItems schema_lawful coherent.fits
  obtain ⟨calls, second, sameCalls⟩ := Field.load_written []
    (fun calls => schema.loadItems calls (.model .toolCall)) List.isEmpty writtenItems contents step.toolCalls
    (fun value empty => congrArg contents (List.isEmpty_iff.mp empty))
    (fun absent => congrArg contents (coherent.toolCalls absent)) ⟨values, read, sameValues⟩
  obtain ⟨status, third, sameStatus⟩ := Field.load_writtenPlain .unknown step.status coherent.status
  obtain ⟨updatedAt, fourth, sameTime⟩ := Field.load_writtenPlain 0 step.updatedAt coherent.updatedAt
  refine ⟨{ title, toolCalls := calls, status, updatedAt }, ?_, ?_⟩
  · unfold StepDocument.load StepModel.written
    dsimp only
    rw [first, second, third, fourth]
    rfl
  · unfold StepModel.content
    rw [sameTitle, sameCalls, sameStatus, sameTime]

theorem load_writtenSteps {steps : List StepModel} (coherent : ∀ step ∈ steps, step.Coherent) :
    ∃ back, (steps.map StepModel.written).mapM StepDocument.load = some back ∧
      back.map StepModel.content = steps.map StepModel.content := by
  induction steps with
  | nil => exact ⟨[], rfl, rfl⟩
  | cons step rest ih =>
      obtain ⟨own, loaded, same⟩ := load_writtenStep (coherent step List.mem_cons_self)
      obtain ⟨back, later, others⟩ := ih fun other listed => coherent other (List.mem_cons_of_mem _ listed)
      refine ⟨own :: back, ?_, ?_⟩
      · rw [List.map_cons, List.mapM_cons, loaded, later]
        rfl
      · rw [List.map_cons, List.map_cons, same, others]

/-- What is needed of a plan for its title and steps to come back. -/
structure PlanModel.Coherent (plan : PlanModel) : Prop where
  title : plan.title.isSet = false → plan.title.value = ""
  steps : ∀ step ∈ plan.steps.value, step.Coherent
  extra : Fits schema (.model .extra) plan.extra.value

theorem coherent_loadPlan {document : PlanDocument} {plan : PlanModel} (loaded : document.load = some plan) :
    plan.Coherent ∧ plan.steps.isSet = document.steps.isSome ∧ (document.steps = none → plan.steps.value = []) := by
  obtain ⟨title, first, loaded⟩ := Option.bind_eq_some_iff.mp loaded
  obtain ⟨steps, second, loaded⟩ := Option.bind_eq_some_iff.mp loaded
  obtain ⟨extra, third, same⟩ := Option.bind_eq_some_iff.mp loaded
  cases same
  have fits : Fits schema (.model .extra) extra.value := by
    cases held : document.extra with
    | none =>
        rw [held] at third
        cases third
        exact .model (fits_fresh (lawful_defaults .extra)) rfl
    | some json =>
        rw [held] at third
        obtain ⟨value, read, rfl⟩ := Option.map_eq_some_iff.mp third
        exact fits_load schema_lawful json _ value read
  cases held : document.steps with
  | none =>
      rw [held] at second
      cases second
      exact ⟨⟨load_unset first, fun step none => (by cases none), fits⟩, rfl, fun _ => rfl⟩
  | some documents =>
      rw [held] at second
      obtain ⟨values, read, rfl⟩ := Option.map_eq_some_iff.mp second
      refine ⟨⟨load_unset first, ?_, fits⟩, rfl, fun absent => nomatch absent⟩
      intro step listed
      obtain ⟨origin, -, loaded⟩ := exists_left_of_mem (mapM_eq_some.mp read) listed
      exact coherent_load loaded

theorem load_writtenPlan {plan : PlanModel} (coherent : plan.Coherent) :
    ∃ back, plan.written.load = some back ∧ back.title.value = plan.title.value ∧
      (plan.steps.isSet = true ∨ plan.steps.value = [] → back.stepContents = plan.stepContents) ∧
        (plan.steps.isSet = false → back.steps.value = []) := by
  obtain ⟨title, first, sameTitle⟩ := Field.load_writtenPlain "" plan.title coherent.title
  obtain ⟨values, read, sameValues⟩ := load_writtenSteps coherent.steps
  obtain ⟨held, reads, -⟩ := load_written schema_lawful coherent.extra
  obtain ⟨extra, third, -⟩ := Field.load_written (fresh extraMembers)
    (fun extra => schema.load extra (.model .extra)) (·.content = (fresh extraMembers).content) Value.written
    (fun _ => ()) plan.extra (fun _ _ => rfl) (fun _ => rfl) ⟨held, reads, rfl⟩
  by_cases kept : plan.steps.isSet = true ∨ plan.steps.value = []
  · obtain ⟨steps, second, sameSteps⟩ := Field.load_written []
      (fun steps => steps.mapM StepDocument.load) List.isEmpty (fun steps => steps.map StepModel.written)
      (fun steps => steps.map StepModel.content) plan.steps
      (fun value empty => congrArg (List.map StepModel.content) (List.isEmpty_iff.mp empty))
      (fun absent => congrArg (List.map StepModel.content) (kept.resolve_left (by rw [absent]; exact Bool.false_ne_true)))
      ⟨values, read, sameValues⟩
    refine ⟨{ title, steps, extra }, ?_, sameTitle, fun _ => sameSteps, ?_⟩
    · unfold PlanDocument.load PlanModel.written
      dsimp only
      rw [first, second, third]
      rfl
    · intro absent
      have empty := kept.resolve_left (by rw [absent]; exact Bool.false_ne_true)
      rw [empty] at sameSteps
      exact List.map_eq_nil_iff.mp sameSteps
  · have absent : plan.steps.isSet = false := by
      cases isSet : plan.steps.isSet with
      | false => rfl
      | true => exact absurd (.inl isSet) kept
    refine ⟨{ title, steps := ⟨[], false⟩, extra }, ?_, sameTitle, fun again => absurd again kept, fun _ => rfl⟩
    unfold PlanDocument.load PlanModel.written
    dsimp only
    have nothing : plan.steps.written List.isEmpty (fun steps => steps.map StepModel.written) = none := by
      unfold Field.written
      rw [absent]
      rfl
    rw [first, nothing, third]
    rfl

end Loading

section Writing

variable {extra : PlanExtra} {now : ℤ} {input : PlanWriteInput}

/-- What happened to the steps of a plan: none is gone, each has the tool calls that it had, and a
finished one is not running. -/
structure Keeps (before after : List StepContent) : Prop where
  length : before.length ≤ after.length
  step : ∀ (index : ℕ) (old new : StepContent), before[index]? = some old → after[index]? = some new →
    new.toolCalls = old.toolCalls ∧ ¬ (old.status.isFinished ∧ new.status.isRunning)

theorem Keeps.nil (after : List StepContent) : Keeps [] after where
  length := Nat.zero_le _
  step index old new none := by
    rw [List.getElem?_nil] at none
    cases none

theorem Keeps.cons {old new : StepContent} {before after : List StepContent} (calls : new.toolCalls = old.toolCalls)
    (status : ¬ (old.status.isFinished ∧ new.status.isRunning)) (keeps : Keeps before after) :
    Keeps (old :: before) (new :: after) where
  length := Nat.succ_le_succ keeps.length
  step index first second here there := by
    cases index with
    | zero =>
        cases here
        cases there
        exact ⟨calls, status⟩
    | succ index => exact keeps.step index first second here there

theorem not_finished_and_running (status : StepStatus) : ¬ (status.isFinished ∧ status.isRunning) := by
  cases status <;> decide

theorem Keeps.refl (steps : List StepContent) : Keeps steps steps := by
  induction steps with
  | nil => exact .nil _
  | cons step rest ih => exact .cons rfl (not_finished_and_running step.status) ih

theorem newStep_coherent (item : PlanItemWrite) : (newStep item).Coherent where
  title absent := by cases absent
  toolCalls _ := rfl
  fits := .nil
  status absent := by cases absent
  updatedAt _ := rfl

theorem overwriteStep_spec {index : ℕ} {item : PlanItemWrite} {step written : StepModel} (coherent : step.Coherent)
    (done : overwriteStep index item step = .ok written) :
    written.Coherent ∧ written.content.toolCalls = step.content.toolCalls ∧
      ¬ (step.content.status.isFinished ∧ written.content.status.isRunning) := by
  unfold overwriteStep at done
  split at done
  · cases done
  · split at done
    · cases done
    · next stays =>
        cases done
        refine ⟨⟨?_, coherent.toolCalls, coherent.fits, (fun absent => nomatch absent), coherent.updatedAt⟩, rfl, stays⟩
        dsimp only
        split
        · exact coherent.title
        · intro absent
          cases absent

theorem overwriteSteps_spec {items : List PlanItemWrite} {index : ℕ} {steps written : List StepModel}
    (coherent : ∀ step ∈ steps, step.Coherent) (done : overwriteSteps index items steps = .ok written) :
    (∀ step ∈ written, step.Coherent) ∧
      Keeps (steps.map StepModel.content) (written.map StepModel.content) := by
  induction items generalizing index steps written with
  | nil =>
      cases done
      exact ⟨coherent, .refl _⟩
  | cons item items ih =>
      cases steps with
      | nil =>
          cases done
          refine ⟨?_, .nil _⟩
          intro step listed
          obtain ⟨origin, -, rfl⟩ := List.mem_map.mp listed
          exact newStep_coherent origin
      | cons step steps =>
          obtain ⟨own, overwritten, done⟩ := bind_eq_ok.mp done
          obtain ⟨rest, later, same⟩ := bind_eq_ok.mp done
          cases same
          obtain ⟨held, calls, status⟩ := overwriteStep_spec (coherent step List.mem_cons_self) overwritten
          obtain ⟨others, keeps⟩ := ih (fun other listed => coherent other (List.mem_cons_of_mem _ listed)) later
          refine ⟨?_, keeps.cons calls status⟩
          intro other listed
          rcases List.mem_cons.mp listed with rfl | behind
          · exact held
          · exact others other behind

theorem overwriteSteps_of_nil {items : List PlanItemWrite} {index : ℕ} {written : List StepModel}
    (done : overwriteSteps index items [] = .ok written) : written = items.map newStep := by
  cases items with
  | nil =>
      cases done
      rfl
  | cons item items =>
      cases done
      rfl

theorem shape_extra : ∀ member ∈ extraMembers,
    member.shape = if member.name ∈ ["username", "agent_id"] then .leaf isText else .leaf isNumber := by
  intro member listed
  simp only [extraMembers, List.mem_cons, List.not_mem_nil, or_false] at listed
  rcases listed with rfl | rfl | rfl | rfl | rfl | rfl | rfl <;> rfl

theorem fits_assignText {members : List (Tag × Value)} (fit : FitsMembers schema extraMembers members)
    {name : String} (own : name ∈ ["username", "agent_id"]) (text : String) :
    FitsMembers schema extraMembers (assignMember name (.str text) members) := by
  apply fit.assign
  rintro member listed rfl
  rw [shape_extra member listed, if_pos own]
  exact .leaf rfl

theorem fits_assignNumber {members : List (Tag × Value)} (fit : FitsMembers schema extraMembers members)
    {name : String} (own : name ∉ ["username", "agent_id"]) (number : ℤ) :
    FitsMembers schema extraMembers (assignMember name (.int number) members) := by
  apply fit.assign
  rintro member listed rfl
  rw [shape_extra member listed, if_neg own]
  exact .leaf rfl

theorem fits_assignTo {members : List (Tag × Value)} (fit : FitsMembers schema extraMembers members) :
    FitsMembers schema extraMembers (extra.assignTo members) := by
  unfold PlanExtra.assignTo
  refine fits_assignNumber ?_ (by decide) _
  refine fits_assignNumber ?_ (by decide) _
  refine fits_assignNumber ?_ (by decide) _
  refine fits_assignText ?_ (by decide) _
  refine fits_assignNumber ?_ (by decide) _
  exact fits_assignText fit (by decide) _

theorem fits_extra {held : Value} (fit : Fits schema (.model .extra) held) :
    FitsMembers schema extraMembers (membersIn held) := by
  cases fit with
  | model fit _ => exact fit

theorem fits_assignUpdatedAt {held : Value} (fit : FitsMembers schema extraMembers (membersIn held)) :
    Fits schema (.model .extra) (assignUpdatedAt now held) :=
  .model (fits_assignNumber fit (by decide) now) rfl

/-- The plan that is returned is coherent, and its steps are those of the plan before with the items
written over them. Their list is set unless it was not before. -/
theorem writePlan_spec {before after : Option PlanDocument} {returned : PlanModel}
    (done : writePlan input extra now before = .ok (returned, after)) :
    (before = none ∧ returned.Coherent ∧ returned.steps.isSet = true ∧ after = some returned.written) ∨
      ∃ document existing, before = some document ∧ document.load = some existing ∧
        (existing.isCancelled = true ∧ returned = existing ∧ after = before ∨
          returned.Coherent ∧ returned.steps.isSet = document.steps.isSome ∧
            overwriteSteps 0 input.items existing.steps.value = .ok returned.steps.value ∧
              after = some returned.written) := by
  unfold writePlan at done
  cases before with
  | none =>
      cases done
      refine .inl ⟨rfl, ⟨(fun absent => nomatch absent), ?_, ?_⟩, rfl, rfl⟩
      · intro step listed
        obtain ⟨item, -, rfl⟩ := List.mem_map.mp listed
        exact newStep_coherent item
      · apply fits_assignUpdatedAt
        exact fits_assignTo (fits_fresh (lawful_defaults .extra))
  | some document =>
      dsimp only at done
      cases loaded : document.load with
      | none =>
          rw [loaded] at done
          cases done
      | some existing =>
          rw [loaded] at done
          obtain ⟨coherent, isSet, -⟩ := coherent_loadPlan loaded
          refine .inr ⟨document, existing, rfl, loaded, ?_⟩
          dsimp only at done
          split at done
          · next cancelled =>
              cases done
              exact .inl ⟨cancelled, rfl, rfl⟩
          · obtain ⟨steps, overwritten, same⟩ := bind_eq_ok.mp done
            cases same
            obtain ⟨each, -⟩ := overwriteSteps_spec coherent.steps overwritten
            refine .inr ⟨⟨(fun absent => nomatch absent), each, ?_⟩, isSet, overwritten, rfl⟩
            apply fits_assignUpdatedAt
            exact fits_assignTo (fits_extra coherent.extra)

/-- What `write_plan` promises: a read behind it finds the title and the steps that it returned, and
they keep what was there before. -/
def Persists (before : Option PlanDocument) (returned : PlanModel) (after : Option PlanDocument) : Prop :=
  ∃ document plan, after = some document ∧ document.load = some plan ∧
    plan.title.value = returned.title.value ∧ plan.stepContents = returned.stepContents ∧
      ∀ earlier existing, before = some earlier → earlier.load = some existing →
        Keeps existing.stepContents plan.stepContents

/-- **`write_plan` persists what it returns**, and keeps the steps and their tool calls, if and only
if it does not write items over a stored plan that has no list of steps. -/
theorem writePlan_persists_iff {before after : Option PlanDocument} {returned : PlanModel}
    (done : writePlan input extra now before = .ok (returned, after)) :
    Persists before returned after ↔ ∀ document, before = some document → document.steps.isSome ∨ input.items = [] := by
  rcases writePlan_spec done with ⟨rfl, coherent, isSet, rfl⟩ | ⟨document, existing, rfl, loaded, cases_⟩
  · refine iff_of_true ?_ fun document none => nomatch none
    obtain ⟨back, read, title, steps, -⟩ := load_writtenPlan coherent
    exact ⟨_, back, rfl, read, title, steps (.inl isSet), fun earlier existing none => nomatch none⟩
  · obtain ⟨held, -, empty⟩ := coherent_loadPlan loaded
    rcases cases_ with ⟨cancelled, rfl, rfl⟩ | ⟨coherent, isSet, overwritten, rfl⟩
    · have some_ : document.steps.isSome := by
        cases steps : document.steps with
        | some _ => rfl
        | none =>
            unfold PlanModel.isCancelled at cancelled
            rw [empty steps] at cancelled
            cases cancelled
      refine iff_of_true ?_ ?_
      · refine ⟨document, returned, rfl, loaded, rfl, rfl, ?_⟩
        rintro earlier existing ⟨⟩ again
        obtain rfl := Option.some.inj (loaded.symm.trans again)
        exact .refl _
      · rintro _ ⟨⟩
        exact .inl some_
    · obtain ⟨back, read, title, steps, unset⟩ := load_writtenPlan coherent
      obtain ⟨-, keeps⟩ := overwriteSteps_spec held.steps overwritten
      constructor
      · rintro ⟨_, plan, ⟨⟩, again, -, same, -⟩ _ ⟨⟩
        obtain rfl := Option.some.inj (read.symm.trans again)
        cases absent : document.steps with
        | some _ => exact .inl rfl
        | none =>
            right
            rw [absent] at isSet
            rw [empty absent] at overwritten
            have none_ : returned.stepContents = [] := by
              rw [← same, PlanModel.stepContents, unset isSet]
              rfl
            rw [PlanModel.stepContents, overwriteSteps_of_nil overwritten] at none_
            exact List.map_eq_nil_iff.mp (List.map_eq_nil_iff.mp none_)
      · intro set
        have kept : returned.steps.isSet = true ∨ returned.steps.value = [] := by
          rcases set document rfl with some_ | none_
          · exact .inl (isSet.trans some_)
          · cases absent : document.steps with
            | some _ => exact .inl (isSet.trans (by rw [absent]; rfl))
            | none =>
                rw [empty absent, none_] at overwritten
                exact .inr (overwriteSteps_of_nil overwritten)
        refine ⟨_, back, rfl, read, title, steps kept, ?_⟩
        rintro earlier _ ⟨⟩ again
        obtain rfl := Option.some.inj (loaded.symm.trans again)
        rw [steps kept]
        exact keeps

section Examples

def untilLater : PlanWriteInput := { title := "Deploy", items := [], oneInProgress := by decide }

def build : PlanWriteInput :=
  { title := "Deploy", items := [⟨"Build", .pending, by decide⟩], oneInProgress := by decide }

/-- What is returned and stored, where nothing is raised. -/
def writes (input : PlanWriteInput) (before : Option PlanDocument) : Option (PlanModel × Option PlanDocument) :=
  (writePlan input {} 1 before).toOption

def firstWrite : PlanModel × Option PlanDocument := (writes untilLater none).get (by decide)

def secondWrite : PlanModel × Option PlanDocument := (writes build firstWrite.2).get (by decide)

theorem done_of_writes {written : PlanModel × Option PlanDocument}
    (done : writes input before = some written) : writePlan input {} 1 before = .ok (written.1, written.2) := by
  unfold writes at done
  cases result : writePlan input {} 1 before with
  | error message =>
      rw [result] at done
      cases done
  | ok pair =>
      rw [result] at done
      cases done
      rfl

theorem build_persisted :
    Persists none ((writes build none).get (by decide)).1 ((writes build none).get (by decide)).2 := by
  apply (writePlan_persists_iff (done_of_writes (Option.some_get _).symm)).mpr
  intro document absent
  cases absent

/-- The step written to a plan that was stored without any is returned and not stored. -/
theorem build_dropped :
    ¬ ∀ (input : PlanWriteInput) (extra : PlanExtra) (now : ℤ) (before after : Option PlanDocument)
      (returned : PlanModel), Reachable before → writePlan input extra now before = .ok (returned, after) →
        Persists before returned after := by
  intro persists
  have reachable : Reachable firstWrite.2 :=
    .written .nothing untilLater {} 1 (done_of_writes (Option.some_get _).symm)
  have done : writePlan build {} 1 firstWrite.2 = .ok (secondWrite.1, secondWrite.2) :=
    done_of_writes (Option.some_get _).symm
  obtain ⟨document, plan, stored, loaded, -, same, -⟩ := persists build {} 1 _ _ _ reachable done
  have read : (secondWrite.2.bind PlanDocument.load).map PlanModel.stepContents = some secondWrite.1.stepContents := by
    rw [stored, Option.bind_some, loaded, Option.map_some, same]
  exact absurd read (by decide)

end Examples

end Writing

end Sico.Plans.Documents

import Sico.Foundation.Encoding
import Sico.Foundation.JsonSorted
import Sico.TaskRuntime.ExecutionPlan

/-! # Keys of submitted tasks

A task of a submission is known by a key, the digest of the submission, the task's place in it, and either what the
caller names it or what it asks for. A whole submission has a fingerprint, by which a repeated one is told from
another that bears its name. Both are digests of documents written with their members in order.

A task may be given its sandbox between, which is written into its metadata: neither digest reads these. The hash
function is a parameter.
-/

namespace Sico.TaskRuntime.ExecutionPlan

open Foundation AgentLoop

section Documents

def SkillGuideRef.dump (ref : SkillGuideRef) : Json :=
  .obj [("skill_id", .int ref.skillID), ("version", .str ref.version), ("content_hash", .str ref.contentHash)]

def textsJson (texts : List String) : Json := .arr (texts.map .str)

/-- The members of a dispatch, without those that are none. -/
def Dispatch.dump : Dispatch → Json
  | .capability capabilityID => .obj [("type", .str "capability"), ("capability_id", .str capabilityID)]
  | .subAgent profileID maxModelTurns selectors effective refs =>
      .obj ([("type", .str "sub_agent"), ("profile_id", .str profileID)] ++
        maxModelTurns.toList.map (fun turns => ("max_model_turns", Json.int turns)) ++
        [("requested_capability_selectors", textsJson selectors), ("effective_capability_ids", textsJson effective),
          ("instruction_refs", .arr (refs.map SkillGuideRef.dump))])

def TaskDisplay.dump (display : TaskDisplay) : Json :=
  .obj [("plan_title", .str display.planTitle), ("batch_step_title", .str display.batchStepTitle),
    ("single_step_title", .str display.singleStepTitle)]

def TaskSpec.members (task : TaskSpec) : List (String × Json) :=
  [("task_id", .str task.taskID), ("title", .str task.title), ("instructions", .str task.instructions),
    ("dispatch", task.dispatch.dump), ("display", task.display.dump), ("args", .obj task.args),
    ("metadata", .obj task.metadata), ("required_sandbox", textsJson task.requiredSandbox),
    ("stage", .int task.stage), ("idempotency_key", .str task.idempotencyKey)]

/-- `model_dump` with `exclude_none`: the arguments and the metadata keep their own members. -/
def TaskSpec.modelDump (task : TaskSpec) (exclude : List String) : Json :=
  .obj (task.members.filter fun member => member.1 ∉ exclude)

end Documents

section Keys

variable (sha256 : List UInt8 → List UInt8)

/-- `canonical.encode("utf-8")`. -/
def canonical (payload : Json) : List UInt8 := encoded (Json.compact.written 0 payload.sorted)

def keyedTask (task : TaskSpec) : Json :=
  if strip task.idempotencyKey ≠ "" then .obj [("explicit_idempotency_key", .str (strip task.idempotencyKey))]
  else task.modelDump ["task_id", "idempotency_key", "metadata"]

def keyPayload (submissionID : String) (batchItemIndex : ℤ) (task : TaskSpec) : Json :=
  .obj [("schema_version", .int 2), ("submission_id", .str (strip submissionID)),
    ("batch_item_index", .int batchItemIndex), ("task", keyedTask task)]

def computeIdempotencyKey (submissionID : String) (batchItemIndex : ℤ) (task : TaskSpec) : Except String String :=
  if strip submissionID = "" then .error "submission_id is required"
  else .ok (hexdigest (sha256 (canonical (keyPayload submissionID batchItemIndex task))))

def taskExecutionFingerprintPayload (task : TaskSpec) : Json := task.modelDump ["display", "metadata"]

def preparedSubmissionFingerprint (batch : TaskBatchInput) (submissionSource : String) : String :=
  let payload : List (String × Json) :=
    [("submission_source", .str submissionSource), ("tasks", .arr (batch.tasks.map taskExecutionFingerprintPayload)),
      ("join_strategy", .str batch.joinStrategy)] ++
      batch.maxConcurrency.toList.map fun requested => ("max_concurrency", .int requested)
  hexdigest (sha256 (canonical (.obj payload)))

end Keys

section Contents

/-- Tasks with the same contents, but for what names them, their metadata and the order of members within their
arguments. -/
structure SameContents (first second : TaskSpec) : Prop where
  title : first.title = second.title
  instructions : first.instructions = second.instructions
  dispatch : first.dispatch = second.dispatch
  display : first.display = second.display
  args : Json.sorted (.obj first.args) = Json.sorted (.obj second.args)
  requiredSandbox : first.requiredSandbox = second.requiredSandbox
  stage : first.stage = second.stage

variable {floatText : String → String}

theorem proper_textsJson (texts : List String) : Json.Proper floatText (textsJson texts) :=
  Json.properItems_texts texts

theorem proper_ref (ref : SkillGuideRef) : Json.Proper floatText ref.dump :=
  ⟨(by decide : List.Nodup ["skill_id", "version", "content_hash"]), trivial, trivial, trivial, trivial⟩

theorem proper_refs (refs : List SkillGuideRef) : Json.Proper floatText (.arr (refs.map SkillGuideRef.dump)) := by
  rw [Json.Proper, Json.properItems_iff]
  intro item listed
  obtain ⟨ref, _, rfl⟩ := List.mem_map.mp listed
  exact proper_ref ref

theorem proper_dispatch (dispatch : Dispatch) : Json.Proper floatText dispatch.dump := by
  cases dispatch with
  | capability capabilityID =>
      exact ⟨(by decide : List.Nodup ["type", "capability_id"]), trivial, trivial, trivial⟩
  | subAgent profileID maxModelTurns selectors effective refs =>
      cases maxModelTurns with
      | none =>
          exact ⟨(by decide : List.Nodup ["type", "profile_id", "requested_capability_selectors",
              "effective_capability_ids", "instruction_refs"]),
            trivial, trivial, proper_textsJson _, proper_textsJson _, proper_refs refs, trivial⟩
      | some turns =>
          exact ⟨(by decide : List.Nodup ["type", "profile_id", "max_model_turns", "requested_capability_selectors",
              "effective_capability_ids", "instruction_refs"]),
            trivial, trivial, trivial, proper_textsJson _, proper_textsJson _, proper_refs refs, trivial⟩

theorem proper_display (display : TaskDisplay) : Json.Proper floatText display.dump :=
  ⟨(by decide : List.Nodup ["plan_title", "batch_step_title", "single_step_title"]), trivial, trivial, trivial, trivial⟩

theorem proper_keyedTask {task : TaskSpec} (proper : Json.Proper floatText (.obj task.args)) :
    Json.Proper floatText (keyedTask task) := by
  unfold keyedTask
  split
  · exact ⟨List.nodup_singleton _, trivial, trivial⟩
  · exact ⟨(by decide : List.Nodup ["title", "instructions", "dispatch", "display", "args", "required_sandbox", "stage"]),
      trivial, trivial, proper_dispatch _, proper_display _, proper, proper_textsJson _, trivial, trivial⟩

theorem proper_keyPayload {task : TaskSpec} (proper : Json.Proper floatText (.obj task.args)) (submissionID : String)
    (batchItemIndex : ℤ) : Json.Proper floatText (keyPayload submissionID batchItemIndex task) :=
  ⟨(by decide : List.Nodup ["schema_version", "submission_id", "batch_item_index", "task"]),
    trivial, trivial, trivial, proper_keyedTask proper, trivial⟩

theorem textsJson_injective {first second : List String} (same : (textsJson first).sorted = (textsJson second).sorted) :
    first = second := by
  unfold textsJson at same
  rw [Json.sorted_texts, Json.sorted_texts] at same
  exact List.map_injective_iff.mpr (fun _ _ => Json.str.inj) (Json.arr.inj same)

theorem ref_injective {first second : SkillGuideRef} (same : first.dump.sorted = second.dump.sorted) :
    first = second := by
  have reads := Json.member?_eq (proper_ref first : Json.Proper id first.dump) (proper_ref second) same
  have skillID : Json.int first.skillID = .int second.skillID := Option.some.inj (reads "skill_id")
  have version : Json.str first.version = .str second.version := Option.some.inj (reads "version")
  have contentHash : Json.str first.contentHash = .str second.contentHash := Option.some.inj (reads "content_hash")
  cases first
  cases second
  cases skillID
  cases version
  cases contentHash
  rfl

theorem refs_injective {first second : List SkillGuideRef}
    (same : (Json.arr (first.map SkillGuideRef.dump)).sorted = (Json.arr (second.map SkillGuideRef.dump)).sorted) :
    first = second := by
  rw [Json.sorted, Json.sorted, Json.sortedItems_eq, Json.sortedItems_eq, List.map_map, List.map_map] at same
  exact List.map_injective_iff.mpr (fun _ _ => ref_injective) (Json.arr.inj same)

theorem display_injective {first second : TaskDisplay} (same : first.dump.sorted = second.dump.sorted) :
    first = second := by
  have reads := Json.member?_eq (proper_display first : Json.Proper id first.dump) (proper_display second) same
  have plan : Json.str first.planTitle = .str second.planTitle := Option.some.inj (reads "plan_title")
  have batch : Json.str first.batchStepTitle = .str second.batchStepTitle := Option.some.inj (reads "batch_step_title")
  have single : Json.str first.singleStepTitle = .str second.singleStepTitle :=
    Option.some.inj (reads "single_step_title")
  cases first
  cases second
  cases plan
  cases batch
  cases single
  rfl

theorem member?_dispatch (profileID : String) (maxModelTurns : Option ℤ) (selectors effective : List String)
    (refs : List SkillGuideRef) :
    let dump := (Dispatch.subAgent profileID maxModelTurns selectors effective refs).dump
    dump.member? "type" = some (.str "sub_agent") ∧ dump.member? "profile_id" = some (.str profileID) ∧
      dump.member? "max_model_turns" = maxModelTurns.map .int ∧
      dump.member? "requested_capability_selectors" = some (textsJson selectors) ∧
      dump.member? "effective_capability_ids" = some (textsJson effective) ∧
      dump.member? "instruction_refs" = some (.arr (refs.map SkillGuideRef.dump)) := by
  cases maxModelTurns with
  | none => exact ⟨rfl, rfl, rfl, rfl, rfl, rfl⟩
  | some turns => exact ⟨rfl, rfl, rfl, rfl, rfl, rfl⟩

theorem dispatch_injective {first second : Dispatch} (same : first.dump.sorted = second.dump.sorted) :
    first = second := by
  have reads := Json.member?_eq (proper_dispatch first : Json.Proper id first.dump) (proper_dispatch second) same
  cases first with
  | capability capabilityID =>
      cases second with
      | capability other =>
          have named : Json.str capabilityID = .str other := Option.some.inj (reads "capability_id")
          cases named
          rfl
      | subAgent profileID maxModelTurns selectors effective refs =>
          have kind := reads "type"
          rw [(member?_dispatch profileID maxModelTurns selectors effective refs).1] at kind
          exact absurd (Json.str.inj (Option.some.inj kind)) (by decide)
  | subAgent profileID maxModelTurns selectors effective refs =>
      obtain ⟨kind, profile, turns, asked, granted, guides⟩ :=
        member?_dispatch profileID maxModelTurns selectors effective refs
      cases second with
      | capability other =>
          have kinds := reads "type"
          rw [kind] at kinds
          exact absurd (Json.str.inj (Option.some.inj kinds)) (by decide)
      | subAgent profileID' maxModelTurns' selectors' effective' refs' =>
          obtain ⟨_, profile', turns', asked', granted', guides'⟩ :=
            member?_dispatch profileID' maxModelTurns' selectors' effective' refs'
          have profiles := reads "profile_id"
          have limits := reads "max_model_turns"
          have selections := reads "requested_capability_selectors"
          have grants := reads "effective_capability_ids"
          have references := reads "instruction_refs"
          rw [profile, profile'] at profiles
          rw [turns, turns', Option.map_map, Option.map_map] at limits
          rw [asked, asked'] at selections
          rw [granted, granted'] at grants
          rw [guides, guides'] at references
          cases Option.some.inj profiles
          rw [Option.map_injective (fun _ _ => Json.int.inj) limits,
            textsJson_injective (Option.some.inj selections), textsJson_injective (Option.some.inj grants),
            refs_injective (Option.some.inj references)]

theorem sameContents_of_sorted {first second : TaskSpec} (proper : Json.Proper floatText (.obj first.args))
    (alsoProper : Json.Proper floatText (.obj second.args)) (unnamed : ¬ strip first.idempotencyKey ≠ "")
    (alsoUnnamed : ¬ strip second.idempotencyKey ≠ "")
    (same : (keyedTask first).sorted = (keyedTask second).sorted) : SameContents first second := by
  have reads := Json.member?_eq (proper_keyedTask proper) (proper_keyedTask alsoProper) same
  unfold keyedTask at reads
  rw [if_neg unnamed, if_neg alsoUnnamed] at reads
  have stage : Json.int first.stage = .int second.stage := Option.some.inj (reads "stage")
  have title : Json.str first.title = .str second.title := Option.some.inj (reads "title")
  have instructions : Json.str first.instructions = .str second.instructions := Option.some.inj (reads "instructions")
  exact
    { title := Json.str.inj title
      instructions := Json.str.inj instructions
      dispatch := dispatch_injective (Option.some.inj (reads "dispatch"))
      display := display_injective (Option.some.inj (reads "display"))
      args := Option.some.inj (reads "args")
      requiredSandbox := textsJson_injective (Option.some.inj (reads "required_sandbox"))
      stage := Json.int.inj stage }

end Contents

section Injectivity

variable {floatText : String → String} {sha256 : List UInt8 → List UInt8}

theorem sorted_eq_of_digest {first second : Json} (proper : Json.Proper floatText first)
    (alsoProper : Json.Proper floatText second) (apart : NoCollisions sha256 [canonical first, canonical second])
    (same : hexdigest (sha256 (canonical first)) = hexdigest (sha256 (canonical second))) :
    first.sorted = second.sorted := by
  have texts : canonical first = canonical second :=
    apart _ List.mem_cons_self _ (List.mem_cons_of_mem _ List.mem_cons_self) (hexdigest_injective same)
  exact Json.sorted_eq_of_written proper alsoProper (encoded_injective texts)

/-- What two tasks of submissions have in common if they are known by the same key. -/
structure SameWork (submissionID otherID : String) (batchItemIndex otherIndex : ℤ) (task other : TaskSpec) : Prop where
  submissionID : strip submissionID = strip otherID
  batchItemIndex : batchItemIndex = otherIndex
  /-- The caller names both the same, or neither and they have the same contents. -/
  task : strip task.idempotencyKey ≠ "" ∧ strip task.idempotencyKey = strip other.idempotencyKey ∨
    strip task.idempotencyKey = "" ∧ strip other.idempotencyKey = "" ∧ SameContents task other

theorem sameWork_of_keys {submissionID otherID key : String} {batchItemIndex otherIndex : ℤ} {task other : TaskSpec}
    (proper : Json.Proper floatText (.obj task.args)) (alsoProper : Json.Proper floatText (.obj other.args))
    (apart : NoCollisions sha256
      [canonical (keyPayload submissionID batchItemIndex task), canonical (keyPayload otherID otherIndex other)])
    (known : computeIdempotencyKey sha256 submissionID batchItemIndex task = .ok key)
    (alsoKnown : computeIdempotencyKey sha256 otherID otherIndex other = .ok key) :
    SameWork submissionID otherID batchItemIndex otherIndex task other := by
  have digests : hexdigest (sha256 (canonical (keyPayload submissionID batchItemIndex task))) =
      hexdigest (sha256 (canonical (keyPayload otherID otherIndex other))) := by
    unfold computeIdempotencyKey at known alsoKnown
    split at known
    · cases known
    split at alsoKnown
    · cases alsoKnown
    exact (Except.ok.inj known).trans (Except.ok.inj alsoKnown).symm
  have same := sorted_eq_of_digest (proper_keyPayload proper submissionID batchItemIndex)
    (proper_keyPayload alsoProper otherID otherIndex) apart digests
  have reads := Json.member?_eq (proper_keyPayload proper submissionID batchItemIndex)
    (proper_keyPayload alsoProper otherID otherIndex) same
  have submissions : Json.str (strip submissionID) = .str (strip otherID) := Option.some.inj (reads "submission_id")
  have places : Json.int batchItemIndex = .int otherIndex := Option.some.inj (reads "batch_item_index")
  have tasks : (keyedTask task).sorted = (keyedTask other).sorted := Option.some.inj (reads "task")
  refine ⟨Json.str.inj submissions, Json.int.inj places, ?_⟩
  have inner := Json.member?_eq (proper_keyedTask proper) (proper_keyedTask alsoProper) tasks "explicit_idempotency_key"
  by_cases named : strip task.idempotencyKey ≠ ""
  · by_cases alsoNamed : strip other.idempotencyKey ≠ ""
    · rw [keyedTask, if_pos named, keyedTask, if_pos alsoNamed] at inner
      have names : Json.str (strip task.idempotencyKey) = .str (strip other.idempotencyKey) := Option.some.inj inner
      exact .inl ⟨named, Json.str.inj names⟩
    · rw [keyedTask, if_pos named, keyedTask, if_neg alsoNamed] at inner
      cases inner
  · by_cases alsoNamed : strip other.idempotencyKey ≠ ""
    · rw [keyedTask, if_neg named, keyedTask, if_pos alsoNamed] at inner
      cases inner
    · exact .inr ⟨not_not.mp named, not_not.mp alsoNamed,
        sameContents_of_sorted proper alsoProper named alsoNamed tasks⟩

end Injectivity

section Planning

theorem computeIdempotencyKey_retagged (sha256 : List UInt8 → List UInt8) {task task' : TaskSpec}
    (retagged : Retagged task task') (submissionID : String) (batchItemIndex : ℤ) :
    computeIdempotencyKey sha256 submissionID batchItemIndex task' =
      computeIdempotencyKey sha256 submissionID batchItemIndex task := by
  obtain ⟨metadata, rfl⟩ := retagged
  rfl

theorem fingerprintPayload_retagged {task task' : TaskSpec} (retagged : Retagged task task') :
    taskExecutionFingerprintPayload task' = taskExecutionFingerprintPayload task := by
  obtain ⟨metadata, rfl⟩ := retagged
  rfl

theorem fingerprintPayloads_planned {tasks tasks' : List TaskSpec} (planned : List.Forall₂ Planned tasks tasks') :
    tasks'.map taskExecutionFingerprintPayload = tasks.map taskExecutionFingerprintPayload := by
  induction planned with
  | nil => rfl
  | cons first _ ih => rw [List.map_cons, List.map_cons, ih, fingerprintPayload_retagged first.retagged]

/-- The batch with its tasks as planning leaves them. -/
structure PlannedBatch (batch : TaskBatchInput) (tasks : List TaskSpec) (planned : TaskBatchInput) : Prop where
  tasks : planned.tasks = tasks
  joinStrategy : planned.joinStrategy = batch.joinStrategy
  maxConcurrency : planned.maxConcurrency = batch.maxConcurrency

/-- **Keys and fingerprints.** Only the same work of the same submission is known by one key, where the digests of the
two do not collide; and planning changes neither the keys of the tasks nor the fingerprint of the batch. -/
theorem keys_tell_apart (floatText : String → String) (sha256 : List UInt8 → List UInt8) :
    (∀ submissionID otherID key : String, ∀ batchItemIndex otherIndex : ℤ, ∀ task other : TaskSpec,
      Json.Proper floatText (.obj task.args) → Json.Proper floatText (.obj other.args) →
      NoCollisions sha256
        [canonical (keyPayload submissionID batchItemIndex task), canonical (keyPayload otherID otherIndex other)] →
      computeIdempotencyKey sha256 submissionID batchItemIndex task = .ok key →
      computeIdempotencyKey sha256 otherID otherIndex other = .ok key →
        SameWork submissionID otherID batchItemIndex otherIndex task other) ∧
    ∀ planner : ExecutionPlanner, ∀ available : String → Option ℤ, ∀ batch : TaskBatchInput,
      ∀ plan : BatchExecutionPlan, ∀ tasks : List TaskSpec, planner.plan available batch = .ok (plan, tasks) →
        List.Forall₂ (fun task task' => ∀ submissionID : String, ∀ batchItemIndex : ℤ,
          computeIdempotencyKey sha256 submissionID batchItemIndex task' =
            computeIdempotencyKey sha256 submissionID batchItemIndex task) batch.tasks tasks ∧
        ∀ planned : TaskBatchInput, PlannedBatch batch tasks planned → ∀ submissionSource : String,
          preparedSubmissionFingerprint sha256 planned submissionSource =
            preparedSubmissionFingerprint sha256 batch submissionSource := by
  refine ⟨?_, ?_⟩
  · intro submissionID otherID key batchItemIndex otherIndex task other proper alsoProper apart known alsoKnown
    exact sameWork_of_keys proper alsoProper apart known alsoKnown
  · intro planner available batch plan tasks done
    have planned := planner.plan_planned done
    refine ⟨planned.imp fun _ _ step submissionID batchItemIndex =>
      computeIdempotencyKey_retagged sha256 step.retagged submissionID batchItemIndex, ?_⟩
    intro batch' same submissionSource
    unfold preparedSubmissionFingerprint
    rw [same.tasks, same.joinStrategy, same.maxConcurrency, fingerprintPayloads_planned planned]

/-- A task, and the same one as another caller numbers it. -/
def numbered (taskID : String) : TaskSpec where
  taskID := taskID
  title := "Pay the bills"
  dispatch := .capability "skill:bank:pay"
  args := [("amount", .int 12), ("payee", .str "Ann")]
  requiredSandbox := ["android", "windows"]

def numberedBatch : TaskBatchInput where
  tasks := [numbered "first"]
  some_ := List.cons_ne_nil _ _
  positive := by intro requested here; cases here

theorem keys_tell_apart_numbered :
    SameWork " s" "s" 3 3 (numbered "first") (numbered "second") ∧
      ∃ plan tasks, (ExecutionPlanner.init 4).plan (fun _ => some 1) numberedBatch = .ok (plan, tasks) ∧
        List.Forall₂ (fun task task' => ∀ submissionID : String, ∀ batchItemIndex : ℤ,
          computeIdempotencyKey id submissionID batchItemIndex task' =
            computeIdempotencyKey id submissionID batchItemIndex task) numberedBatch.tasks tasks := by
  have proper (taskID : String) : Json.Proper id (.obj (numbered taskID).args) :=
    ⟨(by decide : List.Nodup ["amount", "payee"]), trivial, trivial, trivial⟩
  have key (submissionID : String) (same : strip submissionID = "s") (taskID : String) :
      computeIdempotencyKey id submissionID 3 (numbered taskID) =
        .ok (hexdigest (canonical (keyPayload "s" 3 (numbered "first")))) := by
    have payload : keyPayload submissionID 3 (numbered taskID) = keyPayload "s" 3 (numbered "first") := by
      unfold keyPayload
      rw [same, show strip "s" = "s" by decide]
      rfl
    unfold computeIdempotencyKey
    rw [if_neg (by rw [same]; decide), payload]
    rfl
  refine ⟨(keys_tell_apart id id).1 " s" "s" _ 3 3 _ _ (proper _) (proper _) (fun _ _ _ _ same => same)
    (key " s" (by decide) "first") (key "s" (by decide) "second"), ?_⟩
  obtain ⟨plan, tasks, done⟩ := ExecutionPlanner.plan_total (.init 4) (fun _ => some 1) numberedBatch
  exact ⟨plan, tasks, done, ((keys_tell_apart id id).2 _ _ _ plan tasks done).1⟩

end Planning

end Sico.TaskRuntime.ExecutionPlan

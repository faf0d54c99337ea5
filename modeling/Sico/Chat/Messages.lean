import Sico.Chat.Connection
import Sico.Foundation.System
import Sico.Foundation.Traversal

/-! # Messages that are created once

`RpcCreateMessage` looks for a message of the turn that makes its own superfluous and answers with
it, and otherwise inserts its own in a second step. There is to be one plan for a turn and one
message for the recovery of a batch; a recovery that the index of the table refuses is looked for
once more. Lookups and inserts of any number of calls interleave, and each of them may fail.

The extra information, the attachments and the times of a message are left out, as is the
telemetry. How a text is put in lower case is a parameter.
-/

namespace Sico.Chat.Messages

open Foundation

section Data

/-- Of the context of a function its result, which is all that is read here. -/
structure FunctionContext where
  result : String
  deriving DecidableEq, Repr

structure Message where
  id : ℤ := 0
  turnID : ℤ
  conversationID : ℤ
  username : String
  agentInstanceID : ℤ
  role : String
  contentType : ChatContentType
  content : String
  functionContext : Option FunctionContext := none
  deriving DecidableEq, Repr

structure TurnMessageKey where
  conversationID : ℤ
  turnID : ℤ
  agentInstanceID : ℤ
  username : String
  deriving DecidableEq, Repr

def messageTurnKey (message : Message) : TurnMessageKey :=
  { conversationID := message.conversationID
    turnID := message.turnID
    agentInstanceID := message.agentInstanceID
    username := message.username }

end Data

section Texts

/-- `strings.Index`. -/
def indexOf (part : List Char) : List Char → Option ℕ
  | [] => if part = [] then some 0 else none
  | char :: rest => if part.isPrefixOf (char :: rest) then some 0 else (indexOf part rest).map (· + 1)

def contains (text part : String) : Bool := (indexOf part.toList text.toList).isSome

def roleAssistant : String := "assistant"

def recoveryResultPrefix : String := "task_runtime_recovery_batch:"

def legacyRecoveryMarker : String := "<!-- sico:task-runtime-recovery batch_id="

/-- The batch that `legacyTaskRuntimeRecoveryMarker` finds, or nothing. -/
def legacyBatchID (content : String) : String :=
  match indexOf legacyRecoveryMarker.toList content.toList with
  | none => ""
  | some markerStart =>
      let marked := content.toList.drop markerStart
      match indexOf "-->".toList marked with
      | none => ""
      | some markerEnd =>
          trimSpace (String.ofList ((marked.take markerEnd).drop legacyRecoveryMarker.toList.length))

def taskRuntimeRecoveryMessageKey (message : Message) : String :=
  let legacy :=
    let batchID := legacyBatchID message.content
    if batchID ≠ "" then recoveryResultPrefix ++ batchID else ""
  match message.functionContext with
  | none => legacy
  | some context =>
      let result := trimSpace context.result
      if recoveryResultPrefix.toList.isPrefixOf result.toList then result else legacy

def hasTaskRuntimeArtifactFieldReference (lowered : String) : Bool :=
  (contains lowered "://" || contains lowered "/storage/")
    && (contains lowered "summary_uri" || contains lowered "report_url")

variable (lower : String → String)

def hasTaskRuntimeArtifactReference (content : String) : Bool :=
  let lowered := lower content
  contains lowered "/storage/task-runtime/"
    || hasTaskRuntimeArtifactFieldReference lowered
    || (contains lowered "execution summary:" && contains lowered "://")
    || (contains lowered "run report:" && contains lowered "://")

def isAssistantTextMessage (message : Message) : Bool :=
  message.role = roleAssistant && message.contentType = .text

def isNormalAssistantTextMessage (message : Message) : Bool :=
  isAssistantTextMessage message && taskRuntimeRecoveryMessageKey message = ""
    && trimSpace message.content ≠ ""

def isTaskRuntimeArtifactAssistantTextMessage (message : Message) : Bool :=
  isNormalAssistantTextMessage message && hasTaskRuntimeArtifactReference lower message.content

end Texts

section Lookups

structure MessageFilter where
  turn : TurnMessageKey
  role : Option String := none
  contentTypes : List ChatContentType

def MessageFilter.admits (filter : MessageFilter) (message : Message) : Bool :=
  messageTurnKey message = filter.turn && filter.role.all (message.role = ·)
    && message.contentType ∈ filter.contentTypes

/-- `ListByFilter`, the latest message first: the filter is of one turn. -/
def listByFilter (stored : List Message) (filter : MessageFilter) : List Message :=
  (stored.filter filter.admits).mergeSort fun first second => second.id ≤ first.id

/-- The lookup of `deduplicatePlanMessage`. -/
def findPlan (stored : List Message) (message : Message) : Option Message :=
  (listByFilter stored { turn := messageTurnKey message, contentTypes := [.plan] }).head?

/-- `findExistingAssistantTextForRecoveredTaskRuntimeMessage`: the first text with an artifact, or
else the last message with the key. -/
def findRecovered (lower : String → String) (stored : List Message) (message : Message) (recoveryKey : String) :
    Option Message :=
  let existing := listByFilter stored
    { turn := messageTurnKey message, role := some roleAssistant, contentTypes := [.text] }
  match existing.find? (isTaskRuntimeArtifactAssistantTextMessage lower) with
  | some artifactText => some artifactText
  | none => existing.reverse.find? fun item => taskRuntimeRecoveryMessageKey item = recoveryKey

def getRecoveryKey (message : Message) : String :=
  if message.contentType = .text ∧ message.role = roleAssistant then taskRuntimeRecoveryMessageKey message
  else ""

variable {stored : List Message} {message found : Message}

theorem mem_of_mem_listByFilter {filter : MessageFilter} (listed : found ∈ listByFilter stored filter) :
    found ∈ stored ∧ messageTurnKey found = filter.turn ∧ found.contentType ∈ filter.contentTypes := by
  unfold listByFilter at listed
  rw [List.mem_mergeSort] at listed
  obtain ⟨there, admitted⟩ := List.mem_filter.mp listed
  simp only [MessageFilter.admits, Bool.and_eq_true, decide_eq_true_eq] at admitted
  exact ⟨there, admitted.1.1, admitted.2⟩

theorem findPlan_some (is : findPlan stored message = some found) :
    found ∈ stored ∧ messageTurnKey found = messageTurnKey message := by
  obtain ⟨there, same, -⟩ := mem_of_mem_listByFilter (List.mem_of_head? is)
  exact ⟨there, same⟩

theorem findPlan_none (absent : findPlan stored message = none) (listed : found ∈ stored)
    (plan : found.contentType = .plan) : messageTurnKey found ≠ messageTurnKey message := by
  intro same
  have empty := List.head?_eq_none_iff.mp absent
  have there : found ∈ listByFilter stored { turn := messageTurnKey message, contentTypes := [.plan] } := by
    unfold listByFilter
    rw [List.mem_mergeSort]
    apply List.mem_filter.mpr
    exact ⟨listed, by simp [MessageFilter.admits, same, plan]⟩
  rw [empty] at there
  cases there

theorem findRecovered_some {lower : String → String} {recoveryKey : String}
    (is : findRecovered lower stored message recoveryKey = some found) :
    found ∈ stored ∧ messageTurnKey found = messageTurnKey message := by
  unfold findRecovered at is
  dsimp only at is
  split at is
  · next artifactText first =>
      obtain rfl := Option.some.inj is
      obtain ⟨there, same, -⟩ := mem_of_mem_listByFilter (List.mem_of_find?_eq_some first)
      exact ⟨there, same⟩
  · obtain ⟨there, same, -⟩ :=
      mem_of_mem_listByFilter (List.mem_reverse.mp (List.mem_of_find?_eq_some is))
    exact ⟨there, same⟩

end Lookups

section Calls

inductive CreateStage
  | planLookup
  | recoveryLookup
  | create
  /-- The index has refused a recovery. -/
  | recoveryAgain
  | succeeded (id : ℤ)
  | failed
  deriving DecidableEq, Repr

/-- A call of `RpcCreateMessage`. -/
structure CreateCall where
  message : Message
  stage : CreateStage
  deriving DecidableEq, Repr

/-- The messages that are stored, and the calls so far. -/
structure Creation where
  stored : List Message := []
  calls : List CreateCall := []

/-- How an insert ends. -/
inductive Insert
  | done (id : ℤ)
  | duplicate
  | failed
  deriving DecidableEq, Repr

inductive Label where
  | call (message : Message)
  | lookup (position : ℕ) (failed : Bool)
  | insert (position : ℕ) (insert : Insert)

def behindPlan (message : Message) : CreateStage :=
  if getRecoveryKey message ≠ "" then .recoveryLookup else .create

def begin (message : Message) : CreateStage :=
  if message.contentType = .plan then .planLookup else behindPlan message

/-- A lookup answers with what it has found. -/
def answerOr (otherwise : CreateStage) : Option Message → CreateStage
  | some existing => .succeeded existing.id
  | none => otherwise

/-- Where a call goes on from a lookup that succeeds, if it is at one. -/
def lookedUp (lower : String → String) (stored : List Message) (call : CreateCall) : Option CreateStage :=
  match call.stage with
  | .planLookup => some (answerOr (behindPlan call.message) (findPlan stored call.message))
  | .recoveryLookup =>
      some (answerOr .create (findRecovered lower stored call.message (getRecoveryKey call.message)))
  -- `handleCreateMessageError`
  | .recoveryAgain =>
      some (answerOr .failed (findRecovered lower stored call.message (getRecoveryKey call.message)))
  | _ => none

section Index

variable {Scope : Type} [DecidableEq Scope] (scope : Message → Scope)

/-- A message for a recovery, under its key in its scope. -/
def isRecoveryOf (owner : Scope) (recoveryKey : String) (message : Message) : Bool :=
  scope message = owner && getRecoveryKey message = recoveryKey

/-- Whether the unique index of the table lets a message in. -/
def lets (stored : List Message) (message : Message) : Bool :=
  getRecoveryKey message = "" || stored.countP (isRecoveryOf scope (scope message) (getRecoveryKey message)) = 0

/-- What an insert leaves, if it can end so. -/
def inserted (creation : Creation) (position : ℕ) (call : CreateCall) : Insert → Option Creation
  | .done id =>
      let created := { call.message with id := id }
      if lets scope creation.stored created then
        some { stored := creation.stored ++ [created]
               calls := creation.calls.set position { call with stage := .succeeded id } }
      else none
  | .duplicate =>
      let stage := if getRecoveryKey call.message ≠ "" then .recoveryAgain else .failed
      some { creation with calls := creation.calls.set position { call with stage := stage } }
  | .failed => some { creation with calls := creation.calls.set position { call with stage := .failed } }

def next (lower : String → String) (creation : Creation) : Label → Option Creation
  | .call message => some { creation with calls := creation.calls ++ [{ message, stage := begin message }] }
  | .lookup position failed => do
      let call ← creation.calls[position]?
      let stage ← lookedUp lower creation.stored call
      return { creation with
        calls := creation.calls.set position { call with stage := if failed then .failed else stage } }
  | .insert position insert => do
      let call ← creation.calls[position]?
      if call.stage = .create then inserted scope creation position call insert else none

def system (lower : String → String) : System Creation Label := System.ofNext (next scope lower)

end Index

end Calls

section Answers

variable {lower : String → String} {stored : List Message} {call : CreateCall} {message : Message}
  {found : Option Message} {otherwise : CreateStage} {id : ℤ}

theorem behindPlan_ne_succeeded : behindPlan message ≠ .succeeded id := by
  unfold behindPlan
  split <;> exact CreateStage.noConfusion

theorem begin_ne_succeeded : begin message ≠ .succeeded id := by
  unfold begin
  split
  · exact CreateStage.noConfusion
  · exact behindPlan_ne_succeeded

theorem answerOr_succeeded (answered : answerOr otherwise found = .succeeded id)
    (plainly : otherwise ≠ .succeeded id) : ∃ existing, found = some existing ∧ existing.id = id := by
  cases found with
  | none => exact absurd answered plainly
  | some existing => exact ⟨existing, rfl, CreateStage.succeeded.inj answered⟩

theorem answerOr_create (passed : answerOr otherwise found = .create) : found = none := by
  cases found with
  | none => rfl
  | some existing => cases passed

theorem lookedUp_succeeded (looked : lookedUp lower stored call = some (.succeeded id)) :
    ∃ existing ∈ stored, existing.id = id ∧ messageTurnKey existing = messageTurnKey call.message := by
  unfold lookedUp at looked
  split at looked
  · obtain ⟨existing, is, same⟩ := answerOr_succeeded (Option.some.inj looked) behindPlan_ne_succeeded
    obtain ⟨there, turn⟩ := findPlan_some is
    exact ⟨existing, there, same, turn⟩
  · obtain ⟨existing, is, same⟩ := answerOr_succeeded (Option.some.inj looked) CreateStage.noConfusion
    obtain ⟨there, turn⟩ := findRecovered_some is
    exact ⟨existing, there, same, turn⟩
  · obtain ⟨existing, is, same⟩ := answerOr_succeeded (Option.some.inj looked) CreateStage.noConfusion
    obtain ⟨there, turn⟩ := findRecovered_some is
    exact ⟨existing, there, same, turn⟩
  · cases looked

theorem lookedUp_create (looked : lookedUp lower stored call = some .create)
    (staged : call.stage ≠ .recoveryLookup) :
    call.stage = .planLookup ∧
      ∀ existing ∈ stored, existing.contentType = .plan →
        messageTurnKey existing ≠ messageTurnKey call.message := by
  unfold lookedUp at looked
  split at looked
  · next here =>
      have absent := answerOr_create (Option.some.inj looked)
      exact ⟨here, fun existing listed isPlan => findPlan_none absent listed isPlan⟩
  · next here => exact absurd here staged
  · have absent := answerOr_create (Option.some.inj looked)
    rw [absent] at looked
    cases looked
  · cases looked

theorem getRecoveryKey_of_plan (plan : message.contentType = .plan) : getRecoveryKey message = "" := by
  unfold getRecoveryKey
  rw [if_neg]
  intro text
  rw [plan] at text
  cases text.1

end Answers

section Runs

variable {Scope : Type} [DecidableEq Scope] {scope : Message → Scope} {lower : String → String}
  {creation target : Creation} {label : Label} {turn : TurnMessageKey}

def isPlanOf (turn : TurnMessageKey) (message : Message) : Bool :=
  message.contentType = .plan && messageTurnKey message = turn

/-- Whether a call is about to insert a plan of a turn. -/
def CreateCall.waits (turn : TurnMessageKey) (call : CreateCall) : Bool :=
  call.stage = .create && isPlanOf turn call.message

/-- What is looked up by a call for a plan while no other call is about to insert a plan of
the turn. -/
def Careful (creation : Creation) : Label → Prop
  | .lookup position false =>
      ∀ call, creation.calls[position]? = some call → call.stage = .planLookup →
        ∀ other ∈ creation.calls, other.waits (messageTurnKey call.message) = false
  | _ => True

instance (creation : Creation) (label : Label) : Decidable (Careful creation label) := by
  unfold Careful
  split
  · next position =>
      cases here : creation.calls[position]? with
      | none => exact isTrue fun call found => nomatch found
      | some call =>
          exact decidable_of_iff (call.stage = .planLookup →
            ∀ other ∈ creation.calls, other.waits (messageTurnKey call.message) = false)
            ⟨fun quiet _ same => Option.some.inj same ▸ quiet, fun quiet => quiet call rfl⟩
  · exact inferInstanceAs (Decidable True)

theorem next_cases (step : next scope lower creation label = some target) :
    (∃ message, label = .call message ∧
      target = { creation with calls := creation.calls ++ [{ message, stage := begin message }] }) ∨
    (∃ position failed call stage, label = .lookup position failed ∧ creation.calls[position]? = some call ∧
      lookedUp lower creation.stored call = some stage ∧
      target = { creation with
        calls := creation.calls.set position { call with stage := if failed then .failed else stage } }) ∨
    ∃ position insert call, label = .insert position insert ∧ creation.calls[position]? = some call ∧
      call.stage = .create ∧ inserted scope creation position call insert = some target := by
  cases label with
  | call message => exact .inl ⟨message, rfl, (Option.some.inj step).symm⟩
  | lookup position failed =>
      obtain ⟨call, here, step⟩ := Option.bind_eq_some_iff.mp step
      obtain ⟨stage, looked, step⟩ := Option.bind_eq_some_iff.mp step
      exact .inr (.inl ⟨position, failed, call, stage, rfl, here, looked, (Option.some.inj step).symm⟩)
  | insert position insert =>
      obtain ⟨call, here, step⟩ := Option.bind_eq_some_iff.mp step
      obtain ⟨at_, step⟩ := Option.ite_none_right_eq_some.mp step
      exact .inr (.inr ⟨position, insert, call, rfl, here, at_, step⟩)

theorem inserted_cases {position : ℕ} {call : CreateCall} {insert : Insert}
    (is : inserted scope creation position call insert = some target) :
    (∃ id, lets scope creation.stored { call.message with id := id } = true ∧
      target =
        { stored := creation.stored ++ [{ call.message with id := id }]
          calls := creation.calls.set position { call with stage := .succeeded id } }) ∨
    ∃ stage, (stage = .recoveryAgain ∨ stage = .failed) ∧
      target = { creation with calls := creation.calls.set position { call with stage := stage } } := by
  cases insert with
  | done id =>
      obtain ⟨free, same⟩ := Option.ite_none_right_eq_some.mp is
      exact .inl ⟨id, free, (Option.some.inj same).symm⟩
  | duplicate =>
      refine .inr ⟨_, ?_, (Option.some.inj is).symm⟩
      split
      · exact .inl rfl
      · exact .inr rfl
  | failed => exact .inr ⟨.failed, .inr rfl, (Option.some.inj is).symm⟩

/-- The recoveries are told apart by their keys, and each call that has succeeded has answered with
a message of its turn. -/
structure Sound (scope : Message → Scope) (creation : Creation) : Prop where
  recoveries : ∀ owner recoveryKey, recoveryKey ≠ "" →
    creation.stored.countP (isRecoveryOf scope owner recoveryKey) ≤ 1
  answers : ∀ call ∈ creation.calls, ∀ id, call.stage = .succeeded id →
    ∃ message ∈ creation.stored, message.id = id ∧ messageTurnKey message = messageTurnKey call.message
  staged : ∀ call ∈ creation.calls, call.stage = .recoveryLookup → call.message.contentType ≠ .plan

theorem Sound.move (sound : Sound scope creation) (position : ℕ) (moved : CreateCall) (added : List Message)
    (recoveries : ∀ owner recoveryKey, recoveryKey ≠ "" →
      (creation.stored ++ added).countP (isRecoveryOf scope owner recoveryKey) ≤ 1)
    (answers : ∀ id, moved.stage = .succeeded id → ∃ message ∈ creation.stored ++ added,
      message.id = id ∧ messageTurnKey message = messageTurnKey moved.message)
    (staged : moved.stage = .recoveryLookup → moved.message.contentType ≠ .plan) :
    Sound scope { stored := creation.stored ++ added, calls := creation.calls.set position moved } where
  recoveries := recoveries
  answers := by
    intro call listed id succeeded
    rcases List.mem_or_eq_of_mem_set listed with earlier | rfl
    · obtain ⟨message, there, same⟩ := sound.answers call earlier id succeeded
      exact ⟨message, List.mem_append_left _ there, same⟩
    · exact answers id succeeded
  staged := by
    intro call listed
    rcases List.mem_or_eq_of_mem_set listed with earlier | rfl
    · exact sound.staged call earlier
    · exact staged

theorem begin_recoveryLookup {message : Message} (staged : begin message = .recoveryLookup) :
    message.contentType ≠ .plan := by
  intro plan
  unfold begin at staged
  rw [if_pos plan] at staged
  cases staged

theorem lookedUp_recoveryLookup {stored : List Message} {call : CreateCall}
    (looked : lookedUp lower stored call = some .recoveryLookup) : call.message.contentType ≠ .plan := by
  intro plan
  have plainly : behindPlan call.message = .create := by
    unfold behindPlan
    rw [getRecoveryKey_of_plan plan]
    exact if_neg fun other => other rfl
  have never {otherwise : CreateStage} {found : Option Message} (different : otherwise ≠ .recoveryLookup) :
      answerOr otherwise found ≠ .recoveryLookup := by
    cases found with
    | none => exact different
    | some existing => exact CreateStage.noConfusion
  unfold lookedUp at looked
  split at looked
  · exact never (by rw [plainly]; exact CreateStage.noConfusion) (Option.some.inj looked)
  · exact never CreateStage.noConfusion (Option.some.inj looked)
  · exact never CreateStage.noConfusion (Option.some.inj looked)
  · cases looked

theorem Sound.step (sound : Sound scope creation) (step : (system scope lower).step creation label target) :
    Sound scope target := by
  obtain ⟨message, -, rfl⟩ | ⟨position, failed, call, stage, -, here, looked, rfl⟩ |
    ⟨position, insert, call, -, here, at_, is⟩ := next_cases step
  · refine ⟨sound.recoveries, ?_, ?_⟩
    · intro call listed id succeeded
      rcases List.mem_append.mp listed with earlier | new
      · exact sound.answers call earlier id succeeded
      · rw [List.mem_singleton.mp new] at succeeded
        exact absurd succeeded begin_ne_succeeded
    · intro call listed staged
      rcases List.mem_append.mp listed with earlier | new
      · exact sound.staged call earlier staged
      · rw [List.mem_singleton.mp new] at staged ⊢
        exact begin_recoveryLookup staged
  · have kept := sound.move position { call with stage := if failed then .failed else stage } []
    rw [List.append_nil] at kept
    apply kept sound.recoveries
    · intro id succeeded
      dsimp only at succeeded
      split at succeeded
      · cases succeeded
      · rw [succeeded] at looked
        obtain ⟨existing, answered⟩ := lookedUp_succeeded looked
        exact ⟨existing, answered⟩
    · intro staged
      dsimp only at staged
      split at staged
      · cases staged
      · rw [staged] at looked
        have other := lookedUp_recoveryLookup looked
        exact other
  · obtain ⟨id, free, rfl⟩ | ⟨stage, which, rfl⟩ := inserted_cases is
    · apply sound.move
      · intro owner recoveryKey isKey
        rw [List.countP_append, List.countP_singleton]
        have before := sound.recoveries owner recoveryKey isKey
        split
        · next own =>
            simp only [isRecoveryOf, Bool.and_eq_true, decide_eq_true_eq] at own
            obtain ⟨rfl, rfl⟩ := own
            simp only [lets, Bool.or_eq_true, decide_eq_true_eq] at free
            have none := free.resolve_left isKey
            omega
        · omega
      · intro id' succeeded
        obtain rfl := CreateStage.succeeded.inj succeeded
        exact ⟨_, List.mem_append_right _ List.mem_cons_self, rfl, rfl⟩
      · exact CreateStage.noConfusion
    · have kept := sound.move position { call with stage := stage } []
      rw [List.append_nil] at kept
      apply kept sound.recoveries
      · intro id succeeded
        rcases which with rfl | rfl <;> cases succeeded
      · intro staged
        rcases which with rfl | rfl <;> cases staged

theorem opening_sound : Sound scope {} where
  recoveries owner recoveryKey isKey := Nat.zero_le 1
  answers call listed := by cases listed
  staged call listed := by cases listed

/-- For each turn there is a plan that is stored, or a call that is about to insert one, or
neither, but never two of them. -/
def Single (creation : Creation) : Prop :=
  ∀ turn, creation.stored.countP (isPlanOf turn) + creation.calls.countP (CreateCall.waits turn) ≤ 1

theorem waits_begin (turn : TurnMessageKey) (message : Message) :
    CreateCall.waits turn { message, stage := begin message } = false := by
  by_cases plan : message.contentType = .plan
  · have first : begin message = .planLookup := if_pos plan
    simp [CreateCall.waits, first]
  · simp [CreateCall.waits, isPlanOf, plan]

theorem Single.move (single : Single creation) {position : ℕ} {call moved : CreateCall}
    (here : creation.calls[position]? = some call) (not : ∀ turn, moved.waits turn = false) :
    Single { creation with calls := creation.calls.set position moved } := by
  intro turn
  have before := single turn
  have counted := countP_set_of_getElem? (CreateCall.waits turn) moved here
  rw [not turn] at counted
  simp only [Bool.false_eq_true, ↓reduceIte] at counted
  dsimp only
  omega

theorem Single.lookup (single : Single creation) (sound : Sound scope creation) {position : ℕ} {call : CreateCall}
    {stage : CreateStage} (here : creation.calls[position]? = some call)
    (looked : lookedUp lower creation.stored call = some stage) (careful : Careful creation (.lookup position false)) :
    Single { creation with calls := creation.calls.set position { call with stage := stage } } := by
  by_cases comes : stage = .create ∧ call.message.contentType = .plan
  · obtain ⟨rfl, plan⟩ := comes
    have listed := List.mem_of_getElem? here
    obtain ⟨first, absent⟩ := lookedUp_create looked fun staged => sound.staged call listed staged plan
    intro turn
    have before := single turn
    have counted := countP_set_of_getElem? (CreateCall.waits turn) { call with stage := .create } here
    by_cases own : messageTurnKey call.message = turn
    · subst own
      have noneStored : creation.stored.countP (isPlanOf (messageTurnKey call.message)) = 0 := by
        apply List.countP_eq_zero.mpr
        intro existing there isPlan
        simp only [isPlanOf, Bool.and_eq_true, decide_eq_true_eq] at isPlan
        exact absent existing there isPlan.1 isPlan.2
      have noneWaits : creation.calls.countP (CreateCall.waits (messageTurnKey call.message)) = 0 := by
        apply List.countP_eq_zero.mpr
        intro other there
        rw [careful call here first other there]
        exact Bool.false_ne_true
      dsimp only
      split at counted <;> split at counted <;> omega
    · have not : CreateCall.waits turn { call with stage := .create } = false := by
        simp [CreateCall.waits, isPlanOf, own]
      rw [not] at counted
      simp only [Bool.false_eq_true, ↓reduceIte] at counted
      dsimp only
      omega
  · apply single.move here
    intro turn
    have not : ¬ (stage = .create ∧ call.message.contentType = .plan ∧ messageTurnKey call.message = turn) :=
      fun waits => comes ⟨waits.1, waits.2.1⟩
    simpa [CreateCall.waits, isPlanOf] using not

theorem Single.insert (single : Single creation) {position : ℕ} {call : CreateCall} {id : ℤ}
    (here : creation.calls[position]? = some call) (at_ : call.stage = .create) :
    Single
      { stored := creation.stored ++ [{ call.message with id := id }]
        calls := creation.calls.set position { call with stage := .succeeded id } } := by
  intro turn
  have before := single turn
  have counted := countP_set_of_getElem? (CreateCall.waits turn) { call with stage := .succeeded id } here
  have behind : CreateCall.waits turn { call with stage := .succeeded id } = false := by
    simp [CreateCall.waits]
  have waited : call.waits turn = isPlanOf turn call.message := by simp [CreateCall.waits, at_]
  have same : isPlanOf turn { call.message with id := id } = isPlanOf turn call.message := rfl
  rw [behind, waited] at counted
  simp only [Bool.false_eq_true, ↓reduceIte, Nat.add_zero] at counted
  dsimp only
  rw [List.countP_append, List.countP_singleton, same]
  omega

theorem Single.step (single : Single creation) (sound : Sound scope creation)
    (step : ((system scope lower).restrict Careful).step creation label target) : Single target := by
  obtain ⟨careful, step⟩ := step
  obtain ⟨message, -, rfl⟩ | ⟨position, failed, call, stage, rfl, here, looked, rfl⟩ |
    ⟨position, insert, call, -, here, at_, is⟩ := next_cases step
  · intro turn
    have before := single turn
    dsimp only
    rw [List.countP_append, List.countP_singleton, waits_begin]
    exact before
  · cases failed with
    | true => exact single.move here fun turn => by simp [CreateCall.waits]
    | false => exact single.lookup sound here looked careful
  · obtain ⟨id, -, rfl⟩ | ⟨stage, which, rfl⟩ := inserted_cases is
    · exact single.insert here at_
    · apply single.move here
      intro turn
      rcases which with rfl | rfl <;> simp [CreateCall.waits]

/-- For each recovery one message is stored, a call that has succeeded has answered with a message
of its turn, and where calls for plans look up one after the other one plan is stored for a turn. -/
theorem created_once {labels : List Label} (run : (system scope lower).Run {} labels creation) :
    (∀ owner recoveryKey, recoveryKey ≠ "" →
      creation.stored.countP (isRecoveryOf scope owner recoveryKey) ≤ 1) ∧
    (∀ call ∈ creation.calls, ∀ id, call.stage = .succeeded id →
      ∃ message ∈ creation.stored, message.id = id ∧ messageTurnKey message = messageTurnKey call.message) ∧
    (((system scope lower).restrict Careful).Run {} labels creation →
      ∀ turn, creation.stored.countP (isPlanOf turn) ≤ 1) := by
  have sound := run.preserves (Sound scope) (fun _ _ _ sound step => sound.step step) opening_sound
  refine ⟨sound.recoveries, sound.answers, fun careful turn => ?_⟩
  have both : Sound scope creation ∧ Single creation := by
    apply careful.preserves (fun creation => Sound scope creation ∧ Single creation)
    · intro _ _ _ holds step
      exact ⟨holds.1.step step.2, holds.2.step holds.1 step⟩
    · exact ⟨opening_sound, fun _ => Nat.zero_le 1⟩
  have := both.2 turn
  omega

/-- A plan and the recovery of a batch, each created twice. -/
def plan : Message :=
  { turnID := 10, conversationID := 1, username := "alice", agentInstanceID := 42, role := "assistant",
    contentType := .plan, content := "" }

def recovery : Message :=
  { plan with
    contentType := .text
    functionContext := some { result := "task_runtime_recovery_batch:batch-1" } }

def inTurn : List Label :=
  [.call plan, .lookup 0 false, .insert 0 (.done 1), .call plan, .lookup 1 false, .call recovery, .call recovery,
    .lookup 2 false, .lookup 3 false, .insert 2 (.done 2), .insert 3 .duplicate, .lookup 3 false]

theorem inTurn_once :
    let final := System.after (System.guarded Careful (next messageTurnKey String.toLower)) {} inTurn
    ((system messageTurnKey String.toLower).restrict Careful).Run {} inTurn final ∧
      (∀ turn, final.stored.countP (isPlanOf turn) ≤ 1) := by
  have run : ((system messageTurnKey String.toLower).restrict Careful).Run {} inTurn
      (System.after (System.guarded Careful (next messageTurnKey String.toLower)) {} inTurn) :=
    .ofGuarded Careful (by decide +kernel)
  have unrestricted : (system messageTurnKey String.toLower).Run {} inTurn
      (System.after (System.guarded Careful (next messageTurnKey String.toLower)) {} inTurn) := by
    apply run.mono
    intro _ _ _ step
    exact step.2
  exact ⟨run, (created_once unrestricted).2.2 run⟩

/-- Two calls for the plan of a turn that look up before either has inserted its own. -/
def atOnce : List Label :=
  [.call plan, .call plan, .lookup 0 false, .lookup 1 false, .insert 0 (.done 1), .insert 1 (.done 2)]

theorem atOnce_twice :
    let final := System.after (next messageTurnKey String.toLower) {} atOnce
    (system messageTurnKey String.toLower).Run {} atOnce final ∧
      final.stored.countP (isPlanOf (messageTurnKey plan)) = 2 :=
  ⟨.ofNext (by decide +kernel), by decide +kernel⟩

end Runs

end Sico.Chat.Messages

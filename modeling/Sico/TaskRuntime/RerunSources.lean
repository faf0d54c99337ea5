import Sico.AgentLoop.Identifiers
import Sico.Foundation.JsonLeaves
import Sico.Foundation.Members
import Sico.Foundation.Paths
import Sico.Foundation.Traversal
import Sico.Sources.Snapshot

/-! # Rerunning delegated tasks

What was delegated is kept so that it can be delegated again. A task is kept in compact form: the fields that a rerun
needs, without those that are empty. A task on a table may name the private object that the table was read from; in its
compact form the arguments name the source of the table instead, and the metadata says that the object is to be made of
the source again. From the compact form of its tasks a payload gives the request that delegates them.

Dictionaries are lists of members, read by their first member of a name.
-/

namespace Sico.TaskRuntime.RerunSources

open Foundation

open AgentLoop (strip)

open Sources.Snapshot (isTruthy)

section Model

abbrev Members := List (String × Json)

variable (repr : Json → String)

/-- `str` of a value; of one that is no text it is the one of the language. -/
def str : Json → String
  | .str text => text
  | value => repr value

/-- `str(value or default)`, of a value that may be missing. -/
def strOr (default : String) (value : Option Json) : String :=
  match value with
  | some value => if isTruthy value then str repr value else default
  | none => default

def rerunTaskFields : List String := ["task_id", "title", "dispatch", "instructions", "args", "metadata", "stage"]

def platformMetadataKeys : List String := ["capability", "display"]

def sourceObjectRefKey : String := "source_object_ref"

def isEmptyRerunValue : Json → Bool
  | .null => true
  | .str text => text = ""
  | .arr items => items.isEmpty
  | .obj members => members.isEmpty
  | _ => false

def dictAt (members : Members) (name : String) : Option Members :=
  match Members.get? members name with
  | some (.obj found) => some found
  | _ => none

def compactRerunMetadata : Json → Members
  | .obj metadata =>
      let compact := metadata.filter fun member => member.1 ∉ platformMetadataKeys ∧ ¬ isEmptyRerunValue member.2
      match dictAt compact "tabular" with
      | some tabular => Members.put compact "tabular" (.obj (Members.without tabular sourceObjectRefKey))
      | none => compact
  | _ => []

def portableRerunValue (sourceObjectRef sourceRef : String) (value : Json) : Json :=
  value.mapStrings fun text =>
    if sourceRef ≠ "" ∧ sourceObjectRef ≠ "" ∧ text = sourceObjectRef then sourceRef else text

/-- `_find_private_source_ref`: the first text that is the reference. -/
def findPrivateSourceRef (value : Json) (sourceObjectRef : String) : String :=
  (value.strings.find? fun text => sourceObjectRef ≠ "" ∧ text = sourceObjectRef).getD ""

def privatePrefix : String := "sico-source://"

def startsWith (text start : String) : Bool := start.toList.isPrefixOf text.toList

def containsPrivateSourceSyntax (value : Json) : Bool := value.strings.any (startsWith · privatePrefix)

def isHexDigit (letter : Char) : Bool := letter.isDigit ∨ 'a' ≤ letter ∧ letter ≤ 'f'

def sourceObjectHash (objectRef : String) : String :=
  if startsWith objectRef privatePrefix then
    let normalized := (objectRef.toList.drop privatePrefix.toList.length).dropWhile (· = '/')
    match normalized.splitOn '/' with
    | first :: second :: _ :: _ =>
        let contentHash := second.map Char.toLower
        if first = "objects".toList ∧ contentHash.length = 64 ∧ contentHash.all isHexDigit then String.ofList contentHash
        else ""
    | _ => ""
  else ""

/-- The dictionary `metadata.tabular` of a task. -/
def tabularOf (task : Members) : Option Members := (dictAt task "metadata").bind fun metadata => dictAt metadata "tabular"

/-- What a name reads in `metadata.tabular`. -/
def tabularAt (task : Members) (name : String) : Option Json :=
  (tabularOf task).bind fun tabular => Members.get? tabular name

def sourceObjectRefOf (task : Members) : String := strOr repr "" (tabularAt task sourceObjectRefKey)
def sourceRefOf (task : Members) : String := strOr repr "" (tabularAt task "source_ref")

def privateObjectRefOf (task : Members) : String :=
  findPrivateSourceRef ((Members.get? task "args").getD .null) (sourceObjectRefOf repr task)

def fieldValue (task : Members) (key : String) (value : Json) : Json :=
  if key = "metadata" then .obj (compactRerunMetadata value)
  else if key = "args" then portableRerunValue (sourceObjectRefOf repr task) (sourceRefOf repr task) value
  else value

/-- The fields that are kept, before the object is to be made again. -/
def keptFields (task : Members) : Members :=
  rerunTaskFields.filterMap fun key =>
    (Members.get? task key).bind fun value =>
      let value := fieldValue repr task key value
      if isEmptyRerunValue value then none else some (key, value)

/-- What is written of an object that is to be made again. -/
def markMaterialized (privateObjectRef : String) (tabular : Members) : Members :=
  let tabular := Members.put tabular "materialize_object" (.bool true)
  let contentHash := sourceObjectHash privateObjectRef
  if contentHash = "" then tabular else Members.put tabular "content_hash" (.str contentHash)

def compactRerunTaskPayload (task : Members) : Members :=
  let compact := keptFields repr task
  if sourceRefOf repr task ≠ "" ∧ privateObjectRefOf repr task ≠ "" then
    match dictAt compact "metadata" with
    | some metadata =>
        match dictAt metadata "tabular" with
        | some tabular =>
            Members.put compact "metadata"
              (.obj (Members.put metadata "tabular" (.obj (markMaterialized (privateObjectRefOf repr task) tabular))))
        | none => compact
    | none => compact
  else compact

def compactRerunSourcePayload (source : Members) : Members :=
  match Members.get? source "tasks" with
  | some (.arr tasks) =>
      Members.put source "tasks" (.arr (tasks.map fun task =>
        match task with
        | .obj task => .obj (compactRerunTaskPayload repr task)
        | other => other))
  | _ => source

/-- An item of a request. -/
structure InstructionItem where
  goal : String
  title : Option String
  params : Option Members
  stage : Option Json
  /-- `source_materialization`: the source and the hash of the content. -/
  sourceMaterialization : Option (String × String)
  capabilityID : Option String
  profileID : Option String
  maxModelTurns : Option Json

/-- `isinstance(value, int)`, where the number is not below a bound; a truth value is a number. -/
def intFrom (bound : ℤ) (value : Option Json) : Option Json :=
  match value with
  | some (.int number) => if bound ≤ number then some (.int number) else none
  | some (.bool flag) => if bound ≤ (if flag then 1 else 0) then some (.bool flag) else none
  | _ => none

/-- What an item says of the capability or the profile that it is for. -/
structure Dispatch where
  capabilityID : Option String
  profileID : Option String
  maxModelTurns : Option Json

/-- The part of `_rerun_instruction_item` that reads `dispatch`. -/
def dispatchOf (task : Members) : Option Dispatch :=
  match dictAt task "dispatch" with
  | some dispatch =>
      let dispatchType := strOr repr "" (Members.get? dispatch "type")
      if dispatchType = "capability" ∧ ((Members.get? dispatch "capability_id").any isTruthy) then
        some ⟨(Members.get? dispatch "capability_id").map (str repr), none, none⟩
      else if dispatchType = "sub_agent" then
        some ⟨none, some (strOr repr "default" (Members.get? dispatch "profile_id")),
          intFrom 1 (Members.get? dispatch "max_model_turns")⟩
      else if dispatchType = "" then some ⟨none, none, none⟩
      else none
  | none =>
      if Members.get? task "kind" = some (.str "tool") ∧ ((Members.get? task "tool_name").any isTruthy) then
        some ⟨(Members.get? task "tool_name").map fun name => "builtin:" ++ str repr name, none, none⟩
      else some ⟨none, none, none⟩

/-- What an item says of the source that its object is made of again, if it may be one. -/
def materializationOf (task : Members) : Option (Option (String × String)) :=
  if (tabularAt task "materialize_object").any isTruthy then
    let sourceRef := strip (strOr repr "" (tabularAt task "source_ref"))
    let contentHash := strOr repr "" (tabularAt task "content_hash")
    if sourceRef = "" ∨ contentHash.length ≠ 64 then none else some (some (sourceRef, contentHash))
  else if containsPrivateSourceSyntax ((Members.get? task "args").getD .null) then none
  else some none

/-- The arguments, where they are a dictionary with something in it. -/
def paramsOf (task : Members) : Option Members := (dictAt task "args").filter fun args => args ≠ []

/-- `value or other`, of values that may be missing. -/
def orElse (value other : Option Json) : Option Json := if value.any isTruthy then value else other

def rerunInstructionItem (task : Members) : Option InstructionItem := do
  let goal := strip (strOr repr "" (orElse (Members.get? task "instructions") (Members.get? task "title")))
  if goal = "" then none
  else
    let title := strip (strOr repr "" (Members.get? task "title"))
    let sourceMaterialization ← materializationOf repr task
    let dispatch ← dispatchOf repr task
    return { goal
             title := if title = "" then none else some title
             params := paramsOf task
             stage := intFrom 0 (Members.get? task "stage")
             sourceMaterialization
             capabilityID := dispatch.capabilityID
             profileID := dispatch.profileID
             maxModelTurns := dispatch.maxModelTurns }

/-- A request that delegates instructions. -/
structure DelegateRequest where
  batchGoal : String
  joinStrategy : String
  items : List InstructionItem
  maxConcurrency : Option Json

def itemOf : Json → Option InstructionItem
  | .obj task => rerunInstructionItem repr (compactRerunTaskPayload repr task)
  | _ => none

def delegateRequestFromRerunSource (source : Members) : Option DelegateRequest :=
  match Members.get? source "tasks" with
  | some (.arr (first :: rest)) => do
      let items ← (first :: rest).mapM (itemOf repr)
      return { batchGoal := strOr repr "Rerun delegated tasks" (Members.get? source "reason")
               joinStrategy := strOr repr "partial_ok" (Members.get? source "join_strategy")
               items
               maxConcurrency := intFrom 1 (Members.get? source "max_concurrency") }
  | _ => none

end Model

section Fields

variable (repr : Json → String) {task : Members}

/-- A dictionary has each of its keys once; of a task it is its metadata whose order of members is looked at. -/
def WellFormed (task : Members) : Prop :=
  ∀ metadata, dictAt task "metadata" = some metadata → (metadata.map Prod.fst).Nodup

/-- The task is on the private object of a table whose source is known. -/
def Materializes (task : Members) : Prop := sourceRefOf repr task ≠ "" ∧ privateObjectRefOf repr task ≠ ""

instance (task : Members) : Decidable (Materializes repr task) := inferInstanceAs (Decidable (_ ∧ _))

/-- The compact metadata, with what is written of an object that is to be made again. -/
def metadataOf (task metadata : Members) : Members :=
  let compact := compactRerunMetadata (.obj metadata)
  match (if Materializes repr task then dictAt compact "tabular" else none) with
  | some tabular => Members.put compact "tabular" (.obj (markMaterialized (privateObjectRefOf repr task) tabular))
  | none => compact

/-- A field of the task before the object is to be made again. -/
def keptField (task : Members) (key : String) : Option Json :=
  ((Members.get? task key).map (fieldValue repr task key)).filter fun value => ¬ isEmptyRerunValue value

def compactField (task : Members) (key : String) : Option Json :=
  if key = "metadata" then
    (((dictAt task "metadata").map (metadataOf repr task)).filter fun metadata => metadata ≠ []).map Json.obj
  else keptField repr task key

theorem dictAt_eq_some {members found : Members} {name : String} :
    dictAt members name = some found ↔ Members.get? members name = some (.obj found) := by
  unfold dictAt
  split
  · next held => rw [held, Option.some_inj, Option.some_inj, Json.obj.injEq]
  · next other =>
      constructor
      · intro same
        cases same
      · intro same
        exact absurd same (other found)

theorem dictAt_put (members : Members) (name other : String) (found : Members) :
    dictAt (Members.put members name (.obj found)) other = if name = other then some found else dictAt members other := by
  unfold dictAt
  rw [Members.get?_put]
  by_cases same : name = other
  · rw [if_pos same, if_pos same]
  · rw [if_neg same, if_neg same]

theorem keptFields_eq (task : Members) : keptFields repr task = Members.ofNames rerunTaskFields (keptField repr task) := by
  unfold keptFields Members.ofNames
  refine List.filterMap_congr fun key _ => ?_
  unfold keptField
  cases Members.get? task key with
  | none => rfl
  | some value =>
      rw [Option.bind_some, Option.map_some, Option.filter_some]
      by_cases empty : isEmptyRerunValue (fieldValue repr task key value) = true
      · simp [empty]
      · simp [empty]

theorem keptField_metadata (task : Members) :
    keptField repr task "metadata" = (((dictAt task "metadata").map fun metadata =>
      compactRerunMetadata (.obj metadata)).filter fun metadata => metadata ≠ []).map Json.obj := by
  unfold keptField dictAt
  cases Members.get? task "metadata" with
  | none => rfl
  | some value =>
      cases value with
      | obj metadata =>
          rw [Option.map_some, Option.map_some, Option.filter_some, Option.filter_some, fieldValue, if_pos rfl,
            isEmptyRerunValue]
          cases compactRerunMetadata (.obj metadata) <;> rfl
      | null | bool value | int value | float value | str value | arr value => rfl

theorem dictAt_keptFields (task : Members) :
    dictAt (keptFields repr task) "metadata" = ((dictAt task "metadata").map fun metadata =>
      compactRerunMetadata (.obj metadata)).filter fun metadata => metadata ≠ [] := by
  have reads : Members.get? (keptFields repr task) "metadata" = keptField repr task "metadata" := by
    rw [keptFields_eq, Members.get?_ofNames, if_pos (by decide)]
  unfold dictAt
  rw [reads, keptField_metadata]
  unfold dictAt
  cases Option.filter _ _ <;> rfl

theorem compactRerunTaskPayload_eq (task : Members) :
    compactRerunTaskPayload repr task = Members.ofNames rerunTaskFields (compactField repr task) := by
  have untouched : compactField repr task "metadata" = keptField repr task "metadata" →
      keptFields repr task = Members.ofNames rerunTaskFields (compactField repr task) := by
    intro same
    rw [keptFields_eq]
    refine Members.ofNames_congr fun key _ => ?_
    by_cases metadata : key = "metadata"
    · rw [metadata, same]
    · rw [compactField, if_neg metadata]
  have fieldOf : compactField repr task "metadata" =
      (((dictAt task "metadata").map (metadataOf repr task)).filter fun metadata => metadata ≠ []).map Json.obj :=
    if_pos rfl
  unfold compactRerunTaskPayload
  dsimp only
  by_cases materializes : Materializes repr task
  · have both : sourceRefOf repr task ≠ "" ∧ privateObjectRefOf repr task ≠ "" := materializes
    rw [if_pos both, dictAt_keptFields]
    cases held : dictAt task "metadata" with
    | none => exact untouched (by rw [fieldOf, keptField_metadata, held]; rfl)
    | some metadata =>
        rw [Option.map_some, Option.filter_some]
        have read : metadataOf repr task metadata = match dictAt (compactRerunMetadata (.obj metadata)) "tabular" with
            | some tabular => Members.put (compactRerunMetadata (.obj metadata)) "tabular"
                (.obj (markMaterialized (privateObjectRefOf repr task) tabular))
            | none => compactRerunMetadata (.obj metadata) := by
          unfold metadataOf
          dsimp only
          rw [if_pos materializes]
        by_cases empty : compactRerunMetadata (.obj metadata) = []
        · rw [if_neg (by simp [empty])]
          refine untouched ?_
          rw [empty] at read
          rw [fieldOf, keptField_metadata, held, Option.map_some, Option.map_some, read, empty]
          rfl
        · rw [if_pos (by simp [empty])]
          dsimp only
          cases tabularThere : dictAt (compactRerunMetadata (.obj metadata)) "tabular" with
          | none =>
              rw [tabularThere] at read
              refine untouched ?_
              rw [fieldOf, keptField_metadata, held, Option.map_some, Option.map_some, read]
          | some tabular =>
              rw [tabularThere] at read
              dsimp only at read ⊢
              have there : (Members.get? (keptFields repr task) "metadata").isSome := by
                have kept := dictAt_keptFields repr task
                rw [held, Option.map_some, Option.filter_some, if_pos (by simp [empty]), dictAt_eq_some] at kept
                rw [kept]
                rfl
              rw [keptFields_eq] at there ⊢
              rw [Members.put_ofNames (by decide) there]
              refine Members.ofNames_congr fun key _ => ?_
              by_cases same : key = "metadata"
              · subst same
                rw [Function.update_self, fieldOf, held, Option.map_some, Option.filter_some, read,
                  if_pos (by simp [Members.put_ne_nil])]
                rfl
              · rw [Function.update_of_ne same, compactField, if_neg same]
  · have either : ¬ (sourceRefOf repr task ≠ "" ∧ privateObjectRefOf repr task ≠ "") := materializes
    rw [if_neg either]
    refine untouched ?_
    rw [fieldOf, keptField_metadata]
    congr 3
    funext metadata
    unfold metadataOf
    dsimp only
    rw [if_neg materializes]

theorem get?_compact (task : Members) (key : String) :
    Members.get? (compactRerunTaskPayload repr task) key =
      if key ∈ rerunTaskFields then compactField repr task key else none := by
  rw [compactRerunTaskPayload_eq, Members.get?_ofNames]

end Fields

section Tabular

variable (repr : Json → String) {task metadata : Members}

theorem get?_markMaterialized (ref : String) (tabular : Members) {name : String} (first : name ≠ "materialize_object")
    (second : name ≠ "content_hash") :
    Members.get? (markMaterialized ref tabular) name = Members.get? tabular name := by
  unfold markMaterialized
  dsimp only
  split
  · rw [Members.get?_put, if_neg first.symm]
  · rw [Members.get?_put, if_neg second.symm, Members.get?_put, if_neg first.symm]

theorem get?_markMaterialized_materialize_object (ref : String) (tabular : Members) :
    Members.get? (markMaterialized ref tabular) "materialize_object" = some (.bool true) := by
  unfold markMaterialized
  dsimp only
  split
  · rw [Members.get?_put, if_pos rfl]
  · rw [Members.get?_put, if_neg (by decide), Members.get?_put, if_pos rfl]

theorem markMaterialized_ne_nil (ref : String) (tabular : Members) : markMaterialized ref tabular ≠ [] := by
  unfold markMaterialized
  dsimp only
  split <;> exact Members.put_ne_nil _ _ _

theorem tabular_compactRerunMetadata (distinct : (metadata.map Prod.fst).Nodup) :
    dictAt (compactRerunMetadata (.obj metadata)) "tabular" =
      ((dictAt metadata "tabular").filter fun tabular => tabular ≠ []).map (Members.without · sourceObjectRefKey) := by
  unfold compactRerunMetadata
  dsimp only
  have kept : dictAt (metadata.filter fun member => member.1 ∉ platformMetadataKeys ∧ ¬ isEmptyRerunValue member.2)
      "tabular" = (dictAt metadata "tabular").filter fun tabular => tabular ≠ [] := by
    unfold dictAt
    rw [Members.get?_filter_nodup distinct]
    cases Members.get? metadata "tabular" with
    | none => rfl
    | some value =>
        rw [Option.filter_some]
        cases value with
        | obj tabular => cases tabular <;> rfl
        | null => rfl
        | bool value => rfl
        | int value => rfl
        | float value => rfl
        | str value =>
            split
            · next heq => split at heq <;> cases heq
            · rfl
        | arr value => cases value <;> rfl
  rw [← kept]
  split
  · next tabular there => rw [dictAt_put, if_pos rfl, there, Option.map_some]
  · next absent => rw [absent, Option.map_none]

theorem nodup_compactRerunMetadata (distinct : (metadata.map Prod.fst).Nodup) :
    ((compactRerunMetadata (.obj metadata)).map Prod.fst).Nodup := by
  unfold compactRerunMetadata
  dsimp only
  split
  · exact Members.nodup_put (Members.nodup_filter distinct _) _ _
  · exact Members.nodup_filter distinct _

theorem nodup_metadataOf (task : Members) (distinct : (metadata.map Prod.fst).Nodup) :
    ((metadataOf repr task metadata).map Prod.fst).Nodup := by
  unfold metadataOf
  dsimp only
  split
  · exact Members.nodup_put (nodup_compactRerunMetadata distinct) _ _
  · exact nodup_compactRerunMetadata distinct

theorem dictAt_compact (task : Members) :
    dictAt (compactRerunTaskPayload repr task) "metadata" =
      ((dictAt task "metadata").map (metadataOf repr task)).filter fun metadata => metadata ≠ [] := by
  have reads : Members.get? (compactRerunTaskPayload repr task) "metadata" =
      (((dictAt task "metadata").map (metadataOf repr task)).filter fun metadata => metadata ≠ []).map Json.obj := by
    rw [get?_compact, if_pos (by decide), compactField, if_pos rfl]
  unfold dictAt at reads ⊢
  rw [reads]
  cases Option.filter _ _ <;> rfl

theorem wellFormed_compact (formed : WellFormed task) : WellFormed (compactRerunTaskPayload repr task) := by
  intro compact held
  rw [dictAt_compact, Option.filter_eq_some_iff, Option.map_eq_some_iff] at held
  obtain ⟨⟨metadata, there, rfl⟩, _⟩ := held
  exact nodup_metadataOf repr task (formed metadata there)

def compactTabular (task tabular : Members) : Members :=
  if Materializes repr task then
    markMaterialized (privateObjectRefOf repr task) (Members.without tabular sourceObjectRefKey)
  else Members.without tabular sourceObjectRefKey

theorem tabularOf_compact (formed : WellFormed task) :
    tabularOf (compactRerunTaskPayload repr task) =
      ((tabularOf task).filter fun tabular => tabular ≠ []).map (compactTabular repr task) := by
  unfold tabularOf
  rw [dictAt_compact]
  cases held : dictAt task "metadata" with
  | none => rfl
  | some metadata =>
      have compact := tabular_compactRerunMetadata (formed metadata held)
      have read : dictAt (metadataOf repr task metadata) "tabular" =
          ((dictAt metadata "tabular").filter fun tabular => tabular ≠ []).map (compactTabular repr task) := by
        unfold metadataOf compactTabular
        dsimp only
        by_cases materializes : Materializes repr task
        · simp only [if_pos materializes]
          cases kept : (dictAt metadata "tabular").filter fun tabular => tabular ≠ [] with
          | none =>
              rw [kept, Option.map_none] at compact
              rw [compact]
              exact compact
          | some tabular =>
              rw [kept, Option.map_some] at compact
              rw [compact]
              dsimp only
              rw [dictAt_put, if_pos rfl, Option.map_some]
        · simp only [if_neg materializes]
          exact compact
      rw [Option.map_some, Option.filter_some, Option.bind_some, ← read]
      by_cases empty : metadataOf repr task metadata = []
      · rw [if_neg (by simp [empty]), empty]
        rfl
      · rw [if_pos (by simp [empty]), Option.bind_some]

theorem get?_compactTabular_sourceObjectRefKey (task tabular : Members) :
    Members.get? (compactTabular repr task tabular) sourceObjectRefKey = none := by
  unfold compactTabular
  split
  · rw [get?_markMaterialized _ _ (by decide) (by decide), Members.get?_without, if_pos rfl]
  · rw [Members.get?_without, if_pos rfl]

theorem sourceObjectRefOf_compact (formed : WellFormed task) :
    sourceObjectRefOf repr (compactRerunTaskPayload repr task) = "" := by
  have absent : tabularAt (compactRerunTaskPayload repr task) sourceObjectRefKey = none := by
    unfold tabularAt
    rw [tabularOf_compact repr formed]
    cases Option.filter _ (tabularOf task) with
    | none => rfl
    | some tabular => exact get?_compactTabular_sourceObjectRefKey repr task tabular
  rw [sourceObjectRefOf, absent]
  rfl

theorem privateObjectRefOf_eq_empty (absent : sourceObjectRefOf repr task = "") : privateObjectRefOf repr task = "" := by
  unfold privateObjectRefOf findPrivateSourceRef
  rw [absent, List.find?_eq_none.mpr (by simp), Option.getD_none]

theorem not_materializes_compact (formed : WellFormed task) :
    ¬ Materializes repr (compactRerunTaskPayload repr task) := fun materializes =>
  materializes.2 (privateObjectRefOf_eq_empty repr (sourceObjectRefOf_compact repr formed))

end Tabular

section Twice

variable (repr : Json → String) {task metadata : Members}

/-- The tabular metadata name an object of their own and nothing else. -/
def OnlyObjectRef (task : Members) : Prop :=
  ∃ tabular, tabularOf task = some tabular ∧ tabular ≠ [] ∧ ∀ member ∈ tabular, member.1 = sourceObjectRefKey

theorem exists_other_of_sourceRefOf (named : sourceRefOf repr task ≠ "") {tabular : Members}
    (held : tabularOf task = some tabular) : ∃ member ∈ tabular, member.1 ≠ sourceObjectRefKey := by
  unfold sourceRefOf tabularAt at named
  rw [held, Option.bind_some] at named
  cases reads : Members.get? tabular "source_ref" with
  | none =>
      rw [reads] at named
      exact absurd rfl named
  | some value =>
      have other : "source_ref" ≠ sourceObjectRefKey := by decide
      exact ⟨_, Members.mem_of_get? reads, other⟩

theorem onlyObjectRef_iff (formed : WellFormed task) :
    OnlyObjectRef task ↔ tabularOf (compactRerunTaskPayload repr task) = some [] := by
  rw [tabularOf_compact repr formed, Option.map_eq_some_iff]
  constructor
  · rintro ⟨tabular, held, some, only⟩
    refine ⟨tabular, Option.filter_eq_some_iff.mpr ⟨held, by simpa using some⟩, ?_⟩
    have bare : ¬ Materializes repr task := by
      intro materializes
      obtain ⟨member, listed, other⟩ := exists_other_of_sourceRefOf repr materializes.1 held
      exact other (only member listed)
    rw [compactTabular, if_neg bare]
    exact List.filter_eq_nil_iff.mpr fun member listed => by simp [only member listed]
  · rintro ⟨tabular, held, bare⟩
    obtain ⟨held, some⟩ := Option.filter_eq_some_iff.mp held
    refine ⟨tabular, held, by simpa using some, fun member listed => ?_⟩
    unfold compactTabular at bare
    split at bare
    · exact absurd bare (markMaterialized_ne_nil _ _)
    · have dropped := List.filter_eq_nil_iff.mp bare member listed
      simpa using dropped

theorem mem_metadataOf {member : String × Json} (listed : member ∈ metadataOf repr task metadata) :
    member.1 ∉ platformMetadataKeys ∧ (isEmptyRerunValue member.2 = false ∨ member = ("tabular", .obj [])) := by
  have tabularMember : ∀ tabular : Members, "tabular" ∉ platformMetadataKeys ∧
      (isEmptyRerunValue (.obj tabular) = false ∨ (("tabular", .obj tabular) : String × Json) = ("tabular", .obj [])) := by
    intro tabular
    refine ⟨by decide, ?_⟩
    cases tabular with
    | nil => exact .inr rfl
    | cons first rest => exact .inl rfl
  have compact : ∀ member ∈ compactRerunMetadata (.obj metadata),
      member.1 ∉ platformMetadataKeys ∧ (isEmptyRerunValue member.2 = false ∨ member = ("tabular", .obj [])) := by
    have kept : ∀ member ∈ metadata.filter fun member => member.1 ∉ platformMetadataKeys ∧ ¬ isEmptyRerunValue member.2,
        member.1 ∉ platformMetadataKeys ∧ (isEmptyRerunValue member.2 = false ∨ member = ("tabular", .obj [])) := by
      intro member listed
      have passes := of_decide_eq_true (List.mem_filter.mp listed).2
      exact ⟨passes.1, .inl (Bool.eq_false_iff.mpr passes.2)⟩
    unfold compactRerunMetadata
    dsimp only
    split
    · exact Members.forall_put kept (tabularMember _)
    · exact kept
  unfold metadataOf at listed
  dsimp only at listed
  split at listed
  · exact Members.forall_put compact (tabularMember _) member listed
  · exact compact member listed

theorem compactRerunMetadata_metadataOf (distinct : (metadata.map Prod.fst).Nodup)
    (bare : ∀ tabular, dictAt (metadataOf repr task metadata) "tabular" = some tabular →
      tabular ≠ [] ∧ Members.get? tabular sourceObjectRefKey = none) :
    compactRerunMetadata (.obj (metadataOf repr task metadata)) = metadataOf repr task metadata := by
  have all : (metadataOf repr task metadata).filter
      (fun member => member.1 ∉ platformMetadataKeys ∧ ¬ isEmptyRerunValue member.2) = metadataOf repr task metadata := by
    refine List.filter_eq_self.mpr fun member listed => decide_eq_true ?_
    obtain ⟨own, full | same⟩ := mem_metadataOf repr listed
    · exact ⟨own, by rw [full]; exact Bool.false_ne_true⟩
    · subst same
      have reads := Members.get?_of_mem (nodup_metadataOf repr task distinct) listed
      exact absurd rfl (bare [] (dictAt_eq_some.mpr reads)).1
  unfold compactRerunMetadata
  dsimp only
  rw [all]
  split
  · next tabular there =>
      rw [Members.without_eq_self (bare tabular there).2]
      exact Members.put_get? (dictAt_eq_some.mp there)
  · rfl

theorem portableRerunValue_empty (sourceRef : String) (value : Json) : portableRerunValue "" sourceRef value = value :=
  Json.mapStrings_id (fun _ => if_neg fun named => named.2.1 rfl) value

theorem compactField_compact (formed : WellFormed task) {key : String} (kept : key ∈ rerunTaskFields)
    (other : key ≠ "metadata") :
    compactField repr (compactRerunTaskPayload repr task) key = compactField repr task key := by
  have reads : Members.get? (compactRerunTaskPayload repr task) key = keptField repr task key := by
    rw [get?_compact, if_pos kept, compactField, if_neg other]
  have stays : ∀ value, fieldValue repr (compactRerunTaskPayload repr task) key value = value := by
    intro value
    unfold fieldValue
    rw [if_neg other, sourceObjectRefOf_compact repr formed, portableRerunValue_empty, ite_self]
  rw [compactField, if_neg other, compactField, if_neg other]
  conv_lhs => unfold keptField
  rw [reads]
  unfold keptField
  cases (Members.get? task key).map (fieldValue repr task key) with
  | none => rfl
  | some value =>
      rw [Option.filter_some]
      split
      · next full => rw [Option.map_some, stays, Option.filter_some, if_pos full]
      · rfl

theorem compactField_metadata_compact (formed : WellFormed task) :
    compactField repr (compactRerunTaskPayload repr task) "metadata" =
      (((dictAt (compactRerunTaskPayload repr task) "metadata").map fun metadata =>
        compactRerunMetadata (.obj metadata)).filter fun metadata => metadata ≠ []).map Json.obj := by
  have same : metadataOf repr (compactRerunTaskPayload repr task) = fun metadata => compactRerunMetadata (.obj metadata) := by
    funext metadata
    unfold metadataOf
    dsimp only
    rw [if_neg (not_materializes_compact repr formed)]
  rw [compactField, if_pos rfl, same]

theorem compact_compact_iff (formed : WellFormed task) :
    compactRerunTaskPayload repr (compactRerunTaskPayload repr task) = compactRerunTaskPayload repr task ↔
      ¬ OnlyObjectRef task := by
  rw [onlyObjectRef_iff repr formed]
  have fieldOf : compactField repr task "metadata" =
      (dictAt (compactRerunTaskPayload repr task) "metadata").map Json.obj := by
    rw [dictAt_compact, compactField, if_pos rfl]
  constructor
  · intro same named
    have twice := tabularOf_compact repr (wellFormed_compact repr formed)
    rw [same, named] at twice
    cases twice
  · intro described
    rw [compactRerunTaskPayload_eq repr (compactRerunTaskPayload repr task)]
    conv_rhs => rw [compactRerunTaskPayload_eq]
    refine Members.ofNames_congr fun key kept => ?_
    by_cases other : key = "metadata"
    · subst other
      rw [compactField_metadata_compact repr formed, fieldOf]
      cases held : dictAt (compactRerunTaskPayload repr task) "metadata" with
      | none => rfl
      | some compact =>
          have shape := held
          rw [dictAt_compact, Option.filter_eq_some_iff, Option.map_eq_some_iff] at shape
          obtain ⟨⟨metadata, there, rfl⟩, full⟩ := shape
          have stays := @compactRerunMetadata_metadataOf repr task metadata (formed metadata there) (by
            intro tabular described'
            have found : tabularOf (compactRerunTaskPayload repr task) = some tabular := by
              unfold tabularOf
              rw [held, Option.bind_some, described']
            constructor
            · rintro rfl
              exact described found
            · rw [tabularOf_compact repr formed, Option.map_eq_some_iff] at found
              obtain ⟨before, _, rfl⟩ := found
              exact get?_compactTabular_sourceObjectRefKey repr task before)
          rw [Option.map_some, stays, Option.filter_some, if_pos full]
    · exact compactField_compact repr formed kept other

end Twice

section References

variable (repr : Json → String) {task : Members}

def argumentTexts (task : Members) : List String := ((Members.get? task "args").getD .null).strings

theorem strings_eq_of_empty {value : Json} (empty : isEmptyRerunValue value = true) :
    value.strings = [] ∨ value.strings = [""] := by
  cases value with
  | null => exact .inl rfl
  | str text => exact .inr (congrArg (fun text => [text]) (of_decide_eq_true empty))
  | arr items =>
      rw [isEmptyRerunValue, List.isEmpty_iff] at empty
      exact .inl (by rw [empty]; rfl)
  | obj members =>
      rw [isEmptyRerunValue, List.isEmpty_iff] at empty
      exact .inl (by rw [empty]; rfl)
  | bool value => cases empty
  | int value => cases empty
  | float value => cases empty

/-- What stands for a text of the arguments in a compact task. -/
def portableText (task : Members) (text : String) : String :=
  if sourceRefOf repr task ≠ "" ∧ sourceObjectRefOf repr task ≠ "" ∧ text = sourceObjectRefOf repr task then
    sourceRefOf repr task
  else text

theorem get?_args_compact (task : Members) :
    Members.get? (compactRerunTaskPayload repr task) "args" =
      ((Members.get? task "args").map (Json.mapStrings (portableText repr task))).filter fun value =>
        ¬ isEmptyRerunValue value := by
  rw [get?_compact, if_pos (by decide), compactField, if_neg (by decide), keptField]
  rfl

theorem mem_argumentTexts_compact {text : String} (some : text ≠ "") :
    text ∈ argumentTexts (compactRerunTaskPayload repr task) ↔
      text ∈ (argumentTexts task).map (portableText repr task) := by
  unfold argumentTexts
  rw [get?_args_compact]
  cases Members.get? task "args" with
  | none => rfl
  | some value =>
      rw [Option.map_some, Option.filter_some, Option.getD_some, ← Json.strings_mapStrings]
      by_cases empty : isEmptyRerunValue (value.mapStrings (portableText repr task)) = true
      · rw [if_neg (by simp [empty]), Option.getD_none]
        rcases strings_eq_of_empty empty with bare | bare
        · rw [bare]
          rfl
        · rw [bare, List.mem_singleton]
          exact ⟨fun listed => absurd listed List.not_mem_nil, fun same => absurd same some⟩
      · rw [if_pos (by simp [empty]), Option.getD_some]

theorem objectRef_notMem_iff (named : sourceRefOf repr task ≠ "") (object : sourceObjectRefOf repr task ≠ "") :
    sourceObjectRefOf repr task ∉ argumentTexts (compactRerunTaskPayload repr task) ↔
      ¬ (sourceRefOf repr task = sourceObjectRefOf repr task ∧ sourceObjectRefOf repr task ∈ argumentTexts task) := by
  rw [mem_argumentTexts_compact repr object, List.mem_map, not_iff_not]
  constructor
  · rintro ⟨text, listed, same⟩
    unfold portableText at same
    split at same
    · next private' => exact ⟨same, private'.2.2 ▸ listed⟩
    · next other => exact absurd ⟨named, object, same⟩ other
  · rintro ⟨same, listed⟩
    exact ⟨_, listed, (if_pos ⟨named, object, rfl⟩).trans same⟩

end References

section Requests

variable (repr : Json → String) {task source : Members}

def tasksOf (source : Members) : List Json :=
  match Members.get? source "tasks" with
  | some (.arr tasks) => tasks
  | _ => []

theorem rerunInstructionItem_congr {first second : Members}
    (fields : ∀ key, key ≠ "metadata" → Members.get? first key = Members.get? second key)
    (tabular : ∀ name, tabularAt first name = tabularAt second name) :
    rerunInstructionItem repr first = rerunInstructionItem repr second := by
  have dictionaries : ∀ key, key ≠ "metadata" → dictAt first key = dictAt second key := by
    intro key other
    unfold dictAt
    rw [fields key other]
  have dispatch : dispatchOf repr first = dispatchOf repr second := by
    unfold dispatchOf
    rw [dictionaries "dispatch" (by decide), fields "kind" (by decide), fields "tool_name" (by decide)]
  have materialization : materializationOf repr first = materializationOf repr second := by
    unfold materializationOf
    rw [tabular, tabular, tabular, fields "args" (by decide)]
  have params : paramsOf first = paramsOf second := by
    unfold paramsOf
    rw [dictionaries "args" (by decide)]
  unfold rerunInstructionItem
  rw [fields "instructions" (by decide), fields "title" (by decide), fields "stage" (by decide), dispatch,
    materialization, params]

theorem tabularAt_compact_compact (formed : WellFormed task) (name : String) :
    tabularAt (compactRerunTaskPayload repr (compactRerunTaskPayload repr task)) name =
      tabularAt (compactRerunTaskPayload repr task) name := by
  unfold tabularAt
  rw [tabularOf_compact repr (wellFormed_compact repr formed)]
  cases held : tabularOf (compactRerunTaskPayload repr task) with
  | none => rfl
  | some tabular =>
      rw [Option.filter_some]
      by_cases empty : tabular = []
      · rw [if_neg (by simp [empty]), empty]
        rfl
      · have bare : Members.get? tabular sourceObjectRefKey = none := by
          rw [tabularOf_compact repr formed, Option.map_eq_some_iff] at held
          obtain ⟨before, _, rfl⟩ := held
          exact get?_compactTabular_sourceObjectRefKey repr task before
        rw [if_pos (by simp [empty]), Option.map_some, compactTabular, if_neg (not_materializes_compact repr formed),
          Members.without_eq_self bare]

theorem itemOf_compact (formed : WellFormed task) :
    itemOf repr (.obj (compactRerunTaskPayload repr task)) = itemOf repr (.obj task) := by
  rw [itemOf, itemOf]
  refine rerunInstructionItem_congr repr (fun key other => ?_) (tabularAt_compact_compact repr formed)
  rw [get?_compact, get?_compact]
  split
  · next kept => exact compactField_compact repr formed kept other
  · rfl

theorem delegateRequest_compact (formed : ∀ task, .obj task ∈ tasksOf source → WellFormed task) :
    delegateRequestFromRerunSource repr (compactRerunSourcePayload repr source) =
      delegateRequestFromRerunSource repr source := by
  unfold compactRerunSourcePayload
  split
  · next tasks held =>
      have listed : tasksOf source = tasks := by
        unfold tasksOf
        rw [held]
      rw [listed] at formed
      unfold delegateRequestFromRerunSource
      rw [Members.get?_put, if_pos rfl, Members.get?_put, if_neg (by decide), Members.get?_put, if_neg (by decide),
        Members.get?_put, if_neg (by decide), held]
      cases tasks with
      | nil => rfl
      | cons first rest =>
          have items : ((first :: rest).map fun task =>
              match task with
              | .obj task => Json.obj (compactRerunTaskPayload repr task)
              | other => other).mapM (itemOf repr) = (first :: rest).mapM (itemOf repr) := by
            have mapped (step : Json → Option InstructionItem) :
                (first :: rest).mapM step = ((first :: rest).map step).mapM id :=
              (List.mapM_map (f := step) (g := id)).symm
            rw [List.mapM_map, mapped, mapped]
            refine congrArg (List.mapM id) (List.map_congr_left fun task inside => ?_)
            rw [Function.comp_apply]
            cases task with
            | obj task => rw [itemOf_compact repr (formed task inside)]
            | null | bool value | int value | float value | str value | arr value => dsimp only
          rw [List.map_cons] at items ⊢
          dsimp only at items ⊢
          rw [items]
  · rfl

end Requests

section Privacy

variable (repr : Json → String) {task source : Members}

/-- The object is taken for one that is made again, and the arguments are not looked at. -/
def Trusted (task : Members) : Prop :=
  Materializes repr task ∨ (tabularAt task "materialize_object").any isTruthy = true

/-- Nothing in the arguments of a task, with its source in place of the object, has the private form. -/
def NothingPrivate (task : Members) : Prop :=
  ∀ args, dictAt task "args" = some args → ∀ text ∈ (Json.obj args).strings,
    (sourceRefOf repr task ≠ "" ∧ sourceObjectRefOf repr task ≠ "" ∧ text = sourceObjectRefOf repr task →
      startsWith (sourceRefOf repr task) privatePrefix = false) ∧
    (¬ (sourceRefOf repr task ≠ "" ∧ sourceObjectRefOf repr task ≠ "" ∧ text = sourceObjectRefOf repr task) →
      startsWith text privatePrefix = false)

/-- No text in the arguments of an item has the private form. -/
def InstructionItem.Portable (item : InstructionItem) : Prop :=
  ∀ params, item.params = some params → ∀ text ∈ (Json.obj params).strings, startsWith text privatePrefix = false

theorem tabularAt_materialize_object (formed : WellFormed task) :
    (tabularAt (compactRerunTaskPayload repr task) "materialize_object").any isTruthy = true ↔ Trusted repr task := by
  unfold Trusted tabularAt
  rw [tabularOf_compact repr formed]
  cases held : tabularOf task with
  | none =>
      have bare : ¬ Materializes repr task := by
        intro materializes
        refine materializes.1 ?_
        unfold sourceRefOf tabularAt
        rw [held]
        rfl
      simp [bare]
  | some tabular =>
      rw [Option.filter_some]
      by_cases empty : tabular = []
      · have bare : ¬ Materializes repr task := by
          intro materializes
          obtain ⟨member, listed, _⟩ := exists_other_of_sourceRefOf repr materializes.1 held
          rw [empty] at listed
          cases listed
        subst empty
        simp [bare, Members.get?]
      · rw [if_pos (by simp [empty]), Option.map_some, Option.bind_some, Option.bind_some, compactTabular]
        by_cases materializes : Materializes repr task
        · rw [if_pos materializes, get?_markMaterialized_materialize_object]
          exact iff_of_true rfl (.inl materializes)
        · rw [if_neg materializes, Members.get?_without, if_neg (by decide), or_iff_right materializes]

theorem paramsOf_compact (task : Members) :
    paramsOf (compactRerunTaskPayload repr task) =
      ((dictAt task "args").map (Json.mapMembers (portableText repr task))).filter fun args => args ≠ [] := by
  unfold paramsOf dictAt
  rw [get?_args_compact]
  cases Members.get? task "args" with
  | none => rfl
  | some value =>
      cases value with
      | obj args =>
          rw [Option.map_some, Option.filter_some, Json.mapStrings, isEmptyRerunValue]
          dsimp only [Option.map_some]
          cases Json.mapMembers (portableText repr task) args <;> rfl
      | str text =>
          rw [Option.map_some, Option.filter_some, Json.mapStrings]
          split
          · next heq => split at heq <;> cases heq
          · rfl
      | arr items =>
          rw [Option.map_some, Option.filter_some, Json.mapStrings]
          split
          · next heq => split at heq <;> cases heq
          · rfl
      | null | bool value | int value | float value => rfl

theorem forall_paramsOf_compact_iff (task : Members) :
    (∀ params, paramsOf (compactRerunTaskPayload repr task) = some params →
      ∀ text ∈ (Json.obj params).strings, startsWith text privatePrefix = false) ↔ NothingPrivate repr task := by
  have texts : ∀ args, (∀ text ∈ (Json.obj (Json.mapMembers (portableText repr task) args)).strings,
      startsWith text privatePrefix = false) ↔ ∀ text ∈ (Json.obj args).strings,
        startsWith (portableText repr task text) privatePrefix = false := by
    intro args
    rw [show Json.obj (Json.mapMembers (portableText repr task) args) =
      (Json.obj args).mapStrings (portableText repr task) from rfl, Json.strings_mapStrings]
    exact List.forall_mem_map
  have text : ∀ text, startsWith (portableText repr task text) privatePrefix = false ↔
      (sourceRefOf repr task ≠ "" ∧ sourceObjectRefOf repr task ≠ "" ∧ text = sourceObjectRefOf repr task →
        startsWith (sourceRefOf repr task) privatePrefix = false) ∧
      (¬ (sourceRefOf repr task ≠ "" ∧ sourceObjectRefOf repr task ≠ "" ∧ text = sourceObjectRefOf repr task) →
        startsWith text privatePrefix = false) := by
    intro text
    unfold portableText
    split
    · next object => exact ⟨fun clean => ⟨fun _ => clean, fun other => absurd object other⟩, fun both => both.1 object⟩
    · next other => exact ⟨fun clean => ⟨fun object => absurd object other, fun _ => clean⟩, fun both => both.2 other⟩
  rw [paramsOf_compact]
  unfold NothingPrivate
  cases held : dictAt task "args" with
  | none => exact ⟨fun _ _ same => by (cases same), fun _ _ same => by (cases same)⟩
  | some args =>
      rw [Option.map_some, Option.filter_some]
      have mapped := (texts args).trans (forall₂_congr fun found _ => text found)
      constructor
      · intro clean found same
        cases same
        refine mapped.mp ?_
        by_cases empty : Json.mapMembers (portableText repr task) args = []
        · rw [empty]
          intro found listed
          cases listed
        · exact clean _ (if_pos (by simp [empty]))
      · intro clean params same
        split at same
        · cases same
          exact mapped.mpr (clean args rfl)
        · cases same

theorem containsPrivateSourceSyntax_of_materializationOf
    (bare : ¬ (tabularAt task "materialize_object").any isTruthy = true)
    (made : (materializationOf repr task).isSome = true) :
    containsPrivateSourceSyntax ((Members.get? task "args").getD .null) = false := by
  unfold materializationOf at made
  rw [if_neg bare] at made
  by_cases found : containsPrivateSourceSyntax ((Members.get? task "args").getD .null) = true
  · rw [if_pos found] at made
    cases made
  · exact Bool.eq_false_iff.mpr found

theorem params_of_rerunInstructionItem {item : InstructionItem} (made : rerunInstructionItem repr task = some item) :
    item.params = paramsOf task ∧ (materializationOf repr task).isSome = true := by
  unfold rerunInstructionItem at made
  dsimp only at made
  split at made
  · cases made
  · obtain ⟨materialization, there, made⟩ := Option.bind_eq_some_iff.mp made
    obtain ⟨dispatch, _, made⟩ := Option.bind_eq_some_iff.mp made
    rw [Option.pure_def, Option.some_inj] at made
    rw [← made, there]
    exact ⟨rfl, rfl⟩

theorem portable_iff (formed : WellFormed task) {item : InstructionItem}
    (made : rerunInstructionItem repr (compactRerunTaskPayload repr task) = some item) :
    item.Portable ↔ (Trusted repr task → NothingPrivate repr task) := by
  have params := params_of_rerunInstructionItem repr made
  unfold InstructionItem.Portable
  rw [params.1]
  by_cases trusted : Trusted repr task
  · rw [forall_paramsOf_compact_iff]
    exact ⟨fun clean _ => clean, fun clean => clean trusted⟩
  · refine iff_of_true ?_ fun there => absurd there trusted
    have checked : containsPrivateSourceSyntax
        ((Members.get? (compactRerunTaskPayload repr task) "args").getD .null) = false :=
      containsPrivateSourceSyntax_of_materializationOf repr
        ((tabularAt_materialize_object repr formed).not.mpr trusted) params.2
    intro found same text listed
    obtain ⟨held, _⟩ := Option.filter_eq_some_iff.mp same
    rw [dictAt_eq_some.mp held, Option.getD_some] at checked
    exact Bool.eq_false_iff.mpr (List.any_eq_false.mp checked text listed)

theorem request_portable_iff (formed : ∀ task, .obj task ∈ tasksOf source → WellFormed task) {request : DelegateRequest}
    (made : delegateRequestFromRerunSource repr source = some request) :
    (∀ item ∈ request.items, item.Portable) ↔
      ∀ task, .obj task ∈ tasksOf source → Trusted repr task → NothingPrivate repr task := by
  have items : (tasksOf source).mapM (itemOf repr) = some request.items := by
    unfold delegateRequestFromRerunSource at made
    unfold tasksOf
    split at made
    · next first rest held =>
        rw [Option.bind_eq_bind, Option.bind_eq_some_iff] at made
        obtain ⟨items, mapped, made⟩ := made
        cases made
        rw [held]
        exact mapped
    · cases made
  have inStep := mapM_eq_some.mp items
  constructor
  · intro portable task listed
    obtain ⟨item, there, itemised⟩ := exists_right_of_mem inStep listed
    exact (portable_iff repr (formed task listed) itemised).mp (portable item there)
  · intro clean item there
    obtain ⟨task, listed, itemised⟩ := exists_left_of_mem inStep there
    cases task with
    | obj task => exact (portable_iff repr (formed task listed) itemised).mpr (clean task listed)
    | null | bool value | int value | float value | str value | arr value => cases itemised

end Privacy

section Results

/-- **When rerun compaction is stable and keeps private references apart.** A task is left as it is by a second
compaction unless its tabular metadata name an object and nothing else. The object is not named in the compact arguments
unless it is its own source. A payload and its compact form give one request. Its items are portable unless an object is
taken for one that is made again and the arguments have the private form. -/
theorem compaction_stable_and_private (repr : Json → String) :
    (∀ task, WellFormed task →
      (compactRerunTaskPayload repr (compactRerunTaskPayload repr task) = compactRerunTaskPayload repr task ↔
        ¬ OnlyObjectRef task)) ∧
    (∀ task, sourceRefOf repr task ≠ "" → sourceObjectRefOf repr task ≠ "" →
      (sourceObjectRefOf repr task ∉ argumentTexts (compactRerunTaskPayload repr task) ↔
        ¬ (sourceRefOf repr task = sourceObjectRefOf repr task ∧ sourceObjectRefOf repr task ∈ argumentTexts task))) ∧
    (∀ source, (∀ task, .obj task ∈ tasksOf source → WellFormed task) →
      delegateRequestFromRerunSource repr (compactRerunSourcePayload repr source) =
        delegateRequestFromRerunSource repr source) ∧
    (∀ source request, (∀ task, .obj task ∈ tasksOf source → WellFormed task) →
      delegateRequestFromRerunSource repr source = some request →
      ((∀ item ∈ request.items, item.Portable) ↔
        ∀ task, .obj task ∈ tasksOf source → Trusted repr task → NothingPrivate repr task)) :=
  ⟨fun _ formed => compact_compact_iff repr formed, fun _ named object => objectRef_notMem_iff repr named object,
    fun _ formed => delegateRequest_compact repr formed, fun _ _ formed made => request_portable_iff repr formed made⟩

def tableTask : Members :=
  [("title", .str "Totals"), ("args", .obj [("table", .str "object")]),
    ("metadata", .obj [("tabular", .obj [("source_object_ref", .str "object"), ("source_ref", .str "sheet")])])]

theorem wellFormed_tableTask : WellFormed tableTask := by
  intro metadata held
  cases held
  decide

/-- The table is made again of its source, however often the task is compacted. -/
theorem compaction_stable_and_private_tableTask :
    compactRerunTaskPayload (fun _ => "") (compactRerunTaskPayload (fun _ => "") tableTask) =
      compactRerunTaskPayload (fun _ => "") tableTask := by
  refine ((compaction_stable_and_private fun _ => "").1 tableTask wellFormed_tableTask).mpr ?_
  rintro ⟨tabular, held, -, only⟩
  cases held
  exact absurd (only ("source_ref", .str "sheet") (.tail _ (.head _))) (by decide)

/-- A task whose tabular metadata name an object and nothing else. -/
def bareTask : Members := [("metadata", .obj [("tabular", .obj [("source_object_ref", .str "object")])])]

/-- A payload with a task whose object is marked as one that is made again, beside a private reference. -/
def markedSource : Members :=
  [("tasks", .arr [.obj [("title", .str "Totals"), ("args", .obj [("table", .str "sico-source://private")]),
    ("metadata", .obj [("tabular", .obj [("materialize_object", .bool true), ("source_ref", .str "sheet"),
      ("content_hash", .str "0000000000000000000000000000000000000000000000000000000000000000")])])]])]

/-- The second compaction drops the metadata that the first one left, and a marked task keeps a private reference. -/
theorem compaction_unstable_and_leaking :
    compactRerunTaskPayload (fun _ => "") bareTask = [("metadata", .obj [("tabular", .obj [])])] ∧
    compactRerunTaskPayload (fun _ => "") (compactRerunTaskPayload (fun _ => "") bareTask) = [] ∧
    ((delegateRequestFromRerunSource (fun _ => "") markedSource).map fun request => request.items.map (·.params)) =
      some [some [("table", .str "sico-source://private")]] := by
  refine ⟨rfl, rfl, ?_⟩
  decide

end Results

end Sico.TaskRuntime.RerunSources

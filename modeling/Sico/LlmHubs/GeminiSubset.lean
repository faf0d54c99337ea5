import Mathlib.Logic.Relation
import Sico.LlmHubs.GeminiTermination

/-! # Rewritten schemas are in the subset

Every object at a schema position of a rewritten schema uses the allowed keywords only, with the shapes
that Gemini reads, and the names of its properties are those of the object that it was reduced from.
-/

namespace Sico.LlmHubs.GeminiSchema

open Foundation

section Positions

/-- The schema positions directly below a document. A list of schemas counts as one, with the schemas
below it. -/
inductive Below : Json → Json → Prop where
  | item {items : List Json} {item : Json} : item ∈ items → Below (.arr items) item
  | keyword {fields : Fields} {key : String} {value : Json} : (key, value) ∈ fields →
      key ∈ ["items", "anyOf", "oneOf", "allOf"] → Below (.obj fields) value
  | named {fields subs : Fields} {key name : String} {sub : Json} : (key, .obj subs) ∈ fields →
      key ∈ ["properties", "$defs"] → (name, sub) ∈ subs → Below (.obj fields) sub

/-- The schema positions of a document, itself among them. -/
def Within : Json → Json → Prop := Relation.ReflTransGen Below

/-- The shapes of keywords that JSON Schema prescribes. -/
structure IsShaped (field : String × Json) : Prop where
  type : field.1 = "type" → (∃ text, field.2 = .str text) ∨
    ∃ entries, field.2 = .arr entries ∧ ∀ entry ∈ entries, isString entry = true
  enum : field.1 = "enum" → ∃ entries, field.2 = .arr entries
  format : field.1 = "format" → ∃ text, field.2 = .str text
  named : field.1 ∈ ["properties", "$defs"] → ∃ subs, field.2 = .obj subs

/-- The keywords have their shapes at every position of a schema. -/
def IsSchema (schema : Json) : Prop :=
  ∀ fields, Within schema (.obj fields) → ∀ field ∈ fields, IsShaped field

theorem IsSchema.below {schema sub : Json} (valid : IsSchema schema) (below : Below schema sub) : IsSchema sub :=
  fun fields within => valid fields (.head below within)

/-- A field of a schema, with the schemas below it. -/
structure IsSchemaField (field : String × Json) : Prop where
  shaped : IsShaped field
  keyword : field.1 ∈ ["items", "anyOf", "oneOf", "allOf"] → IsSchema field.2
  named : field.1 ∈ ["properties", "$defs"] → ∀ subs, field.2 = .obj subs → ∀ sub ∈ subs, IsSchema sub.2

theorem isSchema_arr {items : List Json} : IsSchema (.arr items) ↔ ∀ item ∈ items, IsSchema item := by
  constructor
  · intro valid item listed
    exact valid.below (.item listed)
  · intro each fields within
    rcases Relation.ReflTransGen.cases_head within with same | ⟨item, below, within⟩
    · cases same
    · cases below with
      | item listed => exact each item listed fields within

theorem isSchema_obj {fields : Fields} : IsSchema (.obj fields) ↔ ∀ field ∈ fields, IsSchemaField field := by
  constructor
  · intro valid field listed
    refine ⟨valid fields .refl field listed, fun key => ?_, fun key subs same sub named => ?_⟩
    · exact valid.below (.keyword listed key)
    · have listed' : (field.1, Json.obj subs) ∈ fields := same ▸ listed
      exact valid.below (.named listed' key named)
  · intro each inner within
    rcases Relation.ReflTransGen.cases_head within with same | ⟨sub, below, within⟩
    · cases same
      exact fun field listed => (each field listed).shaped
    · cases below with
      | keyword listed key => exact (each _ listed).keyword key inner within
      | named listed key named => exact (each _ listed).named key _ rfl _ named inner within

theorem isSchema_empty : IsSchema (.obj []) := isSchema_obj.mpr nofun

theorem isSchema_cons {field : String × Json} {rest : Fields} (first : IsSchemaField field)
    (others : IsSchema (.obj rest)) : IsSchema (.obj (field :: rest)) := by
  apply isSchema_obj.mpr
  intro other listed
  rcases List.mem_cons.mp listed with rfl | later
  · exact first
  · exact isSchema_obj.mp others other later

theorem isSchemaField_of_notMem {field : String × Json}
    (plain : field.1 ∉ ["type", "enum", "format", "properties", "$defs", "items", "anyOf", "oneOf", "allOf"]) :
    IsSchemaField field := by
  simp only [List.mem_cons, List.not_mem_nil, or_false, not_or] at plain
  obtain ⟨type, enum, format, properties, defs, items, anyOf, oneOf, allOf⟩ := plain
  constructor
  · constructor
    · exact fun same => absurd same type
    · exact fun same => absurd same enum
    · exact fun same => absurd same format
    · intro same
      simp [properties, defs] at same
  · intro same
    simp [items, anyOf, oneOf, allOf] at same
  · intro same
    simp [properties, defs] at same

end Positions

section Kept

theorem isSchemaField_type (text : String) : IsSchemaField ("type", .str text) where
  shaped := ⟨fun _ => .inl ⟨text, rfl⟩, by simp, by simp, by simp⟩
  keyword := by simp
  named := by simp

theorem isSchemaField_enum (entries : List Json) : IsSchemaField ("enum", .arr entries) where
  shaped := ⟨by simp, fun _ => ⟨entries, rfl⟩, by simp, by simp⟩
  keyword := by simp
  named := by simp

theorem isSchemaField_anyOf {value : Json} (valid : IsSchema value) : IsSchemaField ("anyOf", value) where
  shaped := ⟨by simp, by simp, by simp, by simp⟩
  keyword _ := valid
  named := by simp

theorem exists_text {entry : Json} (string : isString entry = true) : ∃ text, entry = .str text := by
  cases entry with
  | str text => exact ⟨text, rfl⟩
  | null | bool | int | float | arr | obj => cases string

theorem isSchemaField_named {key : String} {subs : Fields} (place : key ∈ ["properties", "$defs"])
    (each : ∀ sub ∈ subs, IsSchema sub.2) : IsSchemaField (key, .obj subs) := by
  simp only [List.mem_cons, List.not_mem_nil, or_false] at place
  rcases place with rfl | rfl
  · refine ⟨⟨by simp, by simp, by simp, fun _ => ⟨subs, rfl⟩⟩, by simp, ?_⟩
    rintro - _ ⟨⟩
    exact each
  · refine ⟨⟨by simp, by simp, by simp, fun _ => ⟨subs, rfl⟩⟩, by simp, ?_⟩
    rintro - _ ⟨⟩
    exact each

theorem exists_text_of_mem {types : List Json} {entry : Json} (given : IsSchemaField ("type", .arr types))
    (listed : entry ∈ types) : ∃ text, entry = .str text := by
  obtain ⟨text, same⟩ | ⟨entries, same, strings⟩ := given.shaped.type rfl
  · cases same
  · cases same
    exact exists_text (strings entry listed)

theorem keptByReduction_isSchemaField : KeptByReduction IsSchemaField where
  renamed given := isSchemaField_anyOf (given.keyword (by simp))
  enum _ := isSchemaField_enum _
  inferred _ _ := isSchemaField_type _
  nullOnly _ _ := isSchemaField_type _
  single {types single} given one := by
    have listed : single ∈ types := List.mem_of_mem_filter (one ▸ List.mem_singleton_self single)
    obtain ⟨text, rfl⟩ := exists_text_of_mem given listed
    exact isSchemaField_type text
  union {types} given := by
    apply isSchemaField_anyOf
    apply isSchema_arr.mpr
    intro branch listed
    obtain ⟨entry, among, rfl⟩ := List.mem_map.mp listed
    obtain ⟨text, rfl⟩ := exists_text_of_mem given (List.mem_of_mem_filter among)
    apply isSchema_obj.mpr
    intro field single
    rw [List.mem_singleton.mp single]
    exact isSchemaField_type text
  nullable _ _ := isSchemaField_of_notMem (by simp)

theorem keptAtHead_isSchemaField {defs : Fields} (valid : ∀ definition ∈ defs, IsSchema definition.2)
    (seen : List String) : KeptAtHead defs seen IsSchemaField where
  renamed given := isSchemaField_anyOf (given.keyword (by simp))
  target _ _ known := by
    obtain ⟨name, -, listed⟩ := resolveRef_eq_some known
    exact isSchema_obj.mp (valid _ listed)
  fallback _ _ := isSchemaField_type _
  wrapped given := isSchema_obj.mp (isSchema_arr.mp (given.keyword (by simp)) _ List.mem_cons_self)
  nullOnly _ _ := isSchemaField_type _
  single {branches only} given one := by
    have listed : .obj only ∈ branches := List.mem_of_mem_filter (one ▸ List.mem_singleton_self _)
    exact isSchema_obj.mp (isSchema_arr.mp (given.keyword (by simp)) _ listed)
  union given := by
    apply isSchemaField_anyOf
    apply isSchema_arr.mpr
    intro branch listed
    exact isSchema_arr.mp (given.keyword (by simp)) branch (List.mem_of_mem_filter listed)
  nullable _ _ := isSchemaField_of_notMem (by simp)

end Kept

section Shapes

variable {fields : Fields} {value : Json}

/-- `nullable` is written behind the other changes only. -/
theorem get?_normalizeType {name : String} (notNullable : "nullable" ≠ name) :
    Members.get? (normalizeType fields) name =
      match Members.get? fields "type" with
      | some (.arr types) =>
          Members.get? (collapseTypes fields (types.filter fun entry => !isText "null" entry)) name
      | _ => Members.get? fields name := by
  unfold normalizeType
  cases Members.get? fields "type" with
  | none => rfl
  | some kind =>
      cases kind with
      | arr types =>
          dsimp only
          split
          · rw [Members.get?_put, if_neg notNullable]
          · rfl
      | _ => rfl

theorem get?_normalizeType_of_ne {name : String} (notType : "type" ≠ name) (notAnyOf : "anyOf" ≠ name)
    (notNullable : "nullable" ≠ name) : Members.get? (normalizeType fields) name = Members.get? fields name := by
  rw [get?_normalizeType notNullable]
  split
  · unfold collapseTypes
    split
    · rw [Members.get?_put, if_neg notType]
    · rw [Members.get?_put, if_neg notType]
    · rw [Members.get?_setDefault, if_neg notAnyOf, Members.get?_without, if_neg notType]
  · rfl

theorem get?_normalizeType_type (valid : ∀ field ∈ fields, IsSchemaField field)
    (here : Members.get? (normalizeType fields) "type" = some value) : ∃ text, value = .str text := by
  rw [get?_normalizeType (by decide)] at here
  split at here
  · next types given =>
      unfold collapseTypes at here
      split at here
      · rw [Members.get?_put, if_pos rfl] at here
        exact ⟨"null", (Option.some.inj here).symm⟩
      · next single one =>
          rw [Members.get?_put, if_pos rfl] at here
          have listed : single ∈ types := List.mem_of_mem_filter (one ▸ List.mem_singleton_self single)
          obtain ⟨text, same⟩ := exists_text_of_mem (valid _ (Members.mem_of_get? given)) listed
          exact ⟨text, (Option.some.inj here).symm.trans same⟩
      · rw [Members.get?_setDefault, if_neg (by decide), Members.get?_without, if_pos rfl] at here
        cases here
  · next notList =>
      obtain same | ⟨entries, same, -⟩ := (valid _ (Members.mem_of_get? here)).shaped.type rfl
      · exact same
      · dsimp only at same
        subst same
        exact absurd here (notList _)

theorem get?_dropOtherFormat_of_ne {name : String} (notFormat : "format" ≠ name) :
    Members.get? (dropOtherFormat fields) name = Members.get? fields name := by
  unfold dropOtherFormat
  split
  · split
    · rfl
    · rw [Members.get?_without, if_neg notFormat]
  · rfl

theorem get?_dropOtherFormat_format (valid : ∀ field ∈ fields, IsSchemaField field)
    (here : Members.get? (dropOtherFormat fields) "format" = some value) :
    ∃ format ∈ allowedFormats, value = .str format := by
  unfold dropOtherFormat at here
  split at here
  · next format given =>
      split at here
      · next allowed =>
          rw [given] at here
          exact ⟨format, allowed, (Option.some.inj here).symm⟩
      · rw [Members.get?_without, if_pos rfl] at here
        cases here
  · next notText =>
      obtain ⟨text, same⟩ := (valid _ (Members.mem_of_get? here)).shaped.format rfl
      dsimp only at same
      subst same
      exact absurd here (notText text)

theorem get?_dropOtherEnum_enum (valid : ∀ field ∈ fields, IsSchemaField field)
    (here : Members.get? (dropOtherEnum fields) "enum" = some value) :
    ∃ entries, value = .arr entries ∧ ∀ entry ∈ entries, isString entry = true := by
  unfold dropOtherEnum at here
  split at here
  · next entries given =>
      split at here
      · next strings =>
          rw [given] at here
          cases here
          exact ⟨entries, rfl, List.all_eq_true.mp strings⟩
      · rw [Members.get?_without, if_pos rfl] at here
        cases here
  · next notList =>
      obtain ⟨entries, same⟩ := (valid _ (Members.mem_of_get? here)).shaped.enum rfl
      dsimp only at same
      subst same
      exact absurd here (notList entries)

end Shapes

section Calls

/-- The calls that a call of the rewriting makes at schema positions, each with the references seen. -/
inductive Call (defs : Fields) : Json × List String → Json × List String → Prop where
  | item {items : List Json} {item : Json} {seen : List String} : item ∈ items →
      Call defs (.arr items, seen) (item, seen)
  | head {fields merged : Fields} {seen seen' : List String} : rewriteHead defs seen fields = some (merged, seen') →
      Call defs (.obj fields, seen) (.obj merged, seen')
  | keyword {fields : Fields} {seen : List String} {key : String} {value : Json} :
      rewriteHead defs seen fields = none → (key, value) ∈ reduced fields → key ∈ ["items", "anyOf"] →
      Call defs (.obj fields, seen) (value, seen)
  | property {fields properties : Fields} {seen : List String} {property : String × Json} :
      rewriteHead defs seen fields = none → ("properties", .obj properties) ∈ reduced fields →
      property ∈ properties → Call defs (.obj fields, seen) (property.2, seen)

def Calls (defs : Fields) : Json × List String → Json × List String → Prop := Relation.ReflTransGen (Call defs)

variable {defs fields outs : Fields} {seen seen' : List String} {depth : ℕ} {schema schema' result : Json}

/-- What the fields of an object are rewritten to that has its last form. -/
def sanitizeFields (depth : ℕ) (defs : Fields) (seen : List String) (fields : Fields) : Option Fields :=
  (reduced fields).mapM (sanitizeField fun value => sanitizeSchema depth value (some defs) seen)

theorem sanitizeField_cases {sanitize : Json → Option Json} {field out : String × Json}
    (sanitized : sanitizeField sanitize field = some out) :
    out.1 = field.1 ∧
      (field.1 ∈ dataKeys ∧ out = field ∨
        field.1 ∉ dataKeys ∧
          ((∃ properties subs, field = ("properties", .obj properties) ∧ out = ("properties", .obj subs) ∧
              List.Forall₂ (fun property sub => sub.1 = property.1 ∧ sanitize property.2 = some sub.2) properties subs) ∨
            (field.1 = "properties" → ∀ properties, field.2 ≠ .obj properties) ∧ sanitize field.2 = some out.2)) := by
  obtain ⟨key, value⟩ := field
  unfold sanitizeField at sanitized
  split at sanitized
  · next data =>
      cases sanitized
      exact ⟨rfl, .inl ⟨data, rfl⟩⟩
  · next notData =>
      split at sanitized
      · next properties name same =>
          dsimp only at name same
          subst name same
          obtain ⟨subs, mapped, rfl⟩ := Option.map_eq_some_iff.mp sanitized
          refine ⟨rfl, .inr ⟨notData, .inl ⟨properties, subs, rfl, rfl, ?_⟩⟩⟩
          apply (mapM_eq_some.mp mapped).imp
          intro property sub made
          obtain ⟨inner, below, rfl⟩ := Option.map_eq_some_iff.mp made
          exact ⟨rfl, below⟩
      · next other =>
          obtain ⟨sub, below, rfl⟩ := Option.map_eq_some_iff.mp sanitized
          refine ⟨rfl, .inr ⟨notData, .inr ⟨fun isProperties properties same => ?_, below⟩⟩⟩
          exact other properties isProperties same

theorem exists_obj (sanitized : sanitizeSchema depth schema (some defs) seen = some (.obj outs)) :
    ∃ fields, schema = .obj fields := by
  cases depth with
  | zero => cases sanitized
  | succ depth =>
      cases schema with
      | obj fields => exact ⟨fields, rfl⟩
      | arr items =>
          obtain ⟨results, -, same⟩ := Option.map_eq_some_iff.mp sanitized
          cases same
      | null | bool | int | float | str => cases sanitized

theorem disjoint_dataKeys {key : String} (data : key ∈ dataKeys)
    (place : key ∈ ["items", "anyOf", "oneOf", "allOf"] ∨ key ∈ ["properties", "$defs"]) : False := by
  simp only [dataKeys, List.mem_cons, List.not_mem_nil, or_false] at data place
  rcases data with rfl | rfl <;> simp at place

theorem keyword_of_allowed {key : String} (allowed : key ∈ allowedKeys)
    (place : key ∈ ["items", "anyOf", "oneOf", "allOf"]) : key ∈ ["items", "anyOf"] := by
  simp only [List.mem_cons, List.not_mem_nil, or_false] at place
  rcases place with rfl | rfl | rfl | rfl
  · decide
  · decide
  · exact absurd allowed (by decide)
  · exact absurd allowed (by decide)

theorem exists_call_of_within (sanitized : sanitizeSchema depth schema (some defs) seen = some result)
    (within : Within result (.obj outs)) :
    ∃ fields seen' depth', Calls defs (schema, seen) (.obj fields, seen') ∧ rewriteHead defs seen' fields = none ∧
      sanitizeFields depth' defs seen' fields = some outs := by
  induction depth generalizing schema seen result with
  | zero => cases sanitized
  | succ depth ih =>
      have scalar (other : ∀ sub, ¬ Below result sub) (notObject : result ≠ .obj outs) : False := by
        rcases Relation.ReflTransGen.cases_head within with same | ⟨sub, below, -⟩
        · exact notObject same
        · exact other sub below
      cases schema with
      | null | bool | int | float | str =>
          cases sanitized
          refine (scalar (fun sub below => ?_) nofun).elim
          cases below
      | arr items =>
          obtain ⟨results, mapped, rfl⟩ := Option.map_eq_some_iff.mp sanitized
          rcases Relation.ReflTransGen.cases_head within with same | ⟨sub, below, within⟩
          · cases same
          · cases below with
            | item listed =>
                obtain ⟨item, among, made⟩ := exists_left_of_mem (mapM_eq_some.mp mapped) listed
                obtain ⟨fields, seen', depth', calls, rest⟩ := ih made within
                exact ⟨fields, seen', depth', .head (.item among) calls, rest⟩
      | obj fields =>
          cases head : rewriteHead defs seen fields with
          | some rewritten =>
              obtain ⟨merged, seen'⟩ := rewritten
              simp only [sanitizeSchema, Option.getD_some, head] at sanitized
              obtain ⟨final, seen'', depth', calls, rest⟩ := ih sanitized within
              exact ⟨final, seen'', depth', .head (.head head) calls, rest⟩
          | none =>
              simp only [sanitizeSchema, Option.getD_some, head] at sanitized
              obtain ⟨made, mapped, rfl⟩ := Option.map_eq_some_iff.mp sanitized
              have each := mapM_eq_some.mp mapped
              rcases Relation.ReflTransGen.cases_head within with same | ⟨sub, below, within⟩
              · cases same
                exact ⟨fields, seen, depth, .refl, head, mapped⟩
              · cases below with
                | keyword listed key =>
                    obtain ⟨field, among, made⟩ := exists_left_of_mem each listed
                    obtain ⟨same, ⟨data, -⟩ | ⟨-, ⟨_, _, -, named, -⟩ | ⟨-, direct⟩⟩⟩ :=
                      sanitizeField_cases made
                    · exact (disjoint_dataKeys data (same ▸ .inl key)).elim
                    · cases named
                      exact absurd key (by decide)
                    · obtain ⟨final, seen', depth', calls, rest⟩ := ih direct within
                      dsimp only at same
                      have place : field.1 ∈ ["items", "anyOf"] := by
                        have allowed := of_decide_eq_true (List.mem_filter.mp among).2
                        rw [← same] at allowed ⊢
                        exact keyword_of_allowed allowed key
                      exact ⟨final, seen', depth', .head (.keyword head among place) calls, rest⟩
                | named listed key inner =>
                    obtain ⟨field, among, made⟩ := exists_left_of_mem each listed
                    obtain ⟨same, ⟨data, -⟩ | ⟨-, ⟨properties, subs, named, out, inStep⟩ | ⟨notNamed, direct⟩⟩⟩ :=
                      sanitizeField_cases made
                    · exact (disjoint_dataKeys data (same ▸ .inr key)).elim
                    · cases out
                      subst named
                      obtain ⟨property, there, -, below⟩ := exists_left_of_mem inStep inner
                      obtain ⟨final, seen', depth', calls, rest⟩ := ih below within
                      exact ⟨final, seen', depth', .head (.property head among there) calls, rest⟩
                    · obtain ⟨properties, object⟩ := exists_obj direct
                      dsimp only at same
                      rcases List.mem_cons.mp key with isProperties | isDefs
                      · exact (notNamed (same.symm.trans isProperties) properties object).elim
                      · have allowed := of_decide_eq_true (List.mem_filter.mp among).2
                        rw [← same, List.mem_singleton.mp isDefs] at allowed
                        exact absurd allowed (by decide)

theorem Call.isSchema (valid : ∀ definition ∈ defs, IsSchema definition.2)
    (call : Call defs (schema, seen) (schema', seen')) (isSchema : IsSchema schema) : IsSchema schema' := by
  cases call with
  | item listed => exact isSchema_arr.mp isSchema _ listed
  | head rewritten =>
      exact isSchema_obj.mpr ((keptAtHead_isSchemaField valid seen).rewriteHead (isSchema_obj.mp isSchema) rewritten)
  | keyword _ listed key =>
      have kept := keptByReduction_isSchemaField.reduced (isSchema_obj.mp isSchema) _ listed
      apply kept.keyword
      rcases List.mem_cons.mp key with same | later
      · exact same ▸ List.mem_cons_self
      · exact List.mem_cons_of_mem _ (List.mem_singleton.mp later ▸ List.mem_cons_self)
  | property _ listed named =>
      have kept := keptByReduction_isSchemaField.reduced (isSchema_obj.mp isSchema) _ listed
      exact kept.named List.mem_cons_self _ rfl _ named

theorem Calls.isSchema (valid : ∀ definition ∈ defs, IsSchema definition.2)
    (calls : Calls defs (schema, seen) (schema', seen')) (isSchema : IsSchema schema) : IsSchema schema' := by
  have each : ∀ {last : Json × List String}, Calls defs (schema, seen) last → IsSchema last.1 := by
    intro last calls
    induction calls with
    | refl => exact isSchema
    | tail _ call ih => exact call.isSchema valid ih
  exact each calls

end Calls

section Results

variable {defs fields outs : Fields} {seen : List String} {depth : ℕ}

/-- An object in the subset that Gemini accepts. -/
structure IsAccepted (fields : Fields) : Prop where
  allowed : ∀ field ∈ fields, field.1 ∈ allowedKeys
  plain : ∀ name ∈ ["$ref", "allOf", "oneOf", "const"], Members.get? fields name = none
  type : ∀ value, Members.get? fields "type" = some value → ∃ text, value = .str text
  enum : ∀ value, Members.get? fields "enum" = some value →
    ∃ entries, value = .arr entries ∧ ∀ entry ∈ entries, isString entry = true
  format : ∀ value, Members.get? fields "format" = some value → ∃ text ∈ allowedFormats, value = .str text

def propertyNames (fields : Fields) : Option (List String) :=
  match Members.get? fields "properties" with
  | some (.obj properties) => some (properties.map Prod.fst)
  | _ => none

theorem get?_of_inStep {sanitize : Json → Option Json}
    (inStep : List.Forall₂ (fun field out => sanitizeField sanitize field = some out) fields outs) (name : String) :
    match Members.get? outs name with
    | some out => ∃ value, Members.get? fields name = some value ∧ sanitizeField sanitize (name, value) = some (name, out)
    | none => Members.get? fields name = none := by
  induction inStep with
  | nil => rfl
  | @cons field out fields outs first _ ih =>
      have same := (sanitizeField_cases first).1
      rw [Members.get?_cons, Members.get?_cons, same]
      by_cases here : field.1 = name
      · rw [if_pos here, if_pos here]
        refine ⟨field.2, rfl, ?_⟩
        subst here
        have whole : (field.1, out.2) = out := by rw [← same]
        rw [whole]
        exact first
      · rw [if_neg here, if_neg here]
        exact ih

theorem get?_reduced {name : String} (allowed : name ∈ allowedKeys) :
    Members.get? (reduced fields) name =
      Members.get? (dropOtherFormat (normalizeType (normalizeConstAndEnum (oneOfToAnyOf fields)))) name := by
  unfold reduced reduceToGeminiFields
  exact Members.get?_filter (fun key => key ∈ allowedKeys) (decide_eq_true allowed)

theorem sanitizeSchema_str {text : String} {result : Json}
    (sanitized : sanitizeSchema depth (.str text) (some defs) seen = some result) : result = .str text := by
  cases depth with
  | zero => cases sanitized
  | succ => cases sanitized; rfl

theorem sanitizeSchema_strings {entries : List Json} {result : Json} (strings : ∀ entry ∈ entries, isString entry = true)
    (sanitized : sanitizeSchema depth (.arr entries) (some defs) seen = some result) : result = .arr entries := by
  cases depth with
  | zero => cases sanitized
  | succ depth =>
      obtain ⟨results, mapped, rfl⟩ := Option.map_eq_some_iff.mp sanitized
      congr 1
      have each := mapM_eq_some.mp mapped
      clear mapped sanitized
      induction each with
      | nil => rfl
      | @cons entry result entries results first _ ih =>
          obtain ⟨text, rfl⟩ := exists_text (strings entry List.mem_cons_self)
          rw [sanitizeSchema_str first, ih fun other listed => strings other (List.mem_cons_of_mem _ listed)]

theorem sanitizeField_direct {sanitize : Json → Option Json} {name : String} {value out : Json}
    (notData : name ∉ dataKeys) (notProperties : name ≠ "properties")
    (sanitized : sanitizeField sanitize (name, value) = some (name, out)) : sanitize value = some out := by
  obtain ⟨-, ⟨data, -⟩ | ⟨-, ⟨_, _, named, -⟩ | ⟨-, direct⟩⟩⟩ := sanitizeField_cases sanitized
  · exact absurd data notData
  · cases named
    exact absurd rfl notProperties
  · exact direct

theorem isAccepted (valid : IsSchema (.obj fields)) (made : sanitizeFields depth defs seen fields = some outs) :
    IsAccepted outs := by
  have inStep := mapM_eq_some.mp made
  have kept := forall_oneOfToAnyOf keptByReduction_isSchemaField.renamed (isSchema_obj.mp valid)
  have enums := keptByReduction_isSchemaField.normalizeConstAndEnum kept
  have types := keptByReduction_isSchemaField.normalizeType enums
  have allowed : ∀ out ∈ outs, out.1 ∈ allowedKeys := by
    intro out listed
    obtain ⟨field, among, sanitized⟩ := exists_left_of_mem inStep listed
    rw [(sanitizeField_cases sanitized).1]
    exact of_decide_eq_true (List.mem_filter.mp among).2
  have reads {name : String} {out : Json} (here : Members.get? outs name = some out)
      (direct : name ∉ dataKeys ∧ name ≠ "properties") (known : name ∈ allowedKeys) :
      ∃ value, Members.get? (dropOtherFormat (normalizeType (normalizeConstAndEnum (oneOfToAnyOf fields)))) name =
        some value ∧ sanitizeSchema depth value (some defs) seen = some out := by
    have before := get?_of_inStep inStep name
    rw [here] at before
    obtain ⟨value, there, sanitized⟩ := before
    rw [get?_reduced known] at there
    exact ⟨value, there, sanitizeField_direct direct.1 direct.2 sanitized⟩
  constructor
  · exact allowed
  · intro name plain
    apply Members.get?_eq_none.mpr
    rintro out listed rfl
    have both := allowed out listed
    simp only [List.mem_cons, List.not_mem_nil, or_false] at plain
    rcases plain with same | same | same | same <;> exact absurd (same ▸ both) (by decide)
  · intro value here
    obtain ⟨before, there, sanitized⟩ := reads here (by decide) (by decide)
    rw [get?_dropOtherFormat_of_ne (by decide)] at there
    obtain ⟨text, rfl⟩ := get?_normalizeType_type enums there
    exact ⟨text, sanitizeSchema_str sanitized⟩
  · intro value here
    obtain ⟨before, there, sanitized⟩ := reads here (by decide) (by decide)
    rw [get?_dropOtherFormat_of_ne (by decide), get?_normalizeType_of_ne (by decide) (by decide) (by decide)] at there
    obtain ⟨entries, rfl, strings⟩ := get?_dropOtherEnum_enum (keptByReduction_isSchemaField.constToEnum kept) there
    exact ⟨entries, sanitizeSchema_strings strings sanitized, strings⟩
  · intro value here
    obtain ⟨before, there, sanitized⟩ := reads here (by decide) (by decide)
    obtain ⟨text, known, rfl⟩ := get?_dropOtherFormat_format types there
    exact ⟨text, known, sanitizeSchema_str sanitized⟩

theorem get?_oneOfToAnyOf_properties (fields : Fields) :
    Members.get? (oneOfToAnyOf fields) "properties" = Members.get? fields "properties" := by
  unfold oneOfToAnyOf
  split
  · split
    · rfl
    · rw [Members.get?_put, if_neg (by decide), Members.get?_without, if_neg (by decide)]
  · rfl

theorem get?_normalizeConstAndEnum_properties (fields : Fields) :
    Members.get? (normalizeConstAndEnum fields) "properties" = Members.get? fields "properties" := by
  have const : Members.get? (constToEnum fields) "properties" = Members.get? fields "properties" := by
    unfold constToEnum
    split
    · rfl
    · dsimp only
      split
      · rw [Members.get?_setDefault, if_neg (by decide), Members.get?_setDefault, if_neg (by decide),
          Members.get?_without, if_neg (by decide)]
      · rw [Members.get?_setDefault, if_neg (by decide), Members.get?_without, if_neg (by decide)]
  unfold normalizeConstAndEnum dropOtherEnum
  split
  · split
    · exact const
    · rw [Members.get?_without, if_neg (by decide)]
      exact const
  · exact const

theorem get?_reduced_properties (fields : Fields) :
    Members.get? (reduced fields) "properties" = Members.get? fields "properties" := by
  rw [get?_reduced (by decide), get?_dropOtherFormat_of_ne (by decide),
    get?_normalizeType_of_ne (by decide) (by decide) (by decide), get?_normalizeConstAndEnum_properties,
    get?_oneOfToAnyOf_properties]

theorem propertyNames_sanitizeFields (made : sanitizeFields depth defs seen fields = some outs) :
    propertyNames outs = propertyNames fields := by
  have before := get?_of_inStep (mapM_eq_some.mp made) "properties"
  rw [get?_reduced_properties] at before
  unfold propertyNames
  cases here : Members.get? outs "properties" with
  | none =>
      rw [here] at before
      rw [before]
  | some out =>
      rw [here] at before
      obtain ⟨value, there, sanitized⟩ := before
      rw [there]
      obtain ⟨-, ⟨data, -⟩ | ⟨-, ⟨properties, subs, named, same, inStep⟩ | ⟨notNamed, direct⟩⟩⟩ :=
        sanitizeField_cases sanitized
      · exact absurd (show "properties" ∈ dataKeys from data) (by decide)
      · cases named
        cases same
        dsimp only
        congr 1
        clear sanitized there here
        induction inStep with
        | nil => rfl
        | cons first _ ih => rw [List.map_cons, List.map_cons, first.1, ih]
      · cases out with
        | obj subs =>
            obtain ⟨properties, object⟩ := exists_obj direct
            exact absurd object (notNamed rfl properties)
        | null | bool | int | float | str | arr =>
            cases value with
            | obj properties => exact absurd rfl (notNamed rfl properties)
            | null | bool | int | float | str | arr => rfl

theorem definitionsOf_isSchema {schema : Json} (valid : IsSchema schema) :
    ∀ definition ∈ definitionsOf schema, IsSchema definition.2 := by
  unfold definitionsOf
  split
  · next fields =>
      split
      · next defs here =>
          have field := isSchema_obj.mp valid _ (Members.mem_of_get? here)
          exact field.named (List.mem_cons_of_mem _ List.mem_cons_self) defs rfl
      · exact nofun
  · exact nofun

/-- A list of nodes, with a description beside each reference to the next one. -/
def chain : Json :=
  .obj
    [("$ref", .str "#/$defs/Node"),
      ("$defs", .obj
        [("Node", .obj
          [("type", .arr [.str "object", .str "null"]),
            ("properties", .obj [("next", .obj [("$ref", .str "#/$defs/Node"), ("description", .str "the rest")])])])])]

theorem chain_isSchema : IsSchema chain := by
  have ref (target : String) : IsSchemaField ("$ref", .str target) := isSchemaField_of_notMem (by simp)
  have next : IsSchema (.obj [("$ref", .str "#/$defs/Node"), ("description", .str "the rest")]) :=
    isSchema_cons (ref _) (isSchema_cons (isSchemaField_of_notMem (by simp)) isSchema_empty)
  have types : IsSchemaField ("type", .arr [.str "object", .str "null"]) :=
    ⟨⟨fun _ => .inr ⟨_, rfl, by simp [isString]⟩, by simp, by simp, by simp⟩, by simp, by simp⟩
  have properties : IsSchemaField ("properties", .obj [("next",
      .obj [("$ref", .str "#/$defs/Node"), ("description", .str "the rest")])]) := by
    apply isSchemaField_named (by simp)
    intro sub listed
    rw [List.mem_singleton.mp listed]
    exact next
  apply isSchema_cons (ref _)
  apply isSchema_cons _ isSchema_empty
  apply isSchemaField_named (by simp)
  intro sub listed
  rw [List.mem_singleton.mp listed]
  exact isSchema_cons types (isSchema_cons properties isSchema_empty)

end Results

end Sico.LlmHubs.GeminiSchema

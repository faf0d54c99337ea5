import Sico.Foundation.Json
import Sico.Foundation.Members
import Sico.Foundation.Paths
import Sico.Foundation.Traversal

/-! # Strict schemas

`to_strict_json_schema` rewrites a JSON Schema in place: every node loses its default, is closed and
requires all its properties, references with siblings and wrappers of a single `allOf` are put in place
of themselves, and what strict mode has no support for is refused.

A reference is looked up in the document as it stands at that moment, so a node comes with what the
document is for each value that is put at its place. The rewriting is given a bound on the depth of its
calls, and fails where the bound is too small.
-/

namespace Sico.LlmHubs.StrictSchema

open Foundation

section Conversion

abbrev Fields : Type := List (String × Json)

inductive SchemaError where
  /-- The bound on the depth of the calls is reached. -/
  | recursion
  | unexpectedRef (ref : String)
  | invalidRefPath (ref : String)
  | refNotFound (ref : String)
  | refNotObject (ref : String)
  /-- The single schema of an `allOf` is not an object. -/
  | notMapping
  | rootAnyOf
  | rootNotObject
  | unsupportedKeywords (path : List String) (keywords : List String)

/-- The keywords that strict mode has no support for, in order. -/
def unsupportedStrictSchemaKeywords : List String :=
  ["allOf", "dependentRequired", "dependentSchemas", "else", "if", "not", "then"]

def isText (text : String) : Json → Bool
  | .str value => value = text
  | _ => false

def resolveKeys (ref : String) : Json → List String → Except SchemaError Json
  | resolved, [] => .ok resolved
  | .obj fields, key :: keys =>
      match Members.get? fields key with
      | some value => resolveKeys ref value keys
      | none => .error (.refNotFound ref)
  | _, _ :: _ => .error (.invalidRefPath ref)

def resolveJSONRef (root : Json) (ref : String) : Except SchemaError Fields :=
  if "#/".toList.isPrefixOf ref.toList then do
    match ← resolveKeys ref root (pathParts (String.ofList (ref.toList.drop 2))) with
    | .obj resolved => .ok resolved
    | _ => .error (.refNotObject ref)
  else .error (.unexpectedRef ref)

/-- What a node is where `_inline_ref_if_needed` puts a schema in place of its reference. -/
def inlineRef (root : Json) (node : Fields) : Except SchemaError (Option Fields) :=
  match Members.get? node "$ref" with
  | some (.str ref) =>
      if node.length ≤ 1 then .ok none
      else do
        let resolved ← resolveJSONRef root ref
        return some (Members.without (Members.update node (Members.update resolved node)) "$ref")
  | _ => .ok none

def hasObjectType (node : Fields) : Bool :=
  match Members.get? node "type" with
  | some (.arr types) => types.any (isText "object")
  | some type => isText "object" type
  | none => false

def setObjectSchemaDefaults (node : Fields) : Fields :=
  if hasObjectType node || (Members.get? node "properties").isSome then
    Members.setDefault node "additionalProperties" (.bool false)
  else node

/-- What a node is where `_collapse_single_all_of` puts the single schema of an `allOf` in place of it. -/
def collapseAllOf (node : Fields) : Except SchemaError (Option Fields) :=
  match Members.get? node "allOf" with
  | some (.arr [.obj only]) =>
      .ok (some (Members.without (Members.update node (Members.update only node)) "allOf"))
  | some (.arr [_]) => .error .notMapping
  | _ => .ok none

/-- `_normalize_schema_node` at a smaller depth, for what the document is around a node. -/
abbrev Normalizer : Type := (Json → Json) → Json → Except SchemaError Json

section Children

variable (normalize : Normalizer) {Entry : Type} (read : Entry → Json) (write : Entry → Json → Entry)

/-- The entries behind those that are done, one after the other. -/
def normalizeEach (root : List Entry → Json) : List Entry → List Entry → Except SchemaError (List Entry)
  | done, [] => .ok done
  | done, entry :: rest => do
      let value ← normalize (fun value => root (done ++ write entry value :: rest)) (read entry)
      normalizeEach root (done ++ [write entry value]) rest

def normalizeChildren (root : Json → Json) : Json → Except SchemaError Json
  | .obj fields =>
      (normalizeEach normalize Prod.snd (fun field value => (field.1, value)) (root ∘ .obj) [] fields).map .obj
  | .arr items => (normalizeEach normalize id (fun _ value => value) (root ∘ .arr) [] items).map .arr
  | other => .ok other

/-- The value of a keyword: `items` is a schema, the others hold schemas, and `properties` only as an object. -/
def normalizeValue (key : String) (root : Json → Json) (held : Json) : Except SchemaError Json :=
  if key = "items" then
    match held with
    | .null => .ok .null
    | schema => normalize root schema
  else
    match held with
    | .arr items => if key = "properties" then .ok (.arr items) else normalizeChildren normalize root (.arr items)
    | children => normalizeChildren normalize root children

def normalizeNamedChildren (root : Fields → Json) : List String → Fields → Except SchemaError Fields
  | [], node => .ok node
  | key :: keys, node =>
      match Members.get? node key with
      | some held => do
          let held ← normalizeValue normalize key (fun value => root (Members.put node key value)) held
          normalizeNamedChildren root keys (Members.put node key held)
      | none => normalizeNamedChildren root keys node

def requiredOf (properties : Fields) : Json := .arr (properties.map fun property => .str property.1)

def setRequired (node : Fields) : Fields :=
  match Members.get? node "properties" with
  | some (.obj properties) => Members.put node "required" (requiredOf properties)
  | _ => node

def normalizeProperties (root : Fields → Json) (node : Fields) : Except SchemaError Fields :=
  normalizeNamedChildren normalize root ["properties"] (setRequired node)

end Children

/-- `_normalize_schema_node`, with `_normalize_schema_dict`. -/
def normalizeSchemaNode : ℕ → Normalizer
  | 0, _, _ => .error .recursion
  | depth + 1, root, .obj given => do
      let normalize := normalizeSchemaNode depth
      let node := Members.without given "default"
      match ← inlineRef (root (.obj node)) node with
      | some merged => normalize root (.obj merged)
      | none =>
          let node ← normalizeProperties normalize (root ∘ .obj) (setObjectSchemaDefaults node)
          let node ← normalizeNamedChildren normalize (root ∘ .obj) ["items"] node
          let node ← normalizeNamedChildren normalize (root ∘ .obj) ["$defs", "definitions"] node
          match ← collapseAllOf node with
          | some merged => normalize root (.obj merged)
          | none => (normalizeNamedChildren normalize (root ∘ .obj) ["anyOf", "oneOf", "allOf"] node).map .obj
  | depth + 1, root, .arr items => normalizeChildren (normalizeSchemaNode depth) root (.arr items)
  | _ + 1, _, other => .ok other

/-- The schemas right below a node that `_validate_strict_json_schema` goes on with, with their paths. -/
def validatedBelow (path : List String) (node : Fields) : List (List String × Json) :=
  (["properties", "$defs", "definitions"].flatMap fun key =>
    match Members.get? node key with
    | some (.obj children) => children.map fun child => (path ++ [key, child.1], child.2)
    | _ => []) ++
  (match Members.get? node "items" with
    | some (.obj items) => [(path ++ ["items"], .obj items)]
    | _ => []) ++
  ["anyOf", "oneOf"].flatMap fun key =>
    match Members.get? node key with
    | some (.arr variants) => variants.zipIdx.map fun variant => (path ++ [key, toString variant.2], variant.1)
    | _ => []

def validateStrictJSONSchema : ℕ → List String → Json → Except SchemaError Unit
  | 0, _, _ => .error .recursion
  | depth + 1, path, .obj node => do
      refuseIf (path = [] ∧ (Members.get? node "anyOf").isSome = true) .rootAnyOf
      refuseIf (path = [] ∧ (Members.get? node "type").any (isText "object") = false) .rootNotObject
      let unsupported := unsupportedStrictSchemaKeywords.filter fun key => (Members.get? node key).isSome
      refuseIf (unsupported ≠ []) (.unsupportedKeywords path unsupported)
      (validatedBelow path node).forM fun below => validateStrictJSONSchema depth below.1 below.2
  | _ + 1, _, _ => .ok ()

def toStrictJSONSchema (depth : ℕ) (schema : Fields) : Except SchemaError Json := do
  let normalized ← normalizeSchemaNode depth id (.obj schema)
  validateStrictJSONSchema depth [] normalized
  return normalized

end Conversion

section Positions

/-- The keywords whose values are schemas or hold schemas. -/
def nodeKeys : List String := ["properties", "items", "$defs", "definitions", "anyOf", "oneOf", "allOf"]

def valuesOf : Json → List Json
  | .obj fields => fields.map Prod.snd
  | .arr items => items
  | _ => []

/-- The schemas that the value of a keyword holds. -/
def schemasOf (key : String) (held : Json) : List Json :=
  if key = "items" then
    match held with
    | .null => []
    | schema => [schema]
  else
    match held with
    | .arr items => if key = "properties" then [] else items
    | children => valuesOf children

def schemasAt (node : Fields) (key : String) : List Json := (Members.get? node key).elim [] (schemasOf key)

def schemasBelow : Json → List Json
  | .obj node => nodeKeys.flatMap (schemasAt node)
  | .arr items => items
  | _ => []

/-- The places of a document that hold a schema, however deep. -/
inductive Position (document : Json) : Json → Prop where
  | top : Position document document
  | child {schema child : Json} (at_ : Position document schema) (listed : child ∈ schemasBelow schema) :
      Position document child

/-- The places that the validation gets to, by their paths. -/
inductive Validated (document : Json) : List String → Json → Prop where
  | top : Validated document [] document
  | child {path path' : List String} {node : Fields} {child : Json} (at_ : Validated document path (.obj node))
      (listed : (path', child) ∈ validatedBelow path node) : Validated document path' child

/-- What strict mode asks of a node, and what leaves nothing to be put in place of it. -/
structure Strict (node : Fields) : Prop where
  noDefault : Members.get? node "default" = none
  closed : (hasObjectType node || (Members.get? node "properties").isSome) = true →
    (Members.get? node "additionalProperties").isSome = true
  required : ∀ properties, Members.get? node "properties" = some (.obj properties) →
    Members.get? node "required" = some (requiredOf properties)
  lone : ∀ ref, Members.get? node "$ref" = some (.str ref) → node.length ≤ 1
  plural : ∀ only, Members.get? node "allOf" ≠ some (.arr [only])

end Positions

section Outcomes

variable {normalize : Normalizer} {root : Fields → Json} {keys : List String} {node node' : Fields}

def Outcome (normalize : Normalizer) (value : Json) : Prop := ∃ root old, normalize root old = .ok value

/-- The names of an object and the length of a list. -/
def shapeOf : Json → Json
  | .obj fields => .obj (fields.map fun field => (field.1, .null))
  | .arr items => .arr (items.map fun _ => .null)
  | other => other

/-- The schemas that keywords hold are replaced by outcomes, and nothing else. -/
structure Refilled (normalize : Normalizer) (keys : List String) (node node' : Fields) : Prop where
  names : node'.map Prod.fst = node.map Prod.fst
  others : ∀ name ∉ keys, Members.get? node' name = Members.get? node name
  none_ : ∀ name, Members.get? node' name = none ↔ Members.get? node name = none
  shape : ∀ name ≠ "items", (Members.get? node' name).map shapeOf = (Members.get? node name).map shapeOf
  outcomes : ∀ key ∈ keys, ∀ schema ∈ schemasAt node' key, Outcome normalize schema

theorem schemasAt_congr {key : String} (same : Members.get? node' key = Members.get? node key) :
    schemasAt node' key = schemasAt node key := by
  unfold schemasAt
  rw [same]

theorem Refilled.refl (empty : ∀ key ∈ keys, schemasAt node key = []) : Refilled normalize keys node node where
  names := rfl
  others _ _ := rfl
  none_ _ := Iff.rfl
  shape _ _ := rfl
  outcomes key listed schema inside := by
    rw [empty key listed] at inside
    cases inside

theorem Refilled.trans {keys more : List String} {middle : Fields} (first : Refilled normalize keys node middle)
    (second : Refilled normalize more middle node') (apart : ∀ key ∈ keys, key ∉ more) :
    Refilled normalize (keys ++ more) node node' where
  names := second.names.trans first.names
  others name absent := by
    rw [List.mem_append, not_or] at absent
    rw [second.others name absent.2, first.others name absent.1]
  none_ name := (second.none_ name).trans (first.none_ name)
  shape name other := (second.shape name other).trans (first.shape name other)
  outcomes key listed schema inside := by
    rcases List.mem_append.mp listed with early | late
    · rw [schemasAt_congr (second.others key (apart key early))] at inside
      exact first.outcomes key early schema inside
    · exact second.outcomes key late schema inside

theorem Refilled.put {key : String} {old new : Json} (held : Members.get? node key = some old)
    (shape : key ≠ "items" → shapeOf new = shapeOf old)
    (outcomes : ∀ schema ∈ schemasAt (Members.put node key new) key, Outcome normalize schema) :
    Refilled normalize [key] node (Members.put node key new) where
  names := by
    rw [Members.map_fst_put, if_pos]
    exact List.mem_map_of_mem (Members.mem_of_get? held)
  others name absent := by
    rw [Members.get?_put, if_neg fun same => absent (List.mem_singleton.mpr same.symm)]
  none_ name := by
    rw [Members.get?_put]
    split
    · next same => simp [← same, held]
    · rfl
  shape name other := by
    rw [Members.get?_put]
    split
    · next same =>
        subst same
        rw [held, Option.map_some, Option.map_some, shape other]
    · rfl
  outcomes name listed := by
    rw [List.mem_singleton.mp listed]
    exact outcomes

section Each

variable {Entry : Type} {read : Entry → Json} {write : Entry → Json → Entry} {around : List Entry → Json}

theorem normalizeEach_ok {done entries results : List Entry}
    (normalized : normalizeEach normalize read write around done entries = .ok results) :
    ∃ news, results = done ++ news ∧
      List.Forall₂ (fun entry new => ∃ value, new = write entry value ∧ Outcome normalize value) entries news := by
  induction entries generalizing done with
  | nil => exact ⟨[], by rw [List.append_nil]; exact (Except.ok.inj normalized).symm, .nil⟩
  | cons entry rest ih =>
      obtain ⟨value, here, later⟩ := bind_eq_ok.mp normalized
      obtain ⟨news, rfl, steps⟩ := ih later
      exact ⟨write entry value :: news, List.append_assoc _ _ _, .cons ⟨value, rfl, _, _, here⟩ steps⟩

theorem normalizeEach_fixed {entries : List Entry} (same : ∀ entry, write entry (read entry) = entry)
    (fixed : ∀ entry ∈ entries, ∀ root, normalize root (read entry) = .ok (read entry)) (done : List Entry) :
    normalizeEach normalize read write around done entries = .ok (done ++ entries) := by
  induction entries generalizing done with
  | nil => rw [normalizeEach, List.append_nil]
  | cons entry rest ih =>
      obtain ⟨here, later⟩ := List.forall_mem_cons.mp fixed
      have onward := ih later (done ++ [entry])
      rw [List.append_assoc, List.singleton_append] at onward
      rw [normalizeEach, here, ← onward]
      exact congrArg (fun entry => normalizeEach normalize read write around (done ++ [entry]) rest) (same entry)

end Each

theorem normalizeChildren_ok {around : Json → Json} {children children' : Json}
    (normalized : normalizeChildren normalize around children = .ok children') :
    shapeOf children' = shapeOf children ∧ ∀ value ∈ valuesOf children', Outcome normalize value := by
  cases children with
  | obj fields =>
      obtain ⟨news, each, rfl⟩ := map_eq_ok.mp normalized
      obtain ⟨_, rfl, steps⟩ := normalizeEach_ok each
      refine ⟨congrArg Json.obj ?_, fun value listed => ?_⟩
      · refine (map_eq_of_forall₂ (steps.imp fun field new step => ?_)).symm
        obtain ⟨value, rfl, _⟩ := step
        rfl
      · obtain ⟨new, inside, rfl⟩ := List.mem_map.mp listed
        obtain ⟨field, _, value, rfl, outcome⟩ := exists_left_of_mem steps inside
        exact outcome
  | arr items =>
      obtain ⟨news, each, rfl⟩ := map_eq_ok.mp normalized
      obtain ⟨_, rfl, steps⟩ := normalizeEach_ok each
      refine ⟨congrArg Json.arr (map_eq_of_forall₂ (steps.imp fun _ _ _ => rfl)).symm, fun value listed => ?_⟩
      obtain ⟨item, _, value, rfl, outcome⟩ := exists_left_of_mem steps listed
      exact outcome
  | _ =>
      cases normalized
      exact ⟨rfl, fun _ listed => by cases listed⟩

theorem normalizeChildren_fixed {around : Json → Json} {children : Json}
    (fixed : ∀ value ∈ valuesOf children, ∀ root, normalize root value = .ok value) :
    normalizeChildren normalize around children = .ok children := by
  cases children with
  | obj fields =>
      refine map_eq_ok.mpr ⟨fields, normalizeEach_fixed (fun _ => rfl) (fun field listed => ?_) [], rfl⟩
      exact fixed _ (List.mem_map_of_mem listed)
  | arr items =>
      exact map_eq_ok.mpr ⟨items, normalizeEach_fixed (fun _ => rfl) (fun item listed => fixed item listed) [], rfl⟩
  | _ => rfl

theorem normalizeValue_ok {key : String} {around : Json → Json} {held held' : Json}
    (normalized : normalizeValue normalize key around held = .ok held') :
    (key ≠ "items" → shapeOf held' = shapeOf held) ∧ ∀ schema ∈ schemasOf key held', Outcome normalize schema := by
  unfold normalizeValue at normalized
  unfold schemasOf
  split at normalized
  · next items =>
      refine ⟨absurd items, fun schema listed => ?_⟩
      rw [if_pos items] at listed
      split at normalized
      · cases normalized
        cases listed
      · split at listed
        · cases listed
        · rw [List.mem_singleton.mp listed]
          exact ⟨_, _, normalized⟩
  · next other =>
      rw [if_neg other]
      split at normalized
      · split at normalized
        · next properties =>
            cases normalized
            exact ⟨fun _ => rfl, by simp [properties]⟩
        · next items properties =>
            obtain ⟨shape, outcomes⟩ := normalizeChildren_ok normalized
            cases held' with
            | arr items' => exact ⟨fun _ => shape, by simpa only [properties, if_false, valuesOf] using outcomes⟩
            | _ => cases shape
      · next noList =>
          obtain ⟨shape, outcomes⟩ := normalizeChildren_ok normalized
          cases held' with
          | arr items' => cases held <;> first | cases shape | exact absurd rfl (noList _)
          | _ => exact ⟨fun _ => shape, outcomes⟩

theorem normalizeValue_fixed {key : String} {around : Json → Json} {held : Json}
    (fixed : ∀ schema ∈ schemasOf key held, ∀ root, normalize root schema = .ok schema) :
    normalizeValue normalize key around held = .ok held := by
  unfold schemasOf at fixed
  unfold normalizeValue
  split
  · next items =>
      rw [if_pos items] at fixed
      split
      · rfl
      · next other => exact fixed held (by cases held <;> first | exact absurd rfl other | exact List.mem_singleton_self _) _
  · next other =>
      rw [if_neg other] at fixed
      split
      · split
        · rfl
        · next properties => exact normalizeChildren_fixed (by simpa only [properties, if_false, valuesOf] using fixed)
      · next noList =>
          cases held with
          | arr items => exact absurd rfl (noList items)
          | _ => exact normalizeChildren_fixed fixed

theorem schemasAt_some {key : String} {held : Json} (here : Members.get? node key = some held) :
    schemasAt node key = schemasOf key held := by
  rw [schemasAt, here]
  rfl

theorem schemasAt_none {key : String} (absent : Members.get? node key = none) : schemasAt node key = [] := by
  rw [schemasAt, absent]
  rfl

theorem normalizeNamedChildren_ok (apart : keys.Nodup)
    (normalized : normalizeNamedChildren normalize root keys node = .ok node') : Refilled normalize keys node node' := by
  induction keys generalizing node with
  | nil =>
      cases normalized
      exact .refl fun _ listed => by cases listed
  | cons key keys ih =>
      obtain ⟨new, apart⟩ := List.nodup_cons.mp apart
      have away : ∀ name ∈ [key], name ∉ keys := fun name listed => List.mem_singleton.mp listed ▸ new
      rw [normalizeNamedChildren] at normalized
      split at normalized
      · next held here =>
          obtain ⟨held', done, later⟩ := bind_eq_ok.mp normalized
          obtain ⟨shape, outcomes⟩ := normalizeValue_ok done
          refine (Refilled.put here shape fun schema listed => ?_).trans (ih apart later) away
          rw [schemasAt_some (by rw [Members.get?_put, if_pos rfl])] at listed
          exact outcomes schema listed
      · next absent =>
          refine (Refilled.refl fun name listed => ?_).trans (ih apart normalized) away
          rw [List.mem_singleton.mp listed]
          exact schemasAt_none absent

theorem normalizeNamedChildren_fixed
    (fixed : ∀ key ∈ keys, ∀ schema ∈ schemasAt node key, ∀ root, normalize root schema = .ok schema) :
    normalizeNamedChildren normalize root keys node = .ok node := by
  induction keys with
  | nil => rfl
  | cons key keys ih =>
      obtain ⟨here, later⟩ := List.forall_mem_cons.mp fixed
      rw [normalizeNamedChildren]
      split
      · next held there =>
          rw [schemasAt_some there] at here
          refine bind_eq_ok.mpr ⟨held, normalizeValue_fixed here, ?_⟩
          rw [Members.put_get? there]
          exact ih later
      · exact ih later

end Outcomes

section Settling

variable {depth : ℕ} {node node' : Fields} {root : Json → Json} {given value : Json}

/-- A node that is not inlined has no reference, or nothing else. -/
theorem inlineRef_none {document : Json} (inlined : inlineRef document node = .ok none) {ref : String}
    (here : Members.get? node "$ref" = some (.str ref)) : node.length ≤ 1 := by
  rw [inlineRef, here] at inlined
  dsimp only at inlined
  split at inlined
  · assumption
  · obtain ⟨resolved, _, same⟩ := bind_eq_ok.mp inlined
    cases same

theorem collapseAllOf_none (collapsed : collapseAllOf node = .ok none) (only : Json) :
    Members.get? node "allOf" ≠ some (.arr [only]) := by
  intro here
  rw [collapseAllOf, here] at collapsed
  cases only <;> cases collapsed

theorem get?_of_lone (lone : node.length ≤ 1) {name other : String} (here : Members.get? node name = some value)
    (different : other ≠ name) : Members.get? node other = none := by
  match node, lone with
  | [], _ => rfl
  | [member], _ =>
      rw [Members.get?_cons] at here ⊢
      split at here
      · next same =>
          rw [if_neg fun equal => different (equal.symm.trans same)]
          rfl
      · cases here

theorem get?_setObjectSchemaDefaults {name : String} (other : name ≠ "additionalProperties") :
    Members.get? (setObjectSchemaDefaults node) name = Members.get? node name := by
  unfold setObjectSchemaDefaults
  split
  · rw [Members.get?_setDefault, if_neg (Ne.symm other)]
  · rfl

theorem hasObjectType_congr (same : Members.get? node' "type" = Members.get? node "type") :
    hasObjectType node' = hasObjectType node := by
  unfold hasObjectType
  rw [same]

/-- What is left of a node that is put in place of nothing, with the schemas below it normalized. -/
theorem strict_of_refilled {normalize : Normalizer} {document : Json} {filled : Fields}
    (noDefault : Members.get? node "default" = none) (inlined : inlineRef document node = .ok none)
    (refilled : Refilled normalize nodeKeys (setRequired (setObjectSchemaDefaults node)) filled)
    (plural : ∀ only, Members.get? filled "allOf" ≠ some (.arr [only])) : Strict filled := by
  have kept {name : String} (other : name ≠ "required") (other' : name ≠ "additionalProperties") :
      Members.get? (setRequired (setObjectSchemaDefaults node)) name = Members.get? node name := by
    refine Eq.trans ?_ (get?_setObjectSchemaDefaults other')
    unfold setRequired
    split
    · rw [Members.get?_put, if_neg (Ne.symm other)]
    · rfl
  refine ⟨?_, fun object => ?_, fun properties held => ?_, fun ref held => ?_, plural⟩
  · rw [refilled.others _ (by decide), kept (by decide) (by decide)]
    exact noDefault
  · have object' : (hasObjectType node || (Members.get? node "properties").isSome) = true := by
      have typed : hasObjectType filled = hasObjectType node :=
        hasObjectType_congr ((refilled.others _ (by decide)).trans (kept (by decide) (by decide)))
      have there : (Members.get? filled "properties").isSome = (Members.get? node "properties").isSome := by
        rw [Bool.eq_iff_iff, Option.isSome_iff_ne_none, Option.isSome_iff_ne_none, ne_eq, ne_eq, refilled.none_,
          kept (by decide) (by decide)]
      rw [← typed, ← there]
      exact object
    rw [refilled.others _ (by decide), setRequired, setObjectSchemaDefaults, if_pos object']
    split
    · rw [Members.get?_put, if_neg (by decide), Members.get?_setDefault, if_pos rfl]
      rfl
    · rw [Members.get?_setDefault, if_pos rfl]
      rfl
  · have shape := refilled.shape "properties" (by decide)
    rw [held, Option.map_some, kept (by decide) (by decide),
      ← @get?_setObjectSchemaDefaults node _ (by decide)] at shape
    obtain ⟨old, before, same⟩ := Option.map_eq_some_iff.mp shape.symm
    rw [refilled.others _ (by decide), setRequired, before]
    cases old with
    | obj properties' =>
        have names := congrArg (List.map fun field => Json.str field.1) (Json.obj.inj same)
        rw [List.map_map, List.map_map] at names
        dsimp only
        rw [Members.get?_put, if_pos rfl]
        exact congrArg (fun names => some (Json.arr names)) names
    | _ => cases same
  · rw [refilled.others _ (by decide), kept (by decide) (by decide)] at held
    have short := inlineRef_none inlined held
    have untouched : setRequired (setObjectSchemaDefaults node) = node := by
      have typeless := get?_of_lone short held (show "type" ≠ "$ref" by decide)
      have bare := get?_of_lone short held (show "properties" ≠ "$ref" by decide)
      rw [setObjectSchemaDefaults, if_neg (by rw [hasObjectType, typeless, bare]; exact Bool.false_ne_true), setRequired,
        bare]
    rw [← List.length_map Prod.fst, refilled.names, List.length_map, untouched]
    exact short

/-- What a normalization comes to: nodes as strict mode asks, over schemas that are normalized as well. -/
structure Settled (depth : ℕ) (value : Json) : Prop where
  strict : ∀ node, value = .obj node → Strict node
  onward : ∃ smaller < depth, ∀ schema ∈ schemasBelow value, Outcome (normalizeSchemaNode smaller) schema

theorem Settled.mono {more : ℕ} (settled : Settled depth value) (le : depth ≤ more) : Settled more value where
  strict := settled.strict
  onward := settled.onward.imp fun _ known => ⟨known.1.trans_le le, known.2⟩

/-- An object is normalized with something else in its place, or it stays and is strict. -/
theorem normalize_obj {given : Fields} (normalized : normalizeSchemaNode (depth + 1) root (.obj given) = .ok value) :
    (∃ merged, normalizeSchemaNode depth root (.obj merged) = .ok value) ∨
      ∃ filled, value = .obj filled ∧ Strict filled ∧
        ∀ schema ∈ schemasBelow value, Outcome (normalizeSchemaNode depth) schema := by
  rw [normalizeSchemaNode] at normalized
  obtain ⟨inlined, inline, normalized⟩ := bind_eq_ok.mp normalized
  cases inlined with
  | some merged => exact .inl ⟨merged, normalized⟩
  | none =>
      obtain ⟨first, properties, normalized⟩ := bind_eq_ok.mp normalized
      obtain ⟨second, items, normalized⟩ := bind_eq_ok.mp normalized
      obtain ⟨third, named, normalized⟩ := bind_eq_ok.mp normalized
      obtain ⟨collapsed, collapse, normalized⟩ := bind_eq_ok.mp normalized
      cases collapsed with
      | some merged => exact .inl ⟨merged, normalized⟩
      | none =>
          obtain ⟨filled, variants, rfl⟩ := map_eq_ok.mp normalized
          have last := normalizeNamedChildren_ok (by decide) variants
          have refilled := (((normalizeNamedChildren_ok (by decide) properties).trans
            (normalizeNamedChildren_ok (by decide) items) (by decide)).trans
            (normalizeNamedChildren_ok (by decide) named) (by decide)).trans last (by decide)
          refine .inr ⟨filled, rfl, strict_of_refilled ?_ inline refilled fun only held => ?_, fun schema listed => ?_⟩
          · rw [Members.get?_without, if_pos rfl]
          · have shape := last.shape "allOf" (by decide)
            rw [held, Option.map_some] at shape
            obtain ⟨old, before, same⟩ := Option.map_eq_some_iff.mp shape.symm
            cases old with
            | arr items =>
                match items, same with
                | [only'], _ => exact collapseAllOf_none collapse only' before
            | _ => cases same
          · obtain ⟨key, known, inside⟩ := List.mem_flatMap.mp listed
            exact refilled.outcomes key known schema inside

theorem settled_of_ok (normalized : normalizeSchemaNode depth root given = .ok value) : Settled depth value := by
  induction depth generalizing root given with
  | zero => cases normalized
  | succ depth ih =>
      have less := Nat.lt_succ_self depth
      cases given with
      | obj given =>
          rcases normalize_obj normalized with ⟨merged, onward⟩ | ⟨filled, rfl, strict, outcomes⟩
          · exact (ih onward).mono less.le
          · exact ⟨fun node same => Json.obj.inj same ▸ strict, depth, less, outcomes⟩
      | arr items =>
          rw [normalizeSchemaNode] at normalized
          obtain ⟨shape, outcomes⟩ := normalizeChildren_ok normalized
          cases value with
          | arr items' => exact ⟨fun node same => (by cases same), depth, less, outcomes⟩
          | _ => cases shape
      | _ =>
          cases normalized
          exact ⟨fun node same => (by cases same), depth, less, fun schema listed => (by cases listed)⟩

theorem fixed_of_strict (strict : Strict node) {more : ℕ}
    (below : ∀ schema ∈ schemasBelow (.obj node), ∀ root, normalizeSchemaNode more root schema = .ok schema)
    (root : Json → Json) : normalizeSchemaNode (more + 1) root (.obj node) = .ok (.obj node) := by
  have named {keys : List String} (known : ∀ key ∈ keys, key ∈ nodeKeys) (around : Fields → Json) :
      normalizeNamedChildren (normalizeSchemaNode more) around keys node = .ok node :=
    normalizeNamedChildren_fixed fun key listed schema inside =>
      below schema (List.mem_flatMap.mpr ⟨key, known key listed, inside⟩)
  have required : setRequired node = node := by
    unfold setRequired
    split
    · next properties here => exact Members.put_get? (strict.required properties here)
    · rfl
  have inlined (document : Json) : inlineRef document node = .ok none := by
    unfold inlineRef
    split
    · next ref here => rw [if_pos (strict.lone ref here)]
    · rfl
  have closed : setObjectSchemaDefaults node = node := by
    unfold setObjectSchemaDefaults
    split
    · next object => rw [Members.setDefault, if_pos (strict.closed object)]
    · rfl
  have collapsed : collapseAllOf node = .ok none := by
    unfold collapseAllOf
    split
    · next only here => exact absurd here (strict.plural _)
    · next only _ here => exact absurd here (strict.plural _)
    · rfl
  rw [normalizeSchemaNode, Members.without_eq_self strict.noDefault, closed, normalizeProperties, required]
  refine bind_eq_ok.mpr ⟨none, inlined _, bind_eq_ok.mpr ⟨node, named (by decide) _, bind_eq_ok.mpr ⟨node,
    named (by decide) _, bind_eq_ok.mpr ⟨node, named (by decide) _, bind_eq_ok.mpr ⟨none, collapsed, ?_⟩⟩⟩⟩⟩
  exact map_eq_ok.mpr ⟨node, named (by decide) _, rfl⟩

/-- What a normalization comes to is left as it is by another. -/
theorem fixed_of_ok (normalized : normalizeSchemaNode depth root given = .ok value) {more : ℕ} (enough : depth ≤ more)
    (root' : Json → Json) : normalizeSchemaNode more root' value = .ok value := by
  induction depth using Nat.strong_induction_on generalizing root given value more root' with
  | h depth ih =>
      have settled := settled_of_ok normalized
      obtain ⟨smaller, less, outcomes⟩ := settled.onward
      obtain ⟨more, rfl⟩ : ∃ fewer, more = fewer + 1 := ⟨more - 1, by omega⟩
      have below : ∀ schema ∈ schemasBelow value, ∀ root, normalizeSchemaNode more root schema = .ok schema := by
        intro schema listed root
        obtain ⟨around, old, done⟩ := outcomes schema listed
        exact ih smaller less done (by omega) root
      cases value with
      | obj node => exact fixed_of_strict (settled.strict node rfl) below root'
      | arr items => exact normalizeChildren_fixed below
      | _ => rfl

theorem strict_of_position {document : Json} (normalized : normalizeSchemaNode depth root given = .ok document)
    {schema : Json} (at_ : Position document schema) : ∃ depth, Settled depth schema := by
  have outcome : ∃ depth, Outcome (normalizeSchemaNode depth) schema := by
    induction at_ with
    | top => exact ⟨depth, root, given, normalized⟩
    | child _ listed ih =>
        obtain ⟨_, _, _, done⟩ := ih
        obtain ⟨smaller, _, outcomes⟩ := (settled_of_ok done).onward
        exact ⟨smaller, outcomes _ listed⟩
  obtain ⟨depth, _, _, done⟩ := outcome
  exact ⟨depth, settled_of_ok done⟩

end Settling

section Results

variable {depth : ℕ} {schema : Fields} {document : Json}

theorem ok_of_forM {Error Value : Type} {step : Value → Except Error Unit} {values : List Value}
    (done : values.forM step = .ok ()) : ∀ value ∈ values, step value = .ok () := by
  induction values with
  | nil => exact fun _ listed => by cases listed
  | cons value rest ih =>
      obtain ⟨_, here, later⟩ := bind_eq_ok.mp done
      exact List.forall_mem_cons.mpr ⟨here, ih later⟩

theorem supported_of_validated (valid : validateStrictJSONSchema depth [] document = .ok ()) {path : List String}
    {value : Json} (at_ : Validated document path value) :
    ∃ depth, validateStrictJSONSchema depth path value = .ok () := by
  induction at_ with
  | top => exact ⟨depth, valid⟩
  | child _ listed ih =>
      obtain ⟨depth, done⟩ := ih
      cases depth with
      | zero => cases done
      | succ depth =>
          rw [validateStrictJSONSchema] at done
          obtain ⟨_, _, done⟩ := bind_eq_ok.mp done
          obtain ⟨_, _, done⟩ := bind_eq_ok.mp done
          obtain ⟨_, _, done⟩ := bind_eq_ok.mp done
          exact ⟨depth, ok_of_forM done _ listed⟩

theorem unsupported_of_valid {path : List String} {node : Fields}
    (valid : validateStrictJSONSchema depth path (.obj node) = .ok ()) :
    ∀ key ∈ unsupportedStrictSchemaKeywords, Members.get? node key = none := by
  cases depth with
  | zero => cases valid
  | succ depth =>
      rw [validateStrictJSONSchema] at valid
      obtain ⟨_, _, valid⟩ := bind_eq_ok.mp valid
      obtain ⟨_, _, valid⟩ := bind_eq_ok.mp valid
      obtain ⟨_, supported, _⟩ := bind_eq_ok.mp valid
      have none_ := not_not.mp (refuseIf_eq_ok.mp supported)
      intro key listed
      have absent := List.filter_eq_nil_iff.mp none_ key listed
      exact Option.not_isSome_iff_eq_none.mp absent

theorem obj_of_ok {root : Json → Json} {given : Fields}
    (normalized : normalizeSchemaNode depth root (.obj given) = .ok document) : ∃ node, document = .obj node := by
  induction depth generalizing given with
  | zero => cases normalized
  | succ depth ih =>
      rcases normalize_obj normalized with ⟨merged, onward⟩ | ⟨filled, same, _⟩
      · exact ih onward
      · exact ⟨filled, same⟩

/-- **A converted schema is strict everywhere.** At every place of it that holds a schema there is no default, an object
is closed and requires all its properties, and no reference stands beside other keywords; where the validation gets to,
no keyword is left that strict mode has no support for. -/
theorem strict_everywhere (converted : toStrictJSONSchema depth schema = .ok document) :
    (∀ value, Position document value → ∀ node, value = .obj node → Strict node) ∧
    ∀ path node, Validated document path (.obj node) →
      ∀ key ∈ unsupportedStrictSchemaKeywords, Members.get? node key = none := by
  obtain ⟨normalized, done, rest⟩ := bind_eq_ok.mp converted
  obtain ⟨_, valid, same⟩ := bind_eq_ok.mp rest
  cases same
  refine ⟨fun value at_ node same => ?_, fun path node at_ => ?_⟩
  · obtain ⟨_, settled⟩ := strict_of_position done at_
    exact settled.strict node same
  · obtain ⟨_, here⟩ := supported_of_validated valid at_
    exact unsupported_of_valid here

/-- **A second conversion changes nothing.** -/
theorem conversion_idempotent (converted : toStrictJSONSchema depth schema = .ok document) :
    ∃ fields, document = .obj fields ∧ toStrictJSONSchema depth fields = .ok document := by
  obtain ⟨normalized, done, rest⟩ := bind_eq_ok.mp converted
  obtain ⟨_, valid, same⟩ := bind_eq_ok.mp rest
  cases same
  obtain ⟨fields, rfl⟩ := obj_of_ok done
  exact ⟨fields, rfl, bind_eq_ok.mpr ⟨_, fixed_of_ok done le_rfl id, bind_eq_ok.mpr ⟨(), valid, rfl⟩⟩⟩

/-- A property with a default and a reference with a title beside it. -/
def titledReference : Fields :=
  [("type", .str "object"),
    ("properties", .obj [("name", .obj [("$ref", .str "#/$defs/Name"), ("title", .str "Name"), ("default", .null)])]),
    ("$defs", .obj [("Name", .obj [("type", .str "string")])])]

def titledDocument : Json :=
  .obj [("type", .str "object"),
    ("properties", .obj [("name", .obj [("title", .str "Name"), ("type", .str "string")])]),
    ("$defs", .obj [("Name", .obj [("type", .str "string")])]), ("additionalProperties", .bool false),
    ("required", .arr [.str "name"])]

theorem convert_titledReference : toStrictJSONSchema 4 titledReference = .ok titledDocument := rfl

theorem titledReference_strict :
    Strict [("title", .str "Name"), ("type", .str "string")] ∧
      ∀ path node, Validated titledDocument path (.obj node) →
        ∀ key ∈ unsupportedStrictSchemaKeywords, Members.get? node key = none := by
  obtain ⟨strict, supported⟩ := strict_everywhere convert_titledReference
  exact ⟨strict _ (.child .top (List.mem_of_elem_eq_true rfl)) _ rfl, supported⟩

theorem titledReference_idempotent :
    ∃ fields, titledDocument = .obj fields ∧ toStrictJSONSchema 4 fields = .ok titledDocument :=
  conversion_idempotent convert_titledReference

end Results

end Sico.LlmHubs.StrictSchema

import Sico.Foundation.Json
import Sico.Foundation.Members

/-! # Schemas for Gemini

How the adapter rewrites a JSON Schema into the subset that Gemini accepts. An object is rewritten at
its head as long as it is a reference, a wrapper of a single `allOf` or an optional, and then it is
reduced to the keywords that are allowed, with the values below it rewritten in turn.

The rewriting is given a bound on the depth of its calls, and it has no result where the bound is too
small. Definitions that are not an object are read as none.
-/

namespace Sico.LlmHubs.GeminiSchema

open Foundation

/-- The members of a schema that is an object, or the definitions by their names. -/
abbrev Fields : Type := List (String × Json)

def allowedKeys : List String :=
  ["type", "format", "title", "description", "nullable", "default", "enum",
    "items", "minItems", "maxItems",
    "properties", "required", "propertyOrdering", "minProperties", "maxProperties",
    "minimum", "maximum", "minLength", "maxLength", "pattern", "anyOf", "example"]

def allowedFormats : List String := ["date-time", "int32", "int64", "float", "double"]

def dataKeys : List String := ["default", "example"]

def definitionPrefix : String := "#/$defs/"

def resolveRef (ref : String) (defs : Fields) : Option Fields :=
  if definitionPrefix.toList.isPrefixOf ref.toList then
    match Members.get? defs (String.ofList (ref.toList.drop definitionPrefix.length)) with
    | some (.obj target) => some target
    | _ => none
  else none

def isText (text : String) : Json → Bool
  | .str value => value = text
  | _ => false

def isNullBranch : Json → Bool
  | .obj branch => (Members.get? branch "type").any (isText "null")
  | _ => false

def normalizeOptional (schema : Fields) : Option Fields :=
  match Members.get? schema "anyOf" with
  | some (.arr anyOf) =>
      let nonNull := anyOf.filter fun branch => !isNullBranch branch
      if nonNull.length = anyOf.length then none
      else
        let rest := Members.without schema "anyOf"
        match nonNull with
        | [] => some (Members.put rest "type" (.str "null"))
        | [.obj only] => some (Members.put (Members.update only rest) "nullable" (.bool true))
        | _ => some (Members.put (Members.put rest "anyOf" (.arr nonNull)) "nullable" (.bool true))
  | _ => none

def jsonTypeOf : Json → Option String
  | .null => some "null"
  | .bool _ => some "boolean"
  | .int _ => some "integer"
  | .float _ => some "number"
  | .str _ => some "string"
  | .arr _ | .obj _ => none

def isString : Json → Bool
  | .str _ => true
  | _ => false

def constToEnum (reduced : Fields) : Fields :=
  match Members.get? reduced "const" with
  | none => reduced
  | some value =>
      let popped := Members.setDefault (Members.without reduced "const") "enum" (.arr [value])
      match jsonTypeOf value with
      | some inferred => Members.setDefault popped "type" (.str inferred)
      | none => popped

def dropOtherEnum (reduced : Fields) : Fields :=
  match Members.get? reduced "enum" with
  | some (.arr entries) => if entries.all isString then reduced else Members.without reduced "enum"
  | _ => reduced

def normalizeConstAndEnum (reduced : Fields) : Fields := dropOtherEnum (constToEnum reduced)

/-- The types but for null as one type, or as a branch for each. -/
def collapseTypes (reduced : Fields) : List Json → Fields
  | [] => Members.put reduced "type" (.str "null")
  | [single] => Members.put reduced "type" single
  | nonNull =>
      Members.setDefault (Members.without reduced "type") "anyOf"
        (.arr (nonNull.map fun entry => .obj [("type", entry)]))

def normalizeType (reduced : Fields) : Fields :=
  match Members.get? reduced "type" with
  | some (.arr types) =>
      let nonNull := types.filter fun entry => !isText "null" entry
      let collapsed := collapseTypes reduced nonNull
      if nonNull.isEmpty = false ∧ types.any (isText "null") = true then Members.put collapsed "nullable" (.bool true)
      else collapsed
  | _ => reduced

def dropOtherFormat (reduced : Fields) : Fields :=
  match Members.get? reduced "format" with
  | some (.str format) => if format ∈ allowedFormats then reduced else Members.without reduced "format"
  | _ => reduced

def reduceToGeminiFields (schema : Fields) : Fields :=
  (dropOtherFormat (normalizeType (normalizeConstAndEnum schema))).filter fun field => field.1 ∈ allowedKeys

/-- `oneOf` as `anyOf`, unless there is an `anyOf`. -/
def oneOfToAnyOf (schema : Fields) : Fields :=
  match Members.get? schema "oneOf" with
  | some (.arr oneOf) =>
      if (Members.get? schema "anyOf").isSome then schema
      else Members.put (Members.without schema "oneOf") "anyOf" (.arr oneOf)
  | _ => schema

/-- The schema that an object is rewritten to at its head, with the references seen, if it is. -/
def rewriteHead (defs : Fields) (seen : List String) (schema : Fields) : Option (Fields × List String) :=
  match Members.get? schema "$ref" with
  | some (.str ref) =>
      let siblings := Members.without schema "$ref"
      match resolveRef ref defs with
      | some target =>
          if ref ∈ seen then some (Members.update [("type", .str "object")] siblings, seen)
          else some (Members.update target siblings, ref :: seen)
      | none => some (Members.update [("type", .str "object")] siblings, seen)
  | _ =>
      match Members.get? schema "allOf" with
      | some (.arr [.obj only]) => some (Members.update only (Members.without schema "allOf"), seen)
      | _ => (normalizeOptional (oneOfToAnyOf schema)).map fun optional => (optional, seen)

/-- What an object is reduced to that is not rewritten at its head. -/
def reduced (schema : Fields) : Fields := reduceToGeminiFields (oneOfToAnyOf schema)

def definitionsOf : Json → Fields
  | .obj schema =>
      match Members.get? schema "$defs" with
      | some (.obj defs) => defs
      | _ => []
  | _ => []

/-- One field of a reduced schema, with what is below it rewritten. -/
def sanitizeField (sanitize : Json → Option Json) (field : String × Json) : Option (String × Json) :=
  if field.1 ∈ dataKeys then some field
  else
    match field.1, field.2 with
    | "properties", .obj properties =>
        (properties.mapM fun property => (sanitize property.2).map fun sub => (property.1, sub)).map fun subs =>
          ("properties", .obj subs)
    | key, value => (sanitize value).map fun sub => (key, sub)

/-- `_sanitize_schema`. Without definitions it takes those of the schema. -/
def sanitizeSchema : ℕ → Json → Option Fields → List String → Option Json
  | 0, _, _, _ => none
  | depth + 1, schema, given, seen =>
      let defs := given.getD (definitionsOf schema)
      match schema with
      | .arr items => (items.mapM fun item => sanitizeSchema depth item (some defs) seen).map .arr
      | .obj fields =>
          match rewriteHead defs seen fields with
          | some (merged, seen) => sanitizeSchema depth (.obj merged) (some defs) seen
          | none =>
              ((reduced fields).mapM (sanitizeField fun value => sanitizeSchema depth value (some defs) seen)).map .obj
      | other => some other

end Sico.LlmHubs.GeminiSchema

import Mathlib.Data.List.AList
import Sico.Foundation.Json

/-! # Run payloads as untyped maps

The store keeps a run as a row of columns beside the JSON document the runtime
sent. Between the two it works on an untyped map in which values decoded from
the document sit next to Go values put there by the code, and the readers
dispatch on the dynamic type of what they find. A reader that has no case for a
type reads it as zero.
-/

namespace Sico.TaskRuntime

open Foundation

/-- Why an operation of the store fails. -/
inductive StoreError where
  /-- A document is empty. -/
  | required (label : String)
  /-- A document does not decode. -/
  | decode (label : String)
  /-- A mandatory field is missing or a value is refused. -/
  | invalid (message : String)
  /-- The `ErrStaleToken` sentinel with its message. -/
  | staleToken (message : String)
  /-- The `ErrDuplicate` sentinel. -/
  | duplicate
  /-- No row matches. -/
  | notFound
  /-- A write to the nil map that the document `null` decodes to. -/
  | nilMap
  /-- The database refuses the text for a `json` column. -/
  | invalidColumn (column : String)
  deriving Repr, DecidableEq

/-- A dynamically typed Go value of a payload map: what decoding a document with
`UseNumber` yields, and the types the code itself puts into the map. -/
inductive GoValue where
  /-- A nil interface. -/
  | nil
  | bool (value : Bool)
  /-- A `json.Number` whose text is an integer. -/
  | number (value : ℤ)
  /-- A `json.Number` with any other text. -/
  | decimal (literal : String)
  | string (value : String)
  /-- A `[]any` or `map[string]any` decoded from a document. -/
  | composite (value : Json)
  | int32 (value : Int32)
  | int64 (value : ℤ)
  /-- A `*int64`, which is a non-nil interface even when the pointer is nil. -/
  | int64Ptr (value : Option ℤ)
  /-- A `map[string]int`. -/
  | counts (value : List (String × ℕ))
  deriving Repr, Inhabited

/-- The dynamic value a document decodes to. -/
def GoValue.ofJson : Json → GoValue
  | .null => .nil
  | .bool value => .bool value
  | .int value => .number value
  | .float literal => .decimal literal
  | .str value => .string value
  | .arr items => .composite (.arr items)
  | .obj members => .composite (.obj members)

def GoValue.toJson : GoValue → Json
  | .nil => .null
  | .bool value => .bool value
  | .number value => .int value
  | .decimal literal => .float literal
  | .string value => .str value
  | .composite value => value
  | .int32 value => .int value.toInt
  | .int64 value => .int value
  | .int64Ptr none => .null
  | .int64Ptr (some value) => .int value
  | .counts value => .obj (value.map fun entry => (entry.1, .int entry.2))

abbrev JsonMap := AList fun _ : String => GoValue

def putValue (payload : JsonMap) (key : String) (value : GoValue) : JsonMap :=
  payload.insert key value

/-- The map a document's members decode to; a later member of a name replaces an
earlier one. -/
def membersMap (members : List (String × Json)) : JsonMap :=
  members.foldl (fun payload member => putValue payload member.1 (.ofJson member.2)) ∅

/-- `decodeJSONValue` into a structure, by what the members of an object decode to. A
member that does not fit its field fails the whole call. -/
def decodeJSONValue {Value : Type} (zero : Value)
    (fields : List (String × Json) → Option Value) (payload : RawJson) (label : String) :
    Except StoreError Value :=
  match payload with
  | .blank => .error (.required label)
  | .malformed => .error (.decode label)
  | .doc (.obj members) _ =>
      match fields members with
      | some value => .ok value
      | none => .error (.decode label)
  | .doc .null _ => .ok zero
  | .doc _ _ => .error (.decode label)

/-- `decodeJSONMap`. The document `null` decodes to a nil map, and every caller
writes to the map it gets. -/
def decodeJSONMap (payload : RawJson) (label : String) : Except StoreError JsonMap :=
  match payload with
  | .blank => .error (.required label)
  | .malformed => .error (.decode label)
  | .doc (.obj members) _ => .ok (membersMap members)
  | .doc .null _ => .error .nilMap
  | .doc _ _ => .error (.decode label)

/-- `marshalJSON` of a payload map. -/
def marshalJSON (payload : JsonMap) : Json :=
  .obj (payload.entries.map fun entry => (entry.1, entry.2.toJson))

/-- `strconv.ParseInt` in base ten, with the value it returns beside an error:
zero for a syntax error, the nearest bound for a range error. -/
def parseInt64 (text : String) : ℤ :=
  (decimalValue text).elim 0 (clampSigned 63)

/-- `anyToInt64`: the cases the switch has, and zero for every other type. The
`*int64` and `int32` that `canonicalizeRunPayload` stores have no case. -/
def anyToInt64 : GoValue → ℤ
  | .number value => clampSigned 63 value
  | .int64 value => value
  | .string value => parseInt64 value
  | _ => 0

def getInt64 (payload : JsonMap) (key : String) : ℤ :=
  match payload.lookup key with
  | none | some .nil => 0
  | some value => anyToInt64 value

def getOptionalInt64 (payload : JsonMap) (key : String) : Option ℤ :=
  match payload.lookup key with
  | none | some .nil => none
  | some value => some (anyToInt64 value)

mutual

/-- `fmt.Sprint` of a decoded document. -/
def sprintJson : Json → String
  | .null => "<nil>"
  | .bool value => toString value
  | .int value => toString value
  | .float literal => literal
  | .str value => value
  | .arr items => "[" ++ " ".intercalate (sprintItems items) ++ "]"
  | .obj members => "map[" ++ " ".intercalate ((sprintMembers members).mergeSort) ++ "]"

def sprintItems : List Json → List String
  | [] => []
  | item :: rest => sprintJson item :: sprintItems rest

def sprintMembers : List (String × Json) → List String
  | [] => []
  | (key, value) :: rest => (key ++ ":" ++ sprintJson value) :: sprintMembers rest

end

/-- `fmt.Sprint`. A live pointer prints its address; no key read as a string
holds one. -/
def sprint : GoValue → String
  | .nil => "<nil>"
  | .bool value => toString value
  | .number value => toString value
  | .decimal literal => literal
  | .string value => value
  | .composite value => sprintJson value
  | .int32 value => toString value.toInt
  | .int64 value => toString value
  | .int64Ptr none => "<nil>"
  | .int64Ptr (some _) => "0xc000000000"
  | .counts value =>
      "map[" ++ " ".intercalate ((value.map fun entry => entry.1 ++ ":" ++ toString entry.2).mergeSort)
        ++ "]"

def getString (payload : JsonMap) (key : String) : String :=
  match payload.lookup key with
  | none | some .nil => ""
  | some value => sprint value

section Lookup

variable (payload : JsonMap) (key : String)

@[simp] theorem lookup_putValue (value : GoValue) :
    (putValue payload key value).lookup key = some value :=
  AList.lookup_insert payload

@[simp] theorem lookup_putValue_ne {key other : String} (value : GoValue) (different : key ≠ other) :
    (putValue payload other value).lookup key = payload.lookup key :=
  AList.lookup_insert_ne different

variable {payload key}

end Lookup

end Sico.TaskRuntime

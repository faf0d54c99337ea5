import Sico.Foundation.Json

/-! # The texts in a document

The texts among the values of a document, in document order, and the document with each of them replaced
(`Foundation.Json.strings_mapStrings`). The names of members are no values.
-/

namespace Foundation.Json

mutual

/-- The texts among the values of a document. -/
def strings : Json → List String
  | .str text => [text]
  | .arr items => itemStrings items
  | .obj members => memberStrings members
  | .null | .bool _ | .int _ | .float _ => []

def itemStrings : List Json → List String
  | [] => []
  | item :: rest => strings item ++ itemStrings rest

def memberStrings : List (String × Json) → List String
  | [] => []
  | (_, value) :: rest => strings value ++ memberStrings rest

end

mutual

/-- A document with each of its texts replaced. -/
def mapStrings (replace : String → String) : Json → Json
  | .str text => .str (replace text)
  | .arr items => .arr (mapItems replace items)
  | .obj members => .obj (mapMembers replace members)
  | .null => .null
  | .bool value => .bool value
  | .int value => .int value
  | .float literal => .float literal

def mapItems (replace : String → String) : List Json → List Json
  | [] => []
  | item :: rest => mapStrings replace item :: mapItems replace rest

def mapMembers (replace : String → String) : List (String × Json) → List (String × Json)
  | [] => []
  | (name, value) :: rest => (name, mapStrings replace value) :: mapMembers replace rest

end

mutual

theorem strings_mapStrings (replace : String → String) :
    (value : Json) → (value.mapStrings replace).strings = value.strings.map replace
  | .str _ => rfl
  | .arr items => itemStrings_mapItems replace items
  | .obj members => memberStrings_mapMembers replace members
  | .null | .bool _ | .int _ | .float _ => rfl

theorem itemStrings_mapItems (replace : String → String) :
    (items : List Json) → itemStrings (mapItems replace items) = (itemStrings items).map replace
  | [] => rfl
  | item :: rest => by
      rw [mapItems, itemStrings, itemStrings, strings_mapStrings replace item, itemStrings_mapItems replace rest,
        List.map_append]

theorem memberStrings_mapMembers (replace : String → String) :
    (members : List (String × Json)) → memberStrings (mapMembers replace members) = (memberStrings members).map replace
  | [] => rfl
  | (_, value) :: rest => by
      rw [mapMembers, memberStrings, memberStrings, strings_mapStrings replace value,
        memberStrings_mapMembers replace rest, List.map_append]

end

mutual

theorem mapStrings_id {replace : String → String} (stays : ∀ text, replace text = text) :
    (value : Json) → value.mapStrings replace = value
  | .str text => congrArg Json.str (stays text)
  | .arr items => congrArg Json.arr (mapItems_id stays items)
  | .obj members => congrArg Json.obj (mapMembers_id stays members)
  | .null | .bool _ | .int _ | .float _ => rfl

theorem mapItems_id {replace : String → String} (stays : ∀ text, replace text = text) :
    (items : List Json) → mapItems replace items = items
  | [] => rfl
  | item :: rest => by rw [mapItems, mapStrings_id stays item, mapItems_id stays rest]

theorem mapMembers_id {replace : String → String} (stays : ∀ text, replace text = text) :
    (members : List (String × Json)) → mapMembers replace members = members
  | [] => rfl
  | (_, value) :: rest => by rw [mapMembers, mapStrings_id stays value, mapMembers_id stays rest]

end

end Foundation.Json

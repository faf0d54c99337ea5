import Mathlib.Data.List.Sort
import Mathlib.Data.String.Basic
import Sico.Foundation.JsonStyles
import Sico.Foundation.Members

/-! # Documents with their members in order

Where the members of objects are put in the order of their names before a document is written, documents that differ
in the order of members only have one text. What an object reads under a name is, in order, what it read before
(`Foundation.Json.member?_sorted`): documents that are the same in order read the same under each name, up to the
order of the members within.
-/

namespace Foundation.Json

mutual

/-- The document with the members of each object in the order of their names. -/
def sorted : Json → Json
  | .arr items => .arr (sortedItems items)
  | .obj members => .obj ((sortedMembers members).mergeSort fun first second => first.1 ≤ second.1)
  | value => value

def sortedItems : List Json → List Json
  | [] => []
  | item :: rest => sorted item :: sortedItems rest

def sortedMembers : List (String × Json) → List (String × Json)
  | [] => []
  | (name, value) :: rest => (name, sorted value) :: sortedMembers rest

end

/-- `json.dumps` with `separators=(",", ":")` and with other letters than ASCII as they are. -/
def compact : Style := ⟨escape, [], fun _ => []⟩

def member? (value : Json) (name : String) : Option Json :=
  match value with
  | .obj members => Members.get? members name
  | _ => none

theorem compact_lawful : compact.Lawful where
  escape := indented_lawful.escape
  some_ := indented_lawful.some_
  colon letter listed := by cases listed
  newline level := by
    intro letter listed
    cases listed

theorem sortedItems_eq (items : List Json) : sortedItems items = items.map sorted := by
  induction items with
  | nil => rfl
  | cons item rest ih => rw [sortedItems, ih, List.map_cons]

theorem sortedMembers_eq (members : List (String × Json)) :
    sortedMembers members = members.map fun member => (member.1, sorted member.2) := by
  induction members with
  | nil => rfl
  | cons member rest ih => rw [sortedMembers, ih, List.map_cons]

theorem map_fst_sortedMembers (members : List (String × Json)) :
    (sortedMembers members).map Prod.fst = members.map Prod.fst := by
  rw [sortedMembers_eq, List.map_map]
  rfl

theorem sorted_texts (texts : List String) : sorted (.arr (texts.map .str)) = .arr (texts.map .str) := by
  rw [sorted, sortedItems_eq, List.map_map]
  rfl

section Reading

theorem get?_sortedMembers (members : List (String × Json)) (name : String) :
    Members.get? (sortedMembers members) name = (Members.get? members name).map sorted := by
  induction members with
  | nil => rfl
  | cons member rest ih =>
      rw [sortedMembers, Members.get?_cons, Members.get?_cons, ih]
      split <;> rfl

variable {floatText : String → String}

theorem member?_sorted {value : Json} (proper : Proper floatText value) (name : String) :
    (sorted value).member? name = (value.member? name).map sorted := by
  cases value with
  | obj members =>
      rw [Proper] at proper
      rw [sorted, member?, member?, ← get?_sortedMembers]
      refine (Members.get?_perm (List.mergeSort_perm (sortedMembers members) _).symm ?_ name).symm
      rw [map_fst_sortedMembers]
      exact proper.1
  | _ => rfl

theorem member?_eq {first second : Json} (proper : Proper floatText first) (alsoProper : Proper floatText second)
    (same : sorted first = sorted second) (name : String) :
    (first.member? name).map sorted = (second.member? name).map sorted := by
  rw [← member?_sorted proper, ← member?_sorted alsoProper, same]

mutual

theorem proper_sorted : (value : Json) → Proper floatText value → Proper floatText (sorted value)
  | .null, _ => trivial
  | .bool _, _ => trivial
  | .int _, _ => trivial
  | .float _, proper => proper
  | .str _, _ => trivial
  | .arr items, proper => by
      rw [Proper] at proper
      rw [sorted, Proper]
      exact proper_sortedItems items proper
  | .obj members, proper => by
      rw [Proper] at proper
      have perm := List.mergeSort_perm (sortedMembers members) fun first second => decide (first.1 ≤ second.1)
      rw [sorted, Proper, properMembers_iff]
      refine ⟨(perm.map Prod.fst).nodup_iff.mpr (by rw [map_fst_sortedMembers]; exact proper.1), ?_⟩
      intro member listed
      exact properMembers_iff.mp (proper_sortedMembers members proper.2) member (perm.mem_iff.mp listed)

theorem proper_sortedItems : (items : List Json) → ProperItems floatText items →
    ProperItems floatText (sortedItems items)
  | [], _ => trivial
  | item :: rest, proper => by
      rw [ProperItems] at proper
      rw [sortedItems, ProperItems]
      exact ⟨proper_sorted item proper.1, proper_sortedItems rest proper.2⟩

theorem proper_sortedMembers : (members : List (String × Json)) → ProperMembers floatText members →
    ProperMembers floatText (sortedMembers members)
  | [], _ => trivial
  | (_, value) :: rest, proper => by
      rw [ProperMembers] at proper
      rw [sortedMembers, ProperMembers]
      exact ⟨proper_sorted value proper.1, proper_sortedMembers rest proper.2⟩

end

theorem sorted_eq_of_written {first second : Json} (proper : Proper floatText first)
    (alsoProper : Proper floatText second)
    (same : compact.written 0 (sorted first) = compact.written 0 (sorted second)) : sorted first = sorted second :=
  compact_lawful.written_injective (proper_sorted first proper) (proper_sorted second alsoProper) same

end Reading

end Foundation.Json

import Mathlib.Data.List.Basic

/-! # Paths

A location is the list of names that lead to it from the root of the file system. A text joins a
location by its parts: an empty part and a dot stay, two dots go up, and a text that begins with
a slash starts at the root. Nothing on the way is a link.

A text whose parts never go above where they start leads below every location to the same names
(`Foundation.walk_append`).
-/

namespace Foundation

theorem notMem_splitOn {Letter : Type*} [DecidableEq Letter] {separator : Letter} (text : List Letter) :
    ∀ part ∈ text.splitOn separator, separator ∉ part := by
  induction text with
  | nil =>
      intro part listed
      rw [List.splitOn_nil] at listed
      rw [List.mem_singleton.mp listed]
      exact List.not_mem_nil
  | cons letter rest ih =>
      intro part listed
      rw [List.splitOn_cons_eq_if_modifyHead] at listed
      split at listed
      · rcases List.mem_cons.mp listed with rfl | later
        · exact List.not_mem_nil
        · exact ih part later
      · next other =>
          cases parts : rest.splitOn separator with
          | nil => exact absurd parts (List.splitOn_ne_nil _ _)
          | cons first others =>
              rw [parts, List.modifyHead_cons] at listed
              rw [parts] at ih
              rcases List.mem_cons.mp listed with rfl | later
              · intro inside
                rcases List.mem_cons.mp inside with same | behind
                · exact other (beq_iff_eq.mpr same.symm)
                · exact ih first List.mem_cons_self behind
              · exact ih part (List.mem_cons_of_mem _ later)

abbrev Location : Type := List String

def pathParts (text : String) : List String := (text.toList.splitOn '/').map String.ofList

def walk : Location → List String → Location
  | location, [] => location
  | location, part :: rest =>
      if part = "" ∨ part = "." then walk location rest
      else if part = ".." then walk location.dropLast rest
      else walk (location ++ [part]) rest

def isAbsolute (text : String) : Bool := text.toList.head? = some '/'

/-- The location that a text leads to from a location. -/
def joinPath (location : Location) (text : String) : Location :=
  walk (if isAbsolute text then [] else location) (pathParts text)

/-- The names that parts lead to, if they never go above where they start. -/
def descend : List String → List String → Option (List String)
  | names, [] => some names
  | names, part :: rest =>
      if part = "" ∨ part = "." then descend names rest
      else if part = ".." then if names = [] then none else descend names.dropLast rest
      else descend (names ++ [part]) rest

/-- The names that a relative text leads to, if it never goes above where it starts. -/
def namesBelow (text : String) : Option (List String) :=
  if isAbsolute text then none else descend [] (pathParts text)

theorem walk_append {names parts found : List String} (location : Location)
    (below : descend names parts = some found) : walk (location ++ names) parts = location ++ found := by
  induction parts generalizing names with
  | nil =>
      obtain rfl := Option.some.inj below
      rfl
  | cons part rest ih =>
      unfold descend at below
      unfold walk
      split at below
      · next stays =>
          rw [if_pos stays]
          exact ih below
      · next moves =>
          rw [if_neg moves]
          split at below
          · next up =>
              rw [if_pos up]
              split at below
              · cases below
              · next inside =>
                  rw [List.dropLast_append_of_ne_nil inside]
                  exact ih below
          · next named =>
              rw [if_neg named, List.append_assoc]
              exact ih below

theorem joinPath_below {text : String} {names : List String} (location : Location)
    (below : namesBelow text = some names) : joinPath location text = location ++ names := by
  unfold namesBelow at below
  unfold joinPath
  split at below
  · cases below
  · next relative =>
      rw [if_neg relative]
      have walked := walk_append location below
      rwa [List.append_nil] at walked

/-- A name is no part of the way but itself. -/
structure IsName (text : String) : Prop where
  plain : '/' ∉ text.toList
  nonempty : text ≠ ""
  dot : text ≠ "."
  dots : text ≠ ".."

theorem pathParts_name {text : String} (name : IsName text) : pathParts text = [text] := by
  unfold pathParts
  rw [List.splitOn_eq_singleton name.plain, List.map_cons, List.map_nil, String.ofList_toList]

theorem isAbsolute_name {text : String} (name : IsName text) : isAbsolute text = false := by
  unfold isAbsolute
  refine decide_eq_false fun slash => name.plain ?_
  exact List.mem_of_mem_head? slash

theorem namesBelow_name {text : String} (name : IsName text) : namesBelow text = some [text] := by
  unfold namesBelow
  rw [isAbsolute_name name, if_neg Bool.false_ne_true, pathParts_name name]
  obtain ⟨_, nonempty, dot, dots⟩ := name
  simp [descend, nonempty, dot, dots]

theorem namesBelow_slash {first second : String} (outer : IsName first) (inner : IsName second) :
    namesBelow (first ++ "/" ++ second) = some [first, second] := by
  have letters : (first ++ "/" ++ second).toList = first.toList ++ '/' :: second.toList := by
    rw [String.toList_append, String.toList_append, List.append_assoc]
    rfl
  have relative : isAbsolute (first ++ "/" ++ second) = false := by
    have alone := isAbsolute_name outer
    unfold isAbsolute at alone ⊢
    rw [letters]
    cases front : first.toList with
    | nil => exact absurd (String.toList_inj.mp front) outer.nonempty
    | cons letter rest =>
        rw [front] at alone
        exact alone
  have parts : pathParts (first ++ "/" ++ second) = [first, second] := by
    have last := pathParts_name inner
    unfold pathParts at last ⊢
    rw [letters, List.splitOn_append_cons_self_of_not_mem outer.plain, List.map_cons, last, String.ofList_toList]
  unfold namesBelow
  rw [relative, if_neg Bool.false_ne_true, parts]
  simp [descend, outer.nonempty, outer.dot, outer.dots, inner.nonempty, inner.dot, inner.dots]

theorem joinPath_name {text : String} (location : Location) (name : IsName text) :
    joinPath location text = location ++ [text] :=
  joinPath_below location (namesBelow_name name)

end Foundation

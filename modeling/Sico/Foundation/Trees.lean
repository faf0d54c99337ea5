import Sico.Foundation.Members

/-! # Trees of files

A tree is a file or a folder of named trees. A path of names leads to at most one tree below a folder, the
first of its name at each step.
-/

namespace Foundation

inductive FileTree (Content : Type) where
  | file (content : Content)
  | folder (entries : List (String × FileTree Content))

namespace FileTree

variable {Content : Type}

def isFolder : FileTree Content → Bool
  | .file _ => false
  | .folder _ => true

def find : FileTree Content → List String → Option (FileTree Content)
  | tree, [] => some tree
  | .file _, _ :: _ => none
  | .folder entries, name :: path => (Members.get? entries name).bind fun child => child.find path

def contentAt (tree : FileTree Content) (path : List String) : Option Content :=
  (tree.find path).bind fun found =>
    match found with
    | .file content => some content
    | .folder _ => none

/-- A tree in whose folders no name is given twice. -/
inductive Proper : FileTree Content → Prop
  | file (content : Content) : Proper (.file content)
  | folder {entries : List (String × FileTree Content)} (distinct : (entries.map Prod.fst).Nodup)
      (proper : ∀ entry ∈ entries, Proper entry.2) : Proper (.folder entries)

variable {entries : List (String × FileTree Content)} {name : String} {path : List String} {content : Content}

@[simp] theorem find_nil (tree : FileTree Content) : tree.find [] = some tree := by
  cases tree <;> rfl

theorem find_folder (entries : List (String × FileTree Content)) (name : String) (path : List String) :
    (folder entries).find (name :: path) = (Members.get? entries name).bind fun child => child.find path := rfl

theorem contentAt_folder_cons (entries : List (String × FileTree Content)) (name : String) (path : List String) :
    (folder entries).contentAt (name :: path) =
      (Members.get? entries name).bind fun child => child.contentAt path := by
  unfold contentAt
  rw [find_folder]
  cases Members.get? entries name <;> rfl

theorem contentAt_folder (found : (folder entries).contentAt path = some content) :
    ∃ name rest child, path = name :: rest ∧ Members.get? entries name = some child ∧
      child.contentAt rest = some content := by
  cases path with
  | nil => cases found
  | cons name rest =>
      rw [contentAt_folder_cons] at found
      obtain ⟨child, here, below⟩ := Option.bind_eq_some_iff.mp found
      exact ⟨name, rest, child, rfl, here, below⟩

end FileTree

end Foundation

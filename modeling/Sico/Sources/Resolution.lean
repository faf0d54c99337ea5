import Sico.Foundation.Links
import Sico.Sources.Model

/-! # The files that refs name

A ref names a file by its path from the root of the workspace, or an attachment by its name
alone. A path is followed through the links and leads to one file of the workspace at most, and
many paths lead to the same: a ref may have empty parts and dots in it
(`Sources.resolveRef_respelled`), go down and up again, or pass links.
-/

namespace Sico.Sources

open Foundation AgentLoop

/-- The files of a workspace, with the root as it is resolved. What the file system lists below
`attachments` under a name is a parameter. -/
structure Workspace where
  links : Links
  depth : ℕ
  root : Location
  files : List Location
  attachmentsNamed : String → List Location

namespace Workspace

variable (workspace : Workspace)

-- Locations are compared as lists when a file is looked for.
local instance lawful_locations : LawfulBEq Location := inferInstance

/-- The file that a path leads to, by its location in the workspace, if it is there. -/
def fileAt (parts : List String) : Option Location :=
  match resolve workspace.links workspace.depth [] parts with
  | none => none
  | some found =>
      if workspace.root <+: found ∧ found ∈ workspace.files then some (found.drop workspace.root.length) else none

/-- `_resolve`: the location of a ref's file in the workspace. -/
def resolveRef (ref : String) : Except SourceError Location :=
  let normalized := normalizeRef ref
  match if normalized = "" then none else workspace.fileAt (workspace.root ++ pathParts normalized) with
  | some relative => .ok relative
  | none =>
      let candidates := if normalized ≠ "" ∧ refName normalized = normalized then
        workspace.attachmentsNamed normalized else []
      match (candidates.filterMap workspace.fileAt).dedup with
      | [] => .error { message := "tabular source not found: " ++ ref, code := "tabular_source_not_found" }
      | [relative] => .ok relative
      | _ => .error { message := "tabular source name is ambiguous: " ++ ref, code := "tabular_source_ambiguous" }

theorem resolveRef_respelled (first : String) {second : String} {relative : Location}
    (leads : workspace.fileAt (workspace.root ++ pathParts (normalizeRef first)) = some relative)
    (filled : normalizeRef second ≠ "")
    (same : (pathParts (normalizeRef second)).filter moves = (pathParts (normalizeRef first)).filter moves) :
    workspace.resolveRef second = .ok relative := by
  have parts : (workspace.root ++ pathParts (normalizeRef second)).filter moves =
      (workspace.root ++ pathParts (normalizeRef first)).filter moves := by
    rw [List.filter_append, List.filter_append, same]
  have found : workspace.fileAt (workspace.root ++ pathParts (normalizeRef second)) = some relative := by
    rw [← leads, fileAt, fileAt, ← resolve_moves, parts, resolve_moves]
  unfold resolveRef
  dsimp only
  rw [if_neg filled, found]

end Workspace

end Sico.Sources

import Sico.Preparation.Tables

/-! # The rows that tables gather

The rows that the documents of a source select, one document after the other, and how the tables
gather them: those of a sheet go to its own table, where rows of the same numbers are one.
-/

namespace Sico.Preparation

open Foundation AgentLoop

section Selected

variable (library : Sources.Library)

/-- The rows that a document selects, in the order of the selection. -/
def selectionOf (spec : TabularDocumentSpec) (document : TabularDocument) : List NormalizedRow :=
  document.sheets.flatMap fun sheet =>
    selectedRows library spec document { sheet with rows := sheet.rows.filter (spec.selects library) }

/-- The rows that documents select, from an index on. -/
def selectedFrom (answers : ℕ → Except Sources.SourceError TabularDocument) :
    ℕ → List TabularDocumentSpec → List NormalizedRow
  | _, [] => []
  | documentIndex, spec :: rest =>
      (match answers documentIndex with
        | .ok document => selectionOf library spec document
        | .error _ => []) ++ selectedFrom answers (documentIndex + 1) rest

theorem tableID_of_selected {spec : TabularDocumentSpec} {document : TabularDocument}
    {sheet : TabularSheet} {row : NormalizedRow} (selected : row ∈ selectedRows library spec document sheet) :
    row.tableID = sheet.tableID := by
  have among : row ∈ sheet.rows.map (normalizedRow library document sheet) := by
    unfold selectedRows at selected
    dsimp only at selected
    split at selected
    · exact selected
    · exact (List.mem_filter.mp ((List.mem_insertionSort _).mp selected)).1
  obtain ⟨source, _, rfl⟩ := List.mem_map.mp among
  rfl

theorem selection_of_applyScope {spec : TabularDocumentSpec} {maxRows : ℕ}
    {document narrowed : TabularDocument} (applied : applyScope library spec maxRows document = .ok narrowed) :
    narrowed.sheets.flatMap (selectedRows library spec narrowed) = selectionOf library spec document := by
  unfold applyScope at applied
  dsimp only at applied
  split at applied
  · cases applied
  · split at applied
    · cases applied
    · cases applied
      have none : ∀ sheet : TabularSheet, sheet.rows = [] → selectedRows library spec document sheet = [] := by
        intro sheet empty
        simp [selectedRows, empty]
      have rows : ∀ sheets : List TabularSheet,
          ((sheets.filter fun sheet => sheet.rows ≠ []).flatMap (selectedRows library spec document)) =
            sheets.flatMap (selectedRows library spec document) := by
        intro sheets
        induction sheets with
        | nil => rfl
        | cons sheet rest ih =>
            by_cases empty : sheet.rows = []
            · rw [List.filter_cons_of_neg (by simpa using empty), ih, List.flatMap_cons, none sheet empty,
                List.nil_append]
            · rw [List.filter_cons_of_pos (by simpa using empty), List.flatMap_cons, List.flatMap_cons, ih]
      have whole : selectionOf library spec document =
          (document.sheets.map fun sheet : TabularSheet =>
            { sheet with rows := sheet.rows.filter (spec.selects library) }).flatMap
              (selectedRows library spec document) := by
        rw [selectionOf, List.flatMap_map]
      rw [whole]
      split
      · rfl
      · exact rows _

end Selected

section Gathered

theorem map_key_write (rows : List NormalizedRow) :
    ((Dict.empty.write (rows.map fun row => (row.key, row))).values).map NormalizedRow.key =
      (rows.map NormalizedRow.key).eraseDups := by
  have own : ∀ entry ∈ (Dict.empty.write (rows.map fun row => (row.key, row))).entries,
      entry.2.key = entry.1 := by
    intro entry written
    rcases Dict.mem_write written with none | listed
    · cases none
    · obtain ⟨row, _, rfl⟩ := List.mem_map.mp listed
      rfl
  have keys := Dict.keys_write_empty (rows.map fun row => (row.key, row))
  rw [List.map_map] at keys
  refine Eq.trans ?_ keys
  rw [Dict.values, List.map_map, Dict.keys]
  exact List.map_congr_left own

variable {library : Sources.Library} {scope : TabularScope} {documentIndex : ℕ} {spec : TabularDocumentSpec}
  {document : TabularDocument} {tables : Dict String TableContext}

theorem get?_addSheet (sheet : TabularSheet) (table : String) :
    (addSheet library scope documentIndex spec document tables sheet).get? table =
      if selectedRows library spec document sheet = [] ∨ table ≠ sheet.tableID then tables.get? table
      else
        let current := sheetTable scope documentIndex document sheet
          (selectedRows library spec document sheet)
        some (match tables.get? table with
          | some existing => mergeTableContexts existing current
          | none => current) := by
  unfold addSheet
  dsimp only
  split
  · next none => rw [if_pos (.inl none)]
  · next filled =>
      rw [Dict.get?_set]
      split
      · next same =>
          subst same
          exact (if_neg (by simpa using filled)).symm
      · next different => rw [if_pos (.inr different)]

end Gathered

end Sico.Preparation

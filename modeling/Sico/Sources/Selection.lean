import Sico.Sources.Snapshot

/-! # Selecting from a source

A source is asked for sheets by their names or, where none is named, for cases that the manifest lists for
a sheet that can be run. The sheets that are resolved are loaded from the snapshot, and their rows are
narrowed to what is asked for.

Names are compared without regard to case. The text that `str.casefold` makes of a name is a parameter.
-/

namespace Sico.Sources.Snapshot

open Foundation AgentLoop

section Data

structure TabularScope where
  sheetNames : List String := []
  rowStart : Option ℤ := none
  rowEnd : Option ℤ := none
  caseIDs : List String := []

structure SelectionError extends SourceError where
  details : List (String × Json) := []
  deriving DecidableEq

def texts (values : List String) : Json := .arr (values.map .str)

end Data

section Resolving

variable (library : Library) (runtime : Runtime) (casefold : String → String) (manifest : SourceManifest)

def runnableSheets : List SheetManifest :=
  manifest.sheets.filter fun sheet => sheet.sheetID ∈ manifest.runnableSheetIDs

/-- The sheets that list a case, by its canonical form. -/
def sheetsWithCase (sheets : List SheetManifest) (caseID : String) : List SheetManifest :=
  sheets.filter fun sheet => caseID ∈ sheet.caseIDs.map library.canonicalCaseID

/-- The error of a scope that leaves more than one sheet. -/
def scopeRequired (message : String) (more : List (String × Json)) : SelectionError :=
  { message
    code := "tabular_sheet_scope_required"
    details :=
      [("source_ref", .str manifest.sourceRef), ("available", texts (manifest.sheets.map SheetManifest.name)),
        ("runnable", texts ((runnableSheets manifest).map SheetManifest.name))] ++ more }

/-- `_resolve_sheet_names`, where no sheet is named. -/
def resolveByCases (caseIDs : List String) : Except SelectionError (List String) :=
  let wanted := library.caseIDPairs caseIDs
  let runnable := runnableSheets manifest
  let ambiguous := (wanted.filter fun pair => 1 < (sheetsWithCase library runnable pair.1).length).map Prod.snd
  let matchedIDs := wanted.flatMap fun pair => (sheetsWithCase library runnable pair.1).map SheetManifest.sheetID
  if ambiguous ≠ [] then
    .error (scopeRequired manifest
      "requested case IDs occur in multiple runnable sheets; select sheet_names explicitly"
      [("ambiguous_case_ids", texts ambiguous)])
  else if matchedIDs ≠ [] then
    .ok ((runnable.filter fun sheet => sheet.sheetID ∈ matchedIDs).map fun sheet => casefold sheet.name)
  else
    match runnable, manifest.sheets with
    | [sheet], _ => .ok [casefold sheet.name]
    | _, [sheet] => .ok [casefold sheet.name]
    | _, _ =>
        .error (scopeRequired manifest
          "tabular document contains multiple runnable sheets; select sheet_names explicitly" [])

def listText (values : List String) : String := "[" ++ ", ".intercalate (values.map runtime.repr) ++ "]"

def resolveSheetNames (scope : TabularScope) : Except SelectionError (List String) :=
  let cleaned := (scope.sheetNames.filter fun name => strip name ≠ "").map fun name => casefold (strip name)
  if cleaned = [] then resolveByCases library casefold manifest scope.caseIDs
  else
    let selected := (manifest.sheets.map fun sheet => casefold sheet.name).filter (· ∈ cleaned)
    let missing := (cleaned.dedup.filter (· ∉ selected)).mergeSort fun first second => first ≤ second
    if missing ≠ [] then
      .error
        { message := "sheet(s) not found: " ++ listText runtime missing
          code := "tabular_sheet_not_found"
          details :=
            [("source_ref", .str manifest.sourceRef), ("missing", texts missing),
              ("available", texts (manifest.sheets.map SheetManifest.name))] }
    else .ok selected

/-- `load_document`, where it does not raise. -/
def loadDocument (root : Location) (files : Files) (selected : List String) : Option Document :=
  documentFromSnapshot library runtime root files manifest
    (manifest.sheets.filter fun sheet => selected = [] ∨ casefold sheet.name ∈ selected)

end Resolving

section Narrowing

variable (library : Library)

/-- `case_id_for_row`. -/
def caseIDOf (row : Row) : String := library.caseIDForRow { displayValues := row.displayValues.entries }

/-- Whether `_apply_scope` keeps a row. -/
def TabularScope.keeps (scope : TabularScope) (rowFilter : Option (Row → Bool)) (row : Row) : Bool :=
  let wantedCases := (scope.caseIDs.filter fun caseID => strip caseID ≠ "").map library.canonicalCaseID
  scope.rowStart.all (fun first => first ≤ row.dataRowIndex)
    && scope.rowEnd.all (fun last => row.dataRowIndex ≤ last)
    && (wantedCases = [] || library.canonicalCaseID (caseIDOf library row) ∈ wantedCases)
    && rowFilter.all fun passes => passes row

def selectedRowLimit (count : ℕ) (maxRows : ℤ) : SelectionError :=
  { message := "selected tabular rows exceed max_rows=" ++ toString maxRows
    code := "tabular_row_limit"
    details := [("selected_rows", .int (count + 1)), ("max_rows", .int maxRows)] }

/-- The rows of a sheet that are kept, with the number of rows that are kept up to there. -/
def keepRows (keeps : Row → Bool) (maxRows : Option ℤ) : ℕ → List Row → Except SelectionError (List Row × ℕ)
  | count, [] => .ok ([], count)
  | count, row :: rest =>
      if !keeps row then keepRows keeps maxRows count rest
      else
        match maxRows.filter fun maxRows => maxRows ≤ (count : ℤ) with
        | some maxRows => .error (selectedRowLimit count maxRows)
        | none => do
            let (rows, total) ← keepRows keeps maxRows (count + 1) rest
            return (row :: rows, total)

/-- The loop of `_apply_scope` over the sheets. -/
def keepSheets (keeps : Row → Bool) (maxRows : Option ℤ) : ℕ → List Sheet → Except SelectionError (List Sheet)
  | _, [] => .ok []
  | count, sheet :: rest => do
      let (rows, total) ← keepRows keeps maxRows count sheet.rows
      let sheets ← keepSheets keeps maxRows total rest
      return { sheet with rows } :: sheets

def noRows (ref : String) (scope : TabularScope) : SelectionError :=
  { message := "no tabular rows matched the selected source scope"
    code := "tabular_no_rows"
    details := [("source_ref", .str ref), ("sheet_names", texts scope.sheetNames)] }

def applyScope (document : Document) (ref : String) (scope : TabularScope) (maxRows : Option ℤ)
    (rowFilter : Option (Row → Bool)) : Except SelectionError Document := do
  let sheets ← keepSheets (scope.keeps library rowFilter) maxRows 0 document.sheets
  let nonEmpty := sheets.filter fun sheet => !sheet.rows.isEmpty
  refuseIf (nonEmpty.isEmpty ∧ rowFilter.isNone) (noRows ref scope)
  return { document with sheets := if nonEmpty.isEmpty then sheets else nonEmpty }

end Narrowing

section Selecting

variable (library : Library) (runtime : Runtime) (casefold : String → String)

def snapshotUnavailable (ref : String) : SelectionError :=
  { message := "persisted source snapshot is unavailable: " ++ ref
    code := "source_snapshot_unavailable"
    details := [("source_ref", .str (normalizeRef ref))] }

def objectUnavailable (ref : String) : SelectionError :=
  { message := "persisted source object is unavailable: " ++ ref
    code := "source_object_unavailable"
    details := [("source_ref", .str (normalizeRef ref))] }

/-- `select` of a source that is kept and whose own file is gone, with the ref of the object that is kept of
it, if it is there. -/
def select (root : Location) (files : Files) (objectRef : Option String) (manifest : SourceManifest) (ref : String)
    (scope : TabularScope) (maxRows : Option ℤ) (rowFilter : Option (Row → Bool)) :
    Except SelectionError Document := do
  let selected ← resolveSheetNames library runtime casefold manifest scope
  match loadDocument library runtime casefold manifest root files selected, objectRef with
  | none, _ => throw (snapshotUnavailable ref)
  | some _, none => throw (objectUnavailable ref)
  | some document, some objectRef =>
      applyScope library { document with materializedRef := objectRef } (normalizeRef ref) scope maxRows rowFilter

end Selecting

end Sico.Sources.Snapshot

import Sico.Preparation.Items

/-! # Tables

The rows that the documents of a tabular source select, and the tables they are gathered in:
rows of one table that several documents select are merged, and a row is told from the others
of its table by its numbers. A spreadsheet numbers its rows apart; a file of JSON lines may
number its rows itself.
-/

namespace Sico.Preparation

open Foundation AgentLoop

section Rows

structure TabularRow extends Sources.TabularRow where
  sourceRow : ℤ
  dataRowIndex : ℤ
  values : List (String × Value)

structure TabularSheet where
  tableID : String
  name : String
  headers : List String
  rows : List TabularRow

structure TabularDocument where
  sourceRef : String
  sourceID : String
  sheets : List TabularSheet
  materializedRef : String := ""

structure NormalizedRow where
  sourceRef : String
  sourceID : String
  tableID : String
  sheetName : String
  sourceRow : ℤ
  dataRowIndex : ℤ
  title : String
  goal : String
  caseID : String
  values : List (String × Value)
  materializedRef : String

/-- What tells the rows of a table apart. -/
abbrev RowKey : Type := ℤ × ℤ

/-- `_tabular_row_key`. -/
def NormalizedRow.key (row : NormalizedRow) : RowKey := (row.sourceRow, row.dataRowIndex)

variable (library : Sources.Library)

/-- `_first`. -/
def firstValue (row : Sources.TabularRow) (names : List String) : String :=
  match row.displayValues.find? fun value =>
      library.normalizeHeader value.1 ∈ names ∧ strip value.2 ≠ "" with
  | some value => strip value.2
  | none => ""

/-- The title that the normalizer of a sheet gives a row. -/
def rowTitle (sheet : TabularSheet) (row : TabularRow) : String :=
  let numbered := sheet.name ++ " row " ++ toString row.dataRowIndex
  if library.normalizerID sheet.headers = "testcase_v1" then
    let title := firstValue library row.toTabularRow Sources.Library.titleHeaders
    let caseID := library.caseIDForRow row.toTabularRow
    if title ≠ "" then title else if caseID ≠ "" then caseID else numbered
  else numbered

def rowGoal (document : TabularDocument) (sheet : TabularSheet) (row : TabularRow) : String :=
  let caseID := library.caseIDForRow row.toTabularRow
  "\n".intercalate (["Tabular source: " ++ document.sourceRef, "Sheet: " ++ sheet.name,
    "Data row: " ++ toString row.dataRowIndex, "Source row: " ++ toString row.sourceRow] ++
    (if caseID = "" then [] else ["Case ID: " ++ caseID]) ++ ["Row fields:"] ++
    (row.displayValues.filter fun value => value.2 ≠ "").map fun value =>
      "- " ++ value.1 ++ ": " ++ value.2)

/-- `_normalized`. -/
def normalizedRow (document : TabularDocument) (sheet : TabularSheet) (row : TabularRow) :
    NormalizedRow :=
  { sourceRef := document.sourceRef
    sourceID := document.sourceID
    tableID := sheet.tableID
    sheetName := sheet.name
    sourceRow := row.sourceRow
    dataRowIndex := row.dataRowIndex
    title := rowTitle library sheet row
    goal := rowGoal library document sheet row
    caseID := library.caseIDForRow row.toTabularRow
    values := row.values
    materializedRef :=
      if document.materializedRef = "" then document.sourceRef else document.materializedRef }

end Rows

section Selection

variable (library : Sources.Library)

/-- The canonical forms of the case identifiers that a document is asked for. -/
def TabularDocumentSpec.wantedOrder (spec : TabularDocumentSpec) : List String :=
  (library.caseIDPairs spec.caseIDs).map Prod.fst

/-- Whether `_apply_scope` keeps a row. -/
def TabularDocumentSpec.selects (spec : TabularDocumentSpec) (row : TabularRow) : Bool :=
  let scopeCases := (spec.caseIDs.filter fun caseID => strip caseID ≠ "").map library.canonicalCaseID
  let caseID := library.canonicalCaseID (library.caseIDForRow row.toTabularRow)
  spec.rowStart.all (fun first => (first : ℤ) ≤ row.dataRowIndex)
    && spec.rowEnd.all (fun last => row.dataRowIndex ≤ (last : ℤ))
    && (scopeCases = [] || caseID ∈ scopeCases)
    && (spec.wantedOrder library = [] || caseID ∈ spec.wantedOrder library)

/-- `_apply_scope`: the rows are counted while they are selected. -/
def applyScope (spec : TabularDocumentSpec) (maxRows : ℕ) (document : TabularDocument) :
    Except Sources.SourceError TabularDocument :=
  let selected := document.sheets.map fun sheet =>
    { sheet with rows := sheet.rows.filter (spec.selects library) }
  let nonEmpty := selected.filter fun sheet => sheet.rows ≠ []
  if maxRows < (selected.map fun sheet => sheet.rows.length).sum then
    .error { message := "selected tabular rows exceed max_rows=" ++ toString maxRows
             code := "tabular_row_limit" }
  else if nonEmpty = [] ∧ spec.wantedOrder library = [] then
    .error { message := "no tabular rows matched the selected source scope", code := "tabular_no_rows" }
  else .ok { document with sheets := if nonEmpty = [] then selected else nonEmpty }

/-- Whether a row stands before another one: by the order in which the cases are asked for, and
then by the row of the source. -/
def caseBefore (wantedOrder : List String) (first second : NormalizedRow) : Prop :=
  let place (row : NormalizedRow) := wantedOrder.idxOf (library.canonicalCaseID row.caseID)
  place first < place second ∨ place first = place second ∧ first.sourceRow ≤ second.sourceRow

instance (wantedOrder : List String) : DecidableRel (caseBefore library wantedOrder) :=
  fun _ _ => inferInstanceAs (Decidable (_ ∨ _))

/-- The rows of a sheet that a document selects, in the order of the selection. -/
def selectedRows (spec : TabularDocumentSpec) (document : TabularDocument) (sheet : TabularSheet) :
    List NormalizedRow :=
  let rows := sheet.rows.map (normalizedRow library document sheet)
  let wantedOrder := spec.wantedOrder library
  if wantedOrder = [] then rows
  else (rows.filter fun row =>
    row.caseID ≠ "" ∧ library.canonicalCaseID row.caseID ∈ wantedOrder).insertionSort
      (caseBefore library wantedOrder)

end Selection

section Gathering

structure TabularPlanningContext where
  document : TabularDocument
  sheet : TabularSheet
  rows : List NormalizedRow
  descriptors : List CapabilityDescriptor
  contextID : String := ""

structure TableContext where
  planning : TabularPlanningContext
  explicitRules : Dict String BindingRule
  stage : ℕ
  sourceIndex : ℕ
  rowOrder : Dict RowKey ℕ
  rowDocumentIndexes : Dict RowKey ℕ

/-- What the documents of one source have in common. -/
structure TabularScope where
  source : TabularSourceSpec
  sourceIndex : ℕ
  descriptors : List CapabilityDescriptor
  batchItemsBefore : ℕ

def TabularScope.sourceLimit (scope : TabularScope) : ℕ :=
  min scope.source.maxRows (maxDelegateWorkItems - scope.batchItemsBefore)

def sheetTable (scope : TabularScope) (documentIndex : ℕ) (document : TabularDocument)
    (sheet : TabularSheet) (rows : List NormalizedRow) : TableContext :=
  { planning :=
      { document, sheet, rows
        descriptors := scope.descriptors
        contextID := "source-" ++ padded 2 scope.sourceIndex ++ ":" ++ sheet.tableID }
    explicitRules := scope.source.parameterBindings
    stage := scope.source.stage
    sourceIndex := scope.sourceIndex
    rowOrder := Dict.empty.write (rows.zipIdx.map fun row => (row.1.key, row.2))
    rowDocumentIndexes := Dict.empty.write (rows.map fun row => (row.key, documentIndex)) }

/-- The places and the documents of rows, with those of one more row. -/
def mergeRow (current : TableContext) (places : Dict RowKey ℕ × Dict RowKey ℕ) (row : NormalizedRow) :
    Dict RowKey ℕ × Dict RowKey ℕ :=
  if row.key ∈ places.1.keys then places
  else (places.1.set row.key places.1.entries.length,
    places.2.set row.key ((current.rowDocumentIndexes.get? row.key).getD 0))

def mergeTableContexts (existing current : TableContext) : TableContext :=
  let rows := existing.planning.rows ++ current.planning.rows
  let places := current.planning.rows.foldl (mergeRow current)
    (existing.rowOrder, existing.rowDocumentIndexes)
  { existing with
    planning := { existing.planning with
      rows := (Dict.empty.write (rows.map fun row => (row.key, row))).values }
    rowOrder := places.1
    rowDocumentIndexes := places.2 }

/-- The tables with the rows that a document selects of one sheet. -/
def addSheet (library : Sources.Library) (scope : TabularScope) (documentIndex : ℕ)
    (spec : TabularDocumentSpec) (document : TabularDocument) (tables : Dict String TableContext)
    (sheet : TabularSheet) : Dict String TableContext :=
  let rows := selectedRows library spec document sheet
  if rows = [] then tables
  else
    let table := sheetTable scope documentIndex document sheet rows
    tables.set sheet.tableID (match tables.get? sheet.tableID with
      | some existing => mergeTableContexts existing table
      | none => table)

def rowCount (tables : List TableContext) : ℕ :=
  (tables.map fun table => table.planning.rows.length).sum

def matchingExistingRows (library : Sources.Library) (casefold : String → String)
    (tables : List TableContext) (spec : TabularDocumentSpec) : ℕ :=
  let requestedRef := Sources.normalizeRef spec.sourceRef
  let requestedName := if '/' ∈ requestedRef.toList then "" else Sources.refName requestedRef
  let wantedSheets := (spec.sheetNames.filter fun name => strip name ≠ "").map fun name =>
    casefold (strip name)
  let wantedCases := (spec.caseIDs.filter fun caseID => strip caseID ≠ "").map library.canonicalCaseID
  let matching := tables.filter fun table =>
    let existingRef := table.planning.document.sourceRef
    let attachmentAlias := requestedName ≠ "" ∧ "attachments/".toList <+: existingRef.toList ∧
      Sources.refName existingRef = requestedName
    (existingRef = requestedRef ∨ attachmentAlias) ∧
      (wantedSheets = [] ∨ casefold (strip table.planning.sheet.name) ∈ wantedSheets)
  (matching.map fun table => (table.planning.rows.filter fun row =>
    spec.rowStart.all (fun first => (first : ℤ) ≤ row.dataRowIndex)
      && spec.rowEnd.all (fun last => row.dataRowIndex ≤ (last : ℤ))
      && (wantedCases = [] || library.canonicalCaseID row.caseID ∈ wantedCases)).length).sum

def delegateWorkItemLimit (selected : ℕ) : Stop :=
  .needsClarification ⟨"delegate_work_item_limit",
    [("selected_work_items", .int selected), ("max_work_items", .int maxDelegateWorkItems)]⟩

def tabularScopeIssue (totalRows maxRows : ℕ) : Option Stop :=
  if maxRows < totalRows then some (.needsClarification ⟨"tabular_row_limit", []⟩)
  else if totalRows = 0 then some (.needsClarification ⟨"tabular_no_rows", []⟩)
  else none

/-- What ends a source with too many rows: the limit of the whole request, if it is the
narrower one, or else the source's own. -/
def TabularScope.overLimit (scope : TabularScope) (selectedRows : ℕ) : Stop :=
  if scope.sourceLimit < scope.source.maxRows then
    delegateWorkItemLimit (scope.batchItemsBefore + selectedRows)
  else .needsClarification ⟨"tabular_row_limit", []⟩

/-- What ends a document that the source service does not give. -/
def TabularScope.sourceError (scope : TabularScope) (error : Sources.SourceError) : Stop :=
  if error.code = "tabular_row_limit" then scope.overLimit (scope.sourceLimit + 1)
  else if error.code ∈ ["source_object_unavailable", "source_snapshot_unavailable"] then
    .raised error.code
  else .needsClarification ⟨error.code, []⟩

/-- The case identifiers, as they are displayed, that a document has no row for. -/
def missingCases (library : Sources.Library) (spec : TabularDocumentSpec)
    (document : TabularDocument) : List String :=
  let found := (document.sheets.flatMap (selectedRows library spec document)).map fun row =>
    library.canonicalCaseID row.caseID
  ((library.caseIDPairs spec.caseIDs).filter fun wanted => wanted.1 ∉ found).map Prod.snd

/-- One turn of the loop of `_tabular_tables` over the documents. -/
def addDocument (library : Sources.Library) (casefold : String → String) (scope : TabularScope)
    (answer : Except Sources.SourceError TabularDocument) (tables : Dict String TableContext)
    (documentIndex : ℕ) (spec : TabularDocumentSpec) : Except Stop (Dict String TableContext) :=
  let documentLimit := (scope.sourceLimit - rowCount tables.values) +
    matchingExistingRows library casefold tables.values spec
  if documentLimit = 0 then .error (scope.overLimit (scope.sourceLimit + 1))
  else match answer.bind (applyScope library spec documentLimit) with
    | .error error => .error (scope.sourceError error)
    | .ok document =>
        let gathered := document.sheets.foldl (addSheet library scope documentIndex spec document) tables
        if missingCases library spec document ≠ [] then
          .error (.needsClarification ⟨"tabular_case_ids_not_found",
            [("source_ref", .str document.sourceRef),
              ("missing_case_ids", .strings (missingCases library spec document))]⟩)
        else if scope.sourceLimit < rowCount gathered.values then
          .error (scope.overLimit (rowCount gathered.values))
        else .ok gathered

def addDocumentsFrom (library : Sources.Library) (casefold : String → String) (scope : TabularScope)
    (answers : ℕ → Except Sources.SourceError TabularDocument) :
    ℕ → Dict String TableContext → List TabularDocumentSpec →
      Except Stop (Dict String TableContext)
  | _, tables, [] => .ok tables
  | documentIndex, tables, spec :: rest => do
      let gathered ← addDocument library casefold scope (answers documentIndex) tables documentIndex spec
      addDocumentsFrom library casefold scope answers (documentIndex + 1) gathered rest

def tabularTables (library : Sources.Library) (casefold : String → String)
    (answers : ℕ → Except Sources.SourceError TabularDocument)
    (catalogue : List CapabilityDescriptor) (sourceIndex batchItemsBefore : ℕ)
    (source : TabularSourceSpec) : Except Stop (List TableContext) := do
  let descriptors ← sourceDescriptors source.capabilityIDs catalogue "skill"
  refuseIf (descriptors = []) (.rejected ⟨"preparation_no_available_execution", []⟩)
  let tables ← addDocumentsFrom library casefold
    { source, sourceIndex, descriptors, batchItemsBefore } answers 1 .empty source.documents
  match tabularScopeIssue (rowCount tables.values) source.maxRows with
  | some stop => .error stop
  | none => return tables.values

end Gathering

end Sico.Preparation

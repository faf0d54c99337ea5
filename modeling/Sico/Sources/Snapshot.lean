import Sico.Foundation.Calendar
import Sico.Foundation.JsonText
import Sico.Foundation.Paths
import Sico.Sources.Reader

/-! # Snapshots of tabular sources

What is read of a file is kept beside its manifest: each sheet in a file of its own with a JSON object
in a line for each row, under a path that the manifest tells. A cell that JSON has no value for is
kept with a tag, and so are the lists and objects of a source, so that none of them is taken for a tag.
Sheets are loaded by the manifest, which has their headers.

An object that is neither a number, a text, a moment nor a document is told by its text.
-/

namespace Sico.Sources.Snapshot

open Foundation AgentLoop
open Reader (Cells DecodedBudget ReaderError)

section Cells

/-- A value of a cell. -/
inductive Cell where
  | none
  | bool (value : Bool)
  | int (value : ℤ)
  | float (literal : String)
  | str (value : String)
  | datetime (value : Calendar.DateTime)
  | date (value : Calendar.Date)
  | time (value : Calendar.Time)
  | arr (items : List Json)
  | obj (members : List (String × Json))
  | other (text : String)
  deriving DecidableEq

/-- What the language library does with values: the text that a floating-point number is known by,
the text of a list or a dictionary, `int` of what is no integer, `repr`, and the texts of the errors
that a line and an index are refused with. -/
structure Runtime where
  floatText : String → String
  containerText : Json → String
  toInt : Json → Option ℤ
  repr : String → String
  decodeError : List Char → String
  intError : Json → String

def cellOf : Json → Cell
  | .null => .none
  | .bool value => .bool value
  | .int value => .int value
  | .float literal => .float literal
  | .str value => .str value
  | .arr items => .arr items
  | .obj members => .obj members

/-- `str` of a floating-point number, which JSON has other words for where it is not finite. -/
def floatStr (literal : String) : String :=
  if literal = "NaN" then "nan" else if literal = "Infinity" then "inf"
  else if literal = "-Infinity" then "-inf" else literal

/-- Whether a value counts as true. -/
def isTruthy : Json → Bool
  | .null => false
  | .bool value => value
  | .int value => value ≠ 0
  | .float literal => literal ≠ "0.0" ∧ literal ≠ "-0.0"
  | .str value => value ≠ ""
  | .arr items => items ≠ []
  | .obj members => members ≠ []

variable (runtime : Runtime)

def displayValue : Cell → String
  | .none => ""
  | .bool value => if value then "True" else "False"
  | .int value => toString value
  | .float literal => floatStr literal
  | .str value => value
  | .datetime value => String.ofList value.isoformat
  | .date value => String.ofList value.isoformat
  | .time value => String.ofList value.isoformat
  | .arr items => runtime.containerText (.arr items)
  | .obj members => runtime.containerText (.obj members)
  | .other text => text

def cells : Cells Cell := { displayValue := displayValue runtime, missing := .none, repr := runtime.repr }

/-- `str` of a document, `None` among them. -/
def strOf (value : Json) : String := if value = .null then "None" else displayValue runtime (cellOf value)

/-- `str(value or default)`. -/
def strOr (default : String) (value : Option Json) : String :=
  match value with
  | some value => if isTruthy value then strOf runtime value else default
  | none => default

/-- `int`, where it does not raise. -/
def intOf : Json → Option ℤ
  | .int value => some value
  | value => runtime.toInt value

def tagged (kind : String) (value : Json) : Json := .obj [("$type", .str kind), ("value", value)]

def encodeValue : Cell → Json
  | .datetime value => tagged "datetime" (.str (String.ofList value.isoformat))
  | .date value => tagged "date" (.str (String.ofList value.isoformat))
  | .time value => tagged "time" (.str (String.ofList value.isoformat))
  | .arr items => tagged "json" (.arr items)
  | .obj members => tagged "json" (.obj members)
  | .none => .null
  | .bool value => .bool value
  | .int value => .int value
  | .float literal => .float literal
  | .str value => .str value
  | .other text => tagged "string" (.str text)

/-- `_decode_value`, where it does not raise. -/
def decodeValue (value : Json) : Option Cell :=
  match value with
  | .obj members =>
      match Members.get? members "$type" with
      | none => some (.obj members)
      | some kind =>
          let raw := strOr runtime "" (Members.get? members "value")
          if kind = .str "datetime" then (Calendar.datetimeFromIsoformat raw.toList).map .datetime
          else if kind = .str "date" then (Calendar.dateFromIsoformat raw.toList).map .date
          else if kind = .str "time" then (Calendar.timeFromIsoformat raw.toList).map .time
          else if kind = .str "json" then some (((Members.get? members "value").map cellOf).getD .none)
          else some (.str raw)
  | value => some (cellOf value)

end Cells

section Documents

structure Row where
  sourceRow : ℤ
  dataRowIndex : ℤ
  values : Dict String Cell
  displayValues : Dict String String
  deriving DecidableEq

structure Sheet where
  tableID : String
  name : String
  index : ℕ
  headers : List String
  rows : List Row
  normalizedHeaders : Dict String (List String)
  deriving DecidableEq

structure Document where
  sourceRef : String
  sourceID : String
  fileName : String
  format : String
  sheets : List Sheet
  materializedRef : String
  deriving DecidableEq

def Row.ofReader (row : Reader.TabularRow Cell) : Row :=
  { sourceRow := row.sourceRow, dataRowIndex := row.dataRowIndex, values := row.values
    displayValues := row.displayValues }

def Sheet.ofReader (sheet : Reader.TabularSheet Cell) : Sheet :=
  { tableID := sheet.tableID, name := sheet.name, index := sheet.index, headers := sheet.headers
    rows := sheet.rows.map Row.ofReader, normalizedHeaders := sheet.normalizedHeaders }

def Sheet.described (sheet : Sheet) : TabularSheet :=
  { name := sheet.name
    index := sheet.index
    headers := sheet.headers
    rows := sheet.rows.map fun row => { displayValues := row.displayValues.entries }
    tableID := sheet.tableID }

def Document.described (document : Document) : TabularDocument :=
  { sourceRef := document.sourceRef
    sourceID := document.sourceID
    fileName := document.fileName
    format := document.format
    sheets := document.sheets.map Sheet.described }

end Documents

section Reading

/-- What a decoder makes of a file: the rows of worksheets, rows of texts, or a text with a document in
each line. -/
inductive Source where
  | workbook (worksheets : List (String × List (List Cell)))
  | delimited (rows : List (List String))
  | jsonl (text : List Char)

def maxSourceRows : ℕ := 50000

/-- A text whose lines end as in files of this system. -/
def universalNewlines : List Char → List Char
  | [] => []
  | '\r' :: '\n' :: rest => '\n' :: universalNewlines rest
  | '\r' :: rest => '\n' :: universalNewlines rest
  | letter :: rest => letter :: universalNewlines rest

/-- The lines of a text file. What ends them does not matter to their readers. -/
def textLines (text : List Char) : List (List Char) :=
  let lines := (universalNewlines text).splitOn '\n'
  if lines.getLast? = some [] then lines.dropLast else lines

def isBlankLine (line : List Char) : Bool := line.all isBlank

variable (library : Library) (runtime : Runtime)

/-- The error of a file with too many rows. -/
def rowLimit (subject label : String) : ReaderError :=
  { message := subject ++ " exceeds " ++ toString maxSourceRows ++ " source rows"
    code := "tabular_source_row_limit"
    details := [("table", .text label), ("max_rows", .number maxSourceRows)] }

/-- A sheet of the rows that there is room for. The first one beyond them is refused. -/
def readSheet (tooMany : ReaderError) (sourceID name : String) (index room : ℕ) (rows : List (List Cell))
    (budget : DecodedBudget) : Except ReaderError (Reader.TabularSheet Cell × DecodedBudget) := do
  let read ← Reader.sheet library (cells runtime) sourceID name index (rows.take room) budget
  refuseIf (room < rows.length) tooMany
  return read

/-- `_excel_sheets`, over all worksheets. -/
def excelSheets (label sourceID : String) : ℕ → ℕ → DecodedBudget → List (String × List (List Cell)) →
    Except ReaderError (List Sheet)
  | _, _, _, [] => .ok []
  | index, room, budget, (name, rows) :: rest => do
      let (sheet, budget) ←
        readSheet library runtime (rowLimit "tabular source" label) sourceID name index room rows budget
      let sheets ← excelSheets label sourceID (index + 1) (room - rows.length) budget rest
      return .ofReader sheet :: sheets

def delimitedSheet (label sourceID : String) (rows : List (List String)) : Except ReaderError Sheet := do
  let (sheet, _) ←
    readSheet library runtime (rowLimit ("tabular table " ++ runtime.repr label) label) sourceID "table" 0
      maxSourceRows (rows.map (·.map .str)) {}
  return .ofReader sheet

/-- What the lines of a file have told so far. -/
structure Records where
  records : Dict String (List (ℤ × ℤ × Dict String Json)) := .empty
  headers : Dict String (List String) := .empty
  fallbackIndexes : Dict String ℕ := .empty
  budget : DecodedBudget := {}

def invalidRow (reason : String) : ReaderError :=
  { message := "tabular source contains invalid row metadata: " ++ reason, code := "tabular_invalid_rows" }

/-- `int(value or fallback)`. -/
def indexOr (fallback : ℤ) (value : Option Json) : Except ReaderError ℤ :=
  match value with
  | some value =>
      if isTruthy value then
        match intOf runtime value with
        | some index => .ok index
        | none => .error (invalidRow (runtime.intError value))
      else .ok fallback
  | none => .ok fallback

/-- The members of a record that are no metadata. -/
def cleanValues (members : List (String × Json)) : Dict String Json :=
  Dict.empty.write
    (members.filter fun member =>
      member.1 ∉ ["sheet_name", "sheet_kind", "data_row_index", "source_row", "instructions"])

def readRecord (progress : Records) (members : List (String × Json)) : Except ReaderError Records := do
  let sheetName := strOr runtime "table" (Members.get? members "sheet_name")
  let fallback := (progress.fallbackIndexes.get? sheetName).getD 0 + 1
  let dataIndex ← indexOr runtime fallback (Members.get? members "data_row_index")
  let sourceRow ← indexOr runtime (dataIndex + 1) (Members.get? members "source_row")
  let clean := cleanValues
    (match Members.get? members "values" with
      | some (.obj values) => values
      | _ => members)
  let budget ← progress.budget.take (cells runtime) (clean.values.map cellOf) sheetName
  return {
    records := progress.records.set sheetName
      ((progress.records.get? sheetName).getD [] ++ [(sourceRow, dataIndex, clean)])
    headers := progress.headers.set sheetName
      (clean.keys.foldl (fun headers header => if header ∈ headers then headers else headers ++ [header])
        ((progress.headers.get? sheetName).getD []))
    fallbackIndexes := progress.fallbackIndexes.set sheetName fallback
    budget }

/-- The loop of `_jsonl_sheets` over the lines. -/
def readRecords (label : String) : ℕ → Records → List (List Char) → Except ReaderError Records
  | _, progress, [] => .ok progress
  | number, progress, line :: rest => do
      refuseIf (maxSourceRows < number) (rowLimit "tabular source" label)
      if isBlankLine line then readRecords label (number + 1) progress rest
      else
        match Json.loads runtime.floatText line with
        | none => throw (invalidRow (runtime.decodeError line))
        | some (.obj members) => do
            let progress ← readRecord runtime progress members
            readRecords label (number + 1) progress rest
        | some _ => throw (invalidRow ("line " ++ toString number ++ " is not an object"))

def jsonlSheet (sourceID name : String) (index : ℕ) (headers : List String)
    (records : List (ℤ × ℤ × Dict String Json)) : Sheet :=
  { tableID := library.tableIDForSource sourceID name
    name
    index
    headers
    rows := records.map fun record =>
      let values := Dict.empty.write
        (headers.map fun header => (header, ((record.2.2.get? header).map cellOf).getD .none))
      { sourceRow := record.1, dataRowIndex := record.2.1, values
        displayValues := values.map (displayValue runtime) }
    normalizedHeaders := Reader.normalizedHeaders library.normalizeHeader headers }

/-- `_jsonl_sheets`, for all sheets. -/
def jsonlSheets (label sourceID : String) (text : List Char) : Except ReaderError (List Sheet) := do
  let progress ← readRecords runtime label 1 {} (textLines text)
  return progress.records.entries.zipIdx.map fun entry =>
    jsonlSheet library runtime sourceID entry.1.1 entry.2 ((progress.headers.get? entry.1.1).getD []) entry.1.2

def readSheets (fileName sourceID : String) : Source → Except ReaderError (List Sheet)
  | .workbook worksheets => excelSheets library runtime fileName sourceID 0 maxSourceRows {} worksheets
  | .delimited rows => (delimitedSheet library runtime fileName sourceID rows).map fun sheet => [sheet]
  | .jsonl text => jsonlSheets library runtime fileName sourceID text

/-- `TabularReader.read`, behind the checks of the size and the suffix of the file. -/
def read (fileName format ref sourceID : String) (source : Source) : Except ReaderError Document := do
  let sheets ← readSheets library runtime fileName sourceID source
  refuseIf (sheets.all fun sheet => sheet.rows.isEmpty)
    { message := "no tabular rows matched the source", code := "tabular_no_rows"
      details := [("source_ref", .text ref)] }
  return { sourceRef := ref, sourceID, fileName, format, sheets, materializedRef := ref }

end Reading

section Storing

def rowPayload (row : Row) : Json :=
  .obj
    [("source_row", .int row.sourceRow), ("data_row_index", .int row.dataRowIndex),
      ("values", .obj (row.values.entries.map fun entry => (entry.1, encodeValue entry.2)))]

def sheetText (sheet : Sheet) : List Char := sheet.rows.flatMap fun row => Json.dumps (rowPayload row) ++ ['\n']

/-- `_safe_snapshot_path` and `_safe_child`, where they do not raise. -/
def safeChild (root : Location) (relative : String) : Option Location :=
  let normalized := normalizeRef relative
  let candidate := joinPath root normalized
  if normalized = "" ∨ ¬ root <+: candidate then none else some candidate

abbrev Files : Type := Dict Location (List Char)

/-- The files of sheets written one after the other. -/
def saveSheets (root : Location) : Files → List (SheetManifest × Sheet) → Option Files
  | files, [] => some files
  | files, (described, sheet) :: rest => do
      let path ← safeChild root described.snapshotPath
      saveSheets root (files.set path (sheetText sheet)) rest

/-- `save`, as far as the sheets are kept, where it does not raise. -/
def save (root : Location) (files : Files) (manifest : SourceManifest) (document : Document) : Option Files :=
  if manifest.sheets.length ≠ document.sheets.length then none
  else saveSheets root files (manifest.sheets.zip document.sheets)

variable (library : Library) (runtime : Runtime)

/-- `row_from_payload`, where it does not raise. -/
def rowFromPayload (headers : List String) (payload : Json) : Option Row :=
  match payload with
  | .obj members => do
      let rawValues : List (String × Json) :=
        match Members.get? members "values" with
        | some (.obj values) => values
        | _ => []
      let decoded ← headers.mapM fun header =>
        (decodeValue runtime ((Members.get? rawValues header).getD .null)).map fun value => (header, value)
      let sourceRow ← (Members.get? members "source_row").bind (intOf runtime)
      let dataRowIndex ← (Members.get? members "data_row_index").bind (intOf runtime)
      let values := Dict.empty.write decoded
      return { sourceRow, dataRowIndex, values, displayValues := values.map (displayValue runtime) }
  | _ => none

/-- The rows of a sheet's file, where each line can be read. -/
def rowsOfText (headers : List String) (text : List Char) : Option (List Row) :=
  ((textLines text).filter fun line => !isBlankLine line).mapM fun line =>
    (Json.loads runtime.floatText line).bind (rowFromPayload runtime headers)

/-- A sheet of `document_from_snapshot`, where it does not raise. -/
def loadSheet (root : Location) (files : Files) (sheet : SheetManifest) : Option Sheet := do
  let path ← safeChild root sheet.snapshotPath
  let text ← files.get? path
  let rows ← rowsOfText runtime sheet.headers text
  return { tableID := sheet.sheetID, name := sheet.name, index := sheet.index, headers := sheet.headers, rows
           normalizedHeaders := Reader.normalizedHeaders library.normalizeHeader sheet.headers }

/-- `document_from_snapshot`, where it does not raise. -/
def documentFromSnapshot (root : Location) (files : Files) (manifest : SourceManifest)
    (selected : List SheetManifest) : Option Document := do
  let sheets ← selected.mapM (loadSheet library runtime root files)
  return { sourceRef := manifest.sourceRef, sourceID := manifest.sourceID, fileName := manifest.fileName
           format := manifest.format, sheets, materializedRef := "" }

end Storing

section Manifests

def sheetMembers (sheet : SheetManifest) : List (String × Json) :=
  [("sheet_id", .str sheet.sheetID), ("name", .str sheet.name), ("index", .int sheet.index),
    ("kind", .str sheet.kind), ("semantic_kind", .str sheet.semanticKind),
    ("headers", .arr (sheet.headers.map .str)), ("data_rows", .int sheet.dataRows),
    ("case_ids", .arr (sheet.caseIDs.map .str)), ("snapshot_path", .str sheet.snapshotPath)]

def schemaVersion : ℤ := 2

def manifestPayload (manifest : SourceManifest) : Json :=
  .obj
    [("schema_version", .int schemaVersion), ("source_id", .str manifest.sourceID),
      ("source_ref", .str manifest.sourceRef), ("content_hash", .str manifest.contentHash),
      ("parser_version", .int manifest.parserVersion), ("file_name", .str manifest.fileName),
      ("format", .str manifest.format), ("size_bytes", .int manifest.sizeBytes),
      ("case_ids", .arr (manifest.caseIDs.map .str)), ("summary", .str manifest.summary),
      ("content_chars", .int manifest.contentChars), ("object_path", .str manifest.objectPath),
      ("runnable_sheet_ids", .arr (manifest.runnableSheetIDs.map .str)),
      ("requires_scope_selection", .bool manifest.requiresScopeSelection),
      ("sheets", .arr (manifest.sheets.map fun sheet => .obj (sheetMembers sheet)))]

variable (runtime : Runtime)

/-- `payload[name]`, where it is there. -/
def member (payload : List (String × Json)) (name : String) : Option Json := Members.get? payload name

def toCount (value : ℤ) : Option ℕ := if 0 ≤ value then some value.toNat else none

/-- `int(payload[name])` of a count. -/
def countOf (value : Json) : Option ℕ := (intOf runtime value).bind toCount

/-- `int(payload.get(name) or 0)`. -/
def intOrZero (value : Option Json) : Option ℤ :=
  match value with
  | some value => if isTruthy value then intOf runtime value else some 0
  | none => some 0

/-- The texts of the items of a list, and of none where it is not there. A text or a dictionary that
stands for the list is not what is written. -/
def textsOf (value : Option Json) : Option (List String) :=
  match value with
  | none => some []
  | some (.arr items) => some (items.map (strOf runtime))
  | some _ => none

/-- A sheet of `manifest_from_payload`, where it does not raise. -/
def sheetFromPayload (payload : List (String × Json)) : Option SheetManifest := do
  let sheetID ← member payload "sheet_id"
  let name ← member payload "name"
  let index ← (member payload "index").bind (countOf runtime)
  let kind ← member payload "kind"
  let semanticKind ← member payload "semantic_kind"
  let headers ← textsOf runtime (member payload "headers")
  let dataRows ← (member payload "data_rows").bind (countOf runtime)
  let caseIDs ← textsOf runtime (member payload "case_ids")
  let snapshotPath ← member payload "snapshot_path"
  return { sheetID := strOf runtime sheetID, name := strOf runtime name, index, kind := strOf runtime kind
           semanticKind := strOf runtime semanticKind, headers, dataRows, caseIDs
           snapshotPath := strOf runtime snapshotPath }

/-- The sheets of a manifest: what is no object among them is left out. -/
def sheetsFromPayload (value : Option Json) : Option (List SheetManifest) :=
  match value with
  | none => some []
  | some (.arr items) =>
      (items.filterMap fun item => match item with
        | .obj payload => some payload
        | _ => none).mapM (sheetFromPayload runtime)
  | some _ => none

/-- `manifest_from_payload`, where it does not raise. -/
def manifestFromPayload (value : Json) : Option SourceManifest :=
  match value with
  | .obj payload => do
      let version ← intOrZero runtime (member payload "schema_version")
      if version ≠ schemaVersion then none
      else do
        let sourceID ← member payload "source_id"
        let sourceRef ← member payload "source_ref"
        let contentHash ← member payload "content_hash"
        let parserVersion ← (member payload "parser_version").bind (countOf runtime)
        let fileName ← member payload "file_name"
        let format ← member payload "format"
        let sizeBytes ← (member payload "size_bytes").bind (countOf runtime)
        let sheets ← sheetsFromPayload runtime (member payload "sheets")
        let caseIDs ← textsOf runtime (member payload "case_ids")
        let runnableSheetIDs ← textsOf runtime (member payload "runnable_sheet_ids")
        let contentChars ← (intOrZero runtime (member payload "content_chars")).bind toCount
        return { sourceID := strOf runtime sourceID, sourceRef := strOf runtime sourceRef
                 contentHash := strOf runtime contentHash, parserVersion, fileName := strOf runtime fileName
                 format := strOf runtime format, sizeBytes, sheets, caseIDs, runnableSheetIDs
                 requiresScopeSelection := ((member payload "requires_scope_selection").map isTruthy).getD false
                 summary := strOr runtime "" (member payload "summary"), contentChars
                 objectPath := strOr runtime "" (member payload "object_path") }
  | _ => none

end Manifests

end Sico.Sources.Snapshot

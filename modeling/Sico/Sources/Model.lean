import Mathlib
import Sico.AgentLoop.Identifiers
import Sico.Foundation.Dict

/-! # Sources of a workspace

A source is a file under a ref. Its manifest is kept in a snapshot that all refs with the same
content and format share, and an index tells the snapshot of each ref. A manifest that is
found for a ref is bound to it: the identifiers of the source and of its sheets are computed
anew. `index_path` reads the sheets of a file, and `index_text` attaches what was extracted of
it as text.

The name of a snapshot's directory is made of the hash of the content, the format, which has
no dot, and the version of the parser, so it is modelled by the three. The rows of the sheets
and the copies of the files are stored beside the manifests and not read by what is modelled
here.
-/

namespace Sico.Sources

open Foundation AgentLoop

section Data

structure SourceError where
  message : String
  code : String := "source_failed"
  deriving DecidableEq, Repr

/-- A row, with the headers and the values as they are displayed. -/
structure TabularRow where
  displayValues : List (String × String)
  deriving DecidableEq, Repr

/-- A table of a file, before it has an identifier. -/
structure Table where
  name : String
  index : ℕ
  headers : List String
  rows : List TabularRow
  deriving DecidableEq, Repr

structure TabularSheet extends Table where
  tableID : String
  deriving DecidableEq, Repr

structure TabularDocument where
  sourceRef : String
  sourceID : String
  fileName : String
  format : String
  sheets : List TabularSheet
  deriving DecidableEq, Repr

structure SheetManifest where
  sheetID : String
  name : String
  index : ℕ
  kind : String
  semanticKind : String
  headers : List String
  dataRows : ℕ
  caseIDs : List String
  snapshotPath : String
  deriving DecidableEq, Repr

structure SourceManifest where
  sourceID : String
  sourceRef : String
  contentHash : String
  parserVersion : ℕ
  fileName : String
  format : String
  sizeBytes : ℕ
  sheets : List SheetManifest
  caseIDs : List String
  runnableSheetIDs : List String
  requiresScopeSelection : Bool
  summary : String := ""
  contentChars : ℕ := 0
  objectPath : String := ""
  deriving DecidableEq, Repr

/-- A file: the last part of its path, and its bytes. -/
structure File where
  name : String
  bytes : ByteArray
  deriving DecidableEq

/-- What the service takes from libraries and from the readers of the formats: the hexadecimal
SHA-256 digest, `str.lower`, the canonical forms of case identifiers and of headers, which
rest on the normal forms of Unicode, the matches of the pattern of case identifiers in a text,
and the tables of a file of a supported format. -/
structure Library where
  sha256 : ByteArray → String
  lower : String → String
  canonicalCaseID : String → String
  normalizeHeader : String → String
  caseIDMatches : String → List String
  tables : String → ByteArray → Except SourceError (List Table)

end Data

def parserVersion : ℕ := 1

def normalizeRef (ref : String) : String :=
  let slashed := String.ofList (ref.toList.map fun c => if c = '\\' then '/' else c)
  String.ofList ((strip slashed).toList.dropWhile (· = '/'))

/-- `Path(…).name` of a ref. -/
def refName (ref : String) : String :=
  let parts := (ref.toList.splitOn '/').map String.ofList
  ((parts.filter fun part => part ≠ "" ∧ part ≠ ".").getLast?).getD ""

/-- What stands behind the last dot of a file's name, if there is something before the dot and
behind it. -/
def fileExtension (name : String) : String :=
  let behind := name.toList.reverse.takeWhile (· ≠ '.')
  let before := (name.toList.reverse.dropWhile (· ≠ '.')).drop 1
  if before = [] then "" else String.ofList behind.reverse

namespace Library

variable (library : Library)

section Identifiers

def textDigest (length : ℕ) (text : String) : String :=
  String.ofList ((library.sha256 text.toUTF8).toList.take length)

def sourceOccurrenceID (contentHash ref : String) : String :=
  library.textDigest 16 (contentHash ++ "\x00" ++ normalizeRef ref)

def tableIDForSource (sourceID sheetName : String) : String :=
  sourceID ++ ":" ++ library.textDigest 8 sheetName

/-- `path.suffix.lower().lstrip(".")`: the suffix has a dot at its start only. -/
def format (file : File) : String := library.lower (fileExtension file.name)

def contentHash (file : File) : String := library.sha256 file.bytes

def sourceObjectPath (contentHash format : String) : String :=
  let suffix := library.lower (strip format)
  "objects/" ++ contentHash ++ "/source." ++ if suffix = "" then "bin" else suffix

end Identifiers

section Reading

def tabularMaxBytes : ℕ := 32 * 1024 * 1024

def supportedTabularFormats : List String := ["xlsx", "xlsm", "csv", "tsv", "jsonl"]

/-- The tables of a file, after the checks that `TabularReader.read` makes of them. -/
def readTables (format : String) (bytes : ByteArray) : Except SourceError (List Table) := do
  refuseIf (tabularMaxBytes < bytes.size)
    { message := "tabular source exceeds 33554432 bytes", code := "tabular_source_too_large" }
  refuseIf (format ∉ supportedTabularFormats)
    { message := "unsupported tabular source format: " ++ (if format = "" then "<none>" else "." ++ format)
      code := "tabular_unsupported_format" }
  let tables ← library.tables format bytes
  refuseIf (tables.all fun table => table.rows.isEmpty)
    { message := "no tabular rows matched the source", code := "tabular_no_rows" }
  return tables

def toDocument (file : File) (ref sourceID : String) (tables : List Table) : TabularDocument :=
  { sourceRef := ref, sourceID, fileName := file.name, format := library.format file
    sheets := tables.map fun table =>
      { table with tableID := library.tableIDForSource sourceID table.name } }

def read (file : File) (ref sourceID : String) : Except SourceError TabularDocument :=
  (library.readTables (library.format file) file.bytes).map (library.toDocument file ref sourceID)

end Reading

section Describing

/-- `canonical_case_id_pairs`, the case identifiers without repetition: the first of those with
one canonical form is kept. -/
def caseIDPairs (values : List String) : List (String × String) :=
  values.foldl (fun selected value =>
    let display := strip value
    let key := library.canonicalCaseID display
    if key = "" ∨ key ∈ selected.map Prod.fst then selected else selected ++ [(key, display)]) []

def dedupeCaseIDs (values : List String) : List String := (library.caseIDPairs values).map Prod.snd

def caseIDHeaders : List String :=
  ["id", "case_id", "test_case_id", "testcase_id", "tc_id", "用例id", "用例编号"]

def titleHeaders : List String :=
  ["title", "case_title", "test_case", "testcase", "test_title", "name", "标题", "用例标题"]

def stepsHeaders : List String :=
  ["steps", "test_steps", "action", "actions", "操作步骤", "测试步骤", "步骤"]

def expectedHeaders : List String :=
  ["expected", "expected_result", "expected_results", "预期结果", "期望结果"]

/-- `case_id_for_row`, which both normalizers use. -/
def caseIDForRow (row : TabularRow) : String :=
  match row.displayValues.find? fun value =>
      library.normalizeHeader value.1 ∈ caseIDHeaders ∧ strip value.2 ≠ "" with
  | some value => strip value.2
  | none => ((row.displayValues.flatMap fun value => library.caseIDMatches value.2).head?).getD ""

/-- The `normalizer_id` of the normalizer that is selected for a sheet. -/
def normalizerID (headers : List String) : String :=
  let has (names : List String) := headers.any fun header => library.normalizeHeader header ∈ names
  if has stepsHeaders && has expectedHeaders && (has caseIDHeaders || has titleHeaders)
      || has caseIDHeaders && has titleHeaders && (has stepsHeaders || has expectedHeaders) then
    "testcase_v1"
  else "generic_row_v1"

def classifySheet (name : String) (headers : List String) (dataRows : ℕ) : String :=
  let loweredName := library.lower (strip name)
  let loweredHeaders := (headers.filter fun header => strip header ≠ "").map fun header =>
    library.lower (strip header)
  if dataRows = 0 then "empty"
  else if loweredName ∈ ["summary", "readme", "overview"]
      ∨ loweredHeaders ≠ [] ∧ ∀ header ∈ loweredHeaders, header ∈ ["metric", "value"] then "summary"
  else if loweredName ∈ ["master", "all", "combined"]
      ∨ ∀ header ∈ ["source_file", "source_row"], header ∈ loweredHeaders then "master"
  else "data"

/-- The case identifiers of the rows under the identifier of a table: of sheets with the same
one, the last. -/
def caseIDsByTable (document : TabularDocument) (tableID : String) : List String :=
  match document.sheets.reverse.find? fun sheet => sheet.tableID = tableID with
  | some sheet => sheet.rows.map library.caseIDForRow
  | none => []

def behindLastColon (text : String) : String :=
  String.ofList (text.toList.reverse.takeWhile (· ≠ ':')).reverse

def sheetManifest (document : TabularDocument) (sheet : TabularSheet) : SheetManifest :=
  { sheetID := sheet.tableID
    name := sheet.name
    index := sheet.index
    kind := library.classifySheet sheet.name sheet.headers sheet.rows.length
    semanticKind := library.normalizerID sheet.headers
    headers := sheet.headers
    dataRows := sheet.rows.length
    caseIDs := library.dedupeCaseIDs (library.caseIDsByTable document sheet.tableID)
    snapshotPath := "tables/" ++ behindLastColon sheet.tableID ++ ".jsonl" }

/-- The sheets that can be run: those with data, or else the master sheets. -/
def executable (sheets : List SheetManifest) : List SheetManifest :=
  let ofKind (kind : String) := sheets.filter fun sheet => sheet.kind = kind ∧ 0 < sheet.dataRows
  if ofKind "data" = [] then ofKind "master" else ofKind "data"

def manifest (file : File) (ref digest : String) (document : TabularDocument) : SourceManifest :=
  let sheets := document.sheets.map (library.sheetManifest document)
  { sourceID := document.sourceID
    sourceRef := ref
    contentHash := digest
    parserVersion := parserVersion
    fileName := file.name
    format := document.format
    sizeBytes := file.bytes.size
    sheets
    caseIDs := library.dedupeCaseIDs
      (document.sheets.flatMap fun sheet => library.caseIDsByTable document sheet.tableID)
    runnableSheetIDs := (executable sheets).map SheetManifest.sheetID
    requiresScopeSelection := 1 < (executable sheets).length
    objectPath := library.sourceObjectPath digest document.format }

def bindSourceRef (manifest : SourceManifest) (ref fileName : String) : SourceManifest :=
  let sourceID := library.sourceOccurrenceID manifest.contentHash ref
  let bound (sheet : SheetManifest) : SheetManifest :=
    { sheet with sheetID := library.tableIDForSource sourceID sheet.name }
  { manifest with
    sourceID
    sourceRef := ref
    fileName
    sheets := manifest.sheets.map bound
    runnableSheetIDs := (manifest.sheets.filter fun sheet =>
      sheet.sheetID ∈ manifest.runnableSheetIDs).map fun sheet => (bound sheet).sheetID }

end Describing

end Library

section Repository

/-- The parts of the name of a snapshot's directory. -/
structure SnapshotKey where
  contentHash : String
  format : String
  parserVersion : ℕ
  deriving DecidableEq, Repr

def SourceManifest.snapshotKey (manifest : SourceManifest) : SnapshotKey :=
  ⟨manifest.contentHash, manifest.format, manifest.parserVersion⟩

/-- An entry of the index, with the snapshot that its path leads to. -/
structure IndexEntry where
  sourceID : String
  contentHash : String
  fileName : String
  snapshot : SnapshotKey
  deriving DecidableEq, Repr

/-- `WorkspaceSourceRepository`: the index and the manifests of the snapshots. -/
structure Repository where
  index : Dict String IndexEntry
  manifests : Dict SnapshotKey SourceManifest

namespace Repository

variable (library : Library)

def empty : Repository := ⟨.empty, .empty⟩

def find (repository : Repository) (ref : String) : Option SourceManifest :=
  (repository.index.get? (normalizeRef ref)).bind fun entry =>
    (repository.manifests.get? entry.snapshot).map fun manifest =>
      library.bindSourceRef manifest (normalizeRef ref)
        (if entry.fileName = "" then refName (normalizeRef ref) else entry.fileName)

def saveManifest (repository : Repository) (manifest : SourceManifest) : Repository :=
  { manifests := repository.manifests.set manifest.snapshotKey manifest
    index := repository.index.set (normalizeRef manifest.sourceRef)
      { sourceID := manifest.sourceID, contentHash := manifest.contentHash
        fileName := manifest.fileName, snapshot := manifest.snapshotKey } }

/-- Whether a manifest is of the file, as `index_path` and `index_text` ask. -/
def isOf (manifest : SourceManifest) (file : File) : Bool :=
  manifest.contentHash = library.contentHash file && manifest.parserVersion = parserVersion
    && manifest.format = library.format file

def indexPath (repository : Repository) (ref : String) (file : File) :
    Except SourceError (SourceManifest × Repository) :=
  let digest := library.contentHash file
  let cached := repository.find library ref
  match cached.filter fun found => isOf library found file && found.sheets ≠ [] && found.objectPath ≠ "" with
  | some found => .ok (found, repository)
  | none =>
      (library.read file ref (library.sourceOccurrenceID digest ref)).map fun document =>
        let manifest := library.manifest file ref digest document
        let kept := match cached.filter fun found => found.contentHash = digest with
          | some found => { manifest with summary := found.summary, contentChars := found.contentChars }
          | none => manifest
        let saved := repository.saveManifest kept
        ((saved.find library ref).getD kept, saved)

/-- A manifest without sheets, for a file that is known by its text only. -/
def textManifest (ref : String) (file : File) : SourceManifest :=
  { sourceID := library.sourceOccurrenceID (library.contentHash file) ref
    sourceRef := ref
    contentHash := library.contentHash file
    parserVersion := parserVersion
    fileName := file.name
    format := library.format file
    sizeBytes := file.bytes.size
    sheets := []
    caseIDs := []
    runnableSheetIDs := []
    requiresScopeSelection := false
    objectPath := library.sourceObjectPath (library.contentHash file) (library.format file) }

/-- The manifest that `index_text` attaches the text to. -/
def attachedManifest (repository : Repository) (ref : String) (file : File) : SourceManifest :=
  ((repository.find library ref).filter (isOf library · file)).getD (textManifest library ref file)

def indexText (repository : Repository) (ref : String) (file : File) (fullText summary : String) :
    SourceManifest × Repository :=
  let manifest := repository.attachedManifest library ref file
  let updated := { manifest with
    caseIDs := library.dedupeCaseIDs (manifest.caseIDs ++ library.caseIDMatches fullText)
    contentChars := fullText.length
    summary }
  (updated, repository.saveManifest updated)

end Repository

/-- The calls of the service on a workspace. -/
inductive Call where
  | indexPath (ref : String) (file : File)
  | indexText (ref : String) (file : File) (fullText summary : String)

/-- The repository behind a call, which is as before if the call fails. -/
def Repository.call (library : Library) (repository : Repository) : Call → Repository
  | .indexPath ref file =>
      match repository.indexPath library ref file with
      | .ok (_, saved) => saved
      | .error _ => repository
  | .indexText ref file fullText summary => (repository.indexText library ref file fullText summary).2

end Repository

end Sico.Sources

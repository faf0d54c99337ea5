import Sico.Sources.Model

/-! # Manifests bound to a ref

What a manifest says about the sheets of a file depends on the ref it was made for through the
identifiers only. Binding it to another ref gives what reading the file for that ref gives, so
refs can share the manifest of a content.
-/

namespace Sico.Sources

open Foundation

namespace Library

variable (library : Library) {sourceID other : String} {tables : List Table}

section Identifiers

theorem tableIDForSource_inj {first second : String} :
    library.tableIDForSource sourceID first = library.tableIDForSource sourceID second ↔
      library.textDigest 8 first = library.textDigest 8 second := by
  unfold tableIDForSource
  rw [← String.toList_inj, ← String.toList_inj]
  simp

theorem tableIDForSource_congr {first second : String} :
    library.tableIDForSource sourceID first = library.tableIDForSource sourceID second ↔
      library.tableIDForSource other first = library.tableIDForSource other second := by
  rw [tableIDForSource_inj, tableIDForSource_inj]

theorem takeWhile_append_stop {stops : Char → Bool} (front back : List Char) {stop : Char}
    (here : stops stop = false) :
    (front ++ stop :: back).takeWhile stops = (front ++ [stop]).takeWhile stops := by
  induction front with
  | nil => simp [here]
  | cons first rest ih => simp [List.takeWhile_cons, ih]

theorem behindLastColon_tableIDForSource (sourceID other name : String) :
    behindLastColon (library.tableIDForSource sourceID name) =
      behindLastColon (library.tableIDForSource other name) := by
  have cut (id : String) : (library.tableIDForSource id name).toList.reverse =
      (library.textDigest 8 name).toList.reverse ++ ':' :: id.toList.reverse := by
    simp [tableIDForSource]
  unfold behindLastColon
  rw [cut, cut, takeWhile_append_stop _ sourceID.toList.reverse (by decide),
    takeWhile_append_stop _ other.toList.reverse (by decide)]

end Identifiers

section Sheets

def sheetsOf (sourceID : String) (tables : List Table) : List SheetManifest :=
  let document := library.toDocument ⟨"", .empty⟩ "" sourceID tables
  document.sheets.map (library.sheetManifest document)

/-- The identifiers of the sheets that can be run, of a manifest made for a source. -/
def runnableOf (sourceID : String) (tables : List Table) : List String :=
  ((library.sheetsOf sourceID tables).filter fun sheet =>
    sheet.sheetID ∈ (executable (library.sheetsOf sourceID tables)).map SheetManifest.sheetID).map
      SheetManifest.sheetID

/-- A sheet under the identifier it has for a source. -/
def rebound (sourceID : String) (sheet : SheetManifest) : SheetManifest :=
  { sheet with sheetID := library.tableIDForSource sourceID sheet.name }

theorem caseIDsByTable_congr (sourceID other : String) (tables : List Table) (name : String) :
    library.caseIDsByTable (library.toDocument ⟨"", .empty⟩ "" sourceID tables)
        (library.tableIDForSource sourceID name) =
      library.caseIDsByTable (library.toDocument ⟨"", .empty⟩ "" other tables)
        (library.tableIDForSource other name) := by
  have sheet (id : String) :
      (library.toDocument ⟨"", .empty⟩ "" id tables).sheets.reverse.find?
          (fun sheet => sheet.tableID = library.tableIDForSource id name) =
        (tables.reverse.find? fun table => library.textDigest 8 table.name = library.textDigest 8 name).map
          fun table => { table with tableID := library.tableIDForSource id table.name } := by
    unfold toDocument
    rw [← List.map_reverse, List.find?_map]
    congr 2
    funext table
    exact decide_eq_decide.mpr (library.tableIDForSource_inj)
  unfold caseIDsByTable
  rw [sheet, sheet]
  cases tables.reverse.find? fun table => library.textDigest 8 table.name = library.textDigest 8 name with
  | none => rfl
  | some table => rfl

theorem map_rebound_sheetsOf (sourceID other : String) (tables : List Table) :
    (library.sheetsOf sourceID tables).map (library.rebound other) = library.sheetsOf other tables := by
  unfold sheetsOf
  dsimp only [toDocument]
  rw [List.map_map, List.map_map, List.map_map]
  apply List.map_congr_left
  intro table _
  have cases := library.caseIDsByTable_congr sourceID other tables table.name
  have path := library.behindLastColon_tableIDForSource sourceID other table.name
  simp only [Function.comp, rebound, sheetManifest]
  simp only [toDocument] at cases
  rw [cases, path]

theorem executable_map_rebound (sheets : List SheetManifest) :
    executable (sheets.map (library.rebound other)) = (executable sheets).map (library.rebound other) := by
  have filtered (kind : String) :
      (sheets.map (library.rebound other)).filter (fun sheet => sheet.kind = kind ∧ 0 < sheet.dataRows) =
        (sheets.filter fun sheet => sheet.kind = kind ∧ 0 < sheet.dataRows).map (library.rebound other) := by
    rw [List.filter_map]
    rfl
  unfold executable
  simp only [filtered, List.map_eq_nil_iff]
  split <;> rfl

theorem sheetID_of_mem_sheetsOf {sheet : SheetManifest} (member : sheet ∈ library.sheetsOf sourceID tables) :
    sheet.sheetID = library.tableIDForSource sourceID sheet.name := by
  unfold sheetsOf at member
  dsimp only [toDocument] at member
  rw [List.map_map] at member
  obtain ⟨table, -, rfl⟩ := List.mem_map.mp member
  rfl

theorem mem_of_mem_executable {sheets : List SheetManifest} {sheet : SheetManifest}
    (member : sheet ∈ executable sheets) : sheet ∈ sheets := by
  unfold executable at member
  dsimp only at member
  split at member <;> exact List.mem_of_mem_filter member

theorem rebound_executable {sheet : SheetManifest} (member : sheet ∈ library.sheetsOf sourceID tables) :
    (library.rebound other sheet).sheetID ∈
        (executable (library.sheetsOf other tables)).map SheetManifest.sheetID ↔
      sheet.sheetID ∈ (executable (library.sheetsOf sourceID tables)).map SheetManifest.sheetID := by
  rw [← library.map_rebound_sheetsOf sourceID, executable_map_rebound, List.map_map,
    List.mem_map, List.mem_map]
  apply exists_congr
  intro run
  apply and_congr_right
  intro listed
  have ownID := library.sheetID_of_mem_sheetsOf member
  have runID := library.sheetID_of_mem_sheetsOf (mem_of_mem_executable listed)
  rw [ownID, runID]
  exact library.tableIDForSource_congr

end Sheets

end Library

/-- A manifest has the sheets of the tables, for some source, and marks those that can be run. -/
def SourceManifest.Copies (library : Library) (manifest : SourceManifest) (tables : List Table) : Prop :=
  ∃ sourceID, manifest.sheets = library.sheetsOf sourceID tables ∧
    ∀ sheet ∈ manifest.sheets, sheet.sheetID ∈ manifest.runnableSheetIDs ↔
      sheet.sheetID ∈ (Library.executable manifest.sheets).map SheetManifest.sheetID

namespace SourceManifest.Copies

variable {library : Library} {manifest : SourceManifest} {tables : List Table} {ref fileName : String}

theorem sheets_bindSourceRef (copies : manifest.Copies library tables) :
    (library.bindSourceRef manifest ref fileName).sheets =
      library.sheetsOf (library.sourceOccurrenceID manifest.contentHash ref) tables := by
  obtain ⟨sourceID, sheets, -⟩ := copies
  unfold Library.bindSourceRef
  dsimp only
  rw [sheets]
  exact library.map_rebound_sheetsOf _ _ _

theorem runnable_bindSourceRef (copies : manifest.Copies library tables) :
    (library.bindSourceRef manifest ref fileName).runnableSheetIDs =
      library.runnableOf (library.sourceOccurrenceID manifest.contentHash ref) tables := by
  obtain ⟨sourceID, sheets, marked⟩ := copies
  unfold Library.runnableOf
  rw [← library.map_rebound_sheetsOf sourceID, List.filter_map, List.map_map,
    library.map_rebound_sheetsOf]
  unfold Library.bindSourceRef
  dsimp only
  rw [sheets] at marked ⊢
  congr 1
  apply List.filter_congr
  intro sheet member
  apply decide_eq_decide.mpr
  rw [marked sheet member]
  exact (library.rebound_executable member).symm

theorem bindSourceRef (copies : manifest.Copies library tables) :
    (library.bindSourceRef manifest ref fileName).Copies library tables := by
  refine ⟨_, copies.sheets_bindSourceRef, ?_⟩
  intro sheet member
  rw [copies.runnable_bindSourceRef, copies.sheets_bindSourceRef] at *
  unfold Library.runnableOf
  constructor
  · intro marked
    obtain ⟨run, listed, same⟩ := List.mem_map.mp marked
    rw [← same]
    exact of_decide_eq_true (List.mem_filter.mp listed).2
  · intro run
    exact List.mem_map.mpr ⟨sheet, List.mem_filter.mpr ⟨member, decide_eq_true run⟩, rfl⟩

end SourceManifest.Copies

section Produced

/-- Whether two manifests say the same about their source: its content and format, its sheets
and which of them can be run, under the same identifier. -/
structure SourceManifest.SameSource (first second : SourceManifest) : Prop where
  contentHash : first.contentHash = second.contentHash
  format : first.format = second.format
  sheets : first.sheets = second.sheets
  runnableSheetIDs : first.runnableSheetIDs = second.runnableSheetIDs
  sourceID : first.sourceID = second.sourceID

theorem copies_manifest (library : Library) (file : File) (ref digest sourceID : String) (tables : List Table) :
    (library.manifest file ref digest (library.toDocument file ref sourceID tables)).Copies library tables :=
  ⟨sourceID, rfl, fun _ _ => Iff.rfl⟩

theorem SourceManifest.Copies.sameSource {library : Library} {first second : SourceManifest} {tables : List Table}
    (firstCopies : first.Copies library tables) (secondCopies : second.Copies library tables)
    (contentHash : first.contentHash = second.contentHash) (format : first.format = second.format)
    (ref firstName secondName : String) :
    (library.bindSourceRef first ref firstName).SameSource (library.bindSourceRef second ref secondName) where
  contentHash := contentHash
  format := format
  sheets := by rw [firstCopies.sheets_bindSourceRef, secondCopies.sheets_bindSourceRef, contentHash]
  runnableSheetIDs := by rw [firstCopies.runnable_bindSourceRef, secondCopies.runnable_bindSourceRef, contentHash]
  sourceID := congrArg (library.sourceOccurrenceID · ref) contentHash

end Produced

end Sico.Sources

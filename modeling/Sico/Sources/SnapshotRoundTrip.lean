import Mathlib.Data.Fintype.Pigeonhole
import Mathlib.Data.Set.Finite.List
import Sico.AgentLoop.CallIDs
import Sico.Sources.StoredRows

/-! # Snapshots round trip

A document that is read is loaded from its snapshot as it was, for each selection of its sheets, where
the names of its sheets have different digests: a sheet's file is named by the first digits of the
digest of its name, and of sheets that share them the last one written is the one that is loaded.
-/

namespace Sico.Sources.Snapshot

open Foundation AgentLoop
open Reader (Cells DecodedBudget ReaderError)

section Produced

variable {library : Library} {runtime : Runtime} {sourceID : String}

def Row.IsUnder (runtime : Runtime) (headers : List String) (row : Row) : Prop :=
  ∃ columns : List (String × Cell), columns.map Prod.fst = headers ∧ row.values = Dict.empty.write columns ∧
    row.displayValues = row.values.map (displayValue runtime)

/-- A sheet as readers make it. -/
structure Sheet.IsRead (library : Library) (runtime : Runtime) (sourceID : String) (sheet : Sheet) : Prop where
  tableID : sheet.tableID = library.tableIDForSource sourceID sheet.name
  normalized : sheet.normalizedHeaders = Reader.normalizedHeaders library.normalizeHeader sheet.headers
  rows : ∀ row ∈ sheet.rows, row.IsUnder runtime sheet.headers

/-- The rows read so far stand under the headers. -/
def AreUnder (runtime : Runtime) (progress : Reader.Progress Cell) : Prop :=
  match progress.headers with
  | none => progress.rows = []
  | some headers => ∀ row ∈ progress.rows, ∃ sourceRow dataRowIndex values,
      row = Reader.tabularRow (cells runtime) headers sourceRow dataRowIndex values

theorem areUnder_readRow {progress : Reader.Progress Cell} (under : AreUnder runtime progress)
    (row : List Cell × ℕ) : AreUnder runtime (Reader.readRow (cells runtime) progress row) := by
  unfold Reader.readRow
  cases known : progress.headers with
  | none =>
      dsimp only
      split
      · exact under
      · unfold AreUnder at under ⊢
        rw [known] at under
        dsimp only at under ⊢
        rw [under]
        intro row listed
        cases listed
  | some headers =>
      dsimp only
      split
      · exact under
      · unfold AreUnder at under ⊢
        rw [known] at under
        dsimp only at under ⊢
        intro other listed
        rcases List.mem_append.mp listed with earlier | here
        · exact under other earlier
        · exact ⟨row.2, progress.dataIndex + 1, row.1, List.mem_singleton.mp here⟩

theorem areUnder_foldl {progress : Reader.Progress Cell} (under : AreUnder runtime progress)
    (rows : List (List Cell × ℕ)) : AreUnder runtime (rows.foldl (Reader.readRow (cells runtime)) progress) := by
  induction rows generalizing progress with
  | nil => exact under
  | cons row rest ih => exact ih (areUnder_readRow under row)

theorem isRead_ofReader {name : String} {index : ℕ} {rawRows : List (List Cell)} {budget left : DecodedBudget}
    {tabular : Reader.TabularSheet Cell}
    (isRead : Reader.sheet library (cells runtime) sourceID name index rawRows budget = .ok (tabular, left)) :
    (Sheet.ofReader tabular).IsRead library runtime sourceID := by
  obtain ⟨⟨progress, taken⟩, read, made⟩ := bind_eq_ok.mp isRead
  have start : AreUnder runtime ({} : Reader.Progress Cell) := rfl
  have under : AreUnder runtime progress := by
    rw [Reader.readRows_eq_ok read]
    exact areUnder_foldl start _
  dsimp only at made
  cases known : progress.headers with
  | none =>
      rw [known] at made
      cases made
  | some headers =>
      rw [known] at made
      cases made
      unfold AreUnder at under
      rw [known] at under
      refine ⟨rfl, rfl, ?_⟩
      intro row listed
      obtain ⟨origin, inside, rfl⟩ := List.mem_map.mp listed
      obtain ⟨sourceRow, dataRowIndex, values, rfl⟩ := under origin inside
      refine ⟨headers.zipIdx.map fun header => (header.1, values.getD header.2 Cell.none), ?_, rfl, rfl⟩
      rw [List.map_map]
      exact List.zipIdx_map_fst 0 headers

theorem isRead_readSheet {tooMany : ReaderError} {name : String} {index room : ℕ} {rows : List (List Cell)}
    {budget left : DecodedBudget} {tabular : Reader.TabularSheet Cell}
    (isRead : readSheet library runtime tooMany sourceID name index room rows budget = .ok (tabular, left)) :
    (Sheet.ofReader tabular).IsRead library runtime sourceID := by
  obtain ⟨read, made, checked⟩ := bind_eq_ok.mp isRead
  obtain ⟨-, -, same⟩ := bind_eq_ok.mp checked
  cases same
  exact isRead_ofReader made

theorem isRead_excelSheets {label : String} {index room : ℕ} {budget : DecodedBudget}
    {worksheets : List (String × List (List Cell))} {sheets : List Sheet}
    (isRead : excelSheets library runtime label sourceID index room budget worksheets = .ok sheets) :
    ∀ sheet ∈ sheets, sheet.IsRead library runtime sourceID := by
  induction worksheets generalizing index room budget sheets with
  | nil =>
      cases isRead
      intro sheet listed
      cases listed
  | cons worksheet rest ih =>
      obtain ⟨⟨tabular, left⟩, made, onward⟩ := bind_eq_ok.mp isRead
      obtain ⟨others, later, same⟩ := bind_eq_ok.mp onward
      cases same
      intro sheet listed
      rcases List.mem_cons.mp listed with rfl | behind
      · exact isRead_readSheet made
      · exact ih later sheet behind

theorem isRead_jsonlSheet (name : String) (index : ℕ) (headers : List String)
    (records : List (ℤ × ℤ × Dict String Json)) :
    (jsonlSheet library runtime sourceID name index headers records).IsRead library runtime sourceID := by
  refine ⟨rfl, rfl, ?_⟩
  intro row listed
  obtain ⟨record, inside, rfl⟩ := List.mem_map.mp listed
  refine ⟨headers.map fun header => (header, ((record.2.2.get? header).map cellOf).getD .none), ?_, rfl, rfl⟩
  rw [List.map_map]
  exact List.map_id' headers

theorem isRead_read {fileName format ref : String} {source : Source} {document : Document}
    (isRead : read library runtime fileName format ref sourceID source = .ok document) :
    (document.sourceRef = ref ∧ document.fileName = fileName) ∧
      ∀ sheet ∈ document.sheets, sheet.IsRead library runtime sourceID := by
  obtain ⟨sheets, made, checked⟩ := bind_eq_ok.mp isRead
  obtain ⟨-, -, same⟩ := bind_eq_ok.mp checked
  cases same
  refine ⟨⟨rfl, rfl⟩, ?_⟩
  cases source with
  | workbook worksheets => exact isRead_excelSheets made
  | delimited rows =>
      rw [readSheets] at made
      cases one : delimitedSheet library runtime fileName sourceID rows with
      | error raised =>
          rw [one] at made
          cases made
      | ok sheet =>
          rw [one] at made
          cases made
          obtain ⟨⟨tabular, left⟩, done, same⟩ := bind_eq_ok.mp one
          cases same
          intro sheet listed
          rw [List.mem_singleton.mp listed]
          exact isRead_readSheet done
  | jsonl text =>
      obtain ⟨progress, -, same⟩ := bind_eq_ok.mp made
      cases same
      intro sheet listed
      obtain ⟨entry, -, rfl⟩ := List.mem_map.mp listed
      exact isRead_jsonlSheet _ _ _ _

theorem Row.IsUnder.reads {headers : List String} {row : Row} (under : row.IsUnder runtime headers)
    (proper : ∀ cell ∈ row.values.values, cell.Proper runtime.floatText) : row.Reads runtime headers := by
  obtain ⟨columns, keys, values, displayed⟩ := under
  refine ⟨?_, displayed, proper⟩
  rw [values, Dict.keys_write_empty, keys]

end Produced

section Files

variable {library : Library} {root : Location}

/-- The digest of a text is in hexadecimal digits. -/
def Hexadecimal (library : Library) : Prop :=
  ∀ bytes, ∀ letter ∈ (library.sha256 bytes).toList, letter ∈ "0123456789abcdef".toList

theorem forall_mem_of_all {letters allowed : List Char} (all : letters.all fun letter => letter ∈ allowed) :
    ∀ letter ∈ letters, letter ∈ allowed :=
  fun letter listed => of_decide_eq_true (List.all_eq_true.mp all letter listed)

theorem hexadecimal_textDigest (hexadecimal : Hexadecimal library) (length : ℕ) (text : String) :
    ∀ letter ∈ (library.textDigest length text).toList, letter ∈ "0123456789abcdef".toList := by
  intro letter listed
  unfold Library.textDigest at listed
  rw [String.toList_ofList] at listed
  exact hexadecimal _ letter (List.mem_of_mem_take listed)

theorem notMem_textDigest (hexadecimal : Hexadecimal library) {letter : Char}
    (other : letter ∉ "0123456789abcdef".toList) (length : ℕ) (text : String) :
    letter ∉ (library.textDigest length text).toList :=
  fun listed => other (hexadecimal_textDigest hexadecimal length text letter listed)

def fileName (library : Library) (name : String) : String := library.textDigest 8 name ++ ".jsonl"

theorem snapshotPath_eq (hexadecimal : Hexadecimal library) (sourceID name : String) :
    "tables/" ++ Library.behindLastColon (library.tableIDForSource sourceID name) ++ ".jsonl" =
      "tables/" ++ fileName library name := by
  have colon : ':' ∉ (library.textDigest 8 name).toList := notMem_textDigest hexadecimal (by decide) 8 name
  have behind : Library.behindLastColon (library.tableIDForSource sourceID name) = library.textDigest 8 name := by
    have letters : (library.tableIDForSource sourceID name).toList.reverse =
        (library.textDigest 8 name).toList.reverse ++ ':' :: sourceID.toList.reverse := by
      simp [Library.tableIDForSource]
    have digits : ∀ letter ∈ (library.textDigest 8 name).toList.reverse, decide (letter ≠ ':') = true := by
      intro letter listed
      apply decide_eq_true
      rintro rfl
      exact colon (List.mem_reverse.mp listed)
    unfold Library.behindLastColon
    rw [letters, List.takeWhile_append_of_pos digits, List.takeWhile_cons_of_neg (by decide), List.append_nil,
      List.reverse_reverse, String.ofList_toList]
  rw [behind, fileName, String.append_assoc]

theorem isName_fileName (hexadecimal : Hexadecimal library) (name : String) : IsName (fileName library name) := by
  have letters : (fileName library name).toList = (library.textDigest 8 name).toList ++ ".jsonl".toList := by
    unfold fileName
    rw [String.toList_append]
  have long : 6 ≤ (fileName library name).toList.length := by
    rw [letters, List.length_append]
    exact Nat.le_add_left 6 _
  have short {text : String} (few : text.toList.length < 6) : fileName library name ≠ text := by
    rintro rfl
    omega
  refine ⟨?_, short (by decide), short (by decide), short (by decide)⟩
  rw [letters, List.mem_append, not_or]
  exact ⟨notMem_textDigest hexadecimal (by decide) 8 name, by decide⟩

theorem isName_tables : IsName "tables" := ⟨by decide, by decide, by decide, by decide⟩

theorem safeChild_fileName (hexadecimal : Hexadecimal library) (name : String) :
    safeChild root ("tables/" ++ fileName library name) = some (root ++ ["tables", fileName library name]) := by
  have slash : "tables/" ++ fileName library name = "tables" ++ "/" ++ fileName library name := rfl
  have letters : ("tables/" ++ fileName library name).toList =
      't' :: ("ables/".toList ++ ((library.textDigest 8 name).toList ++ ['.', 'j', 's', 'o', 'n', 'l'])) := by
    unfold fileName
    rw [String.toList_append, String.toList_append]
    rfl
  have plain : String.ofList (("tables/" ++ fileName library name).toList.map fun letter =>
      if letter = '\\' then '/' else letter) = "tables/" ++ fileName library name := by
    have noBackslash : '\\' ∉ ("tables/" ++ fileName library name).toList := by
      have digits : '\\' ∉ (library.textDigest 8 name).toList := notMem_textDigest hexadecimal (by decide) 8 name
      rw [letters]
      simp [digits]
    have same : (("tables/" ++ fileName library name).toList.map fun letter =>
        if letter = '\\' then '/' else letter) = ("tables/" ++ fileName library name).toList := by
      conv_rhs => rw [← List.map_id' ("tables/" ++ fileName library name).toList]
      apply List.map_congr_left
      intro letter listed
      apply if_neg
      rintro rfl
      exact noBackslash listed
    rw [same, String.ofList_toList]
  have stripped : strip ("tables/" ++ fileName library name) = "tables/" ++ fileName library name := by
    apply @AgentLoop.strip_eq_self _ 't' 'l'
    · rw [letters]
      rfl
    · rw [letters, List.getLast?_cons, List.getLast?_append, List.getLast?_append]
      rfl
    · decide
    · decide
  have normalized : normalizeRef ("tables/" ++ fileName library name) = "tables/" ++ fileName library name := by
    unfold normalizeRef
    dsimp only
    rw [plain, stripped, letters, List.dropWhile_cons_of_neg (by decide), ← letters, String.ofList_toList]
  have nonempty : "tables/" ++ fileName library name ≠ "" := by
    intro empty
    rw [empty] at letters
    cases letters
  have below := joinPath_below root (namesBelow_slash isName_tables (isName_fileName hexadecimal name))
  unfold safeChild
  dsimp only
  rw [normalized, slash, below, if_neg]
  rw [not_or, not_not]
  exact ⟨slash ▸ nonempty, List.prefix_append root _⟩

theorem saveSheets_spec {place : SheetManifest × Sheet → Location} {pairs : List (SheetManifest × Sheet)}
    (files : Files) (safe : ∀ pair ∈ pairs, safeChild root pair.1.snapshotPath = some (place pair))
    (apart : (pairs.map place).Nodup) :
    ∃ saved, saveSheets root files pairs = some saved ∧
      (∀ pair ∈ pairs, saved.get? (place pair) = some (sheetText pair.2)) ∧
        ∀ other, other ∉ pairs.map place → saved.get? other = files.get? other := by
  induction pairs generalizing files with
  | nil =>
      refine ⟨files, rfl, ?_, fun _ _ => rfl⟩
      intro pair listed
      cases listed
  | cons pair rest ih =>
      rw [List.map_cons, List.nodup_cons] at apart
      obtain ⟨saved, done, kept, others⟩ := ih (files.set (place pair) (sheetText pair.2))
        (fun other listed => safe other (List.mem_cons_of_mem _ listed)) apart.2
      refine ⟨saved, ?_, ?_, ?_⟩
      · rw [saveSheets, safe pair List.mem_cons_self]
        exact done
      · intro other listed
        rcases List.mem_cons.mp listed with rfl | later
        · rw [others _ apart.1, Dict.get?_set, if_pos rfl]
        · exact kept other later
      · intro other outside
        rw [List.map_cons, List.mem_cons, not_or] at outside
        rw [others other outside.2, Dict.get?_set, if_neg outside.1]

end Files

section Manifests

variable (runtime : Runtime)

theorem strOf_str (text : String) : strOf runtime (.str text) = text := by
  unfold strOf
  rw [if_neg (by intro same; cases same)]
  rfl

theorem textsOf_texts (texts : List String) : textsOf runtime (some (.arr (texts.map .str))) = some texts := by
  unfold textsOf
  dsimp only
  rw [List.map_map]
  exact congrArg some ((List.map_congr_left fun text _ => strOf_str runtime text).trans (List.map_id' texts))

theorem toCount_count (count : ℕ) : toCount count = some count := by
  unfold toCount
  rw [if_pos (Int.natCast_nonneg count)]
  rfl

theorem countOf_count (count : ℕ) : countOf runtime (.int count) = some count := by
  exact toCount_count count

theorem sheetFromPayload_sheetMembers (sheet : SheetManifest) :
    sheetFromPayload runtime (sheetMembers sheet) = some sheet := by
  have headers : textsOf runtime (member (sheetMembers sheet) "headers") = some sheet.headers :=
    textsOf_texts runtime sheet.headers
  have caseIDs : textsOf runtime (member (sheetMembers sheet) "case_ids") = some sheet.caseIDs :=
    textsOf_texts runtime sheet.caseIDs
  have index : (member (sheetMembers sheet) "index").bind (countOf runtime) = some sheet.index :=
    countOf_count runtime sheet.index
  have dataRows : (member (sheetMembers sheet) "data_rows").bind (countOf runtime) = some sheet.dataRows :=
    countOf_count runtime sheet.dataRows
  unfold sheetFromPayload
  rw [headers, caseIDs, index, dataRows]
  change some ({ sheetID := strOf runtime (.str sheet.sheetID), name := strOf runtime (.str sheet.name)
                 index := sheet.index, kind := strOf runtime (.str sheet.kind)
                 semanticKind := strOf runtime (.str sheet.semanticKind), headers := sheet.headers
                 dataRows := sheet.dataRows, caseIDs := sheet.caseIDs
                 snapshotPath := strOf runtime (.str sheet.snapshotPath) } : SheetManifest) = _
  simp only [strOf_str]

theorem sheetsFromPayload_sheets (sheets : List SheetManifest) :
    sheetsFromPayload runtime (some (.arr (sheets.map fun sheet => .obj (sheetMembers sheet)))) = some sheets := by
  unfold sheetsFromPayload
  dsimp only
  rw [List.filterMap_map]
  change ((sheets.filterMap fun sheet => some (sheetMembers sheet)).mapM _) = _
  rw [List.filterMap_eq_map', mapM_eq_some, List.forall₂_map_left_iff]
  exact List.forall₂_same.mpr fun sheet _ => sheetFromPayload_sheetMembers runtime sheet

theorem intOrZero_int (value : ℤ) : intOrZero runtime (some (.int value)) = some value := by
  unfold intOrZero
  dsimp only
  split
  · rfl
  · next none_ =>
      have zero : value = 0 := by simpa [isTruthy] using none_
      rw [zero]

theorem manifestFromPayload_manifestPayload (manifest : SourceManifest) :
    manifestFromPayload runtime (manifestPayload manifest) = some manifest := by
  have version := intOrZero_int runtime schemaVersion
  have chars := intOrZero_int runtime manifest.contentChars
  have parser := countOf_count runtime manifest.parserVersion
  have size := countOf_count runtime manifest.sizeBytes
  have sheets := sheetsFromPayload_sheets runtime manifest.sheets
  have caseIDs := textsOf_texts runtime manifest.caseIDs
  have runnable := textsOf_texts runtime manifest.runnableSheetIDs
  have count := toCount_count manifest.contentChars
  unfold manifestPayload manifestFromPayload
  simp only [member, Members.get?_cons, String.reduceEq, if_true, if_false, Option.bind_some]
  rw [version, parser, size, sheets, caseIDs, runnable, chars, Option.bind_some, count]
  dsimp only [bind, Option.bind]
  rw [if_neg (not_not.mpr rfl)]
  simp only [strOf_str, strOr_str]
  rfl

end Manifests

section RoundTrip

variable {library : Library} {runtime : Runtime} {root : Location}

def manifestOf (library : Library) (document : Document) (sheet : Sheet) : SheetManifest :=
  library.sheetManifest document.described sheet.described

theorem manifest_sheets (file : File) (ref digest : String) (document : Document) :
    (library.manifest file ref digest document.described).sheets = document.sheets.map (manifestOf library document) := by
  unfold Library.manifest
  dsimp only
  unfold Document.described
  rw [List.map_map]
  rfl

def Sheet.kept (sheet : Sheet) : Sheet := { sheet with rows := sheet.rows.map Row.kept }

def Document.kept (document : Document) (chosen : List Sheet) : Document :=
  { document with sheets := chosen.map Sheet.kept, materializedRef := "" }

theorem snapshotPath_manifestOf {document : Document} {sheet : Sheet} {sourceID : String}
    (hexadecimal : Hexadecimal library) (isRead : sheet.IsRead library runtime sourceID) :
    (manifestOf library document sheet).snapshotPath = "tables/" ++ fileName library sheet.name := by
  have same := snapshotPath_eq hexadecimal sourceID sheet.name
  rw [← isRead.tableID] at same
  exact same

theorem loadSheet_kept {document : Document} {sheet stored : Sheet} {sourceID : String} {saved : Files}
    (hexadecimal : Hexadecimal library) (isRead : sheet.IsRead library runtime sourceID)
    (reads : ∀ row ∈ stored.rows, row.Reads runtime sheet.headers)
    (kept : saved.get? (root ++ ["tables", fileName library sheet.name]) = some (sheetText stored)) :
    loadSheet library runtime root saved (manifestOf library document sheet) =
      some { sheet with rows := stored.rows.map Row.kept } := by
  have headers : (manifestOf library document sheet).headers = sheet.headers := rfl
  unfold loadSheet
  rw [snapshotPath_manifestOf hexadecimal isRead, safeChild_fileName hexadecimal, headers]
  dsimp only [bind, Option.bind]
  rw [kept]
  dsimp only
  rw [rowsOfText_sheetText reads]
  dsimp only
  rw [← isRead.normalized]
  rfl

theorem save_loads (hexadecimal : Hexadecimal library) {file : File} {format ref sourceID digest : String}
    {source : Source} {document : Document}
    (isRead : read library runtime file.name format ref sourceID source = .ok document)
    (proper : ∀ sheet ∈ document.sheets, ∀ row ∈ sheet.rows, ∀ cell ∈ row.values.values, cell.Proper runtime.floatText)
    (apart : (document.sheets.map fun sheet => library.textDigest 8 sheet.name).Nodup) (files : Files) :
    ∃ saved, save root files (library.manifest file ref digest document.described) document = some saved ∧
      ∀ chosen, (∀ sheet ∈ chosen, sheet ∈ document.sheets) →
        documentFromSnapshot library runtime root saved (library.manifest file ref digest document.described)
          (chosen.map (manifestOf library document)) = some (document.kept chosen) := by
  obtain ⟨⟨refs, names⟩, made⟩ := isRead_read isRead
  have manifests := @manifest_sheets library file ref digest document
  have pairs : (library.manifest file ref digest document.described).sheets.zip document.sheets =
      document.sheets.map fun sheet => (manifestOf library document sheet, sheet) := by
    rw [manifests, List.map_prod_right_eq_zip]
  have safe : ∀ pair ∈ document.sheets.map fun sheet => (manifestOf library document sheet, sheet),
      safeChild root pair.1.snapshotPath = some (root ++ ["tables", fileName library pair.1.name]) := by
    intro pair listed
    obtain ⟨sheet, inside, rfl⟩ := List.mem_map.mp listed
    dsimp only
    rw [snapshotPath_manifestOf hexadecimal (made sheet inside), safeChild_fileName hexadecimal]
    rfl
  have places : ((document.sheets.map fun sheet => (manifestOf library document sheet, sheet)).map fun pair =>
      root ++ ["tables", fileName library pair.1.name]).Nodup := by
    rw [List.map_map]
    have injective (digest other : String)
        (same : root ++ ["tables", digest ++ ".jsonl"] = root ++ ["tables", other ++ ".jsonl"]) : digest = other := by
      have names := List.append_cancel_left same
      simpa using names
    have mapped := List.Nodup.map_on (f := fun digest => root ++ ["tables", digest ++ ".jsonl"])
      (fun digest _ other _ same => injective digest other same) apart
    rw [List.map_map] at mapped
    exact mapped
  obtain ⟨saved, done, kept, -⟩ := saveSheets_spec files safe places
  refine ⟨saved, ?_, ?_⟩
  · unfold save
    rw [if_neg, pairs]
    · exact done
    · rw [manifests, List.length_map, not_not]
  · intro chosen among
    have sheets : (chosen.map (manifestOf library document)).mapM (loadSheet library runtime root saved) =
        some (chosen.map Sheet.kept) := by
      rw [mapM_eq_some, List.forall₂_map_left_iff, List.forall₂_map_right_iff]
      apply List.forall₂_same.mpr
      intro sheet listed
      have inside := among sheet listed
      have reads : ∀ row ∈ sheet.rows, row.Reads runtime sheet.headers := fun row within =>
        ((made sheet inside).rows row within).reads (proper sheet inside row within)
      exact loadSheet_kept hexadecimal (made sheet inside) reads
        (kept (manifestOf library document sheet, sheet) (List.mem_map_of_mem inside))
    unfold documentFromSnapshot
    rw [sheets]
    unfold Document.kept
    rw [refs, names]
    rfl

/-- **Snapshots round trip.** A document that is read, with sheets whose names have different digests, is saved with its manifest, the manifest is read as it was, and each
selection of sheets is loaded as it was, but for objects that are told by their texts. -/
theorem snapshot_round_trip (library : Library) (runtime : Runtime) (hexadecimal : Hexadecimal library)
    (file : File) (format ref sourceID digest : String) (source : Source) (document : Document)
    (isRead : read library runtime file.name format ref sourceID source = .ok document)
    (proper : ∀ sheet ∈ document.sheets, ∀ row ∈ sheet.rows, ∀ cell ∈ row.values.values, cell.Proper runtime.floatText)
    (apart : (document.sheets.map fun sheet => library.textDigest 8 sheet.name).Nodup) (root : Location)
    (files : Files) :
    ∃ saved, save root files (library.manifest file ref digest document.described) document = some saved ∧
      manifestFromPayload runtime (manifestPayload (library.manifest file ref digest document.described)) =
        some (library.manifest file ref digest document.described) ∧
      ∀ chosen, (∀ sheet ∈ chosen, sheet ∈ document.sheets) →
        documentFromSnapshot library runtime root saved (library.manifest file ref digest document.described)
          (chosen.map (manifestOf library document)) = some (document.kept chosen) := by
  obtain ⟨saved, done, loads⟩ := @save_loads library runtime root hexadecimal file format ref sourceID digest source
    document isRead proper apart files
  exact ⟨saved, done, manifestFromPayload_manifestPayload runtime _, loads⟩

section Collisions

instance finite_char : Finite Char := by
  have small (letter : Char) : letter.toNat < 1114112 := by
    have valid := letter.valid
    unfold UInt32.isValidChar Nat.isValidChar at valid
    exact valid.elim (fun low => Nat.lt_trans low (by decide)) And.right
  apply Finite.of_injective fun letter : Char => (⟨letter.toNat, small letter⟩ : Fin 1114112)
  intro first second same
  have numbers : first.toNat = second.toNat := Fin.mk.inj same
  exact Char.toNat_inj.mp numbers

theorem exists_collision (library : Library) :
    ∃ first second, first ≠ second ∧ library.textDigest 8 first = library.textDigest 8 second := by
  have short (number : ℕ) : (library.textDigest 8 (toString number)).toList ∈ {letters : List Char | letters.length ≤ 8} := by
    unfold Library.textDigest
    rw [String.toList_ofList]
    exact List.length_take_le 8 _
  have finite : Finite {letters : List Char | letters.length ≤ 8} := List.finite_length_le Char 8
  obtain ⟨first, second, other, same⟩ := Finite.exists_ne_map_eq_of_infinite
    fun number : ℕ => (⟨_, short number⟩ : {letters : List Char | letters.length ≤ 8})
  refine ⟨toString first, toString second, fun equal => other (toString_nat_injective equal), ?_⟩
  rw [Subtype.mk.injEq, String.toList_inj] at same
  exact same

def oneCellRow (value : String) : Row :=
  { sourceRow := 2, dataRowIndex := 1, values := ⟨[("name", .str value)], List.nodup_singleton _⟩
    displayValues := ⟨[("name", value)], List.nodup_singleton _⟩ }

def oneCellSheet (library : Library) (name : String) (index : ℕ) (value : String) : Sheet :=
  { tableID := library.tableIDForSource "source" name
    name
    index
    headers := ["name"]
    rows := [oneCellRow value]
    normalizedHeaders := Reader.normalizedHeaders library.normalizeHeader ["name"] }

def twoSheets (library : Library) (first second : String) : Document :=
  { sourceRef := "ref", sourceID := "source", fileName := "file.xlsx", format := "xlsx"
    sheets := [oneCellSheet library first 0 "a", oneCellSheet library second 1 "b"], materializedRef := "ref" }

def oneCellRows (value : String) : List (List Cell) := [[.str "name"], [.str value]]

variable (library : Library) (runtime : Runtime)

theorem take_text (budget : DecodedBudget) (text label : String) (fits : text.length ≤ 100000)
    (cellsFit : budget.cells < 250000) (charsFit : budget.displayChars + text.length ≤ 33554432) :
    budget.take (cells runtime) [.str text] label = .ok ⟨budget.cells + 1, budget.displayChars + text.length⟩ := by
  have few : ¬ Reader.tabularMaxColumns < 1 := by decide
  have short : ¬ Reader.tabularMaxCellChars < text.length := not_lt.mpr fits
  have room : ¬ (Reader.tabularMaxDecodedCells < budget.cells + 1 ∨
      Reader.tabularMaxDisplayChars < budget.displayChars + text.length) := by
    unfold Reader.tabularMaxDecodedCells Reader.tabularMaxDisplayChars
    omega
  unfold DecodedBudget.take refuseIf
  simp only [bind, Except.bind, List.length_cons, List.length_nil, zero_add, few, ↓reduceIte, cells,
    displayValue, List.map_cons, List.map_nil, short, decide_false, Bool.false_eq_true, not_false_eq_true,
    List.find?_cons_of_neg, List.find?_nil, List.sum_cons, List.sum_nil, add_zero, room, pure, Except.pure]

theorem sheet_oneCell (name value : String) (index : ℕ) (budget : DecodedBudget) (fits : value.length ≤ 100)
    (cellsFit : budget.cells < 100) (charsFit : budget.displayChars < 100) (filled : strip value ≠ "") :
    ∃ tabular, Reader.sheet library (cells runtime) "source" name index (oneCellRows value) budget =
        .ok (tabular, ⟨budget.cells + 2, budget.displayChars + 4 + value.length⟩) ∧
      Sheet.ofReader tabular = oneCellSheet library name index value := by
  have kept : strip "name" = "name" := strip_eq_self rfl rfl (by decide) (by decide)
  have header : Reader.isBlankRow (cells runtime) [Cell.str "name"] = false := by
    change [strip "name"].all _ = false
    rw [kept]
    rfl
  have row : Reader.isBlankRow (cells runtime) [Cell.str value] = false := by
    change [strip value].all _ = false
    simpa using filled
  have shown : Reader.displayed (cells runtime) [Cell.str "name"] = ["name"] := by
    change [strip "name"] = ["name"]
    rw [kept]
  have length : "name".length = 4 := rfl
  have first := take_text runtime budget "name" name (by rw [length]; decide) (by omega) (by omega)
  have second := take_text runtime ⟨budget.cells + 1, budget.displayChars + "name".length⟩ value name (by omega)
    (by dsimp only; omega) (by dsimp only; omega)
  rw [length] at first second
  have headers : Reader.uniqueHeaders ["name"] = ["name"] := rfl
  have read : Reader.readRows (cells runtime) name {} budget ((oneCellRows value).zipIdx 1) =
      .ok (⟨some ["name"], [Reader.tabularRow (cells runtime) ["name"] 2 1 [.str value]], 1⟩,
        ⟨budget.cells + 2, budget.displayChars + 4 + value.length⟩) := by
    change (do
      let budget ← budget.take (cells runtime) [Cell.str "name"] name
      let progress := Reader.readRow (cells runtime) {} ([Cell.str "name"], 1)
      let budget ← budget.take (cells runtime) [Cell.str value] name
      let progress := Reader.readRow (cells runtime) progress ([Cell.str value], 2)
      return (progress, budget)) = _
    rw [first]
    dsimp only [bind, Except.bind]
    rw [second]
    dsimp only [Reader.readRow]
    simp only [header, shown, headers]
    simp [row]
    rfl
  refine ⟨{ tableID := library.tableIDForSource "source" name, name, index, headers := ["name"]
            rows := [Reader.tabularRow (cells runtime) ["name"] 2 1 [.str value]]
            normalizedHeaders := Reader.normalizedHeaders library.normalizeHeader ["name"] }, ?_, rfl⟩
  unfold Reader.sheet
  rw [read]
  rfl

theorem read_twoSheets (first second : String) :
    read library runtime "file.xlsx" "xlsx" "ref" "source"
      (.workbook [(first, oneCellRows "a"), (second, oneCellRows "b")]) = .ok (twoSheets library first second) := by
  have lengths : "a".length = 1 ∧ "b".length = 1 := ⟨rfl, rfl⟩
  have filled : strip "a" ≠ "" := by
    rw [strip_eq_self rfl rfl (by decide) (by decide)]
    decide
  have alsoFilled : strip "b" ≠ "" := by
    rw [strip_eq_self rfl rfl (by decide) (by decide)]
    decide
  obtain ⟨one, readOne, sameOne⟩ := sheet_oneCell library runtime first "a" 0 {} (by rw [lengths.1]; decide) (by decide)
    (by decide) filled
  rw [lengths.1] at readOne
  obtain ⟨two, readTwo, sameTwo⟩ := sheet_oneCell library runtime second "b" 1 ⟨2, 5⟩ (by rw [lengths.2]; decide)
    (by decide) (by decide) alsoFilled
  have firstSheet : readSheet library runtime (rowLimit "tabular source" "file.xlsx") "source" first 0 maxSourceRows
      (oneCellRows "a") {} = .ok (one, ⟨2, 5⟩) := by
    unfold readSheet
    rw [List.take_of_length_le (by decide), readOne]
    rfl
  have secondSheet : readSheet library runtime (rowLimit "tabular source" "file.xlsx") "source" second 1
      (maxSourceRows - (oneCellRows "a").length) (oneCellRows "b") ⟨2, 5⟩ = .ok (two, ⟨4, 9 + "b".length⟩) := by
    unfold readSheet
    rw [List.take_of_length_le (by decide), readTwo]
    rfl
  have sheets : readSheets library runtime "file.xlsx" "source"
      (.workbook [(first, oneCellRows "a"), (second, oneCellRows "b")]) =
        .ok [oneCellSheet library first 0 "a", oneCellSheet library second 1 "b"] := by
    rw [readSheets, excelSheets, firstSheet]
    dsimp only [bind, Except.bind]
    rw [excelSheets, secondSheet]
    dsimp only [bind, Except.bind]
    rw [excelSheets, sameOne, sameTwo]
    rfl
  unfold read
  rw [sheets]
  rfl

theorem proper_twoSheets (first second : String) : ∀ sheet ∈ (twoSheets library first second).sheets, ∀ row ∈ sheet.rows,
    ∀ cell ∈ row.values.values, cell.Proper runtime.floatText := by
  intro sheet listed row inside cell within
  rcases List.mem_pair.mp listed with rfl | rfl
  · rw [List.mem_singleton.mp inside] at within
    rw [List.mem_singleton.mp within]
    trivial
  · rw [List.mem_singleton.mp inside] at within
    rw [List.mem_singleton.mp within]
    trivial

theorem distinct_twoSheets (first second : String) :
    ∀ sheet ∈ (twoSheets library first second).sheets, sheet.headers.Nodup := by
  intro sheet listed
  rcases List.mem_pair.mp listed with rfl | rfl
  · exact List.nodup_singleton _
  · exact List.nodup_singleton _

def digests : Library :=
  { sha256 := fun bytes =>
      if bytes = "first".toUTF8 then "a7937b64b8caa58f03721bb6bacf5c78cb235febe0e70b1b84cd99541461a08e"
      else "16367aacb67a4a017c8da8ab95682ccb390863780f7114dda0a0e0c55644c7c4"
    lower := id
    canonicalCaseID := id
    normalizeHeader := id
    caseIDMatches := fun _ => []
    tables := fun _ _ => .ok [] }

def plainRuntime : Runtime :=
  { floatText := id
    containerText := fun value => String.ofList (Json.dumps value)
    toInt := fun _ => none
    repr := fun text => "'" ++ text ++ "'"
    decodeError := fun _ => "Expecting value"
    intError := fun _ => "invalid literal for int()" }

theorem hexadecimal_digests : Hexadecimal digests := by
  intro bytes
  unfold digests
  dsimp only
  split
  · exact forall_mem_of_all (by decide)
  · exact forall_mem_of_all (by decide)

theorem snapshot_round_trip_twoSheets : ∃ saved,
    save ["snapshot"] .empty (digests.manifest ⟨"file.xlsx", .empty⟩ "ref" "" (twoSheets digests "first" "second").described)
        (twoSheets digests "first" "second") = some saved ∧
      manifestFromPayload plainRuntime (manifestPayload
          (digests.manifest ⟨"file.xlsx", .empty⟩ "ref" "" (twoSheets digests "first" "second").described)) =
        some (digests.manifest ⟨"file.xlsx", .empty⟩ "ref" "" (twoSheets digests "first" "second").described) ∧
      ∀ chosen, (∀ sheet ∈ chosen, sheet ∈ (twoSheets digests "first" "second").sheets) →
        documentFromSnapshot digests plainRuntime ["snapshot"] saved
          (digests.manifest ⟨"file.xlsx", .empty⟩ "ref" "" (twoSheets digests "first" "second").described)
          (chosen.map (manifestOf digests (twoSheets digests "first" "second"))) =
            some ((twoSheets digests "first" "second").kept chosen) := by
  apply snapshot_round_trip digests plainRuntime hexadecimal_digests ⟨"file.xlsx", .empty⟩ "xlsx" "ref" "source" ""
  · exact read_twoSheets digests plainRuntime "first" "second"
  · exact proper_twoSheets digests plainRuntime "first" "second"
  · decide

/-- Of two sheets whose names have the same digest, the rows of the second are loaded for the first, whatever
the digest is: no document with such sheets round trips. -/
theorem snapshot_overwritten : ¬ ∃ (library : Library) (runtime : Runtime), Hexadecimal library ∧
    ∀ (file : File) (format ref sourceID digest : String) (source : Source) (document : Document),
      read library runtime file.name format ref sourceID source = .ok document →
      (∀ sheet ∈ document.sheets, ∀ row ∈ sheet.rows, ∀ cell ∈ row.values.values, cell.Proper runtime.floatText) →
      (∀ sheet ∈ document.sheets, sheet.headers.Nodup) →
      ∀ (root : Location) (files : Files), ∃ saved,
        save root files (library.manifest file ref digest document.described) document = some saved ∧
        ∀ chosen, (∀ sheet ∈ chosen, sheet ∈ document.sheets) →
          documentFromSnapshot library runtime root saved (library.manifest file ref digest document.described)
            (chosen.map (manifestOf library document)) = some (document.kept chosen) := by
  rintro ⟨library, runtime, hexadecimal, roundTrips⟩
  obtain ⟨first, second, -, same⟩ := exists_collision library
  have names : fileName library second = fileName library first := by
    unfold fileName
    rw [same]
  obtain ⟨-, made⟩ := isRead_read (read_twoSheets library runtime first second)
  have proper := proper_twoSheets library runtime first second
  have distinct := distinct_twoSheets library first second
  obtain ⟨saved, done, loads⟩ := roundTrips ⟨"file.xlsx", .empty⟩ "xlsx" "ref" "source" "" _ _
    (read_twoSheets library runtime first second) proper distinct [] .empty
  have isFirst := made (oneCellSheet library first 0 "a") List.mem_cons_self
  have isSecond := made (oneCellSheet library second 1 "b") (List.mem_cons_of_mem _ List.mem_cons_self)
  -- both sheets are written to one file
  have files : saveSheets [] (.empty : Files)
      [(manifestOf library (twoSheets library first second) (oneCellSheet library first 0 "a"),
          oneCellSheet library first 0 "a"),
        (manifestOf library (twoSheets library first second) (oneCellSheet library second 1 "b"),
          oneCellSheet library second 1 "b")] = some saved := done
  have firstPath : safeChild [] (manifestOf library (twoSheets library first second)
      (oneCellSheet library first 0 "a")).snapshotPath = some ([] ++ ["tables", fileName library first]) := by
    rw [snapshotPath_manifestOf hexadecimal isFirst]
    exact safeChild_fileName hexadecimal first
  have secondPath : safeChild [] (manifestOf library (twoSheets library first second)
      (oneCellSheet library second 1 "b")).snapshotPath = some ([] ++ ["tables", fileName library first]) := by
    rw [snapshotPath_manifestOf hexadecimal isSecond, ← names]
    exact safeChild_fileName hexadecimal second
  rw [saveSheets, firstPath] at files
  dsimp only [bind, Option.bind] at files
  rw [saveSheets, secondPath] at files
  have kept : saved.get? ([] ++ ["tables", fileName library (oneCellSheet library first 0 "a").name]) =
      some (sheetText (oneCellSheet library second 1 "b")) := by
    rw [← Option.some.inj files, Dict.get?_set]
    exact if_pos rfl
  have reads : ∀ row ∈ (oneCellSheet library second 1 "b").rows,
      row.Reads runtime (oneCellSheet library first 0 "a").headers := by
    intro row listed
    exact (isSecond.rows row listed).reads
      (proper _ (List.mem_cons_of_mem _ List.mem_cons_self) row listed)
  have loaded := @loadSheet_kept library runtime [] (twoSheets library first second) _ _ _ _ hexadecimal isFirst reads kept
  have claimed := loads [oneCellSheet library first 0 "a"] (by
    intro sheet listed
    rw [List.mem_singleton.mp listed]
    exact List.mem_cons_self)
  unfold documentFromSnapshot at claimed
  rw [List.map_singleton, List.mapM_cons, loaded] at claimed
  have rows : ([[[("name", Cell.str "b")]]] : List (List (List (String × Cell)))) = [[[("name", .str "a")]]] :=
    congrArg (fun document => document.sheets.map fun sheet => sheet.rows.map fun row => row.values.entries)
      (Option.some.inj claimed)
  exact absurd rows (by decide)

end Collisions

end RoundTrip

end Sico.Sources.Snapshot

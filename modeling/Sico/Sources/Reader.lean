import Sico.Foundation.Numerals
import Sico.Foundation.Traversal
import Sico.Sources.Model

/-! # Reading a sheet

A sheet is read row by row. The first row with something to display names the columns, and each
later row with something to display is a record of the cells under the columns. The cells are
counted, so that a sheet cannot grow without bound. A text of the header that is repeated is
numbered.

A cell is whatever the decoder of the format makes of it. How it is displayed, the cell that
stands where a row is too short, and the quotation of a name in a message are parameters. The
rows are those that the decoder yields; where the decoder raises instead, no sheet is read.
-/

namespace Sico.Sources.Reader

open Foundation AgentLoop

section Data

inductive Detail where
  | text (value : String)
  | number (value : ℕ)
  deriving DecidableEq, Repr

structure ReaderError extends SourceError where
  details : List (String × Detail) := []
  deriving DecidableEq, Repr

/-- What the reader takes from the language library: `display_value`, `None` and `repr`. -/
structure Cells (Cell : Type) where
  displayValue : Cell → String
  missing : Cell
  repr : String → String

structure DecodedBudget where
  cells : ℕ := 0
  displayChars : ℕ := 0
  deriving DecidableEq, Repr

structure TabularRow (Cell : Type) where
  sourceRow : ℕ
  dataRowIndex : ℕ
  values : Dict String Cell
  displayValues : Dict String String

structure TabularSheet (Cell : Type) where
  tableID : String
  name : String
  index : ℕ
  headers : List String
  rows : List (TabularRow Cell)
  normalizedHeaders : Dict String (List String)

end Data

section Limits

def tabularMaxColumns : ℕ := 500
def tabularMaxDecodedCells : ℕ := 250000
def tabularMaxCellChars : ℕ := 100000
def tabularMaxDisplayChars : ℕ := 32 * 1024 * 1024

end Limits

section Headers

/-- The names that are given so far, and how often each text has occurred. -/
structure Naming where
  headers : List String
  counts : Dict String ℕ

/-- The text of a cell of the header, or the number of its column if there is none. -/
def baseName (cell : String × ℕ) : String :=
  if cell.1 = "" then "column_" ++ toString cell.2 else cell.1

def headerName (base : String) (count : ℕ) : String :=
  if count = 1 then base else base ++ "_" ++ toString count

def nameColumn (naming : Naming) (cell : String × ℕ) : Naming :=
  let base := baseName cell
  let count := (naming.counts.get? base).getD 0 + 1
  { headers := naming.headers ++ [headerName base count]
    counts := naming.counts.set base count }

def uniqueHeaders (values : List String) : List String :=
  ((values.zipIdx 1).foldl nameColumn ⟨[], Dict.empty⟩).headers

def normalizedHeaders (normalizeHeader : String → String) (headers : List String) :
    Dict String (List String) :=
  let grouped : Dict String (List String) := headers.foldl (fun grouped header =>
    let key := normalizeHeader header
    grouped.set key ((grouped.get? key).getD [] ++ [header])) Dict.empty
  ⟨grouped.entries.filter fun entry => entry.1 ≠ "", grouped.distinct.sublist (List.filter_sublist.map _)⟩

end Headers

section Sheet

variable {Cell : Type} (library : Library) (cells : Cells Cell)

def DecodedBudget.take (budget : DecodedBudget) (values : List Cell) (label : String) :
    Except ReaderError DecodedBudget := do
  refuseIf (tabularMaxColumns < values.length)
    { message := "tabular table " ++ cells.repr label ++ " exceeds " ++ toString tabularMaxColumns ++ " columns"
      code := "tabular_column_limit"
      details := [("table", .text label), ("columns", .number values.length),
        ("max_columns", .number tabularMaxColumns)] }
  let rendered := values.map fun value => (cells.displayValue value).length
  if let some oversized := rendered.find? (tabularMaxCellChars < ·) then
    throw
      { message := "tabular table " ++ cells.repr label ++ " contains an oversized cell"
        code := "tabular_cell_limit"
        details := [("table", .text label), ("cell_chars", .number oversized),
          ("max_cell_chars", .number tabularMaxCellChars)] }
  let taken : DecodedBudget :=
    { cells := budget.cells + values.length, displayChars := budget.displayChars + rendered.sum }
  refuseIf (tabularMaxDecodedCells < taken.cells ∨ tabularMaxDisplayChars < taken.displayChars)
    { message := "tabular source exceeds decoded-data limits at " ++ cells.repr label
      code := "tabular_decoded_size_limit"
      details := [("table", .text label), ("decoded_cells", .number taken.cells),
        ("max_decoded_cells", .number tabularMaxDecodedCells), ("display_chars", .number taken.displayChars),
        ("max_display_chars", .number tabularMaxDisplayChars)] }
  return taken

/-- What the rows have told so far. -/
structure Progress (Cell : Type) where
  headers : Option (List String) := none
  rows : List (TabularRow Cell) := []
  dataIndex : ℕ := 0

/-- The texts of a row, without the blanks around them. -/
def displayed (values : List Cell) : List String := values.map fun value => strip (cells.displayValue value)

def isBlankRow (values : List Cell) : Bool := (displayed cells values).all (· = "")

def mapped (headers : List String) (values : List Cell) : Dict String Cell :=
  Dict.empty.write (headers.zipIdx.map fun header => (header.1, values.getD header.2 cells.missing))

def tabularRow (headers : List String) (sourceRow dataRowIndex : ℕ) (values : List Cell) : TabularRow Cell :=
  { sourceRow := sourceRow
    dataRowIndex := dataRowIndex
    values := mapped cells headers values
    displayValues := (mapped cells headers values).map cells.displayValue }

/-- What a row adds to what the rows before it have told. -/
def readRow (progress : Progress Cell) (row : List Cell × ℕ) : Progress Cell :=
  match progress.headers with
  | none =>
      if isBlankRow cells row.1 then progress
      else { progress with headers := some (uniqueHeaders (displayed cells row.1)) }
  | some headers =>
      if isBlankRow cells row.1 then progress
      else
        { progress with
          rows := progress.rows ++ [tabularRow cells headers row.2 (progress.dataIndex + 1) row.1]
          dataIndex := progress.dataIndex + 1 }

/-- The loop of `_sheet` over the rows. -/
def readRows (name : String) (progress : Progress Cell) (budget : DecodedBudget) :
    List (List Cell × ℕ) → Except ReaderError (Progress Cell × DecodedBudget)
  | [] => .ok (progress, budget)
  | row :: rest => do
      let budget ← budget.take cells row.1 name
      readRows name (readRow cells progress row) budget rest

def sheet (sourceID name : String) (index : ℕ) (rawRows : List (List Cell)) (budget : DecodedBudget) :
    Except ReaderError (TabularSheet Cell × DecodedBudget) := do
  let (progress, budget) ← readRows cells name {} budget (rawRows.zipIdx 1)
  match progress.headers with
  | none => throw { message := "tabular source has no header row", code := "tabular_missing_headers" }
  | some headers =>
      return ({ tableID := library.tableIDForSource sourceID name
                name := name
                index := index
                headers := headers
                rows := progress.rows
                normalizedHeaders := normalizedHeaders library.normalizeHeader headers }, budget)

end Sheet

section Distinctness

theorem foldl_nameColumn (naming : Naming) (earlier : List String) (values : List (String × ℕ))
    (counted : ∀ base, (naming.counts.get? base).getD 0 = earlier.count base) :
    (values.foldl nameColumn naming).headers =
      naming.headers ++ (occurrencesFrom earlier (values.map baseName)).map fun occurrence =>
        headerName occurrence.1 occurrence.2 := by
  induction values generalizing naming earlier with
  | nil => exact (List.append_nil _).symm
  | cons value rest ih =>
      have counted' (base : String) :
          ((nameColumn naming value).counts.get? base).getD 0 = (earlier ++ [baseName value]).count base := by
        have before := counted base
        unfold nameColumn
        rw [Dict.get?_set, List.count_append, List.count_singleton]
        by_cases same : base = baseName value
        · subst same
          simp [counted]
        · simpa [same, Ne.symm same] using before
      rw [List.foldl_cons, ih _ _ counted']
      simp [nameColumn, occurrencesFrom, counted]

/-- The texts that the columns are named after. -/
def baseNames (values : List String) : List String := (values.zipIdx 1).map baseName

theorem uniqueHeaders_eq (values : List String) :
    uniqueHeaders values = (occurrencesFrom [] (baseNames values)).map fun occurrence =>
      headerName occurrence.1 occurrence.2 := by
  have named := foldl_nameColumn ⟨[], Dict.empty⟩ [] (values.zipIdx 1) fun _ => rfl
  rwa [List.nil_append] at named

theorem length_uniqueHeaders (values : List String) : (uniqueHeaders values).length = values.length := by
  rw [uniqueHeaders_eq, List.length_map, length_occurrencesFrom, baseNames, List.length_map,
    List.length_zipIdx]

theorem numbered_inj {base base' : String} {count count' : ℕ}
    (same : base ++ "_" ++ toString count = base' ++ "_" ++ toString count') :
    base = base' ∧ count = count' := by
  have texts := congrArg (fun text => text.toList.reverse) same
  simp only [String.toList_append, List.reverse_append, List.append_assoc] at texts
  have apart (number : ℕ) : '_' ∉ (toString number).toList.reverse := fun listed =>
    notMem_toString_nat rfl number (List.mem_reverse.mp listed)
  obtain ⟨numbers, bases⟩ := append_cons_inj (apart count) (apart count') texts
  exact ⟨String.toList_inj.mp (List.reverse_injective bases),
    toString_nat_injective (String.toList_inj.mp (List.reverse_injective numbers))⟩

/-- No text of the header is that of a numbered repetition of another one. -/
def Unambiguous (values : List String) : Prop :=
  ∀ base count, 2 ≤ count → count ≤ (baseNames values).count base →
    base ++ "_" ++ toString count ∉ baseNames values

theorem nodup_uniqueHeaders_iff (values : List String) :
    (uniqueHeaders values).Nodup ↔ Unambiguous values := by
  rw [uniqueHeaders_eq, List.nodup_map_iff_inj_on (nodup_occurrencesFrom _ _)]
  constructor
  · intro injective base count repeated within listed
    have numbered : (base, count) ∈ occurrencesFrom [] (baseNames values) := by
      apply mem_occurrencesFrom.mpr
      simp only [List.count_nil]
      omega
    have first : (base ++ "_" ++ toString count, 1) ∈ occurrencesFrom [] (baseNames values) := by
      apply mem_occurrencesFrom.mpr
      have := List.count_pos_iff.mpr listed
      simp only [List.count_nil]
      omega
    have same := injective _ numbered _ first (by
      unfold headerName
      rw [if_neg (by omega), if_pos rfl])
    have := congrArg Prod.snd same
    omega
  · intro unambiguous first isFirst second isSecond same
    obtain ⟨base, count⟩ := first
    obtain ⟨base', count'⟩ := second
    have bounds := mem_occurrencesFrom.mp isFirst
    have bounds' := mem_occurrencesFrom.mp isSecond
    simp only [List.count_nil] at bounds bounds'
    unfold headerName at same
    dsimp only at same
    split at same <;> split at same
    · next one one' => rw [same, one, one']
    · next one other =>
        refine absurd ?_ (unambiguous base' count' (by omega) (by omega))
        rw [← same]
        exact List.count_pos_iff.mp (by omega)
    · next other one =>
        refine absurd ?_ (unambiguous base count (by omega) (by omega))
        rw [same]
        exact List.count_pos_iff.mp (by omega)
    · obtain ⟨rfl, rfl⟩ := numbered_inj same
      rfl

end Distinctness

section Rows

variable {Cell : Type} {library : Library} {cells : Cells Cell}

/-- What the columns of a row hold: for each header the cell under it. -/
def columns (cells : Cells Cell) (headers : List String) (values : List Cell) : List (String × Cell) :=
  headers.zipIdx.map fun header => (header.1, values.getD header.2 cells.missing)

theorem entries_mapped {headers : List String} (distinct : headers.Nodup) (values : List Cell) :
    (mapped cells headers values).entries = columns cells headers values := by
  unfold mapped
  rw [Dict.entries_write]
  · rfl
  · rw [List.map_map]
    simpa [Dict.keys, Dict.empty, Function.comp_def] using distinct

theorem readRows_eq_ok {name : String} {progress result : Progress Cell} {budget left : DecodedBudget}
    {rows : List (List Cell × ℕ)} (read : readRows cells name progress budget rows = .ok (result, left)) :
    result = rows.foldl (readRow cells) progress := by
  induction rows generalizing progress budget with
  | nil =>
      cases read
      rfl
  | cons row rest ih =>
      obtain ⟨taken, _, others⟩ := bind_eq_ok.mp read
      exact ih others

theorem foldl_readRow_of_headers (progress : Progress Cell) {headers : List String}
    (known : progress.headers = some headers) (rows : List (List Cell × ℕ)) :
    (rows.foldl (readRow cells) progress).headers = some headers ∧
      (rows.foldl (readRow cells) progress).rows.map TabularRow.values =
        progress.rows.map TabularRow.values ++
          ((rows.map Prod.fst).filter fun values => !isBlankRow cells values).map
            (mapped cells headers) := by
  induction rows generalizing progress with
  | nil => exact ⟨known, (List.append_nil _).symm⟩
  | cons row rest ih =>
      rw [List.foldl_cons, List.map_cons, List.filter_cons]
      by_cases blank : isBlankRow cells row.1 = true
      · have skipped : readRow cells progress row = progress := by
          unfold readRow
          rw [known]
          exact if_pos blank
        rw [skipped, if_neg (by simpa using blank)]
        exact ih progress known
      · have read : readRow cells progress row =
            { progress with
              rows := progress.rows ++ [tabularRow cells headers row.2 (progress.dataIndex + 1) row.1]
              dataIndex := progress.dataIndex + 1 } := by
          unfold readRow
          rw [known]
          exact if_neg blank
        obtain ⟨same, records⟩ := ih (readRow cells progress row) (by rw [read]; exact known)
        rw [if_pos (by simpa using blank)]
        refine ⟨same, ?_⟩
        rw [records, read, List.map_append, List.append_assoc]
        rfl

theorem foldl_readRow_of_begins (progress : Progress Cell) (rows : List (List Cell × ℕ)) {header : List Cell}
    {records : List (List Cell)} (unknown : progress.headers = none)
    (begins : (rows.map Prod.fst).dropWhile (isBlankRow cells) = header :: records) :
    ∃ later : List (List Cell × ℕ), later.map Prod.fst = records ∧ rows.foldl (readRow cells) progress =
      later.foldl (readRow cells)
        { progress with headers := some (uniqueHeaders (displayed cells header)) } := by
  induction rows with
  | nil => cases begins
  | cons row rest ih =>
      rw [List.map_cons, List.dropWhile_cons] at begins
      rw [List.foldl_cons]
      have step : readRow cells progress row =
          if isBlankRow cells row.1 then progress
          else { progress with headers := some (uniqueHeaders (displayed cells row.1)) } := by
        unfold readRow
        rw [unknown]
      rw [step]
      split at begins
      · next blank =>
          rw [if_pos blank]
          exact ih begins
      · next filled =>
          obtain ⟨rfl, rfl⟩ := List.cons.inj begins
          rw [if_neg filled]
          exact ⟨rest, rfl, rfl⟩

/-- A sheet has the headers of its first row with something to display, and a record for each
later one. -/
theorem sheet_spec {sourceID name : String} {index : ℕ} {rawRows records : List (List Cell)} {header : List Cell}
    {budget left : DecodedBudget} {tabular : TabularSheet Cell}
    (isRead : sheet library cells sourceID name index rawRows budget = .ok (tabular, left))
    (begins : rawRows.dropWhile (isBlankRow cells) = header :: records) :
    tabular.headers = uniqueHeaders (displayed cells header) ∧
      tabular.rows.map TabularRow.values =
        (records.filter fun values => !isBlankRow cells values).map (mapped cells tabular.headers) := by
  obtain ⟨⟨progress, taken⟩, read, made⟩ := bind_eq_ok.mp isRead
  have rowsAre : (rawRows.zipIdx 1).map Prod.fst = rawRows := List.zipIdx_map_fst 1 rawRows
  obtain ⟨later, rfl, same⟩ := foldl_readRow_of_begins {} (rawRows.zipIdx 1) rfl
    (by rw [rowsAre]; exact begins)
  obtain ⟨headers, rows⟩ := foldl_readRow_of_headers
    { headers := some (uniqueHeaders (displayed cells header)) } rfl later
  rw [← same, ← readRows_eq_ok read] at headers rows
  dsimp only at made
  rw [headers] at made
  cases made
  exact ⟨rfl, rows⟩

end Rows

section Columns

variable {Cell : Type} (library : Library) (cells : Cells Cell)

/-- The headers are distinct, one for each cell of the header, and each record keeps the cell
under each of them as an entry of its own, in the order of the columns. -/
structure KeepsColumns (header : List Cell) (records : List (List Cell)) (tabular : TabularSheet Cell) :
    Prop where
  distinct : tabular.headers.Nodup
  perCell : tabular.headers.length = header.length
  kept : tabular.rows.map (fun row => row.values.entries) =
    (records.filter fun values => !isBlankRow cells values).map (columns cells tabular.headers)

/-- Columns are kept apart exactly if no text of the header is that of a numbered repetition. -/
theorem keepsColumns_iff :
    (∀ values : List String, (uniqueHeaders values).Nodup ∧ (uniqueHeaders values).length = values.length ↔
      Unambiguous values) ∧
    ∀ {sourceID name : String} {index : ℕ} {rawRows records : List (List Cell)} {header : List Cell}
      {budget left : DecodedBudget} {tabular : TabularSheet Cell},
      sheet library cells sourceID name index rawRows budget = .ok (tabular, left) →
      rawRows.dropWhile (isBlankRow cells) = header :: records →
      (KeepsColumns cells header records tabular ↔ Unambiguous (displayed cells header)) := by
  refine ⟨fun values => ?_, fun {_ _ _ _ records header _ _ tabular} isRead begins => ?_⟩
  · rw [← nodup_uniqueHeaders_iff]
    exact and_iff_left (length_uniqueHeaders values)
  · obtain ⟨headers, rows⟩ := sheet_spec isRead begins
    rw [← nodup_uniqueHeaders_iff, ← headers]
    constructor
    · exact KeepsColumns.distinct
    · intro distinct
      refine ⟨distinct, ?_, ?_⟩
      · rw [headers, length_uniqueHeaders, displayed, List.length_map]
      · have entries := congrArg (List.map Dict.entries) rows
        rw [List.map_map, List.map_map] at entries
        refine entries.trans (List.map_congr_left fun values _ => ?_)
        exact entries_mapped distinct values

/-- Cells that are texts, in a library whose parts do not matter here. -/
def textCells : Cells String := { displayValue := id, missing := "", repr := id }

def plainLibrary : Library where
  sha256 _ := ""
  lower := id
  canonicalCaseID := id
  normalizeHeader := id
  caseIDMatches _ := []
  tables _ _ := .ok []

/-- The sheet that is read of rows of texts, with nothing where none is read. -/
def textSheet (rows : List (List String)) : TabularSheet String × DecodedBudget :=
  (sheet plainLibrary textCells "source" "table" 0 rows {}).toOption.getD
    ({ tableID := "", name := "", index := 0, headers := [], rows := [], normalizedHeaders := .empty }, {})

theorem textSheet_eq_ok {rows : List (List String)}
    (isRead : (sheet plainLibrary textCells "source" "table" 0 rows {}).toOption.isSome) :
    sheet plainLibrary textCells "source" "table" 0 rows {} = .ok (textSheet rows) := by
  unfold textSheet
  cases result : sheet plainLibrary textCells "source" "table" 0 rows {} with
  | error raised =>
      rw [result] at isRead
      cases isRead
  | ok read => rfl

def repeatedRows : List (List String) := [["Name", "", "Name"], ["first", "second", "third"]]

theorem repeatedRows_kept :
    sheet plainLibrary textCells "source" "table" 0 repeatedRows {} = .ok (textSheet repeatedRows) ∧
      KeepsColumns textCells ["Name", "", "Name"] [["first", "second", "third"]] (textSheet repeatedRows).1 := by
  have isRead : sheet plainLibrary textCells "source" "table" 0 repeatedRows {} = .ok (textSheet repeatedRows) :=
    textSheet_eq_ok (by decide)
  have begins : repeatedRows.dropWhile (isBlankRow textCells) =
      ["Name", "", "Name"] :: [["first", "second", "third"]] := by decide
  have unambiguous : Unambiguous (displayed textCells ["Name", "", "Name"]) :=
    (nodup_uniqueHeaders_iff _).mp (by decide)
  exact ⟨isRead, ((keepsColumns_iff plainLibrary textCells).2 isRead begins).mpr unambiguous⟩

def numberedRows : List (List String) := [["a", "a_2", "a"], ["first", "second", "third"]]

/-- Two columns of the sheet come under one header, and the cell of the first of them is lost. -/
theorem numberedRows_lost :
    sheet plainLibrary textCells "source" "table" 0 numberedRows {} = .ok (textSheet numberedRows) ∧
      (textSheet numberedRows).1.headers = ["a", "a_2", "a_2"] ∧
      (textSheet numberedRows).1.rows.map (fun row => row.values.entries) =
        [[("a", "first"), ("a_2", "third")]] ∧
      ¬ KeepsColumns textCells ["a", "a_2", "a"] [["first", "second", "third"]] (textSheet numberedRows).1 := by
  refine ⟨textSheet_eq_ok (by decide), by decide, by decide, fun kept => ?_⟩
  have same := kept.kept
  revert same
  decide

end Columns

end Sico.Sources.Reader

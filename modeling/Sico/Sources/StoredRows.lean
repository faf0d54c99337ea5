import Sico.Foundation.JsonRoundTrip
import Sico.Sources.Snapshot

/-! # Rows of a snapshot

A row is read from its line as it was, but for the objects that are told by their texts, and the lines
of a sheet's file are those of its rows. The tags tell an object that was a value from one that stands
for a value.
-/

namespace Sico.Sources.Snapshot

open Foundation AgentLoop

section Values

variable (runtime : Runtime)

/-- What is left of a value: an object that is told by its text is the text. -/
def Cell.kept : Cell → Cell
  | .other text => .str text
  | cell => cell

/-- A value whose floating-point numbers are known by their texts and whose members have distinct names. -/
def Cell.Proper (floatText : String → String) : Cell → Prop
  | .float literal => Json.IsFloatText floatText literal
  | .arr items => Json.Proper floatText (.arr items)
  | .obj members => Json.Proper floatText (.obj members)
  | _ => True

theorem strOr_str (text : String) : strOr runtime "" (some (.str text)) = text := by
  unfold strOr isTruthy
  dsimp only
  by_cases empty : text = ""
  · rw [empty]
    rfl
  · rw [if_pos (decide_eq_true empty)]
    unfold strOf
    rw [if_neg (by intro same; cases same)]
    rfl

theorem decodeValue_encodeValue (cell : Cell) : decodeValue runtime (encodeValue cell) = some cell.kept := by
  have text (text : String) : strOr runtime "" (Members.get? [("$type", Json.str "string"), ("value", .str text)] "value") =
      text := strOr_str runtime text
  cases cell with
  | none => rfl
  | bool value => rfl
  | int value => rfl
  | float literal => rfl
  | str value => rfl
  | arr items => rfl
  | obj members => rfl
  | datetime value =>
      have raw := strOr_str runtime (String.ofList value.isoformat)
      change (Calendar.datetimeFromIsoformat (strOr runtime "" (some (.str (String.ofList value.isoformat)))).toList).map
        Cell.datetime = _
      rw [raw, String.toList_ofList, Calendar.datetimeFromIsoformat_isoformat]
      rfl
  | date value =>
      have raw := strOr_str runtime (String.ofList value.isoformat)
      change (Calendar.dateFromIsoformat (strOr runtime "" (some (.str (String.ofList value.isoformat)))).toList).map
        Cell.date = _
      rw [raw, String.toList_ofList, Calendar.dateFromIsoformat_isoformat]
      rfl
  | time value =>
      have raw := strOr_str runtime (String.ofList value.isoformat)
      change (Calendar.timeFromIsoformat (strOr runtime "" (some (.str (String.ofList value.isoformat)))).toList).map
        Cell.time = _
      rw [raw, String.toList_ofList, Calendar.timeFromIsoformat_isoformat]
      rfl
  | other value =>
      change some (Cell.str (strOr runtime "" (some (.str value)))) = _
      rw [strOr_str]
      rfl

theorem displayValue_kept (cell : Cell) : displayValue runtime cell.kept = displayValue runtime cell := by
  cases cell <;> rfl

theorem proper_tagged {kind : String} {value : Json} (proper : Json.Proper runtime.floatText value) :
    Json.Proper runtime.floatText (tagged kind value) := by
  have names : ["$type", "value"].Nodup := by decide
  unfold tagged
  rw [Json.Proper, Json.properMembers_iff]
  refine ⟨names, ?_⟩
  intro member listed
  simp only [List.mem_cons, List.not_mem_nil, or_false] at listed
  rcases listed with rfl | rfl
  · rw [Json.Proper]
    · trivial
    all_goals intros; contradiction
  · exact proper

theorem proper_encodeValue {cell : Cell} (proper : cell.Proper runtime.floatText) :
    Json.Proper runtime.floatText (encodeValue cell) := by
  have text (text : String) : Json.Proper runtime.floatText (.str text) := by simp [Json.Proper]
  cases cell with
  | none => simp [encodeValue, Json.Proper]
  | bool value => simp [encodeValue, Json.Proper]
  | int value => simp [encodeValue, Json.Proper]
  | str value => exact text value
  | float literal =>
      unfold encodeValue
      rw [Json.Proper]
      exact proper
  | arr items => exact proper_tagged runtime proper
  | obj members => exact proper_tagged runtime proper
  | datetime value => exact proper_tagged runtime (text _)
  | date value => exact proper_tagged runtime (text _)
  | time value => exact proper_tagged runtime (text _)
  | other value => exact proper_tagged runtime (text value)

end Values

section Rows

variable {runtime : Runtime} {headers : List String} {row : Row}

/-- A row has a value under each header, and shows it. -/
structure Row.Reads (runtime : Runtime) (headers : List String) (row : Row) : Prop where
  keys : row.values.keys = headers.eraseDups
  displayed : row.displayValues = row.values.map (displayValue runtime)
  proper : ∀ cell ∈ row.values.values, cell.Proper runtime.floatText

def Row.kept (row : Row) : Row := { row with values := row.values.map Cell.kept }

theorem proper_rowPayload (reads : row.Reads runtime headers) : Json.Proper runtime.floatText (rowPayload row) := by
  have names : ((row.values.entries.map fun entry => (entry.1, encodeValue entry.2)).map Prod.fst).Nodup := by
    rw [List.map_map]
    exact row.values.distinct
  have values : Json.Proper runtime.floatText
      (.obj (row.values.entries.map fun entry => (entry.1, encodeValue entry.2))) := by
    rw [Json.Proper, Json.properMembers_iff]
    refine ⟨names, ?_⟩
    intro member listed
    obtain ⟨entry, inside, rfl⟩ := List.mem_map.mp listed
    exact proper_encodeValue runtime (reads.proper entry.2 (List.mem_map_of_mem inside))
  have own : ["source_row", "data_row_index", "values"].Nodup := by decide
  unfold rowPayload
  rw [Json.Proper, Json.properMembers_iff]
  refine ⟨own, ?_⟩
  intro member listed
  simp only [List.mem_cons, List.not_mem_nil, or_false] at listed
  rcases listed with rfl | rfl | rfl
  · simp [Json.Proper]
  · simp [Json.Proper]
  · exact values

theorem get?_values {header : String} {cell : Cell} (listed : (header, cell) ∈ row.values.entries) :
    Members.get? (row.values.entries.map fun entry => (entry.1, encodeValue entry.2)) header =
      some (encodeValue cell) := by
  have distinct := row.values.distinct
  generalize row.values.entries = entries at listed distinct
  induction entries with
  | nil => cases listed
  | cons entry rest ih =>
      rw [List.map_cons, List.nodup_cons] at distinct
      rw [List.map_cons, Members.get?_cons]
      rcases List.mem_cons.mp listed with rfl | later
      · exact if_pos rfl
      · rw [if_neg]
        · exact ih later distinct.2
        · intro same
          have inside : (header, cell).1 ∈ rest.map Prod.fst := List.mem_map_of_mem later
          exact distinct.1 (same ▸ inside)

theorem rowFromPayload_rowPayload (reads : row.Reads runtime headers) :
    rowFromPayload runtime headers (rowPayload row) = some row.kept := by
  let value (header : String) : Cell := ((row.values.get? header).getD .none).kept
  have found {header : String} (listed : header ∈ headers) : ∃ cell, row.values.get? header = some cell := by
    apply Dict.mem_keys.mp
    rw [reads.keys]
    exact List.mem_eraseDups.mpr listed
  have decoded : (headers.mapM fun header =>
      (decodeValue runtime ((Members.get? (row.values.entries.map fun entry => (entry.1, encodeValue entry.2))
        header).getD .null)).map fun value => (header, value)) =
          some (headers.map fun header => (header, value header)) := by
    rw [mapM_eq_some, List.forall₂_map_right_iff]
    apply List.forall₂_same.mpr
    intro header listed
    obtain ⟨cell, held⟩ := found listed
    rw [get?_values (Dict.get?_eq_some.mp held), Option.getD_some, decodeValue_encodeValue]
    dsimp only [value]
    rw [held]
    rfl
  have values : Dict.empty.write (headers.map fun header => (header, value header)) = row.values.map Cell.kept := by
    have keys : (Dict.empty.write (headers.map fun header => (header, value header))).keys =
        (row.values.map Cell.kept).keys := by
      rw [Dict.keys_write_empty, List.map_map, Dict.keys_map, reads.keys]
      exact congrArg List.eraseDups (List.map_id' headers)
    apply Dict.ext_get? keys
    intro header listed
    rw [Dict.keys_write_empty, List.map_map] at listed
    have inside : header ∈ headers := by
      rw [← List.map_id' headers]
      exact List.mem_eraseDups.mp listed
    obtain ⟨cell, held⟩ := found inside
    rw [Dict.get?_write_map, if_pos inside, Dict.get?_map, held]
    dsimp only [value]
    rw [held]
    rfl
  have shown : (row.values.map Cell.kept).map (displayValue runtime) = row.displayValues := by
    rw [reads.displayed]
    unfold Dict.map
    congr 1
    rw [List.map_map]
    exact List.map_congr_left fun entry _ => congrArg (Prod.mk entry.1) (displayValue_kept runtime entry.2)
  unfold rowFromPayload rowPayload
  change Option.bind (headers.mapM fun header =>
      (decodeValue runtime ((Members.get? (row.values.entries.map fun entry => (entry.1, encodeValue entry.2))
        header).getD .null)).map fun value => (header, value)) _ = _
  rw [decoded]
  change some ({ sourceRow := row.sourceRow, dataRowIndex := row.dataRowIndex
                 values := Dict.empty.write (headers.map fun header => (header, value header))
                 displayValues := (Dict.empty.write (headers.map fun header => (header, value header))).map
                   (displayValue runtime) } : Row) = _
  rw [values, shown]
  rfl

end Rows

section Lines

variable {runtime : Runtime} {headers : List String}

theorem universalNewlines_eq {text : List Char} (plain : '\r' ∉ text) : universalNewlines text = text := by
  induction text with
  | nil => rfl
  | cons letter rest ih =>
      rw [List.mem_cons, not_or] at plain
      rw [universalNewlines, ih plain.2]
      · intro _ same
        exact absurd same.symm plain.1
      · exact Ne.symm plain.1

def joined (lines : List (List Char)) : List Char := lines.flatMap fun line => line ++ ['\n']

theorem textLines_joined {lines : List (List Char)} (single : ∀ line ∈ lines, ∀ letter ∈ line, Json.IsPrintable letter) :
    textLines (joined lines) = lines := by
  have apart {letter : Char} (control : letter.toNat < 32) : ∀ line ∈ lines, letter ∉ line := by
    intro line listed inside
    exact absurd (single line listed letter inside) (not_le.mpr control)
  have plain : '\r' ∉ joined lines := by
    intro listed
    obtain ⟨line, inside, written⟩ := List.mem_flatMap.mp listed
    rcases List.mem_append.mp written with own | last
    · exact apart (by decide) line inside own
    · exact absurd (List.mem_singleton.mp last) (by decide)
  have cut : (joined lines).splitOn '\n' = lines ++ [[]] := by
    have newline := @apart '\n' (by decide)
    clear plain apart single
    induction lines with
    | nil => rfl
    | cons line rest ih =>
        have whole : joined (line :: rest) = line ++ '\n' :: joined rest := by
          unfold joined
          rw [List.flatMap_cons, List.append_assoc, List.singleton_append]
        rw [whole, List.splitOn_append_cons_self_of_not_mem (newline line List.mem_cons_self),
          ih fun other listed => newline other (List.mem_cons_of_mem _ listed), List.cons_append]
  unfold textLines
  rw [universalNewlines_eq plain, cut]
  dsimp only
  rw [if_pos (List.getLast?_concat ..), List.dropLast_concat]

theorem sheetText_eq (sheet : Sheet) :
    sheetText sheet = joined (sheet.rows.map fun row => Json.dumps (rowPayload row)) := by
  unfold sheetText joined
  rw [List.flatMap_map]

theorem rowsOfText_sheetText {sheet : Sheet} (reads : ∀ row ∈ sheet.rows, row.Reads runtime headers) :
    rowsOfText runtime headers (sheetText sheet) = some (sheet.rows.map Row.kept) := by
  have single : ∀ line ∈ sheet.rows.map fun row => Json.dumps (rowPayload row),
      ∀ letter ∈ line, Json.IsPrintable letter := by
    intro line listed
    obtain ⟨row, inside, rfl⟩ := List.mem_map.mp listed
    exact Json.isPrintable_dumps _ (proper_rowPayload (reads row inside))
  have filled : ∀ line ∈ sheet.rows.map fun row => Json.dumps (rowPayload row), (!isBlankLine line) = true := by
    intro line listed
    obtain ⟨row, inside, rfl⟩ := List.mem_map.mp listed
    unfold rowPayload isBlankLine
    rw [Json.dumps, List.all_cons, show isBlank '\x7b' = false from by decide]
    rfl
  unfold rowsOfText
  rw [sheetText_eq, textLines_joined single, List.filter_eq_self.mpr filled, mapM_eq_some,
    List.forall₂_map_left_iff, List.forall₂_map_right_iff]
  apply List.forall₂_same.mpr
  intro row inside
  rw [Json.loads_dumps (proper_rowPayload (reads row inside)), Option.bind_some,
    rowFromPayload_rowPayload (reads row inside)]

end Lines

end Sico.Sources.Snapshot

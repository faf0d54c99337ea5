import Sico.AgentLoop.CallIDs
import Sico.Sources.Selection
import Sico.Sources.SnapshotRoundTrip

/-! # Selection and the manifest

What a document is asked for by what its manifest lists is found. A name without blanks around it resolves to
the sheets that have it, compared without regard to case, and gives their rows. A case that one sheet that
can be run lists, and no other such sheet does under the same canonical form, gives the rows of the case.
-/

namespace Sico.Sources.Snapshot

open Foundation AgentLoop

section Cases

variable {library : Library}

theorem mem_caseIDPairs {values : List String} {pair : String × String} (listed : pair ∈ library.caseIDPairs values) :
    ∃ value ∈ values, pair = (library.canonicalCaseID (strip value), strip value) ∧ pair.1 ≠ "" := by
  unfold Library.caseIDPairs at listed
  induction values using List.reverseRecOn with
  | nil => cases listed
  | append_singleton earlier value ih =>
      have before (earlierListed : pair ∈ library.caseIDPairs earlier) :
          ∃ other ∈ earlier ++ [value], pair = (library.canonicalCaseID (strip other), strip other) ∧ pair.1 ≠ "" := by
        obtain ⟨other, inside, made⟩ := ih earlierListed
        exact ⟨other, List.mem_append_left _ inside, made⟩
      rw [List.foldl_append, List.foldl_cons, List.foldl_nil] at listed
      dsimp only at listed
      split at listed
      · exact before listed
      · next isNew =>
          rcases List.mem_append.mp listed with earlierListed | here
          · exact before earlierListed
          · rw [List.mem_singleton.mp here]
            exact ⟨value, List.mem_append_right _ (List.mem_singleton_self value), rfl, (not_or.mp isNew).1⟩

theorem caseIDPairs_singleton {value : String} (filled : library.canonicalCaseID (strip value) ≠ "") :
    library.caseIDPairs [value] = [(library.canonicalCaseID (strip value), strip value)] := by
  unfold Library.caseIDPairs
  rw [List.foldl_cons, List.foldl_nil]
  dsimp only
  rw [if_neg]
  · rfl
  · rw [not_or]
    exact ⟨filled, List.not_mem_nil⟩

theorem strip_caseIDForRow (solid : ∀ text, ∀ found ∈ library.caseIDMatches text, strip found = found)
    (row : TabularRow) : strip (library.caseIDForRow row) = library.caseIDForRow row := by
  unfold Library.caseIDForRow
  split
  · exact strip_strip _
  · cases first : (row.displayValues.flatMap fun value => library.caseIDMatches value.2).head? with
    | none => decide
    | some found =>
        obtain ⟨value, -, inside⟩ := List.mem_flatMap.mp (List.mem_of_head? first)
        exact solid value.2 found inside

end Cases

section Documents

variable {library : Library} {runtime : Runtime} {document : Document}

/-- The sheets of a document that is read have identifiers of their own, if their names have different
digests. -/
theorem nodup_tableIDs {sourceID : String} (made : ∀ sheet ∈ document.sheets, sheet.IsRead library runtime sourceID)
    (apart : (document.sheets.map fun sheet => library.textDigest 8 sheet.name).Nodup) :
    (document.sheets.map Sheet.tableID).Nodup := by
  have ids : document.sheets.map Sheet.tableID =
      (document.sheets.map fun sheet => library.textDigest 8 sheet.name).map fun digest =>
        sourceID ++ ":" ++ digest := by
    rw [List.map_map]
    exact List.map_congr_left fun sheet listed => (made sheet listed).tableID
  rw [ids]
  apply apart.map
  intro first second same
  simpa using same

theorem mem_caseIDs_manifestOf (ids : (document.sheets.map Sheet.tableID).Nodup)
    (solid : ∀ text, ∀ found ∈ library.caseIDMatches text, strip found = found) {sheet : Sheet}
    (listed : sheet ∈ document.sheets) {caseID : String} (isListed : caseID ∈ (manifestOf library document sheet).caseIDs) :
    strip caseID = caseID ∧ library.canonicalCaseID caseID ≠ "" ∧ ∃ row ∈ sheet.rows, caseIDOf library row = caseID := by
  have found : document.described.sheets.reverse.find? (fun other => other.tableID = sheet.tableID) =
      some sheet.described := by
    have distinct : (document.described.sheets.reverse.map TabularSheet.tableID).Nodup := by
      unfold Document.described
      rw [List.map_reverse, List.nodup_reverse, List.map_map]
      exact ids
    have inside : sheet.described ∈ document.described.sheets.reverse :=
      List.mem_reverse.mpr (List.mem_map_of_mem listed)
    exact find?_of_distinct distinct inside
  have cases_ : (manifestOf library document sheet).caseIDs =
      library.dedupeCaseIDs (sheet.rows.map (caseIDOf library)) := by
    unfold manifestOf Library.sheetManifest Library.caseIDsByTable
    dsimp only
    rw [show sheet.described.tableID = sheet.tableID from rfl, found]
    dsimp only [Sheet.described]
    rw [List.map_map]
    rfl
  rw [cases_] at isListed
  obtain ⟨pair, kept, rfl⟩ := List.mem_map.mp isListed
  obtain ⟨value, among, same, filled⟩ := mem_caseIDPairs kept
  obtain ⟨row, inside, rfl⟩ := List.mem_map.mp among
  have stripped : strip (caseIDOf library row) = caseIDOf library row := strip_caseIDForRow solid _
  rw [stripped] at same
  subst same
  exact ⟨stripped, filled, row, inside, rfl⟩

end Documents

section Narrowing

theorem keepRows_none (keeps : Row → Bool) (count : ℕ) (rows : List Row) :
    keepRows keeps none count rows = .ok (rows.filter keeps, count + (rows.filter keeps).length) := by
  induction rows generalizing count with
  | nil => rfl
  | cons row rest ih =>
      rw [keepRows]
      cases kept : keeps row with
      | false =>
          rw [List.filter_cons_of_neg (by rw [kept]; decide)]
          exact ih count
      | true =>
          rw [List.filter_cons_of_pos kept, List.length_cons]
          dsimp only [Bool.not_true, Option.filter_none]
          rw [ih (count + 1), if_neg (by decide)]
          dsimp only [bind, Except.bind, pure, Except.pure]
          rw [Nat.add_right_comm, Nat.add_assoc]

def Sheet.narrowed (keeps : Row → Bool) (sheet : Sheet) : Sheet := { sheet with rows := sheet.rows.filter keeps }

theorem keepSheets_none (keeps : Row → Bool) (count : ℕ) (sheets : List Sheet) :
    keepSheets keeps none count sheets = .ok (sheets.map (Sheet.narrowed keeps)) := by
  induction sheets generalizing count with
  | nil => rfl
  | cons sheet rest ih =>
      rw [keepSheets, keepRows_none]
      dsimp only [bind, Except.bind]
      rw [ih]
      rfl

/-- What is selected of sheets: those of them that have rows. -/
def Document.selected (document : Document) (objectRef : String) (sheets : List Sheet) : Document :=
  { document.kept (sheets.filter fun sheet => !sheet.rows.isEmpty) with materializedRef := objectRef }

theorem kept_narrowed (keeps : Row → Bool) (same : ∀ row : Row, keeps row.kept = keeps row) (sheets : List Sheet) :
    (sheets.map Sheet.kept).map (Sheet.narrowed keeps) = (sheets.map (Sheet.narrowed keeps)).map Sheet.kept := by
  rw [List.map_map, List.map_map]
  apply List.map_congr_left
  intro sheet _
  have rows : (sheet.rows.map Row.kept).filter keeps = (sheet.rows.filter keeps).map Row.kept := by
    rw [List.filter_map]
    exact congrArg _ (List.filter_congr fun row _ => same row)
  exact congrArg (fun rows => { sheet with rows }) rows

theorem applyScope_kept (library : Library) (document : Document) (objectRef ref : String) (scope : TabularScope)
    (sheets : List Sheet) :
    applyScope library { document.kept sheets with materializedRef := objectRef } ref scope none none =
      if sheets.all fun sheet => (sheet.rows.filter (scope.keeps library none)).isEmpty then .error (noRows ref scope)
      else .ok (document.selected objectRef (sheets.map (Sheet.narrowed (scope.keeps library none)))) := by
  have nonEmpty : ((sheets.map (Sheet.narrowed (scope.keeps library none))).map Sheet.kept).filter
      (fun sheet => !sheet.rows.isEmpty) =
        ((sheets.map (Sheet.narrowed (scope.keeps library none))).filter fun sheet => !sheet.rows.isEmpty).map
          Sheet.kept := by
    rw [List.filter_map]
    apply congrArg
    apply List.filter_congr
    intro sheet _
    exact congrArg not List.isEmpty_map
  have none_ : ((sheets.map (Sheet.narrowed (scope.keeps library none))).filter fun sheet =>
      !sheet.rows.isEmpty).isEmpty =
        sheets.all fun sheet => (sheet.rows.filter (scope.keeps library none)).isEmpty := by
    rw [Bool.eq_iff_iff, List.isEmpty_iff, List.filter_eq_nil_iff, List.all_eq_true, List.forall_mem_map]
    apply forall₂_congr
    intro sheet _
    rw [Bool.not_eq_true', Bool.not_eq_false]
    rfl
  unfold applyScope
  dsimp only [Document.kept]
  rw [keepSheets_none, kept_narrowed (scope.keeps library none) fun _ => rfl]
  dsimp only [bind, Except.bind]
  rw [nonEmpty, List.isEmpty_map, none_]
  cases sheets.all fun sheet => (sheet.rows.filter (scope.keeps library none)).isEmpty with
  | true => rfl
  | false => rfl

end Narrowing

section Agreement

variable {library : Library} {runtime : Runtime} {casefold : String → String} {root : Location} {document : Document}

/-- The sheets that have the name of a sheet, compared without regard to case. -/
def Document.namesakes (casefold : String → String) (document : Document) (sheet : Sheet) : List Sheet :=
  document.sheets.filter fun other => casefold other.name = casefold sheet.name

theorem loadDocument_namesakes {manifest : SourceManifest} {saved : Files} {sheet : Sheet} {selected : List String}
    (sheets : manifest.sheets = document.sheets.map (manifestOf library document))
    (loads : ∀ chosen, (∀ sheet ∈ chosen, sheet ∈ document.sheets) →
      documentFromSnapshot library runtime root saved manifest (chosen.map (manifestOf library document)) =
        some (document.kept chosen))
    (filled : selected ≠ []) (only : ∀ name ∈ selected, name = casefold sheet.name) :
    loadDocument library runtime casefold manifest root saved selected =
      some (document.kept (document.namesakes casefold sheet)) := by
  have chosen : (manifest.sheets.filter fun other => selected = [] ∨ casefold other.name ∈ selected) =
      (document.namesakes casefold sheet).map (manifestOf library document) := by
    rw [sheets, List.filter_map]
    apply congrArg
    apply List.filter_congr
    intro other _
    apply decide_eq_decide.mpr
    dsimp only [manifestOf, Library.sheetManifest]
    constructor
    · intro among
      exact only _ (among.resolve_left filled)
    · intro same
      obtain ⟨name, inside⟩ := List.exists_mem_of_ne_nil _ filled
      right
      have own : casefold other.name = name := same.trans (only name inside).symm
      exact own.symm ▸ inside
  unfold loadDocument
  rw [chosen]
  exact loads _ fun other listed => (List.mem_filter.mp listed).1

theorem resolveSheetNames_name {manifest : SourceManifest}
    (sheets : manifest.sheets = document.sheets.map (manifestOf library document)) {sheet : Sheet}
    (listed : sheet ∈ document.sheets) (solid : strip sheet.name = sheet.name) (filled : sheet.name ≠ "") :
    resolveSheetNames library runtime casefold manifest { sheetNames := [sheet.name] } =
      .ok ((document.namesakes casefold sheet).map fun other => casefold other.name) := by
  have cleaned : (([sheet.name].filter fun name => strip name ≠ "").map fun name => casefold (strip name)) =
      [casefold sheet.name] := by
    rw [List.filter_cons_of_pos (by rw [solid]; exact decide_eq_true filled), List.filter_nil, List.map_singleton,
      solid]
  have selected : (manifest.sheets.map fun other => casefold other.name).filter (· ∈ [casefold sheet.name]) =
      (document.namesakes casefold sheet).map fun other => casefold other.name := by
    rw [sheets, List.map_map, List.filter_map]
    unfold Document.namesakes
    have tests : ((fun name => decide (name ∈ [casefold sheet.name])) ∘
        ((fun other : SheetManifest => casefold other.name) ∘ manifestOf library document)) =
          fun other : Sheet => decide (casefold other.name = casefold sheet.name) := by
      funext other
      exact decide_eq_decide.mpr List.mem_singleton
    rw [tests]
    rfl
  have found : casefold sheet.name ∈ (document.namesakes casefold sheet).map fun other => casefold other.name := by
    apply List.mem_map_of_mem (f := fun other : Sheet => casefold other.name)
    exact List.mem_filter.mpr ⟨listed, decide_eq_true rfl⟩
  have missing : ([casefold sheet.name].dedup.filter
      (· ∉ (document.namesakes casefold sheet).map fun other => casefold other.name)) = [] := by
    rw [List.filter_eq_nil_iff]
    intro name inside absent
    rw [List.mem_dedup] at inside
    rw [List.mem_singleton.mp inside] at absent
    exact absurd found (of_decide_eq_true absent)
  unfold resolveSheetNames
  dsimp only
  rw [cleaned, selected, missing, if_neg (List.cons_ne_nil _ _), if_neg]
  rw [List.mergeSort_nil]
  exact not_not.mpr rfl

theorem resolveSheetNames_case {manifest : SourceManifest} {sheet : SheetManifest} {caseID : String}
    (ids : (manifest.sheets.map SheetManifest.sheetID).Nodup) (runnable : sheet ∈ runnableSheets manifest)
    (solid : strip caseID = caseID) (filled : library.canonicalCaseID caseID ≠ "")
    (lists : caseID ∈ sheet.caseIDs)
    (only : ∀ other ∈ runnableSheets manifest,
      library.canonicalCaseID caseID ∈ other.caseIDs.map library.canonicalCaseID → other.sheetID = sheet.sheetID) :
    resolveSheetNames library runtime casefold manifest { caseIDs := [caseID] } = .ok [casefold sheet.name] := by
  have distinct : ((runnableSheets manifest).map SheetManifest.sheetID).Nodup :=
    ids.sublist (List.filter_sublist.map _)
  have wanted : library.caseIDPairs [caseID] = [(library.canonicalCaseID caseID, caseID)] := by
    have pairs := @caseIDPairs_singleton library caseID
    rw [solid] at pairs
    exact pairs filled
  have having : sheetsWithCase library (runnableSheets manifest) (library.canonicalCaseID caseID) = [sheet] := by
    apply filter_of_distinct distinct runnable
    · exact decide_eq_true (List.mem_map_of_mem lists)
    · intro other inside holds
      exact only other inside (of_decide_eq_true holds)
  have kept : ((runnableSheets manifest).filter fun other => other.sheetID ∈ [sheet.sheetID]) = [sheet] := by
    apply filter_of_distinct distinct runnable
    · exact decide_eq_true (List.mem_singleton_self _)
    · intro other _ holds
      exact List.mem_singleton.mp (of_decide_eq_true holds)
  unfold resolveSheetNames
  dsimp only [List.filter_nil]
  rw [if_pos List.map_nil]
  unfold resolveByCases
  rw [wanted]
  simp only [List.flatMap_cons, List.flatMap_nil, List.append_nil, having, List.map_singleton, kept,
    List.filter_cons, List.length_singleton, Nat.lt_irrefl, decide_false, Bool.false_eq_true, if_false, List.filter_nil,
    List.map_nil, ne_eq, not_true_eq_false, List.cons_ne_nil, not_false_eq_true, if_true]

/-- Whether a row is of a case, by the canonical form. -/
def isOfCase (library : Library) (caseID : String) (row : Row) : Bool :=
  library.canonicalCaseID (caseIDOf library row) = library.canonicalCaseID caseID

theorem keeps_name (name : String) :
    ({ sheetNames := [name] } : TabularScope).keeps library none = fun _ => true := rfl

theorem keeps_case {caseID : String} (filled : strip caseID ≠ "") :
    ({ caseIDs := [caseID] } : TabularScope).keeps library none = isOfCase library caseID := by
  have wanted : ([caseID].filter fun caseID => strip caseID ≠ "") = [caseID] :=
    List.filter_cons_of_pos (decide_eq_true filled)
  funext row
  unfold TabularScope.keeps
  dsimp only
  rw [wanted]
  simp [isOfCase]

theorem narrowed_all (sheets : List Sheet) : sheets.map (Sheet.narrowed fun _ => true) = sheets := by
  apply (List.map_congr_left fun sheet _ => ?_).trans (List.map_id sheets)
  unfold Sheet.narrowed
  rw [List.filter_true]
  rfl

/-- What resolves to the name of a sheet gives the sheets that have it, narrowed to the scope, where a row is
left. -/
theorem select_resolved (hexadecimal : Hexadecimal library) {file : File} {format ref sourceID digest : String}
    {source : Source} (isRead : read library runtime file.name format ref sourceID source = .ok document)
    (proper : ∀ sheet ∈ document.sheets, ∀ row ∈ sheet.rows, ∀ cell ∈ row.values.values, cell.Proper runtime.floatText)
    (apart : (document.sheets.map fun sheet => library.textDigest 8 sheet.name).Nodup)
    {files saved : Files} (objectRef : String) {manifest : SourceManifest}
    (built : manifest = library.manifest file ref digest document.described)
    (saves : save root files manifest document = some saved) {sheet : Sheet} {scope : TabularScope}
    {selected : List String} (resolved : resolveSheetNames library runtime casefold manifest scope = .ok selected)
    (filled : selected ≠ []) (only : ∀ name ∈ selected, name = casefold sheet.name) :
    select library runtime casefold root saved (some objectRef) manifest ref scope none none =
      if (document.namesakes casefold sheet).all fun other =>
          (other.rows.filter (scope.keeps library none)).isEmpty then .error (noRows (normalizeRef ref) scope)
      else .ok (document.selected objectRef
        ((document.namesakes casefold sheet).map (Sheet.narrowed (scope.keeps library none)))) := by
  have sheets : manifest.sheets = document.sheets.map (manifestOf library document) := by
    rw [built]
    exact manifest_sheets file ref digest document
  have loads : ∀ chosen, (∀ sheet ∈ chosen, sheet ∈ document.sheets) →
      documentFromSnapshot library runtime root saved manifest (chosen.map (manifestOf library document)) =
        some (document.kept chosen) := by
    obtain ⟨others, done, loads⟩ := @save_loads library runtime root hexadecimal file format ref sourceID digest
      source document isRead proper apart files
    rw [built] at saves ⊢
    rw [saves] at done
    cases done
    exact loads
  have loaded : loadDocument library runtime casefold manifest root saved selected =
      some (document.kept (document.namesakes casefold sheet)) :=
    loadDocument_namesakes sheets loads filled only
  unfold select
  rw [resolved]
  dsimp only [bind, Except.bind]
  rw [loaded]
  exact applyScope_kept library document objectRef (normalizeRef ref) scope (document.namesakes casefold sheet)

/-- **Selection agrees with the manifest.** A sheet of a document that is read and saved, with sheets whose
names have different digests, is selected by its name, together with the sheets of the same name without
regard to case, where one of them has a row; and by a case that no other sheet that can be run lists, with
the rows of the case. -/
theorem select_agrees (library : Library) (runtime : Runtime) (casefold : String → String)
    (hexadecimal : Hexadecimal library) (blank : library.canonicalCaseID "" = "")
    (solid : ∀ text, ∀ found ∈ library.caseIDMatches text, strip found = found)
    (file : File) (format ref sourceID digest : String) (source : Source) (document : Document)
    (isRead : read library runtime file.name format ref sourceID source = .ok document)
    (proper : ∀ sheet ∈ document.sheets, ∀ row ∈ sheet.rows, ∀ cell ∈ row.values.values, cell.Proper runtime.floatText)
    (apart : (document.sheets.map fun sheet => library.textDigest 8 sheet.name).Nodup)
    (root : Location) (files saved : Files) (objectRef : String) (manifest : SourceManifest)
    (built : manifest = library.manifest file ref digest document.described)
    (saves : save root files manifest document = some saved) (sheet : Sheet) (listed : sheet ∈ document.sheets) :
    (strip sheet.name = sheet.name → sheet.name ≠ "" →
        resolveSheetNames library runtime casefold manifest { sheetNames := [sheet.name] } =
            .ok ((document.namesakes casefold sheet).map fun other => casefold other.name) ∧
          select library runtime casefold root saved (some objectRef) manifest ref { sheetNames := [sheet.name] } none
              none =
            if (document.namesakes casefold sheet).all fun other => other.rows.isEmpty then
              .error (noRows (normalizeRef ref) { sheetNames := [sheet.name] })
            else .ok (document.selected objectRef (document.namesakes casefold sheet))) ∧
      ∀ caseID ∈ (manifestOf library document sheet).caseIDs,
        manifestOf library document sheet ∈ runnableSheets manifest →
        (∀ other ∈ runnableSheets manifest,
          library.canonicalCaseID caseID ∈ other.caseIDs.map library.canonicalCaseID →
            other = manifestOf library document sheet) →
        resolveSheetNames library runtime casefold manifest { caseIDs := [caseID] } = .ok [casefold sheet.name] ∧
          select library runtime casefold root saved (some objectRef) manifest ref { caseIDs := [caseID] } none none =
            .ok (document.selected objectRef
              ((document.namesakes casefold sheet).map (Sheet.narrowed (isOfCase library caseID)))) ∧
          ∃ row ∈ sheet.rows, isOfCase library caseID row = true := by
  obtain ⟨-, made⟩ := isRead_read isRead
  have sheets : manifest.sheets = document.sheets.map (manifestOf library document) := by
    rw [built]
    exact manifest_sheets file ref digest document
  have ids := nodup_tableIDs made apart
  have own : sheet ∈ document.namesakes casefold sheet := List.mem_filter.mpr ⟨listed, decide_eq_true rfl⟩
  constructor
  · intro stripped filled
    have resolved := @resolveSheetNames_name library runtime casefold document manifest sheets sheet listed stripped
      filled
    refine ⟨resolved, ?_⟩
    have chosen := @select_resolved library runtime casefold root document hexadecimal file format ref sourceID digest
      source isRead proper apart files saved objectRef manifest built saves sheet _ _ resolved
      (List.ne_nil_of_mem (List.mem_map_of_mem own)) (by
        intro name inside
        obtain ⟨other, among, rfl⟩ := List.mem_map.mp inside
        exact of_decide_eq_true (List.mem_filter.mp among).2)
    rw [chosen, keeps_name, narrowed_all]
    simp only [List.filter_true]
  · intro caseID isListed runnable only
    obtain ⟨stripped, filled, row, inside, same⟩ := mem_caseIDs_manifestOf ids solid listed isListed
    have manifestIDs : (manifest.sheets.map SheetManifest.sheetID).Nodup := by
      rw [sheets, List.map_map]
      exact ids
    have resolved := @resolveSheetNames_case library runtime casefold manifest (manifestOf library document sheet)
      caseID manifestIDs runnable stripped filled isListed fun other among lists =>
        congrArg SheetManifest.sheetID (only other among lists)
    have isOf : isOfCase library caseID row = true := by
      unfold isOfCase
      rw [same]
      exact decide_eq_true rfl
    refine ⟨resolved, ?_, row, inside, isOf⟩
    have nonempty : strip caseID ≠ "" := by
      rw [stripped]
      rintro rfl
      exact filled blank
    rw [@select_resolved library runtime casefold root document hexadecimal file format ref sourceID digest source
      isRead proper apart files saved objectRef manifest built saves sheet _ _ resolved (List.cons_ne_nil _ _)
      fun name inside => List.mem_singleton.mp inside, keeps_case nonempty, if_neg]
    rw [List.all_eq_true]
    intro empty
    have left := List.isEmpty_iff.mp (empty sheet own)
    exact List.not_mem_nil (left ▸ List.mem_filter.mpr ⟨inside, isOf⟩)

end Agreement

section Samples

/-- `str.lower` of letters that ASCII has. -/
def asciiLower (text : String) : String := String.ofList (text.toList.map Char.toLower)

def sampleLibrary : Library :=
  { sha256 := fun bytes =>
      if bytes = "Cases".toUTF8 then "2249bd503ec47d7224fd147948bbd6fc286c2b653d5d46422989529ff31e4666"
      else if bytes = "cases".toUTF8 then "352b84777d8dd96ac9c0b3c170ecb2c7cca7fc2dbae41a1ec1ed4286fb2c43db"
      else "8a7525b1492fb84833f5c4a69b30f4bfbb134f9b666b61a2c1872d63d234c085"
    lower := asciiLower
    canonicalCaseID := fun text => asciiLower (strip text)
    normalizeHeader := fun text => asciiLower (strip text)
    caseIDMatches := fun text => if text = "TC-1" ∨ text = "TC-2" then [text] else []
    tables := fun _ _ => .ok [] }

def recordSheet (name : String) (index : ℕ) (columns : List (String × String)) : Sheet :=
  let values : Dict String Cell := Dict.empty.write (columns.map fun column => (column.1, .str column.2))
  { tableID := sampleLibrary.tableIDForSource "source" name
    name
    index
    headers := columns.map Prod.fst
    rows := [{ sourceRow := 2, dataRowIndex := 1, values, displayValues := values.map (displayValue plainRuntime) }]
    normalizedHeaders := Reader.normalizedHeaders sampleLibrary.normalizeHeader (columns.map Prod.fst) }

def sampleDocument (sheets : List Sheet) : Document :=
  { sourceRef := "ref", sourceID := "source", fileName := "cases", format := "format", sheets, materializedRef := "ref" }

def sampleManifest (document : Document) : SourceManifest :=
  sampleLibrary.manifest ⟨"cases", .empty⟩ "ref" "" document.described

def sampleFiles (document : Document) : Files := (save ["snapshot"] .empty (sampleManifest document) document).getD .empty

/-- The names of the sheets that are selected of a sample. -/
def sampleSelection (document : Document) (scope : TabularScope) : Option (List String) :=
  (select sampleLibrary plainRuntime asciiLower ["snapshot"] (sampleFiles document) (some "object")
    (sampleManifest document) "ref" scope none none).toOption.map fun selected => selected.sheets.map Sheet.name

def distinctCases : Document :=
  sampleDocument [recordSheet "Cases" 0 [("id", "TC-1")], recordSheet "Notes" 1 [("id", "TC-2")]]

/-- A sheet with a case, and a summary of the same name without regard to case that tells of the case. -/
def namesakeSheets : Document :=
  sampleDocument [recordSheet "Cases" 0 [("id", "TC-1")],
    recordSheet "cases" 1 [("metric", "last"), ("value", "TC-1")]]

def emptyNotes : Document :=
  sampleDocument [recordSheet "Cases" 0 [("id", "TC-1")], { recordSheet "Notes" 1 [("id", "")] with rows := [] }]

def isText : Cell → Bool
  | .str _ => true
  | _ => false

/-- Whether all cells of a document are texts, in sheets whose names have different digests. -/
def isPlain (document : Document) : Bool :=
  document.sheets.all (fun sheet => sheet.rows.all fun row => row.values.values.all isText) &&
    (document.sheets.map fun sheet => sampleLibrary.textDigest 8 sheet.name).Nodup

theorem hexadecimal_sampleLibrary : Hexadecimal sampleLibrary := by
  intro bytes
  unfold sampleLibrary
  dsimp only
  split
  · exact forall_mem_of_all (by decide)
  · split
    · exact forall_mem_of_all (by decide)
    · exact forall_mem_of_all (by decide)

section Plain

variable {source : Source} {document : Document}

theorem proper_isPlain (plain : isPlain document = true) :
    (∀ sheet ∈ document.sheets, ∀ row ∈ sheet.rows, ∀ cell ∈ row.values.values, cell.Proper plainRuntime.floatText) ∧
      (document.sheets.map fun sheet => sampleLibrary.textDigest 8 sheet.name).Nodup := by
  unfold isPlain at plain
  rw [Bool.and_eq_true, decide_eq_true_eq] at plain
  refine ⟨?_, plain.2⟩
  intro sheet listed row inside cell within
  have isText_ := List.all_eq_true.mp (List.all_eq_true.mp (List.all_eq_true.mp plain.1 sheet listed) row inside) cell
    within
  cases cell with
  | str text => trivial
  | none => cases isText_
  | bool value => cases isText_
  | int value => cases isText_
  | float literal => cases isText_
  | datetime value => cases isText_
  | date value => cases isText_
  | time value => cases isText_
  | arr items => cases isText_
  | obj members => cases isText_
  | other text => cases isText_

theorem save_sample (isRead : read sampleLibrary plainRuntime "cases" "format" "ref" "source" source = .ok document)
    (plain : isPlain document = true) :
    save ["snapshot"] .empty (sampleManifest document) document = some (sampleFiles document) := by
  obtain ⟨proper, apart⟩ := proper_isPlain plain
  obtain ⟨saved, done, -⟩ := @save_loads sampleLibrary plainRuntime ["snapshot"] hexadecimal_sampleLibrary
    ⟨"cases", .empty⟩ "format" "ref" "source" "" source document isRead proper apart .empty
  unfold sampleFiles
  rw [show save ["snapshot"] .empty (sampleManifest document) document = some saved from done]
  rfl

theorem sampleSelection_eq (sheet : Sheet) {scope : TabularScope} (selected : List String)
    (isRead : read sampleLibrary plainRuntime "cases" "format" "ref" "source" source = .ok document)
    (plain : isPlain document = true)
    (resolved : resolveSheetNames sampleLibrary plainRuntime asciiLower (sampleManifest document) scope = .ok selected)
    (filled : selected ≠ []) (only : ∀ name ∈ selected, name = asciiLower sheet.name) :
    sampleSelection document scope =
      if (document.namesakes asciiLower sheet).all fun other =>
          (other.rows.filter (scope.keeps sampleLibrary none)).isEmpty then none
      else some ((document.selected "object"
        ((document.namesakes asciiLower sheet).map (Sheet.narrowed (scope.keeps sampleLibrary none)))).sheets.map
          Sheet.name) := by
  obtain ⟨proper, apart⟩ := proper_isPlain plain
  unfold sampleSelection
  rw [@select_resolved sampleLibrary plainRuntime asciiLower ["snapshot"] document hexadecimal_sampleLibrary
    ⟨"cases", .empty⟩ "format" "ref" "source" "" source isRead proper apart .empty _ "object" (sampleManifest document) rfl
    (save_sample isRead plain) sheet scope selected resolved filled only]
  split
  · rfl
  · rfl

end Plain

theorem samples_read :
    read sampleLibrary plainRuntime "cases" "format" "ref" "source"
        (.jsonl ("\x7b\"sheet_name\":\"Cases\",\"id\":\"TC-1\"\x7d\n" ++
          "\x7b\"sheet_name\":\"Notes\",\"id\":\"TC-2\"\x7d").toList) = .ok distinctCases ∧
      read sampleLibrary plainRuntime "cases" "format" "ref" "source"
        (.jsonl ("\x7b\"sheet_name\":\"Cases\",\"id\":\"TC-1\"\x7d\n" ++
          "\x7b\"sheet_name\":\"cases\",\"metric\":\"last\",\"value\":\"TC-1\"\x7d").toList) = .ok namesakeSheets ∧
      read sampleLibrary plainRuntime "cases" "format" "ref" "source"
        (.workbook [("Cases", [[.str "id"], [.str "TC-1"]]), ("Notes", [[.str "id"]])]) = .ok emptyNotes := by
  decide +kernel

def firstSheet (document : Document) : Sheet := document.sheets.headD (recordSheet "" 0 [])

theorem select_agrees_distinctCases :
    (resolveSheetNames sampleLibrary plainRuntime asciiLower (sampleManifest distinctCases) { sheetNames := ["Cases"] } =
        .ok ((distinctCases.namesakes asciiLower (firstSheet distinctCases)).map fun other => asciiLower other.name) ∧
      select sampleLibrary plainRuntime asciiLower ["snapshot"] (sampleFiles distinctCases) (some "object")
          (sampleManifest distinctCases) "ref" { sheetNames := ["Cases"] } none none =
        if (distinctCases.namesakes asciiLower (firstSheet distinctCases)).all fun other => other.rows.isEmpty then
          .error (noRows (normalizeRef "ref") { sheetNames := ["Cases"] })
        else .ok (distinctCases.selected "object" (distinctCases.namesakes asciiLower (firstSheet distinctCases)))) ∧
      resolveSheetNames sampleLibrary plainRuntime asciiLower (sampleManifest distinctCases) { caseIDs := ["TC-1"] } =
          .ok ["cases"] ∧
        select sampleLibrary plainRuntime asciiLower ["snapshot"] (sampleFiles distinctCases) (some "object")
            (sampleManifest distinctCases) "ref" { caseIDs := ["TC-1"] } none none =
          .ok (distinctCases.selected "object"
            ((distinctCases.namesakes asciiLower (firstSheet distinctCases)).map
              (Sheet.narrowed (isOfCase sampleLibrary "TC-1")))) ∧
        ∃ row ∈ (firstSheet distinctCases).rows, isOfCase sampleLibrary "TC-1" row = true := by
  have solid : ∀ text, ∀ found ∈ sampleLibrary.caseIDMatches text, strip found = found := by
    intro text found listed
    unfold sampleLibrary at listed
    dsimp only at listed
    split at listed
    · next same =>
        rw [List.mem_singleton.mp listed]
        rcases same with rfl | rfl
        · exact strip_eq_self rfl rfl (by decide) (by decide)
        · exact strip_eq_self rfl rfl (by decide) (by decide)
    · cases listed
  have plain : isPlain distinctCases = true := by decide +kernel
  obtain ⟨proper, apart⟩ := proper_isPlain plain
  have listed : firstSheet distinctCases ∈ distinctCases.sheets := List.mem_cons_self
  have name : (firstSheet distinctCases).name = "Cases" := rfl
  have lowered : asciiLower (firstSheet distinctCases).name = "cases" := rfl
  obtain ⟨byName, byCase⟩ := select_agrees sampleLibrary plainRuntime asciiLower hexadecimal_sampleLibrary (by decide +kernel) solid
    ⟨"cases", .empty⟩ "format" "ref" "source" "" _ distinctCases samples_read.1 proper apart ["snapshot"] .empty
    (sampleFiles distinctCases) "object" (sampleManifest distinctCases) rfl
    (save_sample samples_read.1 plain) (firstSheet distinctCases) listed
  have found := byCase "TC-1" (by decide +kernel) (by decide +kernel) (by decide +kernel)
  rw [lowered] at found
  rw [name] at byName
  exact ⟨byName (by decide +kernel) (by decide +kernel), found⟩

/-- A name gives the sheets of the name without regard to case, a case gives their rows, and a sheet without
rows gives none. -/
theorem selection_beyond_name :
    ((sampleManifest namesakeSheets).sheets.map SheetManifest.name = ["Cases", "cases"] ∧
        (runnableSheets (sampleManifest namesakeSheets)).map SheetManifest.name = ["Cases"] ∧
        sampleSelection namesakeSheets { sheetNames := ["Cases"] } = some ["Cases", "cases"] ∧
        sampleSelection namesakeSheets { caseIDs := ["TC-1"] } = some ["Cases", "cases"]) ∧
      (sampleManifest emptyNotes).sheets.map SheetManifest.name = ["Cases", "Notes"] ∧
        sampleSelection emptyNotes { sheetNames := ["Notes"] } = none := by
  have isRunnable : (runnableSheets (sampleManifest namesakeSheets)).map SheetManifest.name = ["Cases"] := rfl
  have byName : sampleSelection namesakeSheets { sheetNames := ["Cases"] } = some ["Cases", "cases"] := by
    rw [sampleSelection_eq (firstSheet namesakeSheets) ["cases", "cases"] samples_read.2.1]
    all_goals decide +kernel
  have byCase : sampleSelection namesakeSheets { caseIDs := ["TC-1"] } = some ["Cases", "cases"] := by
    rw [sampleSelection_eq (firstSheet namesakeSheets) ["cases"] samples_read.2.1]
    all_goals decide +kernel
  have empty : sampleSelection emptyNotes { sheetNames := ["Notes"] } = none := by
    rw [sampleSelection_eq (recordSheet "Notes" 1 []) ["notes"] samples_read.2.2]
    all_goals decide +kernel
  exact ⟨⟨rfl, isRunnable, byName, byCase⟩, rfl, empty⟩

end Samples

end Sico.Sources.Snapshot

import Sico.Preparation.Selection
import Sico.Sources.Resolution

/-! # The limit of a tabular source

A tabular source may select so many rows, each row once. The tables keep the limit, but a document
is asked for its rows before they are gathered, and it may have no more of them than the room that
is left and the gathered rows that are recognized as its own. So a document is refused too early if
it repeats rows that are not recognized, and a source has its limit exactly if each document finds
room in its turn (`Preparation.tabularTables_limit_iff`).

Rows are gathered under the identifier of their table, and recognized by the text of a ref: a ref
that is spelled in another way reaches the same table, and none of its rows are recognized.
-/

namespace Sico.Preparation

open Foundation AgentLoop

section Outcomes

/-- Whether a source ends for the number of its rows: `_row_limit_outcome`, `_tabular_scope_issue`
and `_delegate_work_item_limit`. -/
def Stop.IsRowLimit : Stop → Prop
  | .needsClarification refusal => refusal.code = "tabular_row_limit" ∨ refusal.code = "delegate_work_item_limit"
  | .rejected _ => False
  | .raised _ => False

def RefusedByLimit {Gathered : Type*} (outcome : Except Stop Gathered) : Prop :=
  ∃ stop, outcome = .error stop ∧ stop.IsRowLimit

theorem isRowLimit_overLimit (scope : TabularScope) (selectedRows : ℕ) :
    (scope.overLimit selectedRows).IsRowLimit := by
  unfold TabularScope.overLimit
  split
  · exact .inr rfl
  · exact .inl rfl

instance (stop : Stop) : Decidable stop.IsRowLimit :=
  match stop with
  | .needsClarification _ => inferInstanceAs (Decidable (_ ∨ _))
  | .rejected _ => inferInstanceAs (Decidable False)
  | .raised _ => inferInstanceAs (Decidable False)

instance {Gathered : Type*} (outcome : Except Stop Gathered) : Decidable (RefusedByLimit outcome) :=
  match outcome with
  | .ok _ => isFalse fun ⟨_, impossible, _⟩ => by cases impossible
  | .error stop => decidable_of_iff stop.IsRowLimit
      ⟨fun limit => ⟨stop, rfl, limit⟩, fun ⟨_, same, limit⟩ => by cases same; exact limit⟩

theorem not_refusedByLimit_ok {Gathered : Type*} (gathered : Gathered) :
    ¬ RefusedByLimit (.ok gathered : Except Stop Gathered) := fun ⟨_, impossible, _⟩ => by cases impossible

end Outcomes

section Turns

variable (library : Sources.Library) (casefold : String → String) (scope : TabularScope)

/-- The rows that `_apply_scope` keeps of a document. -/
def keptRows (spec : TabularDocumentSpec) (document : TabularDocument) : List TabularRow :=
  document.sheets.flatMap fun sheet => sheet.rows.filter (spec.selects library)

/-- A document with the sheets and the rows that are kept of it. -/
def narrowed (spec : TabularDocumentSpec) (document : TabularDocument) : TabularDocument :=
  let selected := document.sheets.map fun sheet => { sheet with rows := sheet.rows.filter (spec.selects library) }
  { document with sheets := selected.filter fun sheet => sheet.rows ≠ [] }

/-- The tables with the rows of a document, whatever their number. -/
def withDocument (documentIndex : ℕ) (spec : TabularDocumentSpec) (document : TabularDocument)
    (tables : Dict String TableContext) : Dict String TableContext :=
  (narrowed library spec document).sheets.foldl
    (addSheet library scope documentIndex spec (narrowed library spec document)) tables

/-- Whether a document finds room in its turn: for the rows that it is asked for, beside those that
are recognized, and for the tables with them. -/
structure Fits (documentIndex : ℕ) (spec : TabularDocumentSpec) (document : TabularDocument)
    (tables : Dict String TableContext) : Prop where
  asked : (keptRows library spec document).length ≤
    (scope.sourceLimit - rowCount tables.values) + matchingExistingRows library casefold tables.values spec
  gathered : rowCount (withDocument library scope documentIndex spec document tables).values ≤ scope.sourceLimit

instance (documentIndex : ℕ) (spec : TabularDocumentSpec) (document : TabularDocument)
    (tables : Dict String TableContext) :
    Decidable (Fits library casefold scope documentIndex spec document tables) :=
  decidable_of_iff (_ ∧ _) ⟨fun both => ⟨both.1, both.2⟩, fun fits => ⟨fits.asked, fits.gathered⟩⟩

variable {library casefold scope} {spec : TabularDocumentSpec} {document : TabularDocument}
  {documentIndex : ℕ} {tables : Dict String TableContext}

theorem applyScope_kept (some : keptRows library spec document ≠ []) (maxRows : ℕ) :
    applyScope library spec maxRows document =
      if maxRows < (keptRows library spec document).length then
        .error { message := "selected tabular rows exceed max_rows=" ++ toString maxRows
                 code := "tabular_row_limit" }
      else .ok (narrowed library spec document) := by
  have counted : ((document.sheets.map fun sheet =>
      { sheet with rows := sheet.rows.filter (spec.selects library) }).map fun sheet => sheet.rows.length).sum =
      (keptRows library spec document).length := by
    rw [keptRows, List.length_flatMap, List.map_map]
    rfl
  have filled : (document.sheets.map fun sheet =>
      { sheet with rows := sheet.rows.filter (spec.selects library) }).filter (fun sheet => sheet.rows ≠ []) ≠ [] := by
    obtain ⟨row, kept⟩ := List.exists_mem_of_ne_nil _ some
    obtain ⟨sheet, listed, among⟩ := List.mem_flatMap.mp kept
    refine List.ne_nil_of_mem (List.mem_filter.mpr ⟨List.mem_map.mpr ⟨sheet, listed, rfl⟩, ?_⟩)
    exact decide_eq_true (List.ne_nil_of_mem among)
  unfold applyScope
  dsimp only
  rw [counted, if_neg (not_and_of_not_left _ filled), if_neg filled]
  rfl

theorem ok_bind_applyScope (some : keptRows library spec document ≠ []) (maxRows : ℕ) :
    (Except.ok document).bind (applyScope library spec maxRows) =
      if maxRows < (keptRows library spec document).length then
        .error { message := "selected tabular rows exceed max_rows=" ++ toString maxRows
                 code := "tabular_row_limit" }
      else .ok (narrowed library spec document) :=
  applyScope_kept some maxRows

theorem addDocument_fits (some : keptRows library spec document ≠ [])
    (complete : missingCases library spec (narrowed library spec document) = [])
    (fits : Fits library casefold scope documentIndex spec document tables) :
    addDocument library casefold scope (.ok document) tables documentIndex spec =
      .ok (withDocument library scope documentIndex spec document tables) := by
  have asked := fits.asked
  have several := List.length_pos_of_ne_nil some
  unfold addDocument
  dsimp only
  rw [if_neg (by omega)]
  rw [ok_bind_applyScope some, if_neg (by omega)]
  dsimp only
  rw [if_neg (not_not_intro complete)]
  exact if_neg (Nat.not_lt_of_le fits.gathered)

theorem addDocument_unfit (some : keptRows library spec document ≠ [])
    (complete : missingCases library spec (narrowed library spec document) = [])
    (unfit : ¬ Fits library casefold scope documentIndex spec document tables) :
    RefusedByLimit (addDocument library casefold scope (.ok document) tables documentIndex spec) := by
  unfold addDocument
  dsimp only
  split
  · exact ⟨_, rfl, isRowLimit_overLimit scope _⟩
  · rw [ok_bind_applyScope some]
    split
    · next beyond =>
        split at beyond
        · cases beyond
          refine ⟨_, rfl, ?_⟩
          rw [TabularScope.sourceError, if_pos rfl]
          exact isRowLimit_overLimit scope _
        · cases beyond
    · next given =>
        split at given
        · cases given
        · next asked =>
            cases given
            rw [if_neg (not_not_intro complete), if_pos]
            · exact ⟨_, rfl, isRowLimit_overLimit scope _⟩
            · exact Nat.lt_of_not_le fun within => unfit ⟨Nat.le_of_not_lt asked, within⟩

end Turns

section Runs

variable (library : Sources.Library) (casefold : String → String) (scope : TabularScope)
  (answers : ℕ → Except Sources.SourceError TabularDocument)

/-- The tables with the rows of all documents from an index on, whatever their number. -/
def withDocuments : ℕ → Dict String TableContext → List TabularDocumentSpec → Dict String TableContext
  | _, tables, [] => tables
  | documentIndex, tables, spec :: rest =>
      withDocuments (documentIndex + 1)
        (match answers documentIndex with
          | .ok document => withDocument library scope documentIndex spec document tables
          | .error _ => tables) rest

/-- Whether each document from an index on finds room in its turn, beside the rows of those before it. -/
def EachFits : ℕ → Dict String TableContext → List TabularDocumentSpec → Prop
  | _, _, [] => True
  | documentIndex, tables, spec :: rest =>
      match answers documentIndex with
      | .ok document => Fits library casefold scope documentIndex spec document tables ∧
          EachFits (documentIndex + 1) (withDocument library scope documentIndex spec document tables) rest
      | .error _ => EachFits (documentIndex + 1) tables rest

instance : ∀ documentIndex tables specs, Decidable (EachFits library casefold scope answers documentIndex tables specs)
  | _, _, [] => inferInstanceAs (Decidable True)
  | documentIndex, tables, spec :: rest => by
      unfold EachFits
      cases answers documentIndex with
      | ok document =>
          have := instDecidableEachFits (documentIndex + 1) (withDocument library scope documentIndex spec document tables) rest
          exact inferInstance
      | error _ => exact instDecidableEachFits (documentIndex + 1) tables rest

/-- Documents that are all given, and of each of which a row is kept. -/
def AllSelect (documentIndex : ℕ) (specs : List TabularDocumentSpec) : Prop :=
  ∀ entry ∈ specs.zipIdx documentIndex, ∃ document, answers entry.2 = .ok document ∧
    keptRows library entry.1 document ≠ []

/-- Documents that have a row for each case that they are asked for. -/
def CasesFound (documentIndex : ℕ) (specs : List TabularDocumentSpec) : Prop :=
  ∀ entry ∈ specs.zipIdx documentIndex, ∀ document, answers entry.2 = .ok document →
    missingCases library entry.1 (narrowed library entry.1 document) = []

variable {library casefold scope answers} {documentIndex : ℕ} {tables : Dict String TableContext}
  {spec : TabularDocumentSpec} {specs : List TabularDocumentSpec}

theorem allSelect_cons : AllSelect library answers documentIndex (spec :: specs) ↔
    (∃ document, answers documentIndex = .ok document ∧ keptRows library spec document ≠ []) ∧
      AllSelect library answers (documentIndex + 1) specs := by
  rw [AllSelect, List.zipIdx_cons, List.forall_mem_cons]
  rfl

theorem casesFound_cons : CasesFound library answers documentIndex (spec :: specs) ↔
    (∀ document, answers documentIndex = .ok document →
      missingCases library spec (narrowed library spec document) = []) ∧
      CasesFound library answers (documentIndex + 1) specs := by
  rw [CasesFound, List.zipIdx_cons, List.forall_mem_cons]
  rfl

theorem addDocumentsFrom_fits (select : AllSelect library answers documentIndex specs)
    (complete : CasesFound library answers documentIndex specs)
    (fits : EachFits library casefold scope answers documentIndex tables specs) :
    addDocumentsFrom library casefold scope answers documentIndex tables specs =
      .ok (withDocuments library scope answers documentIndex tables specs) := by
  induction specs generalizing documentIndex tables with
  | nil => rfl
  | cons spec rest ih =>
      obtain ⟨⟨document, answered, some⟩, selectRest⟩ := allSelect_cons.mp select
      obtain ⟨completeFirst, completeRest⟩ := casesFound_cons.mp complete
      rw [EachFits, answered] at fits
      rw [addDocumentsFrom, withDocuments, answered, addDocument_fits some (completeFirst document answered) fits.1]
      exact ih selectRest completeRest fits.2

theorem addDocumentsFrom_unfit (select : AllSelect library answers documentIndex specs)
    (complete : CasesFound library answers documentIndex specs)
    (unfit : ¬ EachFits library casefold scope answers documentIndex tables specs) :
    RefusedByLimit (addDocumentsFrom library casefold scope answers documentIndex tables specs) := by
  induction specs generalizing documentIndex tables with
  | nil => exact absurd trivial unfit
  | cons spec rest ih =>
      obtain ⟨⟨document, answered, some⟩, selectRest⟩ := allSelect_cons.mp select
      obtain ⟨completeFirst, completeRest⟩ := casesFound_cons.mp complete
      rw [EachFits, answered] at unfit
      rw [addDocumentsFrom, answered]
      by_cases first : Fits library casefold scope documentIndex spec document tables
      · rw [addDocument_fits some (completeFirst document answered) first]
        exact ih selectRest completeRest fun later => unfit ⟨first, later⟩
      · obtain ⟨stop, refused, limit⟩ := addDocument_unfit some (completeFirst document answered) first
        rw [refused]
        exact ⟨stop, rfl, limit⟩

theorem rowCount_withDocuments (within : rowCount tables.values ≤ scope.sourceLimit)
    (select : AllSelect library answers documentIndex specs)
    (fits : EachFits library casefold scope answers documentIndex tables specs) :
    rowCount (withDocuments library scope answers documentIndex tables specs).values ≤ scope.sourceLimit := by
  induction specs generalizing documentIndex tables with
  | nil => exact within
  | cons spec rest ih =>
      obtain ⟨⟨document, answered, _⟩, selectRest⟩ := allSelect_cons.mp select
      rw [EachFits, answered] at fits
      rw [withDocuments, answered]
      exact ih fits.1.gathered selectRest fits.2

end Runs

section Distinct

/-- The table and the numbers of a row, which tell it from other rows. -/
def NormalizedRow.place (row : NormalizedRow) : String × RowKey := (row.tableID, row.key)

def distinctRows (rows : List NormalizedRow) : ℕ := (rows.map NormalizedRow.place).dedup.length

/-- Tables that have a row under the place of each of the rows. -/
def HasPlaces (rows : List NormalizedRow) (tables : Dict String TableContext) : Prop :=
  ∀ row ∈ rows, ∃ context, tables.get? row.tableID = some context ∧
    row.key ∈ context.planning.rows.map NormalizedRow.key

variable {library : Sources.Library} {scope : TabularScope} {documentIndex : ℕ} {spec : TabularDocumentSpec}
  {document : TabularDocument} {tables : Dict String TableContext} {selected : List NormalizedRow}

theorem distinctRows_le (has : HasPlaces selected tables) : distinctRows selected ≤ rowCount tables.values := by
  have counted : rowCount tables.values =
      (tables.entries.flatMap fun entry => entry.2.planning.rows.map fun row => (entry.1, row.key)).length := by
    rw [rowCount, Dict.values, List.length_flatMap, List.map_map]
    congr 1
    exact List.map_congr_left fun entry _ => (List.length_map _).symm
  rw [counted, distinctRows]
  refine (List.subperm_of_subset (List.nodup_dedup _) fun place listed => ?_).length_le
  obtain ⟨row, among, rfl⟩ := List.mem_map.mp (List.mem_dedup.mp listed)
  obtain ⟨context, found, keyed⟩ := has row among
  obtain ⟨other, own, same⟩ := List.mem_map.mp keyed
  refine List.mem_flatMap.mpr ⟨(row.tableID, context), Dict.get?_eq_some.mp found, ?_⟩
  exact List.mem_map.mpr ⟨other, own, by rw [NormalizedRow.place, same]⟩

theorem HasPlaces.addSheet {sheet : TabularSheet} (has : HasPlaces selected tables) :
    HasPlaces (selected ++ selectedRows library spec document sheet)
      (addSheet library scope documentIndex spec document tables sheet) := by
  intro row listed
  rw [get?_addSheet]
  split
  · next untouched =>
      rcases List.mem_append.mp listed with earlier | new
      · exact has row earlier
      · rcases untouched with none | other
        · rw [none] at new
          cases new
        · exact absurd (tableID_of_selected library new) other
  · next touched =>
      refine ⟨_, rfl, ?_⟩
      rcases List.mem_append.mp listed with earlier | new
      · obtain ⟨context, found, keyed⟩ := has row earlier
        rw [found]
        simp only [mergeTableContexts]
        rw [map_key_write, List.mem_eraseDups, List.map_append]
        exact List.mem_append_left _ keyed
      · have keyed := List.mem_map_of_mem (f := NormalizedRow.key) new
        cases tables.get? row.tableID with
        | none => exact keyed
        | some existing =>
            dsimp only [mergeTableContexts]
            rw [map_key_write, List.mem_eraseDups, List.map_append]
            exact List.mem_append_right _ keyed

theorem HasPlaces.foldl_addSheet {sheets : List TabularSheet} (has : HasPlaces selected tables) :
    HasPlaces (selected ++ sheets.flatMap (selectedRows library spec document))
      (sheets.foldl (Preparation.addSheet library scope documentIndex spec document) tables) := by
  induction sheets generalizing selected tables with
  | nil => simpa using has
  | cons sheet rest ih =>
      rw [List.flatMap_cons, ← List.append_assoc]
      exact ih has.addSheet

variable {answers : ℕ → Except Sources.SourceError TabularDocument} {specs : List TabularDocumentSpec}

theorem applyScope_eq_narrowed (some : keptRows library spec document ≠ []) :
    applyScope library spec (keptRows library spec document).length document = .ok (narrowed library spec document) := by
  rw [applyScope_kept some, if_neg (Nat.lt_irrefl _)]

theorem selection_narrowed (some : keptRows library spec document ≠ []) :
    (narrowed library spec document).sheets.flatMap (selectedRows library spec (narrowed library spec document)) =
      selectionOf library spec document :=
  selection_of_applyScope library (applyScope_eq_narrowed some)

theorem HasPlaces.withDocuments (select : AllSelect library answers documentIndex specs)
    (has : HasPlaces selected tables) :
    HasPlaces (selected ++ selectedFrom library answers documentIndex specs)
      (withDocuments library scope answers documentIndex tables specs) := by
  induction specs generalizing documentIndex tables selected with
  | nil => simpa [selectedFrom, Preparation.withDocuments] using has
  | cons spec rest ih =>
      obtain ⟨⟨document, answered, some⟩, selectRest⟩ := allSelect_cons.mp select
      have gathered : HasPlaces (selected ++ selectionOf library spec document)
          (withDocument library scope documentIndex spec document tables) := by
        rw [← selection_narrowed some]
        exact has.foldl_addSheet
      rw [selectedFrom, Preparation.withDocuments, answered, ← List.append_assoc]
      exact ih selectRest gathered

end Distinct

section Limits

variable {library : Sources.Library} {casefold : String → String}
  {answers : ℕ → Except Sources.SourceError TabularDocument} {catalogue descriptors : List CapabilityDescriptor}
  {sourceIndex before : ℕ} {source : TabularSourceSpec}

theorem refusedByLimit_tabularTables
    (named : sourceDescriptors source.capabilityIDs catalogue "skill" = .ok descriptors) (usable : descriptors ≠ [])
    (select : AllSelect library answers 1 source.documents) (complete : CasesFound library answers 1 source.documents) :
    RefusedByLimit (tabularTables library casefold answers catalogue sourceIndex before source) ↔
      ¬ EachFits library casefold ⟨source, sourceIndex, descriptors, before⟩ answers 1 .empty source.documents := by
  unfold tabularTables
  rw [named]
  change RefusedByLimit (refuseIf (descriptors = []) _ >>= _) ↔ _
  rw [refuseIf, if_neg usable]
  change RefusedByLimit (addDocumentsFrom library casefold ⟨source, sourceIndex, descriptors, before⟩ answers 1
    .empty source.documents >>= _) ↔ _
  by_cases fits : EachFits library casefold ⟨source, sourceIndex, descriptors, before⟩ answers 1 .empty source.documents
  · have within := rowCount_withDocuments (Nat.zero_le _) select fits
    rw [addDocumentsFrom_fits select complete fits]
    refine iff_of_false ?_ (not_not_intro fits)
    dsimp only [bind, Except.bind]
    rw [tabularScopeIssue, if_neg (Nat.not_lt_of_le (within.trans (min_le_left _ _)))]
    split
    · next stop issue =>
        split at issue
        · cases issue
          decide
        · cases issue
    · exact not_refusedByLimit_ok _
  · refine iff_of_true ?_ fits
    obtain ⟨stop, refused, limit⟩ := addDocumentsFrom_unfit select complete fits
    rw [refused]
    exact ⟨stop, rfl, limit⟩

theorem distinctRows_of_fits {scope : TabularScope} (select : AllSelect library answers 1 source.documents)
    (fits : EachFits library casefold scope answers 1 .empty source.documents) :
    distinctRows (selectedFrom library answers 1 source.documents) ≤ scope.sourceLimit := by
  have has : HasPlaces [] (Dict.empty : Dict String TableContext) := fun _ listed => by cases listed
  exact (distinctRows_le (has.withDocuments select)).trans (rowCount_withDocuments (Nat.zero_le _) select fits)

theorem refusedByLimit_iff_of_room
    (named : sourceDescriptors source.capabilityIDs catalogue "skill" = .ok descriptors) (usable : descriptors ≠ [])
    (select : AllSelect library answers 1 source.documents) (complete : CasesFound library answers 1 source.documents)
    (room : distinctRows (selectedFrom library answers 1 source.documents) ≤
        min source.maxRows (maxDelegateWorkItems - before) →
      EachFits library casefold ⟨source, sourceIndex, descriptors, before⟩ answers 1 .empty source.documents) :
    RefusedByLimit (tabularTables library casefold answers catalogue sourceIndex before source) ↔
      min source.maxRows (maxDelegateWorkItems - before) <
        distinctRows (selectedFrom library answers 1 source.documents) := by
  rw [refusedByLimit_tabularTables named usable select complete]
  constructor
  · intro unfit
    exact Nat.lt_of_not_le fun within => unfit (room within)
  · intro beyond fits
    exact Nat.not_lt_of_le (distinctRows_of_fits select fits) beyond

/-- The documents of a source in a workspace whose files have one sheet each: what a file is read as,
under its location in the workspace. -/
def documentsIn (workspace : Sources.Workspace) (reads : Location → TabularDocument) (source : TabularSourceSpec)
    (documentIndex : ℕ) : Except Sources.SourceError TabularDocument :=
  match source.documents[documentIndex - 1]? with
  | some spec => (workspace.resolveRef spec.sourceRef).map fun relative =>
      { reads relative with sourceRef := "/".intercalate relative }
  | none => .error { message := "no such document" }

def plainLibrary : Sources.Library where
  sha256 _ := ""
  lower := id
  canonicalCaseID := id
  normalizeHeader := id
  caseIDMatches _ := []
  tables _ _ := .ok []

def runDescriptor : CapabilityDescriptor where
  capabilityID := "skill:run"
  canonical := by decide

def accountsWorkspace : Sources.Workspace where
  links := fun _ => none
  depth := 40
  root := ["workspace"]
  files := [["workspace", "accounts.csv"]]
  attachmentsNamed := fun _ => []

def accounts : TabularDocument where
  sourceRef := "accounts.csv"
  sourceID := "accounts"
  sheets :=
    [{ tableID := "accounts:table", name := "table", headers := ["User Name"]
       rows :=
         [{ displayValues := [("User Name", "alice")], sourceRow := 2, dataRowIndex := 1
            values := [("User Name", .str "alice")] },
           { displayValues := [("User Name", "bob")], sourceRow := 3, dataRowIndex := 2
             values := [("User Name", .str "bob")] }] }]

/-- A source of at most two rows that selects the accounts twice. -/
def accountsTwice (again : TabularDocumentSpec) : TabularSourceSpec where
  documents := [{ sourceRef := "accounts.csv" }, again]
  maxRows := 2

def accountsAnswers (again : TabularDocumentSpec) : ℕ → Except Sources.SourceError TabularDocument :=
  documentsIn accountsWorkspace (fun _ => accounts) (accountsTwice again)

def accountsTables (again : TabularDocumentSpec) : Except Stop (List TableContext) :=
  tabularTables plainLibrary id (accountsAnswers again) [runDescriptor] 1 0 (accountsTwice again)

theorem resolveRef_accounts : accountsWorkspace.resolveRef "accounts.csv" = .ok ["accounts.csv"] := by decide

theorem documentsIn_accounts {source : TabularSourceSpec} {spec : TabularDocumentSpec} {documentIndex : ℕ}
    (listed : source.documents[documentIndex - 1]? = some spec)
    (resolved : accountsWorkspace.resolveRef spec.sourceRef = .ok ["accounts.csv"]) :
    documentsIn accountsWorkspace (fun _ => accounts) source documentIndex = .ok accounts := by
  have named : "/".intercalate ["accounts.csv"] = "accounts.csv" := by decide
  rw [documentsIn, listed]
  dsimp only
  rw [resolved, Except.map, named]
  rfl

theorem accountsAnswers_eq (again : TabularDocumentSpec)
    (resolved : accountsWorkspace.resolveRef again.sourceRef = .ok ["accounts.csv"]) :
    accountsAnswers again 1 = .ok accounts ∧ accountsAnswers again 2 = .ok accounts :=
  ⟨documentsIn_accounts rfl resolveRef_accounts, documentsIn_accounts rfl resolved⟩

theorem allSelect_accounts (again : TabularDocumentSpec)
    (resolved : accountsWorkspace.resolveRef again.sourceRef = .ok ["accounts.csv"])
    (kept : keptRows plainLibrary again accounts ≠ []) :
    AllSelect plainLibrary (accountsAnswers again) 1 (accountsTwice again).documents := by
  obtain ⟨first, second⟩ := accountsAnswers_eq again resolved
  refine allSelect_cons.mpr ⟨⟨accounts, first, by decide⟩, allSelect_cons.mpr ⟨⟨accounts, second, kept⟩, ?_⟩⟩
  intro entry listed
  cases listed

theorem casesFound_accounts (again : TabularDocumentSpec)
    (resolved : accountsWorkspace.resolveRef again.sourceRef = .ok ["accounts.csv"]) (any : again.caseIDs = []) :
    CasesFound plainLibrary (accountsAnswers again) 1 (accountsTwice again).documents := by
  obtain ⟨first, second⟩ := accountsAnswers_eq again resolved
  refine casesFound_cons.mpr ⟨?_, casesFound_cons.mpr ⟨?_, ?_⟩⟩
  · intro document answered
    rw [first] at answered
    cases answered
    rfl
  · intro document answered
    rw [second] at answered
    cases answered
    rw [missingCases, any]
    rfl
  · intro entry listed
    cases listed

theorem sourceDescriptors_accounts (again : TabularDocumentSpec) :
    sourceDescriptors (accountsTwice again).capabilityIDs [runDescriptor] "skill" = .ok [runDescriptor] := by
  have usable : runDescriptor.providerID = "skill" ∧ runDescriptor.visibility = .everyone := by decide
  have all : (accountsTwice again).capabilityIDs = [] := rfl
  rw [sourceDescriptors, if_pos all, List.filter_cons, if_pos (decide_eq_true usable)]
  rfl

/-- The accounts in the same spelling, from the second on. -/
def fromSecond : TabularDocumentSpec where
  sourceRef := "accounts.csv"
  rowStart := some 2

end Limits

end Sico.Preparation

import Sico.Sources.Binding

/-! # Refs that share a snapshot

A history of calls on a workspace: what was last indexed for each ref by `index_path`, and what
its last call was on. As long as the two agree, the manifest that is found for the ref is to say
what reading the file says. `index_path` of another ref with the same content leaves it so. A
call of `index_text` for a ref that has no manifest of the content writes one without sheets
where the shared one was, and for a ref whose normal form is not in normal form it can write the
entry of another ref.
-/

namespace Sico.Sources

open Foundation

variable {library : Library}

section Histories

/-- The ref of a call, in the form under which it is kept. -/
def Call.place : Call → String
  | .indexPath ref _ => normalizeRef ref
  | .indexText ref _ _ _ => normalizeRef ref

def Call.file : Call → File
  | .indexPath _ file => file
  | .indexText _ file _ _ => file

/-- Whether the file of a call can be read, where the call has to read it. -/
def Call.succeeds (library : Library) : Call → Bool
  | .indexPath _ file => (library.readTables (library.format file) file.bytes).isOk
  | .indexText _ _ _ _ => true

def Call.isIndexPath : Call → Bool
  | .indexPath _ _ => true
  | .indexText _ _ _ _ => false

/-- The file of the last call for a ref among those that count. -/
def latest (counts : Call → Bool) (calls : List Call) (place : String) : Option File :=
  calls.foldl (fun file call => if counts call ∧ call.place = place then some call.file else file) none

/-- The file that the last call for a ref was on. -/
def current (library : Library) : List Call → String → Option File := latest (Call.succeeds library)

/-- The file that the last call of `index_path` for a ref was on. -/
def lastIndexed (library : Library) : List Call → String → Option File :=
  latest fun call => call.succeeds library && call.isIndexPath

def Library.content (library : Library) (file : File) : ByteArray × String := (file.bytes, library.format file)

/-- A ref was last indexed by `index_path` with the file, and still has its content. -/
def InForce (library : Library) (calls : List Call) (place : String) (file : File) : Prop :=
  lastIndexed library calls place = some file ∧
    (current library calls place).map library.content = some (library.content file)

theorem latest_concat (counts : Call → Bool) (calls : List Call) (call : Call) (place : String) :
    latest counts (calls ++ [call]) place =
      if counts call ∧ call.place = place then some call.file else latest counts calls place := by
  unfold latest
  rw [List.foldl_append, List.foldl_cons, List.foldl_nil]

theorem mem_of_latest {counts : Call → Bool} {calls : List Call} {place : String} {file : File}
    (last : latest counts calls place = some file) : file ∈ calls.map Call.file := by
  induction calls using List.reverseRecOn with
  | nil => cases last
  | append_singleton calls call ih =>
      rw [List.map_append, List.mem_append]
      rw [latest_concat] at last
      split at last
      · cases last
        exact .inr List.mem_cons_self
      · exact .inl (ih last)

end Histories

section Statement

/-- What `index_path` makes of a file for a ref, as it is found for it. -/
def Library.produced (library : Library) (ref : String) (file : File) : Except SourceError SourceManifest :=
  let digest := library.contentHash file
  (library.read file ref (library.sourceOccurrenceID digest ref)).map fun document =>
    library.bindSourceRef (library.manifest file ref digest document) (normalizeRef ref) file.name

/-- What is found for every ref is what `index_path` made of the file, as long as the ref has
its content. -/
def Undisturbed (library : Library) (calls : List Call) (repository : Repository) : Prop :=
  ∀ ref file, InForce library calls (normalizeRef ref) file →
    ∃ found made, repository.find library ref = some found ∧ library.produced ref file = .ok made ∧
      found.SameSource made

/-- A call leaves to the refs what they have: `index_text` stores no manifest without sheets for
a content that was last indexed for the ref itself, or for another that still has it, and does
not write the entry of another ref that has another content. -/
def Considerate (library : Library) (calls : List Call) (repository : Repository) : Call → Prop
  | .indexPath _ _ => True
  | .indexText ref file _ _ =>
      let written := repository.attachedManifest library ref file
      (written.sheets = [] → ∀ other own,
        lastIndexed library calls (normalizeRef other) = some own → library.content own = library.content file →
          normalizeRef other ≠ normalizeRef ref ∧
            (current library calls (normalizeRef other)).map library.content ≠ some (library.content file)) ∧
      ∀ other own, normalizeRef other = normalizeRef written.sourceRef → normalizeRef other ≠ normalizeRef ref →
        InForce library calls (normalizeRef other) own → library.content own = library.content file

def run (library : Library) (calls : List Call) : Repository :=
  calls.foldl (Repository.call library) .empty

/-- Files with the same hash have the same bytes. -/
def NoCollision (library : Library) (files : List File) : Prop :=
  ∀ first ∈ files, ∀ second ∈ files, library.contentHash first = library.contentHash second →
    first.bytes = second.bytes

end Statement

section Invariant

def Library.snapshotKey (library : Library) (file : File) : SnapshotKey :=
  ⟨library.contentHash file, library.format file, parserVersion⟩

theorem NoCollision.content_eq {files : List File} (noCollision : NoCollision library files)
    {first second : File} (firstMember : first ∈ files) (secondMember : second ∈ files)
    (same : library.snapshotKey first = library.snapshotKey second) :
    library.content first = library.content second := by
  obtain ⟨sameHash, sameFormat, -⟩ := SnapshotKey.mk.inj same
  exact Prod.ext (noCollision first firstMember second secondMember sameHash) sameFormat

theorem snapshotKey_eq {first second : File} (same : library.content first = library.content second) :
    library.snapshotKey first = library.snapshotKey second := by
  obtain ⟨sameBytes, sameFormat⟩ := Prod.mk.inj same
  unfold Library.snapshotKey Library.contentHash
  rw [sameBytes, sameFormat]

/-- A manifest for a file is without sheets, or a copy of its tables. -/
structure IsManifestFor (library : Library) (manifest : SourceManifest) (file : File) : Prop where
  snapshotKey : manifest.snapshotKey = library.snapshotKey file
  copies : manifest.sheets ≠ [] → ∃ tables,
    library.readTables (library.format file) file.bytes = .ok tables ∧ manifest.Copies library tables

/-- The snapshots are of files of the calls, and every entry has its snapshot. -/
structure Faithful (library : Library) (calls : List Call) (repository : Repository) : Prop where
  manifest {key : SnapshotKey} {manifest : SourceManifest} (found : repository.manifests.get? key = some manifest) :
    ∃ file ∈ calls.map Call.file, key = library.snapshotKey file ∧ IsManifestFor library manifest file
  entry {place : String} {entry : IndexEntry} (found : repository.index.get? place = some entry) :
    ∃ manifest, repository.manifests.get? entry.snapshot = some manifest

theorem faithful_empty : Faithful library [] .empty where
  manifest found := by cases found
  entry found := by cases found

theorem Faithful.append {calls : List Call} {repository : Repository} (faithful : Faithful library calls repository)
    (call : Call) : Faithful library (calls ++ [call]) repository where
  manifest found := by
    obtain ⟨file, member, rest⟩ := faithful.manifest found
    exact ⟨file, by rw [List.map_append]; exact List.mem_append_left _ member, rest⟩
  entry := faithful.entry

theorem Faithful.saveManifest {calls : List Call} {repository : Repository}
    (faithful : Faithful library calls repository) {call : Call} {manifest : SourceManifest}
    (isFor : IsManifestFor library manifest call.file) :
    Faithful library (calls ++ [call]) (repository.saveManifest manifest) where
  manifest found := by
    unfold Repository.saveManifest at found
    dsimp only at found
    rw [Dict.get?_set] at found
    split at found
    · next same =>
        cases found
        exact ⟨call.file, by simp, same.trans isFor.snapshotKey, isFor⟩
    · exact (faithful.append call).manifest found
  entry {place entry} found := by
    unfold Repository.saveManifest at found ⊢
    dsimp only at found ⊢
    rw [Dict.get?_set] at found ⊢
    split
    · exact ⟨manifest, rfl⟩
    · next different =>
        split at found
        · cases found
          exact absurd rfl different
        · exact faithful.entry found

end Invariant

section Finding

variable {repository : Repository} {calls : List Call} {ref : String} {file : File}

theorem isOf_iff {manifest : SourceManifest} :
    Repository.isOf library manifest file = true ↔ manifest.snapshotKey = library.snapshotKey file := by
  unfold Repository.isOf SourceManifest.snapshotKey Library.snapshotKey
  rw [SnapshotKey.mk.injEq]
  simp only [Bool.and_eq_true, decide_eq_true_eq]
  tauto

theorem find_eq_some {found : SourceManifest} (finds : repository.find library ref = some found) :
    ∃ entry manifest fileName, repository.index.get? (normalizeRef ref) = some entry ∧
      repository.manifests.get? entry.snapshot = some manifest ∧
        found = library.bindSourceRef manifest (normalizeRef ref) fileName := by
  obtain ⟨entry, listed, rest⟩ := Option.bind_eq_some_iff.mp finds
  obtain ⟨manifest, stored, bound⟩ := Option.map_eq_some_iff.mp rest
  exact ⟨entry, manifest, _, listed, stored, bound.symm⟩

theorem IsManifestFor.bindSourceRef {manifest : SourceManifest} (isFor : IsManifestFor library manifest file)
    (fileName : String) : IsManifestFor library (library.bindSourceRef manifest ref fileName) file where
  snapshotKey := isFor.snapshotKey
  copies some_sheets := by
    have before : manifest.sheets ≠ [] := fun none => some_sheets (by
      unfold Library.bindSourceRef
      dsimp only
      rw [none, List.map_nil])
    obtain ⟨tables, reads, copies⟩ := isFor.copies before
    exact ⟨tables, reads, copies.bindSourceRef⟩

theorem Faithful.find (faithful : Faithful library calls repository) {found : SourceManifest}
    (finds : repository.find library ref = some found) :
    ∃ own ∈ calls.map Call.file, IsManifestFor library found own ∧
      ∃ entry manifest, repository.index.get? (normalizeRef ref) = some entry ∧
        entry.snapshot = library.snapshotKey own ∧
        repository.manifests.get? (library.snapshotKey own) = some manifest ∧
        (found.sheets = [] ↔ manifest.sheets = []) := by
  obtain ⟨entry, manifest, fileName, listed, stored, rfl⟩ := find_eq_some finds
  obtain ⟨own, member, sameKey, isFor⟩ := faithful.manifest stored
  refine ⟨own, member, isFor.bindSourceRef fileName, entry, manifest, listed, sameKey, sameKey ▸ stored, ?_⟩
  exact List.map_eq_nil_iff

/-- The entry of a ref leads to the snapshot of a file, which has sheets. -/
def Shows (library : Library) (repository : Repository) (place : String) (file : File) : Prop :=
  ∃ entry manifest, repository.index.get? place = some entry ∧ entry.snapshot = library.snapshotKey file ∧
    repository.manifests.get? (library.snapshotKey file) = some manifest ∧ manifest.sheets ≠ []

section Saving

variable {manifest : SourceManifest} {place : String}

theorem shows_saveManifest (key : manifest.snapshotKey = library.snapshotKey file)
    (some_sheets : manifest.sheets ≠ []) :
    Shows library (repository.saveManifest manifest) (normalizeRef manifest.sourceRef) file := by
  unfold Repository.saveManifest Shows
  dsimp only
  rw [Dict.get?_set, if_pos rfl, Dict.get?_set, if_pos key.symm]
  exact ⟨_, manifest, rfl, key, rfl, some_sheets⟩

/-- What a ref shows survives a manifest that is saved elsewhere, or that has sheets and is of
the same content. -/
theorem Shows.saveManifest (shows_ : Shows library repository place file)
    (elsewhere : place = normalizeRef manifest.sourceRef → manifest.snapshotKey = library.snapshotKey file)
    (some_sheets : manifest.snapshotKey = library.snapshotKey file → manifest.sheets ≠ []) :
    Shows library (repository.saveManifest manifest) place file := by
  by_cases here : place = normalizeRef manifest.sourceRef
  · have key := elsewhere here
    rw [here]
    exact shows_saveManifest key (some_sheets key)
  · obtain ⟨entry, old, listed, snapshot, stored, oldSheets⟩ := shows_
    unfold Repository.saveManifest Shows
    dsimp only
    rw [Dict.get?_set, if_neg here, Dict.get?_set]
    by_cases same : library.snapshotKey file = manifest.snapshotKey
    · rw [if_pos same]
      exact ⟨entry, manifest, listed, snapshot, rfl, some_sheets same.symm⟩
    · rw [if_neg same]
      exact ⟨entry, old, listed, snapshot, stored, oldSheets⟩

theorem Shows.some_sheets (shows_ : Shows library (repository.saveManifest manifest) place file)
    (key : manifest.snapshotKey = library.snapshotKey file) : manifest.sheets ≠ [] := by
  obtain ⟨entry, stored, -, -, found, some_sheets⟩ := shows_
  unfold Repository.saveManifest at found
  dsimp only at found
  rw [Dict.get?_set, if_pos key.symm] at found
  cases found
  exact some_sheets

theorem Shows.key_of_place (shows_ : Shows library (repository.saveManifest manifest) place file)
    (here : place = normalizeRef manifest.sourceRef) : manifest.snapshotKey = library.snapshotKey file := by
  obtain ⟨entry, stored, listed, snapshot, -, -⟩ := shows_
  unfold Repository.saveManifest at listed
  dsimp only at listed
  rw [Dict.get?_set, if_pos here] at listed
  cases listed
  exact snapshot

end Saving

/-- Every ref with an index in force shows its file. -/
def Shown (library : Library) (calls : List Call) (repository : Repository) : Prop :=
  ∀ ref file, InForce library calls (normalizeRef ref) file → Shows library repository (normalizeRef ref) file

theorem produced_eq_ok (ref : String) {tables : List Table}
    (reads : library.readTables (library.format file) file.bytes = .ok tables) : ∃ manifest : SourceManifest,
    manifest.Copies library tables ∧ manifest.contentHash = library.contentHash file ∧
      manifest.format = library.format file ∧
        library.produced ref file = .ok (library.bindSourceRef manifest (normalizeRef ref) file.name) := by
  have copies := copies_manifest library file ref (library.contentHash file)
    (library.sourceOccurrenceID (library.contentHash file) ref) tables
  refine ⟨_, copies, rfl, rfl, ?_⟩
  unfold Library.produced Library.read
  rw [reads]
  rfl

theorem sheetsOf_ne_nil {tables : List Table} {sourceID : String}
    (reads : library.readTables (library.format file) file.bytes = .ok tables) :
    library.sheetsOf sourceID tables ≠ [] := by
  have some_tables : tables ≠ [] := by
    rintro rfl
    unfold Library.readTables at reads
    simp only [bind_eq_ok] at reads
    obtain ⟨_, _, _, _, value, _, _, passes, same⟩ := reads
    cases same
    exact refuseIf_eq_ok.mp passes rfl
  intro none
  unfold Library.sheetsOf at none
  dsimp only [Library.toDocument] at none
  rw [List.map_map, List.map_eq_nil_iff] at none
  exact some_tables none

theorem Faithful.undisturbed_iff_shown (faithful : Faithful library calls repository)
    (noCollision : NoCollision library (calls.map Call.file)) :
    Undisturbed library calls repository ↔ Shown library calls repository := by
  constructor
  · intro undisturbed ref file inForce
    obtain ⟨found, made, finds, produces, same⟩ := undisturbed ref file inForce
    obtain ⟨own, member, isFor, entry, manifest, listed, snapshot, stored, sheets⟩ := faithful.find finds
    obtain ⟨document, opened, makes⟩ := map_eq_ok.mp produces
    obtain ⟨tables, reads, rfl⟩ := map_eq_ok.mp opened
    have madeSheets : made.sheets ≠ [] := by
      rw [← makes, (copies_manifest library file ref _ _ tables).sheets_bindSourceRef]
      exact sheetsOf_ne_nil reads
    have key : library.snapshotKey own = library.snapshotKey file := by
      have ownKey := isFor.snapshotKey
      unfold SourceManifest.snapshotKey at ownKey
      rw [← ownKey, same.contentHash, same.format, (SnapshotKey.mk.inj ownKey).2.2, ← makes]
      rfl
    rw [key] at snapshot stored
    refine ⟨entry, manifest, listed, snapshot, stored, ?_⟩
    intro none
    exact madeSheets (same.sheets ▸ sheets.mpr none)
  · intro shown ref file inForce
    obtain ⟨entry, manifest, listed, snapshot, stored, some_sheets⟩ := shown ref file inForce
    obtain ⟨own, member, sameKey, isFor⟩ := faithful.manifest stored
    have content := noCollision.content_eq (mem_of_latest inForce.1) member sameKey
    obtain ⟨sameBytes, sameFormat⟩ := Prod.mk.inj content
    obtain ⟨tables, reads, copies⟩ := isFor.copies some_sheets
    rw [← sameBytes, ← sameFormat] at reads
    obtain ⟨made, madeCopies, madeHash, madeFormat, produces⟩ := produced_eq_ok ref reads
    have key : manifest.snapshotKey = library.snapshotKey file := isFor.snapshotKey.trans sameKey.symm
    obtain ⟨hash, format, -⟩ := SnapshotKey.mk.inj key
    refine ⟨_, _, ?_, produces, copies.sameSource madeCopies (hash.trans madeHash.symm)
      (format.trans madeFormat.symm) _ (if entry.fileName = "" then refName (normalizeRef ref) else entry.fileName) _⟩
    unfold Repository.find
    rw [listed, Option.bind_some, snapshot, stored, Option.map_some]

end Finding

section Steps

variable {repository : Repository} {calls : List Call} {ref : String} {file : File}

/-- A call of `index_path` fails if the file cannot be read. Otherwise the ref shows the file
already, or a manifest with its sheets is saved for the ref. -/
theorem Faithful.indexPath (faithful : Faithful library calls repository)
    (noCollision : NoCollision library ((calls ++ [Call.indexPath ref file]).map Call.file)) :
    (Call.indexPath ref file).succeeds library = false ∧
        repository.call library (.indexPath ref file) = repository ∨
      (Call.indexPath ref file).succeeds library = true ∧
        (repository.call library (.indexPath ref file) = repository ∧
            Shows library repository (normalizeRef ref) file ∨
          ∃ manifest, repository.call library (.indexPath ref file) = repository.saveManifest manifest ∧
            manifest.sourceRef = ref ∧ IsManifestFor library manifest file ∧ manifest.sheets ≠ []) := by
  unfold Repository.call Repository.indexPath Call.succeeds
  dsimp only
  cases cached : (repository.find library ref).filter fun found =>
      Repository.isOf library found file && found.sheets ≠ [] && found.objectPath ≠ "" with
  | some found =>
      obtain ⟨finds, hit⟩ := Option.filter_eq_some_iff.mp cached
      simp only [Bool.and_eq_true, decide_eq_true_eq] at hit
      obtain ⟨⟨isOf, some_sheets⟩, -⟩ := hit
      obtain ⟨own, member, isFor, entry, manifest, listed, snapshot, stored, sheets⟩ := faithful.find finds
      have key : library.snapshotKey own = library.snapshotKey file :=
        isFor.snapshotKey.symm.trans (isOf_iff.mp isOf)
      have content := noCollision.content_eq (by simp [member]) (by simp [Call.file]) key
      obtain ⟨sameBytes, sameFormat⟩ := Prod.mk.inj content
      obtain ⟨tables, reads, -⟩ := isFor.copies some_sheets
      rw [sameBytes, sameFormat] at reads
      rw [key] at snapshot stored
      right
      rw [reads]
      exact ⟨rfl, .inl ⟨rfl, entry, manifest, listed, snapshot, stored, fun none => some_sheets (sheets.mpr none)⟩⟩
  | none =>
      cases reads : library.readTables (library.format file) file.bytes with
      | error error =>
          left
          unfold Library.read
          rw [reads]
          exact ⟨rfl, rfl⟩
      | ok tables =>
          right
          unfold Library.read
          rw [reads]
          have copies := copies_manifest library file ref (library.contentHash file)
            (library.sourceOccurrenceID (library.contentHash file) ref) tables
          refine ⟨rfl, .inr ⟨_, rfl, ?_⟩⟩
          split
          · exact ⟨rfl, ⟨rfl, fun _ => ⟨tables, reads, copies⟩⟩, sheetsOf_ne_nil reads⟩
          · exact ⟨rfl, ⟨rfl, fun _ => ⟨tables, reads, copies⟩⟩, sheetsOf_ne_nil reads⟩

theorem IsManifestFor.congr {manifest : SourceManifest} {own : File} (isFor : IsManifestFor library manifest own)
    (content : library.content own = library.content file) : IsManifestFor library manifest file where
  snapshotKey := isFor.snapshotKey.trans (snapshotKey_eq content)
  copies some_sheets := by
    obtain ⟨sameBytes, sameFormat⟩ := Prod.mk.inj content
    rw [← sameBytes, ← sameFormat]
    exact isFor.copies some_sheets

/-- The manifest that a text is attached to is of the file, and has sheets only if the ref shows
the file. -/
theorem Faithful.attachedManifest (faithful : Faithful library calls repository) (ref : String)
    (noCollision : NoCollision library (calls.map Call.file ++ [file])) :
    IsManifestFor library (repository.attachedManifest library ref file) file ∧
      ((repository.attachedManifest library ref file).sheets ≠ [] →
        Shows library repository (normalizeRef ref) file) := by
  unfold Repository.attachedManifest
  cases matched : (repository.find library ref).filter (Repository.isOf library · file) with
  | none => exact ⟨⟨rfl, fun some_sheets => absurd rfl some_sheets⟩, fun some_sheets => absurd rfl some_sheets⟩
  | some found =>
      obtain ⟨finds, isOf⟩ := Option.filter_eq_some_iff.mp matched
      obtain ⟨own, member, isFor, entry, manifest, listed, snapshot, stored, sheets⟩ := faithful.find finds
      have key : library.snapshotKey own = library.snapshotKey file :=
        isFor.snapshotKey.symm.trans (isOf_iff.mp isOf)
      have content := noCollision.content_eq (List.mem_append_left _ member) (by simp) key
      rw [key] at snapshot stored
      exact ⟨isFor.congr content, fun some_sheets =>
        ⟨entry, manifest, listed, snapshot, stored, fun none => some_sheets (sheets.mpr none)⟩⟩

section Text

variable {fullText summary : String} {place : String} {own : File}

theorem lastIndexed_indexText :
    lastIndexed library (calls ++ [Call.indexText ref file fullText summary]) place = lastIndexed library calls place := by
  unfold lastIndexed
  rw [latest_concat, if_neg]
  rintro ⟨counts, -⟩
  cases counts

theorem current_indexText : current library (calls ++ [Call.indexText ref file fullText summary]) place =
    if normalizeRef ref = place then some file else current library calls place := by
  unfold current
  rw [latest_concat]
  exact if_congr ⟨And.right, fun here => ⟨rfl, here⟩⟩ rfl rfl

theorem inForce_indexText_of_ne (other : normalizeRef ref ≠ place) :
    InForce library (calls ++ [Call.indexText ref file fullText summary]) place own ↔
      InForce library calls place own := by
  unfold InForce
  rw [lastIndexed_indexText, current_indexText, if_neg other]

theorem inForce_indexText_self :
    InForce library (calls ++ [Call.indexText ref file fullText summary]) (normalizeRef ref) own ↔
      lastIndexed library calls (normalizeRef ref) = some own ∧ library.content file = library.content own := by
  unfold InForce
  rw [lastIndexed_indexText, current_indexText, if_pos rfl, Option.map_some, Option.some.injEq]

/-- A call of `index_text` leaves every ref to show its file exactly if it is considerate. -/
theorem Faithful.shown_indexText_iff (faithful : Faithful library calls repository)
    (noCollision : NoCollision library (calls.map Call.file ++ [file])) (shown : Shown library calls repository) :
    Shown library (calls ++ [Call.indexText ref file fullText summary])
        (repository.call library (.indexText ref file fullText summary)) ↔
      Considerate library calls repository (.indexText ref file fullText summary) := by
  obtain ⟨isFor, showsOwn⟩ := faithful.attachedManifest ref noCollision
  unfold Repository.call Repository.indexText Considerate
  dsimp only
  generalize repository.attachedManifest library ref file = written at isFor showsOwn
  have contentOf (own : File) (place : String) (last : lastIndexed library calls place = some own)
      (key : library.snapshotKey file = library.snapshotKey own) : library.content own = library.content file :=
    noCollision.content_eq (List.mem_append_left _ (mem_of_latest last)) (by simp) key.symm
  constructor
  · intro after
    constructor
    · intro blank other own last content
      -- a ref with the content in force would show the manifest that is written without sheets
      have notInForce : ¬ InForce library (calls ++ [Call.indexText ref file fullText summary])
          (normalizeRef other) own := fun inForce =>
        (after other own inForce).some_sheets (isFor.snapshotKey.trans (snapshotKey_eq content.symm)) blank
      have elsewhere : normalizeRef other ≠ normalizeRef ref := by
        intro same
        rw [same] at notInForce last
        exact notInForce (inForce_indexText_self.mpr ⟨last, content.symm⟩)
      refine ⟨elsewhere, ?_⟩
      intro holds
      rw [inForce_indexText_of_ne elsewhere.symm] at notInForce
      exact notInForce ⟨last, holds.trans (congrArg some content.symm)⟩
    · intro other own here elsewhere inForce
      have shows_ := after other own ((inForce_indexText_of_ne elsewhere.symm).mpr inForce)
      exact contentOf own _ inForce.1 (isFor.snapshotKey.symm.trans (shows_.key_of_place here))
  · rintro ⟨noBlank, ownEntry⟩ other own inForce
    by_cases same : normalizeRef ref = normalizeRef other
    · rw [← same] at inForce ⊢
      obtain ⟨last, content⟩ := inForce_indexText_self.mp inForce
      have some_sheets : written.sheets ≠ [] := fun blank => (noBlank blank ref own last content.symm).1 rfl
      have key := isFor.snapshotKey.trans (snapshotKey_eq content)
      have shows_ : Shows library repository (normalizeRef ref) own := by
        unfold Shows
        rw [← snapshotKey_eq content]
        exact showsOwn some_sheets
      exact shows_.saveManifest (fun _ => key) fun _ => some_sheets
    · rw [inForce_indexText_of_ne same] at inForce
      apply (shown other own inForce).saveManifest
      · intro here
        have content := ownEntry other own here (Ne.symm same) inForce
        exact isFor.snapshotKey.trans (snapshotKey_eq content.symm)
      · intro key blank
        have content := contentOf own _ inForce.1 (isFor.snapshotKey.symm.trans key)
        exact (noBlank blank other own inForce.1 content).2 (inForce.2.trans (congrArg some content))

end Text

theorem latest_indexPath {counts : Call → Bool} {place : String}
    (counted : counts (.indexPath ref file) = true) :
    latest counts (calls ++ [Call.indexPath ref file]) place =
      if normalizeRef ref = place then some file else latest counts calls place := by
  rw [latest_concat]
  exact if_congr ⟨And.right, fun here => ⟨counted, here⟩⟩ rfl rfl

/-- A call of `index_path` leaves every ref to show its file. -/
theorem Faithful.shown_indexPath (faithful : Faithful library calls repository)
    (noCollision : NoCollision library ((calls ++ [Call.indexPath ref file]).map Call.file))
    (shown : Shown library calls repository) :
    Shown library (calls ++ [Call.indexPath ref file]) (repository.call library (.indexPath ref file)) := by
  intro other own inForce
  rcases faithful.indexPath noCollision with ⟨fails, same⟩ | ⟨succeeds, done⟩
  · have unchanged (counts : Call → Bool) (counted : counts (.indexPath ref file) = false) :
        latest counts (calls ++ [Call.indexPath ref file]) = latest counts calls := by
      funext place
      rw [latest_concat, if_neg]
      rintro ⟨counts, -⟩
      rw [counted] at counts
      cases counts
    rw [same]
    apply shown
    unfold InForce lastIndexed current at inForce
    rw [unchanged _ (by rw [fails]; rfl), unchanged _ fails] at inForce
    exact inForce
  · unfold InForce lastIndexed current at inForce
    rw [latest_indexPath (by rw [succeeds]; rfl), latest_indexPath succeeds] at inForce
    by_cases here : normalizeRef ref = normalizeRef other
    · rw [if_pos here, if_pos here] at inForce
      cases inForce.1
      rcases done with ⟨same, shows_⟩ | ⟨manifest, saved, ownRef, isFor, some_sheets⟩
      · rw [same, ← here]
        exact shows_
      · rw [saved, ← here, ← ownRef]
        exact shows_saveManifest isFor.snapshotKey some_sheets
    · rw [if_neg here, if_neg here] at inForce
      have shows_ := shown other own inForce
      rcases done with ⟨same, -⟩ | ⟨manifest, saved, ownRef, isFor, some_sheets⟩
      · rw [same]
        exact shows_
      · rw [saved]
        apply shows_.saveManifest
        · intro there
          rw [ownRef] at there
          exact absurd there.symm here
        · intro _
          exact some_sheets

theorem Faithful.call (faithful : Faithful library calls repository) {call : Call}
    (noCollision : NoCollision library ((calls ++ [call]).map Call.file)) :
    Faithful library (calls ++ [call]) (repository.call library call) := by
  cases call with
  | indexPath ref file =>
      rcases faithful.indexPath noCollision with ⟨-, same⟩ | ⟨-, ⟨same, -⟩ | ⟨manifest, saved, -, isFor, -⟩⟩
      · rw [same]
        exact faithful.append _
      · rw [same]
        exact faithful.append _
      · rw [saved]
        exact faithful.saveManifest isFor
  | indexText ref file fullText summary =>
      rw [List.map_append] at noCollision
      obtain ⟨isFor, -⟩ := faithful.attachedManifest ref noCollision
      exact faithful.saveManifest ⟨isFor.snapshotKey, isFor.copies⟩

end Steps

section Runs

variable {calls : List Call}

theorem run_concat (before : List Call) (call : Call) :
    run library (before ++ [call]) = (run library before).call library call := by
  unfold run
  rw [List.foldl_append, List.foldl_cons, List.foldl_nil]

theorem NoCollision.of_prefix {before : List Call} (noCollision : NoCollision library (calls.map Call.file))
    (part : before <+: calls) : NoCollision library (before.map Call.file) := by
  intro first firstMember second secondMember
  have included := (part.map Call.file).subset
  exact noCollision first (included firstMember) second (included secondMember)

theorem faithful_run (noCollision : NoCollision library (calls.map Call.file)) :
    Faithful library calls (run library calls) := by
  induction calls using List.reverseRecOn with
  | nil => exact faithful_empty
  | append_singleton before call ih =>
      rw [run_concat]
      exact (ih (noCollision.of_prefix (List.prefix_append _ _))).call noCollision

theorem shown_step_iff {before : List Call} {call : Call}
    (noCollision : NoCollision library ((before ++ [call]).map Call.file))
    (shown : Shown library before (run library before)) :
    Shown library (before ++ [call]) (run library (before ++ [call])) ↔
      Considerate library before (run library before) call := by
  have faithful := faithful_run (noCollision.of_prefix (List.prefix_append _ _))
  rw [run_concat]
  cases call with
  | indexPath ref file => exact ⟨fun _ => trivial, fun _ => faithful.shown_indexPath noCollision shown⟩
  | indexText ref file fullText summary =>
      rw [List.map_append] at noCollision
      exact faithful.shown_indexText_iff noCollision shown

/-- After every call of a sequence, what is found for every ref is what its own last
`index_path` made of its content, exactly if every call is considerate. -/
theorem undisturbed_iff (noCollision : NoCollision library (calls.map Call.file)) :
    (∀ before, before <+: calls → Undisturbed library before (run library before)) ↔
      ∀ before call, before ++ [call] <+: calls → Considerate library before (run library before) call := by
  have shown_iff (before : List Call) (part : before <+: calls) :
      Undisturbed library before (run library before) ↔ Shown library before (run library before) :=
    (faithful_run (noCollision.of_prefix part)).undisturbed_iff_shown (noCollision.of_prefix part)
  constructor
  · intro undisturbed before call part
    have first : before <+: calls := (List.prefix_append _ _).trans part
    apply (shown_step_iff (noCollision.of_prefix part) ((shown_iff before first).mp (undisturbed before first))).mp
    exact (shown_iff _ part).mp (undisturbed _ part)
  · intro considerate before part
    rw [shown_iff before part]
    induction before using List.reverseRecOn with
    | nil =>
        rintro ref file ⟨last, -⟩
        cases last
    | append_singleton before call ih =>
        have shown := ih ((List.prefix_append _ _).trans part)
        exact (shown_step_iff (noCollision.of_prefix part) shown).mpr (considerate before call part)

section Example

/-- The digests of a file with one name in it, of its refs and of the name of its table, and
the table that is read of it. -/
def nameLibrary : Library where
  sha256 bytes :=
    if bytes = "Name\nAlice\n".toUTF8 then "7b8a796c83c67011bb928d6b53467f6d9632a5e6a546f0490b8f3539cb39ce5f"
    else if bytes = "table".toUTF8 then "0d4fc4a78d3706edccafb665a8b2fdd9309e82c78625bb0f2b8e7bb9e1c4d21c"
    else if bytes = "7b8a796c83c67011bb928d6b53467f6d9632a5e6a546f0490b8f3539cb39ce5f\x00first.csv".toUTF8 then
      "6e09c25d9a27f07e8cb4943c6cd6325ef898dcc21ad908a69f817c8524a25ad6"
    else "13ca4ed2a24a4c9b71d8c597d96c7bf630e15b7c236c0b702c1eee294759e3bb"
  lower text := String.ofList (text.toList.map Char.toLower)
  canonicalCaseID text := String.ofList (text.toList.map Char.toLower)
  normalizeHeader text := String.ofList (text.toList.map Char.toLower)
  caseIDMatches _ := []
  tables _ _ := .ok [⟨"table", 0, ["Name"], [⟨[("Name", "Alice")]⟩]⟩]

def nameFile (name : String) : File := ⟨name, "Name\nAlice\n".toUTF8⟩

/-- One ref is indexed, and another with the same content is known by its text. -/
def textBeside : List Call :=
  [.indexPath "first.csv" (nameFile "first.csv"), .indexText "second.csv" (nameFile "second.csv") "Name Alice" ""]

/-- The other ref is indexed before its text is attached. -/
def indexedBeside : List Call :=
  [.indexPath "first.csv" (nameFile "first.csv"), .indexPath "second.csv" (nameFile "second.csv"),
    .indexText "second.csv" (nameFile "second.csv") "Name Alice" ""]

theorem undisturbed_indexedBeside :
    Undisturbed nameLibrary indexedBeside (run nameLibrary indexedBeside) := by
  have sameBytes : ∀ file ∈ indexedBeside.map Call.file, file.bytes = "Name\nAlice\n".toUTF8 := by
    simp [indexedBeside, Call.file, nameFile]
  have noCollision : NoCollision nameLibrary (indexedBeside.map Call.file) := by
    intro first firstMember second secondMember _
    rw [sameBytes first firstMember, sameBytes second secondMember]
  apply (undisturbed_iff noCollision).mpr _ _ (List.prefix_refl _)
  rintro before call ⟨rest, same⟩
  unfold indexedBeside at same
  match before, same with
  | [], same =>
      cases same
      trivial
  | [_], same =>
      cases same
      trivial
  | [_, _], same =>
      cases same
      have attached : ((run nameLibrary (indexedBeside.take 2)).attachedManifest nameLibrary "second.csv"
          (nameFile "second.csv")).sheets ≠ [] ∧ ((run nameLibrary (indexedBeside.take 2)).attachedManifest
            nameLibrary "second.csv" (nameFile "second.csv")).sourceRef = "second.csv" := by
        decide +kernel
      constructor
      · intro blank
        exact absurd blank attached.1
      · intro other own here elsewhere
        exact absurd (here.trans (congrArg normalizeRef attached.2)) elsewhere
  | _ :: _ :: _ :: _, same => simp at same

theorem textBeside_disturbs :
    ¬ ∀ before, before <+: textBeside → Undisturbed nameLibrary before (run nameLibrary before) := by
  intro undisturbed
  have inForce : InForce nameLibrary textBeside (normalizeRef "first.csv") (nameFile "first.csv") := by
    unfold InForce
    decide +kernel
  obtain ⟨found, made, finds, produces, same⟩ := undisturbed textBeside (List.prefix_refl _) "first.csv" _ inForce
  have blank : ((run nameLibrary textBeside).find nameLibrary "first.csv").map SourceManifest.sheets = some [] := by
    decide +kernel
  have reads : (nameLibrary.produced "first.csv" (nameFile "first.csv")).toOption.map
      (·.sheets.map SheetManifest.name) = some ["table"] := by
    decide +kernel
  rw [finds, Option.map_some, Option.some.injEq, same.sheets] at blank
  rw [produces] at reads
  simp [Except.toOption, blank] at reads

end Example

end Runs

end Sico.Sources

import Sico.Foundation.System
import Sico.Sources.Model

/-! # The retention of orphans

What is stored of a source stays for a while after the last reference to it. The pass over the
directories that goes with the replacing of references marks a directory that no entry of the
index refers to, takes the mark away from one that an entry refers to, and deletes a directory
whose mark has the age of the retention.

A reference that is saved leaves the mark. If it goes before a pass has seen it, the old mark is
taken for that of the new orphan.
-/

namespace Sico.Sources.Retention

open Foundation

/-- `_ORPHAN_RETENTION_SECONDS`, in nanoseconds. -/
def orphanRetention : ℤ := 30 * 24 * 60 * 60 * 1000000000

/-- A directory below `snapshots` or below `objects`. -/
inductive Directory where
  | snapshot (key : SnapshotKey)
  | object (contentHash : String)
  deriving DecidableEq, Repr

/-- A directory that is there: the time of its marker, if it has one. -/
abbrev Marker := Option ℤ

/-- The index, the directories with their markers, and the time. Beside them, until when each
directory was last referred to. -/
structure State where
  index : Dict String IndexEntry
  directories : Directory → Option Marker
  clock : ℤ
  referredUntil : Directory → Option ℤ

inductive Operation where
  | save (manifest : SourceManifest) (withObject : Bool) (now : ℤ)
  | attachTextMetadata (manifest : SourceManifest) (contentChars : ℕ) (summary : String) (now : ℤ)
  | replaceRefs (scope : String) (manifests : List SourceManifest) (now : ℤ)

def Operation.now : Operation → ℤ
  | .save _ _ now => now
  | .attachTextMetadata _ _ _ now => now
  | .replaceRefs _ _ now => now

section Index

def indexEntry (manifest : SourceManifest) : IndexEntry :=
  { sourceID := manifest.sourceID, contentHash := manifest.contentHash
    fileName := manifest.fileName, snapshot := manifest.snapshotKey }

def entered (index : Dict String IndexEntry) (manifest : SourceManifest) : Dict String IndexEntry :=
  index.set (normalizeRef manifest.sourceRef) (indexEntry manifest)

/-- The prefix of the refs that are replaced. -/
def normalizedScope (scope : String) : String :=
  let ref := normalizeRef scope
  if ref ≠ "" ∧ ref.toList.getLast? ≠ some '/' then ref ++ "/" else ref

/-- The index after `replace_refs`. -/
def replaced (index : Dict String IndexEntry) (scope : String) (manifests : List SourceManifest) :
    Dict String IndexEntry :=
  manifests.foldl entered
    ⟨index.entries.filter fun entry => !(normalizedScope scope).toList.isPrefixOf entry.1.toList,
      index.distinct.sublist (List.filter_sublist.map _)⟩

def IndexEntry.directories (entry : IndexEntry) : List Directory :=
  .snapshot entry.snapshot :: if entry.contentHash = "" then [] else [.object entry.contentHash]

def active (index : Dict String IndexEntry) : List Directory :=
  index.values.flatMap IndexEntry.directories

end Index

namespace State

def made (directories : Directory → Option Marker) (directory : Directory) : Directory → Option Marker :=
  Function.update directories directory (some ((directories directory).getD none))

/-- `_prune_directory`, for one directory. -/
def pruned (active : List Directory) (now : ℤ) (directory : Directory) : Option Marker → Option Marker
  | none => none
  | some marker =>
      if directory ∈ active then some none
      else
        match marker with
        | none => some (some now)
        | some since => if orphanRetention ≤ now - since then none else some (some since)

/-- The index from a time on. What either index refers to is referred to until that time. -/
def reindexed (state : State) (index : Dict String IndexEntry) (now : ℤ) : State :=
  { state with
    index
    clock := now
    referredUntil := fun directory =>
      if directory ∈ active state.index ∨ directory ∈ active index then some now
      else state.referredUntil directory }

def saveManifest (state : State) (manifest : SourceManifest) (now : ℤ) : State :=
  { state.reindexed (entered state.index manifest) now with
    directories := made state.directories (.snapshot manifest.snapshotKey) }

/-- `_save_object`, for a manifest whose object path is that of its content. -/
def saveObject (state : State) (manifest : SourceManifest) : State :=
  if manifest.objectPath = "" then state
  else { state with directories := made state.directories (.object manifest.contentHash) }

def replaceRefs (state : State) (scope : String) (manifests : List SourceManifest) (now : ℤ) : State :=
  let index := replaced state.index scope manifests
  { state.reindexed index now with
    directories := fun directory => pruned (active index) now directory (state.directories directory) }

def perform (state : State) : Operation → State
  | .save manifest withObject now =>
      (if withObject then state.saveObject manifest else state).saveManifest manifest now
  | .attachTextMetadata manifest contentChars summary now =>
      state.saveManifest { manifest with summary, contentChars } now
  | .replaceRefs scope manifests now => state.replaceRefs scope manifests now

/-- The operations, at times that do not go back. -/
def next (state : State) (operation : Operation) : Option State :=
  if state.clock ≤ operation.now then some (state.perform operation) else none

def system : System State Operation := System.ofNext next

def opening (clock : ℤ) : State := ⟨.empty, fun _ => none, clock, fun _ => none⟩

/-- What is asked of one operation: a directory goes only when references are replaced, when no
entry refers to it, and when none has referred to it for the time of the retention. -/
def Retains (source : State) (operation : Operation) (target : State) : Prop :=
  ∀ directory, source.directories directory ≠ none → target.directories directory = none →
    (∃ scope manifests now, operation = .replaceRefs scope manifests now) ∧
      directory ∉ active target.index ∧
        ∀ last ∈ target.referredUntil directory, last + orphanRetention ≤ operation.now

def indexAfter (state : State) : Operation → Dict String IndexEntry
  | .save manifest _ _ => entered state.index manifest
  | .attachTextMetadata manifest _ _ _ => entered state.index manifest
  | .replaceRefs scope manifests _ => replaced state.index scope manifests

def isMarked (state : State) (directory : Directory) : Bool := (state.directories directory).any Option.isSome

/-- No directory that has a marker loses its last reference. -/
def Careful (state : State) (operation : Operation) : Prop :=
  ∀ directory ∈ active state.index, state.isMarked directory → directory ∈ active (state.indexAfter operation)

instance (state : State) (operation : Operation) : Decidable (state.Careful operation) :=
  inferInstanceAs (Decidable (∀ directory ∈ active state.index,
    state.isMarked directory → directory ∈ active (state.indexAfter operation)))

section Retaining

variable {state source target : State} {operation : Operation}

/-- What has a marker and is not referred to has not been referred to since it was marked. -/
structure Sound (state : State) : Prop where
  past : ∀ directory, ∀ last ∈ state.referredUntil directory, last ≤ state.clock
  marked : ∀ directory since, state.directories directory = some (some since) →
    directory ∉ active state.index → ∀ last ∈ state.referredUntil directory, last ≤ since

theorem made_keeps (directories : Directory → Option Marker) (made_ directory : Directory) :
    (directories directory ≠ none → made directories made_ directory ≠ none) ∧
      ∀ since, made directories made_ directory = some (some since) →
        directories directory = some (some since) := by
  unfold made
  rw [Function.update_apply]
  split
  · next same =>
      subst same
      refine ⟨fun _ => Option.some_ne_none _, ?_⟩
      intro since marked
      cases there : directories directory with
      | none =>
          rw [there] at marked
          cases marked
      | some marker =>
          rw [there] at marked
          exact marked
  · exact ⟨fun there => there, fun _ marked => marked⟩

theorem perform_enters (state : State) (operation : Operation)
    (other : ∀ scope manifests now, operation ≠ .replaceRefs scope manifests now) :
    (state.perform operation).index = state.indexAfter operation ∧
      (∀ directory, state.directories directory ≠ none → (state.perform operation).directories directory ≠ none) ∧
        ∀ directory since, (state.perform operation).directories directory = some (some since) →
          state.directories directory = some (some since) := by
  cases operation with
  | save manifest withObject now =>
      have both : ∀ directory, (state.directories directory ≠ none →
          (state.perform (.save manifest withObject now)).directories directory ≠ none) ∧
            ∀ since, (state.perform (.save manifest withObject now)).directories directory = some (some since) →
              state.directories directory = some (some since) := by
        intro directory
        unfold perform saveManifest
        dsimp only
        split
        · unfold saveObject
          split
          · exact made_keeps _ _ _
          · obtain ⟨first, firstMarked⟩ := made_keeps state.directories (.object manifest.contentHash) directory
            obtain ⟨second, secondMarked⟩ := made_keeps
              (made state.directories (.object manifest.contentHash)) (.snapshot manifest.snapshotKey) directory
            exact ⟨fun there => second (first there), fun since marked => firstMarked since (secondMarked since marked)⟩
        · exact made_keeps _ _ _
      refine ⟨?_, fun directory => (both directory).1, fun directory => (both directory).2⟩
      unfold perform
      dsimp only
      split
      · unfold saveObject
        split <;> rfl
      · rfl
  | attachTextMetadata manifest contentChars summary now =>
      exact ⟨rfl, fun directory => (made_keeps _ _ directory).1, fun directory => (made_keeps _ _ directory).2⟩
  | replaceRefs scope manifests now => exact absurd rfl (other scope manifests now)

theorem perform_referredUntil (state : State) (operation : Operation) (directory : Directory) :
    (state.perform operation).clock = operation.now ∧
      (state.perform operation).index = state.indexAfter operation ∧
        (state.perform operation).referredUntil directory =
          if directory ∈ active state.index ∨ directory ∈ active (state.indexAfter operation) then
            some operation.now
          else state.referredUntil directory := by
  cases operation with
  | save manifest withObject now =>
      unfold perform
      dsimp only
      split
      · unfold saveObject
        split <;> exact ⟨rfl, rfl, rfl⟩
      · exact ⟨rfl, rfl, rfl⟩
  | attachTextMetadata manifest contentChars summary now => exact ⟨rfl, rfl, rfl⟩
  | replaceRefs scope manifests now => exact ⟨rfl, rfl, rfl⟩

theorem pruned_marked {active : List Directory} {now since : ℤ} {directory : Directory} {before : Option Marker}
    (marked : pruned active now directory before = some (some since)) :
    before = some none ∧ since = now ∨ before = some (some since) := by
  unfold pruned at marked
  split at marked
  · cases marked
  · split at marked
    · cases marked
    · split at marked
      · obtain rfl := Option.some.inj (Option.some.inj marked)
        exact .inl ⟨rfl, rfl⟩
      · split at marked
        · cases marked
        · exact .inr marked

theorem pruned_deleted {active : List Directory} {now : ℤ} {directory : Directory} {before : Option Marker}
    (there : before ≠ none) (gone : pruned active now directory before = none) :
    directory ∉ active ∧ ∃ since, before = some (some since) ∧ orphanRetention ≤ now - since := by
  unfold pruned at gone
  split at gone
  · exact absurd rfl there
  · split at gone
    · cases gone
    · next apart =>
        split at gone
        · cases gone
        · split at gone
          · next since old => exact ⟨apart, since, rfl, old⟩
          · cases gone

theorem Careful.unreferred (careful : state.Careful operation) {directory : Directory} {since : ℤ}
    (marked : state.directories directory = some (some since))
    (apart : directory ∉ active (state.indexAfter operation)) : directory ∉ active state.index := by
  intro referred
  have isMarked : state.isMarked directory := by
    unfold State.isMarked
    rw [marked]
    rfl
  exact apart (careful directory referred isMarked)

theorem Sound.perform (sound : state.Sound) (careful : state.Careful operation)
    (forward : state.clock ≤ operation.now) : (state.perform operation).Sound := by
  constructor
  · intro directory last known
    obtain ⟨clock, -, until_⟩ := perform_referredUntil state operation directory
    rw [until_] at known
    rw [clock]
    split at known
    · obtain rfl := Option.some.inj known
      exact Int.le_refl _
    · exact Int.le_trans (sound.past directory last known) forward
  · intro directory since marked apart last known
    obtain ⟨-, index, until_⟩ := perform_referredUntil state operation directory
    rw [index] at apart
    rw [until_] at known
    -- a marker that was there tells that there was no reference before either
    have old : state.directories directory = some (some since) → last ≤ since := by
      intro before
      have apartBefore := careful.unreferred before apart
      rw [if_neg (not_or.mpr ⟨apartBefore, apart⟩)] at known
      exact sound.marked directory since before apartBefore last known
    by_cases replaces : ∃ scope manifests now, operation = .replaceRefs scope manifests now
    · obtain ⟨scope, manifests, now, rfl⟩ := replaces
      rcases pruned_marked marked with ⟨-, rfl⟩ | before
      · split at known
        · obtain rfl := Option.some.inj known
          exact Int.le_refl _
        · exact Int.le_trans (sound.past directory last known) forward
      · exact old before
    · have enters := perform_enters state operation fun scope manifests now same =>
        replaces ⟨scope, manifests, now, same⟩
      exact old (enters.2.2 directory since marked)

theorem Sound.retains (sound : state.Sound) (careful : state.Careful operation) :
    state.Retains operation (state.perform operation) := by
  intro directory there gone
  by_cases replaces : ∃ scope manifests now, operation = .replaceRefs scope manifests now
  · obtain ⟨scope, manifests, now, rfl⟩ := replaces
    obtain ⟨unreferred, since, before, age⟩ := pruned_deleted there gone
    have apart : directory ∉ active (state.indexAfter (.replaceRefs scope manifests now)) := unreferred
    refine ⟨⟨scope, manifests, now, rfl⟩, apart, ?_⟩
    intro last known
    obtain ⟨-, -, until_⟩ := perform_referredUntil state (.replaceRefs scope manifests now) directory
    have apartBefore := careful.unreferred before apart
    rw [until_, if_neg (not_or.mpr ⟨apartBefore, apart⟩)] at known
    have markedLater := sound.marked directory since before apartBefore last known
    dsimp only [Operation.now]
    omega
  · have enters := perform_enters state operation fun scope manifests now same =>
      replaces ⟨scope, manifests, now, same⟩
    exact absurd gone (enters.2.1 directory there)

theorem opening_sound (clock : ℤ) : (opening clock).Sound where
  past _ _ known := by cases known
  marked _ _ marked := by cases marked

/-- In every run in which no directory that has a marker loses its last reference, every operation
keeps what it has to. -/
theorem retains_always {clock : ℤ} {operations : List Operation}
    (run : (system.restrict Careful).Run (opening clock) operations source)
    (step : (system.restrict Careful).step source operation target) : source.Retains operation target := by
  have sound : source.Sound := by
    apply run.preserves Sound
    · intro state operation after sound step
      obtain ⟨careful, performed⟩ := step
      obtain ⟨forward, ⟨⟩⟩ := Option.ite_none_right_eq_some.mp performed
      exact sound.perform careful forward
    · exact opening_sound clock
  obtain ⟨careful, performed⟩ := step
  obtain ⟨-, ⟨⟩⟩ := Option.ite_none_right_eq_some.mp performed
  exact sound.retains careful

end Retaining

section Examples

def table : SourceManifest :=
  { sourceID := "", sourceRef := "table.csv", contentHash := "hash", parserVersion := 1, fileName := "table.csv"
    format := "csv", sizeBytes := 0, sheets := [], caseIDs := [], runnableSheetIDs := []
    requiresScopeSelection := false, objectPath := "objects/hash/source.csv" }

/-- The reference goes, and the directories go a month later. -/
def abandoned : List Operation := [.save table true 0, .replaceRefs "" [] 0]

/-- The reference goes, comes back at once, and goes a month later. -/
def restored : List Operation := [.save table true 0, .replaceRefs "" [] 0, .save table true 1]

theorem retains_always_abandoned :
    (System.after (System.guarded Careful next) (opening 0) abandoned).Retains (.replaceRefs "" [] orphanRetention)
      ((System.after (System.guarded Careful next) (opening 0) abandoned).perform
        (.replaceRefs "" [] orphanRetention)) := by
  have run : (system.restrict Careful).Run (opening 0) abandoned
      (System.after (System.guarded Careful next) (opening 0) abandoned) := .ofGuarded Careful (by decide)
  exact retains_always run ⟨by decide, by rfl⟩

theorem restored_deleted :
    ¬ ∀ (operations : List Operation) (operation : Operation) (source target : State),
      system.Run (opening 0) operations source → system.step source operation target →
        source.Retains operation target := by
  intro retains
  have run : system.Run (opening 0) restored (System.after next (opening 0) restored) :=
    .ofNext (by decide)
  have kept := retains restored (.replaceRefs "" [] orphanRetention) _ _ run (System.step_ofNext _ _ _ (by decide))
  have deleted := kept (.object "hash") (by decide) (by decide)
  exact absurd (deleted.2.2 orphanRetention (by decide)) (by decide)

end Examples

end State

end Sico.Sources.Retention

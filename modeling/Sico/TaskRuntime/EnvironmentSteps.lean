import Sico.TaskRuntime.Environments

/-! # What a process knows and does

While a process holds the lock of a key it knows the state of the record, and the image where it reports
it, since no other operation than its own changes them. From this it is told what a step of a process can
do to the record of any key.
-/

namespace Sico.TaskRuntime.Environments

open Foundation

section Knowledge

def view (records : Records) (key : String) : Option (EnvironmentState × String) :=
  (records.get? key).map fun record => (record.state, record.image)

theorem view_eq_some {records : Records} {key image : String} {state : EnvironmentState} :
    view records key = some (state, image) ↔
      ∃ record, records.get? key = some record ∧ record.state = state ∧ record.image = image := by
  unfold view
  rw [Option.map_eq_some_iff]
  simp only [Prod.mk.injEq]

/-- Neither ready nor being deleted. -/
def Unbuilt (seen : Option (EnvironmentState × String)) : Prop :=
  ∀ state image, seen = some (state, image) → state ≠ .ready ∧ state ≠ .deleting

/-- What a build knows of the record of its key. -/
def BuildPhase.Sound (seen : Option (EnvironmentState × String)) : BuildPhase → Prop
  | .putting _ | .building _ => Unbuilt seen
  | .failing record => Unbuilt seen ∧ record.state = .failed ∧ record.markedAt = 0
  | .finishing record => Unbuilt seen ∧ record.state = .ready ∧ record.markedAt = 0
  | .leaving (.image image) => seen = some (.ready, image)
  | _ => True

/-- What a pass knows of the record of the key that it is at. -/
def PassPhase.Sound (seen : String → Option (EnvironmentState × String)) : PassPhase → Prop
  | .calling key _ _ | .deletingImage key _ | .removing key _ | .failing key _ _ =>
      ∃ image, seen key = some (.deleting, image)
  | _ => True

def Process.Sound (records : Records) : Process → Prop
  | .build key phase => phase.Sound (view records key)
  | .pass _ phase => phase.Sound (view records)

theorem Process.Sound.congr {process : Process} {records records' : Records} (sound : process.Sound records)
    (same : ∀ key, process.holdsLock key = true → view records' key = view records key) :
    process.Sound records' := by
  cases process with
  | build key phase =>
      have own (held : (Process.build key phase).holdsLock key = true) := same key held
      simp only [Process.holdsLock, decide_true, Bool.true_and] at own
      cases phase with
      | putting | building | failing | finishing =>
          simp only [Process.Sound, BuildPhase.Sound, own rfl] at sound ⊢
          exact sound
      | leaving outcome =>
          cases outcome with
          | image =>
              simp only [Process.Sound, BuildPhase.Sound, own rfl] at sound ⊢
              exact sound
          | refused | failed => trivial
      | queued | locked | returning | done | stopped => trivial
  | pass now phase =>
      cases phase with
      | calling key | deletingImage key | removing key | failing key =>
          have own := same key (decide_eq_true rfl)
          simp only [Process.Sound, PassPhase.Sound, own] at sound ⊢
          exact sound
      | queued | listing | reconciling | reconcileLocked | marking | deleting | deleteLocked | done | stopped =>
          trivial

end Knowledge

section Changes

/-- The key that a pass is about to mark. -/
def Process.marking : Process → Option String
  | .pass _ (.marking (key :: _)) => some key
  | _ => none

/-- What a step of a process that goes by `now` can do to the record of a key, where the process holds
the lock of the key or not, and is at a mark of it that takes effect or not. -/
inductive Change (graceMs now : ℤ) (held : Bool) (marks : Prop) (key : String) (event : Option Event) :
    Option PreparedEnvironmentRecord → Option PreparedEnvironmentRecord → Prop where
  | kept {record : Option PreparedEnvironmentRecord} :
      event ≠ some (.deletionBegun key) → Change graceMs now held marks key event record record
  | put {before : Option PreparedEnvironmentRecord} {record : PreparedEnvironmentRecord} :
      held = true →
      (∀ old, before = some old → old.state ≠ .ready ∧ old.state ≠ .deleting) →
      record.state ≠ .deleting → record.markedAt = 0 →
      (record.state = .ready → event = some (.builtReady key)) →
        Change graceMs now held marks key event before (some record)
  | reconciled {record : PreparedEnvironmentRecord} (error : String) :
      held = true → record.state = .building →
        Change graceMs now held marks key event (some record)
          (some { record with state := .failed, error := error, updatedAt := now })
  | marked {record : PreparedEnvironmentRecord} :
      marks → event = none → record.state ≠ .deleting → (activeLeases record now).entries = [] →
        Change graceMs now held marks key event (some record)
          (some { record with leases := .empty, markedAt := now, updatedAt := now })
  | pruned {record : PreparedEnvironmentRecord} :
      event = none →
        Change graceMs now held marks key event (some record)
          (some { record with leases := activeLeases record now, updatedAt := now })
  | begun {record : PreparedEnvironmentRecord} :
      held = true → (activeLeases record now).entries = [] →
      (record.state = .deleting ∨ record.markedAt ≠ 0 ∧ graceMs ≤ now - record.markedAt) →
        Change graceMs now held marks key event (some record)
          (some { record with state := .deleting, leases := .empty, updatedAt := now })
  | refused {record : PreparedEnvironmentRecord} (error : String) (attempts : ℕ) :
      held = true → record.state = .deleting →
        Change graceMs now held marks key event (some record)
          (some { record with
            state := .deleting
            error := error
            deleteAttempts := attempts
            updatedAt := now })
  | removed {before : Option PreparedEnvironmentRecord} :
      held = true → (∀ old, before = some old → old.state = .deleting) →
        Change graceMs now held marks key event before none

variable {graceMs now : ℤ} {held : Bool} {marks : Prop} {key : String} {event : Option Event}
  {before after : Option PreparedEnvironmentRecord}

theorem Change.view_eq (change : Change graceMs now held marks key event before after) (free : held = false) :
    (after.map fun record => (record.state, record.image)) =
      before.map fun record => (record.state, record.image) := by
  cases change with
  | kept | marked | pruned => rfl
  | put locked | reconciled _ locked | begun locked | refused _ _ locked | removed locked =>
      rw [free] at locked
      cases locked

theorem Change.of_set {records : Records} {own : String} {record : PreparedEnvironmentRecord}
    (here : own = key → Change graceMs now held marks key event (records.get? own) (some record))
    (quiet : own ≠ key → event ≠ some (.deletionBegun key)) :
    Change graceMs now held marks key event (records.get? key) ((records.set own record).get? key) := by
  rw [Dict.get?_set]
  by_cases same : key = own
  · rw [if_pos same, same]
    have change := here same.symm
    rw [same] at change
    exact change
  · rw [if_neg same]
    exact .kept (quiet (Ne.symm same))

section Passes

variable {policy : PreparedEnvironmentGCPolicy} {records records' : Records} {free : String → Bool} {gcFree : Bool}
  {reply : Reply} {phase later : PassPhase}

theorem reconcileStaleBuild_change (own : String) (staleBefore : ℤ) (locked : own = key → held = true) :
    Change graceMs now held marks key none (records.get? key)
      ((reconcileStaleBuild records own now staleBefore).1.get? key) := by
  unfold reconcileStaleBuild
  split
  · exact .kept (by simp)
  · next record here =>
      split
      · exact .kept (by simp)
      · next stale =>
          obtain ⟨building, -⟩ := not_or.mp stale
          refine Change.of_set (fun same => ?_) fun _ => by simp
          rw [here]
          exact .reconciled _ (locked same) (not_not.mp building)

theorem mark_change (own : String) (marked : own = key → (mark records own now).2 = true → marks) :
    Change graceMs now held marks key none (records.get? key) ((mark records own now).1.get? key) := by
  unfold mark
  split
  · exact .kept (by simp)
  · next record here =>
      split
      · exact .kept (by simp)
      · next due =>
          obtain ⟨state, idle⟩ := not_or.mp due
          split
          · exact .kept (by simp)
          · next unmarked =>
            refine Change.of_set (fun same => ?_) fun _ => by simp
            rw [here]
            apply Change.marked (marked same _) rfl _ (not_not.mp idle)
            · unfold mark
              rw [here]
              dsimp only
              rw [if_neg due, if_neg unmarked]
            intro deleting
            rw [deleting] at state
            exact state ⟨by simp, by simp⟩

theorem beginDelete_refused {own : String} {waitMs : ℤ}
    (refusal : beginDelete records own now waitMs = (records', none)) :
    Change graceMs now held marks key none (records.get? key) (records'.get? key) := by
  unfold beginDelete at refusal
  split at refusal
  · cases refusal
    exact .kept (by simp)
  · next record here =>
      dsimp only at refusal
      split at refusal
      · cases refusal
        exact .kept (by simp)
      · split at refusal
        · cases refusal
          split
          · refine Change.of_set (fun _ => ?_) fun _ => by simp
            rw [here]
            exact .pruned rfl
          · exact .kept (by simp)
        · split at refusal
          · cases refusal
            exact .kept (by simp)
          · cases refusal

theorem beginDelete_eq_some {own : String} {deleting : PreparedEnvironmentRecord}
    (begins : beginDelete records own now graceMs = (records', some deleting)) :
    ∃ record, records.get? own = some record ∧ (activeLeases record now).entries = [] ∧
      (record.state = .deleting ∨ record.markedAt ≠ 0 ∧ graceMs ≤ now - record.markedAt) ∧
      deleting = { record with state := .deleting, leases := .empty, updatedAt := now } ∧
      records' = records.set own deleting := by
  unfold beginDelete at begins
  split at begins
  · cases begins
  · next record here =>
      dsimp only at begins
      split at begins
      · cases begins
      · split at begins
        · cases begins
        · next idle =>
            split at begins
            · cases begins
            · next due =>
                cases begins
                refine ⟨record, here, not_not.mp idle, ?_, rfl, rfl⟩
                by_cases again : record.state = .deleting
                · exact .inl again
                · obtain ⟨marked, waited⟩ := not_or.mp (not_and.mp due again)
                  exact .inr ⟨marked, not_lt.mp waited⟩

theorem beginDelete_begun {own : String} {deleting : PreparedEnvironmentRecord}
    (begins : beginDelete records own now graceMs = (records', some deleting)) (locked : own = key → held = true) :
    Change graceMs now held marks key (some (.deletionBegun own)) (records.get? key) (records'.get? key) := by
  obtain ⟨record, here, idle, due, rfl, rfl⟩ := beginDelete_eq_some begins
  apply Change.of_set
  · intro same
    rw [here]
    exact .begun (locked same) idle due
  · intro different same
    cases same
    exact different rfl

theorem advancePass_change (sound : phase.Sound (view records))
    (step : advancePass records policy free gcFree now reply phase = some (records', later, event)) :
    Change (policy.deleteGraceSeconds * 1000) now ((Process.pass now phase).holdsLock key)
      ((Process.pass now phase).marking = some key ∧ (mark records key now).2 = true) key event
      (records.get? key) (records'.get? key) := by
  cases phase with
  | queued =>
      obtain ⟨-, same⟩ := Option.ite_none_right_eq_some.mp step
      cases same
      exact .kept (by simp)
  | listing =>
      cases step
      exact .kept (by simp)
  | reconciling rest =>
      cases rest with
      | nil =>
          cases step
          exact .kept (by simp)
      | cons entry rest =>
          obtain ⟨own, record⟩ := entry
          dsimp only [advancePass] at step
          split at step
          · cases step
            exact .kept (by simp)
          · obtain ⟨-, same⟩ := Option.ite_none_right_eq_some.mp step
            cases same
            exact .kept (by simp)
  | reconcileLocked own rest =>
      cases step
      exact reconcileStaleBuild_change own _ decide_eq_true
  | marking rest =>
      cases rest with
      | nil =>
          cases step
          exact .kept (by simp)
      | cons own rest =>
          cases step
          apply mark_change own
          rintro rfl effect
          exact ⟨rfl, effect⟩
  | deleting rest =>
      cases rest with
      | nil =>
          cases step
          exact .kept (by simp)
      | cons entry rest =>
          obtain ⟨own, record⟩ := entry
          dsimp only [advancePass] at step
          split at step
          · cases step
            exact .kept (by simp)
          · obtain ⟨-, same⟩ := Option.ite_none_right_eq_some.mp step
            cases same
            exact .kept (by simp)
  | deleteLocked own rest =>
      dsimp only [advancePass] at step
      split at step
      · next refusal =>
          cases step
          exact beginDelete_refused refusal
      · next begins =>
          cases step
          exact beginDelete_begun begins decide_eq_true
  | calling own image rest =>
      cases step
      exact .kept (by simp)
  | deletingImage own rest =>
      cases reply with
      | built => cases step
      | deleted | failed =>
          cases step
          exact .kept (by simp)
  | removing own rest =>
      obtain ⟨image, deleting⟩ := sound
      obtain ⟨record, here, deleting, -⟩ := view_eq_some.mp deleting
      have gone : deleteRecord records own = some (records.erase own) := by
        unfold deleteRecord
        rw [here]
        exact if_neg (not_not.mpr deleting)
      dsimp only [advancePass] at step
      rw [gone] at step
      cases step
      rw [Dict.get?_erase]
      by_cases same : key = own
      · rw [if_pos same, same, here]
        apply Change.removed (decide_eq_true rfl)
        rintro _ ⟨⟩
        exact deleting
      · rw [if_neg same]
        exact .kept (by simp)
  | failing own error rest =>
      obtain ⟨image, deleting⟩ := sound
      obtain ⟨record, here, deleting, -⟩ := view_eq_some.mp deleting
      cases step
      unfold deletionFailed
      rw [here]
      refine Change.of_set (fun same => ?_) fun _ => by simp
      rw [here]
      exact .refused error _ (decide_eq_true same) deleting
  | done | stopped => cases step

theorem advancePass_sound (sound : phase.Sound (view records))
    (step : advancePass records policy free gcFree now reply phase = some (records', later, event)) :
    later.Sound (view records') := by
  cases phase with
  | queued =>
      obtain ⟨-, same⟩ := Option.ite_none_right_eq_some.mp step
      cases same
      trivial
  | listing | reconcileLocked =>
      cases step
      trivial
  | marking rest =>
      cases rest <;> cases step <;> trivial
  | reconciling rest | deleting rest =>
      cases rest with
      | nil =>
          cases step
          trivial
      | cons entry rest =>
          obtain ⟨own, record⟩ := entry
          dsimp only [advancePass] at step
          split at step
          · cases step
            trivial
          · obtain ⟨-, same⟩ := Option.ite_none_right_eq_some.mp step
            cases same
            trivial
  | deleteLocked own rest =>
      dsimp only [advancePass] at step
      split at step
      · cases step
        trivial
      · next begins =>
          cases step
          obtain ⟨record, -, -, -, same, rfl⟩ := beginDelete_eq_some begins
          refine ⟨_, view_eq_some.mpr ⟨_, by rw [Dict.get?_set, if_pos rfl], ?_, rfl⟩⟩
          rw [same]
  | calling own image rest =>
      cases step
      exact sound
  | deletingImage own rest =>
      cases reply with
      | built => cases step
      | deleted | failed =>
          cases step
          exact sound
  | removing own rest =>
      dsimp only [advancePass] at step
      split at step
      · cases step
        trivial
      · cases step
        exact sound
  | failing own error rest =>
      cases step
      trivial
  | done | stopped => cases step

theorem advancePass_holdsLock (step : advancePass records policy free gcFree now reply phase = some (records', later, event))
    (held : (Process.pass now later).holdsLock key = true) :
    (Process.pass now phase).holdsLock key = true ∨ free key = true := by
  cases phase with
  | queued =>
      obtain ⟨-, same⟩ := Option.ite_none_right_eq_some.mp step
      cases same
      cases held
  | listing | reconcileLocked | failing =>
      cases step
      cases held
  | marking rest =>
      cases rest <;> cases step <;> cases held
  | reconciling rest | deleting rest =>
      cases rest with
      | nil =>
          cases step
          cases held
      | cons entry rest =>
          obtain ⟨own, record⟩ := entry
          dsimp only [advancePass] at step
          split at step
          · cases step
            cases held
          · obtain ⟨isFree, same⟩ := Option.ite_none_right_eq_some.mp step
            cases same
            rw [← of_decide_eq_true held]
            exact .inr isFree
  | deleteLocked own rest =>
      dsimp only [advancePass] at step
      split at step
      · cases step
        cases held
      · cases step
        exact .inl held
  | calling own image rest =>
      cases step
      exact .inl held
  | deletingImage own rest =>
      cases reply with
      | built => cases step
      | deleted | failed =>
          cases step
          exact .inl held
  | removing own rest =>
      dsimp only [advancePass] at step
      split at step
      · cases step
        cases held
      · cases step
        exact .inl held
  | done | stopped => cases step

end Passes

section Builds

variable {records records' : Records} {clock : ℤ} {free : Bool} {own : String} {reply : Reply} {phase later : BuildPhase}

theorem advanceBuild_change (sound : phase.Sound (view records own))
    (step : advanceBuild records clock free own reply phase = some (records', later, event)) :
    Change graceMs now ((Process.build own phase).holdsLock key) marks key event (records.get? key)
      (records'.get? key) := by
  cases phase with
  | queued =>
      obtain ⟨-, same⟩ := Option.ite_none_right_eq_some.mp step
      cases same
      exact .kept (by simp)
  | locked =>
      dsimp only [advanceBuild] at step
      split at step
      · cases step
        exact .kept (by simp)
      · split at step <;> cases step <;> exact .kept (by simp)
  | putting now =>
      cases step
      refine Change.of_set (fun same => ?_) fun _ => by simp
      apply Change.put _ _ _ rfl
      · intro ready
        cases ready
      · simp [Process.holdsLock, same]
      · intro old here
        exact sound _ _ (view_eq_some.mpr ⟨old, here, rfl, rfl⟩)
      · intro deleting
        cases deleting
  | building now =>
      cases reply with
      | built | failed =>
          cases step
          exact .kept (by simp)
      | deleted => cases step
  | failing record =>
      obtain ⟨unbuilt, state, unmarked⟩ := sound
      cases step
      refine Change.of_set (fun same => ?_) fun _ => by simp
      apply Change.put _ _ _ unmarked
      · intro ready
        cases state.symm.trans ready
      · simp [Process.holdsLock, same]
      · intro old here
        exact unbuilt _ _ (view_eq_some.mpr ⟨old, here, rfl, rfl⟩)
      · rw [state]
        simp
  | finishing record =>
      obtain ⟨unbuilt, state, unmarked⟩ := sound
      cases step
      refine Change.of_set (fun same => ?_) fun _ => by simp
      apply Change.put _ _ _ unmarked
      · intro _
        rw [same]
      · simp [Process.holdsLock, same]
      · intro old here
        exact unbuilt _ _ (view_eq_some.mpr ⟨old, here, rfl, rfl⟩)
      · rw [state]
        simp
  | leaving | returning =>
      cases step
      exact .kept (by simp)
  | done | stopped => cases step

theorem advanceBuild_sound (sound : phase.Sound (view records own))
    (step : advanceBuild records clock free own reply phase = some (records', later, event)) :
    later.Sound (view records' own) := by
  cases phase with
  | queued =>
      obtain ⟨-, same⟩ := Option.ite_none_right_eq_some.mp step
      cases same
      trivial
  | locked =>
      dsimp only [advanceBuild] at step
      split at step
      · next absent =>
          cases step
          intro state image here
          obtain ⟨record, there, -⟩ := view_eq_some.mp here
          rw [absent] at there
          cases there
      · next existing here =>
          split at step
          · next ready =>
              cases step
              exact view_eq_some.mpr ⟨existing, here, ready, rfl⟩
          · cases step
            trivial
          · next notReady notDeleting =>
              cases step
              intro state image seen
              obtain ⟨record, there, rfl, -⟩ := view_eq_some.mp seen
              rw [here] at there
              cases there
              exact ⟨notReady, notDeleting⟩
  | putting now =>
      cases step
      intro state image seen
      obtain ⟨record, there, rfl, -⟩ := view_eq_some.mp seen
      rw [Dict.get?_set, if_pos rfl] at there
      cases there
      exact ⟨by simp, by simp⟩
  | building now =>
      cases reply with
      | built | failed =>
          cases step
          exact ⟨sound, rfl, rfl⟩
      | deleted => cases step
  | failing record =>
      cases step
      trivial
  | finishing record =>
      obtain ⟨-, state, -⟩ := sound
      cases step
      exact view_eq_some.mpr ⟨record, by rw [Dict.get?_set, if_pos rfl], state, rfl⟩
  | leaving | returning =>
      cases step
      trivial
  | done | stopped => cases step

theorem advanceBuild_holdsLock (step : advanceBuild records clock free own reply phase = some (records', later, event))
    (held : (Process.build own later).holdsLock key = true) :
    (Process.build own phase).holdsLock key = true ∨ own = key ∧ free = true := by
  have same : own = key := of_decide_eq_true (Bool.and_eq_true_iff.mp held).1
  cases phase with
  | queued =>
      obtain ⟨isFree, -⟩ := Option.ite_none_right_eq_some.mp step
      exact .inr ⟨same, isFree⟩
  | returning outcome =>
      cases step
      cases (Bool.and_eq_true_iff.mp held).2
  | done | stopped => cases step
  | locked | putting | building | failing | finishing | leaving =>
      left
      simp [Process.holdsLock, same]

end Builds

section Usage

variable {records : Records} (key leaseID : String) (now expiresAt : ℤ)

theorem view_set {record updated : PreparedEnvironmentRecord} {own : String} (here : records.get? own = some record)
    (state : updated.state = record.state) (image : updated.image = record.image) :
    view (records.set own updated) = view records := by
  funext other
  unfold view
  rw [Dict.get?_set]
  by_cases same : other = own
  · rw [if_pos same, same, here, Option.map_some, Option.map_some, state, image]
  · rw [if_neg same]

theorem view_acquireUsage : view (acquireUsage records key leaseID now expiresAt).1 = view records := by
  unfold acquireUsage
  split
  · rfl
  · next record here =>
      split
      · rfl
      · exact view_set here rfl rfl

theorem view_renewUsage : view (renewUsage records key leaseID now expiresAt).1 = view records := by
  unfold renewUsage
  split
  · rfl
  · next record here =>
      split
      · rfl
      · split
        · rfl
        · exact view_set here rfl rfl

theorem view_releaseUsage : view (releaseUsage records key leaseID now) = view records := by
  unfold releaseUsage
  split
  · rfl
  · next record here => exact view_set here rfl rfl

end Usage

end Changes

section Worlds

def Process.time (clock : ℤ) : Process → ℤ
  | .build _ _ => clock
  | .pass now _ => now

namespace World

variable {policy : PreparedEnvironmentGCPolicy} {world target : World} {records' : Records} {reply : Reply}
  {process later : Process} {event : Option Event}

theorem advanceProcess_change (sound : process.Sound world.records)
    (step : world.advanceProcess policy reply process = some (records', later, event)) (key : String) :
    Change (policy.deleteGraceSeconds * 1000) (process.time world.clock) (process.holdsLock key)
      (process.marking = some key ∧ (mark world.records key (process.time world.clock)).2 = true) key event
      (world.records.get? key) (records'.get? key) := by
  cases process with
  | build own phase =>
      obtain ⟨⟨_, later', _⟩, advanced, same⟩ := Option.map_eq_some_iff.mp step
      cases same
      exact advanceBuild_change sound advanced
  | pass now phase =>
      obtain ⟨⟨_, later', _⟩, advanced, same⟩ := Option.map_eq_some_iff.mp step
      cases same
      exact advancePass_change sound advanced

theorem advanceProcess_sound (sound : process.Sound world.records)
    (step : world.advanceProcess policy reply process = some (records', later, event)) : later.Sound records' := by
  cases process with
  | build own phase =>
      obtain ⟨⟨_, later', _⟩, advanced, same⟩ := Option.map_eq_some_iff.mp step
      cases same
      exact advanceBuild_sound sound advanced
  | pass now phase =>
      obtain ⟨⟨_, later', _⟩, advanced, same⟩ := Option.map_eq_some_iff.mp step
      cases same
      exact advancePass_sound sound advanced

theorem advanceProcess_holdsLock {key : String}
    (step : world.advanceProcess policy reply process = some (records', later, event))
    (held : later.holdsLock key = true) : process.holdsLock key = true ∨ world.lockFree key = true := by
  cases process with
  | build own phase =>
      obtain ⟨⟨_, later', _⟩, advanced, same⟩ := Option.map_eq_some_iff.mp step
      cases same
      obtain before | ⟨rfl, free⟩ := advanceBuild_holdsLock advanced held
      · exact .inl before
      · exact .inr free
  | pass now phase =>
      obtain ⟨⟨_, later', _⟩, advanced, same⟩ := Option.map_eq_some_iff.mp step
      cases same
      exact advancePass_holdsLock advanced held

theorem advanceProcess_time (step : world.advanceProcess policy reply process = some (records', later, event)) :
    later.time world.clock = process.time world.clock := by
  cases process with
  | build own phase =>
      obtain ⟨⟨_, later', _⟩, -, same⟩ := Option.map_eq_some_iff.mp step
      cases same
      rfl
  | pass now phase =>
      obtain ⟨⟨_, later', _⟩, -, same⟩ := Option.map_eq_some_iff.mp step
      cases same
      rfl

theorem advance_cases {position : ℕ} (step : world.next policy (.advance position reply) = some target) :
    ∃ process records later event, world.processes[position]? = some process ∧
      world.advanceProcess policy reply process = some (records, later, event) ∧
      target =
        { world with
          records := records
          processes := world.processes.set position later
          deletionBegun := world.recorded event } := by
  obtain ⟨process, here, step⟩ := Option.bind_eq_some_iff.mp step
  obtain ⟨⟨records, later, event⟩, advanced, same⟩ := Option.bind_eq_some_iff.mp step
  exact ⟨process, records, later, event, here, advanced, (Option.some.inj same).symm⟩

/-- No two processes hold the lock of a key. -/
def Exclusive (processes : List Process) : Prop :=
  ∀ key (first second : ℕ) (process other : Process), processes[first]? = some process →
    processes[second]? = some other → process.holdsLock key = true → other.holdsLock key = true → first = second

theorem Exclusive.of_held {processes processes' : List Process} (exclusive : Exclusive processes)
    (held : ∀ key (place : ℕ) (process : Process), processes'[place]? = some process → process.holdsLock key = true →
      ∃ former, processes[place]? = some former ∧ former.holdsLock key = true) : Exclusive processes' := by
  intro key first second process other here there holds otherHolds
  obtain ⟨former, before, held₁⟩ := held key first process here holds
  obtain ⟨former', before', held₂⟩ := held key second other there otherHolds
  exact exclusive key first second former former' before before' held₁ held₂

theorem holdsLock_stop (key : String) (process : Process) : (stop process).holdsLock key = false := by
  cases process with
  | build => exact Bool.and_false _
  | pass => rfl

theorem sound_stop (records : Records) (process : Process) : (stop process).Sound records := by
  cases process <;> trivial

theorem exclusive_append {processes : List Process} {added : Process} (exclusive : Exclusive processes)
    (idle : ∀ key, added.holdsLock key = false) : Exclusive (processes ++ [added]) := by
  apply exclusive.of_held
  intro key place process here holds
  rw [List.getElem?_append] at here
  split at here
  · exact ⟨process, here, holds⟩
  · have new := List.mem_singleton.mp (List.mem_of_getElem? here)
    rw [new, idle key] at holds
    cases holds

theorem exclusive_stop {processes : List Process} {position : ℕ} {process : Process} (exclusive : Exclusive processes) :
    Exclusive (processes.set position (stop process)) := by
  apply exclusive.of_held
  intro key place other here holds
  by_cases same : position = place
  · have new : other = stop process := by
      subst same
      rw [List.getElem?_set_self'] at here
      obtain ⟨_, -, new⟩ := Option.map_eq_some_iff.mp here
      exact new.symm
    rw [new, holdsLock_stop] at holds
    cases holds
  · rw [List.getElem?_set_ne same] at here
    exact ⟨other, here, holds⟩

/-- The processes know what they rely on, no lock is held twice, and no pass goes by a time to come. -/
structure Sound (world : World) : Prop where
  knows : ∀ process ∈ world.processes, process.Sound world.records
  exclusive : Exclusive world.processes
  timely : ∀ process ∈ world.processes, process.time world.clock ≤ world.clock

section Step

variable (sound : Sound world)
include sound

theorem Sound.of_view {records' : Records} (same : view records' = view world.records) :
    ∀ process ∈ world.processes, process.Sound records' := by
  intro process listed
  apply (sound.knows process listed).congr
  intro key _
  rw [same]

theorem Sound.advance {position : ℕ} (here : world.processes[position]? = some process)
    (advanced : world.advanceProcess policy reply process = some (records', later, event)) :
    Sound
      { world with
        records := records'
        processes := world.processes.set position later
        deletionBegun := world.recorded event } := by
  have listed := List.mem_of_getElem? here
  have own := sound.knows process listed
  constructor
  · intro other member
    obtain ⟨place, there⟩ := List.mem_iff_getElem?.mp member
    by_cases same : position = place
    · subst same
      rw [List.getElem?_set_self'] at there
      obtain ⟨_, -, rfl⟩ := Option.map_eq_some_iff.mp there
      exact advanceProcess_sound own advanced
    · rw [List.getElem?_set_ne same] at there
      apply (sound.knows other (List.mem_of_getElem? there)).congr
      intro key held
      apply (advanceProcess_change own advanced key).view_eq
      -- the lock of the key is held by the other process
      by_contra holds
      exact same (sound.exclusive key position place process other here there (by simpa using holds) held)
  · have taken (key : String) {place : ℕ} {other : Process} (apart : position ≠ place)
        (there : world.processes[place]? = some other) (holds : later.holdsLock key = true)
        (otherHolds : other.holdsLock key = true) : False := by
      rcases advanceProcess_holdsLock advanced holds with before | free
      · exact apart (sound.exclusive key position place process other here there before otherHolds)
      · have idle := List.all_eq_true.mp free other (List.mem_of_getElem? there)
        rw [otherHolds] at idle
        cases idle
    have self {place : ℕ} {other : Process} (same : position = place)
        (there : (world.processes.set position later)[place]? = some other) : other = later := by
      subst same
      rw [List.getElem?_set_self'] at there
      obtain ⟨_, -, new⟩ := Option.map_eq_some_iff.mp there
      exact new.symm
    intro key first second process₁ process₂ there₁ there₂ holds₁ holds₂
    dsimp only at there₁ there₂
    by_cases same₁ : position = first
    · by_cases same₂ : position = second
      · exact same₁.symm.trans same₂
      · rw [self same₁ there₁] at holds₁
        rw [List.getElem?_set_ne same₂] at there₂
        exact (taken key same₂ there₂ holds₁ holds₂).elim
    · rw [List.getElem?_set_ne same₁] at there₁
      by_cases same₂ : position = second
      · rw [self same₂ there₂] at holds₂
        exact (taken key same₁ there₁ holds₂ holds₁).elim
      · rw [List.getElem?_set_ne same₂] at there₂
        exact sound.exclusive key first second process₁ process₂ there₁ there₂ holds₁ holds₂
  · intro other member
    dsimp only
    rcases List.mem_or_eq_of_mem_set member with earlier | rfl
    · exact sound.timely other earlier
    · rw [advanceProcess_time advanced]
      exact sound.timely process listed

theorem Sound.step {label : Label} (step : (system policy).step world label target) : Sound target := by
  cases label with
  | tick elapsed =>
      cases step
      refine ⟨sound.knows, sound.exclusive, fun process listed => ?_⟩
      have before := sound.timely process listed
      cases process with
      | build => exact le_rfl
      | pass now =>
          simp only [Process.time] at before ⊢
          omega
  | startBuild key =>
      cases step
      refine ⟨fun process listed => ?_, exclusive_append sound.exclusive fun _ => Bool.and_false _,
        fun process listed => ?_⟩
      · rcases List.mem_append.mp listed with earlier | new
        · exact sound.knows process earlier
        · rw [List.mem_singleton.mp new]
          trivial
      · rcases List.mem_append.mp listed with earlier | new
        · exact sound.timely process earlier
        · rw [List.mem_singleton.mp new]
          exact le_rfl
  | startPass =>
      cases step
      refine ⟨fun process listed => ?_, exclusive_append sound.exclusive fun _ => rfl, fun process listed => ?_⟩
      · rcases List.mem_append.mp listed with earlier | new
        · exact sound.knows process earlier
        · rw [List.mem_singleton.mp new]
          trivial
      · rcases List.mem_append.mp listed with earlier | new
        · exact sound.timely process earlier
        · rw [List.mem_singleton.mp new]
          exact le_rfl
  | advance position reply =>
      obtain ⟨process, records', later, event, here, advanced, rfl⟩ := advance_cases step
      exact sound.advance here advanced
  | crash position =>
      obtain ⟨process, here, same⟩ := Option.bind_eq_some_iff.mp step
      cases same
      refine ⟨fun other listed => ?_, exclusive_stop sound.exclusive, fun other listed => ?_⟩
      · rcases List.mem_or_eq_of_mem_set listed with earlier | rfl
        · exact sound.knows other earlier
        · exact sound_stop _ process
      · rcases List.mem_or_eq_of_mem_set listed with earlier | rfl
        · exact sound.timely other earlier
        · have before := sound.timely process (List.mem_of_getElem? here)
          cases process <;> exact before
  | acquire key leaseID now expiresAt =>
      obtain ⟨-, same⟩ := Option.ite_none_right_eq_some.mp step
      have kept : view (acquireUsage world.records key leaseID now expiresAt).1 = view world.records :=
        view_acquireUsage key leaseID now expiresAt
      split at same
      · cases same
        exact sound
      · next acquired =>
          cases same
          rw [acquired] at kept
          exact ⟨sound.of_view kept, sound.exclusive, sound.timely⟩
  | renew key leaseID now expiresAt =>
      obtain ⟨-, same⟩ := Option.ite_none_right_eq_some.mp step
      cases same
      exact ⟨sound.of_view (view_renewUsage key leaseID now expiresAt), sound.exclusive, sound.timely⟩
  | release key leaseID now =>
      obtain ⟨-, same⟩ := Option.ite_none_right_eq_some.mp step
      cases same
      exact ⟨sound.of_view (view_releaseUsage key leaseID now), sound.exclusive, sound.timely⟩

end Step

theorem sound_empty : Sound {} where
  knows _ listed := by cases listed
  exclusive _ _ _ _ _ here := by cases here
  timely _ listed := by cases listed

end World

end Worlds

end Sico.TaskRuntime.Environments

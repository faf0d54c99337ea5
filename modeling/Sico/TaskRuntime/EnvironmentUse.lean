import Sico.TaskRuntime.EnvironmentSteps

/-! # Environments in use are not deleted

In every run, an environment whose deletion has come to the builder has no lease left, it cannot be
acquired until it is built again, and a ready environment keeps each lease until it expires or is
released. That an environment rests for the grace period before it is deleted depends on two things
the store does not look at. An environment may be released after it was marked, and a pass may mark an
environment that was used after the time the pass goes by.
-/

namespace Sico.TaskRuntime.Environments

open Foundation

section Leases

variable {graceMs now clock : ℤ} {held : Bool} {marks : Prop} {key : String} {event : Option Event}
  {before after : Option PreparedEnvironmentRecord}

theorem get?_activeLeases {record : PreparedEnvironmentRecord} {leaseID : String} {expiresAt : ℤ}
    (lease : record.leases.get? leaseID = some expiresAt) (unexpired : now < expiresAt) :
    (activeLeases record now).get? leaseID = some expiresAt :=
  Dict.get?_filterValues.mpr ⟨lease, decide_eq_true unexpired⟩

theorem not_lease_of_idle {record : PreparedEnvironmentRecord} {leaseID : String} {expiresAt : ℤ}
    (idle : (activeLeases record now).entries = []) (lease : record.leases.get? leaseID = some expiresAt) :
    expiresAt ≤ now := by
  by_contra unexpired
  have active := Dict.get?_eq_some.mp (get?_activeLeases lease (not_le.mp unexpired))
  rw [idle] at active
  cases active

theorem Change.keeps_lease (change : Change graceMs now held marks key event before after)
    (past : now ≤ clock) {record : PreparedEnvironmentRecord} (here : before = some record)
    (ready : record.state = .ready) {leaseID : String} {expiresAt : ℤ}
    (lease : record.leases.get? leaseID = some expiresAt) (unexpired : clock < expiresAt) :
    ∃ record', after = some record' ∧ record'.state = .ready ∧ record'.leases.get? leaseID = some expiresAt := by
  have active : now < expiresAt := lt_of_le_of_lt past unexpired
  cases change with
  | kept => exact ⟨record, here, ready, lease⟩
  | put _ unbuilt => exact absurd ready (unbuilt record here).1
  | reconciled _ _ building =>
      cases here
      cases building.symm.trans ready
  | marked _ _ _ idle =>
      cases here
      exact absurd active (not_lt.mpr (not_lease_of_idle idle lease))
  | pruned =>
      cases here
      exact ⟨_, rfl, ready, get?_activeLeases lease active⟩
  | begun _ idle =>
      cases here
      exact absurd active (not_lt.mpr (not_lease_of_idle idle lease))
  | refused _ _ _ deleting =>
      cases here
      cases deleting.symm.trans ready
  | removed _ deleting => cases (deleting record here).symm.trans ready

end Leases

section Records

variable {graceMs now clock : ℤ} {held : Bool} {marks : Prop} {key : String} {event : Option Event}
  {before after : Option PreparedEnvironmentRecord}

/-- A record that is being deleted has no leases, and one whose deletion has begun is not ready. -/
structure Clean (begun : Bool) (record : PreparedEnvironmentRecord) : Prop where
  unused : record.state = .deleting → record.leases.entries = []
  unready : begun = true → record.state ≠ .ready

/-- The last use of a record is before its mark, and the grace period before its deletion. -/
structure Rested (graceMs clock : ℤ) (touched : Option ℤ) (record : PreparedEnvironmentRecord) : Prop where
  marked : record.markedAt ≠ 0 → ∀ time ∈ touched, time ≤ record.markedAt
  waited : record.state = .deleting → ∀ time ∈ touched, time + graceMs ≤ clock

theorem recorded_of_ne {world : World} (quiet : event ≠ some (.deletionBegun key))
    (begun : world.recorded event key = true) : world.deletionBegun key = true := by
  cases event with
  | none => exact begun
  | some event =>
      cases event with
      | deletionBegun own =>
          have apart : key ≠ own := fun same => quiet (same ▸ rfl)
          simpa [World.recorded, apart] using begun
      | builtReady own =>
          by_cases same : key = own
          · simp [World.recorded, same] at begun
          · simpa [World.recorded, same] using begun

theorem Change.clean {world : World} (change : Change graceMs now held marks key event before after)
    (clean : ∀ record, before = some record → Clean (world.deletionBegun key) record) :
    ∀ record, after = some record → Clean (world.recorded event key) record := by
  cases change with
  | kept quiet =>
      intro record here
      exact ⟨(clean record here).unused, fun begun => (clean record here).unready (recorded_of_ne quiet begun)⟩
  | put _ _ stays _ told =>
      rintro record ⟨⟩
      refine ⟨fun deleting => absurd deleting stays, fun begun ready => ?_⟩
      rw [told ready] at begun
      simp [World.recorded] at begun
  | reconciled =>
      rintro record ⟨⟩
      exact ⟨by simp, fun _ => by simp⟩
  | marked _ none =>
      rintro record ⟨⟩
      subst none
      exact ⟨fun _ => rfl, (clean _ rfl).unready⟩
  | pruned none =>
      rintro record ⟨⟩
      subst none
      refine ⟨fun deleting => ?_, (clean _ rfl).unready⟩
      have empty := (clean _ rfl).unused deleting
      simp [activeLeases, Dict.filterValues, empty]
  | begun =>
      rintro record ⟨⟩
      exact ⟨fun _ => rfl, fun _ => by simp⟩
  | refused _ _ _ deleting =>
      rintro record ⟨⟩
      exact ⟨fun _ => (clean _ rfl).unused deleting, fun _ => by simp⟩
  | removed => rintro record ⟨⟩

theorem Change.rested {touched : Option ℤ} (change : Change graceMs now held marks key event before after)
    (past : now ≤ clock) (inTime : marks → ∀ time ∈ touched, time ≤ now)
    (rested : ∀ record, before = some record → Rested graceMs clock touched record) :
    ∀ record, after = some record → Rested graceMs clock touched record := by
  cases change with
  | kept => exact rested
  | put _ _ stays unmarked =>
      rintro record ⟨⟩
      exact ⟨fun marked => absurd unmarked marked, fun deleting => absurd deleting stays⟩
  | reconciled =>
      rintro record ⟨⟩
      exact ⟨(rested _ rfl).marked, nofun⟩
  | marked marking _ stays =>
      rintro record ⟨⟩
      exact ⟨fun _ => inTime marking, fun deleting => absurd deleting stays⟩
  | pruned =>
      rintro record ⟨⟩
      exact ⟨(rested _ rfl).marked, (rested _ rfl).waited⟩
  | begun _ _ due =>
      rintro record ⟨⟩
      refine ⟨(rested _ rfl).marked, fun _ time used => ?_⟩
      obtain again | ⟨marked, waited⟩ := due
      · exact (rested _ rfl).waited again time used
      · have earlier := (rested _ rfl).marked marked time used
        omega
  | refused _ _ _ deleting =>
      rintro record ⟨⟩
      exact ⟨(rested _ rfl).marked, fun _ => (rested _ rfl).waited deleting⟩
  | removed => nofun

end Records

section Usage

variable {records records' : Records} {own leaseID : String} {now expiresAt : ℤ}

theorem acquireUsage_eq_some {updated : PreparedEnvironmentRecord}
    (acquired : acquireUsage records own leaseID now expiresAt = (records', some updated)) :
    ∃ record, records.get? own = some record ∧ record.state = .ready ∧ records' = records.set own updated ∧
      updated =
        { record with
          leases := (activeLeases record now).set leaseID expiresAt
          lastUsedAt := now
          markedAt := 0
          updatedAt := now } := by
  unfold acquireUsage at acquired
  split at acquired
  · cases acquired
  · next record here =>
      split at acquired
      · cases acquired
      · next ready =>
          cases acquired
          exact ⟨record, here, not_not.mp ready, rfl, rfl⟩

theorem renewUsage_cases (records : Records) (own leaseID : String) (now expiresAt : ℤ) :
    (renewUsage records own leaseID now expiresAt).1 = records ∨
      ∃ record, records.get? own = some record ∧ record.state = .ready ∧
        (renewUsage records own leaseID now expiresAt).1 =
          records.set own
            { record with leases := (activeLeases record now).set leaseID expiresAt, updatedAt := now } := by
  unfold renewUsage
  split
  · exact .inl rfl
  · next record here =>
      split
      · exact .inl rfl
      · next ready =>
          split
          · exact .inl rfl
          · exact .inr ⟨record, here, not_not.mp ready, rfl⟩

theorem releaseUsage_cases (records : Records) (own leaseID : String) (now : ℤ) :
    records.get? own = none ∧ releaseUsage records own leaseID now = records ∨
      ∃ record, records.get? own = some record ∧
        releaseUsage records own leaseID now =
          records.set own
            { record with
              leases := (activeLeases record now).erase leaseID
              lastUsedAt := now
              updatedAt := now } := by
  unfold releaseUsage
  split
  · next absent => exact .inl ⟨absent, rfl⟩
  · next record here => exact .inr ⟨record, here, rfl⟩

theorem forall_get?_set {property : String → PreparedEnvironmentRecord → Prop} {updated : PreparedEnvironmentRecord}
    (others : ∀ key record, key ≠ own → records.get? key = some record → property key record)
    (written : property own updated) (key : String) (record : PreparedEnvironmentRecord)
    (here : (records.set own updated).get? key = some record) : property key record := by
  rw [Dict.get?_set] at here
  split at here
  · next same =>
      cases here
      exact same ▸ written
  · next different => exact others key record different here

end Usage

/-- The key of the environment that the builder is called for next. -/
def Process.deletes : Process → Option String
  | .pass _ (.calling key _ _) => some key
  | _ => none

def Label.Sets (label : Label) (key leaseID : String) (expiresAt : ℤ) : Prop :=
  ∃ now, label = .acquire key leaseID now expiresAt ∨ label = .renew key leaseID now expiresAt

namespace World

variable {policy : PreparedEnvironmentGCPolicy} {world target : World} {label : Label}

def AllClean (world : World) : Prop :=
  ∀ key record, world.records.get? key = some record → Clean (world.deletionBegun key) record

def AllRested (policy : PreparedEnvironmentGCPolicy) (world : World) : Prop :=
  ∀ key record, world.records.get? key = some record →
    Rested (policy.deleteGraceSeconds * 1000) world.clock (world.touchedAt key) record

theorem AllClean.step (clean : AllClean world) (sound : Sound world)
    (step : (system policy).step world label target) : AllClean target := by
  cases label with
  | tick | startBuild | startPass =>
      cases step
      exact clean
  | crash position =>
      obtain ⟨process, -, same⟩ := Option.bind_eq_some_iff.mp step
      cases same
      exact clean
  | advance position reply =>
      obtain ⟨process, records', later, event, here, advanced, rfl⟩ := advance_cases step
      intro key
      have own := sound.knows process (List.mem_of_getElem? here)
      exact (advanceProcess_change own advanced key).clean (clean key)
  | acquire own leaseID now expiresAt =>
      obtain ⟨-, same⟩ := Option.ite_none_right_eq_some.mp step
      split at same
      · cases same
        exact clean
      · next records' updated acquired =>
          cases same
          obtain ⟨record, here, ready, rfl, rfl⟩ := acquireUsage_eq_some acquired
          apply forall_get?_set fun key record _ => clean key record
          exact ⟨fun deleting => (nomatch ready.symm.trans deleting), (clean own record here).unready⟩
  | renew own leaseID now expiresAt =>
      obtain ⟨-, same⟩ := Option.ite_none_right_eq_some.mp step
      cases same
      unfold AllClean
      dsimp only
      obtain same | ⟨record, here, ready, same⟩ := renewUsage_cases world.records own leaseID now expiresAt
      · rw [same]
        exact clean
      · rw [same]
        apply forall_get?_set fun key record _ => clean key record
        exact ⟨fun deleting => (nomatch ready.symm.trans deleting), (clean own record here).unready⟩
  | release own leaseID now =>
      obtain ⟨-, same⟩ := Option.ite_none_right_eq_some.mp step
      cases same
      unfold AllClean
      dsimp only
      obtain ⟨-, same⟩ | ⟨record, here, same⟩ := releaseUsage_cases world.records own leaseID now
      · rw [same]
        exact clean
      · rw [same]
        apply forall_get?_set fun key record _ => clean key record
        refine ⟨fun deleting => ?_, (clean own record here).unready⟩
        have empty := (clean own record here).unused deleting
        simp [activeLeases, Dict.filterValues, Dict.erase, empty]

/-- No record is released that is marked or being deleted, and no record is marked by a pass that goes by
a time before its last use. -/
def Careful (world : World) : Label → Prop
  | .advance position _ =>
      ∀ process ∈ world.processes[position]?, ∀ key ∈ process.marking,
        (mark world.records key (process.time world.clock)).2 = true →
          ∀ time ∈ world.touchedAt key, time ≤ process.time world.clock
  | .release key _ _ => ∀ record ∈ world.records.get? key, record.markedAt = 0 ∧ record.state ≠ .deleting
  | _ => True

instance (world : World) : (label : Label) → Decidable (Careful world label)
  | .advance _ _ => inferInstanceAs (Decidable (∀ process ∈ _, ∀ key ∈ _, _ → ∀ time ∈ _, _))
  | .release _ _ _ => inferInstanceAs (Decidable (∀ record ∈ _, _ ∧ _))
  | .tick _ | .startBuild _ | .startPass | .crash _ | .acquire _ _ _ _ | .renew _ _ _ _ => .isTrue trivial

theorem AllRested.touch (rested : AllRested policy world) {own : String} {updated : PreparedEnvironmentRecord}
    (unmarked : updated.markedAt = 0) (stays : updated.state ≠ .deleting) (key : String)
    (record : PreparedEnvironmentRecord) (here : (world.records.set own updated).get? key = some record) :
    Rested (policy.deleteGraceSeconds * 1000) world.clock
      (Function.update world.touchedAt own (some world.clock) key) record := by
  rw [Dict.get?_set] at here
  split at here
  · cases here
    exact ⟨fun marked => absurd unmarked marked, fun deleting => absurd deleting stays⟩
  · next apart =>
      rw [Function.update_of_ne apart]
      exact rested key record here

theorem AllRested.step (rested : AllRested policy world) (sound : Sound world) (careful : Careful world label)
    (step : (system policy).step world label target) : AllRested policy target := by
  cases label with
  | tick elapsed =>
      cases step
      intro key record here
      have before := rested key record here
      refine ⟨before.marked, fun deleting time used => ?_⟩
      have earlier := before.waited deleting time used
      dsimp only
      omega
  | startBuild | startPass =>
      cases step
      exact rested
  | crash position =>
      obtain ⟨process, -, same⟩ := Option.bind_eq_some_iff.mp step
      cases same
      exact rested
  | advance position reply =>
      obtain ⟨process, records', later, event, here, advanced, rfl⟩ := advance_cases step
      intro key
      have listed := List.mem_of_getElem? here
      have change := advanceProcess_change (sound.knows process listed) advanced key
      apply change.rested (sound.timely process listed) _ (rested key)
      intro ⟨marking, effect⟩
      exact careful process here key marking effect
  | acquire own leaseID now expiresAt =>
      obtain ⟨-, same⟩ := Option.ite_none_right_eq_some.mp step
      split at same
      · cases same
        exact rested
      · next records' updated acquired =>
          cases same
          obtain ⟨record, here, ready, rfl, rfl⟩ := acquireUsage_eq_some acquired
          apply rested.touch rfl
          intro deleting
          cases ready.symm.trans deleting
  | renew own leaseID now expiresAt =>
      obtain ⟨-, same⟩ := Option.ite_none_right_eq_some.mp step
      cases same
      unfold AllRested
      dsimp only
      obtain same | ⟨record, here, ready, same⟩ := renewUsage_cases world.records own leaseID now expiresAt
      · rw [same]
        exact rested
      · rw [same]
        apply forall_get?_set fun key record _ => rested key record
        exact ⟨(rested own record here).marked, fun deleting => (nomatch ready.symm.trans deleting)⟩
  | release own leaseID now =>
      obtain ⟨-, same⟩ := Option.ite_none_right_eq_some.mp step
      cases same
      unfold AllRested
      dsimp only
      obtain ⟨absent, same⟩ | ⟨record, here, same⟩ := releaseUsage_cases world.records own leaseID now
      · rw [same, absent]
        exact rested
      · obtain ⟨unmarked, stays⟩ := careful record here
        rw [same, here]
        exact rested.touch unmarked stays

/-- A lease that a record has until then. -/
def HasLease (world : World) (key leaseID : String) (expiresAt : ℤ) : Prop :=
  ∃ record, world.records.get? key = some record ∧ record.state = .ready ∧
    record.leases.get? leaseID = some expiresAt

section Leases

variable {key leaseID : String} {expiresAt : ℤ}

theorem hasLease_set {records records' : Records} {own other : String} {now until' : ℤ}
    {record updated : PreparedEnvironmentRecord} (written : records' = records.set own updated)
    (here : records.get? own = some record) (state : updated.state = record.state)
    (leases : updated.leases = (activeLeases record now).set other until')
    {held : PreparedEnvironmentRecord} (there : records.get? key = some held) (ready : held.state = .ready)
    (lease : held.leases.get? leaseID = some expiresAt) (unexpired : now < expiresAt) :
    ∃ held' expiresAt', records'.get? key = some held' ∧ held'.state = .ready ∧
      held'.leases.get? leaseID = some expiresAt' ∧
        (expiresAt' = expiresAt ∨ own = key ∧ other = leaseID ∧ expiresAt' = until') := by
  rw [written, Dict.get?_set]
  by_cases same : key = own
  · subst same
    obtain rfl := Option.some.inj (here.symm.trans there)
    rw [if_pos rfl]
    by_cases set : leaseID = other
    · refine ⟨updated, until', rfl, state.trans ready, ?_, .inr ⟨rfl, set.symm, rfl⟩⟩
      rw [leases, Dict.get?_set, if_pos set]
    · refine ⟨updated, expiresAt, rfl, state.trans ready, ?_, .inl rfl⟩
      rw [leases, Dict.get?_set, if_neg set]
      exact get?_activeLeases lease unexpired
  · rw [if_neg same]
    exact ⟨held, expiresAt, there, ready, lease, .inl rfl⟩

theorem keeps_leases (sound : Sound world) (step : (system policy).step world label target)
    (lease : world.HasLease key leaseID expiresAt) (unexpired : world.clock < expiresAt)
    (unreleased : ∀ now, label ≠ .release key leaseID now) :
    ∃ expiresAt', target.HasLease key leaseID expiresAt' ∧
      (expiresAt' = expiresAt ∨ label.Sets key leaseID expiresAt') := by
  obtain ⟨record, there, ready, lease⟩ := lease
  cases label with
  | tick | startBuild | startPass =>
      cases step
      exact ⟨expiresAt, ⟨record, there, ready, lease⟩, .inl rfl⟩
  | crash position =>
      obtain ⟨process, -, same⟩ := Option.bind_eq_some_iff.mp step
      cases same
      exact ⟨expiresAt, ⟨record, there, ready, lease⟩, .inl rfl⟩
  | advance position reply =>
      obtain ⟨process, records', later, event, here, advanced, rfl⟩ := advance_cases step
      have listed := List.mem_of_getElem? here
      have change := advanceProcess_change (sound.knows process listed) advanced key
      exact ⟨expiresAt, change.keeps_lease (sound.timely process listed) there ready lease unexpired, .inl rfl⟩
  | acquire own other now until' =>
      obtain ⟨past, same⟩ := Option.ite_none_right_eq_some.mp step
      split at same
      · cases same
        exact ⟨expiresAt, ⟨record, there, ready, lease⟩, .inl rfl⟩
      · next records' updated acquired =>
          cases same
          obtain ⟨former, here, -, written, rfl⟩ := acquireUsage_eq_some acquired
          obtain ⟨held, last, here', ready', lease', kept⟩ :=
            hasLease_set written here rfl rfl there ready lease (lt_of_le_of_lt past unexpired)
          refine ⟨last, ⟨held, here', ready', lease'⟩, ?_⟩
          obtain kept | ⟨rfl, rfl, rfl⟩ := kept
          · exact .inl kept
          · exact .inr ⟨now, .inl rfl⟩
  | renew own other now until' =>
      obtain ⟨past, same⟩ := Option.ite_none_right_eq_some.mp step
      cases same
      obtain same | ⟨former, here, -, same⟩ := renewUsage_cases world.records own other now until'
      · rw [same]
        exact ⟨expiresAt, ⟨record, there, ready, lease⟩, .inl rfl⟩
      · obtain ⟨held, last, here', ready', lease', kept⟩ :=
          hasLease_set same here rfl rfl there ready lease (lt_of_le_of_lt past unexpired)
        refine ⟨last, ⟨held, here', ready', lease'⟩, ?_⟩
        obtain kept | ⟨rfl, rfl, rfl⟩ := kept
        · exact .inl kept
        · exact .inr ⟨now, .inr rfl⟩
  | release own other now =>
      obtain ⟨past, same⟩ := Option.ite_none_right_eq_some.mp step
      cases same
      refine ⟨expiresAt, ?_, .inl rfl⟩
      unfold HasLease
      dsimp only
      obtain ⟨-, same⟩ | ⟨former, here, same⟩ := releaseUsage_cases world.records own other now
      · rw [same]
        exact ⟨record, there, ready, lease⟩
      · rw [same, Dict.get?_set]
        split
        · next own_ =>
            subst own_
            obtain rfl := Option.some.inj (here.symm.trans there)
            have apart : leaseID ≠ other := fun same => unreleased now (same ▸ rfl)
            refine ⟨_, rfl, ready, ?_⟩
            rw [Dict.get?_erase, if_neg apart]
            exact get?_activeLeases lease (lt_of_le_of_lt past unexpired)
        · exact ⟨record, there, ready, lease⟩

end Leases

/-- A pass is about to have the builder delete the image of an environment. -/
def Deletes (world : World) (key : String) : Prop := ∃ process ∈ world.processes, process.deletes = some key

theorem Sound.deleting {key : String} (sound : Sound world) (deletes : world.Deletes key) :
    ∃ record, world.records.get? key = some record ∧ record.state = .deleting := by
  obtain ⟨process, listed, calls⟩ := deletes
  unfold Process.deletes at calls
  split at calls
  · cases calls
    obtain ⟨image, seen⟩ := sound.knows _ listed
    obtain ⟨record, here, deleting, -⟩ := view_eq_some.mp seen
    exact ⟨record, here, deleting⟩
  · cases calls

theorem acquireUsage_of_begun {key : String} (clean : AllClean world) (begun : world.deletionBegun key = true)
    (leaseID : String) (now expiresAt : ℤ) : (acquireUsage world.records key leaseID now expiresAt).2 = none := by
  unfold acquireUsage
  split
  · rfl
  · next record here => rw [if_pos ((clean key record here).unready begun)]

/-- In every run, no environment that has an active lease comes to the builder to be deleted; it is not
acquired between the beginning of its deletion and its next build; and a ready environment keeps each
lease until it expires or is released. Where no environment is released that is marked or being deleted
and no mark is older than the last use, an environment that comes to the builder has been neither acquired
nor released for the grace period. -/
theorem inUse_kept {labels : List Label} (run : (system policy).Run {} labels world) :
    (∀ key, world.Deletes key →
        ∀ record ∈ world.records.get? key, (activeLeases record world.clock).entries = []) ∧
      (∀ key, world.deletionBegun key = true → ∀ leaseID now expiresAt,
        (acquireUsage world.records key leaseID now expiresAt).2 = none) ∧
      (∀ label target, (system policy).step world label target → ∀ key leaseID expiresAt,
        world.HasLease key leaseID expiresAt → world.clock < expiresAt →
          (∀ now, label ≠ .release key leaseID now) →
            ∃ expiresAt', target.HasLease key leaseID expiresAt' ∧
              (expiresAt' = expiresAt ∨ label.Sets key leaseID expiresAt')) ∧
      (((system policy).restrict Careful).Run {} labels world → ∀ key, world.Deletes key →
        ∀ time ∈ world.touchedAt key, time + policy.deleteGraceSeconds * 1000 ≤ world.clock) := by
  have both : Sound world ∧ AllClean world := by
    apply run.preserves fun world => Sound world ∧ AllClean world
    · intro _ _ _ holds step
      exact ⟨holds.1.step step, holds.2.step holds.1 step⟩
    · exact ⟨sound_empty, nofun⟩
  obtain ⟨sound, clean⟩ := both
  refine ⟨fun key deletes record here => ?_, fun key begun => acquireUsage_of_begun clean begun,
    fun label target step key leaseID expiresAt => keeps_leases sound step, fun careful key deletes => ?_⟩
  · obtain ⟨record', here', deleting⟩ := sound.deleting deletes
    obtain rfl := Option.some.inj (here'.symm.trans here)
    have empty := (clean key record' here').unused deleting
    simp [activeLeases, Dict.filterValues, empty]
  · have rested : Sound world ∧ AllRested policy world := by
      apply careful.preserves fun world => Sound world ∧ AllRested policy world
      · intro _ _ _ holds step
        exact ⟨holds.1.step step.2, holds.2.step holds.1 step.1 step.2⟩
      · exact ⟨sound_empty, nofun⟩
    obtain ⟨record, here, deleting⟩ := sound.deleting deletes
    exact (rested.2 key record here).waited deleting

/-- Idle for a second, an environment is marked, and ten seconds later it is deleted. -/
def tenSeconds : PreparedEnvironmentGCPolicy where
  idleTTLSeconds := 1
  failedTTLSeconds := 60
  buildTTLSeconds := 60
  deleteGraceSeconds := 10
  quotaBytes := 0

def advances (position count : ℕ) : List Label := List.replicate count (.advance position .deleted)

/-- An environment is built, used at once, and left alone. -/
def usedOnce : List Label :=
  [Label.startBuild "a"] ++ advances 0 3 ++ [Label.advance 0 (.built "image" 1)] ++ advances 0 3 ++
    [Label.acquire "a" "lease" 0 500, .release "a" "lease" 0, .tick 1000, .startPass] ++ advances 1 9 ++
    [Label.tick 10000, .startPass] ++ advances 2 8

/-- It is deleted after the grace period. -/
theorem usedOnce_kept :
    let final := System.after (System.guarded Careful (next tenSeconds)) {} usedOnce
    ((system tenSeconds).restrict Careful).Run {} usedOnce final ∧ final.Deletes "a" ∧
      ∀ time ∈ final.touchedAt "a", time + tenSeconds.deleteGraceSeconds * 1000 ≤ final.clock := by
  have careful : ((system tenSeconds).restrict Careful).Run {} usedOnce
      (System.after (System.guarded Careful (next tenSeconds)) {} usedOnce) :=
    .ofGuarded Careful (by decide +kernel)
  have run : (system tenSeconds).Run {} usedOnce
      (System.after (System.guarded Careful (next tenSeconds)) {} usedOnce) := by
    apply careful.mono
    intro _ _ _ step
    exact step.2
  have deletes : (System.after (System.guarded Careful (next tenSeconds)) {} usedOnce).Deletes "a" := by
    unfold Deletes
    decide +kernel
  exact ⟨careful, deletes, (inUse_kept run).2.2.2 careful "a" deletes⟩

/-- It is used again after the first pass has listed it, and before that pass marks it. -/
def usedBeforeMark : List Label :=
  [Label.startBuild "a"] ++ advances 0 3 ++ [Label.advance 0 (.built "image" 1)] ++ advances 0 3 ++
    [Label.tick 1000, .startPass] ++ advances 1 4 ++
    [Label.tick 4000, .acquire "a" "lease" 5000 9000, .release "a" "lease" 5000] ++ advances 1 5 ++
    [Label.tick 6000, .startPass] ++ advances 2 8

/-- Its mark has the time of that pass, and it is deleted six seconds after it was released. -/
theorem usedBeforeMark_deleted :
    let final := System.after (next tenSeconds) {} usedBeforeMark
    (system tenSeconds).Run {} usedBeforeMark final ∧ final.Deletes "a" ∧
      ∃ time ∈ final.touchedAt "a", final.clock < time + tenSeconds.deleteGraceSeconds * 1000 := by
  refine ⟨.ofNext (by decide +kernel), ?_, by decide +kernel⟩
  unfold Deletes
  decide +kernel

end World

end Sico.TaskRuntime.Environments

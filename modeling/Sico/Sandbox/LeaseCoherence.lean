import Sico.Sandbox.TidyLeases

/-! # Leases and assignments agree

Every call that writes a lease or an assignment keeps the store tidy when it runs alone,
with one exception: an assignment that takes a sandbox from an instance whose ID was given
with spaces around it leaves the entry there. So the two sides agree after every sequence
of completed calls as long as no assignment does (`leases_paired`).
-/

namespace Sico.Sandbox

open Foundation Foundation.Keyspace

section Cleaning

/-- Alone, the program leaves a tidy store tidy. -/
def KeepsTidy {Result : Type} (program : Program Value Result) : Prop :=
  ∀ store, Tidy store → Tidy (program.alone store).1

variable {Result Later : Type} {instanceID : String}

theorem keepsTidy_done (result : Result) : KeepsTidy (.done result : Program Value Result) :=
  fun _ tidy => tidy

theorem KeepsTidy.bind {program : Program Value Result} {rest : Result → Program Value Later}
    (first : KeepsTidy program) (later : ∀ result, KeepsTidy (rest result)) :
    KeepsTidy (program.bind rest) := by
  intro store tidy
  rw [Program.alone_bind]
  exact later _ _ (first store tidy)

theorem getLease_alone (sandboxID : String) (next : Except ServiceError Lease → Call)
    {store : Redis} (tidy : Tidy store) :
    (∃ lease, store (.resourceLease sandboxID) = some lease ∧
      (getLease sandboxID next).alone store = (next (.ok lease)).alone store) ∨
    (store (.resourceLease sandboxID) = none ∧
      (getLease sandboxID next).alone store =
        (next (.error (.app .sandboxLeaseNotFound "sandbox not found"))).alone store) := by
  simp only [getLease, Program.alone]
  cases stored : store (.resourceLease sandboxID) with
  | none => exact .inr ⟨rfl, rfl⟩
  | some lease =>
      have name := (tidy.keyed sandboxID lease stored).1
      exact .inl ⟨lease, rfl, by simp [name]⟩

theorem keepsTidy_loadAssignedEntries (sandboxIDs : List String) (next : List Lease → Call)
    (rest : ∀ leases, KeepsTidy (next leases)) :
    KeepsTidy (loadAssignedEntries instanceID sandboxIDs next) := by
  induction sandboxIDs generalizing next with
  | nil => exact rest []
  | cons sandboxID later ih =>
      intro store tidy
      rw [loadAssignedEntries]
      obtain ⟨lease, stored, same⟩ | ⟨missing, same⟩ := getLease_alone sandboxID _ tidy
      · rw [same]
        dsimp only
        split_ifs with foreign
        · refine ih next rest _ (tidy.unlist ?_)
          rw [leaseUser_eq stored]
          simpa using foreign
        · exact ih _ (fun leases => rest (lease :: leases)) store tidy
      · rw [same]
        refine ih next rest _ (tidy.unlist ?_)
        simp [leaseUser, missing]

theorem keepsTidy_hasAssignedSandboxesStrict (instanceID : String) :
    KeepsTidy (hasAssignedSandboxesStrict instanceID) :=
  fun store tidy => keepsTidy_loadAssignedEntries _ _ (fun _ => keepsTidy_done _) store tidy

theorem keepsTidy_leasesOfInstance (sandboxIDs : List String) (next : List Lease → Call)
    (rest : ∀ leases, KeepsTidy (next leases)) :
    KeepsTidy (leasesOfInstance instanceID sandboxIDs next) := by
  induction sandboxIDs generalizing next with
  | nil => exact rest []
  | cons sandboxID later ih =>
      intro store tidy
      rw [leasesOfInstance]
      obtain ⟨lease, stored, same⟩ | ⟨missing, same⟩ := getLease_alone sandboxID _ tidy
      · rw [same]
        dsimp only
        split_ifs
        · exact ih next rest store tidy
        · exact ih _ (fun leases => rest (lease :: leases)) store tidy
      · rw [same]
        exact ih next rest store tidy

theorem keepsTidy_releaseForCleanup (lease : Lease) :
    KeepsTidy (releaseForCleanup instanceID lease) := by
  intro store tidy
  unfold releaseForCleanup
  split_ifs
  · obtain ⟨result, after, same, releases⟩ :=
      releaseSandbox_alone instanceID lease.sandboxID _ store
    rw [same]
    have later := tidy.releasesTo releases
    cases result with
    | ok _ => exact later
    | error error => exact later
  · exact tidy

theorem keepsTidy_cleanupSingleInstanceLease (lease : Lease) :
    KeepsTidy (cleanupSingleInstanceLease instanceID lease) := by
  refine (keepsTidy_releaseForCleanup lease).bind fun released => ?_
  split
  · exact keepsTidy_done _
  · have unassigned : KeepsTidy (unassignSandbox instanceID lease.sandboxID) := fun store tidy =>
      (Tidy.unassignment instanceID lease.sandboxID).alone tidy
    refine unassigned.bind fun result => ?_
    split
    all_goals exact keepsTidy_done _

theorem keepsTidy_cleanupInstanceLeases (leases : List Lease) (cleaned : ℕ)
    (firstErr : Option ServiceError) :
    KeepsTidy (cleanupInstanceLeases instanceID leases cleaned firstErr) := by
  induction leases generalizing cleaned firstErr with
  | nil => cases firstErr <;> exact keepsTidy_done _
  | cons lease rest ih =>
      rw [cleanupInstanceLeases]
      split_ifs
      · exact ih cleaned firstErr
      · refine (keepsTidy_cleanupSingleInstanceLease lease).bind fun result => ?_
        cases result with
        | ok removed => exact ih _ _
        | error error => exact ih _ _

theorem keepsTidy_cleanupInstanceSandboxes (instanceID : String) (keys : List String) :
    KeepsTidy (cleanupInstanceSandboxes instanceID keys) := by
  unfold cleanupInstanceSandboxes
  split_ifs
  · exact keepsTidy_done _
  · exact keepsTidy_leasesOfInstance keys _ fun leases => keepsTidy_cleanupInstanceLeases leases 0 none

end Cleaning

section Reconciling

variable {settings : PoolSettings} {observed : Observed} {now : ℤ} {store : Redis}

/-- What a reconciliation does about a lease under a key. -/
def decided (settings : PoolSettings) (observed : Observed) (now : ℤ) (key : String)
    (lease : Lease) : Reconciled :=
  match observed lease.type with
  | none => .left
  | some statuses => reconcileLeaseEntry settings now (statuses key) lease

/-- An entry that a reconciliation has read and not come to: its lease is still there for
the same instance, or an earlier entry of the same key has deleted it. -/
def Pending (settings : PoolSettings) (observed : Observed) (now : ℤ) (store : Redis)
    (key : String) (lease : Lease) : Prop :=
  lease.sandboxID = key ∧ lease.user ≠ "" ∧
    (leaseUser store key = some lease.user ∨
      (store (.resourceLease key) = none ∧ decided settings observed now key lease = .deleted))

theorem persisted_same {observedStatus : Option ResourceStatus} {lease written : Lease}
    (persisted : reconcileLeaseEntry settings now observedStatus lease = .persisted written) :
    written.user = lease.user ∧ written.sandboxID = lease.sandboxID := by
  unfold reconcileLeaseEntry at persisted
  split_ifs at persisted
  all_goals
    obtain rfl := Reconciled.persisted.inj persisted
    exact ⟨rfl, rfl⟩

theorem Pending.frame {after : Redis} {key : String} {lease : Lease}
    (pending : Pending settings observed now store key lease)
    (same : after (.resourceLease key) = store (.resourceLease key)) :
    Pending settings observed now after key lease := by
  obtain ⟨name, user, here | gone⟩ := pending
  · exact ⟨name, user, .inl (by rw [leaseUser, same]; exact here)⟩
  · exact ⟨name, user, .inr ⟨same.trans gone.1, gone.2⟩⟩

theorem Pending.rest {after : Redis} {key : String} {lease : Lease}
    {entries : List (String × Option Lease)}
    (pending : ∀ other found, (other, some found) ∈ (key, some lease) :: entries →
      Pending settings observed now store other found)
    (functional : ∀ other found again, (other, some found) ∈ (key, some lease) :: entries →
      (other, some again) ∈ (key, some lease) :: entries → found = again)
    (frame : ∀ other, other ≠ key → after (.resourceLease other) = store (.resourceLease other))
    (here : Pending settings observed now after key lease) :
    ∀ other found, (other, some found) ∈ entries → Pending settings observed now after other found := by
  intro other found listed
  have member := List.mem_cons_of_mem (key, some lease) listed
  by_cases same : other = key
  · subst same
    obtain rfl := functional other found lease member List.mem_cons_self
    exact here
  · exact (pending other found member).frame (frame other same)

theorem Tidy.reconcileEntries (entries : List (String × Option Lease)) (deleted : ℕ)
    (tidy : Tidy store)
    (pending : ∀ key lease, (key, some lease) ∈ entries →
      Pending settings observed now store key lease)
    (functional : ∀ key lease other, (key, some lease) ∈ entries → (key, some other) ∈ entries →
      lease = other) :
    Tidy ((Sandbox.reconcileEntries settings observed now entries deleted).alone store).1 := by
  induction entries generalizing deleted store with
  | nil => exact tidy
  | cons entry rest ih =>
      have functional' : ∀ key lease other, (key, some lease) ∈ rest → (key, some other) ∈ rest →
          lease = other := fun key lease other one two =>
        functional key lease other (List.mem_cons_of_mem _ one) (List.mem_cons_of_mem _ two)
      have skip (count : ℕ) :
          Tidy ((Sandbox.reconcileEntries settings observed now rest count).alone store).1 :=
        ih count tidy (fun key lease listed => pending key lease (List.mem_cons_of_mem _ listed))
          functional'
      obtain ⟨key, none | lease⟩ := entry
      · exact skip deleted
      · obtain ⟨name, user, present⟩ := pending key lease List.mem_cons_self
        rw [Sandbox.reconcileEntries]
        cases known : observed lease.type with
        | none => exact skip deleted
        | some statuses =>
            have decision : decided settings observed now key lease =
                reconcileLeaseEntry settings now (statuses key) lease := by
              simp only [decided, known]
            dsimp only
            cases outcome : reconcileLeaseEntry settings now (statuses key) lease with
            | left => exact skip deleted
            | persisted written =>
                obtain ⟨sameUser, sameName⟩ := persisted_same outcome
                have there : leaseUser store key = some lease.user := by
                  refine present.resolve_right fun gone => ?_
                  rw [decision, outcome] at gone
                  cases gone.2
                obtain ⟨earlier, stored, owner⟩ := Option.map_eq_some_iff.mp there
                have place : written.sandboxID = key := sameName.trans name
                have after := tidy.rewrite stored (sameUser.trans owner.symm)
                  (place.trans (tidy.keyed key earlier stored).1.symm)
                dsimp only [Program.alone, applyAll_cons, applyAll_nil]
                rw [place]
                refine ih deleted after (Pending.rest pending functional ?_ ?_) functional'
                · intro other away
                  exact Command.apply_other _ _ (by simpa [set] using away)
                · have now' := Command.apply_same (set (.resourceLease key) written) store
                  exact ⟨name, user, .inl ((leaseUser_eq now').trans (by rw [sameUser]))⟩
            | deleted =>
                have owner : ∀ found, leaseUser store key = some found → found = lease.user := by
                  intro found here
                  obtain there | gone := present
                  · rw [there] at here
                    exact (Option.some.inj here).symm
                  · simp [leaseUser, gone.1] at here
                have after := (tidy.delete owner).2
                have commands : deleteLeaseAndAssignment lease =
                    [del (.resourceLease key), hdel lease.user key] := by
                  simp [deleteLeaseAndAssignment, user, name]
                dsimp only [Program.alone]
                rw [commands]
                refine ih _ after (Pending.rest pending functional ?_ ?_) functional'
                · intro other away
                  exact applyAll_untouched (by simp [hdel, del, away]) store
                · refine ⟨name, user, .inr ⟨?_, decision.trans outcome⟩⟩
                  rw [applyAll_cons, applyAll_cons, applyAll_nil,
                    Command.apply_other _ _ (by simp [hdel])]
                  exact Command.apply_same (del (.resourceLease key)) store

theorem Tidy.reconcileLeaseProviderState (tidy : Tidy store) (settings : PoolSettings)
    (observed : Observed) (now : ℤ) (keys : List String) :
    Tidy ((Sandbox.reconcileLeaseProviderState settings observed now keys).alone store).1 := by
  have read : ∀ key lease, (key, some lease) ∈
      (keys.map fun key => (key, store (.resourceLease key))) →
      store (.resourceLease key) = some lease := by
    intro key lease listed
    obtain ⟨other, -, same⟩ := List.mem_map.mp listed
    obtain ⟨rfl, found⟩ := Prod.mk.inj same
    exact found
  refine tidy.reconcileEntries _ 0 ?_ ?_
  · intro key lease listed
    have stored := read key lease listed
    refine ⟨(tidy.keyed key lease stored).1, ?_, .inl (leaseUser_eq stored)⟩
    intro empty
    exact tidy.named key (empty ▸ leaseUser_eq stored)
  · intro key lease other one two
    exact Option.some.inj ((read key lease one).symm.trans (read key other two))

end Reconciling

/-- A lease of a sandbox for an instance exists exactly when the assignments of the instance
list the sandbox, and then those of no other instance do. -/
def Agree (store : Redis) : Prop :=
  ∀ sandboxID instanceID,
    ((∃ lease, store (.resourceLease sandboxID) = some lease ∧ lease.user = instanceID) ↔
      sandboxID ∈ assignments store instanceID) ∧
    (sandboxID ∈ assignments store instanceID →
      ∀ other, sandboxID ∈ assignments store other → other = instanceID)

theorem agree_iff_paired {store : Redis} : Agree store ↔ Paired store := by
  have user : ∀ sandboxID instanceID, leaseUser store sandboxID = some instanceID ↔
      ∃ lease, store (.resourceLease sandboxID) = some lease ∧ lease.user = instanceID :=
    fun _ _ => Option.map_eq_some_iff
  constructor
  · intro agree sandboxID instanceID
    exact (user sandboxID instanceID).trans (agree sandboxID instanceID).1
  · intro paired sandboxID instanceID
    refine ⟨(user sandboxID instanceID).symm.trans (paired sandboxID instanceID), ?_⟩
    intro listed other also
    have one := (paired sandboxID instanceID).mpr listed
    have two := (paired sandboxID other).mpr also
    exact Option.some.inj (two.symm.trans one)

/-- An assignment finds no lease of another instance whose ID has spaces around it. -/
def TakesFromPlain (store : Redis) : LeaseCall → Prop
  | .tenant (.assignSandbox _ _ instanceID sandboxID) =>
      ∀ existing, store (.resourceLease sandboxID) = some existing →
        existing.user = instanceID ∨ trimSpace existing.user = existing.user
  | _ => True

theorem Directory.instanceProject_empty (directory : Directory) :
    directory.instanceProject "" = none := rfl

theorem Tidy.plain_of_paired {store : Redis} (tidy : Tidy store) {lease : Lease}
    {oldInstanceID : String}
    (loaded : loadExistingAssignmentOwner (store (.resourceLease lease.sandboxID)) lease.user =
      .ok oldInstanceID)
    (paired : Paired (applyAll (assignCommands lease.user oldInstanceID lease) store))
    {existing : Lease} (stored : store (.resourceLease lease.sandboxID) = some existing) :
    existing.user = lease.user ∨ trimSpace existing.user = existing.user := by
  by_contra spaced
  rw [not_or] at spaced
  rw [stored] at loaded
  have old := loadExistingAssignmentOwner_eq loaded
  have listed := (tidy.paired lease.sandboxID existing.user).mp (leaseUser_eq stored)
  have kept := (mem_assignments_assign lease.user oldInstanceID lease).mpr
    (.inl ⟨listed, fun moved => spaced.2 (old.symm.trans moved.2.2.1.symm)⟩)
  have found := (paired lease.sandboxID existing.user).mpr kept
  rw [leaseUser_eq (assignCommands_lease _ _ _ _)] at found
  exact spaced.1 (Option.some.inj found).symm

/-- **One call.** A call that takes from no spaced instance keeps the store tidy, and one
that changes a tidy store and leaves the two sides in agreement is such a call. -/
theorem Tidy.step {directory : Directory} {before after : Redis} {call : LeaseCall}
    (tidy : Tidy before) (step : (leaseCalls directory).step before call after) :
    (TakesFromPlain before call → Tidy after) ∧
      (after ≠ before → Paired after → TakesFromPlain before call) := by
  obtain rfl := step
  cases call with
  | tenant call =>
      cases call with
      | assignSandbox snapshots now instanceID sandboxID =>
          obtain same | ⟨assigns, lease, oldInstanceID, rfl, rfl, loaded, written⟩ :=
            assignSandbox_alone directory snapshots now instanceID sandboxID before
          · rw [LeaseCall.program, TenantCall.program, same]
            exact ⟨fun _ => tidy, fun changed => absurd rfl changed⟩
          · obtain ⟨projectID, project, -⟩ := assigns.project
            have user : lease.user ≠ "" := by
              intro empty
              rw [empty, directory.instanceProject_empty] at project
              cases project
            rw [LeaseCall.program, TenantCall.program, written]
            exact ⟨fun plain => tidy.assign assigns.named user plain loaded,
              fun _ paired _ stored => tidy.plain_of_paired loaded paired stored⟩
      | unassignSandbox instanceID sandboxID =>
          exact ⟨fun _ => (Tidy.unassignment instanceID sandboxID).alone tidy,
            fun _ _ => trivial⟩
      | scope call =>
          exact ⟨fun _ => tidy.scopeCall directory.organizationOf call, fun _ _ => trivial⟩
  | hasAssignedSandboxesStrict instanceID =>
      exact ⟨fun _ => keepsTidy_hasAssignedSandboxesStrict instanceID before tidy,
        fun _ _ => trivial⟩
  | cleanupInstanceSandboxes instanceID keys =>
      exact ⟨fun _ => keepsTidy_cleanupInstanceSandboxes instanceID keys before tidy,
        fun _ _ => trivial⟩
  | reconcile settings observed now keys =>
      exact ⟨fun _ => tidy.reconcileLeaseProviderState settings observed now keys,
        fun _ _ => trivial⟩

theorem tidy_empty : Tidy fun _ => none where
  paired sandboxID instanceID := by simp [leaseUser, assignments]
  keyed sandboxID lease stored := by cases stored
  named sandboxID := by simp [leaseUser]

/-- **Leases and assignments agree.** After every sequence of completed calls from a tidy
store, none of which took a sandbox from an instance whose ID has spaces around it, the
leases and the assignments agree. A further call that changes the store keeps them in
agreement exactly when it is such a call. -/
theorem leases_paired (directory : Directory) {start final : Redis} {calls : List LeaseCall}
    (tidy : Tidy start)
    (run : ((leaseCalls directory).restrict TakesFromPlain).Run start calls final) :
    Agree final ∧ ∀ call after, (leaseCalls directory).step final call after → after ≠ final →
      (Agree after ↔ TakesFromPlain final call) := by
  have ended : Tidy final := by
    refine run.preserves Tidy (fun before call after here step => ?_) tidy
    exact (here.step step.2).1 step.1
  refine ⟨agree_iff_paired.mpr ended.paired, fun call after step changed => ?_⟩
  have next := ended.step step
  rw [agree_iff_paired]
  exact ⟨next.2 changed, fun plain => (next.1 plain).paired⟩

def twoInstances : Directory where
  projectOf instanceID := if instanceID = 5 ∨ instanceID = 6 then some 10 else none
  organizationOf projectID := if projectID = 10 then some 100 else none

def assignEmulator (instanceID : String) : LeaseCall :=
  .tenant (.assignSandbox oneResource 0 instanceID "emulator:a")

theorem leases_paired_reassigned :
    ∃ final, ((leaseCalls twoInstances).restrict TakesFromPlain).Run (fun _ => none)
        [assignEmulator "5", assignEmulator "6"] final ∧
      assignments final "6" = ["emulator:a"] ∧ Agree final := by
  have run : ((leaseCalls twoInstances).restrict TakesFromPlain).Run (fun _ => none)
      [assignEmulator "5", assignEmulator "6"]
      (((assignEmulator "6").program twoInstances).alone
        (((assignEmulator "5").program twoInstances).alone fun _ => none).1).1 := by
    refine .cons ⟨?_, rfl⟩ (.cons ⟨?_, rfl⟩ .nil)
    · exact fun existing stored => nomatch stored
    · intro existing stored
      have user : leaseUser (((assignEmulator "5").program twoInstances).alone fun _ => none).1
          "emulator:a" = some "5" := by decide +kernel
      rw [leaseUser_eq stored] at user
      rw [Option.some.inj user]
      exact .inr (by decide)
  exact ⟨_, run, by decide +kernel, (leases_paired twoInstances tidy_empty run).1⟩

/-- The entry of an instance whose ID was given with a space stays behind. -/
theorem spaced_instance_keeps_entry :
    ∃ final, (leaseCalls twoInstances).Run (fun _ => none)
        [assignEmulator " 5", assignEmulator "6"] final ∧ ¬ Agree final := by
  refine ⟨_, .cons rfl (.cons rfl .nil), fun agree => ?_⟩
  have only := (agree "emulator:a" "6").2 (by decide +kernel) " 5" (by decide +kernel)
  exact absurd only (by decide)

end Sico.Sandbox

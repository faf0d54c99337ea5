import Sico.Sandbox.LeaseCleanup

/-! # Tidy stores

A sandbox is leased to an instance exactly when the hash of the instance lists it. The
unassignments and the release from a project delete both sides, and an assignment moves
both. It goes by a text that it has changed, though: it trims the user of the lease it
replaces before it looks for the hash, while both sides are written under the instance ID
as it was given.
-/

namespace Sico.Sandbox

open Foundation Foundation.Keyspace

def leaseUser (store : Redis) (sandboxID : String) : Option String :=
  (store (.resourceLease sandboxID)).map Lease.user

/-- The lease names an instance exactly when the assignments of the instance list the
sandbox. -/
def Paired (store : Redis) : Prop :=
  ∀ sandboxID instanceID,
    leaseUser store sandboxID = some instanceID ↔ sandboxID ∈ assignments store instanceID

/-- A store whose leases are listed, stand under their IDs and name an instance. -/
structure Tidy (store : Redis) : Prop where
  paired : Paired store
  keyed : Keyed store
  named : ∀ sandboxID, leaseUser store sandboxID ≠ some ""

section Views

variable {store : Redis} {instanceID other sandboxID field : String}

theorem leaseUser_eq {lease : Lease} (stored : store (.resourceLease sandboxID) = some lease) :
    leaseUser store sandboxID = some lease.user := by
  rw [leaseUser, stored]
  rfl

theorem mem_assignments_hdel :
    sandboxID ∈ assignments ((hdel instanceID field).apply store) other ↔
      sandboxID ∈ assignments store other ∧ ¬ (other = instanceID ∧ sandboxID = field) := by
  by_cases same : other = instanceID
  · subst same
    have changed : (hdel other field).apply store (.assign other) =
        (hdel other field).change (store (.assign other)) :=
      Command.apply_same (hdel other field) store
    have rest : Option.getD (α := List (String × String))
        ((hdel other field).change (store (.assign other))) [] =
        (Option.getD (α := List (String × String)) (store (.assign other)) []).filter (·.1 ≠ field) := by
      simp only [hdel]
      split
      · next empty => rw [empty]; rfl
      · rfl
    rw [assignments, changed, rest, assignments]
    simp only [List.mem_map, List.mem_filter]
    constructor
    · rintro ⟨entry, ⟨listed, kept⟩, rfl⟩
      exact ⟨⟨entry, listed, rfl⟩, by simpa using kept⟩
    · rintro ⟨⟨entry, listed, rfl⟩, kept⟩
      exact ⟨entry, ⟨listed, by simpa using kept⟩, rfl⟩
  · have kept : (hdel instanceID field).apply store (.assign other) = store (.assign other) :=
      Command.apply_other _ _ (by simpa [hdel] using same)
    simp [assignments, kept, same]

theorem mem_assignments_hset (type : String) :
    sandboxID ∈ assignments ((hset instanceID field type).apply store) other ↔
      sandboxID ∈ assignments store other ∨ (other = instanceID ∧ sandboxID = field) := by
  by_cases same : other = instanceID
  · subst same
    have changed : (hset other field type).apply store (.assign other) =
        (hset other field type).change (store (.assign other)) :=
      Command.apply_same (hset other field type) store
    rw [assignments, changed, assignments]
    simp only [hset, Option.getD_some, List.map_cons, List.mem_cons, List.mem_map, List.mem_filter]
    by_cases here : sandboxID = field
    · simp [here]
    · constructor
      · rintro (equal | ⟨entry, ⟨listed, kept⟩, rfl⟩)
        · exact absurd equal here
        · exact .inl ⟨entry, listed, rfl⟩
      · rintro (⟨entry, listed, rfl⟩ | ⟨_, equal⟩)
        · exact .inr ⟨entry, ⟨listed, by simpa using here⟩, rfl⟩
        · exact absurd equal here
  · have kept : (hset instanceID field type).apply store (.assign other) = store (.assign other) :=
      Command.apply_other _ _ (by simpa [hset] using same)
    simp [assignments, kept, same]

theorem leaseUser_hdel :
    leaseUser ((hdel instanceID field).apply store) sandboxID = leaseUser store sandboxID := by
  rw [leaseUser, Command.apply_other _ _ (by simp [hdel])]
  rfl

end Views

namespace Tidy

variable {before after store : Redis} {instanceID sandboxID : String}

theorem user_of_listed (tidy : Tidy store) (listed : sandboxID ∈ assignments store instanceID) :
    leaseUser store sandboxID = some instanceID := (tidy.paired sandboxID instanceID).mpr listed

theorem of_frame (tidy : Tidy before)
    (leases : ∀ sandboxID, after (.resourceLease sandboxID) = before (.resourceLease sandboxID))
    (assigned : ∀ instanceID, after (.assign instanceID) = before (.assign instanceID)) :
    Tidy after where
  paired sandboxID instanceID := by
    rw [leaseUser, leases, assignments, assigned]
    exact tidy.paired sandboxID instanceID
  keyed sandboxID lease stored := tidy.keyed sandboxID lease (leases sandboxID ▸ stored)
  named sandboxID := by
    rw [leaseUser, leases]
    exact tidy.named sandboxID

theorem of_command (tidy : Tidy store) {command : RedisCommand}
    (lease : ∀ sandboxID, command.key ≠ .resourceLease sandboxID)
    (assigned : ∀ instanceID, command.key ≠ .assign instanceID) : Tidy (command.apply store) :=
  tidy.of_frame (fun sandboxID => command.apply_other store (lease sandboxID).symm)
    fun instanceID => command.apply_other store (assigned instanceID).symm

theorem unlist (tidy : Tidy store) (foreign : leaseUser store sandboxID ≠ some instanceID) :
    Tidy ((hdel instanceID sandboxID).apply store) where
  paired other user := by
    rw [leaseUser_hdel, mem_assignments_hdel, tidy.paired]
    constructor
    · intro listed
      refine ⟨listed, ?_⟩
      rintro ⟨rfl, rfl⟩
      exact foreign (tidy.user_of_listed listed)
    · exact fun listed => listed.1
  keyed other lease stored := by
    rw [Command.apply_other _ _ (by simp [hdel])] at stored
    exact tidy.keyed other lease stored
  named other := by
    rw [leaseUser_hdel]
    exact tidy.named other

theorem rewrite (tidy : Tidy store) {earlier written : Lease}
    (stored : store (.resourceLease sandboxID) = some earlier) (user : written.user = earlier.user)
    (name : written.sandboxID = earlier.sandboxID) :
    Tidy ((set (.resourceLease sandboxID) written).apply store) := by
  have users : ∀ other,
      leaseUser ((set (.resourceLease sandboxID) written).apply store) other =
        leaseUser store other := by
    intro other
    by_cases here : other = sandboxID
    · subst here
      have now : (set (.resourceLease other) written).apply store (.resourceLease other) =
          some written := Command.apply_same (set (.resourceLease other) written) store
      rw [leaseUser_eq now, leaseUser_eq stored, user]
    · rw [leaseUser, Command.apply_other _ _ (by simpa [set] using here)]
      rfl
  refine ⟨fun other instanceID => ?_, fun other lease found => ?_, fun other => ?_⟩
  · rw [users, assignments, Command.apply_other _ _ (by simp [set])]
    exact tidy.paired other instanceID
  · by_cases here : other = sandboxID
    · subst here
      have now : (set (.resourceLease other) written).apply store (.resourceLease other) =
          some written := Command.apply_same (set (.resourceLease other) written) store
      obtain rfl := Option.some.inj (now.symm.trans found)
      rw [name]
      exact tidy.keyed other earlier stored
    · rw [Command.apply_other _ _ (by simpa [set] using here)] at found
      exact tidy.keyed other lease found
  · rw [users]
    exact tidy.named other

theorem removed (tidy : Tidy before) (gone : after (.resourceLease sandboxID) = none)
    (leases : ∀ other, other ≠ sandboxID →
      after (.resourceLease other) = before (.resourceLease other))
    (assigned : ∀ other user, other ∈ assignments after user ↔
      other ∈ assignments before user ∧ ¬ (user = instanceID ∧ other = sandboxID))
    (owner : ∀ user, leaseUser before sandboxID = some user → user = instanceID) : Tidy after := by
  have none : leaseUser after sandboxID = none := by rw [leaseUser, gone]; rfl
  have users : ∀ other, other ≠ sandboxID → leaseUser after other = leaseUser before other := by
    intro other away
    rw [leaseUser, leases other away]
    rfl
  refine ⟨fun other user => ?_, fun other lease found => ?_, fun other => ?_⟩
  · rw [assigned, ← tidy.paired]
    by_cases here : other = sandboxID
    · subst here
      rw [none]
      constructor
      · intro impossible
        cases impossible
      · exact fun ⟨found, kept⟩ => absurd ⟨owner user found, rfl⟩ kept
    · rw [users other here]
      exact ⟨fun found => ⟨found, fun same => here same.2⟩, fun found => found.1⟩
  · have away : other ≠ sandboxID := by
      rintro rfl
      rw [gone] at found
      cases found
    exact tidy.keyed other lease (leases other away ▸ found)
  · by_cases here : other = sandboxID
    · rw [here, none]
      simp
    · rw [users other here]
      exact tidy.named other

theorem given (tidy : Tidy before) {lease : Lease}
    (written : after (.resourceLease lease.sandboxID) = some lease)
    (sandbox : lease.sandboxID ≠ "") (user : lease.user ≠ "")
    (leases : ∀ other, other ≠ lease.sandboxID →
      after (.resourceLease other) = before (.resourceLease other))
    (assigned : ∀ other instanceID, other ∈ assignments after instanceID ↔
      (other ∈ assignments before instanceID ∧ other ≠ lease.sandboxID) ∨
        (instanceID = lease.user ∧ other = lease.sandboxID)) : Tidy after := by
  have users : ∀ other, other ≠ lease.sandboxID → leaseUser after other = leaseUser before other := by
    intro other away
    rw [leaseUser, leases other away]
    rfl
  refine ⟨fun other instanceID => ?_, fun other found stored => ?_, fun other => ?_⟩
  · rw [assigned, ← tidy.paired]
    by_cases here : other = lease.sandboxID
    · subst here
      rw [leaseUser_eq written]
      simp [eq_comm]
    · rw [users other here]
      simp [here]
  · by_cases here : other = lease.sandboxID
    · subst here
      obtain rfl := Option.some.inj (written.symm.trans stored)
      exact ⟨rfl, sandbox⟩
    · exact tidy.keyed other found (leases other here ▸ stored)
  · by_cases here : other = lease.sandboxID
    · rw [here, leaseUser_eq written]
      simpa using user
    · rw [users other here]
      exact tidy.named other

theorem delete (tidy : Tidy store)
    (owner : ∀ user, leaseUser store sandboxID = some user → user = instanceID) :
    Tidy (applyAll [hdel instanceID sandboxID, del (.resourceLease sandboxID)] store) ∧
      Tidy (applyAll [del (.resourceLease sandboxID), hdel instanceID sandboxID] store) := by
  constructor
  · refine tidy.removed (Command.apply_same (del (.resourceLease sandboxID)) _) ?_ ?_ owner
    · intro other away
      exact applyAll_untouched (by simp [hdel, del, away]) store
    · intro other user
      rw [applyAll_cons, applyAll_cons, applyAll_nil, assignments,
        Command.apply_other (del (.resourceLease sandboxID)) _ (by simp [del])]
      exact mem_assignments_hdel
  · refine tidy.removed ?_ ?_ ?_ owner
    · rw [applyAll_cons, applyAll_cons, applyAll_nil, Command.apply_other _ _ (by simp [hdel])]
      exact Command.apply_same (del (.resourceLease sandboxID)) store
    · intro other away
      exact applyAll_untouched (by simp [hdel, del, away]) store
    · intro other user
      rw [applyAll_cons, applyAll_cons, applyAll_nil, mem_assignments_hdel, assignments,
        Command.apply_other (del (.resourceLease sandboxID)) _ (by simp [del])]
      rfl

theorem unleased (tidy : Tidy store)
    (missing : ∀ lease, store (.resourceLease sandboxID) = some lease →
      lease.sandboxID ≠ sandboxID) : store (.resourceLease sandboxID) = none := by
  cases stored : store (.resourceLease sandboxID) with
  | none => rfl
  | some lease => exact absurd (tidy.keyed sandboxID lease stored).1 (missing lease stored)

theorem releasesTo (tidy : Tidy before) {result : Except ServiceError Unit}
    (releases : ReleasesTo sandboxID before after result) : Tidy after := by
  obtain rfl | ⟨lease, stored, rfl⟩ := releases.effect
  · exact tidy
  · have written : Tidy ((set (.resourceLease sandboxID) { lease with inUse := false }).apply before) :=
      tidy.rewrite stored rfl rfl
    exact written.of_command (by simp [set]) (by simp [set])

theorem unassignment (instanceID sandboxID : String) :
    KeptByUnassignment Tidy instanceID sandboxID where
  released _ _ _ tidy releases := tidy.releasesTo releases
  cleared store tidy missing := by
    apply tidy.unlist
    rw [leaseUser, tidy.unleased missing]
    simp
  removed store lease tidy stored owner := by
    refine (tidy.delete fun user found => ?_).1
    rw [leaseUser_eq stored] at found
    exact (Option.some.inj found).symm.trans owner

end Tidy

section Assigning

variable {store : Redis} {instanceID oldInstanceID : String} {lease : Lease}

theorem mem_assignments_assign (instanceID oldInstanceID : String) (lease : Lease)
    {other user : String} :
    other ∈ assignments (applyAll (assignCommands instanceID oldInstanceID lease) store) user ↔
      (other ∈ assignments store user ∧
          ¬ (oldInstanceID ≠ "" ∧ oldInstanceID ≠ instanceID ∧ user = oldInstanceID ∧
            other = lease.sandboxID)) ∨
        (user = instanceID ∧ other = lease.sandboxID) := by
  rw [assignCommands, applyAll_append, applyAll_cons, applyAll_cons, applyAll_nil,
    mem_assignments_hset, assignments, Command.apply_other (set _ _) _ (by simp [set]),
    ← assignments]
  split_ifs with moved
  · rw [applyAll_cons, applyAll_nil, mem_assignments_hdel]
    tauto
  · rw [applyAll_nil]
    tauto

/-- The instance that an assignment takes the sandbox from, where the user of the lease is
its ID as it was given. -/
theorem loadExistingAssignmentOwner_eq {existing : Lease}
    (loaded : loadExistingAssignmentOwner (some existing) instanceID = .ok oldInstanceID) :
    oldInstanceID = trimSpace existing.user := by
  unfold loadExistingAssignmentOwner at loaded
  dsimp only at loaded
  split_ifs at loaded
  · exact (Except.ok.inj loaded).symm
  · exact (Except.ok.inj loaded).symm

/-- **An assignment** moves the entry with the lease, unless the lease it replaces is of
another instance whose ID has spaces around it. -/
theorem Tidy.assign (tidy : Tidy store) (sandbox : lease.sandboxID ≠ "") (user : lease.user ≠ "")
    (plain : ∀ existing, store (.resourceLease lease.sandboxID) = some existing →
      existing.user = lease.user ∨ trimSpace existing.user = existing.user)
    (loaded : loadExistingAssignmentOwner (store (.resourceLease lease.sandboxID)) lease.user =
      .ok oldInstanceID) :
    Tidy (applyAll (assignCommands lease.user oldInstanceID lease) store) := by
  refine tidy.given (assignCommands_lease _ _ _ _) sandbox user ?_ ?_
  · exact fun other away => assignCommands_other (by simp) (by simpa using away) store
  · intro other instanceID
    rw [mem_assignments_assign]
    refine or_congr_left' fun elsewhere => and_congr_right fun listed => ?_
    -- the entry of this sandbox is that of the lease which is replaced
    constructor
    · rintro kept rfl
      have found := tidy.user_of_listed listed
      cases stored : store (.resourceLease lease.sandboxID) with
      | none => simp [leaseUser, stored] at found
      | some existing =>
          rw [leaseUser_eq stored] at found
          obtain rfl := Option.some.inj found
          have trimmed : trimSpace existing.user = existing.user := by
            obtain same | trimmed := plain existing stored
            · exact absurd ⟨same, rfl⟩ elsewhere
            · exact trimmed
          rw [stored] at loaded
          have old := (loadExistingAssignmentOwner_eq loaded).trans trimmed
          have nonempty : existing.user ≠ "" := by
            intro empty
            exact tidy.named lease.sandboxID (empty ▸ leaseUser_eq stored)
          exact kept ⟨old ▸ nonempty, fun same => elsewhere ⟨old ▸ same, rfl⟩, old.symm, rfl⟩
    · exact fun away moved => away moved.2.2.2

end Assigning

section Scopes

variable {store : Redis}

def leasesUnder (store : Redis) (sandboxIDs : List String) : List (String × Lease) :=
  sandboxIDs.filterMap fun sandboxID =>
    (store (.resourceLease sandboxID)).map fun lease => (sandboxID, lease)

theorem lookup_leasesUnder (sandboxIDs : List String) (sandboxID : String) :
    (leasesUnder store sandboxIDs).lookup sandboxID =
      if sandboxID ∈ sandboxIDs then store (.resourceLease sandboxID) else none := by
  induction sandboxIDs with
  | nil => rfl
  | cons first rest ih =>
      by_cases here : sandboxID = first
      · subst here
        cases stored : store (.resourceLease sandboxID) with
        | none =>
            have same : leasesUnder store (sandboxID :: rest) = leasesUnder store rest := by
              simp [leasesUnder, stored]
            rw [same, ih, stored]
            simp
        | some lease => simp [leasesUnder, stored]
      · have skipped : (leasesUnder store (first :: rest)).lookup sandboxID =
            (leasesUnder store rest).lookup sandboxID := by
          cases stored : store (.resourceLease first) with
          | none => simp [leasesUnder, stored]
          | some lease =>
              have apart : (sandboxID == first) = false := by simpa using here
              simp [leasesUnder, stored, List.lookup_cons, apart]
        rw [skipped, ih]
        simp [here]

theorem loadProjectUnassignmentLeases_alone (projectID : ℤ) (sandboxIDs : List String)
    (next : List (String × Lease) → Call) (store : Redis) :
    ((loadProjectUnassignmentLeases projectID sandboxIDs next).alone store).1 = store ∨
      (loadProjectUnassignmentLeases projectID sandboxIDs next).alone store =
        (next (leasesUnder store sandboxIDs)).alone store := by
  induction sandboxIDs generalizing next with
  | nil => exact .inr rfl
  | cons sandboxID rest ih =>
      simp only [loadProjectUnassignmentLeases, Program.alone]
      split_ifs
      · exact .inl rfl
      · simp only [Program.alone]
        obtain same | same := ih fun leases =>
          next ((store (.resourceLease sandboxID)).elim leases fun lease => (sandboxID, lease) :: leases)
        · exact .inl same
        · refine .inr (same.trans ?_)
          cases stored : store (.resourceLease sandboxID) with
          | none => simp [leasesUnder, stored]
          | some lease => simp [leasesUnder, stored]

theorem Tidy.removeLease (tidy : Tidy store) {sandboxID : String} {lease : Option Lease}
    (named : ∀ found, lease = some found → found.user ≠ "")
    (stored : store (.resourceLease sandboxID) = lease ∨ store (.resourceLease sandboxID) = none) :
    Tidy (applyAll (Sandbox.removeLease sandboxID lease) store) := by
  cases lease with
  | none => exact tidy
  | some lease =>
      have owner : ∀ user, leaseUser store sandboxID = some user → user = lease.user := by
        intro user found
        obtain here | gone := stored
        · rw [leaseUser_eq here] at found
          exact (Option.some.inj found).symm
        · simp [leaseUser, gone] at found
      have both := (tidy.delete owner).1
      simp only [Sandbox.removeLease, named lease rfl, ne_eq, not_false_eq_true, if_true,
        List.singleton_append, applyAll_append]
      split_ifs
      · exact both.of_command (by simp [set]) (by simp [set])
      · exact both

theorem Tidy.writeProjectUnassignment {leases : List (String × Lease)} (projectID : ℤ)
    (named : ∀ sandboxID found, leases.lookup sandboxID = some found → found.user ≠ "")
    {sandboxIDs : List String} (tidy : Tidy store)
    (stored : ∀ sandboxID ∈ sandboxIDs,
      store (.resourceLease sandboxID) = leases.lookup sandboxID ∨
        store (.resourceLease sandboxID) = none) :
    Tidy (applyAll (Sandbox.writeProjectUnassignment projectID sandboxIDs leases) store) := by
  induction sandboxIDs generalizing store with
  | nil => exact tidy
  | cons sandboxID rest ih =>
      have split : Sandbox.writeProjectUnassignment projectID (sandboxID :: rest) leases =
          Sandbox.writeProjectUnassignment projectID [sandboxID] leases ++
            Sandbox.writeProjectUnassignment projectID rest leases := by
        simp [Sandbox.writeProjectUnassignment]
      rw [split, applyAll_append]
      apply ih
      · have removed := tidy.removeLease (named sandboxID) (stored sandboxID List.mem_cons_self)
        simp only [Sandbox.writeProjectUnassignment, List.flatMap_cons, List.flatMap_nil,
          List.append_nil, applyAll_append, applyAll_cons, applyAll_nil]
        exact (removed.of_command (by simp [del]) (by simp [del])).of_command
          (by simp [srem]) (by simp [srem])
      · intro other member
        cases found : applyAll (Sandbox.writeProjectUnassignment projectID [sandboxID] leases) store
            (.resourceLease other) with
        | none => exact .inr rfl
        | some lease =>
            have before := writeProjectUnassignment_leases found
            have known := stored other (List.mem_cons_of_mem _ member)
            rw [before] at known
            exact .inl (known.resolve_right (by simp))

theorem Tidy.of_scope {after : Redis} (tidy : Tidy store)
    (outside : ∀ key : Key, ¬ key.IsScope → key ≠ .initialOrgClaim → after key = store key) :
    Tidy after :=
  tidy.of_frame (fun _ => outside _ id (by simp)) fun _ => outside _ id (by simp)

theorem Tidy.unassignSandboxFromProject (tidy : Tidy store) (projectID : ℤ)
    (requested : List String) :
    Tidy ((Sandbox.unassignSandboxFromProject projectID requested).alone store).1 := by
  unfold Sandbox.unassignSandboxFromProject
  split
  · exact tidy
  · next sandboxIDs _ =>
      simp only [runScopeMutation, Program.alone]
      obtain same | same := loadProjectUnassignmentLeases_alone projectID sandboxIDs _ store
      · rw [same]
        exact tidy
      · rw [same]
        refine tidy.writeProjectUnassignment projectID ?_ ?_
        · intro sandboxID found listed empty
          rw [lookup_leasesUnder] at listed
          split_ifs at listed
          exact tidy.named sandboxID (empty ▸ leaseUser_eq listed)
        · intro sandboxID member
          rw [lookup_leasesUnder, if_pos member]
          exact .inl rfl

theorem Tidy.scopeCall (tidy : Tidy store) (organizationOf : ℤ → Option ℤ) (call : ScopeCall) :
    Tidy ((call.program organizationOf).alone store).1 := by
  obtain same | ⟨program, writes⟩ := call.alone organizationOf store
  · rw [same]
    exact tidy
  · cases call with
    | assignSandboxToOrg orgID available requested =>
        obtain ⟨sandboxIDs, _, _, after⟩ := writes
        rw [after]
        exact tidy.of_scope fun key scope _ => bindCommands_outside scope _ _ _ _
    | claimUnassignedSandboxesForOrg orgID listed missing =>
        obtain ⟨sandboxIDs, _, ⟨_, after⟩ | ⟨_, after⟩⟩ := writes
        · rw [after]
          exact tidy
        · rw [after]
          refine tidy.of_scope fun key scope claim => ?_
          rw [applyAll_append, applyAll_cons, applyAll_nil, Command.apply_other _ _ claim]
          exact bindCommands_outside scope _ _ _ _
    | unassignSandboxFromOrg orgID requested =>
        obtain ⟨sandboxIDs, _, _, after⟩ := writes
        rw [after]
        refine tidy.of_scope fun key scope _ => ?_
        rw [unbindCommands_eq]
        exact rebinding_outside scope (by simp) (fun _ => ⟨orgID, rfl⟩) _ _
    | assignSandboxToProject projectID orgID available requested =>
        obtain ⟨sandboxIDs, _, _, after⟩ := writes
        rw [after]
        exact tidy.of_scope fun key scope _ => bindCommands_outside scope _ _ _ _
    | unassignSandboxFromProject projectID requested =>
        exact tidy.unassignSandboxFromProject projectID requested

end Scopes

end Sico.Sandbox

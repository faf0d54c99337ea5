import Sico.Sandbox.Assignment
import Sico.Sandbox.ScopeCoherence

/-! # Tenant isolation of leases

Calls run one after another, each alone. An assignment checks the scopes of the
sandbox when it writes the lease, and releasing a sandbox from its project removes the
lease. Binding a sandbox that is already leased checks nothing about the lease: the
lease stays within the sandbox's scopes exactly as long as no call binds a leased
sandbox to a scope of which its instance is no part (`leases_isolated`).
-/

namespace Sico.Sandbox

open Foundation Foundation.Keyspace

/-- The project of the instance that an ID denotes. -/
def Directory.instanceProject (directory : Directory) (instanceID : String) : Option ℤ :=
  (getInstanceByStringID directory instanceID).toOption

/-- The instance belongs to a project of the organization. -/
def Directory.Within (directory : Directory) (instanceID : String) (orgID : ℤ) : Prop :=
  ∃ projectID, directory.instanceProject instanceID = some projectID ∧
    directory.organizationOf projectID = some orgID

/-- **Isolation.** A leased sandbox is leased to an instance of its organization and of
its project. -/
structure Isolated (directory : Directory) (store : Redis) : Prop where
  organization : ∀ sandboxID lease orgID, store (.resourceLease sandboxID) = some lease →
    store (orgAssignKey sandboxID) = some orgID → directory.Within lease.user orgID
  project : ∀ sandboxID lease projectID, store (.resourceLease sandboxID) = some lease →
    store (projectAssignKey sandboxID) = some projectID →
      directory.instanceProject lease.user = some projectID

/-- A lease stands under the ID of its sandbox. -/
def Keyed (store : Redis) : Prop :=
  ∀ sandboxID lease, store (.resourceLease sandboxID) = some lease →
    lease.sandboxID = sandboxID ∧ sandboxID ≠ ""

inductive TenantCall where
  | assignSandbox (snapshots : String → Option (Except ServiceError (List Resource))) (now : ℤ)
      (instanceID sandboxID : String)
  | unassignSandbox (instanceID sandboxID : String)
  | scope (call : ScopeCall)

def TenantCall.program (directory : Directory) : TenantCall → Call
  | .assignSandbox snapshots now instanceID sandboxID =>
      Sandbox.assignSandbox directory snapshots now instanceID sandboxID
  | .unassignSandbox instanceID sandboxID => Sandbox.unassignSandbox instanceID sandboxID
  | .scope call => call.program directory.organizationOf

/-- Calls that run alone, one after another. -/
def tenancy (directory : Directory) : System Redis TenantCall where
  step before call after := after = ((call.program directory).alone before).1

/-- A call that is about to bind sandboxes finds no lease on them that is foreign to the
scope. -/
def Respects (directory : Directory) (store : Redis) : TenantCall → Prop
  | .scope (.assignSandboxToOrg orgID available requested) =>
      ∀ sandboxIDs, validateSandboxIDsExist available requested = .ok sandboxIDs →
        (∀ sandboxID ∈ sandboxIDs, store (orgAssignKey sandboxID) = none) →
          ∀ sandboxID ∈ sandboxIDs, ∀ lease, store (.resourceLease sandboxID) = some lease →
            directory.Within lease.user orgID
  | .scope (.assignSandboxToProject projectID orgID available requested) =>
      ∀ sandboxIDs, validateProjectRequest directory.organizationOf projectID orgID available
          requested = .ok sandboxIDs →
        (∀ sandboxID ∈ sandboxIDs, store (orgAssignKey sandboxID) = some orgID ∧
          store (projectAssignKey sandboxID) = none) →
          ∀ sandboxID ∈ sandboxIDs, ∀ lease, store (.resourceLease sandboxID) = some lease →
            directory.instanceProject lease.user = some projectID
  | _ => True

/-- No binding changes, and a lease that is left was there with the same owner. -/
structure Kept (before after : Redis) : Prop where
  bindings : ∀ key : Key, key.IsScope → after key = before key
  leases : ∀ sandboxID lease, after (.resourceLease sandboxID) = some lease →
    ∃ earlier, before (.resourceLease sandboxID) = some earlier ∧
      earlier.user = lease.user ∧ earlier.sandboxID = lease.sandboxID

theorem Kept.refl (store : Redis) : Kept store store where
  bindings _ _ := rfl
  leases _ lease found := ⟨lease, found, rfl, rfl⟩

theorem Kept.trans {first second third : Redis} (before : Kept first second)
    (after : Kept second third) : Kept first third where
  bindings key scope := (after.bindings key scope).trans (before.bindings key scope)
  leases sandboxID lease found := by
    obtain ⟨middle, there, user, sandbox⟩ := after.leases sandboxID lease found
    obtain ⟨earlier, here, owner, name⟩ := before.leases sandboxID middle there
    exact ⟨earlier, here, owner.trans user, name.trans sandbox⟩

theorem Kept.command {command : RedisCommand} (scope : ¬ command.key.IsScope)
    (lease : ∀ sandboxID, command.key ≠ .resourceLease sandboxID) (store : Redis) :
    Kept store (command.apply store) where
  bindings key inScope := command.apply_other store (by rintro rfl; exact scope inScope)
  leases sandboxID found stored := by
    rw [command.apply_other store (lease sandboxID).symm] at stored
    exact ⟨found, stored, rfl, rfl⟩

theorem Kept.hdel (store : Redis) (instanceID sandboxID : String) :
    Kept store ((Sandbox.hdel instanceID sandboxID).apply store) :=
  .command (by simp [Sandbox.hdel, Key.IsScope]) (by simp [Sandbox.hdel]) store

theorem Kept.rewrite {store : Redis} {sandboxID : String} {lease : Option Lease}
    (same : ∀ written, lease = some written → ∃ earlier,
      store (.resourceLease sandboxID) = some earlier ∧
        earlier.user = written.user ∧ earlier.sandboxID = written.sandboxID) :
    Kept store ((⟨.resourceLease sandboxID, fun _ => lease⟩ : RedisCommand).apply store) where
  bindings key scope := Command.apply_other _ _ (by rintro rfl; exact scope)
  leases other found stored := by
    by_cases here : other = sandboxID
    · subst here
      rw [Command.apply_same] at stored
      exact same found stored
    · rw [Command.apply_other _ _ (by simpa using here)] at stored
      exact ⟨found, stored, rfl, rfl⟩

theorem Kept.coherent {directory : Directory} {before after : Redis} (kept : Kept before after)
    (coherent : Coherent directory.organizationOf before) :
    Coherent directory.organizationOf after :=
  coherent.of_scope kept.bindings

theorem Kept.keyed {before after : Redis} (kept : Kept before after) (keyed : Keyed before) :
    Keyed after := by
  intro sandboxID lease found
  obtain ⟨earlier, here, _, name⟩ := kept.leases sandboxID lease found
  rw [← name]
  exact keyed sandboxID earlier here

theorem Kept.isolated {directory : Directory} {before after : Redis} (kept : Kept before after)
    (isolated : Isolated directory before) : Isolated directory after where
  organization sandboxID lease orgID found bound := by
    obtain ⟨earlier, here, user, _⟩ := kept.leases sandboxID lease found
    rw [kept.bindings (orgAssignKey sandboxID) trivial] at bound
    rw [← user]
    exact isolated.organization sandboxID earlier orgID here bound
  project sandboxID lease projectID found bound := by
    obtain ⟨earlier, here, user, _⟩ := kept.leases sandboxID lease found
    rw [kept.bindings (projectAssignKey sandboxID) trivial] at bound
    rw [← user]
    exact isolated.project sandboxID earlier projectID here bound

/-- What a release leaves: the store as it was, or the lease without its use and a
cooldown. It reports a missing lease only where there is none of the sandbox. -/
structure ReleasesTo (sandboxID : String) (before after : Redis)
    (result : Except ServiceError Unit) : Prop where
  effect : after = before ∨ ∃ lease, before (.resourceLease sandboxID) = some lease ∧
    after = applyAll [set (.resourceLease sandboxID) { lease with inUse := false },
      set (.cooldown sandboxID) ()] before
  missing : ∀ message, result = .error (.app .sandboxLeaseNotFound message) →
    ∀ lease, after (.resourceLease sandboxID) = some lease → lease.sandboxID ≠ sandboxID

theorem ReleasesTo.of_error {instanceID sandboxID : String} {store : Redis} {error : ServiceError}
    (planned : planRelease instanceID sandboxID (store (.resourceLease sandboxID)) =
      .error error) : ReleasesTo sandboxID store store (.error error) where
  effect := .inl rfl
  missing := by
    intro message same lease stored name
    obtain rfl := Except.error.inj same
    unfold planRelease at planned
    rw [stored] at planned
    simp only [name, ne_eq, not_true_eq_false, if_false] at planned
    split_ifs at planned
    all_goals simp at planned

theorem ReleasesTo.of_none (sandboxID : String) (store : Redis) :
    ReleasesTo sandboxID store store (.ok ()) where
  effect := .inl rfl
  missing _ same := nomatch same

theorem releaseLease_alone (instanceID sandboxID : String) (next : Except ServiceError Unit → Call)
    (store : Redis) :
    ∃ result after, (releaseLease instanceID sandboxID next).alone store =
      (next result).alone after ∧ ReleasesTo sandboxID store after result := by
  simp only [releaseLease, Program.alone]
  cases planned : planRelease instanceID sandboxID (store (.resourceLease sandboxID)) with
  | error error => exact ⟨.error error, store, rfl, .of_error planned⟩
  | ok plan =>
      cases plan with
      | none => exact ⟨.ok (), store, rfl, .of_none sandboxID store⟩
      | some released =>
          obtain ⟨lease, stored, _, _, _, rfl⟩ := planRelease_some planned
          exact ⟨.ok (), _, rfl, .inr ⟨lease, stored, rfl⟩, fun _ same => nomatch same⟩

theorem releaseSandbox_alone (instanceID sandboxID : String)
    (next : Except ServiceError Unit → Call) (store : Redis) :
    ∃ result after, (releaseSandbox instanceID sandboxID next).alone store =
      (next result).alone after ∧ ReleasesTo sandboxID store after result := by
  simp only [releaseSandbox, Program.alone]
  cases planned : planRelease instanceID sandboxID (store (.resourceLease sandboxID)) with
  | error error => exact ⟨.error error, store, rfl, .of_error planned⟩
  | ok plan =>
      cases plan with
      | none => exact ⟨.ok (), store, rfl, .of_none sandboxID store⟩
      | some _ => exact releaseLease_alone instanceID sandboxID next store

/-- A property of the store that each write of an unassignment keeps. -/
structure KeptByUnassignment (property : Redis → Prop) (instanceID sandboxID : String) : Prop where
  released : ∀ before after result, property before → ReleasesTo sandboxID before after result →
    property after
  cleared : ∀ store, property store →
    (∀ lease, store (.resourceLease sandboxID) = some lease → lease.sandboxID ≠ sandboxID) →
      property ((hdel instanceID sandboxID).apply store)
  removed : ∀ store lease, property store → store (.resourceLease sandboxID) = some lease →
    lease.user = instanceID →
      property (applyAll [hdel instanceID sandboxID, del (.resourceLease sandboxID)] store)

theorem KeptByUnassignment.locked {property : Redis → Prop} {instanceID sandboxID : String}
    (kept : KeptByUnassignment property instanceID sandboxID) (attempts : ℕ) {store : Redis}
    (holds : property store) :
    property ((unassignSandboxLocked instanceID sandboxID attempts).alone store).1 := by
  induction attempts generalizing store with
  | zero => exact holds
  | succ attempts ih =>
      simp only [unassignSandboxLocked, Program.alone]
      cases stored : store (.resourceLease sandboxID) with
      | none => exact kept.cleared store holds (by simp [stored])
      | some lease =>
          simp only
          split_ifs with owner used
          · exact holds
          · obtain ⟨result, after, same, releases⟩ :=
              releaseSandbox_alone instanceID sandboxID _ store
            rw [same]
            have later := kept.released store after result holds releases
            split
            · exact ih later
            · exact later
            · exact kept.cleared after later (releases.missing _ rfl)
            · exact later
          · simp only [Program.alone, stored, owner, used, if_false, Bool.false_eq_true]
            exact kept.removed store lease holds stored (not_not.mp owner)

theorem KeptByUnassignment.alone {property : Redis → Prop} {instanceID sandboxID : String}
    (kept : KeptByUnassignment property instanceID sandboxID) {store : Redis}
    (holds : property store) : property ((unassignSandbox instanceID sandboxID).alone store).1 := by
  unfold unassignSandbox
  split
  · exact holds
  · exact kept.locked 3 holds

theorem ReleasesTo.kept {sandboxID : String} {before after : Redis}
    {result : Except ServiceError Unit} (releases : ReleasesTo sandboxID before after result) :
    Kept before after := by
  obtain rfl | ⟨lease, stored, rfl⟩ := releases.effect
  · exact .refl after
  · have written : Kept before ((set (.resourceLease sandboxID)
        { lease with inUse := false }).apply before) := by
      refine .rewrite fun written same => ⟨lease, stored, ?_⟩
      obtain rfl := Option.some.inj same
      exact ⟨rfl, rfl⟩
    exact written.trans (.command (by simp [set, Key.IsScope]) (by simp [set]) _)

theorem unassignSandbox_kept (instanceID sandboxID : String) (store : Redis) :
    Kept store ((unassignSandbox instanceID sandboxID).alone store).1 := by
  have kept : KeptByUnassignment (Kept store) instanceID sandboxID :=
    { released := fun _ _ _ before releases => before.trans releases.kept
      cleared := fun after before _ => before.trans (.hdel after instanceID sandboxID)
      removed := fun after _ before _ _ => before.trans
        ((Kept.hdel after instanceID sandboxID).trans (.rewrite fun _ same => nomatch same)) }
  exact kept.alone (.refl store)

theorem buildLeaseForAssignment_ok
    {snapshots : String → Option (Except ServiceError (List Resource))}
    {instanceID sandboxID : String} {lease : Lease}
    (built : buildLeaseForAssignment snapshots instanceID sandboxID = .ok lease) :
    lease.sandboxID = sandboxID ∧ lease.user = instanceID := by
  unfold buildLeaseForAssignment at built
  split at built
  · cases built
  · split at built
    · cases built
    · cases built
    · split at built
      · cases built
      · cases built
        exact ⟨rfl, rfl⟩

theorem validateAssignment_ok {directory : Directory}
    {snapshots : String → Option (Except ServiceError (List Resource))}
    {instanceID sandboxID : String} {lease : Lease} {projectID : ℤ}
    (valid : validateAssignment directory snapshots instanceID sandboxID = .ok (lease, projectID)) :
    lease.sandboxID = sandboxID ∧ lease.user = instanceID ∧ sandboxID ≠ "" ∧
      directory.instanceProject instanceID = some projectID := by
  unfold validateAssignment at valid
  obtain ⟨_, named, valid⟩ := bind_eq_ok.mp valid
  obtain ⟨built, lease', valid⟩ := bind_eq_ok.mp valid
  obtain ⟨_, _, valid⟩ := bind_eq_ok.mp valid
  obtain ⟨_, _, valid⟩ := bind_eq_ok.mp valid
  obtain ⟨project, found, valid⟩ := bind_eq_ok.mp valid
  obtain ⟨rfl, rfl⟩ := Prod.mk.inj (Except.ok.inj valid)
  rw [refuseIf_eq_ok, not_or] at named
  obtain ⟨name, user⟩ := buildLeaseForAssignment_ok lease'
  exact ⟨name, user, named.2, by rw [Directory.instanceProject, found]; rfl⟩

theorem validateAssignmentScope_alone (directory : Directory) (sandboxID : String) (projectID : ℤ)
    (next : ExpectedScope → Call) (store : Redis) :
    ((validateAssignmentScope directory sandboxID projectID next).alone store).1 = store ∨
      ∃ expected, (validateAssignmentScope directory sandboxID projectID next).alone store =
          (next expected).alone store ∧
        ∀ scope, expected = some scope →
          scope.1 = projectID ∧ directory.organizationOf projectID = some scope.2 := by
  simp only [validateAssignmentScope, readBindings, Program.alone]
  split
  · exact .inl rfl
  · split_ifs with unbound
    · exact .inr ⟨none, rfl, fun _ none => nomatch none⟩
    · cases project : getProject directory.organizationOf projectID with
      | error error => exact .inl rfl
      | ok organizationID =>
          simp only
          split_ifs with mismatch
          · exact .inl rfl
          · refine .inr ⟨_, rfl, ?_⟩
            rintro scope ⟨⟩
            exact ⟨rfl, getProject_ok project⟩

/-- What an assignment that takes effect has found and what it writes. -/
structure Assigns (directory : Directory) (instanceID sandboxID : String)
    (before after : Redis) : Prop where
  named : sandboxID ≠ ""
  project : ∃ projectID, directory.instanceProject instanceID = some projectID ∧
    ((before (projectAssignKey sandboxID) = none ∧ before (orgAssignKey sandboxID) = none) ∨
      ∃ orgID, directory.organizationOf projectID = some orgID ∧
        before (projectAssignKey sandboxID) = some projectID ∧
        before (orgAssignKey sandboxID) = some orgID)
  writes : ∃ lease oldInstanceID, lease.sandboxID = sandboxID ∧ lease.user = instanceID ∧
    after = applyAll (assignCommands instanceID oldInstanceID lease) before

theorem assignSandboxAtomically_alone (instanceID : String) (lease : Lease)
    (expected : ExpectedScope) (attempts : ℕ) (store : Redis) :
    ((assignSandboxAtomically instanceID lease expected (attempts + 1)).alone store).1 = store ∨
      validateAssignmentScopeValues expected (store (projectAssignKey lease.sandboxID))
          (store (orgAssignKey lease.sandboxID)) = .ok () ∧
        ∃ oldInstanceID,
          loadExistingAssignmentOwner (store (.resourceLease lease.sandboxID)) instanceID =
            .ok oldInstanceID ∧
          ((assignSandboxAtomically instanceID lease expected (attempts + 1)).alone store).1 =
            applyAll (assignCommands instanceID oldInstanceID lease) store := by
  simp only [assignSandboxAtomically, runAssignSandboxTx, Program.alone]
  cases scopes : validateAssignmentScopeValues expected
      (store (projectAssignKey lease.sandboxID)) (store (orgAssignKey lease.sandboxID)) with
  | error error => exact .inl rfl
  | ok _ =>
      simp only [Program.alone]
      cases loadExistingAssignmentOwner (store (.resourceLease lease.sandboxID)) instanceID with
      | error error => exact .inl rfl
      | ok oldInstanceID => exact .inr ⟨trivial, oldInstanceID, rfl, rfl⟩

theorem assignSandbox_alone (directory : Directory)
    (snapshots : String → Option (Except ServiceError (List Resource))) (now : ℤ)
    (instanceID sandboxID : String) (store : Redis) :
    ((assignSandbox directory snapshots now instanceID sandboxID).alone store).1 = store ∨
      Assigns directory instanceID sandboxID store
        ((assignSandbox directory snapshots now instanceID sandboxID).alone store).1 ∧
      ∃ lease oldInstanceID, lease.sandboxID = sandboxID ∧ lease.user = instanceID ∧
        loadExistingAssignmentOwner (store (.resourceLease sandboxID)) instanceID =
          .ok oldInstanceID ∧
        ((assignSandbox directory snapshots now instanceID sandboxID).alone store).1 =
          applyAll (assignCommands instanceID oldInstanceID lease) store := by
  unfold assignSandbox
  cases valid : validateAssignment directory snapshots instanceID sandboxID with
  | error error => exact .inl rfl
  | ok checked =>
      obtain ⟨lease, projectID⟩ := checked
      obtain ⟨rfl, rfl, named, project⟩ := validateAssignment_ok valid
      simp only
      rcases validateAssignmentScope_alone directory lease.sandboxID projectID _ store with
        same | ⟨expected, same, scopes⟩
      · exact .inl same
      · rw [same]
        rcases assignSandboxAtomically_alone lease.user { lease with createdAt := now } expected 2
          store with unchanged | ⟨current, oldInstanceID, owner, written⟩
        · exact .inl unchanged
        · refine .inr ⟨⟨named, ⟨projectID, project, ?_⟩, { lease with createdAt := now },
            oldInstanceID, rfl, rfl, written⟩, { lease with createdAt := now }, oldInstanceID,
            rfl, rfl, owner, written⟩
          cases expected with
          | none =>
              simp only [validateAssignmentScopeValues, refuseIf_eq_ok, not_not] at current
              exact .inl current
          | some scope =>
              obtain ⟨rfl, belongs⟩ := scopes scope rfl
              simp only [validateAssignmentScopeValues, refuseIf_eq_ok, not_or, not_not] at current
              exact .inr ⟨scope.2, belongs, current⟩

theorem assignCommands_other {instanceID oldInstanceID : String} {lease : Lease} {key : Key}
    (assignment : ∀ user, key ≠ .assign user) (other : key ≠ .resourceLease lease.sandboxID)
    (store : Redis) :
    applyAll (assignCommands instanceID oldInstanceID lease) store key = store key := by
  refine applyAll_untouched (fun command member => ?_) store
  simp only [assignCommands, List.mem_append, List.mem_cons, List.not_mem_nil, or_false] at member
  rcases member with member | rfl | rfl
  · split_ifs at member
    · obtain rfl := List.mem_singleton.mp member
      exact assignment oldInstanceID
    · cases member
  · exact other
  · exact assignment instanceID

theorem assignCommands_lease (instanceID oldInstanceID : String) (lease : Lease) (store : Redis) :
    applyAll (assignCommands instanceID oldInstanceID lease) store
      (.resourceLease lease.sandboxID) = some lease := by
  rw [assignCommands, applyAll_append, applyAll_cons, applyAll_cons, applyAll_nil,
    Command.apply_other (hset instanceID lease.sandboxID lease.type) _ (by simp [hset])]
  exact Command.apply_same (set (.resourceLease lease.sandboxID) lease) _

theorem ScopeCall.alone (organizationOf : ℤ → Option ℤ) (call : ScopeCall) (store : Redis) :
    ((call.program organizationOf).alone store).1 = store ∨
      ∃ program, call.Writes organizationOf store program
        ((call.program organizationOf).alone store).1 := by
  have attempts : Attempts (fun _ => True) (call.Writes organizationOf) [] []
      (call.program organizationOf) := call.attempts
  have outcome := attempts.2.alone
    (fun current program => (current = store ∧ ¬ Succeeded program) ∨
      (∃ program, call.Writes organizationOf store program current) ∧ Succeeded program)
    (fun _ _ _ _ _ _ => trivial) ?_ trivial (by simp [Agrees]) (.inl ⟨rfl, attempts.1⟩)
  · rcases outcome with ⟨same, _⟩ | ⟨written, _⟩
    · exact .inl same
    · exact .inr written
  · rintro before program after rest running here step
    have unchanged : before = store := by
      rcases here with ⟨same, _⟩ | ⟨_, _, rfl⟩
      · exact same
      · cases running
    subst unchanged
    rcases step with ⟨rfl, pending⟩ | ⟨writes, succeeded⟩
    · exact .inl ⟨rfl, pending⟩
    · exact .inr ⟨⟨program, writes⟩, succeeded⟩

theorem Isolated.of_fewer {directory : Directory} {before after : Redis}
    (isolated : Isolated directory before)
    (leases : ∀ sandboxID lease, after (.resourceLease sandboxID) = some lease →
      before (.resourceLease sandboxID) = some lease)
    (bindings : ∀ level sandboxID id, after (.binding level sandboxID) = some id →
      before (.binding level sandboxID) = some id) : Isolated directory after where
  organization sandboxID lease orgID found bound :=
    isolated.organization sandboxID lease orgID (leases sandboxID lease found)
      (bindings .organization sandboxID orgID bound)
  project sandboxID lease projectID found bound :=
    isolated.project sandboxID lease projectID (leases sandboxID lease found)
      (bindings .project sandboxID projectID bound)

theorem Rebinds.fewer {level : Level} {sandboxIDs : List String} {unbound : Option ℤ}
    {before after : Redis} (rebinds : Rebinds level sandboxIDs unbound none before after)
    (other : Level) (sandboxID : String) (id : ℤ)
    (bound : after (.binding other sandboxID) = some id) :
    before (.binding other sandboxID) = some id := by
  by_cases here : other = level ∧ sandboxID ∈ sandboxIDs
  · obtain ⟨rfl, member⟩ := here
    rw [rebinds.target sandboxID member] at bound
    cases bound
  · rwa [rebinds.frame other sandboxID here] at bound

theorem applyAll_lease_deleted {commands : List RedisCommand} {sandboxID : String} {lease : Lease}
    (deletes : ∀ command ∈ commands, command.key = .resourceLease sandboxID →
      command = del (.resourceLease sandboxID)) {store : Redis}
    (found : applyAll commands store (.resourceLease sandboxID) = some lease) :
    store (.resourceLease sandboxID) = some lease := by
  induction commands generalizing store with
  | nil => exact found
  | cons command rest ih =>
      rw [applyAll_cons] at found
      have later := ih (fun other member => deletes other (List.mem_cons_of_mem _ member)) found
      by_cases here : command.key = .resourceLease sandboxID
      · rw [deletes command List.mem_cons_self here] at later
        simp [del, Command.apply] at later
      · rwa [command.apply_other store (Ne.symm here)] at later

theorem writeProjectUnassignment_leases {projectID : ℤ} {sandboxIDs : List String}
    {leases : List (String × Lease)} {store : Redis} {sandboxID : String} {lease : Lease}
    (found : applyAll (writeProjectUnassignment projectID sandboxIDs leases) store
      (.resourceLease sandboxID) = some lease) :
    store (.resourceLease sandboxID) = some lease := by
  refine applyAll_lease_deleted (fun command member here => ?_) found
  obtain ⟨other, _, written⟩ := List.mem_flatMap.mp member
  rcases List.mem_append.mp written with removed | rebound
  · cases stored : leases.lookup other with
    | none => rw [stored] at removed; cases removed
    | some stored' =>
        rw [stored] at removed
        simp only [removeLease, List.mem_append, List.mem_singleton] at removed
        rcases removed with (owner | rfl) | cooling
        · split_ifs at owner
          · obtain rfl := List.mem_singleton.mp owner
            cases here
          · cases owner
        · cases here
          rfl
        · split_ifs at cooling
          · obtain rfl := List.mem_singleton.mp cooling
            cases here
          · cases cooling
  · rcases List.mem_cons.mp rebound with rfl | last
    · cases here
    · obtain rfl := List.mem_singleton.mp last
      cases here

/-- How a listed resource is shown: under its own ID when it has no lease, else under
that of its lease. -/
def shownAs (store : Redis) (resource : String) : String × Bool :=
  (store (.resourceLease resource)).elim (resource, false) fun lease =>
    if lease.sandboxID = "" then (resource, false) else (lease.sandboxID, true)

theorem listLeases_alone (resources : List String) (next : List (String × Bool) → Call)
    (store : Redis) :
    (listLeases resources next).alone store =
      (next (resources.map (shownAs store))).alone store := by
  induction resources generalizing next with
  | nil => rfl
  | cons resource rest ih => exact ih _

theorem readBindings_alone (sandboxIDs : List String)
    (next : List (String × Option ℤ × Option ℤ) → Call) (store : Redis) :
    ∃ bindings, (readBindings sandboxIDs next).alone store = (next bindings).alone store := by
  induction sandboxIDs generalizing next with
  | nil => exact ⟨[], rfl⟩
  | cons sandboxID rest ih =>
      obtain ⟨bindings, same⟩ := ih fun bindings => next (_ :: bindings)
      exact ⟨_ :: bindings, same⟩

theorem claimUnassignedSandboxesForOrg_alone (orgID : ℤ) (listed missing : List String)
    {store : Redis} (keyed : Keyed store) :
    ((claimUnassignedSandboxesForOrg orgID listed missing).alone store).1 = store ∨
      ∃ sandboxIDs, (∀ sandboxID ∈ sandboxIDs, store (.resourceLease sandboxID) = none) ∧
        ((claimUnassignedSandboxesForOrg orgID listed missing).alone store).1 =
          applyAll (bindCommands .organization orgID (claimTargets store sandboxIDs) ++
            [set .initialOrgClaim orgID]) store := by
  unfold claimUnassignedSandboxesForOrg
  split_ifs with positive
  · exact .inl rfl
  · rw [listLeases_alone]
    obtain ⟨values, same⟩ := readBindings_alone _ _ store
    rw [same]
    split
    · exact .inl rfl
    · simp only [claimScript, Program.alone]
      split_ifs with claimed
      · exact .inl rfl
      · refine .inr ⟨_, fun sandboxID member => ?_, rfl⟩
        simp only [collectUnassignedSandboxIDs, List.mem_insertionSort, List.mem_map,
          List.mem_filter, List.mem_append, decide_eq_true_eq] at member
        obtain ⟨item, ⟨⟨resource, _, rfl⟩ | ⟨_, _, rfl⟩, _, unleased, _⟩, rfl⟩ := member
        · cases stored : store (.resourceLease resource) with
          | none =>
              have shown : shownAs store resource = (resource, false) := by simp [shownAs, stored]
              rw [shown]
              exact stored
          | some lease =>
              obtain ⟨name, named⟩ := keyed resource lease stored
              simp [shownAs, stored, name, named] at unleased
        · cases unleased

theorem foldr_alone {check : String → Call → Call} {store : Redis} (last : Call)
    (sandboxIDs : List String)
    (passes : ∀ sandboxID ∈ sandboxIDs, ∀ next,
      (check sandboxID next).alone store = next.alone store) :
    (sandboxIDs.foldr check last).alone store = last.alone store := by
  induction sandboxIDs with
  | nil => rfl
  | cons first rest ih =>
      rw [List.foldr_cons, passes first List.mem_cons_self]
      exact ih fun sandboxID member => passes sandboxID (List.mem_cons_of_mem _ member)

theorem requireOrgWithoutProject_alone {orgID : ℤ} {hasProject : String → ServiceError}
    {sandboxID : String} {store : Redis} (organization : store (orgAssignKey sandboxID) = some orgID)
    (project : store (projectAssignKey sandboxID) = none) (next : Call) :
    (requireOrgWithoutProject orgID hasProject sandboxID next).alone store = next.alone store := by
  simp [requireOrgWithoutProject, Program.alone, organization, project]

theorem assignSandboxToOrg_binds {orgID : ℤ} {available requested sandboxIDs : List String}
    {store : Redis} (valid : validateSandboxIDsExist available requested = .ok sandboxIDs)
    (free : ∀ sandboxID ∈ sandboxIDs, store (orgAssignKey sandboxID) = none) :
    ((assignSandboxToOrg orgID available requested).alone store).1 =
      applyAll (bindCommands .organization orgID sandboxIDs) store := by
  have passes : ∀ sandboxID ∈ sandboxIDs, ∀ next,
      (validateOrgAssignment sandboxID next).alone store = next.alone store := by
    intro sandboxID member next
    simp [validateOrgAssignment, Program.alone, free sandboxID member]
  simp only [assignSandboxToOrg, valid, runScopeMutation, Program.alone]
  rw [foldr_alone _ _ passes]
  rfl

theorem assignSandboxToProject_binds {organizationOf : ℤ → Option ℤ} {projectID orgID : ℤ}
    {available requested sandboxIDs : List String} {store : Redis}
    (valid : validateProjectRequest organizationOf projectID orgID available requested =
      .ok sandboxIDs)
    (found : ∀ sandboxID ∈ sandboxIDs, store (orgAssignKey sandboxID) = some orgID ∧
      store (projectAssignKey sandboxID) = none) :
    ((assignSandboxToProject organizationOf projectID orgID available requested).alone store).1 =
      applyAll (bindCommands .project projectID sandboxIDs) store := by
  have passes : ∀ sandboxID ∈ sandboxIDs, ∀ next,
      (validateProjectAssignment orgID sandboxID next).alone store = next.alone store :=
    fun sandboxID member next =>
      requireOrgWithoutProject_alone (found sandboxID member).1 (found sandboxID member).2 next
  simp only [assignSandboxToProject, valid, runScopeMutation, Program.alone]
  rw [foldr_alone _ _ passes]
  rfl

theorem lease_after_bind (level : Level) (scopeID : ℤ) (sandboxIDs : List String) (store : Redis)
    (sandboxID : String) :
    applyAll (bindCommands level scopeID sandboxIDs) store (.resourceLease sandboxID) =
      store (.resourceLease sandboxID) :=
  bindCommands_outside (show ¬ (Key.resourceLease sandboxID).IsScope from id) level _ sandboxIDs
    store

theorem Isolated.bind_organization {directory : Directory} {store : Redis}
    {sandboxIDs : List String} (isolated : Isolated directory store) (orgID : ℤ)
    (free : ∀ sandboxID ∈ sandboxIDs, store (orgAssignKey sandboxID) = none)
    (within : ∀ sandboxID ∈ sandboxIDs, ∀ lease, store (.resourceLease sandboxID) = some lease →
      directory.Within lease.user orgID) :
    Isolated directory (applyAll (bindCommands .organization orgID sandboxIDs) store) where
  organization sandboxID lease owner found bound := by
    rw [lease_after_bind] at found
    have rebinds := bind_rebinds orgID free
    by_cases member : sandboxID ∈ sandboxIDs
    · rw [rebinds.target sandboxID member] at bound
      obtain rfl := Option.some.inj bound
      exact within sandboxID member lease found
    · rw [rebinds.frame .organization sandboxID (by simp [member])] at bound
      exact isolated.organization sandboxID lease owner found bound
  project sandboxID lease projectID found bound := by
    rw [lease_after_bind] at found
    rw [(bind_rebinds orgID free).frame .project sandboxID (by simp)] at bound
    exact isolated.project sandboxID lease projectID found bound

theorem Isolated.bind_project {directory : Directory} {store : Redis} {projectID : ℤ}
    {sandboxIDs : List String} (isolated : Isolated directory store)
    (free : ∀ sandboxID ∈ sandboxIDs, store (projectAssignKey sandboxID) = none)
    (own : ∀ sandboxID ∈ sandboxIDs, ∀ lease, store (.resourceLease sandboxID) = some lease →
      directory.instanceProject lease.user = some projectID) :
    Isolated directory (applyAll (bindCommands .project projectID sandboxIDs) store) where
  organization sandboxID lease orgID found bound := by
    rw [lease_after_bind] at found
    rw [(bind_rebinds projectID free).frame .organization sandboxID (by simp)] at bound
    exact isolated.organization sandboxID lease orgID found bound
  project sandboxID lease assigned found bound := by
    rw [lease_after_bind] at found
    have rebinds := bind_rebinds projectID free
    by_cases member : sandboxID ∈ sandboxIDs
    · rw [rebinds.target sandboxID member] at bound
      obtain rfl := Option.some.inj bound
      exact own sandboxID member lease found
    · rw [rebinds.frame .project sandboxID (by simp [member])] at bound
      exact isolated.project sandboxID lease assigned found bound

/-- What every sequence of respectful calls maintains. -/
structure Tenant (directory : Directory) (store : Redis) : Prop where
  coherent : Coherent directory.organizationOf store
  keyed : Keyed store
  isolated : Isolated directory store

theorem Kept.tenant {directory : Directory} {before after : Redis} (kept : Kept before after)
    (tenant : Tenant directory before) : Tenant directory after :=
  ⟨kept.coherent tenant.coherent, kept.keyed tenant.keyed, kept.isolated tenant.isolated⟩

theorem Assigns.tenant {directory : Directory} {instanceID sandboxID : String}
    {before after : Redis} (assigns : Assigns directory instanceID sandboxID before after)
    (tenant : Tenant directory before) : Tenant directory after := by
  obtain ⟨named, ⟨projectID, project, scopes⟩, lease, oldInstanceID, rfl, rfl, rfl⟩ := assigns
  have scope : ∀ key : Key, key.IsScope →
      applyAll (assignCommands lease.user oldInstanceID lease) before key = before key := by
    intro key scope
    refine assignCommands_other ?_ ?_ before
    · rintro user rfl
      exact scope
    · rintro rfl
      exact scope
  have leases : ∀ sandboxID found,
      applyAll (assignCommands lease.user oldInstanceID lease) before (.resourceLease sandboxID) =
        some found →
      (sandboxID = lease.sandboxID ∧ found = lease) ∨
        before (.resourceLease sandboxID) = some found := by
    intro sandboxID found stored
    by_cases here : sandboxID = lease.sandboxID
    · subst here
      rw [assignCommands_lease] at stored
      exact .inl ⟨rfl, (Option.some.inj stored).symm⟩
    · rw [assignCommands_other (by simp) (by simpa using here)] at stored
      exact .inr stored
  refine ⟨tenant.coherent.of_scope scope, ?_, ⟨?_, ?_⟩⟩
  · intro sandboxID found stored
    rcases leases sandboxID found stored with ⟨here, same⟩ | earlier
    · rw [same, here]
      exact ⟨rfl, named⟩
    · exact tenant.keyed sandboxID found earlier
  · intro sandboxID found orgID stored bound
    rw [scope (orgAssignKey sandboxID) trivial] at bound
    rcases leases sandboxID found stored with ⟨here, same⟩ | earlier
    · rw [here] at bound
      rw [same]
      rcases scopes with ⟨_, unbound⟩ | ⟨owner, belongs, _, organization⟩
      · rw [unbound] at bound
        cases bound
      · rw [organization] at bound
        obtain rfl := Option.some.inj bound
        exact ⟨projectID, project, belongs⟩
    · exact tenant.isolated.organization sandboxID found orgID earlier bound
  · intro sandboxID found assigned stored bound
    rw [scope (projectAssignKey sandboxID) trivial] at bound
    rcases leases sandboxID found stored with ⟨here, same⟩ | earlier
    · rw [here] at bound
      rw [same]
      rcases scopes with ⟨unbound, _⟩ | ⟨owner, _, bound', _⟩
      · rw [unbound] at bound
        cases bound
      · rw [bound'] at bound
        obtain rfl := Option.some.inj bound
        exact project
    · exact tenant.isolated.project sandboxID found assigned earlier bound

theorem ScopeCall.Writes.leases {organizationOf : ℤ → Option ℤ} {call : ScopeCall}
    {before after : Redis} {program : Call}
    (writes : call.Writes organizationOf before program after) {sandboxID : String} {lease : Lease}
    (stored : after (.resourceLease sandboxID) = some lease) :
    before (.resourceLease sandboxID) = some lease := by
  cases call with
  | assignSandboxToOrg orgID available requested =>
      obtain ⟨sandboxIDs, _, _, rfl⟩ := writes
      rwa [lease_after_bind] at stored
  | claimUnassignedSandboxesForOrg orgID listed missing =>
      obtain ⟨sandboxIDs, _, ⟨_, rfl⟩ | ⟨_, rfl⟩⟩ := writes
      · exact stored
      · rwa [applyAll_append, applyAll_cons, applyAll_nil, Command.apply_other _ _ (by simp [set]),
          lease_after_bind] at stored
  | unassignSandboxFromOrg orgID requested =>
      obtain ⟨sandboxIDs, _, _, rfl⟩ := writes
      rwa [unbindCommands_eq, rebinding_outside
        (show ¬ (Key.resourceLease sandboxID).IsScope from id) (by simp)
        (fun _ => ⟨orgID, rfl⟩)] at stored
  | assignSandboxToProject projectID orgID available requested =>
      obtain ⟨sandboxIDs, _, _, rfl⟩ := writes
      rwa [lease_after_bind] at stored
  | unassignSandboxFromProject projectID requested =>
      obtain ⟨sandboxIDs, leases, _, _, rfl⟩ := writes
      exact writeProjectUnassignment_leases stored

theorem ScopeCall.Writes.isolated {directory : Directory} {call : ScopeCall} {before after : Redis}
    {program : Call} (writes : call.Writes directory.organizationOf before program after)
    (isolated : Isolated directory before) (respects : Respects directory before (.scope call))
    (claim : ∀ orgID listed missing, call ≠ .claimUnassignedSandboxesForOrg orgID listed missing) :
    Isolated directory after := by
  cases call with
  | assignSandboxToOrg orgID available requested =>
      obtain ⟨sandboxIDs, valid, free, rfl⟩ := writes
      exact isolated.bind_organization orgID free (respects sandboxIDs valid free)
  | claimUnassignedSandboxesForOrg orgID listed missing => exact absurd rfl (claim _ _ _)
  | unassignSandboxFromOrg orgID requested =>
      obtain ⟨_, _, rebinds⟩ := writes.completes
      exact isolated.of_fewer (fun _ _ => writes.leases) rebinds.fewer
  | assignSandboxToProject projectID orgID available requested =>
      obtain ⟨sandboxIDs, valid, found, rfl⟩ := writes
      exact isolated.bind_project (fun sandboxID member => (found sandboxID member).2)
        (respects sandboxIDs valid found)
  | unassignSandboxFromProject projectID requested =>
      obtain ⟨_, _, rebinds⟩ := writes.completes
      exact isolated.of_fewer (fun _ _ => writes.leases) rebinds.fewer

theorem claim_isolated {directory : Directory} {store : Redis} (tenant : Tenant directory store)
    (orgID : ℤ) (listed missing : List String) :
    Isolated directory
      ((claimUnassignedSandboxesForOrg orgID listed missing).alone store).1 := by
  rcases claimUnassignedSandboxesForOrg_alone orgID listed missing tenant.keyed with
    same | ⟨sandboxIDs, unleased, written⟩
  · rw [same]
    exact tenant.isolated
  · have bound := tenant.isolated.bind_organization orgID
      (fun sandboxID member => (mem_claimTargets.mp member).2)
      (fun sandboxID member lease stored => by
        rw [unleased sandboxID (mem_claimTargets.mp member).1] at stored
        cases stored)
    rw [written, applyAll_append]
    refine bound.of_fewer (fun sandboxID lease stored => ?_) fun level sandboxID id stored => ?_
    · rwa [applyAll_untouched (by simp [set])] at stored
    · rwa [applyAll_untouched (by simp [set])] at stored

theorem Tenant.step {directory : Directory} {before after : Redis} {call : TenantCall}
    (tenant : Tenant directory before) (respects : Respects directory before call)
    (step : (tenancy directory).step before call after) : Tenant directory after := by
  obtain rfl := step
  cases call with
  | assignSandbox snapshots now instanceID sandboxID =>
      rcases assignSandbox_alone directory snapshots now instanceID sandboxID before with
        same | ⟨assigns, _⟩
      · rw [TenantCall.program, same]
        exact tenant
      · exact assigns.tenant tenant
  | unassignSandbox instanceID sandboxID =>
      exact (unassignSandbox_kept instanceID sandboxID before).tenant tenant
  | scope call =>
      rw [TenantCall.program]
      rcases call.alone directory.organizationOf before with same | ⟨program, writes⟩
      · rw [same]
        exact tenant
      · refine ⟨writes.coherent tenant.coherent, fun sandboxID lease stored =>
          tenant.keyed sandboxID lease (writes.leases stored), ?_⟩
        by_cases claim : ∃ orgID listed missing,
            call = .claimUnassignedSandboxesForOrg orgID listed missing
        · obtain ⟨orgID, listed, missing, rfl⟩ := claim
          exact claim_isolated tenant orgID listed missing
        · exact writes.isolated tenant.isolated respects fun orgID listed missing same =>
            claim ⟨orgID, listed, missing, same⟩

theorem respects_of_isolated {directory : Directory} {before after : Redis} {call : TenantCall}
    (step : (tenancy directory).step before call after) (isolated : Isolated directory after) :
    Respects directory before call := by
  obtain rfl := step
  match call with
  | .scope (.assignSandboxToOrg orgID available requested) =>
      intro sandboxIDs valid free sandboxID member lease stored
      rw [TenantCall.program, ScopeCall.program, assignSandboxToOrg_binds valid free] at isolated
      refine isolated.organization sandboxID lease orgID ?_
        ((bind_rebinds orgID free).target sandboxID member)
      rwa [lease_after_bind]
  | .scope (.assignSandboxToProject projectID orgID available requested) =>
      intro sandboxIDs valid found sandboxID member lease stored
      rw [TenantCall.program, ScopeCall.program, assignSandboxToProject_binds valid found]
        at isolated
      refine isolated.project sandboxID lease projectID ?_
        ((bind_rebinds projectID fun sandboxID member => (found sandboxID member).2).target
          sandboxID member)
      rwa [lease_after_bind]
  | .assignSandbox _ _ _ _ => trivial
  | .unassignSandbox _ _ => trivial
  | .scope (.claimUnassignedSandboxesForOrg _ _ _) => trivial
  | .scope (.unassignSandboxFromOrg _ _) => trivial
  | .scope (.unassignSandboxFromProject _ _) => trivial

theorem tenant_empty (directory : Directory) : Tenant directory fun _ => none where
  coherent := coherent_empty directory.organizationOf
  keyed _ _ found := nomatch found
  isolated := ⟨fun _ _ _ found => (nomatch found), fun _ _ _ found => (nomatch found)⟩

/-- **Tenant isolation.** While every call respects the leases it finds, every lease is
to an instance of the sandbox's organization and project; and a further call keeps it
so exactly when it respects them too. -/
theorem leases_isolated (directory : Directory) {calls : List TenantCall} {final : Redis}
    (run : ((tenancy directory).restrict (Respects directory)).Run (fun _ => none) calls final) :
    Isolated directory final ∧
      ∀ call next, (tenancy directory).step final call next →
        (Isolated directory next ↔ Respects directory final call) := by
  have tenant : Tenant directory final := by
    refine run.preserves (Tenant directory) ?_ (tenant_empty directory)
    rintro before call after here ⟨respects, step⟩
    exact here.step respects step
  refine ⟨tenant.isolated, fun call next step => ⟨respects_of_isolated step, fun respects => ?_⟩⟩
  exact (tenant.step respects step).isolated

/-- One agent instance, of a project of organization 100, and one available resource. -/
def oneInstance : Directory where
  projectOf instanceID := if instanceID = 1 then some 10 else none
  organizationOf projectID := if projectID = 10 then some 100 else none

def oneResource (sandboxType : String) : Option (Except ServiceError (List Resource)) :=
  if sandboxType = "emulator" then
    some (.ok [{ type := "emulator", resourceID := "a", displayName := "", status := .available,
                 metadata := [], lastSeenAt := none, missingSinceAt := none }])
  else none

def assignUnbound : TenantCall := .assignSandbox oneResource 0 "1" "emulator:a"

theorem leases_isolated_assign :
    ∃ final, ((tenancy oneInstance).restrict (Respects oneInstance)).Run (fun _ => none)
        [assignUnbound] final ∧
      (final (.resourceLease "emulator:a")).isSome ∧ Isolated oneInstance final := by
  have run : ((tenancy oneInstance).restrict (Respects oneInstance)).Run (fun _ => none)
      [assignUnbound] ((assignUnbound.program oneInstance).alone fun _ => none).1 :=
    .cons ⟨trivial, rfl⟩ .nil
  exact ⟨_, run, by decide, (leases_isolated oneInstance run).1⟩

/-- Binding the leased sandbox to another organization breaks isolation. -/
theorem assign_org_breaks_isolation :
    ∃ final, (tenancy oneInstance).Run (fun _ => none)
        [assignUnbound, .scope (.assignSandboxToOrg 200 ["emulator:a"] ["emulator:a"])] final ∧
      ¬ Isolated oneInstance final := by
  refine ⟨_, .cons rfl (.cons rfl .nil), fun isolated => ?_⟩
  have within := isolated.organization "emulator:a"
    { sandboxID := "emulator:a", type := "emulator", resourceID := "a", user := "1", inUse := false,
      createdAt := 0, metadata := [], providerMissingSinceAt := none } (200 : ℤ)
    (by decide) (by decide)
  obtain ⟨projectID, project, organization⟩ := within
  have own : oneInstance.instanceProject "1" = some 10 := by decide
  rw [own] at project
  obtain rfl := Option.some.inj project
  simp [oneInstance] at organization

end Sico.Sandbox

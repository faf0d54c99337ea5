import Sico.Sandbox.Scope

/-! # Assigning sandboxes to agent instances

An assignment writes a lease for a sandbox after checking, in the transaction that
writes it, that the scopes of the sandbox are still those it was validated against.
A sandbox without scopes may be assigned to any instance. Removing an assignment
releases a lease in use and then deletes it.
-/

namespace Sico.Sandbox

open Foundation Foundation.Keyspace

/-- What the databases hold: the project of each agent instance and the organization of
each project. -/
structure Directory where
  projectOf : ℤ → Option ℤ
  organizationOf : ℤ → Option ℤ

/-- `getInstanceByStringID`: the project of the instance. -/
def getInstanceByStringID (directory : Directory) (instanceID : String) :
    Except ServiceError ℤ := do
  let trimmed := trimSpace instanceID
  refuseIf (trimmed = "") (.app .commonInvalidParam "instance ID is required")
  match decimalValue trimmed with
  | none => throw (.app .commonInvalidParam "invalid instance ID")
  | some parsedID =>
      refuseIf (¬ fitsSigned 63 parsedID ∨ parsedID ≤ 0)
        (.app .commonInvalidParam "invalid instance ID")
      match directory.projectOf parsedID with
      | none => throw (.app .commonNotFound "agent instance not found")
      | some projectID => return projectID

/-- The type and the resource ID around the first colon. -/
def splitSandboxID (sandboxID : String) : Option (String × String) :=
  match sandboxID.toList.span (· ≠ ':') with
  | (_, []) => none
  | (type, _ :: resourceID) => some (String.ofList type, String.ofList resourceID)

/-- `buildLeaseForAssignment`, given what each provider's snapshot holds. -/
def buildLeaseForAssignment (snapshots : String → Option (Except ServiceError (List Resource)))
    (instanceID sandboxID : String) : Except ServiceError Lease :=
  match splitSandboxID sandboxID with
  | none =>
      .error (.app .commonInvalidParam "invalid sandboxID format, expected type:resourceID")
  | some (type, resourceID) =>
      match snapshots (trimSpace type) with
      | none => .error (.app .commonNotFound "sandbox resource not found")
      | some (.error error) => .error error
      | some (.ok resources) =>
          match (allocatableResources resources).reverse.find? (·.resourceID = resourceID) with
          | none => .error (.app .commonNotFound "sandbox resource not found")
          | some resource =>
              .ok
                { sandboxID := sandboxID
                  type := trimSpace type
                  resourceID := resourceID
                  user := instanceID
                  inUse := false
                  createdAt := 0
                  metadata := resource.metadata
                  providerMissingSinceAt := none }

/-- The scopes an assignment was validated against: the project and the organization, or
none when the sandbox was unbound. -/
abbrev ExpectedScope := Option (ℤ × ℤ)

def validateAssignmentScope (directory : Directory) (sandboxID : String) (instanceProject : ℤ)
    (next : ExpectedScope → Call) : Call :=
  readBindings [sandboxID] fun values =>
    match strictBindings values with
    | .error error => fail error
    | .ok bindings =>
        let scopes := (bindings.lookup sandboxID).getD (0, 0)
        if scopes.2 = 0 ∧ scopes.1 = 0 then
          next none
        else
          match getProject directory.organizationOf instanceProject with
          | .error error => fail error
          | .ok organizationID =>
              if scopes.2 ≠ instanceProject ∨ scopes.1 ≠ organizationID then
                fail (.app .commonForbidden "sandbox and target instance scopes do not match")
              else
                next (some (instanceProject, organizationID))

def validateAssignmentScopeValues (expected : ExpectedScope) (projectValue orgValue : Option ℤ) :
    Except ServiceError Unit :=
  match expected with
  | none =>
      refuseIf (¬ (projectValue = none ∧ orgValue = none))
        (.app .commonForbidden "sandbox assignment scopes changed")
  | some (expectedProjectID, expectedOrganizationID) =>
      refuseIf (projectValue ≠ some expectedProjectID ∨ orgValue ≠ some expectedOrganizationID)
        (.app .commonForbidden "sandbox assignment scopes changed")

/-- `loadExistingAssignmentOwner`: a lease in use by another instance is refused. The
instance's own lease is not asked whether it is in use. -/
def loadExistingAssignmentOwner (existing : Option Lease) (newInstanceID : String) :
    Except ServiceError String :=
  match existing with
  | none => .ok ""
  | some lease =>
      let oldInstanceID := trimSpace lease.user
      if oldInstanceID = "" ∨ oldInstanceID = newInstanceID then
        .ok oldInstanceID
      else if lease.inUse then
        .error (.app .commonConflict ("sandbox is still in use by another instance; " ++
          "release or unassign before reassigning"))
      else
        .ok oldInstanceID

def assignCommands (instanceID oldInstanceID : String) (lease : Lease) : List RedisCommand :=
  (if oldInstanceID ≠ "" ∧ oldInstanceID ≠ instanceID then
      [hdel oldInstanceID lease.sandboxID]
    else []) ++
    [set (.resourceLease lease.sandboxID) lease, hset instanceID lease.sandboxID lease.type]

def runAssignSandboxTx (instanceID : String) (lease : Lease) (expected : ExpectedScope)
    (commit : Bool → Call) : Call :=
  .get (projectAssignKey lease.sandboxID) fun projectValue =>
    .get (orgAssignKey lease.sandboxID) fun orgValue =>
      match validateAssignmentScopeValues expected projectValue orgValue with
      | .error error => fail error
      | .ok _ =>
          .get (.resourceLease lease.sandboxID) fun existing =>
            match loadExistingAssignmentOwner existing instanceID with
            | .error error => fail error
            | .ok oldInstanceID => .exec (assignCommands instanceID oldInstanceID lease) commit

/-- `assignSandboxAtomically`: at most three attempts. -/
def assignSandboxAtomically (instanceID : String) (lease : Lease) (expected : ExpectedScope) :
    (attempts : ℕ) → Call
  | 0 => fail (.app .commonConflict "sandbox was updated by another process")
  | attempts + 1 =>
      .watch
        [.resourceLease lease.sandboxID, .assign instanceID, projectAssignKey lease.sandboxID,
          orgAssignKey lease.sandboxID]
        (runAssignSandboxTx instanceID lease expected fun committed =>
          if committed then .done (.ok none)
          else assignSandboxAtomically instanceID lease expected attempts)

/-- What `AssignSandbox` checks before it reads a scope: the lease to write and the
project of the instance. -/
def validateAssignment (directory : Directory)
    (snapshots : String → Option (Except ServiceError (List Resource)))
    (instanceID sandboxID : String) : Except ServiceError (Lease × ℤ) := do
  refuseIf (instanceID = "" ∨ sandboxID = "")
    (.app .commonInvalidParam "instanceID and sandboxID are required")
  let lease ← buildLeaseForAssignment snapshots instanceID sandboxID
  refuseIf (trimSpace instanceID = "") (.app .commonInvalidParam "instanceID is required")
  let _ ← validateSandboxOperationBatch [sandboxID]
  let projectID ← getInstanceByStringID directory instanceID
  return (lease, projectID)

def assignSandbox (directory : Directory)
    (snapshots : String → Option (Except ServiceError (List Resource))) (now : ℤ)
    (instanceID sandboxID : String) : Call :=
  match validateAssignment directory snapshots instanceID sandboxID with
  | .error error => fail error
  | .ok (lease, projectID) =>
      validateAssignmentScope directory sandboxID projectID fun expected =>
        assignSandboxAtomically instanceID { lease with createdAt := now } expected 3

/-- What `ReleaseLease` decides about the stored lease: refuse, leave it as already
released, or write it back without its use. -/
def planRelease (instanceID sandboxID : String) (stored : Option Lease) :
    Except ServiceError (Option Lease) :=
  if instanceID = "" ∨ sandboxID = "" then
    .error (.app .commonInvalidParam "instanceID and sandboxID are required")
  else match stored with
  | none => .error (.app .sandboxLeaseNotFound "sandbox not found")
  | some lease =>
      if lease.sandboxID ≠ sandboxID then
        .error (.app .sandboxLeaseNotFound "sandbox not found")
      else if lease.user ≠ instanceID then
        .error (.app .commonForbidden "sandbox is not assigned to this instance")
      else if lease.inUse then
        .ok (some { lease with inUse := false })
      else
        .ok none

theorem planRelease_some {instanceID sandboxID : String} {stored : Option Lease} {released : Lease}
    (planned : planRelease instanceID sandboxID stored = .ok (some released)) :
    ∃ lease, stored = some lease ∧ lease.sandboxID = sandboxID ∧ lease.user = instanceID ∧
      lease.inUse = true ∧ released = { lease with inUse := false } := by
  unfold planRelease at planned
  split_ifs at planned
  cases stored with
  | none => cases planned
  | some lease =>
      simp only at planned
      split_ifs at planned with name owner used
      · obtain rfl := Option.some.inj (Except.ok.inj planned)
        exact ⟨lease, rfl, not_not.mp name, not_not.mp owner, used, rfl⟩
      · cases Except.ok.inj planned

def releaseLease (instanceID sandboxID : String) (next : Except ServiceError Unit → Call) : Call :=
  .get (.resourceLease sandboxID) fun stored =>
    match planRelease instanceID sandboxID stored with
    | .error error => next (.error error)
    | .ok none => next (.ok ())
    | .ok (some released) =>
        .eval (fun _ => [set (.resourceLease sandboxID) released]) fun _ =>
          .eval (fun _ => [set (.cooldown sandboxID) ()]) fun _ => next (.ok ())

/-- `ReleaseSandbox`: looks at the lease and, if it is in use, releases it. -/
def releaseSandbox (instanceID sandboxID : String) (next : Except ServiceError Unit → Call) :
    Call :=
  .get (.resourceLease sandboxID) fun stored =>
    match planRelease instanceID sandboxID stored with
    | .error error => next (.error error)
    | .ok none => next (.ok ())
    | .ok (some _) => releaseLease instanceID sandboxID next

/-- `unassignSandboxLocked`: at most three rounds of `unassignSandboxOnce`. -/
def unassignSandboxLocked (instanceID sandboxID : String) : (attempts : ℕ) → Call
  | 0 => fail (.app .commonConflict "sandbox was updated by another process")
  | attempts + 1 =>
      .get (.resourceLease sandboxID) fun
        | none => .eval (fun _ => [hdel instanceID sandboxID]) fun _ => .done (.ok none)
        | some lease =>
            if lease.user ≠ instanceID then
              fail (.app .commonConflict "sandbox assignment owner changed")
            else if lease.inUse then
              releaseSandbox instanceID sandboxID fun
                | .ok _ => unassignSandboxLocked instanceID sandboxID attempts
                | .error (.app .commonForbidden _) =>
                    fail (.app .commonConflict "sandbox assignment owner changed")
                | .error (.app .sandboxLeaseNotFound _) =>
                    .eval (fun _ => [hdel instanceID sandboxID]) fun _ => .done (.ok none)
                | .error error => fail error
            else
              .watch [.resourceLease sandboxID, .assign instanceID] <|
                .get (.resourceLease sandboxID) fun
                  | none => .done (.ok none)
                  | some current =>
                      if current.user ≠ instanceID then
                        fail (.app .commonConflict "sandbox assignment owner changed")
                      else if current.inUse then
                        -- The transaction is given up, so nothing is watched any more.
                        .watch [] <| releaseSandbox instanceID sandboxID fun
                          | .ok _ => unassignSandboxLocked instanceID sandboxID attempts
                          | .error (.app .commonForbidden _) =>
                              fail (.app .commonConflict "sandbox assignment owner changed")
                          | .error error => fail error
                      else
                        .exec [hdel instanceID sandboxID, del (.resourceLease sandboxID)]
                          fun committed =>
                            if committed then .done (.ok none)
                            else unassignSandboxLocked instanceID sandboxID attempts

/-- What `UnassignSandbox` checks before its first round. -/
def validateUnassignment (instanceID sandboxID : String) : Except ServiceError Unit := do
  refuseIf (instanceID = "" ∨ sandboxID = "")
    (.app .commonInvalidParam "instanceID and sandboxID are required")
  refuseIf (trimSpace instanceID = "") (.app .commonInvalidParam "instanceID is required")
  let _ ← validateSandboxOperationBatch [sandboxID]
  return ()

def unassignSandbox (instanceID sandboxID : String) : Call :=
  match validateUnassignment instanceID sandboxID with
  | .error error => fail error
  | .ok _ => unassignSandboxLocked instanceID sandboxID 3

end Sico.Sandbox

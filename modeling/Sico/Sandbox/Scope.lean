import Mathlib.Data.List.Sort
import Mathlib.Data.String.Basic
import Sico.Sandbox.Keys

/-! # Scope bindings

Five calls bind sandboxes to organizations and projects and release them again. Four
of them validate every sandbox of the call inside a transaction that watches what it
reads, and queue all their writes in it; the initial claim of an organization is one
script. Each call is written as the program of the Redis commands it sends.
-/

namespace Sico.Sandbox

open Foundation Foundation.Keyspace

/-- An error, or success with the count that the call returns, if it returns one. -/
abbrev Outcome := Except ServiceError (Option ℕ)

abbrev Call := Program Value Outcome

def fail (error : ServiceError) : Call := .done (.error error)

def bindCommands (level : Level) (id : ℤ) (sandboxIDs : List String) : List RedisCommand :=
  sandboxIDs.flatMap fun sandboxID =>
    [set (.binding level sandboxID) id, sadd level id sandboxID]

/-- The writes that release the sandboxes from a scope. -/
def unbindCommands (level : Level) (id : ℤ) (sandboxIDs : List String) : List RedisCommand :=
  sandboxIDs.flatMap fun sandboxID =>
    [del (.binding level sandboxID), srem level id sandboxID]

/-- `runScopeMutation`: at most three attempts, each a transaction of its own. -/
def runScopeMutation (watchKeys : List Key) (mutation : (Bool → Call) → Call) :
    (attempts : ℕ) → Call
  | 0 => fail (.app .commonConflict "sandbox scope changed concurrently")
  | attempts + 1 =>
      .watch watchKeys (mutation fun committed =>
        if committed then .done (.ok none) else runScopeMutation watchKeys mutation attempts)

def validateOrgAssignment (sandboxID : String) (next : Call) : Call :=
  .get (orgAssignKey sandboxID) fun
    | some existing => fail (.app .sandboxAlreadyAssignedToOrg
        s!"sandbox {sandboxID} already assigned to org {existing}")
    | none => next

def assignSandboxToOrg (orgID : ℤ) (available sandboxIDs : List String) : Call :=
  match validateSandboxIDsExist available sandboxIDs with
  | .error error => fail error
  | .ok sandboxIDs =>
      runScopeMutation (sandboxIDs.map orgAssignKey ++ [orgSandboxesKey orgID])
        (fun commit => sandboxIDs.foldr validateOrgAssignment
          (.exec (bindCommands .organization orgID sandboxIDs) commit)) 3

/-- A sandbox is bound to the organization and to no project, else the call fails. -/
def requireOrgWithoutProject (orgID : ℤ) (hasProject : String → ServiceError)
    (sandboxID : String) (next : Call) : Call :=
  .get (orgAssignKey sandboxID) fun orgValue =>
    if orgValue ≠ some orgID then
      fail (.app .sandboxProjectMismatch s!"sandbox {sandboxID} is not assigned to org {orgID}")
    else
      .get (projectAssignKey sandboxID) fun
        | some _ => fail (hasProject sandboxID)
        | none => next

def validateOrgUnassignment (orgID : ℤ) : String → Call → Call :=
  requireOrgWithoutProject orgID fun sandboxID =>
    .app .sandboxHasProjectBindings s!"sandbox {sandboxID} still has a project binding"

def validateProjectAssignment (orgID : ℤ) : String → Call → Call :=
  requireOrgWithoutProject orgID fun sandboxID =>
    .app .sandboxAlreadyAssignedToProject s!"sandbox {sandboxID} already has a project binding"

def unassignSandboxFromOrg (orgID : ℤ) (sandboxIDs : List String) : Call :=
  match validateSandboxOperationBatch sandboxIDs with
  | .error error => fail error
  | .ok sandboxIDs =>
      runScopeMutation
        (sandboxIDs.flatMap (fun sandboxID => [orgAssignKey sandboxID, projectAssignKey sandboxID])
          ++ [orgSandboxesKey orgID])
        (fun commit => sandboxIDs.foldr (validateOrgUnassignment orgID)
          (.exec (unbindCommands .organization orgID sandboxIDs) commit)) 3

/-- `getProject`: the organization of a project, given that of each stored project. -/
def getProject (organizationOf : ℤ → Option ℤ) (projectID : ℤ) : Except ServiceError ℤ :=
  if projectID ≤ 0 then
    .error (.app .commonForbidden "project scope unavailable")
  else
    match organizationOf projectID with
    | none => .error (.app .commonNotFound "project not found")
    | some organizationID => .ok organizationID

theorem getProject_ok {organizationOf : ℤ → Option ℤ} {projectID organizationID : ℤ}
    (found : getProject organizationOf projectID = .ok organizationID) :
    organizationOf projectID = some organizationID := by
  unfold getProject at found
  split at found
  · cases found
  · split at found
    · cases found
    · cases found
      assumption

/-- What `AssignSandboxToProject` checks before its transaction. -/
def validateProjectRequest (organizationOf : ℤ → Option ℤ) (projectID orgID : ℤ)
    (available sandboxIDs : List String) : Except ServiceError (List String) := do
  let sandboxIDs ← validateSandboxIDsExist available sandboxIDs
  let organizationID ← getProject organizationOf projectID
  refuseIf (orgID ≤ 0 ∨ organizationID ≠ orgID)
    (.app .sandboxProjectMismatch
      s!"project {projectID} belongs to org {organizationID}, not {orgID}")
  return sandboxIDs

def assignSandboxToProject (organizationOf : ℤ → Option ℤ) (projectID orgID : ℤ)
    (available sandboxIDs : List String) : Call :=
  match validateProjectRequest organizationOf projectID orgID available sandboxIDs with
  | .error error => fail error
  | .ok sandboxIDs =>
      runScopeMutation
        (sandboxIDs.flatMap (fun sandboxID => [orgAssignKey sandboxID, projectAssignKey sandboxID])
          ++ [projectSandboxesKey projectID])
        (fun commit => sandboxIDs.foldr (validateProjectAssignment orgID)
          (.exec (bindCommands .project projectID sandboxIDs) commit)) 3

/-- Every sandbox is bound to the project, else the call fails; goes on with the leases
that exist. -/
def loadProjectUnassignmentLeases (projectID : ℤ) :
    List String → (List (String × Lease) → Call) → Call
  | [], next => next []
  | sandboxID :: rest, next =>
      .get (projectAssignKey sandboxID) fun projectValue =>
        if projectValue ≠ some projectID then
          fail (.app .sandboxProjectMismatch
            s!"sandbox {sandboxID} is not assigned to project {projectID}")
        else
          .get (.resourceLease sandboxID) fun lease =>
            loadProjectUnassignmentLeases projectID rest fun leases =>
              next (lease.elim leases fun lease => (sandboxID, lease) :: leases)

/-- What is written about the lease of a sandbox that leaves its project. -/
def removeLease (sandboxID : String) : Option Lease → List RedisCommand
  | none => []
  | some lease =>
      (if lease.user ≠ "" then [hdel lease.user sandboxID] else []) ++
        [del (.resourceLease sandboxID)] ++
        (if lease.inUse then [set (.cooldown sandboxID) ()] else [])

def writeProjectUnassignment (projectID : ℤ) (sandboxIDs : List String)
    (leases : List (String × Lease)) : List RedisCommand :=
  sandboxIDs.flatMap fun sandboxID =>
    removeLease sandboxID (leases.lookup sandboxID) ++
      [del (projectAssignKey sandboxID), srem .project projectID sandboxID]

def unassignSandboxFromProject (projectID : ℤ) (sandboxIDs : List String) : Call :=
  match validateSandboxOperationBatch sandboxIDs with
  | .error error => fail error
  | .ok sandboxIDs =>
      runScopeMutation
        (sandboxIDs.flatMap (fun sandboxID => [projectAssignKey sandboxID, .resourceLease sandboxID])
          ++ [projectSandboxesKey projectID])
        (fun commit => loadProjectUnassignmentLeases projectID sandboxIDs fun leases =>
          .exec (writeProjectUnassignment projectID sandboxIDs leases) commit) 3

/-- The leases of the listed resources: each with the ID it is shown under and whether
it is leased. -/
def listLeases : List String → (List (String × Bool) → Call) → Call
  | [], next => next []
  | resource :: rest, next =>
      .get (.resourceLease resource) fun lease =>
        let item := lease.elim (resource, false) fun lease =>
          if lease.sandboxID = "" then (resource, false) else (lease.sandboxID, true)
        listLeases rest fun items => next (item :: items)

/-- The stored bindings of the sandboxes, organization and project. -/
def readBindings : List String → (List (String × Option ℤ × Option ℤ) → Call) → Call
  | [], next => next []
  | sandboxID :: rest, next =>
      .get (orgAssignKey sandboxID) fun orgValue =>
        .get (projectAssignKey sandboxID) fun projectValue =>
          readBindings rest fun bindings => next ((sandboxID, orgValue, projectValue) :: bindings)

/-- `strictScopeBinding`: a missing binding reads as 0. -/
def strictScopeBinding (scope sandboxID : String) : Option ℤ → Except ServiceError ℤ
  | none => .ok 0
  | some id =>
      if id ≤ 0 then
        .error (.plain s!"read {scope} binding for {sandboxID}: invalid scope ID \"{id}\"")
      else .ok id

/-- `loadScopeBindingsStrict`: the sandboxes with their organization and project, or the
first binding that is no scope ID. -/
def strictBindings (bindings : List (String × Option ℤ × Option ℤ)) :
    Except ServiceError (List (String × ℤ × ℤ)) :=
  bindings.mapM fun (sandboxID, orgValue, projectValue) => do
    let orgID ← strictScopeBinding "organization" sandboxID orgValue
    let projectID ← strictScopeBinding "project" sandboxID projectValue
    return (sandboxID, orgID, projectID)

/-- `collectUnassignedSandboxIDs`: the listed sandboxes without lease and without scope. -/
def collectUnassignedSandboxIDs (items : List (String × Bool))
    (bindings : List (String × ℤ × ℤ)) : List String :=
  ((items.filter fun item =>
      bindings.reverse.lookup item.1 = some (0, 0) ∧ item.2 = false ∧ item.1 ≠ "").map (·.1)).insertionSort
    (· ≤ ·)

/-- The sandboxes that the claim script binds: those without organization when the
script comes to them. -/
def claimTargets (store : Redis) (sandboxIDs : List String) : List String :=
  sandboxIDs.foldl
    (fun taken sandboxID =>
      if (store (orgAssignKey sandboxID)).isSome ∨ sandboxID ∈ taken then taken
      else taken ++ [sandboxID])
    []

def claimScript (orgID : ℤ) (sandboxIDs : List String) : Call :=
  .eval
    (fun store =>
      if (store .initialOrgClaim).isSome then []
      else bindCommands .organization orgID (claimTargets store sandboxIDs) ++
        [set .initialOrgClaim orgID])
    (fun store =>
      .done (.ok (some
        (if (store .initialOrgClaim).isSome then 0 else (claimTargets store sandboxIDs).length))))

/-- `ClaimUnassignedSandboxesForOrg`, with the resources of the snapshot and the missing
sandboxes that are shown for their leases. -/
def claimUnassignedSandboxesForOrg (orgID : ℤ) (listed missing : List String) : Call :=
  if orgID ≤ 0 then
    fail (.app .commonInvalidParam "organization ID must be positive")
  else
    listLeases listed fun items =>
      let shown := items ++ missing.map fun sandboxID => (sandboxID, true)
      readBindings (shown.map (·.1)) fun bindings =>
        match strictBindings bindings with
        | .error error => fail error
        | .ok bindings => claimScript orgID (collectUnassignedSandboxIDs shown bindings)

/-- A call that changes scope bindings, with its arguments and what it reads of the
resource listing. -/
inductive ScopeCall where
  | assignSandboxToOrg (orgID : ℤ) (available sandboxIDs : List String)
  | claimUnassignedSandboxesForOrg (orgID : ℤ) (listed missing : List String)
  | unassignSandboxFromOrg (orgID : ℤ) (sandboxIDs : List String)
  | assignSandboxToProject (projectID orgID : ℤ) (available sandboxIDs : List String)
  | unassignSandboxFromProject (projectID : ℤ) (sandboxIDs : List String)
  deriving Repr, DecidableEq

def ScopeCall.program (organizationOf : ℤ → Option ℤ) : ScopeCall → Call
  | .assignSandboxToOrg orgID available sandboxIDs =>
      Sandbox.assignSandboxToOrg orgID available sandboxIDs
  | .claimUnassignedSandboxesForOrg orgID listed missing =>
      Sandbox.claimUnassignedSandboxesForOrg orgID listed missing
  | .unassignSandboxFromOrg orgID sandboxIDs => Sandbox.unassignSandboxFromOrg orgID sandboxIDs
  | .assignSandboxToProject projectID orgID available sandboxIDs =>
      Sandbox.assignSandboxToProject organizationOf projectID orgID available sandboxIDs
  | .unassignSandboxFromProject projectID sandboxIDs =>
      Sandbox.unassignSandboxFromProject projectID sandboxIDs

end Sico.Sandbox

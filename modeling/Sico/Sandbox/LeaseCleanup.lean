import Sico.Sandbox.Leasing
import Sico.Sandbox.Tenancy

/-! # Cleaning up assignments

The lease of a sandbox names its instance, and the hash of the instance lists the sandbox.
Besides assigning and unassigning, three calls write to them: looking up the leases of an
instance drops the entries of its hash that have no lease of the instance, the cleanup of
an instance unassigns every lease that names it, and the reconciliation with the providers
deletes leases that have been missing for long.
-/

namespace Sico.Sandbox

open Foundation Foundation.Keyspace

/-- `getLease`: a lease under a foreign ID counts as none. -/
def getLease (sandboxID : String) (next : Except ServiceError Lease → Call) : Call :=
  .get (.resourceLease sandboxID) fun
    | none => next (.error (.app .sandboxLeaseNotFound "sandbox not found"))
    | some lease =>
        if lease.sandboxID ≠ sandboxID then
          next (.error (.app .sandboxLeaseNotFound "sandbox not found"))
        else
          next (.ok lease)

/-- The entries of `loadAssignedLeases`, one after another. -/
def loadAssignedEntries (instanceID : String) : List String → (List Lease → Call) → Call
  | [], next => next []
  | sandboxID :: rest, next =>
      getLease sandboxID fun
        | .error _ =>
            .eval (fun _ => [hdel instanceID sandboxID]) fun _ =>
              loadAssignedEntries instanceID rest next
        | .ok lease =>
            if lease.user ≠ instanceID then
              .eval (fun _ => [hdel instanceID sandboxID]) fun _ =>
                loadAssignedEntries instanceID rest next
            else
              loadAssignedEntries instanceID rest fun leases => next (lease :: leases)

/-- `loadAssignedLeases`: the leases that the hash of the instance lists. -/
def loadAssignedLeases (instanceID : String) (next : List Lease → Call) : Call :=
  .get (.assign instanceID) fun fields =>
    loadAssignedEntries instanceID
      ((Option.getD (α := List (String × String)) fields []).map (·.1)) next

def hasAssignedSandboxesStrict (instanceID : String) : Call :=
  loadAssignedLeases instanceID fun leases => .done (.ok (some leases.length))

/-- The leases under the scanned keys that name the instance. -/
def leasesOfInstance (instanceID : String) : List String → (List Lease → Call) → Call
  | [], next => next []
  | sandboxID :: rest, next =>
      getLease sandboxID fun
        | .error _ => leasesOfInstance instanceID rest next
        | .ok lease =>
            if lease.user ≠ instanceID then leasesOfInstance instanceID rest next
            else leasesOfInstance instanceID rest fun leases => next (lease :: leases)

/-- The release that `cleanupSingleInstanceLease` begins with. -/
def releaseForCleanup (instanceID : String) (lease : Lease) : Call :=
  if lease.inUse then
    releaseSandbox instanceID lease.sandboxID fun
      | .ok _ => .done (.ok none)
      | .error error => fail error
  else
    .done (.ok none)

/-- `cleanupSingleInstanceLease`: whether the lease was removed. A conflict is skipped. -/
def cleanupSingleInstanceLease (instanceID : String) (lease : Lease) :
    Program Value (Except ServiceError Bool) :=
  (releaseForCleanup instanceID lease).bind fun
    | .error error => .done (.error error)
    | .ok _ =>
        (unassignSandbox instanceID lease.sandboxID).bind fun
          | .ok _ => .done (.ok true)
          | .error (.app .commonConflict _) => .done (.ok false)
          | .error error => .done (.error error)

/-- `cleanupInstanceLeases`, with the number of leases removed and the first error so far. -/
def cleanupInstanceLeases (instanceID : String) :
    List Lease → (cleaned : ℕ) → (firstErr : Option ServiceError) → Call
  | [], cleaned, none => .done (.ok (some cleaned))
  | [], _, some error => fail error
  | lease :: rest, cleaned, firstErr =>
      if lease.user ≠ instanceID then
        cleanupInstanceLeases instanceID rest cleaned firstErr
      else
        (cleanupSingleInstanceLease instanceID lease).bind fun
          | .ok removed =>
              cleanupInstanceLeases instanceID rest (if removed then cleaned + 1 else cleaned)
                firstErr
          | .error error =>
              cleanupInstanceLeases instanceID rest cleaned (some (firstErr.getD error))

/-- `cleanupInstanceSandboxes`, given the keys that its scan returned. -/
def cleanupInstanceSandboxes (instanceID : String) (keys : List String) : Call :=
  if trimSpace instanceID = "" then
    fail (.app .commonInvalidParam "instanceID is required")
  else
    leasesOfInstance (trimSpace instanceID) keys fun leases =>
      cleanupInstanceLeases (trimSpace instanceID) leases 0 none

/-- A call that writes leases or assignments, with its arguments and what its scan
returned. -/
inductive LeaseCall where
  | tenant (call : TenantCall)
  | hasAssignedSandboxesStrict (instanceID : String)
  | cleanupInstanceSandboxes (instanceID : String) (keys : List String)
  | reconcile (settings : PoolSettings) (observed : Observed) (now : ℤ) (keys : List String)

def LeaseCall.program (directory : Directory) : LeaseCall → Call
  | .tenant call => call.program directory
  | .hasAssignedSandboxesStrict instanceID => Sandbox.hasAssignedSandboxesStrict instanceID
  | .cleanupInstanceSandboxes instanceID keys => Sandbox.cleanupInstanceSandboxes instanceID keys
  | .reconcile settings observed now keys => reconcileLeaseProviderState settings observed now keys

/-- Calls that complete one after another. -/
def leaseCalls (directory : Directory) : System Redis LeaseCall where
  step before call after := after = ((call.program directory).alone before).1

end Sico.Sandbox

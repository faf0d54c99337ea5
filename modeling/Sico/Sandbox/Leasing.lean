import Sico.Foundation.JsonFinding
import Sico.Sandbox.Assignment

/-! # Leases in use

Sessions acquire a sandbox that is assigned to their instance and release it, while
assignments and the reconciliation of leases with the providers' inventory run in the
background. Every Redis command is a step of its own, and all interleave. An acquire
is a script; a release reads the lease and writes it back; a reconciliation reads many
leases at once and writes some of them back later.
-/

namespace Sico.Sandbox

open Foundation Foundation.Keyspace

/-- Whether the text of the lease holds the owner fragment that the acquire script looks
for: as its user, or as an entry of its metadata whose key looks like that. -/
def Lease.namesOwner (lease : Lease) (instanceID : String) : Bool :=
  lease.user = instanceID ∨
    ∃ entry ∈ lease.metadata, Json.NamesLike "User".toList entry.1 ∧ entry.2 = instanceID

/-- `acquireLeaseScript`: the lease with its use marked, or nothing. -/
def acquireLeaseScript (store : Redis) (instanceID sandboxID : String) : Option Lease :=
  match store (.resourceLease sandboxID) with
  | none => none
  | some lease =>
      if (store (.cooldown sandboxID)).isSome then none
      else if lease.namesOwner instanceID = false then none
      else if lease.inUse then none
      else some { lease with inUse := true }

/-- What a reconciliation does about a lease it has read. -/
inductive Reconciled where
  | left
  | persisted (lease : Lease)
  | deleted
  deriving Repr, DecidableEq

def PoolSettings.shouldDeleteMissingLease (settings : PoolSettings) (now : ℤ) :
    (missingSinceAt : Option ℤ) → Bool
  | none => false
  | some since => settings.missingLeaseDeleteAfter > 0 ∧ now - since ≥ settings.missingLeaseDeleteAfter

/-- `reconcileLeaseEntry`, given the status that the provider reports for the key. -/
def reconcileLeaseEntry (settings : PoolSettings) (now : ℤ) (observed : Option ResourceStatus)
    (lease : Lease) : Reconciled :=
  if observed = some .available then
    if lease.providerMissingSinceAt = none then .left
    else .persisted { lease with providerMissingSinceAt := none }
  else if lease.providerMissingSinceAt = none then
    .persisted { lease with providerMissingSinceAt := some now }
  else if settings.shouldMarkMissingResourceUnhealthy now lease.providerMissingSinceAt = false then
    .left
  else if settings.shouldDeleteMissingLease now lease.providerMissingSinceAt = false then
    .left
  else
    .deleted

def deleteLeaseAndAssignment (lease : Lease) : List RedisCommand :=
  del (.resourceLease lease.sandboxID) ::
    if lease.user ≠ "" then [hdel lease.user lease.sandboxID] else []

/-- The statuses that a refresh observed: for each type with a provider, by sandbox. -/
abbrev Observed := String → Option (String → Option ResourceStatus)

/-- The entries of a reconciliation, one after another, with the number of leases
deleted so far. -/
def reconcileEntries (settings : PoolSettings) (observed : Observed) (now : ℤ) :
    List (String × Option Lease) → (deleted : ℕ) → Call
  | [], deleted => .done (.ok (some deleted))
  | (_, none) :: rest, deleted => reconcileEntries settings observed now rest deleted
  | (key, some lease) :: rest, deleted =>
      match observed lease.type with
      | none => reconcileEntries settings observed now rest deleted
      | some statuses =>
          match reconcileLeaseEntry settings now (statuses key) lease with
          | .left => reconcileEntries settings observed now rest deleted
          | .persisted written =>
              .eval (fun _ => [set (.resourceLease written.sandboxID) written]) fun _ =>
                reconcileEntries settings observed now rest deleted
          | .deleted =>
              .eval (fun _ => deleteLeaseAndAssignment lease) fun _ =>
                reconcileEntries settings observed now rest (deleted + 1)

/-- `reconcileLeaseProviderState`, given the keys that its scan returned: all their
leases are read at once. -/
def reconcileLeaseProviderState (settings : PoolSettings) (observed : Observed) (now : ℤ)
    (keys : List String) : Call :=
  .eval (fun _ => []) fun store =>
    reconcileEntries settings observed now
      (keys.map fun key => (key, store (.resourceLease key))) 0

/-- What runs in the background. -/
inductive Background where
  | assign (directory : Directory)
      (snapshots : String → Option (Except ServiceError (List Resource))) (now : ℤ)
      (instanceID sandboxID : String)
  | reconcile (settings : PoolSettings) (observed : Observed) (now : ℤ) (keys : List String)

def Background.program : Background → Call
  | .assign directory snapshots now instanceID sandboxID =>
      assignSandbox directory snapshots now instanceID sandboxID
  | .reconcile settings observed now keys => reconcileLeaseProviderState settings observed now keys

/-- A session before each of its commands: the acquire reads the assignments and tries
the assigned candidates in turn; a holder may release once. -/
inductive Session where
  | applying (instanceID : String) (candidates : List String)
  | acquiring (instanceID : String) (candidates : List String)
  | holding (instanceID sandboxID : String)
  | releasing (instanceID sandboxID : String) (released : Lease)
  | cooling (sandboxID : String)
  | finished
  deriving Repr, DecidableEq

/-- The session has acquired the sandbox and its release has not been written. -/
def Session.Holds (session : Session) (sandboxID : String) : Prop :=
  match session with
  | .holding _ held => held = sandboxID
  | .releasing _ held _ => held = sandboxID
  | _ => False

instance : (session : Session) → (sandboxID : String) → Decidable (session.Holds sandboxID)
  | .applying _ _, _ => inferInstanceAs (Decidable False)
  | .acquiring _ _, _ => inferInstanceAs (Decidable False)
  | .holding _ held, sandboxID => inferInstanceAs (Decidable (held = sandboxID))
  | .releasing _ held _, sandboxID => inferInstanceAs (Decidable (held = sandboxID))
  | .cooling _, _ => inferInstanceAs (Decidable False)
  | .finished, _ => inferInstanceAs (Decidable False)

/-- `HGETALL`: the sandboxes assigned to an instance. -/
def assignments (store : Redis) (instanceID : String) : List String :=
  (Option.getD (α := List (String × String)) (store (.assign instanceID)) []).map (·.1)

/-- One command of a session: what it writes and what it goes on as. -/
def Session.command (store : Redis) : Session → Option (List RedisCommand × Session)
  | .applying instanceID candidates =>
      if instanceID = "" ∨ candidates = [] then some ([], .finished)
      else some ([], .acquiring instanceID
        (candidates.filter fun candidate => candidate ∈ assignments store instanceID))
  | .acquiring _ [] => some ([], .finished)
  | .acquiring instanceID (sandboxID :: rest) =>
      match acquireLeaseScript store instanceID sandboxID with
      | none => some ([], .acquiring instanceID rest)
      | some lease => some ([set (.resourceLease sandboxID) lease], .holding instanceID sandboxID)
  | .holding instanceID sandboxID =>
      match planRelease instanceID sandboxID (store (.resourceLease sandboxID)) with
      | .ok (some released) => some ([], .releasing instanceID sandboxID released)
      | _ => some ([], .finished)
  | .releasing _ sandboxID released =>
      some ([set (.resourceLease sandboxID) released], .cooling sandboxID)
  | .cooling sandboxID => some ([set (.cooldown sandboxID) ()], .finished)
  | .finished => none

structure LeasePool where
  store : Redis
  sessions : ℕ → Session
  background : ℕ → Process Value Outcome

/-- A step of a session or of a background process, a watched key written with the value
it had, or the end of a cooldown. -/
inductive LeaseEvent where
  | session (client : ℕ)
  | background (client : ℕ)
  | touch (client : ℕ)
  | cooldownExpired (sandboxID : String)
  deriving Repr, DecidableEq

/-- The pool after commands have been applied: the background processes notice them. -/
def LeasePool.write (pool : LeasePool) (commands : List RedisCommand) : LeasePool :=
  let after := applyAll commands pool.store
  { pool with
    store := after
    background := fun client => (pool.background client).notice pool.store after }

def LeasePool.next (pool : LeasePool) : LeaseEvent → Option LeasePool
  | .session client =>
      ((pool.sessions client).command pool.store).map fun (commands, session) =>
        { pool.write commands with sessions := Function.update pool.sessions client session }
  | .background client =>
      if (pool.background client).program.isDone then none
      else
        let outcome := (pool.background client).advance pool.store
        some { pool with
          store := outcome.1
          background := Function.update
            (fun other => (pool.background other).notice pool.store outcome.1) client outcome.2 }
  | .touch client =>
      some { pool with
        background := Function.update pool.background client
          { pool.background client with dirty := true } }
  | .cooldownExpired sandboxID => some (pool.write [del (.cooldown sandboxID)])

def leasing : System LeasePool LeaseEvent := .ofNext LeasePool.next

/-- Sessions that are about to apply and background work that is about to begin. -/
def LeasePool.start (store : Redis) (applications : ℕ → String × List String)
    (work : ℕ → Background) : LeasePool where
  store := store
  sessions client := .applying (applications client).1 (applications client).2
  background client := .launch (work client).program

end Sico.Sandbox

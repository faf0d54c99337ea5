import Mathlib.Data.Finset.Basic
import Sico.Foundation.Basic
import Sico.Foundation.Keyspace

/-! # The sandbox keys

The sandbox service keeps its bindings and leases in one Redis keyspace. A key
belongs to a family, and each family holds values of one kind: a scope binding and
the set that reverses it, a lease, the hash of an instance's assignments, a cooldown
mark and the mark of the first organization's claim.
-/

namespace Sico.Sandbox

open Foundation Foundation.Keyspace

inductive ErrCode where
  | commonInvalidParam
  | commonForbidden
  | commonNotFound
  | commonConflict
  | sandboxProviderUnavailable
  | sandboxLeaseNotFound
  | sandboxAlreadyAssignedToOrg
  | sandboxAlreadyAssignedToProject
  | sandboxHasProjectBindings
  | sandboxProjectMismatch
  deriving Repr, DecidableEq

/-- An application error with its code, or any other error. -/
inductive ServiceError where
  | app (code : ErrCode) (message : String)
  | plain (message : String)
  deriving Repr, DecidableEq

/-- The status of a resource; `unset` is the empty text. -/
inductive ResourceStatus where
  | unset
  | unknown
  | available
  | assigned
  | inUse
  | unhealthy
  | unavailable
  deriving Repr, DecidableEq

structure Resource where
  type : String
  resourceID : String
  displayName : String
  status : ResourceStatus
  metadata : List (String × String)
  lastSeenAt : Option ℤ
  missingSinceAt : Option ℤ
  deriving Repr, DecidableEq

/-- The resources eligible for a new assignment. -/
def allocatableResources (resources : List Resource) : List Resource :=
  resources.filter fun resource =>
    resource.resourceID ≠ "" ∧ resource.status = .available ∧ resource.missingSinceAt = none

structure Lease where
  sandboxID : String
  type : String
  resourceID : String
  user : String
  inUse : Bool
  createdAt : ℤ
  metadata : List (String × String)
  providerMissingSinceAt : Option ℤ
  deriving Repr, DecidableEq

/-- What the lease keys start with, the pool's durations in nanoseconds and its number of
shrink confirmations; what is not positive stands for a default or for never. -/
structure PoolSettings where
  resourceKeySpace : String
  refreshInterval : ℤ
  shrinkConfirmations : ℤ
  missingLeaseMarkAfter : ℤ
  missingLeaseHideAfter : ℤ
  missingLeaseDeleteAfter : ℤ
  deriving Repr, DecidableEq

def second : ℤ := 1000000000

def PoolSettings.missingLeaseMarkAfterDuration (settings : PoolSettings) : ℤ :=
  if settings.missingLeaseMarkAfter > 0 then settings.missingLeaseMarkAfter
  else if settings.refreshInterval > 0 then settings.refreshInterval * 2
  else 30 * second

def PoolSettings.shouldMarkMissingResourceUnhealthy (settings : PoolSettings) (now : ℤ) :
    (missingSinceAt : Option ℤ) → Bool
  | none => false
  | some since => now - since ≥ settings.missingLeaseMarkAfterDuration

/-- The two levels at which a sandbox is bound. -/
inductive Level where
  | organization
  | project
  deriving Repr, DecidableEq

inductive Key where
  | binding (level : Level) (sandboxID : String)
  | sandboxes (level : Level) (id : ℤ)
  | resourceLease (sandboxID : String)
  | assign (instanceID : String)
  | cooldown (sandboxID : String)
  | initialOrgClaim
  deriving Repr, DecidableEq

abbrev orgAssignKey (sandboxID : String) : Key := .binding .organization sandboxID

abbrev projectAssignKey (sandboxID : String) : Key := .binding .project sandboxID

abbrev orgSandboxesKey (orgID : ℤ) : Key := .sandboxes .organization orgID

abbrev projectSandboxesKey (projectID : ℤ) : Key := .sandboxes .project projectID

/-- What a key of each family holds. An identifier stands for its decimal text. -/
@[reducible] def Value : Key → Type
  | .binding _ _ => ℤ
  | .sandboxes _ _ => Finset String
  | .resourceLease _ => Lease
  | .assign _ => List (String × String)
  | .cooldown _ => Unit
  | .initialOrgClaim => ℤ

instance : (key : Key) → DecidableEq (Value key)
  | .binding _ _ => inferInstanceAs (DecidableEq ℤ)
  | .sandboxes _ _ => inferInstanceAs (DecidableEq (Finset String))
  | .resourceLease _ => inferInstanceAs (DecidableEq Lease)
  | .assign _ => inferInstanceAs (DecidableEq (List (String × String)))
  | .cooldown _ => inferInstanceAs (DecidableEq Unit)
  | .initialOrgClaim => inferInstanceAs (DecidableEq ℤ)

abbrev Redis := Store Value

abbrev RedisCommand := Command Value

def set (key : Key) (value : Value key) : RedisCommand := ⟨key, fun _ => some value⟩

def del (key : Key) : RedisCommand := ⟨key, fun _ => none⟩

def sadd (level : Level) (id : ℤ) (member : String) : RedisCommand where
  key := .sandboxes level id
  change members := some (insert member (Option.getD (α := Finset String) members ∅))

/-- `SREM`: a set that loses its last member is no longer there. -/
def srem (level : Level) (id : ℤ) (member : String) : RedisCommand where
  key := .sandboxes level id
  change members :=
    let rest := Finset.erase (Option.getD (α := Finset String) members ∅) member
    if rest = ∅ then none else some rest

def hset (instanceID field value : String) : RedisCommand where
  key := .assign instanceID
  change fields :=
    some ((field, value) ::
      (Option.getD (α := List (String × String)) fields []).filter (·.1 ≠ field))

def hdel (instanceID field : String) : RedisCommand where
  key := .assign instanceID
  change fields :=
    let rest := (Option.getD (α := List (String × String)) fields []).filter (·.1 ≠ field)
    if rest = [] then none else some rest

def members (store : Redis) (level : Level) (id : ℤ) : Finset String :=
  Option.getD (α := Finset String) (store (.sandboxes level id)) ∅

def maxSandboxOperationLockBatch : ℕ := 100

/-- The trimmed nonblank IDs, each once, in the order of their first occurrence. -/
def uniqueSandboxIDs (sandboxIDs : List String) : List String :=
  sandboxIDs.foldl
    (fun result sandboxID =>
      let sandboxID := trimSpace sandboxID
      if sandboxID = "" ∨ sandboxID ∈ result then result else result ++ [sandboxID])
    []

def validateSandboxOperationBatch (sandboxIDs : List String) :
    Except ServiceError (List String) := do
  let uniqueIDs := uniqueSandboxIDs sandboxIDs
  refuseIf (uniqueIDs = []) (.app .commonInvalidParam "sandbox IDs are required")
  refuseIf (uniqueIDs.length > maxSandboxOperationLockBatch)
    (.app .commonInvalidParam s!"at most {maxSandboxOperationLockBatch} sandbox IDs are allowed")
  return uniqueIDs

/-- `validateSandboxIDsExist`, with the IDs that the pool lists. -/
def validateSandboxIDsExist (available sandboxIDs : List String) :
    Except ServiceError (List String) := do
  let uniqueIDs ← validateSandboxOperationBatch sandboxIDs
  match uniqueIDs.find? (fun sandboxID => sandboxID ∉ available) with
  | some missing =>
      throw (.app .commonNotFound s!"sandbox resource not found: {missing}")
  | none => return uniqueIDs

end Sico.Sandbox

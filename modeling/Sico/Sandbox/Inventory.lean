import Mathlib.Data.List.Sort
import Mathlib.Data.String.Basic
import Sico.Sandbox.Keys

/-! # The inventory of one provider

A refresh lists what a provider has and merges the listing with the stored snapshot. A
resource observed at the last refresh that is missing from the listing delays the
merge until the same shrink has been seen often enough within a window; meanwhile the
old snapshot is kept, with the missing resources marked. A single resource that was
resolved on the side is merged into the stored snapshot at any time.
-/

namespace Sico.Sandbox

open Foundation

/-- `ResourceSnapshot`; `none` stands for the zero time. -/
structure ResourceSnapshot where
  refreshedAt : Option ℤ
  resources : List Resource
  deriving Repr, DecidableEq

structure PendingShrinkState where
  baseSignature : String
  candidateSignature : String
  attempts : ℤ
  seenAt : Option ℤ
  deriving Repr, DecidableEq

def PoolSettings.requiredShrinkConfirmations (settings : PoolSettings) : ℤ :=
  if settings.shrinkConfirmations ≤ 0 then 2 else settings.shrinkConfirmations

def PoolSettings.pendingShrinkWindowDuration (settings : PoolSettings) : ℤ :=
  if settings.refreshInterval > 0 then settings.refreshInterval * 2 + 5 * second else 35 * second

def PoolSettings.shouldHideMissingResource (settings : PoolSettings) (now : ℤ) :
    (missingSinceAt : Option ℤ) → Bool
  | none => false
  | some since => settings.missingLeaseHideAfter > 0 ∧ now - since ≥ settings.missingLeaseHideAfter

def normalizeProviderResourceStatus (status : ResourceStatus) : ResourceStatus :=
  if status = .available then .available else .unhealthy

def statusText (status : ResourceStatus) : String :=
  if normalizeProviderResourceStatus status = .available then "available" else "unhealthy"

def PoolSettings.resourceKey (settings : PoolSettings) (resource : Resource) : String :=
  settings.resourceKeySpace ++ resource.type ++ ":" ++ resource.resourceID

def resourceStateSignature (settings : PoolSettings) (resources : List Resource) : String :=
  String.intercalate "|"
    (((resources.filter (·.resourceID ≠ "")).map fun resource =>
      settings.resourceKey resource ++ "=" ++ statusText resource.status).insertionSort (· ≤ ·))

/-- `snapshotObservedResources`: those last seen by the refresh that wrote the snapshot. -/
def snapshotObservedResources : Option ResourceSnapshot → List Resource
  | none => []
  | some snapshot =>
      match snapshot.refreshedAt with
      | none => []
      | some refreshedAt => snapshot.resources.filter (·.lastSeenAt = some refreshedAt)

def listedIDs (listing : List Resource) : List String :=
  (listing.map (·.resourceID)).filter (· ≠ "")

def missingObservedResourceIDs (snapshot : Option ResourceSnapshot) (current : List Resource) :
    List String :=
  ((listedIDs (snapshotObservedResources snapshot)).filter (· ∉ listedIDs current)).insertionSort
    (· ≤ ·)

/-- `cloneSnapshotWithRefreshedAt` on one resource. -/
def reseen (refreshedAt : Option ℤ) (now : ℤ) (resource : Resource) : Resource :=
  if resource.lastSeenAt ≠ none ∧ resource.lastSeenAt = refreshedAt then
    { resource with lastSeenAt := some now }
  else resource

/-- `mergeCurrentResourceState` on one resource: the last listed resource of its ID. -/
def mergeCurrent (current : List Resource) (now : ℤ) (resource : Resource) : Resource :=
  if resource.resourceID = "" then resource
  else
    match current.reverse.find? (·.resourceID = resource.resourceID) with
    | none => resource
    | some listed =>
        { resource with
          status := normalizeProviderResourceStatus listed.status
          displayName := listed.displayName
          metadata := listed.metadata
          lastSeenAt := some now
          missingSinceAt := none }

/-- `markMissingSinceAt` on one resource. -/
def markMissing (missingIDs : List String) (now : ℤ) (resource : Resource) : Resource :=
  if resource.resourceID ≠ "" ∧ resource.resourceID ∈ missingIDs ∧ resource.missingSinceAt = none
  then { resource with missingSinceAt := some now }
  else resource

/-- The snapshot that stays while a shrink is delayed. -/
def delayedSnapshot (previous : ResourceSnapshot) (current : List Resource)
    (missingIDs : List String) (now : ℤ) : ResourceSnapshot where
  refreshedAt := some now
  resources := previous.resources.map fun resource =>
    markMissing missingIDs now (mergeCurrent current now (reseen previous.refreshedAt now resource))

def nonAvailableSinceForObservedResource (previous : Option Resource) (now : ℤ) : ℤ :=
  (previous.bind (·.missingSinceAt)).getD now

def nonAvailableSinceForMissingResource (previous : Resource) (now : ℤ) : ℤ :=
  (previous.missingSinceAt <|> previous.lastSeenAt).getD now

def nextSnapshotResourceFromCurrent (settings : PoolSettings) (resource : Resource)
    (previous : Option Resource) (now : ℤ) : Resource :=
  let status := normalizeProviderResourceStatus resource.status
  let missingSinceAt :=
    if status = .available then none
    else some (nonAvailableSinceForObservedResource previous now)
  { resource with
    status :=
      if status ≠ .available ∧ settings.shouldHideMissingResource now missingSinceAt
      then .unavailable else status
    lastSeenAt := some now
    missingSinceAt := missingSinceAt }

def nextSnapshotResourceFromMissing (settings : PoolSettings) (resource : Resource) (now : ℤ) :
    Resource :=
  let missingSinceAt := some (nonAvailableSinceForMissingResource resource now)
  let kept :=
    if resource.status = .unset ∨ resource.status = .unavailable then .available
    else resource.status
  let marked :=
    if settings.shouldMarkMissingResourceUnhealthy now missingSinceAt then .unhealthy else kept
  { resource with
    status := if settings.shouldHideMissingResource now missingSinceAt then .unavailable else marked
    missingSinceAt := missingSinceAt }

/-- `buildNextSnapshotResources`: what is listed, then what was known and is not listed. -/
def buildNextSnapshotResources (settings : PoolSettings) (current previous : List Resource)
    (now : ℤ) : List Resource :=
  current.map (fun resource =>
      nextSnapshotResourceFromCurrent settings resource
        (previous.reverse.find? (settings.resourceKey · = settings.resourceKey resource)) now) ++
    (previous.filter fun resource =>
        settings.resourceKey resource ∉ current.map settings.resourceKey).map fun resource =>
      nextSnapshotResourceFromMissing settings resource now

/-- What the pool knows of one provider: the stored snapshot and the pending shrink, the
sandboxes under lease, and the time of the last event. -/
structure Inventory where
  snapshot : Option ResourceSnapshot
  pending : Option PendingShrinkState
  leased : List String
  clock : ℤ
  deriving Repr, DecidableEq

def Inventory.resources (inventory : Inventory) : List Resource :=
  (inventory.snapshot.map (·.resources)).getD []

/-- How often the shrink to this listing has now been seen. -/
def shrinkAttempts (settings : PoolSettings) (inventory : Inventory) (now : ℤ)
    (current : List Resource) : ℤ :=
  match inventory.pending with
  | none => 1
  | some pending =>
      match pending.seenAt with
      | none => 1
      | some seenAt =>
          if pending.baseSignature =
                resourceStateSignature settings (snapshotObservedResources inventory.snapshot) ∧
              pending.candidateSignature = resourceStateSignature settings current ∧
              now - seenAt ≤ settings.pendingShrinkWindowDuration then
            pending.attempts + 1
          else 1

def Delays (settings : PoolSettings) (inventory : Inventory) (now : ℤ)
    (current : List Resource) : Prop :=
  missingObservedResourceIDs inventory.snapshot current ≠ [] ∧
    shrinkAttempts settings inventory now current < settings.requiredShrinkConfirmations

instance (settings : PoolSettings) (inventory : Inventory) (now : ℤ)
    (current : List Resource) : Decidable (Delays settings inventory now current) :=
  inferInstanceAs (Decidable (_ ∧ _))

/-- `buildAcceptedSnapshot`: the snapshot to store and the pending shrink. -/
def buildAcceptedSnapshot (settings : PoolSettings) (inventory : Inventory)
    (now : ℤ) (current : List Resource) : ResourceSnapshot × Option PendingShrinkState :=
  if Delays settings inventory now current then
    (delayedSnapshot (inventory.snapshot.getD ⟨none, []⟩) current
        (missingObservedResourceIDs inventory.snapshot current) now,
      some
        { baseSignature :=
            resourceStateSignature settings (snapshotObservedResources inventory.snapshot)
          candidateSignature := resourceStateSignature settings current
          attempts := shrinkAttempts settings inventory now current
          seenAt := some now })
  else
    (⟨some now, buildNextSnapshotResources settings current inventory.resources now⟩, none)

/-- `applyResolvedResourceToSnapshot`: the first resource of the ID takes what was
resolved. -/
def applyResolvedResource (resolved : Resource) (now : ℤ) : List Resource → List Resource
  | [] => []
  | existing :: rest =>
      if existing.resourceID ≠ resolved.resourceID then
        existing :: applyResolvedResource resolved now rest
      else
        let status := normalizeProviderResourceStatus resolved.status
        { existing with
          displayName := resolved.displayName
          status := status
          metadata := resolved.metadata
          lastSeenAt := some now
          missingSinceAt := if status = .available then none else existing.missingSinceAt } :: rest

/-- A refresh with its listing, or with a failed one; a refresh that is given up after
its decision and stores no snapshot; a resolved resource; the expiry of the pending
shrink; a change of the leases. -/
inductive InventoryEvent where
  | refresh (now : ℤ) (listing : Option (List Resource))
  | abandoned (now : ℤ) (listing : List Resource)
  | resolve (now : ℤ) (resource : Resource)
  | pendingExpired
  | leases (leased : List String)
  deriving Repr, DecidableEq

def InventoryEvent.time (inventory : Inventory) : InventoryEvent → ℤ
  | .refresh now _ => now
  | .abandoned now _ => now
  | .resolve now _ => now
  | _ => inventory.clock

/-- What an event leaves, whatever its time. -/
def Inventory.apply (settings : PoolSettings) (inventory : Inventory) :
    InventoryEvent → Inventory
  | .refresh now none =>
      { inventory with
        snapshot := some (inventory.snapshot.getD ⟨some now, []⟩)
        pending := none }
  | .refresh now (some listing) =>
      let accepted := buildAcceptedSnapshot settings inventory now listing
      { inventory with snapshot := some accepted.1, pending := accepted.2 }
  | .abandoned now listing =>
      { inventory with pending := (buildAcceptedSnapshot settings inventory now listing).2 }
  | .resolve now resource =>
      if trimSpace resource.type = "" ∨ trimSpace resource.resourceID = "" then inventory
      else
        { inventory with
          snapshot := inventory.snapshot.map fun snapshot =>
            { snapshot with
              resources := applyResolvedResource resource now snapshot.resources } }
  | .pendingExpired => { inventory with pending := none }
  | .leases leased => { inventory with leased := leased }

/-- The inventory moves on when the clock does not run backwards. -/
def Inventory.next (settings : PoolSettings) (inventory : Inventory)
    (event : InventoryEvent) : Option Inventory :=
  if inventory.clock ≤ event.time inventory then
    some { inventory.apply settings event with clock := event.time inventory }
  else none

end Sico.Sandbox

import Mathlib.Data.List.Sort
import Mathlib.Data.String.Basic
import Sico.Foundation.Dict
import Sico.Foundation.System

/-! # Prepared environments

The store of prepared environments, the builds that fill it and the passes that collect what is no
longer used. A build and the deletion of an environment hold the lock of its key; a pass holds the lock
of the collector; leases are taken, renewed and given back under no lock but that of the store. The
clock is shared and does not go back. A pass reads it once, at its start, and a call of the store may
come later than the time it was given.

A step is one operation of the store, of a lock or of the builder. A pass gives the lock of a key back
together with its last operation under the lock. A process may stop at any point, and its locks are
free then. A record is stored under its key and does not repeat it; the metrics are left out.
-/

namespace Sico.TaskRuntime.Environments

open Foundation

section Records

inductive EnvironmentState
  | building
  | ready
  | failed
  | deleting
  deriving DecidableEq, Repr

structure PreparedEnvironmentRecord where
  state : EnvironmentState
  image : String := ""
  error : String := ""
  imageSizeBytes : ℤ := 0
  createdAt : ℤ
  updatedAt : ℤ
  lastUsedAt : ℤ := 0
  markedAt : ℤ := 0
  deleteAttempts : ℕ := 0
  leases : Dict String ℤ := .empty

abbrev Records : Type := Dict String PreparedEnvironmentRecord

structure PreparedEnvironmentGCPolicy where
  idleTTLSeconds : ℤ
  failedTTLSeconds : ℤ
  buildTTLSeconds : ℤ
  deleteGraceSeconds : ℤ
  quotaBytes : ℤ

def activeLeases (record : PreparedEnvironmentRecord) (now : ℤ) : Dict String ℤ :=
  record.leases.filterValues fun expiresAt => now < expiresAt

end Records

section Store

variable (records : Records) (key : String)

def listRecords : List (String × PreparedEnvironmentRecord) :=
  records.entries.mergeSort fun first second => first.1 ≤ second.1

def acquireUsage (leaseID : String) (now expiresAt : ℤ) : Records × Option PreparedEnvironmentRecord :=
  match records.get? key with
  | none => (records, none)
  | some record =>
      if record.state ≠ .ready then (records, none)
      else
        let updated :=
          { record with
            leases := (activeLeases record now).set leaseID expiresAt
            lastUsedAt := now
            markedAt := 0
            updatedAt := now }
        (records.set key updated, some updated)

def renewUsage (leaseID : String) (now expiresAt : ℤ) : Records × Bool :=
  match records.get? key with
  | none => (records, false)
  | some record =>
      if record.state ≠ .ready then (records, false)
      else if ((activeLeases record now).get? leaseID).isNone then (records, false)
      else
        (records.set key
          { record with leases := (activeLeases record now).set leaseID expiresAt, updatedAt := now }, true)

def releaseUsage (leaseID : String) (now : ℤ) : Records :=
  match records.get? key with
  | none => records
  | some record =>
      records.set key
        { record with leases := (activeLeases record now).erase leaseID, lastUsedAt := now, updatedAt := now }

def mark (now : ℤ) : Records × Bool :=
  match records.get? key with
  | none => (records, false)
  | some record =>
      if (record.state ≠ .ready ∧ record.state ≠ .failed) ∨ (activeLeases record now).entries ≠ [] then
        (records, false)
      else if record.markedAt ≠ 0 then (records, false)
      else (records.set key { record with leases := .empty, markedAt := now, updatedAt := now }, true)

def beginDelete (now graceMs : ℤ) : Records × Option PreparedEnvironmentRecord :=
  match records.get? key with
  | none => (records, none)
  | some record =>
      let leases := activeLeases record now
      if record.state = .building then (records, none)
      else if leases.entries ≠ [] then
        (if leases.entries ≠ record.leases.entries then
          records.set key { record with leases := leases, updatedAt := now } else records, none)
      else if record.state ≠ .deleting ∧ (record.markedAt = 0 ∨ now - record.markedAt < graceMs) then
        (records, none)
      else
        let deleting := { record with state := .deleting, leases := .empty, updatedAt := now }
        (records.set key deleting, some deleting)

def deletionFailed (now : ℤ) (error : String) : Records :=
  match records.get? key with
  | none => records
  | some record =>
      records.set key
        { record with
          state := .deleting
          error := error
          deleteAttempts := record.deleteAttempts + 1
          updatedAt := now }

def reconcileStaleBuild (now staleBefore : ℤ) : Records × Bool :=
  match records.get? key with
  | none => (records, false)
  | some record =>
      if record.state ≠ .building ∨ staleBefore < record.updatedAt then (records, false)
      else
        (records.set key
          { record with
            state := .failed
            error := "prepared environment build became stale"
            updatedAt := now }, true)

/-- `delete_record`, with nothing where it refuses. -/
def deleteRecord : Option Records :=
  match records.get? key with
  | none => some (records.erase key)
  | some record => if record.state ≠ .deleting then none else some (records.erase key)

end Store

section Candidates

variable (policy : PreparedEnvironmentGCPolicy)

/-- `last_used_at or updated_at`. -/
def usedAt (record : PreparedEnvironmentRecord) : ℤ :=
  if record.lastUsedAt ≠ 0 then record.lastUsedAt else record.updatedAt

/-- Whether a record has been idle, or failed, for long enough. -/
def isAged (record : PreparedEnvironmentRecord) (now : ℤ) : Bool :=
  (record.state = .ready && policy.idleTTLSeconds * 1000 ≤ now - usedAt record)
    || (record.state = .failed && policy.failedTTLSeconds * 1000 ≤ now - record.updatedAt)

/-- The least recently used environments that go for the quota, if there is one. -/
def overQuota (now : ℤ) (remaining : ℤ) : List (String × PreparedEnvironmentRecord) → List String
  | [] => []
  | (key, record) :: rest =>
      if policy.quotaBytes = 0 ∨ remaining ≤ policy.quotaBytes then []
      else if (activeLeases record now).entries ≠ [] then overQuota now remaining rest
      else key :: overQuota now (remaining - record.imageSizeBytes) rest

/-- `_gc_candidates`, in the order in which they are marked. -/
def gcCandidates (records : List (String × PreparedEnvironmentRecord)) (now : ℤ) : List String :=
  let aged := (records.filter fun entry => isAged policy entry.2 now).map Prod.fst
  let ready := records.filter fun entry => entry.2.state = .ready
  let byUse := ready.mergeSort fun first second =>
    usedAt first.2 < usedAt second.2 ∨ usedAt first.2 = usedAt second.2 ∧ first.1 ≤ second.1
  let total := (ready.map fun entry => entry.2.imageSizeBytes).sum
  (aged ++ overQuota policy now total byUse).eraseDups.mergeSort fun first second => first ≤ second

end Candidates

section Processes

/-- How a build ends. -/
inductive BuildOutcome
  | image (image : String)
  /-- The environment is being deleted. -/
  | refused
  | failed (error : String)
  deriving DecidableEq, Repr

inductive BuildPhase where
  | queued
  | locked
  | putting (now : ℤ)
  | building (now : ℤ)
  | failing (record : PreparedEnvironmentRecord)
  | finishing (record : PreparedEnvironmentRecord)
  | leaving (outcome : BuildOutcome)
  /-- The lock is given back, and the task goes to its end. -/
  | returning (outcome : BuildOutcome)
  | done (outcome : BuildOutcome)
  | stopped

inductive PassPhase where
  | queued
  | listing
  | reconciling (rest : List (String × PreparedEnvironmentRecord))
  | reconcileLocked (key : String) (rest : List (String × PreparedEnvironmentRecord))
  | marking (rest : List String)
  | deleting (rest : List (String × PreparedEnvironmentRecord))
  | deleteLocked (key : String) (rest : List (String × PreparedEnvironmentRecord))
  /-- The deletion has begun, and the builder is called next. -/
  | calling (key image : String) (rest : List (String × PreparedEnvironmentRecord))
  | deletingImage (key : String) (rest : List (String × PreparedEnvironmentRecord))
  | removing (key : String) (rest : List (String × PreparedEnvironmentRecord))
  | failing (key error : String) (rest : List (String × PreparedEnvironmentRecord))
  | done
  | stopped

/-- A call of `_build`, or of `run_gc_once` with the time at its start. -/
inductive Process where
  | build (key : String) (phase : BuildPhase)
  | pass (now : ℤ) (phase : PassPhase)

/-- What the builder does, where a process waits for it. -/
inductive Reply
  | built (image : String) (sizeBytes : ℤ)
  | deleted
  | failed (error : String)
  deriving DecidableEq, Repr

/-- What a step is recorded for. -/
inductive Event
  | deletionBegun (key : String)
  | builtReady (key : String)
  deriving DecidableEq, Repr

/-- The lock of a key is held from the step behind it on. -/
def Process.holdsLock (key : String) : Process → Bool
  | .build own phase =>
      own = key &&
        match phase with
        | .queued | .returning _ | .done _ | .stopped => false
        | _ => true
  | .pass _ phase =>
      match phase with
      | .reconcileLocked own _ | .deleteLocked own _ | .calling own _ _ | .deletingImage own _ | .removing own _
      | .failing own _ _ => own = key
      | _ => false

def Process.holdsGCLock : Process → Bool
  | .build _ _ => false
  | .pass _ phase =>
      match phase with
      | .queued | .done | .stopped => false
      | _ => true

variable (records : Records) (clock : ℤ)

/-- The next step of `_build`. -/
def advanceBuild (free : Bool) (key : String) (reply : Reply) :
    BuildPhase → Option (Records × BuildPhase × Option Event)
  | .queued => if free then some (records, .locked, none) else none
  | .locked =>
      match records.get? key with
      | none => some (records, .putting clock, none)
      | some existing =>
          match existing.state with
          | .ready => some (records, .leaving (.image existing.image), none)
          | .deleting => some (records, .leaving .refused, none)
          | _ => some (records, .putting clock, none)
  | .putting now =>
      some (records.set key { state := .building, createdAt := now, updatedAt := now }, .building now, none)
  | .building now =>
      match reply with
      | .built image sizeBytes =>
          some (records, .finishing
            { state := .ready
              image := image
              imageSizeBytes := sizeBytes
              createdAt := now
              updatedAt := clock
              lastUsedAt := clock }, none)
      | .failed error =>
          some (records, .failing { state := .failed, error := error, createdAt := now, updatedAt := clock }, none)
      | .deleted => none
  | .failing record => some (records.set key record, .leaving (.failed record.error), none)
  | .finishing record =>
      some (records.set key record, .leaving (.image record.image), some (.builtReady key))
  | .leaving outcome => some (records, .returning outcome, none)
  | .returning outcome => some (records, .done outcome, none)
  | .done _ => none
  | .stopped => none

/-- The next step of `run_gc_once`. -/
def advancePass (policy : PreparedEnvironmentGCPolicy) (free : String → Bool) (gcFree : Bool) (now : ℤ) (reply : Reply) :
    PassPhase → Option (Records × PassPhase × Option Event)
  | .queued => if gcFree then some (records, .listing, none) else none
  | .listing => some (records, .reconciling (listRecords records), none)
  -- `_reconcile_stale_builds`
  | .reconciling [] => some (records, .marking (gcCandidates policy (listRecords records) now), none)
  | .reconciling ((key, record) :: rest) =>
      if record.state ≠ .building ∨ now - policy.buildTTLSeconds * 1000 < record.updatedAt then
        some (records, .reconciling rest, none)
      else if free key then some (records, .reconcileLocked key rest, none)
      else none
  | .reconcileLocked key rest =>
      some ((reconcileStaleBuild records key now (now - policy.buildTTLSeconds * 1000)).1, .reconciling rest, none)
  -- `_mark_candidates`
  | .marking [] => some (records, .deleting (listRecords records), none)
  | .marking (key :: rest) => some ((mark records key now).1, .marking rest, none)
  -- `_delete_candidates`
  | .deleting [] => some (records, .done, none)
  | .deleting ((key, record) :: rest) =>
      if record.state = .building then some (records, .deleting rest, none)
      else if free key then some (records, .deleteLocked key rest, none)
      else none
  | .deleteLocked key rest =>
      match beginDelete records key now (policy.deleteGraceSeconds * 1000) with
      | (records, none) => some (records, .deleting rest, none)
      | (records, some deleting) => some (records, .calling key deleting.image rest, some (.deletionBegun key))
  | .calling key _ rest => some (records, .deletingImage key rest, none)
  | .deletingImage key rest =>
      match reply with
      | .deleted => some (records, .removing key rest, none)
      | .failed error => some (records, .failing key error rest, none)
      | .built _ _ => none
  | .removing key rest =>
      match deleteRecord records key with
      | some records => some (records, .deleting rest, none)
      | none =>
          some (records, .failing key
            "refusing to delete prepared environment metadata before image deletion" rest, none)
  | .failing key error rest => some (deletionFailed records key now error, .deleting rest, none)
  | .done => none
  | .stopped => none

end Processes

section Worlds

/-- The clock, the store and the processes. In addition, for each key, when it was last acquired or
released to some effect, and whether a deletion has begun since it was last built. -/
structure World where
  clock : ℤ := 0
  records : Records := .empty
  processes : List Process := []
  touchedAt : String → Option ℤ := fun _ => none
  deletionBegun : String → Bool := fun _ => false

inductive Label where
  | tick (elapsed : ℕ)
  | startBuild (key : String)
  | startPass
  | advance (position : ℕ) (reply : Reply)
  /-- A process stops for good. -/
  | crash (position : ℕ)
  | acquire (key leaseID : String) (now expiresAt : ℤ)
  | renew (key leaseID : String) (now expiresAt : ℤ)
  | release (key leaseID : String) (now : ℤ)
  deriving DecidableEq, Repr

namespace World

variable (policy : PreparedEnvironmentGCPolicy) (world : World)

def lockFree (key : String) : Bool := world.processes.all fun process => !process.holdsLock key

def gcLockFree : Bool := world.processes.all fun process => !process.holdsGCLock

def advanceProcess (reply : Reply) : Process → Option (Records × Process × Option Event)
  | .build key phase =>
      (advanceBuild world.records world.clock (world.lockFree key) key reply phase).map fun stepped =>
        (stepped.1, .build key stepped.2.1, stepped.2.2)
  | .pass now phase =>
      (advancePass world.records policy world.lockFree world.gcLockFree now reply phase).map fun stepped =>
        (stepped.1, .pass now stepped.2.1, stepped.2.2)

def recorded : Option Event → String → Bool
  | none => world.deletionBegun
  | some (.deletionBegun key) => Function.update world.deletionBegun key true
  | some (.builtReady key) => Function.update world.deletionBegun key false

def stop : Process → Process
  | .build key _ => .build key .stopped
  | .pass now _ => .pass now .stopped

def next : Label → Option World
  | .tick elapsed => some { world with clock := world.clock + elapsed }
  | .startBuild key => some { world with processes := world.processes ++ [Process.build key .queued] }
  | .startPass => some { world with processes := world.processes ++ [Process.pass world.clock .queued] }
  | .advance position reply => do
      let process ← world.processes[position]?
      let (records, later, event) ← world.advanceProcess policy reply process
      return { world with
        records := records
        processes := world.processes.set position later
        deletionBegun := world.recorded event }
  | .crash position => do
      let process ← world.processes[position]?
      return { world with processes := world.processes.set position (stop process) }
  | .acquire key leaseID now expiresAt =>
      if now ≤ world.clock then
        match acquireUsage world.records key leaseID now expiresAt with
        | (_, none) => some world
        | (records, some _) =>
            some { world with
              records := records
              touchedAt := Function.update world.touchedAt key (some world.clock) }
      else none
  | .renew key leaseID now expiresAt =>
      if now ≤ world.clock then
        some { world with records := (renewUsage world.records key leaseID now expiresAt).1 }
      else none
  | .release key leaseID now =>
      if now ≤ world.clock then
        some { world with
          records := releaseUsage world.records key leaseID now
          touchedAt :=
            if (world.records.get? key).isSome then Function.update world.touchedAt key (some world.clock)
            else world.touchedAt }
      else none

def system : System World Label := System.ofNext (next policy)

end World

end Worlds

end Sico.TaskRuntime.Environments

import Sico.AgentLoop.Identifiers
import Sico.Foundation.Dict
import Sico.Foundation.System
import Sico.TaskRuntime.Rows

/-! # Nested capability calls

`RunCapabilityInvoker.invoke` turns a call of a sub-agent into a run of its own, the child,
with an identifier made of the parent and the call. It looks for the child, creates it where
there is none and starts the executor on it; a child that is there already may lend its
result. Any number of invocations for one parent may be under way at a time. A request to the
store takes effect when the store serves it and is answered later, and an invocation may hear
an exception or be cancelled at every await. The creation is shielded: it goes on behind an
invocation that is cancelled, which waits for it and then cancels the child.

Nothing deletes a run or changes what it records of its call, and a run that is neither queued
nor running does not become so again. Argument values are taken up to the equality of the
language. Transcripts are written on the side and left out, and so are the images that an
observation shows.
-/

namespace Sico.NestedCalls

open Foundation AgentLoop TaskRuntime

variable {Value : Type} [DecidableEq Value]

section Data

structure CapabilityCall (Value : Type) where
  capability : String
  args : Dict String Value
  callID : String

/-- `TaskSpec`, with what a call is recognised by. -/
structure TaskSpec (Value : Type) where
  capabilityID : String
  args : Dict String Value

structure TaskResult where
  runID : String
  status : Status
  output : String := ""
  summary : String := ""
  errorClass : Option String := none
  errorMessage : String := ""
  /-- The path of each artifact, or its location where it has none. -/
  artifacts : List String := []
  deriving DecidableEq

/-- A run as it is stored. -/
structure TaskRun (Value : Type) where
  spec : TaskSpec Value
  status : Status := .queued
  result : Option TaskResult := none

structure TaskDetail (Value : Type) where
  spec : TaskSpec Value
  status : Status
  result : Option TaskResult

/-- The names of the parameters that a descriptor marks as sensitive. -/
structure CapabilityDescriptor where
  sensitiveNames : List String

/-- The child of an invocation, with the arguments that are not stored and the names by which
they were told from the others. -/
structure Child (Value : Type) where
  runID : String
  spec : TaskSpec Value
  secretArguments : List (String × Value)
  sensitiveNames : List String

end Data

section Calls

/-- Equality of mappings, in whatever order. -/
def sameArgs (first second : Dict String Value) : Bool :=
  first.entries.length = second.entries.length &&
    first.entries.all fun entry => second.get? entry.1 = some entry.2

def sameCall (existing current : TaskSpec Value) : Bool :=
  existing.capabilityID = current.capabilityID && sameArgs existing.args current.args

/-- `split_sensitive_arguments`, the half that is stored. -/
def publicArguments (redacted : Value) (args : Dict String Value) (names : List String) : Dict String Value :=
  ⟨args.entries.map fun entry => (entry.1, if entry.1 ∈ names then redacted else entry.2), by
    rw [List.map_map]
    exact args.distinct⟩

/-- `split_sensitive_arguments`, the half that is not. -/
def secretArguments (args : Dict String Value) (names : List String) : List (String × Value) :=
  args.entries.filter fun entry => entry.1 ∈ names

def childRunID (parentID : String) (call : CapabilityCall Value) : String :=
  parentID ++ "-" ++ if call.callID = "" then call.capability else call.callID

def childRun (parentID : String) (redacted : Value) (call : CapabilityCall Value) (capabilityID : String)
    (descriptor : CapabilityDescriptor) : Child Value where
  runID := childRunID parentID call
  spec := ⟨capabilityID, publicArguments redacted call.args descriptor.sensitiveNames⟩
  secretArguments := secretArguments call.args descriptor.sensitiveNames
  sensitiveNames := descriptor.sensitiveNames

/-- What an invocation comes back with: a failed observation, the result that a child had
recorded already, or that of its own child. -/
inductive Outcome where
  | failed (message : String)
  | reused (result : TaskResult)
  | executed (result : TaskResult)
  deriving DecidableEq

def observationFromResult (call : CapabilityCall Value) (result : TaskResult) : Observation :=
  { capability := call.capability
    ok := result.status = .completed
    content := if result.output ≠ "" then result.output
      else if result.summary ≠ "" then result.summary else result.errorMessage
    callID := call.callID
    runID := result.runID
    status := result.status.text
    summary := result.summary
    errorClass := result.errorClass.getD ""
    errorMessage := result.errorMessage
    artifacts := result.artifacts }

def Outcome.observation (call : CapabilityCall Value) : Outcome → Observation
  | .failed message => failedObservation call.capability call.callID message "internal"
  | .reused result | .executed result => observationFromResult call result

end Calls

section Stores

abbrev Store (Value : Type) : Type := Dict String (TaskRun Value)

namespace Store

def getTaskDetail (store : Store Value) (runID : String) : Option (TaskDetail Value) :=
  (store.get? runID).map fun run =>
    ⟨run.spec, run.status, if run.status ∈ terminalRunStatuses then run.result else none⟩

/-- `cancel_run`, which raises where there is no run. -/
def cancelRun (store : Store Value) (runID : String) : Store Value :=
  match store.get? runID with
  | some run => if run.status.isActive then store.set runID { run with status := .cancelled } else store
  | none => store

/-- A claim, a result or another update of a run that has not settled. -/
def update (store : Store Value) (runID : String) (status : Status) (result : Option TaskResult) :
    Store Value :=
  match store.get? runID with
  | some run => if run.status.isActive then store.set runID { run with status, result } else store
  | none => store

end Store

end Stores

section Invocations

/-- What became of `create_run`. -/
inductive Write where
  | unsent
  | pending
  | stored
  /-- `IdempotencyCollisionError`: the run was there. -/
  | collided (message : String)
  /-- Another exception, and whether the run was stored all the same. -/
  | faulted (kept : Bool) (message : String)
  deriving DecidableEq

def Write.created : Write → Bool
  | .stored => true
  | .faulted kept _ => kept
  | _ => false

/-- Why a creation is cleaned up. -/
inductive Cause where
  | cancelled
  | fault (message : String)
  deriving DecidableEq

/-- The await an invocation is at. A request to the store is under way until its reply is
there, and a reply is there until the invocation goes on. -/
inductive Phase (Value : Type) where
  | resolving
  /-- `_existing_child`, before a child is created. -/
  | looking (reply : Option (Option (TaskDetail Value)))
  /-- The shielded creation. -/
  | creating
  /-- `_settled`. -/
  | settling
  /-- The child that was never started is cancelled. -/
  | cleaning (cause : Cause) (served : Bool)
  /-- The transcript is opened. -/
  | preparing
  | executing
  /-- The child of a parent that was cancelled is cancelled. -/
  | stopping (served : Bool)
  /-- `_existing_child`, behind an executor that raised. -/
  | reconciling (message : String) (reply : Option (Option (TaskDetail Value)))
  /-- The child that has no result is cancelled. -/
  | abandoning (message : String) (served : Bool)
  /-- The transcript is closed. -/
  | finishing (outcome : Outcome)
  | returned (outcome : Outcome)
  | raised

/-- An invocation with what it left behind. -/
structure Invocation (Value : Type) where
  call : CapabilityCall Value
  phase : Phase Value
  /-- The child, once the capability is resolved. -/
  child : Option (Child Value) := none
  write : Write := .unsent
  /-- Whether the executor was started. -/
  started : Bool := false
  /-- The cancellations that are under way behind awaits that were cut short. -/
  lateCancels : ℕ := 0

/-- What happens to an invocation. -/
inductive Move where
  | resolved (descriptor : Option CapabilityDescriptor)
  /-- The store serves the request that is awaited. -/
  | serve
  /-- The reply reaches the invocation. -/
  | resume
  /-- The await raises. -/
  | fail (message : String)
  /-- `asyncio.CancelledError` is raised at the await. -/
  | cancel
  /-- The store serves the creation, with a text of its own where the run is there. -/
  | createServed (message : String)
  /-- The creation of a run that was not there raises. -/
  | createFaulted (kept : Bool) (message : String)
  /-- The executor is started. -/
  | start
  /-- A write of the executor is served. -/
  | execute (status : Status) (result : Option TaskResult)
  /-- The executor comes back. -/
  | finish (result : TaskResult)
  | lateCancel

/-- What the texts of an invocation are made with: the parent, and `repr`. -/
structure Parent (Value : Type) where
  runID : String
  redacted : Value
  repr : String → String

namespace Invocation

variable (parent : Parent Value)

/-- The beginning of `invoke`, which raises for a selector. -/
def begin (call : CapabilityCall Value) : Invocation Value where
  call
  phase := if (normalizeCapabilityID call.capability).isSome then .resolving else .raised

def runID (invocation : Invocation Value) : String := childRunID parent.runID invocation.call

def couldNotBeResolved (call : CapabilityCall Value) : Outcome :=
  .failed ("Capability " ++ parent.repr call.capability ++ " could not be resolved.")

def couldNotBeDispatched (call : CapabilityCall Value) (message : String) : Outcome :=
  .failed ("Capability " ++ parent.repr call.capability ++ " could not be dispatched: " ++ message)

def crashed (call : CapabilityCall Value) (message : String) : Outcome :=
  .failed ("Capability " ++ parent.repr call.capability ++ " crashed: " ++ message)

/-- `_reuse_or_create_child` for a child that is there. -/
def reuse (call : CapabilityCall Value) (child : Child Value) (existing : TaskDetail Value) : Outcome :=
  if !sameCall existing.spec child.spec then
    couldNotBeDispatched parent call ("child run " ++ child.runID ++ " already records a different call (" ++
      parent.repr existing.spec.capabilityID ++ ")")
  else if child.secretArguments ≠ [] then
    couldNotBeDispatched parent call ("child run " ++ child.runID ++
      " already exists and carries sensitive arguments; not reusable")
  else
    match existing.result with
    | some result => .reused result
    | none =>
        if existing.status ∈ terminalRunStatuses then
          couldNotBeDispatched parent call ("child run " ++ child.runID ++ " settled as " ++
            existing.status.text ++ " without a recorded result")
        else
          couldNotBeDispatched parent call ("child run " ++ child.runID ++ " already exists and is still in flight")

/-- Where an invocation is behind the cleanup of its creation. -/
def cleaned (call : CapabilityCall Value) : Cause → Phase Value
  | .cancelled => .raised
  | .fault message => .returned (couldNotBeDispatched parent call message)

def resume (invocation : Invocation Value) : Option (Invocation Value) :=
  match invocation.phase with
  | .looking (some none) => some { invocation with phase := .creating, write := .pending }
  | .looking (some (some existing)) => do
      let child ← invocation.child
      some { invocation with phase := .returned (reuse parent invocation.call child existing) }
  | .creating =>
      match invocation.write with
      | .stored => some { invocation with phase := .preparing }
      | .collided message =>
          some { invocation with phase := .returned (couldNotBeDispatched parent invocation.call message) }
      | .faulted _ message => some { invocation with phase := .cleaning (.fault message) false }
      | _ => none
  | .settling => if invocation.write = .pending then none else some { invocation with phase := .cleaning .cancelled false }
  | .cleaning cause true => some { invocation with phase := cleaned parent invocation.call cause }
  | .stopping true => some { invocation with phase := .raised }
  | .reconciling message (some reply) =>
      match reply.bind TaskDetail.result with
      | some result => some { invocation with phase := .finishing (.executed result) }
      | none => some { invocation with phase := .abandoning message false }
  | .abandoning message true =>
      some { invocation with phase := .finishing (crashed parent invocation.call message) }
  | .finishing outcome => some { invocation with phase := .returned outcome }
  | _ => none

/-- An await of `cancel_run` is cut short: what raises there is suppressed, and the request is
still under way if it was not served. -/
def cutShort (invocation : Invocation Value) (served : Bool) (phase : Phase Value) : Invocation Value :=
  { invocation with phase, lateCancels := invocation.lateCancels + if served then 0 else 1 }

/-- The invocation when its await raises an exception. -/
def fail (invocation : Invocation Value) (message : String) : Option (Invocation Value) :=
  match invocation.phase with
  | .resolving => some { invocation with phase := .raised }
  | .looking _ =>
      some { invocation with phase := .returned (couldNotBeDispatched parent invocation.call message) }
  | .cleaning cause served => some (invocation.cutShort served (cleaned parent invocation.call cause))
  | .executing => some { invocation with phase := .reconciling message none }
  | .stopping served => some (invocation.cutShort served .raised)
  | .reconciling earlier _ => some { invocation with phase := .abandoning earlier false }
  | .abandoning earlier served =>
      some (invocation.cutShort served (.finishing (crashed parent invocation.call earlier)))
  | _ => none

/-- The invocation when it is cancelled at its await. -/
def cancel (invocation : Invocation Value) : Option (Invocation Value) :=
  match invocation.phase with
  | .resolving | .looking _ | .preparing | .reconciling _ _ | .finishing _ =>
      some { invocation with phase := .raised }
  | .creating | .settling => some { invocation with phase := .settling }
  | .cleaning cause served => some (invocation.cutShort served (cleaned parent invocation.call cause))
  | .executing => some { invocation with phase := .stopping false }
  | .stopping served => some (invocation.cutShort served .raised)
  | .abandoning earlier served =>
      some (invocation.cutShort served (.finishing (crashed parent invocation.call earlier)))
  | .returned _ | .raised => none

def serve (invocation : Invocation Value) (store : Store Value) : Option (Store Value × Invocation Value) :=
  let runID := invocation.runID parent
  match invocation.phase with
  | .looking none => some (store, { invocation with phase := .looking (some (store.getTaskDetail runID)) })
  | .cleaning cause false => some (store.cancelRun runID, { invocation with phase := .cleaning cause true })
  | .stopping false => some (store.cancelRun runID, { invocation with phase := .stopping true })
  | .reconciling message none =>
      some (store, { invocation with phase := .reconciling message (some (store.getTaskDetail runID)) })
  | .abandoning message false => some (store.cancelRun runID, { invocation with phase := .abandoning message true })
  | _ => none

/-- The creation takes effect, or finds the run. -/
def create (invocation : Invocation Value) (store : Store Value) (write : Write) :
    Option (Store Value × Invocation Value) := do
  let child ← invocation.child
  if invocation.write = .pending then
    if write.created then
      some (store.set (invocation.runID parent) { spec := child.spec }, { invocation with write })
    else
      some (store, { invocation with write })
  else
    none

/-- The next store and invocation, where the move is possible. -/
def next (invocation : Invocation Value) (store : Store Value) : Move → Option (Store Value × Invocation Value)
  | .resolved descriptor =>
      match invocation.phase, descriptor with
      | .resolving, none =>
          some (store, { invocation with phase := .returned (couldNotBeResolved parent invocation.call) })
      | .resolving, some descriptor => do
          let capabilityID ← normalizeCapabilityID invocation.call.capability
          some (store, { invocation with
            phase := .looking none
            child := some (childRun parent.runID parent.redacted invocation.call capabilityID descriptor) })
      | _, _ => none
  | .serve => invocation.serve parent store
  | .resume => (invocation.resume parent).map (store, ·)
  | .fail message => (invocation.fail parent message).map (store, ·)
  | .cancel => (invocation.cancel parent).map (store, ·)
  | .createServed message =>
      invocation.create parent store
        (if (store.get? (invocation.runID parent)).isSome then .collided message else .stored)
  | .createFaulted kept message =>
      if (store.get? (invocation.runID parent)).isSome then none
      else invocation.create parent store (.faulted kept message)
  | .start =>
      match invocation.phase with
      | .preparing => some (store, { invocation with phase := .executing, started := true })
      | _ => none
  | .execute status result =>
      -- a write may still be under way when the invocation has ended
      if invocation.started then some (store.update (invocation.runID parent) status result, invocation) else none
  | .finish result =>
      match invocation.phase with
      | .executing => some (store, { invocation with phase := .finishing (.executed result) })
      | _ => none
  | .lateCancel =>
      if invocation.lateCancels = 0 then none
      else some (store.cancelRun (invocation.runID parent),
        { invocation with lateCancels := invocation.lateCancels - 1 })

end Invocation

end Invocations

section Everything

/-- The store, all invocations so far, and the children that the executor was started for, in
the order of the starts. -/
structure World (Value : Type) where
  store : Store Value
  invocations : List (Invocation Value) := []
  executions : List String := []

/-- What happens next, by the position of the invocation it happens to. -/
inductive Label (Value : Type) where
  | invoke (call : CapabilityCall Value)
  | invocation (position : ℕ) (move : Move)
  /-- Another writer updates a run. -/
  | elsewhere (runID : String) (status : Status) (result : Option TaskResult)

def Move.isStart : Move → Bool
  | .start => true
  | _ => false

namespace World

variable (parent : Parent Value)

def next (world : World Value) : Label Value → Option (World Value)
  | .invoke call => some { world with invocations := world.invocations ++ [Invocation.begin call] }
  | .invocation position move => do
      let invocation ← world.invocations[position]?
      let (store, invocation) ← invocation.next parent world.store move
      some
        { store
          invocations := world.invocations.set position invocation
          executions :=
            if move.isStart then world.executions ++ [invocation.runID parent] else world.executions }
  | .elsewhere runID status result => some { world with store := world.store.update runID status result }

/-- The world before the first invocation. -/
def opening (store : Store Value) : World Value := { store }

def system : System (World Value) (Label Value) := System.ofNext (next parent)

end World

end Everything

end Sico.NestedCalls

import Sico.Foundation.System
import Sico.TaskRuntime.Batches

/-! # Duplicate submissions

Any number of `submit` calls may carry one submission ID, and so one batch ID. Each looks
for the batch, projects it into the plan, plans it and offers a candidate of its own to the
store, which keeps the first. A call may be interrupted at every await. A request it had
sent is then still under way, and a task behind the call looks for the batch and cancels it
if the token in it is the one of the call's candidate.

The calls share the store. A read or a write takes effect when the store serves it, and
its caller goes on later. Writers elsewhere change batches and runs as they like but never
the identity of a batch: nothing deletes one, and every update sends back the metadata
that was read.
-/

namespace Sico.TaskRuntime.Submission

open Foundation

/-- What the fingerprints rest on: `hashlib.sha256(…).hexdigest()` of a text, and
`json.dumps` with sorted keys and compact separators. -/
structure Digests where
  sha256 : String → String
  dumps : Json → String

/-- `PreparedTaskBatch` after normalization, with the execution payload of each task. -/
structure PreparedTaskBatch where
  tasks : List Json
  joinStrategy : String
  maxConcurrency : Option ℤ := none
  description : String := ""

/-- What a call of `submit` is given. -/
structure Request where
  submissionID : String
  submissionSource : String := ""
  prepared : PreparedTaskBatch

/-- `BatchRecord`, with the members of its runtime metadata, empty where they are missing. -/
structure BatchRecord where
  batchID : String
  parentToolCallID : Option ℤ := none
  status : Status := .running
  reason : String := ""
  joinStrategy : String := ""
  totalCount : ℕ := 0
  submissionID : String := ""
  submissionSource : String := ""
  submissionFingerprint : String := ""
  materializationToken : String := ""
  deriving DecidableEq

/-- What no update of a batch changes. -/
def BatchRecord.identity (batch : BatchRecord) : String × String × String :=
  (batch.batchID, batch.submissionFingerprint, batch.materializationToken)

structure TaskRun where
  batchID : String
  batchItemIndex : ℕ
  status : Status := .queued
  deriving DecidableEq

structure BatchCreateResult where
  batch : BatchRecord
  created : Bool

/-- What the service answers to a creation. The document may be missing. -/
structure CreateBatchResponse where
  batch : Option BatchRecord
  created : Bool

section Identity

variable (digests : Digests)

def batchIDForSubmission (submissionID : String) : String :=
  "batch-" ++ String.ofList ((digests.sha256 submissionID).toList.take 24)

def preparedSubmissionFingerprint (prepared : PreparedTaskBatch) (submissionSource : String) :
    String :=
  let payload :=
    [("submission_source", Json.str submissionSource), ("tasks", .arr prepared.tasks),
      ("join_strategy", .str prepared.joinStrategy)] ++
      (prepared.maxConcurrency.map fun limit => ("max_concurrency", Json.int limit)).toList
  digests.sha256 (digests.dumps (.obj payload))

/-- `_validate_submission_fingerprint_value`, which raises where this is false. -/
def validateSubmissionFingerprintValue (existing : BatchRecord) (incomingFingerprint : String) :
    Bool :=
  existing.submissionFingerprint ≠ "" && existing.submissionFingerprint = incomingFingerprint

namespace Request

variable (request : Request)

def batchID : String := batchIDForSubmission digests request.submissionID

def fingerprint : String :=
  preparedSubmissionFingerprint digests request.prepared request.submissionSource

/-- `build_batch`, with the token drawn for it. -/
def buildBatch (parentToolCallID : ℤ) (token : String) : BatchRecord where
  batchID := request.batchID digests
  parentToolCallID := some parentToolCallID
  reason := request.prepared.description
  joinStrategy := request.prepared.joinStrategy
  totalCount := request.prepared.tasks.length
  submissionID := request.submissionID
  submissionSource := request.submissionSource
  submissionFingerprint := request.fingerprint digests
  materializationToken := token

/-- `not ctx.submission_id.strip()`. Beside the spaces of Unicode, `strip` takes the four
information separators. -/
def isBlank : Bool :=
  request.submissionID.toList.all fun c => isSpace c || (28 ≤ c.toNat && c.toNat ≤ 31)

end Request

end Identity

/-! ## The store -/

/-- The batches and the runs that are stored. -/
structure Store where
  batches : List BatchRecord
  runs : List TaskRun

/-- A write of an execution to its own batch. -/
inductive ExecutionWrite where
  | createRun (batchItemIndex : ℕ)
  /-- A claim, a result, a retry or a cancellation of a run. -/
  | updateRun (batchItemIndex : ℕ) (status : Status)
  | updateBatch (status : Status)

namespace Store

variable (store : Store)

def getBatch (batchID : String) : Option BatchRecord :=
  store.batches.find? fun batch => batch.batchID = batchID

/-- The creation, unique on the batch ID. -/
def createBatch (batch : BatchRecord) : BatchCreateResult × Store :=
  match store.getBatch batch.batchID with
  | some existing => (⟨existing, false⟩, store)
  | none => (⟨batch, true⟩, { store with batches := store.batches ++ [batch] })

/-- The update of the status of a batch. A batch that has settled stays. -/
def updateBatch (batchID : String) (status : Status) : Store :=
  { store with batches := store.batches.map fun batch =>
      if batch.batchID = batchID ∧ (batchUpdateDecision batch.status status).1 then
        { batch with status }
      else
        batch }

/-- The cancellation of an active batch with its active runs, whoever asks for it. -/
def cancelBatch (batchID : String) : Store :=
  if (store.getBatch batchID).any fun batch => batch.status.isActive then
    { batches := store.batches.map fun batch =>
        if batch.batchID = batchID then { batch with status := .cancelled } else batch
      runs := store.runs.map fun run =>
        if run.batchID = batchID ∧ run.status.isActive then { run with status := .cancelled }
        else run }
  else
    store

def listBatchRuns (batchID : String) : List TaskRun :=
  store.runs.filter fun run => run.batchID = batchID

/-- The effect of a write of an execution. A run that is there already is reused. -/
def execute (batchID : String) : ExecutionWrite → Store
  | .createRun index =>
      if (store.listBatchRuns batchID).any fun run => run.batchItemIndex = index then store
      else { store with runs := store.runs ++ [{ batchID, batchItemIndex := index }] }
  | .updateRun index status =>
      { store with runs := store.runs.map fun run =>
          if run.batchID = batchID ∧ run.batchItemIndex = index then { run with status } else run }
  | .updateBatch status => store.updateBatch batchID status

def identities : List (String × String × String) := store.batches.map BatchRecord.identity

end Store

/-! ## The calls -/

/-- Why a call raised. -/
inductive Failure where
  /-- `ValueError`: no submission ID. -/
  | invalidSubmission
  /-- `RuntimeError`: the submission diverged from the stored batch. -/
  | diverged
  /-- An await of the call failed. -/
  | raised
  /-- `asyncio.CancelledError`. -/
  | cancelled
  deriving DecidableEq

/-- The await a call of `submit` is at. A request to the store is under way until its
reply is there, and a reply is there until the call goes on. -/
inductive Phase where
  /-- `get_existing_batch`. -/
  | looking (reply : Option (Option BatchRecord))
  /-- `_create_batch_projection`. -/
  | projecting
  /-- The execution planner. -/
  | planning (parentToolCallID : ℤ)
  /-- The creation of the candidate. -/
  | creating (reply : Option CreateBatchResponse)
  /-- `get_batch` behind a creation that was answered without a document. -/
  | rereading (reply : Option (Option BatchRecord))
  /-- The plan projection settles before the exception goes on. -/
  | settling (failure : Failure)
  /-- `_execute_owned_batch`. -/
  | executing
  /-- `_observe_existing_batch`, with what the store showed last. -/
  | observing (batch : BatchRecord) (runs : List TaskRun)
  | returned
  | raised (failure : Failure)

/-- Where `_cancel_owned_batch_when_visible` stands. -/
inductive CleanupPhase where
  /-- `get_batch`. -/
  | polling (reply : Option (Option BatchRecord))
  /-- `remove_foreign_owner_projection`. -/
  | removing
  /-- `cancel_batch`, and whether the store has served it. -/
  | cancelling (served : Bool)
  | finished

/-- A call of `submit` with what it left behind. -/
structure Call where
  request : Request
  phase : Phase
  /-- The batch it built to be stored. -/
  candidate : Option BatchRecord := none
  /-- `owns_batch`, once the call has it. -/
  ownsBatch : Bool := false
  /-- The task that converges a failed materialization. -/
  cleanup : Option CleanupPhase := none
  /-- The creation that is under way behind an interrupted call. -/
  lateCreate : Bool := false
  /-- The cancellations that are under way behind the task. -/
  lateCancels : ℕ := 0

/-- What happens to the task behind a call. -/
inductive CleanupMove where
  | serve
  | resume
  /-- Its await fails. -/
  | fail
  /-- The time is over, or the process goes down. -/
  | giveUp

/-- What happens to a call. -/
inductive Move where
  /-- The store serves the request, and answers a creation with the document or not. -/
  | serve (withDocument : Bool)
  /-- The reply reaches the call. -/
  | resume
  /-- The await fails, or the call is cancelled there. -/
  | interrupt (cancelled : Bool)
  | projected (parentToolCallID : ℤ)
  /-- The plan is there, and the candidate is built with a token that is drawn. -/
  | planned (token : String)
  /-- A write of the execution is served. -/
  | execute (write : ExecutionWrite)
  /-- The call is through with what it executes, observes or settles. -/
  | finish
  | lateCreate
  | lateCancel
  | cleanup (move : CleanupMove)

namespace Call

variable (digests : Digests)

/-- The beginning of `submit`. -/
def begin (request : Request) : Call where
  request
  phase := if request.isBlank then .raised .invalidSubmission else .looking none

def batchID (call : Call) : String := call.request.batchID digests

def fingerprint (call : Call) : String := call.request.fingerprint digests

/-- `converge_failed_materialization` and the exception on its way. -/
def converge (call : Call) (failure : Failure) : Call :=
  { call with
    phase := .settling failure
    cleanup := if call.candidate.isSome then some (.polling none) else call.cleanup }

/-- `materialize_batch` behind `create_batch`. -/
def materialized (call : Call) (result : BatchCreateResult) : Call :=
  if result.created then
    { call with phase := .executing, ownsBatch := true }
  else if validateSubmissionFingerprintValue result.batch (call.fingerprint digests) then
    { call with phase := .observing result.batch [] }
  else
    call.converge .diverged

def resume (call : Call) : Option Call :=
  match call.phase with
  | .looking (some none) => some { call with phase := .projecting }
  | .looking (some (some existing)) =>
      if validateSubmissionFingerprintValue existing (call.fingerprint digests) then
        some { call with phase := .observing existing [] }
      else
        some { call with phase := .raised .diverged }
  | .creating (some ⟨some batch, created⟩) => some (call.materialized digests ⟨batch, created⟩)
  | .creating (some ⟨none, _⟩) => some { call with phase := .rereading none }
  | .rereading (some none) => some (call.converge .raised)
  | .rereading (some (some authoritative)) => do
      let candidate ← call.candidate
      some (call.materialized digests
        ⟨authoritative, candidate.materializationToken ≠ "" &&
          authoritative.materializationToken = candidate.materializationToken⟩)
  | _ => none

/-- The call when its await raises. -/
def interrupt (call : Call) (failure : Failure) : Option Call :=
  match call.phase with
  | .planning _ | .creating (some _) | .rereading _ => some (call.converge failure)
  | .creating none => some { call.converge failure with lateCreate := true }
  | .looking _ | .projecting | .settling _ | .executing | .observing _ _ =>
      some { call with phase := .raised failure }
  | .returned | .raised _ => none

/-- The store serves what the call awaits. An observer polls. -/
def serve (call : Call) (store : Store) (withDocument : Bool) : Option (Store × Call) :=
  match call.phase with
  | .looking none =>
      some (store, { call with phase := .looking (some (store.getBatch (call.batchID digests))) })
  | .creating none => do
      let candidate ← call.candidate
      let result := (store.createBatch candidate).1
      let response := ⟨if withDocument then some result.batch else none, result.created⟩
      some ((store.createBatch candidate).2, { call with phase := .creating (some response) })
  | .rereading none =>
      some (store, { call with phase := .rereading (some (store.getBatch (call.batchID digests))) })
  | .observing batch _ =>
      let current := (store.getBatch (call.batchID digests)).getD batch
      let runs := store.listBatchRuns (call.batchID digests)
      some (store, { call with phase := .observing current runs })
  | _ => none

/-- What the task makes of the batch it finds. -/
def cleanupBehind (candidate persisted : BatchRecord) : CleanupPhase :=
  if persisted.materializationToken ≠ candidate.materializationToken then
    if persisted.parentToolCallID ≠ candidate.parentToolCallID then .removing else .finished
  else
    .cancelling false

def clean (call : Call) (candidate : BatchRecord) (store : Store) :
    CleanupPhase → CleanupMove → Option (Store × Call)
  | .polling none, .serve =>
      some (store, { call with
        cleanup := some (.polling (some (store.getBatch candidate.batchID))) })
  | .polling (some none), .resume => some (store, { call with cleanup := some (.polling none) })
  | .polling (some (some persisted)), .resume =>
      some (store, { call with cleanup := some (cleanupBehind candidate persisted) })
  | .polling _, .fail => some (store, { call with cleanup := some (.polling none) })
  | .removing, .resume | .removing, .fail => some (store, { call with cleanup := some .finished })
  | .cancelling false, .serve =>
      some (store.cancelBatch candidate.batchID, { call with cleanup := some (.cancelling true) })
  | .cancelling true, .resume => some (store, { call with cleanup := some .finished })
  | .cancelling served, .fail =>
      some (store, { call with
        cleanup := some (.polling none)
        lateCancels := call.lateCancels + if served then 0 else 1 })
  | .cancelling served, .giveUp =>
      some (store, { call with
        cleanup := some .finished
        lateCancels := call.lateCancels + if served then 0 else 1 })
  | .polling _, .giveUp | .removing, .giveUp =>
      some (store, { call with cleanup := some .finished })
  | _, _ => none

/-- The next store and call, where the move is possible. -/
def next (call : Call) (store : Store) : Move → Option (Store × Call)
  | .serve withDocument => call.serve digests store withDocument
  | .resume => (call.resume digests).map (store, ·)
  | .interrupt cancelled =>
      (call.interrupt (if cancelled then .cancelled else .raised)).map (store, ·)
  | .projected parentToolCallID =>
      match call.phase with
      | .projecting => some (store, { call with phase := .planning parentToolCallID })
      | _ => none
  | .planned token =>
      match call.phase with
      | .planning parentToolCallID =>
          some (store, { call with
            phase := .creating none
            candidate := some (call.request.buildBatch digests parentToolCallID token) })
      | _ => none
  | .execute write =>
      -- a write may still be under way when the call of the owner has ended
      if call.ownsBatch then some (store.execute (call.batchID digests) write, call) else none
  | .finish =>
      match call.phase with
      | .executing | .observing _ _ => some (store, { call with phase := .returned })
      | .settling failure => some (store, { call with phase := .raised failure })
      | _ => none
  | .lateCreate => do
      let candidate ← call.candidate
      if call.lateCreate then
        some ((store.createBatch candidate).2, { call with lateCreate := false })
      else
        none
  | .lateCancel => do
      let candidate ← call.candidate
      if call.lateCancels ≠ 0 then
        some (store.cancelBatch candidate.batchID, { call with lateCancels := call.lateCancels - 1 })
      else
        none
  | .cleanup move => do
      let candidate ← call.candidate
      let phase ← call.cleanup
      call.clean candidate store phase move

end Call

/-! ## Everything together -/

/-- The store, all calls so far and the tokens that have been drawn. -/
structure World where
  store : Store
  calls : List Call := []
  tokens : List String

/-- What happens next, by the position of the call it happens to. -/
inductive Label where
  | submit (request : Request)
  | call (position : ℕ) (move : Move)
  /-- The owner of another batch, the sweeper, a cancelled turn or a reader that
  recovers a batch leaves the store like this. -/
  | elsewhere (store : Store)

def Move.token : Move → Option String
  | .planned token => some token
  | _ => none

namespace World

variable (digests : Digests)

/-- The next world, where the label is possible. `uuid.uuid4().hex` is not empty and was
not drawn before. -/
def next (world : World) : Label → Option World
  | .submit request => some { world with calls := world.calls ++ [Call.begin request] }
  | .call position move => do
      let call ← world.calls[position]?
      if (∀ token ∈ move.token, token ≠ "" ∧ token ∉ world.tokens) then
        let (store, call) ← call.next digests world.store move
        some ⟨store, world.calls.set position call, move.token.toList ++ world.tokens⟩
      else
        none
  | .elsewhere store =>
      if store.identities = world.store.identities then some { world with store } else none

/-- The calls over the store. -/
def system : System World Label := System.ofNext (next digests)

/-- Before the first call, over what is stored already. -/
def opening (store : Store) : World :=
  { store, tokens := store.batches.map BatchRecord.materializationToken }

end World

end Sico.TaskRuntime.Submission

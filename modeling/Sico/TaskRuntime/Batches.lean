import Sico.TaskRuntime.Operations

/-! # Batches of the store

A batch is stored like a run, as columns beside its document. Its own operations are
the insertion, the update by a client's document, the heartbeat of its owner and the
cancellation. The update and the cancellation read the row under a lock and say
whether they made the terminal transition.
-/

namespace Sico.TaskRuntime

open Foundation

/-- A decoded `map[string]int`. -/
abbrev CountsMap := AList fun _ : String => ℤ

/-- Decoding into a `map[string]int`: `null` is the nil map, and an object is merged
into the map that is there. -/
def intoCounts (current : Option CountsMap) : Json → Option (Option CountsMap)
  | .null => some none
  | .obj members =>
      (members.foldlM (fun (counts : CountsMap) member =>
        (Json.intoSigned 63 0 member.2).map (counts.insert member.1)) (current.getD ∅)).map some
  | _ => none

/-- `marshalJSON` of a `map[string]int`. -/
def countsJSON : Option CountsMap → Json
  | none => .null
  | some counts => .obj (counts.entries.map fun entry => (entry.1, .int entry.2))

/-- `taskRuntimeBatchPayload`. -/
structure BatchPayload where
  batchID : String := ""
  parentConversationID : ℤ := 0
  parentTurnID : ℤ := 0
  parentToolCallID : Option ℤ := none
  status : String := ""
  reason : String := ""
  joinStrategy : String := ""
  totalCount : Int32 := 0
  counts : Option CountsMap := none
  createdAt : ℤ := 0
  updatedAt : ℤ := 0
  endedAt : Option ℤ := none
  cancellationReason : String := ""

/-- The batch payload of the members of a document. -/
def BatchPayload.ofMembers (members : List (String × Json)) : Option BatchPayload := do
  let batchID ← Json.readField Json.intoText "" "batch_id" members
  let parentConversationID ← Json.readField (Json.intoSigned 63) 0 "parent_conversation_id" members
  let parentTurnID ← Json.readField (Json.intoSigned 63) 0 "parent_turn_id" members
  let parentToolCallID ← Json.readField Json.intoPointer none "parent_tool_call_id" members
  let status ← Json.readField Json.intoText "" "status" members
  let reason ← Json.readField Json.intoText "" "reason" members
  let joinStrategy ← Json.readField Json.intoText "" "join_strategy" members
  let totalCount ← Json.readField intoInt32 0 "total_count" members
  let counts ← Json.readField intoCounts none "counts" members
  let createdAt ← Json.readField (Json.intoSigned 63) 0 "created_at" members
  let updatedAt ← Json.readField (Json.intoSigned 63) 0 "updated_at" members
  let endedAt ← Json.readField Json.intoPointer none "ended_at" members
  let cancellationReason ← Json.readField Json.intoText "" "cancellation_reason" members
  return ⟨batchID, parentConversationID, parentTurnID, parentToolCallID, status, reason,
    joinStrategy, totalCount, counts, createdAt, updatedAt, endedAt, cancellationReason⟩

/-- `batchRowFromJSON`: the columns of a document a client sends, with the defaults. The
document itself becomes a column only when the row is written. -/
def batchRowFromJSON (now : ℤ) (payload : RawJson) : Except StoreError BatchRow := do
  let batchPayload ← decodeJSONValue {} BatchPayload.ofMembers payload "batch_json"
  refuseIf (batchPayload.batchID = "") (.invalid "batch_id is required")
  let createdAt := if batchPayload.createdAt = 0 then now else batchPayload.createdAt
  return {
    batchID := batchPayload.batchID
    parentConversationID := batchPayload.parentConversationID
    parentTurnID := batchPayload.parentTurnID
    parentToolCallID := batchPayload.parentToolCallID
    status := if batchPayload.status = "" then .queued else .ofText batchPayload.status
    countsJSON := countsJSON batchPayload.counts
    batchJSON := .null
    createdAt
    updatedAt := if batchPayload.updatedAt = 0 then createdAt else batchPayload.updatedAt
    endedAt := batchPayload.endedAt
    cancellationReason := batchPayload.cancellationReason
    livenessAt := some createdAt
    reason := batchPayload.reason
    joinStrategy :=
      if batchPayload.joinStrategy = "" then "partial_ok" else batchPayload.joinStrategy
    totalCount := batchPayload.totalCount }

def decodedCountsJSON : Json → GoValue
  | .null => .composite (.obj [])
  | value => .ofJson value

/-- `canonicalizeBatchPayload`: the columns overwrite the members. -/
def canonicalizeBatchPayload (row : BatchRow) (payload : JsonMap) : JsonMap :=
  let payload := putValue payload "batch_id" (.string row.batchID)
  let payload := putValue payload "parent_conversation_id" (.int64 row.parentConversationID)
  let payload := putValue payload "parent_turn_id" (.int64 row.parentTurnID)
  let payload := putValue payload "parent_tool_call_id" (.int64Ptr row.parentToolCallID)
  let payload := putValue payload "status" (.string row.status.text)
  let payload := putValue payload "reason" (.string row.reason)
  let payload := putValue payload "join_strategy" (.string row.joinStrategy)
  let payload := putValue payload "total_count" (.int32 row.totalCount)
  let payload := putValue payload "counts" (decodedCountsJSON row.countsJSON)
  let payload := putValue payload "created_at" (.int64 row.createdAt)
  let payload := putValue payload "updated_at" (.int64 row.updatedAt)
  let payload := putValue payload "ended_at" (.int64Ptr row.endedAt)
  putValue payload "cancellation_reason" (.string row.cancellationReason)

/-- `canonicalBatchJSON`: the document a reader gets. -/
def canonicalBatchJSON (row : BatchRow) : Json :=
  match decodeJSONMap (.doc row.batchJSON false) "batch_json" with
  | .ok payload => marshalJSON (canonicalizeBatchPayload row payload)
  | .error _ => row.batchJSON

/-- `batchUpdateMap` applied to a stored row: `row` gives every column but the batch
ID, the creation time and the liveness of the owner. -/
def batchUpdateMap (row stored : BatchRow) : BatchRow :=
  { row with
    batchID := stored.batchID
    createdAt := stored.createdAt
    livenessAt := stored.livenessAt }

/-- `batchUpdateDecision`: whether the update applies, and whether it is the terminal
transition. -/
def batchUpdateDecision (existingStatus incomingStatus : Status) : Bool × Bool :=
  let existingTerminal : Bool := existingStatus ∈ terminalBatchStatuses
  if existingTerminal then (false, false)
  else (true, !existingTerminal && incomingStatus ∈ terminalBatchStatuses)

structure BatchCreateResult where
  batchJSON : Json
  created : Bool := false
  deriving Repr

structure BatchUpdateResult where
  batchJSON : Json
  applied : Bool
  terminalTransitioned : Bool
  deriving Repr

namespace Database

/-- `CreateBatch`. The batch ID is unique, and a batch that is there already is what a
second insertion of its ID returns. -/
def createBatch (db : Database) (now : ℤ) (batchJSON : RawJson) :
    Except StoreError (BatchCreateResult × Database) := do
  let row ← batchRowFromJSON now batchJSON
  let document ← jsonColumn "batch_json" batchJSON
  match db.findBatch row.batchID with
  | some existing => return ({ batchJSON := canonicalBatchJSON existing }, db)
  | none =>
      let row := { row with batchJSON := document }
      return (⟨canonicalBatchJSON row, true⟩, { db with batches := db.batches ++ [row] })

/-- `UpdateBatch`. A batch that has settled is returned as it is. -/
def updateBatch (db : Database) (now : ℤ) (batchJSON : RawJson) :
    Except StoreError (BatchUpdateResult × Database) := do
  let row ← batchRowFromJSON now batchJSON
  match db.findBatch row.batchID with
  | none => throw .notFound
  | some existing =>
      let (applyUpdate, transitioned) := batchUpdateDecision existing.status row.status
      if ¬ applyUpdate then
        return (⟨canonicalBatchJSON existing, false, false⟩, db)
      let document ← jsonColumn "batch_json" batchJSON
      let row := { row with batchJSON := document }
      return (⟨canonicalBatchJSON (batchUpdateMap row existing), true, transitioned⟩,
        { db with batches := db.batches.map fun stored =>
            if stored.batchID = row.batchID then batchUpdateMap row stored else stored })

/-- `HeartbeatBatch`, one conditional statement without a lock. -/
def heartbeatBatch (db : Database) (now : ℤ) (batchID : String) : Except StoreError Database := do
  let id := trimSpace batchID
  refuseIf (id = "") (.invalid "batch_id is required")
  return { db with batches := db.batches.map fun stored =>
    if stored.batchID = id ∧ stored.status.isActive then
      { stored with livenessAt := some now, updatedAt := now }
    else
      stored }

end Database

end Sico.TaskRuntime

import Sico.Foundation.Traversal
import Sico.TaskRuntime.Operations

/-! # Settling many runs at once

Two statements of the store settle every run they select: the cancellation of a batch and
the sweep of the stale runs. What such a statement did is told row by row, beside what it
left alone; what it reports or writes elsewhere is compared with the rows afterwards.
-/

namespace Sico.TaskRuntime

open Foundation

/-- Whether the document of a run can be decoded, as every document that the store wrote. -/
def RunRow.Readable (row : RunRow) : Prop := ∃ payload, canonicalPayload row = .ok payload

theorem exists_cancelRunRowTx {reason : String} {now : ℤ} {row : RunRow} :
    (∃ row', cancelRunRowTx reason now row = .ok row') ↔ (row.status.isActive = true → row.Readable) := by
  unfold cancelRunRowTx
  split
  · next idle => simp [Status.isActive, idle]
  · next active =>
      have active : row.status.isActive = true := by
        simp only [Status.isActive]
        grind
      simp only [active, true_implies]
      constructor
      · rintro ⟨row', done⟩
        obtain ⟨payload, canonical, _⟩ := bind_eq_ok.mp done
        exact ⟨payload, canonical⟩
      · rintro ⟨payload, canonical⟩
        exact ⟨_, bind_eq_ok.mpr ⟨payload, canonical, rfl⟩⟩

theorem exists_failStaleRunTx {now : ℤ} {row : RunRow} :
    (∃ row', failStaleRunTx now row = .ok row') ↔ (row.status.isActive = true → row.Readable) := by
  unfold failStaleRunTx
  split
  · next idle => simp [Status.isActive, idle]
  · next active =>
      have active : row.status.isActive = true := by
        simp only [Status.isActive]
        grind
      simp only [active, true_implies]
      constructor
      · rintro ⟨row', done⟩
        obtain ⟨payload, canonical, _⟩ := bind_eq_ok.mp done
        exact ⟨payload, canonical⟩
      · rintro ⟨payload, canonical⟩
        exact ⟨_, bind_eq_ok.mpr ⟨payload, canonical, rfl⟩⟩

section Cancellation

/-- What the cancellation of a batch makes of a row: an active run of the batch is cancelled
and loses its token, and any other row is the row it was. -/
def CancelsRun (batchID : String) (row row' : RunRow) : Prop :=
  if row.batchID = batchID ∧ row.status.isActive = true then
    row'.runID = row.runID ∧ row'.batchID = row.batchID ∧ row'.status = .cancelled ∧
      row'.fencingToken = ""
  else
    row' = row

theorem cancelsRun_of_rewriteWhere {batchID reason : String} {now : ℤ} {row row' : RunRow}
    (done : Table.rewriteWhere (fun row : RunRow => row.batchID = batchID) (cancelRunRowTx reason now) row =
      .ok row') : CancelsRun batchID row row' := by
  unfold Table.rewriteWhere at done
  unfold CancelsRun
  by_cases here : row.batchID = batchID
  · rw [if_pos (by simpa using here)] at done
    obtain ⟨idle, rfl⟩ | ⟨active, _, rfl⟩ := cancelRunRowTx_ok done
    · rw [if_neg (by simp [idle])]
    · rw [if_pos ⟨here, active⟩]
      exact ⟨rfl, rfl, rfl, rfl⟩
  · rw [if_neg (by simpa using here)] at done
    cases done
    rw [if_neg (by simp [here])]

theorem CancelsRun.batchID_eq {batchID : String} {row row' : RunRow} (cancels : CancelsRun batchID row row') :
    row'.batchID = row.batchID := by
  unfold CancelsRun at cancels
  split at cancels
  · exact cancels.2.1
  · rw [cancels]

theorem CancelsRun.settled_iff {row row' : RunRow} {batchID : String} (cancels : CancelsRun batchID row row')
    (here : row.batchID = batchID) :
    row'.status ∈ terminalRunStatuses ↔ row.status.isActive = true ∨ row.status ∈ terminalRunStatuses := by
  unfold CancelsRun at cancels
  by_cases active : row.status.isActive = true
  · rw [if_pos ⟨here, active⟩] at cancels
    simp [cancels.2.2.1, active, terminalRunStatuses]
  · rw [if_neg (by simp [active])] at cancels
    simp [cancels, active]

theorem CancelsRun.not_active {row row' : RunRow} {batchID : String} (cancels : CancelsRun batchID row row')
    (here : row.batchID = batchID) : row'.status.isActive = false := by
  unfold CancelsRun at cancels
  by_cases active : row.status.isActive = true
  · rw [if_pos ⟨here, active⟩] at cancels
    rw [cancels.2.2.1]
    rfl
  · rw [if_neg (by simp [active])] at cancels
    simpa [cancels] using active

end Cancellation

namespace Database

def runsOf (db : Database) (batchID : String) : List RunRow :=
  db.runs.filter fun row => row.batchID = batchID

def tally (db : Database) (batchID : String) : List (String × ℕ) :=
  terminalRunStatuses.map fun status =>
    (status.text, (db.runsOf batchID).countP fun row => row.status = status)

/-- What the cancellation of an active batch leaves behind. -/
structure CancelsBatch (batch : BatchRow) (now : ℤ) (reason : String) (db db' : Database) : Prop where
  runs : List.Forall₂ (CancelsRun batch.batchID) db.runs db'.runs
  idle : ∀ row ∈ db'.runsOf batch.batchID, row.status.isActive = false
  messages : db'.messages = db.messages
  batches : ∃ payload : JsonMap, payload.lookup "counts" = some (.counts (db'.tally batch.batchID)) ∧
    payload.lookup "status" = some (.string "cancelled") ∧
    db'.batches = db.batches.map fun other =>
      if other.batchID = batch.batchID then
        { batch with
          status := .cancelled
          cancellationReason := reason
          endedAt := some now
          updatedAt := now
          countsJSON := .obj ((db'.tally batch.batchID).map fun entry => (entry.1, .int entry.2))
          batchJSON := marshalJSON payload }
      else other
  total : ((db'.tally batch.batchID).map Prod.snd).sum = (db'.runsOf batch.batchID).length ↔
    ∀ row ∈ db.runsOf batch.batchID, row.status.isActive = true ∨ row.status ∈ terminalRunStatuses

theorem sum_tally (db : Database) (batchID : String) :
    ((db.tally batchID).map Prod.snd).sum = (db.runsOf batchID).length ↔
      ∀ row ∈ db.runsOf batchID, row.status ∈ terminalRunStatuses := by
  have counted : ((db.tally batchID).map Prod.snd).sum =
      (db.runsOf batchID).countP fun row => row.status ∈ terminalRunStatuses := by
    rw [tally, List.map_map]
    exact Table.sum_countP RunRow.status (by decide) _
  rw [counted, List.countP_eq_length]
  simp only [decide_eq_true_eq]

theorem runsOf_inStep {batchID : String} {rows rows' : List RunRow}
    (inStep : List.Forall₂ (CancelsRun batchID) rows rows') :
    List.Forall₂ (fun row row' => row.batchID = batchID ∧ CancelsRun batchID row row')
      (rows.filter fun row => row.batchID = batchID) (rows'.filter fun row => row.batchID = batchID) := by
  induction inStep with
  | nil => exact .nil
  | @cons row row' _ _ cancels _ ih =>
      by_cases here : row.batchID = batchID
      · rw [List.filter_cons_of_pos (by simpa using here),
          List.filter_cons_of_pos (by simpa [cancels.batchID_eq] using here)]
        exact .cons ⟨here, cancels⟩ ih
      · rwa [List.filter_cons_of_neg (by simpa using here),
          List.filter_cons_of_neg (by simpa [cancels.batchID_eq] using here)]

theorem cancelBatch_ok {db db' : Database} {now : ℤ} {batchID reason : String} {batch : BatchRow}
    (found : db.findBatch batchID = some batch) (active : batch.status.isActive = true)
    {result : CancelResult} (done : db.cancelBatch now batchID reason = .ok (result, db')) :
    CancelsBatch batch now reason db db' := by
  unfold cancelBatch at done
  simp only [found, active, not_true_eq_false, if_false] at done
  obtain ⟨payload, _, done⟩ := bind_eq_ok.mp done
  obtain ⟨runs, updated, done⟩ := bind_eq_ok.mp done
  cases done
  have inStep : List.Forall₂ (CancelsRun batch.batchID) db.runs runs :=
    (Table.updateWhere_eq_ok.mp updated).imp fun _ _ => cancelsRun_of_rewriteWhere
  have own := runsOf_inStep inStep
  refine ⟨inStep, ?_, rfl, ⟨_, lookup_putValue _ _ _, ?_, rfl⟩, ?_⟩
  · intro row' listed
    obtain ⟨row, _, here, cancels⟩ := exists_left_of_mem own listed
    exact cancels.not_active here
  · simp only [lookup_putValue_ne, lookup_putValue, ne_eq, String.reduceEq, not_false_eq_true]
    rfl
  · rw [sum_tally]
    constructor
    · intro settled row listed
      obtain ⟨row', listed', here, cancels⟩ := exists_right_of_mem own listed
      exact (cancels.settled_iff here).mp (settled row' listed')
    · intro named row' listed
      obtain ⟨row, listed', here, cancels⟩ := exists_left_of_mem own listed
      exact (cancels.settled_iff here).mpr (named row listed')

/-- **The cancellation of a batch.** A batch that is not active is left as it is, with everything else. The
cancellation of an active one goes through if its document and those of its active runs can be decoded, and then
each queued or running run of it is cancelled without a token, every other run is the row it was, the batch is
cancelled, and the counts it stores are the tally of its runs. They sum to the number of its runs exactly if every
run had one of the statuses that the store has for runs. -/
theorem cancelBatch_settles (db : Database) (now : ℤ) (batchID reason : String) (batch : BatchRow)
    (found : db.findBatch batchID = some batch) :
    (batch.status.isActive = false → db.cancelBatch now batchID reason = .ok ({}, db)) ∧
    (batch.status.isActive = true →
      ((∃ result db', db.cancelBatch now batchID reason = .ok (result, db')) ↔
        (∃ payload, decodeJSONMap (.doc batch.batchJSON false) "batch_json" = .ok payload) ∧
          ∀ row ∈ db.runsOf batchID, row.status.isActive = true → row.Readable) ∧
      ∀ result db', db.cancelBatch now batchID reason = .ok (result, db') →
        CancelsBatch batch now reason db db') := by
  have located : batch.batchID = batchID := Table.key_of_select found
  refine ⟨fun idle => ?_, fun active => ⟨?_, fun result db' done => cancelBatch_ok found active done⟩⟩
  · unfold cancelBatch
    simp only [found, idle, Bool.false_eq_true, not_false_eq_true, if_true]
    rfl
  · have rewritable : (∃ runs, Table.updateWhere (fun row : RunRow => row.batchID = batch.batchID)
          (cancelRunRowTx reason now) db.runs = .ok runs) ↔
        ∀ row ∈ db.runsOf batchID, row.status.isActive = true → row.Readable := by
      rw [Table.exists_updateWhere]
      simp only [exists_cancelRunRowTx, runsOf, List.mem_filter, decide_eq_true_eq, located, and_imp]
    rw [← rewritable]
    unfold cancelBatch
    simp only [found, active, not_true_eq_false, if_false]
    constructor
    · rintro ⟨result, db', done⟩
      obtain ⟨payload, decoded, done⟩ := bind_eq_ok.mp done
      obtain ⟨runs, updated, _⟩ := bind_eq_ok.mp done
      exact ⟨⟨payload, decoded⟩, runs, updated⟩
    · rintro ⟨⟨payload, decoded⟩, runs, updated⟩
      exact ⟨_, _, bind_eq_ok.mpr ⟨payload, decoded, bind_eq_ok.mpr ⟨runs, updated, rfl⟩⟩⟩

def runningBatch : BatchRow where
  batchID := "batch"
  parentConversationID := 0
  parentTurnID := 0
  parentToolCallID := none
  status := .running
  countsJSON := .obj []
  batchJSON := .obj []
  createdAt := 0
  updatedAt := 0
  endedAt := none
  cancellationReason := ""
  livenessAt := none

/-- A queued run is cancelled with its batch. -/
theorem cancelBatch_settles_queued : ∃ result db',
    cancelBatch ⟨[runningBatch], [RunRow.fresh "run" "batch"], []⟩ 7 "batch" "user" = .ok (result, db') ∧
      CancelsBatch runningBatch 7 "user" ⟨[runningBatch], [RunRow.fresh "run" "batch"], []⟩ db' :=
  have settles := (cancelBatch_settles ⟨[runningBatch], [RunRow.fresh "run" "batch"], []⟩ 7 "batch" "user"
    runningBatch rfl).2 rfl
  ⟨_, _, rfl, settles.2 _ _ rfl⟩

/-- A run may be stored with any status. One that is stored as `paused` is neither cancelled with its batch nor
settled before, and the counts do not reach the number of the runs. -/
theorem paused_run_survives : ∃ db db' result,
    createRun ⟨[runningBatch], [], []⟩ 5
        (.doc (.obj [("run_id", .str "run"), ("batch_id", .str "batch"), ("status", .str "paused")]) false) =
      .ok (true, db) ∧
    db.cancelBatch 7 "batch" "user" = .ok (result, db') ∧
    (db'.runsOf "batch").all (fun row => row.status ≠ .cancelled && row.status ∉ terminalRunStatuses) = true ∧
    ((db'.tally "batch").map Prod.snd).sum = 0 ∧ (db'.runsOf "batch").length = 1 :=
  ⟨_, _, _, rfl, rfl, by decide⟩

end Database

section Sweep

/-- What the sweep makes of a stale row. -/
structure SweepsRun (row row' : RunRow) : Prop where
  runID : row'.runID = row.runID
  batchID : row'.batchID = row.batchID
  active : row.status.isActive = true
  queued : row.status = .queued → row'.status = .blocked
  running : row.status = .running → row'.status = .failed
  token : row'.fencingToken = ""
  result : ∃ members, row'.resultJSON = some (.obj members) ∧
    members.lookup "status" = some (.str row'.status.text)

theorem sweepsRun_of_failStaleRunTx {now : ℤ} {row row' : RunRow} (done : failStaleRunTx now row = .ok row')
    (active : row.status.isActive = true) : SweepsRun row row' := by
  obtain ⟨written, stored⟩ := failStaleRunTx_result done active
  obtain ⟨idle, _⟩ | ⟨_, _, _, rfl⟩ := failStaleRunTx_ok done
  · exact absurd active idle
  · refine ⟨rfl, rfl, active, fun queued => ?_, fun running => ?_, rfl, _, stored, rfl⟩
    · rw [staleStatus, if_pos queued]
    · rw [staleStatus, if_neg (by simp [running])]

theorem SweepsRun.not_active {row row' : RunRow} (swept : SweepsRun row row') :
    row'.status.isActive = false := by
  have active : row.status = .queued ∨ row.status = .running := by simpa [Status.isActive] using swept.active
  rcases active with queued | running
  · rw [swept.queued queued]
    rfl
  · rw [swept.running running]
    rfl

def Names (batchID : String) (marker : Json) : Prop :=
  ∃ members, marker = .obj members ∧ members.lookup "batch_id" = some (.str batchID)

namespace Database

theorem names_staleRunJSON (row : RunRow) : Names row.batchID (staleRunJSON row) := ⟨_, rfl, rfl⟩

theorem names_staleBatchJSON (batch : BatchRow) : Names batch.batchID (staleBatchJSON batch) := ⟨_, rfl, rfl⟩

theorem markers_complete (batches : List BatchRow) (markers : List Json) (seen : List String)
    (later : List Json × List String)
    (reached : batches.foldl (fun (markers, seen) batch =>
      if batch.batchID = "" ∨ batch.batchID ∈ seen then (markers, seen)
      else (markers ++ [staleBatchJSON batch], batch.batchID :: seen)) (markers, seen) = later) :
    (∀ marker ∈ markers, marker ∈ later.1) ∧
      ∀ batch ∈ batches, batch.batchID ≠ "" → batch.batchID ∉ seen → ∃ marker ∈ later.1, Names batch.batchID marker := by
  induction batches generalizing markers seen with
  | nil =>
      cases reached
      exact ⟨fun marker listed => listed, fun batch listed => by simp at listed⟩
  | cons first rest ih =>
      rw [List.foldl_cons] at reached
      dsimp only at reached
      by_cases skipped : first.batchID = "" ∨ first.batchID ∈ seen
      · rw [if_pos skipped] at reached
        obtain ⟨kept, named⟩ := ih markers seen reached
        refine ⟨kept, fun batch listed known unseen => ?_⟩
        rcases List.mem_cons.mp listed with rfl | other
        · exact absurd skipped (by simp [known, unseen])
        · exact named batch other known unseen
      · rw [if_neg skipped] at reached
        obtain ⟨kept, named⟩ := ih _ _ reached
        refine ⟨fun marker listed => kept marker (List.mem_append_left _ listed), fun batch listed known unseen => ?_⟩
        have marked : ∃ marker ∈ later.1, Names first.batchID marker :=
          ⟨staleBatchJSON first, kept _ (by simp), names_staleBatchJSON first⟩
        rcases List.mem_cons.mp listed with rfl | other
        · exact marked
        · by_cases same : batch.batchID = first.batchID
          · rwa [same]
          · exact named batch other known (by simp [same, unseen])

/-- What a sweep leaves behind and reports. -/
structure Sweeps (beforeTs : ℤ) (db : Database) (markers : List Json) (db' : Database) : Prop where
  batches : db'.batches = db.batches
  messages : db'.messages = db.messages
  runs : List.Forall₂ (fun row row' =>
    if db.isStale beforeTs row = true then SweepsRun row row' else row' = row) db.runs db'.runs
  runMarkers : ∀ row ∈ db.runs, db.isStale beforeTs row = true → ∃ marker ∈ markers, Names row.batchID marker
  batchMarkers : ∀ batch ∈ db'.batches, batch.batchID ≠ "" → batch.status.isActive = true →
    batch.livenessAt.getD batch.createdAt < beforeTs →
    (∀ row ∈ db'.runsOf batch.batchID, row.status.isActive = false) →
    ∃ marker ∈ markers, Names batch.batchID marker

theorem sweepStaleRuns_eq {db db' : Database} {now beforeTs : ℤ} {markers : List Json}
    (done : db.sweepStaleRuns now beforeTs = .ok (markers, db')) :
    Table.updateWhere (db.isStale beforeTs) (failStaleRunTx now) db.runs = .ok db'.runs ∧
      db'.batches = db.batches ∧ db'.messages = db.messages ∧
      ∃ recovery, markers = (db.runs.filter (db.isStale beforeTs)).map staleRunJSON ++
        (db'.staleBatchMarkersTx beforeTs ((db.runs.filter (db.isStale beforeTs)).map RunRow.batchID)).1 ++
          recovery := by
  obtain ⟨runs, updated, done⟩ := bind_eq_ok.mp done
  cases done
  exact ⟨updated, rfl, rfl, _, rfl⟩

theorem staleBatchMarkersTx_complete {db : Database} {beforeTs : ℤ} (positive : 0 < beforeTs) {seen : List String}
    {batch : BatchRow} (listed : batch ∈ db.batches) (known : batch.batchID ≠ "") (unseen : batch.batchID ∉ seen)
    (active : batch.status.isActive = true) (silent : batch.livenessAt.getD batch.createdAt < beforeTs)
    (settled : ∀ row ∈ db.runsOf batch.batchID, row.status.isActive = false) :
    ∃ marker ∈ (db.staleBatchMarkersTx beforeTs seen).1, Names batch.batchID marker := by
  rw [staleBatchMarkersTx, if_neg (Int.not_le.mpr positive)]
  refine (markers_complete _ [] seen _ rfl).2 batch (List.mem_filter.mpr ⟨listed, ?_⟩) known unseen
  simp only [active, silent, decide_true, Bool.true_and, Bool.not_eq_true', List.any_eq_false,
    Bool.and_eq_true, decide_eq_true_eq, not_and, Bool.not_eq_true]
  exact fun row member here => settled row (List.mem_filter.mpr ⟨member, by simpa using here⟩)

theorem sweepStaleRuns_ok {db db' : Database} {now beforeTs : ℤ} (positive : 0 < beforeTs) {markers : List Json}
    (done : db.sweepStaleRuns now beforeTs = .ok (markers, db')) : Sweeps beforeTs db markers db' := by
  obtain ⟨updated, batches, messages, recovery, rfl⟩ := sweepStaleRuns_eq done
  have marked {row : RunRow} (listed : row ∈ db.runs) (stale : db.isStale beforeTs row = true) :
      staleRunJSON row ∈ (db.runs.filter (db.isStale beforeTs)).map staleRunJSON :=
    List.mem_map_of_mem (List.mem_filter.mpr ⟨listed, stale⟩)
  refine ⟨batches, messages, (Table.updateWhere_eq_ok.mp updated).imp fun row row' rewritten => ?_,
    fun row listed stale => ?_, fun batch listed known active silent settled => ?_⟩
  · unfold Table.rewriteWhere at rewritten
    by_cases stale : db.isStale beforeTs row = true
    · rw [if_pos stale] at rewritten ⊢
      have active : row.status.isActive = true := by
        simp only [isStale, Bool.and_eq_true] at stale
        exact stale.1
      exact sweepsRun_of_failStaleRunTx rewritten active
    · rw [if_neg stale] at rewritten ⊢
      cases rewritten
      rfl
  · exact ⟨_, List.mem_append_left _ (List.mem_append_left _ (marked listed stale)), names_staleRunJSON row⟩
  · by_cases seen : batch.batchID ∈ (db.runs.filter (db.isStale beforeTs)).map RunRow.batchID
    · obtain ⟨row, swept, same⟩ := List.mem_map.mp seen
      obtain ⟨member, stale⟩ := List.mem_filter.mp swept
      rw [← same]
      exact ⟨_, List.mem_append_left _ (List.mem_append_left _ (marked member stale)), names_staleRunJSON row⟩
    · obtain ⟨marker, named, names⟩ :=
        staleBatchMarkersTx_complete positive listed known seen active silent settled
      exact ⟨marker, List.mem_append_left _ (List.mem_append_right _ named), names⟩

theorem Sweeps.none_stale {db db' : Database} {beforeTs : ℤ} {markers : List Json}
    (sweeps : Sweeps beforeTs db markers db') : ∀ row ∈ db'.runs, db'.isStale beforeTs row = false := by
  intro row' listed
  obtain ⟨row, _, swept⟩ := exists_left_of_mem sweeps.runs listed
  have same : db'.isStale beforeTs row' = db.isStale beforeTs row' := by
    unfold isStale findBatch
    rw [sweeps.batches]
  by_cases stale : db.isStale beforeTs row = true
  · rw [if_pos stale] at swept
    simp [isStale, swept.not_active]
  · rw [if_neg stale] at swept
    rw [same, swept]
    simpa using stale

/-- **The sweep of the stale runs.** It goes through if the documents of the stale runs can be decoded. Then it
rewrote exactly the stale runs, each of them settled under the status of its result and without a token, and left
every other row alone, among them the runs of every batch that was heard of since. Each batch with a swept run is
named by a marker, as is each silent active batch without an active run, and another sweep over the same time leaves
the runs as they are. -/
theorem sweep_takes_stale (db : Database) (now beforeTs : ℤ) (positive : 0 < beforeTs) :
    ((∃ markers db', db.sweepStaleRuns now beforeTs = .ok (markers, db')) ↔
      ∀ row ∈ db.runs, db.isStale beforeTs row = true → row.Readable) ∧
    ∀ markers db', db.sweepStaleRuns now beforeTs = .ok (markers, db') →
      Sweeps beforeTs db markers db' ∧
      (∀ (row : RunRow) (batch : BatchRow) (livenessAt : ℤ), db.findBatch row.batchID = some batch →
        batch.livenessAt = some livenessAt → beforeTs ≤ livenessAt → db.isStale beforeTs row = false) ∧
      ∀ later, ∃ markers', db'.sweepStaleRuns later beforeTs = .ok (markers', db') := by
  constructor
  · have rewritable : (∃ runs, Table.updateWhere (db.isStale beforeTs) (failStaleRunTx now) db.runs = .ok runs) ↔
        ∀ row ∈ db.runs, db.isStale beforeTs row = true → row.Readable := by
      rw [Table.exists_updateWhere]
      simp only [exists_failStaleRunTx, isStale, Bool.and_eq_true]
      exact ⟨fun each row listed stale => each row listed stale stale.1,
        fun each row listed stale _ => each row listed stale⟩
    rw [← rewritable]
    constructor
    · rintro ⟨markers, db', done⟩
      exact ⟨db'.runs, (sweepStaleRuns_eq done).1⟩
    · rintro ⟨runs, updated⟩
      exact ⟨_, _, bind_eq_ok.mpr ⟨runs, updated, rfl⟩⟩
  · intro markers db' done
    have sweeps := sweepStaleRuns_ok positive done
    refine ⟨sweeps, fun row batch livenessAt found heard since => ?_, fun later => ?_⟩
    · simp [isStale, found, heard, since]
    · exact ⟨_, bind_eq_ok.mpr ⟨db'.runs, Table.updateWhere_of_none sweeps.none_stale, rfl⟩⟩

/-- A queued run of a batch that was never heard of is swept. -/
theorem sweep_takes_queued : ∃ markers db',
    sweepStaleRuns ⟨[runningBatch], [RunRow.fresh "run" "batch"], []⟩ 7 5 = .ok (markers, db') ∧
      Sweeps 5 ⟨[runningBatch], [RunRow.fresh "run" "batch"], []⟩ markers db' :=
  ⟨_, _, rfl, ((sweep_takes_stale ⟨[runningBatch], [RunRow.fresh "run" "batch"], []⟩ 7 5 (by decide)).2 _ _ rfl).1⟩

end Database

end Sweep

end Sico.TaskRuntime

import Sico.TaskRuntime.Transitions

/-! # What the transitions make of the columns

One theorem for each transition of a locked run says under which guard it succeeds
and which columns it leaves behind. Later arguments use these and never look into
the payload map again.
-/

namespace Sico.TaskRuntime

open Foundation

section Readback

variable (row : RunRow) (payload : JsonMap)

@[simp] theorem lookup_canonical_attempt :
    (canonicalizeRunPayload row payload).lookup "attempt" = some (.int32 row.attempt) := by
  simp [canonicalizeRunPayload]

@[simp] theorem lookup_canonical_worker :
    (canonicalizeRunPayload row payload).lookup "worker_id" = some (.string row.workerID) := by
  simp [canonicalizeRunPayload]

@[simp] theorem lookup_canonical_started :
    (canonicalizeRunPayload row payload).lookup "started_at" =
      some (.int64Ptr row.startedAt) := by
  simp [canonicalizeRunPayload]

@[simp] theorem lookup_canonical_ended :
    (canonicalizeRunPayload row payload).lookup "ended_at" = some (.int64Ptr row.endedAt) := by
  simp [canonicalizeRunPayload]

@[simp] theorem lookup_canonical_errorClass :
    (canonicalizeRunPayload row payload).lookup "last_error_class" =
      some (.string row.lastErrorClass) := by
  simp [canonicalizeRunPayload]

@[simp] theorem lookup_canonical_error :
    (canonicalizeRunPayload row payload).lookup "last_error" = some (.string row.lastError) := by
  simp [canonicalizeRunPayload]

end Readback

theorem canonicalPayload_ok {row : RunRow} {payload : JsonMap}
    (done : canonicalPayload row = .ok payload) :
    ∃ stored, payload = canonicalizeRunPayload row stored := by
  obtain ⟨stored, _, same⟩ := bind_eq_ok.mp done
  cases same
  exact ⟨stored, rfl⟩

theorem canonicalPayload_congr {row mirror : RunRow} (stored : row.runJSON = mirror.runJSON) :
    (canonicalPayload row).isOk = (canonicalPayload mirror).isOk := by
  unfold canonicalPayload
  rw [stored]
  cases decodeJSONMap (.doc mirror.runJSON false) "run_json" with
  | error _ => rfl
  | ok _ => rfl

theorem canonicalPayload_of_marshal {row : RunRow} {payload : JsonMap}
    (stored : row.runJSON = marshalJSON payload) : (canonicalPayload row).isOk = true := by
  simp [canonicalPayload, stored, marshalJSON, decodeJSONMap, bind, Except.bind, pure, Except.pure,
    Except.isOk, Except.toBool]

/-- **Claiming.** A claim takes a queued run. The columns it does not mean to touch
are read back from the map, where `attempt` and both times have types that read as
zero. -/
theorem claimRow_ok {now : ℤ} {token workerID : String} {row row' : RunRow}
    (done : claimRow now token workerID row = .ok row') :
    row.status = .queued ∧ ∃ payload : JsonMap,
      row' = { row with
        status := .running
        attempt := 0
        workerID := trimSpace workerID
        fencingToken := token
        startedAt := some now
        endedAt := some 0
        runJSON := marshalJSON payload
        resultJSON := none
        updatedAt := now } := by
  obtain ⟨payload, canonical, done⟩ := bind_eq_ok.mp done
  obtain ⟨stored, rfl⟩ := canonicalPayload_ok canonical
  obtain ⟨_, claimable, done⟩ := bind_eq_ok.mp done
  refine ⟨not_not.mp (refuseIf_eq_ok.mp claimable), ?_⟩
  cases done
  simp [updateRunPayload, getString, getInt64, getOptionalInt64, anyToInt64, sprint, Status.isActive]

@[simp] theorem lookup_putEndedAt_ne (now : ℤ) (endedAt : Option ℤ) (payload : JsonMap)
    {key : String} (different : key ≠ "ended_at") :
    (putEndedAt now endedAt payload).lookup key = payload.lookup key := by
  unfold putEndedAt
  cases endedAt with
  | none => dsimp only; split <;> simp [different]
  | some _ => dsimp only; split <;> simp [different]

theorem lookup_putEndedAt {payload : JsonMap} {previous : Option ℤ}
    (stored : payload.lookup "ended_at" = some (.int64Ptr previous)) (now : ℤ)
    (endedAt : Option ℤ) :
    ∃ value : ℤ, (putEndedAt now endedAt payload).lookup "ended_at" = some (.int64 value) := by
  cases endedAt with
  | none => exact ⟨now, by simp [putEndedAt, getInt64, anyToInt64, stored]⟩
  | some endedAt =>
      by_cases zero : endedAt = 0
      · exact ⟨now, by simp [putEndedAt, getInt64, anyToInt64, zero]⟩
      · exact ⟨endedAt, by simp [putEndedAt, getInt64, anyToInt64, zero]⟩

/-- **Writing a result.** A result lands only on a running run under the presented
token, and consumes the token. -/
theorem writeResultRow_ok {now durationMS : ℤ} {tokenJSON resultJSONStr : RawJson}
    {row row' : RunRow}
    (done : writeResultRow now tokenJSON resultJSONStr row = .ok (durationMS, row')) :
    row.status = .running ∧ row.fencingToken ≠ "" ∧
      decodeJSONValue "" tokenOfMembers tokenJSON "token_json" = .ok row.fencingToken ∧
      ∃ (result : ResultPayload) (endedAt : ℤ) (payload : JsonMap) (document : Json),
        decodeJSONValue {} ResultPayload.ofMembers resultJSONStr "result_json" = .ok result ∧
        Status.ofText result.status ∈ terminalRunStatuses ∧
        row' = { row with
          status := .ofText result.status
          attempt := 0
          fencingToken := ""
          startedAt := some 0
          endedAt := some endedAt
          lastErrorClass := result.errorClass
          lastError := result.errorMessage
          runJSON := marshalJSON payload
          resultJSON := some document
          updatedAt := now } := by
  obtain ⟨payload, canonical, done⟩ := bind_eq_ok.mp done
  obtain ⟨stored, rfl⟩ := canonicalPayload_ok canonical
  obtain ⟨_, authorized, done⟩ := bind_eq_ok.mp done
  obtain ⟨token, decoded, checked⟩ := bind_eq_ok.mp authorized
  have admitted := refuseIf_eq_ok.mp checked
  push Not at admitted
  obtain ⟨running, present, same⟩ := admitted
  obtain ⟨result, parsed, done⟩ := bind_eq_ok.mp done
  obtain ⟨_, terminal, done⟩ := bind_eq_ok.mp done
  obtain ⟨document, _, done⟩ := bind_eq_ok.mp done
  cases done
  obtain ⟨endedAt, ended⟩ : ∃ value : ℤ,
      (putResult now result (canonicalizeRunPayload row stored)).lookup "ended_at" =
        some (.int64 value) := by
    have before : (putValue (putValue (canonicalizeRunPayload row stored) "status"
        (.string result.status)) "fencing_token" (.string "")).lookup "ended_at" =
          some (.int64Ptr row.endedAt) := by
      simp
    obtain ⟨endedAt, after⟩ := lookup_putEndedAt before now result.endedAt
    exact ⟨endedAt, by simpa [putResult] using after⟩
  refine ⟨running, present, same ▸ decoded, result, endedAt,
    putResult now result (canonicalizeRunPayload row stored), document, parsed,
    not_not.mp (refuseIf_eq_ok.mp terminal), ?_⟩
  simp only [updateRunPayload, getOptionalInt64, ended]
  simp [putResult, getString, getInt64, anyToInt64, sprint]

theorem writeResultRow_result {now durationMS : ℤ} {tokenJSON resultJSONStr : RawJson}
    {row row' : RunRow}
    (done : writeResultRow now tokenJSON resultJSONStr row = .ok (durationMS, row')) :
    ∃ document, jsonColumn "result_json" resultJSONStr = .ok document ∧
      row'.resultJSON = some document := by
  obtain ⟨_, _, done⟩ := bind_eq_ok.mp done
  obtain ⟨_, _, done⟩ := bind_eq_ok.mp done
  obtain ⟨_, _, done⟩ := bind_eq_ok.mp done
  obtain ⟨_, _, done⟩ := bind_eq_ok.mp done
  obtain ⟨document, column, done⟩ := bind_eq_ok.mp done
  cases done
  exact ⟨document, column, rfl⟩

/-- **Cancelling.** An active run becomes cancelled without a token; any other run is
left as it is. -/
theorem cancelRunRowTx_ok {reason : String} {now : ℤ} {row row' : RunRow}
    (done : cancelRunRowTx reason now row = .ok row') :
    (¬ row.status.isActive ∧ row' = row) ∨
      (row.status.isActive ∧ ∃ payload : JsonMap,
        row' = { row with
          status := .cancelled
          attempt := 0
          fencingToken := ""
          startedAt := some 0
          endedAt := some now
          lastErrorClass := ""
          lastError := reason
          runJSON := marshalJSON payload
          updatedAt := now }) := by
  unfold cancelRunRowTx at done
  split at done
  · next idle =>
    cases done
    exact .inl ⟨by simpa [Status.isActive] using idle, rfl⟩
  · next active =>
    obtain ⟨payload, canonical, done⟩ := bind_eq_ok.mp done
    obtain ⟨stored, rfl⟩ := canonicalPayload_ok canonical
    cases done
    refine .inr ⟨by simp only [Status.isActive]; grind, ?_⟩
    simp [updateRunPayload, getString, getInt64, getOptionalInt64, anyToInt64, sprint]

/-- **Sweeping.** An active run settles as blocked or failed without a token; any
other run is left as it is. -/
theorem failStaleRunTx_ok {now : ℤ} {row row' : RunRow}
    (done : failStaleRunTx now row = .ok row') :
    (¬ row.status.isActive ∧ row' = row) ∨
      (row.status.isActive ∧ ∃ (payload : JsonMap) (result : Json),
        row' = { row with
          status := staleStatus row
          attempt := 0
          workerID := staleSweeperWorkerID
          fencingToken := ""
          startedAt := some 0
          endedAt := some now
          lastErrorClass := "internal"
          lastError := staleMessage row
          runJSON := marshalJSON payload
          resultJSON := some result
          updatedAt := now }) := by
  unfold failStaleRunTx at done
  split at done
  · next idle =>
    cases done
    exact .inl ⟨by simp only [Status.isActive]; grind, rfl⟩
  · next active =>
    obtain ⟨payload, canonical, done⟩ := bind_eq_ok.mp done
    obtain ⟨stored, rfl⟩ := canonicalPayload_ok canonical
    cases done
    refine .inr ⟨by simp only [Status.isActive]; grind, ?_⟩
    simp [updateRunPayload, getString, getInt64, getOptionalInt64, anyToInt64, sprint]

theorem failStaleRunTx_result {now : ℤ} {row row' : RunRow}
    (done : failStaleRunTx now row = .ok row') (active : row.status.isActive) :
    ∃ written, row'.resultJSON = some (staleResult (staleStatus row) (staleMessage row) written now) := by
  unfold failStaleRunTx at done
  split at done
  · next idle => simp [Status.isActive, idle] at active
  · obtain ⟨payload, _, done⟩ := bind_eq_ok.mp done
    cases done
    exact ⟨_, rfl⟩

theorem ensureReopenable_ok {row : RunRow} {expectedAttempt : Int32} {done : Unit} :
    ensureReopenable row expectedAttempt = .ok done ↔
      row.status ∈ retryableTerminalRunStatuses ∧ row.attempt = expectedAttempt := by
  simp [ensureReopenable, bind_eq_ok]

/-- What the guards of a reopen ask of the stored and the incoming row. -/
structure Reopens (expectedAttempt : Int32) (existing incoming : RunRow) : Prop where
  retryable : existing.status ∈ retryableTerminalRunStatuses
  expected : existing.attempt = expectedAttempt
  queued : incoming.status = .queued
  advanced : incoming.attempt = expectedAttempt + 1
  noWorker : incoming.workerID = ""
  noToken : incoming.fencingToken = ""
  notStarted : incoming.startedAt = none
  notEnded : incoming.endedAt = none
  identity : identityChanged existing incoming = false

/-- **Reopening.** A reopen takes a retryable run at the expected attempt and writes
the incoming row over it, without result or progress. -/
theorem reopenRow_ok {now : ℤ} {incoming existing row' : RunRow} {expectedAttempt : Int32}
    (done : reopenRow now incoming expectedAttempt existing = .ok row') :
    Reopens expectedAttempt existing incoming ∧
      row' = { runUpdateMap { incoming with updatedAt := now } existing with
        resultJSON := none
        latestProgressMessage := ""
        latestProgressAt := 0 } := by
  obtain ⟨_, reopenable, done⟩ := bind_eq_ok.mp done
  obtain ⟨retryable, expected⟩ := ensureReopenable_ok.mp reopenable
  obtain ⟨_, payload, done⟩ := bind_eq_ok.mp done
  simp only [ensureReopenPayload, bind_eq_ok, refuseIf_eq_ok, exists_const] at payload
  push Not at payload
  obtain ⟨queued, advanced, ⟨noWorker, noToken, notStarted, notEnded⟩, identity⟩ := payload
  cases done
  exact ⟨⟨retryable, expected, queued, advanced, noWorker, noToken, notStarted, notEnded,
    by simpa using identity⟩, rfl⟩

end Sico.TaskRuntime

import Sico.TaskRuntime.RunCoordinator

/-! # Calls of the coordinator

What each call that the coordinator makes leaves of the run, whatever the other parties
do in the meantime. The run stays readable and a settled status stays; beyond that a call
may rely on finding the run as the coordinator goes by (`Consistent`). `Undisturbed`
collects the steps on which a verdict of the coordinator is left alone.
-/

namespace Sico.TaskRuntime

open Foundation Surroundings Routine

/-- The status that the coordinator goes by from a request on without another look at the
run: a cancellation it asks for or finds settled, and a wait that ends without a result. -/
def ownVerdict : Request → RunRow → Option Status
  | .cancelRun _, _ => some .cancelled
  | .getTaskDetail .ensureCancelledState, row => if row.resultJSON.isSome then some .cancelled else none
  | .getTaskDetail .waitForExistingRun, row => if row.resultJSON.isSome then none else some .blocked
  | .deadlinePassed, _ => some .blocked
  | _, _ => none

/-- A request finds the run not settled otherwise than the coordinator goes by. -/
def Consistent (request : Request) (row : RunRow) : Prop :=
  ∀ verdict ∈ ownVerdict request row, row.status ∈ terminalRunStatuses → row.status = verdict

instance (request : Request) (row : RunRow) : Decidable (Consistent request row) :=
  inferInstanceAs (Decidable (∀ verdict ∈ ownVerdict request row, _))

/-- The requests left when the result is decided. -/
def Request.isQuiet : Request → Bool
  | .now | .markRunTerminal _ _ _ | .releaseSandbox _ | .getRun => true
  | _ => false

def Reports (status : Status) (outcome : Except RunError TaskResult) : Prop :=
  ∃ result, outcome = .ok result ∧ result.status = status

/-- The steps that leave the coordinator's verdict alone: its own requests find the run
consistent, and while it winds up with its result the others do not settle an active run
in another status. -/
def Undisturbed (joint : Joint Request Request.Reply (Except RunError TaskResult) RunRow) :
    JointStep Choice StoreMove → Prop
  | .own _ => ∀ request rest, joint.program = .ask request rest → Consistent request joint.shared
  | .other move => ∀ status row', joint.program.Closing (fun request => request.isQuiet) (Reports status) →
      joint.shared.status ∉ terminalRunStatuses → surroundings.move joint.shared move = some row' →
        row'.status ∈ terminalRunStatuses → row'.status = status

/-- What a routine leaves, whatever the others do, as long as its requests find the run
consistent. -/
def Within {Value : Type} (post : Except RunError Value → RunRow → Prop) (routine : Routine Value)
    (row : RunRow) : Prop :=
  surroundings.Ensures Evolves Consistent post routine.run row

section Rules

variable {Value Next : Type} {row : RunRow} {mid : Except RunError Value → RunRow → Prop}
  {post : Except RunError Next → RunRow → Prop} {routine : Routine Value}

theorem Within.mono {weaker : Except RunError Value → RunRow → Prop} (within : Within mid routine row)
    (implies : ∀ outcome row', mid outcome row' → weaker outcome row') :
    Within weaker routine row :=
  Ensures.mono within implies

theorem Within.handle {handler : Except RunError Value → Routine Next}
    (first : Within mid routine row)
    (later : ∀ outcome row', mid outcome row' → Within post (handler outcome) row') :
    Within post (routine.handle handler) row :=
  ensures_bind.mpr (first.mono later)

theorem Within.bind {next : Value → Routine Next} (first : Within mid routine row)
    (onOk : ∀ value row', mid (.ok value) row' → Within post (next value) row')
    (onError : ∀ error row', mid (.error error) row' → post (.error error) row') :
    Within post (routine >>= next) row := by
  refine ensures_bind.mpr (first.mono fun outcome row' reached => ?_)
  cases outcome with
  | ok value => exact onOk value row' reached
  | error error => exact onError error row' reached

end Rules

/-- The requests that do not touch the row. -/
def Request.Still : Request → Prop
  | .claimRun _ | .writeResult _ _ | .cancelRun _ | .updateRun _ => False
  | _ => True

theorem serve_still (request : Request) (still : request.Still) {choice : Choice} {row row' : RunRow}
    {reply : request.Reply} (served : serve request choice row = some (reply, row')) : row' = row := by
  cases request with
  | firstCompleted timed =>
      cases choice with
      | finished first =>
          cases first with
          | timeout =>
              obtain ⟨_, same⟩ := Option.ite_none_right_eq_some.mp served
              cases same
              rfl
          | _ =>
              cases served
              rfl
      | _ => cases served
  | awaitExecutor =>
      cases choice with
      | executed outcome =>
          cases outcome with
          | ok result =>
              obtain ⟨_, same⟩ := Option.ite_none_right_eq_some.mp served
              cases same
              rfl
          | error error =>
              cases served
              rfl
      | _ => cases served
  | claimRun | writeResult | cancelRun | updateRun => exact still.elim
  | _ =>
      cases choice <;> cases served
      all_goals rfl

theorem storeCall_evolves {Value : Type} {value : Value} (move : StoreMove) (known : move.Known)
    {row row' : RunRow} {outcome : Except RunError Value}
    (called : storeCall value move row = (outcome, row')) : Evolves row row' := by
  unfold storeCall at called
  split at called
  · next done =>
    cases called
    exact StoreMove.exec_evolves known done
  · cases called
    exact .refl _

theorem canonicalPayload_of_readable {row : RunRow} (readable : Readable row) :
    ∃ payload, canonicalPayload row = .ok payload := by
  have document := readable.document
  cases read : canonicalPayload row with
  | error error => simp [read, Except.isOk, Except.toBool] at document
  | ok payload => exact ⟨payload, rfl⟩

theorem refuseIf_eq_error {refused : Prop} [Decidable refused] {error error' : StoreError}
    (failed : refuseIf refused error = .error error') : error' = error := by
  unfold refuseIf at failed
  split at failed
  · exact (Except.error.inj failed).symm
  · cases failed

theorem claimRow_error {row : RunRow} (readable : Readable row) {now : ℤ} {token workerID : String}
    {error : StoreError} (failed : claimRow now token workerID row = .error error) :
    ∃ message, error = .staleToken message := by
  obtain ⟨payload, read⟩ := canonicalPayload_of_readable readable
  cases claimable : ensureClaimable row with
  | error refused =>
      have same : claimRow now token workerID row = .error refused := by
        simp [claimRow, read, claimable, bind, Except.bind]
      rw [same] at failed
      exact ⟨_, (Except.error.inj failed).symm.trans (refuseIf_eq_error claimable)⟩
  | ok done =>
      simp [claimRow, read, claimable, bind, Except.bind, pure, Except.pure] at failed

theorem decode_token (token : FencingToken) :
    decodeJSONValue "" tokenOfMembers (.doc token.dump false) "token_json" = .ok token.token := by
  have read : tokenOfMembers [("run_id", .str token.runID), ("token", .str token.token),
      ("issued_at", .int token.issuedAt)] = some token.token :=
    readField_member (by simp only [List.map_cons, List.map_nil]; decide)
      (by simp only [List.map_cons, List.map_nil]; decide) _ _ (.str token.token) (by simp)
  simp [decodeJSONValue, FencingToken.dump, read]

theorem writeResultRow_error {row : RunRow} (readable : Readable row) {now : ℤ}
    {token : FencingToken} {resultJSONStr : RawJson} {error : StoreError}
    (failed : writeResultRow now (.doc token.dump false) resultJSONStr row = .error error) :
    (∃ message, error = .staleToken message) ∨ row.status ∉ terminalRunStatuses := by
  obtain ⟨payload, read⟩ := canonicalPayload_of_readable readable
  cases authorized : ensureToken row (.doc token.dump false) with
  | error refused =>
      have same : writeResultRow now (.doc token.dump false) resultJSONStr row = .error refused := by
        simp [writeResultRow, read, authorized, bind, Except.bind]
      rw [same] at failed
      cases failed
      rw [ensureToken, decode_token] at authorized
      exact .inl ⟨_, refuseIf_eq_error authorized⟩
  | ok done =>
      rw [ensureToken, decode_token] at authorized
      have admitted := refuseIf_eq_ok.mp authorized
      push Not at admitted
      right
      simp [admitted.1, terminalRunStatuses]

theorem cancelRunRowTx_total {row : RunRow} (readable : Readable row) (reason : String) (now : ℤ) :
    ∃ row', cancelRunRowTx reason now row = .ok row' := by
  obtain ⟨payload, read⟩ := canonicalPayload_of_readable readable
  unfold cancelRunRowTx
  split
  · exact ⟨row, rfl⟩
  · exact ⟨_, by rw [read]; rfl⟩

/-- What a reader learns of a row. -/
structure DetailOf (row : RunRow) (detail : TaskDetail) : Prop where
  status : detail.run.status = row.status
  known : detail.run.Known
  settled : ∀ result ∈ detail.result, row.resultJSON ≠ none ∧ row.status ∈ terminalRunStatuses ∧
    result.status = row.status
  unsettled : detail.result = none → row.resultJSON = none

theorem readRun_ok {row : RunRow} (readable : Readable row) :
    ∃ run, readRun row = .ok run ∧ run.status = row.status ∧ run.Known := by
  obtain ⟨payload, read⟩ := canonicalPayload_of_readable readable
  have valid : row.status ∈ taskStatuses ∧ row.lastErrorClass ∈ errorClasses :=
    ⟨readable.status, readable.errorClass⟩
  unfold readRun TaskRun.ofRow
  rw [read]
  simp only [if_pos valid]
  exact ⟨_, rfl, rfl, valid⟩

theorem readTaskDetail_ok {row : RunRow} (readable : Readable row) :
    ∃ detail, readTaskDetail row = .ok detail ∧ DetailOf row detail := by
  obtain ⟨run, read, status, known⟩ := readRun_ok readable
  cases stored : row.resultJSON with
  | none =>
      refine ⟨⟨run, none⟩, ?_, status, known, by simp, fun _ => stored⟩
      simp [readTaskDetail, read, stored, bind, Except.bind, pure, Except.pure]
  | some document =>
      obtain ⟨terminal, result, decoded, same⟩ := readable.result document stored
      refine ⟨⟨run, some result⟩, ?_, status, known, ?_, by simp⟩
      · simp [readTaskDetail, read, stored, decoded, status, terminal, bind, Except.bind, pure,
          Except.pure]
      · intro other here
        cases here
        exact ⟨by simp [stored], terminal, same⟩

theorem settledResultFromDetail_some {row : RunRow} {detail : TaskDetail} (read : DetailOf row detail)
    {time : ℤ} {title : String} {fallback result : TaskResult}
    (settled : settledResultFromDetail time title detail fallback = some result) :
    row.status ∈ terminalRunStatuses ∧ result.status = row.status := by
  unfold settledResultFromDetail at settled
  split at settled
  · next stored same =>
    cases settled
    exact (read.settled _ same).2
  · split at settled
    · next terminal =>
      cases settled
      exact ⟨read.status ▸ terminal, read.status⟩
    · cases settled

theorem settledResultFromDetail_none {row : RunRow} {detail : TaskDetail} (read : DetailOf row detail)
    {time : ℤ} {title : String} {fallback : TaskResult}
    (settled : settledResultFromDetail time title detail fallback = none) :
    row.status ∉ terminalRunStatuses := by
  unfold settledResultFromDetail at settled
  split at settled
  · cases settled
  · split at settled
    · cases settled
    · next active => exact read.status ▸ active

theorem terminal_of_idle {status : Status} (named : status ∈ taskStatuses)
    (idle : ¬ status.isActive) : status ∈ terminalRunStatuses := by
  simp only [taskStatuses, List.mem_cons, List.not_mem_nil, or_false] at named
  rcases named with rfl | rfl | rfl | rfl | rfl | rfl | rfl <;>
    simp_all [Status.isActive, terminalRunStatuses]

section Calls

variable {row : RunRow}

theorem ensures_still (request : Request) (still : request.Still)
    {post : request.Reply → RunRow → Prop}
    (holds : ∀ reply row', Evolves row row' → Consistent request row' → post reply row') :
    surroundings.Ensures Evolves Consistent post (.ask request .done) row := by
  intro row' moved consistent choice reply row'' served
  obtain rfl := serve_still request still served
  exact holds reply _ moved consistent

theorem within_ask {Next : Type} (request : Request) (still : request.Still)
    {post : Except RunError Next → RunRow → Prop} {next : request.Reply → Routine Next}
    (follows : ∀ reply row', Evolves row row' → Consistent request row' →
      Within post (next reply) row') :
    Within post (ask request >>= next) row := by
  intro row' moved consistent choice reply row'' served
  obtain rfl := serve_still request still served
  exact follows reply _ moved consistent

theorem within_getRun : Within (fun _ row' => Evolves row row') getRun row :=
  ensures_still .getRun trivial fun _ _ moved _ => moved

theorem within_acquireSandbox : Within (fun _ row' => Evolves row row') acquireSandbox row :=
  ensures_still .acquireSandbox trivial fun _ _ moved _ => moved

theorem within_awaitExecutor :
    Within (fun outcome row' => Evolves row row' ∧ ∀ result, outcome = .ok result → result.Known)
      awaitExecutor row := by
  intro row' moved _ choice reply row'' served
  obtain rfl := serve_still .awaitExecutor trivial served
  refine ⟨moved, ?_⟩
  rintro result rfl
  cases choice with
  | executed outcome =>
      cases outcome with
      | ok other =>
          obtain ⟨known, same⟩ := Option.ite_none_right_eq_some.mp served
          cases same
          exact known
      | error error => cases served
  | _ => cases served

theorem within_getTaskDetail (readable : Readable row) (reader : DetailReader) :
    Within (fun outcome row' => Evolves row row' ∧ Consistent (.getTaskDetail reader) row' ∧
      ∃ detail, outcome = .ok detail ∧ DetailOf row' detail) (getTaskDetail reader) row := by
  intro row' moved consistent choice reply row'' served
  obtain ⟨detail, read, known⟩ := readTaskDetail_ok (moved.readable readable)
  cases choice with
  | only =>
      cases served
      exact ⟨moved, consistent, detail, read, known⟩
  | _ => cases served

theorem within_claimRun (readable : Readable row) (workerID : String) :
    Within (fun outcome row' => Evolves row row' ∧
      ∀ error, outcome = .error error → ∃ message, error = .staleWorker message)
      (claimRun workerID) row := by
  intro row' moved _ choice reply row'' served
  cases choice with
  | token now token =>
      have called := Option.some.inj served
      refine ⟨moved.trans (storeCall_evolves (.claim now token workerID) trivial called), ?_⟩
      rintro error rfl
      unfold storeCall at called
      split at called
      · cases called
      · next failure failed =>
        cases called
        obtain ⟨message, rfl⟩ := claimRow_error (moved.readable readable) failed
        exact ⟨_, rfl⟩
  | _ => cases served

theorem within_writeResult (readable : Readable row) {result : TaskResult} (known : result.Known)
    (token : FencingToken) :
    Within (fun outcome row' => Evolves row row' ∧
      (outcome = .ok () → row'.status = result.status ∧ result.status ∈ terminalRunStatuses) ∧
      ∀ error, outcome = .error error → (∃ message, error = .staleWorker message) ∨
        row'.status ∉ terminalRunStatuses)
      (writeResult result token) row := by
  intro row' moved _ choice reply row'' served
  cases choice with
  | clock now =>
      have called := Option.some.inj served
      refine ⟨moved.trans (storeCall_evolves (.write now token result) known called), ?_, ?_⟩
      · rintro rfl
        unfold storeCall at called
        split at called
        · next written done =>
          cases called
          obtain ⟨⟨_, _⟩, accepted, rfl⟩ := map_eq_ok.mp done
          exact writeResultRow_status accepted
        · cases called
      · rintro error rfl
        unfold storeCall at called
        split at called
        · cases called
        · next failure failed =>
          cases called
          have refused : (writeResultRow now (.doc token.dump false) (.doc result.dump false) row').map
              Prod.snd = .error failure := failed
          cases written : writeResultRow now (.doc token.dump false) (.doc result.dump false) row' with
          | ok _ => simp [written, Except.map] at refused
          | error _ =>
              rw [written] at refused
              cases refused
              rcases writeResultRow_error (moved.readable readable) written with ⟨_, rfl⟩ | active
              · exact .inl ⟨_, rfl⟩
              · exact .inr active
  | _ => cases served

theorem within_cancelRun (readable : Readable row) (reason : String) :
    Within (fun _ row' => Evolves row row' ∧ row'.status = .cancelled) (cancelRun reason) row := by
  intro row' moved consistent choice reply row'' served
  cases choice with
  | clock now =>
      have called := Option.some.inj served
      refine ⟨moved.trans (storeCall_evolves (.cancel now reason) trivial called), ?_⟩
      obtain ⟨cancelled, done⟩ := cancelRunRowTx_total (moved.readable readable) reason now
      have performed : (StoreMove.cancel now reason).exec row' = .ok cancelled := done
      unfold storeCall at called
      rw [performed] at called
      cases called
      obtain ⟨idle, rfl⟩ | ⟨_, _, rfl⟩ := cancelRunRowTx_ok done
      · exact consistent _ rfl (terminal_of_idle (moved.readable readable).status idle)
      · rfl
  | _ => cases served

end Calls

end Sico.TaskRuntime

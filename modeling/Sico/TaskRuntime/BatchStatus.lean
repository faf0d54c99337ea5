import Sico.TaskRuntime.Scheduler

/-! # The status of a batch

A batch that is over has one status for all the results of its runs. It is found by an ordered list of
tests that each ask whether some or all results have one status, so it depends on the statuses that occur
and not on their order. Under every strategy a result that succeeded counts before one that did not.
-/

namespace Sico.TaskRuntime

inductive BatchStatus where
  | queued
  | running
  | completed
  | partially
  | failed
  | cancelled
  | timedOut
  | blocked
  deriving Repr, DecidableEq

variable {results : List TaskResult} {strategy : JoinStrategy}

def anyIs (status : Status) (results : List TaskResult) : Bool := results.any fun result => result.status = status

def allAre (status : Status) (results : List TaskResult) : Bool := results.all fun result => result.status = status

@[simp] theorem anyIs_eq_true {status : Status} : anyIs status results ↔ ∃ result ∈ results, result.status = status := by
  unfold anyIs
  simp only [List.any_eq_true, decide_eq_true_eq]

@[simp] theorem allAre_eq_true {status : Status} : allAre status results ↔ ∀ result ∈ results, result.status = status := by
  unfold allAre
  simp only [List.all_eq_true, decide_eq_true_eq]

def batchStatus (results : List TaskResult) (strategy : JoinStrategy) : BatchStatus :=
  if strategy = .firstSuccess ∧ anyIs .completed results then .completed
  else if allAre .completed results then .completed
  else if anyIs .completed results then .partially
  else if anyIs .blocked results then .blocked
  else if anyIs .timedOut results then .timedOut
  else if allAre .cancelled results then .cancelled
  else .failed

theorem batchStatus_congr {others : List TaskResult}
    (same : ∀ status, (∃ result ∈ results, result.status = status) ↔ ∃ result ∈ others, result.status = status) :
    batchStatus results strategy = batchStatus others strategy := by
  have some_ (status : Status) : anyIs status results = anyIs status others := by
    rw [Bool.eq_iff_iff, anyIs_eq_true, anyIs_eq_true]
    exact same status
  have all (status : Status) : allAre status results = allAre status others := by
    rw [Bool.eq_iff_iff, allAre_eq_true, allAre_eq_true]
    constructor
    · intro every other listed
      obtain ⟨result, here, equal⟩ := (same other.status).mpr ⟨other, listed, rfl⟩
      exact equal ▸ every result here
    · intro every result listed
      obtain ⟨other, here, equal⟩ := (same result.status).mp ⟨result, listed, rfl⟩
      exact equal ▸ every other here
  unfold batchStatus
  simp only [some_, all]

theorem batchStatus_perm {others : List TaskResult} (perm : results.Perm others) :
    batchStatus results strategy = batchStatus others strategy := by
  apply batchStatus_congr
  intro status
  constructor
  · rintro ⟨result, listed, same⟩
    exact ⟨result, perm.mem_iff.mp listed, same⟩
  · rintro ⟨result, listed, same⟩
    exact ⟨result, perm.mem_iff.mpr listed, same⟩

/-- The strategies under which one failure is the failure of the batch. -/
def JoinStrategy.IsStrict (strategy : JoinStrategy) : Prop := strategy = .allSuccess ∨ strategy = .failFast

/-- The status is what the join strategies are documented to report. -/
structure JoinsAsDocumented (strategy : JoinStrategy) (results : List TaskResult) : Prop where
  order : ∀ others, results.Perm others → batchStatus others strategy = batchStatus results strategy
  completed : strategy.IsStrict → batchStatus results strategy = .completed →
    ∀ result ∈ results, result.status = .completed
  failed : strategy.IsStrict → (∃ result ∈ results, result.status = .failed) → batchStatus results strategy = .failed
  partialOK : strategy = .partialOK → (∃ result ∈ results, result.status = .completed) →
    (∃ result ∈ results, result.status ≠ .completed) → batchStatus results strategy = .partially
  firstSuccess : strategy = .firstSuccess →
    (batchStatus results strategy = .completed ↔ ∃ result ∈ results, result.status = .completed)

section Precedence

theorem batchStatus_of_failed (notFirst : strategy ≠ .firstSuccess)
    (failed : ∃ result ∈ results, result.status = .failed) :
    batchStatus results strategy = .failed ↔
      ∀ result ∈ results, result.status ≠ .completed ∧ result.status ≠ .blocked ∧ result.status ≠ .timedOut := by
  obtain ⟨lost, listed, ended⟩ := failed
  have someOther {status : Status} (different : Status.failed ≠ status) : allAre status results = false := by
    rw [Bool.eq_false_iff, ne_eq, allAre_eq_true]
    intro every
    exact different (ended ▸ every lost listed)
  have none_ (status : Status) : anyIs status results = false ↔ ∀ result ∈ results, result.status ≠ status := by
    rw [Bool.eq_false_iff, ne_eq, anyIs_eq_true]
    push Not
    rfl
  have notCompleted : allAre .completed results = false := someOther nofun
  have notCancelled : allAre .cancelled results = false := someOther nofun
  have unfolded : batchStatus results strategy = .failed ↔
      anyIs .completed results = false ∧ anyIs .blocked results = false ∧ anyIs .timedOut results = false := by
    unfold batchStatus
    rw [if_neg (fun first => notFirst first.1), notCompleted, notCancelled]
    cases anyIs .completed results <;> cases anyIs .blocked results <;> cases anyIs .timedOut results <;> decide
  rw [unfolded, none_, none_, none_, ← forall₂_and, ← forall₂_and]

theorem batchStatus_eq_completed (notFirst : strategy ≠ .firstSuccess) :
    batchStatus results strategy = .completed ↔ ∀ result ∈ results, result.status = .completed := by
  rw [← allAre_eq_true]
  unfold batchStatus
  rw [if_neg fun first => notFirst first.1]
  constructor
  · intro same
    by_contra fails
    rw [if_neg fails] at same
    split_ifs at same
  · intro every
    exact if_pos every

theorem batchStatus_eq_partially (notFirst : strategy ≠ .firstSuccess)
    (some_ : ∃ result ∈ results, result.status = .completed) (other : ∃ result ∈ results, result.status ≠ .completed) :
    batchStatus results strategy = .partially := by
  unfold batchStatus
  rw [if_neg fun first => notFirst first.1, if_neg, if_pos (anyIs_eq_true.mpr some_)]
  rw [allAre_eq_true]
  obtain ⟨result, listed, different⟩ := other
  exact fun every => different (every result listed)

theorem batchStatus_firstSuccess (filled : results ≠ []) :
    batchStatus results .firstSuccess = .completed ↔ ∃ result ∈ results, result.status = .completed := by
  rw [← anyIs_eq_true]
  unfold batchStatus
  constructor
  · intro same
    by_contra fails
    have notAll : ¬ allAre .completed results := by
      rw [allAre_eq_true]
      intro every
      obtain ⟨result, listed⟩ := List.exists_mem_of_ne_nil results filled
      exact fails (anyIs_eq_true.mpr ⟨result, listed, every result listed⟩)
    rw [if_neg fun first => fails first.2, if_neg notAll, if_neg fails] at same
    split_ifs at same
  · intro found
    exact if_pos ⟨rfl, found⟩

end Precedence

/-- The status of a batch is the documented one exactly when, under the strategies where one failure is to fail
the batch, no result that succeeded, was blocked or ran out of time stands beside one that failed. -/
theorem batchStatus_documented_iff (filled : results ≠ []) :
    JoinsAsDocumented strategy results ↔
      (strategy.IsStrict → (∃ result ∈ results, result.status = .failed) →
        ∀ result ∈ results, result.status ≠ .completed ∧ result.status ≠ .blocked ∧ result.status ≠ .timedOut) := by
  have notFirst (strict : strategy.IsStrict) : strategy ≠ .firstSuccess := by
    rcases strict with rfl | rfl <;> nofun
  constructor
  · intro documented strict failed
    exact (batchStatus_of_failed (notFirst strict) failed).mp (documented.failed strict failed)
  · intro alone
    exact {
      order := fun others perm => (batchStatus_perm perm).symm
      completed := fun strict => (batchStatus_eq_completed (notFirst strict)).mp
      failed := fun strict failed => (batchStatus_of_failed (notFirst strict) failed).mpr (alone strict failed)
      partialOK := by
        intro same
        exact batchStatus_eq_partially (by rw [same]; nofun)
      firstSuccess := by
        intro same
        rw [same]
        exact batchStatus_firstSuccess filled }

def sampleResult (runID : String) (status : Status) : TaskResult where
  runID := runID
  taskID := runID
  status := status
  title := ""
  summary := ""
  errorClass := none
  errorMessage := ""
  startedAt := none
  endedAt := none
  durationMS := none

theorem batchStatus_documented_sample :
    JoinsAsDocumented .allSuccess [sampleResult "a" .failed, sampleResult "b" .cancelled] :=
  (batchStatus_documented_iff (List.cons_ne_nil _ _)).mpr fun _ _ => by decide

/-- A batch of which every task must succeed is reported as successful in part where one task failed. -/
theorem failed_task_partially :
    ¬ ∀ (results : List TaskResult) (strategy : JoinStrategy), results ≠ [] →
      (∀ result ∈ results, result.status ∈ [Status.completed, .failed, .cancelled, .timedOut, .blocked]) →
      JoinsAsDocumented strategy results := by
  intro always
  have documented := always [sampleResult "a" .completed, sampleResult "b" .failed] .allSuccess
    (List.cons_ne_nil _ _) (by decide)
  have failed := documented.failed (.inl rfl) ⟨_, List.mem_cons_of_mem _ List.mem_cons_self, rfl⟩
  exact absurd failed (by decide)

end Sico.TaskRuntime

import Sico.Foundation.Traversal
import Sico.TaskRuntime.Schedule

/-! # Stopping in two phases

A wait may return several finished tasks. The loop takes all their results first and decides for the round
whether the batch stops; only then does it record results or ask for retries. So the result that stops a batch
is seen before any retry of its round, in whatever order the tasks come. What a round did is written down in a
record: the executions started before its wait, the results taken, and the retries asked for. From the record
with such a result on nothing starts and no retry is asked for, and each result taken is the result of its run
when the batch returns.
-/

namespace Sico.TaskRuntime

open Foundation

/-- What the loop does in one round. -/
structure RoundRecord where
  started : List BatchRun
  finished : List (BatchRun × TaskResult)
  asked : List (BatchRun × TaskResult)
  deriving Repr, DecidableEq

namespace Batch

variable (batch : Batch)

/-- The executions that the inner loop starts. -/
def startedFor : ℕ → SchedulerState → List BatchRun
  | 0, _ => []
  | fuel + 1, state =>
      match batch.startNext state, state.pending.find? (batch.canStart state.inUse) with
      | some next, some run => run :: startedFor fuel next
      | _, _ => []

/-- The call of `prepare_retry` that the second phase makes for one result. -/
def retryCall (roundStops : Bool) (finished : Completion × BatchRun × TaskResult) :
    Option (BatchRun × TaskResult) :=
  if !roundStops && batch.retries && finished.1.shouldRetry finished.2.1 finished.2.2 then some finished.2 else none

/-- The record of a round in which the results of the finished tasks are taken. -/
def recordOf (started : List BatchRun) (state : SchedulerState)
    (completed : List (Completion × BatchRun × TaskResult)) : RoundRecord where
  started := started
  finished := completed.map Prod.snd
  asked := completed.filterMap (batch.retryCall (batch.roundStops state completed))

/-- The loop over the given rounds, with the record of each. The last record may be of a round that is still
waited for. -/
def watch : List (List Completion) → SchedulerState → List RoundRecord × Option SchedulerState
  | rounds, state =>
      if state.pending = [] ∧ state.running = [] then
        ([], some state)
      else
        let started := batch.startedFor state.pending.length state
        let state := batch.fill state
        if state.running = [] then
          ([⟨started, [], []⟩], some state)
        else
          match rounds with
          | [] => ([⟨started, [], []⟩], none)
          | done :: rest =>
              match collect done state with
              | none => ([⟨started, [], []⟩], none)
              | some (state, completed) =>
                  let stops := batch.roundStops state completed
                  let onward := watch rest (completed.foldl (batch.settle stops) state)
                  (batch.recordOf started state completed :: onward.1, onward.2)

end Batch

variable {batch : Batch} {state next final : SchedulerState} {ids : Multiset String}

section Records

theorem singleton_split {α : Type} {entry item : α} {before after : List α} (split : [entry] = before ++ item :: after) :
    before = [] ∧ entry = item ∧ after = [] := by
  cases before with
  | nil =>
      obtain ⟨rfl, none_⟩ := List.cons.inj split
      exact ⟨rfl, rfl, none_.symm⟩
  | cons first before => simp at split

theorem Batch.watch_loop (batch : Batch) (rounds : List (List Completion)) (state : SchedulerState) :
    (batch.watch rounds state).2 = batch.loop rounds state := by
  induction rounds generalizing state with
  | nil =>
      unfold watch loop
      split
      · rfl
      · dsimp only
        split <;> rfl
  | cons done rest ih =>
      unfold watch loop
      split
      · rfl
      · dsimp only
        split
        · rfl
        · unfold round
          cases collect done (batch.fill state) with
          | none => rfl
          | some collected => exact ih _

theorem Batch.watch_cases (batch : Batch) (rounds : List (List Completion)) (state : SchedulerState) :
    (batch.watch rounds state).1 = [] ∨
      (batch.watch rounds state).1 = [⟨batch.startedFor state.pending.length state, [], []⟩] ∨
      ∃ done rest next completed, rounds = done :: rest ∧
        collect done (batch.fill state) = some (next, completed) ∧
        batch.watch rounds state =
          let onward := batch.watch rest (completed.foldl (batch.settle (batch.roundStops next completed)) next)
          (batch.recordOf (batch.startedFor state.pending.length state) next completed :: onward.1, onward.2) := by
  generalize watched : batch.watch rounds state = watching
  unfold watch at watched
  split at watched
  · exact .inl (congrArg Prod.fst watched.symm)
  · dsimp only at watched
    split at watched
    · exact .inr (.inl (congrArg Prod.fst watched.symm))
    · cases rounds with
      | nil => exact .inr (.inl (congrArg Prod.fst watched.symm))
      | cons done rest =>
          dsimp only at watched
          cases collected : collect done (batch.fill state) with
          | none =>
              rw [collected] at watched
              exact .inr (.inl (congrArg Prod.fst watched.symm))
          | some taken =>
              rw [collected] at watched
              exact .inr (.inr ⟨done, rest, taken.1, taken.2, rfl, collected, watched.symm⟩)

theorem Batch.settle_eq_of_retryCall {stops : Bool} {finished : Completion × BatchRun × TaskResult}
    (quiet : batch.retryCall stops finished = none) :
    batch.settle stops state finished =
      { state with
        results := dictSet finished.2.1.runID finished.2.2 state.results
        stopReason := state.stopReason.or (stopReasonOf batch.joinStrategy finished.2.2) } := by
  obtain ⟨completion, run, result⟩ := finished
  unfold retryCall at quiet
  unfold settle
  have refused : ¬ (!stops && batch.retries && completion.shouldRetry run result) = true := by
    intro asks
    rw [if_pos asks] at quiet
    cases quiet
  simp only [if_neg refused]

theorem Batch.retryCall_of_stops (finished : Completion × BatchRun × TaskResult) :
    batch.retryCall true finished = none := rfl

theorem Batch.filterMap_retryCall_of_stops (completed : List (Completion × BatchRun × TaskResult)) :
    completed.filterMap (batch.retryCall true) = [] :=
  List.filterMap_eq_nil_iff.mpr fun finished _ => Batch.retryCall_of_stops finished

end Records

section Stopped

theorem Batch.startedFor_of_stopped (stopped : state.stopReason.isSome) (fuel : ℕ) :
    batch.startedFor fuel state = [] := by
  cases fuel with
  | zero => rfl
  | succ fuel =>
      have full : batch.startNext state = none := if_pos (.inl stopped)
      unfold startedFor
      rw [full]

theorem Batch.fill_of_stopped (stopped : state.stopReason.isSome) : batch.fill state = state := by
  have full : batch.startNext state = none := if_pos (.inl stopped)
  unfold fill
  cases state.pending.length with
  | zero => rfl
  | succ fuel =>
      unfold fillFor
      rw [full]

theorem Batch.stopReason_collect {done : List Completion} {completed : List (Completion × BatchRun × TaskResult)}
    (collected : Batch.collect done state = some (next, completed)) : next.stopReason = state.stopReason := by
  induction done generalizing state completed with
  | nil =>
      obtain ⟨rfl, rfl⟩ : _ ∧ _ := by simpa [Batch.collect] using collected
      rfl
  | cons completion rest ih =>
      simp only [Batch.collect, Option.bind_eq_bind, Option.bind_eq_some_iff, Option.pure_def,
        Option.some.injEq, Prod.exists, Prod.mk.injEq] at collected
      obtain ⟨middle, run, result, popped, _, later, collected, rfl, rfl⟩ := collected
      obtain ⟨task, _, same⟩ := Option.map_eq_some_iff.mp popped
      obtain ⟨rfl, rfl, rfl⟩ : _ ∧ _ ∧ _ := by simpa using same
      have onward := ih collected
      exact onward

theorem Batch.stopReason_settleAll (completed : List (Completion × BatchRun × TaskResult)) (state : SchedulerState) :
    (completed.foldl (batch.settle true) state).stopReason =
      state.stopReason.or
        (completed.findSome? fun finished => stopReasonOf batch.joinStrategy finished.2.2) := by
  induction completed generalizing state with
  | nil => exact (Option.or_none).symm
  | cons finished rest ih =>
      rw [List.foldl_cons, ih, settle_eq_of_retryCall (retryCall_of_stops finished), List.findSome?_cons,
        Option.or_assoc]
      cases stopReasonOf batch.joinStrategy finished.2.2 <;> rfl

theorem Batch.stopped_of_roundStops {completed : List (Completion × BatchRun × TaskResult)}
    (stops : batch.roundStops state completed = true) :
    (completed.foldl (batch.settle (batch.roundStops state completed)) state).stopReason.isSome := by
  rw [stops, stopReason_settleAll, Option.isSome_or]
  unfold roundStops at stops
  rw [Bool.or_eq_true] at stops ⊢
  refine stops.imp_right fun found => ?_
  obtain ⟨finished, listed, reason⟩ := List.any_eq_true.mp found
  rw [List.findSome?_isSome_iff]
  exact ⟨finished, listed, reason⟩

theorem Batch.roundStops_of_mem {completed : List (Completion × BatchRun × TaskResult)}
    {finished : BatchRun × TaskResult} (listed : finished ∈ completed.map Prod.snd)
    (reason : (stopReasonOf batch.joinStrategy finished.2).isSome) : batch.roundStops state completed = true := by
  obtain ⟨taken, here, rfl⟩ := List.mem_map.mp listed
  exact (Bool.or_eq_true _ _).mpr (.inr (List.any_eq_true.mpr ⟨taken, here, reason⟩))

theorem Batch.roundStops_of_stopped (batch : Batch) (stopped : state.stopReason.isSome)
    (completed : List (Completion × BatchRun × TaskResult)) : batch.roundStops state completed = true := by
  unfold roundStops
  rw [stopped]
  rfl

theorem Batch.watch_of_stopped (rounds : List (List Completion)) (stopped : state.stopReason.isSome) :
    ∀ record ∈ (batch.watch rounds state).1, record.started = [] ∧ record.asked = [] := by
  have idle : batch.startedFor state.pending.length state = [] := startedFor_of_stopped stopped _
  induction rounds generalizing state with
  | nil =>
      intro record listed
      rcases batch.watch_cases [] state with none_ | waits | ⟨_, _, _, _, none_, _⟩
      · rw [none_] at listed
        exact absurd listed List.not_mem_nil
      · rw [waits] at listed
        exact List.mem_singleton.mp listed ▸ ⟨idle, rfl⟩
      · cases none_
  | cons done rest ih =>
      intro record listed
      rcases batch.watch_cases (done :: rest) state with none_ | waits | ⟨_, _, next, completed, same, collected, split⟩
      · rw [none_] at listed
        exact absurd listed List.not_mem_nil
      · rw [waits] at listed
        exact List.mem_singleton.mp listed ▸ ⟨idle, rfl⟩
      · obtain ⟨rfl, rfl⟩ := List.cons.inj same
        rw [split] at listed
        have still : next.stopReason.isSome := by
          rwa [stopReason_collect collected, fill_of_stopped stopped]
        have stops := batch.roundStops_of_stopped still completed
        have after := stopped_of_roundStops stops
        rcases List.mem_cons.mp listed with rfl | later
        · refine ⟨idle, ?_⟩
          unfold recordOf
          rw [stops]
          exact filterMap_retryCall_of_stops completed
        · exact ih after (startedFor_of_stopped after _) record later

theorem Batch.watch_quiet (rounds : List (List Completion)) {before after : List RoundRecord} {record : RoundRecord}
    (split : (batch.watch rounds state).1 = before ++ record :: after)
    (stops : ∃ finished ∈ record.finished, (stopReasonOf batch.joinStrategy finished.2).isSome) :
    record.asked = [] ∧ ∀ later ∈ after, later.started = [] ∧ later.asked = [] := by
  obtain ⟨finished, listed, reason⟩ := stops
  induction rounds generalizing state before with
  | nil =>
      rcases batch.watch_cases [] state with none_ | waits | ⟨_, _, _, _, none_, _⟩
      · rw [none_] at split
        simp at split
      · rw [waits] at split
        obtain ⟨rfl, rfl, rfl⟩ := singleton_split split
        cases listed
      · cases none_
  | cons done rest ih =>
      rcases batch.watch_cases (done :: rest) state with none_ | waits | ⟨_, _, next, completed, same, collected, onward⟩
      · rw [none_] at split
        simp at split
      · rw [waits] at split
        obtain ⟨rfl, rfl, rfl⟩ := singleton_split split
        cases listed
      · obtain ⟨rfl, rfl⟩ := List.cons.inj same
        rw [onward] at split
        cases before with
        | nil =>
            obtain ⟨rfl, rfl⟩ := List.cons.inj split
            have decided : batch.roundStops next completed = true := roundStops_of_mem listed reason
            refine ⟨?_, batch.watch_of_stopped rest (stopped_of_roundStops decided)⟩
            unfold recordOf
            rw [decided]
            exact filterMap_retryCall_of_stops completed
        | cons first before =>
            exact ih (List.cons.inj split).2

end Stopped

section Results

theorem Accounts.results_settle (stops : Bool) {finished : Completion × BatchRun × TaskResult}
    (fresh : finished.2.1.runID ∉ state.ids) :
    state.results <+: (batch.settle stops state finished).results := by
  have absent : finished.2.1.runID ∉ state.results.map Prod.fst := by
    intro present
    exact fresh (Multiset.mem_add.mpr (.inr present))
  obtain ⟨completion, run, result⟩ := finished
  unfold Batch.settle
  dsimp only at absent ⊢
  split
  · exact List.prefix_refl _
  · rw [dictSet_fresh result absent]
    exact List.prefix_append _ _

theorem Accounts.results_settleAll (stops : Bool) {completed : List (Completion × BatchRun × TaskResult)}
    (accounts : Accounts state.ids state)
    (owned : ∀ finished ∈ completed, finished.2.2.runID = finished.2.1.runID)
    (distinct : (state.ids + (completed.map fun finished => finished.2.1.runID : List String)).Nodup) :
    state.results <+: (completed.foldl (batch.settle stops) state).results := by
  induction completed generalizing state with
  | nil => exact List.prefix_refl _
  | cons finished rest ih =>
      rw [List.map_cons, ← Multiset.cons_coe, ← Multiset.singleton_add, ← add_assoc] at distinct
      have first := (Multiset.nodup_add.mp distinct).1
      have fresh : finished.2.1.runID ∉ state.ids := Multiset.disjoint_singleton.mp (Multiset.nodup_add.mp first).2.2
      have settled := accounts.settle batch stops (owned finished List.mem_cons_self) fresh
      rw [← settled.ids] at distinct
      exact (Accounts.results_settle stops fresh).trans
        (ih ⟨rfl, settled.owned, settled.held⟩ (fun later listed => owned later (List.mem_cons_of_mem _ listed))
          distinct)

theorem Accounts.mem_settleAll {completed : List (Completion × BatchRun × TaskResult)}
    (accounts : Accounts state.ids state)
    (owned : ∀ finished ∈ completed, finished.2.2.runID = finished.2.1.runID)
    (distinct : (state.ids + (completed.map fun finished => finished.2.1.runID : List String)).Nodup) :
    ∀ finished ∈ completed,
      (finished.2.1.runID, finished.2.2) ∈ (completed.foldl (batch.settle true) state).results := by
  induction completed generalizing state with
  | nil => exact fun finished listed => absurd listed List.not_mem_nil
  | cons finished rest ih =>
      rw [List.map_cons, ← Multiset.cons_coe, ← Multiset.singleton_add, ← add_assoc] at distinct
      have first := (Multiset.nodup_add.mp distinct).1
      have fresh : finished.2.1.runID ∉ state.ids := Multiset.disjoint_singleton.mp (Multiset.nodup_add.mp first).2.2
      have settled := accounts.settle batch true (owned finished List.mem_cons_self) fresh
      rw [← settled.ids] at distinct
      have onward : Accounts (batch.settle true state finished).ids (batch.settle true state finished) :=
        ⟨rfl, settled.owned, settled.held⟩
      have ownedLater : ∀ later ∈ rest, later.2.2.runID = later.2.1.runID :=
        fun later listed => owned later (List.mem_cons_of_mem _ listed)
      intro taken listed
      rcases List.mem_cons.mp listed with rfl | later
      · apply (onward.results_settleAll true ownedLater distinct).mem
        have absent : taken.2.1.runID ∉ state.results.map Prod.fst :=
          fun present => fresh (Multiset.mem_add.mpr (.inr present))
        rw [Batch.settle_eq_of_retryCall (Batch.retryCall_of_stops taken)]
        dsimp only
        rw [dictSet_fresh _ absent]
        exact List.mem_append_right _ List.mem_cons_self
      · exact ih onward ownedLater distinct taken later

theorem Accounts.results_round {done : List Completion} {completed : List (Completion × BatchRun × TaskResult)}
    (accounts : Accounts ids state) (batch : Batch) (distinct : ids.Nodup)
    (collected : Batch.collect done state = some (next, completed)) (stops : Bool) :
    state.results <+: (completed.foldl (batch.settle stops) next).results ∧
      Accounts ids (completed.foldl (batch.settle stops) next) ∧
      (stops = true → ∀ finished ∈ completed,
        (finished.2.1.runID, finished.2.2) ∈ (completed.foldl (batch.settle stops) next).results) := by
  have same : next.results = state.results := by
    clear accounts
    induction done generalizing state completed with
    | nil =>
        obtain ⟨rfl, rfl⟩ : _ ∧ _ := by simpa [Batch.collect] using collected
        rfl
    | cons completion rest ih =>
        simp only [Batch.collect, Option.bind_eq_bind, Option.bind_eq_some_iff, Option.pure_def,
          Option.some.injEq, Prod.exists, Prod.mk.injEq] at collected
        obtain ⟨middle, run, result, popped, _, later, collected, rfl, rfl⟩ := collected
        obtain ⟨task, _, same⟩ := Option.map_eq_some_iff.mp popped
        obtain ⟨rfl, rfl, rfl⟩ : _ ∧ _ ∧ _ := by simpa using same
        have onward := ih collected
        exact onward
  obtain ⟨inHand, owned, after⟩ := accounts.collect collected
  rw [← inHand] at distinct ⊢
  refine ⟨same ▸ after.results_settleAll stops owned distinct, after.settleAll owned distinct, ?_⟩
  rintro rfl
  exact after.mem_settleAll owned distinct

theorem Accounts.fill (accounts : Accounts ids state) (batch : Batch) : Accounts ids (batch.fill state) := accounts.fillFor _

theorem Batch.results_fillFor (fuel : ℕ) (state : SchedulerState) : (batch.fillFor fuel state).results = state.results := by
  induction fuel generalizing state with
  | zero => rfl
  | succ fuel ih =>
      unfold fillFor
      split
      · next next started =>
        obtain ⟨run, _, rfl⟩ := Batch.startNext_eq_some started
        exact ih _
      · rfl

theorem Accounts.results_loop {rounds : List (List Completion)} (accounts : Accounts ids state) (distinct : ids.Nodup)
    (returned : batch.loop rounds state = some final) : state.results <+: final.results := by
  have filled : (batch.fill state).results = state.results := Batch.results_fillFor _ _
  induction rounds generalizing state with
  | nil =>
      rcases Batch.loop_eq_some returned with ⟨_, _, rfl⟩ | ⟨_, rfl⟩ | ⟨_, _, _, none_, _⟩
      · exact List.prefix_refl _
      · exact filled ▸ List.prefix_refl _
      · cases none_
  | cons done rest ih =>
      rcases Batch.loop_eq_some returned with ⟨_, _, rfl⟩ | ⟨_, rfl⟩ | ⟨_, _, middle, same, happened, onward⟩
      · exact List.prefix_refl _
      · exact filled ▸ List.prefix_refl _
      · obtain ⟨rfl, rfl⟩ := List.cons.inj same
        simp only [Batch.round, Option.bind_eq_bind, Option.bind_eq_some_iff, Option.pure_def,
          Option.some.injEq, Prod.exists] at happened
        obtain ⟨next, completed, collected, rfl⟩ := happened
        obtain ⟨kept, after, -⟩ := (accounts.fill batch).results_round batch distinct collected
          (batch.roundStops next completed)
        rw [filled] at kept
        exact kept.trans (ih after onward (Batch.results_fillFor _ _))

theorem Accounts.mem_recordOf {done : List Completion} {rest : List (List Completion)} {started : List BatchRun}
    {completed : List (Completion × BatchRun × TaskResult)} (accounts : Accounts ids state) (distinct : ids.Nodup)
    (collected : Batch.collect done state = some (next, completed)) (stops : batch.roundStops next completed = true)
    (returned : batch.loop rest (completed.foldl (batch.settle (batch.roundStops next completed)) next) = some final) :
    ∀ finished ∈ (batch.recordOf started next completed).finished, (finished.1.runID, finished.2) ∈ final.results := by
  intro finished listed
  obtain ⟨taken, here, rfl⟩ := List.mem_map.mp listed
  obtain ⟨-, after, recorded⟩ := accounts.results_round batch distinct collected
    (batch.roundStops next completed)
  exact (after.results_loop distinct returned).mem (recorded stops taken here)

theorem Accounts.mem_watch_of_stopped {rounds : List (List Completion)} (accounts : Accounts ids state)
    (distinct : ids.Nodup) (stopped : state.stopReason.isSome) (returned : batch.loop rounds state = some final) :
    ∀ record ∈ (batch.watch rounds state).1, ∀ finished ∈ record.finished,
      (finished.1.runID, finished.2) ∈ final.results := by
  induction rounds generalizing state with
  | nil =>
      intro record listed finished taken
      rcases batch.watch_cases [] state with none_ | waits | ⟨_, _, _, _, none_, _⟩
      · rw [none_] at listed
        exact absurd listed List.not_mem_nil
      · rw [waits] at listed
        obtain rfl := List.mem_singleton.mp listed
        exact absurd taken List.not_mem_nil
      · cases none_
  | cons done rest ih =>
      intro record listed finished taken
      rcases batch.watch_cases (done :: rest) state with none_ | waits | ⟨_, _, next, completed, same, collected, split⟩
      · rw [none_] at listed
        exact absurd listed List.not_mem_nil
      · rw [waits] at listed
        obtain rfl := List.mem_singleton.mp listed
        exact absurd taken List.not_mem_nil
      · obtain ⟨rfl, rfl⟩ := List.cons.inj same
        have still : next.stopReason.isSome := by
          rwa [Batch.stopReason_collect collected, Batch.fill_of_stopped stopped]
        have stops := batch.roundStops_of_stopped still completed
        rw [← Batch.watch_loop, split, Batch.watch_loop] at returned
        rw [split] at listed
        rcases List.mem_cons.mp listed with rfl | later
        · exact (accounts.fill batch).mem_recordOf distinct collected stops returned finished taken
        · have after := ((accounts.fill batch).results_round batch distinct collected (batch.roundStops next completed)).2.1
          exact ih after (Batch.stopped_of_roundStops stops) returned record later finished taken

/-- From a round with a result that stops the batch on, every result that is taken is among the results at the
end. -/
theorem Accounts.mem_watch {rounds : List (List Completion)} (accounts : Accounts ids state) (distinct : ids.Nodup)
    (returned : batch.loop rounds state = some final) {before after : List RoundRecord} {record : RoundRecord}
    (split : (batch.watch rounds state).1 = before ++ record :: after)
    (stops : ∃ finished ∈ record.finished, (stopReasonOf batch.joinStrategy finished.2).isSome) :
    ∀ later ∈ record :: after, ∀ finished ∈ later.finished, (finished.1.runID, finished.2) ∈ final.results := by
  induction rounds generalizing state before with
  | nil =>
      obtain ⟨finished, listed, -⟩ := stops
      rcases batch.watch_cases [] state with none_ | waits | ⟨_, _, _, _, none_, _⟩
      · rw [none_] at split
        simp at split
      · rw [waits] at split
        obtain ⟨rfl, rfl, rfl⟩ := singleton_split split
        cases listed
      · cases none_
  | cons done rest ih =>
      rcases batch.watch_cases (done :: rest) state with none_ | waits | ⟨_, _, next, completed, same, collected, onward⟩
      · rw [none_] at split
        simp at split
      · rw [waits] at split
        obtain ⟨rfl, rfl, rfl⟩ := singleton_split split
        obtain ⟨finished, listed, -⟩ := stops
        cases listed
      · obtain ⟨rfl, rfl⟩ := List.cons.inj same
        have settled := ((accounts.fill batch).results_round batch distinct collected (batch.roundStops next completed)).2.1
        rw [← Batch.watch_loop, onward, Batch.watch_loop] at returned
        rw [onward] at split
        cases before with
        | nil =>
            obtain ⟨rfl, rfl⟩ := List.cons.inj split
            obtain ⟨finished, listed, reason⟩ := stops
            have decided : batch.roundStops next completed = true := Batch.roundStops_of_mem listed reason
            intro later inside
            rcases List.mem_cons.mp inside with rfl | behind
            · exact (accounts.fill batch).mem_recordOf distinct collected decided returned
            · exact settled.mem_watch_of_stopped distinct (Batch.stopped_of_roundStops decided) returned later behind
        | cons first before => exact ih settled returned (List.cons.inj split).2

end Results

/-- The results that the loop leaves, with those of the runs it cancels. -/
def Batch.allResults (batch : Batch) (final : SchedulerState) : List (String × TaskResult) :=
  match final.stopReason with
  | some reason => batch.cancelRemaining final.pending reason final.results
  | none => final.results

theorem Accounts.allResults (accounts : Accounts ids final) (batch : Batch) (distinct : ids.Nodup)
    (idle : final.running = []) :
    final.results <+: batch.allResults final ∧ ((batch.allResults final).map Prod.fst).Nodup ∧
      ∀ entry ∈ batch.allResults final, entry.2.runID = entry.1 := by
  have together : (final.results.map Prod.fst ++ final.pending.map BatchRun.runID).Nodup := by
    have counted := accounts.ids ▸ distinct
    rw [SchedulerState.ids, idle, List.map_nil, Multiset.coe_nil, add_zero, Multiset.coe_add] at counted
    exact List.perm_append_comm.nodup_iff.mp (Multiset.coe_nodup.mp counted)
  have own := (List.nodup_append.mp together).1
  unfold Batch.allResults
  cases final.stopReason with
  | none => exact ⟨List.prefix_refl _, own, accounts.owned⟩
  | some reason =>
      dsimp only
      cases provided : batch.cancelQueued with
      | none =>
          unfold Batch.cancelRemaining
          rw [provided]
          exact ⟨List.prefix_refl _, own, accounts.owned⟩
      | some cancel =>
          rw [cancelRemaining_eq provided reason together]
          refine ⟨List.prefix_append _ _, by simpa [Function.comp_def] using together, ?_⟩
          intro entry listed
          rcases List.mem_append.mp listed with before | added
          · exact accounts.owned entry before
          · obtain ⟨run, _, rfl⟩ := List.mem_map.mp added
            exact batch.cancelOwned cancel run reason provided

theorem Batch.run_result {runs : List BatchRun} {rounds : List (List Completion)} {results : List TaskResult}
    (distinct : (runs.map BatchRun.runID).Nodup) (looped : batch.loop rounds (Batch.start runs) = some final)
    (returned : batch.run runs rounds = some results) {entry : String × TaskResult} (listed : entry ∈ final.results) :
    results.filter (fun result => result.runID = entry.1) = [entry.2] := by
  have initial : Accounts (runs.map BatchRun.runID : List String) (Batch.start runs) :=
    ⟨by simp [SchedulerState.ids, Batch.start], by simp [Batch.start], by simp [Batch.start]⟩
  obtain ⟨accounts, idle, -⟩ := initial.loop (Multiset.coe_nodup.mpr distinct) looped
  obtain ⟨kept, keys, owned⟩ := accounts.allResults batch (Multiset.coe_nodup.mpr distinct) idle
  simp only [Batch.run, looped, Option.bind_eq_bind, Option.bind_some, Option.bind_eq_some_iff, Option.pure_def,
    Option.some.injEq] at returned
  obtain ⟨keyed, indexed, rfl⟩ := returned
  have values : keyed.map Prod.snd = (batch.allResults final).map Prod.snd := (keyed_results indexed).1
  have permuted := (List.perm_insertionSort Batch.indexOrder keyed).map Prod.snd
  rw [values] at permuted
  have inside := kept.mem listed
  have unique : (((keyed.insertionSort Batch.indexOrder).map Prod.snd).map TaskResult.runID).Perm
      ((batch.allResults final).map Prod.fst) := by
    rw [← List.map_congr_left owned, ← Function.comp_def TaskResult.runID, ← List.map_map]
    exact permuted.map TaskResult.runID
  apply @filter_of_distinct _ _ TaskResult.runID _ _ _ (unique.nodup_iff.mpr keys)
    (permuted.mem_iff.mpr (List.mem_map_of_mem inside))
  · exact decide_eq_true (owned entry inside)
  · intro other _ passes
    exact (of_decide_eq_true passes).trans (owned entry inside).symm

/-- **Two phases.** However tasks finish together and in whatever order: in a round with a result that stops the
batch, and behind it, no retry is asked for; behind it no execution starts; and when the batch returns, each
result taken in that round or behind it is the one result of its run. -/
theorem two_phase_stop (batch : Batch) {runs : List BatchRun} (distinct : (runs.map BatchRun.runID).Nodup)
    (rounds : List (List Completion)) {before after : List RoundRecord} {record : RoundRecord}
    (split : (batch.watch rounds (Batch.start runs)).1 = before ++ record :: after)
    (stops : ∃ finished ∈ record.finished, (stopReasonOf batch.joinStrategy finished.2).isSome) :
    record.asked = [] ∧ (∀ later ∈ after, later.started = [] ∧ later.asked = []) ∧
      ∀ results, batch.run runs rounds = some results → ∀ later ∈ record :: after, ∀ finished ∈ later.finished,
        results.filter (fun result => result.runID = finished.1.runID) = [finished.2] := by
  obtain ⟨quiet, still⟩ := batch.watch_quiet rounds split stops
  refine ⟨quiet, still, ?_⟩
  intro results returned later inside finished listed
  have initial : Accounts (runs.map BatchRun.runID : List String) (Batch.start runs) :=
    ⟨by simp [SchedulerState.ids, Batch.start], by simp [Batch.start], by simp [Batch.start]⟩
  obtain ⟨final, looped, -⟩ := Option.bind_eq_some_iff.mp returned
  have kept := initial.mem_watch (Multiset.coe_nodup.mpr distinct) looped split stops later inside finished listed
  exact batch.run_result distinct looped returned kept

/-- The result of an execution that ended with the status. -/
def endedWith (status : Status) (run : BatchRun) : TaskResult :=
  ⟨run.runID, run.taskID, status, "", "", none, "", none, none, none⟩

/-- A task that ends with the status and could be tried again. -/
def ending (task : ℕ) (status : Status) : Completion where
  task := task
  now := 5
  execute run := .ok (endedWith status run)
  owned := by
    rintro _ _ ⟨⟩
    rfl
  shouldRetry _ _ := true
  prepareRetry run _ := some run
  sameRun := by
    rintro _ _ _ ⟨⟩
    rfl

/-- Two runs at a time under `fail_fast`, with retries. -/
def twoAtATime : Batch where
  schedulerConcurrency := 2
  maxConcurrency := none
  joinStrategy := .failFast
  resourceKey _ := none
  resourceLimits _ := none
  retries := true
  cancelQueued := some fun run _ => endedWith .cancelled run
  cancelOwned := by
    rintro _ _ _ ⟨⟩
    rfl

def threeRuns : List BatchRun := [⟨"a", 0, "", "", none⟩, ⟨"b", 1, "", "", none⟩, ⟨"c", 2, "", "", none⟩]

/-- The first of two runs fails, the second is successful behind it, and the third never starts. -/
theorem two_phase_stop_three_runs :
    (twoAtATime.run threeRuns [[ending 0 .failed], [ending 1 .completed]]).map (List.map TaskResult.status) =
        some [.failed, .completed, .cancelled] ∧
      ∀ results, twoAtATime.run threeRuns [[ending 0 .failed], [ending 1 .completed]] = some results →
        results.filter (fun result => result.runID = "b") = [endedWith .completed ⟨"b", 1, "", "", none⟩] := by
  have split : (twoAtATime.watch [[ending 0 .failed], [ending 1 .completed]] (Batch.start threeRuns)).1 =
      [] ++ ⟨threeRuns.take 2, [(⟨"a", 0, "", "", none⟩, endedWith .failed ⟨"a", 0, "", "", none⟩)], []⟩ ::
        [⟨[], [(⟨"b", 1, "", "", none⟩, endedWith .completed ⟨"b", 1, "", "", none⟩)], []⟩, ⟨[], [], []⟩] := by
    decide
  obtain ⟨-, -, kept⟩ := two_phase_stop twoAtATime (by decide) _ split ⟨_, List.mem_cons_self, by decide⟩
  exact ⟨by decide, fun results returned =>
    kept results returned _ (List.mem_cons_of_mem _ List.mem_cons_self) _ List.mem_cons_self⟩

end Sico.TaskRuntime

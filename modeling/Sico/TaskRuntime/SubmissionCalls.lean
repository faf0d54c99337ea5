import Mathlib.Data.List.Nodup
import Sico.TaskRuntime.Submission

/-! # What a submission knows of the store

A call obtains `owns_batch` only when its candidate is the batch that is stored, and the
task behind a failed call cancels only then. Whatever a call knows of the store is about
the identities in it, which are never lost (`Call.Sound.mono`), so the knowledge of every
call survives the steps of the others.
-/

namespace Sico.TaskRuntime.Submission

open Foundation

variable {digests : Digests}

namespace Store

variable {store : Store} {batchID : String}

theorem mem_identities {batch : BatchRecord} (stored : batch ∈ store.batches) :
    batch.identity ∈ store.identities := List.mem_map_of_mem stored

theorem getBatch_spec {batch : BatchRecord} (found : store.getBatch batchID = some batch) :
    batch.identity ∈ store.identities ∧ batch.batchID = batchID := by
  have stored := List.mem_of_find?_eq_some found
  have same := List.find?_some found
  exact ⟨mem_identities stored, by simpa using same⟩

theorem getBatch_none (absent : store.getBatch batchID = none) :
    batchID ∉ store.identities.map Prod.fst := by
  intro listed
  obtain ⟨identity, stored, rfl⟩ := List.mem_map.mp listed
  obtain ⟨batch, member, rfl⟩ := List.mem_map.mp stored
  have other := List.find?_eq_none.mp absent batch member
  exact other (by simp [BatchRecord.identity])

theorem identities_map {rewrite : BatchRecord → BatchRecord}
    (same : ∀ batch, (rewrite batch).identity = batch.identity) (runs : List TaskRun) :
    Store.identities ⟨store.batches.map rewrite, runs⟩ = store.identities := by
  rw [identities, List.map_map]
  exact List.map_congr_left fun batch _ => same batch

@[simp] theorem identities_updateBatch (status : Status) :
    (store.updateBatch batchID status).identities = store.identities := by
  apply identities_map
  intro batch
  split <;> rfl

@[simp] theorem identities_cancelBatch :
    (store.cancelBatch batchID).identities = store.identities := by
  unfold cancelBatch
  split
  · apply identities_map
    intro batch
    split <;> rfl
  · rfl

@[simp] theorem identities_execute (write : ExecutionWrite) :
    (store.execute batchID write).identities = store.identities := by
  cases write with
  | createRun index =>
      simp only [execute]
      split <;> rfl
  | updateRun index status => rfl
  | updateBatch status => exact identities_updateBatch status

theorem createBatch_cases (store : Store) (batch : BatchRecord) :
    (∃ existing, store.getBatch batch.batchID = some existing ∧
      store.createBatch batch = (⟨existing, false⟩, store)) ∨
    (store.getBatch batch.batchID = none ∧
      store.createBatch batch =
        (⟨batch, true⟩, { store with batches := store.batches ++ [batch] })) := by
  unfold createBatch
  cases found : store.getBatch batch.batchID with
  | some existing => exact .inl ⟨existing, rfl, rfl⟩
  | none => exact .inr ⟨rfl, rfl⟩

theorem identities_createBatch_subset (batch : BatchRecord) :
    store.identities ⊆ (store.createBatch batch).2.identities := by
  obtain ⟨existing, -, same⟩ | ⟨-, same⟩ := createBatch_cases store batch
  · rw [same]
    exact List.Subset.refl _
  · rw [same]
    simp [identities]

theorem cancelBatch_spares {batch : BatchRecord} (stored : batch ∈ store.batches)
    (other : batch.batchID ≠ batchID) :
    batch ∈ (store.cancelBatch batchID).batches ∧
      (store.cancelBatch batchID).listBatchRuns batch.batchID =
        store.listBatchRuns batch.batchID := by
  unfold cancelBatch
  split
  · refine ⟨List.mem_map.mpr ⟨batch, stored, if_neg other⟩, ?_⟩
    simp only [listBatchRuns, List.filter_map]
    have same : ((fun run : TaskRun => decide (run.batchID = batch.batchID)) ∘ fun run =>
        if run.batchID = batchID ∧ run.status.isActive then { run with status := .cancelled }
        else run) = fun run => decide (run.batchID = batch.batchID) := by
      funext run
      simp only [Function.comp_apply]
      split <;> rfl
    rw [same]
    refine (List.map_congr_left fun run listed => ?_).trans (List.map_id _)
    have own : run.batchID = batch.batchID := by simpa using (List.mem_filter.mp listed).2
    exact if_neg fun hit => other (own ▸ hit.1)
  · exact ⟨stored, rfl⟩

end Store

namespace Call

variable {call call' : Call} {store store' : Store}

def Created (call : Call) (store : Store) : Prop :=
  ∃ candidate ∈ call.candidate, candidate.identity ∈ store.identities

def Shown (digests : Digests) (call : Call) (store : Store) (batch : BatchRecord) : Prop :=
  batch.identity ∈ store.identities ∧ batch.batchID = call.batchID digests

/-- The stored batch carries the fingerprint of the call. -/
def Matched (digests : Digests) (call : Call) (store : Store) : Prop :=
  ∃ batch, call.Shown digests store batch ∧ batch.submissionFingerprint = call.fingerprint digests

def PhaseSound (digests : Digests) (call : Call) (store : Store) : Phase → Prop
  | .looking reply => call.candidate = none ∧ ∀ batch ∈ reply.join, call.Shown digests store batch
  | .projecting | .planning _ => call.candidate = none
  | .creating reply => ∀ response ∈ reply, (response.created → call.Created store) ∧
      ∀ batch ∈ response.batch, call.Shown digests store batch
  | .rereading reply => ∀ batch ∈ reply.join, call.Shown digests store batch
  | .executing => call.Matched digests store ∧ call.ownsBatch
  | .observing _ _ | .returned => call.Matched digests store
  | .settling _ | .raised _ => True

/-- What the task behind a call knows of the store. -/
def CleanupSound (digests : Digests) (call : Call) (store : Store) : CleanupPhase → Prop
  | .polling reply => ∀ batch ∈ reply.join, call.Shown digests store batch
  | .cancelling _ => call.Created store
  | .removing | .finished => True

/-- A call whose ownership and whose cancellations rest on a stored candidate. -/
structure Sound (digests : Digests) (call : Call) (store : Store) : Prop where
  candidate : ∀ candidate ∈ call.candidate, candidate.batchID = call.batchID digests ∧
    candidate.submissionFingerprint = call.fingerprint digests
  phase : call.PhaseSound digests store call.phase
  owns : call.ownsBatch → call.Created store
  cleanup : ∀ phase ∈ call.cleanup, call.candidate.isSome ∧ call.CleanupSound digests store phase
  late : call.lateCancels ≠ 0 → call.Created store

/-- A stored batch with the token of the candidate is the candidate. -/
def Origin (call : Call) (store : Store) : Prop :=
  ∀ candidate ∈ call.candidate, ∀ identity ∈ store.identities,
    identity.2.2 = candidate.materializationToken → identity = candidate.identity

section Monotone

theorem Created.mono (created : call.Created store)
    (kept : store.identities ⊆ store'.identities) : call.Created store' := by
  obtain ⟨candidate, own, stored⟩ := created
  exact ⟨candidate, own, kept stored⟩

theorem Shown.mono {batch : BatchRecord} (shown : call.Shown digests store batch)
    (kept : store.identities ⊆ store'.identities) : call.Shown digests store' batch :=
  ⟨kept shown.1, shown.2⟩

theorem Matched.mono (matched : call.Matched digests store)
    (kept : store.identities ⊆ store'.identities) : call.Matched digests store' := by
  obtain ⟨batch, shown, same⟩ := matched
  exact ⟨batch, shown.mono kept, same⟩

theorem PhaseSound.mono {phase : Phase} (known : call.PhaseSound digests store phase)
    (kept : store.identities ⊆ store'.identities) : call.PhaseSound digests store' phase := by
  cases phase with
  | looking reply => exact ⟨known.1, fun batch shown => (known.2 batch shown).mono kept⟩
  | projecting => exact known
  | planning parentToolCallID => exact known
  | creating reply =>
      intro response replied
      have here := known response replied
      exact ⟨fun created => (here.1 created).mono kept,
        fun batch shown => (here.2 batch shown).mono kept⟩
  | rereading reply => exact fun batch shown => (known batch shown).mono kept
  | executing => exact ⟨known.1.mono kept, known.2⟩
  | observing batch runs => exact Matched.mono known kept
  | returned => exact Matched.mono known kept
  | settling failure => trivial
  | raised failure => trivial

theorem CleanupSound.mono {phase : CleanupPhase} (known : call.CleanupSound digests store phase)
    (kept : store.identities ⊆ store'.identities) : call.CleanupSound digests store' phase := by
  cases phase with
  | polling reply => exact fun batch shown => (known batch shown).mono kept
  | removing => trivial
  | cancelling served => exact Created.mono known kept
  | finished => trivial

theorem Sound.mono (sound : call.Sound digests store)
    (kept : store.identities ⊆ store'.identities) : call.Sound digests store' where
  candidate := sound.candidate
  phase := sound.phase.mono kept
  owns := fun owns => (sound.owns owns).mono kept
  cleanup := fun phase here =>
    ⟨(sound.cleanup phase here).1, (sound.cleanup phase here).2.mono kept⟩
  late := fun late => (sound.late late).mono kept

end Monotone

section Moving

theorem Sound.at (sound : call.Sound digests store) {phase : Phase}
    (known : call.PhaseSound digests store phase) :
    ({ call with phase } : Call).Sound digests store :=
  ⟨sound.candidate, known, sound.owns, sound.cleanup, sound.late⟩

theorem Sound.behind (sound : call.Sound digests store) {cleanup : CleanupPhase}
    (built : call.candidate.isSome) (known : call.CleanupSound digests store cleanup) :
    ({ call with cleanup := some cleanup } : Call).Sound digests store where
  candidate := sound.candidate
  phase := sound.phase
  owns := sound.owns
  cleanup := by
    intro phase here
    obtain rfl := Option.mem_some_iff.mp here
    exact ⟨built, known⟩
  late := sound.late

theorem Sound.converge (sound : call.Sound digests store) (failure : Failure) :
    (call.converge failure).Sound digests store := by
  have settling : ({ call with phase := .settling failure } : Call).Sound digests store :=
    sound.at trivial
  unfold Call.converge
  split
  · next built => exact settling.behind built (by simp [CleanupSound])
  · exact settling

theorem Sound.matched (sound : call.Sound digests store) (created : call.Created store) :
    call.Matched digests store := by
  obtain ⟨candidate, own, stored⟩ := created
  obtain ⟨sameID, sameFingerprint⟩ := sound.candidate candidate own
  exact ⟨candidate, ⟨stored, sameID⟩, sameFingerprint⟩

theorem Sound.built (sound : call.Sound digests store) (unbuilt : call.candidate = none)
    (parentToolCallID : ℤ) (token : String) :
    ({ call with
        phase := .creating none
        candidate := some (call.request.buildBatch digests parentToolCallID token) } :
      Call).Sound digests store := by
  have uncreated : ¬ call.Created store := by simp [Created, unbuilt]
  refine ⟨?_, by simp [PhaseSound], ?_, ?_, ?_⟩
  · intro candidate own
    obtain rfl := Option.mem_some_iff.mp own
    exact ⟨rfl, rfl⟩
  · exact fun owns => absurd (sound.owns owns) uncreated
  · intro phase here
    have built := (sound.cleanup phase here).1
    simp [unbuilt] at built
  · exact fun late => absurd (sound.late late) uncreated

/-- **Behind the creation.** The answer makes the call an owner only of its own candidate,
and an observer only of a batch with its fingerprint. -/
theorem Sound.materialized (sound : call.Sound digests store) {result : BatchCreateResult}
    (created : result.created → call.Created store)
    (shown : call.Shown digests store result.batch) :
    (call.materialized digests result).Sound digests store := by
  unfold Call.materialized
  split
  · next owns =>
      have matched := sound.matched (created owns)
      exact ⟨sound.candidate, ⟨matched, rfl⟩, fun _ => created owns, sound.cleanup, sound.late⟩
  · split
    · next same =>
        apply sound.at
        have equal : result.batch.submissionFingerprint = call.fingerprint digests := by
          simp only [validateSubmissionFingerprintValue, Bool.and_eq_true, decide_eq_true_eq]
            at same
          exact same.2
        exact ⟨result.batch, shown, equal⟩
    · exact sound.converge .diverged

theorem Origin.created (origin : call.Origin store) {candidate batch : BatchRecord}
    (own : candidate ∈ call.candidate) (shown : call.Shown digests store batch)
    (same : batch.materializationToken = candidate.materializationToken) : call.Created store := by
  have equal := origin candidate own batch.identity shown.1 same
  exact ⟨candidate, own, equal ▸ shown.1⟩

theorem resume_sound (sound : call.Sound digests store) (origin : call.Origin store)
    (step : call.resume digests = some call') : call'.Sound digests store := by
  have known := sound.phase
  unfold Call.resume at step
  split at step
  · next here =>
      obtain rfl := Option.some.inj step
      rw [here] at known
      exact sound.at known.1
  · next existing here =>
      rw [here] at known
      have shown := known.2 existing rfl
      split at step
      · next same =>
          obtain rfl := Option.some.inj step
          simp only [validateSubmissionFingerprintValue, Bool.and_eq_true, decide_eq_true_eq]
            at same
          exact sound.at ⟨existing, shown, same.2⟩
      · obtain rfl := Option.some.inj step
        exact sound.at trivial
  · next batch created here =>
      obtain rfl := Option.some.inj step
      rw [here] at known
      have answered := known _ rfl
      exact sound.materialized answered.1 (answered.2 batch rfl)
  · next here =>
      obtain rfl := Option.some.inj step
      exact sound.at (by simp [PhaseSound])
  · obtain rfl := Option.some.inj step
    exact sound.converge .raised
  · next authoritative here =>
      obtain ⟨candidate, own, step⟩ := Option.bind_eq_some_iff.mp step
      obtain rfl := Option.some.inj step
      rw [here] at known
      have shown := known authoritative rfl
      apply sound.materialized
      · intro created
        simp only [Bool.and_eq_true, decide_eq_true_eq] at created
        exact origin.created own shown created.2
      · exact shown
  · cases step

theorem interrupt_cases {failure : Failure} (step : call.interrupt failure = some call') :
    call' = call.converge failure ∨ call' = { call.converge failure with lateCreate := true } ∨
      call' = { call with phase := .raised failure } := by
  unfold Call.interrupt at step
  grind

theorem interrupt_sound (sound : call.Sound digests store) {failure : Failure}
    (step : call.interrupt failure = some call') : call'.Sound digests store := by
  have converged := sound.converge failure
  obtain rfl | rfl | rfl := interrupt_cases step
  · exact converged
  · exact ⟨converged.candidate, converged.phase, converged.owns, converged.cleanup, converged.late⟩
  · exact sound.at trivial

/-- What a call may do to the store. -/
inductive Effect (digests : Digests) (call : Call) (store : Store) : Store → Prop where
  | idle : Effect digests call store store
  /-- The candidate is stored, where no batch of its ID was. -/
  | create {candidate : BatchRecord} (own : candidate ∈ call.candidate)
      (absent : store.getBatch candidate.batchID = none) :
      Effect digests call store { store with batches := store.batches ++ [candidate] }
  | execute (owns : call.ownsBatch) (write : ExecutionWrite) :
      Effect digests call store (store.execute (call.batchID digests) write)
  | cancel (created : call.Created store) :
      Effect digests call store (store.cancelBatch (call.batchID digests))

theorem Effect.creation {candidate : BatchRecord} (own : candidate ∈ call.candidate) :
    call.Effect digests store (store.createBatch candidate).2 := by
  obtain ⟨existing, -, same⟩ | ⟨absent, same⟩ := Store.createBatch_cases store candidate
  · rw [same]
    exact .idle
  · rw [same]
    exact .create own absent

theorem Effect.identities_subset (effect : call.Effect digests store store') :
    store.identities ⊆ store'.identities := by
  cases effect with
  | idle => exact List.Subset.refl _
  | create own absent => simp [Store.identities]
  | execute owns write => simp
  | cancel created => simp

theorem Effect.created (effect : call.Effect digests store store') (sound : call.Sound digests store)
    (changed : store' ≠ store) : call.Created store' := by
  cases effect with
  | idle => exact absurd rfl changed
  | create own absent => exact ⟨_, own, by simp [Store.identities]⟩
  | execute owns write => exact (sound.owns owns).mono (by simp)
  | cancel created => exact created.mono (by simp)

/-- The answer to a creation is the stored batch, and says that it was created only if it
is the candidate. -/
theorem creation_shown (sound : call.Sound digests store) {candidate : BatchRecord}
    (own : candidate ∈ call.candidate) :
    ((store.createBatch candidate).1.created → call.Created (store.createBatch candidate).2) ∧
      call.Shown digests (store.createBatch candidate).2 (store.createBatch candidate).1.batch := by
  have sameID := (sound.candidate candidate own).1
  obtain ⟨existing, found, same⟩ | ⟨-, same⟩ :=
    Store.createBatch_cases store candidate
  · rw [same]
    have spec := Store.getBatch_spec found
    exact ⟨fun created => absurd created Bool.false_ne_true, spec.1, spec.2.trans sameID⟩
  · rw [same]
    have stored : candidate.identity ∈
        Store.identities { store with batches := store.batches ++ [candidate] } := by
      simp [Store.identities]
    exact ⟨fun _ => ⟨candidate, own, stored⟩, stored, sameID⟩

theorem Effect.identity_cases (effect : call.Effect digests store store')
    {identity : String × String × String} (stored : identity ∈ store'.identities) :
    identity ∈ store.identities ∨ ∃ candidate ∈ call.candidate, identity = candidate.identity := by
  cases effect with
  | idle => exact .inl stored
  | create own absent =>
      simp only [Store.identities, List.map_append, List.mem_append, List.map_cons,
        List.map_nil, List.mem_singleton] at stored
      obtain earlier | rfl := stored
      · exact .inl earlier
      · exact .inr ⟨_, own, rfl⟩
  | execute owns write => exact .inl (by simpa using stored)
  | cancel created => exact .inl (by simpa using stored)

theorem Effect.unique (effect : call.Effect digests store store')
    (unique : (store.identities.map Prod.fst).Nodup) :
    (store'.identities.map Prod.fst).Nodup := by
  cases effect with
  | idle => exact unique
  | create own absent =>
      have new := Store.getBatch_none absent
      simp only [Store.identities, List.map_append, List.map_cons, List.map_nil]
      exact unique.append (List.nodup_singleton _) (List.disjoint_singleton.mpr new)
  | execute owns write => simpa using unique
  | cancel created => simpa using unique

theorem serve_sound {withDocument : Bool} (sound : call.Sound digests store)
    (step : call.serve digests store withDocument = some (store', call')) :
    call.Effect digests store store' ∧ call'.Sound digests store' := by
  have shown {batch : BatchRecord} (found : store.getBatch (call.batchID digests) = some batch) :
      call.Shown digests store batch := Store.getBatch_spec found
  have known := sound.phase
  unfold Call.serve at step
  split at step
  · next here =>
      cases step
      rw [here] at known
      exact ⟨.idle, sound.at ⟨known.1, fun batch found => shown (by simpa using found)⟩⟩
  · next here =>
      obtain ⟨candidate, own, step⟩ := Option.bind_eq_some_iff.mp step
      cases step
      have later := sound.mono (Store.identities_createBatch_subset candidate)
      obtain ⟨created, answered⟩ := creation_shown sound own
      refine ⟨.creation own, later.at ?_⟩
      intro response replied
      obtain rfl := Option.mem_some_iff.mp replied
      refine ⟨created, fun batch given => ?_⟩
      have same : (store.createBatch candidate).1.batch = batch := by grind
      exact same ▸ answered
  · cases step
    exact ⟨.idle, sound.at fun batch found => shown (by simpa using found)⟩
  · next here =>
      cases step
      rw [here] at known
      exact ⟨.idle, sound.at known⟩
  · cases step

theorem Sound.lateCancelling (sound : call.Sound digests store) (lateCancels : ℕ)
    (created : lateCancels ≠ 0 → call.Created store) :
    ({ call with lateCancels } : Call).Sound digests store :=
  ⟨sound.candidate, sound.phase, sound.owns, sound.cleanup, created⟩

theorem clean_sound {candidate : BatchRecord} {phase : CleanupPhase} {move : CleanupMove}
    (sound : call.Sound digests store) (origin : call.Origin store)
    (own : candidate ∈ call.candidate) (here : call.cleanup = some phase)
    (step : call.clean candidate store phase move = some (store', call')) :
    call.Effect digests store store' ∧ call'.Sound digests store' := by
  have sameID := (sound.candidate candidate own).1
  obtain ⟨built, known⟩ := sound.cleanup phase here
  unfold Call.clean at step
  split at step
  · cases step
    refine ⟨.idle, sound.behind built fun batch found => ?_⟩
    have found : store.getBatch (call.batchID digests) = some batch := by
      rw [← sameID]
      simpa using found
    exact Store.getBatch_spec found
  · cases step
    exact ⟨.idle, sound.behind built (by simp [CleanupSound])⟩
  · next persisted =>
      cases step
      have shown := known persisted rfl
      refine ⟨.idle, sound.behind built ?_⟩
      unfold cleanupBehind
      split
      · split <;> trivial
      · next same => exact origin.created own shown (not_not.mp same)
  · cases step
    exact ⟨.idle, sound.behind built (by simp [CleanupSound])⟩
  · cases step
    exact ⟨.idle, sound.behind built trivial⟩
  · cases step
    exact ⟨.idle, sound.behind built trivial⟩
  · cases step
    rw [sameID]
    have later : call.Sound digests (store.cancelBatch (call.batchID digests)) :=
      sound.mono (by simp)
    exact ⟨.cancel known, later.behind built (Created.mono known (by simp))⟩
  · cases step
    exact ⟨.idle, sound.behind built trivial⟩
  · next served =>
      cases step
      have counted := sound.lateCancelling (call.lateCancels + if served then 0 else 1)
        fun _ => known
      exact ⟨.idle, counted.behind built (by simp [CleanupSound])⟩
  · next served =>
      cases step
      have counted := sound.lateCancelling (call.lateCancels + if served then 0 else 1)
        fun _ => known
      exact ⟨.idle, counted.behind built trivial⟩
  · cases step
    exact ⟨.idle, sound.behind built trivial⟩
  · cases step
    exact ⟨.idle, sound.behind built trivial⟩
  · cases step

/-- **One move of a call.** It has one of the effects, and the call keeps to what it
knows. -/
theorem next_sound {move : Move} (sound : call.Sound digests store) (origin : call.Origin store)
    (step : call.next digests store move = some (store', call')) :
    call.Effect digests store store' ∧ call'.Sound digests store' := by
  have known := sound.phase
  cases move with
  | serve withDocument => exact serve_sound sound step
  | resume =>
      obtain ⟨resumed, step, same⟩ := Option.map_eq_some_iff.mp step
      cases same
      exact ⟨.idle, resume_sound sound origin step⟩
  | interrupt cancelled =>
      obtain ⟨interrupted, step, same⟩ := Option.map_eq_some_iff.mp step
      cases same
      exact ⟨.idle, interrupt_sound sound step⟩
  | projected parentToolCallID =>
      simp only [Call.next] at step
      split at step
      · next here =>
          cases step
          rw [here] at known
          exact ⟨.idle, sound.at known⟩
      · cases step
  | planned token =>
      simp only [Call.next] at step
      split at step
      · next parentToolCallID here =>
          cases step
          rw [here] at known
          exact ⟨.idle, sound.built known parentToolCallID token⟩
      · cases step
  | execute write =>
      simp only [Call.next] at step
      split at step
      · next owns =>
          cases step
          exact ⟨.execute owns write, sound.mono (by simp)⟩
      · cases step
  | finish =>
      simp only [Call.next] at step
      split at step
      · next here =>
          cases step
          rw [here] at known
          exact ⟨.idle, sound.at known.1⟩
      · next here =>
          cases step
          rw [here] at known
          exact ⟨.idle, sound.at known⟩
      · cases step
        exact ⟨.idle, sound.at trivial⟩
      · cases step
  | lateCreate =>
      obtain ⟨candidate, own, step⟩ := Option.bind_eq_some_iff.mp step
      split at step
      · cases step
        have later := sound.mono (Store.identities_createBatch_subset candidate)
        exact ⟨.creation own,
          later.candidate, later.phase, later.owns, later.cleanup, later.late⟩
      · cases step
  | lateCancel =>
      obtain ⟨candidate, own, step⟩ := Option.bind_eq_some_iff.mp step
      split at step
      · next late =>
          cases step
          rw [(sound.candidate candidate own).1]
          have created := sound.late late
          have later : call.Sound digests (store.cancelBatch (call.batchID digests)) :=
            sound.mono (by simp)
          exact ⟨.cancel created, later.lateCancelling _ fun _ => created.mono (by simp)⟩
      · cases step
  | cleanup move =>
      obtain ⟨candidate, own, step⟩ := Option.bind_eq_some_iff.mp step
      obtain ⟨phase, here, step⟩ := Option.bind_eq_some_iff.mp step
      exact clean_sound sound origin own here step

section Keeping

/-- The call is the same but for where it stands and what it left behind. -/
def Continues (call call' : Call) : Prop :=
  call'.request = call.request ∧ call'.candidate = call.candidate

theorem converge_continues (failure : Failure) : call.Continues (call.converge failure) := ⟨rfl, rfl⟩

theorem materialized_continues (result : BatchCreateResult) :
    call.Continues (call.materialized digests result) := by
  unfold Call.materialized
  split
  · exact ⟨rfl, rfl⟩
  · split <;> exact ⟨rfl, rfl⟩

theorem serve_continues {withDocument : Bool}
    (step : call.serve digests store withDocument = some (store', call')) :
    call.Continues call' := by
  unfold Call.serve at step
  split at step
  case h_2 =>
    obtain ⟨candidate, -, step⟩ := Option.bind_eq_some_iff.mp step
    cases step
    exact ⟨rfl, rfl⟩
  all_goals
    cases step
    try exact ⟨rfl, rfl⟩

theorem resume_continues (step : call.resume digests = some call') : call.Continues call' := by
  unfold Call.resume at step
  split at step
  · cases step
    exact ⟨rfl, rfl⟩
  · split at step
    all_goals
      cases step
      exact ⟨rfl, rfl⟩
  · cases step
    exact materialized_continues _
  · cases step
    exact ⟨rfl, rfl⟩
  · cases step
    exact converge_continues _
  · obtain ⟨candidate, -, step⟩ := Option.bind_eq_some_iff.mp step
    cases step
    exact materialized_continues _
  · cases step

theorem interrupt_continues {failure : Failure} (step : call.interrupt failure = some call') :
    call.Continues call' := by
  obtain rfl | rfl | rfl := interrupt_cases step
  all_goals exact ⟨rfl, rfl⟩

theorem clean_continues {candidate : BatchRecord} {phase : CleanupPhase} {move : CleanupMove}
    (step : call.clean candidate store phase move = some (store', call')) :
    call.Continues call' := by
  unfold Call.clean at step
  split at step
  all_goals
    cases step
    try exact ⟨rfl, rfl⟩

end Keeping

theorem next_keeps {move : Move} (step : call.next digests store move = some (store', call')) :
    call.Continues call' ∨
      ∃ token parentToolCallID, move = .planned token ∧ call.phase = .planning parentToolCallID ∧
        store' = store ∧
        call' = { call with
          phase := .creating none
          candidate := some (call.request.buildBatch digests parentToolCallID token) } := by
  cases move with
  | planned token =>
      simp only [Call.next] at step
      split at step
      · next parentToolCallID here =>
          cases step
          exact .inr ⟨token, parentToolCallID, rfl, here, rfl, rfl⟩
      · cases step
  | serve withDocument => exact .inl (serve_continues step)
  | resume =>
      obtain ⟨resumed, step, same⟩ := Option.map_eq_some_iff.mp step
      cases same
      exact .inl (resume_continues step)
  | interrupt cancelled =>
      obtain ⟨interrupted, step, same⟩ := Option.map_eq_some_iff.mp step
      cases same
      exact .inl (interrupt_continues step)
  | cleanup move =>
      obtain ⟨candidate, -, step⟩ := Option.bind_eq_some_iff.mp step
      obtain ⟨phase, -, step⟩ := Option.bind_eq_some_iff.mp step
      exact .inl (clean_continues step)
  | lateCreate =>
      obtain ⟨candidate, -, step⟩ := Option.bind_eq_some_iff.mp step
      split at step <;> cases step
      exact .inl ⟨rfl, rfl⟩
  | lateCancel =>
      obtain ⟨candidate, -, step⟩ := Option.bind_eq_some_iff.mp step
      split at step <;> cases step
      exact .inl ⟨rfl, rfl⟩
  | projected parentToolCallID | execute write | finish =>
      simp only [Call.next] at step
      split at step
      all_goals
        cases step
        try exact .inl ⟨rfl, rfl⟩

theorem next_request {move : Move} (step : call.next digests store move = some (store', call')) :
    call'.request = call.request := by
  obtain ⟨same, -⟩ | ⟨token, parentToolCallID, -, -, -, rfl⟩ := next_keeps step
  · exact same
  · rfl

theorem created_of_changed {move : Move} (sound : call.Sound digests store)
    (origin : call.Origin store) (step : call.next digests store move = some (store', call'))
    (changed : store' ≠ store) : call'.Created store' := by
  have effect := (next_sound sound origin step).1
  obtain ⟨-, same⟩ | ⟨token, parentToolCallID, -, -, left, -⟩ := next_keeps step
  · obtain ⟨candidate, own, stored⟩ := effect.created sound changed
    exact ⟨candidate, same ▸ own, stored⟩
  · exact absurd left changed

end Moving

end Call

end Sico.TaskRuntime.Submission

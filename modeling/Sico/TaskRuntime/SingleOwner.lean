import Sico.TaskRuntime.SubmissionCalls

/-! # One owner for each batch

Every call draws a token of its own, the store keeps one batch for each ID, and no identity
is ever lost. So whatever the order of steps, one call at most has a say in a batch
(`World.Sound.position_unique`): the one that executes it, or the failed one whose task
cancels it.
-/

namespace Sico.TaskRuntime.Submission

open Foundation

variable {digests : Digests}

namespace World

variable {world target : World}

/-- A world whose store keeps one batch for each ID and whose calls drew different
tokens. -/
structure Sound (digests : Digests) (world : World) : Prop where
  unique : (world.store.identities.map Prod.fst).Nodup
  calls : ∀ call ∈ world.calls, call.Sound digests world.store
  origin : ∀ call ∈ world.calls, call.Origin world.store
  stored : ∀ identity ∈ world.store.identities, identity.2.2 ∈ world.tokens
  drawn : ∀ call ∈ world.calls, ∀ candidate ∈ call.candidate,
    candidate.materializationToken ∈ world.tokens
  distinct : ∀ (first second : ℕ) (one other : Call), world.calls[first]? = some one →
    world.calls[second]? = some other → ∀ candidate ∈ one.candidate, ∀ rival ∈ other.candidate,
      candidate.materializationToken = rival.materializationToken → first = second

theorem Sound.same_identity (sound : world.Sound digests) {one other : String × String × String}
    (stored : one ∈ world.store.identities) (also : other ∈ world.store.identities)
    (same : one.1 = other.1) : one = other :=
  List.inj_on_of_nodup_map sound.unique stored also same

theorem Sound.position_unique (sound : world.Sound digests) {first second : ℕ} {one other : Call}
    (here : world.calls[first]? = some one) (there : world.calls[second]? = some other)
    (created : one.Created world.store) (also : other.Created world.store)
    (same : one.batchID digests = other.batchID digests) : first = second := by
  obtain ⟨candidate, own, stored⟩ := created
  obtain ⟨rival, foreign, storedToo⟩ := also
  have firstID := ((sound.calls one (List.mem_of_getElem? here)).candidate candidate own).1
  have secondID := ((sound.calls other (List.mem_of_getElem? there)).candidate rival foreign).1
  have equal := sound.same_identity stored storedToo
    (show candidate.batchID = rival.batchID by rw [firstID, secondID, same])
  have token := congrArg (fun identity => identity.2.2) equal
  exact sound.distinct first second one other here there candidate own rival foreign token

theorem opening_sound {store : Store} (unique : (store.batches.map BatchRecord.batchID).Nodup) :
    (opening store).Sound digests where
  unique := by
    rw [Store.identities, List.map_map]
    exact unique
  calls := by simp [opening]
  origin := by simp [opening]
  stored := by
    intro identity stored
    obtain ⟨batch, member, rfl⟩ := List.mem_map.mp stored
    exact List.mem_map_of_mem member
  drawn := by simp [opening]
  distinct := by simp [opening]

theorem step_call {position : ℕ} {move : Move}
    (step : (system digests).step world (.call position move) target) :
    ∃ call call', world.calls[position]? = some call ∧
      (∀ token ∈ move.token, token ≠ "" ∧ token ∉ world.tokens) ∧
      call.next digests world.store move = some (target.store, call') ∧
      target.calls = world.calls.set position call' ∧
      target.tokens = move.token.toList ++ world.tokens := by
  obtain ⟨call, here, step⟩ := Option.bind_eq_some_iff.mp step
  split at step
  · next fresh =>
      obtain ⟨⟨store, call'⟩, moved, step⟩ := Option.bind_eq_some_iff.mp step
      obtain rfl := Option.some.inj step
      exact ⟨call, call', here, fresh, moved, rfl, rfl⟩
  · cases step

theorem Sound.submit (sound : world.Sound digests) (request : Request) :
    World.Sound digests { world with calls := world.calls ++ [Call.begin request] } where
  unique := sound.unique
  calls := by
    intro call listed
    obtain earlier | latest := List.mem_append.mp listed
    · exact sound.calls call earlier
    · obtain rfl := List.mem_singleton.mp latest
      refine ⟨by simp [Call.begin], ?_, by simp [Call.begin], by simp [Call.begin],
        by simp [Call.begin]⟩
      simp only [Call.begin]
      split <;> simp [Call.PhaseSound]
  origin := by
    intro call listed
    obtain earlier | latest := List.mem_append.mp listed
    · exact sound.origin call earlier
    · obtain rfl := List.mem_singleton.mp latest
      simp [Call.Origin, Call.begin]
  stored := sound.stored
  drawn := by
    intro call listed
    obtain earlier | latest := List.mem_append.mp listed
    · exact sound.drawn call earlier
    · obtain rfl := List.mem_singleton.mp latest
      simp [Call.begin]
  distinct := by
    intro first second one other here there candidate own rival foreign same
    have earlier {position : ℕ} {call : Call} {built : BatchRecord} (built' : built ∈ call.candidate)
        (listed : (world.calls ++ [Call.begin request])[position]? = some call) :
        world.calls[position]? = some call := by
      rw [List.getElem?_append] at listed
      split at listed
      · exact listed
      · obtain rfl := List.mem_singleton.mp (List.mem_of_getElem? listed)
        cases built'
    exact sound.distinct first second one other (earlier own here) (earlier foreign there)
      candidate own rival foreign same

theorem Sound.elsewhere (sound : world.Sound digests) {store : Store}
    (same : store.identities = world.store.identities) :
    World.Sound digests { world with store } where
  unique := by rw [same]; exact sound.unique
  calls := fun call listed => (sound.calls call listed).mono (by rw [same]; exact List.Subset.refl _)
  origin := by
    intro call listed candidate own identity stored
    rw [same] at stored
    exact sound.origin call listed candidate own identity stored
  stored := by rw [same]; exact sound.stored
  drawn := sound.drawn
  distinct := sound.distinct

section Moving

variable {position : ℕ} {move : Move} {call call' : Call}

theorem calls_cases {calls : List Call} {other : Call} {index : ℕ}
    (listed : (calls.set position call')[index]? = some other) :
    (index = position ∧ other = call') ∨ (index ≠ position ∧ calls[index]? = some other) := by
  rw [List.getElem?_set] at listed
  split at listed
  · next same =>
      split at listed
      · exact .inl ⟨same.symm, (Option.some.inj listed).symm⟩
      · cases listed
  · next different => exact .inr ⟨fun same => different same.symm, listed⟩

/-- The candidate of a call that moved was its candidate before, or is new with a token
that was drawn for it while the store was left alone. -/
theorem candidate_cases {store store' : Store}
    (step : call.next digests store move = some (store', call')) {candidate : BatchRecord}
    (own : candidate ∈ call'.candidate) :
    candidate ∈ call.candidate ∨
      (store' = store ∧ candidate.materializationToken ∈ move.token) := by
  obtain ⟨-, same⟩ | ⟨token, parentToolCallID, rfl, -, rfl, rfl⟩ := Call.next_keeps step
  · exact .inl (same ▸ own)
  · obtain rfl := Option.mem_some_iff.mp own
    exact .inr ⟨rfl, rfl⟩

theorem Sound.call_step (sound : world.Sound digests)
    (step : (system digests).step world (.call position move) target) : target.Sound digests := by
  obtain ⟨call, call', here, fresh, moved, calls, tokens⟩ := step_call step
  have listed := List.mem_of_getElem? here
  obtain ⟨effect, later⟩ := Call.next_sound (sound.calls call listed) (sound.origin call listed) moved
  have kept := effect.identities_subset
  have known {token : String} (drawn : token ∈ world.tokens) : token ∈ target.tokens := by
    rw [tokens]
    exact List.mem_append_right _ drawn
  -- a token of the call that moved is its own: it had it before, or it is fresh
  have tokenOf {candidate : BatchRecord} (own : candidate ∈ call'.candidate) :
      candidate ∈ call.candidate ∨
        (target.store = world.store ∧ candidate.materializationToken ∉ world.tokens) := by
    obtain before | ⟨same, drawn⟩ := candidate_cases moved own
    · exact .inl before
    · exact .inr ⟨same, (fresh _ drawn).2⟩
  have foreign {index : ℕ} {other : Call} {rival candidate : BatchRecord} (away : index ≠ position)
      (there : world.calls[index]? = some other) (theirs : rival ∈ other.candidate)
      (own : candidate ∈ call'.candidate) :
      rival.materializationToken ≠ candidate.materializationToken := by
    intro same
    obtain before | ⟨-, new⟩ := tokenOf own
    · exact away (sound.distinct index position other call there here rival theirs candidate before same)
    · exact new (same ▸ sound.drawn other (List.mem_of_getElem? there) rival theirs)
  refine ⟨effect.unique sound.unique, ?_, ?_, ?_, ?_, ?_⟩
  · intro other member
    obtain ⟨index, there⟩ := List.getElem?_of_mem (calls ▸ member)
    obtain ⟨-, rfl⟩ | ⟨-, there⟩ := calls_cases there
    · exact later
    · exact (sound.calls other (List.mem_of_getElem? there)).mono kept
  · intro other member candidate own identity stored same
    obtain ⟨index, there⟩ := List.getElem?_of_mem (calls ▸ member)
    obtain ⟨-, rfl⟩ | ⟨away, before'⟩ := calls_cases there
    · obtain before | ⟨left, new⟩ := tokenOf own
      · obtain earlier | ⟨added, mine, rfl⟩ := effect.identity_cases stored
        · exact sound.origin call listed candidate before identity earlier same
        · rw [Option.mem_unique mine before]
      · rw [left] at stored
        exact absurd (same ▸ sound.stored identity stored) new
    · have theirs := List.mem_of_getElem? before'
      obtain earlier | ⟨added, mine, rfl⟩ := effect.identity_cases stored
      · exact sound.origin other theirs candidate own identity earlier same
      · have equal := sound.distinct index position other call before' here candidate own added mine
          same.symm
        exact absurd equal away
  · intro identity stored
    obtain before | ⟨candidate, own, rfl⟩ := effect.identity_cases stored
    · exact known (sound.stored identity before)
    · exact known (sound.drawn call listed candidate own)
  · intro other member candidate own
    obtain ⟨index, there⟩ := List.getElem?_of_mem (calls ▸ member)
    obtain ⟨-, rfl⟩ | ⟨-, there⟩ := calls_cases there
    · obtain before | ⟨-, drawn⟩ := candidate_cases moved own
      · exact known (sound.drawn call listed candidate before)
      · rw [tokens]
        exact List.mem_append_left _ (Option.mem_toList.mpr drawn)
    · exact known (sound.drawn other (List.mem_of_getElem? there) candidate own)
  · intro first second one other there also candidate own rival theirs same
    rw [calls] at there also
    obtain ⟨atFirst, rfl⟩ | ⟨awayFirst, first'⟩ := calls_cases there
    · obtain ⟨atSecond, rfl⟩ | ⟨awaySecond, second'⟩ := calls_cases also
      · rw [atFirst, atSecond]
      · exact absurd same.symm (foreign awaySecond second' theirs own)
    · obtain ⟨atSecond, rfl⟩ | ⟨awaySecond, second'⟩ := calls_cases also
      · exact absurd same (foreign awayFirst first' own theirs)
      · exact sound.distinct first second one other first' second' candidate own rival theirs same

end Moving

theorem Sound.step (sound : world.Sound digests) {label : Label}
    (step : (system digests).step world label target) : target.Sound digests := by
  cases label with
  | submit request =>
      obtain rfl := Option.some.inj step
      exact sound.submit request
  | call position move => exact sound.call_step step
  | elsewhere store =>
      obtain ⟨same, ⟨⟩⟩ := Option.ite_none_right_eq_some.mp step
      exact sound.elsewhere same

theorem Sound.created_step (sound : world.Sound digests) {label : Label}
    (step : (system digests).step world label target) {position : ℕ} {call : Call}
    (here : world.calls[position]? = some call) (created : call.Created world.store) :
    ∃ call', target.calls[position]? = some call' ∧ call'.Created target.store ∧
      call'.request = call.request := by
  cases label with
  | submit request =>
      obtain rfl := Option.some.inj step
      obtain ⟨below, -⟩ := List.getElem?_eq_some_iff.mp here
      refine ⟨call, ?_, created, rfl⟩
      rw [List.getElem?_append_left below]
      exact here
  | call moving move =>
      obtain ⟨own, own', there, -, moved, calls, -⟩ := step_call step
      have listed := List.mem_of_getElem? there
      obtain ⟨effect, -⟩ := Call.next_sound (sound.calls own listed) (sound.origin own listed) moved
      have later := created.mono effect.identities_subset
      by_cases same : moving = position
      · subst same
        obtain rfl := Option.some.inj (there.symm.trans here)
        obtain ⟨below, -⟩ := List.getElem?_eq_some_iff.mp here
        refine ⟨own', by rw [calls, List.getElem?_set_self below], ?_⟩
        obtain ⟨request, candidate⟩ | ⟨token, parentToolCallID, -, planning, -, -⟩ :=
          Call.next_keeps moved
        · obtain ⟨built, mine, stored⟩ := later
          exact ⟨⟨built, candidate ▸ mine, stored⟩, request⟩
        · have unbuilt := (sound.calls own listed).phase
          rw [planning] at unbuilt
          obtain ⟨built, mine, -⟩ := created
          rw [unbuilt] at mine
          cases mine
      · refine ⟨call, ?_, later, rfl⟩
        rw [calls, List.getElem?_set_ne same]
        exact here
  | elsewhere store =>
      obtain ⟨same, ⟨⟩⟩ := Option.ite_none_right_eq_some.mp step
      exact ⟨call, here, created.mono (by rw [same]; exact List.Subset.refl _), rfl⟩

section Runs

variable {store : Store} {final : World} {before after : List Label}

theorem Sound.run (sound : world.Sound digests) (run : (system digests).Run world after final) :
    final.Sound digests :=
  run.preserves (World.Sound digests) (fun _ _ _ sound step => sound.step step) sound

theorem Sound.created_run (sound : world.Sound digests)
    (run : (system digests).Run world after final) {position : ℕ} {call : Call}
    (here : world.calls[position]? = some call) (created : call.Created world.store) :
    ∃ call', final.calls[position]? = some call' ∧ call'.Created final.store ∧
      call'.request = call.request := by
  have both := run.preserves
    (fun reached => reached.Sound digests ∧ ∃ call', reached.calls[position]? = some call' ∧
      call'.Created reached.store ∧ call'.request = call.request)
    (fun source label target known step => by
      obtain ⟨sound, call', there, created, request⟩ := known
      obtain ⟨later, found, stored, same⟩ := sound.created_step step there created
      exact ⟨sound.step step, later, found, stored, same.trans request⟩)
    ⟨sound, call, here, created, rfl⟩
  exact both.2

end Runs

end World

/-! ## What the calls guarantee -/

namespace Call

/-- The call has `owns_batch`, or executes its batch. -/
def Executes (call : Call) : Prop := call.ownsBatch ∨ call.phase = .executing

/-- The call was let through to a batch, its own or another's. -/
def Accepted (call : Call) : Prop :=
  call.Executes ∨ (∃ batch runs, call.phase = .observing batch runs) ∨ call.phase = .returned

/-- The call has the answer of the store with a batch in it. -/
def Answered (call : Call) : Prop :=
  (∃ batch, call.phase = .looking (some (some batch))) ∨
    (∃ batch created, call.phase = .creating (some ⟨some batch, created⟩)) ∨
    ∃ batch, call.phase = .rereading (some (some batch))

/-- The call raises because the submission diverged. -/
def Rejected (call : Call) : Prop :=
  call.phase = .raised .diverged ∨ call.phase = .settling .diverged

variable {call call' : Call} {store : Store}

theorem Sound.created_of_executes (sound : call.Sound digests store) (executes : call.Executes) :
    call.Created store := by
  obtain owns | executing := executes
  · exact sound.owns owns
  · have known := sound.phase
    rw [executing] at known
    exact sound.owns known.2

theorem Sound.matched_of_accepted (sound : call.Sound digests store) (accepted : call.Accepted) :
    call.Matched digests store := by
  have known := sound.phase
  obtain executes | ⟨batch, runs, observing⟩ | returned := accepted
  · exact sound.matched (sound.created_of_executes executes)
  · rw [observing] at known
    exact known
  · rw [returned] at known
    exact known

theorem materialized_rejected {result : BatchCreateResult}
    (foreign : ¬ (call.materialized digests result).Accepted) :
    (call.materialized digests result).Rejected := by
  revert foreign
  unfold materialized
  split
  · exact fun foreign => absurd (.inl (.inl rfl)) foreign
  · split
    · exact fun foreign => absurd (.inr (.inl ⟨_, _, rfl⟩)) foreign
    · exact fun _ => .inr rfl

theorem resume_rejected (answered : call.Answered) (step : call.resume digests = some call')
    (foreign : ¬ call'.Accepted) : call'.Rejected := by
  unfold resume at step
  obtain ⟨batch, here⟩ | ⟨batch, created, here⟩ | ⟨batch, here⟩ := answered
  · rw [here] at step
    dsimp only at step
    split at step
    · obtain rfl := Option.some.inj step
      exact absurd (.inr (.inl ⟨_, _, rfl⟩)) foreign
    · obtain rfl := Option.some.inj step
      exact .inl rfl
  · rw [here] at step
    obtain rfl := Option.some.inj step
    exact materialized_rejected foreign
  · rw [here] at step
    obtain ⟨candidate, -, step⟩ := Option.bind_eq_some_iff.mp step
    obtain rfl := Option.some.inj step
    exact materialized_rejected foreign

end Call

namespace World

/-- No two calls execute one batch. -/
def OneOwner (digests : Digests) (world : World) : Prop :=
  ∀ (first second : ℕ) (one other : Call), world.calls[first]? = some one →
    world.calls[second]? = some other → one.Executes → other.Executes →
    one.batchID digests = other.batchID digests → first = second

/-- A batch and its runs are the same in both stores. -/
def Untouched (store store' : Store) (batch : BatchRecord) : Prop :=
  batch ∈ store'.batches ∧ store'.listBatchRuns batch.batchID = store.listBatchRuns batch.batchID

variable {world target final : World}

theorem Sound.oneOwner (sound : world.Sound digests) : world.OneOwner digests := by
  intro first second one other here there executes also same
  have mine := (sound.calls one (List.mem_of_getElem? here)).created_of_executes executes
  have theirs := (sound.calls other (List.mem_of_getElem? there)).created_of_executes also
  exact sound.position_unique here there mine theirs same

theorem Sound.not_matched (sound : world.Sound digests) {call : Call} {batch : BatchRecord}
    (stored : batch.identity ∈ world.store.identities) (same : batch.batchID = call.batchID digests)
    (differs : batch.submissionFingerprint ≠ call.fingerprint digests) :
    ¬ call.Matched digests world.store := by
  rintro ⟨other, ⟨storedToo, sameID⟩, matched⟩
  have equal := sound.same_identity storedToo stored (sameID.trans same.symm)
  have fingerprints : other.submissionFingerprint = batch.submissionFingerprint :=
    congrArg (fun identity => identity.2.1) equal
  exact differs (fingerprints ▸ matched)

theorem Sound.effect_spares (sound : world.Sound digests) {call : Call} {store' : Store}
    (listed : call ∈ world.calls) (effect : call.Effect digests world.store store')
    (unowned : call.ownsBatch = false) {batch : BatchRecord} (stored : batch ∈ world.store.batches)
    (foreign : ∀ candidate ∈ call.candidate,
      batch.materializationToken ≠ candidate.materializationToken) :
    Untouched world.store store' batch := by
  cases effect with
  | idle => exact ⟨stored, rfl⟩
  | create own absent => exact ⟨List.mem_append_left _ stored, rfl⟩
  | execute owns write => simp [unowned] at owns
  | cancel created =>
      obtain ⟨candidate, own, storedToo⟩ := created
      refine Store.cancelBatch_spares stored fun same => ?_
      have sameID := ((sound.calls call listed).candidate candidate own).1
      have equal := sound.same_identity (Store.mem_identities stored) storedToo
        (same.trans sameID.symm)
      exact foreign candidate own (congrArg (fun identity => identity.2.2) equal)

/-- **Duplicate submissions have one owner.** In every run, whatever was interrupted: no two
calls execute one batch, and while one does, no step of another call of that batch changed
the store. A call that owns nothing, its late requests and the task behind it included,
touches no batch that carries another token than its candidate. And a call whose batch is
stored with another fingerprint changes nothing, is let through to nothing, and is rejected
by the first answer that shows it the batch. -/
theorem single_owner {store : Store} (unique : (store.batches.map BatchRecord.batchID).Nodup)
    {before after : List Label} {position : ℕ} {move : Move}
    (run : (system digests).Run (opening store) before world)
    (step : (system digests).step world (.call position move) target)
    (rest : (system digests).Run target after final) :
    ∃ call call', world.calls[position]? = some call ∧ target.calls[position]? = some call' ∧
      final.OneOwner digests ∧
      (∀ (owner : ℕ) (other : Call), final.calls[owner]? = some other → other.Executes →
        other.batchID digests = call.batchID digests → owner ≠ position →
          target.store = world.store) ∧
      (call.ownsBatch = false → ∀ batch ∈ world.store.batches,
        (∀ candidate ∈ call.candidate,
          batch.materializationToken ≠ candidate.materializationToken) →
        Untouched world.store target.store batch) ∧
      ∀ batch ∈ world.store.batches, batch.batchID = call.batchID digests →
        batch.submissionFingerprint ≠ call.fingerprint digests →
        target.store = world.store ∧ ¬ call'.Accepted ∧
          (move = .resume → call.Answered → call'.Rejected) := by
  have sound : world.Sound digests := (opening_sound unique).run run
  have later := sound.step step
  obtain ⟨call, call', here, fresh, moved, calls, -⟩ := step_call step
  have listed := List.mem_of_getElem? here
  obtain ⟨below, -⟩ := List.getElem?_eq_some_iff.mp here
  have there : target.calls[position]? = some call' := by
    rw [calls, List.getElem?_set_self below]
  obtain ⟨effect, known⟩ :=
    Call.next_sound (sound.calls call listed) (sound.origin call listed) moved
  have request := Call.next_request moved
  have changed := Call.created_of_changed (sound.calls call listed) (sound.origin call listed) moved
  have ended := later.run rest
  refine ⟨call, call', here, there, ended.oneOwner, ?_, ?_, ?_⟩
  · intro owner other found executes same away
    by_contra different
    obtain ⟨last, lastFound, mine, lastRequest⟩ := later.created_run rest there (changed different)
    have theirs := (ended.calls other (List.mem_of_getElem? found)).created_of_executes executes
    have lastID : last.batchID digests = call.batchID digests := by
      rw [Call.batchID, lastRequest, request, Call.batchID]
    exact away (ended.position_unique found lastFound theirs mine (same.trans lastID.symm))
  · exact fun unowned batch stored foreign => sound.effect_spares listed effect unowned stored foreign
  · intro batch stored same differs
    have unmatched : ¬ call'.Matched digests target.store := by
      apply later.not_matched (effect.identities_subset (Store.mem_identities stored))
      · rw [same, Call.batchID, Call.batchID, request]
      · rwa [Call.fingerprint, request, ← Call.fingerprint]
    have foreign : ¬ call'.Accepted := fun accepted => unmatched (known.matched_of_accepted accepted)
    refine ⟨?_, foreign, ?_⟩
    · by_contra different
      exact unmatched (known.matched (changed different))
    · rintro rfl answered
      obtain ⟨resumed, resume, both⟩ := Option.map_eq_some_iff.mp moved
      obtain ⟨-, rfl⟩ := Prod.mk.inj both
      exact Call.resume_rejected answered resume foreign

section Duplicates

def duplicate : Request :=
  { submissionID := "turn-1", submissionSource := "chat",
    prepared := { tasks := [.obj [("goal", .str "book")]], joinStrategy := "partial_ok" } }

def duplicateDigests : Digests where
  sha256 text :=
    if text = "turn-1" then "974cad2dd603827b06e9e6affa3de03db5af2c12c045db679a7b1bef42b41a1c"
    else "902a0312796348b6589f0586de7c4e885d567a89766e50ecd166c08491d1b6dc"
  dumps _ :=
    "\x7b\"join_strategy\":\"partial_ok\",\"submission_source\":\"chat\",\"tasks\":[\x7b\"goal\":\"book\"\x7d]\x7d"

/-- Both calls miss the batch and offer a candidate, and the first is stored. -/
def bothOffer : List Label :=
  [.submit duplicate, .submit duplicate,
    .call 0 (.serve true), .call 1 (.serve true), .call 0 .resume, .call 1 .resume,
    .call 0 (.projected 10), .call 1 (.projected 11), .call 0 (.planned "a"), .call 1 (.planned "b"),
    .call 0 (.serve true), .call 0 .resume]

/-- The world in which the first call owns the batch and the second has offered its own. -/
def offered : World := System.after (next duplicateDigests) (opening ⟨[], []⟩) bothOffer

def conflicted : World :=
  (next duplicateDigests offered (.call 1 (.serve true))).getD offered

theorem single_owner_of_conflict :
    conflicted.store = offered.store ∧
      (System.after (next duplicateDigests) conflicted [.call 1 .resume]).OneOwner
        duplicateDigests := by
  have run : (system duplicateDigests).Run (opening ⟨[], []⟩) bothOffer offered :=
    System.Run.ofNext (by decide)
  have step : (system duplicateDigests).step offered (.call 1 (.serve true)) conflicted :=
    System.step_ofNext _ _ _ (by decide)
  have rest : (system duplicateDigests).Run conflicted [.call 1 .resume]
      (System.after (next duplicateDigests) conflicted [.call 1 .resume]) :=
    System.Run.ofNext (by decide)
  obtain ⟨call, call', here, -, one, others, -, -⟩ := single_owner (by decide) run step rest
  have second : offered.calls[1]?.map (Call.batchID duplicateDigests) =
      some "batch-974cad2dd603827b06e9e6af" := by decide
  have first : (System.after (next duplicateDigests) conflicted [.call 1 .resume]).calls[0]?.map
      (fun call => (call.ownsBatch, call.batchID duplicateDigests)) =
        some (true, "batch-974cad2dd603827b06e9e6af") := by decide
  obtain ⟨owner, found, both⟩ := Option.map_eq_some_iff.mp first
  obtain ⟨owns, ownID⟩ := Prod.mk.inj both
  rw [here] at second
  exact ⟨others 0 owner found (.inl owns) (ownID.trans (Option.some.inj second).symm) (by decide), one⟩

end Duplicates

end World

end Sico.TaskRuntime.Submission

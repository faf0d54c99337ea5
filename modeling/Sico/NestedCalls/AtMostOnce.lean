import Sico.NestedCalls.Invariants

/-! # Nested calls take effect at most once

The executor is started for a child by the one invocation whose creation stored it, and once.
Every other invocation of the same child comes back with a failure, or with the result that
the child recorded for the same call.

Only the creator of a child has a say in it, except where the creation of another invocation
failed and is cleaned up: a creation that collides behind an invocation that was cancelled is
cleaned up as if it had gone through, and a cancellation behind a creation that failed can
come after the creation of another.
-/

namespace Sico.NestedCalls

open Foundation AgentLoop TaskRuntime

variable {Value : Type} [DecidableEq Value] {parent : Parent Value}

namespace World

variable {saw saw' : String → TaskDetail Value → Prop} {world target final : World Value}
  {labels : List (Label Value)}

/-- Every invocation is sound, each child has at most one creator, and the executor was started
once for each child it was started for. -/
structure Sound (parent : Parent Value) (saw : String → TaskDetail Value → Prop) (world : World Value) :
    Prop where
  invocations : ∀ invocation ∈ world.invocations, invocation.Sound parent saw world.store
  unique : ∀ (first second : ℕ) (one other : Invocation Value), world.invocations[first]? = some one →
    world.invocations[second]? = some other → one.write.created = true → other.write.created = true →
      one.runID parent = other.runID parent → first = second
  once : world.executions.Nodup
  started : ∀ runID ∈ world.executions, ∃ invocation ∈ world.invocations,
    invocation.started = true ∧ invocation.runID parent = runID

theorem step_invocation {position : ℕ} {move : Move}
    (step : (system parent).step world (.invocation position move) target) :
    ∃ invocation invocation', world.invocations[position]? = some invocation ∧
      invocation.next parent world.store move = some (target.store, invocation') ∧
      target.invocations = world.invocations.set position invocation' ∧
      target.executions =
        if move.isStart then world.executions ++ [invocation'.runID parent] else world.executions := by
  obtain ⟨invocation, here, step⟩ := Option.bind_eq_some_iff.mp step
  obtain ⟨⟨store, invocation'⟩, moved, step⟩ := Option.bind_eq_some_iff.mp step
  obtain rfl := Option.some.inj step
  exact ⟨invocation, invocation', here, moved, rfl, rfl⟩

theorem opening_sound (store : Store Value) : (opening store).Sound parent saw where
  invocations invocation listed := by cases listed
  unique first second one other here := by cases here
  once := List.nodup_nil
  started runID listed := by cases listed

theorem Sound.invoke (sound : world.Sound parent saw) (call : CapabilityCall Value) :
    Sound parent saw { world with invocations := world.invocations ++ [Invocation.begin call] } where
  invocations := by
    intro invocation listed
    obtain earlier | latest := List.mem_append.mp listed
    · exact sound.invocations invocation earlier
    · obtain rfl := List.mem_singleton.mp latest
      exact Invocation.sound_begin call
  unique := by
    intro first second one other here there created also same
    dsimp only at here there
    -- an invocation that has just begun created nothing
    have earlier (position : ℕ) (invocation : Invocation Value)
        (found : (world.invocations ++ [Invocation.begin call])[position]? = some invocation)
        (created : invocation.write.created = true) : world.invocations[position]? = some invocation := by
      rw [List.getElem?_append] at found
      split at found
      · exact found
      · have latest := List.mem_of_getElem? found
        rw [List.mem_singleton.mp latest] at created
        cases created
    exact sound.unique first second one other (earlier first one here created) (earlier second other there also)
      created also same
  once := sound.once
  started := by
    intro runID listed
    obtain ⟨invocation, member, rest⟩ := sound.started runID listed
    exact ⟨invocation, List.mem_append_left _ member, rest⟩

theorem Sound.update (sound : world.Sound parent saw) (runID : String) (status : Status)
    (result : Option TaskResult) :
    Sound parent saw { world with store := world.store.update runID status result } where
  invocations invocation listed :=
    (sound.invocations invocation listed).grow (Store.grows_update runID status result)
  unique := sound.unique
  once := sound.once
  started := sound.started

omit [DecidableEq Value] in
theorem invocations_cases {invocations : List (Invocation Value)} {position index : ℕ}
    {invocation found : Invocation Value} (here : (invocations.set position invocation)[index]? = some found) :
    index = position ∧ found = invocation ∨ index ≠ position ∧ invocations[index]? = some found := by
  rw [List.getElem?_set] at here
  split at here
  · next same =>
      split at here
      · exact .inl ⟨same.symm, (Option.some.inj here).symm⟩
      · cases here
  · next other => exact .inr ⟨Ne.symm other, here⟩

omit [DecidableEq Value] in
theorem mem_set_cases {invocations : List (Invocation Value)} {position : ℕ}
    {moved invocation' invocation : Invocation Value} (here : invocations[position]? = some moved) (listed : invocation ∈ invocations) :
    invocation = moved ∨ invocation ∈ invocations.set position invocation' := by
  obtain ⟨index, found⟩ := List.mem_iff_getElem?.mp listed
  by_cases same : index = position
  · subst same
    rw [here] at found
    exact .inl (Option.some.inj found).symm
  · right
    apply List.mem_of_getElem? (i := index)
    rw [List.getElem?_set_ne (Ne.symm same), found]

section Steps

variable {position : ℕ} {move : Move} {invocation invocation' : Invocation Value} {store' : Store Value}

theorem Sound.creator (sound : world.Sound parent saw) (here : world.invocations[position]? = some invocation)
    (advances : invocation.Advances parent saw world.store move invocation' store')
    {index : ℕ} {other : Invocation Value} (there : world.invocations[index]? = some other)
    (also : other.write.created = true) (created : invocation'.write.created = true)
    (same : invocation'.runID parent = other.runID parent) : position = index := by
  have sameID : invocation.runID parent = other.runID parent := by
    rw [← same, Invocation.runID, Invocation.runID, advances.call]
  rcases advances.created created with before | ⟨-, absent⟩
  · exact sound.unique position index invocation other here there before also sameID
  · obtain ⟨child, own, run, found, -⟩ := (sound.invocations other (List.mem_of_getElem? there)).stored also
    rw [← sameID, absent] at found
    cases found

theorem Sound.unstarted (sound : world.Sound parent saw) (here : world.invocations[position]? = some invocation)
    (stored : invocation.write = .stored) (notStarted : invocation.started = false) :
    invocation.runID parent ∉ world.executions := by
  intro listed
  obtain ⟨other, member, started, sameID⟩ := sound.started _ listed
  obtain ⟨index, there⟩ := List.mem_iff_getElem?.mp member
  have created : invocation.write.created = true := by rw [stored]; rfl
  have also : other.write.created = true := by rw [(sound.invocations other member).started started]; rfl
  have same := sound.unique index position other invocation there here also created sameID
  rw [same, here] at there
  cases there
  rw [notStarted] at started
  cases started

theorem Sound.advance (sound : world.Sound parent saw) (here : world.invocations[position]? = some invocation)
    (advances : invocation.Advances parent saw world.store move invocation' store') :
    Sound parent saw
      { store := store'
        invocations := world.invocations.set position invocation'
        executions := if move.isStart then world.executions ++ [invocation'.runID parent] else world.executions } where
  invocations := by
    intro other listed
    obtain ⟨index, found⟩ := List.mem_iff_getElem?.mp listed
    obtain ⟨-, rfl⟩ | ⟨-, there⟩ := invocations_cases found
    · exact advances.sound
    · exact (sound.invocations other (List.mem_of_getElem? there)).grow advances.effect.grows
  unique := by
    intro first second one other found found' created also same
    obtain ⟨rfl, rfl⟩ | ⟨-, there⟩ := invocations_cases found
    · obtain ⟨rfl, -⟩ | ⟨-, there'⟩ := invocations_cases found'
      · rfl
      · exact sound.creator here advances there' also created same
    · obtain ⟨rfl, rfl⟩ | ⟨-, there'⟩ := invocations_cases found'
      · exact (sound.creator here advances there created also same.symm).symm
      · exact sound.unique first second one other there there' created also same
  once := by
    dsimp only
    split
    · next isStart =>
        obtain ⟨stored, notStarted⟩ := advances.ready isStart
        have new := sound.unstarted here stored notStarted
        rw [Invocation.runID, advances.call]
        exact List.nodup_append.mpr ⟨sound.once, List.nodup_singleton _, fun runID listed other isNew same => by
          rw [same, List.mem_singleton.mp isNew] at listed
          exact new listed⟩
    · exact sound.once
  started := by
    intro runID listed
    dsimp only at listed ⊢
    have below := (List.getElem?_eq_some_iff.mp here).1
    have moved : invocation' ∈ world.invocations.set position invocation' := List.mem_set below invocation'
    have old : ∀ runID ∈ world.executions, ∃ other ∈ world.invocations.set position invocation',
        other.started = true ∧ other.runID parent = runID := by
      intro runID listed
      obtain ⟨other, member, started, sameID⟩ := sound.started runID listed
      rcases mem_set_cases here member with rfl | stays
      · refine ⟨invocation', moved, ?_, ?_⟩
        · rw [advances.started, started, Bool.true_or]
        · rw [← sameID, Invocation.runID, Invocation.runID, advances.call]
      · exact ⟨other, stays, started, sameID⟩
    split at listed
    · next isStart =>
        rcases List.mem_append.mp listed with earlier | latest
        · exact old runID earlier
        · refine ⟨invocation', moved, ?_, (List.mem_singleton.mp latest).symm⟩
          rw [advances.started, isStart, Bool.or_true]
    · exact old runID listed

end Steps

theorem Sound.mono (sound : world.Sound parent saw)
    (more : ∀ runID detail, saw runID detail → saw' runID detail) : world.Sound parent saw' where
  invocations invocation listed := (sound.invocations invocation listed).mono (fun _ _ records => records) more
  unique := sound.unique
  once := sound.once
  started := sound.started

theorem Sound.step (sound : world.Sound parent saw)
    (covers : ∀ runID detail, world.store.getTaskDetail runID = some detail → saw runID detail)
    {label : Label Value} (step : (system parent).step world label target) : target.Sound parent saw := by
  cases label with
  | invoke call =>
      obtain rfl := Option.some.inj step
      exact sound.invoke call
  | elsewhere runID status result =>
      obtain rfl := Option.some.inj step
      exact sound.update runID status result
  | invocation position move =>
      obtain ⟨invocation, invocation', here, moved, invocations, executions⟩ := step_invocation step
      have advances := (sound.invocations invocation (List.mem_of_getElem? here)).next (covers _) moved
      have after := sound.advance here advances
      rwa [← invocations, ← executions] at after

/-- The store showed the detail at some moment of the run. -/
def Witnessed (parent : Parent Value) (start : World Value) (labels : List (Label Value)) (runID : String)
    (detail : TaskDetail Value) : Prop :=
  ∃ before after middle, labels = before ++ after ∧ (system parent).Run start before middle ∧
    middle.store.getTaskDetail runID = some detail

theorem Witnessed.snoc {start : World Value} {runID : String} {detail : TaskDetail Value}
    (witnessed : Witnessed parent start labels runID detail) (label : Label Value) :
    Witnessed parent start (labels ++ [label]) runID detail := by
  obtain ⟨before, after, middle, rfl, run, shown⟩ := witnessed
  exact ⟨before, after ++ [label], middle, List.append_assoc _ _ _, run, shown⟩

theorem Sound.grows (sound : world.Sound parent saw)
    (covers : ∀ runID detail, world.store.getTaskDetail runID = some detail → saw runID detail)
    {label : Label Value} (step : (system parent).step world label target) :
    Store.Grows world.store target.store := by
  cases label with
  | invoke call =>
      obtain rfl := Option.some.inj step
      exact fun _ _ records => records
  | elsewhere runID status result =>
      obtain rfl := Option.some.inj step
      exact Store.grows_update runID status result
  | invocation position move =>
      obtain ⟨invocation, invocation', here, moved, -, -⟩ := step_invocation step
      exact ((sound.invocations invocation (List.mem_of_getElem? here)).next (covers _) moved).effect.grows

/-- The store showed the detail, and still records the call that it is of. -/
def Shown (parent : Parent Value) (start : World Value) (labels : List (Label Value)) (world : World Value)
    (runID : String) (detail : TaskDetail Value) : Prop :=
  Witnessed parent start labels runID detail ∧ Store.Records world.store runID detail.spec

theorem sound_run {store : Store Value} (run : (system parent).Run (opening store) labels world) :
    world.Sound parent (Shown parent (opening store) labels world) := by
  induction run with
  | nil => exact opening_sound store
  | @snoc labels world target label before step ih =>
      have covers : ∀ runID detail, world.store.getTaskDetail runID = some detail →
          Shown parent (opening store) labels world runID detail := by
        intro runID detail shown
        exact ⟨⟨labels, [], world, (List.append_nil labels).symm, before, shown⟩, Store.records_of_detail shown⟩
      apply (ih.step covers step).mono
      intro runID detail shown
      exact ⟨shown.1.snoc label, ih.grows covers step _ _ shown.2⟩

end World

section Cleanups

/-- `IdempotencyCollisionError` was raised. -/
def Write.isCollided : Write → Bool
  | .collided _ => true
  | _ => false

/-- Another exception was raised, and nothing is stored. -/
def Write.isLost : Write → Bool
  | .faulted kept _ => !kept
  | _ => false

def Phase.isCreating : Phase Value → Bool
  | .creating => true
  | _ => false

def Phase.isSettling : Phase Value → Bool
  | .settling => true
  | _ => false

namespace Invocation

variable {saw : String → TaskDetail Value → Prop} {invocation invocation' : Invocation Value}
  {store store' : Store Value} {move : Move}

/-- The await is a cancellation that was not served, or leads to one. -/
def LeadsToCancel (write : Write) : Phase Value → Prop
  | .creating => write.isLost
  | .settling => write ≠ .pending
  | .cleaning _ served => served = false
  | _ => False

instance LeadsToCancel.decidable (write : Write) : (phase : Phase Value) → Decidable (LeadsToCancel write phase)
  | .creating => inferInstanceAs (Decidable (write.isLost = true))
  | .settling => inferInstanceAs (Decidable (write ≠ .pending))
  | .cleaning _ served => inferInstanceAs (Decidable (served = false))
  | .resolving | .looking _ | .preparing | .executing | .stopping _ | .reconciling _ _ | .abandoning _ _
  | .finishing _ | .returned _ | .raised => .isFalse id

/-- The invocation cancels, or is about to cancel, a child that it did not create. -/
def Cleans (invocation : Invocation Value) : Prop :=
  invocation.write.created = false ∧
    (invocation.lateCancels ≠ 0 ∨ LeadsToCancel invocation.write invocation.phase)

instance Cleans.decidable (invocation : Invocation Value) : Decidable invocation.Cleans :=
  inferInstanceAs (Decidable (_ ∧ _))

omit [DecidableEq Value] in
theorem not_cleans_begin (call : CapabilityCall Value) : ¬ (begin call).Cleans := by
  rintro ⟨-, late | leads⟩
  · exact late rfl
  · unfold begin at leads
    dsimp only at leads
    split at leads <;> exact leads

theorem Sound.created_of_started (sound : invocation.Sound parent saw store) (started : invocation.started = true) :
    invocation.write.created = true := by
  rw [sound.started started]
  rfl

theorem Sound.cleans_of_mayCancel (sound : invocation.Sound parent saw store) (mayCancel : invocation.MayCancel)
    (uncreated : invocation.write.created = false) : invocation.Cleans := by
  have phase := sound.phase
  refine ⟨uncreated, ?_⟩
  rcases mayCancel with ⟨cause, here⟩ | here | ⟨message, here⟩ | late
  · right
    rw [here]
    rfl
  · rw [here] at phase
    rw [sound.created_of_started phase] at uncreated
    cases uncreated
  · rw [here] at phase
    rw [sound.created_of_started phase] at uncreated
    cases uncreated
  · exact .inl late

omit [DecidableEq Value] in
theorem Cleans.of_turn {phase : Phase Value} (cleans : ({ invocation with phase } : Invocation Value).Cleans)
    (leads : invocation.write.created = false → LeadsToCancel invocation.write phase →
      LeadsToCancel invocation.write invocation.phase) : invocation.Cleans := by
  obtain ⟨uncreated, late | here⟩ := cleans
  · exact ⟨uncreated, .inl late⟩
  · exact ⟨uncreated, .inr (leads uncreated here)⟩

omit [DecidableEq Value] in
theorem not_leads_cleaned {call : CapabilityCall Value} {cause : Cause} {write : Write} :
    ¬ LeadsToCancel write (cleaned parent call cause) := by
  cases cause with
  | cancelled => exact id
  | fault message => exact id

omit [DecidableEq Value] in
theorem Cleans.of_cutShort {served : Bool} {phase : Phase Value} (cleans : (invocation.cutShort served phase).Cleans)
    (ends : ¬ LeadsToCancel invocation.write phase)
    (leads : invocation.write.created = false → served = false → LeadsToCancel invocation.write invocation.phase) :
    invocation.Cleans := by
  obtain ⟨uncreated, late | here⟩ := cleans
  · refine ⟨uncreated, ?_⟩
    cases served with
    | false => exact .inr (leads uncreated rfl)
    | true => exact .inl late
  · exact absurd here ends

theorem Sound.cleans_of_resume (sound : invocation.Sound parent saw store)
    (step : invocation.resume parent = some invocation') (cleans : invocation'.Cleans) : invocation.Cleans := by
  have phase := sound.phase
  unfold Invocation.resume at step
  split at step <;> rename_i here <;> try rw [here] at phase
  · cases step
    obtain ⟨-, late | lost⟩ := cleans
    · exact absurd phase.1 (sound.late late).1
    · exact absurd lost Bool.false_ne_true
  · obtain ⟨child, own, step⟩ := Option.bind_eq_some_iff.mp step
    cases step
    exact cleans.of_turn fun _ => False.elim
  · split at step <;> rename_i sent <;> cases step
    · exact cleans.of_turn fun _ => False.elim
    · exact cleans.of_turn fun _ => False.elim
    · apply cleans.of_turn
      intro uncreated _
      rw [here]
      rw [sent] at uncreated ⊢
      exact (congrArg Bool.not uncreated :)
  · split at step <;> rename_i sent <;> cases step
    apply cleans.of_turn
    intro _ _
    rw [here]
    exact sent
  · cases step
    exact cleans.of_turn fun _ leads => absurd leads not_leads_cleaned
  · cases step
    exact cleans.of_turn fun _ => False.elim
  · split at step <;> cases step <;> exact cleans.of_turn fun _ => False.elim
  · cases step
    exact cleans.of_turn fun _ => False.elim
  · cases step
    exact cleans.of_turn fun _ => False.elim
  · cases step

theorem Sound.cleans_of_fail (sound : invocation.Sound parent saw store) {message : String}
    (step : invocation.fail parent message = some invocation') (cleans : invocation'.Cleans) :
    invocation.Cleans := by
  have phase := sound.phase
  unfold Invocation.fail at step
  split at step <;> rename_i here <;> cases step <;> rw [here] at phase
  · exact cleans.of_turn fun _ => False.elim
  · exact cleans.of_turn fun _ => False.elim
  · exact cleans.of_cutShort not_leads_cleaned fun _ unserved => here ▸ unserved
  · exact cleans.of_turn fun _ => False.elim
  · exact cleans.of_cutShort id fun uncreated => by simp [sound.created_of_started phase] at uncreated
  · exact cleans.of_turn fun _ => False.elim
  · exact cleans.of_cutShort id fun uncreated => by simp [sound.created_of_started phase] at uncreated

theorem Sound.cleans_of_cancel (sound : invocation.Sound parent saw store)
    (step : invocation.cancel parent = some invocation') (cleans : invocation'.Cleans) :
    invocation.Cleans ∨ invocation.phase.isCreating ∧ invocation.write.isCollided := by
  have phase := sound.phase
  unfold Invocation.cancel at step
  split at step <;> rename_i here <;> cases step <;> rw [here] at phase
  · exact .inl (cleans.of_turn fun _ => False.elim)
  · exact .inl (cleans.of_turn fun _ => False.elim)
  · exact .inl (cleans.of_turn fun _ => False.elim)
  · exact .inl (cleans.of_turn fun _ => False.elim)
  · exact .inl (cleans.of_turn fun _ => False.elim)
  · obtain ⟨uncreated, late | done⟩ := cleans
    · exact .inl ⟨uncreated, .inl late⟩
    · cases sent : invocation.write with
      | unsent => exact absurd sent phase.1
      | pending => exact absurd sent done
      | stored =>
          dsimp only at uncreated
          rw [sent] at uncreated
          cases uncreated
      | collided message => exact .inr ⟨here ▸ rfl, rfl⟩
      | faulted kept message =>
          dsimp only at uncreated
          rw [sent] at uncreated
          refine .inl ⟨sent ▸ uncreated, .inr ?_⟩
          rw [here, sent]
          exact (congrArg Bool.not uncreated :)
  · exact .inl (cleans.of_turn fun _ leads => here ▸ leads)
  · exact .inl (cleans.of_cutShort not_leads_cleaned fun _ unserved => here ▸ unserved)
  · exact .inl (cleans.of_turn fun _ => False.elim)
  · exact .inl (cleans.of_cutShort id fun uncreated => by simp [sound.created_of_started phase] at uncreated)
  · exact .inl (cleans.of_cutShort id fun uncreated => by simp [sound.created_of_started phase] at uncreated)

/-- The move begins a cleanup behind a creation that stored nothing. -/
def BeginsCleanup (parent : Parent Value) (store : Store Value) (invocation : Invocation Value) : Move → Prop
  | .createServed _ => invocation.phase.isSettling ∧ (store.get? (invocation.runID parent)).isSome
  | .createFaulted kept _ => kept = false ∧ (store.get? (invocation.runID parent)).isNone
  | .cancel => invocation.phase.isCreating ∧ invocation.write.isCollided
  | _ => False

instance BeginsCleanup.decidable (parent : Parent Value) (store : Store Value) (invocation : Invocation Value) :
    (move : Move) → Decidable (BeginsCleanup parent store invocation move)
  | .createServed _ | .createFaulted _ _ | .cancel => inferInstanceAs (Decidable (_ ∧ _))
  | .resolved _ | .serve | .resume | .fail _ | .start | .execute _ _ | .finish _ | .lateCancel => .isFalse id

/-- A cleanup behind a creation that has just been served: the invocation was cancelled, or the
creation failed. -/
theorem Sound.cleans_of_create (sound : invocation.Sound parent saw store) {write : Write}
    (step : invocation.create parent store write = some (store', invocation')) (cleans : invocation'.Cleans) :
    write.created = false ∧ (invocation.phase.isSettling ∨ write.isLost) := by
  have phase := sound.phase
  obtain ⟨child, own, step⟩ := Option.bind_eq_some_iff.mp step
  split at step
  · next pending =>
      have done : ({ invocation with write } : Invocation Value).Cleans := by
        split at step <;> cases step <;> exact cleans
      obtain ⟨uncreated, late | leads⟩ := done
      · exact absurd pending (sound.late late).2
      · refine ⟨uncreated, ?_⟩
        cases here : invocation.phase with
        | settling => exact .inl rfl
        | creating =>
            dsimp only at leads
            rw [here] at leads
            exact .inr leads
        | cleaning cause served =>
            rw [here] at phase
            exact absurd pending phase.2.1
        | _ =>
            dsimp only at leads
            rw [here] at leads
            exact leads.elim
  · cases step

theorem Sound.cleans_of_next (sound : invocation.Sound parent saw store)
    (step : invocation.next parent store move = some (store', invocation')) (cleans : invocation'.Cleans) :
    invocation.Cleans ∨ invocation.BeginsCleanup parent store move := by
  have phase := sound.phase
  cases move with
  | resolved descriptor =>
      unfold Invocation.next at step
      dsimp only at step
      split at step
      · cases step
        exact .inl (cleans.of_turn fun _ => False.elim)
      · obtain ⟨capabilityID, -, step⟩ := Option.bind_eq_some_iff.mp step
        cases step
        obtain ⟨uncreated, late | leads⟩ := cleans
        · exact .inl ⟨uncreated, .inl late⟩
        · exact leads.elim
      · cases step
  | serve =>
      unfold Invocation.next Invocation.serve at step
      dsimp only at step
      split at step <;> cases step
      · exact .inl (cleans.of_turn fun _ => False.elim)
      · exact .inl (cleans.of_turn fun _ served => Bool.noConfusion served)
      · exact .inl (cleans.of_turn fun _ => False.elim)
      · exact .inl (cleans.of_turn fun _ => False.elim)
      · exact .inl (cleans.of_turn fun _ => False.elim)
  | resume =>
      obtain ⟨turned, resumes, both⟩ := Option.map_eq_some_iff.mp step
      cases both
      exact .inl (sound.cleans_of_resume resumes cleans)
  | fail message =>
      obtain ⟨turned, fails, both⟩ := Option.map_eq_some_iff.mp step
      cases both
      exact .inl (sound.cleans_of_fail fails cleans)
  | cancel =>
      obtain ⟨turned, cancels, both⟩ := Option.map_eq_some_iff.mp step
      cases both
      exact sound.cleans_of_cancel cancels cleans
  | createServed message =>
      obtain ⟨uncreated, settling | lost⟩ := sound.cleans_of_create step cleans
      · refine .inr ⟨settling, ?_⟩
        by_contra absent
        rw [if_neg absent] at uncreated
        cases uncreated
      · split at lost <;> cases lost
  | createFaulted kept message =>
      unfold Invocation.next at step
      dsimp only at step
      split at step
      · cases step
      · next absent =>
          obtain ⟨lost, -⟩ := sound.cleans_of_create step cleans
          exact .inr ⟨lost, by simpa using absent⟩
  | start =>
      unfold Invocation.next at step
      dsimp only at step
      split at step
      · cases step
        exact .inl (cleans.of_turn fun _ => False.elim)
      · cases step
  | execute status result =>
      unfold Invocation.next at step
      dsimp only at step
      split at step <;> cases step
      exact .inl cleans
  | finish result =>
      unfold Invocation.next at step
      dsimp only at step
      split at step
      · cases step
        exact .inl (cleans.of_turn fun _ => False.elim)
      · cases step
  | lateCancel =>
      unfold Invocation.next at step
      dsimp only at step
      split at step
      · cases step
      · next late =>
          cases step
          exact .inl ⟨cleans.1, .inl late⟩

end Invocation

end Cleanups

namespace World

variable {saw : String → TaskDetail Value → Prop} {world target : World Value} {label : Label Value}

/-- Where a cleanup begins, no run of the child is queued or running, and no child is stored
while another invocation cleans up behind its own creation of that child. -/
def Careful (parent : Parent Value) (world : World Value) : Label Value → Prop
  | .invocation position move => ∀ invocation, world.invocations[position]? = some invocation →
      (invocation.BeginsCleanup parent world.store move → world.store.Calm (invocation.runID parent)) ∧
      (move.stores → world.store.get? (invocation.runID parent) = none →
        ∀ other ∈ world.invocations, other.runID parent = invocation.runID parent → ¬ other.Cleans)
  | _ => True

instance Careful.decidable (parent : Parent Value) (world : World Value) :
    (label : Label Value) → Decidable (Careful parent world label)
  | .invocation position move => inferInstanceAs (Decidable (∀ invocation ∈ world.invocations[position]?,
      (invocation.BeginsCleanup parent world.store move → world.store.Calm (invocation.runID parent)) ∧
      (move.stores → world.store.get? (invocation.runID parent) = none →
        ∀ other ∈ world.invocations, other.runID parent = invocation.runID parent → ¬ other.Cleans)))
  | .invoke _ | .elsewhere _ _ _ => .isTrue trivial

/-- A child that is cancelled by an invocation that did not create it is not queued or running. -/
def Quiet (parent : Parent Value) (world : World Value) : Prop :=
  ∀ invocation ∈ world.invocations, invocation.Cleans → world.store.Calm (invocation.runID parent)

section Advance

variable {position : ℕ} {move : Move} {invocation invocation' : Invocation Value}

theorem Quiet.advance_self (quiet : world.Quiet parent) (sound : world.Sound parent saw)
    (careful : Careful parent world (.invocation position move))
    (here : world.invocations[position]? = some invocation)
    (moved : invocation.next parent world.store move = some (target.store, invocation'))
    (advances : invocation.Advances parent saw world.store move invocation' target.store)
    (cleans : invocation'.Cleans) : target.store.Calm (invocation'.runID parent) := by
  have member := List.mem_of_getElem? here
  have calm : world.store.Calm (invocation.runID parent) := by
    rcases (sound.invocations invocation member).cleans_of_next moved cleans with before | begins
    · exact quiet invocation member before
    · exact (careful invocation here).1 begins
  have sameID : invocation'.runID parent = invocation.runID parent := by
    rw [Invocation.runID, Invocation.runID, advances.call]
  rw [sameID]
  generalize target.store = store' at advances
  cases advances.effect with
  | idle => exact calm
  | create child own pending absent created =>
      rw [cleans.1] at created
      cases created
  | execute started status result => exact calm.update status result
  | cancel mayCancel => exact calm.cancelRun

theorem Quiet.advance_other (quiet : world.Quiet parent)
    (careful : Careful parent world (.invocation position move))
    (here : world.invocations[position]? = some invocation)
    (advances : invocation.Advances parent saw world.store move invocation' target.store)
    {other : Invocation Value} (listed : other ∈ world.invocations) (cleans : other.Cleans) :
    target.store.Calm (other.runID parent) := by
  have calm := quiet other listed cleans
  generalize target.store = store' at advances
  cases advances.effect with
  | idle => exact calm
  | create child own pending absent created =>
      have stores : move.stores := by
        rcases advances.created created with before | ⟨stores, -⟩
        · rw [pending] at before
          cases before
        · exact stores
      have different : other.runID parent ≠ invocation.runID parent := by
        intro sameID
        exact (careful invocation here).2 stores absent other listed sameID cleans
      intro run found
      rw [Dict.get?_set, if_neg different] at found
      exact calm run found
  | execute started status result => exact calm.update status result
  | cancel mayCancel => exact calm.cancelRun

end Advance

theorem Quiet.step (quiet : world.Quiet parent) (sound : world.Sound parent saw)
    (covers : ∀ runID detail, world.store.getTaskDetail runID = some detail → saw runID detail)
    (careful : Careful parent world label) (step : (system parent).step world label target) :
    target.Quiet parent := by
  cases label with
  | invoke call =>
      obtain rfl := Option.some.inj step
      intro invocation listed cleans
      rcases List.mem_append.mp listed with earlier | latest
      · exact quiet invocation earlier cleans
      · rw [List.mem_singleton.mp latest] at cleans
        exact absurd cleans (Invocation.not_cleans_begin call)
  | elsewhere runID status result =>
      obtain rfl := Option.some.inj step
      intro invocation listed cleans
      exact (quiet invocation listed cleans).update status result
  | invocation position move =>
      obtain ⟨invocation, invocation', here, moved, invocations, -⟩ := step_invocation step
      have advances := (sound.invocations invocation (List.mem_of_getElem? here)).next (covers _) moved
      intro other listed cleans
      rw [invocations] at listed
      obtain ⟨index, found⟩ := List.mem_iff_getElem?.mp listed
      obtain ⟨-, rfl⟩ | ⟨-, there⟩ := invocations_cases found
      · exact quiet.advance_self sound careful here moved advances cleans
      · exact quiet.advance_other careful here advances (List.mem_of_getElem? there) cleans

theorem quiet_run {store : Store Value} {labels : List (Label Value)}
    (run : ((system parent).restrict (Careful parent)).Run (opening store) labels world) :
    world.Quiet parent := by
  induction run with
  | nil =>
      intro invocation listed
      cases listed
  | @snoc labels world target label before step ih =>
      have whole : (system parent).Run (opening store) labels world := before.mono fun _ _ _ => And.right
      have sound : world.Sound parent fun _ _ => True := (sound_run whole).mono fun _ _ _ => trivial
      exact ih.step sound (fun _ _ _ => trivial) step.1 step.2

/-- An invocation that did not create its child writes nothing to the store. -/
def KeepsOut (world : World Value) (label : Label Value) (target : World Value) : Prop :=
  match label with
  | .invocation position _ => ∀ invocation, target.invocations[position]? = some invocation →
      invocation.write.created = false → target.store = world.store
  | _ => True

theorem Quiet.keepsOut (quiet : world.Quiet parent) (sound : world.Sound parent saw)
    (covers : ∀ runID detail, world.store.getTaskDetail runID = some detail → saw runID detail)
    (step : (system parent).step world label target) : KeepsOut world label target := by
  cases label with
  | invoke call => trivial
  | elsewhere runID status result => trivial
  | invocation position move =>
      obtain ⟨invocation, invocation', here, moved, invocations, -⟩ := step_invocation step
      have member := List.mem_of_getElem? here
      have own := sound.invocations invocation member
      have advances := own.next (covers _) moved
      intro found there uncreated
      rw [invocations] at there
      obtain ⟨-, rfl⟩ | ⟨different, -⟩ := invocations_cases there
      · have before : invocation.write.created = false := by
          cases created : invocation.write.created with
          | false => rfl
          | true => rw [← uncreated, advances.kept created]
        generalize target.store = store' at advances
        cases advances.effect with
        | idle => rfl
        | create child own pending absent created =>
            rw [uncreated] at created
            cases created
        | execute started status result =>
            rw [own.created_of_started started] at before
            cases before
        | cancel mayCancel =>
            exact Store.cancelRun_of_calm (quiet invocation member (own.cleans_of_mayCancel mayCancel before))
      · exact absurd rfl different

end World

section Secrets

/-- Two calls with the same arguments apart from the sensitive ones have sensitive ones both or
neither. -/
theorem secretArguments_eq_nil {redacted : Value} {names : List String} {first second : Dict String Value}
    (same : sameArgs (publicArguments redacted first names) (publicArguments redacted second names))
    (none : secretArguments second names = []) : secretArguments first names = [] := by
  unfold secretArguments at none ⊢
  rw [List.filter_eq_nil_iff] at none ⊢
  intro entry listed
  simp only [sameArgs, Bool.and_eq_true, List.all_eq_true, decide_eq_true_eq] at same
  have reads := same.2 _ (List.mem_map_of_mem listed)
  obtain ⟨entry', listed', both⟩ := List.mem_map.mp (Dict.get?_eq_some.mp reads)
  have sameKey : entry'.1 = entry.1 := (Prod.ext_iff.mp both).1
  rw [← sameKey]
  exact none entry' listed'

theorem creator_without_secrets {saw : String → TaskDetail Value → Prop} {store : Store Value}
    {creator invocation : Invocation Value} {made child : Child Value} {spec : TaskSpec Value}
    (sound : creator.Sound parent saw store) (created : creator.write.created = true)
    (made_own : made ∈ creator.child) (own : invocation.Sound parent saw store) (child_own : child ∈ invocation.child)
    (sameID : creator.runID parent = invocation.runID parent)
    (records : Store.Records store (invocation.runID parent) spec) (same : sameCall spec child.spec)
    (none : child.secretArguments = []) (sameNames : made.sensitiveNames = child.sensitiveNames) :
    made.secretArguments = [] := by
  obtain ⟨stored, stored_own, recorded⟩ := sound.stored created
  obtain rfl : made = stored := Option.mem_unique made_own stored_own
  rw [sameID] at recorded
  rw [records.unique recorded] at same
  obtain ⟨capabilityID, descriptor, rfl⟩ := sound.child made made_own
  obtain ⟨capabilityID', descriptor', rfl⟩ := own.child child child_own
  obtain ⟨-, sameArguments⟩ := Bool.and_eq_true_iff.mp same
  change descriptor.sensitiveNames = descriptor'.sensitiveNames at sameNames
  change secretArguments invocation.call.args descriptor'.sensitiveNames = [] at none
  change secretArguments creator.call.args descriptor.sensitiveNames = []
  rw [← sameNames] at none
  simp only [childRun, ← sameNames] at sameArguments
  exact secretArguments_eq_nil sameArguments none

end Secrets

section AtMostOnce

open World

/-- An invocation that did not create its child executed nothing. It comes back with a failure,
or with the result that the child recorded: for the same capability and the same public
arguments, and without sensitive ones in this call or, where the same names were sensitive, in
the call that created the child. -/
def World.Abstains (parent : Parent Value) (start : World Value) (labels : List (Label Value))
    (world : World Value) (invocation : Invocation Value) : Prop :=
  invocation.started = false ∧ ∀ outcome, invocation.phase = .returned outcome →
    (∃ message, outcome = .failed message) ∨
    ∃ result, outcome = .reused result ∧ ∃ child ∈ invocation.child, ∃ detail : TaskDetail Value,
      Witnessed parent start labels (invocation.runID parent) detail ∧ detail.result = some result ∧
      sameCall detail.spec child.spec ∧ child.secretArguments = [] ∧
      ∀ creator ∈ world.invocations, creator.write.created = true →
        creator.runID parent = invocation.runID parent → ∀ made ∈ creator.child,
          made.sensitiveNames = child.sensitiveNames → made.secretArguments = []

theorem World.abstains {store : Store Value} {labels : List (Label Value)} {world : World Value}
    {invocation : Invocation Value} (sound : world.Sound parent (Shown parent (opening store) labels world))
    (listed : invocation ∈ world.invocations) (uncreated : invocation.write.created = false) :
    Abstains parent (opening store) labels world invocation := by
  have own := sound.invocations invocation listed
  have notStarted : invocation.started = false := by
    cases started : invocation.started with
    | false => rfl
    | true => rw [← uncreated, own.created_of_started started]
  refine ⟨notStarted, ?_⟩
  intro outcome here
  have phase := own.phase
  rw [here] at phase
  cases outcome with
  | failed message => exact .inl ⟨message, rfl⟩
  | executed result =>
      have started : invocation.started = true := phase
      rw [notStarted] at started
      cases started
  | reused result =>
      obtain ⟨-, child, child_own, detail, ⟨witnessed, records⟩, recorded, same, none⟩ := phase
      refine .inr ⟨result, rfl, child, child_own, detail, witnessed, recorded, same, none, ?_⟩
      intro creator member created sameID made made_own sameNames
      exact creator_without_secrets (sound.invocations creator member) created made_own own child_own sameID
        records same none sameNames

/-- **Nested calls take effect at most once.** In every run the executor is started at most once
for a child, and an invocation that did not create its child executes nothing and comes back
with a failure or with what was recorded for the same call. In a careful run it leaves the store
as it is. -/
theorem nested_calls_once {store : Store Value} {labels : List (Label Value)} {world : World Value}
    (run : (system parent).Run (opening store) labels world) :
    world.executions.Nodup ∧
      (∀ invocation ∈ world.invocations, invocation.write.created = false →
        Abstains parent (opening store) labels world invocation) ∧
      (((system parent).restrict (Careful parent)).Run (opening store) labels world →
        ∀ label target, ((system parent).restrict (Careful parent)).step world label target →
          KeepsOut world label target) := by
  have sound := sound_run run
  refine ⟨sound.once, fun invocation listed uncreated => abstains sound listed uncreated, ?_⟩
  intro careful label target step
  have all : world.Sound parent fun _ _ => True := sound.mono fun _ _ _ => trivial
  exact (quiet_run careful).keepsOut all (fun _ _ _ => trivial) step.2

end AtMostOnce

section Twice

open World

def someParent : Parent String := ⟨"run-1", "<redacted>", fun text => "'" ++ text ++ "'"⟩

def step1 : CapabilityCall String := ⟨"read_file", .empty, "step-1"⟩

def sends (position : ℕ) : List (Label String) :=
  [.invocation position (.resolved (some ⟨[]⟩)), .invocation position .serve, .invocation position .resume]

def done : TaskResult := { runID := "run-1-step-1", status := .completed, output := "text" }

/-- Two calls at once and, when the child is executed, a third. -/
def thrice : List (Label String) :=
  [Label.invoke step1, .invoke step1] ++ sends 0 ++ sends 1 ++
    [Label.invocation 0 (.createServed ""), .invocation 1 (.createServed "run exists"), .invocation 1 .resume,
      .invocation 0 .resume, .invocation 0 .start, .invocation 0 (.execute .completed (some done)),
      .invocation 0 (.finish done), .invocation 0 .resume, .invoke step1] ++ sends 2

def Phase.outcome : Phase Value → Option Outcome
  | .returned outcome => some outcome
  | _ => none

def reached : World String :=
  System.after (System.guarded (Careful someParent) (next someParent)) (opening .empty) thrice

theorem nested_calls_once_thrice :
    reached.invocations.map (fun invocation => invocation.phase.outcome) =
        [some (.executed done),
          some (.failed "Capability 'read_file' could not be dispatched: run exists"), some (.reused done)] ∧
      reached.executions = ["run-1-step-1"] ∧ reached.executions.Nodup ∧
      (∀ invocation ∈ reached.invocations, invocation.write.created = false →
        Abstains someParent (opening .empty) thrice reached invocation) ∧
      ∀ label target, ((system someParent).restrict (Careful someParent)).step reached label target →
        KeepsOut reached label target := by
  have careful : ((system someParent).restrict (Careful someParent)).Run (opening .empty) thrice reached :=
    .ofGuarded (Careful someParent) (by decide)
  have run : (system someParent).Run (opening .empty) thrice reached := careful.mono fun _ _ _ => And.right
  obtain ⟨once, abstain, keepOut⟩ := nested_calls_once run
  exact ⟨by decide, by decide, once, abstain, keepOut careful⟩

/-- The second of two calls is cancelled while its creation is under way. The creation collides,
and the cleanup behind it is about to cancel the child. -/
def interrupted : List (Label String) :=
  [Label.invoke step1, .invoke step1] ++ sends 0 ++ sends 1 ++
    [Label.invocation 0 (.createServed ""), .invocation 1 .cancel, .invocation 1 (.createServed "run exists"),
      .invocation 1 .resume]

/-- The loser of two concurrent calls cancels the child of the winner. -/
theorem loser_cancels_winner :
    ∃ world target : World String, (system someParent).Run (opening .empty) interrupted world ∧
      (system someParent).step world (.invocation 1 .serve) target ∧
      world.invocations.map (fun invocation => (invocation.write, invocation.runID someParent)) =
        [(.stored, "run-1-step-1"), (.collided "run exists", "run-1-step-1")] ∧
      (world.store.get? "run-1-step-1").map TaskRun.status = some .queued ∧
      (target.store.get? "run-1-step-1").map TaskRun.status = some .cancelled := by
  let world := System.after (next someParent) (opening .empty) interrupted
  have run : (system someParent).Run (opening .empty) interrupted world := .ofNext (by decide)
  have step := System.step_ofNext (next someParent) world (.invocation 1 .serve) (by decide)
  exact ⟨world, _, run, step, by decide, by decide, by decide⟩

end Twice

end Sico.NestedCalls

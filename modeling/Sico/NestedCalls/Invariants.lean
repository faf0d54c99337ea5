import Sico.NestedCalls.Model

/-! # What an invocation knows of its child

An invocation starts the executor only behind a creation that stored the child, and one that
created nothing comes back with a failure or with what a child of the same call had recorded.
What an invocation knows of the store is about the call that a run records, which is never
changed, so the knowledge of each survives the steps of the others.
-/

namespace Sico.NestedCalls

open Foundation AgentLoop TaskRuntime

variable {Value : Type}

namespace Store

variable {store store' : Store Value} {runID : String}

def Records (store : Store Value) (runID : String) (spec : TaskSpec Value) : Prop :=
  ∃ run, store.get? runID = some run ∧ run.spec = spec

/-- Every run stays, with the call that it records. -/
def Grows (store store' : Store Value) : Prop :=
  ∀ runID spec, Records store runID spec → Records store' runID spec

/-- There is no run of the identifier that is queued or running. -/
def Calm (store : Store Value) (runID : String) : Prop :=
  ∀ run, store.get? runID = some run → run.status.isActive = false

instance Calm.decidable (store : Store Value) (runID : String) : Decidable (Calm store runID) :=
  inferInstanceAs (Decidable (∀ run ∈ store.get? runID, run.status.isActive = false))

theorem Records.unique {first second : TaskSpec Value} (one : Records store runID first)
    (other : Records store runID second) : first = second := by
  obtain ⟨run, found, rfl⟩ := one
  obtain ⟨run', found', rfl⟩ := other
  rw [found] at found'
  cases found'
  rfl

theorem grows_rewrite {run : TaskRun Value} (found : store.get? runID = some run) (rewritten : TaskRun Value)
    (same : rewritten.spec = run.spec) : Grows store (store.set runID rewritten) := by
  intro other spec records
  obtain ⟨old, there, rfl⟩ := records
  unfold Records
  rw [Dict.get?_set]
  split
  · next here =>
      rw [here, found] at there
      cases there
      exact ⟨rewritten, rfl, same⟩
  · exact ⟨old, there, rfl⟩

theorem grows_update (runID : String) (status : Status) (result : Option TaskResult) :
    Grows store (store.update runID status result) := by
  unfold update
  split
  · next run found =>
      split
      · exact grows_rewrite found _ rfl
      · exact fun _ _ records => records
  · exact fun _ _ records => records

theorem grows_cancelRun (runID : String) : Grows store (store.cancelRun runID) := by
  unfold cancelRun
  split
  · next run found =>
      split
      · exact grows_rewrite found _ rfl
      · exact fun _ _ records => records
  · exact fun _ _ records => records

theorem grows_set (absent : store.get? runID = none) (run : TaskRun Value) :
    Grows store (store.set runID run) := by
  intro other spec records
  obtain ⟨old, there, rfl⟩ := records
  refine ⟨old, ?_, rfl⟩
  rw [Dict.get?_set, if_neg, there]
  intro here
  rw [here, absent] at there
  cases there

theorem Calm.update {other : String} (calm : Calm store other) (status : Status) (result : Option TaskResult) :
    Calm (store.update runID status result) other := by
  unfold Store.update
  split
  · next run found =>
      split
      · next active =>
          intro rewritten there
          rw [Dict.get?_set] at there
          split at there
          · next here =>
              rw [here] at calm
              rw [calm run found] at active
              cases active
          · exact calm rewritten there
      · exact calm
  · exact calm

theorem Calm.cancelRun {other : String} (calm : Calm store other) : Calm (store.cancelRun runID) other := by
  unfold Store.cancelRun
  split
  · next run found =>
      split
      · intro rewritten there
        rw [Dict.get?_set] at there
        split at there
        · cases there
          rfl
        · exact calm rewritten there
      · exact calm
  · exact calm

theorem cancelRun_of_calm (calm : Calm store runID) : store.cancelRun runID = store := by
  unfold Store.cancelRun
  split
  · next run found => rw [if_neg (by rw [calm run found]; exact Bool.false_ne_true)]
  · rfl

theorem records_of_detail {detail : TaskDetail Value} (shown : store.getTaskDetail runID = some detail) :
    Records store runID detail.spec := by
  obtain ⟨run, found, rfl⟩ := Option.map_eq_some_iff.mp shown
  exact ⟨run, found, rfl⟩

end Store

/-- The move is a creation that is stored, unless the run is there. -/
def Move.stores : Move → Bool
  | .createServed _ => true
  | .createFaulted kept _ => kept
  | _ => false

variable [DecidableEq Value] {parent : Parent Value}

namespace Invocation

variable {saw saw' : String → TaskDetail Value → Prop} {invocation invocation' : Invocation Value}
  {store store' : Store Value} {move : Move}

/-- The result that a child had recorded is handed on only if the child records the same call,
and the call has no sensitive arguments. -/
def Reusable (parent : Parent Value) (saw : String → TaskDetail Value → Prop) (invocation : Invocation Value)
    (result : TaskResult) : Prop :=
  ∃ child ∈ invocation.child, ∃ detail : TaskDetail Value,
    saw (invocation.runID parent) detail ∧ detail.result = some result ∧
      sameCall detail.spec child.spec ∧ child.secretArguments = []

/-- What an invocation has done and knows at its await. -/
def PhaseSound (parent : Parent Value) (saw : String → TaskDetail Value → Prop) (invocation : Invocation Value) : Phase Value → Prop
  | .resolving => invocation.write = .unsent ∧ invocation.started = false
  | .looking reply => invocation.write = .unsent ∧ invocation.started = false ∧
      ∀ detail ∈ reply.join, saw (invocation.runID parent) detail
  | .creating | .settling => invocation.write ≠ .unsent ∧ invocation.started = false
  | .cleaning _ _ => invocation.write ≠ .unsent ∧ invocation.write ≠ .pending ∧ invocation.started = false
  | .preparing => invocation.write = .stored ∧ invocation.started = false
  | .executing | .stopping _ | .reconciling _ _ | .abandoning _ _ => invocation.started = true
  | .finishing outcome => invocation.started = true ∧ ∀ result, outcome ≠ .reused result
  | .returned (.failed _) | .raised => invocation.write ≠ .pending
  | .returned (.reused result) => invocation.write = .unsent ∧ invocation.Reusable parent saw result
  | .returned (.executed _) => invocation.started = true

/-- An invocation whose child stands as it was made, is stored if its creation stored it, and
was executed only then. -/
structure Sound (parent : Parent Value) (saw : String → TaskDetail Value → Prop) (store : Store Value)
    (invocation : Invocation Value) : Prop where
  child : ∀ child ∈ invocation.child, ∃ capabilityID descriptor,
    child = childRun parent.runID parent.redacted invocation.call capabilityID descriptor
  stored : invocation.write.created → ∃ child ∈ invocation.child,
    Store.Records store (invocation.runID parent) child.spec
  started : invocation.started → invocation.write = .stored
  late : invocation.lateCancels ≠ 0 → invocation.write ≠ .unsent ∧ invocation.write ≠ .pending
  phase : invocation.PhaseSound parent saw invocation.phase

theorem Sound.mono (sound : invocation.Sound parent saw store) (grows : Store.Grows store store')
    (more : ∀ runID detail, saw runID detail → saw' runID detail) : invocation.Sound parent saw' store' where
  child := sound.child
  stored created := by
    obtain ⟨child, own, records⟩ := sound.stored created
    exact ⟨child, own, grows _ _ records⟩
  started := sound.started
  late := sound.late
  phase := by
    have phase := sound.phase
    revert phase
    cases invocation.phase with
    | looking reply =>
        rintro ⟨unsent, notStarted, shown⟩
        exact ⟨unsent, notStarted, fun detail replied => more _ _ (shown detail replied)⟩
    | returned outcome =>
        cases outcome with
        | reused result =>
            rintro ⟨unsent, child, own, detail, shown, rest⟩
            exact ⟨unsent, child, own, detail, more _ _ shown, rest⟩
        | failed message => exact id
        | executed result => exact id
    | _ => exact id

theorem Sound.grow (sound : invocation.Sound parent saw store) (grows : Store.Grows store store') :
    invocation.Sound parent saw store' :=
  sound.mono grows fun _ _ shown => shown

theorem sound_begin (call : CapabilityCall Value) : (begin call).Sound parent saw store where
  child child own := by cases own
  stored created := by cases created
  started started := by cases started
  late late := absurd rfl late
  phase := by
    unfold begin
    dsimp only
    split
    · exact ⟨rfl, rfl⟩
    · exact Write.noConfusion

/-- The request that is awaited, or one behind an await that was cut short, is a cancellation
of the child. -/
def MayCancel (invocation : Invocation Value) : Prop :=
  (∃ cause, invocation.phase = .cleaning cause false) ∨ invocation.phase = .stopping false ∨
    (∃ message, invocation.phase = .abandoning message false) ∨ invocation.lateCancels ≠ 0

/-- What a move of an invocation does to the store. -/
inductive Effect (parent : Parent Value) (store : Store Value) (invocation invocation' : Invocation Value) :
    Store Value → Prop where
  | idle : Effect parent store invocation invocation' store
  | create (child : Child Value) (own : child ∈ invocation.child) (pending : invocation.write = .pending)
      (absent : store.get? (invocation.runID parent) = none) (created : invocation'.write.created) :
      Effect parent store invocation invocation' (store.set (invocation.runID parent) { spec := child.spec })
  | execute (started : invocation.started) (status : Status) (result : Option TaskResult) :
      Effect parent store invocation invocation' (store.update (invocation.runID parent) status result)
  | cancel (mayCancel : invocation.MayCancel) :
      Effect parent store invocation invocation' (store.cancelRun (invocation.runID parent))

omit [DecidableEq Value] in
theorem Effect.grows (effect : Effect parent store invocation invocation' store') : Store.Grows store store' := by
  cases effect with
  | idle => exact fun _ _ records => records
  | create child own pending absent created => exact Store.grows_set absent _
  | execute started status result => exact Store.grows_update _ status result
  | cancel mayCancel => exact Store.grows_cancelRun _

/-- A move of an invocation by itself: the store, the call and the executor are not touched, and
neither is a creation that has been sent. -/
structure Turns (parent : Parent Value) (saw : String → TaskDetail Value → Prop) (store : Store Value)
    (invocation invocation' : Invocation Value) :
    Prop where
  sound : invocation'.Sound parent saw store
  call : invocation'.call = invocation.call
  started : invocation'.started = invocation.started
  write : invocation'.write = invocation.write ∨
    invocation.write = .unsent ∧ invocation'.write = .pending

variable (sound : invocation.Sound parent saw store)
include sound

theorem Sound.turn {phase : Phase Value} (ready : invocation.PhaseSound parent saw phase) :
    Turns parent saw store invocation { invocation with phase } where
  sound := ⟨sound.child, sound.stored, sound.started, sound.late, ready⟩
  call := rfl
  started := rfl
  write := .inl rfl

theorem Sound.cutShort {served : Bool} {phase : Phase Value} (ready : invocation.PhaseSound parent saw phase)
    (sent : invocation.write ≠ .unsent ∧ invocation.write ≠ .pending) :
    Turns parent saw store invocation (invocation.cutShort served phase) where
  sound := ⟨sound.child, sound.stored, sound.started, fun _ => sent, ready⟩
  call := rfl
  started := rfl
  write := .inl rfl

theorem Sound.sent_of_started (started : invocation.started = true) :
    invocation.write ≠ .unsent ∧ invocation.write ≠ .pending := by
  rw [sound.started started]
  exact ⟨Write.noConfusion, Write.noConfusion⟩

omit sound in
theorem reuse_cases (parent : Parent Value) (call : CapabilityCall Value) (child : Child Value) (existing : TaskDetail Value) :
    (∃ message, reuse parent call child existing = .failed message) ∨
      ∃ result, reuse parent call child existing = .reused result ∧ existing.result = some result ∧
        sameCall existing.spec child.spec ∧ child.secretArguments = [] := by
  unfold reuse
  split
  · exact .inl ⟨_, rfl⟩
  · next same =>
      split
      · exact .inl ⟨_, rfl⟩
      · next secretless =>
          split
          · next result recorded =>
              exact .inr ⟨result, rfl, recorded, by simpa using same, by simpa using secretless⟩
          · split
            · exact .inl ⟨_, rfl⟩
            · exact .inl ⟨_, rfl⟩

theorem Sound.send (unsent : invocation.write = .unsent) (notStarted : invocation.started = false) :
    Turns parent saw store invocation { invocation with phase := .creating, write := .pending } where
  sound :=
    { child := sound.child
      stored := fun created => Bool.noConfusion created
      started := fun started => absurd started (by simp [notStarted])
      late := fun late => absurd unsent (sound.late late).1
      phase := ⟨Write.noConfusion, notStarted⟩ }
  call := rfl
  started := rfl
  write := .inr ⟨unsent, rfl⟩

omit sound in
theorem cleaned_sound (cause : Cause) (sent : invocation.write ≠ .pending) :
    invocation.PhaseSound parent saw (cleaned parent invocation.call cause) := by
  cases cause with
  | cancelled => exact sent
  | fault message => exact sent

theorem Sound.resume (step : invocation.resume parent = some invocation') :
    Turns parent saw store invocation invocation' := by
  have phase := sound.phase
  unfold Invocation.resume at step
  split at step <;> rename_i here <;> try rw [here] at phase
  · cases step
    exact sound.send phase.1 phase.2.1
  · obtain ⟨child, own, step⟩ := Option.bind_eq_some_iff.mp step
    cases step
    apply sound.turn
    obtain ⟨unsent, -, shown⟩ := phase
    rcases reuse_cases parent invocation.call child _ with ⟨message, outcome⟩ | ⟨result, outcome, rest⟩
    · rw [outcome]
      change invocation.write ≠ .pending
      rw [unsent]
      exact Write.noConfusion
    · rw [outcome]
      exact ⟨unsent, child, own, _, shown _ rfl, rest⟩
  · split at step <;> rename_i sent <;> cases step
    · exact sound.turn ⟨sent, phase.2⟩
    · apply sound.turn
      change invocation.write ≠ .pending
      rw [sent]
      exact Write.noConfusion
    · apply sound.turn
      refine ⟨phase.1, ?_, phase.2⟩
      rw [sent]
      exact Write.noConfusion
  · split at step <;> rename_i sent <;> cases step
    exact sound.turn ⟨phase.1, sent, phase.2⟩
  · cases step
    exact sound.turn (cleaned_sound _ phase.2.1)
  · cases step
    exact sound.turn (sound.sent_of_started phase).2
  · split at step <;> cases step
    · exact sound.turn ⟨phase, fun _ => Outcome.noConfusion⟩
    · exact sound.turn phase
  · cases step
    exact sound.turn ⟨phase, fun _ => Outcome.noConfusion⟩
  · next outcome =>
      cases step
      apply sound.turn
      obtain ⟨started, own⟩ := phase
      cases outcome with
      | failed message => exact (sound.sent_of_started started).2
      | reused result => exact absurd rfl (own result)
      | executed result => exact started
  · cases step

omit sound [DecidableEq Value] in
theorem not_pending_of_unsent (unsent : invocation.write = .unsent) : invocation.write ≠ .pending := by
  rw [unsent]
  exact Write.noConfusion

theorem Sound.fail {message : String} (step : invocation.fail parent message = some invocation') :
    Turns parent saw store invocation invocation' := by
  have phase := sound.phase
  unfold Invocation.fail at step
  split at step <;> rename_i here <;> try rw [here] at phase
  · cases step
    exact sound.turn (not_pending_of_unsent phase.1)
  · cases step
    exact sound.turn (not_pending_of_unsent phase.1)
  · cases step
    exact sound.cutShort (cleaned_sound _ phase.2.1) ⟨phase.1, phase.2.1⟩
  · cases step
    exact sound.turn phase
  · cases step
    exact sound.cutShort (sound.sent_of_started phase).2 (sound.sent_of_started phase)
  · cases step
    exact sound.turn phase
  · cases step
    exact sound.cutShort ⟨phase, fun _ => Outcome.noConfusion⟩ (sound.sent_of_started phase)
  · cases step

theorem Sound.cancel (step : invocation.cancel parent = some invocation') :
    Turns parent saw store invocation invocation' := by
  have phase := sound.phase
  unfold Invocation.cancel at step
  split at step <;> rename_i here <;> rw [here] at phase <;> cases step
  · exact sound.turn (not_pending_of_unsent phase.1)
  · exact sound.turn (not_pending_of_unsent phase.1)
  · apply sound.turn
    change invocation.write ≠ .pending
    rw [phase.1]
    exact Write.noConfusion
  · exact sound.turn (sound.sent_of_started phase).2
  · exact sound.turn (sound.sent_of_started phase.1).2
  · exact sound.turn phase
  · exact sound.turn phase
  · exact sound.cutShort (cleaned_sound _ phase.2.1) ⟨phase.1, phase.2.1⟩
  · exact sound.turn phase
  · exact sound.cutShort (sound.sent_of_started phase).2 (sound.sent_of_started phase)
  · exact sound.cutShort ⟨phase, fun _ => Outcome.noConfusion⟩ (sound.sent_of_started phase)

structure Advances (parent : Parent Value) (saw : String → TaskDetail Value → Prop) (store : Store Value)
    (move : Move) (invocation invocation' : Invocation Value) (store' : Store Value) : Prop where
  effect : Effect parent store invocation invocation' store'
  sound : invocation'.Sound parent saw store'
  call : invocation'.call = invocation.call
  started : invocation'.started = (invocation.started || move.isStart)
  ready : move.isStart → invocation.write = .stored ∧ invocation.started = false
  created : invocation'.write.created = true → invocation.write.created = true ∨
    move.stores ∧ store.get? (invocation.runID parent) = none
  kept : invocation.write.created = true → invocation'.write.created = true

omit sound in
theorem Turns.advances {move : Move} (turns : Turns parent saw store' invocation invocation')
    (effect : Effect parent store invocation invocation' store') (notStart : move.isStart = false) :
    Advances parent saw store move invocation invocation' store' where
  effect := effect
  sound := turns.sound
  call := turns.call
  started := by rw [turns.started, notStart, Bool.or_false]
  ready isStart := by
    rw [notStart] at isStart
    cases isStart
  created created := by
    rcases turns.write with same | ⟨-, pending⟩
    · exact .inl (same ▸ created)
    · rw [pending] at created
      cases created
  kept created := by
    rcases turns.write with same | ⟨unsent, -⟩
    · exact same ▸ created
    · rw [unsent] at created
      cases created

theorem Sound.dispatch (capabilityID : String) (descriptor : CapabilityDescriptor)
    (unsent : invocation.write = .unsent) (notStarted : invocation.started = false) :
    Turns parent saw store invocation
      { invocation with
        phase := .looking none
        child := some (childRun parent.runID parent.redacted invocation.call capabilityID descriptor) } where
  sound :=
    { child := fun child own => ⟨capabilityID, descriptor, (Option.mem_some_iff.mp own).symm⟩
      stored := fun created => absurd created (by simp [unsent, Write.created])
      started := sound.started
      late := sound.late
      phase := ⟨unsent, notStarted, fun _ replied => by cases replied⟩ }
  call := rfl
  started := rfl
  write := .inl rfl

theorem Sound.resolved {descriptor : Option CapabilityDescriptor}
    (step : invocation.next parent store (.resolved descriptor) = some (store', invocation')) :
    Advances parent saw store (.resolved descriptor) invocation invocation' store' := by
  have phase := sound.phase
  unfold Invocation.next at step
  dsimp only at step
  split at step
  · next here =>
      cases step
      rw [here] at phase
      exact Turns.advances (sound.turn (not_pending_of_unsent phase.1)) .idle rfl
  · next here =>
      rw [here] at phase
      obtain ⟨capabilityID, -, step⟩ := Option.bind_eq_some_iff.mp step
      cases step
      exact Turns.advances (sound.dispatch capabilityID _ phase.1 phase.2) .idle rfl
  · cases step

theorem Sound.serve (covers : ∀ detail, store.getTaskDetail (invocation.runID parent) = some detail →
      saw (invocation.runID parent) detail) (step : invocation.serve parent store = some (store', invocation')) :
    Advances parent saw store .serve invocation invocation' store' := by
  have phase := sound.phase
  unfold Invocation.serve at step
  dsimp only at step
  split at step <;> rename_i here <;> try rw [here] at phase
  · cases step
    exact Turns.advances (sound.turn ⟨phase.1, phase.2.1, covers⟩) .idle rfl
  · cases step
    have later := sound.grow (Store.grows_cancelRun (invocation.runID parent))
    exact Turns.advances (later.turn phase) (.cancel (.inl ⟨_, here⟩)) rfl
  · cases step
    have later := sound.grow (Store.grows_cancelRun (invocation.runID parent))
    exact Turns.advances (later.turn phase) (.cancel (.inr (.inl here))) rfl
  · cases step
    exact Turns.advances (sound.turn phase) .idle rfl
  · cases step
    have later := sound.grow (Store.grows_cancelRun (invocation.runID parent))
    exact Turns.advances (later.turn phase) (.cancel (.inr (.inr (.inl ⟨_, here⟩)))) rfl
  · cases step

theorem Sound.phase_of_created {write : Write} (pending : invocation.write = .pending)
    (sent : write ≠ .unsent ∧ write ≠ .pending) :
    ({ invocation with write } : Invocation Value).PhaseSound parent saw invocation.phase := by
  have phase := sound.phase
  revert phase
  cases invocation.phase with
  | creating => exact fun phase => ⟨sent.1, phase.2⟩
  | settling => exact fun phase => ⟨sent.1, phase.2⟩
  | cleaning cause served => exact fun phase => absurd pending phase.2.1
  | resolving => exact fun phase => absurd pending (not_pending_of_unsent phase.1)
  | looking reply => exact fun phase => absurd pending (not_pending_of_unsent phase.1)
  | preparing => exact fun phase => absurd pending (by rw [phase.1]; exact Write.noConfusion)
  | executing => exact id
  | stopping served => exact id
  | reconciling message reply => exact id
  | abandoning message served => exact id
  | finishing outcome => exact id
  | raised => exact fun phase => absurd pending phase
  | returned outcome =>
      cases outcome with
      | failed message => exact fun phase => absurd pending phase
      | reused result => exact fun phase => absurd pending (not_pending_of_unsent phase.1)
      | executed result => exact id

theorem Sound.create {write : Write} {move : Move} (sent : write ≠ .unsent ∧ write ≠ .pending)
    (absent : write.created = true → store.get? (invocation.runID parent) = none)
    (stores : write.created = true → move.stores) (notStart : move.isStart = false)
    (step : invocation.create parent store write = some (store', invocation')) :
    Advances parent saw store move invocation invocation' store' := by
  obtain ⟨child, own, step⟩ := Option.bind_eq_some_iff.mp step
  split at step
  · next pending =>
      have notStarted : invocation.started = false := by
        cases started : invocation.started with
        | false => rfl
        | true =>
            have stored := sound.started started
            rw [pending] at stored
            cases stored
      split at step
      · next created =>
          cases step
          have later := sound.grow (Store.grows_set (absent created) ⟨child.spec, .queued, none⟩)
          exact
            { effect := .create child own pending (absent created) created
              sound :=
                { child := later.child
                  stored := fun _ => ⟨child, own, _, by rw [runID, Dict.get?_set, runID, if_pos rfl], rfl⟩
                  started := fun started => absurd started (by simp [notStarted])
                  late := fun _ => sent
                  phase := later.phase_of_created pending sent }
              call := rfl
              started := by rw [notStart, Bool.or_false]
              ready := fun isStart => absurd isStart (by simp [notStart])
              created := fun _ => .inr ⟨stores created, absent created⟩
              kept := fun _ => created }
      · next uncreated =>
          cases step
          exact
            { effect := .idle
              sound :=
                { child := sound.child
                  stored := fun created => absurd created uncreated
                  started := fun started => absurd started (by simp [notStarted])
                  late := fun _ => sent
                  phase := sound.phase_of_created pending sent }
              call := rfl
              started := by rw [notStart, Bool.or_false]
              ready := fun isStart => absurd isStart (by simp [notStart])
              created := fun created => absurd created uncreated
              kept := fun created => absurd created (by simp [pending, Write.created]) }
  · cases step

theorem Sound.next (covers : ∀ detail, store.getTaskDetail (invocation.runID parent) = some detail →
      saw (invocation.runID parent) detail) (step : invocation.next parent store move = some (store', invocation')) :
    Advances parent saw store move invocation invocation' store' := by
  have phase := sound.phase
  cases move with
  | resolved descriptor => exact sound.resolved step
  | serve => exact sound.serve covers step
  | resume =>
      obtain ⟨turned, resumes, both⟩ := Option.map_eq_some_iff.mp step
      cases both
      exact (sound.resume resumes).advances .idle rfl
  | fail message =>
      obtain ⟨turned, fails, both⟩ := Option.map_eq_some_iff.mp step
      cases both
      exact (sound.fail fails).advances .idle rfl
  | cancel =>
      obtain ⟨turned, cancels, both⟩ := Option.map_eq_some_iff.mp step
      cases both
      exact (sound.cancel cancels).advances .idle rfl
  | createServed message =>
      cases found : store.get? (invocation.runID parent) with
      | none =>
          simp only [Invocation.next, found, Option.isSome_none, Bool.false_eq_true, ↓reduceIte] at step
          exact sound.create ⟨Write.noConfusion, Write.noConfusion⟩ (fun _ => found) (fun _ => rfl) rfl step
      | some run =>
          simp only [Invocation.next, found, Option.isSome_some, ↓reduceIte] at step
          exact sound.create ⟨Write.noConfusion, Write.noConfusion⟩ (fun created => by cases created)
            (fun _ => rfl) rfl step
  | createFaulted kept message =>
      unfold Invocation.next at step
      dsimp only at step
      split at step
      · cases step
      · next absent =>
          exact sound.create ⟨Write.noConfusion, Write.noConfusion⟩ (fun _ => by simpa using absent) id rfl step
  | start =>
      unfold Invocation.next at step
      dsimp only at step
      split at step
      · next here =>
          cases step
          rw [here] at phase
          exact
            { effect := .idle
              sound := ⟨sound.child, sound.stored, fun _ => phase.1, sound.late, rfl⟩
              call := rfl
              started := (Bool.or_true _).symm
              ready := fun _ => phase
              created := .inl
              kept := id }
      · cases step
  | execute status result =>
      unfold Invocation.next at step
      dsimp only at step
      split at step
      · next started =>
          cases step
          have later := sound.grow (Store.grows_update (invocation.runID parent) status result)
          exact
            { effect := .execute started status result
              sound := later
              call := rfl
              started := (Bool.or_false _).symm
              ready := fun isStart => by cases isStart
              created := .inl
              kept := id }
      · cases step
  | finish result =>
      unfold Invocation.next at step
      dsimp only at step
      split at step
      · next here =>
          cases step
          rw [here] at phase
          exact Turns.advances (sound.turn ⟨phase, fun _ => Outcome.noConfusion⟩) .idle rfl
      · cases step
  | lateCancel =>
      unfold Invocation.next at step
      dsimp only at step
      split at step
      · cases step
      · next late =>
          cases step
          have later := sound.grow (Store.grows_cancelRun (invocation.runID parent))
          exact
            { effect := .cancel (.inr (.inr (.inr late)))
              sound := ⟨later.child, later.stored, later.started, fun _ => sound.late late, later.phase⟩
              call := rfl
              started := (Bool.or_false _).symm
              ready := fun isStart => by cases isStart
              created := .inl
              kept := id }

end Invocation

end Sico.NestedCalls

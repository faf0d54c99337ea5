import Sico.TaskRuntime.EnvironmentSteps

/-! # Calls that wait for one build

The calls of `ensure_ready` for one key in one process, among all else that happens to the store. A call
reads the record and takes up what it read in a later step. If the environment was not ready then, the
call joins the build that is in flight, or starts one, and the two are one step as nothing waits in
between. Only a waiter that finds the build at its end takes it out of flight, also where the waiter is
cancelled.

A call is cancelled too where it fails before it reads the record. Images are checked when they are
built, and the check of what was read is left out.
-/

namespace Sico.TaskRuntime.Environments

open Foundation

inductive CallStage where
  | reading
  | read (found : Option PreparedEnvironmentRecord)
  | waiting (task : ℕ)
  | returned (image : String)
  /-- The call raised what the build raised. -/
  | raised (task : ℕ) (outcome : BuildOutcome)
  | cancelled

/-- A call of `ensure_ready`. In addition, the builds that were over when it began, the images with which
the record was ready during the call, and the builds that ran during the call. -/
structure Call where
  stage : CallStage := .reading
  finished : List ℕ
  seen : List String := []
  ran : List ℕ := []

/-- The manager of one process in the world around it. -/
structure PreparedEnvironmentManager where
  world : World := {}
  inflight : Option ℕ := none
  calls : List Call := []

inductive ManagerLabel where
  | world (label : Label)
  | ensureReady
  | read (position : ℕ)
  | resume (position : ℕ)
  | cancel (position : ℕ)

section Builds

variable (key : String) (world : World)

/-- A build of the key runs while it has the lock. -/
def Process.runs : Process → Bool
  | .build own phase => (Process.build own phase).holdsLock key
  | .pass _ _ => false

/-- A build that has given its lock back, or has stopped. -/
def Process.isOver : Process → Bool
  | .build _ phase =>
      match phase with
      | .returning _ | .done _ | .stopped => true
      | _ => false
  | .pass _ _ => false

/-- `task.done()`, and how a task ended that was not cancelled. -/
def Process.ending : Process → Option (Option BuildOutcome)
  | .build _ (.done outcome) => some (some outcome)
  | .build _ .stopped => some none
  | _ => none

/-- The processes that pass a test, by their positions. -/
def positions (test : Process → Bool) : List ℕ :=
  (List.range world.processes.length).filter fun position => world.processes[position]?.any test

def readyImage : Option String :=
  ((world.records.get? key).filter fun record => record.state = .ready).map (·.image)

end Builds

namespace Call

variable (call : Call)

/-- What is there during a call that has not ended. -/
def observe (key : String) (world : World) : Call :=
  match call.stage with
  | .returned _ | .raised _ _ | .cancelled => call
  | _ =>
      { call with
        seen := call.seen ++ (readyImage key world).toList
        ran := call.ran ++ positions world (·.runs key) }

/-- The call has read that the environment is not ready, and goes on to a build. -/
def joins : Bool :=
  match call.stage with
  | .read (some record) => record.state ≠ .ready
  | .read none => true
  | _ => false

end Call

namespace PreparedEnvironmentManager

variable (policy : PreparedEnvironmentGCPolicy) (key : String) (manager : PreparedEnvironmentManager)

/-- A waiter that finds the task at its end takes it out of flight. -/
def leave (task : ℕ) : Option ℕ :=
  if ((manager.world.processes[task]?).bind Process.ending).isSome ∧ manager.inflight = some task then none
  else manager.inflight

def setStage (position : ℕ) (call : Call) (stage : CallStage) : PreparedEnvironmentManager :=
  { manager with calls := manager.calls.set position { call with stage } }

/-- A call goes on behind the operation or the task that it waited for. -/
def resume (position : ℕ) (call : Call) : Option PreparedEnvironmentManager :=
  match call.stage with
  | .read found =>
      match found.filter fun record => record.state = .ready with
      | some ready => some (manager.setStage position call (.returned ready.image))
      | none =>
          match manager.inflight with
          | some task => some (manager.setStage position call (.waiting task))
          | none => do
              let world ← manager.world.next policy (.startBuild key)
              let task := manager.world.processes.length
              return { manager.setStage position call (.waiting task) with world, inflight := some task }
  | .waiting task => do
      let ending ← (manager.world.processes[task]?).bind Process.ending
      let stage :=
        match ending with
        | some (.image image) => .returned image
        | some outcome => .raised task outcome
        | none => .cancelled
      return { manager.setStage position call stage with inflight := manager.leave task }
  | _ => none

def cancel (position : ℕ) (call : Call) : Option PreparedEnvironmentManager :=
  match call.stage with
  | .reading | .read _ => some (manager.setStage position call .cancelled)
  | .waiting task => some { manager.setStage position call .cancelled with inflight := manager.leave task }
  | _ => none

/-- The next state, before what is there is told of the calls. -/
def act : ManagerLabel → Option PreparedEnvironmentManager
  | .world label => do return { manager with world := ← manager.world.next policy label }
  | .ensureReady =>
      some { manager with calls := manager.calls ++ [{ finished := positions manager.world Process.isOver }] }
  | .read position => do
      let call ← manager.calls[position]?
      match call.stage with
      | .reading => return manager.setStage position call (.read (manager.world.records.get? key))
      | _ => none
  | .resume position => do
      let call ← manager.calls[position]?
      manager.resume policy key position call
  | .cancel position => do
      let call ← manager.calls[position]?
      manager.cancel position call

def observe : PreparedEnvironmentManager :=
  { manager with calls := manager.calls.map (·.observe key manager.world) }

def next (label : ManagerLabel) : Option PreparedEnvironmentManager :=
  (manager.act policy key label).map (observe key)

def system : System PreparedEnvironmentManager ManagerLabel := System.ofNext (next policy key)

/-- No call joins a build that was over when the call began. -/
def Careful : ManagerLabel → Prop
  | .resume position =>
      ∀ call ∈ manager.calls[position]?, call.joins = true → ∀ task ∈ manager.inflight, task ∉ call.finished
  | _ => True

instance : (label : ManagerLabel) → Decidable (manager.Careful label)
  | .resume _ => inferInstanceAs (Decidable (∀ call ∈ _, _ → ∀ task ∈ _, _))
  | .world _ | .ensureReady | .read _ | .cancel _ => .isTrue trivial

end PreparedEnvironmentManager

section Observing

variable {key : String} {world world' : World} {policy : PreparedEnvironmentGCPolicy} {label : Label} {call : Call}

theorem mem_positions {test : Process → Bool} {position : ℕ} :
    position ∈ positions world test ↔
      ∃ process, world.processes[position]? = some process ∧ test process = true := by
  unfold positions
  rw [List.mem_filter, List.mem_range, Option.any_eq_true]
  constructor
  · intro ⟨_, tested⟩
    exact tested
  · intro ⟨process, here, tested⟩
    exact ⟨(List.getElem?_eq_some_iff.mp here).1, process, here, tested⟩

theorem readyImage_eq_some {image : String} :
    readyImage key world = some image ↔ view world.records key = some (.ready, image) := by
  unfold readyImage view
  cases world.records.get? key with
  | none => simp
  | some record =>
      by_cases ready : record.state = .ready
      · simp [ready]
      · simp [ready]

def BuildPhase.outcome : BuildPhase → Option BuildOutcome
  | .returning outcome | .done outcome => some outcome
  | _ => none

theorem advanceBuild_outcome {records records' : Records} {clock : ℤ} {free : Bool} {reply : Reply}
    {phase later : BuildPhase} {event : Option Event} {outcome : BuildOutcome}
    (step : advanceBuild records clock free key reply phase = some (records', later, event))
    (ended : later.outcome = some outcome) : phase = .leaving outcome ∨ phase.outcome = some outcome := by
  cases phase with
  | queued =>
      obtain ⟨-, same⟩ := Option.ite_none_right_eq_some.mp step
      cases same
      cases ended
  | locked =>
      dsimp only [advanceBuild] at step
      split at step
      · cases step
        cases ended
      · split at step <;> cases step <;> cases ended
  | building =>
      cases reply with
      | built | failed =>
          cases step
          cases ended
      | deleted => cases step
  | putting | failing | finishing =>
      cases step
      cases ended
  | leaving =>
      cases step
      cases ended
      exact .inl rfl
  | returning =>
      cases step
      exact .inr ended
  | done | stopped => cases step

/-- What the builds of a key do from one state to a later one: they stay, and they end where they were
about to give their lock back. -/
structure Evolves (key : String) (world world' : World) : Prop where
  stays : ∀ {position : ℕ} {phase : BuildPhase}, world.processes[position]? = some (.build key phase) →
    ∃ phase', world'.processes[position]? = some (.build key phase')
  ends : ∀ {position : ℕ} {phase : BuildPhase} {outcome : BuildOutcome}, world'.processes[position]? = some (.build key phase) →
    phase.outcome = some outcome → ∃ before, world.processes[position]? = some (.build key before) ∧
      (before = .leaving outcome ∨ before.outcome = some outcome)
  grows : world.processes.length ≤ world'.processes.length

theorem Evolves.of_processes (same : world'.processes = world.processes) : Evolves key world world' where
  stays here := ⟨_, same ▸ here⟩
  ends here ended := ⟨_, same ▸ here, .inr ended⟩
  grows := same ▸ le_rfl

theorem Evolves.append {added : Process} (same : world'.processes = world.processes ++ [added])
    (fresh : ∀ phase, added = .build key phase → phase.outcome = none) : Evolves key world world' where
  stays here := by
    rw [same]
    exact ⟨_, by rw [List.getElem?_append_left (List.getElem?_eq_some_iff.mp here).1, here]⟩
  ends here ended := by
    rw [same, List.getElem?_append] at here
    split at here
    · exact ⟨_, here, .inr ended⟩
    · have new := List.mem_singleton.mp (List.mem_of_getElem? here)
      rw [fresh _ new.symm] at ended
      cases ended
  grows := by
    rw [same, List.length_append]
    exact Nat.le_add_right _ _

theorem Evolves.set {position : ℕ} {process later : Process} (here : world.processes[position]? = some process)
    (same : world'.processes = world.processes.set position later)
    (own : ∀ phase, process = .build key phase → ∃ phase', later = .build key phase')
    (ends : ∀ phase' outcome, later = .build key phase' → phase'.outcome = some outcome →
      ∃ phase, process = .build key phase ∧ (phase = .leaving outcome ∨ phase.outcome = some outcome)) :
    Evolves key world world' where
  stays {place phase} there := by
    rw [same]
    by_cases acts : position = place
    · subst acts
      obtain rfl := Option.some.inj (here.symm.trans there)
      obtain ⟨phase', rfl⟩ := own phase rfl
      rw [List.getElem?_set_self (List.getElem?_eq_some_iff.mp here).1]
      exact ⟨phase', rfl⟩
    · rw [List.getElem?_set_ne acts]
      exact ⟨phase, there⟩
  ends {place phase outcome} there ended := by
    rw [same] at there
    by_cases acts : position = place
    · subst acts
      rw [List.getElem?_set_self (List.getElem?_eq_some_iff.mp here).1] at there
      obtain ⟨before, rfl, how⟩ := ends phase outcome (Option.some.inj there) ended
      exact ⟨before, here, how⟩
    · rw [List.getElem?_set_ne acts] at there
      exact ⟨phase, there, .inr ended⟩
  grows := by rw [same, List.length_set]

theorem World.evolves (step : (World.system policy).step world label world') : Evolves key world world' := by
  cases label with
  | tick =>
      cases step
      exact .of_processes rfl
  | startBuild own =>
      cases step
      apply Evolves.append rfl
      rintro phase ⟨⟩
      rfl
  | startPass =>
      cases step
      exact Evolves.append rfl fun _ => nofun
  | advance position reply =>
      obtain ⟨process, records', later, event, here, advanced, rfl⟩ := World.advance_cases step
      cases process with
      | build own phase =>
          obtain ⟨⟨_, later', _⟩, built, same⟩ := Option.map_eq_some_iff.mp advanced
          cases same
          apply Evolves.set here rfl
          · rintro _ ⟨⟩
            exact ⟨later', rfl⟩
          · rintro _ outcome ⟨⟩ ended
            exact ⟨phase, rfl, advanceBuild_outcome built ended⟩
      | pass now phase =>
          obtain ⟨⟨_, later', _⟩, -, same⟩ := Option.map_eq_some_iff.mp advanced
          cases same
          apply Evolves.set here rfl
          · intro _ same
            cases same
          · intro _ _ same
            cases same
  | crash position =>
      obtain ⟨process, here, same⟩ := Option.bind_eq_some_iff.mp step
      cases same
      apply Evolves.set here rfl
      · rintro phase rfl
        exact ⟨.stopped, rfl⟩
      · intro phase outcome stopped ended
        cases process <;> cases stopped
        cases ended
  | acquire =>
      obtain ⟨-, same⟩ := Option.ite_none_right_eq_some.mp step
      split at same <;> cases same <;> exact .of_processes rfl
  | renew | release =>
      obtain ⟨-, same⟩ := Option.ite_none_right_eq_some.mp step
      cases same
      exact .of_processes rfl

end Observing

section Calls

variable {key : String} {world world' : World} {call : Call}

/-- What an open call was told: what is there now, and of the builds that were not over when it began,
how they ended. -/
structure Informed (key : String) (world : World) (call : Call) : Prop where
  ready : ∀ {image}, readyImage key world = some image → image ∈ call.seen
  running : ∀ {position : ℕ} {process : Process}, world.processes[position]? = some process →
    process.runs key = true → position ∈ call.ran
  ended : ∀ {position : ℕ} {phase : BuildPhase} {outcome : BuildOutcome},
    world.processes[position]? = some (.build key phase) → phase.outcome = some outcome →
      position ∈ call.finished ∨
        position ∈ call.ran ∧ ∀ image, outcome = .image image → image ∈ call.seen
  earlier : ∀ position ∈ call.finished, position < world.processes.length

theorem Informed.setStage (informed : Informed key world call) (stage : CallStage) :
    Informed key world { call with stage } :=
  ⟨informed.ready, informed.running, informed.ended, informed.earlier⟩

/-- What a call knows, where it joined no build that was over when it began. -/
def Call.Sound (key : String) (world : World) (call : Call) : Prop :=
  match call.stage with
  | .reading => Informed key world call
  | .read found =>
      Informed key world call ∧ ∀ record, found = some record → record.state = .ready → record.image ∈ call.seen
  | .waiting task =>
      Informed key world call ∧ task ∉ call.finished ∧ ∃ phase, world.processes[task]? = some (.build key phase)
  | .returned image => image ∈ call.seen
  | .raised task _ => task ∈ call.ran
  | .cancelled => True

theorem Informed.told (call : Call)
    (ended : ∀ {position : ℕ} {phase : BuildPhase} {outcome : BuildOutcome},
      world.processes[position]? = some (.build key phase) → phase.outcome = some outcome →
        position ∈ call.finished ∨
          position ∈ call.ran ∧ ∀ image, outcome = .image image → image ∈ call.seen)
    (earlier : ∀ position ∈ call.finished, position < world.processes.length) :
    Informed key world
      { call with
        seen := call.seen ++ (readyImage key world).toList
        ran := call.ran ++ positions world (·.runs key) } where
  ready seen := List.mem_append_right _ (by rw [seen]; exact List.mem_singleton_self _)
  running here runs := List.mem_append_right _ (mem_positions.mpr ⟨_, here, runs⟩)
  ended here outcome := by
    obtain finished | ⟨ran, seen⟩ := ended here outcome
    · exact .inl finished
    · exact .inr ⟨List.mem_append_left _ ran, fun image same => List.mem_append_left _ (seen image same)⟩
  earlier := earlier

theorem Informed.evolve (informed : Informed key world call) (sound : world.Sound)
    (evolves : Evolves key world world') :
    Informed key world'
      { call with
        seen := call.seen ++ (readyImage key world').toList
        ran := call.ran ++ positions world' (·.runs key) } := by
  apply Informed.told call
  · intro position phase outcome here ended
    obtain ⟨before, there, leaving | earlier⟩ := evolves.ends here ended
    · subst leaving
      -- until its last step the build had the lock, and what it found or made was there
      right
      refine ⟨informed.running there (by simp [Process.runs, Process.holdsLock]), ?_⟩
      rintro image rfl
      have knows := sound.knows _ (List.mem_of_getElem? there)
      exact informed.ready (readyImage_eq_some.mpr knows)
    · exact informed.ended there earlier
  · intro position finished
    exact lt_of_lt_of_le (informed.earlier position finished) evolves.grows

theorem Call.Sound.observe (knows : call.Sound key world) (sound : world.Sound) (evolves : Evolves key world world') :
    (call.observe key world').Sound key world' := by
  obtain ⟨stage, finished, seen, ran⟩ := call
  cases stage with
  | reading => exact Informed.evolve knows sound evolves
  | read found =>
      refine ⟨knows.1.evolve sound evolves, fun record same ready => ?_⟩
      exact List.mem_append_left _ (knows.2 record same ready)
  | waiting task =>
      obtain ⟨informed, notOver, phase, here⟩ := knows
      exact ⟨informed.evolve sound evolves, notOver, evolves.stays here⟩
  | returned | raised | cancelled => exact knows

theorem Call.sound_begin :
    (Call.observe { finished := positions world Process.isOver } key world).Sound key world := by
  apply Informed.told
  · intro position phase outcome here ended
    left
    refine mem_positions.mpr ⟨_, here, ?_⟩
    cases phase <;> first | rfl | cases ended
  · intro position finished
    obtain ⟨process, here, -⟩ := mem_positions.mp finished
    exact (List.getElem?_eq_some_iff.mp here).1

end Calls

namespace PreparedEnvironmentManager

variable {policy : PreparedEnvironmentGCPolicy} {key : String} {manager target : PreparedEnvironmentManager}
  {label : ManagerLabel} {position : ℕ} {call : Call}

/-- The world, the build in flight and the calls. -/
structure Sound (key : String) (manager : PreparedEnvironmentManager) : Prop where
  world : manager.world.Sound
  inflight : ∀ task ∈ manager.inflight, ∃ phase, manager.world.processes[task]? = some (.build key phase)
  calls : ∀ call ∈ manager.calls, call.Sound key manager.world

theorem Sound.of_told (world : manager.world.Sound)
    (inflight : ∀ task ∈ manager.inflight, ∃ phase, manager.world.processes[task]? = some (.build key phase))
    (told : ∀ call ∈ manager.calls, (call.observe key manager.world).Sound key manager.world) :
    Sound key (manager.observe key) where
  world := world
  inflight := inflight
  calls call listed := by
    obtain ⟨before, earlier, rfl⟩ := List.mem_map.mp listed
    exact told before earlier

section Step

variable (sound : Sound key manager)
include sound

theorem Sound.calls_observe {world' : World} (evolves : Evolves key manager.world world') :
    ∀ call ∈ manager.calls, (call.observe key world').Sound key world' :=
  fun call listed => (sound.calls call listed).observe sound.world evolves

theorem Sound.calls_set {world' : World} (evolves : Evolves key manager.world world') {later : Call}
    (own : (later.observe key world').Sound key world') :
    ∀ call ∈ manager.calls.set position later, (call.observe key world').Sound key world' := by
  intro call listed
  rcases List.mem_or_eq_of_mem_set listed with earlier | rfl
  · exact sound.calls_observe evolves call earlier
  · exact own

theorem Sound.leave (task : ℕ) :
    ∀ other ∈ manager.leave task, ∃ phase, manager.world.processes[other]? = some (.build key phase) := by
  unfold PreparedEnvironmentManager.leave
  split
  · exact nofun
  · exact sound.inflight

theorem Sound.resume (here : manager.calls[position]? = some call)
    (careful : call.joins = true → ∀ task ∈ manager.inflight, task ∉ call.finished)
    (step : manager.resume policy key position call = some target) : Sound key (target.observe key) := by
  have knows := sound.calls call (List.mem_of_getElem? here)
  have still : Evolves key manager.world manager.world := .of_processes rfl
  obtain ⟨stage, finished, seen, ran⟩ := call
  cases stage with
  | read found =>
      obtain ⟨informed, wasReady⟩ := knows
      dsimp only [PreparedEnvironmentManager.resume] at step
      split at step
      · next ready isReady =>
          cases step
          obtain ⟨same, isReady⟩ := Option.filter_eq_some_iff.mp isReady
          exact .of_told sound.world sound.inflight
            (sound.calls_set still (wasReady ready same (of_decide_eq_true isReady)))
      · next missing =>
          have joins : Call.joins ⟨.read found, finished, seen, ran⟩ = true := by
            cases found with
            | none => rfl
            | some record => simpa [Call.joins] using missing
          split at step
          · next task flying =>
              cases step
              have waits : Call.Sound key manager.world ⟨.waiting task, finished, seen, ran⟩ :=
                ⟨informed.setStage _, careful joins task flying,
                  sound.inflight task flying⟩
              exact .of_told sound.world sound.inflight (sound.calls_set still (waits.observe sound.world still))
          · obtain ⟨world', started, same⟩ := Option.bind_eq_some_iff.mp step
            cases same
            have evolves : Evolves key manager.world world' := World.evolves started
            have begun : world'.processes = manager.world.processes ++ [Process.build key .queued] := by
              cases started
              rfl
            have new : world'.processes[manager.world.processes.length]? = some (.build key .queued) := by
              rw [begun]
              exact List.getElem?_concat_length
            refine .of_told (sound.world.step started) ?_ (sound.calls_set evolves ?_)
            · rintro task ⟨⟩
              exact ⟨.queued, new⟩
            · refine ⟨(informed.evolve sound.world evolves).setStage _, fun late => ?_, .queued, new⟩
              exact lt_irrefl _ (informed.earlier _ late)
  | waiting task =>
      obtain ⟨informed, notOver, phase, build⟩ := knows
      dsimp only [PreparedEnvironmentManager.resume] at step
      rw [build] at step
      cases phase with
      | done outcome =>
          cases step
          obtain late | ⟨ran_, seen_⟩ := informed.ended build rfl
          · exact absurd late notOver
          · refine .of_told sound.world (sound.leave task) (sound.calls_set still ?_)
            cases outcome with
            | image image => exact seen_ image rfl
            | refused | failed => exact ran_
      | stopped =>
          cases step
          exact .of_told sound.world (sound.leave task) (sound.calls_set still trivial)
      | queued | locked | putting | building | failing | finishing | leaving | returning => cases step
  | reading | returned | raised | cancelled => cases step

theorem Sound.cancel (step : manager.cancel position call = some target) : Sound key (target.observe key) := by
  have still : Evolves key manager.world manager.world := .of_processes rfl
  obtain ⟨stage, finished, seen, ran⟩ := call
  cases stage with
  | reading | read =>
      cases step
      exact .of_told sound.world sound.inflight (sound.calls_set still trivial)
  | waiting task =>
      cases step
      exact .of_told sound.world (sound.leave task) (sound.calls_set still trivial)
  | returned | raised | cancelled => cases step

theorem Sound.step (careful : manager.Careful label) (step : (system policy key).step manager label target) :
    Sound key target := by
  have still : Evolves key manager.world manager.world := .of_processes rfl
  obtain ⟨acted, act, rfl⟩ := Option.map_eq_some_iff.mp step
  cases label with
  | world label =>
      obtain ⟨world', moved, same⟩ := Option.bind_eq_some_iff.mp act
      cases same
      have evolves : Evolves key manager.world world' := World.evolves moved
      refine .of_told (sound.world.step moved) (fun task flying => ?_) (sound.calls_observe evolves)
      obtain ⟨phase, here⟩ := sound.inflight task flying
      exact evolves.stays here
  | ensureReady =>
      cases act
      refine .of_told sound.world sound.inflight fun call listed => ?_
      rcases List.mem_append.mp listed with earlier | new
      · exact sound.calls_observe still call earlier
      · rw [List.mem_singleton.mp new]
        exact Call.sound_begin
  | read position =>
      obtain ⟨call, here, act⟩ := Option.bind_eq_some_iff.mp act
      have knows := sound.calls call (List.mem_of_getElem? here)
      obtain ⟨stage, finished, seen, ran⟩ := call
      cases stage with
      | reading =>
          cases act
          have told : Call.Sound key manager.world ⟨.read (manager.world.records.get? key), finished, seen, ran⟩ := by
            refine ⟨Informed.setStage knows _, fun record found ready => ?_⟩
            exact knows.ready (readyImage_eq_some.mpr (view_eq_some.mpr ⟨record, found, ready, rfl⟩))
          exact .of_told sound.world sound.inflight (sound.calls_set still (told.observe sound.world still))
      | read | waiting | returned | raised | cancelled => cases act
  | resume position =>
      obtain ⟨call, here, act⟩ := Option.bind_eq_some_iff.mp act
      exact sound.resume here (careful call here) act
  | cancel position =>
      obtain ⟨call, here, act⟩ := Option.bind_eq_some_iff.mp act
      exact sound.cancel act

end Step

theorem world_step (step : (system policy key).step manager label target) :
    target.world = manager.world ∨ ∃ own, (World.system policy).step manager.world own target.world := by
  obtain ⟨acted, act, rfl⟩ := Option.map_eq_some_iff.mp step
  cases label with
  | world label =>
      obtain ⟨world', moved, same⟩ := Option.bind_eq_some_iff.mp act
      cases same
      exact .inr ⟨label, moved⟩
  | ensureReady =>
      cases act
      exact .inl rfl
  | read position =>
      obtain ⟨call, here, act⟩ := Option.bind_eq_some_iff.mp act
      split at act <;> cases act
      exact .inl rfl
  | resume position =>
      obtain ⟨call, here, act⟩ := Option.bind_eq_some_iff.mp act
      unfold PreparedEnvironmentManager.resume at act
      split at act
      · split at act
        · cases act
          exact .inl rfl
        · split at act
          · cases act
            exact .inl rfl
          · obtain ⟨world', started, same⟩ := Option.bind_eq_some_iff.mp act
            cases same
            exact .inr ⟨_, started⟩
      · obtain ⟨ending, -, same⟩ := Option.bind_eq_some_iff.mp act
        cases same
        exact .inl rfl
      · cases act
  | cancel position =>
      obtain ⟨call, here, act⟩ := Option.bind_eq_some_iff.mp act
      unfold PreparedEnvironmentManager.cancel at act
      split at act <;> cases act <;> exact .inl rfl

theorem sound_empty : Sound key {} where
  world := World.sound_empty
  inflight _ flying := by cases flying
  calls _ listed := by cases listed

/-- In every run, no two builds of the key have the lock. Where no call joins a build that was over when
the call began, the record was ready with every image that a call returns at some moment during the call,
and every build whose failure a call raises ran at some moment during the call. -/
theorem answers_kept {labels : List ManagerLabel} (run : (system policy key).Run {} labels manager) :
    (∀ (first second : ℕ) (process other : Process), manager.world.processes[first]? = some process →
        manager.world.processes[second]? = some other →
          process.runs key = true → other.runs key = true → first = second) ∧
      (((system policy key).restrict Careful).Run {} labels manager → ∀ call ∈ manager.calls,
        (∀ image, call.stage = .returned image → image ∈ call.seen) ∧
          ∀ task outcome, call.stage = .raised task outcome → task ∈ call.ran) := by
  constructor
  · have world : manager.world.Sound := by
      apply run.preserves fun manager => manager.world.Sound
      · intro source label target sound step
        obtain same | ⟨own, moved⟩ := world_step step
        · rw [same]
          exact sound
        · exact sound.step moved
      · exact World.sound_empty
    have held {process : Process} (runs : process.runs key = true) : process.holdsLock key = true := by
      cases process with
      | build => exact runs
      | pass => cases runs
    intro first second process other here there runs otherRuns
    exact world.exclusive key first second process other here there (held runs) (held otherRuns)
  · intro careful call listed
    have sound : Sound key manager := by
      apply careful.preserves (Sound key)
      · intro source label target sound step
        exact sound.step step.1 step.2
      · exact sound_empty
    have knows := sound.calls call listed
    refine ⟨fun image returned => ?_, fun task outcome raised => ?_⟩
    · unfold Call.Sound at knows
      rw [returned] at knows
      exact knows
    · unfold Call.Sound at knows
      rw [raised] at knows
      exact knows

/-- An environment is marked as soon as it is idle, and it is deleted a second later. -/
def oneSecond : PreparedEnvironmentGCPolicy where
  idleTTLSeconds := 0
  failedTTLSeconds := 0
  buildTTLSeconds := 60
  deleteGraceSeconds := 1
  quotaBytes := 0

def advances (position count : ℕ) : List ManagerLabel :=
  List.replicate count (.world (.advance position .deleted))

/-- Two calls share a build, and a third one comes behind it. -/
def shared : List ManagerLabel :=
  [ManagerLabel.ensureReady, .read 0, .resume 0] ++ advances 0 3 ++ [ManagerLabel.ensureReady, .read 1, .resume 1] ++
    [ManagerLabel.world (.advance 0 (.built "image" 1))] ++ advances 0 3 ++
    [ManagerLabel.resume 1, .resume 0, .ensureReady, .read 2, .resume 2]

theorem shared_kept :
    let final := System.after (System.guarded Careful (next oneSecond "a")) {} shared
    ((system oneSecond "a").restrict Careful).Run {} shared final ∧
      ∀ call ∈ final.calls, ∀ image, call.stage = .returned image → image ∈ call.seen := by
  have careful : ((system oneSecond "a").restrict Careful).Run {} shared
      (System.after (System.guarded Careful (next oneSecond "a")) {} shared) :=
    .ofGuarded Careful (by decide)
  have run : (system oneSecond "a").Run {} shared
      (System.after (System.guarded Careful (next oneSecond "a")) {} shared) := by
    apply careful.mono
    intro _ _ _ step
    exact step.2
  exact ⟨careful, fun call listed => ((answers_kept run).2 careful call listed).1⟩

/-- The only call is cancelled while the environment is built. The environment is deleted before the next
call. -/
def leftBehind : List ManagerLabel :=
  [ManagerLabel.ensureReady, .read 0, .resume 0] ++ advances 0 3 ++ [ManagerLabel.cancel 0, .world (.advance 0 (.built "image" 1))] ++
    advances 0 3 ++ [ManagerLabel.world (.tick 1000), .world .startPass] ++ advances 1 9 ++
    [ManagerLabel.world (.tick 1000), .world .startPass] ++ advances 2 11 ++ [ManagerLabel.ensureReady, .read 1, .resume 1, .resume 1]

def answer (call : Call) : Option String :=
  match call.stage with
  | .returned image => some image
  | _ => none

/-- The next call returns the image, though there was no record during the call. -/
theorem leftBehind_returned :
    let final := System.after (next oneSecond "a") {} leftBehind
    (system oneSecond "a").Run {} leftBehind final ∧
      final.calls[1]?.map (fun call => (answer call, call.seen)) = some (some "image", []) :=
  ⟨.ofNext (by decide +kernel), by decide +kernel⟩

end PreparedEnvironmentManager

end Sico.TaskRuntime.Environments

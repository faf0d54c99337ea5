import Mathlib.Data.Int.Notation
import Mathlib.Order.Basic
import Sico.Foundation.System
import Sico.Foundation.Traversal

/-! # Limited command sessions

A session of a command backend takes a permit of the gate before its first command and gives it back
when it is closed. A run holds the lock of its session while it waits for the permit; a call of
`aclose` holds another lock. Any number of sessions share the key of the gate, whose ceiling is pinned
by the first run that asks for a permit.

A step is what a task does from one suspension to the next. A task that waits for a lock goes on when
the lock is free, one that waits for a permit when there is one; a task that does not have to wait for
a permit takes it at once. A call may be cancelled wherever it waits. What the session told the backend
is recorded in a log that is not in the source.
-/

namespace Sico.TaskRuntime.CommandSessions

open Foundation

section Model

/-- A lease, which is without a permit where the session has no limit. -/
inductive ResourceLease
  | unlimited
  | permit
  deriving DecidableEq, Repr

inductive RunStage
  /-- The call waits for the lock of the session. -/
  | queued
  /-- The call has the lock and waits for a permit. -/
  | waiting
  | running
  | ended
  deriving DecidableEq, Repr

inductive CloseStage
  | queued
  | closing
  | returned
  | failed
  deriving DecidableEq, Repr

/-- What the underlying session was told: a command, or the end of its `aclose`. -/
inductive Told
  | command
  | closed
  deriving DecidableEq, Repr

/-- `_LimitedCommandSession`, with its calls. -/
structure CommandSession where
  limit : ℤ
  lease : Option ResourceLease := none
  closed : Bool := false
  runs : List RunStage := []
  closes : List CloseStage := []
  log : List Told := []
  deriving DecidableEq, Repr

/-- A semaphore, with the ceiling that was pinned. -/
structure Bucket where
  free : ℕ
  pinned : ℕ
  deriving DecidableEq, Repr

/-- The gate at the key of the sessions. -/
structure ResourceGate where
  bucket : Option Bucket := none
  sessions : List CommandSession := []
  deriving DecidableEq, Repr

/-- What a session sees of the semaphore: whether a permit is free, and whether others wait. -/
structure Supply where
  free : Bool
  crowded : Bool

/-- What a step does to the semaphore. -/
inductive Effect
  | keeps
  | asks
  | acquires
  | releases
  deriving DecidableEq, Repr

inductive SessionLabel
  | run
  | close
  /-- A call of `run` gets the lock of the session. -/
  | enter (position : ℕ)
  /-- A call of `run` gets the permit that it waits for. -/
  | take (position : ℕ)
  /-- A call of `run` returns, raises or is cancelled. -/
  | leave (position : ℕ)
  /-- A call of `aclose` gets the closing lock. -/
  | beginClose (position : ℕ)
  /-- The `aclose` of the underlying session ends. -/
  | endClose (position : ℕ) (failed : Bool)
  /-- A call of `aclose` that waits for the closing lock is cancelled. -/
  | leaveClose (position : ℕ)
  deriving DecidableEq, Repr

namespace CommandSession

variable (session : CommandSession)

def holdsPermit : Bool := session.lease = some .permit

/-- The command is given to the underlying session. -/
def pass (position : ℕ) : CommandSession :=
  { session with runs := session.runs.set position .running, log := session.log ++ [Told.command] }

/-- `run` behind its lock, up to where it waits. -/
def proceed (supply : Supply) (position : ℕ) : CommandSession × Effect :=
  if session.closed then ({ session with runs := session.runs.set position .ended }, .keeps)
  else if session.lease.isSome then (session.pass position, .keeps)
  else if session.limit ≤ 0 then ({ session with lease := some .unlimited }.pass position, .keeps)
  else if supply.free && !supply.crowded then ({ session with lease := some .permit }.pass position, .acquires)
  else ({ session with runs := session.runs.set position .waiting }, .asks)

/-- The end of `aclose`, which gives the lease back in any case. -/
def finish (position : ℕ) (failed : Bool) : CommandSession × Effect :=
  ({ session with
      lease := none
      closes := session.closes.set position (if failed then .failed else .returned)
      log := session.log ++ [Told.closed] },
    if session.holdsPermit then .releases else .keeps)

def next (supply : Supply) : SessionLabel → Option (CommandSession × Effect)
  | .run => some ({ session with runs := session.runs ++ [RunStage.queued] }, .keeps)
  | .close => some ({ session with closes := session.closes ++ [CloseStage.queued] }, .keeps)
  | .enter position =>
      if session.runs[position]? = some .queued ∧ .waiting ∉ session.runs then some (session.proceed supply position)
      else none
  | .take position =>
      if session.runs[position]? = some .waiting ∧ supply.free then
        some ({ session with lease := some .permit }.pass position, .acquires)
      else none
  | .leave position =>
      if position < session.runs.length then
        some ({ session with runs := session.runs.set position .ended }, .keeps)
      else none
  | .beginClose position =>
      if session.closes[position]? = some .queued ∧ .closing ∉ session.closes then
        if session.closed then some ({ session with closes := session.closes.set position .returned }, .keeps)
        else some ({ session with closed := true, closes := session.closes.set position .closing }, .keeps)
      else none
  | .endClose position failed =>
      if session.closes[position]? = some .closing then some (session.finish position failed) else none
  | .leaveClose position =>
      if session.closes[position]? = some .queued then
        some ({ session with closes := session.closes.set position .failed }, .keeps)
      else none

end CommandSession

namespace ResourceGate

inductive Label
  | openSession (limit : ℤ)
  | session (position : ℕ) (label : SessionLabel)
  deriving DecidableEq, Repr

variable (gate : ResourceGate)

/-- `_semaphore`: the ceiling is fixed by the first caller. -/
def semaphore (limit : ℤ) : Bucket := gate.bucket.getD { free := limit.toNat, pinned := limit.toNat }

def supply (limit : ℤ) : Supply where
  free := 0 < (gate.semaphore limit).free
  crowded := gate.sessions.any fun session => .waiting ∈ session.runs

/-- The semaphore behind a step. -/
def affected (limit : ℤ) : Effect → Option Bucket
  | .keeps => gate.bucket
  | .asks => some (gate.semaphore limit)
  | .acquires => some { gate.semaphore limit with free := (gate.semaphore limit).free - 1 }
  | .releases => gate.bucket.map fun bucket => { bucket with free := bucket.free + 1 }

def next : Label → Option ResourceGate
  | .openSession limit => some { gate with sessions := gate.sessions ++ [{ limit }] }
  | .session position label => do
      let session ← gate.sessions[position]?
      let (session', effect) ← session.next (gate.supply session.limit) label
      return { bucket := gate.affected session.limit effect, sessions := gate.sessions.set position session' }

def system : System ResourceGate Label := System.ofNext next

/-- A session is closed to the end only when none of its runs waits for a permit. -/
def Careful : Label → Prop
  | .session position (.endClose _ _) =>
      ∀ session, gate.sessions[position]? = some session → .waiting ∉ session.runs
  | _ => True

instance (label : Label) : Decidable (gate.Careful label) := by
  unfold Careful
  split
  · next position _ _ =>
      cases here : gate.sessions[position]? with
      | none => exact isTrue fun session found => nomatch found
      | some session =>
          exact decidable_of_iff (.waiting ∉ session.runs)
            ⟨fun idle _ same => Option.some.inj same ▸ idle, fun idle => idle session rfl⟩
  · exact inferInstanceAs (Decidable True)

end ResourceGate

end Model

section Sessions

variable {session target : CommandSession} {supply : Supply} {label : SessionLabel} {effect : Effect}

theorem notMem_set {Stage : Type} [DecidableEq Stage] {stages : List Stage} {position : ℕ} {stage put : Stage}
    (here : stages[position]? = some stage) (single : stages.count stage ≤ 1) (other : put ≠ stage) :
    stage ∉ stages.set position put := by
  have counted := countP_set_of_getElem? (· == stage) put here
  simp only [BEq.rfl, ↓reduceIte, beq_iff_eq, if_neg other] at counted
  unfold List.count at single
  apply List.count_eq_zero.mp
  unfold List.count
  omega

theorem notMem_set_of_ne {Stage : Type} {stages : List Stage} {position : ℕ} {stage put : Stage}
    (absent : stage ∉ stages) (other : put ≠ stage) : stage ∉ stages.set position put := by
  intro listed
  rcases List.mem_or_eq_of_mem_set listed with earlier | same
  · exact absent earlier
  · exact other same.symm

theorem count_set_le {Stage : Type} [DecidableEq Stage] {stages : List Stage} {position : ℕ} {stage put : Stage}
    (other : put ≠ stage) : (stages.set position put).count stage ≤ stages.count stage := by
  by_cases inside : position < stages.length
  · have counted := countP_set_of_getElem? (· == stage) put (List.getElem?_eq_getElem inside)
    simp only [beq_iff_eq, if_neg other] at counted
    unfold List.count
    split at counted <;> omega
  · rw [List.set_eq_of_length_le (by omega)]

/-- One run at most waits for a permit, while the session has no lease. -/
structure RunsSound (session : CommandSession) : Prop where
  single : session.runs.count .waiting ≤ 1
  fresh : .waiting ∈ session.runs → session.lease = none

/-- A session is closed once: by a call that is at it, or has been. -/
structure ClosesSound (session : CommandSession) : Prop where
  single : session.closes.count .closing ≤ 1
  closing : .closing ∈ session.closes → session.closed = true ∧ .closed ∉ session.log
  ending : session.closed = true → .closing ∈ session.closes ∨ .closed ∈ session.log
  returned : .returned ∈ session.closes → .closed ∈ session.log
  told : .closed ∈ session.log → session.closed = true

theorem RunsSound.of_notMem (none : .waiting ∉ session.runs) : RunsSound session where
  single := by
    rw [List.count_eq_zero.mpr none]
    exact Nat.zero_le 1
  fresh listed := absurd listed none

theorem RunsSound.proceed (supply : Supply) (absent : .waiting ∉ session.runs) {position : ℕ}
    (here : session.runs[position]? = some .queued) : RunsSound (session.proceed supply position).1 := by
  unfold CommandSession.proceed
  split
  · exact .of_notMem (notMem_set_of_ne absent RunStage.noConfusion)
  · split
    · exact .of_notMem (notMem_set_of_ne absent RunStage.noConfusion)
    · next unleased =>
        split
        · exact .of_notMem (notMem_set_of_ne absent RunStage.noConfusion)
        · split
          · exact .of_notMem (notMem_set_of_ne absent RunStage.noConfusion)
          · refine ⟨?_, fun _ => by simpa using unleased⟩
            have counted := countP_set_of_getElem? (· == RunStage.waiting) .waiting here
            have before := List.count_eq_zero.mpr absent
            unfold List.count at before ⊢
            simp only [BEq.rfl, ↓reduceIte] at counted
            dsimp only
            split at counted <;> omega

theorem RunsSound.step (sound : RunsSound session) (step : session.next supply label = some (target, effect)) :
    RunsSound target := by
  cases label with
  | run =>
      cases step
      refine ⟨?_, fun listed => sound.fresh ?_⟩
      · rw [List.count_append]
        exact sound.single
      · rcases List.mem_append.mp listed with earlier | new
        · exact earlier
        · cases List.mem_singleton.mp new
  | close =>
      cases step
      exact ⟨sound.single, sound.fresh⟩
  | enter position =>
      obtain ⟨⟨here, absent⟩, same⟩ := Option.ite_none_right_eq_some.mp step
      have admitted := RunsSound.proceed supply absent here
      rwa [Option.some.inj same] at admitted
  | take position =>
      obtain ⟨⟨here, -⟩, same⟩ := Option.ite_none_right_eq_some.mp step
      cases same
      exact .of_notMem (notMem_set here sound.single RunStage.noConfusion)
  | leave position =>
      obtain ⟨-, same⟩ := Option.ite_none_right_eq_some.mp step
      cases same
      refine ⟨(count_set_le RunStage.noConfusion).trans sound.single, fun listed => sound.fresh ?_⟩
      rcases List.mem_or_eq_of_mem_set listed with earlier | other
      · exact earlier
      · cases other
  | beginClose position =>
      obtain ⟨-, same⟩ := Option.ite_none_right_eq_some.mp step
      split at same <;> cases same <;> exact ⟨sound.single, sound.fresh⟩
  | endClose position failed =>
      obtain ⟨-, same⟩ := Option.ite_none_right_eq_some.mp step
      cases same
      exact ⟨sound.single, fun _ => rfl⟩
  | leaveClose position =>
      obtain ⟨-, same⟩ := Option.ite_none_right_eq_some.mp step
      cases same
      exact ⟨sound.single, sound.fresh⟩

theorem ClosesSound.of_runs (sound : ClosesSound session) (closed : target.closed = session.closed)
    (closes : target.closes = session.closes) (log : .closed ∈ target.log ↔ .closed ∈ session.log) :
    ClosesSound target where
  single := by
    rw [closes]
    exact sound.single
  closing listed := by
    rw [closes] at listed
    rw [closed, log]
    exact sound.closing listed
  ending isClosed := by
    rw [closed] at isClosed
    rw [closes, log]
    exact sound.ending isClosed
  returned listed := by
    rw [closes] at listed
    exact log.mpr (sound.returned listed)
  told listed := by
    rw [closed]
    exact sound.told (log.mp listed)

theorem closed_mem_append_command (log : List Told) : .closed ∈ log ++ [Told.command] ↔ .closed ∈ log := by
  rw [List.mem_append, List.mem_singleton]
  exact or_iff_left Told.noConfusion

theorem ClosesSound.proceed (sound : ClosesSound session) (supply : Supply) (position : ℕ) :
    ClosesSound (session.proceed supply position).1 := by
  have passed : .closed ∈ session.log ++ [Told.command] ↔ .closed ∈ session.log := closed_mem_append_command _
  unfold CommandSession.proceed
  split
  · exact sound.of_runs rfl rfl Iff.rfl
  · split
    · exact sound.of_runs rfl rfl passed
    · split
      · exact sound.of_runs rfl rfl passed
      · split
        · exact sound.of_runs rfl rfl passed
        · exact sound.of_runs rfl rfl Iff.rfl

/-- A call of `aclose` that gets the closing lock begins to close, or finds that it is done. -/
theorem ClosesSound.begin (sound : ClosesSound session) {position : ℕ}
    (here : session.closes[position]? = some .queued) (free : .closing ∉ session.closes)
    (fresh : session.closed = false) :
    ClosesSound { session with closed := true, closes := session.closes.set position .closing } where
  single := by
    have counted := countP_set_of_getElem? (· == CloseStage.closing) .closing here
    have before := List.count_eq_zero.mpr free
    unfold List.count at before ⊢
    simp only [BEq.rfl, ↓reduceIte] at counted
    dsimp only
    split at counted <;> omega
  closing _ := by
    refine ⟨rfl, fun told => ?_⟩
    rw [sound.told told] at fresh
    cases fresh
  ending _ := .inl (List.mem_iff_getElem?.mpr ⟨position, by
    rw [List.getElem?_set_self (List.getElem?_eq_some_iff.mp here).1]⟩)
  returned listed := by
    rcases List.mem_or_eq_of_mem_set listed with earlier | other
    · exact sound.returned earlier
    · cases other
  told _ := rfl

theorem ClosesSound.finish (sound : ClosesSound session) {position : ℕ}
    (here : session.closes[position]? = some .closing) (failed : Bool) :
    ClosesSound (session.finish position failed).1 := by
  have gone : .closing ∉ session.closes.set position (if failed then .failed else .returned) := by
    apply notMem_set here sound.single
    split <;> exact CloseStage.noConfusion
  exact
    { single := by
        rw [show (session.finish position failed).1.closes.count .closing = 0 from List.count_eq_zero.mpr gone]
        exact Nat.zero_le 1
      closing := fun listed => absurd listed gone
      ending := fun _ => .inr (List.mem_append_right _ List.mem_cons_self)
      returned := fun _ => List.mem_append_right _ List.mem_cons_self
      told := fun _ => (sound.closing (List.mem_of_getElem? here)).1 }

/-- A call of `aclose` that ends without closing, which is well where the session is closed. -/
theorem ClosesSound.set (sound : ClosesSound session) (position : ℕ) {stage : CloseStage}
    (other : stage ≠ .closing) (absent : .closing ∉ session.closes ∨ session.closes[position]? = some .queued)
    (returns : stage = .returned → .closed ∈ session.log) :
    ClosesSound { session with closes := session.closes.set position stage } where
  single := (count_set_le other).trans sound.single
  closing listed := by
    rcases List.mem_or_eq_of_mem_set listed with earlier | same
    · exact sound.closing earlier
    · exact absurd same.symm other
  ending isClosed := by
    rcases sound.ending isClosed with listed | told
    · left
      rcases absent with absent | here
      · exact absurd listed absent
      · obtain ⟨place, there⟩ := List.mem_iff_getElem?.mp listed
        apply List.mem_iff_getElem?.mpr
        refine ⟨place, ?_⟩
        rw [List.getElem?_set_ne]
        · exact there
        · rintro rfl
          rw [here] at there
          cases there
    · exact .inr told
  returned listed := by
    rcases List.mem_or_eq_of_mem_set listed with earlier | same
    · exact sound.returned earlier
    · exact returns same.symm
  told := sound.told

theorem ClosesSound.step (sound : ClosesSound session) (step : session.next supply label = some (target, effect)) :
    ClosesSound target := by
  cases label with
  | run =>
      cases step
      exact sound.of_runs rfl rfl Iff.rfl
  | close =>
      cases step
      have new {stage : CloseStage} (listed : stage ∈ session.closes ++ [CloseStage.queued]) (other : stage ≠ .queued) :
          stage ∈ session.closes :=
        (List.mem_append.mp listed).resolve_right fun last => other (List.mem_singleton.mp last)
      exact
        { single := by
            rw [List.count_append]
            exact sound.single
          closing := fun listed => sound.closing (new listed CloseStage.noConfusion)
          ending := fun isClosed => (sound.ending isClosed).imp_left (List.mem_append_left _)
          returned := fun listed => sound.returned (new listed CloseStage.noConfusion)
          told := sound.told }
  | enter position =>
      obtain ⟨-, same⟩ := Option.ite_none_right_eq_some.mp step
      have admitted := sound.proceed supply position
      rwa [Option.some.inj same] at admitted
  | take position =>
      obtain ⟨-, same⟩ := Option.ite_none_right_eq_some.mp step
      cases same
      exact sound.of_runs rfl rfl (closed_mem_append_command _)
  | leave position =>
      obtain ⟨-, same⟩ := Option.ite_none_right_eq_some.mp step
      cases same
      exact sound.of_runs rfl rfl Iff.rfl
  | beginClose position =>
      obtain ⟨⟨here, free⟩, same⟩ := Option.ite_none_right_eq_some.mp step
      split at same
      · next isClosed =>
          cases same
          exact sound.set position CloseStage.noConfusion (.inl free) fun _ =>
            (sound.ending isClosed).resolve_left free
      · next isOpen =>
          cases same
          exact sound.begin here free (by simpa using isOpen)
  | endClose position failed =>
      obtain ⟨here, same⟩ := Option.ite_none_right_eq_some.mp step
      have finished := sound.finish here failed
      rwa [Option.some.inj same] at finished
  | leaveClose position =>
      obtain ⟨here, same⟩ := Option.ite_none_right_eq_some.mp step
      cases same
      exact sound.set position CloseStage.noConfusion (.inr here) fun same => by cases same

/-- What a step does to the semaphore is what it does to the lease of the session. -/
def Accounts (session target : CommandSession) (supply : Supply) : Effect → Prop
  | .keeps | .asks => target.holdsPermit = session.holdsPermit
  | .acquires => session.holdsPermit = false ∧ target.holdsPermit = true ∧ supply.free = true
  | .releases => session.holdsPermit = true ∧ target.holdsPermit = false

theorem holdsPermit_of_none (none : session.lease = none) : session.holdsPermit = false := by
  unfold CommandSession.holdsPermit
  rw [none]
  rfl

theorem accounts_proceed (session : CommandSession) (supply : Supply) (position : ℕ) :
    Accounts session (session.proceed supply position).1 supply (session.proceed supply position).2 := by
  unfold CommandSession.proceed
  split
  · rfl
  · split
    · rfl
    · next unleased =>
        have none : session.lease = none := by simpa using unleased
        split
        · exact (holdsPermit_of_none none).symm
        · split
          · next free =>
              rw [Bool.and_eq_true] at free
              exact ⟨holdsPermit_of_none none, rfl, free.1⟩
          · rfl

theorem accounts (sound : RunsSound session) (step : session.next supply label = some (target, effect)) :
    Accounts session target supply effect := by
  cases label with
  | run | close =>
      cases step
      rfl
  | enter position =>
      obtain ⟨-, same⟩ := Option.ite_none_right_eq_some.mp step
      have admitted := accounts_proceed session supply position
      rwa [Option.some.inj same] at admitted
  | take position =>
      obtain ⟨⟨here, free⟩, same⟩ := Option.ite_none_right_eq_some.mp step
      cases same
      exact ⟨holdsPermit_of_none (sound.fresh (List.mem_of_getElem? here)), rfl, free⟩
  | leave position | leaveClose position =>
      obtain ⟨-, same⟩ := Option.ite_none_right_eq_some.mp step
      cases same
      rfl
  | beginClose position =>
      obtain ⟨-, same⟩ := Option.ite_none_right_eq_some.mp step
      split at same <;> cases same <;> rfl
  | endClose position failed =>
      obtain ⟨-, same⟩ := Option.ite_none_right_eq_some.mp step
      unfold CommandSession.finish at same
      cases same
      by_cases holds : session.holdsPermit = true
      · rw [if_pos holds]
        exact ⟨holds, rfl⟩
      · rw [if_neg holds]
        exact ((Bool.not_eq_true _).mp holds).symm

end Sessions

section Gate

variable {gate target : ResourceGate} {label : ResourceGate.Label}

/-- The permits that are free and those that sessions hold are all there are. -/
def Balanced (gate : ResourceGate) : Prop :=
  ∀ limit, (gate.semaphore limit).free + gate.sessions.countP CommandSession.holdsPermit =
    (gate.semaphore limit).pinned

theorem Balanced.move (balanced : Balanced gate) {position : ℕ} {session session' : CommandSession} {effect : Effect}
    (here : gate.sessions[position]? = some session)
    (account : Accounts session session' (gate.supply session.limit) effect) :
    Balanced
      { bucket := gate.affected session.limit effect, sessions := gate.sessions.set position session' } := by
  intro limit
  have counted := countP_set_of_getElem? CommandSession.holdsPermit session' here
  have before := balanced limit
  have own := balanced session.limit
  cases effect with
  | keeps =>
      rw [show session'.holdsPermit = session.holdsPermit from account] at counted
      have same : (gate.sessions.set position session').countP CommandSession.holdsPermit =
          gate.sessions.countP CommandSession.holdsPermit := by omega
      exact same ▸ before
  | asks =>
      rw [show session'.holdsPermit = session.holdsPermit from account] at counted
      have same : (gate.sessions.set position session').countP CommandSession.holdsPermit =
          gate.sessions.countP CommandSession.holdsPermit := by omega
      exact same ▸ own
  | acquires =>
      obtain ⟨unheld, held, free⟩ := account
      rw [unheld, held] at counted
      have positive : 0 < (gate.semaphore session.limit).free := of_decide_eq_true free
      simp only [Bool.false_eq_true, ↓reduceIte] at counted
      change (gate.semaphore session.limit).free - 1 +
        (gate.sessions.set position session').countP CommandSession.holdsPermit =
          (gate.semaphore session.limit).pinned
      omega
  | releases =>
      obtain ⟨held, unheld⟩ := account
      rw [held, unheld] at counted
      simp only [Bool.false_eq_true, ↓reduceIte] at counted
      cases pinned : gate.bucket with
      | none =>
          -- without a semaphore no session holds a permit of it
          simp only [ResourceGate.semaphore, pinned, Option.getD_none] at own
          omega
      | some bucket =>
          simp only [ResourceGate.semaphore, pinned, Option.getD_some] at before
          simp only [ResourceGate.semaphore, ResourceGate.affected, pinned, Option.map_some, Option.getD_some]
          omega

theorem next_cases (step : gate.next label = some target) :
    (∃ limit, label = .openSession limit ∧ target = { gate with sessions := gate.sessions ++ [{ limit }] }) ∨
    ∃ position session session' own effect, label = .session position own ∧
      gate.sessions[position]? = some session ∧
      session.next (gate.supply session.limit) own = some (session', effect) ∧
      target =
        { bucket := gate.affected session.limit effect, sessions := gate.sessions.set position session' } := by
  cases label with
  | openSession limit => exact .inl ⟨limit, rfl, (Option.some.inj step).symm⟩
  | session position own =>
      obtain ⟨session, here, step⟩ := Option.bind_eq_some_iff.mp step
      obtain ⟨⟨session', effect⟩, moved, same⟩ := Option.bind_eq_some_iff.mp step
      exact .inr ⟨position, session, session', own, effect, rfl, here, moved, (Option.some.inj same).symm⟩

theorem each_step {property : CommandSession → Prop} (opened : ∀ limit, property { limit })
    (kept : ∀ position session session' own effect, label = .session position own →
      gate.sessions[position]? = some session → property session →
        session.next (gate.supply session.limit) own = some (session', effect) → property session')
    (step : gate.next label = some target) (each : ∀ session ∈ gate.sessions, property session) :
    ∀ session ∈ target.sessions, property session := by
  intro other listed
  obtain ⟨limit, -, rfl⟩ | ⟨position, session, session', own, effect, same, here, moved, rfl⟩ := next_cases step
  · rcases List.mem_append.mp listed with earlier | new
    · exact each other earlier
    · rw [List.mem_singleton.mp new]
      exact opened limit
  · rcases List.mem_or_eq_of_mem_set listed with earlier | rfl
    · exact each other earlier
    · exact kept position session _ own effect same here (each session (List.mem_of_getElem? here)) moved

/-- What holds of the gate and of its sessions in every run. -/
structure Sound (gate : ResourceGate) : Prop where
  runs : ∀ session ∈ gate.sessions, RunsSound session
  closes : ∀ session ∈ gate.sessions, ClosesSound session
  balanced : Balanced gate

theorem runsSound_opened (limit : ℤ) : RunsSound { limit } := .of_notMem List.not_mem_nil

theorem closesSound_opened (limit : ℤ) : ClosesSound { limit } where
  single := Nat.zero_le 1
  closing listed := by cases listed
  ending closed := by cases closed
  returned listed := by cases listed
  told listed := by cases listed

theorem Sound.step (sound : Sound gate) (step : ResourceGate.system.step gate label target) : Sound target where
  runs := each_step runsSound_opened (fun _ _ _ _ _ _ _ holds moved => holds.step moved) step sound.runs
  closes := each_step closesSound_opened (fun _ _ _ _ _ _ _ holds moved => holds.step moved) step sound.closes
  balanced := by
    obtain ⟨limit, -, rfl⟩ | ⟨position, session, session', own, effect, -, here, moved, rfl⟩ := next_cases step
    · intro other
      have before := sound.balanced other
      dsimp only
      rw [List.countP_append]
      exact before
    · exact sound.balanced.move here (accounts (sound.runs session (List.mem_of_getElem? here)) moved)

theorem opening_sound : Sound {} where
  runs session listed := by cases listed
  closes session listed := by cases listed
  balanced limit := rfl

/-- A session whose `aclose` has ended has no lease, no run of it waits for one, and no command was
passed since. -/
structure Quiet (session : CommandSession) : Prop where
  released : .closed ∈ session.log → session.lease = none
  idle : .closed ∈ session.log → .waiting ∉ session.runs
  ordered : session.log.Pairwise fun earlier later => ¬ (earlier = .closed ∧ later = .command)

theorem Quiet.of_open {session : CommandSession} (isOpen : .closed ∉ session.log) : Quiet session where
  released told := absurd told isOpen
  idle told := absurd told isOpen
  ordered := List.pairwise_of_forall_mem_list fun _ listed _ _ same => isOpen (same.1 ▸ listed)

section Closing

variable {session session' : CommandSession} {supply : Supply} {own : SessionLabel} {effect : Effect}

/-- Behind the end of `aclose` nothing is passed and no permit is taken. -/
theorem Quiet.behind (quiet : Quiet session) (closes : ClosesSound session) (told : .closed ∈ session.log)
    (step : session.next supply own = some (session', effect)) : Quiet session' := by
  have closed := closes.told told
  have none := quiet.released told
  have idle := quiet.idle told
  cases own with
  | run =>
      cases step
      refine ⟨fun _ => none, fun _ listed => ?_, quiet.ordered⟩
      rcases List.mem_append.mp listed with earlier | new
      · exact idle earlier
      · cases List.mem_singleton.mp new
  | close =>
      cases step
      exact ⟨fun _ => none, fun _ => idle, quiet.ordered⟩
  | enter position =>
      obtain ⟨-, same⟩ := Option.ite_none_right_eq_some.mp step
      unfold CommandSession.proceed at same
      rw [if_pos closed] at same
      cases same
      exact ⟨fun _ => none, fun _ => notMem_set_of_ne idle RunStage.noConfusion, quiet.ordered⟩
  | take position =>
      obtain ⟨⟨here, -⟩, -⟩ := Option.ite_none_right_eq_some.mp step
      exact absurd (List.mem_of_getElem? here) idle
  | leave position =>
      obtain ⟨-, same⟩ := Option.ite_none_right_eq_some.mp step
      cases same
      exact ⟨fun _ => none, fun _ => notMem_set_of_ne idle RunStage.noConfusion, quiet.ordered⟩
  | beginClose position =>
      obtain ⟨-, same⟩ := Option.ite_none_right_eq_some.mp step
      rw [if_pos closed] at same
      cases same
      exact ⟨fun _ => none, fun _ => idle, quiet.ordered⟩
  | endClose position failed =>
      obtain ⟨here, -⟩ := Option.ite_none_right_eq_some.mp step
      exact absurd told (closes.closing (List.mem_of_getElem? here)).2
  | leaveClose position =>
      obtain ⟨-, same⟩ := Option.ite_none_right_eq_some.mp step
      cases same
      exact ⟨fun _ => none, fun _ => idle, quiet.ordered⟩

theorem log_of_next (step : session.next supply own = some (session', effect)) :
    (∃ position failed, own = .endClose position failed ∧ session' = (session.finish position failed).1) ∨
      (.closed ∈ session'.log ↔ .closed ∈ session.log) := by
  cases own with
  | run | close =>
      cases step
      exact .inr Iff.rfl
  | enter position =>
      obtain ⟨-, same⟩ := Option.ite_none_right_eq_some.mp step
      have target := congrArg Prod.fst (Option.some.inj same)
      right
      rw [← show _ = session' from target]
      have passed := closed_mem_append_command session.log
      unfold CommandSession.proceed
      split
      · exact Iff.rfl
      · split
        · exact passed
        · split
          · exact passed
          · split
            · exact passed
            · exact Iff.rfl
  | take position =>
      obtain ⟨-, same⟩ := Option.ite_none_right_eq_some.mp step
      cases same
      exact .inr (closed_mem_append_command _)
  | leave position | leaveClose position =>
      obtain ⟨-, same⟩ := Option.ite_none_right_eq_some.mp step
      cases same
      exact .inr Iff.rfl
  | beginClose position =>
      obtain ⟨-, same⟩ := Option.ite_none_right_eq_some.mp step
      split at same <;> cases same <;> exact .inr Iff.rfl
  | endClose position failed =>
      obtain ⟨-, same⟩ := Option.ite_none_right_eq_some.mp step
      exact .inl ⟨position, failed, rfl, (congrArg Prod.fst (Option.some.inj same)).symm⟩

theorem Quiet.step (quiet : Quiet session) (closes : ClosesSound session)
    (careful : ∀ position failed, own = .endClose position failed → .waiting ∉ session.runs)
    (step : session.next supply own = some (session', effect)) : Quiet session' := by
  by_cases told : .closed ∈ session.log
  · exact quiet.behind closes told step
  · obtain ⟨position, failed, same, rfl⟩ | log := log_of_next step
    · refine ⟨fun _ => rfl, fun _ => careful position failed same, ?_⟩
      apply List.pairwise_append.mpr
      refine ⟨quiet.ordered, List.pairwise_singleton _ _, fun _ _ later listed bad => ?_⟩
      rw [List.mem_singleton.mp listed] at bad
      cases bad.2
    · exact .of_open (log.not.mpr told)

end Closing

theorem quiet_step (sound : Sound gate) (quiet : ∀ session ∈ gate.sessions, Quiet session)
    (step : (ResourceGate.system.restrict ResourceGate.Careful).step gate label target) :
    ∀ session ∈ target.sessions, Quiet session := by
  obtain ⟨careful, step⟩ := step
  have opened (limit : ℤ) : Quiet { limit } := .of_open List.not_mem_nil
  apply each_step opened _ step quiet
  intro position session session' own effect same here holds moved
  subst same
  apply holds.step (sound.closes session (List.mem_of_getElem? here)) _ moved
  rintro place failed rfl
  exact careful session here

/-- No more sessions hold a permit than the ceiling that is pinned. Where no session is closed to the
end while a run of it waits for a permit, a session that was closed and whose runs have ended holds
none, and no command is passed behind the end of `aclose`. -/
theorem permits_kept {labels : List ResourceGate.Label} (run : ResourceGate.system.Run {} labels gate) :
    gate.sessions.countP CommandSession.holdsPermit ≤ (gate.bucket.map Bucket.pinned).getD 0 ∧
      ((ResourceGate.system.restrict ResourceGate.Careful).Run {} labels gate →
        ∀ session ∈ gate.sessions,
          (.returned ∈ session.closes → (∀ stage ∈ session.runs, stage = .ended) → session.holdsPermit = false) ∧
            ∀ before after, session.log = before ++ .closed :: after → .command ∉ after) := by
  have sound := run.preserves Sound (fun _ _ _ sound step => sound.step step) opening_sound
  refine ⟨?_, fun careful session listed => ?_⟩
  · have balanced := sound.balanced 0
    unfold ResourceGate.semaphore at balanced
    cases pinned : gate.bucket with
    | none =>
        rw [pinned] at balanced
        dsimp only [Option.getD_none, Option.map_none] at balanced ⊢
        omega
    | some bucket =>
        rw [pinned] at balanced
        dsimp only [Option.getD_some, Option.map_some] at balanced ⊢
        omega
  · have both : Sound gate ∧ ∀ session ∈ gate.sessions, Quiet session := by
      apply careful.preserves fun gate => Sound gate ∧ ∀ session ∈ gate.sessions, Quiet session
      · intro _ _ _ holds step
        exact ⟨holds.1.step step.2, quiet_step holds.1 holds.2 step⟩
      · exact ⟨opening_sound, fun session listed => by cases listed⟩
    have quiet := both.2 session listed
    refine ⟨fun returned _ => ?_, fun before after log command => ?_⟩
    · exact holdsPermit_of_none (quiet.released ((sound.closes session listed).returned returned))
    · have ordered := quiet.ordered
      rw [log] at ordered
      have later := (List.pairwise_cons.mp (List.pairwise_append.mp ordered).2.1).1
      exact later .command command ⟨rfl, rfl⟩

/-- Two sessions, one permit: the second one waits until the first one is closed. -/
def inTurn : List ResourceGate.Label :=
  [.openSession 1, .openSession 1, .session 0 .run, .session 0 (.enter 0), .session 1 .run, .session 1 (.enter 0),
    .session 0 .close, .session 0 (.beginClose 0), .session 0 (.endClose 0 false), .session 1 (.take 0),
    .session 0 (.leave 0), .session 1 (.leave 0)]

theorem inTurn_kept :
    let final := System.after (System.guarded ResourceGate.Careful ResourceGate.next) {} inTurn
    (ResourceGate.system.restrict ResourceGate.Careful).Run {} inTurn final ∧
      ∀ session ∈ final.sessions, .returned ∈ session.closes → (∀ stage ∈ session.runs, stage = .ended) →
        session.holdsPermit = false := by
  have run : (ResourceGate.system.restrict ResourceGate.Careful).Run {} inTurn
      (System.after (System.guarded ResourceGate.Careful ResourceGate.next) {} inTurn) :=
    .ofGuarded ResourceGate.Careful (by decide)
  have unrestricted : ResourceGate.system.Run {} inTurn
      (System.after (System.guarded ResourceGate.Careful ResourceGate.next) {} inTurn) := by
    apply run.mono
    intro _ _ _ step
    exact step.2
  exact ⟨run, fun session listed => ((permits_kept unrestricted).2 run session listed).1⟩

/-- As before, but the second session is closed while its run waits for the permit. -/
def closedEarly : List ResourceGate.Label :=
  [.openSession 1, .openSession 1, .session 0 .run, .session 0 (.enter 0), .session 1 .run, .session 1 (.enter 0),
    .session 1 .close, .session 1 (.beginClose 0), .session 1 (.endClose 0 false), .session 0 .close,
    .session 0 (.beginClose 0), .session 0 (.endClose 0 false), .session 1 (.take 0), .session 1 (.leave 0)]

/-- The second session holds the permit though it is closed and its run has ended, and the command of
the run was passed after the end of `aclose`. -/
theorem closedEarly_leaks :
    ResourceGate.system.Run {} closedEarly (System.after ResourceGate.next {} closedEarly) ∧
      ∃ session ∈ (System.after ResourceGate.next {} closedEarly).sessions,
        session.closes = [.returned] ∧ session.runs = [.ended] ∧ session.holdsPermit = true ∧
          session.log = [.closed, .command] :=
  ⟨.ofNext (by decide), by decide⟩

end Gate

end Sico.TaskRuntime.CommandSessions

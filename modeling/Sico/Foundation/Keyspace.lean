import Mathlib.Logic.Function.Basic
import Sico.Foundation.System

/-! # Clients of a shared keyspace

A store holds at each key a value of that key's type or nothing. Clients run programs
against it, one command at a time and in any interleaving: single reads, scripts,
and transactions that watch keys, read, and queue their writes to be executed only if
no watched key has changed since. A program that guarantees something of each of its
own steps, relying on the others to keep an invariant, guarantees it in every
interleaving (`Foundation.Keyspace.World.step_allowed`) and when it runs alone
(`Foundation.Keyspace.Program.Guarantees.alone`).
-/

namespace Foundation.Keyspace

variable {Key : Type} (Value : Key → Type)

abbrev Store := (key : Key) → Option (Value key)

/-- A write to one key. -/
structure Command where
  key : Key
  change : Option (Value key) → Option (Value key)

/-- A client's program. The commands of `exec` are applied only if no watched key has
changed, and the program goes on with whether they were; those of `eval` always are. -/
inductive Program (Result : Type) where
  | done (result : Result)
  | get (key : Key) (next : Option (Value key) → Program Result)
  | eval (effect : Store Value → List (Command Value)) (next : Store Value → Program Result)
  | watch (keys : List Key) (next : Program Result)
  | exec (commands : List (Command Value)) (next : Bool → Program Result)

/-- A client between two commands: what is left of its program, the keys it watches,
what it has read since it began to watch, and whether a watched key has changed. -/
structure Process (Result : Type) where
  program : Program Value Result
  watched : List Key
  seen : List ((key : Key) × Option (Value key))
  dirty : Bool

/-- A relation between the store and the program before a step and those after it. -/
abbrev Transition (Result : Type) :=
  Store Value → Program Value Result → Store Value → Program Value Result → Prop

structure World (Client Result : Type) where
  store : Store Value
  processes : Client → Process Value Result

/-- A client takes a step, or one of its watched keys is written with the value it had. -/
inductive Move (Client : Type) where
  | step (client : Client)
  | touch (client : Client)

variable {Value} {Result Client : Type}

/-- What was read of the watched keys is still there. -/
def Agrees (watched : List Key) (seen : List ((key : Key) × Option (Value key)))
    (store : Store Value) : Prop :=
  ∀ entry ∈ seen, entry.1 ∈ watched → store entry.1 = entry.2

theorem Agrees.found {watched : List Key} {seen found : List ((key : Key) × Option (Value key))}
    {store : Store Value} (agrees : Agrees watched seen store) (kept : found ⊆ seen) {key : Key}
    {value : Option (Value key)} (member : ⟨key, value⟩ ∈ found) (watching : key ∈ watched) :
    store key = value :=
  agrees ⟨key, value⟩ (kept member) watching

def Process.launch (program : Program Value Result) : Process Value Result where
  program := program
  watched := []
  seen := []
  dirty := false

/-- A program that goes on with the result of another. -/
def Program.bind {Later : Type} (rest : Result → Program Value Later) :
    Program Value Result → Program Value Later
  | .done result => rest result
  | .get key next => .get key fun value => (next value).bind rest
  | .eval effect next => .eval effect fun store => (next store).bind rest
  | .watch keys next => .watch keys (next.bind rest)
  | .exec commands next => .exec commands fun committed => (next committed).bind rest

def Program.isDone : Program Value Result → Bool
  | .done _ => true
  | _ => false

section Commands

variable [DecidableEq Key]

def Command.apply (command : Command Value) (store : Store Value) : Store Value :=
  Function.update store command.key (command.change (store command.key))

def applyAll (commands : List (Command Value)) (store : Store Value) : Store Value :=
  commands.foldl (fun store command => command.apply store) store

@[simp] theorem applyAll_nil (store : Store Value) : applyAll [] store = store :=
  rfl

@[simp] theorem applyAll_cons (command : Command Value) (commands : List (Command Value))
    (store : Store Value) :
    applyAll (command :: commands) store = applyAll commands (command.apply store) :=
  rfl

theorem applyAll_append (before after : List (Command Value)) (store : Store Value) :
    applyAll (before ++ after) store = applyAll after (applyAll before store) :=
  List.foldl_append

@[simp] theorem Command.apply_same (command : Command Value) (store : Store Value) :
    command.apply store command.key = command.change (store command.key) :=
  Function.update_self ..

theorem Command.apply_other (command : Command Value) (store : Store Value) {key : Key}
    (different : key ≠ command.key) : command.apply store key = store key :=
  Function.update_of_ne different ..

theorem applyAll_untouched {commands : List (Command Value)} {key : Key}
    (untouched : ∀ command ∈ commands, key ≠ command.key) (store : Store Value) :
    applyAll commands store key = store key := by
  induction commands generalizing store with
  | nil => rfl
  | cons command rest ih =>
      rw [applyAll_cons, ih fun later member => untouched later (List.mem_cons_of_mem _ member)]
      exact command.apply_other store (untouched command List.mem_cons_self)

/-- The store and the result a program leaves when no other client interferes. -/
def Program.alone : Program Value Result → Store Value → Store Value × Result
  | .done result, store => (store, result)
  | .get key next, store => (next (store key)).alone store
  | .eval effect next, store => (next store).alone (applyAll (effect store) store)
  | .watch _ next, store => next.alone store
  | .exec commands next, store => (next true).alone (applyAll commands store)

theorem Program.alone_bind {Later : Type} (rest : Result → Program Value Later)
    (program : Program Value Result) (store : Store Value) :
    (program.bind rest).alone store =
      (rest (program.alone store).2).alone (program.alone store).1 := by
  induction program generalizing store with
  | done result => rfl
  | get key next ih => exact ih (store key) store
  | eval effect next ih => exact ih store (applyAll (effect store) store)
  | watch keys next ih => exact ih store
  | exec commands next ih => exact ih true (applyAll commands store)

/-- **Guarantees.** While the store satisfies `inv`, each step of the program from a
process that watches `watched` and has read `seen` is allowed. Writes outside a
transaction are made without a watch. -/
def Program.Guarantees (inv : Store Value → Prop) (allowed : Transition Value Result) :
    Program Value Result → List Key → List ((key : Key) × Option (Value key)) → Prop
  | .done _, _, _ => True
  | .get key next, watched, seen => ∀ value,
      (∀ store, inv store → allowed store (.get key next) store (next value)) ∧
        (next value).Guarantees inv allowed watched (⟨key, value⟩ :: seen)
  | .eval effect next, watched, seen => watched = [] ∧ ∀ store, inv store →
      allowed store (.eval effect next) (applyAll (effect store) store) (next store) ∧
        (next store).Guarantees inv allowed watched seen
  | .watch keys next, _, _ =>
      (∀ store, inv store → allowed store (.watch keys next) store next) ∧
        next.Guarantees inv allowed keys []
  | .exec commands next, watched, seen =>
      (∀ store, inv store → Agrees watched seen store →
        allowed store (.exec commands next) (applyAll commands store) (next true)) ∧
      (∀ store, inv store → allowed store (.exec commands next) store (next false)) ∧
      ∀ committed, (next committed).Guarantees inv allowed [] []

variable [∀ key, DecidableEq (Value key)]

/-- A process notices a change of a key it watches. -/
def Process.notice (before after : Store Value) (process : Process Value Result) :
    Process Value Result :=
  { process with
    dirty := process.dirty || process.watched.any fun key => before key ≠ after key }

def Process.advance (store : Store Value) (process : Process Value Result) :
    Store Value × Process Value Result :=
  match process.program with
  | .done _ => (store, process)
  | .get key next =>
      (store, { process with
        program := next (store key)
        seen := ⟨key, store key⟩ :: process.seen })
  | .eval effect next =>
      let after := applyAll (effect store) store
      (after, { process with program := next store }.notice store after)
  | .watch keys next => (store, { program := next, watched := keys, seen := [], dirty := false })
  | .exec commands next =>
      if process.dirty then (store, Process.launch (next false))
      else (applyAll commands store, Process.launch (next true))

/-- The commands that the next step of a process applies. -/
def Process.pending (store : Store Value) (process : Process Value Result) :
    List (Command Value) :=
  match process.program with
  | .eval effect _ => effect store
  | .exec commands _ => if process.dirty then [] else commands
  | _ => []

theorem Process.advance_store (store : Store Value) (process : Process Value Result) :
    (process.advance store).1 = applyAll (process.pending store) store := by
  obtain ⟨program, watched, seen, dirty⟩ := process
  cases program with
  | done result => rfl
  | get key next => rfl
  | eval effect next => rfl
  | watch keys next => rfl
  | exec commands next =>
      cases dirty with
      | true => rfl
      | false => rfl

def World.stepBy [DecidableEq Client] (world : World Value Client Result) (client : Client) :
    World Value Client Result :=
  let outcome := (world.processes client).advance world.store
  { store := outcome.1
    processes := Function.update
      (fun other => (world.processes other).notice world.store outcome.1) client outcome.2 }

def World.touch [DecidableEq Client] (world : World Value Client Result) (client : Client) :
    World Value Client Result :=
  { world with
    processes := Function.update world.processes client
      { world.processes client with dirty := true } }

def clients [DecidableEq Client] : System (World Value Client Result) (Move Client) where
  step source move target :=
    match move with
    | .step client =>
        (source.processes client).program.isDone = false ∧ target = source.stepBy client
    | .touch client => target = source.touch client

theorem World.step_stepBy [DecidableEq Client] (world : World Value Client Result)
    (client : Client) (running : (world.processes client).program.isDone = false) :
    clients.step world (.step client) (world.stepBy client) :=
  ⟨running, rfl⟩

/-- A process whose remaining program keeps its guarantee and whose reads are current
unless it is dirty. -/
structure Process.Sound (inv : Store Value → Prop)
    (allowed : Transition Value Result) (store : Store Value)
    (process : Process Value Result) : Prop where
  guarantees : process.program.Guarantees inv allowed process.watched process.seen
  current : process.dirty = false → Agrees process.watched process.seen store

omit [∀ key, DecidableEq (Value key)] in
theorem Process.Sound.launch {inv : Store Value → Prop}
    {allowed : Transition Value Result} {store : Store Value}
    {program : Program Value Result} (guarantees : program.Guarantees inv allowed [] []) :
    (Process.launch program).Sound inv allowed store where
  guarantees := guarantees
  current _ entry member := by simp [Process.launch] at member

theorem Process.Sound.notice {inv : Store Value → Prop}
    {allowed : Transition Value Result}
    {before after : Store Value} {process : Process Value Result}
    (sound : process.Sound inv allowed before) :
    (process.notice before after).Sound inv allowed after where
  guarantees := sound.guarantees
  current clean entry member watched := by
    have apart : process.dirty = false ∧ ∀ key ∈ process.watched, before key = after key := by
      simpa [Process.notice] using clean
    rw [← apart.2 entry.1 watched]
    exact sound.current apart.1 entry member watched

theorem Process.Sound.advance {inv : Store Value → Prop}
    {allowed : Transition Value Result} {store : Store Value}
    {process : Process Value Result} (sound : process.Sound inv allowed store)
    (holds : inv store) (running : process.program.isDone = false) :
    allowed store process.program (process.advance store).1
        (process.advance store).2.program ∧
      (process.advance store).2.Sound inv allowed (process.advance store).1 := by
  obtain ⟨program, watched, seen, dirty⟩ := process
  have guarantees := sound.guarantees
  have current := sound.current
  cases program with
  | done result => simp [Program.isDone] at running
  | get key next =>
      obtain ⟨permitted, rest⟩ := guarantees (store key)
      refine ⟨permitted store holds, rest, ?_⟩
      intro clean entry member watched
      rcases List.mem_cons.mp member with rfl | earlier
      · rfl
      · exact current clean entry earlier watched
  | eval effect next =>
      obtain ⟨permitted, rest⟩ := guarantees.2 store holds
      have moved : Process.Sound inv allowed store
          { program := next store, watched := watched, seen := seen, dirty := dirty } :=
        ⟨rest, current⟩
      exact ⟨permitted, moved.notice⟩
  | watch keys next =>
      refine ⟨guarantees.1 store holds, guarantees.2, ?_⟩
      intro _ entry member
      cases member
  | exec commands next =>
      obtain ⟨commits, aborts, rest⟩ := guarantees
      cases dirty with
      | true => exact ⟨aborts store holds, .launch (rest false)⟩
      | false => exact ⟨commits store holds (current rfl), .launch (rest true)⟩

variable [DecidableEq Client]

/-- A world whose store satisfies the invariant and whose processes are all sound. -/
structure World.Sound (inv : Store Value → Prop)
    (allowed : Client → Transition Value Result)
    (world : World Value Client Result) : Prop where
  holds : inv world.store
  sound : ∀ client, (world.processes client).Sound inv (allowed client) world.store

section Worlds

variable {inv : Store Value → Prop}
variable {allowed : Client → Transition Value Result}

theorem World.step_allowed {source target : World Value Client Result} {client : Client}
    (sound : source.Sound inv allowed) (step : clients.step source (.step client) target) :
    allowed client source.store (source.processes client).program target.store
      (target.processes client).program := by
  obtain ⟨running, rfl⟩ := step
  have advanced := ((sound.sound client).advance sound.holds running).1
  simpa [World.stepBy] using advanced

theorem World.Sound.step
    (keeps : ∀ client before program after rest, inv before →
      allowed client before program after rest → inv after)
    {source target : World Value Client Result} {move : Move Client}
    (sound : source.Sound inv allowed) (step : clients.step source move target) :
    target.Sound inv allowed := by
  cases move with
  | step client =>
      have permitted := World.step_allowed sound step
      obtain ⟨running, rfl⟩ := step
      refine ⟨keeps client _ _ _ _ sound.holds permitted, fun other => ?_⟩
      by_cases same : other = client
      · subst same
        simpa [World.stepBy] using ((sound.sound other).advance sound.holds running).2
      · simpa [World.stepBy, same] using (sound.sound other).notice
  | touch client =>
      obtain rfl := step
      refine ⟨sound.holds, fun other => ?_⟩
      by_cases same : other = client
      · subst same
        have touched : Process.Sound inv (allowed other) source.store
            { source.processes other with dirty := true } :=
          ⟨(sound.sound other).guarantees, fun clean => nomatch clean⟩
        simpa [World.touch] using touched
      · simpa [World.touch, same] using sound.sound other

theorem World.Sound.run
    (keeps : ∀ client before program after rest, inv before →
      allowed client before program after rest → inv after)
    {start final : World Value Client Result} {moves : List (Move Client)}
    (run : clients.Run start moves final) (sound : start.Sound inv allowed) :
    final.Sound inv allowed :=
  run.preserves (World.Sound inv allowed)
    (fun _ _ _ here step => here.step keeps step) sound

end Worlds

omit [∀ key, DecidableEq (Value key)] in
/-- **Running alone.** A property of the store and the remaining program that each
allowed step preserves holds of the store and the result a program leaves when it runs
alone. -/
theorem Program.Guarantees.alone {inv : Store Value → Prop}
    {allowed : Transition Value Result}
    (property : Store Value → Program Value Result → Prop)
    (keeps : ∀ before program after rest, inv before →
      allowed before program after rest → inv after)
    (preserved : ∀ before program after rest, program.isDone = false →
      property before program → allowed before program after rest → property after rest)
    {program : Program Value Result} {watched : List Key}
    {seen : List ((key : Key) × Option (Value key))} {store : Store Value}
    (guarantees : program.Guarantees inv allowed watched seen) (holds : inv store)
    (current : Agrees watched seen store) (initial : property store program) :
    property (program.alone store).1 (.done (program.alone store).2) := by
  induction program generalizing watched seen store with
  | done result => exact initial
  | get key next ih =>
      obtain ⟨permitted, rest⟩ := guarantees (store key)
      refine ih (store key) rest holds ?_
        (preserved _ _ _ _ rfl initial (permitted store holds))
      intro entry member kept
      rcases List.mem_cons.mp member with rfl | earlier
      · rfl
      · exact current entry earlier kept
  | eval effect next ih =>
      obtain ⟨rfl, permits⟩ := guarantees
      obtain ⟨permitted, rest⟩ := permits store holds
      exact ih store rest (keeps _ _ _ _ holds permitted) (by simp [Agrees])
        (preserved _ _ _ _ rfl initial permitted)
  | watch keys next ih =>
      refine ih guarantees.2 holds (by simp [Agrees])
        (preserved _ _ _ _ rfl initial (guarantees.1 store holds))
  | exec commands next ih =>
      obtain ⟨commits, _, rest⟩ := guarantees
      have permitted := commits store holds current
      exact ih true (rest true) (keeps _ _ _ _ holds permitted) (by simp [Agrees])
        (preserved _ _ _ _ rfl initial permitted)

end Commands

end Foundation.Keyspace

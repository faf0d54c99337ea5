import Mathlib.Logic.Relation
import Sico.Foundation.System

/-! # A program beside other parties

A program makes requests of shared state one at a time and goes on with each reply.
Between two of its requests other parties move the state. `Ensures` says what holds
when a program ends, whatever others do as far as a relation allows, and composes along
the program's structure; `Secure` says the same over the steps that a condition on
state and program allows, and holds along every run (`Surroundings.Secure.returned`).
The two meet where a part that ensures something is followed by a program that is
secure from there (`Surroundings.Ensures.secure`). `Alone` says how a program ends that
nobody else disturbs, and that it comes to an end.
-/

namespace Foundation

/-- A program that makes requests one at a time and goes on with each reply. -/
inductive Interaction (Request : Type) (Reply : Request → Type) (Value : Type) where
  | done (value : Value)
  | ask (request : Request) (next : Reply request → Interaction Request Reply Value)

namespace Interaction

variable {Request : Type} {Reply : Request → Type} {Value Next : Type}

protected def bind (next : Value → Interaction Request Reply Next) :
    Interaction Request Reply Value → Interaction Request Reply Next
  | done value => next value
  | ask request rest => ask request fun reply => (rest reply).bind next

instance : Monad (Interaction Request Reply) where
  pure := done
  bind program next := program.bind next

theorem bind_done (program : Interaction Request Reply Value) : program >>= done = program := by
  induction program with
  | done value => rfl
  | ask request rest ih => exact congrArg (ask request) (funext ih)

theorem bind_assoc {Last : Type} (program : Interaction Request Reply Value)
    (second : Value → Interaction Request Reply Next)
    (third : Next → Interaction Request Reply Last) :
    program >>= second >>= third = program >>= fun value => second value >>= third := by
  induction program with
  | done value => rfl
  | ask request rest ih => exact congrArg (ask request) (funext ih)

def ended : Interaction Request Reply Value → Option Value
  | done value => some value
  | ask _ _ => none

theorem eq_done_of_ended {program : Interaction Request Reply Value} {value : Value}
    (ended : program.ended = some value) : program = .done value := by
  cases program with
  | done _ => exact congrArg done (Option.some.inj ended)
  | ask request rest => cases ended

/-- A program that makes quiet requests only and ends in a value of the given kind. -/
def Closing (quiet : Request → Prop) (ending : Value → Prop) :
    Interaction Request Reply Value → Prop
  | done value => ending value
  | ask request rest => quiet request ∧ ∀ reply, (rest reply).Closing quiet ending

end Interaction

/-- Shared state: its answer to a request, on the choice the request leaves open, and
the moves of other parties. -/
structure Surroundings (Request : Type) (Reply : Request → Type) (State Choice Move : Type) where
  serve : (request : Request) → Choice → State → Option (Reply request × State)
  move : State → Move → Option State

/-- Shared state and a program beside it. -/
structure Joint (Request : Type) (Reply : Request → Type) (Value State : Type) where
  shared : State
  program : Interaction Request Reply Value

/-- A step of the program or of another party. -/
inductive JointStep (Choice Move : Type) where
  | own (choice : Choice)
  | other (move : Move)
  deriving Repr

namespace Surroundings

open Interaction

variable {Request : Type} {Reply : Request → Type} {Value Next State Choice Move : Type}
  (around : Surroundings Request Reply State Choice Move)

def next (joint : Joint Request Reply Value State) :
    JointStep Choice Move → Option (Joint Request Reply Value State)
  | .own choice =>
      match joint.program with
      | .done _ => none
      | .ask request rest =>
          (around.serve request choice joint.shared).map fun answer => ⟨answer.2, rest answer.1⟩
  | .other move => (around.move joint.shared move).map fun shared => ⟨shared, joint.program⟩

/-- The program and the other parties, in any order. -/
def system : System (Joint Request Reply Value State) (JointStep Choice Move) :=
  System.ofNext around.next

/-- What the other parties may do, in any number of allowed moves, while the program
stands still. -/
def Others (allowed : Joint Request Reply Value State → JointStep Choice Move → Prop)
    (program : Interaction Request Reply Value) : State → State → Prop :=
  Relation.ReflTransGen fun before after =>
    ∃ move, allowed ⟨before, program⟩ (.other move) ∧ around.move before move = some after

/-- Along allowed steps, the program ends as `post` says. -/
def Secure (allowed : Joint Request Reply Value State → JointStep Choice Move → Prop)
    (post : Value → State → Prop) : Interaction Request Reply Value → State → Prop
  | .done value, shared => post value shared
  | .ask request rest, shared => ∀ shared', around.Others allowed (.ask request rest) shared shared' →
      ∀ choice, allowed ⟨shared', .ask request rest⟩ (.own choice) → ∀ reply shared'',
        around.serve request choice shared' = some (reply, shared'') →
          Secure allowed post (rest reply) shared''

/-- Whatever others do within `rely`, a program whose requests meet `guard` ends as
`post` says. -/
def Ensures (rely : State → State → Prop) (guard : Request → State → Prop)
    (post : Value → State → Prop) : Interaction Request Reply Value → State → Prop
  | .done value, shared => post value shared
  | .ask request rest, shared => ∀ shared', rely shared shared' → guard request shared' →
      ∀ choice reply shared'', around.serve request choice shared' = some (reply, shared'') →
        Ensures rely guard post (rest reply) shared''

/-- While nobody else moves, every request is answered in some way, and however they are
answered the program ends as `post` says. -/
def Alone (post : Value → State → Prop) : Interaction Request Reply Value → State → Prop
  | .done value, shared => post value shared
  | .ask request rest, shared =>
      (∃ choice, (around.serve request choice shared).isSome) ∧
        ∀ choice reply shared', around.serve request choice shared = some (reply, shared') →
          Alone post (rest reply) shared'

variable {around}

section Runs

variable {allowed : Joint Request Reply Value State → JointStep Choice Move → Prop}
  {post : Value → State → Prop}

theorem Secure.others {request : Request} {rest : Reply request → Interaction Request Reply Value}
    {shared shared' : State} (secure : around.Secure allowed post (.ask request rest) shared)
    (moved : around.Others allowed (.ask request rest) shared shared') :
    around.Secure allowed post (.ask request rest) shared' :=
  fun later further => secure later (moved.trans further)

/-- What a secure program is along a run: secure as long as it has not ended. -/
def StillSecure (around : Surroundings Request Reply State Choice Move)
    (allowed : Joint Request Reply Value State → JointStep Choice Move → Prop)
    (post : Value → State → Prop) (joint : Joint Request Reply Value State) : Prop :=
  joint.program.ended = none → around.Secure allowed post joint.program joint.shared

theorem StillSecure.own {joint joint' : Joint Request Reply Value State} {choice : Choice}
    (secure : around.StillSecure allowed post joint)
    (step : (around.system.restrict allowed).step joint (.own choice) joint') :
    around.Secure allowed post joint'.program joint'.shared := by
  obtain ⟨permitted, step⟩ := step
  obtain ⟨shared, program⟩ := joint
  cases program with
  | done value => cases step
  | ask request rest =>
      obtain ⟨⟨reply, shared'⟩, served, rfl⟩ := Option.map_eq_some_iff.mp step
      exact secure rfl shared .refl choice permitted reply shared' served

theorem StillSecure.step {joint joint' : Joint Request Reply Value State}
    {label : JointStep Choice Move} (secure : around.StillSecure allowed post joint)
    (step : (around.system.restrict allowed).step joint label joint') :
    around.StillSecure allowed post joint' := by
  cases label with
  | own choice => exact fun _ => secure.own step
  | other move =>
      obtain ⟨permitted, step⟩ := step
      obtain ⟨shared, program⟩ := joint
      obtain ⟨shared', moved, rfl⟩ := Option.map_eq_some_iff.mp step
      cases program with
      | done value => intro running; cases running
      | ask request rest =>
          exact fun _ => (secure rfl).others (.single ⟨move, permitted, moved⟩)

/-- **Secure programs return as required.** In every run of allowed steps that ends
with the program's last step, value and state are as `post` says. -/
theorem Secure.returned {start final : Joint Request Reply Value State}
    (secure : around.Secure allowed post start.program start.shared)
    {labels : List (JointStep Choice Move)} {choice : Choice}
    (run : (around.system.restrict allowed).Run start (labels ++ [JointStep.own choice]) final)
    {value : Value} (returned : final.program = .done value) : post value final.shared := by
  obtain ⟨middle, before, last⟩ := run.snoc_inv
  have still := before.preserves (around.StillSecure allowed post)
    (fun _ _ _ holds step => holds.step step) fun _ => secure
  have ended := still.own last
  rw [returned] at ended
  exact ended

theorem Secure.of_closing {quiet : Request → Prop} {ending : Value → Prop} (kept : State → Prop)
    (moves : ∀ program : Interaction Request Reply Value, program.Closing quiet ending →
      ∀ before move after, allowed ⟨before, program⟩ (.other move) →
        around.move before move = some after → kept before → kept after)
    (answers : ∀ request, quiet request → ∀ choice before reply after,
      around.serve request choice before = some (reply, after) → kept before → kept after)
    (ends : ∀ value shared, ending value → kept shared → post value shared)
    {program : Interaction Request Reply Value} (closing : program.Closing quiet ending)
    {shared : State} (holds : kept shared) : around.Secure allowed post program shared := by
  induction program generalizing shared with
  | done value => exact ends value shared closing holds
  | ask request rest ih =>
      intro shared' moved
      have here : kept shared' := by
        induction moved with
        | refl => exact holds
        | tail _ step before =>
            obtain ⟨move, permitted, moved⟩ := step
            exact moves _ closing _ move _ permitted moved before
      intro choice _ reply shared'' served
      exact ih reply (closing.2 reply) (answers request closing.1 choice _ reply _ served here)

end Runs

section Rules

variable {rely : State → State → Prop} {guard : Request → State → Prop}
  {post : Value → State → Prop}

theorem Ensures.mono {weaker : Value → State → Prop} {program : Interaction Request Reply Value}
    {shared : State} (ensures : around.Ensures rely guard post program shared)
    (implies : ∀ value shared, post value shared → weaker value shared) :
    around.Ensures rely guard weaker program shared := by
  induction program generalizing shared with
  | done value => exact implies value shared ensures
  | ask request rest ih =>
      exact fun shared' moved guarded choice reply shared'' served =>
        ih reply (ensures shared' moved guarded choice reply shared'' served)

theorem ensures_bind {first : Interaction Request Reply Value}
    {second : Value → Interaction Request Reply Next} {post : Next → State → Prop} {shared : State} :
    around.Ensures rely guard post (first >>= second) shared ↔
      around.Ensures rely guard
        (fun value shared => around.Ensures rely guard post (second value) shared) first shared := by
  induction first generalizing shared with
  | done value => exact Iff.rfl
  | ask request rest ih =>
      exact forall₂_congr fun _ _ => forall₂_congr fun _ _ => forall₃_congr fun reply _ _ => ih reply

theorem Ensures.secure
    {allowed : Joint Request Reply Next State → JointStep Choice Move → Prop}
    {required : Next → State → Prop} (steady : ∀ shared, rely shared shared)
    (chained : ∀ {first second third}, rely first second → rely second third → rely first third)
    (covered : ∀ program before move after, allowed ⟨before, program⟩ (.other move) →
      around.move before move = some after → rely before after)
    (guarded : ∀ shared request rest choice, allowed ⟨shared, .ask request rest⟩ (.own choice) →
      guard request shared)
    {first : Interaction Request Reply Value} {second : Value → Interaction Request Reply Next}
    {shared : State} (ensures : around.Ensures rely guard post first shared)
    (follows : ∀ value shared, post value shared → around.Secure allowed required (second value) shared) :
    around.Secure allowed required (first >>= second) shared := by
  induction first generalizing shared with
  | done value => exact follows value shared ensures
  | ask request rest ih =>
      intro shared' moved
      have relied : rely shared shared' := by
        induction moved with
        | refl => exact steady shared
        | tail _ step before =>
            obtain ⟨move, permitted, moved⟩ := step
            exact chained before (covered _ _ move _ permitted moved)
      intro choice permitted reply shared'' served
      exact ih reply
        (ensures shared' relied (guarded _ _ _ choice permitted) choice reply shared'' served)

end Rules

section Alone

variable {post other : Value → State → Prop} {program : Interaction Request Reply Value} {shared : State}

theorem Alone.mono (alone : around.Alone post program shared)
    (implies : ∀ value shared, post value shared → other value shared) : around.Alone other program shared := by
  induction program generalizing shared with
  | done value => exact implies value shared alone
  | ask request rest ih =>
      exact ⟨alone.1, fun choice reply shared' served => ih reply (alone.2 choice reply shared' served)⟩

theorem alone_bind {second : Value → Interaction Request Reply Next} {post : Next → State → Prop} :
    around.Alone post (program >>= second) shared ↔
      around.Alone (fun value shared => around.Alone post (second value) shared) program shared := by
  induction program generalizing shared with
  | done value => exact Iff.rfl
  | ask request rest ih =>
      exact and_congr_right fun _ => forall₃_congr fun _ reply _ => imp_congr_right fun _ => ih reply

theorem Alone.and (alone : around.Alone post program shared) (also_ : around.Alone other program shared) :
    around.Alone (fun value shared => post value shared ∧ other value shared) program shared := by
  induction program generalizing shared with
  | done value => exact ⟨alone, also_⟩
  | ask request rest ih =>
      exact ⟨alone.1, fun choice reply shared' served =>
        ih reply (alone.2 choice reply shared' served) (also_.2 choice reply shared' served)⟩

theorem Alone.ends (alone : around.Alone post program shared) : ∃ value shared', post value shared' := by
  induction program generalizing shared with
  | done value => exact ⟨value, shared, alone⟩
  | ask request rest ih =>
      obtain ⟨⟨choice, answered⟩, follows⟩ := alone
      obtain ⟨⟨reply, shared'⟩, served⟩ := Option.isSome_iff_exists.mp answered
      exact ih reply (follows choice reply shared' served)

end Alone

end Surroundings

end Foundation

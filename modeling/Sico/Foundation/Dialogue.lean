import Sico.Foundation.Basic
import Sico.Foundation.Interaction

/-! # Programs in dialogue

Surroundings that answer each request by all that was asked and answered before turn a
program into the log of its exchanges and a value (`Interaction.play`). `Holds` says what
is true of log and value under every such answering, and follows the structure of the
program, so that a fact about all logs is proved along the source of the program
(`Interaction.Holds.play`). Both read a program that may stop early, written in `ExceptT`,
like any other.
-/

namespace Foundation

namespace Interaction

variable {Request : Type} {Reply : Request → Type} {Value Next Stop : Type}

instance : LawfulMonad (Interaction Request Reply) :=
  LawfulMonad.mk' _ (fun program => bind_done program) (fun _ _ => rfl)
    fun program second third => bind_assoc program second third

abbrev Exchange (Request : Type) (Reply : Request → Type) : Type := Σ request, Reply request

/-- How surroundings answer, by the log of all exchanges before. -/
abbrev Behaviour (Request : Type) (Reply : Request → Type) : Type :=
  List (Exchange Request Reply) → (request : Request) → Reply request

/-- The log and the value of a program in dialogue with surroundings. -/
def play (behaviour : Behaviour Request Reply) :
    Interaction Request Reply Value → List (Exchange Request Reply) →
      List (Exchange Request Reply) × Value
  | done value, log => (log, value)
  | ask request next, log =>
      let reply := behaviour log request
      (next reply).play behaviour (log ++ [⟨request, reply⟩])

/-- Whatever is answered, the log so far grows to one that is as required with the value. -/
def Holds (required : List (Exchange Request Reply) → Value → Prop) :
    Interaction Request Reply Value → List (Exchange Request Reply) → Prop
  | done value, log => required log value
  | ask request next, log => ∀ reply, (next reply).Holds required (log ++ [⟨request, reply⟩])

section Rules

variable {required : List (Exchange Request Reply) → Value → Prop}
  {log : List (Exchange Request Reply)} {program : Interaction Request Reply Value}

theorem Holds.play (holds : program.Holds required log) (behaviour : Behaviour Request Reply) :
    required (program.play behaviour log).1 (program.play behaviour log).2 := by
  induction program generalizing log with
  | done value => exact holds
  | ask request next ih => exact ih (behaviour log request) (holds (behaviour log request))

theorem Holds.mono {weaker : List (Exchange Request Reply) → Value → Prop}
    (holds : program.Holds required log) (implies : ∀ log value, required log value → weaker log value) :
    program.Holds weaker log := by
  induction program generalizing log with
  | done value => exact implies log value holds
  | ask request next ih => exact fun reply => ih reply (holds reply)

theorem holds_bind {next : Value → Interaction Request Reply Next}
    {required : List (Exchange Request Reply) → Next → Prop} :
    (program >>= next).Holds required log ↔
      program.Holds (fun log value => (next value).Holds required log) log := by
  induction program generalizing log with
  | done value => exact Iff.rfl
  | ask request rest ih => exact forall_congr' fun reply => ih reply

theorem play_bind (behaviour : Behaviour Request Reply) (next : Value → Interaction Request Reply Next) :
    (program >>= next).play behaviour log =
      (next (program.play behaviour log).2).play behaviour (program.play behaviour log).1 := by
  induction program generalizing log with
  | done value => rfl
  | ask request rest ih => exact ih (behaviour log request)

theorem play_map (behaviour : Behaviour Request Reply) (image : Value → Next) :
    (image <$> program).play behaviour log =
      ((program.play behaviour log).1, image (program.play behaviour log).2) := by
  rw [map_eq_pure_bind, play_bind]
  rfl

theorem Holds.and {other : List (Exchange Request Reply) → Value → Prop}
    (first : program.Holds required log) (second : program.Holds other log) :
    program.Holds (fun log value => required log value ∧ other log value) log := by
  induction program generalizing log with
  | done value => exact ⟨first, second⟩
  | ask request next ih => exact fun reply => ih reply (first reply) (second reply)

theorem Holds.of_forall (always : ∀ log value, required log value) : program.Holds required log := by
  induction program generalizing log with
  | done value => exact always log value
  | ask request next ih => exact fun reply => ih reply

theorem holds_grows (program : Interaction Request Reply Value) (log : List (Exchange Request Reply)) :
    program.Holds (fun later _ => log <+: later) log := by
  induction program generalizing log with
  | done value => exact List.prefix_refl log
  | ask request next ih =>
      intro reply
      exact (ih reply _).mono fun _ _ grown => (List.prefix_append log _).trans grown

end Rules

section Stopping

/-- What is required of a program that goes on when its first part has not stopped. -/
def Onward (required : List (Exchange Request Reply) → Except Stop Next → Prop)
    (next : Value → ExceptT Stop (Interaction Request Reply) Next)
    (log : List (Exchange Request Reply)) : Except Stop Value → Prop
  | .ok value => Holds required (next value).run log
  | .error stop => required log (.error stop)

theorem holds_bind_run {program : ExceptT Stop (Interaction Request Reply) Value}
    {next : Value → ExceptT Stop (Interaction Request Reply) Next}
    {required : List (Exchange Request Reply) → Except Stop Next → Prop}
    {log : List (Exchange Request Reply)} :
    Holds required (program >>= next).run log ↔ Holds (Onward required next) program.run log := by
  rw [ExceptT.run_bind, holds_bind]
  refine iff_of_eq (congrArg (fun property => Holds property program.run log) ?_)
  funext log value
  cases value <;> rfl

/-- A sequence: what the first part leaves is enough for the second, and stopping is as
required. -/
theorem Holds.bind_run {program : ExceptT Stop (Interaction Request Reply) Value}
    {next : Value → ExceptT Stop (Interaction Request Reply) Next}
    (middle : List (Exchange Request Reply) → Except Stop Value → Prop)
    {required : List (Exchange Request Reply) → Except Stop Next → Prop}
    {log : List (Exchange Request Reply)} (first : Holds middle program.run log)
    (stops : ∀ log stop, middle log (.error stop) → required log (.error stop))
    (goesOn : ∀ log value, middle log (.ok value) → Holds required (next value).run log) :
    Holds required (program >>= next).run log := by
  refine holds_bind_run.mpr (first.mono fun log result reached => ?_)
  cases result with
  | error stop => exact stops log stop reached
  | ok value => exact goesOn log value reached

/-- A program, stopped or not, keeps a property of logs. -/
def Keeps (kept : List (Exchange Request Reply) → Prop)
    (program : ExceptT Stop (Interaction Request Reply) Value) : Prop :=
  ∀ log, kept log → Holds (fun log _ => kept log) program.run log

theorem Keeps.bind {kept : List (Exchange Request Reply) → Prop}
    {program : ExceptT Stop (Interaction Request Reply) Value}
    {next : Value → ExceptT Stop (Interaction Request Reply) Next} (first : Keeps kept program)
    (second : ∀ value, Keeps kept (next value)) : Keeps kept (program >>= next) :=
  fun log holds => Holds.bind_run (fun log _ => kept log) (first log holds) (fun _ _ held => held)
    fun log value held => second value log held

theorem holds_map_run {program : ExceptT Stop (Interaction Request Reply) Value} {image : Value → Next}
    {required : List (Exchange Request Reply) → Except Stop Next → Prop}
    {log : List (Exchange Request Reply)} :
    Holds required (image <$> program).run log ↔
      Holds (fun log result => required log (result.map image)) program.run log := by
  rw [ExceptT.run_map, map_eq_pure_bind, holds_bind]
  exact Iff.rfl

theorem holds_image (program : ExceptT Stop (Interaction Request Reply) Value) (image : Value → Next)
    (log : List (Exchange Request Reply)) :
    Holds (fun _ result => ∀ value, result = .ok value → ∃ source, value = image source)
      (image <$> program).run log := by
  rw [holds_map_run]
  refine Holds.of_forall fun _ result value returned => ?_
  obtain ⟨source, _, same⟩ := map_eq_ok.mp returned
  exact ⟨source, same.symm⟩

end Stopping

end Interaction

end Foundation

import Mathlib.Algebra.BigOperators.Group.List.Basic
import Sico.AgentLoop.Turn

/-! # Logs of the agent loop

What the log of an engine shows: the events, in order, and what was charged and left to
be charged. The rules say what each call of the surroundings adds to the log.
-/

namespace Sico.AgentLoop

open Foundation Interaction

def eventOf : Exchange Request Request.Reply → Option AgentLoopEvent
  | ⟨.emit event, _⟩ => some event
  | _ => none

def Log.events (log : Log) : List AgentLoopEvent := log.filterMap eventOf

/-- The usage that an exchange leaves to be charged: that of the observation of a tool,
until the surroundings are asked again. -/
def outstandingBy (usage : TokenUsage) : Exchange Request Request.Reply → TokenUsage
  | ⟨.emit _, _⟩ => usage
  | ⟨.invoke _ _ _, reply⟩ =>
      match (reply : Except Stop Observation) with
      | .ok observation => observation.usage
      | .error _ => 0
  | _ => 0

/-- The usage of the observation of a tool, if that was the last answer in the log. -/
def Log.outstanding (log : Log) : TokenUsage := log.foldl outstandingBy 0

theorem Log.events_snoc (log : Log) (exchange : Exchange Request Request.Reply) :
    Log.events (log ++ [exchange]) = log.events ++ (eventOf exchange).toList := by
  unfold Log.events
  rw [List.filterMap_append]
  cases event : eventOf exchange <;> simp [event]

theorem Log.outstanding_snoc (log : Log) (exchange : Exchange Request Request.Reply) :
    Log.outstanding (log ++ [exchange]) = outstandingBy log.outstanding exchange := by
  simp [Log.outstanding, List.foldl_append]

instance : AddCommMonoid TokenUsage where
  add_assoc first second third := by
    apply TokenUsage.ext <;> exact add_assoc _ _ _
  zero_add usage := by
    apply TokenUsage.ext <;> exact zero_add _
  add_zero usage := by
    apply TokenUsage.ext <;> exact add_zero _
  add_comm first second := by
    apply TokenUsage.ext <;> exact add_comm _ _
  nsmul := nsmulRec

theorem TokenUsage.add_eq_left_iff {usage added : TokenUsage} : usage + added = usage ↔ added = 0 := by
  constructor
  · intro same
    rw [TokenUsage.ext_iff] at same ⊢
    obtain ⟨first, second, third, fourth, fifth⟩ := same
    exact ⟨add_eq_left.mp first, add_eq_left.mp second, add_eq_left.mp third,
      add_eq_left.mp fourth, add_eq_left.mp fifth⟩
  · rintro rfl
    exact add_zero usage

section Rules

variable {Value : Type} {log : Log}

theorem holds_emit {event : AgentLoopEvent} {required : Log → Except Stop Unit → Prop} :
    Holds required (emit event).run log ↔ required (log ++ [⟨.emit event, ()⟩]) (.ok ()) :=
  ⟨fun holds => holds (), fun holds _ => holds⟩

theorem holds_emit_bind {event : AgentLoopEvent} {next : Unit → Program Value}
    {required : Log → Except Stop Value → Prop} :
    Holds required (emit event >>= next).run log ↔
      Holds required (next ()).run (log ++ [⟨.emit event, ()⟩]) :=
  holds_bind_run.trans holds_emit

theorem holds_beforeModel {snapshot : AgentLoopSnapshot}
    {required : Log → Except Stop PreparedModelContext → Prop} :
    Holds required (beforeModel snapshot).run log ↔
      ∀ reply, required (log ++ [⟨.beforeModel snapshot, reply⟩]) reply :=
  Iff.rfl

theorem holds_evaluateCompletion {proposal : FinalAnswer} {snapshot : AgentLoopSnapshot}
    {required : Log → Except Stop CompletionDirective → Prop} :
    Holds required (evaluateCompletion proposal snapshot).run log ↔
      ∀ reply, required (log ++ [⟨.evaluateCompletion proposal snapshot, reply⟩]) reply :=
  Iff.rfl

theorem holds_call {tool : BoundAgentTool} {call : CapabilityCall} {snapshot : AgentLoopSnapshot}
    {required : Log → Except Stop Observation → Prop} :
    Holds required (tool.call call snapshot).run log ↔
      ∀ reply, required (log ++ [⟨.invoke tool call snapshot, reply⟩]) reply :=
  Iff.rfl

theorem holds_currentToolset {equipment : Equipment}
    {required : Log → Except Stop AgentToolsetSnapshot → Prop}
    (asked : ∀ reply, equipment.controlled → required (log ++ [⟨.snapshot, reply⟩]) reply)
    (given : ¬ equipment.controlled → required log (.ok ⟨0, equipment.tools⟩)) :
    Holds required (currentToolset equipment).run log := by
  unfold currentToolset
  split
  · next controlled => exact fun reply => asked reply controlled
  · next fixed => exact given fixed

end Rules

section Keeping

variable {kept : Log → Prop}

theorem keeps_emit {event : AgentLoopEvent}
    (kept_emit : ∀ log, kept log → kept (log ++ [⟨.emit event, ()⟩])) : Keeps kept (emit event) :=
  fun log holds _ => kept_emit log holds

theorem keeps_streamModelTurn {equipment : Equipment} {state : AgentModelState}
    (kept_stream : ∀ log reply, kept log → kept (log ++ [⟨.streamTurn state, reply⟩]))
    (kept_complete : ∀ log reply, kept log → kept (log ++ [⟨.completeTurn state, reply⟩])) :
    Keeps kept (streamModelTurn equipment state) := by
  intro log holds
  unfold streamModelTurn
  split
  · exact fun reply => kept_stream log reply holds
  · refine holds_bind_run.mpr fun reply => ?_
    cases reply with
    | error stop => exact kept_complete log _ holds
    | ok turn => exact kept_complete log _ holds

theorem keeps_receiveTurn {turn : ℤ} {ending : Except Stop Unit}
    (kept_delta : ∀ log content, kept log →
      kept (log ++ [⟨.emit (.modelOutputDelta turn content), ()⟩]))
    (received : Option AgentModelTurn) (items : List AgentModelStreamItem) :
    Keeps kept (receiveTurn turn ending received items) := by
  induction items generalizing received with
  | nil =>
      intro log holds
      unfold receiveTurn
      split
      · exact holds
      · exact holds
      · exact holds
  | cons item rest ih =>
      cases item with
      | delta content =>
          rw [receiveTurn]
          exact (keeps_emit fun log => kept_delta log content).bind fun _ => ih received
      | turn modelTurn =>
          cases received with
          | none => exact ih (some modelTurn)
          | some _ => exact fun _ holds => holds

end Keeping

end Sico.AgentLoop

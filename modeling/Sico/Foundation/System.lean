import Mathlib.Data.List.Induction

/-! # Labelled transition systems and their runs

A system moves between states along labels. A run records the labels it took,
oldest first, so that an invariant may speak about the history as well as the
state (`Foundation.System.Run.invariant`). Restricting a system to the labels
allowed in each state gives the runs all of whose steps meet a condition
(`Foundation.System.restrict`), and a step-by-step correspondence between two
systems lifts to their runs (`Foundation.System.Run.simulate`).
-/

namespace Foundation

universe u v

/-- A labelled transition system. -/
structure System (State : Type u) (Label : Type v) where
  step : State → Label → State → Prop

namespace System

variable {State : Type u} {Label : Type v} (system : System State Label)

/-- The runs from a state, with the labels taken, oldest first. -/
inductive Run (start : State) : List Label → State → Prop where
  | nil : Run start [] start
  | snoc {labels : List Label} {middle next : State} {label : Label} :
      Run start labels middle → system.step middle label next →
        Run start (labels ++ [label]) next

/-- The system of a function that tells the next state, if the label is possible. -/
def ofNext (next : State → Label → Option State) : System State Label where
  step source label target := next source label = some target

/-- The system whose steps are those of `system` allowed in their source. -/
def restrict (allowed : State → Label → Prop) : System State Label where
  step source label target := allowed source label ∧ system.step source label target

variable {system}

/-- **Invariants over runs.** A property of history and state that holds at the
start and survives every step holds after every run. -/
theorem Run.invariant {start : State} (property : List Label → State → Prop)
    (initial : property [] start)
    (preserved : ∀ labels source label target, property labels source →
      system.step source label target → property (labels ++ [label]) target)
    {labels : List Label} {final : State} (run : system.Run start labels final) :
    property labels final := by
  induction run with
  | nil => exact initial
  | snoc _ step ih => exact preserved _ _ _ _ ih step

theorem Run.preserves (property : State → Prop)
    (preserved : ∀ source label target, property source → system.step source label target →
      property target)
    {start final : State} {labels : List Label} (run : system.Run start labels final)
    (initial : property start) : property final :=
  run.invariant (fun _ state => property state) initial
    fun _ source label target holds step => preserved source label target holds step

theorem Run.append {start middle final : State} {before after : List Label}
    (first : system.Run start before middle) (second : system.Run middle after final) :
    system.Run start (before ++ after) final := by
  induction second with
  | nil => simpa using first
  | snoc _ step ih => simpa using Run.snoc ih step

theorem Run.cons {start middle final : State} {label : Label} {labels : List Label}
    (step : system.step start label middle) (rest : system.Run middle labels final) :
    system.Run start (label :: labels) final :=
  (Run.snoc .nil step).append rest

/-- The state that a computation leads to, or where it began if it does not go through. -/
def after (next : State → Label → Option State) (start : State) (labels : List Label) : State :=
  (labels.foldlM next start).getD start

theorem Run.ofNext {next : State → Label → Option State} {labels : List Label} {start : State}
    (possible : (labels.foldlM next start).isSome) :
    (System.ofNext next).Run start labels (after next start labels) := by
  have computed : ∀ final, labels.foldlM next start = some final →
      (System.ofNext next).Run start labels final := by
    induction labels generalizing start with
    | nil =>
        rintro final ⟨⟩
        exact .nil
    | cons label rest ih =>
        intro final computed
        rw [List.foldlM_cons] at computed
        obtain ⟨middle, step, later⟩ := Option.bind_eq_some_iff.mp computed
        exact .cons step (ih (by rw [later]; rfl) final later)
  obtain ⟨final, same⟩ := Option.isSome_iff_exists.mp possible
  rw [after, same]
  exact computed final same

theorem step_ofNext (next : State → Label → Option State) (source : State) (label : Label)
    (possible : (next source label).isSome) :
    (System.ofNext next).step source label ((next source label).getD source) := by
  obtain ⟨target, same⟩ := Option.isSome_iff_exists.mp possible
  rw [same]
  exact same

section Reacting

variable {Choice Event : Type*}

/-- The system of a function that takes a choice of the surroundings and shows an event,
if the choice is possible. -/
def reacting (next : Choice → State → Option (Event × State)) : System State (Choice × Event) where
  step source label target := next label.1 source = some (label.2, target)

/-- The run that makes the given choices, leaving out those that are not possible. -/
def follow (next : Choice → State → Option (Event × State)) (start : State)
    (choices : List Choice) : List (Choice × Event) × State :=
  choices.foldl (fun reached choice =>
    match next choice reached.2 with
    | some (event, target) => (reached.1 ++ [(choice, event)], target)
    | none => reached) ([], start)

theorem Run.follow (next : Choice → State → Option (Event × State)) (start : State)
    (choices : List Choice) :
    (reacting next).Run start (follow next start choices).1 (follow next start choices).2 := by
  induction choices using List.reverseRecOn with
  | nil => exact .nil
  | append_singleton choices choice ih =>
      simp only [System.follow, List.foldl_append, List.foldl_cons, List.foldl_nil] at ih ⊢
      split
      · next event target possible => exact .snoc ih possible
      · exact ih

end Reacting

theorem Run.snoc_inv {start final : State} {labels : List Label} {label : Label}
    (run : system.Run start (labels ++ [label]) final) :
    ∃ middle, system.Run start labels middle ∧ system.step middle label final := by
  generalize split : labels ++ [label] = whole at run
  cases run with
  | nil => simp at split
  | snoc before step =>
      obtain ⟨rfl, same⟩ := List.append_inj' split rfl
      obtain rfl := List.singleton_inj.mp same
      exact ⟨_, before, step⟩

theorem Run.append_inv {start final : State} {before after : List Label}
    (run : system.Run start (before ++ after) final) :
    ∃ middle, system.Run start before middle ∧ system.Run middle after final := by
  induction after using List.reverseRecOn generalizing final with
  | nil => exact ⟨final, by simpa using run, .nil⟩
  | append_singleton rest label ih =>
      rw [← List.append_assoc] at run
      obtain ⟨last, front, step⟩ := run.snoc_inv
      obtain ⟨middle, first, second⟩ := ih front
      exact ⟨middle, first, .snoc second step⟩

theorem Run.mono {other : System State Label}
    (included : ∀ source label target, system.step source label target →
      other.step source label target)
    {start final : State} {labels : List Label} (run : system.Run start labels final) :
    other.Run start labels final := by
  induction run with
  | nil => exact .nil
  | snoc _ step ih => exact .snoc ih (included _ _ _ step)

theorem Run.restrict {allowed : State → Label → Prop} {start final : State} {labels : List Label}
    (run : system.Run start labels final) (always : ∀ label ∈ labels, ∀ state, allowed state label) :
    (system.restrict allowed).Run start labels final := by
  induction run with
  | nil => exact .nil
  | snoc _ step ih =>
      refine .snoc (ih fun label member => always label (List.mem_append_left _ member)) ⟨?_, step⟩
      exact always _ (List.mem_append_right _ List.mem_cons_self) _

/-- A function that tells the next state, where the label is allowed. -/
def guarded (allowed : State → Label → Prop) [∀ state label, Decidable (allowed state label)]
    (next : State → Label → Option State) (source : State) (label : Label) : Option State :=
  if allowed source label then next source label else none

theorem Run.ofGuarded (allowed : State → Label → Prop) [∀ state label, Decidable (allowed state label)]
    {next : State → Label → Option State} {labels : List Label} {start : State}
    (possible : (labels.foldlM (guarded allowed next) start).isSome) :
    ((System.ofNext next).restrict allowed).Run start labels
      (after (guarded allowed next) start labels) :=
  (Run.ofNext possible).mono fun _ _ _ step => Option.ite_none_right_eq_some.mp step

section Total

variable {apply : State → Label → State} {start : State}

/-- A total function keeps a property at every point of a run if and only if every step is careful
in the state that it meets, where carefulness decides whether one step keeps the property. -/
theorem always_iff_careful {sound good : State → Prop} {careful : State → Label → Prop}
    (keeps : ∀ state label, sound state → sound (apply state label))
    (exact_ : ∀ state label, sound state → good state → (good (apply state label) ↔ careful state label))
    (initial : sound start) (begins : good start) (labels : List Label) :
    (∀ before, before <+: labels → good (before.foldl apply start)) ↔
      ∀ before label, before ++ [label] <+: labels → careful (before.foldl apply start) label := by
  have soundAfter (before : List Label) : sound (before.foldl apply start) := by
    induction before using List.reverseRecOn with
    | nil => exact initial
    | append_singleton before label ih =>
        rw [List.foldl_append]
        exact keeps _ _ ih
  constructor
  · intro always before label part
    have here := always before ((List.prefix_append before [label]).trans part)
    have there := always (before ++ [label]) part
    rw [List.foldl_append] at there
    exact (exact_ _ label (soundAfter before) here).mp there
  · intro careful_ before
    induction before using List.reverseRecOn with
    | nil => exact fun _ => begins
    | append_singleton before label ih =>
        intro part
        rw [List.foldl_append]
        have here := ih ((List.prefix_append before [label]).trans part)
        exact (exact_ _ label (soundAfter before) here).mpr (careful_ before label part)

end Total

/-- **Simulation.** Related states stay related along a run of the first system
when each of its steps is matched by a run of the second, possibly empty. -/
theorem Run.simulate {Other : Type*} {OtherLabel : Type*} {other : System Other OtherLabel}
    (related : State → Other → Prop) (image : Label → List OtherLabel)
    (matched : ∀ source label target mirror, related source mirror →
      system.step source label target →
        ∃ reflected, other.Run mirror (image label) reflected ∧ related target reflected)
    {start final : State} {labels : List Label} {mirror : Other}
    (run : system.Run start labels final) (initial : related start mirror) :
    ∃ reflected, other.Run mirror (labels.flatMap image) reflected ∧ related final reflected := by
  induction run with
  | nil => exact ⟨mirror, .nil, initial⟩
  | snoc _ step ih =>
      obtain ⟨middle, front, here⟩ := ih
      obtain ⟨reflected, last, there⟩ := matched _ _ _ _ here step
      exact ⟨reflected, by simpa using front.append last, there⟩

end System

end Foundation

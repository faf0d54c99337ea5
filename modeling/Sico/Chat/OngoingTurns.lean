import Mathlib.Data.Finset.Card
import Sico.Foundation.Dict
import Sico.Foundation.System

/-! # The registry of ongoing turns

A turn that starts writes its number under the key of its conversation and then adds the
conversation to the ongoing ones of its agent instance; a turn that closes deletes the key, then
its responses, and then removes the conversation. Every command is atomic, and commands of
different turns of the conversation interleave. All turns share the key and the member.

Commands succeed here, and nothing expires: how long a turn may take is left out.
-/

namespace Sico.Chat

open Foundation

/-- How far a turn has come, by the commands that it has behind it. -/
inductive Phase
  | begun
  | keySet
  | added
  | running
  /-- The turn has begun to close. -/
  | closing
  | keyDeleted
  | responsesDeleted
  | closed
  deriving DecidableEq, Repr

inductive RunStatus
  | idle
  | running
  deriving DecidableEq, Repr

/-- What is stored about the conversation and its agent instance. -/
structure Registry where
  turnKey : Option ℤ := none
  conversations : Finset ℤ := ∅

namespace Registry

def lookupOngoingTurnID (registry : Registry) : Option ℤ := registry.turnKey

def conversationRunStatus (registry : Registry) : RunStatus :=
  if registry.turnKey.isSome then .running else .idle

def agentInstanceRunStatus (registry : Registry) : RunStatus :=
  if 0 < registry.conversations.card then .running else .idle

end Registry

/-- The registry, and the turns of the conversation by their numbers. -/
structure Ongoing where
  registry : Registry := {}
  turns : Dict ℤ Phase

namespace Ongoing

inductive Label where
  | begin (turnID : ℤ)
  /-- The next command of a turn. -/
  | command (turnID : ℤ)

/-- The next command of a turn of the conversation, and the phase behind it. -/
def advance (conversationID turnID : ℤ) (registry : Registry) : Phase → Option (Registry × Phase)
  -- `ChatTurnLifecycle.start`
  | .begun => some ({ registry with turnKey := some turnID }, .keySet)
  | .keySet => some ({ registry with conversations := insert conversationID registry.conversations }, .added)
  | .added => some (registry, .running)
  -- `ChatTurnLifecycle.close`
  | .running => some (registry, .closing)
  | .closing => some ({ registry with turnKey := none }, .keyDeleted)
  | .keyDeleted => some (registry, .responsesDeleted)
  | .responsesDeleted => some ({ registry with conversations := registry.conversations.erase conversationID }, .closed)
  | .closed => none

/-- The next state, where the label is possible. The numbers of turns are distinct. -/
def next (conversationID : ℤ) (ongoing : Ongoing) : Label → Option Ongoing
  | .begin turnID =>
      if (ongoing.turns.get? turnID).isNone then some { ongoing with turns := ongoing.turns.set turnID .begun }
      else none
  | .command turnID => do
      let phase ← ongoing.turns.get? turnID
      let (registry, later) ← advance conversationID turnID ongoing.registry phase
      return { registry, turns := ongoing.turns.set turnID later }

def opening : Ongoing := { turns := .empty }

def system (conversationID : ℤ) : System Ongoing Label := System.ofNext (next conversationID)

/-- What the registry says is so. While a turn runs, the key names a running turn and both are
reported running; when every turn is still to start or closed, both are reported idle. -/
structure Truthful (ongoing : Ongoing) : Prop where
  running : ∀ turnID, ongoing.turns.get? turnID = some .running →
    (∃ named, ongoing.registry.lookupOngoingTurnID = some named ∧ ongoing.turns.get? named = some .running) ∧
      ongoing.registry.conversationRunStatus = .running ∧ ongoing.registry.agentInstanceRunStatus = .running
  idle : (∀ turnID phase, ongoing.turns.get? turnID = some phase → phase = .begun ∨ phase = .closed) →
    ongoing.registry.conversationRunStatus = .idle ∧ ongoing.registry.agentInstanceRunStatus = .idle

end Ongoing

/-- The key is the turn's own, from its write to its deletion. -/
def Phase.ownsKey : Phase → Bool
  | .keySet | .added | .running | .closing => true
  | _ => false

/-- The member is the turn's own, from its addition to its removal. -/
def Phase.ownsMember : Phase → Bool
  | .added | .running | .closing | .keyDeleted | .responsesDeleted => true
  | _ => false

section Ownership

variable {turns : Dict ℤ Phase} {owns : Phase → Bool} {owner : Option ℤ} {turnID : ℤ} {phase later : Phase}

def Owns (turns : Dict ℤ Phase) (owns : Phase → Bool) (turnID : ℤ) : Prop :=
  ∃ phase ∈ turns.get? turnID, owns phase

/-- The only turn in a phase of ownership, if there is one. -/
def Owner (turns : Dict ℤ Phase) (owns : Phase → Bool) (owner : Option ℤ) : Prop :=
  ∀ turnID, owner = some turnID ↔ Owns turns owns turnID

theorem owns_set (turnID other : ℤ) (later : Phase) :
    Owns (turns.set turnID later) owns other ↔ if other = turnID then owns later = true else Owns turns owns other := by
  unfold Owns
  rw [Dict.get?_set]
  split
  · simp
  · rfl

theorem Owner.keeps (here : turns.get? turnID = some phase) (owned : Owner turns owns owner)
    (same : owns later = owns phase) : Owner (turns.set turnID later) owns owner := by
  intro other
  rw [owned other, owns_set]
  split
  · next equal => simp [Owns, equal, here, same]
  · rfl

theorem Owner.begins (here : turns.get? turnID = none) (owned : Owner turns owns owner)
    (free : owns later = false) : Owner (turns.set turnID later) owns owner := by
  intro other
  rw [owned other, owns_set]
  split
  · next equal => simp [Owns, equal, here, free]
  · rfl

theorem Owner.acquires (nobody : ∀ other, ¬ Owns turns owns other) (taken : owns later) :
    Owner (turns.set turnID later) owns (some turnID) := by
  intro other
  rw [owns_set, Option.some_inj]
  split
  · next equal => simp [equal, taken]
  · next different => exact iff_of_false (fun same => different same.symm) (nobody other)

theorem Owner.releases (here : turns.get? turnID = some phase) (owned : Owner turns owns owner)
    (held : owns phase) (free : owns later = false) : Owner (turns.set turnID later) owns none := by
  have own : owner = some turnID := (owned turnID).mpr ⟨phase, here, held⟩
  intro other
  rw [owns_set]
  refine iff_of_false (fun none => by cases none) ?_
  split
  · simp [free]
  · next different =>
      intro owns
      have same := own.symm.trans ((owned other).mpr owns)
      exact different (Option.some.inj same).symm

theorem not_owns (nobody : ∀ entry ∈ turns.entries, ¬ owns entry.2) (other : ℤ) : ¬ Owns turns owns other := by
  intro owned
  obtain ⟨phase, here, held⟩ := owned
  exact nobody (other, phase) (Dict.get?_eq_some.mp here) held

end Ownership

namespace Ongoing

variable {ongoing target : Ongoing} {label : Label} {conversationID : ℤ}

/-- A turn takes the key or the member only when no other turn has it. -/
def Careful (ongoing : Ongoing) : Label → Prop
  | .begin _ => True
  | .command turnID =>
      (ongoing.turns.get? turnID = some .begun → ∀ entry ∈ ongoing.turns.entries, ¬ entry.2.ownsKey) ∧
        (ongoing.turns.get? turnID = some .keySet → ∀ entry ∈ ongoing.turns.entries, ¬ entry.2.ownsMember)

instance (ongoing : Ongoing) (label : Label) : Decidable (ongoing.Careful label) := by
  unfold Careful
  split <;> infer_instance

/-- The key names the turn that owns it, and the conversation is a member while a turn owns it. -/
structure Sound (conversationID : ℤ) (ongoing : Ongoing) : Prop where
  key : Owner ongoing.turns Phase.ownsKey ongoing.registry.turnKey
  member : ∃ owner, Owner ongoing.turns Phase.ownsMember owner ∧
    ongoing.registry.conversations = if owner.isSome then {conversationID} else ∅

theorem opening_sound : opening.Sound conversationID where
  key turnID := by simp [opening, Owns, Dict.get?_empty]
  member := ⟨none, fun turnID => by simp [opening, Owns, Dict.get?_empty], rfl⟩

theorem Sound.command (sound : ongoing.Sound conversationID) {turnID : ℤ} {phase later : Phase} {registry : Registry}
    (here : ongoing.turns.get? turnID = some phase) (careful : ongoing.Careful (.command turnID))
    (advanced : advance conversationID turnID ongoing.registry phase = some (registry, later)) :
    Sound conversationID { registry, turns := ongoing.turns.set turnID later } := by
  obtain ⟨owner, owned, members⟩ := sound.member
  cases phase with
  | begun =>
      cases advanced
      exact ⟨.acquires (not_owns (careful.1 here)) rfl, owner, owned.keeps here rfl, members⟩
  | keySet =>
      cases advanced
      have nobody := not_owns (careful.2 here)
      refine ⟨sound.key.keeps here rfl, some turnID, .acquires nobody rfl, ?_⟩
      have free : owner = none := by
        cases owner with
        | none => rfl
        | some other => exact absurd ((owned other).mp rfl) (nobody other)
      rw [members, free]
      rfl
  | added =>
      cases advanced
      exact ⟨sound.key.keeps here rfl, owner, owned.keeps here rfl, members⟩
  | running =>
      cases advanced
      exact ⟨sound.key.keeps here rfl, owner, owned.keeps here rfl, members⟩
  | closing =>
      cases advanced
      exact ⟨sound.key.releases here rfl rfl, owner, owned.keeps here rfl, members⟩
  | keyDeleted =>
      cases advanced
      exact ⟨sound.key.keeps here rfl, owner, owned.keeps here rfl, members⟩
  | responsesDeleted =>
      cases advanced
      refine ⟨sound.key.keeps here rfl, none, owned.releases here rfl rfl, ?_⟩
      have own : owner = some turnID := (owned turnID).mpr ⟨_, here, rfl⟩
      rw [members, own]
      simp
  | closed => cases advanced

theorem Sound.step (sound : ongoing.Sound conversationID)
    (step : ((system conversationID).restrict Careful).step ongoing label target) : target.Sound conversationID := by
  obtain ⟨careful, step⟩ := step
  cases label with
  | begin turnID =>
      obtain ⟨fresh, step⟩ := Option.ite_none_right_eq_some.mp step
      obtain rfl := Option.some.inj step
      rw [Option.isNone_iff_eq_none] at fresh
      obtain ⟨owner, owned, members⟩ := sound.member
      exact ⟨sound.key.begins fresh rfl, owner, owned.begins fresh rfl, members⟩
  | command turnID =>
      obtain ⟨phase, here, step⟩ := Option.bind_eq_some_iff.mp step
      obtain ⟨⟨registry, later⟩, advanced, step⟩ := Option.bind_eq_some_iff.mp step
      obtain rfl := Option.some.inj step
      exact sound.command here careful advanced

theorem Sound.truthful (sound : ongoing.Sound conversationID) : ongoing.Truthful := by
  obtain ⟨owner, owned, members⟩ := sound.member
  constructor
  · intro turnID running
    have key := (sound.key turnID).mpr ⟨_, running, rfl⟩
    have member := (owned turnID).mpr ⟨_, running, rfl⟩
    refine ⟨⟨turnID, key, running⟩, ?_, ?_⟩
    · unfold Registry.conversationRunStatus
      rw [key]
      rfl
    · unfold Registry.agentInstanceRunStatus
      rw [members, member]
      rfl
  · intro quiet
    have key : ongoing.registry.turnKey = none := by
      by_contra held
      obtain ⟨turnID, named⟩ := Option.ne_none_iff_exists'.mp held
      obtain ⟨phase, here, owns⟩ := (sound.key turnID).mp named
      rcases quiet turnID phase here with rfl | rfl
      · cases owns
      · cases owns
    have member : owner = none := by
      by_contra held
      obtain ⟨turnID, rfl⟩ := Option.ne_none_iff_exists'.mp held
      obtain ⟨phase, here, owns⟩ := (owned turnID).mp rfl
      rcases quiet turnID phase here with rfl | rfl
      · cases owns
      · cases owns
    constructor
    · unfold Registry.conversationRunStatus
      rw [key]
      rfl
    · unfold Registry.agentInstanceRunStatus
      rw [members, member]
      rfl

/-- The registry tells the truth in every state, as long as no turn takes the key or the member
while another turn has it. -/
theorem truthful_of_careful {labels : List Label}
    (run : ((system conversationID).restrict Careful).Run opening labels ongoing) : ongoing.Truthful := by
  have sound : ongoing.Sound conversationID :=
    run.preserves (Sound conversationID) (fun _ _ _ sound step => sound.step step) opening_sound
  exact sound.truthful

/-- A turn starts behind the end of another that had begun before it. -/
def oneByOne : List Label :=
  [.begin 1, .begin 2, .command 1, .command 1, .command 1, .command 1, .command 1, .command 2, .command 1,
    .command 1, .command 2, .command 2]

theorem oneByOne_truthful :
    ((system 7).restrict Careful).Run opening oneByOne
        (System.after (System.guarded Careful (next 7)) opening oneByOne) ∧
      (System.after (System.guarded Careful (next 7)) opening oneByOne).Truthful := by
  have run : ((system 7).restrict Careful).Run opening oneByOne
      (System.after (System.guarded Careful (next 7)) opening oneByOne) := .ofGuarded Careful (by decide)
  exact ⟨run, truthful_of_careful run⟩

/-- A turn closes while another that started behind it is running. -/
def overlapping : List Label :=
  [.begin 1, .begin 2, .command 1, .command 1, .command 1, .command 2, .command 2, .command 2, .command 1,
    .command 1]

/-- The turn that closes takes the key of the one that runs. -/
theorem overlapping_not_truthful :
    (system 7).Run opening overlapping (System.after (next 7) opening overlapping) ∧
      ¬ (System.after (next 7) opening overlapping).Truthful := by
  refine ⟨.ofNext (by decide), fun truthful => ?_⟩
  have running : (System.after (next 7) opening overlapping).turns.get? 2 = some .running := by decide
  obtain ⟨⟨named, looked, -⟩, -⟩ := truthful.running 2 running
  have gone : (System.after (next 7) opening overlapping).registry.lookupOngoingTurnID = none := by decide
  rw [gone] at looked
  cases looked

end Ongoing

end Sico.Chat

import Sico.Sandbox.Leasing

/-! # Mutual exclusion of leases

A sandbox that a session holds is marked in use, and an acquire refuses a marked lease.
The mark of a held sandbox is lost only when a background write takes it away: an
assignment to the instance that already owns the lease writes a fresh lease without
asking whether it is in use, and a reconciliation writes back or deletes a lease that
it read before the acquire. While no background write does that to a held sandbox,
no second acquire succeeds (`lease_exclusion`).
-/

namespace Sico.Sandbox

open Foundation Foundation.Keyspace

def InUse (store : Redis) (sandboxID : String) : Prop :=
  ∃ lease, store (.resourceLease sandboxID) = some lease ∧ lease.inUse = true

/-- A background write to the lease of a held sandbox writes it in use. -/
def Spares (pool : LeasePool) : LeaseEvent → Prop
  | .background client =>
      ∀ command ∈ (pool.background client).pending pool.store,
        ∀ session sandboxID, (pool.sessions session).Holds sandboxID →
          command.key = .resourceLease sandboxID →
            ∃ lease, command = set (.resourceLease sandboxID) lease ∧ lease.inUse = true
  | _ => True

/-- Held sandboxes are marked in use and held once. -/
structure Exclusive (pool : LeasePool) : Prop where
  marked : ∀ session sandboxID, (pool.sessions session).Holds sandboxID →
    InUse pool.store sandboxID
  alone : ∀ first second sandboxID, (pool.sessions first).Holds sandboxID →
    (pool.sessions second).Holds sandboxID → first = second

theorem InUse.of_untouched {store : Redis} {sandboxID : String} (inUse : InUse store sandboxID)
    {commands : List RedisCommand}
    (untouched : ∀ command ∈ commands, Key.resourceLease sandboxID ≠ command.key) :
    InUse (applyAll commands store) sandboxID := by
  obtain ⟨lease, stored, used⟩ := inUse
  exact ⟨lease, by rw [applyAll_untouched untouched, stored], used⟩

theorem InUse.of_spared {store : Redis} {sandboxID : String} (inUse : InUse store sandboxID)
    {commands : List RedisCommand}
    (spared : ∀ command ∈ commands, command.key = .resourceLease sandboxID →
      ∃ lease, command = set (.resourceLease sandboxID) lease ∧ lease.inUse = true) :
    InUse (applyAll commands store) sandboxID := by
  induction commands generalizing store with
  | nil => exact inUse
  | cons command rest ih =>
      rw [applyAll_cons]
      refine ih ?_ fun other member => spared other (List.mem_cons_of_mem _ member)
      by_cases here : command.key = .resourceLease sandboxID
      · obtain ⟨lease, rfl, used⟩ := spared command List.mem_cons_self here
        exact ⟨lease, Command.apply_same (set (.resourceLease sandboxID) lease) store, used⟩
      · obtain ⟨lease, stored, used⟩ := inUse
        exact ⟨lease, by rw [command.apply_other store (Ne.symm here), stored], used⟩

theorem acquireLeaseScript_some {store : Redis} {instanceID sandboxID : String} {lease : Lease}
    (acquired : acquireLeaseScript store instanceID sandboxID = some lease) :
    ¬ InUse store sandboxID ∧ lease.inUse = true := by
  unfold acquireLeaseScript at acquired
  split at acquired
  · cases acquired
  · next found stored =>
      split_ifs at acquired with cooling owner used
      obtain rfl := Option.some.inj acquired
      refine ⟨?_, rfl⟩
      rintro ⟨other, again, marked⟩
      rw [stored] at again
      obtain rfl := Option.some.inj again
      exact used marked

/-- **One command of a session**: it acquires a lease that is not in use, or holds no
more than before and writes a lease only to give it up. -/
theorem Session.command_cases {store : Redis} {session after : Session}
    {commands : List RedisCommand} (step : session.command store = some (commands, after)) :
    (∃ sandboxID lease, ¬ InUse store sandboxID ∧ lease.inUse = true ∧
      commands = [set (.resourceLease sandboxID) lease] ∧
      ∀ other, after.Holds other ↔ other = sandboxID) ∨
    (∀ sandboxID, after.Holds sandboxID → session.Holds sandboxID) ∧
      ∀ command ∈ commands, ∀ sandboxID, command.key = .resourceLease sandboxID →
        session.Holds sandboxID ∧ ¬ after.Holds sandboxID := by
  cases session with
  | applying instanceID candidates =>
      simp only [Session.command] at step
      split_ifs at step with unable
      · obtain ⟨rfl, rfl⟩ := Prod.mk.inj (Option.some.inj step)
        exact .inr ⟨fun _ held => held.elim, by simp⟩
      · obtain ⟨rfl, rfl⟩ := Prod.mk.inj (Option.some.inj step)
        exact .inr ⟨fun _ held => held.elim, by simp⟩
  | acquiring instanceID candidates =>
      cases candidates with
      | nil =>
          obtain ⟨rfl, rfl⟩ := Prod.mk.inj (Option.some.inj step)
          exact .inr ⟨fun _ held => held.elim, by simp⟩
      | cons sandboxID rest =>
          simp only [Session.command] at step
          split at step
          · obtain ⟨rfl, rfl⟩ := Prod.mk.inj (Option.some.inj step)
            exact .inr ⟨fun _ held => held.elim, by simp⟩
          · next lease acquired =>
              obtain ⟨rfl, rfl⟩ := Prod.mk.inj (Option.some.inj step)
              obtain ⟨free, used⟩ := acquireLeaseScript_some acquired
              exact .inl ⟨sandboxID, lease, free, used, rfl, fun other => eq_comm⟩
  | holding instanceID sandboxID =>
      simp only [Session.command] at step
      split at step
      · obtain ⟨rfl, rfl⟩ := Prod.mk.inj (Option.some.inj step)
        exact .inr ⟨fun _ held => held, by simp⟩
      · obtain ⟨rfl, rfl⟩ := Prod.mk.inj (Option.some.inj step)
        exact .inr ⟨fun _ held => held.elim, by simp⟩
  | releasing instanceID sandboxID released =>
      obtain ⟨rfl, rfl⟩ := Prod.mk.inj (Option.some.inj step)
      refine .inr ⟨fun _ held => held.elim, fun command member other key => ?_⟩
      obtain rfl := List.mem_singleton.mp member
      exact ⟨Key.resourceLease.inj key, fun held => held⟩
  | cooling sandboxID =>
      obtain ⟨rfl, rfl⟩ := Prod.mk.inj (Option.some.inj step)
      exact .inr ⟨fun _ held => held.elim, by simp [set]⟩
  | finished => cases step

theorem leasing_step {pool next : LeasePool} {event : LeaseEvent}
    (step : leasing.step pool event next) :
    (∃ client commands after, event = .session client ∧
      (pool.sessions client).command pool.store = some (commands, after) ∧
      next.store = applyAll commands pool.store ∧
      next.sessions = Function.update pool.sessions client after) ∨
    (∃ client, event = .background client ∧
      next.store = applyAll ((pool.background client).pending pool.store) pool.store ∧
      next.sessions = pool.sessions) ∨
    (∃ client, event = .touch client ∧ next.store = pool.store ∧ next.sessions = pool.sessions) ∨
    ∃ sandboxID, event = .cooldownExpired sandboxID ∧
      next.store = applyAll [del (.cooldown sandboxID)] pool.store ∧
      next.sessions = pool.sessions := by
  cases event with
  | session client =>
      obtain ⟨⟨commands, after⟩, command, rfl⟩ := Option.map_eq_some_iff.mp step
      exact .inl ⟨client, commands, after, rfl, command, rfl, rfl⟩
  | background client =>
      simp only [leasing, System.ofNext, LeasePool.next] at step
      split_ifs at step
      obtain rfl := Option.some.inj step
      exact .inr (.inl ⟨client, rfl, Process.advance_store _ _, rfl⟩)
  | touch client =>
      obtain rfl := Option.some.inj step
      exact .inr (.inr (.inl ⟨client, rfl, rfl, rfl⟩))
  | cooldownExpired sandboxID =>
      obtain rfl := Option.some.inj step
      exact .inr (.inr (.inr ⟨sandboxID, rfl, rfl, rfl⟩))

theorem Exclusive.session {pool next : LeasePool} {client : ℕ} {commands : List RedisCommand}
    {after : Session} (exclusive : Exclusive pool)
    (command : (pool.sessions client).command pool.store = some (commands, after))
    (store : next.store = applyAll commands pool.store)
    (sessions : next.sessions = Function.update pool.sessions client after) : Exclusive next := by
  have others : ∀ other, other ≠ client → next.sessions other = pool.sessions other := by
    intro other apart
    rw [sessions, Function.update_of_ne apart]
  have own : next.sessions client = after := by rw [sessions, Function.update_self]
  rcases Session.command_cases command with
    ⟨sandboxID, lease, free, used, rfl, holds⟩ | ⟨fewer, given⟩
  · -- Nobody held the sandbox: its lease was not in use.
    have unheld : ∀ session, ¬ (pool.sessions session).Holds sandboxID :=
      fun session held => free (exclusive.marked session sandboxID held)
    have elsewhere : ∀ session held, session ≠ client → (next.sessions session).Holds held →
        (pool.sessions session).Holds held ∧ held ≠ sandboxID := by
      intro session held apart holding
      rw [others session apart] at holding
      exact ⟨holding, fun same => unheld session (same ▸ holding)⟩
    have here : ∀ held, (next.sessions client).Holds held ↔ held = sandboxID := by
      intro held
      rw [own]
      exact holds held
    refine ⟨fun session held holding => ?_, fun first second held one two => ?_⟩
    · rw [store]
      by_cases mine : session = client
      · subst mine
        obtain rfl := (here held).mp holding
        exact ⟨lease, Command.apply_same (set (.resourceLease held) lease) _, used⟩
      · obtain ⟨before, apart⟩ := elsewhere session held mine holding
        refine (exclusive.marked session held before).of_untouched fun command member => ?_
        obtain rfl := List.mem_singleton.mp member
        simpa [set] using apart
    · by_cases mine : first = client
      · by_cases yours : second = client
        · rw [mine, yours]
        · subst mine
          exact absurd ((here held).mp one) (elsewhere second held yours two).2
      · by_cases yours : second = client
        · subst yours
          exact absurd ((here held).mp two) (elsewhere first held mine one).2
        · exact exclusive.alone first second held (elsewhere first held mine one).1
            (elsewhere second held yours two).1
  · have shrinks : ∀ session sandboxID, (next.sessions session).Holds sandboxID →
        (pool.sessions session).Holds sandboxID := by
      intro session sandboxID held
      by_cases here : session = client
      · subst here
        exact fewer sandboxID (own ▸ held)
      · rwa [others session here] at held
    refine ⟨fun session sandboxID held => ?_, fun first second sandboxID one two =>
      exclusive.alone first second sandboxID (shrinks _ _ one) (shrinks _ _ two)⟩
    rw [store]
    refine (exclusive.marked session sandboxID (shrinks _ _ held)).of_untouched ?_
    intro command member touched
    obtain ⟨before, released⟩ := given command member sandboxID touched.symm
    obtain rfl := exclusive.alone session client sandboxID (shrinks _ _ held) before
    exact released (own ▸ held)

theorem Exclusive.step {pool next : LeasePool} {event : LeaseEvent} (exclusive : Exclusive pool)
    (spares : Spares pool event) (step : leasing.step pool event next) : Exclusive next := by
  rcases leasing_step step with ⟨client, commands, after, rfl, command, store, sessions⟩ |
    ⟨client, rfl, store, sessions⟩ | ⟨client, rfl, store, sessions⟩ |
      ⟨sandboxID, rfl, store, sessions⟩
  · exact exclusive.session command store sessions
  · refine ⟨fun session sandboxID held => ?_, by rw [sessions]; exact exclusive.alone⟩
    rw [sessions] at held
    rw [store]
    exact (exclusive.marked session sandboxID held).of_spared fun command member =>
      spares command member session sandboxID held
  · exact ⟨by rw [store, sessions]; exact exclusive.marked, by rw [sessions]; exact exclusive.alone⟩
  · refine ⟨fun session held holding => ?_, by rw [sessions]; exact exclusive.alone⟩
    rw [sessions] at holding
    rw [store]
    exact (exclusive.marked session held holding).of_untouched (by simp [del])

/-- **Mutual exclusion.** While the background spares the leases of held sandboxes, a
sandbox is held at most once, and a session that acquires it finds that nobody holds
it: between an acquire and its release no other acquire succeeds. -/
theorem lease_exclusion (store : Redis) (applications : ℕ → String × List String)
    (work : ℕ → Background) {events : List LeaseEvent} {final : LeasePool}
    (run : (leasing.restrict Spares).Run (.start store applications work) events final) :
    (∀ first second sandboxID, (final.sessions first).Holds sandboxID →
      (final.sessions second).Holds sandboxID → first = second) ∧
    ∀ client next sandboxID, leasing.step final (.session client) next →
      ¬ (final.sessions client).Holds sandboxID → (next.sessions client).Holds sandboxID →
        ∀ other, ¬ (final.sessions other).Holds sandboxID := by
  have exclusive : Exclusive final := by
    refine run.preserves Exclusive ?_ ⟨fun _ _ held => held.elim, fun _ _ _ held => held.elim⟩
    rintro pool event next here ⟨spares, step⟩
    exact here.step spares step
  refine ⟨exclusive.alone, fun client next sandboxID step before after other held => ?_⟩
  have spares : Spares final (.session client) := trivial
  have later : Exclusive next := exclusive.step spares step
  by_cases same : other = client
  · subst same
    exact before held
  · have kept : (next.sessions other).Holds sandboxID := by
      rcases leasing_step step with ⟨_, _, _, ⟨⟩, _, _, sessions⟩ | ⟨_, ⟨⟩, _⟩ | ⟨_, ⟨⟩, _⟩ |
        ⟨_, ⟨⟩, _⟩
      rw [sessions, Function.update_of_ne same]
      exact held
    exact same (later.alone other client sandboxID kept after)

/-- Sessions of one instance that apply for one emulator, and assignments of that emulator
to the instance. -/
def oneEmulator (store : Redis) : LeasePool :=
  .start store (fun _ => ("1", ["emulator:a"])) fun _ =>
    .assign ⟨fun _ => some 10, fun _ => none⟩
      (fun _ => some (.ok [{ type := "emulator", resourceID := "a", displayName := "",
                             status := .available, metadata := [], lastSeenAt := none,
                             missingSinceAt := none }])) 0 "1" "emulator:a"

def emulatorAssigned : Redis :=
  applyAll (assignCommands "1" ""
    { sandboxID := "emulator:a", type := "emulator", resourceID := "a", user := "1", inUse := false,
      createdAt := 0, metadata := [], providerMissingSinceAt := none }) fun _ => none

/-- A session reads its assignments and acquires; no other session then can. -/
theorem lease_exclusion_acquired :
    ∃ final, (leasing.restrict Spares).Run (oneEmulator emulatorAssigned)
        [.session 0, .session 0] final ∧
      (final.sessions 0).Holds "emulator:a" ∧
      ∀ client next sandboxID, leasing.step final (.session client) next →
        ¬ (final.sessions client).Holds sandboxID → (next.sessions client).Holds sandboxID →
          ∀ other, ¬ (final.sessions other).Holds sandboxID := by
  have run : leasing.Run (oneEmulator emulatorAssigned) [.session 0, .session 0]
      (System.after LeasePool.next (oneEmulator emulatorAssigned) [.session 0, .session 0]) :=
    .ofNext (by decide +kernel)
  have spared : (leasing.restrict Spares).Run (oneEmulator emulatorAssigned)
      [.session 0, .session 0] _ := run.restrict (by simp [Spares])
  exact ⟨_, spared, by decide +kernel, (lease_exclusion _ _ _ spared).2⟩

/-- An assignment of the emulator that commits at its seventh command, a session that
acquires it, the same assignment once more, and another session that has read its
assignments. -/
def reassigned : List LeaseEvent :=
  List.replicate 7 (LeaseEvent.background 0) ++ [LeaseEvent.session 0, .session 0] ++
    List.replicate 7 (LeaseEvent.background 1) ++ [LeaseEvent.session 1]

/-- The other session acquires the emulator while the first holds it. -/
theorem reassignment_breaks_exclusion :
    ∃ middle final, leasing.Run (oneEmulator fun _ => none) reassigned middle ∧
      (middle.sessions 0).Holds "emulator:a" ∧ ¬ (middle.sessions 1).Holds "emulator:a" ∧
      leasing.step middle (.session 1) final ∧ (final.sessions 1).Holds "emulator:a" := by
  have run : leasing.Run (oneEmulator fun _ => none) reassigned
      (System.after LeasePool.next (oneEmulator fun _ => none) reassigned) :=
    .ofNext (by decide +kernel)
  exact ⟨_, _, run, by decide +kernel, by decide +kernel,
    System.step_ofNext _ _ _ (by decide +kernel), by decide +kernel⟩

end Sico.Sandbox

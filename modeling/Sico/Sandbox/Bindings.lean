import Sico.Sandbox.Scope

/-! # What the scope writes do to the bindings

The writes of a call change, sandbox by sandbox, a binding and the reverse set of one
scope, and nothing else of the bindings. Bindings and reverse sets that mirror each
other at a level (`Mirrored`) do so after the writes, provided that each sandbox of
the call was unbound before it was bound, or bound before it was released.
-/

namespace Sico.Sandbox

open Foundation Foundation.Keyspace

/-- A sandbox is bound to a scope exactly when it is in the scope's reverse set. -/
def Mirrored (store : Redis) (level : Level) : Prop :=
  ∀ sandboxID id, store (.binding level sandboxID) = some id ↔ sandboxID ∈ members store level id

theorem mem_members_sadd {store : Redis} {level other : Level} {id target : ℤ}
    {added sandboxID : String} :
    sandboxID ∈ members ((sadd level id added).apply store) other target ↔
      sandboxID ∈ members store other target ∨
        (other = level ∧ target = id) ∧ sandboxID = added := by
  by_cases here : other = level ∧ target = id
  · obtain ⟨rfl, rfl⟩ := here
    have inserted : members ((sadd other target added).apply store) other target =
        insert added (members store other target) := by
      simp [members, sadd, Command.apply]
    rw [inserted, Finset.mem_insert]
    simp [or_comm]
  · have apart : Key.sandboxes other target ≠ (sadd level id added).key := by
      simpa [sadd] using here
    have kept : members ((sadd level id added).apply store) other target =
        members store other target := by
      unfold members
      rw [Command.apply_other _ _ apart]
    simp [kept, here]

theorem mem_members_srem {store : Redis} {level other : Level} {id target : ℤ}
    {removed sandboxID : String} :
    sandboxID ∈ members ((srem level id removed).apply store) other target ↔
      sandboxID ∈ members store other target ∧
        ¬ ((other = level ∧ target = id) ∧ sandboxID = removed) := by
  by_cases here : other = level ∧ target = id
  · obtain ⟨rfl, rfl⟩ := here
    have erased : members ((srem other target removed).apply store) other target =
        (members store other target).erase removed := by
      by_cases last : (members store other target).erase removed = ∅
      · rw [last]
        simp only [members] at last
        simp [members, srem, Command.apply, last]
      · simp only [members] at last ⊢
        simp [srem, Command.apply, last]
    rw [erased, Finset.mem_erase]
    simp [and_comm]
  · have apart : Key.sandboxes other target ≠ (srem level id removed).key := by
      simpa [srem] using here
    have kept : members ((srem level id removed).apply store) other target =
        members store other target := by
      unfold members
      rw [Command.apply_other _ _ apart]
    simp [kept, here]

/-- The writes for each sandbox: some that touch no binding, then one to its binding at
a level, then one to a reverse set. -/
def rebinding (extra : String → List RedisCommand) (level : Level) (bound : Option ℤ)
    (reverse : String → RedisCommand) (sandboxIDs : List String) : List RedisCommand :=
  sandboxIDs.flatMap fun sandboxID =>
    extra sandboxID ++ [⟨.binding level sandboxID, fun _ => bound⟩, reverse sandboxID]

theorem bindCommands_eq (level : Level) (id : ℤ) (sandboxIDs : List String) :
    bindCommands level id sandboxIDs =
      rebinding (fun _ => []) level (some id) (sadd level id) sandboxIDs :=
  rfl

theorem unbindCommands_eq (level : Level) (id : ℤ) (sandboxIDs : List String) :
    unbindCommands level id sandboxIDs =
      rebinding (fun _ => []) level none (srem level id) sandboxIDs :=
  rfl

theorem writeProjectUnassignment_eq (projectID : ℤ) (sandboxIDs : List String)
    (leases : List (String × Lease)) :
    writeProjectUnassignment projectID sandboxIDs leases =
      rebinding (fun sandboxID => removeLease sandboxID (leases.lookup sandboxID)) .project none
        (srem .project projectID) sandboxIDs :=
  rfl

/-- A key that holds a binding or a reverse set. -/
def Key.IsScope : Key → Prop
  | .binding _ _ => True
  | .sandboxes _ _ => True
  | _ => False

section Rebinding

variable {extra : String → List RedisCommand} {level : Level} {bound : Option ℤ}
variable {reverse : String → RedisCommand}

theorem rebinding_cons (first : String) (rest : List String) (store : Redis) :
    applyAll (rebinding extra level bound reverse (first :: rest)) store =
      applyAll (rebinding extra level bound reverse rest)
        ((reverse first).apply
          ((⟨.binding level first, fun _ => bound⟩ : RedisCommand).apply
            (applyAll (extra first) store))) := by
  simp [rebinding, applyAll_append]

theorem extra_scope (outside : ∀ sandboxID, ∀ command ∈ extra sandboxID, ¬ command.key.IsScope)
    (sandboxID : String) (store : Redis) {key : Key} (scope : key.IsScope) :
    applyAll (extra sandboxID) store key = store key := by
  apply applyAll_untouched
  rintro command member rfl
  exact outside sandboxID command member scope

theorem rebinding_binding
    (outside : ∀ sandboxID, ∀ command ∈ extra sandboxID, ¬ command.key.IsScope)
    (reversed : ∀ sandboxID, ∃ id, (reverse sandboxID).key = .sandboxes level id)
    (sandboxIDs : List String) (store : Redis) (other : Level) (sandboxID : String) :
    applyAll (rebinding extra level bound reverse sandboxIDs) store (.binding other sandboxID) =
      if other = level ∧ sandboxID ∈ sandboxIDs then bound
      else store (.binding other sandboxID) := by
  induction sandboxIDs generalizing store with
  | nil => simp [rebinding]
  | cons first rest ih =>
      rw [rebinding_cons, ih]
      obtain ⟨id, reversedKey⟩ := reversed first
      have sets : applyAll (extra first) store (.binding other sandboxID) =
          store (.binding other sandboxID) := extra_scope outside first store trivial
      rw [Command.apply_other (reverse first) _ (by simp [reversedKey])]
      by_cases here : other = level ∧ sandboxID = first
      · obtain ⟨rfl, rfl⟩ := here
        simp [Command.apply]
      · rw [Command.apply_other _ _ (by simpa using here), sets]
        by_cases level' : other = level
        · have apart : sandboxID ≠ first := fun same => here ⟨level', same⟩
          simp [level', apart]
        · simp [level']

theorem rebinding_outside {key : Key} (scope : ¬ key.IsScope)
    (untouched : ∀ sandboxID, ∀ command ∈ extra sandboxID, key ≠ command.key)
    (reversed : ∀ sandboxID, ∃ id, (reverse sandboxID).key = .sandboxes level id)
    (sandboxIDs : List String) (store : Redis) :
    applyAll (rebinding extra level bound reverse sandboxIDs) store key = store key := by
  refine applyAll_untouched (fun command member => ?_) store
  obtain ⟨sandboxID, _, here⟩ := List.mem_flatMap.mp member
  rcases List.mem_append.mp here with added | written
  · exact untouched sandboxID command added
  · obtain ⟨id, reversedKey⟩ := reversed sandboxID
    rcases List.mem_cons.mp written with rfl | last
    · rintro rfl
      exact scope trivial
    · obtain rfl := List.mem_singleton.mp last
      rintro rfl
      rw [reversedKey] at scope
      exact scope trivial

end Rebinding

theorem bindCommands_outside {key : Key} (scope : ¬ key.IsScope) (level : Level) (id : ℤ)
    (sandboxIDs : List String) (store : Redis) :
    applyAll (bindCommands level id sandboxIDs) store key = store key := by
  rw [bindCommands_eq]
  exact rebinding_outside scope (by simp) (fun _ => ⟨id, rfl⟩) sandboxIDs store

theorem members_eq_of {store after : Redis} {level : Level} {id : ℤ}
    (same : after (.sandboxes level id) = store (.sandboxes level id)) :
    members after level id = members store level id := by
  unfold members
  rw [same]

theorem mem_members_bind {level other : Level} {id target : ℤ} {sandboxIDs : List String}
    {store : Redis} {sandboxID : String} :
    sandboxID ∈ members (applyAll (bindCommands level id sandboxIDs) store) other target ↔
      sandboxID ∈ members store other target ∨
        (other = level ∧ target = id) ∧ sandboxID ∈ sandboxIDs := by
  induction sandboxIDs generalizing store with
  | nil => simp [bindCommands]
  | cons first rest ih =>
      rw [bindCommands_eq, rebinding_cons, ← bindCommands_eq, ih, mem_members_sadd,
        members_eq_of (Command.apply_other _ _ (by simp))]
      simp only [applyAll_nil, List.mem_cons]
      tauto

theorem mem_members_release {extra : String → List RedisCommand} {level other : Level}
    {id target : ℤ} {sandboxIDs : List String} {store : Redis} {sandboxID : String}
    (outside : ∀ sandboxID, ∀ command ∈ extra sandboxID, ¬ command.key.IsScope) :
    sandboxID ∈ members
        (applyAll (rebinding extra level none (srem level id) sandboxIDs) store) other target ↔
      sandboxID ∈ members store other target ∧
        ¬ ((other = level ∧ target = id) ∧ sandboxID ∈ sandboxIDs) := by
  induction sandboxIDs generalizing store with
  | nil => simp [rebinding]
  | cons first rest ih =>
      rw [rebinding_cons, ih, mem_members_srem, members_eq_of (Command.apply_other _ _ (by simp)),
        members_eq_of (extra_scope outside first store trivial)]
      simp only [List.mem_cons]
      tauto

theorem removeLease_outside (sandboxID : String) (lease : Option Lease) :
    ∀ command ∈ removeLease sandboxID lease, ¬ command.key.IsScope := by
  intro command member
  cases lease with
  | none => simp [removeLease] at member
  | some lease =>
      simp only [removeLease, List.mem_append, List.mem_singleton] at member
      rcases member with (member | rfl) | member
      · split at member <;> simp_all [hdel, Key.IsScope]
      · simp [del, Key.IsScope]
      · split at member <;> simp_all [set, Key.IsScope]

/-- Exactly the bindings of these sandboxes at this level change, all from one value to
another. -/
structure Rebinds (level : Level) (sandboxIDs : List String) (unbound bound : Option ℤ)
    (before after : Redis) : Prop where
  source : ∀ sandboxID ∈ sandboxIDs, before (.binding level sandboxID) = unbound
  target : ∀ sandboxID ∈ sandboxIDs, after (.binding level sandboxID) = bound
  frame : ∀ other sandboxID, ¬ (other = level ∧ sandboxID ∈ sandboxIDs) →
    after (.binding other sandboxID) = before (.binding other sandboxID)

theorem rebinding_rebinds {extra : String → List RedisCommand} {level : Level}
    {unbound bound : Option ℤ} {reverse : String → RedisCommand} {sandboxIDs : List String}
    {store : Redis} (outside : ∀ sandboxID, ∀ command ∈ extra sandboxID, ¬ command.key.IsScope)
    (reversed : ∀ sandboxID, ∃ id, (reverse sandboxID).key = .sandboxes level id)
    (source : ∀ sandboxID ∈ sandboxIDs, store (.binding level sandboxID) = unbound) :
    Rebinds level sandboxIDs unbound bound store
      (applyAll (rebinding extra level bound reverse sandboxIDs) store) where
  source := source
  target sandboxID member := by
    rw [rebinding_binding outside reversed]
    simp [member]
  frame other sandboxID apart := by
    rw [rebinding_binding outside reversed, if_neg apart]

theorem bind_rebinds {level : Level} (id : ℤ) {sandboxIDs : List String} {store : Redis}
    (source : ∀ sandboxID ∈ sandboxIDs, store (.binding level sandboxID) = none) :
    Rebinds level sandboxIDs none (some id) store
      (applyAll (bindCommands level id sandboxIDs) store) :=
  rebinding_rebinds (fun _ _ none => absurd none List.not_mem_nil) (fun _ => ⟨id, rfl⟩) source

theorem release_rebinds {extra : String → List RedisCommand} {level : Level} {id : ℤ}
    {sandboxIDs : List String} {store : Redis}
    (outside : ∀ sandboxID, ∀ command ∈ extra sandboxID, ¬ command.key.IsScope)
    (source : ∀ sandboxID ∈ sandboxIDs, store (.binding level sandboxID) = some id) :
    Rebinds level sandboxIDs (some id) none store
      (applyAll (rebinding extra level none (srem level id) sandboxIDs) store) :=
  rebinding_rebinds outside (fun _ => ⟨id, rfl⟩) source

theorem bind_mirrored {level other : Level} {id : ℤ} {sandboxIDs : List String} {store : Redis}
    (mirrored : Mirrored store other)
    (source : ∀ sandboxID ∈ sandboxIDs, store (.binding level sandboxID) = none) :
    Mirrored (applyAll (bindCommands level id sandboxIDs) store) other := by
  intro sandboxID target
  have rebinds := bind_rebinds id source
  rw [mem_members_bind]
  by_cases here : other = level ∧ sandboxID ∈ sandboxIDs
  · obtain ⟨rfl, member⟩ := here
    have free : sandboxID ∉ members store other target := by
      rw [← mirrored, source sandboxID member]
      simp
    rw [rebinds.target sandboxID member]
    simp [free, member, eq_comm]
  · rw [rebinds.frame other sandboxID here, mirrored]
    tauto

theorem release_mirrored {extra : String → List RedisCommand} {level other : Level} {id : ℤ}
    {sandboxIDs : List String} {store : Redis}
    (outside : ∀ sandboxID, ∀ command ∈ extra sandboxID, ¬ command.key.IsScope)
    (mirrored : Mirrored store other)
    (source : ∀ sandboxID ∈ sandboxIDs, store (.binding level sandboxID) = some id) :
    Mirrored (applyAll (rebinding extra level none (srem level id) sandboxIDs) store) other := by
  intro sandboxID target
  have rebinds := release_rebinds outside source
  rw [mem_members_release outside]
  by_cases here : other = level ∧ sandboxID ∈ sandboxIDs
  · obtain ⟨rfl, member⟩ := here
    rw [rebinds.target sandboxID member, ← mirrored, source sandboxID member]
    simp only [reduceCtorEq, Option.some.injEq, true_and, member, and_true, false_iff, not_and,
      not_not]
    exact Eq.symm
  · rw [rebinds.frame other sandboxID here, mirrored]
    tauto

end Sico.Sandbox

import Sico.Foundation.System
import Sico.Rbac.Model

/-! # Rows and groupings

The rows of the existing users say which groupings there should be. Assigning a role without a
scope id keeps the row under the scope id "0" and the grouping under an empty one; removing a
role removes the grouping even where another row of the user stands for it, since the domain of
a scope does not tell its row. These are the only ways in which rows and groupings come apart.
-/

namespace Sico.Rbac

open Foundation

inductive Operation where
  | assign (request : UserRole)
  | remove (request : UserRole)
  | createUser (username : String)
  | deleteUser (id : ℤ)

namespace Store

def apply (store : Store) : Operation → Store
  | .assign request => store.completed (store.assignUserRoleInternal request)
  | .remove request => store.removeUserRoleInternal request
  | .createUser username => store.completed (store.doCreateUser username)
  | .deleteUser id => store.completed (store.doDeleteUser id)

def after (operations : List Operation) : Store := operations.foldl apply opening

variable {store : Store} {request : UserRole} {username : String} {id : ℤ}

/-- The grouping of a row of an existing user. -/
def Owed (store : Store) (policy : Grouping) : Prop :=
  ∃ row ∈ store.userRoles, ∃ username, store.users.get? row.userId = some username ∧ policy = grouping row username

/-- The groupings are those of the rows of the existing users. -/
def Agrees (store : Store) : Prop := ∀ policy, policy ∈ store.groupings ↔ store.Owed policy

/-- Identifiers are given out in turn, and no two users have the same name. -/
structure Sound (store : Store) : Prop where
  users : ∀ id username, store.users.get? id = some username → id < store.nextId
  rows : ∀ row ∈ store.userRoles, row.userId < store.nextId
  names : ∀ id id' username, store.users.get? id = some username → store.users.get? id' = some username → id = id'

section Operations

theorem mem_named {username : String} {id : ℤ} :
    id ∈ store.named username ↔ store.users.get? id = some username := by
  unfold named
  rw [Dict.get?_eq_some, List.mem_map]
  constructor
  · intro listed
    obtain ⟨⟨id', username'⟩, listed, rfl⟩ := listed
    obtain ⟨listed, same⟩ := List.mem_filter.mp listed
    rwa [← of_decide_eq_true same]
  · intro listed
    exact ⟨(id, username), List.mem_filter.mpr ⟨listed, decide_eq_true rfl⟩, rfl⟩

theorem create_cases (store : Store) (username : String) :
    ((∀ id, store.users.get? id ≠ some username) ∧
      store.completed (store.doCreateUser username) =
        { store with users := store.users.set store.nextId username, nextId := store.nextId + 1 }) ∨
      store.completed (store.doCreateUser username) = store := by
  unfold doCreateUser
  split
  · exact .inr rfl
  · next none =>
      refine .inl ⟨fun id found => ?_, rfl⟩
      rw [ne_eq, not_not] at none
      have listed := mem_named.mpr found
      rw [none] at listed
      cases listed

theorem delete_cases (store : Store) (id : ℤ) :
    (∃ username, store.users.get? id = some username ∧
      store.completed (store.doDeleteUser id) =
        { store with
          users := store.users.erase id
          groupings := store.groupings.filter fun grouping => grouping.username ≠ username }) ∨
      store.completed (store.doDeleteUser id) = store := by
  unfold doDeleteUser
  cases store.users.get? id with
  | none => exact .inr rfl
  | some username => exact .inl ⟨username, rfl, rfl⟩

end Operations

theorem opening_sound : opening.Sound where
  users id username found := by cases found
  rows row listed := by cases listed
  names id id' username found := by cases found

theorem Sound.apply (sound : store.Sound) (operation : Operation) : (store.apply operation).Sound := by
  cases operation with
  | assign request =>
      change (store.completed (store.assignUserRoleInternal request)).Sound
      rcases store.assign_cases request with ⟨username, accepted, same⟩ | ⟨-, same⟩
      · rw [same]
        refine { sound with rows := ?_ }
        intro row listed
        rcases List.mem_append.mp listed with earlier | new
        · exact sound.rows row earlier
        · rw [List.mem_singleton.mp new]
          exact sound.users request.userId username accepted.1
      · rw [same]
        exact sound
  | remove request =>
      obtain ⟨users, nextId, rows⟩ := store.removeUserRoleInternal_users request
      change (store.removeUserRoleInternal request).Sound
      refine { users := ?_, rows := ?_, names := ?_ }
      · rw [users, nextId]
        exact sound.users
      · rw [rows, nextId]
        exact fun row listed => sound.rows row (List.mem_of_mem_filter listed)
      · rw [users]
        exact sound.names
  | createUser username =>
      change (store.completed (store.doCreateUser username)).Sound
      rcases store.create_cases username with ⟨unused, same⟩ | same
      · rw [same]
        refine { users := ?_, rows := ?_, names := ?_ }
        · intro id name found
          dsimp only at found ⊢
          rw [Dict.get?_set] at found
          split at found
          · omega
          · have before := sound.users id name found
            omega
        · intro row listed
          have before := sound.rows row listed
          dsimp only
          omega
        · intro id id' name found found'
          dsimp only at found found'
          rw [Dict.get?_set] at found found'
          split at found
          · split at found'
            · omega
            · cases found
              exact absurd found' (unused id')
          · split at found'
            · cases found'
              exact absurd found (unused id)
            · exact sound.names id id' name found found'
      · rw [same]
        exact sound
  | deleteUser id =>
      change (store.completed (store.doDeleteUser id)).Sound
      have earlier {other : ℤ} {name : String} (found : (store.users.erase id).get? other = some name) :
          store.users.get? other = some name := by
        rw [Dict.get?_erase] at found
        split at found
        · cases found
        · exact found
      rcases store.delete_cases id with ⟨username, found, same⟩ | same
      · rw [same]
        exact
          { users := fun other name found => sound.users other name (earlier found)
            rows := sound.rows
            names := fun other other' name found found' =>
              sound.names other other' name (earlier found) (earlier found') }
      · rw [same]
        exact sound

section Steps

/-- What an operation needs for rows and groupings to stay the same. Where a role is assigned,
its row and its grouping have the same domain, or both domains are there already. Where a role
is removed from an existing user, no other row of the user has its grouping. -/
def Careful (store : Store) : Operation → Prop
  | .assign request => ∀ username, store.Accepts request username →
      grouping request username = grouping request.stored username ∨
        (grouping request username ∈ store.groupings ∧ grouping request.stored username ∈ store.groupings)
  | .remove request => ∀ username, store.users.get? request.userId = some username →
      ∀ row ∈ store.userRoles, row.userId = request.userId → grouping row username = grouping request username →
        row = request
  | _ => True

theorem agrees_assign (agrees : store.Agrees) (accepted : store.Accepts request username) :
    Agrees
        { store with
          userRoles := store.userRoles ++ [request.stored]
          groupings := insert (grouping request username) store.groupings } ↔
      grouping request username = grouping request.stored username ∨
        (grouping request username ∈ store.groupings ∧ grouping request.stored username ∈ store.groupings) := by
  have owed (policy : Grouping) :
      Owed
          { store with
            userRoles := store.userRoles ++ [request.stored]
            groupings := insert (grouping request username) store.groupings } policy ↔
        policy ∈ store.groupings ∨ policy = grouping request.stored username := by
    rw [agrees policy]
    constructor
    · intro owed
      obtain ⟨row, listed, name, found, same⟩ := owed
      rcases List.mem_append.mp listed with earlier | new
      · exact .inl ⟨row, earlier, name, found, same⟩
      · obtain rfl := List.mem_singleton.mp new
        obtain rfl := Option.some.inj (accepted.1.symm.trans found)
        exact .inr same
    · intro owed
      rcases owed with ⟨row, listed, name, found, same⟩ | rfl
      · exact ⟨row, List.mem_append_left _ listed, name, found, same⟩
      · exact ⟨request.stored, by simp, username, accepted.1, rfl⟩
  unfold Agrees
  simp only [owed, Finset.mem_insert]
  constructor
  · intro same
    have given := (same (grouping request username)).mp (.inl rfl)
    have kept := (same (grouping request.stored username)).mpr (.inr rfl)
    rcases given with given | equal
    · rcases kept with equal | kept
      · exact .inl equal.symm
      · exact .inr ⟨given, kept⟩
    · exact .inl equal
  · intro careful policy
    rcases careful with equal | ⟨given, kept⟩
    · rw [equal]
      exact or_comm
    · constructor
      · intro listed
        rcases listed with rfl | listed
        · exact .inl given
        · exact .inl listed
      · intro listed
        rcases listed with listed | rfl
        · exact .inr listed
        · exact .inr kept

theorem agrees_remove (agrees : store.Agrees) (names : ∀ id id' username, store.users.get? id = some username →
      store.users.get? id' = some username → id = id') :
    (store.removeUserRoleInternal request).Agrees ↔ store.Careful (.remove request) := by
  have rows (row : UserRole) : row ∈ (store.removeUserRoleInternal request).userRoles ↔
      row ∈ store.userRoles ∧ row ≠ request := by
    rw [(store.removeUserRoleInternal_users request).2.2, List.mem_filter, decide_eq_true_eq]
  have users := (store.removeUserRoleInternal_users request).1
  unfold Agrees Owed
  simp only [rows, users]
  cases found : store.users.get? request.userId with
  | none =>
      -- the rows of a user that is not there owe nothing
      have same : (store.removeUserRoleInternal request).groupings = store.groupings := by
        unfold removeUserRoleInternal
        rw [found]
        rfl
      rw [same]
      constructor
      · intro _ username here
        rw [found] at here
        cases here
      · intro _ policy
        rw [agrees policy]
        constructor
        · intro owed
          obtain ⟨row, listed, username, here, same⟩ := owed
          refine ⟨row, ⟨listed, ?_⟩, username, here, same⟩
          intro equal
          rw [equal, found] at here
          cases here
        · intro owed
          obtain ⟨row, ⟨listed, -⟩, rest⟩ := owed
          exact ⟨row, listed, rest⟩
  | some username =>
      have same : (store.removeUserRoleInternal request).groupings =
          store.groupings.erase (grouping request username) := by
        unfold removeUserRoleInternal
        rw [found]
      rw [same]
      constructor
      · intro after name here row listed own equal
        obtain rfl := Option.some.inj (found.symm.trans here)
        by_contra other
        have kept := (after (grouping request username)).mpr
          ⟨row, ⟨listed, other⟩, username, by rw [own]; exact found, equal.symm⟩
        exact absurd rfl (Finset.ne_of_mem_erase kept)
      · intro careful policy
        rw [Finset.mem_erase, agrees policy]
        constructor
        · intro kept
          obtain ⟨different, row, listed, name, here, rfl⟩ := kept
          refine ⟨row, ⟨listed, ?_⟩, name, here, rfl⟩
          intro equal
          rw [equal] at here different
          obtain rfl := Option.some.inj (found.symm.trans here)
          exact different rfl
        · intro owed
          obtain ⟨row, ⟨listed, other⟩, name, here, rfl⟩ := owed
          refine ⟨?_, row, listed, name, here, rfl⟩
          intro equal
          have sameName : name = username := congrArg Grouping.username equal
          rw [sameName] at here equal
          exact other (careful username found row listed (names _ _ _ here found) equal)

theorem agrees_create (agrees : store.Agrees) (sound : store.Sound) :
    Agrees { store with users := store.users.set store.nextId username, nextId := store.nextId + 1 } := by
  intro policy
  rw [agrees policy]
  have reads (row : UserRole) (listed : row ∈ store.userRoles) :
      (store.users.set store.nextId username).get? row.userId = store.users.get? row.userId := by
    have earlier := sound.rows row listed
    rw [Dict.get?_set, if_neg (by omega)]
  constructor
  · intro owed
    obtain ⟨row, listed, name, found, same⟩ := owed
    exact ⟨row, listed, name, by rw [reads row listed]; exact found, same⟩
  · intro owed
    obtain ⟨row, listed, name, found, same⟩ := owed
    rw [reads row listed] at found
    exact ⟨row, listed, name, found, same⟩

theorem agrees_delete (agrees : store.Agrees) (sound : store.Sound) (found : store.users.get? id = some username) :
    Agrees
      { store with
        users := store.users.erase id
        groupings := store.groupings.filter fun grouping => grouping.username ≠ username } := by
  intro policy
  rw [Finset.mem_filter, agrees policy]
  constructor
  · intro kept
    obtain ⟨⟨row, listed, name, here, rfl⟩, different⟩ := kept
    refine ⟨row, listed, name, ?_, rfl⟩
    dsimp only
    rw [Dict.get?_erase, if_neg, here]
    intro same
    rw [same, found] at here
    exact different (Option.some.inj here).symm
  · intro owed
    obtain ⟨row, listed, name, here, rfl⟩ := owed
    dsimp only at here
    rw [Dict.get?_erase] at here
    split at here
    · cases here
    · next other =>
        refine ⟨⟨row, listed, name, here, rfl⟩, ?_⟩
        intro same
        change name = username at same
        rw [same] at here
        exact other (sound.names _ _ _ here found)

theorem agrees_apply (sound : store.Sound) (agrees : store.Agrees) (operation : Operation) :
    (store.apply operation).Agrees ↔ store.Careful operation := by
  cases operation with
  | assign request =>
      change (store.completed (store.assignUserRoleInternal request)).Agrees ↔ _
      rcases store.assign_cases request with ⟨username, accepted, same⟩ | ⟨refused, same⟩
      · rw [same, agrees_assign agrees accepted]
        constructor
        · intro careful name accepted'
          obtain rfl := Option.some.inj (accepted.1.symm.trans accepted'.1)
          exact careful
        · intro careful
          exact careful username accepted
      · rw [same]
        exact iff_of_true agrees fun username accepted => absurd accepted (refused username)
  | remove request => exact agrees_remove agrees sound.names
  | createUser username =>
      change (store.completed (store.doCreateUser username)).Agrees ↔ _
      refine iff_of_true ?_ trivial
      rcases store.create_cases username with ⟨-, same⟩ | same
      · rw [same]
        exact agrees_create agrees sound
      · rw [same]
        exact agrees
  | deleteUser id =>
      change (store.completed (store.doDeleteUser id)).Agrees ↔ _
      refine iff_of_true ?_ trivial
      rcases store.delete_cases id with ⟨username, found, same⟩ | same
      · rw [same]
        exact agrees_delete agrees sound found
      · rw [same]
        exact agrees

end Steps

theorem opening_agrees : opening.Agrees := by
  intro policy
  constructor
  · intro listed
    exact absurd listed (Finset.notMem_empty policy)
  · intro owed
    obtain ⟨row, listed, -⟩ := owed
    cases listed

/-- Two roles of the platform, under different scope ids. -/
def platformRole (scopeId : String) : UserRole :=
  { userId := 1, roleCode := "platform_admin", scopeType := "platform", scopeId }

end Store

end Sico.Rbac

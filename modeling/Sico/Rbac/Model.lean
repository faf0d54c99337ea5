import Mathlib.Data.Finset.Basic
import Mathlib.Data.Finset.Filter
import Sico.Foundation.Basic
import Sico.Foundation.Dict

/-! # Roles of users

A role that a user has in a scope is kept twice: as a row of `t_user_role`, which names the
user by its identifier, and as a grouping policy of Casbin, which names the user by its
username and the scope by its domain. Casbin adds and removes exactly the grouping it is given.

Texts are compared as they are, and every request of the database succeeds. A user is created
under a new identifier; whether a username may be used again after its user was deleted is left
open, and the model lets it.
-/

namespace Sico.Rbac

open Foundation

/-- A row of `t_user_role`, and the request to assign or to remove one. -/
structure UserRole where
  userId : ℤ
  roleCode : String
  scopeType : String
  scopeId : String
  deriving DecidableEq

/-- A grouping policy. -/
structure Grouping where
  username : String
  roleCode : String
  domain : String
  deriving DecidableEq

structure Store where
  /-- The usernames of the users that are not deleted. -/
  users : Dict ℤ String
  /-- The next identifier of a user. -/
  nextId : ℤ := 1
  userRoles : List UserRole := []
  groupings : Finset Grouping := ∅

def domainOf (scopeType scopeId : String) : String :=
  if scopeType = "platform" then "platform" else scopeType ++ ":" ++ scopeId

section Rows

structure UserRoleFilter where
  userID : ℤ := 0
  roleCode : String := ""
  scopeType : String := ""
  scopeID : String := ""

/-- A filter leaves out the conditions on fields without a value, and the scope id "0" is none. -/
def UserRoleFilter.Matches (filter : UserRoleFilter) (row : UserRole) : Prop :=
  (0 < filter.userID → row.userId = filter.userID) ∧
    (filter.roleCode ≠ "" → row.roleCode = filter.roleCode) ∧
    (filter.scopeType ≠ "" → row.scopeType = filter.scopeType) ∧
    (filter.scopeID ≠ "" ∧ filter.scopeID ≠ "0" → row.scopeId = filter.scopeID)

instance (filter : UserRoleFilter) (row : UserRole) : Decidable (filter.Matches row) :=
  inferInstanceAs (Decidable (_ ∧ _))

def Store.list (store : Store) (filter : UserRoleFilter) : List UserRole :=
  store.userRoles.filter fun row => filter.Matches row

/-- The row that `UserRoleDAO.Assign` writes: the column of the scope id has a default, which
stands in for an empty text. -/
def UserRole.stored (request : UserRole) : UserRole :=
  { request with scopeId := if request.scopeId = "" then "0" else request.scopeId }

/-- `UserRoleDAO.Remove`. -/
def Store.removeRows (store : Store) (request : UserRole) : Store :=
  { store with userRoles := store.userRoles.filter fun row => row ≠ request }

end Rows

namespace Store

def grouping (request : UserRole) (username : String) : Grouping :=
  { username, roleCode := request.roleCode, domain := domainOf request.scopeType request.scopeId }

def assignUserRoleInternal (store : Store) (request : UserRole) : Except String Store :=
  match store.users.get? request.userId with
  | none => .error "user not found"
  | some username =>
      let filter : UserRoleFilter :=
        { userID := request.userId
          roleCode := request.roleCode
          scopeType := request.scopeType
          scopeID := request.scopeId }
      if store.list filter ≠ [] then .error "role already assigned to user"
      else
        .ok
          { store with
            userRoles := store.userRoles ++ [request.stored]
            groupings := insert (grouping request username) store.groupings }

def removeUserRoleInternal (store : Store) (request : UserRole) : Store :=
  match store.users.get? request.userId with
  | none => store.removeRows request
  | some username =>
      { store.removeRows request with groupings := store.groupings.erase (grouping request username) }

def named (store : Store) (username : String) : List ℤ :=
  (store.users.entries.filter fun entry => entry.2 = username).map Prod.fst

def doCreateUser (store : Store) (username : String) : Except String Store :=
  if store.named username ≠ [] then .error "username already exists"
  else .ok { store with users := store.users.set store.nextId username, nextId := store.nextId + 1 }

def doDeleteUser (store : Store) (id : ℤ) : Except String Store :=
  match store.users.get? id with
  | none => .error "user not found"
  | some username =>
      .ok
        { store with
          users := store.users.erase id
          groupings := store.groupings.filter fun grouping => grouping.username ≠ username }

/-- A refused operation changes nothing. -/
def completed (store : Store) (outcome : Except String Store) : Store :=
  match outcome with
  | .ok store => store
  | .error _ => store

/-- The request to assign goes through. -/
def Accepts (store : Store) (request : UserRole) (username : String) : Prop :=
  store.users.get? request.userId = some username ∧
    store.list
      { userID := request.userId
        roleCode := request.roleCode
        scopeType := request.scopeType
        scopeID := request.scopeId } = []

theorem assign_cases (store : Store) (request : UserRole) :
    (∃ username, store.Accepts request username ∧
      store.completed (store.assignUserRoleInternal request) =
        { store with
          userRoles := store.userRoles ++ [request.stored]
          groupings := insert (grouping request username) store.groupings }) ∨
      ((∀ username, ¬ store.Accepts request username) ∧
        store.completed (store.assignUserRoleInternal request) = store) := by
  unfold assignUserRoleInternal Accepts
  cases found : store.users.get? request.userId with
  | none => exact .inr ⟨by simp, rfl⟩
  | some username =>
      dsimp only
      split
      · next listed => exact .inr ⟨fun _ accepted => listed accepted.2, rfl⟩
      · next none => exact .inl ⟨username, ⟨rfl, not_not.mp none⟩, rfl⟩

theorem removeUserRoleInternal_users (store : Store) (request : UserRole) :
    (store.removeUserRoleInternal request).users = store.users ∧
      (store.removeUserRoleInternal request).nextId = store.nextId ∧
      (store.removeUserRoleInternal request).userRoles = store.userRoles.filter fun row => row ≠ request := by
  unfold removeUserRoleInternal
  split
  · exact ⟨rfl, rfl, rfl⟩
  · exact ⟨rfl, rfl, rfl⟩

def opening : Store := { users := .empty }

end Store

end Sico.Rbac

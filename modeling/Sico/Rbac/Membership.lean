import Sico.Foundation.Numerals
import Sico.Foundation.System
import Sico.Rbac.Model

/-! # Members of projects and of organizations

A user becomes a member of a project only as a member of its organization. Nothing looks at the
projects when a role in an organization is removed, alone or with all roles of the organization,
and the check itself takes any organization for one with the identifier zero. Every other
operation keeps the members of projects members of their organizations.
-/

namespace Sico.Rbac

open Foundation

section Operations

variable (organizationOf : ℤ → Option ℤ)

/-- `strconv.ParseInt` in base ten. -/
def parseInt (text : String) : Option ℤ := (decimalValue text).filter (fitsSigned 63)

def validateProjectOrganizationMembership (store : Store) (request : UserRole) : Except String Unit :=
  if request.scopeType ≠ "project" ∨ request.scopeId = "" then
    .error "project scope required for project_member role"
  else
    match parseInt request.scopeId with
    | none => .error "valid project scope ID required for project_member role"
    | some projectID =>
        if projectID ≤ 0 then .error "valid project scope ID required for project_member role"
        else
          match organizationOf projectID with
          | none => .error "project not found"
          | some organizationID =>
              let filter : UserRoleFilter :=
                { userID := request.userId
                  roleCode := "org_member"
                  scopeType := "org"
                  scopeID := toString organizationID }
              if store.list filter = [] then .error "user is not a member of the project's organization"
              else .ok ()

def assignUserRole (store : Store) (request : UserRole) : Except String Store := do
  refuseIf (request.userId ≤ 0 ∨ request.roleCode = "") "userId and roleCode are required"
  if request.roleCode = "project_member" then validateProjectOrganizationMembership organizationOf store request
  store.assignUserRoleInternal request

def removeUserRole (store : Store) (request : UserRole) : Except String Store := do
  refuseIf (request.userId ≤ 0 ∨ request.roleCode = "") "userId and roleCode are required"
  return store.removeUserRoleInternal request

/-- The removals that `removeAllOrganizationRoles` makes for the rows it lists, one for each user
and role. -/
def distinctRemovals (scopeID : String) : List String → List UserRole → List UserRole
  | _, [] => []
  | seen, row :: rest =>
      let key := toString row.userId ++ ":" ++ row.roleCode
      if key ∈ seen then distinctRemovals scopeID seen rest
      else
        { userId := row.userId, roleCode := row.roleCode, scopeType := "org", scopeId := scopeID } ::
          distinctRemovals scopeID (key :: seen) rest

/-- The removals made for an organization, up to the first that fails if one does. -/
def organizationRemovals (store : Store) (organizationID : ℤ) (failing : Option ℕ) : List UserRole :=
  let filter : UserRoleFilter := { scopeType := "org", scopeID := toString organizationID }
  let removals := distinctRemovals (toString organizationID) [] (store.list filter)
  removals.take (failing.getD removals.length)

def removeAllOrganizationRoles (store : Store) (organizationID : ℤ) (failing : Option ℕ) : Store :=
  (organizationRemovals store organizationID failing).foldl Store.removeUserRoleInternal store

inductive MembershipOperation where
  | assignUserRole (request : UserRole)
  | removeUserRole (request : UserRole)
  | removeAllOrganizationRoles (organizationID : ℤ) (failing : Option ℕ)

/-- The store behind an operation, unchanged where the operation is refused. -/
def Store.applyMembership (store : Store) : MembershipOperation → Store
  | .assignUserRole request => store.completed (assignUserRole organizationOf store request)
  | .removeUserRole request => store.completed (removeUserRole store request)
  | .removeAllOrganizationRoles organizationID failing => removeAllOrganizationRoles store organizationID failing

/-- The store of some users behind operations, without roles at first. -/
def membershipAfter (users : Dict ℤ String) (operations : List MembershipOperation) : Store :=
  operations.foldl (Store.applyMembership organizationOf) { users }

end Operations

def UserRole.InProject (row : UserRole) (projectID : ℤ) : Prop :=
  row.roleCode = "project_member" ∧ row.scopeType = "project" ∧ parseInt row.scopeId = some projectID

def organizationRow (userId organizationID : ℤ) : UserRole :=
  { userId, roleCode := "org_member", scopeType := "org", scopeId := toString organizationID }

section Membership

variable (organizationOf : ℤ → Option ℤ)

def Store.Members (store : Store) : Prop :=
  ∀ row ∈ store.userRoles, ∀ projectID organizationID, row.InProject projectID →
    organizationOf projectID = some organizationID →
      organizationRow row.userId organizationID ∈ store.userRoles

/-- The row of a member of an organization who is a member of one of its projects. -/
def Store.Needs (store : Store) (request : UserRole) : Prop :=
  ∃ row ∈ store.userRoles, ∃ projectID organizationID, row.InProject projectID ∧
    organizationOf projectID = some organizationID ∧ request = organizationRow row.userId organizationID

/-- A user that can be given a role in a project of the organization zero: one that is a member
of some organization. -/
def Store.Admits (store : Store) (request : UserRole) : Prop :=
  0 < request.userId ∧ (∃ username, store.Accepts request username) ∧
    store.list { userID := request.userId, roleCode := "org_member", scopeType := "org" } ≠ []

/-- What an operation needs to keep the members of projects members of their organizations: no
removed row is that of a member of a project of the organization, and a new member of a project
of the organization zero has the row of this organization. -/
def Store.CarefulMembership (store : Store) : MembershipOperation → Prop
  | .assignUserRole request => store.Admits request →
      ∀ projectID > 0, request.InProject projectID → organizationOf projectID = some 0 →
        organizationRow request.userId 0 ∈ store.userRoles
  | .removeUserRole request => 0 < request.userId → ¬ store.Needs organizationOf request
  | .removeAllOrganizationRoles organizationID failing =>
      ∀ request ∈ organizationRemovals store organizationID failing, ¬ store.Needs organizationOf request

variable {organizationOf} {store : Store} {request : UserRole}

section Assigning

/-- The check of `validateProjectOrganizationMembership` passes. -/
def Store.Validates (organizationOf : ℤ → Option ℤ) (store : Store) (request : UserRole) : Prop :=
  request.scopeType = "project" ∧ request.scopeId ≠ "" ∧
    ∃ projectID, parseInt request.scopeId = some projectID ∧ 0 < projectID ∧
      ∃ organizationID, organizationOf projectID = some organizationID ∧
        store.list
          { userID := request.userId
            roleCode := "org_member"
            scopeType := "org"
            scopeID := toString organizationID } ≠ []

theorem validate_eq_ok :
    validateProjectOrganizationMembership organizationOf store request = .ok () ↔
      store.Validates organizationOf request := by
  unfold validateProjectOrganizationMembership Store.Validates
  by_cases scope : request.scopeType ≠ "project" ∨ request.scopeId = ""
  · rw [if_pos scope]
    refine iff_of_false (by simp) fun valid => ?_
    rcases scope with other | empty
    · exact other valid.1
    · exact valid.2.1 empty
  · rw [if_neg scope]
    rw [not_or, not_not] at scope
    cases parsed : parseInt request.scopeId with
    | none => simp
    | some projectID =>
        dsimp only
        by_cases low : projectID ≤ 0
        · rw [if_pos low]
          refine iff_of_false (by simp) fun valid => ?_
          obtain ⟨-, -, other, same, positive, -⟩ := valid
          obtain rfl := Option.some.inj same
          omega
        · rw [if_neg low]
          cases found : organizationOf projectID with
          | none => simp [found]
          | some organizationID =>
              have positive : 0 < projectID := by omega
              simp [found, scope, positive]

theorem assignUserRole_cases (organizationOf : ℤ → Option ℤ) (store : Store) (request : UserRole) :
    ((0 < request.userId ∧ request.roleCode ≠ "" ∧
        (request.roleCode = "project_member" → store.Validates organizationOf request)) ∧
      store.completed (assignUserRole organizationOf store request) =
        store.completed (store.assignUserRoleInternal request)) ∨
      (¬ (0 < request.userId ∧ request.roleCode ≠ "" ∧
          (request.roleCode = "project_member" → store.Validates organizationOf request)) ∧
        store.completed (assignUserRole organizationOf store request) = store) := by
  unfold assignUserRole refuseIf
  by_cases missing : request.userId ≤ 0 ∨ request.roleCode = ""
  · rw [if_pos missing]
    refine .inr ⟨fun passes => ?_, rfl⟩
    rcases missing with low | empty
    · omega
    · exact passes.2.1 empty
  · rw [if_neg missing]
    rw [not_or, not_le] at missing
    by_cases member : request.roleCode = "project_member"
    · simp only [member, if_true]
      cases valid : validateProjectOrganizationMembership organizationOf store request with
      | error message =>
          refine .inr ⟨fun passes => ?_, rfl⟩
          rw [validate_eq_ok.mpr (passes.2.2 trivial)] at valid
          cases valid
      | ok _ => exact .inl ⟨⟨missing.1, by decide, fun _ => validate_eq_ok.mp valid⟩, rfl⟩
    · simp only [member, if_false]
      exact .inl ⟨⟨missing.1, missing.2, fun same => absurd same (by simp)⟩, rfl⟩

end Assigning

section Steps

theorem UserRole.InProject.scopeId_ne_empty {row : UserRole} {projectID : ℤ} (inProject : row.InProject projectID) :
    row.scopeId ≠ "" := by
  intro empty
  have parsed := inProject.2.2
  rw [empty] at parsed
  cases parsed

theorem UserRole.InProject.ne_organizationRow {row : UserRole} {projectID : ℤ} (inProject : row.InProject projectID)
    (userId organizationID : ℤ) : row ≠ organizationRow userId organizationID := by
  intro same
  have role := inProject.1
  rw [same] at role
  simp [organizationRow] at role

theorem members_append (members : store.Members organizationOf) {after : Store} {row : UserRole}
    (rows : after.userRoles = store.userRoles ++ [row]) :
    after.Members organizationOf ↔
      ∀ projectID organizationID, row.InProject projectID → organizationOf projectID = some organizationID →
        organizationRow row.userId organizationID ∈ store.userRoles := by
  unfold Store.Members
  rw [rows]
  constructor
  · intro after projectID organizationID inProject found
    rcases List.mem_append.mp (after row (by simp) projectID organizationID inProject found) with there | own
    · exact there
    · exact absurd (List.mem_singleton.mp own).symm (inProject.ne_organizationRow _ _)
  · intro new other listed projectID organizationID inProject found
    apply List.mem_append_left
    rcases List.mem_append.mp listed with earlier | own
    · exact members other earlier projectID organizationID inProject found
    · rw [List.mem_singleton.mp own] at inProject ⊢
      exact new projectID organizationID inProject found

theorem list_organization (userId organizationID : ℤ) (positive : 0 < userId)
    (listed : store.list
      { userID := userId, roleCode := "org_member", scopeType := "org", scopeID := toString organizationID } ≠ []) :
    organizationID = 0 ∨ organizationRow userId organizationID ∈ store.userRoles := by
  by_cases zero : organizationID = 0
  · exact .inl zero
  · right
    obtain ⟨row, member⟩ := List.exists_mem_of_ne_nil _ listed
    obtain ⟨there, found⟩ := List.mem_filter.mp member
    obtain ⟨user, role, scopeType, scopeId⟩ := of_decide_eq_true found
    have notZero : toString organizationID ≠ "0" := fun same => zero (toString_int_injective same)
    have notEmpty : toString organizationID ≠ "" := by
      intro same
      obtain ⟨digit, last, -⟩ := getLast?_toString_int organizationID
      rw [same] at last
      cases last
    have same : row = organizationRow userId organizationID := by
      obtain ⟨rowUser, rowRole, rowType, rowId⟩ := row
      unfold organizationRow
      congr
      · exact user positive
      · exact role (by simp)
      · exact scopeType (by simp)
      · exact scopeId ⟨notEmpty, notZero⟩
    rwa [same] at there

theorem list_organization_zero (userId : ℤ) :
    store.list { userID := userId, roleCode := "org_member", scopeType := "org", scopeID := toString (0 : ℤ) } =
      store.list { userID := userId, roleCode := "org_member", scopeType := "org" } := by
  have zero : toString (0 : ℤ) = "0" := rfl
  unfold Store.list UserRoleFilter.Matches
  simp [zero]

theorem members_assign (members : store.Members organizationOf) (request : UserRole) :
    (store.completed (assignUserRole organizationOf store request)).Members organizationOf ↔
      store.CarefulMembership organizationOf (.assignUserRole request) := by
  rcases assignUserRole_cases organizationOf store request with ⟨⟨positive, role, valid⟩, same⟩ | ⟨refused, same⟩
  · rw [same]
    rcases store.assign_cases request with ⟨username, accepted, assigned⟩ | ⟨refused, assigned⟩
    · rw [assigned, members_append members rfl]
      constructor
      · intro after _ projectID _ inProject found
        have stored : request.stored = request := by
          unfold UserRole.stored
          rw [if_neg inProject.scopeId_ne_empty]
        rw [stored] at after
        exact after projectID 0 inProject found
      · intro careful projectID organizationID inProject found
        obtain ⟨scopeType, notEmpty, number, parsed, above, organization, owned, listed⟩ := valid inProject.1
        have stored : request.stored = request := by
          unfold UserRole.stored
          rw [if_neg notEmpty]
        rw [stored] at inProject ⊢
        obtain rfl := Option.some.inj (parsed.symm.trans inProject.2.2)
        obtain rfl := Option.some.inj (owned.symm.trans found)
        rcases list_organization _ _ positive listed with rfl | there
        · rw [list_organization_zero] at listed
          exact careful ⟨positive, ⟨username, accepted⟩, listed⟩ number above inProject found
        · exact there
    · rw [assigned]
      refine iff_of_true members fun admits => ?_
      obtain ⟨-, ⟨username, accepted⟩, -⟩ := admits
      exact absurd accepted (refused username)
  · rw [same]
    refine iff_of_true members fun admits projectID positive inProject found => ?_
    refine absurd ⟨admits.1, by rw [inProject.1]; decide, fun _ => ?_⟩ refused
    refine ⟨inProject.2.1, inProject.scopeId_ne_empty, projectID, inProject.2.2, positive, 0, found, ?_⟩
    rw [list_organization_zero]
    exact admits.2.2

theorem members_remove (members : store.Members organizationOf) {after : Store} {requests : List UserRole}
    (rows : after.userRoles = store.userRoles.filter fun row => row ∉ requests)
    (apart : (∃ request ∈ requests, store.Needs organizationOf request) →
      ∀ row projectID, row.InProject projectID → row ∉ requests) :
    after.Members organizationOf ↔ ∀ request ∈ requests, ¬ store.Needs organizationOf request := by
  have kept (row : UserRole) : row ∈ after.userRoles ↔ row ∈ store.userRoles ∧ row ∉ requests := by
    rw [rows, List.mem_filter, decide_eq_true_eq]
  constructor
  · intro after request removed needed
    obtain ⟨row, listed, projectID, organizationID, inProject, found, rfl⟩ := id needed
    have stays := (kept row).mpr ⟨listed, apart ⟨_, removed, needed⟩ row projectID inProject⟩
    exact ((kept _).mp (after row stays projectID organizationID inProject found)).2 removed
  · intro spared row listed projectID organizationID inProject found
    have there := ((kept row).mp listed).1
    refine (kept _).mpr ⟨members row there projectID organizationID inProject found, fun removed => ?_⟩
    exact spared _ removed ⟨row, there, projectID, organizationID, inProject, found, rfl⟩

theorem members_removeUserRole (members : store.Members organizationOf) (request : UserRole) :
    (store.completed (removeUserRole store request)).Members organizationOf ↔
      store.CarefulMembership organizationOf (.removeUserRole request) := by
  unfold removeUserRole refuseIf
  by_cases missing : request.userId ≤ 0 ∨ request.roleCode = ""
  · rw [if_pos missing]
    refine iff_of_true members fun positive needed => ?_
    obtain ⟨row, -, projectID, organizationID, -, -, rfl⟩ := needed
    rcases missing with low | empty
    · omega
    · simp [organizationRow] at empty
  · rw [if_neg missing]
    rw [not_or, not_le] at missing
    change (store.removeUserRoleInternal request).Members organizationOf ↔ _
    have rows : (store.removeUserRoleInternal request).userRoles =
        store.userRoles.filter fun row => row ∉ [request] := by
      simp only [(store.removeUserRoleInternal_users request).2.2, List.mem_singleton]
    rw [members_remove members rows]
    · unfold Store.CarefulMembership
      simp [missing.1]
    · intro needed row projectID inProject same
      obtain ⟨other, listed, row', -, projectID', organizationID, -, -, rfl⟩ := needed
      apply inProject.ne_organizationRow
      exact (List.mem_singleton.mp same).trans (List.mem_singleton.mp listed).symm

theorem userRoles_foldl_remove (requests : List UserRole) (store : Store) :
    (requests.foldl Store.removeUserRoleInternal store).userRoles =
      store.userRoles.filter fun row => row ∉ requests := by
  induction requests generalizing store with
  | nil => simp
  | cons request rest ih =>
      rw [List.foldl_cons, ih, (store.removeUserRoleInternal_users request).2.2, List.filter_filter]
      congr
      funext row
      simp [Bool.and_comm]

theorem scopeType_distinctRemovals {scopeID : String} {seen : List String} {rows : List UserRole}
    (listed : request ∈ distinctRemovals scopeID seen rows) : request.scopeType = "org" := by
  induction rows generalizing seen with
  | nil => cases listed
  | cons row rest ih =>
      unfold distinctRemovals at listed
      dsimp only at listed
      split at listed
      · exact ih listed
      · rcases List.mem_cons.mp listed with rfl | later
        · rfl
        · exact ih later

theorem members_removeAll (members : store.Members organizationOf) (organizationID : ℤ) (failing : Option ℕ) :
    (removeAllOrganizationRoles store organizationID failing).Members organizationOf ↔
      store.CarefulMembership organizationOf (.removeAllOrganizationRoles organizationID failing) := by
  apply members_remove members (userRoles_foldl_remove _ store)
  intro _ row projectID inProject listed
  have scope := scopeType_distinctRemovals (List.mem_of_mem_take listed)
  rw [inProject.2.1] at scope
  revert scope
  decide

end Steps

/-- **Members of projects.** They are members of the organizations after each of the operations
if and only if every operation is careful in the store that it meets. -/
theorem members_iff_careful (organizationOf : ℤ → Option ℤ) (users : Dict ℤ String)
    (operations : List MembershipOperation) :
    (∀ before, before <+: operations → (membershipAfter organizationOf users before).Members organizationOf) ↔
      ∀ before operation, before ++ [operation] <+: operations →
        (membershipAfter organizationOf users before).CarefulMembership organizationOf operation := by
  apply System.always_iff_careful (fun (_ : Store) _ (_ : True) => trivial)
  · intro store operation _ members
    cases operation with
    | assignUserRole request => exact members_assign members request
    | removeUserRole request => exact members_removeUserRole members request
    | removeAllOrganizationRoles organizationID failing => exact members_removeAll members organizationID failing
  · trivial
  · intro row listed
    cases listed

/-- A member of a project leaves its organization, and stays a member of the project. -/
theorem not_members_left :
    ¬ (membershipAfter (fun projectID => if projectID = 5 then some 3 else none) (Dict.empty.set 1 "ada")
        [.assignUserRole (organizationRow 1 3),
          .assignUserRole { userId := 1, roleCode := "project_member", scopeType := "project", scopeId := "5" },
          .removeUserRole (organizationRow 1 3)]).Members
      fun projectID => if projectID = 5 then some 3 else none := by
  intro members
  have listed := members { userId := 1, roleCode := "project_member", scopeType := "project", scopeId := "5" }
    (by decide) 5 3 ⟨rfl, rfl, by decide⟩ rfl
  revert listed
  decide

end Membership

end Sico.Rbac

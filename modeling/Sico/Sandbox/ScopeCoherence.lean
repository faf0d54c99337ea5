import Sico.Sandbox.Bindings

/-! # Coherence of the scope bindings

Any number of clients issue scope calls and their commands interleave. In every state
they reach, bindings and reverse sets mirror each other at both levels and a sandbox
bound to a project is bound to the project's organization. Each call takes effect at
one command, on all its sandboxes, or not at all (`scope_bindings_coherent`).
-/

namespace Sico.Sandbox

open Foundation Foundation.Keyspace

def Succeeded (program : Call) : Prop := ∃ count, program = .done (.ok count)

/-- Every step leaves the store and does not succeed, or has the whole effect and does. -/
def AllOrNothing (effect : Redis → Call → Redis → Prop) : Transition Value Outcome :=
  fun before program after rest =>
    (after = before ∧ ¬ Succeeded rest) ∨ (effect before program after ∧ Succeeded rest)

/-- A program that has not succeeded and whose steps are all or nothing. -/
def Attempts (inv : Redis → Prop) (effect : Redis → Call → Redis → Prop) (watched : List Key)
    (seen : List ((key : Key) × Option (Value key))) (program : Call) : Prop :=
  ¬ Succeeded program ∧ program.Guarantees inv (AllOrNothing effect) watched seen

section Attempts

variable {inv : Redis → Prop} {effect : Redis → Call → Redis → Prop} {watched : List Key}
variable {seen : List ((key : Key) × Option (Value key))}

theorem attempts_fail (error : ServiceError) : Attempts inv effect watched seen (fail error) :=
  ⟨by simp [Succeeded, fail], trivial⟩

theorem attempts_get {key : Key} {next : Option (Value key) → Call}
    (rest : ∀ value, Attempts inv effect watched (⟨key, value⟩ :: seen) (next value)) :
    Attempts inv effect watched seen (.get key next) :=
  ⟨by simp [Succeeded], fun value =>
    ⟨fun _ _ => .inl ⟨rfl, (rest value).1⟩, (rest value).2⟩⟩

theorem attempts_watch {keys : List Key} {next : Call} (rest : Attempts inv effect keys [] next) :
    Attempts inv effect watched seen (.watch keys next) :=
  ⟨by simp [Succeeded], fun _ _ => .inl ⟨rfl, rest.1⟩, rest.2⟩

theorem attempts_exec {commands : List RedisCommand} {commit : Bool → Call}
    (whole : ∀ store, inv store → Agrees watched seen store →
      effect store (.exec commands commit) (applyAll commands store))
    (committed : commit true = .done (.ok none))
    (aborted : Attempts inv effect [] [] (commit false)) :
    Attempts inv effect watched seen (.exec commands commit) := by
  refine ⟨by simp [Succeeded], ?_, fun _ _ => .inl ⟨rfl, aborted.1⟩, ?_⟩
  · intro store holds agrees
    exact .inr ⟨whole store holds agrees, none, committed⟩
  · intro outcome
    cases outcome with
    | true => rw [committed]; trivial
    | false => exact aborted.2

theorem attempts_runScopeMutation {watchKeys : List Key} {mutation : (Bool → Call) → Call}
    (body : ∀ commit, commit true = .done (.ok none) → Attempts inv effect [] [] (commit false) →
      Attempts inv effect watchKeys [] (mutation commit)) (attempts : ℕ) :
    Attempts inv effect watched seen (runScopeMutation watchKeys mutation attempts) := by
  induction attempts generalizing watched seen with
  | zero => exact attempts_fail _
  | succ attempts ih => exact attempts_watch (body _ rfl ih)

/-- A loop of checks: when each leaves its findings among what was read, the body after
the loop may rely on all of them. -/
theorem attempts_foldr {check : String → Call → Call}
    (findings : String → List ((key : Key) × Option (Value key)))
    (each : ∀ sandboxID next earlier,
      Attempts inv effect watched (findings sandboxID ++ earlier) next →
        Attempts inv effect watched earlier (check sandboxID next))
    {last : Call} (sandboxIDs : List String)
    (body : ∀ later, seen ⊆ later → (∀ sandboxID ∈ sandboxIDs, findings sandboxID ⊆ later) →
      Attempts inv effect watched later last) :
    Attempts inv effect watched seen (sandboxIDs.foldr check last) := by
  induction sandboxIDs generalizing seen with
  | nil => exact body seen (List.Subset.refl seen) (by simp)
  | cons first rest ih =>
      refine each first _ seen (ih fun later kept found => ?_)
      have split := List.append_subset.mp kept
      refine body later split.2 fun sandboxID member => ?_
      rcases List.mem_cons.mp member with rfl | later
      · exact split.1
      · exact found sandboxID later

end Attempts

variable (organizationOf : ℤ → Option ℤ)

structure Coherent (store : Redis) : Prop where
  organization : Mirrored store .organization
  project : Mirrored store .project
  nested : ∀ sandboxID projectID, store (projectAssignKey sandboxID) = some projectID →
    ∃ orgID, organizationOf projectID = some orgID ∧ store (orgAssignKey sandboxID) = some orgID

/-- The whole effect of a call on the store, with what it found there. -/
def ScopeCall.Writes (call : ScopeCall) (before : Redis) (program : Call) (after : Redis) : Prop :=
  match call with
  | .assignSandboxToOrg orgID available requested =>
      ∃ sandboxIDs, validateSandboxIDsExist available requested = .ok sandboxIDs ∧
        (∀ sandboxID ∈ sandboxIDs, before (orgAssignKey sandboxID) = none) ∧
        after = applyAll (bindCommands .organization orgID sandboxIDs) before
  | .claimUnassignedSandboxesForOrg orgID _ _ =>
      ∃ sandboxIDs, program = claimScript orgID sandboxIDs ∧
        ((before .initialOrgClaim).isSome ∧ after = before ∨
          (before .initialOrgClaim).isNone ∧
            after = applyAll (bindCommands .organization orgID (claimTargets before sandboxIDs) ++
              [set .initialOrgClaim orgID]) before)
  | .unassignSandboxFromOrg orgID requested =>
      ∃ sandboxIDs, validateSandboxOperationBatch requested = .ok sandboxIDs ∧
        (∀ sandboxID ∈ sandboxIDs, before (orgAssignKey sandboxID) = some orgID ∧
          before (projectAssignKey sandboxID) = none) ∧
        after = applyAll (unbindCommands .organization orgID sandboxIDs) before
  | .assignSandboxToProject projectID orgID available requested =>
      ∃ sandboxIDs, validateProjectRequest organizationOf projectID orgID available requested =
          .ok sandboxIDs ∧
        (∀ sandboxID ∈ sandboxIDs, before (orgAssignKey sandboxID) = some orgID ∧
          before (projectAssignKey sandboxID) = none) ∧
        after = applyAll (bindCommands .project projectID sandboxIDs) before
  | .unassignSandboxFromProject projectID requested =>
      ∃ sandboxIDs leases, validateSandboxOperationBatch requested = .ok sandboxIDs ∧
        (∀ sandboxID ∈ sandboxIDs, before (projectAssignKey sandboxID) = some projectID) ∧
        after = applyAll (writeProjectUnassignment projectID sandboxIDs leases) before

section Programs

variable {organizationOf} {inv : Redis → Prop} {effect : Redis → Call → Redis → Prop}

theorem attempts_listLeases {next : List (String × Bool) → Call}
    (rest : ∀ items later, Attempts inv effect [] later (next items)) (resources : List String)
    (seen : List ((key : Key) × Option (Value key))) :
    Attempts inv effect [] seen (listLeases resources next) := by
  induction resources generalizing next seen with
  | nil => exact rest [] seen
  | cons resource resources ih =>
      exact attempts_get fun _ => ih (fun items later => rest (_ :: items) later) _

theorem attempts_readBindings {next : List (String × Option ℤ × Option ℤ) → Call}
    (rest : ∀ bindings later, Attempts inv effect [] later (next bindings))
    (sandboxIDs : List String) (seen : List ((key : Key) × Option (Value key))) :
    Attempts inv effect [] seen (readBindings sandboxIDs next) := by
  induction sandboxIDs generalizing next seen with
  | nil => exact rest [] seen
  | cons sandboxID sandboxIDs ih =>
      exact attempts_get fun _ => attempts_get fun _ =>
        ih (fun bindings later => rest (_ :: bindings) later) _

theorem attempts_loadProjectUnassignmentLeases {watched : List Key} {projectID : ℤ}
    {next : List (String × Lease) → Call} (sandboxIDs : List String)
    {seen : List ((key : Key) × Option (Value key))}
    (rest : ∀ leases later, seen ⊆ later →
      (∀ sandboxID ∈ sandboxIDs, ⟨projectAssignKey sandboxID, some projectID⟩ ∈ later) →
        Attempts inv effect watched later (next leases)) :
    Attempts inv effect watched seen
      (loadProjectUnassignmentLeases projectID sandboxIDs next) := by
  induction sandboxIDs generalizing next seen with
  | nil => exact rest [] seen (List.Subset.refl seen) (by simp)
  | cons sandboxID sandboxIDs ih =>
      refine attempts_get fun projectValue => ?_
      by_cases bound : projectValue = some projectID
      · subst bound
        rw [if_neg (not_not_intro rfl)]
        refine attempts_get fun lease => ih fun leases later kept found => ?_
        have earlier := List.cons_subset.mp kept
        have first := List.cons_subset.mp earlier.2
        refine rest _ later first.2 fun other member => ?_
        rcases List.mem_cons.mp member with rfl | later
        · exact first.1
        · exact found other later
      · rw [if_pos bound]
        exact attempts_fail _

theorem attempts_requireOrgWithoutProject {watched : List Key} {orgID : ℤ}
    {hasProject : String → ServiceError} (sandboxID : String) (next : Call)
    (earlier : List ((key : Key) × Option (Value key)))
    (rest : Attempts inv effect watched
      ([⟨projectAssignKey sandboxID, none⟩, ⟨orgAssignKey sandboxID, some orgID⟩] ++ earlier) next) :
    Attempts inv effect watched earlier
      (requireOrgWithoutProject orgID hasProject sandboxID next) := by
  refine attempts_get fun orgValue => ?_
  by_cases bound : orgValue = some orgID
  · subst bound
    rw [if_neg (not_not_intro rfl)]
    refine attempts_get fun projectValue => ?_
    cases projectValue with
    | some _ => exact attempts_fail _
    | none => exact rest
  · rw [if_pos bound]
    exact attempts_fail _

/-- **A call is all or nothing.** Each command of a call leaves the store, or has the
whole effect of the call and ends it with success. -/
theorem ScopeCall.attempts (call : ScopeCall) :
    Attempts inv (call.Writes organizationOf) [] [] (call.program organizationOf) := by
  cases call with
  | assignSandboxToOrg orgID available requested =>
      simp only [ScopeCall.program, Sandbox.assignSandboxToOrg]
      cases valid : validateSandboxIDsExist available requested with
      | error error => exact attempts_fail error
      | ok sandboxIDs =>
          refine attempts_runScopeMutation (fun commit committed aborted => ?_) 3
          refine attempts_foldr (fun sandboxID => [⟨orgAssignKey sandboxID, none⟩]) ?_ sandboxIDs ?_
          · intro sandboxID next earlier rest
            refine attempts_get fun existing => ?_
            cases existing with
            | some _ => exact attempts_fail _
            | none => exact rest
          · intro later _ found
            refine attempts_exec (fun store _ agrees => ?_) committed aborted
            refine ⟨sandboxIDs, valid, fun sandboxID member => ?_, rfl⟩
            exact agrees.found (found sandboxID member) List.mem_cons_self (by simp [member])
  | claimUnassignedSandboxesForOrg orgID listed missing =>
      simp only [ScopeCall.program, Sandbox.claimUnassignedSandboxesForOrg]
      by_cases positive : orgID ≤ 0
      · rw [if_pos positive]
        exact attempts_fail _
      · rw [if_neg positive]
        refine attempts_listLeases (fun items later => ?_) listed []
        refine attempts_readBindings (fun bindings later => ?_) _ _
        cases strictBindings bindings with
        | error error => exact attempts_fail error
        | ok bindings =>
            refine ⟨by simp [Succeeded, claimScript], rfl, fun store _ => ⟨.inr ⟨?_, _, rfl⟩, trivial⟩⟩
            refine ⟨_, rfl, ?_⟩
            by_cases claimed : (store .initialOrgClaim).isSome
            · exact .inl ⟨claimed, by simp [claimed]⟩
            · exact .inr ⟨by simpa using claimed, by simp [claimed]⟩
  | unassignSandboxFromOrg orgID requested =>
      simp only [ScopeCall.program, Sandbox.unassignSandboxFromOrg]
      cases valid : validateSandboxOperationBatch requested with
      | error error => exact attempts_fail error
      | ok sandboxIDs =>
          refine attempts_runScopeMutation (fun commit committed aborted => ?_) 3
          refine attempts_foldr _ attempts_requireOrgWithoutProject sandboxIDs ?_
          intro later _ found
          refine attempts_exec (fun store _ agrees => ?_) committed aborted
          refine ⟨sandboxIDs, valid, fun sandboxID member => ?_, rfl⟩
          have here := found sandboxID member
          exact ⟨agrees.found here (by simp) (by simp [member]),
            agrees.found here (by simp) (by simp [member])⟩
  | assignSandboxToProject projectID orgID available requested =>
      simp only [ScopeCall.program, Sandbox.assignSandboxToProject]
      cases valid : validateProjectRequest organizationOf projectID orgID available requested with
      | error error => exact attempts_fail error
      | ok sandboxIDs =>
          refine attempts_runScopeMutation (fun commit committed aborted => ?_) 3
          refine attempts_foldr _ attempts_requireOrgWithoutProject sandboxIDs ?_
          intro later _ found
          refine attempts_exec (fun store _ agrees => ?_) committed aborted
          refine ⟨sandboxIDs, valid, fun sandboxID member => ?_, rfl⟩
          have here := found sandboxID member
          exact ⟨agrees.found here (by simp) (by simp [member]),
            agrees.found here (by simp) (by simp [member])⟩
  | unassignSandboxFromProject projectID requested =>
      simp only [ScopeCall.program, Sandbox.unassignSandboxFromProject]
      cases valid : validateSandboxOperationBatch requested with
      | error error => exact attempts_fail error
      | ok sandboxIDs =>
          refine attempts_runScopeMutation (fun commit committed aborted => ?_) 3
          refine attempts_loadProjectUnassignmentLeases sandboxIDs fun leases later _ found => ?_
          refine attempts_exec (fun store _ agrees => ?_) committed aborted
          refine ⟨sandboxIDs, leases, valid, fun sandboxID member => ?_, rfl⟩
          exact agrees.found (List.Subset.refl _) (found sandboxID member) (by simp [member])

end Programs

theorem mem_claimTargets {store : Redis} {sandboxIDs : List String} {sandboxID : String} :
    sandboxID ∈ claimTargets store sandboxIDs ↔
      sandboxID ∈ sandboxIDs ∧ store (orgAssignKey sandboxID) = none := by
  have collects : ∀ taken : List String, sandboxID ∈ sandboxIDs.foldl
      (fun taken sandboxID =>
        if (store (orgAssignKey sandboxID)).isSome ∨ sandboxID ∈ taken then taken
        else taken ++ [sandboxID]) taken ↔
      sandboxID ∈ taken ∨ sandboxID ∈ sandboxIDs ∧ store (orgAssignKey sandboxID) = none := by
    induction sandboxIDs with
    | nil => simp
    | cons first rest ih =>
        intro taken
        rw [List.foldl_cons, ih]
        by_cases skip : (store (orgAssignKey first)).isSome ∨ first ∈ taken
        · rw [if_pos skip]
          have passed : sandboxID = first → store (orgAssignKey sandboxID) = none →
              sandboxID ∈ taken := by
            rintro rfl free
            simpa [free] using skip
          simp only [List.mem_cons]
          tauto
        · rw [if_neg skip]
          have free : sandboxID = first → store (orgAssignKey sandboxID) = none := by
            rintro rfl
            simpa using fun bound => skip (.inl bound)
          simp only [List.mem_append, List.mem_cons, List.not_mem_nil, or_false]
          tauto
  simpa [claimTargets] using collects []

theorem validateProjectRequest_ok {projectID orgID : ℤ} {available requested sandboxIDs : List String}
    (valid : validateProjectRequest organizationOf projectID orgID available requested =
      .ok sandboxIDs) : organizationOf projectID = some orgID := by
  unfold validateProjectRequest at valid
  obtain ⟨_, _, valid⟩ := bind_eq_ok.mp valid
  obtain ⟨organizationID, project, valid⟩ := bind_eq_ok.mp valid
  obtain ⟨_, matching, _⟩ := bind_eq_ok.mp valid
  rw [refuseIf_eq_ok, not_or, not_not] at matching
  rw [← matching.2]
  exact getProject_ok project

theorem Coherent.of_scope {organizationOf : ℤ → Option ℤ} {before after : Redis}
    (coherent : Coherent organizationOf before)
    (same : ∀ key : Key, key.IsScope → after key = before key) : Coherent organizationOf after where
  organization sandboxID id := by
    rw [same (orgAssignKey sandboxID) trivial, members_eq_of (same (orgSandboxesKey id) trivial)]
    exact coherent.organization sandboxID id
  project sandboxID id := by
    rw [same (projectAssignKey sandboxID) trivial,
      members_eq_of (same (projectSandboxesKey id) trivial)]
    exact coherent.project sandboxID id
  nested sandboxID projectID := by
    rw [same (projectAssignKey sandboxID) trivial, same (orgAssignKey sandboxID) trivial]
    exact coherent.nested sandboxID projectID

theorem Coherent.bind_organization {organizationOf : ℤ → Option ℤ} {store : Redis}
    {sandboxIDs : List String} (coherent : Coherent organizationOf store) (orgID : ℤ)
    (free : ∀ sandboxID ∈ sandboxIDs, store (orgAssignKey sandboxID) = none) :
    Coherent organizationOf (applyAll (bindCommands .organization orgID sandboxIDs) store) where
  organization := bind_mirrored coherent.organization free
  project := bind_mirrored coherent.project free
  nested sandboxID projectID bound := by
    have rebinds := bind_rebinds orgID free
    rw [rebinds.frame .project sandboxID (by simp)] at bound
    obtain ⟨owner, belongs, organization⟩ := coherent.nested sandboxID projectID bound
    refine ⟨owner, belongs, ?_⟩
    have apart : sandboxID ∉ sandboxIDs := by
      intro member
      rw [free sandboxID member] at organization
      cases organization
    rw [rebinds.frame .organization sandboxID (by simp [apart])]
    exact organization

theorem ScopeCall.Writes.coherent {organizationOf : ℤ → Option ℤ} {call : ScopeCall}
    {before after : Redis} {program : Call}
    (writes : call.Writes organizationOf before program after)
    (coherent : Coherent organizationOf before) : Coherent organizationOf after := by
  cases call with
  | assignSandboxToOrg orgID available requested =>
      obtain ⟨sandboxIDs, _, free, rfl⟩ := writes
      exact coherent.bind_organization orgID free
  | claimUnassignedSandboxesForOrg orgID listed missing =>
      obtain ⟨sandboxIDs, _, ⟨_, rfl⟩ | ⟨_, rfl⟩⟩ := writes
      · exact coherent
      · have free : ∀ sandboxID ∈ claimTargets before sandboxIDs,
            before (orgAssignKey sandboxID) = none :=
          fun sandboxID member => (mem_claimTargets.mp member).2
        refine (coherent.bind_organization orgID free).of_scope fun key scope => ?_
        rw [applyAll_append]
        refine applyAll_untouched ?_ _
        rintro command member rfl
        obtain rfl := List.mem_singleton.mp member
        exact scope
  | unassignSandboxFromOrg orgID requested =>
      obtain ⟨sandboxIDs, _, found, rfl⟩ := writes
      have bound : ∀ sandboxID ∈ sandboxIDs, before (orgAssignKey sandboxID) = some orgID :=
        fun sandboxID member => (found sandboxID member).1
      have outside : ∀ sandboxID : String, ∀ command ∈ ([] : List RedisCommand),
          ¬ command.key.IsScope := by simp
      rw [unbindCommands_eq]
      refine ⟨release_mirrored outside coherent.organization bound,
        release_mirrored outside coherent.project bound, fun sandboxID projectID assigned => ?_⟩
      have rebinds := release_rebinds outside bound
      rw [rebinds.frame .project sandboxID (by simp)] at assigned
      obtain ⟨owner, belongs, organization⟩ := coherent.nested sandboxID projectID assigned
      refine ⟨owner, belongs, ?_⟩
      have apart : sandboxID ∉ sandboxIDs := by
        intro member
        rw [(found sandboxID member).2] at assigned
        cases assigned
      rw [rebinds.frame .organization sandboxID (by simp [apart])]
      exact organization
  | assignSandboxToProject projectID orgID available requested =>
      obtain ⟨sandboxIDs, valid, found, rfl⟩ := writes
      have free : ∀ sandboxID ∈ sandboxIDs, before (projectAssignKey sandboxID) = none :=
        fun sandboxID member => (found sandboxID member).2
      refine ⟨bind_mirrored coherent.organization free, bind_mirrored coherent.project free,
        fun sandboxID assigned bound => ?_⟩
      have rebinds := bind_rebinds projectID free
      rw [rebinds.frame .organization sandboxID (by simp)]
      by_cases member : sandboxID ∈ sandboxIDs
      · rw [rebinds.target sandboxID member] at bound
        obtain rfl := Option.some.inj bound
        exact ⟨orgID, validateProjectRequest_ok organizationOf valid, (found sandboxID member).1⟩
      · rw [rebinds.frame .project sandboxID (by simp [member])] at bound
        exact coherent.nested sandboxID assigned bound
  | unassignSandboxFromProject projectID requested =>
      obtain ⟨sandboxIDs, leases, _, bound, rfl⟩ := writes
      have outside : ∀ sandboxID : String, ∀ command ∈ removeLease sandboxID
          (leases.lookup sandboxID), ¬ command.key.IsScope :=
        fun sandboxID => removeLease_outside sandboxID _
      rw [writeProjectUnassignment_eq]
      refine ⟨release_mirrored outside coherent.organization bound,
        release_mirrored outside coherent.project bound, fun sandboxID assigned here => ?_⟩
      have rebinds := release_rebinds outside bound
      rw [rebinds.frame .organization sandboxID (by simp)]
      by_cases member : sandboxID ∈ sandboxIDs
      · rw [rebinds.target sandboxID member] at here
        cases here
      · rw [rebinds.frame .project sandboxID (by simp [member])] at here
        exact coherent.nested sandboxID assigned here

/-- What a call that takes effect does to the bindings: all its sandboxes change theirs
and no other binding changes. A claim that comes second does nothing; the first binds
every sandbox it had found unassigned and that is still without organization. -/
def ScopeCall.Completes (call : ScopeCall) (before : Redis) (program : Call)
    (after : Redis) : Prop :=
  match call with
  | .assignSandboxToOrg orgID available requested =>
      ∃ sandboxIDs, validateSandboxIDsExist available requested = .ok sandboxIDs ∧
        Rebinds .organization sandboxIDs none (some orgID) before after
  | .claimUnassignedSandboxesForOrg orgID _ _ =>
      ∃ sandboxIDs, program = claimScript orgID sandboxIDs ∧
        if (before .initialOrgClaim).isSome then after = before
        else Rebinds .organization
          (sandboxIDs.filter fun sandboxID => (before (orgAssignKey sandboxID)).isNone)
          none (some orgID) before after
  | .unassignSandboxFromOrg orgID requested =>
      ∃ sandboxIDs, validateSandboxOperationBatch requested = .ok sandboxIDs ∧
        Rebinds .organization sandboxIDs (some orgID) none before after
  | .assignSandboxToProject projectID orgID available requested =>
      ∃ sandboxIDs, validateProjectRequest organizationOf projectID orgID available requested =
          .ok sandboxIDs ∧
        Rebinds .project sandboxIDs none (some projectID) before after
  | .unassignSandboxFromProject projectID requested =>
      ∃ sandboxIDs, validateSandboxOperationBatch requested = .ok sandboxIDs ∧
        Rebinds .project sandboxIDs (some projectID) none before after

theorem Rebinds.congr {level : Level} {sandboxIDs others : List String} {unbound bound : Option ℤ}
    {before after later : Redis} (rebinds : Rebinds level sandboxIDs unbound bound before after)
    (same : ∀ sandboxID, sandboxID ∈ others ↔ sandboxID ∈ sandboxIDs)
    (kept : ∀ other sandboxID, later (.binding other sandboxID) = after (.binding other sandboxID)) :
    Rebinds level others unbound bound before later where
  source sandboxID member := rebinds.source sandboxID ((same sandboxID).mp member)
  target sandboxID member := by
    rw [kept]
    exact rebinds.target sandboxID ((same sandboxID).mp member)
  frame other sandboxID apart := by
    rw [kept]
    exact rebinds.frame other sandboxID (by rwa [← same])

theorem ScopeCall.Writes.completes {organizationOf : ℤ → Option ℤ} {call : ScopeCall}
    {before after : Redis} {program : Call}
    (writes : call.Writes organizationOf before program after) :
    call.Completes organizationOf before program after := by
  cases call with
  | assignSandboxToOrg orgID available requested =>
      obtain ⟨sandboxIDs, valid, free, rfl⟩ := writes
      exact ⟨sandboxIDs, valid, bind_rebinds orgID free⟩
  | claimUnassignedSandboxesForOrg orgID listed missing =>
      obtain ⟨sandboxIDs, script, ⟨claimed, rfl⟩ | ⟨fresh, rfl⟩⟩ := writes
      · exact ⟨sandboxIDs, script, by rw [if_pos claimed]⟩
      · refine ⟨sandboxIDs, script, ?_⟩
        rw [if_neg (by simpa using fresh)]
        have free : ∀ sandboxID ∈ claimTargets before sandboxIDs,
            before (orgAssignKey sandboxID) = none :=
          fun sandboxID member => (mem_claimTargets.mp member).2
        refine (bind_rebinds orgID free).congr (fun sandboxID => ?_) fun other sandboxID => ?_
        · rw [mem_claimTargets, List.mem_filter, Option.isNone_iff_eq_none]
        · rw [applyAll_append]
          exact applyAll_untouched (by simp [set]) _
  | unassignSandboxFromOrg orgID requested =>
      obtain ⟨sandboxIDs, valid, found, rfl⟩ := writes
      rw [unbindCommands_eq]
      exact ⟨sandboxIDs, valid, release_rebinds (by simp) fun sandboxID member =>
        (found sandboxID member).1⟩
  | assignSandboxToProject projectID orgID available requested =>
      obtain ⟨sandboxIDs, valid, found, rfl⟩ := writes
      exact ⟨sandboxIDs, valid, bind_rebinds projectID fun sandboxID member =>
        (found sandboxID member).2⟩
  | unassignSandboxFromProject projectID requested =>
      obtain ⟨sandboxIDs, leases, valid, bound, rfl⟩ := writes
      exact ⟨sandboxIDs, valid,
        release_rebinds (fun sandboxID => removeLease_outside sandboxID _) bound⟩

/-- Clients that are about to issue their calls. -/
def issuing (calls : ℕ → ScopeCall) (store : Redis) : World Value ℕ Outcome where
  store := store
  processes client := Process.launch ((calls client).program organizationOf)

theorem issuing_sound (calls : ℕ → ScopeCall) {store : Redis}
    (coherent : Coherent organizationOf store) {moves : List (Move ℕ)}
    {final : World Value ℕ Outcome}
    (run : clients.Run (issuing organizationOf calls store) moves final) :
    final.Sound (Coherent organizationOf)
      fun client => AllOrNothing ((calls client).Writes organizationOf) := by
  refine World.Sound.run ?_ run ⟨coherent, fun client => .launch (calls client).attempts.2⟩
  rintro client before program after rest holds (⟨rfl, _⟩ | ⟨writes, _⟩)
  · exact holds
  · exact writes.coherent holds

/-- **Scope coherence.** However the commands of the calls interleave, bindings and
reverse sets mirror each other, a project binding lies within its organization, and
the next command of each client leaves the store without success or completes the
client's whole call. -/
theorem scope_bindings_coherent (calls : ℕ → ScopeCall) {store : Redis}
    (coherent : Coherent organizationOf store) {moves : List (Move ℕ)}
    {final : World Value ℕ Outcome}
    (run : clients.Run (issuing organizationOf calls store) moves final) :
    (∀ sandboxID orgID, final.store (orgAssignKey sandboxID) = some orgID ↔
      sandboxID ∈ members final.store .organization orgID) ∧
    (∀ sandboxID projectID, final.store (projectAssignKey sandboxID) = some projectID ↔
      sandboxID ∈ members final.store .project projectID) ∧
    (∀ sandboxID projectID, final.store (projectAssignKey sandboxID) = some projectID →
      ∃ orgID, organizationOf projectID = some orgID ∧
        final.store (orgAssignKey sandboxID) = some orgID) ∧
    ∀ client next, clients.step final (.step client) next →
      (next.store = final.store ∧ ¬ Succeeded (next.processes client).program) ∨
      ((calls client).Completes organizationOf final.store (final.processes client).program
          next.store ∧ Succeeded (next.processes client).program) := by
  have sound := issuing_sound organizationOf calls coherent run
  obtain ⟨organization, project, nested⟩ := sound.holds
  refine ⟨organization, project, nested, fun client next step => ?_⟩
  rcases World.step_allowed sound step with quiet | ⟨writes, succeeded⟩
  · exact .inl quiet
  · exact .inr ⟨writes.completes, succeeded⟩

theorem coherent_empty : Coherent organizationOf fun _ => none where
  organization := by simp [Mirrored, members]
  project := by simp [Mirrored, members]
  nested := by simp

/-- Clients that each bind the same two sandboxes to an organization. -/
def assigningTwo : World Value ℕ Outcome :=
  issuing (fun _ => none)
    (fun _ => .assignSandboxToOrg 7 ["emulator:a", "emulator:b"] ["emulator:a", "emulator:b"])
    fun _ => none

/-- One of them watches, reads twice and commits. -/
theorem scope_bindings_coherent_assign :
    ∃ final, clients.Run assigningTwo [.step 0, .step 0, .step 0, .step 0] final ∧
      final.store (orgAssignKey "emulator:b") = some 7 ∧
      ∀ sandboxID orgID, final.store (orgAssignKey sandboxID) = some orgID ↔
        sandboxID ∈ members final.store .organization orgID := by
  have run : clients.Run assigningTwo [.step 0, .step 0, .step 0, .step 0]
      ((((assigningTwo.stepBy 0).stepBy 0).stepBy 0).stepBy 0) :=
    .cons (World.step_stepBy _ _ (by decide)) <|
      .cons (World.step_stepBy _ _ (by decide)) <|
        .cons (World.step_stepBy _ _ (by decide)) <|
          .cons (World.step_stepBy _ _ (by decide)) .nil
  exact ⟨_, run, by decide,
    (scope_bindings_coherent (fun _ => none) _ (coherent_empty _) run).1⟩

end Sico.Sandbox

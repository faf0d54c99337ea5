import Sico.Foundation.System
import Sico.Sandbox.Inventory

/-! # What may be allocated is listed

After a merge, a resource is allocatable only if the listing reports it available. When
a shrink is delayed, the old snapshot stays: what the last refresh had observed is
marked as missing, and what neither that refresh nor this listing has observed is left
as it was. Such a resource is allocatable only if it was resolved on the side since.
As long as no refresh delays a shrink over such a resource, every allocatable resource
is listed (`allocatable_is_listed`).
-/

namespace Sico.Sandbox

open Foundation

def ReportsAvailable (listing : List Resource) (resourceID : String) : Prop :=
  ∃ resource ∈ listing, resource.resourceID = resourceID ∧ resource.status = .available

/-- What the pool would allocate: the allocatable resources without lease. -/
def Inventory.allocates (inventory : Inventory) : List Resource :=
  (allocatableResources inventory.resources).filter (·.resourceID ∉ inventory.leased)

/-- The refresh delays a shrink over a resource that the pool would allocate although
neither the listing reports it nor the last refresh observed it. -/
def Overlooks (settings : PoolSettings) (inventory : Inventory) (now : ℤ)
    (listing : List Resource) : Prop :=
  Delays settings inventory now listing ∧
    ∃ resource ∈ inventory.allocates, resource.resourceID ∉ listedIDs listing ∧
      resource.resourceID ∉ listedIDs (snapshotObservedResources inventory.snapshot)

instance (settings : PoolSettings) (inventory : Inventory) (now : ℤ) (listing : List Resource) :
    Decidable (Overlooks settings inventory now listing) :=
  inferInstanceAs (Decidable (_ ∧ _))

/-- No refresh overlooks a resource. -/
def Tracks (settings : PoolSettings) (inventory : Inventory) : InventoryEvent → Prop
  | .refresh now (some listing) => ¬ Overlooks settings inventory now listing
  | _ => True

def inventorySystem (settings : PoolSettings) : System Inventory InventoryEvent :=
  .ofNext (Inventory.next settings)

def Inventory.empty : Inventory where
  snapshot := none
  pending := none
  leased := []
  clock := 0

/-- Everything the pool would allocate after a refresh is reported available, or is an
observed resource whose shrink the refresh delays. -/
def ListedOrDelayed (settings : PoolSettings) (before : Inventory) (now : ℤ)
    (listing : List Resource) (after : Inventory) : Prop :=
  ∀ resource ∈ after.allocates, ReportsAvailable listing resource.resourceID ∨
    Delays settings before now listing ∧
      resource.resourceID ∈ missingObservedResourceIDs before.snapshot listing

theorem mem_allocates {inventory : Inventory} {resource : Resource} :
    resource ∈ inventory.allocates ↔ resource ∈ inventory.resources ∧ resource.resourceID ≠ "" ∧
      resource.status = .available ∧ resource.missingSinceAt = none ∧
      resource.resourceID ∉ inventory.leased := by
  simp only [Inventory.allocates, allocatableResources, List.mem_filter, decide_eq_true_eq]
  tauto

theorem mem_listedIDs {listing : List Resource} {resourceID : String} :
    resourceID ∈ listedIDs listing ↔
      resourceID ≠ "" ∧ ∃ resource ∈ listing, resource.resourceID = resourceID := by
  simp [listedIDs, and_comm]

theorem mem_missingObservedResourceIDs {snapshot : Option ResourceSnapshot}
    {listing : List Resource} {resourceID : String} :
    resourceID ∈ missingObservedResourceIDs snapshot listing ↔
      resourceID ∈ listedIDs (snapshotObservedResources snapshot) ∧
        resourceID ∉ listedIDs listing := by
  simp [missingObservedResourceIDs, List.mem_insertionSort, List.mem_filter]

theorem normalize_available {status : ResourceStatus} :
    normalizeProviderResourceStatus status = .available ↔ status = .available := by
  unfold normalizeProviderResourceStatus
  split_ifs with available <;> simp [available]

theorem buildNextSnapshotResources_reported {settings : PoolSettings}
    {current previous : List Resource} {now : ℤ} {resource : Resource}
    (member : resource ∈ buildNextSnapshotResources settings current previous now)
    (available : resource.status = .available) (present : resource.missingSinceAt = none) :
    ReportsAvailable current resource.resourceID := by
  rcases List.mem_append.mp member with listed | missing
  · obtain ⟨reported, here, rfl⟩ := List.mem_map.mp listed
    refine ⟨reported, here, rfl, ?_⟩
    by_contra unavailable
    have status : normalizeProviderResourceStatus reported.status ≠ .available :=
      fun normal => unavailable (normalize_available.mp normal)
    simp [nextSnapshotResourceFromCurrent, status] at present
  · obtain ⟨known, _, rfl⟩ := List.mem_map.mp missing
    simp [nextSnapshotResourceFromMissing] at present

theorem reseen_eq (refreshedAt : Option ℤ) (now : ℤ) (resource : Resource) :
    (reseen refreshedAt now resource).resourceID = resource.resourceID ∧
      (reseen refreshedAt now resource).status = resource.status ∧
      (reseen refreshedAt now resource).missingSinceAt = resource.missingSinceAt := by
  unfold reseen
  split_ifs <;> exact ⟨rfl, rfl, rfl⟩

theorem mergeCurrent_unlisted {current : List Resource} {now : ℤ} {resource : Resource}
    (unlisted : resource.resourceID ∉ listedIDs current) :
    mergeCurrent current now resource = resource := by
  unfold mergeCurrent
  split_ifs with unnamed
  · rfl
  · have absent : current.reverse.find? (·.resourceID = resource.resourceID) = none := by
      rw [List.find?_eq_none]
      intro listed member same
      refine unlisted (mem_listedIDs.mpr ⟨unnamed, listed, List.mem_reverse.mp member, ?_⟩)
      simpa using same
    rw [absent]

/-- A resource of the listing takes its state, so it is available only if it is reported
to be. -/
theorem mergeCurrent_listed {current : List Resource} {now : ℤ} {resource : Resource}
    (listed : resource.resourceID ∈ listedIDs current)
    (available : (mergeCurrent current now resource).status = .available) :
    ReportsAvailable current resource.resourceID := by
  obtain ⟨named, reported, member, same⟩ := mem_listedIDs.mp listed
  unfold mergeCurrent at available
  rw [if_neg named] at available
  cases found : current.reverse.find? (·.resourceID = resource.resourceID) with
  | none =>
      have absent := List.find?_eq_none.mp found reported (List.mem_reverse.mpr member)
      simp [same] at absent
  | some last =>
      rw [found] at available
      refine ⟨last, List.mem_reverse.mp (List.mem_of_find?_eq_some found), ?_,
        normalize_available.mp available⟩
      simpa using List.find?_some found

theorem mergeCurrent_resourceID (current : List Resource) (now : ℤ) (resource : Resource) :
    (mergeCurrent current now resource).resourceID = resource.resourceID := by
  unfold mergeCurrent
  split_ifs
  · rfl
  · split <;> rfl

theorem markMissing_eq (missingIDs : List String) (now : ℤ) (resource : Resource) :
    (markMissing missingIDs now resource).resourceID = resource.resourceID ∧
      (markMissing missingIDs now resource).status = resource.status := by
  unfold markMissing
  split_ifs <;> exact ⟨rfl, rfl⟩

theorem markMissing_present {missingIDs : List String} {now : ℤ} {resource : Resource}
    (named : resource.resourceID ≠ "") :
    (markMissing missingIDs now resource).missingSinceAt = none ↔
      resource.missingSinceAt = none ∧ resource.resourceID ∉ missingIDs := by
  unfold markMissing
  split_ifs with marked
  · simp [marked]
  · constructor
    · exact fun present => ⟨present, fun missing => marked ⟨named, missing, present⟩⟩
    · exact fun both => both.1

theorem mem_delayedSnapshot {previous : ResourceSnapshot} {current : List Resource}
    {missingIDs : List String} {now : ℤ} {resource : Resource}
    (member : resource ∈ (delayedSnapshot previous current missingIDs now).resources)
    (named : resource.resourceID ≠ "") (available : resource.status = .available)
    (present : resource.missingSinceAt = none) :
    ReportsAvailable current resource.resourceID ∨
      resource.resourceID ∉ listedIDs current ∧ resource.resourceID ∉ missingIDs ∧
        ∃ known ∈ previous.resources, known.resourceID = resource.resourceID ∧
          known.status = .available ∧ known.missingSinceAt = none := by
  obtain ⟨known, here, rfl⟩ := List.mem_map.mp member
  obtain ⟨sameID, sameStatus, sameMissing⟩ := reseen_eq previous.refreshedAt now known
  have markID := (markMissing_eq missingIDs now
    (mergeCurrent current now (reseen previous.refreshedAt now known))).1
  have mergeID := mergeCurrent_resourceID current now (reseen previous.refreshedAt now known)
  rw [(markMissing_eq _ _ _).2] at available
  rw [markID] at named ⊢
  obtain ⟨unmarked, present⟩ := (markMissing_present named).mp present
  rw [mergeID] at named present ⊢
  by_cases listed : (reseen previous.refreshedAt now known).resourceID ∈ listedIDs current
  · exact .inl (mergeCurrent_listed listed available)
  · rw [mergeCurrent_unlisted listed] at available unmarked
    exact .inr ⟨listed, present, known, here, sameID.symm, sameStatus ▸ available,
      sameMissing ▸ unmarked⟩

theorem delayedSnapshot_overlooked {previous : ResourceSnapshot} {current : List Resource}
    {missingIDs : List String} (now : ℤ) {known : Resource} (here : known ∈ previous.resources)
    (unlisted : known.resourceID ∉ listedIDs current) (unmarked : known.resourceID ∉ missingIDs) :
    ∃ resource ∈ (delayedSnapshot previous current missingIDs now).resources,
      resource.resourceID = known.resourceID ∧ resource.status = known.status ∧
        resource.missingSinceAt = known.missingSinceAt := by
  refine ⟨_, List.mem_map.mpr ⟨known, here, rfl⟩, ?_⟩
  obtain ⟨sameID, sameStatus, sameMissing⟩ := reseen_eq previous.refreshedAt now known
  rw [mergeCurrent_unlisted (by rwa [sameID])]
  have left : markMissing missingIDs now (reseen previous.refreshedAt now known) =
      reseen previous.refreshedAt now known := by
    unfold markMissing
    rw [if_neg]
    rintro ⟨_, missing, _⟩
    exact unmarked (sameID ▸ missing)
  rw [left]
  exact ⟨sameID, sameStatus, sameMissing⟩

theorem refresh_step {settings : PoolSettings} {before after : Inventory} {now : ℤ}
    {listing : List Resource}
    (step : (inventorySystem settings).step before (.refresh now (some listing)) after) :
    after.resources = (buildAcceptedSnapshot settings before now listing).1.resources ∧
      after.leased = before.leased := by
  simp only [inventorySystem, System.ofNext, Inventory.next] at step
  split_ifs at step
  obtain rfl := Option.some.inj step
  exact ⟨rfl, rfl⟩

theorem refresh_reported {settings : PoolSettings} {before after : Inventory} {now : ℤ}
    {listing : List Resource}
    (step : (inventorySystem settings).step before (.refresh now (some listing)) after)
    (tracked : ¬ Overlooks settings before now listing) {resource : Resource}
    (allocated : resource ∈ after.allocates) :
    ReportsAvailable listing resource.resourceID := by
  obtain ⟨resources, leased⟩ := refresh_step step
  obtain ⟨member, named, available, present, free⟩ := mem_allocates.mp allocated
  rw [resources] at member
  rw [leased] at free
  by_cases delays : Delays settings before now listing
  · rw [buildAcceptedSnapshot, if_pos delays] at member
    rcases mem_delayedSnapshot member named available present with
      reported | ⟨unlisted, unmarked, known, here, same, status, missing⟩
    · exact reported
    · refine absurd ⟨delays, known, mem_allocates.mpr ?_, same ▸ unlisted, ?_⟩ tracked
      · refine ⟨?_, same ▸ named, status, missing, same ▸ free⟩
        cases stored : before.snapshot with
        | none => simp [stored] at here
        | some snapshot => simpa [Inventory.resources, stored] using here
      · intro observed
        refine unmarked (mem_missingObservedResourceIDs.mpr ⟨?_, unlisted⟩)
        exact same ▸ observed
  · rw [buildAcceptedSnapshot, if_neg delays] at member
    exact buildNextSnapshotResources_reported member available present

theorem refresh_overlooked {settings : PoolSettings} {before after : Inventory} {now : ℤ}
    {listing : List Resource}
    (step : (inventorySystem settings).step before (.refresh now (some listing)) after)
    (overlooks : Overlooks settings before now listing) :
    ¬ ListedOrDelayed settings before now listing after := by
  obtain ⟨resources, leased⟩ := refresh_step step
  obtain ⟨delays, known, allocated, unlisted, unobserved⟩ := overlooks
  obtain ⟨here, named, available, present, free⟩ := mem_allocates.mp allocated
  have unmarked : known.resourceID ∉ missingObservedResourceIDs before.snapshot listing :=
    fun missing => unobserved (mem_missingObservedResourceIDs.mp missing).1
  have stored : known ∈ (before.snapshot.getD ⟨none, []⟩).resources := by
    cases stored : before.snapshot with
    | none => simp [Inventory.resources, stored] at here
    | some snapshot => simpa [Inventory.resources, stored] using here
  obtain ⟨resource, member, sameID, sameStatus, sameMissing⟩ :=
    delayedSnapshot_overlooked now stored unlisted unmarked
  intro listed
  have again : resource ∈ after.allocates := by
    rw [mem_allocates, resources, leased, buildAcceptedSnapshot, if_pos delays, sameID, sameStatus,
      sameMissing]
    exact ⟨member, named, available, present, free⟩
  rcases listed resource again with ⟨reported, there, same, _⟩ | ⟨_, missing⟩
  · exact unlisted (mem_listedIDs.mpr ⟨named, reported, there, same.trans sameID⟩)
  · exact unmarked (sameID ▸ missing)

theorem refresh_listed_iff {settings : PoolSettings} {before after : Inventory} {now : ℤ}
    {listing : List Resource}
    (step : (inventorySystem settings).step before (.refresh now (some listing)) after) :
    ListedOrDelayed settings before now listing after ↔ ¬ Overlooks settings before now listing :=
  ⟨fun listed overlooks => refresh_overlooked step overlooks listed,
    fun tracked _ allocated => .inl (refresh_reported step tracked allocated)⟩

/-- **Allocatable implies listed.** In a run in which no refresh overlooks a resource,
after each refresh whose listing succeeded everything the pool would allocate is
reported available or inside the delay of an observed resource, and nothing that all
listings of a window up to that refresh lack is allocated. A refresh that comes next
does the former exactly when it overlooks nothing. -/
theorem allocatable_is_listed (settings : PoolSettings) {events : List InventoryEvent} {now : ℤ}
    {listing : List Resource} {final : Inventory}
    (run : ((inventorySystem settings).restrict (Tracks settings)).Run .empty
      (events ++ [InventoryEvent.refresh now (some listing)]) final) :
    (∃ before, ((inventorySystem settings).restrict (Tracks settings)).Run .empty events before ∧
      ListedOrDelayed settings before now listing final) ∧
    (∀ window resourceID, window <:+ events ++ [InventoryEvent.refresh now (some listing)] → window ≠ [] →
      (∀ time reported, .refresh time (some reported) ∈ window →
        resourceID ∉ listedIDs reported) →
      ∀ resource ∈ final.allocates, resource.resourceID ≠ resourceID) ∧
    ∀ time next after, (inventorySystem settings).step final (.refresh time (some next)) after →
      (ListedOrDelayed settings final time next after ↔ ¬ Overlooks settings final time next) := by
  obtain ⟨before, earlier, tracked, step⟩ := run.snoc_inv
  refine ⟨⟨before, earlier, (refresh_listed_iff step).mpr tracked⟩, ?_,
    fun time next after later => refresh_listed_iff later⟩
  rintro window resourceID suffix nonempty absent resource allocated rfl
  have last : .refresh now (some listing) ∈ window := by
    obtain ⟨front, split⟩ := suffix
    have ends := congrArg List.getLast? split
    rw [List.getLast?_append_of_ne_nil _ nonempty, List.getLast?_concat] at ends
    exact List.mem_of_getLast? ends
  obtain ⟨reported, member, same, _⟩ := refresh_reported step tracked allocated
  exact absent now listing last (mem_listedIDs.mpr
    ⟨(mem_allocates.mp allocated).2.1, reported, member, same⟩)

def defaultSettings : PoolSettings where
  resourceKeySpace := "sandbox:resource:"
  refreshInterval := 10 * second
  shrinkConfirmations := 2
  missingLeaseMarkAfter := 0
  missingLeaseHideAfter := 0
  missingLeaseDeleteAfter := 0

def emulator (resourceID : String) : Resource where
  type := "emulator"
  resourceID := resourceID
  displayName := ""
  status := .available
  metadata := []
  lastSeenAt := none
  missingSinceAt := none

theorem allocatable_is_listed_first :
    ∃ final, ((inventorySystem defaultSettings).restrict (Tracks defaultSettings)).Run .empty
        [.refresh 10 (some [emulator "a"])] final ∧
      final.allocates ≠ [] ∧
      ∃ before, ListedOrDelayed defaultSettings before 10 [emulator "a"] final := by
  have step := System.step_ofNext (Inventory.next defaultSettings) .empty
    (.refresh 10 (some [emulator "a"])) (by decide)
  have tracked : Tracks defaultSettings .empty (.refresh 10 (some [emulator "a"])) :=
    show ¬ Overlooks defaultSettings .empty 10 [emulator "a"] by decide
  have run : ((inventorySystem defaultSettings).restrict (Tracks defaultSettings)).Run .empty
      ([] ++ [InventoryEvent.refresh 10 (some [emulator "a"])]) _ := .snoc .nil ⟨tracked, step⟩
  obtain ⟨before, _, listed⟩ := (allocatable_is_listed defaultSettings run).1
  exact ⟨_, run, by decide, before, listed⟩

/-- Two emulators are listed and one of them is resolved again. -/
def resolvedAfterRefresh : List InventoryEvent :=
  [.refresh 10 (some [emulator "a", emulator "b"]), .resolve 11 (emulator "a")]

/-- The next listing is empty: the shrink is delayed for the one that was observed, and
the resolved one is left to allocate. -/
theorem resolved_resource_is_overlooked :
    ∃ before after,
      (inventorySystem defaultSettings).Run .empty resolvedAfterRefresh before ∧
      (inventorySystem defaultSettings).step before (.refresh 20 (some [])) after ∧
      ¬ ListedOrDelayed defaultSettings before 20 [] after := by
  have run : (inventorySystem defaultSettings).Run .empty resolvedAfterRefresh
      (System.after (Inventory.next defaultSettings) .empty resolvedAfterRefresh) :=
    .ofNext (by decide)
  refine ⟨_, _, run, System.step_ofNext _ _ _ (by decide), ?_⟩
  exact refresh_overlooked (System.step_ofNext _ _ _ (by decide)) (by decide)

end Sico.Sandbox

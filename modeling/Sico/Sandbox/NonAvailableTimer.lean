import Sico.Sandbox.AllocatableListed

/-! # The time a resource is not available

A resource that is listed as not available, or is not listed, has a time since when, and is hidden once that is
long enough ago. Both kinds of a merged refresh carry the time on. A refresh that delays a shrink takes it from
every resource of the listing, available or not, and shows the resource again. So in a run during which the provider
never reports the resource as available, the time stays and the hidden stay hidden as long as no delayed shrink lists
the resource.
-/

namespace Sico.Sandbox

open Foundation

section Entries

variable (settings : PoolSettings) (key : String)

/-- The last resource of a key, which is the one that a refresh carries on. -/
def lastOf (resources : List Resource) : Option Resource :=
  resources.reverse.find? (settings.resourceKey · = key)

def Inventory.entry (inventory : Inventory) : Option Resource := lastOf settings key inventory.resources

variable {settings key}

theorem mem_of_lastOf {resources : List Resource} {resource : Resource}
    (found : lastOf settings key resources = some resource) :
    resource ∈ resources ∧ settings.resourceKey resource = key :=
  ⟨List.mem_reverse.mp (List.mem_of_find?_eq_some found), by simpa using List.find?_some found⟩

theorem lastOf_eq_none {resources : List Resource} :
    lastOf settings key resources = none ↔ ∀ resource ∈ resources, settings.resourceKey resource ≠ key := by
  simp [lastOf, List.find?_eq_none]

theorem lastOf_append (first second : List Resource) :
    lastOf settings key (first ++ second) = (lastOf settings key second).or (lastOf settings key first) := by
  rw [lastOf, List.reverse_append, List.find?_append]
  rfl

theorem lastOf_map {rewrite : Resource → Resource}
    (keeps : ∀ resource, settings.resourceKey (rewrite resource) = settings.resourceKey resource)
    (resources : List Resource) :
    lastOf settings key (resources.map rewrite) = (lastOf settings key resources).map rewrite := by
  have same : (settings.resourceKey · = key : Resource → Bool) ∘ rewrite = (settings.resourceKey · = key : Resource → Bool) := by
    funext resource
    simp [keeps]
  rw [lastOf, ← List.map_reverse, List.find?_map, same]
  rfl

theorem lastOf_filter {resources : List Resource} {test : Resource → Bool}
    (kept : ∀ resource, settings.resourceKey resource = key → test resource = true) :
    lastOf settings key (resources.filter test) = lastOf settings key resources := by
  rw [lastOf, ← List.filter_reverse, List.find?_filter, lastOf]
  congr 1
  funext resource
  by_cases here : settings.resourceKey resource = key
  · simp [here, kept resource here]
  · simp [here]

end Entries

section Keys

variable (settings : PoolSettings)

theorem resourceKey_next (current : Resource) (previous : Option Resource) (now : ℤ) :
    settings.resourceKey (nextSnapshotResourceFromCurrent settings current previous now) =
      settings.resourceKey current := rfl

theorem resourceKey_missing (resource : Resource) (now : ℤ) :
    settings.resourceKey (nextSnapshotResourceFromMissing settings resource now) =
      settings.resourceKey resource := rfl

theorem resourceKey_delayed (refreshedAt : Option ℤ) (current : List Resource) (missingIDs : List String) (now : ℤ)
    (resource : Resource) :
    settings.resourceKey (markMissing missingIDs now (mergeCurrent current now (reseen refreshedAt now resource))) =
      settings.resourceKey resource := by
  have seen : settings.resourceKey (reseen refreshedAt now resource) = settings.resourceKey resource := by
    unfold reseen
    split <;> rfl
  have merged (known : Resource) : settings.resourceKey (mergeCurrent current now known) = settings.resourceKey known := by
    unfold mergeCurrent
    split
    · rfl
    · split <;> rfl
  have marked (known : Resource) : settings.resourceKey (markMissing missingIDs now known) = settings.resourceKey known := by
    unfold markMissing
    split <;> rfl
  rw [marked, merged, seen]

end Keys

section Merging

variable {settings : PoolSettings} {key : String}

theorem lastOf_merge_listed {current : List Resource} (previous : List Resource) (now : ℤ)
    (listed : key ∈ current.map settings.resourceKey) :
    ∃ reported ∈ current, settings.resourceKey reported = key ∧
      lastOf settings key (buildNextSnapshotResources settings current previous now) =
        some (nextSnapshotResourceFromCurrent settings reported (lastOf settings key previous) now) := by
  have others : lastOf settings key (((previous.filter fun resource =>
      settings.resourceKey resource ∉ current.map settings.resourceKey).map fun resource =>
      nextSnapshotResourceFromMissing settings resource now)) = none := by
    rw [lastOf_map (resourceKey_missing settings · now), Option.map_eq_none_iff, lastOf_eq_none]
    rintro resource member rfl
    exact of_decide_eq_true (List.mem_filter.mp member).2 listed
  cases found : lastOf settings key current with
  | none =>
      obtain ⟨reported, member, same⟩ := List.mem_map.mp listed
      exact absurd same (lastOf_eq_none.mp found reported member)
  | some reported =>
      obtain ⟨member, same⟩ := mem_of_lastOf found
      refine ⟨reported, member, same, ?_⟩
      rw [buildNextSnapshotResources, lastOf_append, others, Option.none_or,
        lastOf_map fun resource => resourceKey_next settings resource _ now, found, Option.map_some, same]
      rfl

theorem lastOf_merge_missing {current : List Resource} (previous : List Resource) (now : ℤ)
    (unlisted : key ∉ current.map settings.resourceKey) :
    lastOf settings key (buildNextSnapshotResources settings current previous now) =
      (lastOf settings key previous).map fun resource => nextSnapshotResourceFromMissing settings resource now := by
  have none_ : lastOf settings key (current.map fun resource => nextSnapshotResourceFromCurrent settings resource
      (previous.reverse.find? (settings.resourceKey · = settings.resourceKey resource)) now) = none := by
    rw [lastOf_map fun resource => resourceKey_next settings resource _ now, Option.map_eq_none_iff, lastOf_eq_none]
    exact fun resource member same => unlisted (List.mem_map.mpr ⟨resource, member, same⟩)
  rw [buildNextSnapshotResources, lastOf_append, none_, Option.or_none,
    lastOf_map (resourceKey_missing settings · now), lastOf_filter]
  intro resource same
  simpa [same] using unlisted

end Merging

section Hiding

variable {settings : PoolSettings}

theorem shouldHide_mono {now later since : ℤ} (hidden : settings.shouldHideMissingResource now (some since) = true)
    (after : now ≤ later) : settings.shouldHideMissingResource later (some since) = true := by
  simp only [PoolSettings.shouldHideMissingResource, decide_eq_true_eq] at hidden ⊢
  omega

/-- A hidden resource has been away for long enough. -/
def HiddenSince (settings : PoolSettings) (now : ℤ) (resource : Resource) : Prop :=
  resource.status = .unavailable →
    ∃ since, resource.missingSinceAt = some since ∧ settings.shouldHideMissingResource now (some since) = true

theorem HiddenSince.later {now after : ℤ} {resource : Resource} (hidden : HiddenSince settings now resource)
    (order : now ≤ after) : HiddenSince settings after resource := by
  intro status
  obtain ⟨since, set, hide⟩ := hidden status
  exact ⟨since, set, shouldHide_mono hide order⟩

theorem normalize_ne_unavailable (status : ResourceStatus) : normalizeProviderResourceStatus status ≠ .unavailable := by
  unfold normalizeProviderResourceStatus
  split <;> decide

theorem hiddenSince_of_shown {now : ℤ} {resource : Resource} (shown : resource.status ≠ .unavailable) :
    HiddenSince settings now resource := fun status => absurd status shown

theorem hiddenSince_current (current : Resource) (previous : Option Resource) (now : ℤ) :
    HiddenSince settings now (nextSnapshotResourceFromCurrent settings current previous now) := by
  intro status
  simp only [nextSnapshotResourceFromCurrent] at status ⊢
  by_cases available : normalizeProviderResourceStatus current.status = .available
  · simp [available] at status
  · simp only [available, if_false, ne_eq, not_false_eq_true, true_and] at status ⊢
    split at status
    · next hide => exact ⟨_, rfl, hide⟩
    · exact absurd status (normalize_ne_unavailable _)

theorem hiddenSince_missing (resource : Resource) (now : ℤ) :
    HiddenSince settings now (nextSnapshotResourceFromMissing settings resource now) := by
  intro status
  refine ⟨_, rfl, ?_⟩
  by_contra shown
  simp only [nextSnapshotResourceFromMissing, if_neg shown] at status
  split at status
  · cases status
  · split at status
    · cases status
    · next kept => exact kept (.inr status)

theorem delayed_listed {current : List Resource} {now : ℤ} {resource : Resource} (refreshedAt : Option ℤ)
    {missingIDs : List String} (unmissed : resource.resourceID ∉ missingIDs)
    (listed : resource.resourceID ∈ listedIDs current) :
    (markMissing missingIDs now (mergeCurrent current now (reseen refreshedAt now resource))).missingSinceAt = none ∧
      (markMissing missingIDs now (mergeCurrent current now (reseen refreshedAt now resource))).status ≠
        .unavailable := by
  obtain ⟨sameID, -, -⟩ := reseen_eq refreshedAt now resource
  rw [← sameID] at listed unmissed
  obtain ⟨named, reported, member, same⟩ := mem_listedIDs.mp listed
  have merged : (mergeCurrent current now (reseen refreshedAt now resource)).missingSinceAt = none ∧
      (mergeCurrent current now (reseen refreshedAt now resource)).status ≠ .unavailable := by
    unfold mergeCurrent
    rw [if_neg named]
    cases found : current.reverse.find? (·.resourceID = (reseen refreshedAt now resource).resourceID) with
    | none =>
        have absent := List.find?_eq_none.mp found reported (List.mem_reverse.mpr member)
        simp [same] at absent
    | some last => exact ⟨rfl, normalize_ne_unavailable _⟩
  refine ⟨?_, ?_⟩
  · rw [markMissing_present (by rwa [mergeCurrent_resourceID]), mergeCurrent_resourceID]
    exact ⟨merged.1, unmissed⟩
  · rw [(markMissing_eq _ _ _).2]
    exact merged.2

theorem delayed_unlisted {current : List Resource} {now : ℤ} {resource : Resource} (refreshedAt : Option ℤ)
    (missingIDs : List String) (unlisted : resource.resourceID ∉ listedIDs current) :
    (∀ since, resource.missingSinceAt = some since →
      (markMissing missingIDs now (mergeCurrent current now (reseen refreshedAt now resource))).missingSinceAt =
        some since) ∧
      (markMissing missingIDs now (mergeCurrent current now (reseen refreshedAt now resource))).status =
        resource.status := by
  obtain ⟨sameID, sameStatus, sameMissing⟩ := reseen_eq refreshedAt now resource
  rw [← sameID] at unlisted
  rw [mergeCurrent_unlisted unlisted, (markMissing_eq _ _ _).2, sameStatus]
  refine ⟨fun since set => ?_, rfl⟩
  rw [← sameMissing] at set
  unfold markMissing
  rw [if_neg (by simp [set])]
  exact set

end Hiding

section Steps

variable {settings : PoolSettings} {key : String}

/-- The event gives no sign that the resource is available: no listing reports it to be, and it is not resolved on
the side. -/
def StaysAway (settings : PoolSettings) (key : String) (inventory : Inventory) : InventoryEvent → Prop
  | .refresh _ (some listing) =>
      ∀ reported ∈ listing, settings.resourceKey reported = key → reported.status ≠ .available
  | .resolve _ resolved =>
      ∀ known, inventory.entry settings key = some known → known.resourceID ≠ resolved.resourceID
  | _ => True

/-- The event is not a refresh that delays a shrink with the resource in its listing. -/
def SparesTimer (settings : PoolSettings) (key : String) (inventory : Inventory) : InventoryEvent → Prop
  | .refresh now (some listing) =>
      Delays settings inventory now listing →
        ∀ known, inventory.entry settings key = some known → known.resourceID ∉ listedIDs listing
  | _ => True

/-- What became of a resource that was not available: its time is still set and no later, and it is still hidden if
it was. -/
def StillAway (known : Resource) (since : ℤ) (later : Option Resource) : Prop :=
  ∃ resource, later = some resource ∧ (∃ still ≤ since, resource.missingSinceAt = some still) ∧
    (known.status = .unavailable → resource.status = .unavailable)

theorem lastOf_applyResolvedResource {resolved : Resource} {now : ℤ} {resources : List Resource}
    (other : ∀ known, lastOf settings key resources = some known → known.resourceID ≠ resolved.resourceID) :
    lastOf settings key (applyResolvedResource resolved now resources) = lastOf settings key resources := by
  induction resources with
  | nil => rfl
  | cons existing rest ih =>
      have split_ (first : Resource) (others : List Resource) : lastOf settings key (first :: others) =
          (lastOf settings key others).or (lastOf settings key [first]) := lastOf_append [first] others
      rw [split_] at other
      have later : lastOf settings key (applyResolvedResource resolved now rest) = lastOf settings key rest :=
        ih fun known found => other known (by rw [found]; rfl)
      unfold applyResolvedResource
      by_cases here : existing.resourceID = resolved.resourceID
      · rw [if_neg (not_not.mpr here)]
        dsimp only
        rw [split_ _ rest, split_ existing rest]
        cases found : lastOf settings key rest with
        | some known => rfl
        | none =>
            rw [found, Option.none_or] at other
            have different : settings.resourceKey existing ≠ key := fun same =>
              other existing (by simp [lastOf, same]) here
            rw [Option.none_or, Option.none_or, lastOf_eq_none.mpr, lastOf_eq_none.mpr]
            · simpa using different
            · intro resource member
              rw [List.mem_singleton.mp member]
              exact different
      · rw [if_pos here, split_ existing (applyResolvedResource resolved now rest), split_ existing rest, later]

theorem entry_apply {inventory : Inventory} {event : InventoryEvent} (away : StaysAway settings key inventory event) :
    (∃ now listing, event = .refresh now (some listing) ∧ (inventory.apply settings event).resources =
        (buildAcceptedSnapshot settings inventory now listing).1.resources) ∨
      (inventory.apply settings event).entry settings key = inventory.entry settings key := by
  cases event with
  | refresh now listing =>
      cases listing with
      | some listing => exact .inl ⟨now, listing, rfl, rfl⟩
      | none =>
          right
          cases stored : inventory.snapshot <;>
            simp [Inventory.apply, Inventory.entry, Inventory.resources, stored]
  | abandoned | pendingExpired | leases => exact .inr rfl
  | resolve now resolved =>
      right
      unfold Inventory.apply
      dsimp only
      split
      · rfl
      · cases stored : inventory.snapshot with
        | none => simp [Inventory.entry, Inventory.resources, stored]
        | some snapshot =>
            have kept := @lastOf_applyResolvedResource settings key resolved now inventory.resources away
            simpa [Inventory.entry, Inventory.resources, stored] using kept

theorem entry_delayed {inventory : Inventory} {now : ℤ} {listing : List Resource}
    (delays : Delays settings inventory now listing) {known : Resource}
    (stored : inventory.entry settings key = some known) :
    ∃ refreshedAt, lastOf settings key (buildAcceptedSnapshot settings inventory now listing).1.resources =
      some (markMissing (missingObservedResourceIDs inventory.snapshot listing) now
        (mergeCurrent listing now (reseen refreshedAt now known))) := by
  cases held : inventory.snapshot with
  | none =>
      simp [Inventory.entry, Inventory.resources, held, lastOf] at stored
  | some snapshot =>
      refine ⟨snapshot.refreshedAt, ?_⟩
      have found : lastOf settings key snapshot.resources = some known := by
        simpa [Inventory.entry, Inventory.resources, held] using stored
      rw [buildAcceptedSnapshot, if_pos delays, held]
      dsimp only [delayedSnapshot, Option.getD_some]
      rw [lastOf_map fun resource => resourceKey_delayed settings _ listing _ now resource, found, Option.map_some]

theorem entry_step {before after : Inventory} {event : InventoryEvent}
    (step : (inventorySystem settings).step before event after) (away : StaysAway settings key before event)
    (spares : SparesTimer settings key before event) {known : Resource}
    (stored : before.entry settings key = some known) {since : ℤ} (set : known.missingSinceAt = some since)
    (hidden : HiddenSince settings before.clock known) :
    ∃ resource, after.entry settings key = some resource ∧ resource.missingSinceAt = some since ∧
      (known.status = .unavailable → resource.status = .unavailable) := by
  have order : before.clock ≤ event.time before := by
    simp only [inventorySystem, System.ofNext, Inventory.next] at step
    split at step
    · assumption
    · cases step
  obtain rfl : { before.apply settings event with clock := event.time before } = after := by
    simp only [inventorySystem, System.ofNext, Inventory.next, if_pos order] at step
    exact Option.some.inj step
  show ∃ resource, (before.apply settings event).entry settings key = some resource ∧ _
  rcases entry_apply away with ⟨now, listing, rfl, resources⟩ | same
  · rw [Inventory.entry, resources]
    by_cases delays : Delays settings before now listing
    · obtain ⟨refreshedAt, found⟩ := entry_delayed delays stored
      obtain ⟨kept, status⟩ := delayed_unlisted refreshedAt
        (missingObservedResourceIDs before.snapshot listing) (spares delays known stored)
      exact ⟨_, found, kept since set, fun gone => status.trans gone⟩
    · rw [buildAcceptedSnapshot, if_neg delays]
      dsimp only
      by_cases listed : key ∈ listing.map settings.resourceKey
      · obtain ⟨reported, member, same, found⟩ := lastOf_merge_listed before.resources now listed
        have away : normalizeProviderResourceStatus reported.status ≠ .available := fun normal =>
          away reported member same (normalize_available.mp normal)
        rw [show lastOf settings key before.resources = some known from stored] at found
        have time : nonAvailableSinceForObservedResource (some known) now = since := by
          simp [nonAvailableSinceForObservedResource, set]
        refine ⟨_, found, ?_, fun gone => ?_⟩
        · simp [nextSnapshotResourceFromCurrent, away, time]
        · obtain ⟨first, same, hide⟩ := hidden gone
          obtain rfl : since = first := Option.some.inj (set.symm.trans same)
          have still : settings.shouldHideMissingResource now (some since) = true := shouldHide_mono hide order
          simp [nextSnapshotResourceFromCurrent, away, time, still]
      · refine ⟨_, (lastOf_merge_missing before.resources now listed).trans
          (congrArg (Option.map _) stored), ?_, fun gone => ?_⟩
        · simp [nextSnapshotResourceFromMissing, nonAvailableSinceForMissingResource, set]
        · obtain ⟨first, same, hide⟩ := hidden gone
          obtain rfl : since = first := Option.some.inj (set.symm.trans same)
          have time : nonAvailableSinceForMissingResource known now = since := by
            simp [nonAvailableSinceForMissingResource, set]
          have still : settings.shouldHideMissingResource now (some since) = true := shouldHide_mono hide order
          simp only [nextSnapshotResourceFromMissing, time, still, if_true]
  · exact ⟨known, same.trans stored, set, fun gone => gone⟩

theorem entry_step_lost {before after : Inventory} {event : InventoryEvent}
    (step : (inventorySystem settings).step before event after) (lost : ¬ SparesTimer settings key before event)
    {known : Resource} (stored : before.entry settings key = some known) :
    ∃ resource, after.entry settings key = some resource ∧ resource.missingSinceAt = none ∧
      resource.status ≠ .unavailable := by
  cases event with
  | refresh now listing =>
      cases listing with
      | none => exact absurd trivial lost
      | some listing =>
          simp only [SparesTimer, not_forall, not_not] at lost
          obtain ⟨delays, other, same, listed⟩ := lost
          obtain rfl : known = other := Option.some.inj (stored.symm.trans same)
          obtain ⟨refreshedAt, found⟩ := entry_delayed delays stored
          have unmissed : known.resourceID ∉ missingObservedResourceIDs before.snapshot listing := fun missing =>
            (mem_missingObservedResourceIDs.mp missing).2 listed
          obtain ⟨none_, shown⟩ := delayed_listed refreshedAt unmissed listed
          refine ⟨_, ?_, none_, shown⟩
          rw [Inventory.entry, (refresh_step step).1]
          exact found
  | abandoned | resolve | pendingExpired | leases => exact absurd trivial lost

theorem hiddenSince_applyResolvedResource {resolved : Resource} {now clock : ℤ} {resources : List Resource}
    (hidden : ∀ resource ∈ resources, HiddenSince settings clock resource) :
    ∀ resource ∈ applyResolvedResource resolved now resources, HiddenSince settings clock resource := by
  induction resources with
  | nil => exact hidden
  | cons existing rest ih =>
      rw [List.forall_mem_cons] at hidden
      unfold applyResolvedResource
      split
      · exact List.forall_mem_cons.mpr ⟨hidden.1, ih hidden.2⟩
      · exact List.forall_mem_cons.mpr ⟨hiddenSince_of_shown (normalize_ne_unavailable _), hidden.2⟩

theorem hiddenSince_step {before after : Inventory} {event : InventoryEvent}
    (step : (inventorySystem settings).step before event after)
    (hidden : ∀ resource ∈ before.resources, HiddenSince settings before.clock resource) :
    ∀ resource ∈ after.resources, HiddenSince settings after.clock resource := by
  simp only [inventorySystem, System.ofNext, Inventory.next] at step
  split at step
  · next order =>
    cases step
    have later : ∀ resource ∈ before.resources, HiddenSince settings (event.time before) resource :=
      fun resource member => (hidden resource member).later order
    show ∀ resource ∈ (before.apply settings event).resources, HiddenSince settings (event.time before) resource
    cases event with
    | refresh now listing =>
        cases listing with
        | none =>
            cases stored : before.snapshot with
            | none => simp [Inventory.apply, Inventory.resources, stored]
            | some snapshot => simpa [Inventory.apply, Inventory.resources, stored] using later
        | some listing =>
            intro resource member
            change resource ∈ (buildAcceptedSnapshot settings before now listing).1.resources at member
            by_cases delays : Delays settings before now listing
            · rw [buildAcceptedSnapshot, if_pos delays] at member
              obtain ⟨known, listed, rfl⟩ := List.mem_map.mp member
              cases held : before.snapshot with
              | none => simp [held] at listed
              | some snapshot =>
                  have stored : known ∈ before.resources := by
                    simpa [Inventory.resources, held] using listed
                  by_cases reported : known.resourceID ∈ listedIDs listing
                  · exact hiddenSince_of_shown (delayed_listed _ (fun missing =>
                      (mem_missingObservedResourceIDs.mp missing).2 reported) reported).2
                  · intro gone
                    obtain ⟨kept, status⟩ := delayed_unlisted (before.snapshot.getD ⟨none, []⟩).refreshedAt
                      (missingObservedResourceIDs before.snapshot listing) reported
                    rw [held] at status kept
                    obtain ⟨since, set, hide⟩ := later known stored (status.symm.trans gone)
                    exact ⟨since, kept since set, hide⟩
            · rw [buildAcceptedSnapshot, if_neg delays] at member
              rcases List.mem_append.mp member with listed | missing
              · obtain ⟨reported, _, rfl⟩ := List.mem_map.mp listed
                exact hiddenSince_current _ _ _
              · obtain ⟨known, _, rfl⟩ := List.mem_map.mp missing
                exact hiddenSince_missing _ _
    | abandoned | pendingExpired | leases => exact later
    | resolve now resolved =>
        unfold Inventory.apply
        dsimp only
        split
        · exact later
        · cases stored : before.snapshot with
          | none => simp [Inventory.resources]
          | some snapshot =>
              have each : ∀ resource ∈ snapshot.resources,
                  HiddenSince settings (InventoryEvent.time before (.resolve now resolved)) resource := by
                simpa [Inventory.resources, stored] using later
              exact hiddenSince_applyResolvedResource each
  · cases step

end Steps

/-- **The time of a resource that is not available.** Take a resource with its time set in a state that was reached.
In every run from there in which it is not reported available and no delayed shrink lists it, its time is as it was,
and it is hidden if it was. A step that does not report it available keeps the time, no later, and the hiding exactly
if it is not a delayed shrink that lists it. -/
theorem non_available_timer_kept (settings : PoolSettings) {earlier : List InventoryEvent} {middle : Inventory}
    (reached : (inventorySystem settings).Run .empty earlier middle) (key : String) {known : Resource} {since : ℤ}
    (stored : middle.entry settings key = some known) (set : known.missingSinceAt = some since) :
    (∀ later final, ((inventorySystem settings).restrict fun inventory event =>
        StaysAway settings key inventory event ∧ SparesTimer settings key inventory event).Run middle later final →
      StillAway known since (final.entry settings key)) ∧
    ∀ event after, (inventorySystem settings).step middle event after → StaysAway settings key middle event →
      (StillAway known since (after.entry settings key) ↔ SparesTimer settings key middle event) := by
  have hidden : ∀ resource ∈ middle.resources, HiddenSince settings middle.clock resource :=
    reached.preserves (fun inventory => ∀ resource ∈ inventory.resources, HiddenSince settings inventory.clock resource)
      (fun _ _ _ holds step => hiddenSince_step step holds) (fun resource member => by simp [Inventory.resources,
        Inventory.empty] at member)
  have listed : known ∈ middle.resources := (mem_of_lastOf stored).1
  refine ⟨fun later final run => ?_, fun event after step away => ⟨fun still => ?_, fun spares => ?_⟩⟩
  · have kept : (∀ resource ∈ final.resources, HiddenSince settings final.clock resource) ∧
        ∃ resource, final.entry settings key = some resource ∧ resource.missingSinceAt = some since ∧
          (known.status = .unavailable → resource.status = .unavailable) := by
      refine run.preserves (fun inventory =>
        (∀ resource ∈ inventory.resources, HiddenSince settings inventory.clock resource) ∧
          ∃ resource, inventory.entry settings key = some resource ∧ resource.missingSinceAt = some since ∧
            (known.status = .unavailable → resource.status = .unavailable)) ?_
        ⟨hidden, known, stored, set, fun gone => gone⟩
      rintro before event after ⟨hidden, resource, stored, set, gone⟩ ⟨⟨away, spares⟩, step⟩
      obtain ⟨next, found, kept, still⟩ := entry_step step away spares stored set (hidden resource (mem_of_lastOf stored).1)
      exact ⟨hiddenSince_step step hidden, next, found, kept, fun was => still (gone was)⟩
    obtain ⟨_, resource, found, kept, gone⟩ := kept
    exact ⟨resource, found, ⟨since, le_rfl, kept⟩, gone⟩
  · by_contra lost
    obtain ⟨resource, found, cleared, _⟩ := entry_step_lost step lost stored
    obtain ⟨other, found', ⟨_, _, kept⟩, _⟩ := still
    obtain rfl : resource = other := Option.some.inj (found.symm.trans found')
    simp [cleared] at kept
  · obtain ⟨resource, found, kept, gone⟩ := entry_step step away spares stored set (hidden known listed)
    exact ⟨resource, found, ⟨since, le_rfl, kept⟩, gone⟩

def hidingSettings : PoolSettings := { defaultSettings with missingLeaseHideAfter := 5 }

def sick (resourceID : String) : Resource := { emulator resourceID with status := .unhealthy }

/-- Two listings of a resource that is not available, and of another that is. -/
def sickBesideWell : List InventoryEvent :=
  [.refresh 10 (some [sick "a", emulator "b"]), .refresh 20 (some [sick "a", emulator "b"])]

def hiddenResource : Resource :=
  { emulator "a" with status := .unavailable, lastSeenAt := some 20, missingSinceAt := some 10 }

theorem sickBesideWell_run :
    (Inventory.next hidingSettings (System.after (Inventory.next hidingSettings) .empty sickBesideWell)
        (.refresh 30 (some [sick "a"]))).isSome ∧
      (sickBesideWell.foldlM (Inventory.next hidingSettings) .empty).isSome ∧
      (System.after (Inventory.next hidingSettings) .empty sickBesideWell).entry hidingSettings
        "sandbox:resource:emulator:a" = some hiddenResource ∧
      Delays hidingSettings (System.after (Inventory.next hidingSettings) .empty sickBesideWell) 30 [sick "a"] ∧
      ¬ Delays hidingSettings (System.after (Inventory.next hidingSettings) .empty sickBesideWell) 30
        [sick "a", emulator "b"] := by
  decide

/-- The resource is hidden since it was first listed, and stays so when the listing comes again. -/
theorem non_available_timer_kept_again : ∃ middle,
    (inventorySystem hidingSettings).Run .empty sickBesideWell middle ∧
      ∀ after, (inventorySystem hidingSettings).step middle (.refresh 30 (some [sick "a", emulator "b"])) after →
        StillAway hiddenResource 10 (after.entry hidingSettings "sandbox:resource:emulator:a") := by
  obtain ⟨_, possible, stored, _, merged⟩ := sickBesideWell_run
  have since : hiddenResource.missingSinceAt = some 10 := rfl
  refine ⟨_, .ofNext possible, fun after step => ?_⟩
  refine ((non_available_timer_kept hidingSettings (.ofNext possible) "sandbox:resource:emulator:a"
    stored since).2 _ after step ?_).mpr fun delays => absurd delays merged
  simp [StaysAway, sick, emulator, hidingSettings, defaultSettings, PoolSettings.resourceKey]

/-- When the other resource is missing next, the shrink is delayed, and the hidden resource, which is listed as not
available, is shown without its time. -/
theorem delayed_shrink_takes_time : ∃ middle after,
    (inventorySystem hidingSettings).Run .empty sickBesideWell middle ∧
      middle.entry hidingSettings "sandbox:resource:emulator:a" = some hiddenResource ∧
      (inventorySystem hidingSettings).step middle (.refresh 30 (some [sick "a"])) after ∧
      StaysAway hidingSettings "sandbox:resource:emulator:a" middle (.refresh 30 (some [sick "a"])) ∧
      ¬ StillAway hiddenResource 10 (after.entry hidingSettings "sandbox:resource:emulator:a") := by
  obtain ⟨next, possible, stored, delays, _⟩ := sickBesideWell_run
  have step := System.step_ofNext (Inventory.next hidingSettings) _ _ next
  refine ⟨_, _, .ofNext possible, stored, step, by simp [StaysAway, sick], ?_⟩
  have lost : ¬ SparesTimer hidingSettings "sandbox:resource:emulator:a"
      (System.after (Inventory.next hidingSettings) .empty sickBesideWell) (.refresh 30 (some [sick "a"])) :=
    fun spares => spares delays hiddenResource stored (mem_listedIDs.mpr ⟨by decide, sick "a", by simp, rfl⟩)
  obtain ⟨resource, found, cleared, _⟩ := entry_step_lost step lost stored
  rintro ⟨other, found', ⟨_, _, kept⟩, _⟩
  obtain rfl : resource = other := Option.some.inj (found.symm.trans found')
  simp [cleared] at kept

end Sico.Sandbox

import Sico.Sandbox.NonAvailableTimer

/-! # When a shrink is confirmed

A listing that lacks an observed resource is stored only when it has come often enough. The pool keeps a fingerprint
of the observed resources and of the listing and counts in the pending shrink; whoever watches the listings counts
how many identical smaller ones came one after the other within the window. The pool counts no more than that where
fingerprints tell listings apart. It counts no less as long as a delayed shrink does not change the fingerprint of
the observed resources, which it does when the listing has other statuses or resources that were not observed.
-/

namespace Sico.Sandbox

open Foundation

section Listings

/-- What a listing tells of its resources, as far as a fingerprint goes. -/
def listedStates (listing : List Resource) : List (String × String × ResourceStatus) :=
  (listing.filter (·.resourceID ≠ "")).map fun resource =>
    (resource.type, resource.resourceID, normalizeProviderResourceStatus resource.status)

/-- Two listings with the same resources and statuses, in any order. -/
def Identical (first second : List Resource) : Prop := (listedStates first).Perm (listedStates second)

instance (first second : List Resource) : Decidable (Identical first second) :=
  inferInstanceAs (Decidable (List.Perm _ _))

theorem statusText_normalize (status : ResourceStatus) :
    statusText (normalizeProviderResourceStatus status) = statusText status := by
  cases status <;> rfl

theorem resourceStateSignature_eq (settings : PoolSettings) (listing : List Resource) :
    resourceStateSignature settings listing = String.intercalate "|"
      (((listedStates listing).map fun state =>
        settings.resourceKeySpace ++ state.1 ++ ":" ++ state.2.1 ++ "=" ++ statusText state.2.2).insertionSort
          (· ≤ ·)) := by
  rw [resourceStateSignature, listedStates, List.map_map]
  congr 2
  apply List.map_congr_left
  intro resource _
  simp only [Function.comp_apply, PoolSettings.resourceKey, statusText_normalize]

theorem Identical.signature_eq {first second : List Resource} (identical : Identical first second)
    (settings : PoolSettings) : resourceStateSignature settings first = resourceStateSignature settings second := by
  rw [resourceStateSignature_eq, resourceStateSignature_eq]
  congr 1
  refine List.Perm.eq_of_pairwise (fun _ _ _ _ => le_antisymm) (List.pairwise_insertionSort _ _)
    (List.pairwise_insertionSort _ _) ?_
  exact ((List.perm_insertionSort _ _).trans (identical.map _)).trans (List.perm_insertionSort _ _).symm

theorem Identical.mem_listedIDs_iff {first second : List Resource} (identical : Identical first second)
    (resourceID : String) : resourceID ∈ listedIDs first ↔ resourceID ∈ listedIDs second := by
  have ids (listing : List Resource) :
      resourceID ∈ listedIDs listing ↔ resourceID ∈ (listedStates listing).map fun state => state.2.1 := by
    simp only [listedIDs, listedStates, List.mem_filter, List.mem_map, decide_eq_true_eq, ne_eq]
    constructor
    · rintro ⟨⟨resource, member, rfl⟩, named⟩
      exact ⟨_, ⟨resource, ⟨member, by simpa using named⟩, rfl⟩, rfl⟩
    · rintro ⟨_, ⟨resource, ⟨member, named⟩, rfl⟩, rfl⟩
      exact ⟨⟨resource, member, rfl⟩, by simpa using named⟩
  rw [ids, ids]
  exact (identical.map _).mem_iff

end Listings

section Watching

/-- The inventory, with the last listing, its time, and how many identical smaller listings came up to it. -/
structure Watch where
  inventory : Inventory
  listing : List Resource
  seenAt : ℤ
  repeats : ℤ

def Watch.start : Watch := ⟨.empty, [], 0, 0⟩

/-- A refresh: its time, and its listing if it did not fail. -/
abbrev Refresh := ℤ × Option (List Resource)

/-- The listing lacks a resource that was observed. -/
def Smaller (inventory : Inventory) (listing : List Resource) : Prop :=
  missingObservedResourceIDs inventory.snapshot listing ≠ []

instance (inventory : Inventory) (listing : List Resource) : Decidable (Smaller inventory listing) :=
  inferInstanceAs (Decidable (_ ≠ _))

/-- The count of the identical smaller listings, with this one. -/
def Watch.repeated (settings : PoolSettings) (watch : Watch) (now : ℤ) (listing : List Resource) : ℤ :=
  if ¬ Smaller watch.inventory listing then 0
  else if 0 < watch.repeats ∧ Identical watch.listing listing ∧
      now - watch.seenAt ≤ settings.pendingShrinkWindowDuration then watch.repeats + 1
  else 1

def Watch.next (settings : PoolSettings) (watch : Watch) (refresh : Refresh) : Watch where
  inventory := watch.inventory.apply settings (.refresh refresh.1 refresh.2)
  listing := refresh.2.getD []
  seenAt := refresh.1
  repeats :=
    match refresh.2 with
    | none => 0
    | some listing => watch.repeated settings refresh.1 listing

/-- The refreshes one after the other, at any times. -/
def watching (settings : PoolSettings) : System Watch Refresh where
  step watch refresh next := next = watch.next settings refresh

/-- No observed resource is gone before the listing came often enough. -/
def LeavesConfirmed (settings : PoolSettings) (watch next : Watch) : Prop :=
  ∀ resourceID ∈ listedIDs (snapshotObservedResources watch.inventory.snapshot),
    resourceID ∉ listedIDs (snapshotObservedResources next.inventory.snapshot) →
      settings.requiredShrinkConfirmations ≤ next.repeats

/-- A smaller listing that came often enough is stored. -/
def StoresConfirmed (settings : PoolSettings) (watch : Watch) (now : ℤ) (listing : List Resource) (next : Watch) :
    Prop :=
  Smaller watch.inventory listing → settings.requiredShrinkConfirmations ≤ next.repeats →
    next.inventory.snapshot =
      some ⟨some now, buildNextSnapshotResources settings listing watch.inventory.resources now⟩

/-- The fingerprint tells the listing from the last one. -/
def TellsApart (settings : PoolSettings) (watch : Watch) : Refresh → Prop
  | (_, none) => True
  | (_, some listing) =>
      resourceStateSignature settings watch.listing = resourceStateSignature settings listing →
        Identical watch.listing listing

/-- The refresh changes nothing that was observed: no resource was seen at its very time, and a delayed shrink lists
what the snapshot has only as it was observed. -/
def KeepsObserved (settings : PoolSettings) (watch : Watch) : Refresh → Prop
  | (_, none) => True
  | (now, some listing) =>
      (∀ known ∈ watch.inventory.resources, known.lastSeenAt ≠ some now) ∧
        (Delays settings watch.inventory now listing → ∀ known ∈ watch.inventory.resources,
          ∀ reported ∈ listing, known.resourceID ≠ "" → reported.resourceID = known.resourceID →
            known ∈ snapshotObservedResources watch.inventory.snapshot ∧
              statusText reported.status = statusText known.status)

end Watching

section Observed

variable {settings : PoolSettings}

theorem lastSeenAt_delayed (refreshedAt : Option ℤ) (current : List Resource) (missingIDs : List String) (now : ℤ)
    (resource : Resource) :
    (markMissing missingIDs now (mergeCurrent current now (reseen refreshedAt now resource))).lastSeenAt =
      if (resource.lastSeenAt ≠ none ∧ resource.lastSeenAt = refreshedAt) ∨ resource.resourceID ∈ listedIDs current
      then some now else resource.lastSeenAt := by
  have marked (known : Resource) : (markMissing missingIDs now known).lastSeenAt = known.lastSeenAt := by
    unfold markMissing
    split <;> rfl
  have sameID := (reseen_eq refreshedAt now resource).1
  rw [marked]
  by_cases listed : resource.resourceID ∈ listedIDs current
  · rw [if_pos (.inr listed)]
    obtain ⟨named, reported, member, same⟩ := mem_listedIDs.mp listed
    unfold mergeCurrent
    rw [sameID, if_neg named]
    cases found : current.reverse.find? (·.resourceID = resource.resourceID) with
    | none =>
        have absent := List.find?_eq_none.mp found reported (List.mem_reverse.mpr member)
        simp [same] at absent
    | some last => rfl
  · rw [mergeCurrent_unlisted (by rwa [sameID])]
    unfold reseen
    by_cases seen : resource.lastSeenAt ≠ none ∧ resource.lastSeenAt = refreshedAt
    · rw [if_pos seen, if_pos (.inl seen)]
    · rw [if_neg seen, if_neg (by simp only [seen, listed, or_self, not_false_eq_true])]

theorem observed_eq (now : ℤ) (resources : List Resource) :
    snapshotObservedResources (some ⟨some now, resources⟩) = resources.filter (·.lastSeenAt = some now) := rfl

theorem mem_observed {snapshot : Option ResourceSnapshot} {resource : Resource} :
    resource ∈ snapshotObservedResources snapshot ↔ ∃ refreshedAt resources,
      snapshot = some ⟨some refreshedAt, resources⟩ ∧ resource ∈ resources ∧
        resource.lastSeenAt = some refreshedAt := by
  unfold snapshotObservedResources
  constructor
  · intro observed
    split at observed
    · simp at observed
    · next stored =>
      split at observed
      · simp at observed
      · next refreshedAt time =>
        rw [List.mem_filter] at observed
        refine ⟨refreshedAt, stored.resources, ?_, observed.1, by simpa using observed.2⟩
        rw [← time]
  · rintro ⟨refreshedAt, resources, rfl, member, seen⟩
    simp [member, seen]

theorem observed_of_delayed {inventory : Inventory} {listing : List Resource} {now : ℤ}
    (delays : Delays settings inventory now listing) {resourceID : String}
    (observed : resourceID ∈ listedIDs (snapshotObservedResources inventory.snapshot)) :
    resourceID ∈ listedIDs (snapshotObservedResources
      (some (buildAcceptedSnapshot settings inventory now listing).1)) := by
  obtain ⟨named, resource, member, rfl⟩ := mem_listedIDs.mp observed
  obtain ⟨refreshedAt, resources, stored, kept, seen⟩ := mem_observed.mp member
  rw [buildAcceptedSnapshot, if_pos delays, stored]
  refine mem_listedIDs.mpr ⟨named, _, mem_observed.mpr ⟨now, _, rfl, List.mem_map_of_mem kept, ?_⟩, ?_⟩
  · rw [lastSeenAt_delayed, if_pos (.inl ⟨by simp [seen], seen⟩)]
  · rw [(markMissing_eq _ _ _).1, mergeCurrent_resourceID, (reseen_eq _ _ _).1]

theorem observed_of_merged {inventory : Inventory} {listing : List Resource} {now : ℤ}
    (merges : ¬ Delays settings inventory now listing) {resourceID : String} (listed : resourceID ∈ listedIDs listing) :
    resourceID ∈ listedIDs (snapshotObservedResources
      (some (buildAcceptedSnapshot settings inventory now listing).1)) := by
  obtain ⟨named, resource, member, rfl⟩ := mem_listedIDs.mp listed
  rw [buildAcceptedSnapshot, if_neg merges]
  refine mem_listedIDs.mpr ⟨named, _, mem_observed.mpr ⟨now, _, rfl,
    List.mem_append_left _ (List.mem_map_of_mem member), rfl⟩, rfl⟩

theorem listed_of_observed {inventory : Inventory} {listing : List Resource} {now : ℤ}
    (merges : ¬ Delays settings inventory now listing)
    (fresh : ∀ known ∈ inventory.resources, known.lastSeenAt ≠ some now) {resourceID : String}
    (observed : resourceID ∈ listedIDs (snapshotObservedResources
      (some (buildAcceptedSnapshot settings inventory now listing).1))) : resourceID ∈ listedIDs listing := by
  obtain ⟨named, resource, member, rfl⟩ := mem_listedIDs.mp observed
  rw [buildAcceptedSnapshot, if_neg merges] at member
  obtain ⟨time, resources, same, kept, seen⟩ := mem_observed.mp member
  obtain ⟨rfl, rfl⟩ : now = time ∧ _ = resources := by simpa using same
  rcases List.mem_append.mp kept with listed | missing
  · obtain ⟨reported, here, rfl⟩ := List.mem_map.mp listed
    exact mem_listedIDs.mpr ⟨named, reported, here, rfl⟩
  · obtain ⟨known, here, rfl⟩ := List.mem_map.mp missing
    exact absurd seen (fresh known (List.mem_filter.mp here).1)

theorem statusText_delayed (refreshedAt : Option ℤ) {current : List Resource} (missingIDs : List String) (now : ℤ)
    {resource : Resource} (same : ∀ reported ∈ current, resource.resourceID ≠ "" →
      reported.resourceID = resource.resourceID → statusText reported.status = statusText resource.status) :
    statusText (markMissing missingIDs now (mergeCurrent current now (reseen refreshedAt now resource))).status =
      statusText resource.status := by
  obtain ⟨sameID, sameStatus, _⟩ := reseen_eq refreshedAt now resource
  rw [(markMissing_eq _ _ _).2]
  unfold mergeCurrent
  rw [sameID]
  split
  · rw [sameStatus]
  · next named =>
    cases found : current.reverse.find? (·.resourceID = resource.resourceID) with
    | none => exact congrArg statusText sameStatus
    | some last =>
        have listed : last ∈ current := List.mem_reverse.mp (List.mem_of_find?_eq_some found)
        dsimp only
        rw [statusText_normalize]
        exact same last listed named (by simpa using List.find?_some found)

theorem signature_delayed {watch : Watch} {now : ℤ} {listing : List Resource}
    (delays : Delays settings watch.inventory now listing)
    (keeps : KeepsObserved settings watch (now, some listing)) :
    resourceStateSignature settings (snapshotObservedResources
        (some (buildAcceptedSnapshot settings watch.inventory now listing).1)) =
      resourceStateSignature settings (snapshotObservedResources watch.inventory.snapshot) := by
  obtain ⟨fresh, asObserved⟩ := keeps
  have asObserved := asObserved delays
  obtain ⟨missing, some_⟩ := List.exists_mem_of_ne_nil _ delays.1
  obtain ⟨observed, _⟩ := mem_missingObservedResourceIDs.mp some_
  obtain ⟨_, first, member, _⟩ := mem_listedIDs.mp observed
  obtain ⟨refreshedAt, resources, stored, _, _⟩ := mem_observed.mp member
  have known : watch.inventory.resources = resources := by simp [Inventory.resources, stored]
  rw [known] at fresh
  rw [known, stored] at asObserved
  rw [buildAcceptedSnapshot, if_pos delays, stored]
  have seen : ∀ resource ∈ resources,
      (markMissing (missingObservedResourceIDs (some ⟨some refreshedAt, resources⟩) listing) now
        (mergeCurrent listing now (reseen (some refreshedAt) now resource))).lastSeenAt = some now ↔
      resource.lastSeenAt = some refreshedAt := by
    intro resource here
    rw [lastSeenAt_delayed]
    split
    · next either =>
      refine ⟨fun _ => ?_, fun _ => rfl⟩
      rcases either with ⟨_, seen⟩ | listed
      · exact seen
      · obtain ⟨named, reported, there, same⟩ := mem_listedIDs.mp listed
        obtain ⟨time, all, same, _, seen⟩ := mem_observed.mp (asObserved resource here reported there named same).1
        obtain ⟨rfl, rfl⟩ : refreshedAt = time ∧ resources = all := by simpa using same
        exact seen
    · next neither =>
      refine ⟨fun now_ => absurd now_ (fresh resource here), fun seen => ?_⟩
      exact absurd (.inl ⟨by simp [seen], seen⟩) neither
  dsimp only [delayedSnapshot, Option.getD_some]
  rw [observed_eq, List.filter_map]
  have filtered : resources.filter ((fun resource : Resource => decide (resource.lastSeenAt = some now)) ∘
      fun resource => markMissing (missingObservedResourceIDs (some ⟨some refreshedAt, resources⟩) listing) now
        (mergeCurrent listing now (reseen (some refreshedAt) now resource))) =
      resources.filter fun resource => decide (resource.lastSeenAt = some refreshedAt) :=
    List.filter_congr fun resource here => by simpa using seen resource here
  rw [filtered]
  unfold resourceStateSignature
  rw [List.filter_map, List.map_map]
  congr 2
  have named : ((fun resource : Resource => decide (resource.resourceID ≠ "")) ∘ fun resource =>
      markMissing (missingObservedResourceIDs (some ⟨some refreshedAt, resources⟩) listing) now
        (mergeCurrent listing now (reseen (some refreshedAt) now resource))) =
      fun resource => decide (resource.resourceID ≠ "") := by
    funext resource
    rw [Function.comp_apply, (markMissing_eq _ _ _).1, mergeCurrent_resourceID, (reseen_eq _ _ _).1]
  rw [named]
  apply List.map_congr_left
  intro resource member
  have here : resource ∈ resources := (List.mem_filter.mp (List.mem_filter.mp member).1).1
  rw [Function.comp_apply, resourceKey_delayed, statusText_delayed]
  exact fun reported there named same => (asObserved resource here reported there named same).2

end Observed

section Counting

variable {settings : PoolSettings}

theorem shrinkAttempts_eq {inventory : Inventory} {pending : PendingShrinkState} {seenAt : ℤ}
    (stored : inventory.pending = some pending) (seen : pending.seenAt = some seenAt) (now : ℤ)
    (listing : List Resource) :
    shrinkAttempts settings inventory now listing =
      if pending.baseSignature = resourceStateSignature settings (snapshotObservedResources inventory.snapshot) ∧
          pending.candidateSignature = resourceStateSignature settings listing ∧
          now - seenAt ≤ settings.pendingShrinkWindowDuration then pending.attempts + 1
      else 1 := by
  simp only [shrinkAttempts, stored, seen]

theorem shrinkAttempts_of_none {inventory : Inventory} (none_ : inventory.pending = none) (now : ℤ)
    (listing : List Resource) : shrinkAttempts settings inventory now listing = 1 := by
  simp only [shrinkAttempts, none_]

/-- The pool counts no more than there were identical smaller listings. -/
def CountsNoMore (settings : PoolSettings) (watch : Watch) : Prop :=
  0 ≤ watch.repeats ∧ ∀ pending, watch.inventory.pending = some pending →
    pending.attempts ≤ watch.repeats ∧ 0 < watch.repeats ∧ pending.seenAt = some watch.seenAt ∧
      pending.candidateSignature = resourceStateSignature settings watch.listing

theorem CountsNoMore.attempts_le {watch : Watch} (counts : CountsNoMore settings watch) {now : ℤ}
    {listing : List Resource} (smaller : Smaller watch.inventory listing)
    (apart : TellsApart settings watch (now, some listing)) :
    shrinkAttempts settings watch.inventory now listing ≤ watch.repeated settings now listing := by
  have least : 1 ≤ watch.repeated settings now listing := by
    rw [Watch.repeated, if_neg (not_not.mpr smaller)]
    split
    · exact le_add_of_nonneg_left counts.1
    · exact le_rfl
  cases stored : watch.inventory.pending with
  | none => rwa [shrinkAttempts_of_none stored]
  | some pending =>
      obtain ⟨few, some_, seen, candidate⟩ := counts.2 pending stored
      rw [shrinkAttempts_eq stored seen]
      split
      · next again =>
        obtain ⟨_, same, soon⟩ := again
        have identical := apart (candidate.symm.trans same)
        rw [Watch.repeated, if_neg (not_not.mpr smaller), if_pos ⟨some_, identical, soon⟩]
        omega
      · exact least

theorem CountsNoMore.next {watch : Watch} (counts : CountsNoMore settings watch) {refresh : Refresh}
    (apart : TellsApart settings watch refresh) : CountsNoMore settings (watch.next settings refresh) := by
  obtain ⟨now, result⟩ := refresh
  cases result with
  | none => exact ⟨le_rfl, fun pending stored => by cases stored⟩
  | some listing =>
      show 0 ≤ watch.repeated settings now listing ∧ ∀ pending,
        (buildAcceptedSnapshot settings watch.inventory now listing).2 = some pending →
        pending.attempts ≤ watch.repeated settings now listing ∧ 0 < watch.repeated settings now listing ∧
          pending.seenAt = some now ∧ pending.candidateSignature = resourceStateSignature settings listing
      have positive (smaller : Smaller watch.inventory listing) : 0 < watch.repeated settings now listing := by
        rw [Watch.repeated, if_neg (not_not.mpr smaller)]
        split
        · next again => omega
        · exact one_pos
      constructor
      · by_cases smaller : Smaller watch.inventory listing
        · exact (positive smaller).le
        · rw [Watch.repeated, if_pos smaller]
      · intro pending stored
        rw [buildAcceptedSnapshot] at stored
        split at stored
        · next delays =>
          cases stored
          exact ⟨counts.attempts_le delays.1 apart, positive delays.1, rfl, rfl⟩
        · cases stored

theorem CountsNoMore.leavesConfirmed {watch : Watch} (counts : CountsNoMore settings watch) {refresh : Refresh}
    (apart : TellsApart settings watch refresh) : LeavesConfirmed settings watch (watch.next settings refresh) := by
  obtain ⟨now, result⟩ := refresh
  intro resourceID observed gone
  cases result with
  | none =>
      refine absurd ?_ gone
      obtain ⟨_, resource, member, _⟩ := mem_listedIDs.mp observed
      obtain ⟨_, _, stored, _, _⟩ := mem_observed.mp member
      simpa [Watch.next, Inventory.apply, stored] using observed
  | some listing =>
      by_cases delays : Delays settings watch.inventory now listing
      · exact absurd (observed_of_delayed delays observed) gone
      · have unlisted : resourceID ∉ listedIDs listing := fun listed => gone (observed_of_merged delays listed)
        have smaller : Smaller watch.inventory listing :=
          List.ne_nil_of_mem (mem_missingObservedResourceIDs.mpr ⟨observed, unlisted⟩)
        have often : settings.requiredShrinkConfirmations ≤ shrinkAttempts settings watch.inventory now listing :=
          not_lt.mp fun few => delays ⟨smaller, few⟩
        exact often.trans (counts.attempts_le smaller apart)

/-- The pool counts no less than there were identical smaller listings: the shrink is pending with that count and the
fingerprint of what is observed, or the last listing was stored. -/
def CountsNoLess (settings : PoolSettings) (watch : Watch) : Prop :=
  (∀ pending, watch.inventory.pending = some pending → 1 ≤ pending.attempts) ∧
    (0 < watch.repeats →
      (∃ pending, watch.inventory.pending = some pending ∧ watch.repeats ≤ pending.attempts ∧
        pending.seenAt = some watch.seenAt ∧
        pending.candidateSignature = resourceStateSignature settings watch.listing ∧
        pending.baseSignature =
          resourceStateSignature settings (snapshotObservedResources watch.inventory.snapshot)) ∨
      ∀ resourceID ∈ listedIDs (snapshotObservedResources watch.inventory.snapshot),
        resourceID ∈ listedIDs watch.listing)

theorem one_le_shrinkAttempts {inventory : Inventory}
    (positive : ∀ pending, inventory.pending = some pending → 1 ≤ pending.attempts) (now : ℤ)
    (listing : List Resource) : 1 ≤ shrinkAttempts settings inventory now listing := by
  cases stored : inventory.pending with
  | none => rw [shrinkAttempts_of_none stored]
  | some pending =>
      have least := positive pending stored
      cases seen : pending.seenAt with
      | none => simp only [shrinkAttempts, stored, seen, le_refl]
      | some seenAt =>
          rw [shrinkAttempts_eq stored seen]
          split <;> omega

theorem CountsNoLess.repeated_le {watch : Watch} (counts : CountsNoLess settings watch) {now : ℤ}
    {listing : List Resource} (smaller : Smaller watch.inventory listing) :
    watch.repeated settings now listing ≤ shrinkAttempts settings watch.inventory now listing := by
  rw [Watch.repeated, if_neg (not_not.mpr smaller)]
  split
  · next again =>
    obtain ⟨some_, identical, soon⟩ := again
    rcases counts.2 some_ with ⟨pending, stored, many, seen, candidate, base⟩ | within
    · rw [shrinkAttempts_eq stored seen, if_pos ⟨base, candidate.trans (identical.signature_eq settings), soon⟩]
      omega
    · obtain ⟨missing, listed⟩ := List.exists_mem_of_ne_nil _ smaller
      obtain ⟨observed, unlisted⟩ := mem_missingObservedResourceIDs.mp listed
      exact absurd ((identical.mem_listedIDs_iff missing).mp (within missing observed)) unlisted
  · exact one_le_shrinkAttempts counts.1 now listing

theorem CountsNoLess.next {watch : Watch} (counts : CountsNoLess settings watch) {refresh : Refresh}
    (keeps : KeepsObserved settings watch refresh) : CountsNoLess settings (watch.next settings refresh) := by
  obtain ⟨now, result⟩ := refresh
  cases result with
  | none => exact ⟨fun pending stored => (by cases stored), fun some_ => absurd some_ (lt_irrefl 0)⟩
  | some listing =>
      by_cases delays : Delays settings watch.inventory now listing
      · have pending : (watch.next settings (now, some listing)).inventory.pending =
            some ⟨resourceStateSignature settings (snapshotObservedResources watch.inventory.snapshot),
              resourceStateSignature settings listing, shrinkAttempts settings watch.inventory now listing,
              some now⟩ := by
          simp [Watch.next, Inventory.apply, buildAcceptedSnapshot, delays]
        refine ⟨fun other stored => ?_, fun _ => .inl ⟨_, pending, counts.repeated_le delays.1, rfl, rfl, ?_⟩⟩
        · obtain rfl := Option.some.inj (pending.symm.trans stored)
          exact one_le_shrinkAttempts counts.1 now listing
        · exact (signature_delayed delays keeps).symm
      · have pending : (watch.next settings (now, some listing)).inventory.pending = none := by
          simp [Watch.next, Inventory.apply, buildAcceptedSnapshot, delays]
        refine ⟨fun other stored => ?_, fun _ => .inr fun resourceID observed => ?_⟩
        · rw [pending] at stored
          cases stored
        · exact listed_of_observed delays keeps.1 observed

theorem CountsNoLess.storesConfirmed {watch : Watch} (counts : CountsNoLess settings watch) (now : ℤ)
    (listing : List Resource) :
    StoresConfirmed settings watch now listing (watch.next settings (now, some listing)) := by
  intro smaller often
  have merges : ¬ Delays settings watch.inventory now listing := fun delays =>
    absurd (often.trans (counts.repeated_le smaller)) (not_le.mpr delays.2)
  simp [Watch.next, Inventory.apply, buildAcceptedSnapshot, merges]

end Counting

/-- **The confirmation of a shrink.** Take any refreshes at any times, one after the other. As long as fingerprints
tell the listings apart, an observed resource is gone only after the required number of identical smaller listings in
a row within the window. As long as the refreshes keep what is observed, a smaller listing that came that often in a
row within the window, without a failure, is stored. -/
theorem shrink_confirmation (settings : PoolSettings) (earlier : List Refresh) (watch : Watch) :
    (((watching settings).restrict (TellsApart settings)).Run .start earlier watch →
      ∀ refresh, TellsApart settings watch refresh →
        LeavesConfirmed settings watch (watch.next settings refresh)) ∧
    (((watching settings).restrict (KeepsObserved settings)).Run .start earlier watch →
      ∀ now listing, StoresConfirmed settings watch now listing (watch.next settings (now, some listing))) := by
  constructor
  · intro run refresh apart
    refine CountsNoMore.leavesConfirmed (run.preserves (CountsNoMore settings) ?_ ?_) apart
    · rintro before refresh after counts ⟨apart, rfl⟩
      exact counts.next apart
    · exact ⟨le_rfl, fun pending stored => by cases stored⟩
  · intro run now listing
    refine CountsNoLess.storesConfirmed (run.preserves (CountsNoLess settings) ?_ ?_) now listing
    · rintro before refresh after counts ⟨keeps, rfl⟩
      exact counts.next keeps
    · exact ⟨fun pending stored => (by cases stored), fun some_ => absurd some_ (lt_irrefl 0)⟩

/-- Two emulators, and then one of them alone under another status. -/
def sickAlone : List Refresh := [(10, some [emulator "a", emulator "b"]), (20, some [sick "a"])]

def watched (settings : PoolSettings) (refreshes : List Refresh) : Watch :=
  refreshes.foldl (Watch.next settings) .start

/-- One listing is stored, and the smaller one that comes twice is stored as well. -/
theorem shrink_confirmation_twice :
    StoresConfirmed defaultSettings
      (watched defaultSettings [(10, some [emulator "a", emulator "b"]), (20, some [emulator "a"])]) 30 [emulator "a"]
      ((watched defaultSettings [(10, some [emulator "a", emulator "b"]), (20, some [emulator "a"])]).next
        defaultSettings (30, some [emulator "a"])) := by
  refine (shrink_confirmation defaultSettings _ _).2 (.snoc (.snoc .nil ⟨?_, rfl⟩) ⟨?_, rfl⟩) 30 [emulator "a"]
  · exact ⟨by decide, fun delays => absurd delays (by decide)⟩
  · exact ⟨by decide, fun _ => by decide⟩

/-- The emulator that is left is listed twice under its other status within the window, without a failure, and the
shrink is delayed once more. -/
theorem changed_shrink_delayed_again :
    Smaller (watched defaultSettings sickAlone).inventory [sick "a"] ∧
      defaultSettings.requiredShrinkConfirmations ≤
        ((watched defaultSettings sickAlone).next defaultSettings (30, some [sick "a"])).repeats ∧
      ¬ StoresConfirmed defaultSettings (watched defaultSettings sickAlone) 30 [sick "a"]
        ((watched defaultSettings sickAlone).next defaultSettings (30, some [sick "a"])) := by
  have told : Smaller (watched defaultSettings sickAlone).inventory [sick "a"] ∧
      defaultSettings.requiredShrinkConfirmations ≤
        ((watched defaultSettings sickAlone).next defaultSettings (30, some [sick "a"])).repeats ∧
      ((watched defaultSettings sickAlone).next defaultSettings (30, some [sick "a"])).inventory.snapshot ≠
        some ⟨some 30, buildNextSnapshotResources defaultSettings [sick "a"]
          (watched defaultSettings sickAlone).inventory.resources 30⟩ := by
    decide
  obtain ⟨smaller, often, different⟩ := told
  exact ⟨smaller, often, fun stores => different (stores smaller often)⟩

end Sico.Sandbox

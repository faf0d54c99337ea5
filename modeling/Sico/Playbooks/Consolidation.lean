import Sico.Playbooks.Index

/-! # Merging bullets

A merge adds the counters of its sources to the bullet that is kept, and marks the sources as
invalid. A source is looked up among all bullets, also those that are invalid by now: one that
is named again brings its counters along again, and an invalid bullet may be the one that is
kept. The votes of the active bullets are conserved exactly if no source is counted twice and
what is invalid takes no part.
-/

namespace Sico.Playbooks

open Foundation

/-- The fields of an action of the kind `MERGE`. -/
structure Merge where
  sourceIDs : List String
  keepID : String
  mergedContent : String := ""

/-- `_apply_merge`. -/
def Playbook.merge (playbook : Playbook) (merge : Merge) (now : String) : Playbook :=
  playbook.applyConsolidation (.merge merge.sourceIDs merge.keepID merge.mergedContent) now

section Votes

def Bullet.count (kind : Counter) (bullet : Bullet) : ℤ :=
  match kind with
  | .helpful => bullet.helpful
  | .harmful => bullet.harmful
  | .neutral => bullet.neutral

/-- What a bullet counts for: its counter while it is active. -/
def Bullet.vote (kind : Counter) (bullet : Bullet) : ℤ :=
  if bullet.status = .active then bullet.count kind else 0

namespace Playbook

def votes (kind : Counter) (playbook : Playbook) : ℤ := (playbook.active.map (Bullet.count kind)).sum

/-- A number that is read of the bullet under an identifier. -/
def read (playbook : Playbook) (number : Bullet → ℤ) (id : String) : ℤ :=
  ((playbook.bullets.get? id).map number).getD 0

def statusOf (playbook : Playbook) (id : String) : Option BulletStatus :=
  (playbook.bullets.get? id).map Bullet.status

end Playbook

/-- The sources whose counters a merge adds to the bullet that is kept, in order. -/
def Merge.absorbed (playbook : Playbook) (merge : Merge) : List String :=
  if playbook.statusOf merge.keepID = none then []
  else merge.sourceIDs.filter fun id => id ≠ merge.keepID ∧ playbook.statusOf id ≠ none

/-- What is asked of one merge: the votes of the active bullets stay, and a bullet that is made
invalid by it goes into one that is active. -/
structure Merge.Conserves (playbook : Playbook) (merge : Merge) (now : String) : Prop where
  votes : playbook.statusOf merge.keepID ≠ none →
    ∀ kind, (playbook.merge merge now).votes kind = playbook.votes kind
  live : ∀ id, playbook.statusOf id = some .active → (playbook.merge merge now).statusOf id = some .invalid →
    (playbook.merge merge now).statusOf merge.keepID = some .active

/-- Along the merges, the votes are conserved and no source is counted twice. -/
def Conserve (now : String) : Playbook → List String → List Merge → Prop
  | _, counted, [] => counted.Nodup
  | playbook, counted, merge :: rest =>
      merge.Conserves playbook now ∧
        Conserve now (playbook.merge merge now) (counted ++ merge.absorbed playbook) rest

/-- The sources that a merge finds are named once and were not absorbed before. If the bullet
that is kept is active, then those that are invalid have no votes to give, and if it is invalid,
then so are they. -/
structure Merge.Careful (playbook : Playbook) (counted : List String) (merge : Merge) : Prop where
  once : (merge.absorbed playbook).Nodup
  new : ∀ id ∈ merge.absorbed playbook, id ∉ counted
  spent : playbook.statusOf merge.keepID = some .active → ∀ kind,
    (((merge.absorbed playbook).filter fun id => playbook.statusOf id = some .invalid).map
      (playbook.read (Bullet.count kind))).sum = 0
  settled : playbook.statusOf merge.keepID = some .invalid →
    ∀ id ∈ merge.absorbed playbook, playbook.statusOf id = some .invalid

/-- Every merge is careful in the playbook that it meets. -/
def CarefulMerges (now : String) : Playbook → List String → List Merge → Prop
  | _, _, [] => True
  | playbook, counted, merge :: rest =>
      merge.Careful playbook counted ∧
        CarefulMerges now (playbook.merge merge now) (counted ++ merge.absorbed playbook) rest

end Votes

section Sources

variable {playbook : Playbook} {keepID sourceID now : String} {keep source : Bullet}

theorem sum_map_some {Item : Type} (test : Item → Prop) [DecidablePred test] (number : Item → ℤ)
    (items : List Item) :
    (items.map fun item => if test item then number item else 0).sum =
      ((items.filter test).map number).sum := by
  rw [List.sum_map_ite]
  simp

theorem votes_eq (kind : Counter) (playbook : Playbook) :
    playbook.votes kind = (playbook.bullets.values.map (Bullet.vote kind)).sum :=
  (sum_map_some (fun bullet : Bullet => bullet.status = .active) (Bullet.count kind) _).symm

theorem votes_modify (found : playbook.bullets.get? sourceID = some source) (change : Bullet → Bullet)
    (kind : Counter) :
    (playbook.modify sourceID change).votes kind =
      playbook.votes kind + ((change source).vote kind - source.vote kind) := by
  have sums := Dict.sum_values_set (Bullet.vote kind) found (change source)
  unfold Playbook.modify
  rw [found]
  rw [votes_eq, votes_eq]
  dsimp only
  omega

theorem statusOf_eq_none {id : String} : playbook.statusOf id = none ↔ playbook.bullets.get? id = none :=
  Option.map_eq_none_iff

theorem statusOf_eq_some {id : String} {status : BulletStatus} :
    playbook.statusOf id = some status ↔ ∃ bullet, playbook.bullets.get? id = some bullet ∧ bullet.status = status :=
  Option.map_eq_some_iff

theorem mergeSource_passes (passed : sourceID = keepID ∨ playbook.statusOf sourceID = none) :
    playbook.mergeSource keepID now sourceID = playbook := by
  unfold Playbook.mergeSource
  split
  · rfl
  · next different =>
      have absent := statusOf_eq_none.mp (passed.resolve_left different)
      rw [absent]

theorem mergeSource_found (different : sourceID ≠ keepID)
    (foundSource : playbook.bullets.get? sourceID = some source) :
    playbook.mergeSource keepID now sourceID =
      (playbook.modify keepID source.absorb).modify sourceID fun bullet =>
        { bullet with status := .invalid, updatedAt := now } := by
  have still : (playbook.modify keepID source.absorb).bullets.get? sourceID = some source := by
    rw [get?_modify, if_neg different, foundSource]
  unfold Playbook.mergeSource
  rw [if_neg different, foundSource]
  dsimp only
  unfold Playbook.removeBullet
  rw [still]
  rfl

theorem get?_mergeSource (different : sourceID ≠ keepID)
    (foundSource : playbook.bullets.get? sourceID = some source) (id : String) :
    (playbook.mergeSource keepID now sourceID).bullets.get? id =
      if id = sourceID then some { source with status := .invalid, updatedAt := now }
      else if id = keepID then (playbook.bullets.get? keepID).map source.absorb
      else playbook.bullets.get? id := by
  rw [mergeSource_found different foundSource, get?_modify, get?_modify, get?_modify]
  rw [if_neg different, foundSource]
  rfl

/-- The votes behind the merge of one source: its counter is added if the bullet that is kept is
active, and its own vote is gone. -/
theorem votes_mergeSource (different : sourceID ≠ keepID)
    (foundKeep : playbook.bullets.get? keepID = some keep)
    (foundSource : playbook.bullets.get? sourceID = some source) (kind : Counter) :
    (playbook.mergeSource keepID now sourceID).votes kind =
      playbook.votes kind + ((if keep.status = .active then source.count kind else 0) - source.vote kind) := by
  have still : (playbook.modify keepID source.absorb).bullets.get? sourceID = some source := by
    rw [get?_modify, if_neg different, foundSource]
  have gained : (source.absorb keep).vote kind - keep.vote kind =
      if keep.status = .active then source.count kind else 0 := by
    have sameStatus : (source.absorb keep).status = keep.status := rfl
    have added : (source.absorb keep).count kind = keep.count kind + source.count kind := by
      cases kind <;> rfl
    unfold Bullet.vote
    rw [sameStatus, added]
    split
    · omega
    · rfl
  have lost : Bullet.vote kind { source with status := .invalid, updatedAt := now } = 0 := if_neg nofun
  rw [mergeSource_found different foundSource, votes_modify still, votes_modify foundKeep, gained, lost]
  omega

end Sources

section Merging

variable {playbook : Playbook} {keepID now : String} {sources : List String}

/-- The sources that are all found, each of them apart from the bullet that is kept. -/
def Found (playbook : Playbook) (keepID : String) (sources : List String) : Prop :=
  ∀ id ∈ sources, id ≠ keepID ∧ playbook.statusOf id ≠ none

theorem statusOf_mergeSource_eq_none (sourceID id : String) :
    (playbook.mergeSource keepID now sourceID).statusOf id = none ↔ playbook.statusOf id = none := by
  by_cases passed : sourceID = keepID ∨ playbook.statusOf sourceID = none
  · rw [mergeSource_passes passed]
  · rw [not_or] at passed
    obtain ⟨source, foundSource⟩ := Option.ne_none_iff_exists'.mp fun absent =>
      passed.2 (statusOf_eq_none.mpr absent)
    rw [statusOf_eq_none, statusOf_eq_none, get?_mergeSource passed.1 foundSource]
    split
    · next same => simp [same, foundSource]
    · split
      · next same => rw [same, Option.map_eq_none_iff]
      · rfl

theorem foldl_mergeSource_filter (sources : List String) (playbook : Playbook) :
    sources.foldl (Playbook.mergeSource keepID now) playbook =
      (sources.filter fun id => id ≠ keepID ∧ playbook.statusOf id ≠ none).foldl
        (Playbook.mergeSource keepID now) playbook := by
  induction sources generalizing playbook with
  | nil => rfl
  | cons sourceID rest ih =>
      have same : ∀ id ∈ rest, decide (id ≠ keepID ∧ (playbook.mergeSource keepID now sourceID).statusOf id ≠ none) =
          decide (id ≠ keepID ∧ playbook.statusOf id ≠ none) := by
        intro id _
        apply decide_eq_decide.mpr
        exact and_congr_right' (not_congr (statusOf_mergeSource_eq_none sourceID id))
      rw [List.foldl_cons, ih, List.filter_congr same, List.filter_cons]
      split
      · rfl
      · next passed =>
          rw [mergeSource_passes]
          by_contra neither
          rw [not_or] at neither
          exact passed (decide_eq_true neither)

theorem get?_mergeSource_other {sourceID id : String} (apart : id ≠ sourceID) (notKept : id ≠ keepID) :
    (playbook.mergeSource keepID now sourceID).bullets.get? id = playbook.bullets.get? id := by
  by_cases passed : sourceID = keepID ∨ playbook.statusOf sourceID = none
  · rw [mergeSource_passes passed]
  · rw [not_or] at passed
    obtain ⟨source, foundSource⟩ := Option.ne_none_iff_exists'.mp fun absent =>
      passed.2 (statusOf_eq_none.mpr absent)
    rw [get?_mergeSource passed.1 foundSource, if_neg apart, if_neg notKept]

theorem statusOf_mergeSource_keep (sourceID : String) :
    (playbook.mergeSource keepID now sourceID).statusOf keepID = playbook.statusOf keepID := by
  by_cases passed : sourceID = keepID ∨ playbook.statusOf sourceID = none
  · rw [mergeSource_passes passed]
  · rw [not_or] at passed
    obtain ⟨source, foundSource⟩ := Option.ne_none_iff_exists'.mp fun absent =>
      passed.2 (statusOf_eq_none.mpr absent)
    unfold Playbook.statusOf
    rw [get?_mergeSource passed.1 foundSource, if_neg (Ne.symm passed.1), if_pos rfl, Option.map_map]
    rfl

theorem get?_foldl_other {id : String} (apart : id ∉ sources) (notKept : id ≠ keepID) :
    (sources.foldl (Playbook.mergeSource keepID now) playbook).bullets.get? id = playbook.bullets.get? id := by
  induction sources generalizing playbook with
  | nil => rfl
  | cons sourceID rest ih =>
      rw [List.foldl_cons, ih fun later => apart (List.mem_cons_of_mem _ later)]
      exact get?_mergeSource_other (fun same => apart (same ▸ List.mem_cons_self)) notKept

theorem statusOf_foldl_keep (sources : List String) (playbook : Playbook) :
    (sources.foldl (Playbook.mergeSource keepID now) playbook).statusOf keepID = playbook.statusOf keepID := by
  induction sources generalizing playbook with
  | nil => rfl
  | cons sourceID rest ih => rw [List.foldl_cons, ih, statusOf_mergeSource_keep]

theorem Found.first {first : String} {rest : List String} (found : Found playbook keepID (first :: rest)) :
    first ≠ keepID ∧ ∃ source, playbook.bullets.get? first = some source := by
  obtain ⟨different, there⟩ := found first List.mem_cons_self
  refine ⟨different, Option.ne_none_iff_exists'.mp ?_⟩
  exact fun absent => there (statusOf_eq_none.mpr absent)

theorem Found.rest {first : String} {rest : List String} (found : Found playbook keepID (first :: rest)) :
    Found (playbook.mergeSource keepID now first) keepID rest := by
  intro id member
  obtain ⟨apart, there⟩ := found id (List.mem_cons_of_mem _ member)
  exact ⟨apart, fun gone => there ((statusOf_mergeSource_eq_none first id).mp gone)⟩

theorem statusOf_mergeSource_invalid {sourceID id : String} (invalid : playbook.statusOf id = some .invalid) :
    (playbook.mergeSource keepID now sourceID).statusOf id = some .invalid := by
  by_cases isKeep : id = keepID
  · rw [isKeep, statusOf_mergeSource_keep, ← isKeep, invalid]
  by_cases isSource : id = sourceID
  · obtain ⟨source, foundSource, -⟩ := statusOf_eq_some.mp (isSource ▸ invalid)
    unfold Playbook.statusOf
    rw [get?_mergeSource (isSource ▸ isKeep) foundSource, if_pos isSource]
    rfl
  · unfold Playbook.statusOf
    rw [get?_mergeSource_other isSource isKeep]
    exact invalid

theorem statusOf_foldl_source {sourceID : String} (listed : sourceID ∈ sources)
    (found : Found playbook keepID sources) :
    (sources.foldl (Playbook.mergeSource keepID now) playbook).statusOf sourceID = some .invalid := by
  have stays : ∀ (rest : List String) (playbook : Playbook), playbook.statusOf sourceID = some .invalid →
      (rest.foldl (Playbook.mergeSource keepID now) playbook).statusOf sourceID = some .invalid := by
    intro rest
    induction rest with
    | nil => exact fun _ invalid => invalid
    | cons next rest ih => exact fun playbook invalid => ih _ (statusOf_mergeSource_invalid invalid)
  induction sources generalizing playbook with
  | nil => cases listed
  | cons first rest ih =>
      rcases List.mem_cons.mp listed with rfl | later
      · obtain ⟨different, source, foundSource⟩ := found.first
        have merged : (playbook.mergeSource keepID now sourceID).statusOf sourceID = some .invalid := by
          unfold Playbook.statusOf
          rw [get?_mergeSource different foundSource, if_pos rfl]
          rfl
        exact stays rest _ merged
      · exact ih later found.rest

/-- The votes behind the merge of distinct sources: for each, what the bullet that is kept gains
by it if it is active, less the vote of the source. -/
theorem votes_foldl (distinct : sources.Nodup) (found : Found playbook keepID sources) {keep : Bullet}
    (foundKeep : playbook.bullets.get? keepID = some keep) (kind : Counter) :
    (sources.foldl (Playbook.mergeSource keepID now) playbook).votes kind =
      playbook.votes kind + (sources.map fun id =>
        (if keep.status = .active then playbook.read (Bullet.count kind) id else 0) -
          playbook.read (Bullet.vote kind) id).sum := by
  induction sources generalizing playbook keep with
  | nil => simp
  | cons first rest ih =>
      obtain ⟨different, source, foundSource⟩ := found.first
      rw [List.nodup_cons] at distinct
      have keptAfter : (playbook.mergeSource keepID now first).bullets.get? keepID =
          some (source.absorb keep) := by
        rw [get?_mergeSource different foundSource, if_neg (Ne.symm different), if_pos rfl, foundKeep]
        rfl
      -- the sources that are left are read as before
      have sameReads : ∀ number, ∀ id ∈ rest,
          (playbook.mergeSource keepID now first).read number id = playbook.read number id := by
        intro number id member
        unfold Playbook.read
        rw [get?_mergeSource_other (fun same : id = first => distinct.1 (same ▸ member))
          (found id (List.mem_cons_of_mem _ member)).1]
      have later := ih distinct.2 found.rest keptAfter
      have sameStatus : (source.absorb keep).status = keep.status := rfl
      have sameTerms : (rest.map fun id =>
          (if keep.status = .active then (playbook.mergeSource keepID now first).read (Bullet.count kind) id
            else 0) - (playbook.mergeSource keepID now first).read (Bullet.vote kind) id) =
          rest.map fun id => (if keep.status = .active then playbook.read (Bullet.count kind) id else 0) -
            playbook.read (Bullet.vote kind) id := by
        apply List.map_congr_left
        intro id member
        rw [sameReads _ id member, sameReads _ id member]
      have firstReads : ∀ number, playbook.read number first = number source := by
        intro number
        unfold Playbook.read
        rw [foundSource]
        rfl
      rw [sameStatus, sameTerms, votes_mergeSource different foundKeep foundSource] at later
      rw [List.foldl_cons, later, List.map_cons, List.sum_cons, firstReads, firstReads]
      omega

end Merging

section Merges

variable {playbook : Playbook} {merge : Merge} {now : String}

theorem absorbed_found : Found playbook merge.keepID (merge.absorbed playbook) := by
  intro id listed
  unfold Merge.absorbed at listed
  split at listed
  · cases listed
  · exact of_decide_eq_true (List.mem_filter.mp listed).2

theorem merge_absent (absent : playbook.statusOf merge.keepID = none) : playbook.merge merge now = playbook := by
  unfold Playbook.merge Playbook.applyConsolidation
  dsimp only
  rw [statusOf_eq_none.mp absent]

/-- The last touch of a merge, on the bullet that is kept. -/
def Merge.finish (merge : Merge) (now : String) (bullet : Bullet) : Bullet :=
  { bullet with content := orSame bullet.content merge.mergedContent, updatedAt := now }

theorem merge_eq (there : playbook.statusOf merge.keepID ≠ none) :
    playbook.merge merge now =
      ((merge.absorbed playbook).foldl (Playbook.mergeSource merge.keepID now) playbook).modify merge.keepID
        (merge.finish now) := by
  obtain ⟨keep, foundKeep⟩ := Option.ne_none_iff_exists'.mp fun absent => there (statusOf_eq_none.mpr absent)
  unfold Playbook.merge Playbook.applyConsolidation Merge.absorbed
  dsimp only
  rw [foundKeep, if_neg there, ← foldl_mergeSource_filter]
  rfl

theorem statusOf_finish (id : String) :
    (playbook.modify merge.keepID (merge.finish now)).statusOf id = playbook.statusOf id := by
  unfold Playbook.statusOf
  rw [get?_modify]
  split
  · next same =>
      rw [same, Option.map_map]
      rfl
  · rfl

theorem votes_finish (kind : Counter) :
    (playbook.modify merge.keepID (merge.finish now)).votes kind = playbook.votes kind := by
  cases found : playbook.bullets.get? merge.keepID with
  | none =>
      unfold Playbook.modify
      rw [found]
  | some keep =>
      have sameVote : (merge.finish now keep).vote kind = keep.vote kind := by cases kind <;> rfl
      rw [votes_modify found, sameVote, sub_self, add_zero]

theorem statusOf_merge_keep :
    (playbook.merge merge now).statusOf merge.keepID = playbook.statusOf merge.keepID := by
  by_cases there : playbook.statusOf merge.keepID = none
  · rw [merge_absent there]
  · rw [merge_eq there, statusOf_finish, statusOf_foldl_keep]

theorem statusOf_merge_source {id : String} (isActive : playbook.statusOf id = some .active) :
    (playbook.merge merge now).statusOf id = some .invalid ↔ id ∈ merge.absorbed playbook := by
  by_cases there : playbook.statusOf merge.keepID = none
  · have absorbed : merge.absorbed playbook = [] := if_pos there
    rw [merge_absent there, isActive, absorbed]
    simp
  · rw [merge_eq there, statusOf_finish]
    constructor
    · intro invalid
      by_contra notListed
      by_cases isKeep : id = merge.keepID
      · rw [isKeep, statusOf_foldl_keep, ← isKeep, isActive] at invalid
        cases invalid
      · unfold Playbook.statusOf at invalid isActive
        rw [get?_foldl_other notListed isKeep, isActive] at invalid
        cases invalid
    · exact fun listed => statusOf_foldl_source listed absorbed_found

/-- The votes behind a merge of distinct sources into an active bullet: the invalid ones among
them add their counters. -/
theorem votes_merge_active (distinct : (merge.absorbed playbook).Nodup)
    (isActive : playbook.statusOf merge.keepID = some .active) (kind : Counter) :
    (playbook.merge merge now).votes kind = playbook.votes kind +
      (((merge.absorbed playbook).filter fun id => playbook.statusOf id = some .invalid).map
        (playbook.read (Bullet.count kind))).sum := by
  obtain ⟨keep, foundKeep, status⟩ := statusOf_eq_some.mp isActive
  have there : playbook.statusOf merge.keepID ≠ none := by
    rw [isActive]
    exact Option.some_ne_none _
  rw [merge_eq there, votes_finish, votes_foldl distinct absorbed_found foundKeep, ← sum_map_some]
  congr 2
  apply List.map_congr_left
  intro id listed
  obtain ⟨source, foundSource⟩ := Option.ne_none_iff_exists'.mp fun absent =>
    (absorbed_found id listed).2 (statusOf_eq_none.mpr absent)
  unfold Playbook.read Playbook.statusOf Bullet.vote
  rw [foundSource, if_pos status]
  cases own : source.status with
  | active => simp [own]
  | invalid => simp [own]

theorem votes_merge_invalid (distinct : (merge.absorbed playbook).Nodup)
    (isInvalid : playbook.statusOf merge.keepID = some .invalid)
    (settled : ∀ id ∈ merge.absorbed playbook, playbook.statusOf id = some .invalid) (kind : Counter) :
    (playbook.merge merge now).votes kind = playbook.votes kind := by
  obtain ⟨keep, foundKeep, status⟩ := statusOf_eq_some.mp isInvalid
  have there : playbook.statusOf merge.keepID ≠ none := by
    rw [isInvalid]
    exact Option.some_ne_none _
  have nothing : ∀ id ∈ merge.absorbed playbook,
      (if keep.status = .active then playbook.read (Bullet.count kind) id else 0) -
        playbook.read (Bullet.vote kind) id = 0 := by
    intro id listed
    obtain ⟨source, foundSource, sourceStatus⟩ := statusOf_eq_some.mp (settled id listed)
    unfold Playbook.read Bullet.vote
    rw [status, foundSource]
    simp [sourceStatus]
  rw [merge_eq there, votes_finish, votes_foldl distinct absorbed_found foundKeep,
    List.map_congr_left nothing]
  simp

/-- One merge with distinct sources, none of which was absorbed before: it conserves the votes
and what is live exactly if it is careful. -/
theorem merge_conserves_iff (counted : List String) (distinct : counted.Nodup) :
    merge.Conserves playbook now ∧ (counted ++ merge.absorbed playbook).Nodup ↔
      merge.Careful playbook counted := by
  rw [List.nodup_append]
  constructor
  · rintro ⟨conserves, -, once, apart⟩
    refine ⟨once, ?_, ?_, ?_⟩
    · exact fun id listed before => apart id before id listed rfl
    · intro isActive kind
      have there : playbook.statusOf merge.keepID ≠ none := by
        rw [isActive]
        exact Option.some_ne_none _
      have same := conserves.votes there kind
      rw [votes_merge_active once isActive] at same
      omega
    · intro isInvalid id listed
      obtain ⟨status, own⟩ := Option.ne_none_iff_exists'.mp (absorbed_found id listed).2
      cases status with
      | invalid => exact own
      | active =>
          have live := conserves.live id own ((statusOf_merge_source own).mpr listed)
          rw [statusOf_merge_keep, isInvalid] at live
          cases live
  · intro careful
    refine ⟨⟨?_, ?_⟩, distinct, careful.once, ?_⟩
    · intro there kind
      obtain ⟨status, own⟩ := Option.ne_none_iff_exists'.mp there
      cases status with
      | active => rw [votes_merge_active careful.once own, careful.spent own, add_zero]
      | invalid => exact votes_merge_invalid careful.once own (careful.settled own) kind
    · intro id isActive isInvalid
      have listed := (statusOf_merge_source isActive).mp isInvalid
      rw [statusOf_merge_keep]
      cases own : playbook.statusOf merge.keepID with
      | none =>
          have absorbed : merge.absorbed playbook = [] := if_pos own
          rw [absorbed] at listed
          cases listed
      | some status =>
          cases status with
          | active => rfl
          | invalid =>
              have settled := careful.settled own id listed
              rw [isActive] at settled
              cases settled
    · rintro id before _ listed rfl
      exact careful.new id listed before

theorem Conserve.distinct {counted : List String} {merges : List Merge}
    (conserve : Conserve now playbook counted merges) : counted.Nodup := by
  induction merges generalizing playbook counted with
  | nil => exact conserve
  | cons merge rest ih => exact (List.nodup_append.mp (ih conserve.2)).1

theorem conserve_iff {counted : List String} (distinct : counted.Nodup) (merges : List Merge) :
    Conserve now playbook counted merges ↔ CarefulMerges now playbook counted merges := by
  induction merges generalizing playbook counted with
  | nil => exact ⟨fun _ => trivial, fun _ => distinct⟩
  | cons merge rest ih =>
      constructor
      · intro ⟨conserves, later⟩
        have careful := (merge_conserves_iff counted distinct).mp ⟨conserves, later.distinct⟩
        exact ⟨careful, (ih later.distinct).mp later⟩
      · intro ⟨careful, later⟩
        obtain ⟨conserves, still⟩ := (merge_conserves_iff counted distinct).mpr careful
        exact ⟨conserves, (ih still).mpr later⟩

def twoVotes : Playbook :=
  [DeltaOperation.mk .add "general" (some "Check the totals.") (some "a") [(.helpful, 1)],
    DeltaOperation.mk .add "general" (some "Check all totals.") (some "b") [(.helpful, 1)]].foldl
      (fun playbook operation => playbook.applyOperation operation "") .empty

/-- One source that is named by two merges of one response. -/
def namedTwice : List Merge := [⟨["b"], "a", ""⟩, ⟨["b"], "a", ""⟩]

end Merges

end Sico.Playbooks

import Mathlib.Data.Prod.Lex
import Mathlib.Data.String.Basic
import Sico.Foundation.Orders
import Sico.Foundation.Traversal
import Sico.Playbooks.Index

/-! # Pruning

A playbook with more active bullets than its policy allows loses those that are disposable and then, of the
others, as many as there are too many: those that rank lowest by a score and the time they were last changed.
The score is a function into a linear order, and so is the time since a bullet was changed.
-/

namespace Sico.Playbooks

open Foundation

section Ranking

variable {Entry Key : Type*} [DecidableEq Key] {key : Entry → Key} {ranked : List Entry}

theorem filter_notMem_take (distinct : (ranked.map key).Nodup) (count : ℕ) :
    ranked.filter (fun entry => key entry ∉ (ranked.take count).map key) = ranked.drop count := by
  have whole := List.take_append_drop count ranked
  rw [← whole, List.map_append, List.nodup_append] at distinct
  conv_lhs =>
    arg 2
    rw [← whole]
  rw [List.filter_append, List.filter_eq_nil_iff.mpr, List.nil_append, List.filter_eq_self]
  · intro entry behind
    apply decide_eq_true
    intro inside
    exact distinct.2.2 (key entry) inside (key entry) (List.mem_map_of_mem behind) rfl
  · intro entry inside outside
    exact of_decide_eq_true outside (List.mem_map_of_mem inside)

theorem rel_take_drop {before : Entry → Entry → Prop} (ordered : ranked.Pairwise before) {count : ℕ}
    {first second : Entry} (low : first ∈ ranked.take count) (high : second ∈ ranked.drop count) :
    before first second := by
  rw [← List.take_append_drop count ranked, List.pairwise_append] at ordered
  exact ordered.2.2 first low second high

end Ranking

section Policy

variable {Score Days : Type*} [LinearOrder Score] [LinearOrder Days]

/-- `is_disposable`: a bullet that did more harm than good, or one that was never used and has not been changed
for long. -/
def isDisposable (coldAfterDays : Days) (daysSince : String → Days) (bullet : Bullet) : Bool :=
  bullet.helpful < bullet.harmful ||
    (bullet.helpful = 0 && bullet.harmful = 0 && bullet.neutral = 0 && coldAfterDays < daysSince bullet.updatedAt)

/-- Whether a bullet ranks no higher than another one. -/
def ranksBelow (keepScore : Bullet → Score) (first second : Bullet) : Prop :=
  keepScore first < keepScore second ∨ keepScore first = keepScore second ∧ first.updatedAt ≤ second.updatedAt

instance (keepScore : Bullet → Score) : DecidableRel (ranksBelow keepScore) :=
  fun first second => inferInstanceAs (Decidable
    (keepScore first < keepScore second ∨ keepScore first = keepScore second ∧ first.updatedAt ≤ second.updatedAt))

/-- `RetentionPolicy` at a moment. -/
def retentionPolicy (maxBullets : ℤ) (coldAfterDays : Days) (daysSince : String → Days)
    (keepScore : Bullet → Score) : RetentionPolicy :=
  { maxBullets
    isDisposable := isDisposable coldAfterDays daysSince
    goesBefore := fun first second => ranksBelow keepScore first second }

theorem pairwise_ranked (keepScore : Bullet → Score) (bullets : List Bullet) :
    (bullets.mergeSort fun first second => ranksBelow keepScore first second).Pairwise (ranksBelow keepScore) := by
  apply pairwise_mergeSort_key fun bullet => toLex (keepScore bullet, bullet.updatedAt)
  intro first second
  rw [Prod.Lex.toLex_le_toLex]
  rfl

end Policy

section Eviction

variable {policy : RetentionPolicy} {active : List Bullet}

def RetentionPolicy.survivors (policy : RetentionPolicy) (active : List Bullet) : List Bullet :=
  active.filter fun bullet => !policy.isDisposable bullet

/-- The survivors that go, the lowest first. -/
def RetentionPolicy.lowest (policy : RetentionPolicy) (active : List Bullet) : List Bullet :=
  ((policy.survivors active).mergeSort policy.goesBefore).take
    (((policy.survivors active).length : ℤ) - policy.maxBullets).toNat

theorem mem_disposable_ids (distinct : (active.map Bullet.id).Nodup) {bullet : Bullet} (listed : bullet ∈ active) :
    bullet.id ∈ (active.filter policy.isDisposable).map Bullet.id ↔ policy.isDisposable bullet = true := by
  constructor
  · intro inside
    obtain ⟨other, among, same⟩ := List.mem_map.mp inside
    obtain ⟨there, disposable⟩ := List.mem_filter.mp among
    rw [← List.inj_on_of_nodup_map distinct there listed same]
    exact disposable
  · intro disposable
    exact List.mem_map_of_mem (List.mem_filter.mpr ⟨listed, disposable⟩)

theorem evicted_eq (distinct : (active.map Bullet.id).Nodup) :
    policy.evicted active =
      ((active.filter policy.isDisposable).map Bullet.id ++ (policy.lowest active).map Bullet.id).dedup := by
  have same : (active.filter fun bullet => bullet.id ∉ (active.filter policy.isDisposable).map Bullet.id) =
      policy.survivors active := by
    apply List.filter_congr
    intro bullet listed
    rw [Bool.eq_iff_iff, decide_eq_true_eq, mem_disposable_ids distinct listed, Bool.not_eq_true', Bool.not_eq_true]
  unfold RetentionPolicy.evicted RetentionPolicy.lowest
  dsimp only
  rw [same]

theorem left_eq (distinct : (active.map Bullet.id).Nodup) :
    active.filter (fun bullet => bullet.id ∉ policy.evicted active) =
      (policy.survivors active).filter fun bullet => bullet.id ∉ (policy.lowest active).map Bullet.id := by
  unfold RetentionPolicy.survivors
  rw [List.filter_filter, evicted_eq distinct]
  apply List.filter_congr
  intro bullet listed
  rw [Bool.eq_iff_iff, decide_eq_true_eq, List.mem_dedup, List.mem_append, mem_disposable_ids distinct listed,
    Bool.and_eq_true, decide_eq_true_eq, Bool.not_eq_true', not_or, Bool.not_eq_true, and_comm]

theorem perm_left (distinct : (active.map Bullet.id).Nodup) :
    (active.filter fun bullet => bullet.id ∉ policy.evicted active).Perm
      (((policy.survivors active).mergeSort policy.goesBefore).drop
        (((policy.survivors active).length : ℤ) - policy.maxBullets).toNat) := by
  have perm := List.mergeSort_perm (policy.survivors active) policy.goesBefore
  have ids : (((policy.survivors active).mergeSort policy.goesBefore).map Bullet.id).Nodup := by
    rw [(perm.map Bullet.id).nodup_iff]
    exact distinct.sublist (List.filter_sublist.map _)
  rw [left_eq distinct, ← filter_notMem_take ids]
  exact (perm.filter _).symm

theorem exists_of_mem_evicted (distinct : (active.map Bullet.id).Nodup) {id : String}
    (evicted : id ∈ policy.evicted active) : ∃ bullet ∈ active, bullet.id = id := by
  rw [evicted_eq distinct, List.mem_dedup, List.mem_append] at evicted
  rcases evicted with disposable | low
  · obtain ⟨bullet, inside, same⟩ := List.mem_map.mp disposable
    exact ⟨bullet, (List.mem_filter.mp inside).1, same⟩
  · obtain ⟨bullet, inside, same⟩ := List.mem_map.mp low
    have survivor := (List.mergeSort_perm _ _).mem_iff.mp (List.mem_of_mem_take inside)
    exact ⟨bullet, (List.mem_filter.mp survivor).1, same⟩

theorem length_evicted (distinct : (active.map Bullet.id).Nodup) :
    (policy.evicted active).length + (active.filter fun bullet => bullet.id ∉ policy.evicted active).length =
      active.length := by
  have ids : ((active.filter fun bullet => bullet.id ∈ policy.evicted active).map Bullet.id).Perm
      (policy.evicted active) := by
    rw [List.perm_ext_iff_of_nodup (distinct.sublist (List.filter_sublist.map _)) (by
      rw [evicted_eq distinct]
      exact List.nodup_dedup _)]
    intro id
    constructor
    · intro listed
      obtain ⟨bullet, inside, rfl⟩ := List.mem_map.mp listed
      exact of_decide_eq_true (List.mem_filter.mp inside).2
    · intro evicted
      obtain ⟨bullet, listed, rfl⟩ := exists_of_mem_evicted distinct evicted
      exact List.mem_map_of_mem (List.mem_filter.mpr ⟨listed, decide_eq_true evicted⟩)
  have lengths := ids.length_eq
  rw [List.length_map] at lengths
  have parts := List.length_eq_length_filter_add (l := active) fun bullet => decide (bullet.id ∈ policy.evicted active)
  simp only [decide_not] at parts ⊢
  omega

end Eviction

section Removal

variable {playbook : Playbook} {now : String}

theorem Playbook.Indexed.distinct_active (indexed : playbook.Indexed) : (playbook.active.map Bullet.id).Nodup := by
  have ids : playbook.bullets.values.map Bullet.id = playbook.bullets.keys := by
    unfold Dict.values Dict.keys
    rw [List.map_map]
    exact List.map_congr_left fun entry listed => indexed.named (Dict.get?_eq_some.mpr listed)
  have sub : (playbook.active.map Bullet.id).Sublist (playbook.bullets.values.map Bullet.id) :=
    List.filter_sublist.map _
  rw [ids] at sub
  exact playbook.bullets.distinct.sublist sub

theorem entries_removeBullet (id : String) :
    (playbook.removeBullet id false now).bullets.entries = playbook.bullets.entries.filter fun entry => entry.1 ≠ id := by
  unfold Playbook.removeBullet
  cases found : playbook.bullets.get? id with
  | none =>
      dsimp only
      rw [List.filter_eq_self.mpr]
      intro entry listed
      apply decide_eq_true
      rintro rfl
      exact Dict.get?_eq_none.mp found (List.mem_map_of_mem listed)
  | some bullet => rfl

theorem entries_foldl_removeBullet (ids : List String) :
    (ids.foldl (fun left id => left.removeBullet id false now) playbook).bullets.entries =
      playbook.bullets.entries.filter fun entry => entry.1 ∉ ids := by
  induction ids generalizing playbook with
  | nil =>
      rw [List.filter_eq_self.mpr]
      · rfl
      · exact fun _ _ => decide_eq_true List.not_mem_nil
  | cons id rest ih =>
      rw [List.foldl_cons, ih, entries_removeBullet, List.filter_filter]
      apply List.filter_congr
      intro entry _
      rw [Bool.eq_iff_iff, Bool.and_eq_true, decide_eq_true_eq, decide_eq_true_eq, decide_eq_true_eq, List.mem_cons,
        not_or, and_comm]

/-- The number that `prune` returns. -/
def Playbook.pruned (playbook : Playbook) (policy : RetentionPolicy) : ℕ :=
  if (playbook.active.length : ℤ) ≤ policy.maxBullets then 0 else (policy.evicted playbook.active).length

theorem active_prune (indexed : playbook.Indexed) {policy : RetentionPolicy}
    (excess : policy.maxBullets < (playbook.active.length : ℤ)) :
    (playbook.prune policy now).active =
      playbook.active.filter fun bullet => bullet.id ∉ policy.evicted playbook.active := by
  unfold Playbook.prune
  rw [if_neg (not_le.mpr excess)]
  have named : ∀ entry ∈ playbook.bullets.entries, entry.1 = entry.2.id :=
    fun entry listed => (indexed.named (Dict.get?_eq_some.mpr listed)).symm
  have values : ((policy.evicted playbook.active).foldl (fun left id => left.removeBullet id false now)
      playbook).bullets.values =
        playbook.bullets.values.filter fun bullet => bullet.id ∉ policy.evicted playbook.active := by
    unfold Dict.values
    rw [entries_foldl_removeBullet, List.filter_map]
    apply congrArg
    apply List.filter_congr
    intro entry listed
    rw [named entry listed]
    rfl
  generalize policy.evicted playbook.active = ids at values ⊢
  unfold Playbook.active
  rw [values]
  exact List.filter_comm _ _ _

theorem get?_prune_invalid (indexed : playbook.Indexed) (policy : RetentionPolicy) {id : String} {bullet : Bullet}
    (invalid : bullet.status = .invalid) :
    (playbook.prune policy now).bullets.get? id = some bullet ↔ playbook.bullets.get? id = some bullet := by
  unfold Playbook.prune
  split
  · exact Iff.rfl
  · rw [Dict.get?_eq_some, Dict.get?_eq_some, entries_foldl_removeBullet, List.mem_filter]
    refine and_iff_left_of_imp fun listed => decide_eq_true fun evicted => ?_
    have own := indexed.named (Dict.get?_eq_some.mpr listed)
    obtain ⟨other, inside, same⟩ := exists_of_mem_evicted indexed.distinct_active evicted
    obtain ⟨value, active⟩ := List.mem_filter.mp inside
    obtain ⟨entry, there, rfl⟩ := List.mem_map.mp value
    have named := indexed.named (Dict.get?_eq_some.mpr there)
    have found : some entry.2 = some bullet := by
      rw [← Dict.get?_eq_some.mpr there, ← Dict.get?_eq_some.mpr listed, ← named, same]
    cases found
    rw [invalid] at active
    cases active

end Removal

section Result

variable {Score Days : Type*} [LinearOrder Score] [LinearOrder Days]

/-- **Pruning keeps the best bullets.** With the index in order, what is pruned has at most as many active
bullets as the policy allows, and is as before if there were no more of them. If there were, no disposable one
is left, as many of the others are left as there is room for, and those that go rank no higher than those that
stay. What is not active stays, and the result tells how many have gone. -/
theorem prune_keeps_best (playbook : Playbook) (indexed : playbook.Indexed) (maxBullets : ℤ) (bounded : 0 ≤ maxBullets)
    (coldAfterDays : Days) (daysSince : String → Days) (keepScore : Bullet → Score) (now : String)
    (policy : RetentionPolicy) (isPolicy : policy = retentionPolicy maxBullets coldAfterDays daysSince keepScore) :
    ((playbook.prune policy now).active.length : ℤ) ≤ maxBullets ∧
      ((playbook.active.length : ℤ) ≤ maxBullets →
        playbook.prune policy now = playbook ∧ playbook.pruned policy = 0) ∧
      (maxBullets < (playbook.active.length : ℤ) →
        (∀ bullet ∈ (playbook.prune policy now).active,
          bullet ∈ playbook.active ∧ isDisposable coldAfterDays daysSince bullet = false) ∧
        ((playbook.prune policy now).active.length : ℤ) =
          min maxBullets
            (playbook.active.filter fun bullet => !isDisposable coldAfterDays daysSince bullet).length ∧
        ∀ removed ∈ playbook.active, removed ∉ (playbook.prune policy now).active →
          isDisposable coldAfterDays daysSince removed = false →
            ∀ kept ∈ (playbook.prune policy now).active, ranksBelow keepScore removed kept) ∧
      (∀ id bullet, bullet.status = .invalid →
        ((playbook.prune policy now).bullets.get? id = some bullet ↔ playbook.bullets.get? id = some bullet)) ∧
      playbook.pruned policy + (playbook.prune policy now).active.length = playbook.active.length := by
  have distinct := indexed.distinct_active
  have limit : policy.maxBullets = maxBullets := congrArg RetentionPolicy.maxBullets isPolicy
  have disposable : policy.isDisposable = isDisposable coldAfterDays daysSince :=
    congrArg RetentionPolicy.isDisposable isPolicy
  have unchanged : (playbook.active.length : ℤ) ≤ maxBullets →
      playbook.prune policy now = playbook ∧ playbook.pruned policy = 0 := by
    intro within
    rw [← limit] at within
    exact ⟨if_pos within, if_pos within⟩
  have changed : maxBullets < (playbook.active.length : ℤ) →
      (playbook.prune policy now).active =
        playbook.active.filter (fun bullet => bullet.id ∉ policy.evicted playbook.active) ∧
      playbook.pruned policy = (policy.evicted playbook.active).length := by
    intro excess
    rw [← limit] at excess
    exact ⟨active_prune indexed excess, if_neg (not_le.mpr excess)⟩
  have perm := @perm_left policy playbook.active distinct
  have left : maxBullets < (playbook.active.length : ℤ) →
      ((playbook.prune policy now).active.length : ℤ) = min maxBullets (policy.survivors playbook.active).length := by
    intro excess
    rw [(changed excess).1, perm.length_eq, List.length_drop, List.length_mergeSort, limit]
    omega
  refine ⟨?_, unchanged, ?_, fun id bullet invalid => get?_prune_invalid indexed policy invalid, ?_⟩
  · rcases le_or_gt (playbook.active.length : ℤ) maxBullets with within | excess
    · rw [(unchanged within).1]
      exact within
    · rw [left excess]
      exact min_le_left _ _
  · intro excess
    refine ⟨?_, ?_, ?_⟩
    · intro bullet kept
      rw [(changed excess).1] at kept
      have listed := (List.mem_filter.mp kept).1
      rw [left_eq distinct] at kept
      have survivor := (List.mem_filter.mp (List.mem_filter.mp kept).1).2
      rw [Bool.not_eq_true', disposable] at survivor
      exact ⟨listed, survivor⟩
    · rw [left excess, ← disposable]
      rfl
    · intro removed listed gone useful kept stays
      rw [(changed excess).1] at gone stays
      have sorted := pairwise_ranked keepScore (policy.survivors playbook.active)
      have order : policy.goesBefore = fun first second => decide (ranksBelow keepScore first second) :=
        congrArg RetentionPolicy.goesBefore isPolicy
      rw [← order] at sorted
      have low : removed ∈ policy.lowest playbook.active := by
        have survivor : removed ∈ policy.survivors playbook.active := by
          apply List.mem_filter.mpr
          rw [disposable, useful]
          exact ⟨listed, rfl⟩
        rw [perm.mem_iff] at gone
        have inside := (List.mergeSort_perm (policy.survivors playbook.active) policy.goesBefore).mem_iff.mpr survivor
        rw [← List.take_append_drop (((policy.survivors playbook.active).length : ℤ) - policy.maxBullets).toNat
          ((policy.survivors playbook.active).mergeSort policy.goesBefore)] at inside
        exact (List.mem_append.mp inside).resolve_right gone
      exact rel_take_drop sorted low (perm.mem_iff.mp stays)
  · rcases le_or_gt (playbook.active.length : ℤ) maxBullets with within | excess
    · rw [(unchanged within).1, (unchanged within).2, Nat.zero_add]
    · rw [(changed excess).1, (changed excess).2]
      exact length_evicted distinct

/-- Two bullets, one of them disposable, for a policy that allows one. -/
def sampleBullets : Playbook :=
  (Playbook.empty.addBullet "tools" "check" none [(.helpful, 2)] "1").addBullet "tools" "guess" none [(.harmful, 1)] "2"

theorem prune_keeps_best_sample :
    ((sampleBullets.prune (retentionPolicy 1 (0 : ℤ) (fun _ => 0) Bullet.helpful) "3").active.length : ℤ) ≤ 1 ∧
      sampleBullets.pruned (retentionPolicy 1 (0 : ℤ) (fun _ => 0) Bullet.helpful) +
        (sampleBullets.prune (retentionPolicy 1 (0 : ℤ) (fun _ => 0) Bullet.helpful) "3").active.length = 2 ∧
      ∀ bullet ∈ (sampleBullets.prune (retentionPolicy 1 (0 : ℤ) (fun _ => 0) Bullet.helpful) "3").active,
        bullet ∈ sampleBullets.active ∧ isDisposable (0 : ℤ) (fun _ => 0) bullet = false := by
  have indexed : sampleBullets.Indexed := by
    have first : (Playbook.empty.addBullet "tools" "check" none [(.helpful, 2)] "1").Indexed :=
      Playbook.Indexed.addBullet "check" "1" [(.helpful, 2)] indexed_empty rfl
    exact Playbook.Indexed.addBullet "guess" "2" [(.harmful, 1)] first (by decide)
  obtain ⟨few, -, pruned, -, count⟩ := prune_keeps_best sampleBullets indexed 1 (by decide) (0 : ℤ) (fun _ => 0)
    Bullet.helpful "3" _ rfl
  exact ⟨few, count, (pruned (by decide)).1⟩

end Result

end Sico.Playbooks

import Mathlib.Data.Prod.Lex
import Mathlib.Data.String.Basic
import Sico.Foundation.Orders
import Sico.TaskRuntime.Environments

/-! # Candidates of a collection

What a pass collects is what has been idle or failed for long enough and, where there is a quota, the least
recently used environments that are not leased, as few of them as bring the total size within the quota.
The loop that finds them keeps what remains of the total and passes over what is leased.
-/

namespace Sico.TaskRuntime.Environments

open Foundation

section Quota

variable {policy : PreparedEnvironmentGCPolicy} {now : ℤ}

def isUnleased (now : ℤ) (entry : String × PreparedEnvironmentRecord) : Bool :=
  (activeLeases entry.2 now).entries = []

def imageBytes (entries : List (String × PreparedEnvironmentRecord)) : ℤ :=
  (entries.map fun entry => entry.2.imageSizeBytes).sum

theorem imageBytes_cons (entry : String × PreparedEnvironmentRecord) (entries : List (String × PreparedEnvironmentRecord)) :
    imageBytes (entry :: entries) = entry.2.imageSizeBytes + imageBytes entries := by
  unfold imageBytes
  rw [List.map_cons, List.sum_cons]

/-- A number of entries is the least that brings a total within the quota when they are removed, or all
entries do not. -/
structure IsShortest (policy : PreparedEnvironmentGCPolicy) (total : ℤ)
    (entries : List (String × PreparedEnvironmentRecord)) (count : ℕ) : Prop where
  bounded : count ≤ entries.length
  needed : ∀ fewer < count, policy.quotaBytes < total - imageBytes (entries.take fewer)
  enough : total - imageBytes (entries.take count) ≤ policy.quotaBytes ∨ count = entries.length

theorem overQuota_shortest (positive : 0 < policy.quotaBytes) (remaining : ℤ)
    (entries : List (String × PreparedEnvironmentRecord)) :
    ∃ count, IsShortest policy remaining (entries.filter (isUnleased now)) count ∧
      overQuota policy now remaining entries = ((entries.filter (isUnleased now)).take count).map Prod.fst := by
  induction entries generalizing remaining with
  | nil => exact ⟨0, ⟨Nat.le_refl 0, fun _ fewer => absurd fewer (Nat.not_lt_zero _), .inr rfl⟩, rfl⟩
  | cons entry rest ih =>
      obtain ⟨key, record⟩ := entry
      rw [overQuota]
      by_cases within : remaining ≤ policy.quotaBytes
      · rw [if_pos (.inr within)]
        refine ⟨0, ⟨Nat.zero_le _, fun _ fewer => absurd fewer (Nat.not_lt_zero _), .inl ?_⟩, rfl⟩
        rw [List.take_zero]
        exact (sub_zero remaining).le.trans within
      · rw [if_neg (not_or.mpr ⟨positive.ne', within⟩)]
        by_cases leased : (activeLeases record now).entries ≠ []
        · have passed : isUnleased now (key, record) = false := decide_eq_false leased
          rw [if_pos leased, List.filter_cons_of_neg (by rw [passed]; decide)]
          exact ih remaining
        · have kept : isUnleased now (key, record) = true := decide_eq_true (not_not.mp leased)
          rw [if_neg leased, List.filter_cons_of_pos kept]
          obtain ⟨count, shortest, same⟩ := ih (remaining - record.imageSizeBytes)
          refine ⟨count + 1, ⟨Nat.succ_le_succ shortest.bounded, ?_, ?_⟩, ?_⟩
          · intro fewer less
            cases fewer with
            | zero =>
                rw [List.take_zero]
                exact (not_le.mp within).trans_le (sub_zero remaining).ge
            | succ fewer =>
                have before := shortest.needed fewer (Nat.lt_of_succ_lt_succ less)
                rw [List.take_succ_cons, imageBytes_cons, ← sub_sub]
                exact before
          · rw [List.take_succ_cons, imageBytes_cons, ← sub_sub, List.length_cons]
            exact shortest.enough.imp_right (congrArg Nat.succ)
          · rw [List.take_succ_cons, List.map_cons, same]

theorem overQuota_zero (none_ : policy.quotaBytes = 0) (remaining : ℤ)
    (entries : List (String × PreparedEnvironmentRecord)) : overQuota policy now remaining entries = [] := by
  cases entries with
  | nil => rfl
  | cons entry rest => rw [overQuota, if_pos (.inl none_)]

end Quota

section Candidates

/-- Whether an entry is used no later than another one, by the key where they are used at the same time. -/
def usedBefore (first second : String × PreparedEnvironmentRecord) : Prop :=
  usedAt first.2 < usedAt second.2 ∨ usedAt first.2 = usedAt second.2 ∧ first.1 ≤ second.1

instance : DecidableRel usedBefore := fun _ _ => inferInstanceAs (Decidable (_ ∨ _))

/-- The entries that are ready, in the order of their last use. -/
def byUse (records : List (String × PreparedEnvironmentRecord)) : List (String × PreparedEnvironmentRecord) :=
  (records.filter fun entry => entry.2.state = .ready).mergeSort fun first second => usedBefore first second

theorem pairwise_byUse (records : List (String × PreparedEnvironmentRecord)) : (byUse records).Pairwise usedBefore := by
  apply pairwise_mergeSort_key fun entry => toLex (usedAt entry.2, entry.1)
  intro first second
  rw [Prod.Lex.toLex_le_toLex]
  rfl

theorem perm_byUse (records : List (String × PreparedEnvironmentRecord)) :
    (byUse records).Perm (records.filter fun entry => entry.2.state = .ready) := List.mergeSort_perm _ _

theorem mem_gcCandidates {policy : PreparedEnvironmentGCPolicy} {records : List (String × PreparedEnvironmentRecord)}
    {now : ℤ} {key : String} :
    key ∈ gcCandidates policy records now ↔
      (∃ entry ∈ records, isAged policy entry.2 now = true ∧ entry.1 = key) ∨
        key ∈ overQuota policy now (imageBytes (records.filter fun entry => entry.2.state = .ready)) (byUse records) := by
  unfold gcCandidates
  dsimp only
  rw [List.mem_mergeSort, List.mem_eraseDups, List.mem_append]
  apply or_congr
  · rw [List.mem_map]
    constructor
    · rintro ⟨entry, listed, same⟩
      obtain ⟨inside, aged⟩ := List.mem_filter.mp listed
      exact ⟨entry, inside, aged, same⟩
    · rintro ⟨entry, inside, aged, same⟩
      exact ⟨entry, List.mem_filter.mpr ⟨inside, aged⟩, same⟩
  · rfl

end Candidates

/-- **Collection is least recently used and minimal.** Beside what has been idle or failed for long enough, the
candidates are the shortest start, in the order of the last use and the key, of what is ready and not leased
that brings the total size within the quota; and nothing else where there is no quota. -/
theorem gcCandidates_minimal (policy : PreparedEnvironmentGCPolicy)
    (records : List (String × PreparedEnvironmentRecord)) (now : ℤ) :
    (policy.quotaBytes = 0 → ∀ key, key ∈ gcCandidates policy records now ↔
        ∃ entry ∈ records, isAged policy entry.2 now = true ∧ entry.1 = key) ∧
      (0 < policy.quotaBytes → ∃ order count,
        order.Perm (records.filter fun entry => entry.2.state = .ready && isUnleased now entry) ∧
        order.Pairwise usedBefore ∧
        IsShortest policy (imageBytes (records.filter fun entry => entry.2.state = .ready)) order count ∧
        ∀ key, key ∈ gcCandidates policy records now ↔
          (∃ entry ∈ records, isAged policy entry.2 now = true ∧ entry.1 = key) ∨
            key ∈ (order.take count).map Prod.fst) := by
  constructor
  · intro none_ key
    rw [mem_gcCandidates, overQuota_zero none_]
    exact or_iff_left List.not_mem_nil
  · intro positive
    obtain ⟨count, shortest, same⟩ := @overQuota_shortest policy now positive
      (imageBytes (records.filter fun entry => entry.2.state = .ready)) (byUse records)
    refine ⟨(byUse records).filter (isUnleased now), count, ?_, ?_, shortest, ?_⟩
    · have perm := (perm_byUse records).filter (isUnleased now)
      rw [List.filter_filter] at perm
      refine perm.trans (List.Perm.of_eq (List.filter_congr fun entry _ => ?_))
      exact Bool.and_comm _ _
    · exact (pairwise_byUse records).filter _
    · intro key
      rw [mem_gcCandidates, same]

/-- Three environments of ten bytes each, one of them leased, for a quota of fifteen. -/
def sampleRecords : List (String × PreparedEnvironmentRecord) :=
  [("a", { state := .ready, imageSizeBytes := 10, createdAt := 1, updatedAt := 9 }),
    ("b", { state := .ready, imageSizeBytes := 10, createdAt := 1, updatedAt := 5, leases := Dict.empty.set "run" 100 }),
    ("c", { state := .ready, imageSizeBytes := 10, createdAt := 1, updatedAt := 7 })]

def samplePolicy : PreparedEnvironmentGCPolicy :=
  { idleTTLSeconds := 60, failedTTLSeconds := 60, buildTTLSeconds := 60, deleteGraceSeconds := 1, quotaBytes := 15 }

theorem gcCandidates_minimal_sample :
    ∃ order count,
      order.Perm (sampleRecords.filter fun entry => entry.2.state = .ready && isUnleased 10 entry) ∧
      order.Pairwise usedBefore ∧
      IsShortest samplePolicy (imageBytes (sampleRecords.filter fun entry => entry.2.state = .ready)) order count ∧
      ∀ key, key ∈ gcCandidates samplePolicy sampleRecords 10 ↔
        (∃ entry ∈ sampleRecords, isAged samplePolicy entry.2 10 = true ∧ entry.1 = key) ∨
          key ∈ (order.take count).map Prod.fst :=
  (gcCandidates_minimal samplePolicy sampleRecords 10).2 (by decide)

end Sico.TaskRuntime.Environments

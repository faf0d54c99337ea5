import Mathlib.Data.List.Nodup
import Mathlib.Data.List.Sort

/-! # Lists put in order

What is put in order by the keys of its elements stands in the order of these. With distinct keys it is increasing,
and a list that is increasing is told by its elements.
-/

namespace Foundation

variable {Value Key : Type*} [LinearOrder Key]

theorem pairwise_mergeSort_key (key : Value → Key) {before : Value → Value → Prop} [DecidableRel before]
    (told : ∀ first second, before first second ↔ key first ≤ key second) (values : List Value) :
    (values.mergeSort fun first second => before first second).Pairwise before := by
  refine (List.pairwise_mergeSort ?_ ?_ values).imp of_decide_eq_true
  · intro first second third one two
    rw [decide_eq_true_iff, told] at one two ⊢
    exact one.trans two
  · intro first second
    rw [Bool.or_eq_true, decide_eq_true_iff, decide_eq_true_iff, told, told]
    exact le_total _ _

def Increasing (key : Value → Key) (values : List Value) : Prop :=
  values.Pairwise fun first second => key first < key second

theorem increasing_mergeSort (key : Value → Key) {values : List Value} (distinct : (values.map key).Nodup) :
    Increasing key (values.mergeSort fun first second => key first ≤ key second) := by
  have sorted : (values.mergeSort fun first second => key first ≤ key second).Pairwise
      fun first second => key first ≤ key second := pairwise_mergeSort_key key (fun _ _ => Iff.rfl) values
  have apart : (values.mergeSort fun first second => key first ≤ key second).Pairwise
      fun first second => key first ≠ key second := by
    rw [← List.pairwise_map]
    exact ((List.mergeSort_perm values _).map key).nodup_iff.mpr distinct
  exact (sorted.and apart).imp fun before => lt_of_le_of_ne before.1 before.2

theorem eq_of_increasing {key : Value → Key} {first second : List Value}
    (increasing : Increasing key first) (alsoIncreasing : Increasing key second) (perm : first.Perm second) :
    first = second := by
  refine perm.eq_of_pairwise ?_ increasing alsoIncreasing
  intro one two _ _ less more
  exact absurd less (lt_asymm more)

end Foundation

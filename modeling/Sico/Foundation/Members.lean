import Mathlib.Algebra.GroupWithZero.Nat
import Mathlib.Algebra.Order.BigOperators.Group.List
import Mathlib.Algebra.Order.Group.Nat
import Sico.Foundation.Basic

/-! # Members of an object

The members of an object in their order. A name that is repeated is read where it first stands, and
what is written replaces it there or else stands at the end.
-/

namespace Foundation

theorem sum_filter_add_le {Value : Type*} {values : List Value} {value : Value} (weight : Value → ℕ)
    (test : Value → Bool) (listed : value ∈ values) (dropped : test value = false) :
    ((values.filter test).map weight).sum + weight value ≤ (values.map weight).sum := by
  induction values with
  | nil => cases listed
  | cons first rest ih =>
      have fewer : ((rest.filter test).map weight).sum ≤ (rest.map weight).sum :=
        (List.filter_sublist.map weight).sum_le_sum fun _ _ => Nat.zero_le _
      rw [List.filter_cons, List.map_cons, List.sum_cons]
      rcases List.mem_cons.mp listed with same | later
      · subst same
        rw [if_neg (by rw [dropped]; exact Bool.false_ne_true)]
        omega
      · have before := ih later
        split
        · rw [List.map_cons, List.sum_cons]
          omega
        · omega

namespace Members

variable {Value : Type*}

def get? (members : List (String × Value)) (name : String) : Option Value :=
  (members.find? fun member => member.1 = name).map Prod.snd

def put : List (String × Value) → String → Value → List (String × Value)
  | [], name, value => [(name, value)]
  | member :: rest, name, value =>
      if member.1 = name then (name, value) :: rest else member :: put rest name value

/-- The members of the second written over those of the first. -/
def update (first second : List (String × Value)) : List (String × Value) :=
  second.foldl (fun written member => put written member.1 member.2) first

/-- Written only where the name is not there. -/
def setDefault (members : List (String × Value)) (name : String) (value : Value) : List (String × Value) :=
  if (get? members name).isSome then members else put members name value

def without (members : List (String × Value)) (name : String) : List (String × Value) :=
  members.filter fun member => member.1 ≠ name

section Reading

variable {members first second : List (String × Value)} {name other : String} {value held : Value}
  {member : String × Value}

theorem get?_cons (member : String × Value) (rest : List (String × Value)) (name : String) :
    get? (member :: rest) name = if member.1 = name then some member.2 else get? rest name := by
  unfold get?
  rw [List.find?_cons]
  by_cases same : member.1 = name
  · simp [same]
  · simp [same]

theorem mem_of_get? (reads : get? members name = some value) : (name, value) ∈ members := by
  obtain ⟨member, found, rfl⟩ := Option.map_eq_some_iff.mp reads
  have listed := List.mem_of_find?_eq_some found
  have same := List.find?_some found
  rw [decide_eq_true_eq] at same
  exact same ▸ listed

theorem get?_eq_none : get? members name = none ↔ ∀ member ∈ members, member.1 ≠ name := by
  unfold get?
  rw [Option.map_eq_none_iff, List.find?_eq_none]
  simp only [decide_eq_true_eq, ne_eq]

theorem get?_put (members : List (String × Value)) (name other : String) (value : Value) :
    get? (put members name value) other = if name = other then some value else get? members other := by
  induction members with
  | nil => rw [put, get?_cons]
  | cons member rest ih =>
      rw [put]
      split
      · next same =>
          rw [get?_cons, get?_cons, same]
          split <;> rfl
      · next different =>
          rw [get?_cons, get?_cons, ih]
          by_cases here : member.1 = other
          · rw [if_pos here, if_pos here, if_neg fun same => different (here.trans same.symm)]
          · rw [if_neg here, if_neg here]

theorem mem_put (listed : member ∈ put members name value) : member ∈ members ∨ member = (name, value) := by
  induction members with
  | nil => exact .inr (List.mem_singleton.mp listed)
  | cons earlier rest ih =>
      rw [put] at listed
      split at listed
      · rcases List.mem_cons.mp listed with new | later
        · exact .inr new
        · exact .inl (List.mem_cons_of_mem _ later)
      · rcases List.mem_cons.mp listed with same | later
        · exact .inl (same ▸ List.mem_cons_self)
        · rcases ih later with there | new
          · exact .inl (List.mem_cons_of_mem _ there)
          · exact .inr new

theorem mem_update (listed : member ∈ update first second) : member ∈ first ∨ member ∈ second := by
  induction second generalizing first with
  | nil => exact .inl listed
  | cons new rest ih =>
      rcases ih listed with earlier | later
      · rcases mem_put earlier with there | same
        · exact .inl there
        · exact .inr (same ▸ List.mem_cons_self)
      · exact .inr (List.mem_cons_of_mem _ later)

theorem get?_setDefault (members : List (String × Value)) (name other : String) (value : Value) :
    get? (setDefault members name value) other =
      if name = other then some ((get? members name).getD value) else get? members other := by
  unfold setDefault
  split
  · next there =>
      obtain ⟨held, same⟩ := Option.isSome_iff_exists.mp there
      split
      · next equal => rw [← equal, same, Option.getD_some]
      · rfl
  · next absent =>
      rw [get?_put, Option.not_isSome_iff_eq_none.mp absent, Option.getD_none]

theorem get?_without (members : List (String × Value)) (name other : String) :
    get? (without members name) other = if name = other then none else get? members other := by
  induction members with
  | nil => simp [without, get?]
  | cons member rest ih =>
      unfold without at ih ⊢
      rw [List.filter_cons]
      by_cases same : member.1 = name
      · rw [if_neg (by simp [same]), ih, get?_cons, same]
        split <;> rfl
      · rw [if_pos (by simp [same]), get?_cons, get?_cons, ih]
        by_cases here : member.1 = other
        · rw [if_pos here, if_pos here, if_neg fun equal => same (here.trans equal.symm)]
        · rw [if_neg here, if_neg here]

theorem without_eq_self (absent : get? members name = none) : without members name = members := by
  refine List.filter_eq_self.mpr fun member listed => ?_
  rw [decide_eq_true_eq]
  exact get?_eq_none.mp absent member listed

theorem get?_filter (test : String → Bool) (kept : test name = true) :
    get? (members.filter fun member => test member.1) name = get? members name := by
  induction members with
  | nil => rfl
  | cons member rest ih =>
      rw [List.filter_cons, get?_cons]
      by_cases same : member.1 = name
      · rw [if_pos (by rw [same, kept]), get?_cons, if_pos same, if_pos same]
      · rw [if_neg same]
        split
        · rw [get?_cons, if_neg same, ih]
        · exact ih

theorem put_ne_nil (members : List (String × Value)) (name : String) (value : Value) : put members name value ≠ [] := by
  cases members with
  | nil => exact List.cons_ne_nil _ _
  | cons member rest =>
      rw [put]
      split <;> exact List.cons_ne_nil _ _

theorem put_get? (reads : get? members name = some value) : put members name value = members := by
  induction members with
  | nil => cases reads
  | cons member rest ih =>
      rw [get?_cons] at reads
      rw [put]
      by_cases same : member.1 = name
      · rw [if_pos same] at reads
        rw [if_pos same, ← Option.some.inj reads, ← same]
      · rw [if_neg same] at reads
        rw [if_neg same, ih reads]

end Reading

section Distinct

variable {members : List (String × Value)} {name : String} {value : Value}

theorem map_fst_put (members : List (String × Value)) (name : String) (value : Value) :
    (put members name value).map Prod.fst =
      if name ∈ members.map Prod.fst then members.map Prod.fst else members.map Prod.fst ++ [name] := by
  induction members with
  | nil => rfl
  | cons member rest ih =>
      rw [put]
      by_cases same : member.1 = name
      · rw [if_pos same, List.map_cons, List.map_cons, same, if_pos List.mem_cons_self]
      · have other : name ≠ member.1 := Ne.symm same
        rw [if_neg same, List.map_cons, ih, List.map_cons]
        by_cases later : name ∈ rest.map Prod.fst
        · rw [if_pos later, if_pos (List.mem_cons_of_mem _ later)]
        · rw [if_neg later, if_neg (by simp [other, later]), List.cons_append]

theorem nodup_put (distinct : (members.map Prod.fst).Nodup) (name : String) (value : Value) :
    ((put members name value).map Prod.fst).Nodup := by
  rw [map_fst_put]
  split
  · exact distinct
  · next absent =>
      refine List.nodup_append.mpr ⟨distinct, by simp, ?_⟩
      intro first inside second also same
      exact absent ((same.trans (List.mem_singleton.mp also)) ▸ inside)

theorem nodup_filter (distinct : (members.map Prod.fst).Nodup) (test : String × Value → Bool) :
    ((members.filter test).map Prod.fst).Nodup := distinct.sublist (List.filter_sublist.map Prod.fst)

theorem get?_of_mem (distinct : (members.map Prod.fst).Nodup) (listed : (name, value) ∈ members) :
    get? members name = some value := by
  induction members with
  | nil => cases listed
  | cons member rest ih =>
      rw [List.map_cons, List.nodup_cons] at distinct
      rw [get?_cons]
      rcases List.mem_cons.mp listed with same | later
      · rw [← same, if_pos rfl]
      · have other : member.1 ≠ name := fun same => distinct.1 (List.mem_map.mpr ⟨_, later, same.symm⟩)
        rw [if_neg other, ih distinct.2 later]

theorem get?_eq_some (distinct : (members.map Prod.fst).Nodup) :
    get? members name = some value ↔ (name, value) ∈ members := ⟨mem_of_get?, get?_of_mem distinct⟩

theorem get?_perm {other : List (String × Value)} (perm : members.Perm other)
    (distinct : (members.map Prod.fst).Nodup) (name : String) : get? members name = get? other name := by
  have alsoDistinct := (perm.map Prod.fst).nodup_iff.mp distinct
  apply Option.ext
  intro value
  rw [get?_eq_some distinct, get?_eq_some alsoDistinct, perm.mem_iff]

theorem get?_filter_nodup (distinct : (members.map Prod.fst).Nodup) (test : String × Value → Bool) (name : String) :
    get? (members.filter test) name = (get? members name).filter fun value => test (name, value) := by
  induction members with
  | nil => rfl
  | cons member rest ih =>
      obtain ⟨title, held⟩ := member
      rw [List.map_cons, List.nodup_cons] at distinct
      rw [List.filter_cons, get?_cons]
      by_cases same : title = name
      · subst same
        have absent : get? rest title = none := get?_eq_none.mpr fun member inside same =>
          distinct.1 (List.mem_map.mpr ⟨member, inside, same⟩)
        rw [if_pos rfl]
        by_cases passes : test (title, held) = true
        · rw [if_pos passes, get?_cons, if_pos rfl, Option.filter_some, if_pos passes]
        · rw [if_neg passes, ih distinct.2, absent, Option.filter_some, if_neg passes]
          rfl
      · rw [if_neg same]
        split
        · rw [get?_cons, if_neg same, ih distinct.2]
        · exact ih distinct.2

/-- The members with these names, each with its value where it has one. -/
def ofNames (names : List String) (field : String → Option Value) : List (String × Value) :=
  names.filterMap fun name => (field name).map fun value => (name, value)

theorem get?_ofNames (names : List String) (field : String → Option Value) (name : String) :
    get? (ofNames names field) name = if name ∈ names then field name else none := by
  unfold ofNames
  induction names with
  | nil => rfl
  | cons first rest ih =>
      rw [List.filterMap_cons]
      cases held : field first with
      | none =>
          rw [Option.map_none]
          dsimp only
          rw [ih]
          by_cases same : name = first
          · subst same
            rw [if_pos List.mem_cons_self, held]
            split <;> rfl
          · exact if_congr (by rw [List.mem_cons, or_iff_right same]) rfl rfl
      | some value =>
          rw [Option.map_some]
          dsimp only
          rw [get?_cons]
          by_cases same : first = name
          · subst same
            rw [if_pos rfl, if_pos List.mem_cons_self, held]
          · rw [if_neg same, ih]
            exact if_congr (by rw [List.mem_cons, or_iff_right (Ne.symm same)]) rfl rfl

theorem ofNames_congr {names : List String} {field other : String → Option Value}
    (same : ∀ name ∈ names, field name = other name) : ofNames names field = ofNames names other :=
  List.filterMap_congr fun name inside => by rw [same name inside]

theorem put_ofNames {names : List String} (distinct : names.Nodup) {field : String → Option Value} {name : String}
    (there : (get? (ofNames names field) name).isSome) (value : Value) :
    put (ofNames names field) name value = ofNames names (Function.update field name (some value)) := by
  unfold ofNames at *
  induction names with
  | nil => cases there
  | cons first rest ih =>
      rw [List.nodup_cons] at distinct
      rw [List.filterMap_cons] at there
      rw [List.filterMap_cons, List.filterMap_cons]
      by_cases same : first = name
      · subst same
        have others : rest.filterMap (fun name => (Function.update field first (some value) name).map fun value =>
            (name, value)) = rest.filterMap fun name => (field name).map fun value => (name, value) := by
          refine List.filterMap_congr fun name inside => ?_
          have other : name ≠ first := fun same => distinct.1 (same ▸ inside)
          rw [Function.update_of_ne other]
        cases held : field first with
        | none =>
            rw [held] at there
            have absent := get?_ofNames rest field first
            rw [if_neg distinct.1] at absent
            unfold ofNames at absent
            rw [Option.map_none] at there
            dsimp only at there
            rw [absent] at there
            cases there
        | some old =>
            rw [Function.update_self, others, Option.map_some, Option.map_some]
            dsimp only
            rw [put, if_pos rfl]
      · rw [Function.update_of_ne same]
        cases held : field first with
        | none =>
            rw [held] at there
            exact ih distinct.2 there
        | some old =>
            rw [held, Option.map_some] at there
            dsimp only at there
            rw [get?_cons, if_neg same] at there
            rw [Option.map_some]
            dsimp only
            rw [put, if_neg same, ih distinct.2 there]

end Distinct

section Everywhere

variable {property : String × Value → Prop} {members first second : List (String × Value)} {name : String}
  {value : Value}

theorem forall_put (all : ∀ member ∈ members, property member) (new : property (name, value)) :
    ∀ member ∈ put members name value, property member := by
  intro member listed
  rcases mem_put listed with earlier | rfl
  · exact all member earlier
  · exact new

theorem forall_setDefault (all : ∀ member ∈ members, property member) (new : property (name, value)) :
    ∀ member ∈ setDefault members name value, property member := by
  unfold setDefault
  split
  · exact all
  · exact forall_put all new

theorem forall_update (all : ∀ member ∈ first, property member) (new : ∀ member ∈ second, property member) :
    ∀ member ∈ update first second, property member := by
  intro member listed
  rcases mem_update listed with earlier | later
  · exact all member earlier
  · exact new member later

theorem forall_without (all : ∀ member ∈ members, property member) (name : String) :
    ∀ member ∈ without members name, property member :=
  fun member listed => all member (List.mem_of_mem_filter listed)

end Everywhere

section Weight

variable (weight : String × Value → ℕ) (members first second : List (String × Value)) (name : String) (value : Value)

theorem sum_put_le : ((put members name value).map weight).sum ≤ (members.map weight).sum + weight (name, value) := by
  induction members with
  | nil => simp [put]
  | cons member rest ih =>
      rw [put]
      split
      · simp only [List.map_cons, List.sum_cons]
        omega
      · simp only [List.map_cons, List.sum_cons]
        omega

theorem sum_update_le : ((update first second).map weight).sum ≤ (first.map weight).sum + (second.map weight).sum := by
  induction second generalizing first with
  | nil => exact Nat.le_add_right _ _
  | cons member rest ih =>
      have written := sum_put_le weight first member.1 member.2
      have later := ih (put first member.1 member.2)
      change ((update (put first member.1 member.2) rest).map weight).sum ≤ _
      simp only [Prod.mk.eta] at written
      rw [List.map_cons, List.sum_cons]
      omega

theorem sum_without_le {members : List (String × Value)} {name : String} {value : Value}
    (listed : (name, value) ∈ members) :
    ((without members name).map weight).sum + weight (name, value) ≤ (members.map weight).sum :=
  sum_filter_add_le weight _ listed (decide_eq_false (not_not.mpr rfl))

end Weight

end Members

end Foundation

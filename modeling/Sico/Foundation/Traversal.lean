import Mathlib.Data.List.Forall2
import Sico.Foundation.Basic

/-! # Traversals

A list that is traversed by a fallible function comes out in step with what went in. An entry is found
by its key where the keys are distinct. The occurrences of an element are told apart by their numbers.
-/

namespace Foundation

section Traversal

universe u

variable {Error : Type*} {Value : Type*} {Result : Type u}

theorem mapM_eq_ok {step : Value → Except Error Result} {values : List Value} {results : List Result} :
    values.mapM step = .ok results ↔
      List.Forall₂ (fun value result => step value = .ok result) values results := by
  induction values generalizing results with
  | nil =>
      rw [List.mapM_nil, List.forall₂_nil_left_iff]
      constructor
      · intro same
        cases same
        rfl
      · rintro rfl
        rfl
  | cons value rest ih =>
      rw [List.mapM_cons, bind_eq_ok, List.forall₂_cons_left_iff]
      constructor
      · rintro ⟨result, stepped, others⟩
        obtain ⟨results', traversed, same⟩ := bind_eq_ok.mp others
        cases same
        exact ⟨result, results', stepped, ih.mp traversed, rfl⟩
      · rintro ⟨result, results', stepped, traversed, rfl⟩
        exact ⟨result, stepped, bind_eq_ok.mpr ⟨results', ih.mpr traversed, rfl⟩⟩

theorem exists_mapM {step : Value → Except Error Result} {values : List Value}
    (total : ∀ value ∈ values, ∃ result, step value = .ok result) : ∃ results, values.mapM step = .ok results := by
  simp only [mapM_eq_ok]
  induction values with
  | nil => exact ⟨[], .nil⟩
  | cons value rest ih =>
      obtain ⟨⟨result, stepped⟩, others⟩ := List.forall_mem_cons.mp total
      obtain ⟨results, traversed⟩ := ih others
      exact ⟨result :: results, .cons stepped traversed⟩

theorem map_eq_of_forall₂ {Key : Type*} {values : List Value} {results : List Result} {first : Value → Key}
    {second : Result → Key} (same : List.Forall₂ (fun value result => first value = second result) values results) :
    values.map first = results.map second := by
  rw [← List.forall₂_eq_eq_eq, List.forall₂_map_left_iff, List.forall₂_map_right_iff]
  exact same

theorem exists_partner {related : Value → Result → Prop} {values : List Value} {results : List Result}
    (steps : List.Forall₂ related values results) {result : Result} (inside : result ∈ results) :
    ∃ value ∈ values, related value result := by
  induction steps with
  | nil => cases inside
  | cons step _ ih =>
      rcases List.mem_cons.mp inside with rfl | later
      · exact ⟨_, List.mem_cons_self, step⟩
      · obtain ⟨value, there, step⟩ := ih later
        exact ⟨value, List.mem_cons_of_mem _ there, step⟩

section Images

variable {Image : Type*} {related : Value → Result → Prop} {holds : Value → Image → Prop} {step : Result → Option Image}
  {values : List Value} {results : List Result}

theorem forall₂_filterMap (steps : List.Forall₂ related values results)
    (each : ∀ value ∈ values, ∀ result, related value result → ∃ image, step result = some image ∧ holds value image) :
    List.Forall₂ holds values (results.filterMap step) := by
  induction steps with
  | nil => exact .nil
  | cons first _ ih =>
      obtain ⟨here, others⟩ := List.forall_mem_cons.mp each
      obtain ⟨image, found, kept⟩ := here _ first
      rw [List.filterMap_cons_some found]
      exact .cons kept (ih others)

theorem image_of_forall₂_filterMap (steps : List.Forall₂ related values results)
    (images : List.Forall₂ holds values (results.filterMap step)) {value : Value} (inside : value ∈ values) :
    ∃ result image, related value result ∧ step result = some image ∧ holds value image := by
  induction steps with
  | nil => cases inside
  | @cons value' result' others results' first rest ih =>
      cases found : step result' with
      | none =>
          rw [List.filterMap_cons_none found] at images
          have long := images.length_eq
          have short : (results'.filterMap step).length ≤ results'.length := List.length_filterMap_le _ _
          rw [← rest.length_eq, ← long, List.length_cons] at short
          omega
      | some image =>
          rw [List.filterMap_cons_some found] at images
          cases images with
          | cons kept later =>
              rcases List.mem_cons.mp inside with rfl | there
              · exact ⟨result', image, first, found, kept⟩
              · exact ih later there

end Images

theorem mapM_eq_some {step : Value → Option Result} {values : List Value} {results : List Result} :
    values.mapM step = some results ↔
      List.Forall₂ (fun value result => step value = some result) values results := by
  induction values generalizing results with
  | nil =>
      rw [List.mapM_nil, List.forall₂_nil_left_iff]
      constructor
      · intro same
        cases same
        rfl
      · rintro rfl
        rfl
  | cons value rest ih =>
      rw [List.mapM_cons, Option.bind_eq_bind, Option.bind_eq_some_iff, List.forall₂_cons_left_iff]
      constructor
      · rintro ⟨result, stepped, others⟩
        obtain ⟨results', traversed, same⟩ := Option.bind_eq_some_iff.mp others
        cases same
        exact ⟨result, results', stepped, ih.mp traversed, rfl⟩
      · rintro ⟨result, results', stepped, traversed, rfl⟩
        exact ⟨result, stepped, Option.bind_eq_some_iff.mpr ⟨results', ih.mpr traversed, rfl⟩⟩

end Traversal

section Steps

variable {Value Result : Type*} {related : Value → Result → Prop} {values : List Value}
  {results : List Result}

theorem exists_right_of_mem (inStep : List.Forall₂ related values results) {value : Value}
    (listed : value ∈ values) : ∃ result ∈ results, related value result := by
  induction inStep with
  | nil => cases listed
  | cons first _ ih =>
      rcases List.mem_cons.mp listed with rfl | later
      · exact ⟨_, List.mem_cons_self, first⟩
      · obtain ⟨result, member, holds⟩ := ih later
        exact ⟨result, List.mem_cons_of_mem _ member, holds⟩

theorem exists_left_of_mem (inStep : List.Forall₂ related values results) {result : Result}
    (listed : result ∈ results) : ∃ value ∈ values, related value result :=
  exists_right_of_mem inStep.flip listed

end Steps

section Keys

variable {Entry Key : Type*} {key : Entry → Key} {entries : List Entry} {entry : Entry}

theorem find?_of_distinct [DecidableEq Key] (distinct : (entries.map key).Nodup) (listed : entry ∈ entries) :
    entries.find? (fun other => decide (key other = key entry)) = some entry := by
  obtain ⟨front, back, rfl⟩ := List.append_of_mem listed
  rw [List.map_append, List.map_cons] at distinct
  have apart := (List.nodup_append.mp distinct).2.2
  rw [List.find?_append, List.find?_eq_none.mpr, Option.none_or, List.find?_cons, decide_eq_true rfl]
  intro other inside same
  rw [decide_eq_true_eq] at same
  exact apart (key other) (List.mem_map_of_mem inside) (key entry) List.mem_cons_self same

theorem filter_of_distinct {test : Entry → Bool} (distinct : (entries.map key).Nodup) (listed : entry ∈ entries)
    (passes : test entry = true) (only : ∀ other ∈ entries, test other = true → key other = key entry) :
    entries.filter test = [entry] := by
  obtain ⟨front, back, rfl⟩ := List.append_of_mem listed
  rw [List.map_append, List.map_cons, List.nodup_append, List.nodup_cons] at distinct
  have before : front.filter test = [] := by
    rw [List.filter_eq_nil_iff]
    intro other inside holds
    have same := only other (List.mem_append_left _ inside) holds
    exact distinct.2.2 (key other) (List.mem_map_of_mem inside) (key entry) List.mem_cons_self same
  have behind : back.filter test = [] := by
    rw [List.filter_eq_nil_iff]
    intro other inside holds
    have same := only other (List.mem_append_right _ (List.mem_cons_of_mem _ inside)) holds
    exact distinct.2.1.1 (same ▸ List.mem_map_of_mem inside)
  rw [List.filter_append, before, List.filter_cons_of_pos passes, behind, List.nil_append]

end Keys

section Occurrences

variable {Value : Type*} [DecidableEq Value]

/-- The elements of a list with the number of the occurrence, behind what stands earlier. -/
def occurrencesFrom (earlier : List Value) : List Value → List (Value × ℕ)
  | [] => []
  | value :: rest => (value, earlier.count value + 1) :: occurrencesFrom (earlier ++ [value]) rest

theorem length_occurrencesFrom (earlier values : List Value) :
    (occurrencesFrom earlier values).length = values.length := by
  induction values generalizing earlier with
  | nil => rfl
  | cons value rest ih => exact congrArg (· + 1) (ih (earlier ++ [value]))

theorem mem_occurrencesFrom {earlier values : List Value} {value : Value} {count : ℕ} :
    (value, count) ∈ occurrencesFrom earlier values ↔
      earlier.count value < count ∧ count ≤ earlier.count value + values.count value := by
  induction values generalizing earlier with
  | nil =>
      constructor
      · intro listed
        cases listed
      · intro bounds
        rw [List.count_nil] at bounds
        omega
  | cons first rest ih =>
      rw [occurrencesFrom, List.mem_cons, ih, List.count_append, List.count_singleton, List.count_cons]
      by_cases same : first = value
      · subst same
        simp only [Prod.mk.injEq, true_and, BEq.rfl, ↓reduceIte]
        omega
      · have different : ¬ (first == value) = true := by simpa using same
        simp only [Prod.mk.injEq, Ne.symm same, false_and, false_or, if_neg different, Nat.add_zero]

theorem nodup_occurrencesFrom (earlier values : List Value) : (occurrencesFrom earlier values).Nodup := by
  induction values generalizing earlier with
  | nil => exact List.nodup_nil
  | cons value rest ih =>
      refine List.nodup_cons.mpr ⟨fun listed => ?_, ih _⟩
      have later := (mem_occurrencesFrom.mp listed).1
      rw [List.count_append, List.count_singleton_self] at later
      omega

end Occurrences

section Positions

variable {Value : Type*} {values : List Value} {position : ℕ} {value : Value}

theorem countP_set_of_getElem? (test : Value → Bool) (put : Value) (here : values[position]? = some value) :
    (values.set position put).countP test + (if test value then 1 else 0) =
      values.countP test + if test put then 1 else 0 := by
  obtain ⟨inside, same⟩ := List.getElem?_eq_some_iff.mp here
  rw [List.countP_set inside, same]
  split
  · next passes =>
      have := List.countP_pos_iff.mpr ⟨value, List.mem_of_getElem? here, passes⟩
      omega
  · omega

end Positions

end Foundation

import Mathlib.Order.Filter.AtTopBot.Basic
import Sico.Foundation.Traversal
import Sico.LlmHubs.GeminiFields

/-! # The rewriting of schemas comes to an end

A step at the head of a schema either follows a reference that was not seen, of which there are no more
than definitions, or it makes the schema lighter, and what is below a reduced schema is lighter than the
schema. In the weight the elements of a list of types count more than those of other lists, since each
becomes a schema of its own.
-/

namespace Sico.LlmHubs.GeminiSchema

open Foundation

section Weights

mutual

/-- The weight of a document, which is one of the values of `type` or not. -/
def weight : Bool → Json → ℕ
  | typed, .arr items => (if typed then 2 else 1) + weightItems typed items
  | _, .obj members => 1 + weightMembers members
  | _, .null | _, .bool _ | _, .int _ | _, .float _ | _, .str _ => 1

def weightItems : Bool → List Json → ℕ
  | _, [] => 0
  | typed, item :: rest => (if typed then 4 else 0) + weight typed item + weightItems typed rest

def weightMembers : List (String × Json) → ℕ
  | [] => 0
  | (key, value) :: rest => 1 + (if key = "$ref" then 1 else 0) + weight (key = "type") value + weightMembers rest

end

def weightMember (member : String × Json) : ℕ :=
  1 + (if member.1 = "$ref" then 1 else 0) + weight (member.1 = "type") member.2

theorem weightMembers_eq (members : List (String × Json)) :
    weightMembers members = (members.map weightMember).sum := by
  induction members with
  | nil => rfl
  | cons member rest ih =>
      rw [weightMembers, List.map_cons, List.sum_cons, ih]
      rfl

theorem weightItems_eq (items : List Json) : weightItems false items = (items.map (weight false)).sum := by
  induction items with
  | nil => rfl
  | cons item rest ih =>
      rw [weightItems, List.map_cons, List.sum_cons, ih]
      simp

theorem weight_pos (typed : Bool) (value : Json) : 0 < weight typed value := by
  cases value with
  | arr => cases typed <;> simp [weight]
  | obj =>
      rw [weight]
      omega
  | null | bool | int | float | str => exact Nat.one_pos

mutual

/-- A document weighs no less as a value of `type`. -/
theorem weight_le_typed : ∀ value, weight false value ≤ weight true value
  | .arr items => by
      have below := weightItems_le_typed items
      simp only [weight, Bool.false_eq_true, ↓reduceIte]
      omega
  | .obj _ => by simp only [weight, le_refl]
  | .null | .bool _ | .int _ | .float _ | .str _ => le_rfl

theorem weightItems_le_typed : ∀ items, weightItems false items ≤ weightItems true items
  | [] => le_rfl
  | item :: rest => by
      have first := weight_le_typed item
      have others := weightItems_le_typed rest
      simp only [weightItems, Bool.false_eq_true, ↓reduceIte]
      omega

end

theorem weight_le_member (member : String × Json) : weight false member.2 < weightMember member := by
  have typed := weight_le_typed member.2
  unfold weightMember
  by_cases isType : member.1 = "type"
  · rw [decide_eq_true isType]
    omega
  · rw [decide_eq_false isType]
    omega

theorem weightMember_le {fields : Fields} {member : String × Json} (listed : member ∈ fields) :
    weightMember member ≤ (fields.map weightMember).sum :=
  List.single_le_sum (fun _ _ => Nat.zero_le _) _ (List.mem_map_of_mem listed)

theorem weight_le_item {items : List Json} {item : Json} (listed : item ∈ items) :
    weight false item < weight false (.arr items) := by
  have within := List.single_le_sum (fun _ _ => Nat.zero_le _) _ (List.mem_map_of_mem (f := weight false) listed)
  rw [weight, weightItems_eq]
  simp only [Bool.false_eq_true, ↓reduceIte]
  omega

end Weights

section Reduction

variable {bound : ℕ}

/-- A field is light if its value is, where a constant is to become a list. -/
def IsLight (bound : ℕ) (field : String × Json) : Prop :=
  weight (field.1 = "type") field.2 + (if field.1 = "const" then 1 else 0) < bound

theorem isLight_of_mem {fields : Fields} {field : String × Json} (listed : field ∈ fields) :
    IsLight (weight false (.obj fields)) field := by
  have within := weightMember_le listed
  have own : weight (field.1 = "type") field.2 + 1 ≤ weightMember field := by
    unfold weightMember
    omega
  unfold IsLight
  rw [weight, weightMembers_eq]
  split <;> omega

theorem weight_of_types {types : List Json} {entry : Json} (listed : entry ∈ types) :
    weight true entry < weight true (.arr types) := by
  rw [weight]
  induction types with
  | nil => cases listed
  | cons first rest ih =>
      simp only [weightItems, ↓reduceIte]
      rcases List.mem_cons.mp listed with rfl | later
      · omega
      · have before := ih later
        simp only [↓reduceIte] at before
        omega

theorem weight_union_le (types : List Json) (test : Json → Bool) :
    weight false (.arr ((types.filter test).map fun entry => .obj [("type", entry)])) ≤
      weight true (.arr types) := by
  rw [weight, weight]
  simp only [Bool.false_eq_true, ↓reduceIte]
  suffices below : weightItems false ((types.filter test).map fun entry => .obj [("type", entry)]) ≤
      weightItems true types by omega
  induction types with
  | nil => exact le_rfl
  | cons first rest ih =>
      rw [List.filter_cons]
      split
      · simp only [List.map_cons, weightItems, weight, weightMembers, Bool.false_eq_true, ↓reduceIte, decide_true,
          String.reduceEq]
        omega
      · simp only [weightItems, ↓reduceIte]
        omega

theorem keptByReduction_isLight (bound : ℕ) : KeptByReduction (IsLight bound) where
  renamed given := given
  enum {value} given := by
    simp only [IsLight, String.reduceEq, decide_false, ↓reduceIte, weight, weightItems, Bool.false_eq_true] at given ⊢
    omega
  inferred {value inferred} given _ := by
    have pos := weight_pos false value
    simp only [IsLight, String.reduceEq, decide_false, ↓reduceIte, weight] at given ⊢
    omega
  nullOnly given _ := by
    simp only [IsLight, String.reduceEq, decide_true, ↓reduceIte, weight] at given ⊢
    omega
  single {types single} given one := by
    have listed : single ∈ types := List.mem_of_mem_filter (one ▸ List.mem_singleton_self single)
    have lighter := weight_of_types listed
    simp only [IsLight, String.reduceEq, decide_true, ↓reduceIte] at given ⊢
    omega
  union {types} given := by
    have below := weight_union_le types fun entry => !isText "null" entry
    simp only [IsLight, String.reduceEq, decide_true, decide_false, ↓reduceIte] at given ⊢
    omega
  nullable given _ := by
    simp only [IsLight, String.reduceEq, decide_true, ↓reduceIte, weight] at given ⊢
    omega

theorem weight_reduced {fields : Fields} {field : String × Json} (listed : field ∈ reduced fields) :
    weight false field.2 < weight false (.obj fields) := by
  have light := (keptByReduction_isLight _).reduced (fun _ => isLight_of_mem) field listed
  have typed := weight_le_typed field.2
  unfold IsLight at light
  cases here : decide (field.1 = "type") with
  | false =>
      rw [here] at light
      omega
  | true =>
      rw [here] at light
      omega

end Reduction

section Head

variable {defs schema merged : Fields} {seen seen' : List String}

/-- How many definitions no reference that was seen leads to. -/
def unseen (defs : Fields) (seen : List String) : ℕ :=
  (defs.filter fun definition => definitionPrefix ++ definition.1 ∉ seen).length

theorem resolveRef_eq_some {ref : String} {target : Fields} (known : resolveRef ref defs = some target) :
    ∃ name, ref = definitionPrefix ++ name ∧ (name, .obj target) ∈ defs := by
  unfold resolveRef at known
  split at known
  · next local_ =>
      split at known
      · next found =>
          cases known
          refine ⟨_, ?_, Members.mem_of_get? found⟩
          obtain ⟨rest, same⟩ := List.isPrefixOf_iff_prefix.mp local_
          rw [← same, ← String.length_toList, List.drop_left, ← String.toList_inj, String.toList_append,
            String.toList_ofList, same]
      · cases known
  · cases known

theorem unseen_lt {ref : String} {target : Fields} (known : resolveRef ref defs = some target) (new : ref ∉ seen) :
    unseen defs (ref :: seen) < unseen defs seen := by
  obtain ⟨name, rfl, listed⟩ := resolveRef_eq_some known
  have fewer : (defs.filter fun definition => definitionPrefix ++ definition.1 ∉ (definitionPrefix ++ name) :: seen) =
      (defs.filter fun definition => definitionPrefix ++ definition.1 ∉ seen).filter
        fun definition => definitionPrefix ++ definition.1 ≠ definitionPrefix ++ name := by
    rw [List.filter_filter]
    apply List.filter_congr
    intro definition _
    simp [not_or]
  unfold unseen
  rw [fewer]
  apply List.length_filter_lt_length_iff_exists.mpr
  exact ⟨_, List.mem_filter.mpr ⟨listed, decide_eq_true new⟩, by simp⟩

def total (fields : Fields) : ℕ := (fields.map weightMember).sum

theorem total_oneOfToAnyOf_le (schema : Fields) : total (oneOfToAnyOf schema) ≤ total schema := by
  unfold oneOfToAnyOf
  split
  · next branches here =>
      split
      · exact le_rfl
      · have put := Members.sum_put_le weightMember (Members.without schema "oneOf") "anyOf" (.arr branches)
        have without := Members.sum_without_le weightMember (Members.mem_of_get? here)
        have same : weightMember ("oneOf", .arr branches) = weightMember ("anyOf", .arr branches) := rfl
        unfold total
        omega
  · exact le_rfl

theorem weight_nullBranch {branch : Json} (isNull : isNullBranch branch = true) : 3 ≤ weight false branch := by
  cases branch with
  | obj fields =>
      obtain ⟨value, here, text⟩ := Option.any_eq_true _ _ |>.mp isNull
      have within := weightMember_le (Members.mem_of_get? here)
      have pos := weight_pos true value
      have own : weightMember ("type", value) = 1 + weight true value := by
        simp [weightMember]
      rw [weight, weightMembers_eq]
      omega
  | null | bool | int | float | str | arr => cases isNull

theorem total_normalizeOptional_lt (optional : normalizeOptional schema = some merged) : total merged < total schema := by
  unfold normalizeOptional at optional
  split at optional
  · next branches here =>
      dsimp only at optional
      split at optional
      · cases optional
      · next fewer =>
          obtain ⟨branch, listed, isNull⟩ := exists_isNullBranch fewer
          have heavy := weight_nullBranch isNull
          have without := Members.sum_without_le weightMember (Members.mem_of_get? here)
          have dropped := sum_filter_add_le (weight false) (fun branch => !isNullBranch branch) listed (by simp [isNull])
          have own (items : List Json) : weightMember ("anyOf", .arr items) = 2 + (items.map (weight false)).sum := by
            rw [← weightItems_eq]
            simp only [weightMember, weight, String.reduceEq, ↓reduceIte, decide_false, Bool.false_eq_true]
            omega
          rw [own] at without
          have nullable (fields : Fields) : total (Members.put fields "nullable" (.bool true)) ≤ total fields + 2 :=
            Members.sum_put_le weightMember fields "nullable" (.bool true)
          split at optional
          · cases optional
            have put : total (Members.put (Members.without schema "anyOf") "type" (.str "null")) ≤
                total (Members.without schema "anyOf") + 2 := Members.sum_put_le weightMember _ "type" (.str "null")
            unfold total at put ⊢
            omega
          · next only one =>
              cases optional
              have last := nullable (Members.update only (Members.without schema "anyOf"))
              have update := Members.sum_update_le weightMember only (Members.without schema "anyOf")
              rw [one, List.map_singleton, List.sum_singleton, weight, weightMembers_eq] at dropped
              unfold total at last ⊢
              omega
          · cases optional
            have last := nullable (Members.put (Members.without schema "anyOf") "anyOf"
              (.arr (branches.filter fun branch => !isNullBranch branch)))
            have put := Members.sum_put_le weightMember (Members.without schema "anyOf") "anyOf"
              (.arr (branches.filter fun branch => !isNullBranch branch))
            rw [own] at put
            unfold total at last ⊢
            omega
  · cases optional

theorem rewriteHead_lt (rewritten : rewriteHead defs seen schema = some (merged, seen')) :
    unseen defs seen' < unseen defs seen ∨ seen' = seen ∧ total merged < total schema := by
  unfold rewriteHead at rewritten
  split at rewritten
  · next ref here =>
      have fallback : total (Members.update [("type", .str "object")] (Members.without schema "$ref")) <
          total schema := by
        have update := Members.sum_update_le weightMember [("type", .str "object")] (Members.without schema "$ref")
        have without := Members.sum_without_le weightMember (Members.mem_of_get? here)
        have own : weightMember ("$ref", .str ref) = 3 := rfl
        have object : ([(("type", .str "object") : String × Json)].map weightMember).sum = 2 := rfl
        unfold total
        omega
      dsimp only at rewritten
      split at rewritten
      · next target known =>
          split at rewritten
          · cases rewritten
            exact .inr ⟨rfl, fallback⟩
          · next new =>
              cases rewritten
              exact .inl (unseen_lt known new)
      · cases rewritten
        exact .inr ⟨rfl, fallback⟩
  · split at rewritten
    · next only here =>
        cases rewritten
        have update := Members.sum_update_le weightMember only (Members.without schema "allOf")
        have without := Members.sum_without_le weightMember (Members.mem_of_get? here)
        have own : weightMember ("allOf", .arr [.obj only]) = 3 + total only := by
          simp only [weightMember, weight, weightItems, weightMembers_eq, String.reduceEq, ↓reduceIte, decide_false,
            Bool.false_eq_true, total]
          omega
        refine .inr ⟨rfl, ?_⟩
        unfold total at own ⊢
        omega
    · obtain ⟨optional, made, same⟩ := Option.map_eq_some_iff.mp rewritten
      cases same
      exact .inr ⟨rfl, (total_normalizeOptional_lt made).trans_le (total_oneOfToAnyOf_le schema)⟩

end Head

section Termination

open Filter

theorem eventually_mapM {Value Result : Type} {values : List Value} {step : ℕ → Value → Option Result}
    (each : ∀ value ∈ values, ∃ result, ∀ᶠ depth in atTop, step depth value = some result) :
    ∃ results, ∀ᶠ depth in atTop, values.mapM (step depth) = some results := by
  induction values with
  | nil => exact ⟨[], .of_forall fun _ => rfl⟩
  | cons value rest ih =>
      obtain ⟨result, first⟩ := each value List.mem_cons_self
      obtain ⟨results, others⟩ := ih fun other listed => each other (List.mem_cons_of_mem _ listed)
      refine ⟨result :: results, ?_⟩
      filter_upwards [first, others] with depth here there
      rw [List.mapM_cons, here, there]
      rfl

theorem eventually_of_succ {holds : ℕ → Prop} (later : ∀ᶠ depth in atTop, holds (depth + 1)) :
    ∀ᶠ depth in atTop, holds depth := by
  obtain ⟨least, later⟩ := eventually_atTop.mp later
  apply eventually_atTop.mpr
  refine ⟨least + 1, fun depth above => ?_⟩
  obtain ⟨before, rfl⟩ : ∃ before, depth = before + 1 := ⟨depth - 1, by omega⟩
  exact later before (by omega)

theorem eventually_sanitizeField (step : ℕ → Json → Option Json) (field : String × Json)
    (own : ∃ result, ∀ᶠ depth in atTop, step depth field.2 = some result)
    (below : ∀ properties, field.2 = .obj properties → ∀ property ∈ properties,
      ∃ result, ∀ᶠ depth in atTop, step depth property.2 = some result) :
    ∃ result, ∀ᶠ depth in atTop, sanitizeField (step depth) field = some result := by
  unfold sanitizeField
  split
  · exact ⟨field, .of_forall fun _ => rfl⟩
  · split
    · next properties _ same =>
        have each : ∀ property ∈ properties, ∃ result, ∀ᶠ depth in atTop,
            ((step depth property.2).map fun sub => (property.1, sub)) = some result := by
          intro property listed
          obtain ⟨result, later⟩ := below properties same property listed
          refine ⟨(property.1, result), ?_⟩
          filter_upwards [later] with depth here
          rw [here]
          rfl
        obtain ⟨results, later⟩ := eventually_mapM each
        refine ⟨("properties", .obj results), ?_⟩
        filter_upwards [later] with depth here
        rw [here]
        rfl
    · obtain ⟨result, later⟩ := own
      refine ⟨(field.1, result), ?_⟩
      filter_upwards [later] with depth here
      rw [here]
      rfl

theorem sanitizeSchema_terminates_at (defs : Fields) (seen : List String) (schema : Json) :
    ∃ result, ∀ᶠ depth in atTop, sanitizeSchema depth schema (some defs) seen = some result := by
  induction refs : unseen defs seen using Nat.strong_induction_on generalizing seen schema with
  | h refs fewer =>
      induction size : weight false schema using Nat.strong_induction_on generalizing schema with
      | h size lighter =>
          subst size
          cases schema with
          | arr items =>
              have each : ∀ item ∈ items, ∃ result, ∀ᶠ depth in atTop,
                  sanitizeSchema depth item (some defs) seen = some result :=
                fun item listed => lighter _ (weight_le_item listed) item rfl
              obtain ⟨results, later⟩ := eventually_mapM each
              refine ⟨.arr results, eventually_of_succ ?_⟩
              filter_upwards [later] with depth here
              simp only [sanitizeSchema, Option.getD_some, here, Option.map_some]
          | obj fields =>
              cases head : rewriteHead defs seen fields with
              | some rewritten =>
                  obtain ⟨merged, seen'⟩ := rewritten
                  have next : ∃ result, ∀ᶠ depth in atTop,
                      sanitizeSchema depth (.obj merged) (some defs) seen' = some result := by
                    obtain less | ⟨rfl, less⟩ := rewriteHead_lt head
                    · exact fewer _ (refs ▸ less) seen' (.obj merged) rfl
                    · apply lighter _ _ (.obj merged) rfl
                      rw [weight, weight, weightMembers_eq, weightMembers_eq]
                      exact Nat.add_lt_add_left less 1
                  obtain ⟨result, later⟩ := next
                  refine ⟨result, eventually_of_succ ?_⟩
                  filter_upwards [later] with depth here
                  simp only [sanitizeSchema, Option.getD_some, head, here]
              | none =>
                  have each : ∀ field ∈ reduced fields, ∃ result, ∀ᶠ depth in atTop,
                      sanitizeField (fun value => sanitizeSchema depth value (some defs) seen) field = some result := by
                    intro field listed
                    have below := weight_reduced listed
                    apply eventually_sanitizeField fun depth value => sanitizeSchema depth value (some defs) seen
                    · exact lighter _ below field.2 rfl
                    · intro properties same property named
                      rw [same, weight, weightMembers_eq] at below
                      have within := weightMember_le named
                      have own := weight_le_member property
                      exact lighter _ (by omega) property.2 rfl
                  obtain ⟨results, later⟩ := eventually_mapM each
                  refine ⟨.obj results, eventually_of_succ ?_⟩
                  filter_upwards [later] with depth here
                  simp only [sanitizeSchema, Option.getD_some, head, here, Option.map_some]
          | null | bool | int | float | str =>
              exact ⟨_, eventually_of_succ (.of_forall fun _ => rfl)⟩

theorem sanitizeSchema_given (depth : ℕ) (schema : Json) (given : Option Fields) (seen : List String) :
    sanitizeSchema depth schema given seen =
      sanitizeSchema depth schema (some (given.getD (definitionsOf schema))) seen := by
  cases depth <;> rfl

end Termination

end Sico.LlmHubs.GeminiSchema

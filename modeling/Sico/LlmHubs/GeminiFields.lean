import Sico.LlmHubs.GeminiSchema

/-! # What the fields of a rewritten schema keep

A property of fields holds of each field of a schema that is rewritten at its head, or reduced, if it
held of each field before and it goes along with each of the changes that are made.
-/

namespace Sico.LlmHubs.GeminiSchema

open Foundation

variable {property : String × Json → Prop} {schema : Fields}

theorem forall_oneOfToAnyOf
    (renamed : ∀ {branches}, property ("oneOf", .arr branches) → property ("anyOf", .arr branches))
    (all : ∀ field ∈ schema, property field) : ∀ field ∈ oneOfToAnyOf schema, property field := by
  unfold oneOfToAnyOf
  split
  · next branches here =>
      split
      · exact all
      · exact Members.forall_put (Members.forall_without all _) (renamed (all _ (Members.mem_of_get? here)))
  · exact all

theorem forall_dropOtherFormat (all : ∀ field ∈ schema, property field) :
    ∀ field ∈ dropOtherFormat schema, property field := by
  unfold dropOtherFormat
  split
  · split
    · exact all
    · exact Members.forall_without all _
  · exact all

/-- What the reduction of a schema makes of single fields. -/
structure KeptByReduction (property : String × Json → Prop) : Prop where
  renamed : ∀ {branches}, property ("oneOf", .arr branches) → property ("anyOf", .arr branches)
  enum : ∀ {value}, property ("const", value) → property ("enum", .arr [value])
  inferred : ∀ {value inferred}, property ("const", value) → jsonTypeOf value = some inferred →
    property ("type", .str inferred)
  nullOnly : ∀ {types}, property ("type", .arr types) → (types.filter fun entry => !isText "null" entry) = [] →
    property ("type", .str "null")
  single : ∀ {types single}, property ("type", .arr types) →
    (types.filter fun entry => !isText "null" entry) = [single] → property ("type", single)
  union : ∀ {types}, property ("type", .arr types) →
    property ("anyOf", .arr ((types.filter fun entry => !isText "null" entry).map fun entry => .obj [("type", entry)]))
  nullable : ∀ {types}, property ("type", .arr types) → types.any (isText "null") = true →
    property ("nullable", .bool true)

section Reduction

variable (kept : KeptByReduction property) (all : ∀ field ∈ schema, property field)
include kept all

theorem KeptByReduction.constToEnum : ∀ field ∈ constToEnum schema, property field := by
  unfold GeminiSchema.constToEnum
  split
  · exact all
  · next value here =>
      have const := all _ (Members.mem_of_get? here)
      have popped := Members.forall_setDefault (Members.forall_without all "const") (kept.enum const)
      split
      · next inferred known => exact Members.forall_setDefault popped (kept.inferred const known)
      · exact popped

theorem KeptByReduction.normalizeConstAndEnum : ∀ field ∈ normalizeConstAndEnum schema, property field := by
  have enums := kept.constToEnum all
  unfold GeminiSchema.normalizeConstAndEnum dropOtherEnum
  split
  · split
    · exact enums
    · exact Members.forall_without enums _
  · exact enums

theorem KeptByReduction.normalizeType : ∀ field ∈ normalizeType schema, property field := by
  unfold GeminiSchema.normalizeType
  split
  · next types here =>
      have given := all _ (Members.mem_of_get? here)
      have collapsed : ∀ field ∈ collapseTypes schema (types.filter fun entry => !isText "null" entry),
          property field := by
        unfold collapseTypes
        split
        · next none => exact Members.forall_put all (kept.nullOnly given none)
        · next one => exact Members.forall_put all (kept.single given one)
        · exact Members.forall_setDefault (Members.forall_without all _) (kept.union given)
      dsimp only
      split
      · next both => exact Members.forall_put collapsed (kept.nullable given both.2)
      · exact collapsed
  · exact all

theorem KeptByReduction.reduced : ∀ field ∈ reduced schema, property field := by
  intro field listed
  have renamed := forall_oneOfToAnyOf kept.renamed all
  have typed := kept.normalizeType (kept.normalizeConstAndEnum renamed)
  exact forall_dropOtherFormat typed field (List.mem_of_mem_filter listed)

end Reduction

/-- What a step at the head of a schema makes of single fields. -/
structure KeptAtHead (defs : Fields) (seen : List String) (property : String × Json → Prop) : Prop where
  renamed : ∀ {branches}, property ("oneOf", .arr branches) → property ("anyOf", .arr branches)
  target : ∀ {ref target}, property ("$ref", .str ref) → ref ∉ seen → resolveRef ref defs = some target →
    ∀ field ∈ target, property field
  fallback : ∀ {ref}, property ("$ref", .str ref) → (resolveRef ref defs = none ∨ ref ∈ seen) →
    property ("type", .str "object")
  wrapped : ∀ {only}, property ("allOf", .arr [.obj only]) → ∀ field ∈ only, property field
  nullOnly : ∀ {branches}, property ("anyOf", .arr branches) →
    (branches.filter fun branch => !isNullBranch branch) = [] → property ("type", .str "null")
  single : ∀ {branches only}, property ("anyOf", .arr branches) →
    (branches.filter fun branch => !isNullBranch branch) = [.obj only] → ∀ field ∈ only, property field
  union : ∀ {branches}, property ("anyOf", .arr branches) →
    property ("anyOf", .arr (branches.filter fun branch => !isNullBranch branch))
  nullable : ∀ {branches}, property ("anyOf", .arr branches) → (∃ branch ∈ branches, isNullBranch branch = true) →
    property ("nullable", .bool true)

section Head

variable {defs : Fields} {seen seen' : List String} {merged : Fields}

theorem exists_isNullBranch {branches : List Json}
    (fewer : (branches.filter fun branch => !isNullBranch branch).length ≠ branches.length) :
    ∃ branch ∈ branches, isNullBranch branch = true := by
  by_contra none
  push Not at none
  apply fewer
  rw [List.filter_eq_self.mpr]
  intro branch listed
  simp [none branch listed]

variable (kept : KeptAtHead defs seen property) (all : ∀ field ∈ schema, property field)
include kept all

theorem KeptAtHead.normalizeOptional (optional : normalizeOptional schema = some merged) :
    ∀ field ∈ merged, property field := by
  unfold GeminiSchema.normalizeOptional at optional
  split at optional
  · next branches here =>
      dsimp only at optional
      split at optional
      · cases optional
      · next fewer =>
          have given := all _ (Members.mem_of_get? here)
          have nullable := kept.nullable given (exists_isNullBranch fewer)
          have rest := Members.forall_without all "anyOf"
          split at optional
          · next none =>
              cases optional
              exact Members.forall_put rest (kept.nullOnly given none)
          · next one =>
              cases optional
              exact Members.forall_put (Members.forall_update (kept.single given one) rest) nullable
          · cases optional
            exact Members.forall_put (Members.forall_put rest (kept.union given)) nullable
  · cases optional

theorem KeptAtHead.rewriteHead (rewritten : rewriteHead defs seen schema = some (merged, seen')) :
    ∀ field ∈ merged, property field := by
  unfold GeminiSchema.rewriteHead at rewritten
  split at rewritten
  · next ref here =>
      have given := all _ (Members.mem_of_get? here)
      have siblings := Members.forall_without all "$ref"
      have fallback (unresolved : resolveRef ref defs = none ∨ ref ∈ seen) :
          ∀ field ∈ Members.update [("type", .str "object")] (Members.without schema "$ref"), property field := by
        apply Members.forall_update _ siblings
        intro field listed
        rw [List.mem_singleton.mp listed]
        exact kept.fallback given unresolved
      dsimp only at rewritten
      split at rewritten
      · next target known =>
          split at rewritten
          · next again =>
              cases rewritten
              exact fallback (.inr again)
          · next new =>
              cases rewritten
              exact Members.forall_update (kept.target given new known) siblings
      · next unknown =>
          cases rewritten
          exact fallback (.inl unknown)
  · split at rewritten
    · next only here =>
        cases rewritten
        have given := all _ (Members.mem_of_get? here)
        exact Members.forall_update (kept.wrapped given) (Members.forall_without all _)
    · obtain ⟨optional, made, same⟩ := Option.map_eq_some_iff.mp rewritten
      cases same
      exact kept.normalizeOptional (forall_oneOfToAnyOf kept.renamed all) made

end Head

end Sico.LlmHubs.GeminiSchema

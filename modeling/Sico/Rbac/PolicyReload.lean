import Mathlib.Algebra.GroupWithZero.Nat
import Mathlib.Algebra.Order.BigOperators.Group.List
import Mathlib.Algebra.Order.Group.Nat
import Mathlib.Data.List.DropRight
import Mathlib.Data.List.GetD
import Mathlib.Data.List.Nodup
import Sico.Foundation.Csv
import Sico.Foundation.Traversal

/-! # Policies of the enforcer across a reload

A policy is a tuple of up to six texts. The adapter stores it in the columns of a row, and a reload reads the row back through
a line: the columns up to the last that is not empty, each behind a comma and a blank. The enforcer skips a line that is
empty or starts with `#` and reads any other one as a record of comma-separated values. It compares tuples as they are, so a
tuple that is looked up has to be as long as the one in memory.
-/

namespace Sico.Rbac.PolicyReload

open Foundation Csv

section Rules

/-- The policy types of the model. -/
inductive PolicyType where
  | p
  | g
  deriving DecidableEq, Repr

def PolicyType.name : PolicyType → String
  | .p => "p"
  | .g => "g"

/-- `TCasbinRule`. -/
structure CasbinRule where
  ptype : String
  v0 : String := ""
  v1 : String := ""
  v2 : String := ""
  v3 : String := ""
  v4 : String := ""
  v5 : String := ""

def CasbinRule.values (row : CasbinRule) : List String := [row.v0, row.v1, row.v2, row.v3, row.v4, row.v5]

/-- `buildRuleFromPolicy`, and the row that `AddPolicy` creates. -/
def buildRuleFromPolicy (ptype : String) (rule : List String) : CasbinRule where
  ptype
  v0 := rule.getD 0 ""
  v1 := rule.getD 1 ""
  v2 := rule.getD 2 ""
  v3 := rule.getD 3 ""
  v4 := rule.getD 4 ""
  v5 := rule.getD 5 ""

def normalized (count : ℕ) (rule : List String) : List String := (rule ++ List.replicate count "").take count

def normalizeRule (rule : List String) : List String := normalized 6 rule

def policyFieldCount : ℕ := 6

def normalizePolicyRule (rule : List String) : List String := normalized policyFieldCount rule

/-- The loop that goes back from a length over empty columns, as long as more than some of them are left. -/
def filledLength (least : ℕ) (rule : List String) : ℕ → ℕ
  | 0 => 0
  | length + 1 => if least < length + 1 ∧ rule.getD length "" = "" then filledLength least rule length else length + 1

def trimRule (rule : List String) : List String := rule.take (filledLength 0 rule rule.length)

def policyRuleParams (rule : List String) : List String :=
  (normalizePolicyRule rule).take (filledLength 3 (normalizePolicyRule rule) policyFieldCount)

def trimPolicyRule (rule : List String) : List String :=
  (normalizePolicyRule rule).take (filledLength 0 (normalizePolicyRule rule) policyFieldCount)

end Rules

section Adapter

def buildPolicyLine (row : CasbinRule) : String :=
  if trimRule row.values = [] then row.ptype else row.ptype ++ ", " ++ ", ".intercalate (trimRule row.values)

/-- `UpdatePolicy`, of a row that has the old rule. -/
def CasbinRule.updatePolicy (row : CasbinRule) (newRule : List String) : CasbinRule :=
  buildRuleFromPolicy row.ptype (normalizeRule newRule)

/-- `LoadPolicyLine` of the enforcer: the tuple with its type, if the line is not skipped. -/
def loadPolicyLine (line : String) : Except ReadError (Option (List String)) :=
  if line = "" ∨ line.toList.head? = some '#' then .ok none
  else (readRecord line.toList).map fun fields => some (fields.map String.ofList)

-- Tuples are compared as lists when a policy is looked for in memory.
local instance lawful_tuples : LawfulBEq (List String) := inferInstance

/-- `LoadPolicy`, into the tuples that are in memory. A tuple that is there is not added again. -/
def loadPolicy (memory : List (List String)) : List CasbinRule → Except ReadError (List (List String))
  | [] => .ok memory
  | row :: rest => do
      let loaded ← loadPolicyLine (buildPolicyLine row)
      match loaded with
      | some tuple => loadPolicy (if tuple ∈ memory then memory else memory ++ [tuple]) rest
      | none => loadPolicy memory rest

end Adapter

section Trimming

variable {rule : List String}

/-- What is left of a rule without the empty columns behind it. -/
def filled (rule : List String) : List String := rule.rdropWhile (· = "")

theorem filledLength_append {least length : ℕ} (within : length ≤ rule.length) (others : List String) :
    filledLength least (rule ++ others) length = filledLength least rule length := by
  induction length with
  | zero => rfl
  | succ length ih =>
      rw [filledLength, filledLength, List.getD_append _ _ _ _ within, ih (Nat.le_of_succ_le within)]

theorem filledLength_eq {least : ℕ} (within : least ≤ rule.length) :
    filledLength least rule rule.length = max least (filled rule).length := by
  induction rule using List.reverseRecOn with
  | nil =>
      rw [List.length_nil, Nat.le_zero] at within
      rw [within]
      rfl
  | append_singleton front last ih =>
      rw [List.length_append, List.length_singleton] at within ⊢
      have reads : (front ++ [last]).getD front.length "" = last := by simp
      rw [filledLength, reads, filledLength_append (Nat.le_refl _)]
      unfold filled at ih ⊢
      by_cases empty : last = ""
      · rw [List.rdropWhile_concat_pos _ _ _ (by simpa using empty)]
        by_cases more : least < front.length + 1
        · rw [if_pos ⟨more, empty⟩, ih (Nat.le_of_lt_succ more)]
        · have shorter : (front.rdropWhile (· = "")).length ≤ front.length :=
            (List.rdropWhile_prefix _ _).length_le
          rw [if_neg fun both => more both.1]
          omega
      · rw [List.rdropWhile_concat_neg _ _ _ (by simpa using empty), if_neg fun both => empty both.2,
          List.length_append, List.length_singleton]
        omega

theorem filled_isPrefix (rule : List String) : filled rule <+: rule := List.rdropWhile_prefix _ _

theorem trimRule_eq (rule : List String) : trimRule rule = filled rule := by
  rw [trimRule, filledLength_eq (Nat.zero_le _), Nat.zero_max]
  exact (List.prefix_iff_eq_take.mp (filled_isPrefix rule)).symm

theorem filled_append_replicate (rule : List String) (count : ℕ) :
    filled (rule ++ List.replicate count "") = filled rule := by
  unfold filled
  induction count with
  | zero => rw [List.replicate_zero, List.append_nil]
  | succ count ih =>
      rw [List.replicate_succ', ← List.append_assoc, List.rdropWhile_concat_pos _ _ _ (by simp), ih]

theorem filled_append (rule : List String) : ∃ count, rule = filled rule ++ List.replicate count "" := by
  refine ⟨(rule.rtakeWhile (· = "")).length, ?_⟩
  have empty : rule.rtakeWhile (· = "") = List.replicate (rule.rtakeWhile (· = "")).length "" := by
    refine List.eq_replicate_iff.mpr ⟨rfl, fun column listed => ?_⟩
    simpa using List.mem_rtakeWhile_imp listed
  rw [← empty]
  exact (List.rdropWhile_append_rtakeWhile (p := fun column => decide (column = "")) (l := rule)).symm

theorem filled_eq_self_iff : filled rule = rule ↔ rule.getLast? ≠ some "" := by
  unfold filled
  rw [List.rdropWhile_eq_self_iff]
  constructor
  · intro solid ends
    have filled : rule ≠ [] := by
      rintro rfl
      cases ends
    rw [List.getLast?_eq_some_getLast filled] at ends
    exact solid filled (by simpa using Option.some.inj ends)
  · intro ends filled_ empty
    rw [List.getLast?_eq_some_getLast filled_] at ends
    exact ends (congrArg some (by simpa using empty))

theorem filled_filled (rule : List String) : filled (filled rule) = filled rule := List.rdropWhile_idempotent _ _

theorem values_buildRuleFromPolicy (ptype : String) (short : rule.length ≤ 6) :
    (buildRuleFromPolicy ptype rule).values = rule ++ List.replicate (6 - rule.length) "" := by
  match rule, short with
  | [], _ | [_], _ | [_, _], _ | [_, _, _], _ | [_, _, _, _], _ | [_, _, _, _, _], _ | [_, _, _, _, _, _], _ => rfl
  | _ :: _ :: _ :: _ :: _ :: _ :: _ :: _, long =>
      simp only [List.length_cons] at long
      omega

end Trimming

section Lines

variable {ptype : PolicyType} {rule : List String}

def letters (rule : List String) : List (List Char) := rule.map String.toList

theorem opens_name (ptype : PolicyType) : Opens ptype.name.toList := by
  cases ptype with
  | p => exact ⟨plain_of_all (by decide) (by decide), 'p', [], rfl, by decide, by decide⟩
  | g => exact ⟨plain_of_all (by decide) (by decide), 'g', [], rfl, by decide, by decide⟩

theorem toList_intercalate_cons (first : String) (others : List String) :
    (", ".intercalate (first :: others)).toList = render first.toList (letters others) := by
  induction others generalizing first with
  | nil =>
      rw [String.intercalate_singleton]
      exact (List.append_nil _).symm
  | cons second rest ih =>
      rw [String.intercalate_cons_cons, String.toList_append, String.toList_append, ih]
      simp [letters, render]

theorem toList_buildPolicyLine (ptype : PolicyType) (short : rule.length ≤ 6) :
    (buildPolicyLine (buildRuleFromPolicy ptype.name rule)).toList =
      render ptype.name.toList (letters (filled rule)) := by
  unfold buildPolicyLine
  rw [values_buildRuleFromPolicy ptype.name short, trimRule_eq, filled_append_replicate]
  cases filled rule with
  | nil =>
      rw [if_pos rfl]
      exact (List.append_nil _).symm
  | cons first others =>
      rw [if_neg (List.cons_ne_nil _ _), String.toList_append, String.toList_append, toList_intercalate_cons]
      simp [letters, render, buildRuleFromPolicy]

theorem head?_render_name (ptype : PolicyType) (others : List (List Char)) :
    (render ptype.name.toList others).head? = ptype.name.toList.head? := by
  cases ptype <;> rfl

theorem loadPolicyLine_stored (ptype : PolicyType) (short : rule.length ≤ 6) :
    loadPolicyLine (buildPolicyLine (buildRuleFromPolicy ptype.name rule)) =
      (readRecord (render ptype.name.toList (letters (filled rule)))).map fun fields =>
        some (fields.map String.ofList) := by
  have line := toList_buildPolicyLine ptype short
  have kept : ¬ (buildPolicyLine (buildRuleFromPolicy ptype.name rule) = "" ∨
      (buildPolicyLine (buildRuleFromPolicy ptype.name rule)).toList.head? = some '#') := by
    have head := head?_render_name ptype (letters (filled rule))
    rw [← line] at head
    rintro (empty | comment)
    · rw [empty] at head
      cases ptype <;> cases head
    · rw [comment] at head
      cases ptype <;> cases head
  rw [loadPolicyLine, if_neg kept, line]

end Lines

section Reloading

variable {ptype : PolicyType} {rule : List String}

/-- A rule that a reload reads back: its last column is not empty and does not end with a return, and each of them has no
comma, no quote, no line end and no blank in front. -/
structure Reloads (rule : List String) : Prop where
  ends : rule.getLast? ≠ some ""
  plain : ∀ column ∈ rule, Plain column.toList
  noReturn : ∀ last, rule.getLast? = some last → last.toList.getLast? ≠ some '\r'

theorem quotes_replicate (fields : List (List Char)) (count : ℕ) :
    quotes (fields ++ List.replicate count []) = quotes fields := by
  unfold quotes
  rw [List.flatten_append, List.flatten_replicate_nil, List.append_nil]

theorem quotes_filled (rule : List String) : quotes (letters rule) = quotes (letters (filled rule)) := by
  obtain ⟨count, whole⟩ := filled_append rule
  have empty : letters (List.replicate count "") = List.replicate count [] := by
    rw [letters, List.map_replicate]
    rfl
  conv_lhs => rw [whole, letters, List.map_append]
  exact (congrArg (fun columns => quotes (letters (filled rule) ++ columns)) empty).trans (quotes_replicate _ count)

theorem quotes_cons {first : List Char} (plain : Plain first) (others : List (List Char)) :
    quotes (first :: others) = quotes others := by
  have none_ : first.count '"' = 0 := List.count_eq_zero.mpr fun listed => (plain.letters _ listed).2.2 rfl
  unfold quotes
  rw [List.flatten_cons, List.count_append, none_, Nat.zero_add]

theorem letters_append (first second : List String) : letters (first ++ second) = letters first ++ letters second :=
  List.map_append

theorem letters_injective {first second : List String} (same : letters first = letters second) : first = second :=
  List.map_injective_iff.mpr (fun _ _ equal => String.toList_inj.mp equal) same

theorem getLast?_render (first : List Char) (front : List (List Char)) {last : List Char} (some_ : last ≠ []) :
    (render first (front ++ [last])).getLast? = last.getLast? := by
  unfold render
  rw [List.flatMap_append, List.flatMap_singleton, ← List.append_assoc, List.getLast?_append, List.getLast?_cons,
    List.getLast?_cons, List.getLast?_eq_some_getLast some_]
  rfl

theorem plain_of_append {front behind : List Char} (plain : Plain (front ++ behind)) : Plain front where
  letters letter listed := plain.letters letter (List.mem_append_left _ listed)
  starts letter first := plain.starts letter (by rw [List.head?_append, first]; rfl)

theorem line_getLast? (ptype : PolicyType) {rule : List String} (ends : rule.getLast? ≠ some "") :
    (render ptype.name.toList (letters rule)).getLast? = some '\r' ↔
      ∃ last, rule.getLast? = some last ∧ last.toList.getLast? = some '\r' := by
  rcases List.eq_nil_or_concat rule with rfl | ⟨front, last, rfl⟩
  · constructor
    · intro back
      cases ptype <;> cases back
    · rintro ⟨last, none_, _⟩
      cases none_
  · rw [List.concat_eq_append, List.getLast?_concat] at ends ⊢
    have some_ : last.toList ≠ [] := fun empty => ends (congrArg some (String.toList_eq_nil_iff.mp empty))
    rw [letters_append]
    have same : letters [last] = [last.toList] := rfl
    rw [same, getLast?_render _ _ some_]
    constructor
    · intro back
      exact ⟨last, rfl, back⟩
    · rintro ⟨other, equal, back⟩
      rw [Option.some.inj equal]
      exact back

theorem readRecord_filled (ptype : PolicyType) (plain : ∀ column ∈ rule, Plain column.toList) :
    (render ptype.name.toList (letters (filled rule))).getLast? ≠ some '\r' ∧
      readRecord (render ptype.name.toList (letters (filled rule))) =
        .ok (ptype.name.toList :: letters (filled rule)) ∨
    ∃ front last stem, filled rule = front ++ [last] ∧ last.toList = stem ++ ['\r'] ∧
      readRecord (render ptype.name.toList (letters (filled rule))) =
        .ok (ptype.name.toList :: (letters front ++ [stem])) := by
  have opens := opens_name ptype
  have plainFilled : ∀ field ∈ letters (filled rule), Plain field := by
    intro field listed
    obtain ⟨column, inside, rfl⟩ := List.mem_map.mp listed
    exact plain column ((filled_isPrefix rule).subset inside)
  by_cases back : (render ptype.name.toList (letters (filled rule))).getLast? = some '\r'
  · right
    have solid : (filled rule).getLast? ≠ some "" := filled_eq_self_iff.mp (filled_filled rule)
    obtain ⟨last, final, ends⟩ := (line_getLast? ptype solid).mp back
    obtain ⟨front, split⟩ := List.getLast?_eq_some_iff.mp final
    obtain ⟨stem, spelled⟩ := List.getLast?_eq_some_iff.mp ends
    have columns : letters (filled rule) = letters front ++ [stem ++ ['\r']] := by
      rw [split, letters_append, ← spelled]
      rfl
    have shorter : ∀ field ∈ letters front ++ [stem], Plain field := by
      rw [columns] at plainFilled
      intro field listed
      rcases List.mem_append.mp listed with earlier | here
      · exact plainFilled field (List.mem_append_left _ earlier)
      · rw [List.mem_singleton.mp here]
        exact plain_of_append (plainFilled _ (List.mem_append_right _ List.mem_cons_self))
    exact ⟨front, last, stem, split, spelled, by rw [columns]; exact readRecord_render_return opens shorter⟩
  · exact .inl ⟨back, readRecord_render opens plainFilled back⟩

theorem readRecord_iff (ptype : PolicyType) (rule : List String) :
    readRecord (render ptype.name.toList (letters (filled rule))) = .ok (ptype.name.toList :: letters rule) ↔
      Reloads rule := by
  have opens := opens_name ptype
  constructor
  · intro read
    have same : quotes (ptype.name.toList :: letters rule) = quotes (letters (filled rule)) := by
      rw [quotes_cons opens.plain, quotes_filled]
    have plain : ∀ column ∈ rule, Plain column.toList := fun column listed =>
      plain_of_readRecord opens read same _ (List.mem_cons_of_mem _ (List.mem_map_of_mem listed))
    rcases readRecord_filled ptype plain with ⟨back, whole⟩ | ⟨front, last, stem, split, spelled, cut⟩
    · rw [whole] at read
      have settled := letters_injective (List.cons.inj (Except.ok.inj read)).2
      refine ⟨filled_eq_self_iff.mp settled, plain, fun last final ends => back ?_⟩
      rw [settled, line_getLast? ptype (filled_eq_self_iff.mp settled)]
      exact ⟨last, final, ends⟩
    · -- the return is lost, so the last column is not the one that was stored
      rw [cut] at read
      obtain ⟨count, padded⟩ := filled_append rule
      have stored := (List.cons.inj (Except.ok.inj read)).2
      rw [padded, split, List.append_assoc, letters_append] at stored
      have equal : stem = last.toList := (List.cons.inj (List.append_cancel_left stored)).1
      rw [spelled] at equal
      exact absurd (congrArg List.length equal) (by simp)
  · intro reloads
    have back : (render ptype.name.toList (letters rule)).getLast? ≠ some '\r' := by
      rw [ne_eq, line_getLast? ptype reloads.ends]
      rintro ⟨last, final, ends⟩
      exact reloads.noReturn last final ends
    rw [filled_eq_self_iff.mpr reloads.ends]
    refine readRecord_render opens (fun field listed => ?_) back
    obtain ⟨column, inside, rfl⟩ := List.mem_map.mp listed
    exact reloads.plain column inside

theorem loadPolicyLine_iff (ptype : PolicyType) (short : rule.length ≤ 6) :
    loadPolicyLine (buildPolicyLine (buildRuleFromPolicy ptype.name rule)) = .ok (some (ptype.name :: rule)) ↔
      Reloads rule := by
  have text : ∀ fields : List (List Char), fields.map String.ofList = ptype.name :: rule ↔
      fields = ptype.name.toList :: letters rule := by
    intro fields
    constructor
    · intro same
      have back : letters (fields.map String.ofList) = fields := by
        rw [letters, List.map_map]
        exact List.map_id'' (fun field => String.toList_ofList) fields
      rw [← back, same]
      rfl
    · rintro rfl
      rw [List.map_cons, String.ofList_toList, letters, List.map_map]
      exact congrArg (ptype.name :: ·) (List.map_id'' (fun column => String.ofList_toList) rule)
  rw [loadPolicyLine_stored ptype short, ← readRecord_iff ptype rule]
  cases read : readRecord (render ptype.name.toList (letters (filled rule))) with
  | error found =>
      constructor
      · intro same
        cases same
      · intro same
        cases same
  | ok fields =>
      rw [Except.map, Except.ok.injEq, Except.ok.injEq, Option.some_inj]
      exact text fields

end Reloading

section Requests

/-- `policyRuleFromCreate`, of the columns of a request. -/
def policyRuleFromCreate (request : CasbinRule) : List String := normalizePolicyRule request.values

def policyRuleFromModel (row : CasbinRule) : List String := normalizePolicyRule row.values

/-- The tuple that `doCreatePolicy` adds. -/
def createdRule (request : CasbinRule) : List String := policyRuleParams (policyRuleFromCreate request)

def createdRow (ptype : PolicyType) (request : CasbinRule) : CasbinRule :=
  buildRuleFromPolicy ptype.name (createdRule request)

/-- The tuple that `doUpdatePolicy` looks for. -/
def updatedRule (row : CasbinRule) : List String := trimPolicyRule (policyRuleFromModel row)

/-- The tuple that `doDeletePolicy` looks for. -/
def deletedRule (row : CasbinRule) : List String := policyRuleParams (policyRuleFromModel row)

/-- An update and a deletion look for the tuple in memory, both before and after a reload. -/
def AlwaysFound (ptype : PolicyType) (request : CasbinRule) : Prop :=
  ∃ reloaded, loadPolicyLine (buildPolicyLine (createdRow ptype request)) = .ok (some (ptype.name :: reloaded)) ∧
    ∀ rule ∈ [createdRule request, reloaded],
      updatedRule (createdRow ptype request) = rule ∧ deletedRule (createdRow ptype request) = rule

variable {columns : List String}

theorem normalizePolicyRule_eq (full : columns.length = 6) : normalizePolicyRule columns = columns := by
  rw [normalizePolicyRule, normalized, policyFieldCount, List.take_append_of_le_length (Nat.le_of_eq full.symm),
    List.take_of_length_le (Nat.le_of_eq full)]

theorem trimPolicyRule_eq (full : columns.length = 6) : trimPolicyRule columns = filled columns := by
  rw [trimPolicyRule, normalizePolicyRule_eq full, policyFieldCount, ← full, filledLength_eq (Nat.zero_le _),
    Nat.zero_max]
  exact (List.prefix_iff_eq_take.mp (filled_isPrefix columns)).symm

theorem policyRuleParams_eq (full : columns.length = 6) :
    policyRuleParams columns = columns.take (max 3 (filled columns).length) := by
  have long : 3 ≤ columns.length := by omega
  rw [policyRuleParams, normalizePolicyRule_eq full, policyFieldCount]
  conv_lhs => rw [← full, filledLength_eq long]

theorem take_append_replicate (full : columns.length = 6) {length : ℕ} (enough : (filled columns).length ≤ length)
    (within : length ≤ 6) : columns.take length ++ List.replicate (6 - length) "" = columns := by
  obtain ⟨count, whole⟩ := filled_append columns
  have counted : (filled columns).length + count = 6 := by
    rw [← full]
    conv_rhs => rw [whole, List.length_append, List.length_replicate]
  conv_lhs => rw [whole, List.take_append, List.take_of_length_le enough, List.take_replicate, List.append_assoc,
    List.replicate_append_replicate]
  conv_rhs => rw [whole]
  congr 2
  omega

theorem length_values (request : CasbinRule) : request.values.length = 6 := rfl

theorem policyRuleFromModel_createdRow (ptype : PolicyType) (request : CasbinRule) :
    policyRuleFromModel (createdRow ptype request) = request.values := by
  have full := length_values request
  have short : (filled request.values).length ≤ 6 := by
    rw [← full]
    exact (filled_isPrefix _).length_le
  have cut : (createdRule request).length = max 3 (filled request.values).length := by
    rw [createdRule, policyRuleFromCreate, normalizePolicyRule_eq full, policyRuleParams_eq full, List.length_take, full]
    omega
  have stored : (createdRow ptype request).values = request.values := by
    rw [createdRow, values_buildRuleFromPolicy _ (by omega), cut, createdRule, policyRuleFromCreate,
      normalizePolicyRule_eq full, policyRuleParams_eq full]
    exact take_append_replicate full (Nat.le_max_right _ _) (by omega)
  rw [policyRuleFromModel, stored, normalizePolicyRule_eq full]

theorem alwaysFound_iff (ptype : PolicyType) (request : CasbinRule) :
    AlwaysFound ptype request ↔
      3 ≤ (trimPolicyRule request.values).length ∧ Reloads (trimPolicyRule request.values) := by
  have full := length_values request
  have short : (filled request.values).length ≤ 6 := by
    rw [← full]
    exact (filled_isPrefix _).length_le
  have created : createdRule request = request.values.take (max 3 (filled request.values).length) := by
    rw [createdRule, policyRuleFromCreate, normalizePolicyRule_eq full, policyRuleParams_eq full]
  have updated : updatedRule (createdRow ptype request) = filled request.values := by
    rw [updatedRule, policyRuleFromModel_createdRow, trimPolicyRule_eq full]
  have deleted : deletedRule (createdRow ptype request) = createdRule request := by
    rw [deletedRule, policyRuleFromModel_createdRow, createdRule, policyRuleFromCreate, normalizePolicyRule_eq full]
  have long : 3 ≤ (filled request.values).length → createdRule request = filled request.values := by
    intro enough
    rw [created, Nat.max_eq_right enough]
    exact (List.prefix_iff_eq_take.mp (filled_isPrefix request.values)).symm
  rw [trimPolicyRule_eq full]
  unfold AlwaysFound
  rw [updated, deleted]
  constructor
  · rintro ⟨reloaded, loads, found⟩
    have fresh := (found _ (.head _)).1
    have later := (found reloaded (.tail _ (.head _))).1
    have enough : 3 ≤ (filled request.values).length := by
      rw [fresh, created, List.length_take, full]
      omega
    refine ⟨enough, ?_⟩
    rw [← later, createdRow, ← fresh] at loads
    exact (loadPolicyLine_iff ptype short).mp loads
  · rintro ⟨enough, reloads⟩
    refine ⟨filled request.values, ?_, ?_⟩
    · rw [createdRow, long enough]
      exact (loadPolicyLine_iff ptype short).mpr reloads
    · rw [long enough]
      intro rule listed
      rcases List.mem_cons.mp listed with same | later
      · exact ⟨same.symm, same.symm⟩
      · have same := List.mem_singleton.mp later
        exact ⟨same.symm, same.symm⟩

end Requests

section Memory

abbrev Policy := PolicyType × List String

def tuple (policy : Policy) : List String := policy.1.name :: policy.2

def stored (policy : Policy) : CasbinRule := buildRuleFromPolicy policy.1.name policy.2

theorem name_injective : Function.Injective PolicyType.name := by
  intro first second same
  cases first with
  | p =>
      cases second with
      | p => rfl
      | g => exact absurd same (by decide)
  | g =>
      cases second with
      | p => exact absurd same (by decide)
      | g => rfl

theorem tuple_injective : Function.Injective tuple := by
  intro first second same
  obtain ⟨ptype, rule⟩ := first
  obtain ⟨other, column⟩ := second
  exact Prod.ext (name_injective (List.cons.inj same).1) (List.cons.inj same).2

theorem mem_loadPolicy {memory loaded : List (List String)} {rows : List CasbinRule}
    (ran : loadPolicy memory rows = .ok loaded) (found : List String) :
    found ∈ loaded ↔ found ∈ memory ∨ ∃ row ∈ rows, loadPolicyLine (buildPolicyLine row) = .ok (some found) := by
  induction rows generalizing memory with
  | nil =>
      cases ran
      simp
  | cons row rest ih =>
      rw [loadPolicy] at ran
      obtain ⟨line, read, ran⟩ := bind_eq_ok.mp ran
      rw [List.exists_mem_cons_iff, read]
      cases line with
      | none =>
          rw [ih ran]
          simp
      | some first =>
          rw [ih ran, Except.ok.injEq, Option.some_inj, ← or_assoc]
          refine or_congr_left ?_
          split
          · next there =>
              constructor
              · exact Or.inl
              · rintro (before | rfl)
                · exact before
                · exact there
          · rw [List.mem_append, List.mem_singleton, eq_comm]

theorem read_of_loadPolicy {memory loaded : List (List String)} {rows : List CasbinRule}
    (ran : loadPolicy memory rows = .ok loaded) : ∀ row ∈ rows, ∃ line, loadPolicyLine (buildPolicyLine row) = .ok line := by
  induction rows generalizing memory with
  | nil => exact fun row listed => absurd listed List.not_mem_nil
  | cons first rest ih =>
      rw [loadPolicy] at ran
      obtain ⟨line, read, ran⟩ := bind_eq_ok.mp ran
      refine List.forall_mem_cons.mpr ⟨⟨line, read⟩, ?_⟩
      cases line with
      | none => exact ih ran
      | some found => exact ih ran

theorem loadPolicy_ok {memory : List (List String)} {rows : List CasbinRule}
    (reads : ∀ row ∈ rows, ∃ line, loadPolicyLine (buildPolicyLine row) = .ok line) :
    ∃ loaded, loadPolicy memory rows = .ok loaded := by
  induction rows generalizing memory with
  | nil => exact ⟨memory, rfl⟩
  | cons row rest ih =>
      obtain ⟨⟨line, read⟩, others⟩ := List.forall_mem_cons.mp reads
      rw [loadPolicy, read]
      cases line with
      | none => exact ih others
      | some found => exact ih others

theorem eq_of_sum_eq {Value : Type} {before after : Value → ℕ} {values : List Value}
    (le : ∀ value ∈ values, after value ≤ before value) (same : (values.map after).sum = (values.map before).sum) :
    ∀ value ∈ values, after value = before value := by
  induction values with
  | nil => exact fun value listed => absurd listed List.not_mem_nil
  | cons first rest ih =>
      obtain ⟨here, later⟩ := List.forall_mem_cons.mp le
      have others : (rest.map after).sum ≤ (rest.map before).sum := List.sum_le_sum later
      rw [List.map_cons, List.map_cons, List.sum_cons, List.sum_cons] at same
      exact List.forall_mem_cons.mpr ⟨by omega, ih later (by omega)⟩

/-- How large a tuple is: its letters and its columns. -/
def size (rule : List String) : ℕ := (rule.map fun column => column.toList.length + 1).sum

theorem size_append (first second : List String) : size (first ++ second) = size first + size second := by
  rw [size, List.map_append, List.sum_append]
  rfl

theorem size_loaded {ptype : PolicyType} {rule loaded : List String} (short : rule.length ≤ 6)
    (plain : ∀ column ∈ rule, Plain column.toList)
    (read : loadPolicyLine (buildPolicyLine (buildRuleFromPolicy ptype.name rule)) = .ok (some loaded)) :
    size loaded ≤ size (ptype.name :: rule) ∧
      (size loaded = size (ptype.name :: rule) → loaded = ptype.name :: rule) := by
  rw [loadPolicyLine_stored ptype short] at read
  obtain ⟨count, padded⟩ := filled_append rule
  have larger : size (ptype.name :: rule) = size (ptype.name :: filled rule) + count := by
    have empty : size (List.replicate count "") = count := by simp [size]
    conv_lhs => rw [padded, ← List.cons_append, size_append, empty]
  rcases readRecord_filled ptype plain with ⟨_, whole⟩ | ⟨front, last, stem, split, spelled, cut⟩
  · rw [whole, Except.map, Except.ok.injEq, Option.some_inj, List.map_cons, String.ofList_toList, letters,
      List.map_map] at read
    have same : loaded = ptype.name :: filled rule := by
      rw [← read]
      exact congrArg (ptype.name :: ·) (List.map_id'' (fun column => String.ofList_toList) _)
    rw [same, larger]
    refine ⟨by omega, fun equal => ?_⟩
    have none_ : count = 0 := by omega
    rw [none_, List.replicate_zero, List.append_nil] at padded
    rw [← padded]
  · rw [cut, Except.map, Except.ok.injEq, Option.some_inj] at read
    have same : loaded = ptype.name :: (front ++ [String.ofList stem]) := by
      rw [← read, List.map_cons, String.ofList_toList, List.map_append, letters, List.map_map]
      exact congrArg (fun columns => ptype.name :: (columns ++ [String.ofList stem]))
        (List.map_id'' (fun column => String.ofList_toList) front)
    have shorter : size loaded < size (ptype.name :: filled rule) := by
      rw [same, split, ← List.cons_append, ← List.cons_append, size_append, size_append]
      have less : size [String.ofList stem] < size [last] := by simp [size, spelled]
      omega
    rw [larger]
    exact ⟨by omega, fun equal => by omega⟩

variable {memory : List Policy}

theorem quotes_loaded {ptype : PolicyType} {rule loaded : List String} (short : rule.length ≤ 6)
    (read : loadPolicyLine (buildPolicyLine (buildRuleFromPolicy ptype.name rule)) = .ok (some loaded)) :
    quotes (letters loaded) ≤ quotes (letters (ptype.name :: rule)) ∧
      (quotes (letters loaded) = quotes (letters (ptype.name :: rule)) → ∀ column ∈ loaded, Plain column.toList) := by
  have opens := opens_name ptype
  rw [loadPolicyLine_stored ptype short] at read
  cases record : readRecord (render ptype.name.toList (letters (filled rule))) with
  | error found =>
      rw [record] at read
      cases read
  | ok fields =>
      rw [record, Except.map, Except.ok.injEq, Option.some_inj] at read
      have same : letters loaded = fields := by
        rw [← read, letters, List.map_map]
        exact List.map_id'' (fun field => String.toList_ofList) fields
      have before : quotes (letters (ptype.name :: rule)) = quotes (letters (filled rule)) :=
        (quotes_cons opens.plain (letters rule)).trans (quotes_filled rule)
      rw [same, before]
      refine ⟨quotes_readRecord opens record, fun equal column listed => ?_⟩
      exact plain_of_readRecord opens record equal _ (same ▸ List.mem_map_of_mem listed)

theorem loadPolicy_iff (distinct : memory.Nodup) (short : ∀ policy ∈ memory, policy.2.length ≤ 6) :
    (∃ loaded, loadPolicy [] (memory.map stored) = .ok loaded ∧
      ∀ found, found ∈ loaded ↔ found ∈ memory.map tuple) ↔ ∀ policy ∈ memory, Reloads policy.2 := by
  constructor
  · rintro ⟨loaded, ran, same⟩
    -- the tuple that is loaded for each of the policies
    have reads : ∀ policy ∈ memory, ∃ found, loadPolicyLine (buildPolicyLine (stored policy)) = .ok (some found) := by
      intro policy listed
      obtain ⟨line, read⟩ := read_of_loadPolicy ran _ (List.mem_map_of_mem listed)
      rw [stored, loadPolicyLine_stored policy.1 (short policy listed)] at read ⊢
      cases record : readRecord (render policy.1.name.toList (letters (filled policy.2))) with
      | error found =>
          rw [record] at read
          cases read
      | ok fields => exact ⟨_, rfl⟩
    choose! image loads using reads
    have images : ∀ found, found ∈ memory.map tuple ↔ found ∈ memory.map image := by
      intro found
      rw [← same, mem_loadPolicy ran, List.mem_map]
      constructor
      · rintro (none_ | ⟨row, listed, read⟩)
        · cases none_
        · obtain ⟨policy, inside, rfl⟩ := List.mem_map.mp listed
          rw [loads policy inside] at read
          cases read
          exact ⟨policy, inside, rfl⟩
      · rintro ⟨policy, inside, rfl⟩
        exact .inr ⟨_, List.mem_map_of_mem inside, loads policy inside⟩
    have perm : (memory.map tuple).Perm (memory.map image) := by
      have within : (memory.map tuple).Subperm (memory.map image) :=
        List.subperm_of_subset (distinct.map tuple_injective) fun found listed => (images found).mp listed
      exact within.perm_of_length_le (by rw [List.length_map, List.length_map])
    have total (weight : List String → ℕ) :
        (memory.map fun policy => weight (image policy)).sum = (memory.map fun policy => weight (tuple policy)).sum := by
      have sums := (perm.map weight).sum_eq
      rw [List.map_map, List.map_map] at sums
      exact sums.symm
    -- no quotes are lost, so all columns are plain
    have plain : ∀ policy ∈ memory, ∀ column ∈ policy.2, Plain column.toList := by
      have equal := eq_of_sum_eq (fun policy listed => (quotes_loaded (short policy listed) (loads policy listed)).1)
        (total fun columns => quotes (letters columns))
      intro policy listed column inside
      obtain ⟨other, there, image_⟩ := List.mem_map.mp ((images _).mp (List.mem_map_of_mem listed))
      refine (quotes_loaded (short other there) (loads other there)).2 (equal other there) column ?_
      rw [image_]
      exact List.mem_cons_of_mem _ inside
    -- and none gets smaller, so each is loaded as it was
    have equal := eq_of_sum_eq (fun policy listed =>
      (size_loaded (short policy listed) (plain policy listed) (loads policy listed)).1) (total size)
    intro policy listed
    have whole := (size_loaded (short policy listed) (plain policy listed) (loads policy listed)).2 (equal policy listed)
    rw [← loadPolicyLine_iff policy.1 (short policy listed), ← whole]
    exact loads policy listed
  · intro reloads
    have reads : ∀ policy ∈ memory, loadPolicyLine (buildPolicyLine (stored policy)) = .ok (some (tuple policy)) :=
      fun policy listed => (loadPolicyLine_iff policy.1 (short policy listed)).mpr (reloads policy listed)
    obtain ⟨loaded, ran⟩ : ∃ loaded, loadPolicy [] (memory.map stored) = .ok loaded := by
      refine loadPolicy_ok fun row listed => ?_
      obtain ⟨policy, inside, rfl⟩ := List.mem_map.mp listed
      exact ⟨_, reads policy inside⟩
    refine ⟨loaded, ran, fun found => ?_⟩
    rw [mem_loadPolicy ran, List.mem_map]
    constructor
    · rintro (none_ | ⟨row, listed, read⟩)
      · cases none_
      · obtain ⟨policy, inside, rfl⟩ := List.mem_map.mp listed
        rw [reads policy inside] at read
        cases read
        exact ⟨policy, inside, rfl⟩
    · rintro ⟨policy, inside, rfl⟩
      exact .inr ⟨_, List.mem_map_of_mem inside, reads policy inside⟩

end Memory

section Results

theorem updatePolicy_eq (row : CasbinRule) {rule : List String} (short : rule.length ≤ 6) :
    row.updatePolicy rule = buildRuleFromPolicy row.ptype rule := by
  have padded : normalizeRule rule = rule ++ List.replicate (6 - rule.length) "" := by
    rw [normalizeRule, normalized, List.take_append, List.take_of_length_le short, List.take_replicate]
    congr 2
    omega
  rw [CasbinRule.updatePolicy, padded]
  match rule, short with
  | [], _ | [_], _ | [_, _], _ | [_, _, _], _ | [_, _, _, _], _ | [_, _, _, _, _], _ | [_, _, _, _, _, _], _ => rfl
  | _ :: _ :: _ :: _ :: _ :: _ :: _ :: _, long =>
      simp only [List.length_cons] at long
      omega

/-- **When policies survive a reload.** A policy that was added or rewritten is loaded as it was exactly where its last
column is not empty and does not end with a return, and none has a comma, a quote, a line end or a blank in front; and the
policies in memory are the same after a reload exactly where that holds of each. A created policy is always found again
exactly where moreover it has three columns up to the last that is not empty. -/
theorem policies_survive_reload (ptype : PolicyType) :
    (∀ rule : List String, rule.length ≤ 6 →
      (loadPolicyLine (buildPolicyLine (buildRuleFromPolicy ptype.name rule)) = .ok (some (ptype.name :: rule)) ↔
        Reloads rule)) ∧
    (∀ (row : CasbinRule) (rule : List String), row.ptype = ptype.name → rule.length ≤ 6 →
      (loadPolicyLine (buildPolicyLine (row.updatePolicy rule)) = .ok (some (ptype.name :: rule)) ↔ Reloads rule)) ∧
    (∀ memory : List Policy, memory.Nodup → (∀ policy ∈ memory, policy.2.length ≤ 6) →
      ((∃ loaded, loadPolicy [] (memory.map stored) = .ok loaded ∧
        ∀ found, found ∈ loaded ↔ found ∈ memory.map tuple) ↔ ∀ policy ∈ memory, Reloads policy.2)) ∧
    (∀ request : CasbinRule, AlwaysFound ptype request ↔
      3 ≤ (trimPolicyRule request.values).length ∧ Reloads (trimPolicyRule request.values)) := by
  refine ⟨fun rule short => loadPolicyLine_iff ptype short, fun row rule typed short => ?_,
    fun memory distinct short => loadPolicy_iff distinct short, alwaysFound_iff ptype⟩
  rw [updatePolicy_eq row short, typed]
  exact loadPolicyLine_iff ptype short

/-- A policy of four plain columns is loaded as it was. -/
theorem policies_survive_reload_sample :
    loadPolicyLine (buildPolicyLine (buildRuleFromPolicy "p" ["admin", "*", "skill", "read all"])) =
      .ok (some ["p", "admin", "*", "skill", "read all"]) := by
  refine ((policies_survive_reload .p).1 ["admin", "*", "skill", "read all"] (by decide)).mpr ⟨by decide, ?_, ?_⟩
  · intro column listed
    simp only [List.mem_cons, List.not_mem_nil, or_false] at listed
    rcases listed with rfl | rfl | rfl | rfl <;> exact plain_of_all (by decide) (by decide)
  · intro last final
    cases final
    decide

/-- A tuple whose last column is empty is loaded shorter, a column with a comma is loaded as two, and a policy that was
created with two columns is not found by an update, nor after a reload by a deletion. -/
theorem policies_not_reloaded :
    loadPolicyLine (buildPolicyLine (buildRuleFromPolicy "p" ["admin", "project", ""])) =
      .ok (some ["p", "admin", "project"]) ∧
    loadPolicyLine (buildPolicyLine (buildRuleFromPolicy "g" ["a,b", "role", "project"])) =
      .ok (some ["g", "a", "b", "role", "project"]) ∧
    createdRule { ptype := "p", v0 := "admin", v1 := "project" } = ["admin", "project", ""] ∧
    updatedRule (createdRow .p { ptype := "p", v0 := "admin", v1 := "project" }) = ["admin", "project"] ∧
    deletedRule (createdRow .p { ptype := "p", v0 := "admin", v1 := "project" }) = ["admin", "project", ""] := by
  decide

end Results

end Sico.Rbac.PolicyReload

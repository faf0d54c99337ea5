import Mathlib.Data.List.Sort
import Sico.Foundation.Members
import Sico.Foundation.Replacement
import Sico.TaskRuntime.RerunSources

/-! # The arguments of a skill step

The items of a step's command have placeholders, names in braces, and a group of optional items is taken where each of
the optional parameters that it names has a value. The values are put in one after the other, by replacing the braced
name in all of the text that is there by then. That is what putting them in at once gives (`argv_simultaneous`) as long as
no braced name is formed by the text around a value or inside it, and as long as the names are spelled without blanks.

A value that is no text has the `str` of the language, whose `repr` is a parameter.
-/

namespace Sico.Capabilities.ArgvSubstitution

open Foundation Replacement

open AgentLoop (strip)

open TaskRuntime.RerunSources (Members str)

section Placeholders

/-- A part of an item: text, or what stands between braces. -/
inductive Part where
  | text (letters : List Char)
  | placeholder (inner : List Char)
  deriving DecidableEq, Repr

def braced (name : List Char) : List Char := '{' :: name ++ ['}']

/-- The parts of a text as the pattern of placeholders finds them: between two braces there is something, and no brace.
What was read since a brace that is open stands before the text. -/
def partsFrom : Option (List Char) → List Char → List Part
  | none, [] => []
  | some inner, [] => [.text ('{' :: inner)]
  | none, letter :: rest =>
      if letter = '{' then partsFrom (some []) rest else .text [letter] :: partsFrom none rest
  | some inner, letter :: rest =>
      if letter = '{' then .text ('{' :: inner) :: partsFrom (some []) rest
      else if letter = '}' then
        (if inner = [] then .text ['{', '}'] else .placeholder inner) :: partsFrom none rest
      else partsFrom (some (inner ++ [letter])) rest

def parts (text : String) : List Part := partsFrom none text.toList

def placeholderNames (values : List String) : List String :=
  values.flatMap fun value => (parts value).filterMap fun part =>
    match part with
    | .text _ => none
    | .placeholder inner => if strip (String.ofList inner) = "" then none else some (strip (String.ofList inner))

end Placeholders

section Actions

/-- `ResolvedActionStep`, as far as the arguments of its command. -/
structure ResolvedActionStep where
  argv : List String
  optionalArgv : List (List String) := []

/-- `ResolvedAction`, as far as its steps and the names that they may use. -/
structure ResolvedAction where
  parameterNames : List String
  infraRequirements : List String := []
  steps : List ResolvedActionStep

def builtInStepPlaceholders : List String := ["workspace_dir", "result_dir", "_sandbox"]

variable (repr : List String → String)

/-- The placeholders of some values beside those that were used, which have to be valid ones. -/
def checkPlaceholders (field : String) (valid used values : List String) : Except String (List String) :=
  let invalid := (placeholderNames values).filter (· ∉ valid)
  if invalid = [] then .ok (used ++ placeholderNames values)
  else .error ("unsupported placeholders in " ++ field ++ ": " ++ repr (invalid.dedup.insertionSort (· ≤ ·)))

def checkStep (valid used : List String) (step : ResolvedActionStep) : Except String (List String) := do
  let used ← checkPlaceholders repr "argv" valid used step.argv
  step.optionalArgv.foldlM (checkPlaceholders repr "optional_argv" valid) used

def ResolvedAction.stepsNotEmpty (action : ResolvedAction) : Except String Unit :=
  if action.steps.isEmpty then .error "action steps are required"
  else do
    let valid := action.parameterNames ++ action.infraRequirements ++ builtInStepPlaceholders
    let used ← action.steps.foldlM (checkStep repr valid) []
    let unused := action.parameterNames.filter (· ∉ used)
    if unused ≠ [] then .error ("unused parameters: " ++ repr (unused.insertionSort (· ≤ ·)))
    else if "_sandbox" ∈ used ∧ action.infraRequirements = [] then
      .error "_sandbox requires sandbox infra_requirements"
    else .ok ()

/-- `infer_required_parameter_names`. -/
def ResolvedAction.requiredParameterNames (action : ResolvedAction) : List String :=
  action.parameterNames.filter (· ∈ action.steps.flatMap fun step => placeholderNames step.argv)

/-- `infer_optional_parameter_names`. -/
def ResolvedAction.optionalParameterNames (action : ResolvedAction) : List String :=
  action.parameterNames.filter (· ∉ action.requiredParameterNames)

end Actions

section Substitution

variable (repr : Json → String)

/-- `{**parameters, **path_placeholders}`, with the texts that are put in. -/
def entries (parameters : Members) (pathPlaceholders : List (String × String)) : List (String × String) :=
  (Foundation.Members.update parameters (pathPlaceholders.map fun path => (path.1, Json.str path.2))).map fun entry =>
    (entry.1, str repr entry.2)

/-- One pass of the loop of `_substitute_placeholders`. -/
def substituteOne (text : List Char) (entry : String × String) : List Char :=
  replace (braced entry.1.toList) entry.2.toList text

def substitutePlaceholders (parameters : Members) (pathPlaceholders : List (String × String)) (value : String) : String :=
  String.ofList ((entries repr parameters pathPlaceholders).foldl substituteOne value.toList)

def hasParameterValue (parameters : Members) (name : String) : Bool :=
  match Foundation.Members.get? parameters name with
  | none | some .null => false
  | some (.str text) => strip text ≠ ""
  | some _ => true

/-- Whether a group of optional items is taken. -/
def takesGroup (parameters : Members) (optionalParameterNames group : List String) : Bool :=
  let names := optionalParameterNames.filter fun name =>
    group.any fun value => braced name.toList <:+: value.toList
  names ≠ [] ∧ names.all (hasParameterValue parameters)

def buildStepArgv (step : ResolvedActionStep) (parameters : Members) (pathPlaceholders : List (String × String))
    (optionalParameterNames : List String) : List String :=
  step.optionalArgv.foldl (fun argv group =>
    if takesGroup parameters optionalParameterNames group then
      argv ++ group.map (substitutePlaceholders repr parameters pathPlaceholders)
    else argv) (step.argv.map (substitutePlaceholders repr parameters pathPlaceholders))

end Substitution

section AtOnce

/-- A part with the value of its name, which is read without the blanks around it. -/
def Part.filled (value : String → Option String) : Part → List Char
  | .text letters => letters
  | .placeholder inner =>
      match (if strip (String.ofList inner) = "" then none else value (strip (String.ofList inner))) with
      | some found => found.toList
      | none => braced inner

/-- A text with all of its placeholders replaced at once. -/
def simultaneous (value : String → Option String) (text : String) : String :=
  String.ofList ((parts text).flatMap (Part.filled value))

def takenItems (step : ResolvedActionStep) (parameters : Members) (optionalParameterNames : List String) : List String :=
  step.argv ++ (step.optionalArgv.filter (takesGroup parameters optionalParameterNames)).flatten

/-- A part with the value of its name as it is spelled. -/
def Part.exactly (entries : List (String × String)) : Part → List Char
  | .text letters => letters
  | .placeholder inner =>
      match Foundation.Members.get? entries (String.ofList inner) with
      | some found => found.toList
      | none => braced inner

/-- The parts of a text when the values of some names are put in. -/
def written (entries : List (String × String)) (parts : List Part) : List Char := parts.flatMap (Part.exactly entries)

/-- When the values of some names are put in, the braced name starts nowhere but where it was. -/
def StaysApart (done : List (String × String)) (key : String) : List Part → Prop
  | [] => True
  | part :: rest =>
      (part ≠ .placeholder key.toList → ¬ StartsIn (braced key.toList) (part.exactly done) (written done rest)) ∧
        StaysApart done key rest

/-- Each name is met by the loop only where the text has it. -/
def Untouched (entries : List (String × String)) (text : String) : Prop :=
  ∀ done key value later, entries = done ++ (key, value) :: later → StaysApart done key (parts text)

/-- Names that have a value are spelled without blanks. -/
def PlainlySpelled (entries : List (String × String)) (text : String) : Prop :=
  ∀ inner, .placeholder inner ∈ parts text → strip (String.ofList inner) = String.ofList inner ∨
    Foundation.Members.get? entries (String.ofList inner) = none ∧
      (strip (String.ofList inner) = "" ∨ Foundation.Members.get? entries (strip (String.ofList inner)) = none)

end AtOnce

section Parts

def Part.letters : Part → List Char
  | .text letters => letters
  | .placeholder inner => braced inner

theorem letters_partsFrom (opened : Option (List Char)) (text : List Char) :
    (partsFrom opened text).flatMap Part.letters = (opened.elim [] ('{' :: ·)) ++ text := by
  fun_induction partsFrom opened text with
  | case1 => rfl
  | case2 inner => simp [Part.letters]
  | case3 rest ih => simpa using ih
  | case4 letter rest other ih =>
      rw [List.flatMap_cons, ih]
      rfl
  | case5 inner rest ih =>
      rw [List.flatMap_cons, ih]
      rfl
  | case6 inner rest other ih =>
      rw [List.flatMap_cons, ih]
      split
      · next empty =>
          rw [empty]
          rfl
      · simp [Part.letters, braced]
  | case7 inner letter rest _ _ ih =>
      rw [ih]
      simp

theorem letters_parts (text : String) : (parts text).flatMap Part.letters = text.toList :=
  letters_partsFrom none text.toList

theorem inner_ne_nil {opened : Option (List Char)} {text inner : List Char}
    (listed : .placeholder inner ∈ partsFrom opened text) : inner ≠ [] := by
  fun_induction partsFrom opened text with
  | case1 => cases listed
  | case2 => simp at listed
  | case3 rest ih => exact ih listed
  | case4 letter rest other ih => exact ih (by simpa using listed)
  | case5 _ rest ih => exact ih (by simpa using listed)
  | case6 found rest other ih =>
      rcases List.mem_cons.mp listed with same | later
      · split at same
        · cases same
        · next some_ =>
            cases same
            exact some_
      · exact ih later
  | case7 _ letter rest _ _ ih => exact ih listed

end Parts

section Loop

variable {done entries : List (String × String)} {key value : String}

theorem written_cons (done : List (String × String)) (part : Part) (rest : List Part) :
    written done (part :: rest) = part.exactly done ++ written done rest := List.flatMap_cons

theorem get?_concat (done : List (String × String)) (key value other : String) :
    Foundation.Members.get? (done ++ [(key, value)]) other =
      (Foundation.Members.get? done other).or (if key = other then some value else none) := by
  induction done with
  | nil => exact Foundation.Members.get?_cons _ _ _
  | cons entry rest ih =>
      rw [List.cons_append, Foundation.Members.get?_cons, Foundation.Members.get?_cons, ih]
      split <;> rfl

theorem exactly_of_absent (absent : Foundation.Members.get? done key = none) :
    (Part.placeholder key.toList).exactly done = braced key.toList := by
  rw [Part.exactly, String.ofList_toList, absent]

theorem exactly_append {part : Part} (other : part ≠ .placeholder key.toList) :
    part.exactly (done ++ [(key, value)]) = part.exactly done := by
  cases part with
  | text letters => rfl
  | placeholder inner =>
      have different : key ≠ String.ofList inner := by
        rintro rfl
        rw [String.toList_ofList] at other
        exact other rfl
      rw [Part.exactly, get?_concat, if_neg different, Option.or_none]
      rfl

theorem replace_written (absent : Foundation.Members.get? done key = none) {parts : List Part}
    (apart : StaysApart done key parts) :
    replace (braced key.toList) value.toList (written done parts) = written (done ++ [(key, value)]) parts := by
  induction parts with
  | nil => rfl
  | cons part rest ih =>
      rw [written_cons, written_cons]
      by_cases own : part = .placeholder key.toList
      · subst own
        have some_ : braced key.toList ≠ [] := List.cons_ne_nil _ _
        have there : (Part.placeholder key.toList).exactly (done ++ [(key, value)]) = value.toList := by
          rw [Part.exactly, String.ofList_toList, get?_concat, absent, if_pos rfl]
          rfl
        rw [exactly_of_absent absent, replace_here some_, ih apart.2, there]
      · rw [replace_append (apart.1 own), ih apart.2, exactly_append own]

theorem foldl_written (distinct : (entries.map Prod.fst).Nodup) {text : String} (untouched : Untouched entries text)
    (done later : List (String × String)) (whole : entries = done ++ later) :
    later.foldl substituteOne (written done (parts text)) = written entries (parts text) := by
  induction later generalizing done with
  | nil => rw [List.foldl_nil, whole, List.append_nil]
  | cons entry rest ih =>
      obtain ⟨key, value⟩ := entry
      have absent : Foundation.Members.get? done key = none := by
        rw [whole, List.map_append, List.nodup_append] at distinct
        refine Foundation.Members.get?_eq_none.mpr fun entry listed same => ?_
        exact distinct.2.2 _ (List.mem_map.mpr ⟨entry, listed, same⟩) key (List.mem_map.mpr ⟨_, .head _, rfl⟩) rfl
      rw [List.foldl_cons, substituteOne, replace_written absent (untouched done key value rest whole)]
      exact ih (done ++ [(key, value)]) (by rw [whole, List.append_assoc]; rfl)

end Loop

section Values

variable (repr : Json → String) {parameters other : Members} {pathPlaceholders : List (String × String)}

theorem written_nil (text : String) : written [] (parts text) = text.toList := by
  rw [← letters_parts]
  refine List.flatMap_congr fun part _ => ?_
  cases part <;> rfl

theorem nodup_update {first second : Members} (distinct : (first.map Prod.fst).Nodup) :
    ((Foundation.Members.update first second).map Prod.fst).Nodup := by
  unfold Foundation.Members.update
  induction second generalizing first with
  | nil => exact distinct
  | cons member rest ih => exact ih (Foundation.Members.nodup_put distinct _ _)

theorem get?_update_congr {first second : Members}
    (same : ∀ name, Foundation.Members.get? first name = Foundation.Members.get? second name) (written : Members)
    (name : String) :
    Foundation.Members.get? (Foundation.Members.update first written) name =
      Foundation.Members.get? (Foundation.Members.update second written) name := by
  unfold Foundation.Members.update
  induction written generalizing first second with
  | nil => exact same name
  | cons member rest ih =>
      refine ih fun name => ?_
      rw [Foundation.Members.get?_put, Foundation.Members.get?_put, same]

theorem nodup_entries (distinct : (parameters.map Prod.fst).Nodup) (pathPlaceholders : List (String × String)) :
    ((entries repr parameters pathPlaceholders).map Prod.fst).Nodup := by
  unfold entries
  rw [List.map_map]
  exact nodup_update distinct

theorem get?_entries (parameters : Members) (pathPlaceholders : List (String × String)) (name : String) :
    Foundation.Members.get? (entries repr parameters pathPlaceholders) name =
      (Foundation.Members.get? (Foundation.Members.update parameters
        (pathPlaceholders.map fun path => (path.1, Json.str path.2))) name).map (str repr) := by
  unfold entries
  induction Foundation.Members.update parameters (pathPlaceholders.map fun path => (path.1, Json.str path.2)) with
  | nil => rfl
  | cons member rest ih =>
      rw [List.map_cons, Foundation.Members.get?_cons, Foundation.Members.get?_cons, ih]
      split <;> rfl

theorem filled_eq {found : List (String × String)} {text : String} (plain : PlainlySpelled found text) {part : Part}
    (listed : part ∈ parts text) : part.filled (Foundation.Members.get? found) = part.exactly found := by
  cases part with
  | text letters => rfl
  | placeholder inner =>
      unfold Part.filled Part.exactly
      dsimp only
      rcases plain inner listed with same | ⟨absent, blank | also⟩
      · have some_ : String.ofList inner ≠ "" := by
          intro empty
          refine inner_ne_nil listed ?_
          rw [← String.toList_ofList (l := inner), empty]
          rfl
        rw [same, if_neg some_]
      · rw [if_pos blank, absent]
      · rw [also, absent, ite_self]

theorem substitutePlaceholders_eq (distinct : (parameters.map Prod.fst).Nodup) {text : String}
    (untouched : Untouched (entries repr parameters pathPlaceholders) text)
    (plain : PlainlySpelled (entries repr parameters pathPlaceholders) text) :
    substitutePlaceholders repr parameters pathPlaceholders text =
      simultaneous (Foundation.Members.get? (entries repr parameters pathPlaceholders)) text := by
  have run := foldl_written (nodup_entries repr distinct pathPlaceholders) untouched []
    (entries repr parameters pathPlaceholders) rfl
  rw [written_nil] at run
  rw [substitutePlaceholders, run, simultaneous]
  refine congrArg String.ofList (List.flatMap_congr fun part listed => ?_)
  exact (filled_eq plain listed).symm

theorem buildStepArgv_eq (step : ResolvedActionStep) (parameters : Members) (pathPlaceholders : List (String × String))
    (optionalParameterNames : List String) :
    buildStepArgv repr step parameters pathPlaceholders optionalParameterNames =
      (takenItems step parameters optionalParameterNames).map
        (substitutePlaceholders repr parameters pathPlaceholders) := by
  unfold buildStepArgv takenItems
  generalize step.argv = argv
  induction step.optionalArgv generalizing argv with
  | nil => simp
  | cons group rest ih =>
      rw [List.foldl_cons, List.filter_cons]
      split
      · rw [← List.map_append, ih, List.flatten_cons, List.append_assoc]
      · exact ih argv

theorem takenItems_congr (step : ResolvedActionStep) {optionalParameterNames : List String}
    (same : ∀ name ∈ optionalParameterNames, hasParameterValue other name = hasParameterValue parameters name) :
    takenItems step other optionalParameterNames = takenItems step parameters optionalParameterNames := by
  unfold takenItems
  refine congrArg (fun groups : List (List String) => step.argv ++ groups.flatten)
    (List.filter_congr fun group _ => ?_)
  unfold takesGroup
  have all : (optionalParameterNames.filter fun name => group.any fun value => braced name.toList <:+: value.toList).all
      (hasParameterValue other) =
      (optionalParameterNames.filter fun name => group.any fun value => braced name.toList <:+: value.toList).all
        (hasParameterValue parameters) := by
    rw [Bool.eq_iff_iff, List.all_eq_true, List.all_eq_true]
    refine forall₂_congr fun name listed => ?_
    rw [same name (List.mem_filter.mp listed).1]
  dsimp only
  rw [all]

end Values

section Results

variable (repr : Json → String)

/-- What the items of a step are when the values are put in at once. -/
def simultaneousArgv (step : ResolvedActionStep) (parameters : Members) (pathPlaceholders : List (String × String))
    (optionalParameterNames : List String) : List String :=
  (takenItems step parameters optionalParameterNames).map
    (simultaneous (Foundation.Members.get? (entries repr parameters pathPlaceholders)))

/-- In each of the items that are taken the loop meets the names only where the item has them, and those that have a value
are plainly spelled. -/
def Settled (step : ResolvedActionStep) (parameters : Members) (pathPlaceholders : List (String × String))
    (optionalParameterNames : List String) : Prop :=
  ∀ item ∈ takenItems step parameters optionalParameterNames,
    Untouched (entries repr parameters pathPlaceholders) item ∧
      PlainlySpelled (entries repr parameters pathPlaceholders) item

/-- **When values are put in faithfully.** Where the names are met only in the items and are plainly spelled, each item has
all of its values as if they were put in at once, and so in whatever order the parameters are given. How many items there
are depends on which of the optional parameters have a value. -/
theorem argv_simultaneous (step : ResolvedActionStep) (pathPlaceholders : List (String × String))
    (optionalParameterNames : List String) :
    (∀ parameters : Members, (parameters.map Prod.fst).Nodup →
      Settled repr step parameters pathPlaceholders optionalParameterNames →
      buildStepArgv repr step parameters pathPlaceholders optionalParameterNames =
        simultaneousArgv repr step parameters pathPlaceholders optionalParameterNames) ∧
    (∀ parameters other : Members, (parameters.map Prod.fst).Nodup → parameters.Perm other →
      Settled repr step parameters pathPlaceholders optionalParameterNames →
      Settled repr step other pathPlaceholders optionalParameterNames →
      buildStepArgv repr step other pathPlaceholders optionalParameterNames =
        buildStepArgv repr step parameters pathPlaceholders optionalParameterNames) ∧
    (∀ parameters other : Members,
      (∀ name ∈ optionalParameterNames, hasParameterValue other name = hasParameterValue parameters name) →
      (buildStepArgv repr step other pathPlaceholders optionalParameterNames).length =
        (buildStepArgv repr step parameters pathPlaceholders optionalParameterNames).length) := by
  have atOnce : ∀ parameters : Members, (parameters.map Prod.fst).Nodup →
      Settled repr step parameters pathPlaceholders optionalParameterNames →
      buildStepArgv repr step parameters pathPlaceholders optionalParameterNames =
        simultaneousArgv repr step parameters pathPlaceholders optionalParameterNames := by
    intro parameters distinct settled
    rw [buildStepArgv_eq]
    exact List.map_congr_left fun item taken =>
      substitutePlaceholders_eq repr distinct (settled item taken).1 (settled item taken).2
  refine ⟨atOnce, fun parameters other distinct perm settled also => ?_, fun parameters other same => ?_⟩
  · have reads := Foundation.Members.get?_perm perm distinct
    have taken : takenItems step other optionalParameterNames = takenItems step parameters optionalParameterNames := by
      refine takenItems_congr step fun name _ => ?_
      unfold hasParameterValue
      rw [reads name]
    have values : Foundation.Members.get? (entries repr other pathPlaceholders) =
        Foundation.Members.get? (entries repr parameters pathPlaceholders) := by
      funext name
      rw [get?_entries, get?_entries, get?_update_congr fun name => (reads name).symm]
    rw [atOnce other ((perm.map Prod.fst).nodup_iff.mp distinct) also, atOnce parameters distinct settled,
      simultaneousArgv, simultaneousArgv, taken, values]
  · rw [buildStepArgv_eq, buildStepArgv_eq, List.length_map, List.length_map, takenItems_congr step same]

/-- A value with braces of its own is put in as it is where they name nothing. -/
theorem argv_simultaneous_sample :
    buildStepArgv (fun _ => "") { argv := ["\x7bsource\x7d"] } [("source", .str "\x7ba\x7d")] [] [] = ["\x7ba\x7d"] := by
  have settled : Settled (fun _ => "") { argv := ["\x7bsource\x7d"] } [("source", .str "\x7ba\x7d")] [] [] := by
    intro item taken
    cases List.mem_singleton.mp taken
    constructor
    · intro done key value later whole
      cases done with
      | nil =>
          cases whole
          exact ⟨fun other => absurd rfl other, trivial⟩
      | cons entry rest => cases rest <;> cases whole
    · intro inner listed
      cases List.mem_singleton.mp listed
      exact .inl (by decide)
  refine ((argv_simultaneous (fun _ => "") { argv := ["\x7bsource\x7d"] } [] []).1 [("source", .str "\x7ba\x7d")] (by decide)
    settled).trans ?_
  decide

/-- An action that names one of its parameters with blanks around the name. -/
def spacedAction : ResolvedAction where
  parameterNames := ["a", "b"]
  steps := [{ argv := ["\x7ba\x7d", "\x7b b \x7d"] }]

/-- The action is accepted. A braced name in a value is replaced or not, as the parameters are ordered, and the name with
blanks stays, where the values put in at once give the same items in either order. -/
theorem argv_not_simultaneous :
    spacedAction.stepsNotEmpty (fun _ => "") = .ok () ∧
    spacedAction.steps.map (fun step => buildStepArgv (fun _ => "") step [("a", .str "\x7bb\x7d"), ("b", .str "x")] []
      spacedAction.optionalParameterNames) = [["x", "\x7b b \x7d"]] ∧
    spacedAction.steps.map (fun step => buildStepArgv (fun _ => "") step [("b", .str "x"), ("a", .str "\x7bb\x7d")] []
      spacedAction.optionalParameterNames) = [["\x7bb\x7d", "\x7b b \x7d"]] ∧
    spacedAction.steps.map (fun step => simultaneousArgv (fun _ => "") step [("a", .str "\x7bb\x7d"), ("b", .str "x")] []
      spacedAction.optionalParameterNames) = [["\x7bb\x7d", "x"]] := by
  decide

end Results

end Sico.Capabilities.ArgvSubstitution

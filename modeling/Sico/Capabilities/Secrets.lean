import Mathlib.Data.Bool.AllAny
import Sico.Foundation.Dict
import Sico.Foundation.Json
import Sico.Foundation.Members
import Sico.Foundation.Replacement

/-! # Secrets of a call

The arguments that a schema marks as sensitive are split from those that are stored with a run, and a placeholder
stands for them. What a handler reports is scrubbed of their values before it is stored: a long value is replaced
where it occurs, and a short one blots out the whole text. No value that stays apart from the placeholder is left,
in whatever order they are taken.
-/

namespace Sico.Capabilities

open Foundation Replacement

def redactedPlaceholder : String := "<redacted>"

def minTargetedScrubLen : ℕ := 6

section Scrubbing

/-- `TaskResult`, as far as a handler's texts and the run they belong to. -/
structure TaskResult where
  runID : String
  taskID : String
  title : String
  summary : String
  output : String := ""
  errorMessage : String := ""
  deriving DecidableEq, Repr

/-- The texts of `_SCRUBBED_RESULT_FIELDS`. -/
def TaskResult.texts (result : TaskResult) : List String :=
  [result.title, result.summary, result.output, result.errorMessage]

/-- The scrubbed fields, each rewritten for itself. -/
def TaskResult.mapTexts (rewrite : String → String) (result : TaskResult) : TaskResult :=
  { result with
    title := rewrite result.title
    summary := rewrite result.summary
    output := rewrite result.output
    errorMessage := rewrite result.errorMessage }

/-- `text.replace(value, REDACTED_PLACEHOLDER)`. -/
def redact (value text : String) : String :=
  String.ofList (replace value.toList redactedPlaceholder.toList text.toList)

/-- The loop over the values, which ends with the first short one that is found. -/
def scrubText : List String → String → String
  | [], scrubbed => scrubbed
  | value :: rest, scrubbed =>
      if minTargetedScrubLen ≤ value.length then scrubText rest (redact value scrubbed)
      else if value.toList <:+: scrubbed.toList then redactedPlaceholder
      else scrubText rest scrubbed

variable {Value : Type*} (str : Value → String)

def secretTexts (secrets : Dict String Value) : List String :=
  (secrets.values.map str).filter fun text => text ≠ ""

def scrubbed (secrets : Dict String Value) (result : TaskResult) : TaskResult :=
  let values := secretTexts str secrets
  if values = [] then result
  else result.mapTexts fun original => if original = "" then original else scrubText values original

end Scrubbing

section Splitting

def sensitiveParameterNames (schema : List (String × Json)) : List String :=
  match Members.get? schema "properties" with
  | some (.obj properties) =>
      (properties.filter fun property =>
        match property.2 with
        | .obj node =>
            match Members.get? node "sensitive" with
            | some (.bool true) => true
            | _ => false
        | _ => false).map Prod.fst
  | _ => []

/-- `split_sensitive_arguments`: the half that is stored and the half that is not. -/
def splitSensitiveArguments (arguments : Dict String Json) (schema : List (String × Json)) :
    Dict String Json × Dict String Json :=
  let secretNames := sensitiveParameterNames schema
  if secretNames = [] then (arguments, .empty)
  else
    arguments.entries.foldl (fun (halves : Dict String Json × Dict String Json) argument =>
      if argument.1 ∈ secretNames then
        (halves.1.set argument.1 (.str redactedPlaceholder), halves.2.set argument.1 argument.2)
      else (halves.1.set argument.1 argument.2, halves.2)) (.empty, .empty)

end Splitting

section Completeness

/-- A value that shares no letters with the placeholder, however the two are laid over each other. -/
def Apart (value : String) : Prop := ¬ Overlaps value.toList redactedPlaceholder.toList

theorem toList_ne_nil {value : String} (some_ : value ≠ "") : value.toList ≠ [] := fun none_ =>
  some_ (String.toList_eq_nil_iff.mp none_)

theorem infix_of_redact {value other text : String} (some_ : value ≠ "") (letters : other ≠ "") (apart : Apart other)
    (occurs : other.toList <:+: (redact value text).toList) : other.toList <:+: text.toList := by
  rw [redact, String.toList_ofList] at occurs
  exact infix_of_replace (toList_ne_nil some_) (toList_ne_nil letters) apart occurs

theorem infix_of_scrubText {values : List String} (some_ : ∀ value ∈ values, value ≠ "") {other text : String}
    (letters : other ≠ "") (apart : Apart other) (occurs : other.toList <:+: (scrubText values text).toList) :
    other.toList <:+: text.toList := by
  induction values generalizing text with
  | nil => exact occurs
  | cons value rest ih =>
      have later := @ih fun value listed => some_ value (List.mem_cons_of_mem _ listed)
      rw [scrubText] at occurs
      by_cases long : minTargetedScrubLen ≤ value.length
      · rw [if_pos long] at occurs
        exact infix_of_redact (some_ value List.mem_cons_self) letters apart (later occurs)
      · rw [if_neg long] at occurs
        by_cases found : value.toList <:+: text.toList
        · rw [if_pos found] at occurs
          exact absurd (.inr (.inr (.inl occurs))) apart
        · rw [if_neg found] at occurs
          exact later occurs

theorem not_infix_scrubText {values : List String} (some_ : ∀ value ∈ values, value ≠ "") {value : String}
    (listed : value ∈ values) (apart : Apart value) (text : String) :
    ¬ value.toList <:+: (scrubText values text).toList := by
  have letters := some_ value listed
  induction values generalizing text with
  | nil => cases listed
  | cons first rest ih =>
      have others : ∀ value ∈ rest, value ≠ "" := fun value listed => some_ value (List.mem_cons_of_mem _ listed)
      intro occurs
      rw [scrubText] at occurs
      rcases List.mem_cons.mp listed with rfl | later
      · by_cases long : minTargetedScrubLen ≤ value.length
        · rw [if_pos long] at occurs
          have left := infix_of_scrubText others letters apart occurs
          rw [redact, String.toList_ofList] at left
          exact not_infix_replace (toList_ne_nil letters) apart left
        · rw [if_neg long] at occurs
          by_cases found : value.toList <:+: text.toList
          · rw [if_pos found] at occurs
            exact apart (.inr (.inr (.inl occurs)))
          · rw [if_neg found] at occurs
            exact found (infix_of_scrubText others letters apart occurs)
      · by_cases long : minTargetedScrubLen ≤ first.length
        · rw [if_pos long] at occurs
          exact ih others later _ occurs
        · rw [if_neg long] at occurs
          by_cases found : first.toList <:+: text.toList
          · rw [if_pos found] at occurs
            exact apart (.inr (.inr (.inl occurs)))
          · rw [if_neg found] at occurs
            exact ih others later _ occurs

theorem scrubText_of_clean {values : List String} {text : String}
    (clean : ∀ value ∈ values, ¬ value.toList <:+: text.toList) : scrubText values text = text := by
  induction values with
  | nil => rfl
  | cons value rest ih =>
      have absent := clean value List.mem_cons_self
      have same : redact value text = text := by
        rw [redact, replace_of_absent _ absent, String.ofList_toList]
      rw [scrubText, if_neg absent, same, ih fun value listed => clean value (List.mem_cons_of_mem _ listed)]
      split <;> rfl

end Completeness

section Halves

variable {names : List String} {arguments others : Dict String Json}

/-- What stands in the public half under a name. -/
def publicValue (names : List String) (name : String) (value : Json) : Json :=
  if name ∈ names then .str redactedPlaceholder else value

theorem split_foldl (names : List String) (entries : List (String × Json)) (public_ secret : Dict String Json) :
    entries.foldl (fun (halves : Dict String Json × Dict String Json) argument =>
      if argument.1 ∈ names then
        (halves.1.set argument.1 (.str redactedPlaceholder), halves.2.set argument.1 argument.2)
      else (halves.1.set argument.1 argument.2, halves.2)) (public_, secret) =
      (public_.write (entries.map fun entry => (entry.1, publicValue names entry.1 entry.2)),
        secret.write (entries.filter fun entry => entry.1 ∈ names)) := by
  induction entries generalizing public_ secret with
  | nil => rfl
  | cons entry rest ih =>
      rw [List.foldl_cons]
      by_cases sensitive : entry.1 ∈ names
      · rw [if_pos sensitive, ih, List.map_cons, List.filter_cons_of_pos (by simpa using sensitive), publicValue,
          if_pos sensitive]
        rfl
      · rw [if_neg sensitive, ih, List.map_cons, List.filter_cons_of_neg (by simpa using sensitive), publicValue,
          if_neg sensitive]
        rfl

theorem writes_own {entries : List (String × Json)} (distinct : (entries.map Prod.fst).Nodup) :
    (Dict.empty.write entries).entries = entries :=
  Dict.entries_write distinct

theorem entries_split (arguments : Dict String Json) (schema : List (String × Json)) :
    (splitSensitiveArguments arguments schema).1.entries =
        arguments.entries.map (fun entry => (entry.1, publicValue (sensitiveParameterNames schema) entry.1 entry.2)) ∧
      (splitSensitiveArguments arguments schema).2.entries =
        arguments.entries.filter fun entry => entry.1 ∈ sensitiveParameterNames schema := by
  unfold splitSensitiveArguments
  by_cases nothing : sensitiveParameterNames schema = []
  · simp [nothing, publicValue, Dict.empty]
  · dsimp only
    rw [if_neg nothing, split_foldl]
    constructor
    · apply writes_own
      rw [List.map_map]
      exact arguments.distinct
    · exact writes_own (arguments.distinct.sublist (List.filter_sublist.map _))

theorem get?_public (schema : List (String × Json)) (name : String) :
    (splitSensitiveArguments arguments schema).1.get? name =
      (arguments.get? name).map (publicValue (sensitiveParameterNames schema) name) := by
  ext value
  rw [Dict.get?_eq_some, (entries_split arguments schema).1, Option.map_eq_some_iff]
  simp only [Dict.get?_eq_some, List.mem_map, Prod.mk.injEq]
  constructor
  · rintro ⟨⟨_, held⟩, listed, rfl, same⟩
    exact ⟨held, listed, same⟩
  · rintro ⟨held, listed, same⟩
    exact ⟨(name, held), listed, rfl, same⟩

theorem keys_public (schema : List (String × Json)) :
    (splitSensitiveArguments arguments schema).1.keys = arguments.keys := by
  rw [Dict.keys, (entries_split arguments schema).1, List.map_map]
  rfl

theorem public_eq {schema : List (String × Json)} (keys : arguments.keys = others.keys)
    (agree : ∀ name, name ∉ sensitiveParameterNames schema → arguments.get? name = others.get? name) :
    (splitSensitiveArguments arguments schema).1 = (splitSensitiveArguments others schema).1 := by
  apply Dict.ext_get?
  · rw [keys_public, keys_public, keys]
  · intro name listed
    rw [get?_public, get?_public]
    by_cases sensitive : name ∈ sensitiveParameterNames schema
    · rw [keys_public] at listed
      obtain ⟨value, reads⟩ := Dict.mem_keys.mp listed
      obtain ⟨other, readsOther⟩ := Dict.mem_keys.mp (keys ▸ listed)
      rw [reads, readsOther, Option.map_some, Option.map_some, publicValue, publicValue, if_pos sensitive,
        if_pos sensitive]
    · rw [agree name sensitive]

end Halves

variable {Value : Type*} (str : Value → String)

theorem mem_texts_mapTexts {rewrite : String → String} {result : TaskResult} {text : String}
    (listed : text ∈ (result.mapTexts rewrite).texts) : ∃ original ∈ result.texts, text = rewrite original := by
  simp only [TaskResult.texts, TaskResult.mapTexts, List.mem_cons, List.not_mem_nil, or_false] at listed ⊢
  rcases listed with rfl | rfl | rfl | rfl
  · exact ⟨_, .inl rfl, rfl⟩
  · exact ⟨_, .inr (.inl rfl), rfl⟩
  · exact ⟨_, .inr (.inr (.inl rfl)), rfl⟩
  · exact ⟨_, .inr (.inr (.inr rfl)), rfl⟩

theorem mapTexts_of_same {rewrite : String → String} {result : TaskResult}
    (same : ∀ text ∈ result.texts, rewrite text = text) : result.mapTexts rewrite = result := by
  simp only [TaskResult.texts, List.forall_mem_cons] at same
  obtain ⟨title, summary, output, message, _⟩ := same
  rw [TaskResult.mapTexts, title, summary, output, message]

theorem mem_secretTexts {secrets : Dict String Value} {text : String} :
    text ∈ secretTexts str secrets ↔ ∃ value ∈ secrets.values, str value = text ∧ text ≠ "" := by
  simp only [secretTexts, List.mem_filter, List.mem_map, decide_eq_true_eq]
  exact ⟨fun ⟨⟨value, listed, same⟩, some_⟩ => ⟨value, listed, same, some_⟩,
    fun ⟨value, listed, same, some_⟩ => ⟨⟨value, listed, same⟩, some_⟩⟩

/-- **Secrets do not leak.** If no value that is not empty overlaps the placeholder, none of them is in a text of the
scrubbed result. A result without any of them is left as it is. In the public half of split arguments the
placeholder stands for each sensitive one, so that it does not depend on their values. -/
theorem secrets_do_not_leak (secrets : Dict String Value) (result : TaskResult) :
    ((∀ value ∈ secrets.values, str value ≠ "" → Apart (str value)) →
      ∀ value ∈ secrets.values, str value ≠ "" →
        ∀ text ∈ (scrubbed str secrets result).texts, ¬ (str value).toList <:+: text.toList) ∧
    ((∀ value ∈ secrets.values, str value ≠ "" → ∀ text ∈ result.texts, ¬ (str value).toList <:+: text.toList) →
      scrubbed str secrets result = result) ∧
    ∀ (arguments : Dict String Json) (schema : List (String × Json)),
      (∀ name ∈ sensitiveParameterNames schema, (splitSensitiveArguments arguments schema).1.get? name =
        (arguments.get? name).map fun _ => .str redactedPlaceholder) ∧
      ∀ others : Dict String Json, arguments.keys = others.keys →
        (∀ name, name ∉ sensitiveParameterNames schema → arguments.get? name = others.get? name) →
        (splitSensitiveArguments arguments schema).1 = (splitSensitiveArguments others schema).1 := by
  refine ⟨fun apart value listed some_ text shown => ?_, fun clean => ?_, fun arguments schema =>
    ⟨fun name sensitive => ?_, fun others keys agree => public_eq keys agree⟩⟩
  · have secret : str value ∈ secretTexts str secrets := (mem_secretTexts str).mpr ⟨value, listed, rfl, some_⟩
    unfold scrubbed at shown
    dsimp only at shown
    rw [if_neg (List.ne_nil_of_mem secret)] at shown
    obtain ⟨original, _, rfl⟩ := mem_texts_mapTexts shown
    split
    · next nothing =>
        rw [nothing]
        exact fun occurs => toList_ne_nil some_ (List.infix_nil.mp occurs)
    · refine not_infix_scrubText (fun other inside => ?_) secret (apart value listed some_) original
      obtain ⟨_, _, _, letters⟩ := (mem_secretTexts str).mp inside
      exact letters
  · unfold scrubbed
    dsimp only
    split
    · rfl
    · apply mapTexts_of_same
      intro text shown
      split
      · rfl
      · apply scrubText_of_clean
        intro secret inside
        obtain ⟨value, listed, rfl, some_⟩ := (mem_secretTexts str).mp inside
        exact clean value listed some_ text shown
  · rw [get?_public]
    have hidden : publicValue (sensitiveParameterNames schema) name = fun _ => .str redactedPlaceholder := by
      funext value
      rw [publicValue, if_pos sensitive]
    rw [hidden]

/-- A code that is shown twice is scrubbed. -/
theorem secrets_do_not_leak_code :
    ∀ text ∈ (scrubbed id (Dict.empty.set "code" "pin-4711")
      ⟨"run", "task", "login", "pin-4711 refused", "try pin-4711 again", ""⟩).texts,
      ¬ "pin-4711".toList <:+: text.toList :=
  (secrets_do_not_leak id (Dict.empty.set "code" "pin-4711")
    ⟨"run", "task", "login", "pin-4711 refused", "try pin-4711 again", ""⟩).1
    (fun value listed _ => by
      obtain rfl : value = "pin-4711" := List.mem_singleton.mp listed
      exact not_overlaps_of_disjoint (by decide) (by decide) (List.all_iff_forall_prop.mp (by decide)))
    "pin-4711" List.mem_cons_self (by decide)

end Sico.Capabilities

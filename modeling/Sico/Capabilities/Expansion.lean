import Sico.AgentLoop.CallIDs
import Sico.Foundation.Traversal
import Sico.Foundation.Trimming
import Sico.TaskRuntime.ToolController

/-! # Canonical capability IDs

`normalize_capability_id` takes the legacy spellings of a capability ID to a namespaced one. What it returns is left as
it is by another pass, unless the spelling was a name that ends with a blank before a single dot
(`SpacedDot`): the blank then ends the ID. The expansion of selectors goes through a catalogue once and keeps the
canonical IDs that a selector matches.
-/

namespace Sico.Capabilities.Expansion

open Foundation AgentLoop TaskRuntime.ToolController

section Model

variable (repr : String → String)

/-- `any(selector.matches(canonical) for selector in parsed)`. -/
def anySelects (capability : String) : List CapabilitySelector → Except String Bool
  | [] => .ok false
  | selector :: rest => do
      let matched ← selector.matches repr capability
      if matched then return true else anySelects capability rest

/-- The loop of `expand_capability_selectors`. What was seen are the IDs that are expanded. -/
def expandFrom (parsed : List CapabilitySelector) (expanded : List String) : List String → Except String (List String)
  | [] => .ok expanded
  | capability :: rest =>
      match normalizeCapabilityID capability with
      | none => .error ("capability id must be exact, got selector " ++ repr (strip capability))
      | some canonical =>
          if canonical ∈ expanded then expandFrom parsed expanded rest
          else do
            let matched ← anySelects repr canonical parsed
            expandFrom parsed (if matched then expanded ++ [canonical] else expanded) rest

def expandCapabilitySelectors (selectors capabilityIDs : List String) : Except String (List String) := do
  let parsed ← selectors.mapM (parseCapabilitySelector repr)
  expandFrom repr parsed [] capabilityIDs

end Model

section Texts

theorem strip_eq (text : String) : strip text = String.ofList (trim isBlank text.toList) := rfl

theorem wildcard_iff (text : String) :
    text.toList.tails.any "**".toList.isPrefixOf = true ↔ ['*', '*'] <:+: text.toList := by
  rw [List.any_eq_true, List.infix_iff_prefix_suffix]
  constructor
  · rintro ⟨tail, listed, starts⟩
    exact ⟨tail, List.isPrefixOf_iff_prefix.mp starts, List.mem_tails _ _ |>.mp listed⟩
  · rintro ⟨tail, starts, ends⟩
    exact ⟨tail, (List.mem_tails _ _).mpr ends, List.isPrefixOf_iff_prefix.mpr starts⟩

def EndsSolid (text : String) : Prop := ∀ letter, text.toList.getLast? = some letter → isBlank letter = false

theorem endsSolid_strip (text : String) : EndsSolid (strip text) := by
  intro letter ends
  rw [strip_eq, String.toList_ofList] at ends
  exact getLast?_trim isBlank ends

theorem toList_capabilityID (provider localName : String) :
    (capabilityID provider localName).toList = provider.toList ++ ':' :: localName.toList := by
  rw [capabilityID, String.toList_append, String.toList_append, List.append_assoc]
  rfl

theorem endsSolid_capabilityID (provider localName : String) :
    EndsSolid (capabilityID provider localName) ↔ EndsSolid localName := by
  unfold EndsSolid
  rw [toList_capabilityID]
  cases letters : localName.toList.getLast? with
  | none =>
      rw [List.getLast?_eq_none_iff] at letters
      rw [letters, List.getLast?_append]
      constructor
      · intro _ letter absent
        cases absent
      · intro _ letter same
        cases same
        rfl
  | some last =>
      rw [List.getLast?_append, List.getLast?_cons, letters, Option.getD_some, Option.some_or]

theorem endsSolid_of_append {text rest : String} {front : List Char} {separator : Char}
    (whole : text.toList = front ++ separator :: rest.toList) (solid : EndsSolid text) : EndsSolid rest := by
  intro letter ends
  refine solid letter ?_
  rw [whole, List.getLast?_append, List.getLast?_cons, ends]
  rfl

theorem partition_spec {separator : Char} {text : String} (found : separator ∈ text.toList) :
    text.toList = (partition separator text).1.toList ++ separator :: (partition separator text).2.toList ∧
      separator ∉ (partition separator text).1.toList := by
  unfold partition
  rw [String.toList_ofList, String.toList_ofList]
  constructor
  · cases behind : text.toList.dropWhile (· ≠ separator) with
    | nil =>
        have none_ := List.dropWhile_eq_nil_iff.mp behind separator found
        simp at none_
    | cons first rest =>
        have same : first = separator := by
          have starts : (text.toList.dropWhile (· ≠ separator)).head? = some first := by rw [behind]; rfl
          have solid := head?_dropWhile (fun letter => decide (letter ≠ separator)) text.toList starts
          simpa using solid
        have whole := List.takeWhile_append_dropWhile (p := fun letter => decide (letter ≠ separator)) (l := text.toList)
        rw [behind] at whole
        rw [← same, List.drop_one, List.tail_cons]
        rw [same] at whole ⊢
        exact whole.symm
  · intro listed
    have apart := List.mem_takeWhile_imp listed
    simp at apart

theorem partition_capabilityID {provider localName : String} (apart : ':' ∉ provider.toList) :
    splitCapabilityID (capabilityID provider localName) = (provider, localName) := by
  have letters := toList_capabilityID provider localName
  have found : ':' ∈ (capabilityID provider localName).toList := by
    rw [letters]
    exact List.mem_append_right _ List.mem_cons_self
  have none_ : ∀ letter ∈ provider.toList, decide (letter ≠ ':') = true := by
    intro letter listed
    rw [decide_eq_true_eq]
    rintro rfl
    exact apart listed
  rw [splitCapabilityID, if_pos found, partition, letters, List.takeWhile_append_of_pos none_,
    List.dropWhile_append_of_pos none_, List.takeWhile_cons_of_neg (by simp), List.dropWhile_cons_of_neg (by simp),
    List.append_nil, List.drop_one, List.tail_cons, String.ofList_toList, String.ofList_toList]

end Texts

section Namespaced

def Wild (text : String) : Prop := ['*', '*'] <:+: text.toList

theorem wild_capabilityID (provider localName : String) :
    Wild (capabilityID provider localName) ↔ Wild provider ∨ Wild localName := by
  unfold Wild
  rw [toList_capabilityID, infix_append_cons (by decide)]

/-- A provider and a local name that another pass leaves as they are. -/
structure Namespaced (provider localName : String) : Prop where
  stripped : strip provider = provider
  apart : ':' ∉ provider.toList
  settled : normalizeLocalName provider localName = localName
  exact_ : ¬ Wild (capabilityID provider localName)
  solid : EndsSolid localName

theorem strip_capabilityID {provider localName : String} (stripped : strip provider = provider)
    (solid : EndsSolid localName) : strip (capabilityID provider localName) = capabilityID provider localName := by
  rw [strip_eq, trim_eq_self isBlank, String.ofList_toList]
  · intro letter starts
    rw [toList_capabilityID] at starts
    cases front : provider.toList with
    | nil =>
        rw [front] at starts
        cases starts
        rfl
    | cons first rest =>
        rw [front] at starts
        cases starts
        refine head?_trim isBlank provider.toList ?_
        rw [← String.toList_ofList (l := trim isBlank provider.toList), ← strip_eq, stripped, front]
        rfl
  · exact (endsSolid_capabilityID provider localName).mpr solid

theorem normalize_namespaced {provider localName : String} (spaced : Namespaced provider localName) :
    normalizeCapabilityID (capabilityID provider localName) = some (capabilityID provider localName) := by
  have found : ':' ∈ (capabilityID provider localName).toList := by
    rw [toList_capabilityID]
    exact List.mem_append_right _ List.mem_cons_self
  have filled : capabilityID provider localName ≠ "" := by
    intro empty
    rw [empty] at found
    cases found
  unfold normalizeCapabilityID
  dsimp only
  rw [strip_capabilityID spaced.stripped spaced.solid, if_neg filled,
    if_neg ((wildcard_iff _).not.mpr spaced.exact_), if_pos found, partition_capabilityID spaced.apart]
  dsimp only
  rw [spaced.stripped, spaced.settled]

theorem legacy_settled : ∀ entry ∈ legacyLinuxWorkstationLocalNames,
    legacyLinuxWorkstationLocalNames.lookup entry.2 = none ∧ ¬ ['*', '*'] <:+: entry.2.toList ∧
      (entry.2.toList.getLast?.any fun letter => !isBlank letter) = true := by
  decide

theorem mem_of_lookup {entries : List (String × String)} {name value : String}
    (found : entries.lookup name = some value) : ∃ entry ∈ entries, entry.2 = value := by
  obtain ⟨before, after, rfl, _⟩ := List.lookup_eq_some_iff.mp found
  exact ⟨_, List.mem_append_right _ List.mem_cons_self, rfl⟩

theorem normalizeLocalName_settled (provider localName : String) :
    normalizeLocalName provider (normalizeLocalName provider localName) = normalizeLocalName provider localName := by
  unfold normalizeLocalName
  by_cases dotted : provider = "skill" ∧ ':' ∉ localName.toList ∧ '.' ∈ localName.toList
  · have found : ':' ∈ (capabilityID (partition '.' localName).1 (partition '.' localName).2).toList := by
      rw [toList_capabilityID]
      exact List.mem_append_right _ List.mem_cons_self
    have other : provider ≠ "linux_workstation" := by
      rw [dotted.1]
      decide
    rw [if_pos dotted]
    dsimp only
    rw [if_neg (fun again => again.2.1 found), if_neg other]
  · rw [if_neg dotted]
    by_cases legacy : provider = "linux_workstation"
    · have other : provider ≠ "skill" := by
        rw [legacy]
        decide
      rw [if_pos legacy, if_neg (fun again => other again.1), if_pos legacy]
      cases found : legacyLinuxWorkstationLocalNames.lookup localName with
      | none => rw [Option.getD_none, found, Option.getD_none]
      | some name =>
          obtain ⟨entry, listed, rfl⟩ := mem_of_lookup found
          rw [Option.getD_some, (legacy_settled entry listed).1, Option.getD_none]
    · rw [if_neg legacy, if_neg dotted, if_neg legacy]

theorem normalizeLocalName_sound (provider : String) {localName : String} (exact_ : ¬ Wild localName)
    (solid : EndsSolid localName) :
    ¬ Wild (normalizeLocalName provider localName) ∧ EndsSolid (normalizeLocalName provider localName) := by
  unfold normalizeLocalName
  by_cases dotted : provider = "skill" ∧ ':' ∉ localName.toList ∧ '.' ∈ localName.toList
  · obtain ⟨whole, _⟩ := partition_spec dotted.2.2
    rw [if_pos dotted]
    dsimp only
    rw [endsSolid_capabilityID, wild_capabilityID]
    refine ⟨fun wild => exact_ ?_, endsSolid_of_append whole solid⟩
    unfold Wild
    rw [whole, infix_append_cons (by decide)]
    exact wild
  · rw [if_neg dotted]
    by_cases legacy : provider = "linux_workstation"
    · rw [if_pos legacy]
      cases found : legacyLinuxWorkstationLocalNames.lookup localName with
      | none => exact ⟨exact_, solid⟩
      | some name =>
          obtain ⟨entry, listed, rfl⟩ := mem_of_lookup found
          obtain ⟨_, plain, ends⟩ := legacy_settled entry listed
          refine ⟨plain, fun letter last => ?_⟩
          rw [Option.getD_some] at last
          rw [last] at ends
          simpa using ends
    · rw [if_neg legacy]
      exact ⟨exact_, solid⟩

end Namespaced

section Normalization

/-- The spellings whose ID ends with a blank: a name that does, and a dot with nothing behind it. -/
def SpacedDot (value : String) : Prop :=
  ∃ name letter, (strip value).toList = name ++ [letter, '.'] ∧ isBlank letter = true ∧
    ∀ other ∈ name, other ≠ '.' ∧ other ≠ ':'

variable {value result : String}

theorem namespaced_of_normalize (accepted : normalizeCapabilityID value = some result)
    (found : ':' ∈ (strip value).toList) :
    ∃ provider localName, result = capabilityID provider localName ∧ Namespaced provider localName := by
  have filled : strip value ≠ "" := by
    intro empty
    rw [empty] at found
    cases found
  obtain ⟨whole, apart⟩ := partition_spec found
  unfold normalizeCapabilityID at accepted
  dsimp only at accepted
  rw [if_neg filled] at accepted
  split at accepted
  · cases accepted
  · next exact_ =>
      rw [wildcard_iff, whole, infix_append_cons (by decide), not_or] at exact_
      rw [splitCapabilityID, if_pos found, Option.some_inj] at accepted
      have sound := normalizeLocalName_sound (strip (partition ':' (strip value)).1) exact_.2
        (endsSolid_of_append whole (endsSolid_strip value))
      refine ⟨_, _, accepted.symm, ⟨strip_strip _, fun listed => apart ?_, normalizeLocalName_settled _ _, ?_,
        sound.2⟩⟩
      · rw [strip_eq, String.toList_ofList] at listed
        exact (trim_isInfix isBlank _).subset listed
      · rw [wild_capabilityID, not_or]
        refine ⟨fun wild => exact_.1 ?_, sound.1⟩
        unfold Wild at wild
        rw [strip_eq, String.toList_ofList] at wild
        exact wild.trans (trim_isInfix isBlank _)

theorem notMem_of_spacedDot (spaced : SpacedDot value) : ':' ∉ (strip value).toList := by
  obtain ⟨name, letter, whole, blank, plain⟩ := spaced
  rw [whole]
  intro listed
  rcases List.mem_append.mp listed with front | last
  · exact (plain ':' front).2 rfl
  · rcases List.mem_cons.mp last with same | dot
    · rw [← same] at blank
      cases blank
    · cases List.mem_singleton.mp dot

theorem endsSolid_of_settled {provider localName : String}
    (settled : normalizeCapabilityID (capabilityID provider localName) = some (capabilityID provider localName)) :
    EndsSolid localName := by
  have found : ':' ∈ (strip (capabilityID provider localName)).toList := by
    rw [strip_eq, String.toList_ofList, toList_capabilityID]
    exact mem_trim isBlank (List.mem_append_right _ List.mem_cons_self) rfl
  obtain ⟨_, _, same, spaced⟩ := namespaced_of_normalize settled found
  rw [← endsSolid_capabilityID provider, same, endsSolid_capabilityID]
  exact spaced.solid

theorem endsSolid_iff {name : String} (whole : (strip value).toList = name.toList ++ ['.'])
    (plain : ∀ letter ∈ name.toList, letter ≠ '.' ∧ letter ≠ ':') : EndsSolid name ↔ ¬ SpacedDot value := by
  constructor
  · rintro solid ⟨front, letter, spelled, blank, _⟩
    have same : name.toList ++ ['.'] = (front ++ [letter]) ++ ['.'] := by
      rw [← whole, spelled, List.append_assoc]
      rfl
    have last := solid letter (by rw [List.append_cancel_right same, List.getLast?_append]; rfl)
    rw [blank] at last
    cases last
  · intro other letter ends
    refine Bool.eq_false_iff.mpr fun blank => other ?_
    obtain ⟨front, spelled⟩ := List.getLast?_eq_some_iff.mp ends
    refine ⟨front, letter, ?_, blank, fun letter listed => plain letter ?_⟩
    · rw [whole, spelled, List.append_assoc]
      rfl
    · rw [spelled]
      exact List.mem_append_left _ listed

theorem wild_skillCapabilityID {skillName actionName : String} (skill : ¬ Wild skillName) (action : ¬ Wild actionName) :
    ¬ Wild (skillCapabilityID skillName actionName) := by
  have plain : ¬ Wild "skill" := by
    unfold Wild
    decide
  unfold skillCapabilityID
  rw [wild_capabilityID, not_or]
  refine ⟨plain, ?_⟩
  split
  · exact skill
  · rw [wild_capabilityID, not_or]
    exact ⟨skill, action⟩

theorem settled_skillCapabilityID_iff {skillName actionName : String}
    (whole : (strip value).toList = skillName.toList ++ '.' :: actionName.toList) (apart : '.' ∉ skillName.toList)
    (bare : ':' ∉ (strip value).toList) (exact_ : ¬ Wild (skillCapabilityID skillName actionName)) :
    normalizeCapabilityID (skillCapabilityID skillName actionName) = some (skillCapabilityID skillName actionName) ↔
      ¬ SpacedDot value := by
  have stripped : strip "skill" = "skill" := by decide
  unfold skillCapabilityID at exact_ ⊢
  by_cases last : actionName = ""
  · rw [if_pos last] at exact_ ⊢
    rw [last] at whole
    have plain : ∀ letter ∈ skillName.toList, letter ≠ '.' ∧ letter ≠ ':' := by
      intro letter listed
      constructor
      · rintro rfl
        exact apart listed
      · rintro rfl
        exact bare (whole ▸ List.mem_append_left _ listed)
    rw [← endsSolid_iff whole plain]
    refine ⟨endsSolid_of_settled, fun solid => normalize_namespaced ⟨stripped, by decide, ?_, exact_, solid⟩⟩
    unfold normalizeLocalName
    rw [if_neg (fun dotted => apart dotted.2.2), if_neg (by decide)]
  · rw [if_neg last] at exact_ ⊢
    refine iff_of_true (normalize_namespaced ⟨stripped, by decide, ?_, exact_, ?_⟩) ?_
    · have found : ':' ∈ (capabilityID skillName actionName).toList := by
        rw [toList_capabilityID]
        exact List.mem_append_right _ List.mem_cons_self
      unfold normalizeLocalName
      rw [if_neg (fun dotted => dotted.2.1 found), if_neg (by decide)]
    · rw [endsSolid_capabilityID]
      exact endsSolid_of_append whole (endsSolid_strip value)
    · rintro ⟨name, letter, spelled, blank, plain⟩
      -- the first dot stands before the last letter, where the spelling has none
      have dotted : '.' ∈ (strip value).toList.dropLast := by
        have filled : actionName.toList ≠ [] := fun empty => last (String.toList_eq_nil_iff.mp empty)
        rw [whole, List.dropLast_append_of_ne_nil (List.cons_ne_nil _ _), List.dropLast_cons_of_ne_nil filled]
        exact List.mem_append_right _ List.mem_cons_self
      rw [spelled, List.dropLast_append_of_ne_nil (List.cons_ne_nil _ _)] at dotted
      rcases List.mem_append.mp dotted with front | same
      · exact (plain '.' front).1 rfl
      · rw [← List.mem_singleton.mp same] at blank
        cases blank

/-- An ID is exact, and another pass leaves it as it is unless its spelling is a name that ends with a blank before a
dot. -/
theorem normalize_sound (accepted : normalizeCapabilityID value = some result) :
    ¬ Wild result ∧ (normalizeCapabilityID result = some result ↔ ¬ SpacedDot value) := by
  by_cases namespaced : ':' ∈ (strip value).toList
  · obtain ⟨provider, localName, rfl, spaced⟩ := namespaced_of_normalize accepted namespaced
    exact ⟨spaced.exact_, iff_of_true (normalize_namespaced spaced) fun dot => notMem_of_spacedDot dot namespaced⟩
  · unfold normalizeCapabilityID at accepted
    dsimp only at accepted
    by_cases empty : strip value = ""
    · rw [if_pos empty, Option.some_inj] at accepted
      subst accepted
      refine ⟨by unfold Wild; decide, iff_of_true (by decide) ?_⟩
      rintro ⟨name, letter, spelled, _⟩
      rw [empty] at spelled
      cases name <;> cases spelled
    · rw [if_neg empty] at accepted
      split at accepted
      · cases accepted
      · next exact_ =>
          rw [wildcard_iff] at exact_
          by_cases dotted : '.' ∈ (strip value).toList
          · rw [if_pos dotted] at accepted
            obtain ⟨whole, apart⟩ := partition_spec dotted
            rw [whole, infix_append_cons (by decide), not_or] at exact_
            rw [← Option.some.inj accepted]
            have plain := wild_skillCapabilityID exact_.1 exact_.2
            exact ⟨plain, settled_skillCapabilityID_iff whole apart namespaced plain⟩
          · rw [if_neg dotted, Option.some_inj] at accepted
            subst accepted
            have plain : ¬ Wild (capabilityID "builtin" (strip value)) := by
              rw [wild_capabilityID, not_or]
              exact ⟨by unfold Wild; decide, exact_⟩
            refine ⟨plain, iff_of_true (normalize_namespaced ⟨by decide, by decide, ?_, plain,
              endsSolid_strip value⟩) ?_⟩
            · unfold normalizeLocalName
              rw [if_neg (fun skill => absurd skill.1 (by decide)), if_neg (by decide)]
            · rintro ⟨name, letter, spelled, _⟩
              rw [spelled] at dotted
              exact dotted (List.mem_append_right _ (.tail _ (.head _)))

theorem normalize_isSome (exact_ : ¬ Wild value) : (normalizeCapabilityID value).isSome = true := by
  have plain : ¬ ['*', '*'] <:+: (strip value).toList := by
    rw [strip_eq, String.toList_ofList]
    exact fun wild => exact_ (wild.trans (trim_isInfix isBlank _))
  unfold normalizeCapabilityID
  dsimp only
  rw [if_neg ((wildcard_iff _).not.mpr plain)]
  split
  · rfl
  · split
    · rfl
    · split <;> rfl

end Normalization

section Expansion

variable (repr : String → String) {parsed : List CapabilitySelector} {seen expanded capabilities : List String}

def Selected (parsed : List CapabilitySelector) (id : String) : Prop :=
  ∃ selector ∈ parsed, selector.matches repr id = .ok true

/-- IDs in the order in which they first stand in a list. -/
def InFirstOccurrenceOrder (listed ids : List String) : Prop :=
  ids.Pairwise fun first second => listed.idxOf first < listed.idxOf second

theorem anySelects_eq {id : String} (accepted : (normalizeCapabilityID id).isSome = true)
    (parsed : List CapabilitySelector) :
    ∃ matched, anySelects repr id parsed = .ok matched ∧ (matched = true ↔ Selected repr parsed id) := by
  induction parsed with
  | nil => exact ⟨false, rfl, by simp [Selected]⟩
  | cons selector rest ih =>
      have answers : ∃ matched, selector.matches repr id = .ok matched := by
        obtain ⟨canonical, same⟩ := Option.isSome_iff_exists.mp accepted
        unfold CapabilitySelector.matches
        rw [same]
        dsimp only
        split <;> exact ⟨_, rfl⟩
      obtain ⟨matched, answer⟩ := answers
      obtain ⟨later, others, iff⟩ := ih
      unfold Selected at iff ⊢
      rw [anySelects, answer]
      cases matched with
      | true => exact ⟨true, rfl, iff_of_true rfl ⟨selector, List.mem_cons_self, answer⟩⟩
      | false =>
          refine ⟨later, others, iff.trans ?_⟩
          rw [List.exists_mem_cons_iff, answer]
          simp

/-- What is expanded of the IDs that were gone through. -/
structure Expanded (parsed : List CapabilitySelector) (seen expanded : List String) : Prop where
  order : InFirstOccurrenceOrder seen expanded
  mem : ∀ id, id ∈ expanded ↔ id ∈ seen ∧ Selected repr parsed id

variable {repr}

theorem Expanded.seen_append (holds : Expanded repr parsed seen expanded) (id : String) :
    InFirstOccurrenceOrder (seen ++ [id]) expanded := by
  refine holds.order.imp_of_mem ?_
  intro first second inside also before
  rw [List.idxOf_append_of_mem ((holds.mem first).mp inside).1, List.idxOf_append_of_mem ((holds.mem second).mp also).1]
  exact before

theorem Expanded.skip (holds : Expanded repr parsed seen expanded) {id : String}
    (known : Selected repr parsed id → id ∈ expanded) : Expanded repr parsed (seen ++ [id]) expanded where
  order := holds.seen_append id
  mem other := by
    rw [holds.mem, List.mem_append, List.mem_singleton, or_and_right]
    constructor
    · exact Or.inl
    · rintro (before | ⟨rfl, selected⟩)
      · exact before
      · exact (holds.mem other).mp (known selected)

theorem Expanded.add (holds : Expanded repr parsed seen expanded) {id : String} (new : id ∉ expanded)
    (selected : Selected repr parsed id) : Expanded repr parsed (seen ++ [id]) (expanded ++ [id]) where
  order := by
    have first : id ∉ seen := fun inside => new ((holds.mem id).mpr ⟨inside, selected⟩)
    refine List.pairwise_append.mpr ⟨holds.seen_append id, List.pairwise_singleton _ _, ?_⟩
    intro before inside last same
    rw [List.mem_singleton.mp same, List.idxOf_append_of_notMem first,
      List.idxOf_append_of_mem ((holds.mem before).mp inside).1]
    exact Nat.lt_add_right _ (List.idxOf_lt_length_of_mem ((holds.mem before).mp inside).1)
  mem other := by
    rw [List.mem_append, holds.mem, List.mem_append, List.mem_singleton, or_and_right]
    constructor
    · rintro (before | rfl)
      · exact .inl before
      · exact .inr ⟨rfl, selected⟩
    · rintro (before | ⟨rfl, _⟩)
      · exact .inl before
      · exact .inr rfl

theorem expandFrom_eq (holds : Expanded repr parsed seen expanded) (capabilities : List String) :
    (∃ ids result, capabilities.mapM normalizeCapabilityID = some ids ∧
      expandFrom repr parsed expanded capabilities = .ok result ∧ Expanded repr parsed (seen ++ ids) result) ∨
    (∃ capability ∈ capabilities, normalizeCapabilityID capability = none) ∧
      ∃ message, expandFrom repr parsed expanded capabilities = .error message := by
  induction capabilities generalizing seen expanded with
  | nil => exact .inl ⟨[], expanded, rfl, rfl, by rwa [List.append_nil]⟩
  | cons capability rest ih =>
      rw [expandFrom]
      cases accepted : normalizeCapabilityID capability with
      | none => exact .inr ⟨⟨capability, List.mem_cons_self, accepted⟩, _, rfl⟩
      | some id =>
          dsimp only
          obtain ⟨matched, answer, iff⟩ :=
            anySelects_eq repr (normalize_isSome (normalize_sound accepted).1) parsed
          have next : ∃ further, Expanded repr parsed (seen ++ [id]) further ∧
              (if id ∈ expanded then expandFrom repr parsed expanded rest
              else do
                let matched ← anySelects repr id parsed
                expandFrom repr parsed (if matched then expanded ++ [id] else expanded) rest) =
                expandFrom repr parsed further rest := by
            by_cases known : id ∈ expanded
            · rw [if_pos known]
              exact ⟨expanded, holds.skip fun _ => known, rfl⟩
            · rw [if_neg known, answer]
              cases matched with
              | true => exact ⟨expanded ++ [id], holds.add known (iff.mp rfl), rfl⟩
              | false => exact ⟨expanded, holds.skip fun selected => absurd (iff.mpr selected) Bool.false_ne_true, rfl⟩
          obtain ⟨further, sound, same⟩ := next
          rw [same]
          rcases ih sound with ⟨ids, result, mapped, ran, ends⟩ | ⟨⟨last, listed, refused⟩, stopped⟩
          · refine .inl ⟨id :: ids, result, ?_, ran, ?_⟩
            · rw [List.mapM_cons, accepted, mapped]
              rfl
            · rw [List.append_assoc] at ends
              exact ends
          · exact .inr ⟨⟨last, List.mem_cons_of_mem _ listed, refused⟩, stopped⟩

end Expansion

section Results

/-- **When capability IDs have a canonical form.** An ID is left as it is by another pass unless it was spelled as a name
that ends with a blank before a single dot. What selectors expand to are the IDs of the catalogue that one of them matches,
each once and in the order in which they first stand there; these are canonical unless one of them was spelled so. -/
theorem canonical_capability_ids (repr : String → String) :
    (∀ value result, normalizeCapabilityID value = some result →
      (normalizeCapabilityID result = some result ↔ ¬ SpacedDot value)) ∧
    ∀ selectors capabilities result, expandCapabilitySelectors repr selectors capabilities = .ok result →
      ∃ parsed ids, selectors.mapM (parseCapabilitySelector repr) = .ok parsed ∧
        capabilities.mapM normalizeCapabilityID = some ids ∧
        result.Nodup ∧ InFirstOccurrenceOrder ids result ∧
        (∀ id, id ∈ result ↔ id ∈ ids ∧ Selected repr parsed id) ∧
        ((∀ id ∈ result, normalizeCapabilityID id = some id) ↔
          ∀ capability ∈ capabilities, SpacedDot capability →
            ∀ id, normalizeCapabilityID capability = some id → ¬ Selected repr parsed id) := by
  refine ⟨fun value result accepted => (normalize_sound accepted).2, fun selectors capabilities result ran => ?_⟩
  unfold expandCapabilitySelectors at ran
  obtain ⟨parsed, read, ran⟩ := bind_eq_ok.mp ran
  have start : Expanded repr parsed [] [] := ⟨List.Pairwise.nil, fun id => by simp⟩
  rcases expandFrom_eq start capabilities with ⟨ids, expanded, mapped, same, ends⟩ | ⟨_, message, same⟩
  · cases ran.symm.trans same
    rw [List.nil_append] at ends
    have inStep := mapM_eq_some.mp mapped
    refine ⟨parsed, ids, read, mapped, ends.order.imp fun before => ?_, ends.order, ends.mem, ?_⟩
    · rintro rfl
      exact absurd before (lt_irrefl _)
    · constructor
      · intro settled capability listed spaced id accepted selected
        obtain ⟨found, inside, also⟩ := exists_right_of_mem inStep listed
        cases accepted.symm.trans also
        exact (normalize_sound accepted).2.mp (settled id ((ends.mem id).mpr ⟨inside, selected⟩)) spaced
      · intro plain id inside
        obtain ⟨there, selected⟩ := (ends.mem id).mp inside
        obtain ⟨capability, listed, accepted⟩ := exists_left_of_mem inStep there
        exact (normalize_sound accepted).2.mpr fun spaced => plain capability listed spaced id accepted selected
  · cases ran.symm.trans same

/-- A legacy spelling is expanded once, to its canonical form. -/
theorem canonical_capability_ids_sample :
    expandCapabilitySelectors id ["skill:**"] ["report.run", "shell", "skill:report:run"] = .ok ["skill:report:run"] ∧
    normalizeCapabilityID "skill:report:run" = some "skill:report:run" := by
  have spelled : normalizeCapabilityID "report.run" = some "skill:report:run" := by decide
  have dotted : ¬ SpacedDot "report.run" := by
    rintro ⟨name, letter, whole, blank, _⟩
    have last : ((strip "report.run").toList.getLast?) = some 'n' := by decide
    rw [whole, List.getLast?_append] at last
    cases last
  exact ⟨by decide, ((canonical_capability_ids id).1 "report.run" _ spelled).mpr dotted⟩

/-- The ID of a name that ends with a blank before a dot ends with it, is not left as it is, and is expanded beside the
canonical one. -/
theorem spacedDot_not_canonical :
    normalizeCapabilityID "report ." = some "skill:report " ∧
    normalizeCapabilityID "skill:report " = some "skill:report" ∧
    expandCapabilitySelectors id ["skill:**"] ["report .", "skill:report"] = .ok ["skill:report ", "skill:report"] := by
  decide

end Results

end Sico.Capabilities.Expansion

import Mathlib.Algebra.BigOperators.Group.List.Basic
import Mathlib.Data.List.Induction
import Mathlib.Data.List.Nodup
import Sico.Foundation.Basic

/-! # Dictionaries in the order of insertion

A dictionary is the list of its entries, with one entry for each key. Writing a key that is
there replaces the value in its place, and writing a new one adds it at the end. What a
dictionary holds is read through `get?`, and the rules say what each operation leaves to be
read.
-/

namespace Foundation

/-- Entries in the order of insertion, with distinct keys. -/
structure Dict (Key Value : Type*) where
  entries : List (Key × Value)
  distinct : (entries.map Prod.fst).Nodup
  deriving DecidableEq

namespace Dict

variable {Key Value : Type*} [DecidableEq Key]

def empty : Dict Key Value := ⟨[], List.nodup_nil⟩

def get? (dict : Dict Key Value) (key : Key) : Option Value :=
  (dict.entries.find? fun entry => entry.1 = key).map Prod.snd

def values (dict : Dict Key Value) : List Value := dict.entries.map Prod.snd

def keys (dict : Dict Key Value) : List Key := dict.entries.map Prod.fst

section Entries

variable (key : Key) (value : Value)

def replaceEntry (entry : Key × Value) : Key × Value := if entry.1 = key then (key, value) else entry

theorem replaceEntry_fst (entry : Key × Value) : (replaceEntry key value entry).1 = entry.1 := by
  unfold replaceEntry
  split
  · next same => exact same.symm
  · rfl

theorem map_fst_replaceEntry (entries : List (Key × Value)) :
    (entries.map (replaceEntry key value)).map Prod.fst = entries.map Prod.fst := by
  rw [List.map_map]
  exact List.map_congr_left fun entry _ => replaceEntry_fst key value entry

end Entries

def set (dict : Dict Key Value) (key : Key) (value : Value) : Dict Key Value :=
  if present : key ∈ dict.entries.map Prod.fst then
    ⟨dict.entries.map (replaceEntry key value), by
      rw [map_fst_replaceEntry]
      exact dict.distinct⟩
  else
    ⟨dict.entries ++ [(key, value)], by
      rw [List.map_append]
      refine List.nodup_append.mpr ⟨dict.distinct, List.nodup_singleton _, ?_⟩
      intro other listed new isNew same
      rw [same, List.mem_singleton.mp isNew] at listed
      exact present listed⟩

def erase (dict : Dict Key Value) (key : Key) : Dict Key Value :=
  ⟨dict.entries.filter fun entry => entry.1 ≠ key,
    dict.distinct.sublist (List.filter_sublist.map _)⟩

def map {Image : Type*} (image : Value → Image) (dict : Dict Key Value) : Dict Key Image :=
  ⟨dict.entries.map fun entry => (entry.1, image entry.2), by
    rw [List.map_map]
    exact dict.distinct⟩

/-- The entries whose value passes a test. -/
def filterValues (test : Value → Bool) (dict : Dict Key Value) : Dict Key Value :=
  ⟨dict.entries.filter fun entry => test entry.2,
    dict.distinct.sublist (List.filter_sublist.map _)⟩

def write (dict : Dict Key Value) (entries : List (Key × Value)) : Dict Key Value :=
  entries.foldl (fun written entry => written.set entry.1 entry.2) dict

variable {dict : Dict Key Value}

theorem get?_eq_some {key : Key} {value : Value} :
    dict.get? key = some value ↔ (key, value) ∈ dict.entries := by
  obtain ⟨entries, distinct⟩ := dict
  induction entries with
  | nil => simp [get?]
  | cons entry rest ih =>
      obtain ⟨first, held⟩ := entry
      rw [List.map_cons, List.nodup_cons] at distinct
      by_cases same : first = key
      · subst same
        have absent : (first, value) ∉ rest := fun listed =>
          distinct.1 (List.mem_map.mpr ⟨_, listed, rfl⟩)
        simp [get?, absent, eq_comm]
      · have rest' := ih distinct.2
        simpa [get?, same, Ne.symm same] using rest'

theorem get?_empty (key : Key) : (empty : Dict Key Value).get? key = none := rfl

theorem get?_eq_none {key : Key} : dict.get? key = none ↔ key ∉ dict.entries.map Prod.fst := by
  rw [get?, Option.map_eq_none_iff, List.find?_eq_none, List.mem_map]
  constructor
  · rintro absent ⟨entry, listed, same⟩
    exact absent entry listed (by simpa using same)
  · intro absent entry listed same
    exact absent ⟨entry, listed, by simpa using same⟩

theorem get?_set (key other : Key) (value : Value) :
    (dict.set key value).get? other = if other = key then some value else dict.get? other := by
  ext held
  rw [get?_eq_some]
  unfold set
  split
  · next present =>
      dsimp only
      rw [List.mem_map]
      constructor
      · rintro ⟨entry, listed, same⟩
        unfold replaceEntry at same
        split at same
        · cases same
          rw [if_pos rfl]
        · next different =>
            subst same
            rw [if_neg different]
            exact get?_eq_some.mpr listed
      · intro reads
        split at reads
        · next same =>
            cases reads
            subst same
            obtain ⟨entry, listed, own⟩ := List.mem_map.mp present
            exact ⟨entry, listed, by simp [replaceEntry, own]⟩
        · next different =>
            exact ⟨(other, held), get?_eq_some.mp reads, by simp [replaceEntry, different]⟩
  · next absent =>
      dsimp only
      rw [List.mem_append, List.mem_singleton]
      constructor
      · rintro (listed | new)
        · have different : other ≠ key := fun same =>
            absent (same ▸ List.mem_map_of_mem listed)
          rw [if_neg different]
          exact get?_eq_some.mpr listed
        · cases new
          rw [if_pos rfl]
      · intro reads
        split at reads
        · next same =>
            cases reads
            exact .inr (congrArg (·, value) same)
        · exact .inl (get?_eq_some.mp reads)

theorem get?_erase (key other : Key) :
    (dict.erase key).get? other = if other = key then none else dict.get? other := by
  ext held
  rw [get?_eq_some]
  unfold erase
  dsimp only
  rw [List.mem_filter]
  split
  · next same => simp [same]
  · next different => simp [different, get?_eq_some]

theorem get?_foldl_set {entries : List (Key × Value)} (distinct : (entries.map Prod.fst).Nodup)
    {key : Key} {value : Value} :
    (entries.foldl (fun written entry => written.set entry.1 entry.2) dict).get? key = some value ↔
      (key, value) ∈ entries ∨ key ∉ entries.map Prod.fst ∧ dict.get? key = some value := by
  induction entries generalizing dict with
  | nil => simp
  | cons entry rest ih =>
      obtain ⟨first, held⟩ := entry
      rw [List.map_cons, List.nodup_cons] at distinct
      rw [List.foldl_cons, ih distinct.2, get?_set]
      by_cases same : key = first
      · subst same
        have absent : (key, value) ∉ rest := fun listed =>
          distinct.1 (List.mem_map.mpr ⟨_, listed, rfl⟩)
        simp [absent, distinct.1, eq_comm]
      · simp [same]

theorem get?_map {Image : Type*} (image : Value → Image) (key : Key) :
    (dict.map image).get? key = (dict.get? key).map image := by
  rw [get?, map, List.find?_map, Option.map_map, get?, Option.map_map]
  rfl

omit [DecidableEq Key] in
theorem keys_map {Image : Type*} (image : Value → Image) : (dict.map image).keys = dict.keys := by
  rw [keys, map, List.map_map]
  rfl

theorem get?_filterValues {test : Value → Bool} {key : Key} {value : Value} :
    (dict.filterValues test).get? key = some value ↔ dict.get? key = some value ∧ test value := by
  rw [get?_eq_some, get?_eq_some]
  exact List.mem_filter

theorem mem_keys {key : Key} : key ∈ dict.keys ↔ ∃ value, dict.get? key = some value := by
  constructor
  · intro listed
    obtain ⟨entry, member, rfl⟩ := List.mem_map.mp listed
    exact ⟨entry.2, get?_eq_some.mpr member⟩
  · intro ⟨value, reads⟩
    exact List.mem_map.mpr ⟨(key, value), get?_eq_some.mp reads, rfl⟩

theorem map_get?_keys (dict : Dict Key Value) : dict.keys.map dict.get? = dict.values.map some := by
  rw [keys, values, List.map_map, List.map_map]
  exact List.map_congr_left fun _ listed => get?_eq_some.mpr listed

theorem ext_get? {first second : Dict Key Value} (keys : first.keys = second.keys)
    (reads : ∀ key ∈ first.keys, first.get? key = second.get? key) : first = second := by
  have values : first.values = second.values := by
    apply List.map_injective_iff.mpr fun _ _ => Option.some.inj
    rw [← map_get?_keys, ← map_get?_keys, ← keys]
    exact List.map_congr_left reads
  obtain ⟨entries, distinct⟩ := first
  obtain ⟨others, apart⟩ := second
  have same : entries = others := (List.zip_of_prod keys values).trans (List.zip_of_prod rfl rfl).symm
  subst same
  rfl

theorem keys_set (key : Key) (value : Value) :
    (dict.set key value).keys = if key ∈ dict.keys then dict.keys else dict.keys ++ [key] := by
  unfold set
  split
  · next present =>
      rw [if_pos (show key ∈ dict.keys from present)]
      exact map_fst_replaceEntry key value dict.entries
  · next absent =>
      rw [if_neg (show key ∉ dict.keys from absent), keys, List.map_append]
      rfl

theorem entries_set_of_new {key : Key} (value : Value) (isNew : key ∉ dict.keys) :
    (dict.set key value).entries = dict.entries ++ [(key, value)] := by
  unfold set
  rw [dif_neg (show key ∉ dict.entries.map Prod.fst from isNew)]

theorem mem_set {key : Key} {value : Value} {entry : Key × Value}
    (written : entry ∈ (dict.set key value).entries) : entry ∈ dict.entries ∨ entry = (key, value) := by
  unfold set at written
  split at written
  · obtain ⟨former, listed, rfl⟩ := List.mem_map.mp written
    unfold replaceEntry
    split
    · exact .inr rfl
    · exact .inl listed
  · rcases List.mem_append.mp written with listed | new
    · exact .inl listed
    · exact .inr (List.mem_singleton.mp new)

theorem get?_write_map (keys : List Key) (value : Key → Value) (key : Key) :
    (dict.write (keys.map fun key => (key, value key))).get? key =
      if key ∈ keys then some (value key) else dict.get? key := by
  induction keys generalizing dict with
  | nil => rfl
  | cons first rest ih =>
      have later := @ih (dict.set first (value first))
      rw [get?_set] at later
      refine later.trans ?_
      by_cases inside : key ∈ rest
      · rw [if_pos inside, if_pos (List.mem_cons_of_mem _ inside)]
      · rw [if_neg inside]
        by_cases same : key = first
        · rw [if_pos same, if_pos (List.mem_cons.mpr (.inl same)), same]
        · rw [if_neg same, if_neg (by rw [List.mem_cons, not_or]; exact ⟨same, inside⟩)]

theorem mem_write {entries : List (Key × Value)} {entry : Key × Value}
    (written : entry ∈ (dict.write entries).entries) : entry ∈ dict.entries ∨ entry ∈ entries := by
  induction entries generalizing dict with
  | nil => exact .inl written
  | cons first rest ih =>
      rcases ih written with earlier | later
      · rcases mem_set earlier with listed | rfl
        · exact .inl listed
        · exact .inr List.mem_cons_self
      · exact .inr (List.mem_cons_of_mem _ later)

theorem entries_write {entries : List (Key × Value)}
    (apart : (dict.keys ++ entries.map Prod.fst).Nodup) :
    (dict.write entries).entries = dict.entries ++ entries := by
  induction entries generalizing dict with
  | nil => exact (List.append_nil _).symm
  | cons entry rest ih =>
      obtain ⟨key, value⟩ := entry
      have isNew : key ∉ dict.keys := fun listed =>
        (List.nodup_append.mp apart).2.2 key listed key List.mem_cons_self rfl
      have apart' : ((dict.set key value).keys ++ rest.map Prod.fst).Nodup := by
        rw [keys_set, if_neg isNew, List.append_assoc]
        exact apart
      have next := ih apart'
      rw [entries_set_of_new value isNew, List.append_assoc] at next
      exact next

theorem sum_values_set {Weight : Type*} [AddCommMonoid Weight] (weight : Value → Weight) {key : Key}
    {old : Value} (found : dict.get? key = some old) (new : Value) :
    ((dict.set key new).values.map weight).sum + weight old = (dict.values.map weight).sum + weight new := by
  have listed := get?_eq_some.mp found
  have present : key ∈ dict.entries.map Prod.fst := List.mem_map_of_mem listed
  unfold set
  rw [dif_pos present]
  obtain ⟨entries, distinct⟩ := dict
  unfold values
  dsimp only at listed ⊢
  clear found present
  induction entries with
  | nil => cases listed
  | cons entry rest ih =>
      rw [List.map_cons, List.nodup_cons] at distinct
      by_cases same : entry.1 = key
      · -- the entry of the key is the first one, and no other has its key
        have absent : ∀ other ∈ rest, replaceEntry key new other = other := by
          intro other member
          apply if_neg
          intro again
          exact distinct.1 (List.mem_map.mpr ⟨other, member, again.trans same.symm⟩)
        have first : entry = (key, old) := by
          rcases List.mem_cons.mp listed with own | later
          · exact own.symm
          · exact absurd (List.mem_map.mpr ⟨_, later, same.symm⟩) distinct.1
        rw [List.map_cons, List.map_congr_left absent, List.map_id', first]
        simp only [replaceEntry, if_true, List.map_cons, List.sum_cons]
        ac_rfl
      · have later : (key, old) ∈ rest := by
          rcases List.mem_cons.mp listed with own | later
          · exact absurd (congrArg Prod.fst own).symm same
          · exact later
        have others := ih distinct.2 later
        have kept : replaceEntry key new entry = entry := if_neg same
        simp only [List.map_cons, List.sum_cons, kept] at others ⊢
        rw [add_assoc, others, add_assoc]

theorem keys_write_empty [BEq Key] [LawfulBEq Key] (entries : List (Key × Value)) :
    ((empty : Dict Key Value).write entries).keys = (entries.map Prod.fst).eraseDups := by
  induction entries using List.reverseRecOn with
  | nil => rfl
  | append_singleton earlier entry ih =>
      have last : (empty : Dict Key Value).write (earlier ++ [entry]) =
          (empty.write earlier).set entry.1 entry.2 := List.foldl_append
      rw [last, List.map_append, List.eraseDups_append]
      by_cases listed : entry.1 ∈ earlier.map Prod.fst
      · rw [keys_set, if_pos (by rw [ih]; exact List.mem_eraseDups.mpr listed), ih]
        simp [listed, List.removeAll]
      · rw [keys_set, if_neg (by rw [ih]; exact fun member => listed (List.mem_eraseDups.mp member)), ih]
        simp [listed, List.removeAll, List.eraseDups_cons]

end Dict

end Foundation

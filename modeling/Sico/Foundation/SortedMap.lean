import Mathlib.Data.List.Pairwise
import Mathlib.Order.Basic
import Mathlib.Order.Lattice

/-! # Maps that are read in the order of their keys

A map is the list of its entries in ascending order of their keys, so that going over
the sorted keys is going over the entries. Everything else about a map is told by which
entries it has (`Foundation.SortedMap.find?_eq_some`).
-/

namespace Foundation

/-- A finite map, as its entries in ascending order of their keys. -/
structure SortedMap (Key Value : Type*) [LinearOrder Key] where
  entries : List (Key × Value)
  ascending : entries.Pairwise fun first second => first.1 < second.1

namespace SortedMap

variable {Key Value : Type*} [LinearOrder Key]

def empty : SortedMap Key Value := ⟨[], .nil⟩

def keys (map : SortedMap Key Value) : List Key := map.entries.map Prod.fst

def find? (map : SortedMap Key Value) (key : Key) : Option Value :=
  (map.entries.find? fun entry => entry.1 = key).map Prod.snd

/-- An entry put at its place, over one of the same key. -/
def insertEntry (key : Key) (value : Value) : List (Key × Value) → List (Key × Value)
  | [] => [(key, value)]
  | entry :: rest =>
      if key < entry.1 then (key, value) :: entry :: rest
      else if key = entry.1 then (key, value) :: rest
      else entry :: insertEntry key value rest

section Entries

variable {entries : List (Key × Value)}

theorem mem_insertEntry (ascending : entries.Pairwise fun first second => first.1 < second.1)
    (key : Key) (value : Value) (entry : Key × Value) :
    entry ∈ insertEntry key value entries ↔
      entry = (key, value) ∨ entry ∈ entries ∧ entry.1 ≠ key := by
  induction entries with
  | nil => simp [insertEntry]
  | cons head rest ih =>
      rw [List.pairwise_cons] at ascending
      have others : ∀ other ∈ rest, head.1 < other.1 := ascending.1
      unfold insertEntry
      split
      · rename_i below
        have apart : ∀ other ∈ head :: rest, other.1 ≠ key := by
          intro other member
          rcases List.mem_cons.mp member with rfl | later
          · exact below.ne'
          · exact (below.trans (others other later)).ne'
        rw [List.mem_cons]
        exact or_congr_right ⟨fun member => ⟨member, apart entry member⟩, And.left⟩
      · split
        · rename_i same
          have apart : ∀ other ∈ rest, other.1 ≠ key := fun other member =>
            same ▸ (others other member).ne'
          constructor
          · intro member
            rcases List.mem_cons.mp member with rfl | later
            · exact .inl rfl
            · exact .inr ⟨List.mem_cons_of_mem _ later, apart entry later⟩
          · rintro (rfl | ⟨member, other⟩)
            · exact List.mem_cons_self
            · rcases List.mem_cons.mp member with rfl | later
              · exact absurd same.symm other
              · exact List.mem_cons_of_mem _ later
        · rename_i different
          have apart : head.1 ≠ key := fun same => different same.symm
          rw [List.mem_cons, ih ascending.2, List.mem_cons]
          constructor
          · rintro (rfl | rfl | ⟨later, other⟩)
            · exact .inr ⟨.inl rfl, apart⟩
            · exact .inl rfl
            · exact .inr ⟨.inr later, other⟩
          · rintro (rfl | ⟨rfl | later, other⟩)
            · exact .inr (.inl rfl)
            · exact .inl rfl
            · exact .inr (.inr ⟨later, other⟩)

theorem ascending_insertEntry
    (ascending : entries.Pairwise fun first second => first.1 < second.1)
    (key : Key) (value : Value) :
    (insertEntry key value entries).Pairwise fun first second => first.1 < second.1 := by
  induction entries with
  | nil => simp [insertEntry]
  | cons head rest ih =>
      have whole := ascending
      rw [List.pairwise_cons] at ascending
      unfold insertEntry
      split
      · rename_i below
        refine List.pairwise_cons.mpr ⟨?_, whole⟩
        intro other member
        rcases List.mem_cons.mp member with rfl | later
        · exact below
        · exact below.trans (ascending.1 other later)
      · split
        · rename_i same
          exact List.pairwise_cons.mpr ⟨by simpa [same] using ascending.1, ascending.2⟩
        · rename_i above different
          refine List.pairwise_cons.mpr ⟨?_, ih ascending.2⟩
          intro other member
          rcases (mem_insertEntry ascending.2 key value other).mp member with rfl | ⟨later, -⟩
          · exact lt_of_le_of_ne (not_lt.mp above) (Ne.symm different)
          · exact ascending.1 other later

end Entries

def insert (map : SortedMap Key Value) (key : Key) (value : Value) : SortedMap Key Value :=
  ⟨insertEntry key value map.entries, ascending_insertEntry map.ascending key value⟩

def erase (map : SortedMap Key Value) (key : Key) : SortedMap Key Value :=
  ⟨map.entries.filter fun entry => entry.1 ≠ key, map.ascending.filter _⟩

variable {map : SortedMap Key Value}

theorem mem_insert {key : Key} {value : Value} {entry : Key × Value} :
    entry ∈ (map.insert key value).entries ↔
      entry = (key, value) ∨ entry ∈ map.entries ∧ entry.1 ≠ key :=
  mem_insertEntry map.ascending key value entry

theorem eq_of_mem {key : Key} {value value' : Value} (member : (key, value) ∈ map.entries)
    (member' : (key, value') ∈ map.entries) : value = value' := by
  have symmetric : Std.Symm fun first second : Key × Value => first.1 ≠ second.1 :=
    ⟨fun _ _ unequal => unequal.symm⟩
  have apart : map.entries.Pairwise fun first second => first.1 ≠ second.1 :=
    map.ascending.imp fun below => ne_of_lt below
  by_contra different
  exact apart.forall member member' (by simpa using different) rfl

theorem find?_eq_some {key : Key} {value : Value} :
    map.find? key = some value ↔ (key, value) ∈ map.entries := by
  unfold find?
  rw [Option.map_eq_some_iff]
  constructor
  · rintro ⟨⟨key', value'⟩, found, rfl⟩
    have same : key' = key := by simpa using List.find?_some found
    exact same ▸ List.mem_of_find?_eq_some found
  · intro member
    have some_ : (map.entries.find? fun entry => entry.1 = key).isSome :=
      List.find?_isSome.mpr ⟨(key, value), member, by simp⟩
    obtain ⟨⟨key', value'⟩, found⟩ := Option.isSome_iff_exists.mp some_
    have same : key' = key := by simpa using List.find?_some found
    subst same
    exact ⟨_, found, eq_of_mem (List.mem_of_find?_eq_some found) member⟩

theorem find?_eq_none {key : Key} : map.find? key = none ↔ key ∉ map.keys := by
  unfold find? keys
  rw [Option.map_eq_none_iff, List.find?_eq_none, List.mem_map]
  constructor
  · rintro absent ⟨entry, member, rfl⟩
    exact absent entry member (by simp)
  · intro absent entry member same
    exact absent ⟨entry, member, by simpa using same⟩

theorem find?_insert (key other : Key) (value : Value) :
    (map.insert key value).find? other = if other = key then some value else map.find? other := by
  ext found
  rw [find?_eq_some, mem_insert]
  split
  · rename_i same
    subst same
    simp [eq_comm]
  · rename_i different
    rw [find?_eq_some]
    simp [different]

theorem entries_eq {entries : List (Key × Value)}
    (ascending : entries.Pairwise fun first second => first.1 < second.1)
    (same : ∀ entry, entry ∈ map.entries ↔ entry ∈ entries) : map.entries = entries := by
  have distinct : ∀ {list : List (Key × Value)},
      (list.Pairwise fun first second => first.1 < second.1) → list.Nodup := fun ordered =>
    ordered.imp fun below equal => absurd below (by rw [equal]; exact lt_irrefl _)
  have perm : map.entries.Perm entries :=
    (List.perm_ext_iff_of_nodup (distinct map.ascending) (distinct ascending)).mpr same
  exact perm.eq_of_pairwise (fun first second _ _ below above => absurd below above.not_gt)
    map.ascending ascending

theorem entries_insert_last {key : Key} (above : ∀ entry ∈ map.entries, entry.1 < key) (value : Value) :
    (map.insert key value).entries = map.entries ++ [(key, value)] := by
  refine entries_eq ?_ fun entry => ?_
  · refine List.pairwise_append.mpr ⟨map.ascending, List.pairwise_singleton _ _, ?_⟩
    intro entry inside last end_
    rw [List.mem_singleton.mp end_]
    exact above entry inside
  · rw [mem_insert, List.mem_append, List.mem_singleton, or_comm]
    exact or_congr_left (and_iff_left_of_imp fun inside => (above entry inside).ne)

theorem erase_head {key : Key} {value : Value} {rest : List (Key × Value)}
    (first : map.entries = (key, value) :: rest) : (map.erase key).entries = rest := by
  have above : ∀ entry ∈ rest, key < entry.1 := by
    have ascending := map.ascending
    rw [first, List.pairwise_cons] at ascending
    exact ascending.1
  change map.entries.filter _ = rest
  rw [first, List.filter_cons_of_neg (by simp)]
  exact List.filter_eq_self.mpr fun entry member => by simpa using (above entry member).ne'

end SortedMap

end Foundation

import Mathlib.Data.List.Nodup
import Sico.Foundation.Traversal
import Sico.Foundation.Trees

/-! # Legacy sessions

Chat state was kept once for each user, and is now kept for each conversation. What there still is of the old
folders is moved into the folder of the conversation: a folder that both have is gone through, a tree that only
the old one has is moved as it is, and all else stays. So no file is lost and none is written over, and an old
file stays only where something in its way is no folder on both sides.
-/

namespace Sico.Storage

open Foundation

variable {Content : Type}

mutual

/-- `_move_missing_legacy_path`, for a legacy tree that is there: what is left of it, and the target. -/
def moveMissing : FileTree Content → Option (FileTree Content) → Option (FileTree Content) × FileTree Content
  | legacy, none => (none, legacy)
  | .folder entries, some (.folder occupied) =>
      let (left, merged) := moveEntries entries occupied
      -- `rmdir` takes away a folder that nothing is left in
      (if left.isEmpty then none else some (.folder left), .folder merged)
  | .file content, some target => (some (.file content), target)
  | .folder entries, some (.file content) => (some (.folder entries), .file content)

/-- The children of a folder, one after the other. -/
def moveEntries :
    List (String × FileTree Content) → List (String × FileTree Content) →
      List (String × FileTree Content) × List (String × FileTree Content)
  | [], occupied => ([], occupied)
  | (name, child) :: rest, occupied =>
      let (left, moved) := moveMissing child (Members.get? occupied name)
      let (later, merged) := moveEntries rest (Members.put occupied name moved)
      ((left.map fun tree => (name, tree)).toList ++ later, merged)

end

/-- What is in the folder of a user beside the conversations, and in the folder of one conversation. -/
structure ChatFolders (Content : Type) where
  user : List (String × FileTree Content)
  session : List (String × FileTree Content)

namespace ChatFolders

def legacyChildren : List String := ["workspace", "turn", "skills"]

def migrateChild (folders : ChatFolders Content) (name : String) : ChatFolders Content :=
  match Members.get? folders.user name with
  | none => folders
  | some legacy =>
      let (left, moved) := moveMissing legacy (Members.get? folders.session name)
      { user := left.elim (Members.without folders.user name) (Members.put folders.user name)
        session := Members.put folders.session name moved }

def migrateLegacySession (folders : ChatFolders Content) : ChatFolders Content :=
  legacyChildren.foldl migrateChild folders

end ChatFolders

section Entries

variable {entries occupied : List (String × FileTree Content)} {name : String} {child tree : FileTree Content}

theorem get?_of_not_mem {Value : Type} {members : List (String × Value)} (absent : name ∉ members.map Prod.fst) :
    Members.get? members name = none := by
  rw [Members.get?_eq_none]
  intro member listed same
  exact absent (List.mem_map.mpr ⟨member, listed, same⟩)

theorem put_of_get? {Value : Type} {members : List (String × Value)} {value : Value}
    (here : Members.get? members name = some value) : Members.put members name value = members := by
  induction members with
  | nil => cases here
  | cons member rest ih =>
      rw [Members.get?_cons] at here
      unfold Members.put
      by_cases same : member.1 = name
      · rw [if_pos same] at here ⊢
        rw [← Option.some.inj here, ← same]
      · rw [if_neg same] at here ⊢
        rw [ih here]

theorem get?_moveEntries_merged (distinct : (entries.map Prod.fst).Nodup) (occupied : List (String × FileTree Content))
    (name : String) :
    Members.get? (moveEntries entries occupied).2 name =
      match Members.get? entries name with
      | some child => some (moveMissing child (Members.get? occupied name)).2
      | none => Members.get? occupied name := by
  induction entries generalizing occupied with
  | nil =>
      rw [moveEntries]
      rfl
  | cons entry rest ih =>
      obtain ⟨own, child⟩ := entry
      rw [List.map_cons, List.nodup_cons] at distinct
      rw [moveEntries]
      dsimp only
      rw [ih distinct.2, Members.get?_put, Members.get?_cons]
      by_cases same : own = name
      · subst same
        have absent := get?_of_not_mem distinct.1
        rw [absent, if_pos rfl, if_pos rfl]
      · rw [if_neg same, if_neg same]

theorem get?_moveEntries_left (distinct : (entries.map Prod.fst).Nodup) (occupied : List (String × FileTree Content))
    (name : String) :
    Members.get? (moveEntries entries occupied).1 name =
      (Members.get? entries name).bind fun child => (moveMissing child (Members.get? occupied name)).1 := by
  induction entries generalizing occupied with
  | nil =>
      rw [moveEntries]
      rfl
  | cons entry rest ih =>
      obtain ⟨own, child⟩ := entry
      rw [List.map_cons, List.nodup_cons] at distinct
      have onward := ih distinct.2 (Members.put occupied own (moveMissing child (Members.get? occupied own)).2)
      rw [moveEntries, Members.get?_cons]
      dsimp only
      rw [Members.get?_put] at onward
      by_cases same : own = name
      · subst same
        have absent := get?_of_not_mem distinct.1
        rw [absent, Option.bind_none] at onward
        rw [if_pos rfl, Option.bind_some]
        cases (moveMissing child (Members.get? occupied own)).1 with
        | none => exact onward
        | some tree => exact (Members.get?_cons _ _ _).trans (if_pos rfl)
      · rw [if_neg same] at onward
        rw [if_neg same]
        cases (moveMissing child (Members.get? occupied own)).1 with
        | none => exact onward
        | some tree => exact ((Members.get?_cons _ _ _).trans (if_neg same)).trans onward

theorem names_moveEntries_left (entries occupied : List (String × FileTree Content)) :
    ((moveEntries entries occupied).1.map Prod.fst).Sublist (entries.map Prod.fst) := by
  induction entries generalizing occupied with
  | nil => rw [moveEntries]
  | cons entry rest ih =>
      obtain ⟨own, child⟩ := entry
      rw [moveEntries]
      dsimp only
      cases (moveMissing child (Members.get? occupied own)).1 with
      | none => exact (ih _).cons _
      | some tree => exact (ih _).cons_cons _

theorem moveEntries_fixed
    (fixed : ∀ entry ∈ entries, ∃ there, Members.get? occupied entry.1 = some there ∧
      moveMissing entry.2 (some there) = (some entry.2, there)) :
    moveEntries entries occupied = (entries, occupied) := by
  induction entries with
  | nil => rw [moveEntries]
  | cons entry rest ih =>
      obtain ⟨there, here, stays⟩ := fixed entry List.mem_cons_self
      rw [moveEntries, here, stays]
      dsimp only
      rw [put_of_get? here, ih fun other listed => fixed other (List.mem_cons_of_mem _ listed)]
      rfl

end Entries

section Trees

/-- Something on the way of a path is there in the target, and is no folder on both sides. -/
def Blocked (legacy : FileTree Content) (target : Option (FileTree Content)) (path : List String) : Prop :=
  ∃ front, front <+: path ∧ ∃ there, (target.bind fun tree => tree.find front) = some there ∧
    ¬ (there.isFolder = true ∧ (legacy.find front).any FileTree.isFolder = true)

theorem blocked_folder {entries occupied : List (String × FileTree Content)} {name : String} {child : FileTree Content}
    (here : Members.get? entries name = some child) (path : List String) :
    Blocked (.folder entries) (some (.folder occupied)) (name :: path) ↔
      Blocked child (Members.get? occupied name) path := by
  constructor
  · rintro ⟨front, starts, there, found, clash⟩
    cases front with
    | nil =>
        cases found
        exact absurd ⟨rfl, rfl⟩ clash
    | cons first front =>
        obtain ⟨rfl, onward⟩ := List.cons_prefix_cons.mp starts
        rw [Option.bind_some, FileTree.find_folder] at found
        rw [FileTree.find_folder, here, Option.bind_some] at clash
        exact ⟨front, onward, there, found, clash⟩
  · rintro ⟨front, starts, there, found, clash⟩
    refine ⟨name :: front, List.cons_prefix_cons.mpr ⟨rfl, starts⟩, there, ?_, ?_⟩
    · rw [Option.bind_some, FileTree.find_folder]
      exact found
    · rw [FileTree.find_folder, here, Option.bind_some]
      exact clash

/-- What a move does: the files of the target stay, those of the legacy tree go to the target or stay where they
are, these where something is in the way, and the move has nothing more to do. -/
structure Moves (legacy : FileTree Content) (target : Option (FileTree Content)) : Prop where
  kept : ∀ there, target = some there → ∀ path content, there.contentAt path = some content →
    (moveMissing legacy target).2.contentAt path = some content
  moved : ∀ path content, legacy.contentAt path = some content → ¬ Blocked legacy target path →
    (moveMissing legacy target).2.contentAt path = some content
  stays : ∀ path content, legacy.contentAt path = some content → Blocked legacy target path →
    ((moveMissing legacy target).1.bind fun left => left.contentAt path) = some content
  fixed : ∀ left, (moveMissing legacy target).1 = some left →
    moveMissing left (some (moveMissing legacy target).2) = (some left, (moveMissing legacy target).2)

theorem moves_nothing (legacy : FileTree Content) : Moves legacy none := by
  have whole : moveMissing legacy none = (none, legacy) := by cases legacy <;> rw [moveMissing]
  constructor
  · exact nofun
  · intro path content found _
    rw [whole]
    exact found
  · rintro path content found ⟨front, _, there, none_, _⟩
    cases none_
  · rw [whole]
    exact nofun

theorem moves_clash {legacy there : FileTree Content} (clash : ¬ (there.isFolder = true ∧ legacy.isFolder = true)) :
    Moves legacy (some there) := by
  have whole : moveMissing legacy (some there) = (some legacy, there) := by
    cases legacy with
    | file content => rw [moveMissing]
    | folder entries =>
        cases there with
        | file content => rw [moveMissing]
        | folder occupied => exact absurd ⟨rfl, rfl⟩ clash
  have blocked (path : List String) : Blocked legacy (some there) path :=
    ⟨[], List.nil_prefix, there, by rw [Option.bind_some, FileTree.find_nil], by
      rw [FileTree.find_nil]
      exact clash⟩
  constructor
  · intro other same path content found
    obtain rfl := Option.some.inj same
    rw [whole]
    exact found
  · exact fun path content _ free => absurd (blocked path) free
  · intro path content found _
    rw [whole]
    exact found
  · intro left same
    rw [whole] at same ⊢
    rw [← Option.some.inj same]
    exact whole

theorem contentAt_left (left : List (String × FileTree Content)) (name : String) (path : List String) :
    ((if left.isEmpty then none else some (FileTree.folder left)).bind fun tree => tree.contentAt (name :: path)) =
      (Members.get? left name).bind fun child => child.contentAt path := by
  cases left with
  | nil => rfl
  | cons entry rest => exact FileTree.contentAt_folder_cons _ _ _

theorem moves_folder {entries occupied : List (String × FileTree Content)} (distinct : (entries.map Prod.fst).Nodup)
    (children : ∀ entry ∈ entries, ∀ target, Moves entry.2 target) :
    Moves (.folder entries) (some (.folder occupied)) := by
  have merged := get?_moveEntries_merged distinct occupied
  have left := get?_moveEntries_left distinct occupied
  have child {name : String} {tree : FileTree Content} (here : Members.get? entries name = some tree) :
      Moves tree (Members.get? occupied name) := children _ (Members.mem_of_get? here) _
  have whole : moveMissing (.folder entries) (some (.folder occupied)) =
      (if (moveEntries entries occupied).1.isEmpty then none else some (.folder (moveEntries entries occupied).1),
        .folder (moveEntries entries occupied).2) := by
    rw [moveMissing]
  constructor
  · rintro _ ⟨⟩ path content found
    obtain ⟨name, rest, there, rfl, here, below⟩ := FileTree.contentAt_folder found
    rw [whole, FileTree.contentAt_folder_cons, merged]
    cases own : Members.get? entries name with
    | none =>
        rw [here]
        exact below
    | some tree => exact (child own).kept there here rest content below
  · intro path content found free
    obtain ⟨name, rest, tree, rfl, own, below⟩ := FileTree.contentAt_folder found
    rw [blocked_folder own] at free
    rw [whole, FileTree.contentAt_folder_cons, merged, own]
    exact (child own).moved rest content below free
  · intro path content found blocked
    obtain ⟨name, rest, tree, rfl, own, below⟩ := FileTree.contentAt_folder found
    rw [blocked_folder own] at blocked
    rw [whole]
    dsimp only
    rw [contentAt_left, left, own]
    exact (child own).stays rest content below blocked
  · intro remains same
    rw [whole] at same ⊢
    dsimp only at same ⊢
    split at same
    · cases same
    · next filled =>
        obtain rfl := Option.some.inj same
        have still : moveEntries (moveEntries entries occupied).1 (moveEntries entries occupied).2 =
            moveEntries entries occupied := by
          apply moveEntries_fixed
          intro entry listed
          have unique := (names_moveEntries_left entries occupied).nodup distinct
          have found := find?_of_distinct unique listed
          have again : Members.get? (moveEntries entries occupied).1 entry.1 = some entry.2 := by
            unfold Members.get?
            rw [found]
            rfl
          rw [left] at again
          obtain ⟨tree, own, stays⟩ := Option.bind_eq_some_iff.mp again
          refine ⟨(moveMissing tree (Members.get? occupied entry.1)).2, ?_, (child own).fixed entry.2 stays⟩
          rw [merged, own]
        rw [moveMissing, still]
        dsimp only
        rw [if_neg filled]

theorem moves {legacy : FileTree Content} (proper : legacy.Proper) (target : Option (FileTree Content)) :
    Moves legacy target := by
  induction proper generalizing target with
  | file content =>
      cases target with
      | none => exact moves_nothing _
      | some there => exact moves_clash fun both => Bool.false_ne_true both.2
  | folder distinct _ ih =>
      cases target with
      | none => exact moves_nothing _
      | some there =>
          cases there with
          | file content => exact moves_clash fun both => Bool.false_ne_true both.1
          | folder occupied => exact moves_folder distinct ih

end Trees

namespace ChatFolders

section Children

variable (folders : ChatFolders Content)

theorem get?_user_migrateChild (name other : String) :
    Members.get? (folders.migrateChild name).user other =
      if name = other then
        (Members.get? folders.user name).bind fun legacy => (moveMissing legacy (Members.get? folders.session name)).1
      else Members.get? folders.user other := by
  unfold migrateChild
  cases here : Members.get? folders.user name with
  | none =>
      dsimp only
      split
      · next same => rw [← same, here, Option.bind_none]
      · rfl
  | some legacy =>
      dsimp only
      rw [Option.bind_some]
      cases (moveMissing legacy (Members.get? folders.session name)).1 with
      | none =>
          dsimp only [Option.elim]
          rw [Members.get?_without]
      | some tree =>
          dsimp only [Option.elim]
          rw [Members.get?_put]

theorem get?_session_migrateChild (name other : String) :
    Members.get? (folders.migrateChild name).session other =
      if name = other then
        (Members.get? folders.user name).elim (Members.get? folders.session name) fun legacy =>
          some (moveMissing legacy (Members.get? folders.session name)).2
      else Members.get? folders.session other := by
  unfold migrateChild
  cases here : Members.get? folders.user name with
  | none =>
      dsimp only [Option.elim]
      split
      · next same => rw [same]
      · rfl
  | some legacy =>
      dsimp only [Option.elim]
      rw [Members.get?_put]

theorem get?_foldl_migrateChild {names : List String} (distinct : names.Nodup) (folders : ChatFolders Content)
    (name : String) :
    let after := names.foldl migrateChild folders
    let legacy := Members.get? folders.user name
    let target := Members.get? folders.session name
    Members.get? after.user name =
        (if name ∈ names then legacy.bind fun legacy => (moveMissing legacy target).1 else legacy) ∧
      Members.get? after.session name =
        if name ∈ names then legacy.elim target fun legacy => some (moveMissing legacy target).2 else target := by
  induction names generalizing folders with
  | nil => exact ⟨rfl, rfl⟩
  | cons first rest ih =>
      rw [List.nodup_cons] at distinct
      obtain ⟨user, session⟩ := ih distinct.2 (folders.migrateChild first)
      dsimp only at user session ⊢
      rw [List.foldl_cons, user, session, get?_user_migrateChild, get?_session_migrateChild]
      by_cases same : first = name
      · subst same
        rw [if_neg distinct.1, if_neg distinct.1, if_pos rfl, if_pos rfl, if_pos List.mem_cons_self,
          if_pos List.mem_cons_self]
        exact ⟨rfl, rfl⟩
      · have listed : name ∈ first :: rest ↔ name ∈ rest := by
          rw [List.mem_cons, or_iff_right (Ne.symm same)]
        rw [if_neg same, if_neg same]
        simp only [listed, and_self]

theorem migrateChild_fixed {name : String}
    (fixed : ∀ legacy, Members.get? folders.user name = some legacy →
      ∃ there, Members.get? folders.session name = some there ∧
        moveMissing legacy (some there) = (some legacy, there)) : folders.migrateChild name = folders := by
  unfold migrateChild
  cases here : Members.get? folders.user name with
  | none => rfl
  | some legacy =>
      obtain ⟨there, occupied, stays⟩ := fixed legacy here
      dsimp only
      rw [occupied, stays]
      dsimp only [Option.elim]
      rw [put_of_get? here, put_of_get? occupied]

theorem foldl_migrateChild_fixed {names : List String}
    (fixed : ∀ name ∈ names, folders.migrateChild name = folders) : names.foldl migrateChild folders = folders := by
  induction names with
  | nil => rfl
  | cons first rest ih =>
      rw [List.foldl_cons, fixed first List.mem_cons_self]
      exact ih fun name listed => fixed name (List.mem_cons_of_mem _ listed)

end Children

end ChatFolders

/-- **Legacy migration.** For all trees of files in the folder of a user and in that of a conversation: every
file of the conversation stays as it is; every legacy file is in the conversation at the same path, or else
where it was, with something in its way that is no folder on both sides; and a second migration changes
nothing. -/
theorem migration_conserves {folders : ChatFolders Content} (proper : (FileTree.folder folders.user).Proper) :
    (∀ path content, (FileTree.folder folders.session).contentAt path = some content →
        (FileTree.folder folders.migrateLegacySession.session).contentAt path = some content) ∧
      (∀ child ∈ ChatFolders.legacyChildren, ∀ path content,
        (FileTree.folder folders.user).contentAt (child :: path) = some content →
          (FileTree.folder folders.migrateLegacySession.session).contentAt (child :: path) = some content ∨
            (FileTree.folder folders.migrateLegacySession.user).contentAt (child :: path) = some content ∧
              Blocked (.folder folders.user) (some (.folder folders.session)) (child :: path)) ∧
      folders.migrateLegacySession.migrateLegacySession = folders.migrateLegacySession := by
  have after (name : String) := ChatFolders.get?_foldl_migrateChild (by decide : ChatFolders.legacyChildren.Nodup)
    folders name
  have moved {name : String} {tree : FileTree Content} (here : Members.get? folders.user name = some tree) :
      Moves tree (Members.get? folders.session name) := by
    cases proper with
    | folder _ children => exact moves (children _ (Members.mem_of_get? here)) _
  refine ⟨?_, ?_, ?_⟩
  · intro path content found
    obtain ⟨name, rest, there, rfl, here, below⟩ := FileTree.contentAt_folder found
    rw [FileTree.contentAt_folder_cons, ChatFolders.migrateLegacySession, (after name).2]
    split
    · cases own : Members.get? folders.user name with
      | none => rwa [Option.elim, here]
      | some tree => exact (moved own).kept there here rest content below
    · rwa [here]
  · intro child listed path content found
    rw [FileTree.contentAt_folder_cons] at found
    obtain ⟨tree, own, below⟩ := Option.bind_eq_some_iff.mp found
    rw [FileTree.contentAt_folder_cons, FileTree.contentAt_folder_cons, ChatFolders.migrateLegacySession, (after child).1,
      (after child).2, if_pos listed, if_pos listed, own, blocked_folder own]
    by_cases blocked : Blocked tree (Members.get? folders.session child) path
    · exact .inr ⟨(moved own).stays path content below blocked, blocked⟩
    · exact .inl ((moved own).moved path content below blocked)
  · apply ChatFolders.foldl_migrateChild_fixed
    intro name listed
    apply ChatFolders.migrateChild_fixed
    intro left remains
    rw [ChatFolders.migrateLegacySession, (after name).1, if_pos listed] at remains
    obtain ⟨tree, own, same⟩ := Option.bind_eq_some_iff.mp remains
    refine ⟨(moveMissing tree (Members.get? folders.session name)).2, ?_, (moved own).fixed left same⟩
    rw [ChatFolders.migrateLegacySession, (after name).2, if_pos listed, own]
    rfl

/-- A workspace with a note that the conversation has too, and one that it does not have. -/
theorem migration_conserves_notes :
    let notes : ChatFolders ℕ :=
      { user := [("workspace", .folder [("a", .file 1), ("b", .file 2)])]
        session := [("workspace", .folder [("a", .file 3)])] }
    notes.migrateLegacySession.session = [("workspace", .folder [("a", .file 3), ("b", .file 2)])] ∧
      (FileTree.folder notes.migrateLegacySession.session).contentAt ["workspace", "a"] = some 3 := by
  intro notes
  have proper : (FileTree.folder notes.user).Proper := by
    refine .folder (List.nodup_singleton _) fun entry listed => ?_
    obtain rfl := List.mem_singleton.mp listed
    refine .folder (by decide) fun entry listed => ?_
    rcases List.mem_pair.mp listed with rfl | rfl
    · exact .file _
    · exact .file _
  exact ⟨rfl, (migration_conserves proper).1 _ _ rfl⟩

end Sico.Storage

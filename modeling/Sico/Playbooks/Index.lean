import Sico.Playbooks.Model

/-! # The index of a playbook

Each bullet is under its own identifier and stands once in the list of its section, and the
lists hold nothing else. Everything but adding keeps a playbook so. A bullet that is added
under an identifier that is taken replaces the one that had it, and its identifier is listed a
second time: an addition keeps the index in order exactly if its identifier is new.
-/

namespace Sico.Playbooks

open Foundation

/-- Every bullet is under its own identifier and once in the list of its section, the lists
name bullets of their sections only, and none of them is empty. -/
structure Playbook.Indexed (playbook : Playbook) : Prop where
  named {id : String} {bullet : Bullet} (found : playbook.bullets.get? id = some bullet) : bullet.id = id
  listed {id : String} {bullet : Bullet} (found : playbook.bullets.get? id = some bullet) :
    ∃ ids, playbook.sections.get? bullet.section_ = some ids ∧ ids.count id = 1
  filed {name id : String} {ids : List String} (found : playbook.sections.get? name = some ids)
    (member : id ∈ ids) : ∃ bullet, playbook.bullets.get? id = some bullet ∧ bullet.section_ = name
  nonempty {name : String} {ids : List String} (found : playbook.sections.get? name = some ids) : ids ≠ []

section Keeping

variable {playbook : Playbook} {id now : String}

theorem indexed_empty : Playbook.empty.Indexed where
  named found := by cases found
  listed found := by cases found
  filed found := by cases found
  nonempty found := by cases found

theorem Playbook.Indexed.congr (indexed : playbook.Indexed) {other : Playbook}
    (bullets : ∀ id, other.bullets.get? id = playbook.bullets.get? id)
    (sections : ∀ name, other.sections.get? name = playbook.sections.get? name) : other.Indexed where
  named found := indexed.named ((bullets _).symm.trans found)
  listed found := by
    rw [bullets] at found
    simpa only [sections] using indexed.listed found
  filed found member := by
    rw [sections] at found
    simpa only [bullets] using indexed.filed found member
  nonempty found := indexed.nonempty ((sections _).symm.trans found)

/-- A change of a bullet that leaves its identifier and its section. -/
def InPlace (change : Bullet → Bullet) : Prop :=
  ∀ bullet, (change bullet).id = bullet.id ∧ (change bullet).section_ = bullet.section_

theorem get?_modify (change : Bullet → Bullet) (key : String) :
    (playbook.modify id change).bullets.get? key =
      if key = id then (playbook.bullets.get? id).map change else playbook.bullets.get? key := by
  unfold Playbook.modify
  split
  · next absent =>
      split
      · next same => rw [same, absent, Option.map_none]
      · rfl
  · next bullet found => rw [Dict.get?_set, found, Option.map_some]

theorem sections_modify (change : Bullet → Bullet) :
    (playbook.modify id change).sections = playbook.sections := by
  unfold Playbook.modify
  split <;> rfl

theorem Playbook.Indexed.modify (indexed : playbook.Indexed) {change : Bullet → Bullet}
    (inPlace : InPlace change) : (playbook.modify id change).Indexed := by
  -- what is found behind the change has the identifier and the section of what was there
  have before : ∀ key bullet, (playbook.modify id change).bullets.get? key = some bullet →
      ∃ old, playbook.bullets.get? key = some old ∧ bullet.id = old.id ∧
        bullet.section_ = old.section_ := by
    intro key bullet found
    rw [get?_modify] at found
    split at found
    · next same =>
        obtain ⟨old, there, rfl⟩ := Option.map_eq_some_iff.mp found
        exact ⟨old, same ▸ there, inPlace old⟩
    · exact ⟨bullet, found, rfl, rfl⟩
  constructor
  · intro key bullet found
    obtain ⟨old, there, sameID, -⟩ := before key bullet found
    exact sameID.trans (indexed.named there)
  · intro key bullet found
    obtain ⟨old, there, -, sameSection⟩ := before key bullet found
    rw [sections_modify, sameSection]
    exact indexed.listed there
  · intro name key ids found member
    rw [sections_modify] at found
    obtain ⟨old, there, own⟩ := indexed.filed found member
    rw [get?_modify]
    split
    · next same =>
        rw [← same, there]
        exact ⟨change old, rfl, (inPlace old).2.trans own⟩
    · exact ⟨old, there, own⟩
  · intro name ids found
    rw [sections_modify] at found
    exact indexed.nonempty found

theorem get?_unlisted {sections : Dict String (List String)} {name : String} {ids : List String}
    (found : sections.get? name = some ids) (nonempty : ids ≠ []) (id other : String) :
    (Playbook.unlisted sections name id).get? other =
      if other = name then if ids.filter (· ≠ id) = [] then none else some (ids.filter (· ≠ id))
      else sections.get? other := by
  unfold Playbook.unlisted
  rw [found]
  obtain ⟨first, rest, rfl⟩ := List.exists_cons_of_ne_nil nonempty
  dsimp only
  split
  · rw [Dict.get?_erase]
  · rw [Dict.get?_set]

theorem Playbook.Indexed.discard (indexed : playbook.Indexed) {bullet : Bullet}
    (found : playbook.bullets.get? id = some bullet) :
    ({ playbook with
      bullets := playbook.bullets.erase id
      sections := unlisted playbook.sections bullet.section_ id } : Playbook).Indexed := by
  obtain ⟨own, ownFound, -⟩ := indexed.listed found
  have read := get?_unlisted ownFound (indexed.nonempty ownFound) id
  constructor
  · intro key other there
    rw [Dict.get?_erase] at there
    split at there
    · cases there
    · exact indexed.named there
  · intro key other there
    rw [Dict.get?_erase] at there
    split at there
    · cases there
    · next different =>
        obtain ⟨ids, idsFound, once⟩ := indexed.listed there
        rw [read]
        split
        · next sameSection =>
            rw [sameSection, ownFound] at idsFound
            cases idsFound
            have kept : (own.filter (· ≠ id)).count key = 1 := by
              rw [List.count_filter (by simpa using different), once]
            have some_left : own.filter (· ≠ id) ≠ [] := by
              intro none
              rw [none] at kept
              cases kept
            rw [if_neg some_left]
            exact ⟨_, rfl, kept⟩
        · exact ⟨ids, idsFound, once⟩
  · intro name key ids idsFound member
    rw [read] at idsFound
    rw [Dict.get?_erase]
    split at idsFound
    · next sameSection =>
        split at idsFound
        · cases idsFound
        · cases idsFound
          rw [List.mem_filter, decide_eq_true_eq] at member
          rw [if_neg member.2, sameSection]
          exact indexed.filed ownFound member.1
    · next different =>
        obtain ⟨other, there, section_eq⟩ := indexed.filed idsFound member
        -- the bullet that is removed is in another section
        have notRemoved : key ≠ id := by
          intro same
          rw [same, found] at there
          cases there
          exact different section_eq.symm
        rw [if_neg notRemoved]
        exact ⟨other, there, section_eq⟩
  · intro name ids idsFound
    rw [read] at idsFound
    split at idsFound
    · split at idsFound
      · cases idsFound
      · next some_left =>
          cases idsFound
          exact some_left
    · exact indexed.nonempty idsFound

theorem setCounter_inPlace (entry : Counter × ℤ) : InPlace (·.setCounter entry) := by
  intro bullet
  unfold Bullet.setCounter
  split <;> exact ⟨rfl, rfl⟩

theorem applyMetadata_inPlace (metadata : List (Counter × ℤ)) : InPlace (·.applyMetadata metadata) := by
  intro bullet
  dsimp only
  unfold Bullet.applyMetadata
  induction metadata generalizing bullet with
  | nil => exact ⟨rfl, rfl⟩
  | cons entry rest ih =>
      obtain ⟨sameID, sameSection⟩ := ih (bullet.setCounter entry)
      obtain ⟨firstID, firstSection⟩ := setCounter_inPlace entry bullet
      exact ⟨sameID.trans firstID, sameSection.trans firstSection⟩

theorem tag_inPlace (entry : Counter × ℤ) : InPlace (Bullet.tag now · entry) := by
  intro bullet
  dsimp only
  unfold Bullet.tag
  split <;> exact ⟨rfl, rfl⟩

theorem get?_reload (key : String) :
    playbook.reload.bullets.get? key = playbook.bullets.get? key := by
  ext bullet
  unfold Playbook.reload
  rw [Dict.get?_foldl_set playbook.bullets.distinct, Dict.get?_empty, Dict.get?_eq_some]
  simp

/-- A property of playbooks that changes in place and removals keep, and that is told from what is read. -/
structure Kept (property : Playbook → Prop) : Prop where
  modify {playbook : Playbook} {id : String} {change : Bullet → Bullet} (holds : property playbook)
    (inPlace : InPlace change) : property (playbook.modify id change)
  discard {playbook : Playbook} {id : String} {bullet : Bullet} (holds : property playbook)
    (found : playbook.bullets.get? id = some bullet) :
    property { playbook with
      bullets := playbook.bullets.erase id
      sections := Playbook.unlisted playbook.sections bullet.section_ id }
  congr {playbook other : Playbook} (holds : property playbook)
    (bullets : ∀ id, other.bullets.get? id = playbook.bullets.get? id)
    (sections : ∀ name, other.sections.get? name = playbook.sections.get? name) : property other

theorem indexed_kept : Kept Playbook.Indexed := ⟨fun indexed inPlace => indexed.modify inPlace,
  fun indexed found => indexed.discard found, fun indexed bullets sections => indexed.congr bullets sections⟩

namespace Kept

variable {property : Playbook → Prop} (kept : Kept property)

theorem foldl (property : Playbook → Prop) {Step : Type} {act : Playbook → Step → Playbook}
    (keeps : ∀ playbook step, property playbook → property (act playbook step)) (steps : List Step)
    (holds : property playbook) : property (steps.foldl act playbook) := by
  induction steps generalizing playbook with
  | nil => exact holds
  | cons step rest ih => exact ih (keeps playbook step holds)

include kept

theorem removeBullet (holds : property playbook) (soft : Bool) : property (playbook.removeBullet id soft now) := by
  unfold Playbook.removeBullet
  split
  · exact holds
  · next bullet found =>
      split
      · exact kept.modify holds fun _ => ⟨rfl, rfl⟩
      · exact kept.discard holds found

theorem prune (holds : property playbook) (policy : RetentionPolicy) : property (playbook.prune policy now) := by
  unfold Playbook.prune
  split
  · exact holds
  · exact foldl property (fun _ _ holds => kept.removeBullet holds false) _ holds

theorem mergeSource (holds : property playbook) (keepID sourceID : String) :
    property (playbook.mergeSource keepID now sourceID) := by
  unfold Playbook.mergeSource
  split
  · exact holds
  · split
    · exact holds
    · apply kept.removeBullet
      exact kept.modify holds fun _ => ⟨rfl, rfl⟩

theorem applyConsolidation (holds : property playbook) (action : ConsolidationAction) :
    property (playbook.applyConsolidation action now) := by
  cases action with
  | merge sourceIDs keepID mergedContent =>
      unfold Playbook.applyConsolidation
      dsimp only
      split
      · exact holds
      · apply kept.modify
        · exact foldl property (fun _ _ holds => kept.mergeSource holds keepID _) sourceIDs holds
        · exact fun _ => ⟨rfl, rfl⟩
  | drop targetIDs => exact foldl property (fun _ _ holds => kept.removeBullet holds true) targetIDs holds
  | keep targetIDs => exact holds
  | patch targetIDs newContent =>
      refine foldl property ?_ targetIDs holds
      intro left id holds
      exact kept.modify holds fun _ => ⟨rfl, rfl⟩

theorem applyOperation (holds : property playbook) {operation : DeltaOperation} (notAdd : operation.type ≠ .add)
    (now : String) : property (playbook.applyOperation operation now) := by
  unfold Playbook.applyOperation
  split
  · next isAdd => exact absurd isAdd notAdd
  · split
    · exact holds
    · exact kept.modify holds fun bullet => applyMetadata_inPlace operation.metadata _
  · split
    · exact holds
    · exact foldl property (fun _ entry holds => kept.modify holds (tag_inPlace entry)) _ holds
  · split
    · exact holds
    · exact kept.removeBullet holds false

end Kept

end Keeping

section Adding

variable (playbook : Playbook) (name content now : String) (bulletID : Option String)
  (metadata : List (Counter × ℤ))

/-- Every bullet of the first playbook is in the second as it was. -/
def Keeps (before after : Playbook) : Prop :=
  ∀ id bullet, before.bullets.get? id = some bullet → after.bullets.get? id = some bullet

theorem sections_addBullet (other : String) :
    (playbook.addBullet name content bulletID metadata now).sections.get? other =
      if other = name then
        some ((playbook.sections.get? name).getD [] ++ [(playbook.chooseID name bulletID).1])
      else playbook.sections.get? other := by
  unfold Playbook.addBullet
  rw [Dict.get?_set]

theorem bullets_addBullet : ∃ added : Bullet,
    added.id = (playbook.chooseID name bulletID).1 ∧ added.section_ = name ∧
      ∀ id, (playbook.addBullet name content bulletID metadata now).bullets.get? id =
        if id = (playbook.chooseID name bulletID).1 then some added else playbook.bullets.get? id := by
  obtain ⟨sameID, sameSection⟩ := applyMetadata_inPlace metadata
    { id := (playbook.chooseID name bulletID).1, section_ := name, content, createdAt := now, updatedAt := now }
  refine ⟨_, sameID, sameSection, ?_⟩
  intro other
  unfold Playbook.addBullet
  rw [Dict.get?_set]

variable {playbook name bulletID}

theorem keeps_addBullet (new : playbook.bullets.get? (playbook.chooseID name bulletID).1 = none) :
    Keeps playbook (playbook.addBullet name content bulletID metadata now) := by
  intro id bullet found
  obtain ⟨added, -, -, read⟩ := bullets_addBullet playbook name content now bulletID metadata
  rw [read, if_neg, found]
  intro same
  rw [same, new] at found
  cases found

theorem Playbook.Indexed.notListed (indexed : playbook.Indexed) {id : String}
    (new : playbook.bullets.get? id = none) (name : String) :
    id ∉ (playbook.sections.get? name).getD [] := by
  intro member
  cases there : playbook.sections.get? name with
  | none => simp [there] at member
  | some ids =>
      rw [there, Option.getD_some] at member
      obtain ⟨bullet, found, -⟩ := indexed.filed there member
      rw [new] at found
      cases found

theorem Playbook.Indexed.addBullet (indexed : playbook.Indexed)
    (new : playbook.bullets.get? (playbook.chooseID name bulletID).1 = none) :
    (playbook.addBullet name content bulletID metadata now).Indexed := by
  obtain ⟨added, addedID, addedSection, bullets⟩ :=
    bullets_addBullet playbook name content now bulletID metadata
  have sections := sections_addBullet playbook name content now bulletID metadata
  have notListed := indexed.notListed new
  have kept := keeps_addBullet content now metadata new
  constructor
  · intro id bullet found
    rw [bullets] at found
    split at found
    · next same =>
        cases found
        exact addedID.trans same.symm
    · exact indexed.named found
  · intro id bullet found
    rw [bullets] at found
    split at found
    · next same =>
        cases found
        rw [sections, if_pos addedSection, same]
        refine ⟨_, rfl, ?_⟩
        rw [List.count_append, List.count_eq_zero.mpr (notListed name), List.count_singleton_self]
    · next different =>
        obtain ⟨ids, there, once⟩ := indexed.listed found
        rw [sections]
        split
        · next own =>
            have last : [(playbook.chooseID name bulletID).1].count id = 0 :=
              List.count_eq_zero.mpr (by simpa using different)
            rw [own] at there
            rw [there, Option.getD_some]
            refine ⟨_, rfl, ?_⟩
            rw [List.count_append, once, last]
        · exact ⟨ids, there, once⟩
  · intro other id ids found member
    rw [sections] at found
    split at found
    · next own =>
        cases found
        rcases List.mem_append.mp member with before | last
        · cases there : playbook.sections.get? name with
          | none => simp [there] at before
          | some ids =>
              rw [there, Option.getD_some] at before
              obtain ⟨bullet, held, inSection⟩ := indexed.filed there before
              exact ⟨bullet, kept id bullet held, inSection.trans own.symm⟩
        · rw [bullets, if_pos (List.mem_singleton.mp last)]
          exact ⟨added, rfl, addedSection.trans own.symm⟩
    · obtain ⟨bullet, held, inSection⟩ := indexed.filed found member
      exact ⟨bullet, kept id bullet held, inSection⟩
  · intro other ids found
    rw [sections] at found
    split at found
    · cases found
      exact List.append_ne_nil_of_right_ne_nil _ (List.cons_ne_nil _ _)
    · exact indexed.nonempty found

theorem Playbook.Indexed.new_of_addBullet (indexed : playbook.Indexed)
    (after : (playbook.addBullet name content bulletID metadata now).Indexed) :
    playbook.bullets.get? (playbook.chooseID name bulletID).1 = none := by
  by_contra taken
  obtain ⟨old, found⟩ := Option.ne_none_iff_exists'.mp taken
  obtain ⟨added, -, addedSection, bullets⟩ :=
    bullets_addBullet playbook name content now bulletID metadata
  have sections := sections_addBullet playbook name content now bulletID metadata
  obtain ⟨ids, there, once⟩ := indexed.listed found
  have member : (playbook.chooseID name bulletID).1 ∈ ids := List.count_pos_iff.mp (by omega)
  have here := (bullets _).trans (if_pos rfl)
  by_cases own : old.section_ = name
  · obtain ⟨ids', there', once'⟩ := after.listed here
    rw [own] at there
    rw [sections, if_pos addedSection, there, Option.getD_some] at there'
    cases there'
    rw [List.count_append, once, List.count_singleton_self] at once'
    omega
  · have stays := (sections old.section_).trans (if_neg own)
    rw [there] at stays
    obtain ⟨bullet, held, inSection⟩ := after.filed stays member
    rw [here] at held
    cases held
    exact own (inSection.symm.trans addedSection)

end Adding

section Histories

variable {playbook : Playbook}

def Change.isAdd : Change → Bool
  | .operation given _ => given.type = .add
  | _ => false

/-- The identifier under which a change adds a bullet, if it adds one. -/
def Change.addedID (playbook : Playbook) : Change → Option String
  | .operation given _ =>
      if given.type = .add ∧ given.content.getD "" ≠ "" then
        some (playbook.chooseID given.section_ given.bulletID).1
      else none
  | _ => none

/-- The identifier under which the change adds a bullet, if any, is new. -/
def Change.Fresh (playbook : Playbook) (change : Change) : Prop :=
  ∀ id ∈ change.addedID playbook, playbook.bullets.get? id = none

/-- Along the changes, the index is in order and no addition replaces a bullet. -/
def Sound (playbook : Playbook) : List Change → Prop
  | [] => playbook.Indexed
  | change :: rest =>
      playbook.Indexed ∧ (change.isAdd → Keeps playbook (playbook.change change)) ∧
        Sound (playbook.change change) rest

/-- Every bullet that is added along the changes has a new identifier. -/
def FreshAdds (playbook : Playbook) : List Change → Prop
  | [] => True
  | change :: rest => change.Fresh playbook ∧ FreshAdds (playbook.change change) rest

theorem Sound.start {changes : List Change} (sound : Sound playbook changes) : playbook.Indexed := by
  cases changes with
  | nil => exact sound
  | cons change rest => exact sound.1

theorem Sound.final {changes : List Change} (sound : Sound playbook changes) :
    (changes.foldl Playbook.change playbook).Indexed := by
  induction changes generalizing playbook with
  | nil => exact sound
  | cons change rest ih => exact ih sound.2.2

theorem Change.fresh_of_none {change : Change} (addsNone : change.addedID playbook = none) :
    change.Fresh playbook := by
  intro id added
  rw [addsNone] at added
  cases added

theorem Kept.change {property : Playbook → Prop} (kept : Kept property) (holds : property playbook) {change : Change}
    (notAdd : change.isAdd = false) : property (playbook.change change) := by
  cases change with
  | operation operation now => exact kept.applyOperation holds (of_decide_eq_false notAdd) now
  | consolidation action now => exact kept.applyConsolidation holds action
  | removeBullet id soft now => exact kept.removeBullet holds soft
  | prune policy now => exact kept.prune holds policy
  | reload => exact kept.congr holds get?_reload fun _ => rfl

theorem Change.addedID_of_not_add {change : Change} (notAdd : change.isAdd = false) :
    change.addedID playbook = none := by
  cases change with
  | operation operation now => exact if_neg fun adds => of_decide_eq_false notAdd adds.1
  | _ => rfl

/-- An addition keeps the index in order exactly if its identifier is new, and then it keeps
the bullets as well. -/
theorem Playbook.Indexed.add_iff (indexed : playbook.Indexed) {operation : DeltaOperation} {now : String}
    (isAdd : operation.type = .add) :
    Keeps playbook (playbook.applyOperation operation now) ∧
        (playbook.applyOperation operation now).Indexed ↔
      (Change.operation operation now).Fresh playbook := by
  obtain ⟨type, name, content, bulletID, metadata⟩ := operation
  subst isAdd
  by_cases blank : content.getD "" = ""
  · have unchanged : playbook.applyOperation ⟨.add, name, content, bulletID, metadata⟩ now = playbook :=
      if_pos blank
    rw [unchanged]
    exact ⟨fun _ => Change.fresh_of_none (if_neg fun adds => adds.2 blank), fun _ =>
      ⟨fun _ _ found => found, indexed⟩⟩
  · have added : playbook.applyOperation ⟨.add, name, content, bulletID, metadata⟩ now =
        playbook.addBullet name (content.getD "") bulletID metadata now := if_neg blank
    have addedID : (Change.operation ⟨.add, name, content, bulletID, metadata⟩ now).addedID playbook =
        some (playbook.chooseID name bulletID).1 := if_pos ⟨rfl, blank⟩
    rw [added, Change.Fresh, addedID]
    constructor
    · rintro ⟨-, after⟩ id ⟨⟩
      exact indexed.new_of_addBullet _ now metadata after
    · intro fresh
      have new := fresh _ rfl
      exact ⟨keeps_addBullet _ now metadata new, indexed.addBullet _ now metadata new⟩

/-- A step of a history: in order before it, a playbook is in order behind it, with every
bullet kept if it is an addition, exactly if what is added has a new identifier. -/
theorem Playbook.Indexed.step_iff (indexed : playbook.Indexed) (change : Change) :
    (change.isAdd → Keeps playbook (playbook.change change)) ∧ (playbook.change change).Indexed ↔
      change.Fresh playbook := by
  cases adds : change.isAdd with
  | false =>
      have after := indexed_kept.change indexed adds
      have fresh : change.Fresh playbook := Change.fresh_of_none (Change.addedID_of_not_add adds)
      exact ⟨fun _ => fresh, fun _ => ⟨fun isAdd => absurd isAdd Bool.false_ne_true, after⟩⟩
  | true =>
      cases change with
      | operation operation now =>
          rw [← indexed.add_iff (of_decide_eq_true adds)]
          exact and_congr_left fun _ => ⟨fun keeps => keeps rfl, fun keeps _ => keeps⟩
      | _ => cases adds

theorem sound_iff (indexed : playbook.Indexed) (changes : List Change) :
    Sound playbook changes ↔ FreshAdds playbook changes := by
  induction changes generalizing playbook with
  | nil => exact ⟨fun _ => trivial, fun _ => indexed⟩
  | cons change rest ih =>
      constructor
      · rintro ⟨-, keeps, later⟩
        exact ⟨(indexed.step_iff change).mp ⟨keeps, later.start⟩, (ih later.start).mp later⟩
      · rintro ⟨fresh, later⟩
        obtain ⟨keeps, after⟩ := (indexed.step_iff change).mpr fresh
        exact ⟨indexed, keeps, (ih after).mpr later⟩

/-- Through every sequence of calls on a playbook that was empty, the index is in order and no
addition replaces a bullet, exactly if every bullet is added under a new identifier. -/
theorem index_sound_iff (calls : List Call) :
    Sound .empty (calls.flatMap Call.changes) ↔ FreshAdds .empty (calls.flatMap Call.changes) :=
  sound_iff indexed_empty _

/-- A bullet with an identifier of the curator's own choice, behind one that got it from the
counter. -/
def repeatedID : List Call :=
  [.applyDelta [⟨.add, "general", some "Check the totals.", none, []⟩] "",
    .applyDelta [⟨.add, "tips", some "Save often.", some "general-00001", []⟩] ""]

theorem repeatedID_unsound : ¬ Sound .empty (repeatedID.flatMap Call.changes) := by
  intro sound
  have indexed := sound.final
  have listed : ((repeatedID.flatMap Call.changes).foldl Playbook.change .empty).sections.get? "general" =
      some ["general-00001"] := by decide
  obtain ⟨bullet, found, inSection⟩ := indexed.filed listed List.mem_cons_self
  have elsewhere : (((repeatedID.flatMap Call.changes).foldl Playbook.change .empty).bullets.get?
      "general-00001").map Bullet.section_ = some "tips" := by decide
  rw [found, Option.map_some, inSection] at elsewhere
  exact absurd elsewhere (by decide)

end Histories

end Sico.Playbooks

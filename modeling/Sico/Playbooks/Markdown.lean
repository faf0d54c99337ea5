import Sico.Foundation.Replacement
import Sico.Playbooks.Index

/-! # Playbooks as tables

A playbook is shown as a table with a row for each active bullet that is listed under its section. Whatever the
curator does, every bullet is listed under its section, so that its content is in the table of the section.
-/

namespace Sico.Playbooks

open Foundation AgentLoop

section Tables

def headerRows : List String :=
  ["| Category | Id | Strategy | Application Result |", "| :--- | :--- | :--- | :--- |"]

/-- The identifier without what stands before its first hyphen. -/
def Bullet.shortID (bullet : Bullet) : String :=
  if '-' ∈ bullet.id.toList then (partition '-' bullet.id).2 else bullet.id

def Bullet.result (bullet : Bullet) : String :=
  "helpful=" ++ toString bullet.helpful ++ ", harmful=" ++ toString bullet.harmful ++ ", neutral=" ++
    toString bullet.neutral

def Bullet.row (name : String) (bullet : Bullet) : String :=
  "| " ++ name ++ " | " ++ bullet.shortID ++ " | " ++ bullet.content ++ " | " ++ bullet.result ++ " |"

namespace Playbook

/-- The rows of a section: of the bullets that are listed, those that are there and active. -/
def sectionRows (playbook : Playbook) (name : String) : List String :=
  ((playbook.sections.get? name).getD []).filterMap fun id =>
    (playbook.bullets.get? id).bind fun bullet => if bullet.status = .active then some (bullet.row name) else none

/-- `as_markdown`, of one section or of all. -/
def asMarkdown (playbook : Playbook) (name : Option String) : String :=
  let names := match name with
    | none => playbook.sections.keys.mergeSort fun first second => first ≤ second
    | some name => [name]
  "\n".intercalate (headerRows ++ names.flatMap playbook.sectionRows)

end Playbook

end Tables

section Listings

variable {playbook : Playbook}

/-- Every bullet is listed under its section. -/
def Playbook.Listed (playbook : Playbook) : Prop :=
  ∀ id bullet, playbook.bullets.get? id = some bullet →
    ∃ ids, playbook.sections.get? bullet.section_ = some ids ∧ id ∈ ids

theorem Playbook.Listed.modify (listed : playbook.Listed) {id : String} {change : Bullet → Bullet}
    (inPlace : InPlace change) : (playbook.modify id change).Listed := by
  intro key bullet found
  rw [get?_modify] at found
  rw [sections_modify]
  split at found
  · next same =>
      obtain ⟨old, there, rfl⟩ := Option.map_eq_some_iff.mp found
      rw [(inPlace old).2, same]
      exact listed id old there
  · exact listed key bullet found

theorem Playbook.Listed.discard (listed : playbook.Listed) {id : String} {bullet : Bullet}
    (found : playbook.bullets.get? id = some bullet) :
    ({ playbook with
      bullets := playbook.bullets.erase id
      sections := unlisted playbook.sections bullet.section_ id } : Playbook).Listed := by
  obtain ⟨own, ownFound, member⟩ := listed id bullet found
  intro key other there
  dsimp only at there ⊢
  rw [Dict.get?_erase] at there
  rw [get?_unlisted ownFound (List.ne_nil_of_mem member)]
  split at there
  · cases there
  · next different =>
      obtain ⟨ids, idsFound, inside⟩ := listed key other there
      split
      · next sameSection =>
          rw [sameSection, ownFound] at idsFound
          cases idsFound
          have stays : key ∈ own.filter (· ≠ id) := List.mem_filter.mpr ⟨inside, decide_eq_true different⟩
          rw [if_neg (List.ne_nil_of_mem stays)]
          exact ⟨_, rfl, stays⟩
      · exact ⟨ids, idsFound, inside⟩

theorem Playbook.Listed.congr (listed : playbook.Listed) {other : Playbook}
    (bullets : ∀ id, other.bullets.get? id = playbook.bullets.get? id)
    (sections : ∀ name, other.sections.get? name = playbook.sections.get? name) : other.Listed := by
  intro id bullet found
  rw [bullets] at found
  rw [sections]
  exact listed id bullet found

theorem listed_kept : Kept Playbook.Listed := ⟨fun listed inPlace => listed.modify inPlace,
  fun listed found => listed.discard found, fun listed bullets sections => listed.congr bullets sections⟩

theorem Playbook.Listed.addBullet (listed : playbook.Listed) (name content : String) (bulletID : Option String)
    (metadata : List (Counter × ℤ)) (now : String) :
    (playbook.addBullet name content bulletID metadata now).Listed := by
  obtain ⟨added, -, addedSection, bullets⟩ := bullets_addBullet playbook name content now bulletID metadata
  have sections := sections_addBullet playbook name content now bulletID metadata
  intro id bullet found
  rw [bullets] at found
  rw [sections]
  split at found
  · next same =>
      cases found
      rw [if_pos addedSection, same]
      exact ⟨_, rfl, List.mem_append_right _ List.mem_cons_self⟩
  · obtain ⟨ids, idsFound, inside⟩ := listed id bullet found
    split
    · next sameSection =>
        rw [sameSection] at idsFound
        rw [idsFound]
        exact ⟨_, rfl, List.mem_append_left _ inside⟩
    · exact ⟨ids, idsFound, inside⟩

theorem Playbook.Listed.change (listed : playbook.Listed) (change : Change) : (playbook.change change).Listed := by
  by_cases notAdd : change.isAdd = false
  · exact listed_kept.change listed notAdd
  · cases change with
    | operation operation now =>
        have isAdd : operation.type = .add := of_decide_eq_true (eq_true_of_ne_false notAdd)
        change (playbook.applyOperation operation now).Listed
        unfold Playbook.applyOperation
        rw [isAdd]
        dsimp only
        split
        · exact listed
        · exact listed.addBullet _ _ _ _ _
    | _ => exact absurd rfl notAdd

def made (calls : List Call) : Playbook := (calls.flatMap Call.changes).foldl Playbook.change .empty

theorem listed_made (calls : List Call) : (made calls).Listed := by
  refine Kept.foldl Playbook.Listed (fun _ change listed => listed.change change) _ ?_
  intro id bullet found
  cases found

end Listings

section Contents

theorem content_in_markdown {playbook : Playbook} (listed : playbook.Listed) {id : String} {bullet : Bullet}
    (found : playbook.bullets.get? id = some bullet) (active : bullet.status = .active) :
    bullet.content.toList <:+: (playbook.asMarkdown (some bullet.section_)).toList := by
  obtain ⟨ids, idsFound, inside⟩ := listed id bullet found
  have row : bullet.row bullet.section_ ∈ playbook.sectionRows bullet.section_ := by
    rw [Playbook.sectionRows, idsFound, Option.getD_some, List.mem_filterMap]
    refine ⟨id, inside, ?_⟩
    rw [found, Option.bind_some, if_pos active]
  have content : bullet.content.toList <:+: (bullet.row bullet.section_).toList := by
    refine ⟨("| " ++ bullet.section_ ++ " | " ++ bullet.shortID ++ " | ").toList,
      (" | " ++ bullet.result ++ " |").toList, ?_⟩
    rw [← String.toList_append, ← String.toList_append]
    delta Bullet.row
    simp only [String.append_assoc]
  have rows : bullet.row bullet.section_ ∈ headerRows ++ [bullet.section_].flatMap playbook.sectionRows := by
    rw [List.flatMap_singleton]
    exact List.mem_append_right _ row
  rw [Playbook.asMarkdown, String.toList_intercalate]
  exact content.trans (Replacement.infix_intercalate (List.mem_map_of_mem rows))

end Contents

end Sico.Playbooks

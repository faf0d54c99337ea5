import Sico.AgentLoop.Identifiers
import Sico.Foundation.Dict

/-! # Playbooks

Bullets under their identifiers, and for each section the list of the identifiers of its
bullets. A counter numbers the identifiers that are generated. The curator changes a playbook
by batches of operations and by consolidation, which marks bullets as invalid where they are;
removing and pruning take them out.

Embeddings and the verdicts that keep two bullets apart have no part in the index and are
left out. The metadata of an operation are the counters, as in the schema of the curator.
-/

namespace Sico.Playbooks

open Foundation AgentLoop

inductive Counter where
  | helpful
  | harmful
  | neutral
  deriving DecidableEq, Repr

inductive BulletStatus where
  | active
  | invalid
  deriving DecidableEq, Repr

structure Bullet where
  id : String
  section_ : String
  content : String
  helpful : ℤ := 0
  harmful : ℤ := 0
  neutral : ℤ := 0
  createdAt : String
  updatedAt : String
  status : BulletStatus := .active
  deriving DecidableEq, Repr

namespace Bullet

def setCounter (bullet : Bullet) (entry : Counter × ℤ) : Bullet :=
  match entry.1 with
  | .helpful => { bullet with helpful := entry.2 }
  | .harmful => { bullet with harmful := entry.2 }
  | .neutral => { bullet with neutral := entry.2 }

def applyMetadata (bullet : Bullet) (metadata : List (Counter × ℤ)) : Bullet :=
  metadata.foldl setCounter bullet

def tag (now : String) (bullet : Bullet) (entry : Counter × ℤ) : Bullet :=
  match entry.1 with
  | .helpful => { bullet with helpful := bullet.helpful + entry.2, updatedAt := now }
  | .harmful => { bullet with harmful := bullet.harmful + entry.2, updatedAt := now }
  | .neutral => { bullet with neutral := bullet.neutral + entry.2, updatedAt := now }

end Bullet

structure Playbook where
  bullets : Dict String Bullet
  sections : Dict String (List String)
  nextID : ℕ

def Playbook.empty : Playbook := ⟨.empty, .empty, 0⟩

section Identifiers

/-- A character of a section's name in lower case, if it is a letter or a digit of ASCII. The
Kelvin sign and the dotted capital I are the two others that fold into a letter. -/
def prefixChar (c : Char) : Option Char :=
  let lower := if c = '\u212a' then 'k' else if c = '\u0130' then 'i' else c.toLower
  if lower.isLower || lower.isDigit then some lower else none

/-- The first word of a section's name, reduced to letters and digits. -/
def sectionPrefix (name : String) : String :=
  let word := (name.toList.dropWhile isBlank).takeWhile fun c => !isBlank c
  let reduced := word.filterMap prefixChar
  if reduced = [] then "general" else String.ofList reduced

def fiveDigits (number : ℕ) : String :=
  String.ofList (List.replicate (5 - (toString number).length) '0') ++ toString number

/-- `_generate_id`, for the number that is next. -/
def generatedID (name : String) (number : ℕ) : String := sectionPrefix name ++ "-" ++ fiveDigits number

end Identifiers

section Changes

namespace Playbook

/-- The bullet under an identifier, changed in its place. -/
def modify (playbook : Playbook) (id : String) (change : Bullet → Bullet) : Playbook :=
  match playbook.bullets.get? id with
  | none => playbook
  | some bullet => { playbook with bullets := playbook.bullets.set id (change bullet) }

/-- The identifier of a bullet that is added, and the counter behind it. -/
def chooseID (playbook : Playbook) (name : String) (bulletID : Option String) : String × ℕ :=
  if bulletID.getD "" = "" then (generatedID name (playbook.nextID + 1), playbook.nextID + 1)
  else (bulletID.getD "", playbook.nextID)

def addBullet (playbook : Playbook) (name content : String) (bulletID : Option String)
    (metadata : List (Counter × ℤ)) (now : String) : Playbook :=
  let (id, nextID) := playbook.chooseID name bulletID
  let bullet : Bullet := { id, section_ := name, content, createdAt := now, updatedAt := now }
  { bullets := playbook.bullets.set id (bullet.applyMetadata metadata)
    sections := playbook.sections.set name ((playbook.sections.get? name).getD [] ++ [id])
    nextID }

def updateBullet (playbook : Playbook) (id : String) (content : Option String)
    (metadata : List (Counter × ℤ)) (now : String) : Playbook :=
  playbook.modify id fun bullet =>
    { ({ bullet with content := content.getD bullet.content }).applyMetadata metadata with
      updatedAt := now }

def tagBullet (playbook : Playbook) (id : String) (entry : Counter × ℤ) (now : String) : Playbook :=
  playbook.modify id fun bullet => bullet.tag now entry

/-- The sections behind the removal of a bullet: its identifier is taken out of the list of
its section, and the section with it if the list is empty then. -/
def unlisted (sections : Dict String (List String)) (name id : String) : Dict String (List String) :=
  match sections.get? name with
  | none => sections
  | some [] => sections
  | some ids =>
      if ids.filter (· ≠ id) = [] then sections.erase name
      else sections.set name (ids.filter (· ≠ id))

def removeBullet (playbook : Playbook) (id : String) (soft : Bool) (now : String) : Playbook :=
  match playbook.bullets.get? id with
  | none => playbook
  | some bullet =>
      if soft then
        playbook.modify id fun bullet => { bullet with status := .invalid, updatedAt := now }
      else
        { playbook with
          bullets := playbook.bullets.erase id
          sections := unlisted playbook.sections bullet.section_ id }

def active (playbook : Playbook) : List Bullet :=
  playbook.bullets.values.filter fun bullet => bullet.status = .active

end Playbook

/-- `RetentionPolicy` at a moment: how many bullets to keep, which are disposable, and by what
order the others go, the first of them first. -/
structure RetentionPolicy where
  maxBullets : ℤ
  isDisposable : Bullet → Bool
  goesBefore : Bullet → Bullet → Bool

/-- The identifiers of the bullets that a policy evicts. -/
def RetentionPolicy.evicted (policy : RetentionPolicy) (active : List Bullet) : List String :=
  let disposable := (active.filter policy.isDisposable).map Bullet.id
  let survivors := active.filter fun bullet => bullet.id ∉ disposable
  let overflow := (survivors.length : ℤ) - policy.maxBullets
  let lowest := (survivors.mergeSort policy.goesBefore).take overflow.toNat
  (disposable ++ lowest.map Bullet.id).dedup

def Playbook.prune (playbook : Playbook) (policy : RetentionPolicy) (now : String) : Playbook :=
  if (playbook.active.length : ℤ) ≤ policy.maxBullets then playbook
  else (policy.evicted playbook.active).foldl (fun left id => left.removeBullet id false now) playbook

inductive OperationType where
  | add
  | update
  | tag
  | remove
  deriving DecidableEq, Repr

structure DeltaOperation where
  type : OperationType
  section_ : String
  content : Option String := none
  bulletID : Option String := none
  metadata : List (Counter × ℤ) := []

def Playbook.applyOperation (playbook : Playbook) (operation : DeltaOperation) (now : String) : Playbook :=
  match operation.type with
  | .add =>
      if operation.content.getD "" = "" then playbook
      else playbook.addBullet operation.section_ (operation.content.getD "") operation.bulletID
        operation.metadata now
  | .update =>
      match operation.bulletID with
      | none => playbook
      | some id => playbook.updateBullet id operation.content operation.metadata now
  | .tag =>
      match operation.bulletID with
      | none => playbook
      | some id => operation.metadata.foldl (fun playbook entry => playbook.tagBullet id entry now) playbook
  | .remove =>
      match operation.bulletID with
      | none => playbook
      | some id => playbook.removeBullet id false now

/-- `ConsolidationAction`, with what each kind reads of the payload. -/
inductive ConsolidationAction where
  | merge (sourceIDs : List String) (keepID mergedContent : String)
  | drop (targetIDs : List String)
  | keep (targetIDs : List String)
  | patch (targetIDs : List String) (newContent : String)

/-- A bullet with the counters of another added to its own. -/
def Bullet.absorb (source bullet : Bullet) : Bullet :=
  { bullet with
    helpful := bullet.helpful + source.helpful
    harmful := bullet.harmful + source.harmful
    neutral := bullet.neutral + source.neutral }

def orSame (current given : String) : String := if given = "" then current else given

namespace Playbook

/-- One source of a merge: its counters go to the bullet that is kept. -/
def mergeSource (keepID now : String) (playbook : Playbook) (sourceID : String) : Playbook :=
  if sourceID = keepID then playbook
  else
    match playbook.bullets.get? sourceID with
    | none => playbook
    | some source => (playbook.modify keepID source.absorb).removeBullet sourceID true now

def applyConsolidation (playbook : Playbook) (action : ConsolidationAction) (now : String) : Playbook :=
  match action with
  | .merge sourceIDs keepID mergedContent =>
      match playbook.bullets.get? keepID with
      | none => playbook
      | some _ =>
          (sourceIDs.foldl (mergeSource keepID now) playbook).modify keepID fun bullet =>
            { bullet with content := orSame bullet.content mergedContent, updatedAt := now }
  | .drop targetIDs => targetIDs.foldl (fun playbook id => playbook.removeBullet id true now) playbook
  | .keep _ => playbook
  | .patch targetIDs newContent =>
      targetIDs.foldl (fun playbook id => playbook.modify id fun bullet =>
        { bullet with content := orSame bullet.content newContent, updatedAt := now }) playbook

/-- `from_dict` of what `to_dict` gives: the bullets are entered one by one. -/
def reload (playbook : Playbook) : Playbook :=
  { playbook with
    bullets := playbook.bullets.entries.foldl (fun bullets entry => bullets.set entry.1 entry.2) .empty }

end Playbook

/-- The calls on a playbook, each at a time of its own. -/
inductive Call where
  | applyDelta (operations : List DeltaOperation) (now : String)
  | applyConsolidationActions (actions : List ConsolidationAction) (now : String)
  | removeBullet (id : String) (soft : Bool) (now : String)
  | prune (policy : RetentionPolicy) (now : String)
  | reload

/-- The single changes that calls are made of. -/
inductive Change where
  | operation (operation : DeltaOperation) (now : String)
  | consolidation (action : ConsolidationAction) (now : String)
  | removeBullet (id : String) (soft : Bool) (now : String)
  | prune (policy : RetentionPolicy) (now : String)
  | reload

def Playbook.change (playbook : Playbook) : Change → Playbook
  | .operation operation now => playbook.applyOperation operation now
  | .consolidation action now => playbook.applyConsolidation action now
  | .removeBullet id soft now => playbook.removeBullet id soft now
  | .prune policy now => playbook.prune policy now
  | .reload => playbook.reload

def Call.changes : Call → List Change
  | .applyDelta operations now => operations.map (.operation · now)
  | .applyConsolidationActions actions now => actions.map (.consolidation · now)
  | .removeBullet id soft now => [.removeBullet id soft now]
  | .prune policy now => [.prune policy now]
  | .reload => [.reload]

end Changes

end Sico.Playbooks

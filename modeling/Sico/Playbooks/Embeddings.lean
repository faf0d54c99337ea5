import Sico.Foundation.System
import Sico.Playbooks.Index

/-! # Embeddings of bullets

The embedding of a bullet is computed from its content and kept with it. What changes a
content is to take the embedding away: adding makes a new bullet, and merging and patching
reset the embedding of the bullet that they change. An update does not. The embeddings are
those of the current contents exactly as long as no update gives an active bullet that has an
embedding a content with another one.
-/

namespace Sico.Playbooks

open Foundation

/-- A playbook, with the attribute `embedding` of the bullet under each identifier. -/
structure Embedded (Vector : Type) where
  playbook : Playbook
  embedding : String → Option Vector

/-- A scanner: the client that embeds texts, and how embeddings are compared. -/
structure Scanner (Vector Score : Type) where
  embed : String → Vector
  cosineSimilarity : Vector → Vector → Score
  atLeast : Score → Score → Bool
  similarityThreshold : Score
  withinSectionOnly : Bool

namespace Embedded

variable {Vector Score : Type}

/-- Where there is no bullet, there is no embedding to reset. -/
def resetEmbedding (state : Embedded Vector) (id : String) : Embedded Vector :=
  { state with embedding := Function.update state.embedding id none }

def setEmbedding (state : Embedded Vector) (id : String) (vector : Vector) : Embedded Vector :=
  { state with embedding := Function.update state.embedding id (some vector) }

/-- `_apply_operation`: a bullet that is added is a new one, without an embedding. -/
def applyOperation (state : Embedded Vector) (operation : DeltaOperation) (now : String) : Embedded Vector :=
  let changed := { state with playbook := state.playbook.applyOperation operation now }
  match operation.type with
  | .add =>
      if operation.content.getD "" = "" then changed
      else changed.resetEmbedding (state.playbook.chooseID operation.section_ operation.bulletID).1
  | .update | .tag | .remove => changed

/-- `apply_consolidation_actions`, one of them. -/
def applyConsolidation (state : Embedded Vector) (action : ConsolidationAction) (now : String) :
    Embedded Vector :=
  let changed := { state with playbook := state.playbook.applyConsolidation action now }
  match action with
  | .merge _ keepID _ =>
      match state.playbook.bullets.get? keepID with
      | none => changed
      | some _ => changed.resetEmbedding keepID
  | .patch targetIDs _ => targetIDs.foldl resetEmbedding changed
  | .drop _ | .keep _ => changed

/-- `to_dict` writes the embeddings and `from_dict` reads them. -/
def change (state : Embedded Vector) : Change → Embedded Vector
  | .operation operation now => state.applyOperation operation now
  | .consolidation action now => state.applyConsolidation action now
  | .removeBullet id soft now => { state with playbook := state.playbook.removeBullet id soft now }
  | .prune policy now => { state with playbook := state.playbook.prune policy now }
  | .reload => { state with playbook := state.playbook.reload }

def active (state : Embedded Vector) : List (String × Bullet) :=
  state.playbook.bullets.entries.filter fun entry => entry.2.status = .active

end Embedded

namespace Scanner

variable {Vector Score : Type}

/-- `_compute_embeddings_batch`: nothing for any text, if the call of the client fails. -/
def computeEmbeddingsBatch (scanner : Scanner Vector Score) (fails : Bool) (texts : List String) :
    List (Option Vector) :=
  if fails then List.replicate texts.length none else texts.map fun text => some (scanner.embed text)

def ensureEmbeddings (scanner : Scanner Vector Score) (fails : Bool) (state : Embedded Vector) :
    Embedded Vector :=
  let needing := state.active.filter fun entry => (state.embedding entry.1).isNone
  let embeddings := scanner.computeEmbeddingsBatch fails (needing.map fun entry => entry.2.content)
  (needing.zip embeddings).foldl (fun state pair =>
    match pair.2 with
    | none => state
    | some vector => state.setEmbedding pair.1.1 vector) state

/-- What one bullet is compared with another for, if both have embeddings and no verdict keeps
them apart. -/
def comparePair (scanner : Scanner Vector Score) (state : Embedded Vector)
    (hasKeepDecision : String → String → Bool) (first second : String × Bullet) :
    Option (Bullet × Bullet × Score) :=
  match state.embedding first.1, state.embedding second.1 with
  | some a, some b =>
      if hasKeepDecision first.2.id second.2.id then none
      else if scanner.atLeast (scanner.cosineSimilarity a b) scanner.similarityThreshold then
        some (first.2, second.2, scanner.cosineSimilarity a b)
      else none
  | _, _ => none

def scanList (scanner : Scanner Vector Score) (state : Embedded Vector)
    (hasKeepDecision : String → String → Bool) : List (String × Bullet) → List (Bullet × Bullet × Score)
  | [] => []
  | first :: rest =>
      rest.filterMap (scanner.comparePair state hasKeepDecision first) ++
        scanList scanner state hasKeepDecision rest

/-- The bullets by section, in the order of insertion. -/
def bySection (bullets : List (String × Bullet)) : Dict String (List (String × Bullet)) :=
  bullets.foldl (fun sections entry =>
    sections.set entry.2.section_ ((sections.get? entry.2.section_).getD [] ++ [entry])) .empty

def detectSimilarPairs (scanner : Scanner Vector Score) (state : Embedded Vector)
    (hasKeepDecision : String → String → Bool) : List (Bullet × Bullet × Score) :=
  let pairs :=
    if scanner.withinSectionOnly then
      (bySection state.active).values.flatMap (scanner.scanList state hasKeepDecision)
    else scanner.scanList state hasKeepDecision state.active
  pairs.mergeSort fun first second => scanner.atLeast first.2.2 second.2.2

end Scanner

/-- The calls on a playbook, and the scanner's. -/
inductive EmbeddedCall where
  | playbook (call : Call)
  | ensureEmbeddings (fails : Bool)

/-- The single changes that these calls are made of. -/
inductive EmbeddedChange where
  | playbook (change : Change)
  | ensureEmbeddings (fails : Bool)

def EmbeddedCall.changes : EmbeddedCall → List EmbeddedChange
  | .playbook call => call.changes.map .playbook
  | .ensureEmbeddings fails => [.ensureEmbeddings fails]

section Freshness

variable {Vector Score : Type}

def Embedded.apply (scanner : Scanner Vector Score) (state : Embedded Vector) :
    EmbeddedChange → Embedded Vector
  | .playbook change => state.change change
  | .ensureEmbeddings fails => scanner.ensureEmbeddings fails state

/-- The embedding of every active bullet that has one is that of its content. -/
def Embedded.Fresh (scanner : Scanner Vector Score) (state : Embedded Vector) : Prop :=
  ∀ id bullet, state.playbook.bullets.get? id = some bullet → bullet.status = .active →
    ∀ vector, state.embedding id = some vector → vector = scanner.embed bullet.content

/-- The embeddings are fresh, and the pairs that are detected are similar by their contents. -/
structure Embedded.Current (scanner : Scanner Vector Score) (state : Embedded Vector) : Prop where
  fresh : state.Fresh scanner
  detected : ∀ hasKeepDecision, ∀ pair ∈ scanner.detectSimilarPairs state hasKeepDecision,
    pair.2.2 = scanner.cosineSimilarity (scanner.embed pair.1.content) (scanner.embed pair.2.1.content)

/-- An update of an active bullet with an embedding that leaves the embedding of the content. -/
def Careful (scanner : Scanner Vector Score) (state : Embedded Vector) : EmbeddedChange → Prop
  | .playbook (.operation ⟨.update, _, some content, some id, _⟩ _) =>
      ∀ bullet, state.playbook.bullets.get? id = some bullet → bullet.status = .active →
        (state.embedding id).isSome → scanner.embed content = scanner.embed bullet.content
  | _ => True

end Freshness

section Contents

variable {touched : List String} {before middle after playbook : Playbook} {id now : String}

/-- Apart from some identifiers, every active bullet was active before with the content that it
has. -/
def Traces (touched : List String) (before after : Playbook) : Prop :=
  ∀ id ∉ touched, ∀ bullet, after.bullets.get? id = some bullet → bullet.status = .active →
    ∃ former, before.bullets.get? id = some former ∧ former.status = .active ∧
      former.content = bullet.content

theorem Traces.refl : Traces touched playbook playbook :=
  fun _ _ bullet found isActive => ⟨bullet, found, isActive, rfl⟩

theorem Traces.trans (first : Traces touched before middle) (second : Traces touched middle after) :
    Traces touched before after := by
  intro id apart bullet found isActive
  obtain ⟨between, foundBetween, activeBetween, sameContent⟩ := second id apart bullet found isActive
  obtain ⟨former, foundFormer, activeFormer, same⟩ := first id apart between foundBetween activeBetween
  exact ⟨former, foundFormer, activeFormer, same.trans sameContent⟩

theorem Traces.foldl {Step : Type} {act : Playbook → Step → Playbook}
    {steps : List Step} (each : ∀ step ∈ steps, ∀ playbook, Traces touched playbook (act playbook step)) :
    Traces touched playbook (steps.foldl act playbook) := by
  induction steps generalizing playbook with
  | nil => exact .refl
  | cons step rest ih =>
      apply (each step List.mem_cons_self playbook).trans
      exact ih fun later member => each later (List.mem_cons_of_mem _ member)

/-- A change of a bullet that makes none active and leaves the content. -/
def KeepsContent (change : Bullet → Bullet) : Prop :=
  ∀ bullet, (change bullet).status = .active →
    bullet.status = .active ∧ bullet.content = (change bullet).content

theorem Traces.modify {change : Bullet → Bullet} (keeps : KeepsContent change ∨ id ∈ touched) :
    Traces touched playbook (playbook.modify id change) := by
  intro key apart bullet found isActive
  rw [get?_modify] at found
  split at found
  · next same =>
      obtain ⟨former, foundFormer, rfl⟩ := Option.map_eq_some_iff.mp found
      rcases keeps with keeps | isTouched
      · obtain ⟨wasActive, sameContent⟩ := keeps former isActive
        exact ⟨former, same ▸ foundFormer, wasActive, sameContent⟩
      · exact absurd (same ▸ isTouched) apart
  · exact ⟨bullet, found, isActive, rfl⟩

theorem Traces.removeBullet (soft : Bool) : Traces touched playbook (playbook.removeBullet id soft now) := by
  unfold Playbook.removeBullet
  split
  · exact .refl
  · split
    · apply Traces.modify
      left
      intro bullet isActive
      cases isActive
    · intro key _ bullet found isActive
      rw [Dict.get?_erase] at found
      split at found
      · cases found
      · exact ⟨bullet, found, isActive, rfl⟩

theorem setCounter_keeps (entry : Counter × ℤ) (bullet : Bullet) :
    (bullet.setCounter entry).status = bullet.status ∧ (bullet.setCounter entry).content = bullet.content := by
  unfold Bullet.setCounter
  split <;> exact ⟨rfl, rfl⟩

theorem applyMetadata_keeps (metadata : List (Counter × ℤ)) (bullet : Bullet) :
    (bullet.applyMetadata metadata).status = bullet.status ∧
      (bullet.applyMetadata metadata).content = bullet.content := by
  unfold Bullet.applyMetadata
  induction metadata generalizing bullet with
  | nil => exact ⟨rfl, rfl⟩
  | cons entry rest ih =>
      obtain ⟨sameStatus, sameContent⟩ := ih (bullet.setCounter entry)
      obtain ⟨firstStatus, firstContent⟩ := setCounter_keeps entry bullet
      exact ⟨sameStatus.trans firstStatus, sameContent.trans firstContent⟩

theorem Traces.tagBullet (entry : Counter × ℤ) : Traces touched playbook (playbook.tagBullet id entry now) := by
  apply Traces.modify
  left
  intro bullet isActive
  unfold Bullet.tag at isActive ⊢
  split at isActive <;> exact ⟨isActive, rfl⟩

theorem Traces.prune (policy : RetentionPolicy) : Traces touched playbook (playbook.prune policy now) := by
  unfold Playbook.prune
  split
  · exact .refl
  · exact .foldl fun _ _ _ => .removeBullet false

theorem Traces.reload : Traces touched playbook playbook.reload := by
  intro key _ bullet found isActive
  rw [get?_reload] at found
  exact ⟨bullet, found, isActive, rfl⟩

theorem Traces.mergeSource (keepID sourceID : String) :
    Traces touched playbook (playbook.mergeSource keepID now sourceID) := by
  unfold Playbook.mergeSource
  split
  · exact .refl
  · split
    · exact .refl
    · next source _ =>
        have absorbs : KeepsContent source.absorb := fun _ isActive => ⟨isActive, rfl⟩
        exact (Traces.modify (.inl absorbs)).trans (.removeBullet true)

def Bullet.updated (content : Option String) (metadata : List (Counter × ℤ)) (now : String)
    (bullet : Bullet) : Bullet :=
  { ({ bullet with content := content.getD bullet.content }).applyMetadata metadata with updatedAt := now }

theorem updated_keeps (content : Option String) (metadata : List (Counter × ℤ)) (bullet : Bullet) :
    (bullet.updated content metadata now).status = bullet.status ∧
      (bullet.updated content metadata now).content = content.getD bullet.content :=
  applyMetadata_keeps metadata { bullet with content := content.getD bullet.content }

theorem Traces.updateBullet (id now : String) (metadata : List (Counter × ℤ)) :
    Traces touched playbook (playbook.updateBullet id none metadata now) := by
  apply Traces.modify
  left
  intro bullet isActive
  obtain ⟨sameStatus, sameContent⟩ := updated_keeps none metadata bullet
  exact ⟨sameStatus.symm.trans isActive, sameContent.symm⟩

theorem Traces.addBullet (name content : String) (bulletID : Option String) (metadata : List (Counter × ℤ)) :
    Traces [(playbook.chooseID name bulletID).1] playbook
      (playbook.addBullet name content bulletID metadata now) := by
  intro key apart bullet found isActive
  obtain ⟨added, -, -, bullets⟩ := bullets_addBullet playbook name content now bulletID metadata
  rw [bullets, if_neg (fun same => apart (List.mem_singleton.mpr same))] at found
  exact ⟨bullet, found, isActive, rfl⟩

end Contents

section Steps

variable {Vector Score : Type} {scanner : Scanner Vector Score} {state after : Embedded Vector}
  {touched : List String}

theorem Embedded.Fresh.carried (fresh : state.Fresh scanner)
    (traces : Traces touched state.playbook after.playbook)
    (embeddings : ∀ id, after.embedding id = if id ∈ touched then none else state.embedding id) :
    after.Fresh scanner := by
  intro id bullet found isActive vector embedded
  rw [embeddings] at embedded
  split at embedded
  · cases embedded
  · next apart =>
      obtain ⟨former, foundFormer, wasActive, sameContent⟩ := traces id apart bullet found isActive
      rw [← sameContent]
      exact fresh id former foundFormer wasActive vector embedded

theorem Embedded.Fresh.kept (fresh : state.Fresh scanner) {playbook : Playbook}
    (traces : Traces [] state.playbook playbook) :
    Embedded.Fresh scanner { state with playbook } :=
  fresh.carried traces fun _ => (if_neg List.not_mem_nil).symm

theorem embedding_resetEmbedding (id key : String) :
    (state.resetEmbedding id).embedding key = if key ∈ [id] then none else state.embedding key := by
  unfold Embedded.resetEmbedding
  dsimp only
  rw [Function.update_apply]
  simp only [List.mem_singleton]

theorem foldl_resetEmbedding (ids : List String) (state : Embedded Vector) :
    (ids.foldl Embedded.resetEmbedding state).playbook = state.playbook ∧
      ∀ key, (ids.foldl Embedded.resetEmbedding state).embedding key =
        if key ∈ ids then none else state.embedding key := by
  induction ids generalizing state with
  | nil => exact ⟨rfl, fun _ => (if_neg List.not_mem_nil).symm⟩
  | cons id rest ih =>
      obtain ⟨samePlaybook, embeddings⟩ := ih (state.resetEmbedding id)
      refine ⟨samePlaybook, ?_⟩
      intro key
      rw [List.foldl_cons, embeddings, embedding_resetEmbedding]
      by_cases later : key ∈ rest
      · rw [if_pos later, if_pos (List.mem_cons_of_mem _ later)]
      · simp [later]

theorem Embedded.Fresh.applyConsolidation (fresh : state.Fresh scanner) (action : ConsolidationAction)
    (now : String) : (state.applyConsolidation action now).Fresh scanner := by
  cases action with
  | merge sourceIDs keepID mergedContent =>
      unfold Embedded.applyConsolidation
      dsimp only
      cases foundKeep : state.playbook.bullets.get? keepID with
      | none =>
          apply fresh.kept
          unfold Playbook.applyConsolidation
          dsimp only
          rw [foundKeep]
          exact .refl
      | some keep =>
          have traces : Traces [keepID] state.playbook
              (state.playbook.applyConsolidation (.merge sourceIDs keepID mergedContent) now) := by
            unfold Playbook.applyConsolidation
            dsimp only
            rw [foundKeep]
            apply Traces.trans (.foldl fun sourceID _ playbook => .mergeSource keepID sourceID)
            exact .modify (.inr List.mem_cons_self)
          exact fresh.carried traces (embedding_resetEmbedding keepID)
  | drop targetIDs =>
      apply fresh.kept
      exact .foldl fun _ _ _ => .removeBullet true
  | keep targetIDs => exact fresh.kept .refl
  | patch targetIDs newContent =>
      obtain ⟨samePlaybook, embeddings⟩ := foldl_resetEmbedding targetIDs
        { state with playbook := state.playbook.applyConsolidation (.patch targetIDs newContent) now }
      have traces : Traces targetIDs state.playbook
          (state.playbook.applyConsolidation (.patch targetIDs newContent) now) :=
        .foldl fun id listed _ => .modify (.inr listed)
      apply fresh.carried _ embeddings
      rw [samePlaybook]
      exact traces

theorem fresh_update_iff (fresh : state.Fresh scanner) (name : String) (content : Option String)
    (bulletID : Option String) (metadata : List (Counter × ℤ)) (now : String) :
    (state.applyOperation ⟨.update, name, content, bulletID, metadata⟩ now).Fresh scanner ↔
      Careful scanner state (.playbook (.operation ⟨.update, name, content, bulletID, metadata⟩ now)) := by
  cases bulletID with
  | none =>
      have after := fresh.kept .refl
      cases content <;> exact ⟨fun _ => trivial, fun _ => after⟩
  | some id =>
      cases content with
      | none =>
          have after := fresh.kept (Traces.updateBullet id now metadata)
          exact ⟨fun _ => trivial, fun _ => after⟩
      | some content =>
          have read : ∀ key, (state.playbook.updateBullet id (some content) metadata now).bullets.get? key =
              if key = id then (state.playbook.bullets.get? id).map (Bullet.updated (some content) metadata now)
              else state.playbook.bullets.get? key := get?_modify _
          constructor
          · intro freshAfter bullet found isActive embedded
            obtain ⟨vector, own⟩ := Option.isSome_iff_exists.mp embedded
            obtain ⟨sameStatus, newContent⟩ := updated_keeps (some content) metadata bullet
            have foundAfter : (state.playbook.updateBullet id (some content) metadata now).bullets.get? id =
                some (bullet.updated (some content) metadata now) := by
              rw [read, if_pos rfl, found]
              rfl
            have ofOld := fresh id bullet found isActive vector own
            have ofNew := freshAfter id _ foundAfter (sameStatus.trans isActive) vector own
            rw [newContent] at ofNew
            exact ofNew.symm.trans ofOld
          · intro careful key bullet found isActive vector own
            have found' := (read key).symm.trans found
            split at found'
            · next same =>
                subst same
                obtain ⟨former, foundFormer, rfl⟩ := Option.map_eq_some_iff.mp found'
                obtain ⟨sameStatus, newContent⟩ := updated_keeps (some content) metadata former
                have wasActive := sameStatus.symm.trans isActive
                have embedded : (state.embedding key).isSome := Option.isSome_iff_exists.mpr ⟨vector, own⟩
                rw [newContent, Option.getD_some, careful former foundFormer wasActive embedded]
                exact fresh key former foundFormer wasActive vector own
            · exact fresh key bullet found' isActive vector own

theorem fresh_applyOperation_iff (fresh : state.Fresh scanner) (operation : DeltaOperation) (now : String) :
    (state.applyOperation operation now).Fresh scanner ↔
      Careful scanner state (.playbook (.operation operation now)) := by
  obtain ⟨type, name, content, bulletID, metadata⟩ := operation
  cases type with
  | add =>
      refine ⟨fun _ => trivial, fun _ => ?_⟩
      unfold Embedded.applyOperation Playbook.applyOperation
      dsimp only
      split
      · exact fresh.kept .refl
      · exact fresh.carried (Traces.addBullet name _ bulletID metadata) (embedding_resetEmbedding _)
  | update => exact fresh_update_iff fresh name content bulletID metadata now
  | tag =>
      refine ⟨fun _ => trivial, fun _ => ?_⟩
      apply fresh.kept
      unfold Playbook.applyOperation
      dsimp only
      split
      · exact .refl
      · exact .foldl fun entry _ _ => .tagBullet entry
  | remove =>
      refine ⟨fun _ => trivial, fun _ => ?_⟩
      apply fresh.kept
      unfold Playbook.applyOperation
      dsimp only
      split
      · exact .refl
      · exact .removeBullet false

end Steps

section Scanning

variable {Vector Score : Type} {scanner : Scanner Vector Score} {state : Embedded Vector}

theorem mem_zip_computed {fails : Bool} {bullets : List (String × Bullet)}
    {pair : (String × Bullet) × Option Vector} {vector : Vector}
    (listed : pair ∈ bullets.zip
      (scanner.computeEmbeddingsBatch fails (bullets.map fun entry => entry.2.content)))
    (computed : pair.2 = some vector) : pair.1 ∈ bullets ∧ vector = scanner.embed pair.1.2.content := by
  unfold Scanner.computeEmbeddingsBatch at listed
  cases fails with
  | true =>
      have none := List.eq_of_mem_replicate (List.of_mem_zip listed).2
      rw [none] at computed
      cases computed
  | false =>
      refine ⟨(List.of_mem_zip listed).1, ?_⟩
      induction bullets with
      | nil => cases listed
      | cons first rest ih =>
          rcases List.mem_cons.mp listed with own | later
          · subst own
            exact (Option.some.inj computed).symm
          · exact ih later

theorem fresh_foldl_setEmbedding {pairs : List ((String × Bullet) × Option Vector)}
    (fresh : state.Fresh scanner)
    (computed : ∀ pair ∈ pairs, ∀ vector, pair.2 = some vector →
      state.playbook.bullets.get? pair.1.1 = some pair.1.2 ∧ vector = scanner.embed pair.1.2.content) :
    Embedded.Fresh scanner (pairs.foldl (fun state pair =>
      match pair.2 with
      | none => state
      | some vector => state.setEmbedding pair.1.1 vector) state) := by
  induction pairs generalizing state with
  | nil => exact fresh
  | cons pair rest ih =>
      rw [List.foldl_cons]
      cases given : pair.2 with
      | none => exact ih fresh fun other member => computed other (List.mem_cons_of_mem _ member)
      | some vector =>
          obtain ⟨foundOwn, same⟩ := computed pair List.mem_cons_self vector given
          apply ih
          · intro id bullet found isActive other own
            have own' : (if id = pair.1.1 then some vector else state.embedding id) = some other := by
              rw [← own]
              exact (Function.update_apply ..).symm
            split at own'
            · next isOwn =>
                have sameBullet : pair.1.2 = bullet := by
                  apply Option.some.inj
                  rw [← foundOwn, ← isOwn]
                  exact found
                rw [← sameBullet, ← same]
                exact (Option.some.inj own').symm
            · exact fresh id bullet found isActive other own'
          · exact fun other member => computed other (List.mem_cons_of_mem _ member)

theorem Embedded.Fresh.ensureEmbeddings (fresh : state.Fresh scanner) (fails : Bool) :
    Embedded.Fresh scanner (scanner.ensureEmbeddings fails state) := by
  apply fresh_foldl_setEmbedding fresh
  intro pair listed vector given
  obtain ⟨needing, same⟩ := mem_zip_computed listed given
  have isEntry := (List.mem_filter.mp (List.mem_filter.mp needing).1).1
  exact ⟨Dict.get?_eq_some.mpr isEntry, same⟩

theorem mem_bySection {bullets : List (String × Bullet)} {entry : String × Bullet} {name : String}
    {own : List (String × Bullet)} (found : (Scanner.bySection bullets).get? name = some own)
    (member : entry ∈ own) : entry ∈ bullets := by
  unfold Scanner.bySection at found
  induction bullets using List.reverseRecOn generalizing name own with
  | nil => cases found
  | append_singleton earlier last ih =>
      rw [List.foldl_append, List.foldl_cons, List.foldl_nil, Dict.get?_set] at found
      split at found
      · obtain rfl := Option.some.inj found
        rcases List.mem_append.mp member with before | isLast
        · cases there : (Scanner.bySection earlier).get? last.2.section_ with
          | none =>
              unfold Scanner.bySection at there
              rw [there] at before
              cases before
          | some held =>
              unfold Scanner.bySection at there
              rw [there] at before
              exact List.mem_append_left _ (ih there before)
        · exact List.mem_append_right _ isLast
      · exact List.mem_append_left _ (ih found member)

/-- The pairs of a scan are of the bullets that are scanned, with the similarity of their
embeddings. -/
theorem mem_scanList {hasKeepDecision : String → String → Bool} {bullets : List (String × Bullet)}
    {pair : Bullet × Bullet × Score} (listed : pair ∈ scanner.scanList state hasKeepDecision bullets) :
    ∃ first ∈ bullets, ∃ second ∈ bullets, ∃ a b, state.embedding first.1 = some a ∧
      state.embedding second.1 = some b ∧ pair = (first.2, second.2, scanner.cosineSimilarity a b) := by
  induction bullets with
  | nil => cases listed
  | cons first rest ih =>
      rcases List.mem_append.mp listed with here | later
      · obtain ⟨second, member, compared⟩ := List.mem_filterMap.mp here
        unfold Scanner.comparePair at compared
        split at compared
        · next a b ownFirst ownSecond =>
            split at compared
            · cases compared
            · split at compared
              · refine ⟨first, List.mem_cons_self, second, List.mem_cons_of_mem _ member, a, b, ownFirst,
                  ownSecond, ?_⟩
                exact (Option.some.inj compared).symm
              · cases compared
        · cases compared
      · obtain ⟨one, oneListed, two, twoListed, rest⟩ := ih later
        exact ⟨one, List.mem_cons_of_mem _ oneListed, two, List.mem_cons_of_mem _ twoListed, rest⟩

theorem Embedded.Fresh.current (fresh : state.Fresh scanner) : state.Current scanner := by
  refine ⟨fresh, ?_⟩
  intro hasKeepDecision pair detected
  have ofScan : ∀ bullets : List (String × Bullet), (∀ entry ∈ bullets, entry ∈ state.active) →
      pair ∈ scanner.scanList state hasKeepDecision bullets →
      pair.2.2 = scanner.cosineSimilarity (scanner.embed pair.1.content) (scanner.embed pair.2.1.content) := by
    intro bullets among listed
    obtain ⟨first, firstListed, second, secondListed, a, b, ownFirst, ownSecond, rfl⟩ := mem_scanList listed
    have embedded : ∀ entry ∈ bullets, ∀ vector, state.embedding entry.1 = some vector →
        vector = scanner.embed entry.2.content := by
      intro entry member
      obtain ⟨isEntry, isActive⟩ := List.mem_filter.mp (among entry member)
      exact fresh entry.1 entry.2 (Dict.get?_eq_some.mpr isEntry) (of_decide_eq_true isActive)
    rw [embedded first firstListed a ownFirst, embedded second secondListed b ownSecond]
  have listed := List.mem_mergeSort.mp detected
  split at listed
  · obtain ⟨own, isSection, scanned⟩ := List.mem_flatMap.mp listed
    obtain ⟨entry, isEntry, rfl⟩ := List.mem_map.mp isSection
    apply ofScan entry.2 _ scanned
    exact fun other member => mem_bySection (Dict.get?_eq_some.mpr isEntry) member
  · exact ofScan _ (fun _ member => member) listed

end Scanning

section Histories

variable {Vector Score : Type} {scanner : Scanner Vector Score} {state : Embedded Vector}

theorem fresh_apply_iff (fresh : state.Fresh scanner) (change : EmbeddedChange) :
    (state.apply scanner change).Fresh scanner ↔ Careful scanner state change := by
  cases change with
  | ensureEmbeddings fails => exact ⟨fun _ => trivial, fun _ => fresh.ensureEmbeddings fails⟩
  | playbook change =>
      cases change with
      | operation operation now => exact fresh_applyOperation_iff fresh operation now
      | consolidation action now => exact ⟨fun _ => trivial, fun _ => fresh.applyConsolidation action now⟩
      | removeBullet id soft now => exact ⟨fun _ => trivial, fun _ => fresh.kept (.removeBullet soft)⟩
      | prune policy now => exact ⟨fun _ => trivial, fun _ => fresh.kept (.prune policy)⟩
      | reload => exact ⟨fun _ => trivial, fun _ => fresh.kept .reload⟩

/-- Through every sequence of calls on a playbook whose embeddings are fresh, they stay so and
bullets are compared by their contents, exactly if every update is careful. -/
theorem embeddings_current_iff (begins : state.Fresh scanner) (calls : List EmbeddedCall) :
    (∀ before, before <+: calls.flatMap EmbeddedCall.changes →
        Embedded.Current scanner (before.foldl (Embedded.apply scanner) state)) ↔
      ∀ before change, before ++ [change] <+: calls.flatMap EmbeddedCall.changes →
        Careful scanner (before.foldl (Embedded.apply scanner) state) change := by
  have current_iff : ∀ state : Embedded Vector, state.Current scanner ↔ state.Fresh scanner :=
    fun state => ⟨fun current => current.fresh, fun fresh => fresh.current⟩
  simp only [current_iff]
  have step : ∀ (state : Embedded Vector) change, True → state.Fresh scanner →
      ((state.apply scanner change).Fresh scanner ↔ Careful scanner state change) :=
    fun _ change _ fresh => fresh_apply_iff fresh change
  exact System.always_iff_careful (fun _ _ _ => trivial) step trivial begins _

/-- Texts as their own embeddings, similar where they are the same. -/
def textScanner : Scanner String Bool := ⟨id, fun a b => a == b, fun a b => a || !b, true, true⟩

def updatedBehind : List EmbeddedCall :=
  [.playbook (.applyDelta [⟨.add, "general", some "Save often.", some "a", []⟩] ""),
    .ensureEmbeddings false,
    .playbook (.applyDelta [⟨.update, "general", some "Save at the end.", some "a", []⟩] "")]

theorem updatedBehind_current_iff :
    (∀ before, before <+: updatedBehind.flatMap EmbeddedCall.changes →
        Embedded.Current textScanner (before.foldl (Embedded.apply textScanner) ⟨.empty, fun _ => none⟩)) ↔
      ∀ before change, before ++ [change] <+: updatedBehind.flatMap EmbeddedCall.changes →
        Careful textScanner (before.foldl (Embedded.apply textScanner) ⟨.empty, fun _ => none⟩) change :=
  embeddings_current_iff (fun _ _ found => by cases found) updatedBehind

theorem updatedBehind_stale :
    ¬ ∀ before, before <+: updatedBehind.flatMap EmbeddedCall.changes →
      Embedded.Current textScanner (before.foldl (Embedded.apply textScanner) ⟨.empty, fun _ => none⟩) := by
  intro always
  have fresh := (always _ (List.prefix_refl _)).fresh
  have read : ((((updatedBehind.flatMap EmbeddedCall.changes).foldl (Embedded.apply textScanner)
      ⟨.empty, fun _ => none⟩).playbook.bullets.get? "a").map fun bullet => (bullet.status, bullet.content)) =
        some (.active, "Save at the end.") := by decide
  have embedded : ((updatedBehind.flatMap EmbeddedCall.changes).foldl (Embedded.apply textScanner)
      ⟨.empty, fun _ => none⟩).embedding "a" = some "Save often." := by decide
  obtain ⟨bullet, found, same⟩ := Option.map_eq_some_iff.mp read
  obtain ⟨isActive, content⟩ := Prod.mk.inj same
  have stale := fresh "a" bullet found isActive "Save often." embedded
  rw [content] at stale
  exact absurd stale (by decide)

end Histories

end Sico.Playbooks

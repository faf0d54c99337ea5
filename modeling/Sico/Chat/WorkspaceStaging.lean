import Sico.Chat.WorkspaceFiles
import Sico.Foundation.Orders
import Sico.Foundation.Traversal

/-! # What the files of a workspace hold

What is downloaded of an attachment stands under its name and its URL under a name made of it, next to the index. The
files hold what the index tells as long as no attachment has the name of the index or the one of a file of another:
then the name of each file is the name of what is in it. A playbook is in its files as long as no two of its sections
have one file, and none has a name that no file may have.
-/

namespace Sico.Chat.WorkspaceInit

open Foundation AgentLoop Playbooks

section Names

theorem urlName_injective {first second : String} (same : urlName first = urlName second) : first = second := by
  have letters := congrArg String.toList same
  rw [urlName, urlName, String.toList_append, String.toList_append] at letters
  exact String.toList_inj.mp (List.append_cancel_right letters)

theorem urlName_ne_index (name : String) : urlName name ≠ "index.json" := by
  intro same
  have last := congrArg (fun text : String => text.toList.getLast?) same
  rw [urlName, String.toList_append, List.getLast?_append] at last
  exact absurd (Option.some.inj (show some 't' = some 'n' from last)) (by decide)

theorem decoded_encoded (text : List Char) : decoded (encoded text) = some text := by
  change (List.utf8Encode text).utf8Decode?.map Array.toList = some text
  rw [List.utf8Decode?_utf8Encode]
  rfl

theorem partition_append {before : List Char} (plain : '/' ∉ before) (name : String) :
    partition '/' (String.ofList (before ++ '/' :: name.toList)) = (String.ofList before, name) := by
  have all : ∀ letter ∈ before, decide (letter ≠ '/') = true := by
    intro letter listed
    exact decide_eq_true fun same => plain (same ▸ listed)
  rw [partition, String.toList_ofList, List.takeWhile_append_of_pos all, List.dropWhile_append_of_pos all]
  simp

theorem read_attachments (workspace : Workspace) (name : String) :
    workspace.read ("attachments/" ++ name) = workspace.attachments.get? name := by
  have path : "attachments/" ++ name = String.ofList ("attachments".toList ++ '/' :: name.toList) := by
    apply String.toList_inj.mp
    simp
  rw [Workspace.read, path, partition_append (by decide)]
  rfl

theorem read_playbooks (workspace : Workspace) (name : String) :
    workspace.read ("playbooks/" ++ name) = workspace.playbooks.get? name := by
  have path : "playbooks/" ++ name = String.ofList ("playbooks".toList ++ '/' :: name.toList) := by
    apply String.toList_inj.mp
    simp
  rw [Workspace.read, path, partition_append (by decide)]
  rfl

end Names

section Indexes

variable {floatText : String → String} {index : AttachmentIndex}

/-- Every entry is of an attachment of its name. -/
def Named (index : AttachmentIndex) : Prop :=
  ∀ name item, index.get? name = some item → ∃ attachment : Attachment, item = attachment.entry ∧
    attachment.safeName = name

theorem itemName_entry (attachment : Attachment) : itemName attachment.entry = some attachment.safeName := rfl

theorem proper_entry (attachment : Attachment) : Json.Proper floatText (.obj attachment.entry) := by
  refine ⟨?_, ?_⟩
  · change ["name", "path", "url_path", "type", "downloaded_at"].Nodup
    decide
  · simp only [Attachment.entry, Json.ProperMembers, Json.Proper, and_self]

theorem indexItem_entry {index : AttachmentIndex} (named : Named index) {item : List (String × Json)}
    (held : item ∈ index.values) : indexItem (.obj item) = some ((itemName item).getD "", item) := by
  obtain ⟨entry, inside, rfl⟩ := List.mem_map.mp held
  obtain ⟨attachment, same, -⟩ := named entry.1 entry.2 (Dict.get?_eq_some.mpr inside)
  rw [indexItem, same, itemName_entry, Option.map_some, Option.getD_some]

theorem items_payload (named : Named index) {items : List (List (String × Json))}
    (held : ∀ item ∈ items, item ∈ index.values) :
    (items.map Json.obj).filterMap indexItem = items.map fun item => ((itemName item).getD "", item) := by
  induction items with
  | nil => rfl
  | cons item rest ih =>
      rw [List.map_cons, List.filterMap_cons, indexItem_entry named (held item List.mem_cons_self), List.map_cons]
      dsimp only
      rw [ih fun other listed => held other (List.mem_cons_of_mem _ listed)]

theorem load_write (named : Named index) (directory : Directory) (name : String) :
    (loadAttachmentIndex floatText (writeAttachmentIndex directory index)).get? name = index.get? name := by
  have perm := List.mergeSort_perm index.values fun first second =>
    decide ((itemName first).getD "" ≤ (itemName second).getD "")
  have proper : Json.Proper floatText (payload index) := by
    rw [payload, Json.Proper, Json.properItems_iff, List.forall_mem_map]
    intro item listed
    obtain ⟨entry, inside, rfl⟩ := List.mem_map.mp (perm.mem_iff.mp listed)
    obtain ⟨attachment, same, -⟩ := named entry.1 entry.2 (Dict.get?_eq_some.mpr inside)
    rw [same]
    exact proper_entry attachment
  have keyed : index.values.map (fun item => ((itemName item).getD "", item)) = index.entries := by
    rw [Dict.values, List.map_map]
    refine (List.map_congr_left ?_).trans (List.map_id _)
    intro entry inside
    obtain ⟨attachment, same, own⟩ := named entry.1 entry.2 (Dict.get?_eq_some.mpr inside)
    change ((itemName entry.2).getD "", entry.2) = entry
    rw [same, itemName_entry, Option.getD_some, own, ← same]
  have loaded : loadAttachmentIndex floatText (writeAttachmentIndex directory index) =
      Dict.empty.write ((index.values.mergeSort fun first second =>
        (itemName first).getD "" ≤ (itemName second).getD "").map fun item => ((itemName item).getD "", item)) := by
    rw [loadAttachmentIndex, writeAttachmentIndex, Dict.get?_set, if_pos rfl, Option.bind_some, decoded_encoded,
      Option.bind_some, Json.indented_lawful.loads_written proper, payload]
    dsimp only
    rw [items_payload named fun item listed => perm.mem_iff.mp listed]
  have entries := perm.map fun item => ((itemName item).getD "", item)
  rw [keyed] at entries
  have distinct := (entries.map Prod.fst).nodup_iff.mpr index.distinct
  rw [loaded]
  ext item
  rw [Dict.write, Dict.get?_foldl_set distinct, Dict.get?_empty, entries.mem_iff, Dict.get?_eq_some]
  simp

end Indexes

section Attachments

def Attachment.Written (attachment : Attachment) : Prop :=
  attachment.downloaded.isSome ∧ Storable attachment.safeName

instance (attachment : Attachment) : Decidable attachment.Written := by unfold Attachment.Written; infer_instance

/-- An attachment both of whose files are written. -/
def Attachment.Copied (attachment : Attachment) : Prop :=
  attachment.Written ∧ Storable (urlName attachment.safeName)

instance (attachment : Attachment) : Decidable attachment.Copied := by unfold Attachment.Copied; infer_instance

def lastCopied (history : List Attachment) (name : String) : Option Attachment :=
  (history.filter fun attachment => attachment.Copied ∧ attachment.safeName = name).getLast?

theorem lastCopied_append (history : List Attachment) (attachment : Attachment) (name : String) :
    lastCopied (history ++ [attachment]) name =
      if attachment.Copied ∧ attachment.safeName = name then some attachment else lastCopied history name := by
  unfold lastCopied
  rw [List.filter_append, List.filter_singleton]
  by_cases last : attachment.Copied ∧ attachment.safeName = name
  · rw [if_pos last, decide_eq_true last, List.getLast?_append]
    rfl
  · rw [if_neg last, decide_eq_false last]
    exact congrArg List.getLast? (List.append_nil _)

theorem lastCopied_eq_some {history : List Attachment} {name : String} {attachment : Attachment}
    (last : lastCopied history name = some attachment) : attachment.Copied ∧ attachment.safeName = name := by
  have listed := List.mem_of_getLast? last
  exact of_decide_eq_true (List.mem_filter.mp listed).2

/-- No name is that of the index or of the URL of another. -/
def Apart (names : List String) : Prop :=
  "index.json" ∉ names ∧ ∀ name ∈ names, ∀ other ∈ names, name ≠ urlName other

/-- Each entry tells the last attachment of its name, and the files hold what was downloaded of it and its URL. -/
def Told (history : List Attachment) (directory : Directory) (index : AttachmentIndex) : Prop :=
  ∀ name item, index.get? name = some item → ∃ attachment content, lastCopied history name = some attachment ∧
    item = attachment.entry ∧ attachment.downloaded = some content ∧ directory.get? name = some content ∧
    directory.get? (urlName name) = some (encoded attachment.url.toList)

theorem Told.named {history : List Attachment} {directory : Directory} {index : AttachmentIndex}
    (told : Told history directory index) : Named index := by
  intro name item found
  obtain ⟨attachment, -, last, entry, -⟩ := told name item found
  exact ⟨attachment, entry, (lastCopied_eq_some last).2⟩

theorem Told.other {history others : List Attachment} {directory written : Directory} {index : AttachmentIndex}
    (told : Told history directory index)
    (files : ∀ name ∈ index.keys, written.get? name = directory.get? name)
    (urls : ∀ name ∈ index.keys, written.get? (urlName name) = directory.get? (urlName name))
    (last : ∀ name ∈ index.keys, lastCopied others name = lastCopied history name) : Told others written index := by
  intro name item found
  obtain ⟨attachment, content, same, rest⟩ := told name item found
  have listed : name ∈ index.keys := Dict.mem_keys.mpr ⟨item, found⟩
  rw [files name listed, urls name listed, last name listed]
  exact ⟨attachment, content, same, rest⟩

theorem Told.copyAttachment {history : List Attachment} {copied : Directory × AttachmentIndex}
    (told : Told history copied.1 copied.2) (attachment : Attachment) {names : List String} (apart : Apart names)
    (indexed : ∀ name ∈ copied.2.keys, name ∈ names) (own : attachment.Written → attachment.safeName ∈ names) :
    Told (history ++ [attachment]) (copyAttachment copied attachment).1 (copyAttachment copied attachment).2 ∧
      ∀ name ∈ (copyAttachment copied attachment).2.keys, name ∈ names := by
  have kept {directory : Directory} (notCopied : ¬ attachment.Copied)
      (files : ∀ name ∈ copied.2.keys, directory.get? name = copied.1.get? name)
      (urls : ∀ name ∈ copied.2.keys, directory.get? (urlName name) = copied.1.get? (urlName name)) :
      Told (history ++ [attachment]) directory copied.2 := by
    refine told.other files urls ?_
    intro name _
    rw [lastCopied_append, if_neg fun copied => notCopied copied.1]
  unfold WorkspaceInit.copyAttachment
  cases downloaded : attachment.downloaded with
  | none =>
      refine ⟨kept ?_ (fun _ _ => rfl) fun _ _ => rfl, indexed⟩
      intro copied
      have some_ := copied.1.1
      rw [downloaded] at some_
      exact absurd some_ Bool.false_ne_true
  | some content =>
      dsimp only [writeFile]
      by_cases storable : Storable attachment.safeName
      · have written : attachment.Written := ⟨by rw [downloaded]; rfl, storable⟩
        have listed := own written
        rw [if_pos storable]
        dsimp only
        by_cases alsoStorable : Storable (urlName attachment.safeName)
        · rw [if_pos alsoStorable]
          constructor
          · intro name item found
            rw [Dict.get?_set] at found
            rw [lastCopied_append, Dict.get?_set, Dict.get?_set, Dict.get?_set, Dict.get?_set]
            by_cases same : name = attachment.safeName
            · rw [if_pos same] at found
              cases found
              rw [if_pos ⟨⟨written, alsoStorable⟩, same.symm⟩, same, if_neg (apart.2 _ listed _ listed), if_pos rfl,
                if_pos rfl]
              exact ⟨attachment, content, rfl, rfl, downloaded, rfl, rfl⟩
            · rw [if_neg same] at found
              have inside := indexed name (Dict.mem_keys.mpr ⟨item, found⟩)
              rw [if_neg fun both => same both.2.symm, if_neg (apart.2 _ inside _ listed), if_neg same,
                if_neg fun urls => same (urlName_injective urls), if_neg (Ne.symm (apart.2 _ listed _ inside))]
              exact told name item found
          · intro name inside
            rw [Dict.keys_set] at inside
            split at inside
            · exact indexed name inside
            · rcases List.mem_append.mp inside with earlier | new
              · exact indexed name earlier
              · rw [List.mem_singleton.mp new]
                exact listed
        · -- the name is too long for that of a URL, so that no entry has it
          rw [if_neg alsoStorable]
          refine ⟨kept (fun copied => alsoStorable copied.2) ?_ ?_, indexed⟩
          · intro name inside
            obtain ⟨item, found⟩ := Dict.mem_keys.mp inside
            obtain ⟨other, -, last, -⟩ := told name item found
            rw [Dict.get?_set, if_neg]
            intro same
            have stored := (lastCopied_eq_some last).1.2
            rw [(lastCopied_eq_some last).2, same] at stored
            exact alsoStorable stored
          · intro name inside
            rw [Dict.get?_set, if_neg (Ne.symm (apart.2 _ listed _ (indexed name inside)))]
      · rw [if_neg storable]
        exact ⟨kept (fun copied => storable copied.1.2) (fun _ _ => rfl) fun _ _ => rfl, indexed⟩

/-- The names that are at stake in a turn: of the entries, and of the files that are written. -/
def stagedNames (index : AttachmentIndex) (attachments : List Attachment) : List String :=
  index.keys ++ (attachments.filter fun attachment => attachment.Written).map Attachment.safeName

theorem Told.copyAll {names : List String} (apart : Apart names) (attachments : List Attachment)
    {history : List Attachment} {copied : Directory × AttachmentIndex} (told : Told history copied.1 copied.2)
    (indexed : ∀ name ∈ copied.2.keys, name ∈ names)
    (own : ∀ attachment ∈ attachments, attachment.Written → attachment.safeName ∈ names) :
    Told (history ++ attachments) (attachments.foldl WorkspaceInit.copyAttachment copied).1
        (attachments.foldl WorkspaceInit.copyAttachment copied).2 ∧
      ∀ name ∈ (attachments.foldl WorkspaceInit.copyAttachment copied).2.keys, name ∈ names := by
  induction attachments generalizing history copied with
  | nil =>
      rw [List.append_nil]
      exact ⟨told, indexed⟩
  | cons attachment rest ih =>
      obtain ⟨first, keys⟩ := told.copyAttachment attachment apart indexed (own attachment List.mem_cons_self)
      have later := ih first keys fun other listed => own other (List.mem_cons_of_mem _ listed)
      rw [List.append_assoc] at later
      exact later

variable {floatText : String → String}

theorem Told.copyAttachments {history attachments : List Attachment} {directory : Directory}
    (told : Told history directory (loadAttachmentIndex floatText directory))
    (apart : Apart (stagedNames (loadAttachmentIndex floatText directory) attachments)) :
    Told (history ++ attachments) (copyAttachments floatText directory attachments)
      (loadAttachmentIndex floatText (copyAttachments floatText directory attachments)) := by
  unfold WorkspaceInit.copyAttachments
  split
  · next none_ =>
      rw [none_, List.append_nil]
      exact told
  · have indexed : ∀ name ∈ (loadAttachmentIndex floatText directory).keys,
        name ∈ stagedNames (loadAttachmentIndex floatText directory) attachments :=
      fun name listed => List.mem_append_left _ listed
    have own : ∀ attachment ∈ attachments, attachment.Written →
        attachment.safeName ∈ stagedNames (loadAttachmentIndex floatText directory) attachments := by
      intro attachment listed written
      exact List.mem_append_right _ (List.mem_map_of_mem (List.mem_filter.mpr ⟨listed, decide_eq_true written⟩))
    obtain ⟨all, keys⟩ := @Told.copyAll _ apart attachments history
      (directory, loadAttachmentIndex floatText directory) told indexed own
    dsimp only
    have read := fun directory name => @load_write floatText _ all.named directory name
    intro name item found
    rw [read] at found
    have notIndex : name ≠ "index.json" := by
      intro same
      rw [same] at found
      exact apart.1 (keys _ (Dict.mem_keys.mpr ⟨item, found⟩))
    rw [writeAttachmentIndex, Dict.get?_set, Dict.get?_set, if_neg notIndex, if_neg (urlName_ne_index name)]
    exact all name item found

end Attachments

section Sections

variable {playbook : Playbook}

/-- No two sections of active bullets have one file, and each has a name that a file may have. -/
def Separate (playbook : Playbook) : Prop :=
  ((sectionNames playbook).map sectionToFilename).Nodup ∧
    ∀ name ∈ sectionNames playbook, Storable (sectionToFilename name)

theorem mem_sectionNames {name : String} :
    name ∈ sectionNames playbook ↔ ∃ bullet ∈ activeBullets playbook, bullet.section_ = name := by
  rw [sectionNames, (List.mergeSort_perm _ _).mem_iff, List.mem_dedup, List.mem_map]

theorem writeSections_cons {name : String} (storable : Storable (sectionToFilename name)) (directory : Directory)
    (rest : List String) : writeSections playbook directory (name :: rest) = writeSections playbook
      (directory.set (sectionToFilename name) (encoded (sectionText playbook name).toList)) rest := by
  have written : writeFile directory (sectionToFilename name) (encoded (sectionText playbook name).toList) =
      some (directory.set (sectionToFilename name) (encoded (sectionText playbook name).toList)) := if_pos storable
  rw [writeSections, written, Option.elim_some]

theorem get?_writeSections {names : List String} (distinct : (names.map sectionToFilename).Nodup)
    (storable : ∀ name ∈ names, Storable (sectionToFilename name)) (directory : Directory) {file : String}
    {content : List UInt8} (held : directory.get? file = some content ∧ file ∉ names.map sectionToFilename ∨
      ∃ name ∈ names, sectionToFilename name = file ∧ encoded (sectionText playbook name).toList = content) :
    (writeSections playbook directory names).get? file = some content := by
  induction names generalizing directory with
  | nil =>
      rcases held with ⟨before, -⟩ | ⟨name, listed, -⟩
      · exact before
      · cases listed
  | cons first rest ih =>
      rw [List.map_cons, List.nodup_cons] at distinct
      rw [writeSections_cons (storable first List.mem_cons_self)]
      refine ih distinct.2 (fun name listed => storable name (List.mem_cons_of_mem _ listed)) _ ?_
      rw [Dict.get?_set]
      rcases held with ⟨before, notNamed⟩ | ⟨name, listed, same, text⟩
      · rw [List.map_cons, List.mem_cons, not_or] at notNamed
        rw [if_neg notNamed.1]
        exact .inl ⟨before, notNamed.2⟩
      · rcases List.mem_cons.mp listed with own | later
        · subst own
          rw [if_pos same.symm, text]
          exact .inl ⟨rfl, same ▸ distinct.1⟩
        · exact .inr ⟨name, later, same, text⟩

theorem content_in_file (separate : Separate playbook) (listed : playbook.Listed) {bullet : Bullet}
    (active : bullet ∈ activeBullets playbook) : ∃ text : String,
      (copyPlaybooks (some playbook)).get? (sectionToFilename bullet.section_) = some (encoded text.toList) ∧
        bullet.content.toList <:+: text.toList := by
  have named : bullet.section_ ∈ sectionNames playbook := mem_sectionNames.mpr ⟨bullet, active, rfl⟩
  refine ⟨sectionText playbook bullet.section_, ?_, ?_⟩
  · exact get?_writeSections separate.1 separate.2 .empty (.inr ⟨_, named, rfl, rfl⟩)
  · obtain ⟨value, status⟩ := List.mem_filter.mp active
    obtain ⟨entry, inside, rfl⟩ := List.mem_map.mp value
    have content := content_in_markdown listed (Dict.get?_eq_some.mpr inside) (of_decide_eq_true status)
    rw [sectionText, String.toList_append]
    exact content.trans (List.prefix_append _ _).isInfix

end Sections

section Runs

variable {floatText : String → String}

def received (labels : List Copy) : List Attachment :=
  labels.flatMap fun
    | .attachments attachments => attachments
    | .playbook _ => []

/-- The playbook that was copied last, if there was one. -/
def lastPlaybook (labels : List Copy) : Option Playbook :=
  labels.foldl (fun last label =>
    match label with
    | .attachments _ => last
    | .playbook calls => calls.map made) none

/-- Each entry of the index points to what was downloaded last of the attachment of its name, and to its URL. -/
def IndexFaithful (floatText : String → String) (labels : List Copy) (workspace : Workspace) : Prop :=
  ∀ name item, (loadAttachmentIndex floatText workspace.attachments).get? name = some item →
    ∃ attachment content path urlPath, lastCopied (received labels) name = some attachment ∧
      attachment.downloaded = some content ∧
      Members.get? item "path" = some (.str path) ∧ workspace.read path = some content ∧
      Members.get? item "url_path" = some (.str urlPath) ∧
      workspace.read urlPath = some (encoded attachment.url.toList)

/-- The content of each active bullet is in a file. -/
def PlaybookFaithful (labels : List Copy) (workspace : Workspace) : Prop :=
  ∀ playbook, lastPlaybook labels = some playbook → ∀ bullet ∈ activeBullets playbook, ∃ file text : String,
    workspace.read ("playbooks/" ++ file) = some (encoded text.toList) ∧ bullet.content.toList <:+: text.toList

/-- What may be copied: attachments whose names are apart, and a playbook whose sections are. -/
def Careful (floatText : String → String) (workspace : Workspace) : Copy → Prop
  | .attachments attachments => Apart (stagedNames (loadAttachmentIndex floatText workspace.attachments) attachments)
  | .playbook calls => ∀ playbook, calls.map made = some playbook → Separate playbook

theorem told_run {labels : List Copy} {workspace : Workspace}
    (run : ((staging floatText).restrict (Careful floatText)).Run .empty labels workspace) :
    Told (received labels) workspace.attachments (loadAttachmentIndex floatText workspace.attachments) := by
  refine run.invariant (fun labels workspace => Told (received labels) workspace.attachments
    (loadAttachmentIndex floatText workspace.attachments)) ?_ ?_
  · intro name item found
    cases found
  · rintro labels source label target told ⟨careful, step⟩
    cases step
    rw [received, List.flatMap_append, List.flatMap_singleton]
    cases label with
    | attachments attachments => exact told.copyAttachments careful
    | playbook calls =>
        rw [List.append_nil]
        exact told

theorem playbook_run {labels : List Copy} {workspace : Workspace}
    (run : ((staging floatText).restrict (Careful floatText)).Run .empty labels workspace) :
    PlaybookFaithful labels workspace := by
  refine run.invariant PlaybookFaithful ?_ ?_
  · intro playbook last
    cases last
  · rintro labels source label target faithful ⟨careful, step⟩
    cases step
    intro playbook last
    rw [lastPlaybook, List.foldl_append] at last
    cases label with
    | attachments attachments =>
        intro bullet active
        obtain ⟨file, text, held, content⟩ := faithful playbook last bullet active
        rw [read_playbooks] at held
        refine ⟨file, text, ?_, content⟩
        rw [read_playbooks]
        exact held
    | playbook calls =>
        intro bullet active
        have listed : playbook.Listed := by
          obtain ⟨calls, -, rfl⟩ := Option.map_eq_some_iff.mp last
          exact listed_made calls
        obtain ⟨text, file, content⟩ := content_in_file (careful playbook last) listed active
        refine ⟨sectionToFilename bullet.section_, text, ?_, content⟩
        rw [read_playbooks]
        change (copyPlaybooks (calls.map made)).get? _ = _
        change calls.map made = some playbook at last
        rw [last]
        exact file

/-- **Whatever is copied, in any order: while the names of the attachments are apart and the sections of a playbook
are, the index tells what the files hold and the playbook is in its files.** -/
theorem staging_faithful {labels : List Copy} {workspace : Workspace}
    (run : ((staging floatText).restrict (Careful floatText)).Run .empty labels workspace) :
    IndexFaithful floatText labels workspace ∧ PlaybookFaithful labels workspace := by
  refine ⟨?_, playbook_run run⟩
  intro name item found
  obtain ⟨attachment, content, last, rfl, downloaded, file, url⟩ := told_run run name item found
  have own := (lastCopied_eq_some last).2
  refine ⟨attachment, content, "attachments/" ++ attachment.safeName, "attachments/" ++ urlName attachment.safeName,
    last, downloaded, rfl, ?_, rfl, ?_⟩
  · rw [read_attachments, own]
    exact file
  · rw [read_attachments, own]
    exact url

def notes : Attachment := ⟨"notes", "text/plain", "https://host/1", "", some [110], 1⟩

def notesURL : Attachment := ⟨"notes_url.txt", "text/plain", "https://host/2", "", some [117], 2⟩

def addition (name content : String) : DeltaOperation := { type := .add, section_ := name, content := some content }

def oneSection : List Call := [.applyDelta [addition "Tool Use" "Read first."] ""]

def twoSections : List Call :=
  [.applyDelta [addition "Tool Use" "Read first.", addition "tool-use" "Write last."] ""]

theorem staging_faithful_sample :
    let labels : List Copy := [.playbook (some oneSection), .attachments [notes]]
    let workspace := (Workspace.empty.copy id (.playbook (some oneSection))).copy id (.attachments [notes])
    IndexFaithful id labels workspace ∧ PlaybookFaithful labels workspace := by
  have sections : (activeBullets (made oneSection)).map Bullet.section_ = ["Tool Use"] := by decide
  have names : sectionNames (made oneSection) = ["Tool Use"] := by
    rw [sectionNames, sections]
    exact List.mergeSort_singleton _
  have separate : Careful id .empty (.playbook (some oneSection)) := by
    rintro playbook ⟨⟩
    rw [Separate, names]
    decide
  have apart : Careful id (Workspace.empty.copy id (.playbook (some oneSection))) (.attachments [notes]) := by
    change Apart (stagedNames .empty [notes])
    unfold Apart
    decide
  have first : ((staging id).restrict (Careful id)).Run .empty [.playbook (some oneSection)]
      (Workspace.empty.copy id (.playbook (some oneSection))) := .snoc .nil ⟨separate, rfl⟩
  exact staging_faithful (.snoc first ⟨apart, rfl⟩)

/-- The attachments of a turn have distinct names and their downloads succeed. -/
def Copy.Orderly : Copy → Prop
  | .attachments given => (given.map Attachment.safeName).Nodup ∧ ∀ attachment ∈ given, attachment.answer.isSome
  | .playbook _ => True

def bothCopied : Directory × AttachmentIndex := [notes, notesURL].foldl copyAttachment (.empty, .empty)

theorem copy_both : (Workspace.empty.copy id (.attachments [notes, notesURL])).attachments =
    writeAttachmentIndex bothCopied.1 bothCopied.2 := by
  have fresh : loadAttachmentIndex id .empty = .empty := rfl
  rw [Workspace.copy, Workspace.empty, copyAttachments, if_neg (List.cons_ne_nil _ _)]
  dsimp only
  rw [fresh, bothCopied]

theorem index_clobbered : ¬ IndexFaithful id [.attachments [notes, notesURL]]
    (Workspace.empty.copy id (.attachments [notes, notesURL])) := by
  intro faithful
  have entries : ∀ entry ∈ bothCopied.2.entries,
      entry = ("notes", notes.entry) ∨ entry = ("notes_url.txt", notesURL.entry) := by decide
  have named : Named bothCopied.2 := by
    intro name item found
    rcases entries _ (Dict.get?_eq_some.mp found) with same | same
    · exact ⟨notes, congrArg Prod.snd same, Eq.trans (by decide) (congrArg Prod.fst same).symm⟩
    · exact ⟨notesURL, congrArg Prod.snd same, Eq.trans (by decide) (congrArg Prod.fst same).symm⟩
  have listed : bothCopied.2.get? "notes" = some notes.entry := by decide
  have found : (loadAttachmentIndex id (Workspace.empty.copy id (.attachments [notes, notesURL])).attachments).get?
      "notes" = some notes.entry := by
    rw [copy_both, load_write named]
    exact listed
  obtain ⟨attachment, content, path, urlPath, last, -, -, -, urlRead, held⟩ := faithful "notes" notes.entry found
  have own : lastCopied [notes, notesURL] "notes" = some notes := by decide
  have same : attachment = notes := Option.some.inj (last.symm.trans own)
  have urls : Members.get? notes.entry "url_path" = some (.str ("attachments/" ++ urlName "notes")) := by
    decide
  have samePath : urlPath = "attachments/" ++ urlName "notes" :=
    Json.str.inj (Option.some.inj (urlRead.symm.trans urls))
  rw [samePath, read_attachments, copy_both, same, writeAttachmentIndex, Dict.get?_set,
    if_neg (urlName_ne_index _)] at held
  have other : bothCopied.1.get? (urlName "notes") = some [117] := by decide
  have different : some [117] ≠ some (encoded notes.url.toList) := by decide +kernel
  exact different (other.symm.trans held)

theorem playbook_clobbered : ¬ PlaybookFaithful [.playbook (some twoSections)]
    (Workspace.empty.copy id (.playbook (some twoSections))) := by
  intro faithful
  have sections : ((activeBullets (made twoSections)).map Bullet.section_).dedup = ["Tool Use", "tool-use"] := by
    decide
  have names : sectionNames (made twoSections) = ["Tool Use", "tool-use"] := by
    rw [sectionNames, sections]
    exact List.mergeSort_of_pairwise (by decide)
  have files : (copyPlaybooks (some (made twoSections))).entries =
      [("tool_use.md", encoded (sectionText (made twoSections) "tool-use").toList)] := by
    rw [copyPlaybooks, names]
    decide +kernel
  have active : ∃ bullet ∈ activeBullets (made twoSections), bullet.content = "Read first." := by decide
  obtain ⟨bullet, listed, content⟩ := active
  obtain ⟨file, text, held, inside⟩ := faithful (made twoSections) rfl bullet listed
  rw [read_playbooks] at held
  have entry := Dict.get?_eq_some.mp (show (copyPlaybooks (some (made twoSections))).get? file = _ from held)
  rw [files, List.mem_singleton] at entry
  have same : text.toList = (sectionText (made twoSections) "tool-use").toList :=
    encoded_injective (Prod.mk.inj entry).2
  rw [same, content] at inside
  have outside : ¬ "Read first.".toList <:+: (sectionText (made twoSections) "tool-use").toList := by decide +kernel
  exact outside inside

/-- An attachment with the name of the URL of another takes its file, and a section takes that of another. -/
theorem staging_clobbers :
    (¬ ∀ labels workspace, (staging id).Run .empty labels workspace → (∀ label ∈ labels, label.Orderly) →
      IndexFaithful id labels workspace) ∧
    ¬ ∀ labels workspace, (staging id).Run .empty labels workspace → (∀ label ∈ labels, label.Orderly) →
      PlaybookFaithful labels workspace := by
  have run (label : Copy) : (staging id).Run .empty [label] (Workspace.empty.copy id label) :=
    @System.Run.snoc _ _ _ _ [] _ _ label .nil rfl
  constructor
  · intro faithful
    refine index_clobbered (faithful _ _ (run _) ?_)
    intro label listed
    rw [List.mem_singleton.mp listed, Copy.Orderly]
    decide
  · intro faithful
    refine playbook_clobbered (faithful _ _ (run _) ?_)
    intro label listed
    rw [List.mem_singleton.mp listed]
    trivial

end Runs

end Sico.Chat.WorkspaceInit

import Mathlib.Data.String.Basic
import Sico.Foundation.Encoding
import Sico.Foundation.JsonStyles
import Sico.Foundation.Members
import Sico.Foundation.System
import Sico.Playbooks.Markdown

/-! # The files of a workspace

Before each turn the playbook of an agent and the attachments of the message are copied into its workspace: a file
for each section of the playbook, and for each attachment a file with what is downloaded and one with the URL it is
downloaded from. An index tells the attachments of all turns. An image is sent with the message and is not copied.

The names of files have no directories in them, so that each directory is told by the names of its files. Whether a
file can be written depends on its name only. A carriage return in the index is a blank of the document, or is
refused in a text like the line feed that it is read as, so that reading the index leaves it.
-/

namespace Sico.Chat.WorkspaceInit

open Foundation AgentLoop Playbooks

section Files

/-- The names of files, with what the files hold. -/
abbrev Directory := Dict String (List UInt8)

structure Workspace where
  attachments : Directory
  playbooks : Directory

def Workspace.empty : Workspace := ⟨.empty, .empty⟩

def Workspace.read (workspace : Workspace) (path : String) : Option (List UInt8) :=
  if (partition '/' path).1 = "attachments" then workspace.attachments.get? (partition '/' path).2
  else if (partition '/' path).1 = "playbooks" then workspace.playbooks.get? (partition '/' path).2
  else none

/-- A name that a file may have: of at most 255 bytes, and none of the directories that every directory has. -/
def Storable (name : String) : Prop :=
  name ∉ ["", ".", ".."] ∧ '/' ∉ name.toList ∧ '\x00' ∉ name.toList ∧ (encoded name.toList).length ≤ 255

instance (name : String) : Decidable (Storable name) := by unfold Storable; infer_instance

def writeFile (directory : Directory) (name : String) (content : List UInt8) : Option Directory :=
  if Storable name then some (directory.set name content) else none

end Files

section Attachments

/-- An attachment, with what its address answers, if it does, and when it is downloaded. -/
structure Attachment where
  name : String
  type : String
  sasURL : String
  uri : String
  answer : Option (List UInt8)
  milliseconds : ℤ
  deriving DecidableEq, Repr

/-- `Path(name).name`. -/
def pathName (name : String) : String :=
  ((((name.toList.splitOn '/').filter fun part => part ≠ [] ∧ part ≠ ['.']).getLast?).map String.ofList).getD ""

def safeAttachmentName (name : String) : String :=
  let safe := strip (pathName name)
  if safe = "" then "unnamed" else safe

def urlName (name : String) : String := name ++ "_url.txt"

namespace Attachment

def safeName (attachment : Attachment) : String :=
  safeAttachmentName (if attachment.name = "" then "unnamed" else attachment.name)

def url (attachment : Attachment) : String := if attachment.sasURL = "" then attachment.uri else attachment.sasURL

def isImage (attachment : Attachment) : Bool :=
  "image".toList.isPrefixOf (attachment.type.toList.map Char.toLower)

/-- What is downloaded of an attachment that is not passed over. -/
def downloaded (attachment : Attachment) : Option (List UInt8) :=
  if attachment.isImage ∨ attachment.url = "" then none else attachment.answer

def entry (attachment : Attachment) : List (String × Json) :=
  [("name", .str attachment.safeName), ("path", .str ("attachments/" ++ attachment.safeName)),
    ("url_path", .str ("attachments/" ++ urlName attachment.safeName)), ("type", .str attachment.type),
    ("downloaded_at", .int attachment.milliseconds)]

end Attachment

/-- The members of the entries of an index, under their names. -/
abbrev AttachmentIndex := Dict String (List (String × Json))

def itemName (item : List (String × Json)) : Option String :=
  match Members.get? item "name" with
  | some (.str name) => some name
  | _ => none

def indexItem : Json → Option (String × List (String × Json))
  | .obj item => (itemName item).map fun name => (name, item)
  | _ => none

variable (floatText : String → String)

def decoded (bytes : List UInt8) : Option (List Char) := bytes.toByteArray.utf8Decode?.map Array.toList

def loadAttachmentIndex (directory : Directory) : AttachmentIndex :=
  match ((directory.get? "index.json").bind decoded).bind (Json.loads floatText) with
  | some (.arr items) => Dict.empty.write (items.filterMap indexItem)
  | _ => .empty

def payload (index : AttachmentIndex) : Json :=
  .arr ((index.values.mergeSort fun first second =>
    (itemName first).getD "" ≤ (itemName second).getD "").map .obj)

def writeAttachmentIndex (directory : Directory) (index : AttachmentIndex) : Directory :=
  directory.set "index.json" (encoded (Json.indented.written 0 (payload index)))

/-- What is done for one attachment: one that is not written leaves what was written of it, and the index. -/
def copyAttachment (copied : Directory × AttachmentIndex) (attachment : Attachment) : Directory × AttachmentIndex :=
  match attachment.downloaded with
  | none => copied
  | some content =>
      match writeFile copied.1 attachment.safeName content with
      | none => copied
      | some directory =>
          match writeFile directory (urlName attachment.safeName) (encoded attachment.url.toList) with
          | none => (directory, copied.2)
          | some directory => (directory, copied.2.set attachment.safeName attachment.entry)

/-- `_copy_attachments`, where the previous ones are retained. -/
def copyAttachments (directory : Directory) (attachments : List Attachment) : Directory :=
  if attachments = [] then directory
  else
    let copied := attachments.foldl copyAttachment (directory, loadAttachmentIndex floatText directory)
    writeAttachmentIndex copied.1 copied.2

end Attachments

section Sections

/-- A letter in lower case, as far as the letters from a to z go. -/
def lowered (letter : Char) : List Char :=
  if letter = '\u0130' then ['i', '\u0307'] else if letter = '\u212a' then ['k'] else [letter.toLower]

def isPlain (letter : Char) : Bool := letter.isLower || letter.isDigit

/-- `_section_to_filename`: what stands between the words is one underscore. -/
def sectionToFilename (name : String) : String :=
  String.ofList (['_'].intercalate
    ((((strip name).toList.flatMap lowered).splitOnP fun letter => !isPlain letter).filter (· ≠ []))) ++ ".md"

def activeBullets (playbook : Playbook) : List Bullet :=
  playbook.bullets.values.filter fun bullet => bullet.status = .active

def sectionText (playbook : Playbook) (name : String) : String := playbook.asMarkdown (some name) ++ "\n"

/-- The files of some sections. A name that no file may have ends it. -/
def writeSections (playbook : Playbook) (directory : Directory) : List String → Directory
  | [] => directory
  | name :: rest =>
      (writeFile directory (sectionToFilename name) (encoded (sectionText playbook name).toList)).elim directory
        fun written => writeSections playbook written rest

def sectionNames (playbook : Playbook) : List String :=
  ((activeBullets playbook).map Bullet.section_).dedup.mergeSort fun first second => first ≤ second

/-- `_copy_playbooks`: the files that were there are removed first. -/
def copyPlaybooks : Option Playbook → Directory
  | none => .empty
  | some playbook => writeSections playbook .empty (sectionNames playbook)

end Sections

section Runs

/-- What is copied: the attachments of a turn, or the playbook that the store has, which calls have made. -/
inductive Copy where
  | attachments (attachments : List Attachment)
  | playbook (calls : Option (List Call))

variable (floatText : String → String)

def Workspace.copy (workspace : Workspace) : Copy → Workspace
  | .attachments attachments =>
      { workspace with attachments := copyAttachments floatText workspace.attachments attachments }
  | .playbook calls => { workspace with playbooks := copyPlaybooks (calls.map made) }

def staging : System Workspace Copy := .ofNext fun workspace label => some (workspace.copy floatText label)

end Runs

end Sico.Chat.WorkspaceInit

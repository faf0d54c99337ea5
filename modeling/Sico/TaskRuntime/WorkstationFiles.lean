import Mathlib.Data.List.Infix
import Sico.Foundation.Dialogue
import Sico.Foundation.Dict
import Sico.Foundation.Paths

/-! # Retrieving the files of a workstation

When a session with a workstation is closed, the files below the remote result directory and the remote workspace
are copied to the local ones, one after the other and each in chunks. A file of the workspace that was sent at first
and is not listed any more is deleted. Each request may fail; what a program did to the local files before it stops
stays.

A location is resolved before it is written: it is no link then, and nothing on the way to it is. What links there
are does not change. The file service tells the files below a directory and what they hold.
-/

namespace Sico.TaskRuntime.Workstation

open Foundation

section Trees

inductive Node where
  | file (content : List UInt8)
  | directory
  deriving DecidableEq, Repr

/-- What stands at the locations of a file system, whose root is a directory. -/
abbrev Tree := Dict Location Node

namespace Tree

def node? (tree : Tree) (location : Location) : Option Node :=
  if location = [] then some .directory else tree.get? location

def file? (tree : Tree) (location : Location) : Option (List UInt8) :=
  match tree.node? location with
  | some (.file content) => some content
  | _ => none

/-- The directories on the way to a location and itself, as far as they are not there: none is a file. -/
def makeDirectories (tree : Tree) (location : Location) : Option Tree :=
  location.inits.foldlM (fun tree ancestor =>
    match tree.node? ancestor with
    | none => some (tree.set ancestor .directory)
    | some .directory => some tree
    | some (.file _) => none) tree

/-- `open("wb")` below a directory. -/
def openFile (tree : Tree) (location : Location) : Option Tree :=
  if tree.node? location = some .directory then none else some (tree.set location (.file []))

end Tree

end Trees

section Paths

/-- The root of a pure path: two slashes in front are a root of their own, more of them are one. -/
def pureRoot (path : String) : String :=
  match path.toList with
  | ['/', '/'] => "//"
  | '/' :: '/' :: letter :: _ => if letter = '/' then "/" else "//"
  | '/' :: _ => "/"
  | _ => ""

def pureParts (path : String) : Location := (pathParts path).filter fun part => part ≠ "" ∧ part ≠ "."

def remoteRelativePath (root path : String) : Except String Location :=
  if pureRoot root = pureRoot path ∧ pureParts root <+: pureParts path then
    let relative := (pureParts path).drop (pureParts root).length
    if relative = [] ∨ ".." ∈ relative then .error "Linux Workstation result path is invalid" else .ok relative
  else .error "Linux Workstation result path escaped the remote result directory"

end Paths

section Requests

def transferChunkBytes : ℕ := 512 * 1024

/-- A mount that is retrieved: its remote path, what its host path resolves to, and whether that is a link. -/
structure Mount where
  remoteRoot : String
  localRoot : Location
  isLink : Bool
  deriving DecidableEq, Repr

/-- An item of a listing: a directory, or what is no object, a symbolic link, or a file under its path. -/
inductive Item where
  | other
  | symlink
  | file (path : String)
  deriving DecidableEq, Repr

/-- What the file service answers when it is asked for a listing. -/
inductive Listing where
  | notFound
  | invalid
  | files (items : List Item)
  deriving DecidableEq, Repr

structure FileService where
  file? : String → Option (List UInt8)
  listing : String → Listing

inductive Request where
  | kill
  | list (mount : Mount)
  | download (mount : Mount) (path : String) (offset : ℕ)
  | removeRemoteRoot
  | deleteSession
  deriving DecidableEq, Repr

/-- Whether a request reaches the service and comes back. -/
abbrev Reply : Request → Type := fun _ => Bool

/-- A program may stop with an exception, at the local files that it has then. -/
abbrev Program := ExceptT (String × Tree) (Interaction Request Reply)

def requestError : String := "Linux Workstation request failed"

def request (tree : Tree) (asked : Request) : Program Unit :=
  .mk (.ask asked fun through => .done (if through then .ok () else .error (requestError, tree)))

end Requests

section Retrieval

variable (service : FileService) (resolve : Location → Location)

/-- The rounds of `_download_file` behind what was received: the last chunk is shorter than the others. -/
def receive (mount : Mount) (path : String) (destination : Location) (content received : List UInt8) (tree : Tree) :
    Program Tree :=
  let chunk := (content.drop received.length).take transferChunkBytes
  let written := tree.set destination (.file (received ++ chunk))
  request tree (.download mount path received.length) >>= fun _ =>
    if _more : transferChunkBytes ≤ chunk.length then
      receive mount path destination content (received ++ chunk) written
    else pure written
termination_by content.length - received.length
decreasing_by
  have positive : 0 < transferChunkBytes := by decide
  simp only [List.length_append, List.length_take, List.length_drop, chunk] at _more ⊢
  omega

def downloadFile (mount : Mount) (path : String) (destination : Location) (tree : Tree) : Program Tree :=
  match tree.openFile destination with
  | none => throw ("Is a directory", tree)
  | some opened =>
      match service.file? path with
      | none => request opened (.download mount path 0) >>= fun _ => throw (requestError, opened)
      | some content => receive mount path destination content [] opened

/-- The texts by which retrieving results and synchronizing a workspace differ. -/
structure Messages where
  symlinks : String
  escaped : String

def copyItem (messages : Messages) (mount : Mount) (tree : Tree) : Item → Program Tree
  | .other => pure tree
  | .symlink => throw (messages.symlinks, tree)
  | .file path =>
      match remoteRelativePath mount.remoteRoot path with
      | .error error => throw (error, tree)
      | .ok relative =>
          let destination := resolve (mount.localRoot ++ relative)
          if mount.localRoot <+: destination then
            match tree.makeDirectories destination.dropLast with
            | none => throw ("Not a directory", tree)
            | some below => downloadFile service mount path destination below
          else throw (messages.escaped, tree)

def resultMessages : Messages where
  symlinks := "Linux Workstation result files must not be symlinks"
  escaped := "Linux Workstation result path escaped the local result directory"

def retrieveResults (mount : Mount) (tree : Tree) : Program Tree :=
  request tree (.list mount) >>= fun _ =>
    match service.listing mount.remoteRoot with
    | .notFound => pure tree
    | .invalid => throw ("Linux Workstation result listing returned an invalid payload", tree)
    | .files items =>
        if mount.isLink then throw ("Linux Workstation local result directory must not be a symlink", tree)
        else
          match tree.makeDirectories mount.localRoot with
          | none => throw ("Not a directory", tree)
          | some below => items.foldlM (copyItem service resolve resultMessages mount) below

def workspaceMessages : Messages where
  symlinks := "Linux Workstation workspace files must not be symlinks"
  escaped := "Linux Workstation workspace path escaped the local workspace directory"

/-- The location of an item below the remote root. -/
def Item.relative? (mount : Mount) : Item → Option Location
  | .file path => (remoteRelativePath mount.remoteRoot path).toOption
  | _ => none

/-- What is done for a file that was staged and is not listed. -/
def deleteStaged (mount : Mount) (tree : Tree) (relative : Location) : Program Tree :=
  let destination := resolve (mount.localRoot ++ relative)
  if mount.localRoot <+: destination ∧ destination ≠ mount.localRoot then
    pure (if (tree.file? destination).isSome then tree.erase destination else tree)
  else throw ("Linux Workstation deleted workspace path escaped the local workspace directory", tree)

/-- `_sync_workspace`, with the files that were staged in any order. -/
def syncWorkspace (mount : Mount) (staged : List Location) (tree : Tree) : Program Tree :=
  request tree (.list mount) >>= fun _ =>
    match service.listing mount.remoteRoot with
    | .notFound => throw (requestError, tree)
    | .invalid => throw ("Linux Workstation workspace listing returned an invalid payload", tree)
    | .files items =>
        if mount.isLink then throw ("Linux Workstation local workspace directory must not be a symlink", tree)
        else
          items.foldlM (copyItem service resolve workspaceMessages mount) tree >>= fun copied =>
            (staged.filter (· ∉ items.filterMap (Item.relative? mount))).foldlM (deleteStaged resolve mount) copied

/-- A staged session: the mounts that are retrieved, and the files of the workspace that were staged. -/
structure Session where
  result : Option Mount
  workspace : Option (Mount × List Location)

def Session.mounts (session : Session) : List Mount := session.result.toList ++ (session.workspace.map Prod.fst).toList

/-- What `aclose` retrieves. -/
def retrieve (session : Session) (tree : Tree) : Program Tree :=
  (match session.result with
    | none => pure tree
    | some mount => retrieveResults service resolve mount tree) >>= fun retrieved =>
  match session.workspace with
  | none => pure retrieved
  | some (mount, staged) => syncWorkspace service resolve mount staged retrieved

/-- A request whose failure is passed over. -/
def bestEffort (asked : Request) : Interaction Request Reply Unit := .ask asked fun _ => .done ()

def failure (error : String) : String := "failed to retrieve Linux Workstation results: " ++ error

/-- `aclose` of a staged session: the local files that it leaves, and what it raises. -/
def aclose (session : Session) (tree : Tree) : Interaction Request Reply (Tree × Option String) :=
  bestEffort .kill >>= fun _ =>
  (retrieve service resolve session tree).run >>= fun outcome =>
  bestEffort .removeRemoteRoot >>= fun _ =>
  bestEffort .deleteSession >>= fun _ =>
  match outcome with
  | .ok retrieved => pure (retrieved, none)
  | .error (error, left) => pure (left, some (failure error))

end Retrieval

end Sico.TaskRuntime.Workstation

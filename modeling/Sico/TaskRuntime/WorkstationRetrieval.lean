import Sico.TaskRuntime.WorkstationFiles

/-! # What a retrieval that fails leaves

A local file is whole if it holds what it held before, or all of a remote file that stands for it. A file that is
downloaded is emptied first and is not whole in between, unless what was received happens to be: a download that
fails leaves it as it is then. Nothing is written behind a failure, so that the local files are whole in the end if
and only if no download fails at such a point. Files are deleted only when the listing of the workspace was read.
-/

namespace Sico.TaskRuntime.Workstation

open Foundation Foundation.Interaction

section Trees

variable {tree : Tree} {location other : Location}

@[simp] theorem node?_nil (tree : Tree) : tree.node? [] = some .directory := if_pos rfl

theorem node?_set (below : location ≠ []) (node : Node) :
    Tree.node? (tree.set location node) other = if other = location then some node else tree.node? other := by
  unfold Tree.node?
  rw [Dict.get?_set]
  by_cases root : other = []
  · rw [if_pos root, if_pos root, if_neg fun same => below (same.symm.trans root)]
  · rw [if_neg root, if_neg root]

theorem file?_set (below : location ≠ []) (content : List UInt8) :
    Tree.file? (tree.set location (.file content)) other =
      if other = location then some content else tree.file? other := by
  unfold Tree.file?
  rw [node?_set below]
  by_cases same : other = location
  · rw [if_pos same, if_pos same]
  · rw [if_neg same, if_neg same]

theorem file?_set_directory (absent : tree.node? location = none) :
    Tree.file? (tree.set location .directory) other = tree.file? other := by
  have below : location ≠ [] := by
    rintro rfl
    rw [node?_nil] at absent
    cases absent
  unfold Tree.file?
  rw [node?_set below]
  by_cases same : other = location
  · rw [if_pos same, same, absent]
  · rw [if_neg same]

theorem file?_makeDirectories {made : Tree} (done : tree.makeDirectories location = some made) (other : Location) :
    made.file? other = tree.file? other := by
  unfold Tree.makeDirectories at done
  generalize location.inits = ancestors at done
  induction ancestors generalizing tree with
  | nil =>
      cases done
      rfl
  | cons ancestor rest ih =>
      obtain ⟨first, step, later⟩ := Option.bind_eq_some_iff.mp (by rw [List.foldlM_cons] at done; exact done)
      rw [ih later]
      split at step
      · next absent =>
          cases step
          exact file?_set_directory absent
      · cases step
        rfl
      · cases step

theorem openFile_eq_some {opened : Tree} (done : tree.openFile location = some opened) :
    location ≠ [] ∧ opened = tree.set location (.file []) := by
  unfold Tree.openFile at done
  split at done
  · cases done
  · next notDirectory =>
      cases done
      refine ⟨?_, rfl⟩
      rintro rfl
      exact notDirectory (node?_nil tree)

theorem file?_erase (tree : Tree) (location other : Location) :
    Tree.file? (tree.erase location) other = if other = location then none else tree.file? other := by
  unfold Tree.file? Tree.node?
  rw [Dict.get?_erase]
  by_cases same : other = location
  · rw [if_pos same, if_pos same]
    by_cases root : other = []
    · rw [if_pos root]
    · rw [if_neg root]
  · rw [if_neg same, if_neg same]

end Trees

section Whole

variable (service : FileService) (resolve : Location → Location) (session : Session) (start : Tree)

/-- The content of a location is the previous one, or all of a remote file of its relative path. -/
def Whole (location : Location) (content : List UInt8) : Prop :=
  start.file? location = some content ∨
    ∃ mount ∈ session.mounts, ∃ path relative, remoteRelativePath mount.remoteRoot path = .ok relative ∧
      resolve (mount.localRoot ++ relative) = location ∧ service.file? path = some content

def Intact (tree : Tree) : Prop :=
  ∀ location content, tree.file? location = some content → Whole service resolve session start location content

/-- An exchange that is no download, or a download that succeeds, or one that fails where what was received before
is whole. -/
def Careful (exchange : Exchange Request Reply) : Prop :=
  match exchange.1 with
  | .download mount path offset =>
      exchange.2 = true ∧ (service.file? path).isSome ∨
        ∀ relative, remoteRelativePath mount.remoteRoot path = .ok relative →
          Whole service resolve session start (resolve (mount.localRoot ++ relative))
            (((service.file? path).getD []).take offset)
  | _ => True

/-- The listing of the workspace was read. -/
def Listed (log : List (Exchange Request Reply)) : Prop :=
  ∃ mount staged items, session.workspace = some (mount, staged) ∧
    (⟨.list mount, true⟩ : Exchange Request Reply) ∈ log ∧ service.listing mount.remoteRoot = .files items

/-- No file is deleted, unless the listing was read. -/
def Kept (log : List (Exchange Request Reply)) (tree : Tree) : Prop :=
  (∀ location, (start.file? location).isSome → (tree.file? location).isSome) ∨ Listed service session log

def AllCareful (log : List (Exchange Request Reply)) : Prop :=
  ∀ exchange ∈ log, Careful service resolve session start exchange

/-- A program that goes on has left all files whole, and one that stops has done so if it was careful. -/
def Fair (log : List (Exchange Request Reply)) : Except (String × Tree) Tree → Prop
  | .ok tree => (Intact service resolve session start tree ∧ AllCareful service resolve session start log) ∧
      Kept service session start log tree
  | .error (_, tree) => (Intact service resolve session start tree ↔ AllCareful service resolve session start log) ∧
      Kept service session start log tree

end Whole

section Steps

variable {service : FileService} {resolve : Location → Location} {session : Session} {start : Tree}
  {log : List (Exchange Request Reply)} {tree : Tree}

theorem Kept.append (kept : Kept service session start log tree) (exchange : Exchange Request Reply) :
    Kept service session start (log ++ [exchange]) tree := by
  refine kept.imp_right ?_
  rintro ⟨mount, staged, items, workspace, read, listing⟩
  exact ⟨mount, staged, items, workspace, List.mem_append_left _ read, listing⟩

theorem Kept.mono {other : Tree} (kept : Kept service session start log tree)
    (more : ∀ location, (tree.file? location).isSome → (other.file? location).isSome) :
    Kept service session start log other :=
  kept.imp_left fun all location some_ => more location (all location some_)

theorem allCareful_append {exchange : Exchange Request Reply} :
    AllCareful service resolve session start (log ++ [exchange]) ↔
      AllCareful service resolve session start log ∧ Careful service resolve session start exchange := by
  unfold AllCareful
  rw [List.forall_mem_append, List.forall_mem_singleton]

theorem Fair.stop (fair : Fair service resolve session start log (.ok tree)) (error : String) :
    Fair service resolve session start log (.error (error, tree)) :=
  ⟨iff_of_true fair.1.1 fair.1.2, fair.2⟩

theorem Fair.append (fair : Fair service resolve session start log (.ok tree)) {exchange : Exchange Request Reply}
    (careful : Careful service resolve session start exchange) :
    Fair service resolve session start (log ++ [exchange]) (.ok tree) :=
  ⟨⟨fair.1.1, allCareful_append.mpr ⟨fair.1.2, careful⟩⟩, fair.2.append exchange⟩

theorem Fair.congr (fair : Fair service resolve session start log (.ok tree)) {other : Tree}
    (files : ∀ location, other.file? location = tree.file? location) :
    Fair service resolve session start log (.ok other) := by
  refine ⟨⟨?_, fair.1.2⟩, fair.2.mono ?_⟩
  · intro location content found
    rw [files] at found
    exact fair.1.1 location content found
  · intro location some_
    rw [files]
    exact some_

/-- A program that is fair from where it begins. -/
def Steady (service : FileService) (resolve : Location → Location) (session : Session) (start : Tree)
    (program : Tree → Program Tree) : Prop :=
  ∀ log tree, Fair service resolve session start log (.ok tree) →
    Holds (Fair service resolve session start) (program tree).run log

theorem Steady.bind {program : Program Tree} {next : Tree → Program Tree}
    (first : Holds (Fair service resolve session start) program.run log)
    (second : Steady service resolve session start next) :
    Holds (Fair service resolve session start) (program >>= next).run log :=
  Holds.bind_run (Fair service resolve session start) first (fun _ _ fair => fair) second

theorem Steady.foldlM {Element : Type} {program : Tree → Element → Program Tree} (elements : List Element)
    (each : ∀ element ∈ elements, Steady service resolve session start fun tree => program tree element) :
    Steady service resolve session start fun tree => elements.foldlM program tree := by
  induction elements with
  | nil => exact fun log tree fair => fair
  | cons first rest ih =>
      intro log tree fair
      dsimp only
      rw [List.foldlM_cons]
      exact Steady.bind (each first List.mem_cons_self log tree fair)
        (ih fun element listed => each element (List.mem_cons_of_mem _ listed))

theorem Steady.request {asked : Request} (noDownload : ∀ mount path offset, asked ≠ .download mount path offset)
    {next : Unit → Program Tree} (fair : Fair service resolve session start log (.ok tree))
    (second : Fair service resolve session start (log ++ [⟨asked, true⟩]) (.ok tree) →
      Holds (Fair service resolve session start) (next ()).run (log ++ [⟨asked, true⟩])) :
    Holds (Fair service resolve session start) (Workstation.request tree asked >>= next).run log := by
  have careful (reply : Bool) : Careful service resolve session start ⟨asked, reply⟩ := by
    unfold Careful
    split
    · next mount path offset same => exact absurd same (noDownload mount path offset)
    · trivial
  rw [holds_bind_run]
  intro reply
  cases reply with
  | false => exact (fair.append (careful false)).stop requestError
  | true => exact second (fair.append (careful true))

end Steps

section Downloads

variable {service : FileService} {resolve : Location → Location} {session : Session} {start : Tree}
  {log : List (Exchange Request Reply)} {tree : Tree} {mount : Mount} {path : String} {relative : Location}
  {content received : List UInt8}

/-- Where a download is under way: its file holds what was received, and the others are whole. -/
structure Receiving (service : FileService) (resolve : Location → Location) (session : Session) (start : Tree)
    (log : List (Exchange Request Reply)) (tree : Tree) (destination : Location)
    (content received : List UInt8) : Prop where
  below : destination ≠ []
  careful : AllCareful service resolve session start log
  others : ∀ location held, location ≠ destination → tree.file? location = some held →
    Whole service resolve session start location held
  here : tree.file? destination = some received
  part : received = content.take received.length
  kept : Kept service session start log tree

namespace Receiving

variable {destination : Location}

theorem intact_iff (receiving : Receiving service resolve session start log tree destination content received) :
    Intact service resolve session start tree ↔ Whole service resolve session start destination received := by
  constructor
  · intro intact
    exact intact destination received receiving.here
  · intro whole location held found
    by_cases same : location = destination
    · rw [same, receiving.here] at found
      rw [same, ← Option.some.inj found]
      exact whole
    · exact receiving.others location held same found

theorem written (receiving : Receiving service resolve session start log tree destination content received)
    {exchange : Exchange Request Reply} (careful : Careful service resolve session start exchange)
    (chunk : List UInt8) (next : chunk = (content.drop received.length).take chunk.length) :
    Receiving service resolve session start (log ++ [exchange])
      (tree.set destination (.file (received ++ chunk))) destination content (received ++ chunk) where
  below := receiving.below
  careful := allCareful_append.mpr ⟨receiving.careful, careful⟩
  others location held different found := by
    rw [file?_set receiving.below, if_neg different] at found
    exact receiving.others location held different found
  here := by rw [file?_set receiving.below, if_pos rfl]
  part := by
    rw [List.length_append, List.take_add, ← next]
    exact congrArg (· ++ chunk) receiving.part
  kept := (receiving.kept.append exchange).mono fun location some_ => by
    rw [file?_set receiving.below]
    split
    · rfl
    · exact some_

end Receiving

theorem receive_fair (listed : mount ∈ session.mounts)
    (found : remoteRelativePath mount.remoteRoot path = .ok relative) (file : service.file? path = some content) :
    (received : List UInt8) → (tree : Tree) → (log : List (Exchange Request Reply)) →
      Receiving service resolve session start log tree (resolve (mount.localRoot ++ relative)) content received →
        Holds (Fair service resolve session start)
          (receive mount path (resolve (mount.localRoot ++ relative)) content received tree).run log
  | received, tree, log, receiving => by
    have ok : Careful service resolve session start ⟨.download mount path received.length, true⟩ :=
      .inl ⟨rfl, by rw [file]; rfl⟩
    have next : (content.drop received.length).take transferChunkBytes = (content.drop received.length).take
        ((content.drop received.length).take transferChunkBytes).length := by
      rw [List.length_take, List.take_eq_take_min]
    have later := receiving.written ok _ next
    rw [receive, holds_bind_run]
    intro reply
    cases reply with
    | false =>
        -- nothing is written behind the failure: the file holds what was received
        refine ⟨?_, receiving.kept.append _⟩
        rw [receiving.intact_iff, allCareful_append, and_iff_right receiving.careful]
        constructor
        · intro whole
          refine .inr fun other same => ?_
          cases found.symm.trans same
          rw [file, Option.getD_some, ← receiving.part]
          exact whole
        · rintro (⟨went, -⟩ | whole)
          · cases went
          · have here := whole relative found
            rw [file, Option.getD_some, ← receiving.part] at here
            exact here
    | true =>
        change Holds _ (ExceptT.run (dite _ _ _)) _
        split
        · next _more => exact receive_fair listed found file _ _ _ later
        · next last =>
            have all : received ++ (content.drop received.length).take transferChunkBytes = content := by
              rw [List.length_take] at last
              rw [List.take_of_length_le (by omega)]
              conv_lhs => rw [receiving.part, List.length_take]
              have short : received.length ≤ content.length := by
                rw [receiving.part]
                exact List.length_take_le' _ _
              rw [Nat.min_eq_left short, List.take_append_drop]
            refine ⟨⟨later.intact_iff.mpr ?_, later.careful⟩, later.kept⟩
            rw [all]
            exact .inr ⟨mount, listed, path, relative, found, rfl, file⟩
termination_by received => content.length - received.length
decreasing_by
  rename_i more
  have positive : 0 < transferChunkBytes := by decide
  simp only [List.length_append, List.length_take, List.length_drop] at more ⊢
  omega

theorem Fair.opened (fair : Fair service resolve session start log (.ok tree)) {destination : Location}
    (below : destination ≠ []) (content : List UInt8) :
    Receiving service resolve session start log (tree.set destination (.file [])) destination content [] where
  below := below
  careful := fair.1.2
  others location held different found := by
    rw [file?_set below, if_neg different] at found
    exact fair.1.1 location held found
  here := by rw [file?_set below, if_pos rfl]
  part := (List.take_zero).symm
  kept := fair.2.mono fun location some_ => by
    rw [file?_set below]
    split
    · rfl
    · exact some_

theorem downloadFile_steady (listed : mount ∈ session.mounts)
    (found : remoteRelativePath mount.remoteRoot path = .ok relative) :
    Steady service resolve session start
      (downloadFile service mount path (resolve (mount.localRoot ++ relative))) := by
  intro log tree fair
  unfold downloadFile
  split
  · exact fair.stop _
  · next opened done =>
      obtain ⟨below, rfl⟩ := openFile_eq_some done
      split
      · next none_ =>
          rw [holds_bind_run]
          intro reply
          -- there is no such file: the request does not go through, whatever is answered
          have receiving := fair.opened below []
          have stopped : Fair service resolve session start (log ++ [⟨.download mount path 0, reply⟩])
              (.error (requestError, tree.set (resolve (mount.localRoot ++ relative)) (.file []))) := by
            refine ⟨?_, receiving.kept.append _⟩
            rw [receiving.intact_iff, allCareful_append, and_iff_right fair.1.2]
            constructor
            · intro whole
              refine .inr fun other same => ?_
              cases found.symm.trans same
              rw [none_]
              exact whole
            · rintro (⟨-, some_⟩ | whole)
              · rw [none_] at some_
                cases some_
              · have here := whole relative found
                rw [none_] at here
                exact here
          cases reply with
          | false => exact stopped
          | true => exact stopped
      · next content file => exact receive_fair listed found file [] _ log (fair.opened below content)

theorem copyItem_steady (messages : Messages) (listed : mount ∈ session.mounts) (item : Item) :
    Steady service resolve session start fun tree => copyItem service resolve messages mount tree item := by
  intro log tree fair
  cases item with
  | other => exact fair
  | symlink => exact fair.stop _
  | file path =>
      dsimp only [copyItem]
      split
      · exact fair.stop _
      · next relative found =>
          split
          · split
            · exact fair.stop _
            · next below made =>
                exact downloadFile_steady listed found log below (fair.congr (file?_makeDirectories made))
          · exact fair.stop _

end Downloads

section Closing

variable {service : FileService} {resolve : Location → Location} {session : Session} {start : Tree}
  {log : List (Exchange Request Reply)} {tree : Tree} {mount : Mount}

theorem retrieveResults_steady (listed : mount ∈ session.mounts) :
    Steady service resolve session start (retrieveResults service resolve mount) := by
  intro log tree fair
  unfold retrieveResults
  refine Steady.request (by rintro _ _ _ ⟨⟩) fair fun fair => ?_
  split
  · exact fair
  · exact fair.stop _
  · next items _ =>
      split
      · exact fair.stop _
      · split
        · exact fair.stop _
        · next below made =>
            exact Steady.foldlM items (fun item _ => copyItem_steady _ listed item) _ below
              (fair.congr (file?_makeDirectories made))

theorem deletions_fair (read : Listed service session log) (relatives : List Location) (tree : Tree)
    (fair : Fair service resolve session start log (.ok tree)) :
    Holds (Fair service resolve session start) (relatives.foldlM (deleteStaged resolve mount) tree).run log := by
  induction relatives generalizing tree with
  | nil => exact fair
  | cons relative rest ih =>
      rw [List.foldlM_cons]
      unfold deleteStaged
      dsimp only
      split
      · refine ih _ ?_
        split
        · refine ⟨⟨?_, fair.1.2⟩, .inr read⟩
          intro location content found
          rw [file?_erase] at found
          split at found
          · cases found
          · exact fair.1.1 location content found
        · exact fair
      · exact fair.stop _

theorem syncWorkspace_steady {staged : List Location} (workspace : session.workspace = some (mount, staged))
    (listed : mount ∈ session.mounts) :
    Steady service resolve session start (syncWorkspace service resolve mount staged) := by
  intro log tree fair
  unfold syncWorkspace
  refine Steady.request (by rintro _ _ _ ⟨⟩) fair fun fair => ?_
  split
  · exact fair.stop _
  · exact fair.stop _
  · next items listing =>
      split
      · exact fair.stop _
      · have copies := Steady.foldlM items (fun item _ => @copyItem_steady service resolve session start mount
          workspaceMessages listed item) _ tree fair
        refine Holds.bind_run _ (copies.and (holds_grows _ _)) (fun _ _ fair => fair.1) ?_
        rintro later copied ⟨fair, grown⟩
        refine deletions_fair ⟨mount, staged, items, workspace, ?_, listing⟩ _ copied fair
        exact grown.subset (List.mem_append_right _ List.mem_cons_self)

theorem retrieve_steady : Steady service resolve session start (retrieve service resolve session) := by
  intro log tree fair
  unfold retrieve
  refine Steady.bind ?_ ?_
  · split
    · exact fair
    · next mount result =>
        refine retrieveResults_steady ?_ log tree fair
        rw [Session.mounts, result]
        exact List.mem_append_left _ List.mem_cons_self
  · intro log tree fair
    dsimp only
    split
    · exact fair
    · next mount staged workspace =>
        refine syncWorkspace_steady workspace ?_ log tree fair
        rw [Session.mounts, workspace]
        exact List.mem_append_right _ List.mem_cons_self

end Closing

section Results

variable (service : FileService) (resolve : Location → Location) (session : Session) (start : Tree)

theorem aclose_holds : Holds (fun log (left : Tree × Option String) =>
    (Intact service resolve session start left.1 ↔ AllCareful service resolve session start log) ∧
      Kept service session start log left.1) (aclose service resolve session start) [] := by
  have quiet {asked : Request} {log : List (Exchange Request Reply)} {tree : Tree}
      (noDownload : ∀ mount path offset, asked ≠ .download mount path offset) (reply : Bool)
      (fair : (Intact service resolve session start tree ↔ AllCareful service resolve session start log) ∧
        Kept service session start log tree) :
      (Intact service resolve session start tree ↔
        AllCareful service resolve session start (log ++ [⟨asked, reply⟩])) ∧
        Kept service session start (log ++ [⟨asked, reply⟩]) tree := by
    refine ⟨?_, fair.2.append _⟩
    rw [allCareful_append, fair.1, and_iff_left]
    unfold Careful
    split
    · next mount path offset same => exact absurd same (noDownload mount path offset)
    · trivial
  intro killed
  have begin_ : Fair service resolve session start [⟨.kill, killed⟩] (.ok start) := by
    refine ⟨⟨fun _ _ => .inl, ?_⟩, .inl fun _ => id⟩
    intro exchange listed
    rw [List.mem_singleton.mp listed]
    trivial
  have retrieved := retrieve_steady [⟨.kill, killed⟩] start begin_
  change Holds _ ((retrieve service resolve session start).run >>= _) [⟨.kill, killed⟩]
  refine holds_bind.mpr (retrieved.mono ?_)
  intro log outcome fair removed deleted
  cases outcome with
  | ok retrieved =>
      exact quiet (by rintro _ _ _ ⟨⟩) deleted
        (quiet (by rintro _ _ _ ⟨⟩) removed ⟨iff_of_true fair.1.1 fair.1.2, fair.2⟩)
  | error stop => exact quiet (by rintro _ _ _ ⟨⟩) deleted (quiet (by rintro _ _ _ ⟨⟩) removed fair)

/-- **Whatever requests fail: a retrieval leaves each file with its previous content or a whole remote one, and
deletes nothing before it has read the listing, if and only if no download fails where what was received before is
neither.** -/
theorem aclose_destroys_nothing_iff (behaviour : Behaviour Request Reply) :
    (Intact service resolve session start ((aclose service resolve session start).play behaviour []).2.1 ∧
      Kept service session start ((aclose service resolve session start).play behaviour []).1
        ((aclose service resolve session start).play behaviour []).2.1) ↔
    AllCareful service resolve session start ((aclose service resolve session start).play behaviour []).1 := by
  obtain ⟨intact, kept⟩ := (aclose_holds service resolve session start).play behaviour
  rw [intact, and_iff_left kept]

end Results

section Counterexample

def notesService : FileService where
  file? path := if path = "/run/workspace/notes" then some [2] else none
  listing _ := .files [.file "/run/workspace/notes"]

def notesSession : Session := ⟨none, some (⟨"/run/workspace", ["workspace"], false⟩, [["notes"]])⟩

def notesTree : Tree := (Dict.empty.set ["workspace"] .directory).set ["workspace", "notes"] (.file [1])

def downloadsFail : Behaviour Request Reply := fun _ asked =>
  match asked with
  | .download .. => false
  | _ => true

/-- A download that fails at once empties the local file. -/
theorem failed_download_destroys : ¬ ∀ behaviour,
    Intact notesService id notesSession notesTree ((aclose notesService id notesSession notesTree).play behaviour []).2.1 ∧
      Kept notesService notesSession notesTree ((aclose notesService id notesSession notesTree).play behaviour []).1
        ((aclose notesService id notesSession notesTree).play behaviour []).2.1 := by
  intro destroysNothing
  have emptied : ((aclose notesService id notesSession notesTree).play downloadsFail []).2.1.file?
      ["workspace", "notes"] = some [] := by decide +kernel
  rcases (destroysNothing downloadsFail).1 _ _ emptied with before | ⟨mount, _, path, relative, _, _, remote⟩
  · exact absurd before (by decide)
  · dsimp only [notesService] at remote
    split at remote
    · cases remote
    · cases remote

end Counterexample

end Sico.TaskRuntime.Workstation

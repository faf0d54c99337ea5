import Sico.Foundation.Basic
import Sico.Foundation.Encoding
import Sico.Foundation.Links
import Sico.Foundation.Numerals
import Sico.Foundation.System

/-! # Outputs beside the results

A result is stored without its output, which is a file of its own beside the store: under the directory of the attempt
that wrote it, with a name made of the digest of its bytes. The stored result refers to the file, and whoever reads the
result reads the output from there. The file and the reference are written in separate steps, and any number of
attempts of the run may write files while only one of their results is stored.

The directory may have links in it. A reference is followed only if its text names an output of the run, and only if
it leads to somewhere below the directory of all results.
-/

namespace Sico.TaskRuntime.OutputSidecar

open Foundation

section Model

/-- What goes wrong. -/
inductive SidecarError where
  | valueError (message : String)
  | fileNotFound
  | unicodeDecode
  /-- A path runs through more links than can be followed. -/
  | loop
  deriving Repr, DecidableEq

/-- `TaskRun`, as far as its outputs go. Its IDs are made by the runtime, and are no paths from the root; its attempts
are counted. -/
structure TaskRun where
  batchID : String
  runID : String
  attempt : ℕ
  relativeBatch : (PurePath.ofText batchID).root = ""
  relativeRun : (PurePath.ofText runID).root = ""

structure TaskOutputRef where
  path : String
  size : ℕ
  deriving Repr, DecidableEq

/-- `TaskResult`, with its other fields as they are. -/
structure TaskResult (Fields : Type) where
  fields : Fields
  output : String
  outputRef : Option TaskOutputRef
  deriving Repr, DecidableEq

/-- The name of the directory of an attempt, and that of the file of an output. -/
def attemptName (attempt : ℕ) : String := "attempt-" ++ toString attempt
def outputName (digest : String) : String := "output-" ++ digest ++ ".txt"

/-- The file system of the results: the parts of the path of their directory, the links, of which so many are followed
on one way, and the files. Outputs are written as files, and nothing links from their names. -/
structure Disk where
  resultsRoot : List String
  links : Links
  depth : ℕ
  files : Location → Option (List UInt8)
  plain : ∀ location digest, links (location ++ [outputName digest]) = none

namespace Disk

/-- `Path.resolve`, of a path from the root. -/
def resolve (disk : Disk) (parts : List String) : Except SidecarError Location :=
  match Foundation.resolve disk.links disk.depth [] parts with
  | some location => .ok location
  | none => .error .loop

/-- `_write_bytes_atomic`. -/
def write (disk : Disk) (location : Location) (payload : List UInt8) : Disk :=
  { disk with files := fun other => if other = location then some payload else disk.files other }

end Disk

def attemptOutputDir (disk : Disk) (run : TaskRun) (attempt : ℕ) : Except SidecarError Location := do
  let resolvedRoot ← disk.resolve disk.resultsRoot
  let directory := (((⟨"/", resolvedRoot⟩ : PurePath).join (.ofText run.batchID)).join (.ofText run.runID)).join
    (.ofText (attemptName attempt))
  let outputDir ← disk.resolve directory.parts
  refuseIf (¬ resolvedRoot <+: outputDir) (.valueError s!"invalid task output path for run {run.runID}")
  return outputDir

def outputLocation (sha256 : List UInt8 → List UInt8) (disk : Disk) (run : TaskRun) (payload : List UInt8) :
    Except SidecarError (Location × String) := do
  let contentDigest := hexdigest (sha256 payload)
  let outputDir ← attemptOutputDir disk run run.attempt
  let relativePath := (((PurePath.ofText run.batchID).join (.ofText run.runID)).join
    (.ofText (attemptName run.attempt))).join (.ofText (outputName contentDigest))
  return (outputDir ++ [outputName contentDigest], ((PurePath.ofText "results").join relativePath).asText)

/-- `_ATTEMPT_DIR_PATTERN`: a number without leading zeros. -/
def isAttemptName (name : String) : Bool :=
  let digits := name.toList.drop "attempt-".toList.length
  "attempt-".toList <+: name.toList ∧ digits ≠ [] ∧ digits.all Char.isDigit ∧
    (digits.head? ≠ some '0' ∨ digits = ['0'])

def isHexDigit (letter : Char) : Bool := letter.isDigit ∨ 'a' ≤ letter ∧ letter ≤ 'f'

/-- `_OUTPUT_FILE_PATTERN`, with the digest in the name. -/
def outputDigest (name : String) : Option String :=
  let digest := (name.toList.drop "output-".toList.length).take 64
  if name.toList = "output-".toList ++ digest ++ ".txt".toList ∧ digest.length = 64 ∧ digest.all isHexDigit then
    some (.ofList digest)
  else none

def outputPathFromRef (disk : Disk) (run : TaskRun) (outputRef : TaskOutputRef) :
    Except SidecarError (Location × String) :=
  let invalid : SidecarError := .valueError s!"invalid output_ref path for run {run.runID}: {outputRef.path}"
  let referencePath := PurePath.ofText outputRef.path
  let expectedRunParent := ((PurePath.ofText "results").join (.ofText run.batchID)).join (.ofText run.runID)
  match outputDigest referencePath.name with
  | none => .error invalid
  | some digest => do
      refuseIf (referencePath.parent.parent ≠ expectedRunParent ∨ isAttemptName referencePath.parent.name = false)
        invalid
      let resolvedRoot ← disk.resolve disk.resultsRoot
      let outputPath ← disk.resolve (resolvedRoot ++ referencePath.components.tail)
      refuseIf (¬ resolvedRoot <+: outputPath) invalid
      return (outputPath, digest)

variable {Fields : Type}

/-- `_persisted_result_payload`, as it is read again: without the output. -/
def persistedResultPayload (sha256 : List UInt8 → List UInt8) (disk : Disk) (run : TaskRun) (result : TaskResult Fields) :
    Except SidecarError (Disk × TaskResult Fields) :=
  if result.output = "" then return (disk, result)
  else do
    let outputBytes := encoded result.output.toList
    let (outputPath, referencePath) ← outputLocation sha256 disk run outputBytes
    return (disk.write outputPath outputBytes,
      { result with output := "", outputRef := some ⟨referencePath, outputBytes.length⟩ })

def hydrateResultOutput (sha256 : List UInt8 → List UInt8) (disk : Disk) (run : TaskRun) (result : TaskResult Fields) :
    Except SidecarError (TaskResult Fields) :=
  match result.outputRef with
  | none => return result
  | some outputRef =>
      if result.output ≠ "" then return result
      else do
        let (outputPath, expectedDigest) ← outputPathFromRef disk run outputRef
        match disk.files outputPath with
        | none => .error .fileNotFound
        | some outputBytes =>
            refuseIf (outputBytes.length ≠ outputRef.size) (.valueError s!"output_ref size mismatch for run {run.runID}")
            refuseIf (hexdigest (sha256 outputBytes) ≠ expectedDigest)
              (.valueError s!"output_ref checksum mismatch for run {run.runID}")
            match decoded outputBytes with
            | none => .error .unicodeDecode
            | some output => return { result with output }

end Model

section Names

theorem isName_attemptName (attempt : ℕ) : IsName (attemptName attempt) := by
  have letters : (attemptName attempt).toList = "attempt-".toList ++ (toString attempt).toList := String.toList_append
  have apart (text : String) (other : text.toList.head? ≠ some 'a') : attemptName attempt ≠ text := by
    rintro rfl
    rw [letters] at other
    exact other rfl
  refine ⟨?_, apart "" (by decide), apart "." (by decide), apart ".." (by decide)⟩
  rw [letters, List.mem_append]
  rintro (inside | inside)
  · exact absurd inside (by decide)
  · exact notMem_toString_nat rfl attempt inside

theorem isName_outputName {digest : String} (plain : '/' ∉ digest.toList) : IsName (outputName digest) := by
  have letters : (outputName digest).toList = "output-".toList ++ digest.toList ++ ".txt".toList := by
    rw [outputName, String.toList_append, String.toList_append]
  have apart (text : String) (other : text.toList.head? ≠ some 'o') : outputName digest ≠ text := by
    rintro rfl
    rw [letters] at other
    exact other rfl
  refine ⟨?_, apart "" (by decide), apart "." (by decide), apart ".." (by decide)⟩
  rw [letters, List.mem_append, List.mem_append]
  rintro ((inside | inside) | inside)
  · exact absurd inside (by decide)
  · exact plain inside
  · exact absurd inside (by decide)

theorem isAttemptName_attemptName (attempt : ℕ) : isAttemptName (attemptName attempt) = true := by
  have letters : (attemptName attempt).toList = "attempt-".toList ++ (toString attempt).toList := String.toList_append
  have digits : (attemptName attempt).toList.drop "attempt-".toList.length = (toString attempt).toList := by
    rw [letters, List.drop_left]
  unfold isAttemptName
  rw [digits, letters]
  refine decide_eq_true ⟨List.prefix_append _ _, ?_, ?_, ?_⟩
  · rw [Nat.toString_eq_repr, Nat.toList_repr]
    exact Nat.toDigits_ne_nil
  · rw [List.all_eq_true]
    intro letter inside
    rw [Nat.toString_eq_repr, Nat.toList_repr] at inside
    exact Nat.isDigit_of_mem_toDigits (by decide) (by decide) inside
  · rcases Nat.eq_zero_or_pos attempt with rfl | positive
    · exact .inr (by decide)
    · exact .inl (head?_toString_nat positive)

/-- What a digest looks like: two digits for each of 32 bytes. -/
structure IsDigest (digest : String) : Prop where
  length : digest.toList.length = 64
  digits : digest.toList.all isHexDigit

theorem IsDigest.plain {digest : String} (isDigest : IsDigest digest) : '/' ∉ digest.toList := fun inside =>
  absurd (List.all_eq_true.mp isDigest.digits '/' inside) (by decide)

theorem isDigest_hexdigest {bytes : List UInt8} (length : bytes.length = 32) : IsDigest (hexdigest bytes) := by
  unfold hexdigest
  constructor
  · rw [String.toList_ofList, List.length_flatMap]
    simp [length]
  · rw [String.toList_ofList, List.all_flatMap, List.all_eq_true]
    intro byte _
    have each : ∀ digit < 16, isHexDigit (Nat.digitChar digit) = true := by decide
    have bound := byte.toNat_lt
    simp [each (byte.toNat / 16) (by omega), each (byte.toNat % 16) (by omega)]

theorem outputDigest_outputName {digest : String} (isDigest : IsDigest digest) :
    outputDigest (outputName digest) = some digest := by
  have letters : (outputName digest).toList = "output-".toList ++ (digest.toList ++ ".txt".toList) := by
    rw [outputName, String.toList_append, String.toList_append, List.append_assoc]
  have middle : ((outputName digest).toList.drop "output-".toList.length).take 64 = digest.toList := by
    rw [letters, List.drop_left, ← isDigest.length, List.take_left]
  unfold outputDigest
  rw [middle]
  rw [if_pos ⟨by rw [letters, List.append_assoc], isDigest.length, isDigest.digits⟩, String.ofList_toList]

theorem outputName_of_outputDigest {name digest : String} (named : outputDigest name = some digest) :
    name = outputName digest ∧ IsDigest digest := by
  unfold outputDigest at named
  obtain ⟨⟨letters, length, digits⟩, same⟩ := Option.ite_none_right_eq_some.mp named
  cases Option.some.inj same
  refine ⟨?_, ?_, ?_⟩
  · rw [← String.toList_inj, outputName, String.toList_append, String.toList_append]
    refine letters.trans ?_
    exact congrArg (fun text => "output-".toList ++ text ++ ".txt".toList) String.toList_ofList.symm
  · rw [String.toList_ofList]
    exact length
  · rw [String.toList_ofList]
    exact digits

end Names

section References

variable {run : TaskRun} {attempt : ℕ} {digest : String}

/-- The parts of the directory of a run, below that of all results. -/
def TaskRun.under (run : TaskRun) : List String := (PurePath.ofText run.batchID).parts ++ (PurePath.ofText run.runID).parts

theorem ofText_results : PurePath.ofText "results" = ⟨"", ["results"]⟩ :=
  PurePath.ofText_name ⟨by decide, by decide, by decide, by decide⟩

theorem expectedRunParent_eq (run : TaskRun) :
    ((PurePath.ofText "results").join (.ofText run.batchID)).join (.ofText run.runID) = ⟨"", "results" :: run.under⟩ := by
  rw [PurePath.join_of_relative run.relativeBatch, PurePath.join_of_relative run.relativeRun, ofText_results,
    List.append_assoc]
  rfl

theorem attemptOutputDir_eq (disk : Disk) (run : TaskRun) (attempt : ℕ) :
    attemptOutputDir disk run attempt = do
      let resolvedRoot ← disk.resolve disk.resultsRoot
      let outputDir ← disk.resolve (resolvedRoot ++ run.under ++ [attemptName attempt])
      refuseIf (¬ resolvedRoot <+: outputDir) (.valueError s!"invalid task output path for run {run.runID}")
      return outputDir := by
  unfold attemptOutputDir
  rw [PurePath.ofText_name (isName_attemptName attempt)]
  simp only [PurePath.join_of_relative run.relativeBatch, PurePath.join_of_relative run.relativeRun,
    PurePath.join_part, TaskRun.under, List.append_assoc]

def referenceText (run : TaskRun) (attempt : ℕ) (digest : String) : String :=
  PurePath.asText ⟨"", "results" :: run.under ++ [attemptName attempt, outputName digest]⟩

theorem outputLocation_eq (sha256 : List UInt8 → List UInt8) (disk : Disk) (run : TaskRun) (payload : List UInt8)
    (isDigest : IsDigest (hexdigest (sha256 payload))) :
    outputLocation sha256 disk run payload = do
      let outputDir ← attemptOutputDir disk run run.attempt
      return (outputDir ++ [outputName (hexdigest (sha256 payload))],
        referenceText run run.attempt (hexdigest (sha256 payload))) := by
  have below : (((PurePath.ofText run.batchID).join (.ofText run.runID)).join ⟨"", [attemptName run.attempt]⟩).join
      ⟨"", [outputName (hexdigest (sha256 payload))]⟩ =
        ⟨"", run.under ++ [attemptName run.attempt, outputName (hexdigest (sha256 payload))]⟩ := by
    rw [PurePath.join_part, PurePath.join_part, PurePath.join_of_relative run.relativeRun, run.relativeBatch,
      TaskRun.under, List.append_assoc]
    rfl
  unfold outputLocation
  dsimp only
  rw [PurePath.ofText_name (isName_attemptName run.attempt), PurePath.ofText_name (isName_outputName isDigest.plain),
    ofText_results, below, PurePath.join_of_relative rfl]
  rfl

theorem isPart_of_isName {name : String} (named : IsName name) : PurePath.IsPart name :=
  ⟨named.nonempty, named.dot, named.plain⟩

theorem ofText_referenceText (run : TaskRun) (attempt : ℕ) (isDigest : IsDigest digest) :
    PurePath.ofText (referenceText run attempt digest) =
      ⟨"", "results" :: run.under ++ [attemptName attempt, outputName digest]⟩ := by
  refine PurePath.ofText_asText (List.cons_ne_nil _ _) ?_
  intro part inside
  rcases List.mem_append.mp inside with before | last
  · rcases List.mem_cons.mp before with rfl | under
    · exact ⟨by decide, by decide, by decide⟩
    · rcases List.mem_append.mp under with batch | own
      · exact PurePath.isPart_of_mem batch
      · exact PurePath.isPart_of_mem own
  · rcases List.mem_cons.mp last with rfl | file
    · exact isPart_of_isName (isName_attemptName attempt)
    · obtain rfl := List.mem_singleton.mp file
      exact isPart_of_isName (isName_outputName isDigest.plain)

theorem outputPathFromRef_eq_ok {disk : Disk} {outputRef : TaskOutputRef} {location : Location} :
    outputPathFromRef disk run outputRef = .ok (location, digest) ↔
      IsDigest digest ∧ ∃ attempt resolvedRoot, isAttemptName attempt = true ∧
        PurePath.ofText outputRef.path = ⟨"", "results" :: run.under ++ [attempt, outputName digest]⟩ ∧
        disk.resolve disk.resultsRoot = .ok resolvedRoot ∧
        disk.resolve (resolvedRoot ++ run.under ++ [attempt, outputName digest]) = .ok location ∧
        resolvedRoot <+: location := by
  unfold outputPathFromRef
  dsimp only
  rw [expectedRunParent_eq]
  constructor
  · intro accepted
    cases named : outputDigest (PurePath.ofText outputRef.path).name with
    | none =>
        rw [named] at accepted
        cases accepted
    | some found =>
        rw [named] at accepted
        simp only [bind_eq_ok, refuseIf_eq_ok, not_or, not_not, Bool.not_eq_false] at accepted
        obtain ⟨_, ⟨run_, attempted⟩, resolvedRoot, root, outputPath, leads, _, below, same⟩ := accepted
        cases same
        obtain ⟨file, isDigest⟩ := outputName_of_outputDigest named
        have parent := PurePath.eq_of_parent run_ (List.cons_ne_nil _ _)
        have whole := PurePath.eq_of_parent parent (List.append_ne_nil_of_right_ne_nil _ (List.cons_ne_nil _ []))
        rw [file, List.append_assoc] at whole
        refine ⟨isDigest, _, resolvedRoot, attempted, whole, root, ?_, below⟩
        rw [whole, PurePath.components, if_pos rfl] at leads
        rwa [List.append_assoc]
  · rintro ⟨isDigest, attempt, resolvedRoot, attempted, whole, root, leads, below⟩
    have split : "results" :: run.under ++ [attempt, outputName digest] =
        "results" :: run.under ++ [attempt] ++ [outputName digest] := by
      rw [List.append_assoc]
      rfl
    have tail : (PurePath.ofText outputRef.path).components.tail = run.under ++ [attempt, outputName digest] := by
      rw [whole, PurePath.components, if_pos rfl]
      rfl
    have name : (PurePath.ofText outputRef.path).name = outputName digest := by
      rw [whole, split, PurePath.name_snoc]
    have parent : (PurePath.ofText outputRef.path).parent = ⟨"", "results" :: run.under ++ [attempt]⟩ := by
      rw [whole, split, PurePath.parent_snoc]
    rw [name, outputDigest_outputName isDigest]
    simp only [bind_eq_ok, refuseIf_eq_ok, not_or, not_not, Bool.not_eq_false]
    rw [List.append_assoc] at leads
    rw [parent, PurePath.parent_snoc, PurePath.name_snoc, tail]
    exact ⟨(), ⟨rfl, attempted⟩, resolvedRoot, root, location, leads, (), below, rfl⟩

theorem attemptOutputDir_eq_ok {disk : Disk} {outputDir : Location} :
    attemptOutputDir disk run attempt = .ok outputDir ↔
      ∃ resolvedRoot, disk.resolve disk.resultsRoot = .ok resolvedRoot ∧
        disk.resolve (resolvedRoot ++ run.under ++ [attemptName attempt]) = .ok outputDir ∧
        resolvedRoot <+: outputDir := by
  rw [attemptOutputDir_eq]
  simp only [bind_eq_ok, refuseIf_eq_ok, not_not]
  constructor
  · rintro ⟨resolvedRoot, root, _, leads, _, below, same⟩
    cases same
    exact ⟨resolvedRoot, root, leads, below⟩
  · rintro ⟨resolvedRoot, root, leads, below⟩
    exact ⟨resolvedRoot, root, outputDir, leads, (), below, rfl⟩

theorem Disk.resolve_eq_ok {disk : Disk} {parts : List String} {location : Location} :
    disk.resolve parts = .ok location ↔ Foundation.resolve disk.links disk.depth [] parts = some location := by
  unfold Disk.resolve
  cases Foundation.resolve disk.links disk.depth [] parts with
  | none => simp
  | some found => simp

theorem Disk.resolve_output {disk : Disk} {parts : List String} {outputDir : Location} (isDigest : IsDigest digest)
    (leads : disk.resolve parts = .ok outputDir) :
    disk.resolve (parts ++ [outputName digest]) = .ok (outputDir ++ [outputName digest]) :=
  resolve_eq_ok.mpr (resolve_name (isName_outputName isDigest.plain) (disk.plain _ _) (resolve_eq_ok.mp leads))

theorem outputPathFromRef_referenceText {disk : Disk} {outputDir : Location} (isDigest : IsDigest digest) (size : ℕ)
    (directory : attemptOutputDir disk run attempt = .ok outputDir) :
    outputPathFromRef disk run ⟨referenceText run attempt digest, size⟩ =
      .ok (outputDir ++ [outputName digest], digest) := by
  obtain ⟨resolvedRoot, root, leads, below⟩ := attemptOutputDir_eq_ok.mp directory
  refine outputPathFromRef_eq_ok.mpr ⟨isDigest, attemptName attempt, resolvedRoot, isAttemptName_attemptName attempt,
    ofText_referenceText run attempt isDigest, root, ?_, below.trans (List.prefix_append _ _)⟩
  have file := Disk.resolve_output isDigest leads
  rwa [List.append_assoc] at file

/-- No link stands on the way from the results to the directories of the attempts of a run. -/
structure Unlinked (disk : Disk) (run : TaskRun) (resolvedRoot : Location) : Prop where
  directory : Settled disk.links (resolvedRoot ++ run.under)
  attempts : ∀ name, disk.links (resolvedRoot ++ run.under ++ [name]) = none

theorem Unlinked.location_eq {disk : Disk} {attempt : String} {location resolvedRoot : Location}
    (unlinked : Unlinked disk run resolvedRoot) (isDigest : IsDigest digest) (attempted : isAttemptName attempt = true)
    (leads : disk.resolve (resolvedRoot ++ run.under ++ [attempt, outputName digest]) = .ok location) :
    location = resolvedRoot ++ run.under ++ [attempt, outputName digest] := by
  have begins : "attempt-".toList <+: attempt.toList := (of_decide_eq_true attempted).1
  have kept : attempt ≠ "" ∧ attempt ≠ "." ∧ attempt ≠ ".." := by
    refine ⟨?_, ?_, ?_⟩
    all_goals
      rintro rfl
      exact absurd begins (by decide)
  have named := isName_outputName isDigest.plain
  have directory := unlinked.directory.snoc (unlinked.attempts attempt) kept
  have settled := directory.snoc (disk.plain _ digest) ⟨named.nonempty, named.dot, named.dots⟩
  rw [List.append_assoc] at settled
  have found : Foundation.resolve disk.links disk.depth [] (resolvedRoot ++ run.under ++ [attempt, outputName digest]) =
      some (resolvedRoot ++ run.under ++ [attempt, outputName digest]) := resolve_settled disk.depth settled
  exact Option.some.inj ((Disk.resolve_eq_ok.mp leads).symm.trans found)

end References

section Runs

variable (sha256 : List UInt8 → List UInt8) {Fields : Type}

/-- A result whose output was written, and what is to be stored of it. -/
structure Persisted (Fields : Type) where
  writer : TaskRun
  result : TaskResult Fields
  payload : TaskResult Fields

/-- The disk, the results whose outputs were written, and the one of them that is stored. -/
structure Sidecar (Fields : Type) where
  disk : Disk
  inFlight : List (Persisted Fields)
  stored : Option (Persisted Fields)

/-- A writer, of whichever attempt and run, writes the output of its result; one of those who did has its result
stored. -/
inductive Event (Fields : Type) where
  | externalise (writer : TaskRun) (result : TaskResult Fields)
  | commit (position : ℕ)

def Sidecar.next (sidecar : Sidecar Fields) : Event Fields → Option (Sidecar Fields)
  | .externalise writer result =>
      match persistedResultPayload sha256 sidecar.disk writer result with
      | .error _ => none
      | .ok (disk, payload) => some { sidecar with disk, inFlight := sidecar.inFlight ++ [⟨writer, result, payload⟩] }
  | .commit position =>
      sidecar.inFlight[position]?.map fun persisted => { sidecar with stored := some persisted }

def written (events : List (Event Fields)) : List (List UInt8) :=
  events.filterMap fun event =>
    match event with
    | .externalise _ result => some (encoded result.output.toList)
    | .commit _ => none

/-- The output of a persisted result is where its reference leads. -/
def Kept (disk : Disk) (persisted : Persisted Fields) : Prop :=
  persisted.result.output ≠ "" → ∃ outputDir,
    attemptOutputDir disk persisted.writer persisted.writer.attempt = .ok outputDir ∧
    persisted.payload = { persisted.result with
      output := ""
      outputRef := some ⟨referenceText persisted.writer persisted.writer.attempt
        (hexdigest (sha256 (encoded persisted.result.output.toList))), (encoded persisted.result.output.toList).length⟩ } ∧
    disk.files (outputDir ++ [outputName (hexdigest (sha256 (encoded persisted.result.output.toList)))]) =
      some (encoded persisted.result.output.toList)

variable {sha256}

theorem outputName_injective {first second : String} (same : outputName first = outputName second) : first = second := by
  have letters := String.toList_inj.mpr same
  rw [outputName, outputName, String.toList_append, String.toList_append, String.toList_append, String.toList_append] at letters
  exact String.toList_inj.mp (List.append_cancel_left (List.append_cancel_right letters))

theorem Disk.files_write (disk : Disk) (location : Location) (payload : List UInt8) :
    (disk.write location payload).files location = some payload := if_pos rfl

theorem persistedResultPayload_eq_ok {disk disk' : Disk} {writer : TaskRun} {result payload : TaskResult Fields}
    (length : ∀ message, (sha256 message).length = 32) :
    persistedResultPayload sha256 disk writer result = .ok (disk', payload) ↔
      result.output = "" ∧ disk' = disk ∧ payload = result ∨
      result.output ≠ "" ∧ ∃ outputDir, attemptOutputDir disk writer writer.attempt = .ok outputDir ∧
        disk' = disk.write (outputDir ++ [outputName (hexdigest (sha256 (encoded result.output.toList)))])
          (encoded result.output.toList) ∧
        payload = { result with
          output := ""
          outputRef := some ⟨referenceText writer writer.attempt (hexdigest (sha256 (encoded result.output.toList))),
            (encoded result.output.toList).length⟩ } := by
  unfold persistedResultPayload
  by_cases empty : result.output = ""
  · rw [if_pos empty]
    constructor
    · intro same
      cases same
      exact .inl ⟨empty, rfl, rfl⟩
    · rintro (⟨_, rfl, rfl⟩ | ⟨some_, _⟩)
      · rfl
      · exact absurd empty some_
  · rw [if_neg empty]
    dsimp only
    rw [outputLocation_eq sha256 disk writer _ (isDigest_hexdigest (length _))]
    simp only [bind_eq_ok]
    constructor
    · rintro ⟨_, ⟨outputDir, directory, located⟩, same⟩
      cases located
      cases same
      exact .inr ⟨empty, outputDir, directory, rfl, rfl⟩
    · rintro (⟨none_, _⟩ | ⟨_, outputDir, directory, rfl, rfl⟩)
      · exact absurd none_ empty
      · exact ⟨_, ⟨outputDir, directory, rfl⟩, rfl⟩

theorem Kept.write {disk : Disk} {persisted : Persisted Fields} (kept : Kept sha256 disk persisted) (outputDir : Location)
    {payload : List UInt8}
    (distinct : sha256 (encoded persisted.result.output.toList) = sha256 payload →
      encoded persisted.result.output.toList = payload) :
    Kept sha256 (disk.write (outputDir ++ [outputName (hexdigest (sha256 payload))]) payload) persisted := by
  intro some_
  obtain ⟨own, directory, same, file⟩ := kept some_
  refine ⟨own, directory, same, ?_⟩
  unfold Disk.write
  dsimp only
  split
  · rename_i located
    have names := List.singleton_inj.mp (List.append_inj' located rfl).2
    rw [distinct (hexdigest_injective (outputName_injective names))]
  · exact file

/-- Whatever was persisted is kept, and what is stored was persisted. -/
structure Sound (sha256 : List UInt8 → List UInt8) (events : List (Event Fields)) (sidecar : Sidecar Fields) : Prop where
  kept : ∀ persisted ∈ sidecar.inFlight,
    encoded persisted.result.output.toList ∈ written events ∧ Kept sha256 sidecar.disk persisted
  stored : ∀ persisted, sidecar.stored = some persisted → persisted ∈ sidecar.inFlight

theorem written_append (events : List (Event Fields)) (event : Event Fields) :
    written (events ++ [event]) = written events ++ written [event] := List.filterMap_append

theorem Sound.step {events : List (Event Fields)} {event : Event Fields} {sidecar next : Sidecar Fields}
    (sound : Sound sha256 events sidecar) (length : ∀ message, (sha256 message).length = 32)
    (distinct : NoCollisions sha256 (written (events ++ [event])))
    (step : sidecar.next sha256 event = some next) : Sound sha256 (events ++ [event]) next := by
  rw [written_append] at distinct
  cases event with
  | commit position =>
      obtain ⟨persisted, found, rfl⟩ := Option.map_eq_some_iff.mp step
      refine ⟨fun other inside => ?_, fun other same => ?_⟩
      · obtain ⟨listed, kept⟩ := sound.kept other inside
        rw [written_append]
        exact ⟨List.mem_append_left _ listed, kept⟩
      · obtain rfl := Option.some.inj same
        exact List.mem_of_getElem? found
  | externalise writer result =>
      rw [Sidecar.next] at step
      split at step
      · cases step
      · rename_i disk payload persisting
        obtain rfl := Option.some.inj step
        refine ⟨fun persisted inside => ?_, fun persisted same => List.mem_append_left _ (sound.stored persisted same)⟩
        rw [written_append]
        have now_ : encoded result.output.toList ∈ written [Event.externalise writer result] := List.mem_singleton_self _
        rcases List.mem_append.mp inside with before | last
        · obtain ⟨listed, kept⟩ := sound.kept persisted before
          refine ⟨List.mem_append_left _ listed, ?_⟩
          rcases (persistedResultPayload_eq_ok length).mp persisting with ⟨_, rfl, _⟩ | ⟨_, outputDir, _, rfl, _⟩
          · exact kept
          · exact kept.write outputDir (distinct _ (List.mem_append_left _ listed) _ (List.mem_append_right _ now_))
        · obtain rfl := List.mem_singleton.mp last
          refine ⟨List.mem_append_right _ now_, ?_⟩
          rcases (persistedResultPayload_eq_ok length).mp persisting with ⟨empty, _⟩ | ⟨_, outputDir, directory, rfl, rfl⟩
          · exact fun some_ => absurd empty some_
          · exact fun _ => ⟨outputDir, directory, rfl, Disk.files_write ..⟩

theorem Sound.run (length : ∀ message, (sha256 message).length = 32) {disk : Disk} {events : List (Event Fields)}
    {final : Sidecar Fields} (run : (System.ofNext (Sidecar.next sha256)).Run ⟨disk, [], none⟩ events final)
    (distinct : NoCollisions sha256 (written events)) : Sound sha256 events final := by
  refine run.invariant (fun events sidecar => NoCollisions sha256 (written events) → Sound sha256 events sidecar)
    ?_ ?_ distinct
  · exact fun _ => ⟨fun persisted inside => absurd inside List.not_mem_nil, fun persisted same => by cases same⟩
  · intro events source event target before step whole
    refine (before ?_).step length whole step
    intro first inside second also
    rw [written_append] at whole
    exact whole first (List.mem_append_left _ inside) second (List.mem_append_left _ also)

theorem outputPathFromRef_attempt (disk : Disk) (run : TaskRun) (attempt : ℕ) (outputRef : TaskOutputRef) :
    outputPathFromRef disk { run with attempt } outputRef = outputPathFromRef disk run outputRef := rfl

theorem Kept.hydrate {disk : Disk} {persisted : Persisted Fields} (kept : Kept sha256 disk persisted)
    (length : ∀ message, (sha256 message).length = 32) (some_ : persisted.result.output ≠ "") (attempt : ℕ) :
    hydrateResultOutput sha256 disk { persisted.writer with attempt } persisted.payload =
      .ok { persisted.result with outputRef := persisted.payload.outputRef } := by
  obtain ⟨outputDir, directory, same, file⟩ := kept some_
  have isDigest := isDigest_hexdigest (length (encoded persisted.result.output.toList))
  unfold hydrateResultOutput
  rw [same]
  dsimp only
  rw [if_neg (not_not.mpr rfl), outputPathFromRef_attempt, outputPathFromRef_referenceText isDigest _ directory]
  refine bind_eq_ok.mpr ⟨_, rfl, ?_⟩
  dsimp only
  rw [file]
  refine bind_eq_ok.mpr ⟨(), refuseIf_eq_ok.mpr (not_not.mpr rfl), ?_⟩
  refine bind_eq_ok.mpr ⟨(), refuseIf_eq_ok.mpr (not_not.mpr rfl), ?_⟩
  rw [decoded_encoded]
  rfl

end Runs

section Results

/-- **Outputs are read as they were stored.** Whichever attempts of whichever runs write their outputs, in any order and
with whatever contents, the result that is stored is read with its own output. A reference is followed only if its
text names an output of the run and only to somewhere below the results, which is the directory of the run where no
link stands in it. -/
theorem outputSidecar_roundTrip {Fields : Type} (sha256 : List UInt8 → List UInt8)
    (length : ∀ message, (sha256 message).length = 32) (disk : Disk) (events : List (Event Fields))
    (final : Sidecar Fields) (run : (System.ofNext (Sidecar.next sha256)).Run ⟨disk, [], none⟩ events final)
    (distinct : NoCollisions sha256 (written events)) :
    (∀ persisted, final.stored = some persisted → persisted.result.output ≠ "" → ∀ attempt,
      hydrateResultOutput sha256 final.disk { persisted.writer with attempt } persisted.payload =
        .ok { persisted.result with outputRef := persisted.payload.outputRef }) ∧
    ∀ reader outputRef location digest, outputPathFromRef final.disk reader outputRef = .ok (location, digest) →
      ∃ attempt resolvedRoot, isAttemptName attempt = true ∧ IsDigest digest ∧
        PurePath.ofText outputRef.path = ⟨"", "results" :: reader.under ++ [attempt, outputName digest]⟩ ∧
        final.disk.resolve final.disk.resultsRoot = .ok resolvedRoot ∧ resolvedRoot <+: location ∧
        (Unlinked final.disk reader resolvedRoot →
          location = resolvedRoot ++ reader.under ++ [attempt, outputName digest]) := by
  have sound := Sound.run length run distinct
  constructor
  · intro persisted same some_ attempt
    obtain ⟨_, kept⟩ := sound.kept persisted (sound.stored persisted same)
    exact kept.hydrate length some_ attempt
  · intro reader outputRef location digest accepted
    obtain ⟨isDigest, attempt, resolvedRoot, attempted, text, root, leads, below⟩ := outputPathFromRef_eq_ok.mp accepted
    exact ⟨attempt, resolvedRoot, attempted, isDigest, text, root, below, fun unlinked =>
      unlinked.location_eq isDigest attempted leads⟩

/-- A run, the directory of its first attempt a link to another run's. -/
def linkedRun : TaskRun := ⟨"b", "run-a", 1, rfl, rfl⟩

def linkedDisk : Disk where
  resultsRoot := ["results"]
  links location := if location = ["results", "b", "run-a", "attempt-1"] then some "../run-b/attempt-1" else none
  depth := 40
  files _ := none
  plain location digest := by
    refine if_neg fun same => ?_
    have split : location ++ [outputName digest] = ["results", "b", "run-a"] ++ ["attempt-1"] := same
    have names := List.singleton_inj.mp (List.append_inj' split rfl).2
    have letters := congrArg (fun text => text.toList.head?) names
    rw [outputName, String.toList_append, String.toList_append] at letters
    cases letters

/-- A link in the directory of a run leads to another run's, and the reference is followed. -/
theorem outputPathFromRef_leaves :
    ¬ ∀ (disk : Disk) (run : TaskRun) (outputRef : TaskOutputRef) (location : Location) (digest : String)
      (resolvedRoot : Location), outputPathFromRef disk run outputRef = .ok (location, digest) →
        disk.resolve disk.resultsRoot = .ok resolvedRoot → resolvedRoot ++ run.under <+: location := by
  intro always
  have isDigest : IsDigest (hexdigest (List.replicate 32 0)) := isDigest_hexdigest (List.length_replicate ..)
  have directory : attemptOutputDir linkedDisk linkedRun 1 = .ok ["results", "b", "run-b", "attempt-1"] := by decide
  have inside := always linkedDisk linkedRun _ _ _ ["results"]
    (outputPathFromRef_referenceText isDigest 0 directory) rfl
  have under : linkedRun.under = ["b", "run-a"] := by decide
  rw [under] at inside
  obtain ⟨rest, same⟩ := inside
  have third := congrArg (fun parts => parts[2]?) same
  exact absurd (Option.some.inj third) (by decide)

def doneRun : TaskRun := ⟨"batch-1", "run-1", 1, rfl, rfl⟩
def doneResult : TaskResult Unit := ⟨(), "done", none⟩
def doneEvents : List (Event Unit) := [.externalise doneRun doneResult, .commit 0]
def doneDisk : Disk := ⟨["results"], fun _ => none, 40, fun _ => none, fun _ _ => rfl⟩

def doneSha256 (message : List UInt8) : List UInt8 :=
  if message = encoded "done".toList then
    [164, 195, 237, 4, 169, 90, 61, 161, 74, 157, 35, 92, 131, 216, 104, 190, 215, 192, 244, 92, 247, 243, 250, 167, 81,
      238, 143, 80, 89, 141, 34, 17]
  else List.replicate 32 0

theorem outputSidecar_roundTrip_done :
    ∃ (final : Sidecar Unit) (persisted : Persisted Unit), final.stored = some persisted ∧
      persisted.result.output = "done" ∧
      ∀ attempt, hydrateResultOutput doneSha256 final.disk { persisted.writer with attempt } persisted.payload =
        .ok { persisted.result with outputRef := persisted.payload.outputRef } := by
  have length (message : List UInt8) : (doneSha256 message).length = 32 := by
    unfold doneSha256
    split
    · rfl
    · exact List.length_replicate ..
  have run : (System.ofNext (Sidecar.next doneSha256)).Run ⟨doneDisk, [], none⟩ doneEvents
      (System.after (Sidecar.next doneSha256) ⟨doneDisk, [], none⟩ doneEvents) := .ofNext (by decide)
  have output : (System.after (Sidecar.next doneSha256) ⟨doneDisk, [], none⟩ doneEvents).stored.map (·.result.output) =
      some "done" := by decide
  obtain ⟨persisted, stored, done⟩ := Option.map_eq_some_iff.mp output
  have kept := outputSidecar_roundTrip doneSha256 length doneDisk doneEvents _ run (by decide)
  exact ⟨_, persisted, stored, done, kept.1 persisted stored (by rw [done]; decide)⟩

end Results

end Sico.TaskRuntime.OutputSidecar

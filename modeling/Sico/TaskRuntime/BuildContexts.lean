import Sico.Foundation.Orders
import Sico.Foundation.Traversal
import Sico.TaskRuntime.EnvironmentKeys

/-! # Keys and build contexts

If no two of the messages that are hashed have the same digest, then equal keys mean the same base image, steps,
platform and builder, and the same files with the same permission bits. Directories have no part in the key: the
archives are the same exactly if the directories are.
-/

namespace Sico.TaskRuntime.EnvironmentKeys

open Foundation

section Contents

/-- The files below a root, with their permission bits. -/
def filesOf (walk : List (String × Node)) : List (String × ℕ × List UInt8) :=
  walk.filterMap fun entry =>
    match entry.2 with
    | .file mode contents => some (entry.1, mode &&& 0o777, contents)
    | _ => none

/-- The directories below a root, with their permission bits. -/
def directoriesOf (walk : List (String × Node)) : List (String × ℕ) :=
  walk.filterMap fun entry =>
    match entry.2 with
    | .directory mode => some (entry.1, mode &&& 0o777)
    | _ => none

def RuntimeRoot.files (root : RuntimeRoot) : List (String × ℕ × List UInt8) := filesOf root.walk

def RuntimeRoot.directories (root : RuntimeRoot) : List (String × ℕ) := directoriesOf root.walk

/-- A member of an archive with nothing of its mode but the permission bits. -/
def TarMember.permitted (member : TarMember) : TarMember := { member with mode := member.mode &&& 0o777 }

/-- Two specifications agree on all but the files of the skill. -/
structure PreparedEnvironmentSpec.Agrees (first second : PreparedEnvironmentSpec) : Prop where
  baseImageDigest : first.baseImageDigest = second.baseImageDigest
  preparationSteps : first.preparationSteps = second.preparationSteps
  executionOS : first.executionOS = second.executionOS
  architecture : first.architecture = second.architecture
  manifestSchemaVersion : first.manifestSchemaVersion = second.manifestSchemaVersion
  builderVersion : first.builderVersion = second.builderVersion

end Contents

section Walks

theorem parts_injective {first second : String} (same : parts first = parts second) : first = second := by
  have lists := (List.map_injective_iff.mpr fun _ _ => String.ofList_injective) same
  have letters := congrArg (List.intercalate ['/']) lists
  rw [List.intercalate_splitOn, List.intercalate_splitOn] at letters
  exact String.toList_inj.mp letters

theorem increasing_walk (root : RuntimeRoot) :
    Increasing (fun entry : String × Node => parts entry.1) root.walk := by
  apply increasing_mergeSort fun entry : String × Node => parts entry.1
  have names := root.entries.distinct.map fun _ _ => parts_injective
  rw [List.map_map] at names
  exact names

theorem named_of_mem_files {root : RuntimeRoot} {file : String × ℕ × List UInt8} (listed : file ∈ root.files) :
    '\x00' ∉ file.1.toList := by
  obtain ⟨entry, inside, made⟩ := List.mem_filterMap.mp listed
  have known : entry.1 ∈ root.entries.keys := List.mem_map_of_mem (List.mem_mergeSort.mp inside)
  split at made
  · cases made
    exact root.named _ known
  · cases made

end Walks

section Digests

variable {sha256 : List UInt8 → List UInt8}

theorem digestStream_eq {walk : List (String × Node)} {stream : List UInt8}
    (digested : digestStream sha256 walk = .ok stream) :
    stream = (filesOf walk).flatMap fun file => fileRecord sha256 file.1 file.2.1 file.2.2 := by
  induction walk generalizing stream with
  | nil =>
      cases digested
      rfl
  | cons entry rest ih =>
      obtain ⟨path, node⟩ := entry
      cases node with
      | symlink => cases digested
      | directory mode => exact ih digested
      | file mode contents =>
          obtain ⟨behind, later, same⟩ := bind_eq_ok.mp digested
          cases same
          rw [ih later]
          rfl

theorem fileRecord_append_inj (width : ∀ message, (sha256 message).length = 32) {path path' : String}
    {permissions permissions' : ℕ} {contents contents' behind behind' : List UInt8} (named : '\x00' ∉ path.toList)
    (alsoNamed : '\x00' ∉ path'.toList) (apart : sha256 contents = sha256 contents' → contents = contents')
    (same : fileRecord sha256 path permissions contents ++ behind =
      fileRecord sha256 path' permissions' contents' ++ behind') :
    (path, permissions, contents) = (path', permissions', contents') ∧ behind = behind' := by
  have digits : ∀ number : ℕ, 0 ∉ encoded (toString number).toList := fun number =>
    zero_notMem_encoded (notMem_toString_nat rfl number)
  simp only [fileRecord, List.append_assoc, List.cons_append] at same
  obtain ⟨paths, same⟩ := append_cons_inj (zero_notMem_encoded named) (zero_notMem_encoded alsoNamed) same
  obtain ⟨numbers, same⟩ := append_cons_inj (digits _) (digits _) same
  obtain ⟨hashes, behinds⟩ := List.append_inj same (by rw [width, width])
  rw [String.toList_inj.mp (encoded_injective paths), apart hashes, behinds,
    toString_nat_injective (String.toList_inj.mp (encoded_injective numbers))]
  exact ⟨rfl, rfl⟩

theorem records_injective (width : ∀ message, (sha256 message).length = 32)
    {first second : List (String × ℕ × List UInt8)} (named : ∀ file ∈ first, '\x00' ∉ file.1.toList)
    (alsoNamed : ∀ file ∈ second, '\x00' ∉ file.1.toList)
    (apart : ∀ file ∈ first, ∀ other ∈ second, sha256 file.2.2 = sha256 other.2.2 → file.2.2 = other.2.2)
    (same : (first.flatMap fun file => fileRecord sha256 file.1 file.2.1 file.2.2) =
      second.flatMap fun file => fileRecord sha256 file.1 file.2.1 file.2.2) : first = second := by
  have some_ : ∀ file : String × ℕ × List UInt8, fileRecord sha256 file.1 file.2.1 file.2.2 ≠ [] := fun file none_ =>
    List.append_ne_nil_of_right_ne_nil _ (List.cons_ne_nil _ _) none_
  induction first generalizing second with
  | nil =>
      cases second with
      | nil => rfl
      | cons file rest => exact absurd (List.append_eq_nil_iff.mp same.symm).1 (some_ file)
  | cons file rest ih =>
      cases second with
      | nil => exact absurd (List.append_eq_nil_iff.mp same).1 (some_ file)
      | cons other others =>
          rw [List.forall_mem_cons] at named alsoNamed
          rw [List.flatMap_cons, List.flatMap_cons] at same
          obtain ⟨own, behind⟩ := fileRecord_append_inj width named.1 alsoNamed.1
            (apart file List.mem_cons_self other List.mem_cons_self) same
          have later := ih named.2 alsoNamed.2 (fun file listed other inside =>
            apart file (List.mem_cons_of_mem _ listed) other (List.mem_cons_of_mem _ inside)) behind
          exact List.cons_eq_cons.mpr ⟨own, later⟩

end Digests

section Messages

theorem proper_groups (groups : List (List String)) :
    Json.ProperItems id (groups.map fun group => .arr (group.map .str)) := by
  rw [Json.properItems_iff, List.forall_mem_map]
  exact fun group _ => Json.properItems_texts group

theorem proper_steps (steps : List ResolvedActionStep) :
    Json.ProperItems id (steps.map ResolvedActionStep.payload) := by
  rw [Json.properItems_iff, List.forall_mem_map]
  intro step _
  rw [ResolvedActionStep.payload, Json.Proper]
  constructor
  · change ["argv", "cwd", "optional_argv"].Nodup
    decide
  · simp only [Json.ProperMembers, Json.Proper, true_and, and_true]
    exact ⟨Json.properItems_texts step.argv, proper_groups step.optionalArgv⟩

theorem proper_payload (spec : PreparedEnvironmentSpec) : Json.Proper id spec.payload := by
  rw [PreparedEnvironmentSpec.payload, Json.Proper]
  constructor
  · change ["architecture", "base_image_digest", "builder_version", "execution_os", "manifest_schema_version",
      "preparation_steps", "runtime_digest"].Nodup
    decide
  · simp only [Json.ProperMembers, Json.Proper, true_and, and_true]
    exact proper_steps spec.preparationSteps

theorem str_injective : Function.Injective Json.str := fun _ _ => Json.str.inj

theorem stepPayload_injective : Function.Injective ResolvedActionStep.payload := by
  intro first second same
  simp only [ResolvedActionStep.payload, Json.obj.injEq, List.cons.injEq, Prod.mk.injEq, Json.arr.injEq,
    Json.str.injEq, true_and, and_true] at same
  obtain ⟨argv, cwd, groups⟩ := same
  have group : Function.Injective fun texts : List String => Json.arr (texts.map .str) := fun _ _ equal =>
    str_injective.list_map (Json.arr.inj equal)
  obtain ⟨argv', groups', cwd'⟩ := first
  cases str_injective.list_map argv
  cases group.list_map groups
  cases cwd
  rfl

theorem payload_injective : Function.Injective PreparedEnvironmentSpec.payload := by
  intro first second same
  simp only [PreparedEnvironmentSpec.payload, Json.obj.injEq, List.cons.injEq, Prod.mk.injEq, Json.arr.injEq,
    Json.str.injEq, Json.int.injEq, true_and, and_true] at same
  obtain ⟨architecture, base, builder, os, schema, steps, runtime⟩ := same
  obtain ⟨base', steps', runtime', os', architecture', schema', builder'⟩ := first
  cases stepPayload_injective.list_map steps
  cases architecture
  cases base
  cases builder
  cases os
  cases schema
  cases runtime
  rfl

theorem message_injective : Function.Injective PreparedEnvironmentSpec.message := fun first second same =>
  payload_injective (Json.asciiCompact_lawful.written_injective (proper_payload first) (proper_payload second)
    (encoded_injective same))

end Messages

section Archives

/-- The members for the files and the directories of a walk, with their permission bits. -/
def fileMember (file : String × ℕ × List UInt8) : TarMember := ⟨file.1, .file, file.2.1, file.2.2⟩

def directoryMember (directory : String × ℕ) : TarMember := ⟨directory.1, .directory, directory.2, []⟩

theorem fileMember_injective : Function.Injective fileMember := by
  rintro ⟨path, permissions, contents⟩ ⟨path', permissions', contents'⟩ same
  cases same
  rfl

theorem directoryMember_injective : Function.Injective directoryMember := by
  rintro ⟨path, permissions⟩ ⟨path', permissions'⟩ same
  cases same
  rfl

variable {size : TarSize}

theorem addAll_eq {walk : List (String × Node)} {members result : List TarMember}
    (added : addAll size members walk = .ok result) :
    result = members ++ walk.filterMap fun entry => (tarMember entry.1 entry.2).toOption := by
  induction walk generalizing members with
  | nil =>
      cases added
      exact (List.append_nil _).symm
  | cons entry rest ih =>
      obtain ⟨member, made, added⟩ := bind_eq_ok.mp added
      obtain ⟨-, -, added⟩ := bind_eq_ok.mp added
      rw [ih added, List.filterMap_cons, made, List.append_assoc]
      rfl

theorem runtimeTar_eq {root : RuntimeRoot} {archive : List TarMember} (built : runtimeTar size root = .ok archive) :
    archive = root.walk.filterMap fun entry => (tarMember entry.1 entry.2).toOption := by
  obtain ⟨members, added, built⟩ := bind_eq_ok.mp built
  obtain ⟨-, -, same⟩ := bind_eq_ok.mp built
  cases same
  exact addAll_eq added

theorem permissions_mask (mode : ℕ) : mode &&& 0o7777 &&& 0o777 = mode &&& 0o777 := by
  rw [Nat.and_assoc]
  rfl

theorem filter_permitted (walk : List (String × Node)) :
    ((walk.filterMap fun entry => (tarMember entry.1 entry.2).toOption).map TarMember.permitted).filter
        (fun member => member.kind = .directory) = (directoriesOf walk).map directoryMember ∧
      ((walk.filterMap fun entry => (tarMember entry.1 entry.2).toOption).map TarMember.permitted).filter
        (fun member => !decide (member.kind = .directory)) = (filesOf walk).map fileMember := by
  induction walk with
  | nil => exact ⟨rfl, rfl⟩
  | cons entry rest ih =>
      obtain ⟨path, node⟩ := entry
      obtain ⟨directories, files⟩ := ih
      cases node with
      | symlink => exact ⟨directories, files⟩
      | directory mode =>
          have own : TarMember.permitted ⟨path, .directory, mode &&& 0o7777, []⟩ =
              directoryMember (path, mode &&& 0o777) :=
            congrArg (fun mode => TarMember.mk path .directory mode []) (permissions_mask mode)
          exact ⟨List.cons_eq_cons.mpr ⟨own, directories⟩, files⟩
      | file mode contents =>
          have own : TarMember.permitted ⟨path, .file, mode &&& 0o7777, contents⟩ =
              fileMember (path, mode &&& 0o777, contents) :=
            congrArg (fun mode => TarMember.mk path .file mode contents) (permissions_mask mode)
          exact ⟨directories, List.cons_eq_cons.mpr ⟨own, files⟩⟩

theorem increasing_archive {root : RuntimeRoot} {archive : List TarMember} (built : runtimeTar size root = .ok archive) :
    Increasing (fun member => parts member.name) (archive.map TarMember.permitted) := by
  rw [runtimeTar_eq built, Increasing, List.pairwise_map, List.pairwise_filterMap]
  refine (increasing_walk root).imp ?_
  have named : ∀ {entry : String × Node} {member}, (tarMember entry.1 entry.2).toOption = some member →
      member.name = entry.1 := by
    rintro ⟨path, node⟩ member made
    cases node <;> cases made <;> rfl
  intro first second less member made member' made'
  change parts member.name < parts member'.name
  rw [named made, named made']
  exact less

theorem archive_eq_iff {first second : RuntimeRoot} {archive archive' : List TarMember}
    (built : runtimeTar size first = .ok archive) (alsoBuilt : runtimeTar size second = .ok archive') :
    archive.map TarMember.permitted = archive'.map TarMember.permitted ↔
      first.files = second.files ∧ first.directories = second.directories := by
  obtain ⟨directories, files⟩ := filter_permitted first.walk
  obtain ⟨directories', files'⟩ := filter_permitted second.walk
  rw [← runtimeTar_eq built] at directories files
  rw [← runtimeTar_eq alsoBuilt] at directories' files'
  constructor
  · intro same
    rw [same, files'] at files
    rw [same, directories'] at directories
    exact ⟨(fileMember_injective.list_map files).symm, (directoryMember_injective.list_map directories).symm⟩
  · intro ⟨sameFiles, sameDirectories⟩
    apply eq_of_increasing (increasing_archive built) (increasing_archive alsoBuilt)
    have perm := List.filter_append_perm (fun member : TarMember => decide (member.kind = .directory))
      (archive.map TarMember.permitted)
    have perm' := List.filter_append_perm (fun member : TarMember => decide (member.kind = .directory))
      (archive'.map TarMember.permitted)
    rw [directories, files] at perm
    rw [directories', files'] at perm'
    rw [RuntimeRoot.files, RuntimeRoot.files] at sameFiles
    rw [RuntimeRoot.directories, RuntimeRoot.directories] at sameDirectories
    rw [sameFiles, sameDirectories] at perm
    exact perm.symm.trans perm'

end Archives

section Keys

variable {sha256 : List UInt8 → List UInt8}

/-- What is hashed on the way to a key: the specification, the records of the files, and their contents. -/
def hashed (sha256 : List UInt8 → List UInt8) (spec : PreparedEnvironmentSpec) (root : RuntimeRoot) :
    List (List UInt8) :=
  spec.message :: (root.files.flatMap fun file => fileRecord sha256 file.1 file.2.1 file.2.2) ::
    root.files.map fun file => file.2.2

theorem runtimeDigest_eq {root : RuntimeRoot} {digest : String}
    (digested : runtimeContentDigest sha256 root = .ok digest) :
    digest = hexdigest (sha256 (root.files.flatMap fun file => fileRecord sha256 file.1 file.2.1 file.2.2)) := by
  obtain ⟨stream, streamed, rfl⟩ := map_eq_ok.mp digested
  rw [digestStream_eq streamed]
  rfl

theorem key_eq_iff (width : ∀ message, (sha256 message).length = 32) {first second : RuntimeRoot}
    {spec spec' : PreparedEnvironmentSpec}
    (apart : NoCollisions sha256 (hashed sha256 spec first ++ hashed sha256 spec' second))
    (digested : runtimeContentDigest sha256 first = .ok spec.runtimeDigest)
    (alsoDigested : runtimeContentDigest sha256 second = .ok spec'.runtimeDigest) :
    spec.key sha256 = spec'.key sha256 ↔ spec.Agrees spec' ∧ first.files = second.files := by
  have digest := runtimeDigest_eq digested
  have digest' := runtimeDigest_eq alsoDigested
  have known : ∀ message ∈ hashed sha256 spec first, ∀ message' ∈ hashed sha256 spec' second,
      sha256 message = sha256 message' → message = message' := fun message listed message' listed' =>
    apart message (List.mem_append_left _ listed) message' (List.mem_append_right _ listed')
  constructor
  · intro same
    have messages := known _ List.mem_cons_self _ List.mem_cons_self (hexdigest_injective same)
    obtain rfl := message_injective messages
    refine ⟨⟨rfl, rfl, rfl, rfl, rfl, rfl⟩, ?_⟩
    have records := known _ (List.mem_cons_of_mem _ List.mem_cons_self) _ (List.mem_cons_of_mem _ List.mem_cons_self)
      (hexdigest_injective (digest.symm.trans digest'))
    refine records_injective width (fun _ => named_of_mem_files) (fun _ => named_of_mem_files) ?_ records
    intro file listed other listed'
    exact known _ (List.mem_cons_of_mem _ (List.mem_cons_of_mem _ (List.mem_map_of_mem listed))) _
      (List.mem_cons_of_mem _ (List.mem_cons_of_mem _ (List.mem_map_of_mem listed')))
  · intro ⟨agrees, files⟩
    have equal : spec = spec' := by
      rw [files, ← digest'] at digest
      cases spec
      cases spec'
      obtain ⟨rfl, rfl, rfl, rfl, rfl, rfl⟩ := agrees
      cases digest
      rfl
    rw [equal]

/-- **Keys and build contexts.** Nothing that is hashed for two specifications of skills collides. Then equal keys
mean the same base image, steps, platform and builder and archives with the same members exactly if the two have the
same directories with the same permission bits, or else something other than a directory tells them apart. -/
theorem key_determines_context_iff (sha256 : List UInt8 → List UInt8)
    (width : ∀ message, (sha256 message).length = 32) (size : TarSize) {first second : RuntimeRoot}
    {spec spec' : PreparedEnvironmentSpec}
    (apart : NoCollisions sha256 (hashed sha256 spec first ++ hashed sha256 spec' second))
    (digested : runtimeContentDigest sha256 first = .ok spec.runtimeDigest)
    (alsoDigested : runtimeContentDigest sha256 second = .ok spec'.runtimeDigest)
    {archive archive' : List TarMember} (built : runtimeTar size first = .ok archive)
    (alsoBuilt : runtimeTar size second = .ok archive') :
    (spec.key sha256 = spec'.key sha256 →
        spec.Agrees spec' ∧ archive.map TarMember.permitted = archive'.map TarMember.permitted) ↔
      (spec.Agrees spec' → first.files = second.files → first.directories = second.directories) := by
  rw [key_eq_iff width apart digested alsoDigested, archive_eq_iff built alsoBuilt]
  constructor
  · intro determines agrees files
    exact (determines ⟨agrees, files⟩).2.2
  · intro directories ⟨agrees, files⟩
    exact ⟨agrees, files, directories agrees files⟩

end Keys

section Sample

def oneFile : RuntimeRoot where
  entries := ⟨[("run", .file 0o755 [108, 115])], by decide⟩
  named := by decide

def emptyDirectory : RuntimeRoot where
  entries := ⟨[("logs", .directory 0o755), ("run", .file 0o755 [108, 115])], by decide⟩
  named := by decide

def sampleSpec : PreparedEnvironmentSpec :=
  { baseImageDigest := "base", preparationSteps := [], architecture := "amd64"
    runtimeDigest := "2e2d02b54b7e513e5ef8d1dbc30f4225788bf5df36479b7aa4b74bcf4e603fa4" }

def contentsDigest : List UInt8 :=
  [199, 182, 138, 195, 127, 54, 68, 115, 233, 34, 147, 103, 8, 231, 244, 60, 41, 61, 208, 123, 41, 81, 113, 86, 108, 7,
    255, 95, 224, 36, 250, 185]

def filesDigest : List UInt8 :=
  [46, 45, 2, 181, 75, 126, 81, 62, 94, 248, 209, 219, 195, 15, 66, 37, 120, 139, 245, 223, 54, 71, 155, 122, 164, 183,
    75, 207, 78, 96, 63, 164]

def specDigest : List UInt8 :=
  [78, 48, 249, 166, 250, 27, 148, 167, 196, 231, 6, 203, 120, 169, 128, 5, 48, 77, 192, 201, 98, 254, 101, 107, 126,
    254, 124, 23, 28, 197, 28, 72]

/-- The digests of what is hashed for the sample, as SHA-256 has them. -/
def sampleSha256 (message : List UInt8) : List UInt8 :=
  if message = [108, 115] then contentsDigest
  else if message = encoded "run".toList ++ 0 :: (encoded "493".toList ++ 0 :: contentsDigest) then filesDigest
  else if message = sampleSpec.message then specDigest
  else List.replicate 32 0

def sampleSize : TarSize := ⟨fun members => 512 * members.length, fun members => 512 * members.length + 1024⟩

theorem sampleSha256_length (message : List UInt8) : (sampleSha256 message).length = 32 := by
  unfold sampleSha256
  repeat' split
  all_goals rfl

theorem walk_oneFile : oneFile.walk = [("run", .file 0o755 [108, 115])] := List.mergeSort_singleton _

theorem walk_emptyDirectory :
    emptyDirectory.walk = [("logs", .directory 0o755), ("run", .file 0o755 [108, 115])] :=
  eq_of_increasing (increasing_walk emptyDirectory) (by unfold Increasing; decide) (List.mergeSort_perm _ _)

def sampleMessages : List (List UInt8) :=
  [sampleSpec.message, encoded "run".toList ++ 0 :: (encoded "493".toList ++ 0 :: contentsDigest), [108, 115]]

theorem hashed_oneFile : hashed sampleSha256 sampleSpec oneFile = sampleMessages := by
  rw [hashed, RuntimeRoot.files, walk_oneFile]
  rfl

theorem hashed_emptyDirectory : hashed sampleSha256 sampleSpec emptyDirectory = sampleMessages := by
  rw [hashed, RuntimeRoot.files, walk_emptyDirectory]
  rfl

theorem apart_sample : NoCollisions sampleSha256
    (hashed sampleSha256 sampleSpec oneFile ++ hashed sampleSha256 sampleSpec emptyDirectory) := by
  rw [hashed_oneFile, hashed_emptyDirectory]
  decide +kernel

theorem digest_oneFile : runtimeContentDigest sampleSha256 oneFile = .ok sampleSpec.runtimeDigest := by
  rw [runtimeContentDigest, walk_oneFile]
  decide +kernel

theorem digest_emptyDirectory : runtimeContentDigest sampleSha256 emptyDirectory = .ok sampleSpec.runtimeDigest := by
  rw [runtimeContentDigest, walk_emptyDirectory]
  decide +kernel

theorem tar_oneFile : runtimeTar sampleSize oneFile = .ok [⟨"run", .file, 0o755, [108, 115]⟩] := by
  rw [runtimeTar, walk_oneFile]
  rfl

theorem tar_emptyDirectory : runtimeTar sampleSize emptyDirectory =
    .ok [⟨"logs", .directory, 0o755, []⟩, ⟨"run", .file, 0o755, [108, 115]⟩] := by
  rw [runtimeTar, walk_emptyDirectory]
  rfl

theorem key_determines_context_iff_sample :
    (sampleSpec.key sampleSha256 = sampleSpec.key sampleSha256 →
        sampleSpec.Agrees sampleSpec ∧ [TarMember.mk "run" .file 0o755 [108, 115]].map TarMember.permitted =
          [⟨"logs", .directory, 0o755, []⟩, ⟨"run", .file, 0o755, [108, 115]⟩].map TarMember.permitted) ↔
      (sampleSpec.Agrees sampleSpec → oneFile.files = emptyDirectory.files →
        oneFile.directories = emptyDirectory.directories) :=
  key_determines_context_iff sampleSha256 sampleSha256_length sampleSize apart_sample digest_oneFile
    digest_emptyDirectory tar_oneFile tar_emptyDirectory

/-- A file alone and the same file beside an empty directory have one key, and archives with other members. -/
theorem emptyDirectory_shares_key :
    NoCollisions sampleSha256
        (hashed sampleSha256 sampleSpec oneFile ++ hashed sampleSha256 sampleSpec emptyDirectory) ∧
      runtimeContentDigest sampleSha256 oneFile = runtimeContentDigest sampleSha256 emptyDirectory ∧
      (runtimeTar sampleSize oneFile).map (fun archive => archive.map TarMember.name) = .ok ["run"] ∧
      (runtimeTar sampleSize emptyDirectory).map (fun archive => archive.map TarMember.name) = .ok ["logs", "run"] := by
  rw [digest_oneFile, digest_emptyDirectory, tar_oneFile, tar_emptyDirectory]
  exact ⟨apart_sample, rfl, rfl, rfl⟩

end Sample

end Sico.TaskRuntime.EnvironmentKeys

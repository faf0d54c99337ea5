import Mathlib.Data.List.Lex
import Mathlib.Data.String.Basic
import Sico.Foundation.Dict
import Sico.Foundation.Encoding
import Sico.Foundation.JsonStyles

/-! # The keys of prepared environments

A prepared environment is built from a base image, by preparation steps, with the files of a skill. Its key is the
digest of what it is specified by, where the files are told by the digest of their paths, permission bits and
contents. The builder is given the files in an archive, which has the directories too.

What is in the runtime of a skill stands under paths relative to it, without hard links and with nothing but files,
directories and symbolic links. The hash function is a parameter, and so is the size of an archive.
-/

namespace Sico.TaskRuntime.EnvironmentKeys

open Foundation

section Runtimes

/-- What stands under a path, with the bits of its mode. -/
inductive Node where
  | file (mode : ℕ) (contents : List UInt8)
  | directory (mode : ℕ)
  | symlink
  deriving DecidableEq, Repr

/-- What is below a root: no name has the letter NUL. -/
structure RuntimeRoot where
  entries : Dict String Node
  named : ∀ path ∈ entries.keys, '\x00' ∉ path.toList

/-- The parts of a path, by which paths are compared. -/
def parts (path : String) : List String := (path.toList.splitOn '/').map String.ofList

/-- `sorted(root.rglob("*"))`. -/
def RuntimeRoot.walk (root : RuntimeRoot) : List (String × Node) :=
  root.entries.entries.mergeSort fun first second => parts first.1 ≤ parts second.1

def linkError (path : String) : String := "skill runtime contains a symbolic link: " ++ path

variable (sha256 : List UInt8 → List UInt8)

/-- What the digest is updated with for a file, by its permission bits. -/
def fileRecord (path : String) (permissions : ℕ) (contents : List UInt8) : List UInt8 :=
  encoded path.toList ++ 0 :: (encoded (toString permissions).toList ++ 0 :: sha256 contents)

/-- What the digest of a runtime is updated with: directories are passed over. -/
def digestStream : List (String × Node) → Except String (List UInt8)
  | [] => .ok []
  | (path, .symlink) :: _ => .error (linkError path)
  | (_, .directory _) :: rest => digestStream rest
  | (path, .file mode contents) :: rest => do
      let behind ← digestStream rest
      return fileRecord sha256 path (mode &&& 0o777) contents ++ behind

def runtimeContentDigest (root : RuntimeRoot) : Except String String :=
  (digestStream sha256 root.walk).map fun stream => hexdigest (sha256 stream)

end Runtimes

section Archives

inductive MemberKind where
  | file
  | directory
  deriving DecidableEq, Repr

/-- A member of an archive, with the bits of a mode that an archive holds. -/
structure TarMember where
  name : String
  kind : MemberKind
  mode : ℕ
  contents : List UInt8
  deriving DecidableEq, Repr

def maxBuildContextBytes : ℕ := 64 * 1024 * 1024

/-- The bytes of an archive that is being written, and of one that is closed. -/
structure TarSize where
  tell : List TarMember → ℕ
  closed : List TarMember → ℕ

def tooLarge : String := "prepared environment build context is too large"

def tarMember : String → Node → Except String TarMember
  | path, .file mode contents => .ok ⟨path, .file, mode &&& 0o7777, contents⟩
  | path, .directory mode => .ok ⟨path, .directory, mode &&& 0o7777, []⟩
  | path, .symlink => .error (linkError path)

/-- The loop of `_runtime_tar`, behind some members. -/
def addAll (size : TarSize) : List TarMember → List (String × Node) → Except String (List TarMember)
  | members, [] => .ok members
  | members, (path, node) :: rest => do
      let member ← tarMember path node
      refuseIf (maxBuildContextBytes < size.tell (members ++ [member])) tooLarge
      addAll size (members ++ [member]) rest

def runtimeTar (size : TarSize) (root : RuntimeRoot) : Except String (List TarMember) := do
  let members ← addAll size [] root.walk
  refuseIf (maxBuildContextBytes < size.closed members) tooLarge
  return members

end Archives

section Specifications

structure ResolvedActionStep where
  argv : List String
  optionalArgv : List (List String) := []
  cwd : String := ""
  deriving DecidableEq, Repr

structure PreparedEnvironmentSpec where
  baseImageDigest : String
  preparationSteps : List ResolvedActionStep
  runtimeDigest : String
  executionOS : String := "linux"
  architecture : String
  manifestSchemaVersion : ℤ := 3
  builderVersion : String := "prepared-environment-v1"
  deriving DecidableEq, Repr

def ResolvedActionStep.payload (step : ResolvedActionStep) : Json :=
  .obj
    [("argv", .arr (step.argv.map .str)), ("cwd", .str step.cwd),
      ("optional_argv", .arr (step.optionalArgv.map fun group => .arr (group.map .str)))]

namespace PreparedEnvironmentSpec

/-- What a key is computed from, with the members in the order of their names. -/
def payload (spec : PreparedEnvironmentSpec) : Json :=
  .obj
    [("architecture", .str spec.architecture), ("base_image_digest", .str spec.baseImageDigest),
      ("builder_version", .str spec.builderVersion), ("execution_os", .str spec.executionOS),
      ("manifest_schema_version", .int spec.manifestSchemaVersion),
      ("preparation_steps", .arr (spec.preparationSteps.map ResolvedActionStep.payload)),
      ("runtime_digest", .str spec.runtimeDigest)]

/-- `encoded`, which is hashed for the key. -/
def message (spec : PreparedEnvironmentSpec) : List UInt8 := encoded (Json.asciiCompact.written 0 spec.payload)

def key (sha256 : List UInt8 → List UInt8) (spec : PreparedEnvironmentSpec) : String :=
  hexdigest (sha256 spec.message)

end PreparedEnvironmentSpec

end Specifications

end Sico.TaskRuntime.EnvironmentKeys

import LoopbackLock.Settings.Document
import LoopbackLock.Text.Utf8

/-!
# Settings in a file

Directories and files below a working directory, and what the system makes of a path: its parts are
walked through one by one, and the first part that cannot be walked through decides the failure.
Of all that is elsewhere only the directories that every system has at its root are known, and the
empty file /dev/null.
-/

namespace LoopbackLock

/-- The directories and files below a working directory, by the parts of their paths. -/
structure FileTree where
  directories : List (List String) := []
  files : List (List String × Bytes) := []

namespace FileTree

/-- The parts of a path after one more part. -/
def follow (parts : List String) (part : String) : List String :=
  if part = "" || part = "." then parts
  else if part = ".." then parts.dropLast
  else parts ++ [part]

/-- Makes a directory and all directories on the way to it. -/
def makeDirectory (t : FileTree) (path : String) : FileTree :=
  let make (made : FileTree × List String) (part : String) : FileTree × List String :=
    let here := follow made.2 part
    ({ made.1 with directories := made.1.directories ++ [here] }, here)
  ((path.splitOn "/").foldl make (t, [])).1

/-- Writes a file; one that was there is replaced. -/
def writeFile (t : FileTree) (path : String) (contents : Bytes) : FileTree :=
  let parts := (path.splitOn "/").foldl follow []
  { t with files := (parts, contents) :: t.files.filter (·.1 ≠ parts) }

/-- The longest name of a file, in bytes. -/
def maxName : Nat := 255

/-- A path has fewer bytes than this. -/
def maxPath : Nat := 4096

/-- The directories that every system has at its root. -/
def rootDirectories : List String :=
  ["bin", "boot", "dev", "etc", "home", "lib", "media", "mnt", "opt", "proc", "root", "run", "sbin",
    "srv", "sys", "tmp", "usr", "var"]

/-- What a walk has come to. -/
inductive Place
  /-- A directory: its path below the working directory. -/
  | directory (parts : List String)
  /-- A directory above the working directory, of which nothing is known. -/
  | above
  /-- The root, or a directory in it. -/
  | root (parts : List String)
  | file (contents : Bytes)

/-- A path whose directories are all there because something is said to be in them. -/
def hasDirectory (t : FileTree) (parts : List String) : Bool :=
  parts.isEmpty || t.directories.any (parts.isPrefixOf ·) ||
    t.files.any fun (path, _) => path ≠ parts && parts.isPrefixOf path

/-- What has a name in a directory. -/
def find? (t : FileTree) (place : Place) (name : String) : Option Place :=
  match place with
  | .file _ | .above => none
  | .root [] => if name ∈ rootDirectories then some (.root [name]) else none
  | .root parts => if parts = ["dev"] && name = "null" then some (.file []) else none
  | .directory parts =>
    match t.files.lookup (parts ++ [name]) with
    | some contents => some (.file contents)
    | none =>
      if t.hasDirectory (parts ++ [name]) then some (.directory (parts ++ [name])) else none

/-- The directory that a directory is in. -/
def parent : Place → Place
  | .directory [] | .above => .above
  | .directory parts => .directory parts.dropLast
  | .root parts => .root parts.dropLast
  | .file contents => .file contents

/-- Walks one part further. -/
def enter (t : FileTree) (place : Place) (part : String) : Except Fault Place :=
  match place with
  | .file _ => .error .notADirectory
  | _ =>
    if part = "" || part = "." then .ok place
    else if part = ".." then .ok (parent place)
    else if maxName < part.utf8ByteSize then .error .nameTooLong
    else
      match t.find? place part with
      | some inner => .ok inner
      | none => .error .noSuchFile

/-- Where a path leads. -/
def resolve (t : FileTree) (path : String) : Except Fault Place :=
  if path.toList.contains '\x00' then
    .error ⟨.invalidInput, "file name contained an unexpected NUL byte"⟩
  else if path = "" then .error .noSuchFile
  else if maxPath ≤ path.utf8ByteSize then .error .nameTooLong
  else (path.splitOn "/").foldlM t.enter (if path.startsWith "/" then .root [] else .directory [])

/-- The text of the file a path leads to. -/
def readText (t : FileTree) (path : String) : Except Fault String := do
  match ← t.resolve path with
  | .file contents =>
    match Text.decode? contents with
    | some cs => .ok (String.ofList cs)
    | none => .error ⟨.invalidData, "stream did not contain valid UTF-8"⟩
  | _ => .error .isADirectory

end FileTree

namespace SettingsError

/-- The wording of an error; that of a document that is not well-formed is left open. -/
def message? : SettingsError → Option String
  | unreadable path fault =>
    some ("CONFIG_READ_ERROR: failed to read " ++ path ++ ": " ++ fault.text)
  | malformed => none
  | mistyped diagnostic => some ("CONFIG_PARSE_ERROR: " ++ diagnostic)
  | invalid e => some e.message

end SettingsError

namespace Settings

/-- The settings the document in a file says, if a lock can work with them. -/
def load (t : FileTree) (path : String) : Except SettingsError Settings := do
  let text ← (t.readText path).mapError (.unreadable path)
  ofDocument text

end Settings

end LoopbackLock

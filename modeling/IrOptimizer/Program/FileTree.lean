import IrOptimizer.Dictionary
import IrOptimizer.Program.Command

/-!
# File trees

Files and directories held in memory, the rules by which a path leads to one of
them, and the host that they make together with the standard streams. Every file
can be read and written, and every directory can be entered.

A path is followed name by name, from the root if it begins with a slash and from
the working directory otherwise. All names but the last have to lead to
directories; a name that is too long is refused where it is looked up. A path
that ends with a slash or in dots can only mean a directory.
-/

namespace IrOptimizer

/-- Files and directories by their paths from the root, which is there without
being listed, and the names that lead to the working directory. -/
structure FileTree where
  files : Dictionary ByteArray
  directories : NameSet
  workingDirectory : List String

namespace FileTree

/-! ## Reasons for a failure -/

def missingReason : String := "No such file or directory (os error 2)"
def notDirectoryReason : String := "Not a directory (os error 20)"
def directoryReason : String := "Is a directory (os error 21)"
def tooLongReason : String := "File name too long (os error 36)"

/-! ## Paths -/

/-- A path with the names between its slashes. -/
structure Path where
  fromRoot : Bool
  names : List String
  endsWithSlash : Bool
deriving DecidableEq

/-- How many bytes a path may have. -/
def maxPathSize : Nat := 4095

/-- How many bytes a name may have. -/
def maxNameSize : Nat := 255

/-- Reads a path; slashes in a row count as one. The empty path leads nowhere. -/
def Path.read (text : String) : Except String Path :=
  if text.isEmpty then .error missingReason
  else if maxPathSize < text.utf8ByteSize then .error tooLongReason
  else
    let parts := text.toList.splitOn '/'
    .ok ⟨parts.head? = some [], (parts.filter (· ≠ [])).map String.ofList,
      parts.getLast? = some []⟩

/-- Whether a name stands for the directory it is looked up in, or for the outer one. -/
def isDots (name : String) : Bool := name = "." || name = ".."

/-- The path of a place from the root. A place is listed with its last name first. -/
def pathOf (place : List String) : String :=
  String.intercalate "/" place.reverse

/-- What a name is bound to in a directory. -/
inductive Entry where
  | directory
  | file (content : ByteArray)
  | nothing

/-- Looks a name up in the directory at a place. -/
def entry (t : FileTree) (place : List String) (name : String) : Except String Entry :=
  if maxNameSize < name.utf8ByteSize then .error tooLongReason
  else if t.directories.contains (pathOf (name :: place)) then .ok .directory
  else
    match t.files.find? (pathOf (name :: place)) with
    | some content => .ok (.file content)
    | none => .ok .nothing

/-- Goes from a directory to another. Outside the root is the root itself. -/
def enter (t : FileTree) (place : List String) (name : String) : Except String (List String) :=
  if name = "." then .ok place
  else if name = ".." then .ok place.tail
  else
    match t.entry place name with
    | .ok .directory => .ok (name :: place)
    | .ok (.file _) => .error notDirectoryReason
    | .ok .nothing => .error missingReason
    | .error reason => .error reason

/-- The directory in which the last name of a path is looked up. -/
def parentPlace (t : FileTree) (path : Path) : Except String (List String) :=
  path.names.dropLast.foldlM t.enter (if path.fromRoot then [] else t.workingDirectory.reverse)

/-! ## Files -/

/-- The content of a file. A directory can be opened, but not read. -/
def open? (t : FileTree) (text : String) : Except String Stream := do
  let path ← Path.read text
  let place ← t.parentPlace path
  let directory : Stream := ⟨.empty, some directoryReason⟩
  match path.names.getLast? with
  | none => pure directory
  | some name =>
    if isDots name || path.endsWithSlash then
      let _ ← t.enter place name
      pure directory
    else
      match ← t.entry place name with
      | .directory => pure directory
      | .file content => pure ⟨content, none⟩
      | .nothing => throw missingReason

/-- The file, by its path from the root, that writing to a path changes or creates. -/
def target? (t : FileTree) (text : String) : Except String String := do
  let path ← Path.read text
  let place ← t.parentPlace path
  match path.names.getLast? with
  | none => throw directoryReason
  | some name =>
    if isDots name || path.endsWithSlash then throw directoryReason
    else
      match ← t.entry place name with
      | .directory => throw directoryReason
      | .file _ | .nothing => pure (pathOf (name :: place))

/-! ## Trees around a working directory -/

/-- The directories that a path from the root goes through, and the path itself. -/
def ancestors (names : List String) : List String :=
  (List.range names.length).map fun n => String.intercalate "/" (names.take (n + 1))

/-- The names between the slashes of a path from the root. -/
def namesOf (path : String) : List String :=
  (path.toList.splitOn '/').map String.ofList

/-- The tree with the given files and directories, named by their paths from the
root, and with all directories that these and the working directory lie in. -/
def ofList (files : List (String × ByteArray)) (directories : List String)
    (workingDirectory : List String) : FileTree :=
  let outer := files.flatMap fun file => ancestors (namesOf file.1).dropLast
  let listed := directories.flatMap fun path => ancestors (namesOf path)
  ⟨.ofList files, .ofList (ancestors workingDirectory ++ outer ++ listed), workingDirectory⟩

/-- The path from the root of what the working directory holds under a name. -/
def inside (workingDirectory : List String) (name : String) : String :=
  String.intercalate "/" (workingDirectory ++ [name])

/-- The files in the working directory and below, by their paths from there. -/
def localFiles (t : FileTree) : List (String × ByteArray) :=
  let start := (inside t.workingDirectory "").toList
  t.files.entries.filterMap fun (path, content) =>
    if start.isPrefixOf path.toList then some (String.ofList (path.toList.drop start.length), content)
    else none

end FileTree

/-- A file tree with the standard streams of one run. -/
structure World where
  tree : FileTree
  input : Stream
  output : String
  errors : String

namespace World

/-- Puts a text into a file. -/
def putFile (w : World) (name : String) (bytes : ByteArray) : World :=
  { w with tree := { w.tree with files := w.tree.files.insert name bytes } }

/-- The host whose files are those of a tree. -/
def host : Host (StateM World) where
  openFile path := do
    match (← get).tree.open? path with
    | .ok content => pure (.ok (pure content))
    | .error reason => pure (.error reason)
  standardInput := do pure (← get).input
  createFile path := do
    match (← get).tree.target? path with
    | .error reason => pure (.error reason)
    | .ok name =>
      modify (·.putFile name .empty)
      pure (.ok fun text => do
        modify (·.putFile name text.toUTF8)
        pure (.ok ()))
  writeOutput text := do
    modify fun w => { w with output := w.output ++ text }
    pure (.ok ())
  writeError text := modify fun w => { w with errors := w.errors ++ text }

/-- A run of the command in a world: its exit status, and the world behind it. -/
def runCommand (w : World) (words : Wording) (args : List String) (environment : Option String) :
    UInt32 × World :=
  (Command.run words host args environment).run w

end World

end IrOptimizer

/-!
# Files and folders

What reading a path gives, and the names that files give to modules. A folder in memory is a tree of
files and folders, in which paths lead from one folder to another.

* `FileNode`: a file or a folder.
* `FileNode.follow`: where a path leads.
* `Files.ofTexts`: the files of a folder that is known by their texts.
-/

namespace ScriptEngine

/-- The parts of a path between slashes. A part that only stays where it is does not count. -/
def pathParts (path : String) : List String :=
  (path.splitOn "/").filter fun part => part != "" && part != "."

/-- The name of the module in a file: the last part of the path without its extension. A dot that
begins the name begins no extension. -/
def moduleName? (path : String) : Option String :=
  match (pathParts path).getLast? with
  | none | some ".." => none
  | some file =>
    match file.splitOn "." with
    | parts@(_ :: _ :: _) =>
      let stem := ".".intercalate parts.dropLast
      some (if stem == "" then file else stem)
    | _ => some file

/-- The files that a command may read. -/
structure Files where
  /-- The text of the file at a path, or why there is none. -/
  read : String → Except String String

/-- Files of which is known what reading their paths gives. -/
def Files.ofList (known : List (String × Except String String)) : Files where
  read path := (known.lookup path).getD (.error "the path has not been read")

/-! ## Folders in memory -/

/-- Why a path cannot be read. -/
inductive PathError
  | missing
  /-- Something that is no folder has a part of the path behind it. -/
  | notFolder
  /-- The path leads to a folder. -/
  | folder
  | nameTooLong
deriving Repr, DecidableEq

/-- The words of the system for an error. -/
def PathError.message : PathError → String
  | .missing => "No such file or directory (os error 2)"
  | .notFolder => "Not a directory (os error 20)"
  | .folder => "Is a directory (os error 21)"
  | .nameTooLong => "File name too long (os error 36)"

/-- A file with its text, or a folder with what it holds by name. -/
inductive FileNode
  | file (text : String)
  | folder (entries : List (String × FileNode))

namespace FileNode

/-- A folder that holds nothing. -/
def emptyFolder : FileNode := .folder []

/-- Puts an entry in the place of that of the same name. -/
def putEntry (name : String) (node : FileNode) :
    List (String × FileNode) → List (String × FileNode)
  | [] => [(name, node)]
  | (other, old) :: rest =>
    if other == name then (name, node) :: rest else (other, old) :: putEntry name node rest

/-- Writes a file at the end of some names, and the folders on the way to it. -/
def write (text : String) : List String → FileNode → FileNode
  | [], _ => .file text
  | name :: names, node =>
    let entries := match node with
      | .folder entries => entries
      | .file _ => []
    .folder (putEntry name (write text names ((entries.lookup name).getD emptyFolder)) entries)

/-- How many bytes a part of a path may have. -/
def longestName : Nat := 255

/-- How many bytes a path may have. -/
def longestPath : Nat := 4095

/-- Where the parts of a path lead from a node, behind which stand the folders around it, the
nearest first. An empty part stays where it is, in a folder. -/
def follow : List String → FileNode → List FileNode → Except PathError FileNode
  | [], node, _ => .ok node
  | _ :: _, .file _, _ => .error .notFolder
  | part :: parts, .folder entries, around =>
    if part == "" || part == "." then follow parts (.folder entries) around
    else if part == ".." then
      match around with
      | [] => follow parts (.folder entries) []
      | outer :: around => follow parts outer around
    else if longestName < part.utf8ByteSize then .error .nameTooLong
    else
      match entries.lookup part with
      | some node => follow parts node (.folder entries :: around)
      | none => .error .missing

/-- The text of the file at a path, which begins at the last of the folders around if it begins with
a slash. -/
def readText (node : FileNode) (around : List FileNode) (path : String) :
    Except PathError String := do
  if path.isEmpty then .error .missing
  else if longestPath < path.utf8ByteSize then .error .nameTooLong
  else
    let parts := path.splitOn "/"
    let found ← if "/".isPrefixOf path then follow parts (around.getLastD node) []
      else follow parts node around
    match found with
    | .file text => .ok text
    | .folder _ => .error .folder

end FileNode

/-- The folders around one in which commands are run: one for such folders, and the outermost one of
the system. -/
def FileNode.system : List FileNode :=
  let folders := ["bin", "etc", "home", "lib", "opt", "proc", "root", "sys", "tmp", "usr", "var"]
  [.emptyFolder,
    .folder (("dev", .folder [("null", .file "")]) :: folders.map fun name => (name, .emptyFolder))]

/-- The files of a folder with these texts, of which a later one replaces an earlier one of the same
name. -/
def Files.ofTexts (texts : List (String × String)) : Files where
  read path :=
    let folder := texts.foldl (fun folder (name, text) => folder.write text (pathParts name))
      FileNode.emptyFolder
    (folder.readText FileNode.system path).mapError PathError.message

end ScriptEngine

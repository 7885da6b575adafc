import SchemaSnippets.Data.Entries
import SchemaSnippets.Files.Path
import SchemaSnippets.Text.Utf8

/-!
# File trees

Directories and files without links, each under the names that lead to it from the root. A lookup
starts at the working directory, or at the root for an absolute path, and goes through directories
only.

* `FileTree.locate`: where a path leads.
* `FileTree.readText?`, `isFile`, `exists?`: what is there.
* `FileTree.ensureDirectory`, `FileTree.writeFile`, `FileTree.save`: what can be put there.
* `FileAccess`: what the program asks of a file system. A file tree answers in a state monad; the
  command line answers with the files of the machine.
-/

namespace SchemaSnippets.Files
open Data

/-- The content of a file: a text, or bytes that are none. -/
inductive FileContent where
  | text (s : String)
  | binary (bytes : List UInt8)
deriving DecidableEq, Repr

namespace FileContent

def ofBytes (bytes : List UInt8) : FileContent :=
  match Text.decode? bytes with
  | some s => .text s
  | none => .binary bytes

/-- The text of the content. -/
def text? : FileContent → Option String
  | .text s => some s
  | .binary _ => none

/-- The content as a text, faults in it replaced. -/
def shown : FileContent → String
  | .text s => s
  | .binary bytes => Text.decodeLossy bytes

end FileContent

inductive FileNode where
  | directory
  | file (content : FileContent)
deriving DecidableEq, Repr

structure FileTree where
  workingDirectory : List String
  nodes : List (List String × FileNode)
deriving DecidableEq, Repr

/-- Where a path leads: to something, to a free place in a directory, to a place that has no directory,
or where nothing can be, such as past a file as if it were a directory. -/
inductive Place where
  | taken (names : List String) (node : FileNode)
  | free (names : List String)
  | astray
  | blocked
deriving DecidableEq, Repr

/-- Why a file was not saved: its directory could not be made, or the file not written. -/
inductive SaveError where
  | directory (path : String)
  | file (path : String)
deriving DecidableEq, Repr

def SaveError.message : SaveError → String
  | .directory path => s!"failed to create directory {path}"
  | .file path => s!"failed to write {path}"

namespace FileTree

/-- An empty working directory two levels below the root. -/
def fresh : FileTree :=
  ⟨["work", "session"], [(["work"], .directory), (["work", "session"], .directory)]⟩

/-- What stands under the given names. The root is a directory. -/
def node? (t : FileTree) (names : List String) : Option FileNode :=
  if names.isEmpty then some .directory else t.nodes.lookup names

/-- The tree with something put under the given names. -/
def put (t : FileTree) (names : List String) (n : FileNode) : FileTree :=
  { t with nodes := setEntry names n t.nodes }

/-- Whether something can stand under a name: a name has at most 255 bytes. -/
def isName (part : String) : Bool :=
  part.utf8ByteSize ≤ 255

/-- Where some parts lead from a directory. -/
def locateFrom (t : FileTree) (names : List String) : List String → Place
  | [] => .taken names .directory
  | part :: ps =>
    if part = "." then t.locateFrom names ps
    else if part = ".." then t.locateFrom names.dropLast ps
    else if !isName part then .blocked
    else
      match t.node? (names ++ [part]) with
      | some .directory => t.locateFrom (names ++ [part]) ps
      | some (.file c) => if ps.isEmpty then .taken (names ++ [part]) (.file c) else .blocked
      | none => if ps.isEmpty then .free (names ++ [part]) else .astray

/-- Where a path leads. The empty path leads nowhere, a slash at the end asks for a directory, and no
path holds a null character. -/
def locate (t : FileTree) (path : String) : Place :=
  if path = "" then .astray
  else if path.toList.contains '\x00' then .blocked
  else
    match t.locateFrom (if isAbsolute path then [] else t.workingDirectory) (parts path) with
    | .taken names (.file c) => if endsWithSlash path then .blocked else .taken names (.file c)
    | place => place

/-! ## Looking -/

def exists? (t : FileTree) (path : String) : Bool :=
  match t.locate path with
  | .taken _ _ => true
  | _ => false

def isFile (t : FileTree) (path : String) : Bool :=
  match t.locate path with
  | .taken _ (.file _) => true
  | _ => false

def isDirectory (t : FileTree) (path : String) : Bool :=
  match t.locate path with
  | .taken _ .directory => true
  | _ => false

/-- The text of a file. -/
def readText? (t : FileTree) (path : String) : Option String :=
  match t.locate path with
  | .taken _ (.file c) => c.text?
  | _ => none

/-! ## Changing -/

/-- The tree with the directory of a path, whose parents are made as needed, and whether it is there
then. Directories made on the way stay even if it is not. `fuel` bounds the number of parents. -/
def ensureDirectory : Nat → FileTree → String → FileTree × Bool
  | 0, t, _ => (t, false)
  | fuel + 1, t, path =>
    if components path = [] then (t, true)
    else
      match t.locate path with
      | .taken _ .directory => (t, true)
      | .taken _ (.file _) => (t, false)
      | .blocked => (t, false)
      | .free names => (t.put names .directory, true)
      | .astray =>
        match parent? path with
        | none => (t, false)
        | some parent =>
          match ensureDirectory fuel t parent with
          | (t, false) => (t, false)
          | (t, true) =>
            match t.locate path with
            | .taken _ .directory => (t, true)
            | .free names => (t.put names .directory, true)
            | _ => (t, false)

/-- The tree with a file, in a directory that is there. -/
def write? (t : FileTree) (path : String) (c : FileContent) : Option FileTree :=
  match t.locate path with
  | .taken names (.file _) => some (t.put names (.file c))
  | .free names => if endsWithSlash path then none else some (t.put names (.file c))
  | _ => none

/-- The tree with a file whose directories are made as needed, or the reason why it is not there. -/
def writeFile (t : FileTree) (path : String) (c : FileContent) : FileTree × Except SaveError Unit :=
  match parent? path with
  | none => (t.write? path c).elim (t, .error (.file path)) fun t => (t, .ok ())
  | some parent =>
    match ensureDirectory (path.length + 1) t parent with
    | (t, false) => (t, .error (.directory parent))
    | (t, true) => (t.write? path c).elim (t, .error (.file path)) fun t => (t, .ok ())

/-- Writes a file unless `keep` is set and something is there. Tells whether it was written. -/
def save (keep : Bool) (path content : String) (t : FileTree) : FileTree × Except SaveError Bool :=
  if keep && t.exists? path then (t, .ok false)
  else
    match t.writeFile path (.text content) with
    | (t, .ok ()) => (t, .ok true)
    | (t, .error e) => (t, .error e)

/-- What is below the working directory: each node with the path that leads to it. -/
def listing (t : FileTree) : List (String × FileNode) :=
  t.nodes.filterMap fun (names, n) =>
    if t.workingDirectory.isPrefixOf names && t.workingDirectory.length < names.length then
      some ("/".intercalate (names.drop t.workingDirectory.length), n)
    else none

end FileTree

/-! ## Access to files -/

class FileAccess (m : Type → Type) where
  /-- The text of a file, if it can be read and is a text. -/
  readText? : String → m (Option String)
  /-- Whether a path leads to a file. -/
  isFile : String → m Bool
  /-- Writes a file, making its directories, unless the flag is set and something is there. Tells
  whether it was written. -/
  save : Bool → String → String → m (Except SaveError Bool)

instance : FileAccess (StateM FileTree) where
  readText? path := fun t => (t.readText? path, t)
  isFile path := fun t => (t.isFile path, t)
  save keep path content := fun t =>
    let (t, r) := t.save keep path content
    (r, t)

end SchemaSnippets.Files

import SchemaSnippets.Files.Tree
import SchemaSnippets.Toml.Reader

/-!
# Settings

What a configuration file sets: the languages that snippets are made for when none are asked for, the
client that runs queries, and whether documentation is shown. The file holds one table, `generate`,
and no key that is not known.

Settings come from a file that is named, else from the configuration file of a directory if there is
one, and are the default ones otherwise.
-/

namespace SchemaSnippets.Config
open Files Toml

structure Settings where
  languages : List String
  client : String
  docs : Bool
deriving DecidableEq, Repr

namespace Settings

/-- The settings without a configuration file. -/
def default : Settings :=
  ⟨["typescript"], "client", true⟩

/-- The name of the configuration file in a directory. -/
def fileName : String :=
  "typesnip.toml"

def languages? : Node → Option (List String)
  | .array items => items.mapM fun
    | .string s => some s
    | _ => none
  | _ => none

def client? : Node → Option String
  | .string s => some s
  | _ => none

def docs? : Node → Option Bool
  | .bool b => some b
  | _ => none

/-- The settings with one more key set. -/
def set? (s : Settings) : String × Node → Option Settings
  | ("languages", v) => (languages? v).map fun x => { s with languages := x }
  | ("client", v) => (client? v).map fun x => { s with client := x }
  | ("docs", v) => (docs? v).map fun x => { s with docs := x }
  | _ => none

/-- The settings of the `generate` table. It may also be an array of values in the order of the keys,
of which the last ones may be left off and further ones do not count. -/
def ofNode? : Node → Option Settings
  | .table _ entries => entries.foldlM set? default
  | .array items => (["languages", "client", "docs"].zip items).foldlM set? default
  | _ => none

/-- The settings that a configuration file's text makes. -/
def ofText? (text : String) : Option Settings :=
  match Toml.ofText? text with
  | some [] => some default
  | some [("generate", node)] => ofNode? node
  | _ => none

end Settings

/-! ## Loading -/

inductive SettingsError where
  | unreadable (path : String)
  | invalid (path : String)
deriving DecidableEq, Repr

def SettingsError.message : SettingsError → String
  | .unreadable path => s!"failed to read {path}"
  | .invalid path => s!"invalid config in {path}"

namespace Settings
variable {m : Type → Type} [Monad m] [FileAccess m]

/-- The settings of a file. -/
def ofFile (path : String) : m (Except SettingsError Settings) := do
  match ← FileAccess.readText? path with
  | none => return .error (.unreadable path)
  | some text =>
    match ofText? text with
    | none => return .error (.invalid path)
    | some s => return .ok s

/-- The settings of the named file, or of the directory. -/
def load (named : Option String) (dir : String) : m (Except SettingsError Settings) := do
  match named with
  | some path => ofFile path
  | none =>
    let path := join dir fileName
    if ← FileAccess.isFile path then ofFile path else return .ok default

end Settings

end SchemaSnippets.Config

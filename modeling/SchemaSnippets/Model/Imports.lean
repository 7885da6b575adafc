import SchemaSnippets.Data.Entries

/-!
# Imports

The modules that a snippet imports in the order of their first use, each with its imported symbols in
increasing order. A module may be imported without any symbol.
-/

namespace SchemaSnippets.Model
open Data

/-- Modules with their symbols. -/
structure Imports where
  modules : List (String × List String)
deriving DecidableEq, Repr

namespace Imports

def empty : Imports := ⟨[]⟩

def isEmpty (i : Imports) : Bool :=
  i.modules.isEmpty

/-- The symbols of a module; none if it is not imported. -/
def symbols (i : Imports) (module : String) : List String :=
  (i.modules.lookup module).getD []

/-- A symbol of a module. -/
def add (i : Imports) (module symbol : String) : Imports :=
  ⟨setEntry module (insertSorted symbol (i.symbols module)) i.modules⟩

/-- A module for itself. -/
def addModule (i : Imports) (module : String) : Imports :=
  ⟨setEntry module (i.symbols module) i.modules⟩

/-- Several symbols with their modules. -/
def addAll (i : Imports) (pairs : List (String × String)) : Imports :=
  pairs.foldl (fun i p => i.add p.1 p.2) i

def has (i : Imports) (module symbol : String) : Bool :=
  (i.symbols module).contains symbol

end Imports

end SchemaSnippets.Model

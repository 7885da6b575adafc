import SchemaSnippets.Data.Entries
import SchemaSnippets.Schema.Types
import SchemaSnippets.Target.Naming

/-!
# Declaration names

The name of each declaration in one snippet. A short name that no other declaration shares stays; the
others get their scope in front, and a number if that is taken too. Names are given in the order of
the declarations, all the unshared ones being taken from the start.
-/

namespace SchemaSnippets.Model
open Data Schema Target

/-- The names of declarations by the keys of their types. -/
structure DeclarationNames where
  names : List (String × String)
deriving DecidableEq, Repr

namespace DeclarationNames

/-- The name of a declaration, if nothing shares it. -/
def shortName (c : NameRules) (n : QualifiedName) : String :=
  c.declarationName n.short

/-- The name of a declaration whose short name is shared. -/
def scopedName (c : NameRules) (n : QualifiedName) : String :=
  if n.scope = "" then shortName c n else c.declarationName (n.scope ++ "." ++ n.short)

/-- Whether exactly one of the names has the given short name. -/
def isUnshared (shorts : List String) (short : String) : Bool :=
  shorts.count short == 1

/-- Names being given: those already taken, and the entries so far. -/
structure Assignment where
  taken : List String
  names : List (String × String)

/-- Gives the next declaration its name. -/
def Assignment.assign (c : NameRules) (shorts : List String) (a : Assignment)
    (n : QualifiedName) : Assignment :=
  let short := shortName c n
  if isUnshared shorts short then { a with names := setEntry n.key short a.names }
  else
    let candidate := scopedName c n
    let name := freshName a.taken candidate fun i => candidate ++ toString i
    ⟨name :: a.taken, setEntry n.key name a.names⟩

/-- The names of some declarations, in order. -/
def ofNames (c : NameRules) (ns : List QualifiedName) : DeclarationNames :=
  let shorts := ns.map (shortName c)
  ⟨(ns.foldl (Assignment.assign c shorts) ⟨shorts.filter (isUnshared shorts), []⟩).names⟩

/-- The name of the declaration with the given key. -/
def get? (t : DeclarationNames) (key : String) : Option String :=
  t.names.lookup key

def size (t : DeclarationNames) : Nat :=
  t.names.length

end DeclarationNames

end SchemaSnippets.Model

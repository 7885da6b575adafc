import SchemaSnippets.Data.Entries

/-!
# Tables of a TOML document

A document is a table that its statements fill in. A table is opened at most once by a header; what
dotted keys have made is extended by dotted keys only, and a table written as a value is closed.

* `insertPair?`: a key, dotted or not, with its value.
* `openTable?`, `openArrayItem?`: the headers `[a.b]` and `[[a.b]]`.
-/

namespace SchemaSnippets.Toml
open Data

/-- How a table came about: as a value, as part of a longer header, by dotted keys, by its header. -/
inductive Origin where
  | closed | implied | dotted | headed
deriving DecidableEq, Repr

/-- What a key holds. Numbers and dates are checked for their form and not looked at any further. -/
inductive Node where
  | string (text : String)
  | bool (b : Bool)
  | plain (literal : String)
  | array (items : List Node)
  | table (origin : Origin) (entries : List (String × Node))
  | tables (items : List (List (String × Node)))
deriving Inhabited

/-- Keys with what they hold, in the order of their first use. -/
abbrev Entries := List (String × Node)

/-- The entries with a value for a key that is new. Dotted keys lead through tables that dotted keys
have made, or that are only implied and not what the last key is put into. -/
def insertPair? : List String → Node → Entries → Option Entries
  | [], _, _ => none
  | [k], v, es => if (es.lookup k).isSome then none else some (es ++ [(k, v)])
  | k :: ks, v, es =>
    match es.lookup k with
    | none => (insertPair? ks v []).map fun sub => es ++ [(k, .table .dotted sub)]
    | some (.table .dotted sub) =>
      (insertPair? ks v sub).map fun sub => setEntry k (.table .dotted sub) es
    | some (.table .implied sub) =>
      if ks.length ≤ 1 then none
      else (insertPair? ks v sub).map fun sub => setEntry k (.table .implied sub) es
    | some _ => none

/-- The entries with `f` applied where a path of headers leads: through tables that are not closed,
and through the last item of an array of tables. -/
def descend? (f : Entries → Option Entries) : List String → Entries → Option Entries
  | [], es => f es
  | k :: ks, es =>
    match es.lookup k with
    | none => (descend? f ks []).map fun sub => es ++ [(k, .table .implied sub)]
    | some (.table origin sub) =>
      if origin = .closed then none
      else (descend? f ks sub).map fun sub => setEntry k (.table origin sub) es
    | some (.tables items) =>
      match items.getLast? with
      | none => none
      | some last =>
        (descend? f ks last).map fun last => setEntry k (.tables (items.dropLast ++ [last])) es
    | some _ => none

/-- Opens the table of a key, which nothing else has made. -/
def openTable? (k : String) (es : Entries) : Option Entries :=
  match es.lookup k with
  | none => some (es ++ [(k, .table .headed [])])
  | some (.table .implied sub) => some (setEntry k (.table .headed sub) es)
  | some _ => none

/-- Adds a table to the array of tables of a key. -/
def openArrayItem? (k : String) (es : Entries) : Option Entries :=
  match es.lookup k with
  | none => some (es ++ [(k, .tables [[]])])
  | some (.tables items) => some (setEntry k (.tables (items ++ [[]])) es)
  | some _ => none

/-- A statement of a document. -/
inductive Statement where
  | pair (keys : List String) (value : Node)
  | table (keys : List String)
  | arrayItem (keys : List String)

/-- A document being filled in: its entries, and the header that is in force. -/
structure Filling where
  header : List String
  entries : Entries

/-- The effect of a statement. -/
def Filling.step? (f : Filling) : Statement → Option Filling
  | .pair keys v =>
    (descend? (insertPair? keys v) f.header f.entries).map fun es => { f with entries := es }
  | .table keys => do
    let last ← keys.getLast?
    let es ← descend? (openTable? last) keys.dropLast f.entries
    return ⟨keys, es⟩
  | .arrayItem keys => do
    let last ← keys.getLast?
    let es ← descend? (openArrayItem? last) keys.dropLast f.entries
    return ⟨keys, es⟩

/-- The table that statements fill in. -/
def ofStatements? (ss : List Statement) : Option Entries :=
  (ss.foldlM Filling.step? ⟨[], []⟩).map (·.entries)

end SchemaSnippets.Toml

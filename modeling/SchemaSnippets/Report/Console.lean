import SchemaSnippets.Target.Basic

/-!
# Console output

A report is a list of lines, each for standard output or for standard error. Errors and warnings go
to standard error, so that the rest can be pasted. The list of languages, which needs no request, has
the known targets with the number of primitives that each has a type for.
-/

namespace SchemaSnippets.Report
open Schema

/-- A line of a report; it may hold line ends of its own. -/
inductive ConsoleLine where
  | out (text : String)
  | err (text : String)
deriving DecidableEq, Repr

namespace ConsoleLine

/-- The heading of a section. -/
def heading (name : String) : ConsoleLine := .out (name ++ ":")

/-- A key with its value, indented. -/
def keyValue (key value : String) : ConsoleLine := .out ("  " ++ key ++ ": " ++ value)

def item (text : String) : ConsoleLine := .out ("  - " ++ text)

/-- An item that is new. -/
def addedItem (text : String) : ConsoleLine := .out ("  + " ++ text)

/-- A rule with a label in it. -/
def divider (label : String) : ConsoleLine := .out ("── " ++ label ++ " ──")

def blank : ConsoleLine := .out ""

def error (message : String) : ConsoleLine := .err ("error: " ++ message)

def warning (message : String) : ConsoleLine := .err ("warning: " ++ message)

/-- What the line adds to standard output. -/
def outText : ConsoleLine → String
  | .out s => s ++ "\n"
  | .err _ => ""

/-- What the line adds to standard error. -/
def errText : ConsoleLine → String
  | .out _ => ""
  | .err s => s ++ "\n"

end ConsoleLine

/-- The standard output of some lines. -/
def stdoutOf (lines : List ConsoleLine) : String :=
  String.join (lines.map (·.outText))

/-- The standard error of some lines. -/
def stderrOf (lines : List ConsoleLine) : String :=
  String.join (lines.map (·.errText))

/-! ## The list of languages -/

/-- A target in the list. -/
def languageLine (t : Target) : ConsoleLine :=
  let p := t.profile
  let name := p.id ++ " (." ++ p.extension ++ ")"
  if p.declaresModel then
    .item (name ++ ", " ++ toString p.types.mapped.length ++ " of "
      ++ toString Primitive.scalars.length ++ " primitives mapped")
  else .item (name ++ ", query only")

def languageLines : List ConsoleLine :=
  [.heading "Languages"] ++ Target.known.map languageLine
    ++ [.blank, .out "Other ids are generated with untyped placeholders."]

end SchemaSnippets.Report

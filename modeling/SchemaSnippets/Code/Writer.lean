import SchemaSnippets.Text.Lines

/-!
# Indented code

Code is written line by line at a level of indentation. Blank lines and raw text are not indented.
`Writer.text` is what has been written; `text_line` says what a line adds to it.
-/

namespace SchemaSnippets.Code

/-- A text being written: the width of a level, the current level, and the text so far. -/
structure Writer where
  width : Nat
  level : Nat
  text : String
deriving DecidableEq, Repr

namespace Writer

/-- A writer with nothing written. -/
def empty (width : Nat) : Writer :=
  ⟨width, 0, ""⟩

def isEmpty (w : Writer) : Bool :=
  w.text.isEmpty

/-- The blanks before a line. -/
def indentation (w : Writer) : String :=
  String.ofList (List.replicate (w.width * w.level) ' ')

/-- Text as it is. -/
def raw (w : Writer) (s : String) : Writer :=
  { w with text := w.text ++ s }

/-- A line at the current level. -/
def line (w : Writer) (s : String) : Writer :=
  w.raw (w.indentation ++ s ++ "\n")

/-- An empty line. -/
def blank (w : Writer) : Writer :=
  w.raw "\n"

/-- The lines of a text, each at the current level. -/
def lines (w : Writer) (s : String) : Writer :=
  (Text.lines s).foldl (fun w l => if l = "" then w.blank else w.line l) w

def indent (w : Writer) : Writer :=
  { w with level := w.level + 1 }

/-- One level less; the outermost level stays. -/
def dedent (w : Writer) : Writer :=
  { w with level := w.level - 1 }

/-- A doc comment: on one line for one line of text, as a block for several. -/
def docComment (w : Writer) : List String → Writer
  | [] => w
  | [s] => w.line ("/** " ++ s ++ " */")
  | ss => (ss.foldl (fun w s => w.line (" * " ++ s)) (w.line "/**")).line " */"

/-- A line, what `body` writes one level deeper, and a closing line. -/
def block (w : Writer) (header close : String) (body : Writer → Writer) : Writer :=
  (body (w.line header).indent).dedent.line close

/-- What `f` writes for each item. -/
def each {α : Type} (w : Writer) (items : List α) (f : Writer → α → Writer) : Writer :=
  items.foldl f w

@[simp] theorem text_line (w : Writer) (s : String) :
    (w.line s).text = w.text ++ (w.indentation ++ s ++ "\n") := rfl

end Writer

end SchemaSnippets.Code

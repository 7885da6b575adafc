/-!
# Paths

Paths are texts whose parts are divided by `/`. They are kept as they were given, and looked at part
by part: empty parts do not count, and neither does `.` behind the beginning.

* `join`: a path inside a directory.
* `parent?`: the path without its last part, for the directory that holds a file.
* `parts`: what a lookup goes through.
-/

namespace SchemaSnippets.Files

/-- The stretches between the slashes; there is one more than there are slashes. -/
def splitSlash : List Char → List (List Char)
  | [] => [[]]
  | c :: cs =>
    if c = '/' then [] :: splitSlash cs
    else
      match splitSlash cs with
      | [] => [[c]]
      | p :: ps => (c :: p) :: ps

def isAbsolute (path : String) : Bool :=
  path.toList.head? == some '/'

def endsWithSlash (path : String) : Bool :=
  path.toList.getLast? == some '/'

/-- The path inside `dir`. An absolute path stands for itself. -/
def join (dir path : String) : String :=
  if isAbsolute path then path
  else if dir = "" ∨ endsWithSlash dir then dir ++ path
  else dir ++ "/" ++ path

/-- The parts that a lookup goes through, empty ones left out. -/
def parts (path : String) : List String :=
  ((splitSlash path.toList).filter (!·.isEmpty)).map String.ofList

/-- A part that does not move a lookup. -/
def isIdle (part : List Char) : Bool :=
  part.isEmpty || part == ['.']

/-- What a path begins with that is no part of its own: the root, or the directory it starts from. -/
def splitStart : List Char → List Char × List Char
  | '/' :: cs => (['/'], cs)
  | ['.'] => (['.'], [])
  | '.' :: '/' :: cs => (['.'], '/' :: cs)
  | cs => ([], cs)

/-- The parts without idle ones at the end. -/
def dropIdle (ps : List (List Char)) : List (List Char) :=
  (ps.reverse.dropWhile isIdle).reverse

/-- The path without its last part and what is idle around it. The root and the empty path have no
parent. -/
def parent? (path : String) : Option String :=
  let (start, rest) := splitStart path.toList
  match dropIdle (splitSlash rest) with
  | [] => if start = ['.'] then some "" else none
  | ps => some (String.ofList (start ++ ['/'].intercalate (dropIdle ps.dropLast)))

/-- The parts by which two paths are told apart. -/
def components (path : String) : List (List Char) :=
  let (start, rest) := splitStart path.toList
  (if start.isEmpty then [] else [start]) ++ (splitSlash rest).filter (!isIdle ·)

end SchemaSnippets.Files

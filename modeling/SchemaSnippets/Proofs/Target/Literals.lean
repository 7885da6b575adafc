import SchemaSnippets.Proofs.Target.Lexis

/-!
# Literals read back

What a compiler reads where a text is written as a literal with escapes: string literals, which stay on
one line, and template literals.

* `LiteralReader` : what a literal stands for, and what is left behind it; `HoldsLiteral` : code with a
  literal that is read as a text;
* `EscapedSyntax` : literals between two marks, with escapes; `EscapedSyntax.read?` : reading them;
* `EscapedSyntax.Spells` : how a character is written; `read?_between` : a text that is written character by
  character is read as itself unless a line ends in it;
* `holds_template_query` : the query of a snippet in TypeScript is read as it is;
* `read?_of_writesLiteral` : the string literals of TypeScript and Kotlin are read as their texts exactly
  when these have no line ends, which are not escaped.
-/

namespace SchemaSnippets.Code.Writer

/-- The lines of a query, with an empty line between them. -/
theorem text_line_blank_line (width : Nat) (s t : String) :
    ((((empty width).line s).blank).line t).text = s ++ ("\n\n" ++ t ++ "\n") := by
  rw [empty, line_outermost]
  show ((Writer.mk width 0 _).line t).text = _
  rw [line_outermost]
  simp [← String.toList_inj]

end SchemaSnippets.Code.Writer

namespace SchemaSnippets.Target
open Code Json Model

/-- What a literal at the front of a text stands for, and what is behind it. -/
abbrev LiteralReader :=
  List Char → Option (List Char × List Char)

/-- Code in which a literal stands between `before` and `after`. It is read as the text `s`, and up to
where `after` begins; so it is when nothing follows. -/
structure HoldsLiteral (read? : LiteralReader) (code before literal after s : String) : Prop where
  code_eq : code = before ++ literal ++ after
  reads : read? (literal.toList ++ after.toList) = some (s.toList, after.toList)
  reads_alone : read? literal.toList = some (s.toList, [])

/-- What is read, with a character before it. -/
def prepend (c : Char) : Option (List Char × List Char) → Option (List Char × List Char) :=
  Option.map fun (content, rest) => (c :: content, rest)

theorem prepend_some (c : Char) (content rest : List Char) :
    prepend c (some (content, rest)) = some (c :: content, rest) := rfl

theorem prepend_none (c : Char) : prepend c none = none := rfl

/-! ## Literals with escapes -/

/-- How a language writes a text between two marks, with a backslash before a character that would not
stand for itself. -/
structure EscapedSyntax where
  /-- What begins and ends a literal. -/
  mark : Char
  /-- Whether a character stands for itself behind a backslash. The others have another meaning there,
  or none. -/
  escapable : Char → Bool
  /-- The characters that end a line, if a literal has to stay on one line. -/
  lineEnds : List Char
  /-- What begins a template. -/
  templates : List (List Char)
  mark_ne : mark ≠ '\\' := by decide
  not_escapable : lineEnds.any escapable = false := by decide

namespace EscapedSyntax
variable (r : EscapedSyntax)

/-- Whether a character does not stand for itself: it ends the line or, with what is behind it, begins a
template. -/
def refuses (c : Char) (cs : List Char) : Bool :=
  r.lineEnds.contains c || r.templates.any (·.isPrefixOf (c :: cs))

/-- Reads up to the first mark without a backslash before it. -/
def readBody? : LiteralReader
  | [] => none
  | '\\' :: c :: cs => if r.escapable c then prepend c (readBody? cs) else none
  | c :: cs =>
    if c = r.mark then some ([], cs)
    else if r.refuses c cs then none
    else prepend c (readBody? cs)

/-- Reads a literal from its first mark to its last. -/
def read? : LiteralReader
  | [] => none
  | c :: cs => if c = r.mark then r.readBody? cs else none

variable {r}

theorem readBody?_escaped {c : Char} (h : r.escapable c) (cs : List Char) :
    r.readBody? ('\\' :: c :: cs) = prepend c (r.readBody? cs) := by
  rw [readBody?, if_pos h]

theorem readBody?_mark (cs : List Char) : r.readBody? (r.mark :: cs) = some ([], cs) := by
  rw [readBody?, if_pos rfl]
  exact fun _ _ hslash => absurd hslash r.mark_ne

/-- A character that is no mark and no backslash. -/
theorem readBody?_cons {c : Char} (hslash : c ≠ '\\') (hmark : c ≠ r.mark) (cs : List Char) :
    r.readBody? (c :: cs) = if r.refuses c cs then none else prepend c (r.readBody? cs) := by
  rw [readBody?, if_neg hmark]
  exact fun _ _ h => absurd h hslash

theorem read?_append {literal : String} {body : List Char}
    (h : literal.toList = r.mark :: body) (rest : List Char) :
    r.read? (literal.toList ++ rest) = r.readBody? (body ++ rest) := by
  rw [h, List.cons_append, read?, if_pos rfl]

/-- A character is written so that it is read as itself, if it does not end the line: behind a backslash, or
alone where it begins nothing else. -/
inductive Spells (r : EscapedSyntax) : Char → List Char → Prop where
  | escaped {c : Char} (h : r.escapable c) : r.Spells c ['\\', c]
  | plain {c : Char} (hslash : c ≠ '\\') (hmark : c ≠ r.mark)
      (htemplates : ∀ cs, r.templates.any (·.isPrefixOf (c :: cs)) = false) : r.Spells c [c]

theorem Spells.readBody?_append {c : Char} {piece : List Char} (h : r.Spells c piece)
    (cs : List Char) :
    r.readBody? (piece ++ cs) =
      if r.lineEnds.contains c then none else prepend c (r.readBody? cs) := by
  cases h with
  | escaped h =>
      have hends : ¬ r.lineEnds.contains c := fun hc =>
        List.any_eq_false.1 r.not_escapable c (List.contains_iff_mem.1 hc) h
      rw [if_neg hends]
      exact readBody?_escaped h cs
  | plain hslash hmark htemplates =>
      rw [List.singleton_append, readBody?_cons hslash hmark, refuses, htemplates, Bool.or_false]

/-- A text is read up to the mark behind it, unless a line ends in it. -/
theorem readBody?_flatMap {write : Char → List Char} (h : ∀ c, r.Spells c (write c))
    (cs rest : List Char) :
    r.readBody? (cs.flatMap write ++ r.mark :: rest) =
      if cs.any r.lineEnds.contains then none else some (cs, rest) := by
  induction cs with
  | nil => simpa using readBody?_mark rest
  | cons c cs ih =>
      rw [List.flatMap_cons, List.append_assoc, (h c).readBody?_append, ih, List.any_cons]
      by_cases hc : r.lineEnds.contains c
      · rw [if_pos hc, hc, Bool.true_or, if_pos rfl]
      · rw [if_neg hc, Bool.eq_false_iff.2 hc, Bool.false_or]
        split
        · rw [prepend_none]
        · rw [prepend_some]

/-- A text between two marks is read as itself, unless a line ends in it. -/
theorem read?_between {write : Char → List Char} (h : ∀ c, r.Spells c (write c)) (s : String)
    (rest : List Char) :
    r.read? ((String.ofList (r.mark :: s.toList.flatMap write ++ [r.mark])).toList ++ rest) =
      if s.toList.any r.lineEnds.contains then none else some (s.toList, rest) := by
  have hbody : (String.ofList (r.mark :: s.toList.flatMap write ++ [r.mark])).toList =
      r.mark :: (s.toList.flatMap write ++ [r.mark]) := String.toList_ofList
  rw [read?_append hbody, List.append_assoc]
  exact readBody?_flatMap h s.toList rest

end EscapedSyntax

/-! ## The syntax of the languages -/

/-- A digit, a letter that stands for a control character or for a number, and the end of a line have a
meaning of their own behind a backslash. -/
def TypeScript.escapable (c : Char) : Bool :=
  !(c.isDigit || ['b', 'f', 'n', 'r', 't', 'v', 'x', 'u'].contains c || lexis.lineEnds.contains c)

/-- A string literal stays on one line. `separators` tells whether U+2028 and U+2029 end a line in it: they
did in the first editions of the language, and still end a comment. -/
def TypeScript.stringSyntax (separators : Bool) : EscapedSyntax where
  mark := '\''
  escapable := escapable
  lineEnds := if separators then lexis.lineEnds else ['\n', '\r']
  templates := []
  not_escapable := by cases separators <;> decide

/-- A template literal may have many lines. -/
def TypeScript.templateSyntax : EscapedSyntax where
  mark := '\x60'
  escapable := escapable
  lineEnds := []
  templates := [['$', '\x7b']]

/-- A dollar sign begins a template if a name follows it; here it always does. -/
def Kotlin.stringSyntax : EscapedSyntax where
  mark := '"'
  escapable := ['\\', '"', '\'', '$'].contains
  lineEnds := lexis.lineEnds
  templates := [['$']]

/-! ## Template literals of TypeScript -/

namespace TypeScript

/-- A brace follows in the literal only where one follows in the text. -/
theorem brace_of_templateChars {cs rest ds : List Char}
    (h : templateChars cs ++ '\x60' :: rest = '\x7b' :: ds) : ∃ es, cs = '\x7b' :: es := by
  fun_cases templateChars cs with
  | case5 c cs hopen hslash hmark =>
      rw [templateChars, if_neg hslash, if_neg hmark, List.cons_append] at h
      · exact ⟨cs, by rw [(List.cons.inj h).1]⟩
      · exact hopen
  | _ => simp [templateChars] at h

/-- Only a dollar sign in front of a brace is refused. -/
theorem not_refuses {c : Char} {cs : List Char} (h : ∀ ds, c = '$' → cs = '\x7b' :: ds → False) :
    ¬ templateSyntax.refuses c cs := by
  intro hrefuses
  rw [EscapedSyntax.refuses] at hrefuses
  have hprefix : ['$', '\x7b'] <+: c :: cs := by simpa [templateSyntax] using hrefuses
  obtain ⟨ds, hds⟩ := hprefix
  obtain ⟨hdollar, hbrace⟩ := List.cons.inj hds
  exact h ds hdollar.symm hbrace.symm

/-- The characters between backticks are read as the text. -/
theorem readBody?_templateChars (cs rest : List Char) :
    templateSyntax.readBody? (templateChars cs ++ '\x60' :: rest) = some (cs, rest) := by
  fun_induction templateChars cs with
  | case1 => rfl
  | case2 cs ih =>
      have hbrace : ¬ templateSyntax.refuses '\x7b' (templateChars cs ++ '\x60' :: rest) :=
        not_refuses fun _ hdollar => absurd hdollar (by decide)
      rw [List.cons_append, List.cons_append, EscapedSyntax.readBody?_escaped (by decide),
        List.cons_append, EscapedSyntax.readBody?_cons (by decide) (by decide), if_neg hbrace, ih,
        prepend_some, prepend_some]
  | case3 cs _ ih =>
      rw [List.cons_append, List.cons_append, EscapedSyntax.readBody?_escaped (by decide), ih,
        prepend_some]
  | case4 cs _ _ ih =>
      rw [List.cons_append, List.cons_append, EscapedSyntax.readBody?_escaped (by decide), ih,
        prepend_some]
  | case5 c cs hopen hslash hmark ih =>
      -- the escapes in between put no brace behind a dollar sign
      have hplain : ¬ templateSyntax.refuses c (templateChars cs ++ '\x60' :: rest) := by
        refine not_refuses fun ds hdollar hbrace => ?_
        obtain ⟨es, hes⟩ := brace_of_templateChars hbrace
        exact hopen es hdollar hes
      rw [List.cons_append, EscapedSyntax.readBody?_cons hslash hmark, if_neg hplain, ih, prepend_some]

theorem read?_template (s : String) (rest : List Char) :
    templateSyntax.read? ((template s).toList ++ rest) = some (s.toList, rest) := by
  have hbody : (template s).toList = '\x60' :: (templateChars s.toList ++ ['\x60']) :=
    String.toList_ofList
  rw [EscapedSyntax.read?_append hbody, List.append_assoc]
  exact readBody?_templateChars s.toList rest

/-- A substitution is not read. -/
example : templateSyntax.read? "\x60a$\x7bb\x7d\x60".toList = none := by decide

/-- The query of a snippet is a template literal that is read as it is. -/
theorem holds_template_query (q : QueryCall) :
    ∃ after, HoldsLiteral templateSyntax.read? (query q) "const query = " (template q.query)
      after q.query := by
  let call := "const result = " ++ q.client ++ ".query<" ++ q.resultType ++ ">(query);"
  refine ⟨";" ++ ("\n\n" ++ call ++ "\n"), ?_, read?_template q.query _, ?_⟩
  · rw [query, Writer.text_line_blank_line, String.append_assoc]
  · simpa using read?_template q.query []

end TypeScript

/-! ## String literals -/

theorem TypeScript.spells_quoteChar (separators : Bool) (c : Char) :
    (stringSyntax separators).Spells c (quoteChar c) := by
  have hescapable : escapable '\\' ∧ escapable '\'' := by decide
  unfold quoteChar
  split
  · rename_i hslash
    subst hslash
    exact .escaped hescapable.1
  split
  · rename_i hmark
    subst hmark
    exact .escaped hescapable.2
  · rename_i hslash hmark
    exact .plain hslash hmark fun _ => rfl

theorem Kotlin.spells_quoteChar (c : Char) : stringSyntax.Spells c (quoteChar c) := by
  unfold quoteChar
  split
  · rename_i hslash
    subst hslash
    exact .escaped (by decide)
  split
  · rename_i hmark
    subst hmark
    exact .escaped (by decide)
  split
  · rename_i hdollar
    subst hdollar
    exact .escaped (by decide)
  · rename_i hslash hmark hdollar
    refine .plain hslash hmark fun _ => ?_
    simpa [stringSyntax, List.isPrefixOf] using Ne.symm hdollar

/-- A string literal that a target writes for a text: in TypeScript for the value of an enumeration's
member, and for the name of a record's member that is no identifier; in Kotlin for the argument of a
constant, which is the text or the JSON text of its value. -/
inductive WritesLiteral : EscapedSyntax → String → String → Prop where
  | value {separators : Bool} {v : EnumMember} {s : String} (h : v.value.text? = some s) :
      WritesLiteral (TypeScript.stringSyntax separators) (TypeScript.literal v) s
  | member {separators : Bool} {name : String} (h : isIdentifier name = false) :
      WritesLiteral (TypeScript.stringSyntax separators) (TypeScript.naming.memberName name) name
  | argument {v : EnumMember} {literal : String}
      (h : Kotlin.argument .string v = "(" ++ literal ++ ")") :
      WritesLiteral Kotlin.stringSyntax literal (v.value.text?.getD v.value.text)

theorem WritesLiteral.exists_write {r : EscapedSyntax} {literal s : String}
    (h : WritesLiteral r literal s) : ∃ write : Char → List Char, (∀ c, r.Spells c (write c)) ∧
      literal = String.ofList (r.mark :: s.toList.flatMap write ++ [r.mark]) := by
  cases h with
  | @value _ v s h =>
      refine ⟨TypeScript.quoteChar, TypeScript.spells_quoteChar _, ?_⟩
      rw [TypeScript.literal, h]
      rfl
  | member h =>
      refine ⟨TypeScript.quoteChar, TypeScript.spells_quoteChar _, ?_⟩
      show (if (false || !isIdentifier s) then TypeScript.quote s else s) = _
      rw [h]
      rfl
  | @argument v literal h =>
      have hquote : "(" ++ Kotlin.quote (v.value.text?.getD v.value.text) ++ ")" =
          "(" ++ literal ++ ")" := h
      rw [String.append_left_inj, String.append_right_inj] at hquote
      exact ⟨Kotlin.quoteChar, Kotlin.spells_quoteChar, hquote.symm⟩

/-- A string literal is read to its end and as its text if and only if no line ends in the text, and
otherwise it is no literal. -/
theorem read?_of_writesLiteral {r : EscapedSyntax} {literal s : String} (h : WritesLiteral r literal s)
    (rest : List Char) :
    (r.read? (literal.toList ++ rest) = some (s.toList, rest) ↔ ∀ c ∈ s.toList, c ∉ r.lineEnds) ∧
      (r.read? (literal.toList ++ rest) = none ↔ ∃ c ∈ s.toList, c ∈ r.lineEnds) := by
  obtain ⟨write, hwrite, rfl⟩ := h.exists_write
  rw [EscapedSyntax.read?_between hwrite]
  by_cases hends : s.toList.any r.lineEnds.contains
  · rw [if_pos hends]
    simpa using hends
  · rw [if_neg hends]
    simpa using hends

/-! ### A genre with quotes, and one on two lines -/

/-- A genre whose value has quotes of both kinds and a dollar sign. -/
def quotedGenre : EnumMember :=
  ⟨"QUOTED", .string "it's \"$5\"", []⟩

/-- A genre whose value has two lines. -/
def brokenGenre : EnumMember :=
  ⟨"SCI_FI", .string "sci\nfi", []⟩

theorem quotedGenre_read :
    WritesLiteral (TypeScript.stringSyntax true) "'it\\'s \"$5\"'" "it's \"$5\"" ∧
      (TypeScript.stringSyntax true).read? ("'it\\'s \"$5\"'".toList ++ [';']) =
        some ("it's \"$5\"".toList, [';']) ∧
      WritesLiteral Kotlin.stringSyntax "\"it's \\\"\\$5\\\"\"" "it's \"$5\"" ∧
      Kotlin.stringSyntax.read? ("\"it's \\\"\\$5\\\"\"".toList ++ [')']) =
        some ("it's \"$5\"".toList, [')']) := by
  have htypeScript : TypeScript.literal quotedGenre = "'it\\'s \"$5\"'" := by decide
  have hvalue : WritesLiteral (TypeScript.stringSyntax true) "'it\\'s \"$5\"'" "it's \"$5\"" :=
    htypeScript ▸ .value rfl
  have hargument : WritesLiteral Kotlin.stringSyntax "\"it's \\\"\\$5\\\"\"" "it's \"$5\"" :=
    .argument (v := quotedGenre) (by decide)
  have hline : ∀ c ∈ "it's \"$5\"".toList, c ∉ TypeScript.lexis.lineEnds ∧ c ∉ Kotlin.lexis.lineEnds := by
    simp [TypeScript.lexis, Kotlin.lexis]
  exact ⟨hvalue, (read?_of_writesLiteral hvalue _).1.2 fun c hc => (hline c hc).1,
    hargument, (read?_of_writesLiteral hargument _).1.2 fun c hc => (hline c hc).2⟩

/-- A value on two lines is written as what is no literal, in both languages. -/
theorem brokenGenre_unread :
    WritesLiteral (TypeScript.stringSyntax false) (TypeScript.literal brokenGenre) "sci\nfi" ∧
      TypeScript.literal brokenGenre = "'sci\nfi'" ∧
      (TypeScript.stringSyntax false).read? (TypeScript.literal brokenGenre).toList = none ∧
      WritesLiteral Kotlin.stringSyntax "\"sci\nfi\"" "sci\nfi" ∧
      Kotlin.argument .string brokenGenre = "(\"sci\nfi\")" ∧
      Kotlin.stringSyntax.read? "\"sci\nfi\"".toList = none :=
  ⟨.value rfl, by decide, by decide, .argument (v := brokenGenre) (by decide), by decide, by decide⟩

end SchemaSnippets.Target

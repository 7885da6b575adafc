import SchemaSnippets.Proofs.Target.Lexis

/-!
# Declarations with and without documentation

The code of a declaration is the same with documentation and without, if what stands in its comments is
confined to them. In TypeScript a union whose members are documented takes several lines.

* `RecordDeclaration.withoutDocs`, `EnumDeclaration.withoutDocs` : declarations without documentation;
* `RecordConfined`, `EnumConfined` : a declaration whose comments hold nothing but themselves;
* `TypeScript.sameCode_record`, `TypeScript.sameCode_enumeration`, `Kotlin.sameCode_record`,
  `Kotlin.sameCode_enumeration` : with and without documentation the code is the same.
-/

namespace SchemaSnippets.Model

def RecordMember.withoutDocs (f : RecordMember) : RecordMember :=
  { f with docs := [] }

def RecordDeclaration.withoutDocs (s : RecordDeclaration) : RecordDeclaration :=
  ⟨s.name, [], s.fields.map (·.withoutDocs)⟩

def EnumMember.withoutDocs (v : EnumMember) : EnumMember :=
  { v with docs := [] }

def EnumDeclaration.withoutDocs (s : EnumDeclaration) : EnumDeclaration :=
  ⟨s.name, [], s.members.map (·.withoutDocs)⟩

end SchemaSnippets.Model

namespace SchemaSnippets.Target
open Code Json Model Number Schema

/-- The comments of a record end where they are meant to. `Docs` says so for documentation. -/
structure RecordConfined (L : Lexis) (Docs : List String → Prop) (s : RecordDeclaration) : Prop where
  name : isIdentifier s.name
  docs : Docs s.docs
  fields : ∀ f ∈ s.fields, Docs f.docs ∧ TypeConfined L f.type

/-- The comments of an enumeration end where they are meant to. -/
structure EnumConfined (Docs : List String → Prop) (s : EnumDeclaration) : Prop where
  name : isIdentifier s.name
  docs : Docs s.docs
  members : ∀ v ∈ s.members, Docs v.docs

theorem RecordConfined.imp {L : Lexis} {Docs Docs' : List String → Prop} {s : RecordDeclaration}
    (h : RecordConfined L Docs s) (himp : ∀ docs, Docs docs → Docs' docs) :
    RecordConfined L Docs' s :=
  ⟨h.name, himp _ h.docs, fun f hf => ⟨himp _ (h.fields f hf).1, (h.fields f hf).2⟩⟩

theorem EnumConfined.imp {Docs Docs' : List String → Prop} {s : EnumDeclaration}
    (h : EnumConfined Docs s) (himp : ∀ docs, Docs docs → Docs' docs) : EnumConfined Docs' s :=
  ⟨h.name, himp _ h.docs, fun v hv => himp _ (h.members v hv)⟩

/-- All characters belong to the syntax. -/
abbrev InSyntax (s : String) : Prop :=
  s.toList.all Lexis.inSyntax

/-- The modules and symbols that are imported. -/
def ImportsInSyntax (i : Imports) : Prop :=
  ∀ e ∈ i.modules, InSyntax e.1 ∧ ∀ s ∈ e.2, InSyntax s

theorem closed_commaList {L : Lexis} (hL : L.ReadsSyntax) {symbols : List String}
    (h : ∀ s ∈ symbols, InSyntax s) : L.Closed (commaList symbols) :=
  Lexis.closed_intercalate (Lexis.closed_of_inSyntax hL (by decide)) fun s hs =>
    Lexis.closed_of_inSyntax hL (h s hs)

/-- A name is an identifier, or in quotes. -/
theorem closed_memberName {L : Lexis} (hL : L.ReadsSyntax) {c : NameRules}
    (hescape : ∀ name, L.Closed (c.escape name))
    (name : String) : L.Closed (c.memberName name) := by
  unfold NameRules.memberName
  dsimp only
  split
  · exact hescape _
  · rename_i h
    rw [Bool.or_eq_true, not_or, Bool.not_eq_true', Bool.not_eq_false] at h
    exact Lexis.closed_of_isIdentifier hL h.2

/-! ## Kotlin -/

namespace Kotlin
variable {α : Type} {form : List Char → α} (hform : IgnoresLayout form)

/-- Documentation in blocks. -/
abbrev InBlock (docs : List String) : Prop :=
  lexis.Confined (.block docs)

def fieldLine (f : RecordMember) : String :=
  "val " ++ naming.memberName f.name ++ ": " ++ types.render f.type ++ ","

theorem field_eq (f : RecordMember) :
    field f = docText 4 f.docs ++ (blanks 4 ++ fieldLine f ++ "\n") :=
  Writer.text_docComment_line 4 f.docs (fieldLine f)

theorem constant_eq (c : Carrier) (v : EnumMember) :
    constant c v = docText 4 v.docs ++
      (blanks 4 ++ (naming.memberName v.name ++ argument c v ++ ",") ++ "\n") :=
  Writer.text_docComment_line 4 v.docs _

theorem record_eq (s : RecordDeclaration) :
    record s = docText 0 s.docs ++
      if s.fields.isEmpty then "class " ++ s.name ++ "\n"
      else "data class " ++ s.name ++ "(" ++ "\n" ++ String.join (s.fields.map field) ++ (")" ++ "\n") := by
  rw [record, Writer.docComment_outermost, Writer.line_outermost, Writer.text_block_raw]
  split <;> rfl

theorem enumeration_eq (s : EnumDeclaration) :
    enumeration s = docText 0 s.docs ++
      if s.members.isEmpty then "enum class " ++ s.name ++ "\n"
      else "enum class " ++ s.name ++ (carrier s.members).property ++ " \x7b" ++ "\n" ++
        String.join (s.members.map (constant (carrier s.members))) ++ ("\x7d" ++ "\n") := by
  rw [enumeration, Writer.docComment_outermost, Writer.line_outermost, Writer.text_block_raw]
  split <;> rfl

theorem imports_eq (i : Imports) :
    imports i = linesText (i.modules.flatMap fun e => importLines e.1 e.2) := by
  have hput := (Writer.empty 4).each_put i.modules fun e => importLines e.1 e.2
  rw [← Writer.text_put 4, ← hput]
  rfl

theorem closed_memberName (name : String) : lexis.Closed (naming.memberName name) :=
  Target.closed_memberName (c := naming) reads_lexis.symbols closed_backticked name

theorem closed_argument (c : Carrier) (v : EnumMember) : lexis.Closed (argument c v) := by
  have hparentheses : ∀ {s}, lexis.Closed s → lexis.Closed ("(" ++ s ++ ")") :=
    fun hs => Lexis.closed_append (Lexis.closed_append (by decide) hs) (by decide)
  cases c with
  | name => rfl
  | int => exact hparentheses (Lexis.closed_text reads_lexis.symbols v.value)
  | long => exact hparentheses (Lexis.closed_text reads_lexis.symbols v.value)
  | string => exact hparentheses (closed_quote _)

/-- What carries the values depends on the names and values of the members. -/
theorem carrier_withoutDocs (vs : List EnumMember) :
    carrier (vs.map (·.withoutDocs)) = carrier vs := by
  unfold carrier
  rw [List.all_map, List.all_map, List.all_map]
  rfl

include hform

theorem sameCode_field {f : RecordMember} (hdocs : InBlock f.docs) (htype : TypeConfined lexis f.type) :
    SameCode form lexis (field f) (field f.withoutDocs) := by
  rw [field_eq, field_eq]
  refine sameCode_append (sameCode_docText hform reads_lexis.lines hdocs 4)
    (sameCode_indented hform reads_lexis.lines ?_ 4)
  exact Lexis.closed_append (Lexis.closed_append (Lexis.closed_append (Lexis.closed_append
    (by decide) (closed_memberName f.name)) (by decide)) (closed_render htype)) (by decide)

theorem sameCode_constant (c : Carrier) {v : EnumMember} (hdocs : InBlock v.docs) :
    SameCode form lexis (constant c v) (constant c v.withoutDocs) := by
  rw [constant_eq, constant_eq]
  refine sameCode_append (sameCode_docText hform reads_lexis.lines hdocs 4)
    (sameCode_indented hform reads_lexis.lines ?_ 4)
  exact Lexis.closed_append (Lexis.closed_append (closed_memberName v.name) (closed_argument c v))
    (by decide)

theorem sameCode_record {s : RecordDeclaration} (h : RecordConfined lexis InBlock s) :
    SameCode form lexis (record s) (record s.withoutDocs) := by
  have hline : ∀ {s}, lexis.Closed s → SameCode form lexis (s ++ "\n") (s ++ "\n") :=
    sameCode_line hform reads_lexis.lines
  have hname := Lexis.closed_of_isIdentifier reads_lexis.symbols h.name
  have hempty : s.withoutDocs.fields.isEmpty = s.fields.isEmpty := List.isEmpty_map
  rw [record_eq, record_eq, hempty]
  refine sameCode_append (sameCode_docText hform reads_lexis.lines h.docs 0) ?_
  split
  · exact hline (Lexis.closed_append (by decide) hname)
  · refine sameCode_append (sameCode_append ?_ ?_) (hline (by decide))
    · exact hline (Lexis.closed_append (Lexis.closed_append (by decide) hname) (by decide))
    · rw [RecordDeclaration.withoutDocs, List.map_map]
      exact sameCode_join fun f hf => sameCode_field hform (h.fields f hf).1 (h.fields f hf).2

theorem sameCode_enumeration {s : EnumDeclaration} (h : EnumConfined InBlock s) :
    SameCode form lexis (enumeration s) (enumeration s.withoutDocs) := by
  have hline : ∀ {s}, lexis.Closed s → SameCode form lexis (s ++ "\n") (s ++ "\n") :=
    sameCode_line hform reads_lexis.lines
  have hname := Lexis.closed_of_isIdentifier reads_lexis.symbols h.name
  have hempty : s.withoutDocs.members.isEmpty = s.members.isEmpty := List.isEmpty_map
  have hcarrier : carrier s.withoutDocs.members = carrier s.members := carrier_withoutDocs s.members
  rw [enumeration_eq, enumeration_eq, hempty, hcarrier]
  refine sameCode_append (sameCode_docText hform reads_lexis.lines h.docs 0) ?_
  split
  · exact hline (Lexis.closed_append (by decide) hname)
  · refine sameCode_append (sameCode_append ?_ ?_) (hline (by decide))
    · refine hline (Lexis.closed_append (Lexis.closed_append (Lexis.closed_append (by decide) hname)
        ?_) (by decide))
      cases carrier s.members <;> decide
    · rw [EnumDeclaration.withoutDocs, List.map_map]
      exact sameCode_join fun v hv => sameCode_constant hform _ (h.members v hv)

theorem sameCode_imports {i : Imports} (hi : ImportsInSyntax i) :
    SameCode form lexis (imports i) (imports i) := by
  rw [imports_eq]
  refine sameCode_linesText hform reads_lexis.lines fun s hs => ?_
  obtain ⟨⟨module, symbols⟩, he, hs⟩ := List.mem_flatMap.1 hs
  obtain ⟨hmodule, hsymbols⟩ := hi _ he
  have hstart : lexis.Closed ("import " ++ module) :=
    Lexis.closed_append (by decide) (Lexis.closed_of_inSyntax reads_lexis.symbols hmodule)
  unfold importLines at hs
  split at hs
  · rw [List.mem_singleton.1 hs]
    exact Lexis.closed_append hstart (by decide)
  · obtain ⟨symbol, hsymbol, rfl⟩ := List.mem_map.1 hs
    exact Lexis.closed_append (Lexis.closed_append hstart (by decide))
      (Lexis.closed_of_inSyntax reads_lexis.symbols (hsymbols symbol hsymbol))

end Kotlin

/-! ## TypeScript -/

namespace TypeScript

/-- Documentation in blocks. -/
abbrev InBlock (docs : List String) : Prop :=
  lexis.Confined (.block docs)

def fieldLine (f : RecordMember) : String :=
  naming.memberName f.name ++ (Neutral.splitOptional f.type).1 ++ ": "
    ++ types.render (Neutral.splitOptional f.type).2 ++ ";"

theorem field_eq (f : RecordMember) :
    field f = docText 2 f.docs ++ (blanks 2 ++ fieldLine f ++ "\n") :=
  Writer.text_docComment_line 2 f.docs (fieldLine f)

theorem imports_eq (i : Imports) :
    imports i = linesText (i.modules.map fun e => importLine e.1 e.2) := by
  have hput := (Writer.empty 2).each_line i.modules fun e => importLine e.1 e.2
  rw [← Writer.text_put 2, ← hput]
  rfl

theorem unionMember_eq (v : EnumMember) (lineEnd : String) :
    unionMember v lineEnd =
      docText 2 v.docs ++ (blanks 2 ++ ("| " ++ literal v ++ lineEnd) ++ "\n") :=
  Writer.text_docComment_line 2 v.docs _

theorem record_eq (s : RecordDeclaration) :
    record s = docText 0 s.docs ++
      if s.fields.isEmpty then "export interface " ++ s.name ++ " \x7b\x7d" ++ "\n"
      else "export interface " ++ s.name ++ " \x7b" ++ "\n" ++ String.join (s.fields.map field)
        ++ ("\x7d" ++ "\n") := by
  rw [record, Writer.docComment_outermost, Writer.line_outermost, Writer.text_block_raw]
  split <;> rfl

/-- The members of a union on one line. -/
def unionLine (vs : List EnumMember) : String :=
  " | ".intercalate (vs.map literal) ++ ";" ++ "\n"

theorem enumeration_eq (s : EnumDeclaration) :
    enumeration s = docText 0 s.docs ++
      if s.members.isEmpty then "export type " ++ s.name ++ " =" ++ " never;" ++ "\n"
      else if s.members.all (·.docs.isEmpty) then
        "export type " ++ s.name ++ " =" ++ " " ++ unionLine s.members
      else "export type " ++ s.name ++ " =" ++ "\n" ++ String.join (unionMembers s.members) := by
  have hunion : ∀ w : Writer, w.each (unionMembers s.members) Writer.raw =
      w.raw (String.join (unionMembers s.members)) := by
    intro w
    have h := w.each_raw (unionMembers s.members) fun t => t
    rwa [List.map_id'] at h
  rw [enumeration, Writer.docComment_outermost, Writer.line_outermost, Writer.line_outermost,
    Writer.line_outermost, hunion]
  split
  · rfl
  · split
    · show _ = _ ++ (_ ++ (_ ++ ";" ++ "\n"))
      simp only [String.append_assoc]
    · exact String.append_assoc

theorem closed_memberName (name : String) : lexis.Closed (naming.memberName name) :=
  Target.closed_memberName (c := naming) reads_lexis.symbols closed_quote name

/-- A type without the mark of an optional one. -/
theorem confined_splitOptional {t : MemberType} (h : TypeConfined lexis t) :
    TypeConfined lexis (Neutral.splitOptional t).2 := by
  cases t with
  | optional t => exact ⟨h.names, h.notes⟩
  | _ => exact h

theorem closed_fieldLine {f : RecordMember} (h : TypeConfined lexis f.type) :
    lexis.Closed (fieldLine f) := by
  have hmark : lexis.Closed (Neutral.splitOptional f.type).1 := by
    cases f.type with
    | optional t => exact (by decide : lexis.Closed "?")
    | _ => exact (rfl : lexis.Closed "")
  exact Lexis.closed_append (Lexis.closed_append (Lexis.closed_append (Lexis.closed_append
    (closed_memberName f.name) hmark) (by decide)) (closed_render (confined_splitOptional h)))
    (by decide)

theorem exists_hasEnds_literal (v : EnumMember) : ∃ c d, Lexis.HasEnds (literal v) c d := by
  unfold literal
  split
  · exact ⟨'\'', '\'', Lexis.hasEnds_ofList (by decide) (by decide) _⟩
  · exact Lexis.exists_hasEnds_text v.value

theorem closed_literal (v : EnumMember) : lexis.Closed (literal v) := by
  unfold literal
  split
  · exact closed_quote _
  · exact Lexis.closed_text reads_lexis.symbols v.value

/-- A module stands in single quotes. -/
theorem closed_importLine {module : String} {symbols : List String} (hmodule : InSyntax module)
    (hsymbols : ∀ s ∈ symbols, InSyntax s) : lexis.Closed (importLine module symbols) := by
  have hquoted : lexis.Closed ("'" ++ module ++ "'") := by
    have hquote : lexis.step .code '\'' = (.literal '\'' true, ['\'']) := by decide
    have hinner : ∀ c ∈ module.toList, c ≠ '\'' ∧ ¬ (true ∧ c = '\\') := by
      intro c hc
      have hsyntax := List.all_eq_true.1 hmodule c hc
      refine ⟨?_, ?_⟩
      · rintro rfl
        exact absurd hsyntax (by decide)
      · rintro ⟨-, rfl⟩
        exact absurd hsyntax (by decide)
    have htext : "'" ++ module ++ "'" = String.ofList ('\'' :: module.toList ++ ['\'']) := by
      simp [← String.toList_inj]
    rw [htext]
    exact Lexis.closed_literal hquote (Lexis.scan_literal_all hinner)
  unfold importLine
  split
  · have htext : "import '" ++ module ++ "';" = "import " ++ ("'" ++ module ++ "'") ++ ";" := by
      simp [← String.toList_inj]
    rw [htext]
    exact Lexis.closed_append (Lexis.closed_append (by decide) hquoted) (by decide)
  · have htext : "import \x7b " ++ commaList symbols ++ " \x7d from '" ++ module ++ "';" =
        "import \x7b " ++ commaList symbols ++ " \x7d from " ++ ("'" ++ module ++ "'") ++ ";" := by
      simp [← String.toList_inj]
    rw [htext]
    exact Lexis.closed_append (Lexis.closed_append (Lexis.closed_append (Lexis.closed_append
      (by decide) (closed_commaList reads_lexis.symbols hsymbols)) (by decide)) hquoted) (by decide)

section Record
variable {α : Type} {form : List Char → α} (hform : IgnoresLayout form)
include hform

theorem sameCode_field {f : RecordMember} (hdocs : InBlock f.docs) (htype : TypeConfined lexis f.type) :
    SameCode form lexis (field f) (field f.withoutDocs) := by
  rw [field_eq, field_eq]
  exact sameCode_append (sameCode_docText hform reads_lexis.lines hdocs 2)
    (sameCode_indented hform reads_lexis.lines (closed_fieldLine htype) 2)

theorem sameCode_record {s : RecordDeclaration} (h : RecordConfined lexis InBlock s) :
    SameCode form lexis (record s) (record s.withoutDocs) := by
  have hname := Lexis.closed_of_isIdentifier reads_lexis.symbols h.name
  have hheader : ∀ {t}, lexis.Closed t → SameCode form lexis ("export interface " ++ s.name ++ t ++ "\n")
      ("export interface " ++ s.name ++ t ++ "\n") := fun ht =>
    sameCode_line hform reads_lexis.lines
      (Lexis.closed_append (Lexis.closed_append (by decide) hname) ht)
  have hempty : s.withoutDocs.fields.isEmpty = s.fields.isEmpty := List.isEmpty_map
  rw [record_eq, record_eq, hempty]
  refine sameCode_append (sameCode_docText hform reads_lexis.lines h.docs 0) ?_
  split
  · exact hheader (by decide)
  · refine sameCode_append (sameCode_append (hheader (by decide)) ?_)
      (sameCode_line hform reads_lexis.lines (by decide))
    rw [RecordDeclaration.withoutDocs, List.map_map]
    exact sameCode_join fun f hf => sameCode_field hform (h.fields f hf).1 (h.fields f hf).2

theorem sameCode_imports {i : Imports} (hi : ImportsInSyntax i) :
    SameCode form lexis (imports i) (imports i) := by
  rw [imports_eq]
  refine sameCode_linesText hform reads_lexis.lines fun s hs => ?_
  obtain ⟨e, he, rfl⟩ := List.mem_map.1 hs
  exact closed_importLine (hi e he).1 (hi e he).2

end Record

/-! ### Unions -/

theorem unionLine_cons (v w : EnumMember) (vs : List EnumMember) :
    unionLine (v :: w :: vs) = literal v ++ " | " ++ unionLine (w :: vs) := by
  unfold unionLine
  rw [List.map_cons, List.map_cons, String.intercalate_cons_cons]
  simp only [String.append_assoc]

/-- A character at the ends of literals is no white space, and begins or ends no comment. -/
theorem notBlank_of_inEnds {c : Char} (h : Lexis.inEnds c) :
    c ≠ '/' ∧ Unicode.isWhitespace c = false ∧ c ≠ '=' :=
  Unicode.forall_ascii (P := fun c => Lexis.inEnds c →
    c ≠ '/' ∧ Unicode.isWhitespace c = false ∧ c ≠ '=') (by decide) (Lexis.toNat_lt_of_inEnds h) h

/-- The ends of a literal are kept. -/
theorem exists_kept_literal (v : EnumMember) :
    (∃ c cs, lexis.kept (literal v) = c :: cs ∧ Unicode.isWhitespace c = false) ∧
      ∃ cs d, lexis.kept (literal v) = cs ++ [d] ∧ Unicode.isWhitespace d = false ∧ d ≠ '=' := by
  obtain ⟨c, d, hends⟩ := exists_hasEnds_literal v
  obtain ⟨hc, hblank, -⟩ := notBlank_of_inEnds hends.inEnds.1
  obtain ⟨hd, hblank', hequals⟩ := notBlank_of_inEnds hends.inEnds.2
  obtain ⟨cs, hfirst⟩ := List.head?_eq_some_iff.1 (head?_kept (L := lexis) hends.first hc)
  obtain ⟨ds, hlast⟩ := List.getLast?_eq_some_iff.1 (getLast?_kept (closed_literal v) hends.last hd)
  exact ⟨⟨c, cs, hfirst, hblank⟩, ds, d, hlast, hblank', hequals⟩

theorem exists_kept_unionLine {vs : List EnumMember} (hne : vs ≠ []) :
    ∃ c cs, lexis.kept (unionLine vs) = c :: cs ∧ Unicode.isWhitespace c = false := by
  obtain ⟨v, vs, rfl⟩ := List.exists_cons_of_ne_nil hne
  obtain ⟨⟨c, cs, hkept, hc⟩, -⟩ := exists_kept_literal v
  have hrest : ∃ rest, unionLine (v :: vs) = literal v ++ rest := by
    cases vs with
    | nil => exact ⟨";" ++ "\n", String.append_assoc⟩
    | cons w vs => exact ⟨" | " ++ unionLine (w :: vs), by rw [unionLine_cons, String.append_assoc]⟩
  obtain ⟨rest, hrest⟩ := hrest
  refine ⟨c, cs ++ lexis.kept rest, ?_, hc⟩
  rw [hrest, kept_append (closed_literal v), hkept]
  rfl

/-- Of a member on a line of its own, the bar and the literal are kept. -/
theorem kept_unionMember {v : EnumMember} (h : InBlock v.docs) {lineEnd : String}
    (hend : lexis.Closed lineEnd) :
    lexis.IsCode (unionMember v lineEnd) ∧ ∃ cs : List Char, cs.all Unicode.isWhitespace ∧
      lexis.kept (unionMember v lineEnd) =
        cs ++ ('|' :: ' ' :: (lexis.kept (literal v) ++ lexis.kept lineEnd) ++ ['\n']) := by
  have hdocs := Lexis.vanishes_docComment reads_lexis.lines h 2
  have hbar : lexis.Closed ("| " ++ literal v) := Lexis.closed_append (by decide) (closed_literal v)
  have hline : lexis.Closed (blanks 2 ++ ("| " ++ literal v ++ lineEnd)) :=
    Lexis.closed_append (by decide) (Lexis.closed_append hbar hend)
  rw [unionMember_eq]
  refine ⟨⟨Lexis.closed_append hdocs.1 (Lexis.closed_append hline (by decide)),
    wholeLines_append (wholeLines_linesText _) (wholeLines_line _)⟩, ?_⟩
  refine ⟨lexis.kept (docText 2 v.docs) ++ lexis.kept (blanks 2), ?_, ?_⟩
  · rw [List.all_append, hdocs.2]
    decide
  · rw [kept_append hdocs.1, kept_append hline, kept_append (by decide : lexis.Closed (blanks 2)),
      kept_append hbar, kept_append (by decide : lexis.Closed "| "),
      (by decide : lexis.kept "| " = ['|', ' ']), (by decide : lexis.kept "\n" = ['\n'])]
    simp only [List.append_assoc, List.cons_append, List.nil_append]

/-- Members on lines of their own are read as members on one line behind a bar. -/
theorem joinUnions_unionMembers {vs : List EnumMember} (hne : vs ≠ []) (h : ∀ v ∈ vs, InBlock v.docs) :
    lexis.IsCode (String.join (unionMembers vs)) ∧ ∀ xs ys, joinUnions xs = joinUnions ys →
      joinUnions (lexis.kept (String.join (unionMembers vs)) ++ xs) =
        joinUnions ('|' :: ' ' :: lexis.kept (unionLine vs) ++ ys) := by
  induction vs with
  | nil => exact absurd rfl hne
  | cons v vs ih =>
      obtain ⟨hv, hvs⟩ := List.forall_mem_cons.1 h
      cases vs with
      | nil =>
          obtain ⟨hclosed, ws, hws, hkept⟩ := kept_unionMember hv (by decide : lexis.Closed ";")
          have hjoin : String.join (unionMembers [v]) = unionMember v ";" := by
            show String.join [unionMember v ";"] = _
            rw [String.join_cons, String.join_nil, String.append_empty]
          have hline : lexis.kept (unionLine [v]) = lexis.kept (literal v) ++ [';', '\n'] := by
            show lexis.kept (literal v ++ ";" ++ "\n") = _
            rw [String.append_assoc, kept_append (closed_literal v)]
            exact congrArg (lexis.kept (literal v) ++ ·) (by decide)
          rw [hjoin, hline]
          refine ⟨hclosed, fun xs ys hxs => ?_⟩
          rw [hkept, List.append_assoc, ignoresLayout_joinUnions.blanks hws,
            (by decide : lexis.kept ";" = [';'])]
          have h := ignoresLayout_joinUnions.line ('|' :: ' ' :: (lexis.kept (literal v) ++ [';'])) hxs
          simpa using h
      | cons w vs =>
          obtain ⟨hclosed, ws, hws, hkept⟩ := kept_unionMember hv (rfl : lexis.Closed "")
          obtain ⟨hrest, hsame⟩ := ih (List.cons_ne_nil w vs) hvs
          have hjoin : String.join (unionMembers (v :: w :: vs)) =
              unionMember v "" ++ String.join (unionMembers (w :: vs)) := String.join_cons
          rw [hjoin, unionLine_cons]
          have hbar : lexis.Closed (literal v ++ " | ") :=
            Lexis.closed_append (closed_literal v) (by decide)
          have hnothing : lexis.kept "" = [] := rfl
          refine ⟨isCode_append hclosed hrest, fun xs ys hxs => ?_⟩
          rw [kept_append hclosed.closed, hkept, kept_append hbar, kept_append (closed_literal v),
            (by decide : lexis.kept " | " = [' ', '|', ' ']), hnothing,
            List.append_assoc, List.append_assoc, ignoresLayout_joinUnions.blanks hws]
          have hline := ignoresLayout_joinUnions.line ('|' :: ' ' :: lexis.kept (literal v))
            (hsame xs ys hxs)
          obtain ⟨-, cs, d, hlast, hblank, hequals⟩ := exists_kept_literal v
          have hbar := joinUnions_feed_bar hblank hequals ('|' :: ' ' :: cs)
            (' ' :: lexis.kept (unionLine (w :: vs)) ++ ys)
          rw [hlast] at hline ⊢
          simp only [List.append_assoc, List.cons_append, List.nil_append] at hline hbar ⊢
          exact hline.trans hbar

/-- A union that is on the line of its declaration already. -/
theorem sameCode_unionLine (vs : List EnumMember) {header : String} (hheader : lexis.Closed header) :
    SameCode joinUnions lexis (header ++ " =" ++ " " ++ unionLine vs)
      (header ++ " =" ++ " " ++ unionLine vs) := by
  have hmembers : lexis.Closed (" | ".intercalate (vs.map literal)) := by
    refine Lexis.closed_intercalate (by decide) fun t ht => ?_
    obtain ⟨v, -, rfl⟩ := List.mem_map.1 ht
    exact closed_literal v
  have htext : header ++ " =" ++ " " ++ unionLine vs =
      header ++ " =" ++ " " ++ " | ".intercalate (vs.map literal) ++ ";" ++ "\n" := by
    simp only [unionLine, String.append_assoc]
  rw [htext]
  exact sameCode_line ignoresLayout_joinUnions reads_lexis.lines
    (Lexis.closed_append (Lexis.closed_append (Lexis.closed_append
      (Lexis.closed_append hheader (by decide)) (by decide)) hmembers) (by decide))

/-- A union on lines of its own is as good as one on the line of its declaration. -/
theorem sameCode_union {vs : List EnumMember} (hne : vs ≠ []) (h : ∀ v ∈ vs, InBlock v.docs)
    {header : String} (hheader : lexis.Closed header) :
    SameCode joinUnions lexis (header ++ " =" ++ "\n" ++ String.join (unionMembers vs))
      (header ++ " =" ++ " " ++ unionLine vs) := by
  obtain ⟨hclosed, hsame⟩ := joinUnions_unionMembers hne h
  obtain ⟨c, cs, hkept, hblank⟩ := exists_kept_unionLine hne
  have hstart : lexis.Closed (header ++ " =") := Lexis.closed_append hheader (by decide)
  have hfeed : lexis.Closed (header ++ " =" ++ "\n") := Lexis.closed_append hstart (by decide)
  have hspace : lexis.Closed (header ++ " =" ++ " ") := Lexis.closed_append hstart (by decide)
  refine ⟨isCode_append ⟨hfeed, wholeLines_line _⟩ hclosed,
    (sameCode_unionLine vs hheader).left, fun xs ys hxs => ?_⟩
  have hkeptStart : lexis.kept (header ++ " =") = lexis.kept header ++ [' ', '='] := by
    rw [kept_append hheader, (by decide : lexis.kept " =" = [' ', '='])]
  rw [kept_append hfeed, kept_append hspace, kept_append hstart, kept_append hstart, hkeptStart,
    (by decide : lexis.kept "\n" = ['\n']), (by decide : lexis.kept " " = [' '])]
  have hunions := ignoresLayout_joinUnions.line (lexis.kept header ++ [' ', '=']) (hsame xs ys hxs)
  have hequals := joinUnions_equals_bar hblank (lexis.kept header ++ [' ']) (cs ++ ys)
  rw [hkept] at hunions ⊢
  simp only [List.append_assoc, List.cons_append, List.nil_append] at hunions hequals ⊢
  exact hunions.trans hequals

theorem sameCode_enumeration {s : EnumDeclaration} (h : EnumConfined InBlock s) :
    SameCode joinUnions lexis (enumeration s) (enumeration s.withoutDocs) := by
  have hheader : lexis.Closed ("export type " ++ s.name) :=
    Lexis.closed_append (by decide) (Lexis.closed_of_isIdentifier reads_lexis.symbols h.name)
  have hempty : s.withoutDocs.members.isEmpty = s.members.isEmpty := List.isEmpty_map
  have hall : s.withoutDocs.members.all (·.docs.isEmpty) := by
    rw [EnumDeclaration.withoutDocs, List.all_map, List.all_eq_true]
    exact fun _ _ => rfl
  have hunion : unionLine s.withoutDocs.members = unionLine s.members := by
    rw [unionLine, unionLine, EnumDeclaration.withoutDocs, List.map_map]
    rfl
  have hname : s.withoutDocs.name = s.name := rfl
  rw [enumeration_eq, enumeration_eq, hempty, hunion, if_pos hall, hname]
  refine sameCode_append (sameCode_docText ignoresLayout_joinUnions reads_lexis.lines h.docs 0) ?_
  split
  · exact sameCode_line ignoresLayout_joinUnions reads_lexis.lines
      (Lexis.closed_append (Lexis.closed_append hheader (by decide)) (by decide))
  · rename_i hmembers
    split
    · exact sameCode_unionLine s.members hheader
    · exact sameCode_union (fun hnil => hmembers (by rw [hnil]; rfl)) h.members hheader

end TypeScript

end SchemaSnippets.Target

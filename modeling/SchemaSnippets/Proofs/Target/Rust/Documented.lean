import SchemaSnippets.Proofs.Model.Imports
import SchemaSnippets.Proofs.Target.Documented
import SchemaSnippets.Proofs.Target.Rust.Items
import SchemaSnippets.Proofs.Target.Rust.MemberNames

/-!
# Items with and without documentation

The code of an item is the same with documentation and without, if no line of documentation holds a line
feed.

* `StructItem.withoutDocs`, `EnumItem.withoutDocs` : items without documentation; `structItem_withoutDocs`,
  `enumItem_withoutDocs` : they are the items of declarations without documentation;
* `all_inSyntax_fieldNames`, `all_inSyntax_constantNames` : the names of members are code;
* `sameCode_bodyLines` : members with and without documentation;
* `sameCode_record`, `sameCode_enumeration` : so are declarations.
-/

namespace SchemaSnippets.Target.Rust
open Code Json Model Number

/-! ## Items without documentation -/

def FieldItem.withoutDocs (m : FieldItem) : FieldItem :=
  { m with docs := [] }

def StructItem.withoutDocs (i : StructItem) : StructItem :=
  { i with docs := [], members := i.members.map (·.withoutDocs) }

def ConstantItem.withoutDocs (m : ConstantItem) : ConstantItem :=
  { m with docs := [] }

def EnumItem.withoutDocs (i : EnumItem) : EnumItem :=
  { i with docs := [], members := i.members.map (·.withoutDocs) }

theorem namedFields_withoutDocs (s : RecordDeclaration) :
    namedFields s.withoutDocs = (namedFields s).map fun (f, name) => (f.withoutDocs, name) := by
  have hnames : fieldNames s.withoutDocs = fieldNames s := by
    rw [fieldNames, fieldNames, RecordDeclaration.withoutDocs, List.map_map]
    rfl
  rw [namedFields, hnames, RecordDeclaration.withoutDocs, List.zip_map_left]
  rfl

theorem namedConstants_withoutDocs (s : EnumDeclaration) :
    namedConstants s.withoutDocs = (namedConstants s).map fun (v, name) => (v.withoutDocs, name) := by
  have hnames : constantNames s.withoutDocs = constantNames s := by
    rw [constantNames, constantNames, EnumDeclaration.withoutDocs, List.map_map, Function.comp_def]
    rfl
  rw [namedConstants, hnames, EnumDeclaration.withoutDocs, List.zip_map_left]
  rfl

theorem structItem_withoutDocs (s : RecordDeclaration) :
    structItem s.withoutDocs = (structItem s).withoutDocs := by
  have hbinds : bindsByCamelCase (namedFields s.withoutDocs) = bindsByCamelCase (namedFields s) := by
    rw [namedFields_withoutDocs, bindsByCamelCase, List.all_map, List.any_map]
    rfl
  rw [structItem, hbinds, namedFields_withoutDocs, structItem, StructItem.withoutDocs, List.map_map,
    List.map_map]
  rfl

theorem enumItem_withoutDocs (s : EnumDeclaration) :
    enumItem s.withoutDocs = (enumItem s).withoutDocs := by
  have hnumbered : isNumbered s.withoutDocs = isNumbered s := by
    rw [isNumbered, EnumDeclaration.withoutDocs, List.all_map, List.isEmpty_map]
    rfl
  rw [enumItem, hnumbered, namedConstants_withoutDocs, enumItem, EnumItem.withoutDocs, List.map_map,
    List.map_map]
  rfl

/-! ## Names of members -/

theorem all_inSyntax_of_plain {name : String} (h : Plain name) : name.toList.all Lexis.inSyntax :=
  Lexis.all_inSyntax_of_inIdentifier h

theorem all_inSyntax_memberName (name : String) :
    (naming.memberName name).toList.all Lexis.inSyntax := by
  unfold NameRules.memberName
  dsimp only
  split
  · show (escape _).toList.all _
    unfold escape
    split
    · rename_i h
      have hall : ∀ w ∈ neverRaw, (w ++ "_").toList.all Lexis.inSyntax := by decide
      exact hall _ (List.contains_iff_mem.1 h)
    · split
      · rename_i h
        rw [String.toList_append, List.all_append,
          all_inSyntax_of_plain (all_inIdentifier_of_isIdentifier h)]
        decide
      · exact all_inSyntax_of_plain (all_inIdentifier_of_isIdentifier (isIdentifier_sanitize _))
  · rename_i h
    rw [Bool.or_eq_true, not_or, Bool.not_eq_true', Bool.not_eq_false] at h
    exact all_inSyntax_of_plain (all_inIdentifier_of_isIdentifier h.2)

/-- Telling names apart puts numbers behind names without a mark. -/
theorem all_inSyntax_tellApart {names : List String} {separator : String}
    (hnames : ∀ n ∈ names, n.toList.all Lexis.inSyntax)
    (hplain : ∀ n ∈ names, Plain (withoutMark n)) (hseparator : Plain separator) :
    ∀ m ∈ tellApart names separator, m.toList.all Lexis.inSyntax := by
  refine forall_mem_tellApartFrom hnames fun n hn i => ?_
  exact all_inSyntax_of_plain
    (plain_append (plain_append (hplain n hn) hseparator) (all_inIdentifier_toString i))

theorem all_inSyntax_fieldNames (s : RecordDeclaration) :
    ∀ m ∈ fieldNames s, m.toList.all Lexis.inSyntax := by
  refine all_inSyntax_tellApart ?_ ?_ (by decide : "_".toList.all inIdentifier)
  · intro n hn
    obtain ⟨f, -, rfl⟩ := List.mem_map.1 hn
    exact all_inSyntax_memberName f.name
  · intro n hn
    obtain ⟨f, -, rfl⟩ := List.mem_map.1 hn
    exact plain_withoutMark_memberName f.name

theorem all_inSyntax_constantNames (s : EnumDeclaration) :
    ∀ m ∈ constantNames s, m.toList.all Lexis.inSyntax := by
  have hplain : ∀ n ∈ s.members.map (fun v => constantName v.name), Plain n := by
    intro n hn
    obtain ⟨v, -, rfl⟩ := List.mem_map.1 hn
    unfold constantName
    exact all_inIdentifier_of_isIdentifier (NameRules.isIdentifier_legalize naming _)
  unfold constantNames
  exact all_inSyntax_tellApart (fun n hn => all_inSyntax_of_plain (hplain n hn))
    (fun n hn => plain_withoutMark_of_plain (hplain n hn)) (rfl : "".toList.all inIdentifier)

/-! ## The same code -/

/-- Documentation line by line. -/
def OnLines (docs : List String) : Prop :=
  ∀ s ∈ docs, lexis.Confined (.line s)

theorem StructItem.text_eq (i : StructItem) :
    i.text = linesText (docLines i.docs ++ i.attributes) ++
      linesText (bodyLines ("pub struct " ++ i.name) (i.members.map (·.lines))) := by
  rw [text, linesText_append]

theorem EnumItem.text_eq (i : EnumItem) :
    i.text = linesText (docLines i.docs ++ i.attributes) ++
      linesText (bodyLines ("pub enum " ++ i.name) (i.members.map (·.lines))) := by
  rw [text, linesText_append]

theorem StructItem.closed_attributes (i : StructItem) : ∀ s ∈ i.attributes, lexis.Closed s := by
  unfold attributes
  split <;> decide +kernel

theorem EnumItem.closed_attributes (i : EnumItem) : ∀ s ∈ i.attributes, lexis.Closed s := by
  unfold attributes
  split <;> decide +kernel

theorem linesText_bodyLines {β : Type} (header : String) (members : List β) (lines : β → List String) :
    linesText (bodyLines header (members.map lines)) =
      if members.isEmpty then header ++ " \x7b\x7d" ++ "\n"
      else header ++ " \x7b" ++ "\n" ++
        String.join (members.map fun m => linesText ((lines m).map ("    " ++ ·))) ++ ("\x7d" ++ "\n") := by
  unfold bodyLines
  rw [List.isEmpty_map]
  split
  · rw [linesText_singleton]
  · rw [linesText_append, linesText_cons, linesText_singleton, List.map_flatten, linesText_flatten,
      List.map_map, List.map_map]
    rfl

theorem closed_renameLines (rename : Option String) : ∀ s ∈ renameLines rename, lexis.Closed s := by
  intro s hs
  obtain ⟨name, -, rfl⟩ := List.mem_map.1 hs
  exact Lexis.closed_append (Lexis.closed_append (by decide) (closed_quoted reads_lexis.symbols name))
    (by decide)

theorem imports_eq (i : Imports) :
    imports i = linesText ((sortedModules i).map fun e => importLine e.1 e.2) := by
  have hput := (Writer.empty 4).each_line (sortedModules i) fun e => importLine e.1 e.2
  rw [← Writer.text_put 4, ← hput]
  rfl

theorem mem_of_mem_sortedModules {i : Imports} {e : String × List String}
    (h : e ∈ sortedModules i) : e ∈ i.modules := by
  have hfold : ∀ (es acc : List (String × List String)), e ∈ es.foldl (fun ms d =>
      Data.insertEntry d.1 d.2 ms) acc → e ∈ es ∨ e ∈ acc := by
    intro es
    induction es with
    | nil => exact fun acc h => Or.inr h
    | cons d es ih =>
        intro acc h
        rcases ih _ h with h | h
        · exact Or.inl (List.mem_cons_of_mem d h)
        · rcases Data.mem_insertEntry h with rfl | h
          · exact Or.inl (List.mem_cons_self ..)
          · exact Or.inr h
  exact (hfold _ _ h).resolve_right List.not_mem_nil

section SameCode
variable {α β : Type} {form : List Char → α} (hform : IgnoresLayout form)
include hform

/-- Lines of code below their documentation. -/
theorem sameCode_docLines {docs ls : List String} (hdocs : OnLines docs)
    (h : ∀ s ∈ ls, lexis.Closed s) (n : Nat) :
    SameCode form lexis (linesText ((docLines docs ++ ls).map (blanks n ++ ·)))
      (linesText ((docLines [] ++ ls).map (blanks n ++ ·))) := by
  rw [List.map_append, List.map_append, linesText_append, linesText_append]
  refine sameCode_append (sameCode_docLinesText hform reads_lexis.lines hdocs n)
    (sameCode_linesText hform reads_lexis.lines fun s hs => ?_)
  obtain ⟨t, ht, rfl⟩ := List.mem_map.1 hs
  exact Lexis.closed_append (Lexis.vanishes_blanks reads_lexis.lines n).1 (h t ht)

theorem sameCode_docLines_outermost {docs ls : List String} (hdocs : OnLines docs)
    (h : ∀ s ∈ ls, lexis.Closed s) :
    SameCode form lexis (linesText (docLines docs ++ ls)) (linesText (docLines [] ++ ls)) := by
  have hmap : ∀ ls : List String, ls.map (blanks 0 ++ ·) = ls := by
    intro ls
    have hblanks : (blanks 0 ++ ·) = fun s : String => s := funext fun s => String.empty_append
    rw [hblanks, List.map_id']
  have hlines := sameCode_docLines hform hdocs h 0
  rwa [hmap, hmap] at hlines

/-- A header with members that are the same with and without documentation. -/
theorem sameCode_bodyLines {header : String} (hheader : lexis.Closed header) {members : List β}
    {lines lines' : β → List String}
    (h : ∀ m ∈ members, SameCode form lexis (linesText ((lines m).map ("    " ++ ·)))
      (linesText ((lines' m).map ("    " ++ ·)))) :
    SameCode form lexis (linesText (bodyLines header (members.map lines)))
      (linesText (bodyLines header (members.map lines'))) := by
  have hline : ∀ {s}, lexis.Closed s → SameCode form lexis (s ++ "\n") (s ++ "\n") :=
    sameCode_line hform reads_lexis.lines
  rw [linesText_bodyLines, linesText_bodyLines]
  split
  · exact hline (Lexis.closed_append hheader (by decide))
  · exact sameCode_append (sameCode_append (hline (Lexis.closed_append hheader (by decide)))
      (sameCode_join h)) (hline (by decide))

/-- A member below its documentation and the name that it is bound to. -/
theorem sameCode_renamedLine {docs : List String} (hdocs : OnLines docs) (rename : Option String)
    {line : String} (hline : lexis.Closed line) :
    SameCode form lexis (linesText ((docLines docs ++ renameLines rename ++ [line]).map ("    " ++ ·)))
      (linesText ((docLines [] ++ renameLines rename ++ [line]).map ("    " ++ ·))) := by
  rw [List.append_assoc, List.append_assoc]
  refine sameCode_docLines hform hdocs (fun s hs => ?_) 4
  rcases List.mem_append.1 hs with hs | hs
  · exact closed_renameLines _ s hs
  · exact List.mem_singleton.1 hs ▸ hline

theorem sameCode_fieldItem {f : RecordMember} (hdocs : OnLines f.docs)
    (htype : TypeConfined lexis f.type) {name : String} (hname : name.toList.all Lexis.inSyntax)
    (bound : Bool) :
    SameCode form lexis (linesText ((fieldItem bound f name).lines.map ("    " ++ ·)))
      (linesText ((fieldItem bound f name).withoutDocs.lines.map ("    " ++ ·))) := by
  have hline : lexis.Closed ("pub " ++ name ++ ": " ++ types.render f.type ++ ",") :=
    Lexis.closed_append (Lexis.closed_append (Lexis.closed_append (Lexis.closed_append (by decide)
      (Lexis.closed_of_inSyntax reads_lexis.symbols hname)) (by decide)) (closed_render htype))
      (by decide)
  exact sameCode_renamedLine hform hdocs _ hline

theorem sameCode_constantItem {v : EnumMember} (hdocs : OnLines v.docs) {name : String}
    (hname : name.toList.all Lexis.inSyntax) :
    SameCode form lexis (linesText ((constantItem v name).lines.map ("    " ++ ·)))
      (linesText ((constantItem v name).withoutDocs.lines.map ("    " ++ ·))) := by
  have hdiscriminant : lexis.Closed (discriminantText v.value.int64?) := by
    cases v.value.int64? with
    | none => exact (rfl : lexis.Closed "")
    | some i =>
        exact Lexis.closed_append (by decide)
          (Lexis.closed_of_isNumber reads_lexis.symbols (isNumber_int i))
  have hline : lexis.Closed (name ++ discriminantText v.value.int64? ++ ",") :=
    Lexis.closed_append (Lexis.closed_append (Lexis.closed_of_inSyntax reads_lexis.symbols hname)
      hdiscriminant) (by decide)
  exact sameCode_renamedLine hform hdocs _ hline

theorem sameCode_record {s : RecordDeclaration} (h : RecordConfined lexis OnLines s) :
    SameCode form lexis (record s) (record s.withoutDocs) := by
  have hheader : lexis.Closed ("pub struct " ++ s.name) :=
    Lexis.closed_append (by decide) (Lexis.closed_of_isIdentifier reads_lexis.symbols h.name)
  rw [record_eq_text, record_eq_text, structItem_withoutDocs, StructItem.text_eq, StructItem.text_eq]
  refine sameCode_append
    (sameCode_docLines_outermost hform h.docs (structItem s).closed_attributes) ?_
  show SameCode form lexis _ (linesText (bodyLines _ (((structItem s).members.map _).map _)))
  rw [List.map_map]
  refine sameCode_bodyLines hform hheader fun m hm => ?_
  obtain ⟨⟨f, name⟩, hf, rfl⟩ := List.mem_map.1 hm
  obtain ⟨hf, hname⟩ := List.of_mem_zip hf
  exact sameCode_fieldItem hform (h.fields f hf).1 (h.fields f hf).2
    (all_inSyntax_fieldNames s name hname) _

theorem sameCode_enumeration {s : EnumDeclaration} (h : EnumConfined OnLines s) :
    SameCode form lexis (enumeration s) (enumeration s.withoutDocs) := by
  have hheader : lexis.Closed ("pub enum " ++ s.name) :=
    Lexis.closed_append (by decide) (Lexis.closed_of_isIdentifier reads_lexis.symbols h.name)
  rw [enumeration_eq_text, enumeration_eq_text, enumItem_withoutDocs, EnumItem.text_eq,
    EnumItem.text_eq]
  refine sameCode_append
    (sameCode_docLines_outermost hform h.docs (enumItem s).closed_attributes) ?_
  show SameCode form lexis _ (linesText (bodyLines _ (((enumItem s).members.map _).map _)))
  rw [List.map_map]
  refine sameCode_bodyLines hform hheader fun m hm => ?_
  obtain ⟨⟨v, name⟩, hv, rfl⟩ := List.mem_map.1 hm
  obtain ⟨hv, hname⟩ := List.of_mem_zip hv
  exact sameCode_constantItem hform (h.members v hv) (all_inSyntax_constantNames s name hname)

theorem sameCode_imports {i : Imports} (hi : ImportsInSyntax i) :
    SameCode form lexis (imports i) (imports i) := by
  rw [imports_eq]
  refine sameCode_linesText hform reads_lexis.lines fun s hs => ?_
  obtain ⟨⟨module, symbols⟩, he, rfl⟩ := List.mem_map.1 hs
  obtain ⟨hmodule, hsymbols⟩ := hi _ (mem_of_mem_sortedModules he)
  have hstart : lexis.Closed ("use " ++ module) :=
    Lexis.closed_append (by decide) (Lexis.closed_of_inSyntax reads_lexis.symbols hmodule)
  show lexis.Closed (importLine module symbols)
  unfold importLine
  split
  · exact Lexis.closed_append hstart (by decide)
  · rename_i symbol
    have hsymbol := Lexis.closed_of_inSyntax reads_lexis.symbols (hsymbols symbol (by simp))
    exact Lexis.closed_append (Lexis.closed_append (Lexis.closed_append hstart (by decide)) hsymbol)
      (by decide)
  · exact Lexis.closed_append (Lexis.closed_append (Lexis.closed_append hstart (by decide))
      (closed_commaList reads_lexis.symbols hsymbols)) (by decide)

end SameCode

end SchemaSnippets.Target.Rust

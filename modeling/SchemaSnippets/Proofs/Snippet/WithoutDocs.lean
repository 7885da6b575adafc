import SchemaSnippets.Proofs.Snippet.OwnNames
import SchemaSnippets.Proofs.Target.Documented

/-!
# Models without documentation

Without documentation a model is the same but for the documentation. Its declarations, and the types that
it mentions, are named with identifiers.

* `ModelEntry.withoutDocs`, `SnippetModel.withoutDocs` : a model without its documentation;
  `build_withoutDocs` : it is what is built without documentation;
* `docs_build` : the documentation of a model is that of the declarations of its plan;
* `isIdentifier_of_mem_declaredNames`, `isIdentifier_of_mem_names` : names of a model;
* `ModelEntry.comments`, `SnippetModel.comments` : what a model writes in comments; `forall_mem_comments` : it
  is documentation, or is written without documentation, too.
-/

namespace SchemaSnippets.Snippet
open Code Model Request Schema Target

/-! ## Documentation left out -/

def ModelEntry.withoutDocs : ModelEntry → ModelEntry
  | .record s => .record s.withoutDocs
  | .enumeration s => .enumeration s.withoutDocs
  | .missing name => .missing name

def SnippetModel.withoutDocs (m : SnippetModel) : SnippetModel :=
  { m with entries := m.entries.map (·.withoutDocs) }

namespace Context
variable (c : Context)

/-- The same names and graph, without documentation. -/
def withoutDocs : Context :=
  { c with docs := false }

theorem memberType_withoutDocs (fuel : Nat) (seen : List String) (location : Option String)
    (t : SchemaType) (fs : Findings) :
    c.withoutDocs.memberType fuel seen location t fs = c.memberType fuel seen location t fs := by
  induction fuel generalizing seen t with
  | zero => rfl
  | succ fuel ih =>
      rw [memberType, memberType]
      simp only [ih]
      rfl

theorem attributeType_withoutDocs (source location : String) (a : Attribute) (fs : Findings) :
    c.withoutDocs.attributeType source location a fs = c.attributeType source location a fs := by
  unfold attributeType typeOf
  simp only [memberType_withoutDocs]
  rfl

theorem membersOf_withoutDocs (source name : String) (as : List Attribute) (fs : Findings) :
    c.withoutDocs.membersOf source name as fs =
      ((c.membersOf source name as fs).1.map (·.withoutDocs), (c.membersOf source name as fs).2) := by
  induction as generalizing fs with
  | nil => rfl
  | cons a as ih =>
      rw [membersOf, membersOf, attributeType_withoutDocs]
      simp only [ih]
      rfl

theorem recordDeclaration_withoutDocs (t : SchemaType) (fs : Findings) :
    c.withoutDocs.recordDeclaration t fs =
      ((c.recordDeclaration t fs).1.withoutDocs, (c.recordDeclaration t fs).2) := by
  unfold recordDeclaration
  simp only [membersOf_withoutDocs]
  rfl

theorem enumDeclaration_withoutDocs (t : SchemaType) (values : List EnumValue) :
    c.withoutDocs.enumDeclaration t values = (c.enumDeclaration t values).withoutDocs := by
  unfold enumDeclaration EnumDeclaration.withoutDocs
  rw [List.map_map]
  rfl

theorem entries_withoutDocs (ps : List PlanItem) (fs : Findings) :
    c.withoutDocs.entries ps fs =
      ((c.entries ps fs).1.map (·.withoutDocs), (c.entries ps fs).2) := by
  induction ps generalizing fs with
  | nil => rfl
  | cons p ps ih =>
      cases p with
      | missing name k =>
          rw [entries, entries]
          simp only [ih]
          rfl
      | declare t =>
          rw [entries, entries, recordDeclaration_withoutDocs]
          split
          · rw [enumDeclaration_withoutDocs]
            simp only [ih]
            rfl
          · simp only [ih]
            rfl

end Context

section Build
variable (p : Profile) (r : CodeRequest)

/-- What is built without documentation. -/
theorem build_withoutDocs :
    SnippetModel.build p r false = (SnippetModel.build p r true).withoutDocs := by
  have hcontext : contextOf p r false = (contextOf p r true).withoutDocs := rfl
  have hfindings : SnippetModel.planFindings (contextOf p r true).withoutDocs (planOf r) =
      SnippetModel.planFindings (contextOf p r true) (planOf r) := rfl
  rw [build_eq_modelIn, build_eq_modelIn, hcontext, modelIn, hfindings, Context.entries_withoutDocs]
  unfold SnippetModel.resultTypeOf Context.typeOf
  simp only [Context.memberType_withoutDocs]
  rfl

theorem memberTypes_withoutDocs (m : SnippetModel) : m.withoutDocs.memberTypes = m.memberTypes := by
  unfold SnippetModel.memberTypes SnippetModel.withoutDocs
  rw [List.flatMap_map]
  congr 1
  funext e
  cases e with
  | record s => exact List.map_map
  | enumeration s => rfl
  | missing name => rfl

end Build

/-! ## Documentation of declarations -/

/-- The documentation of an entry and of its members. -/
def ModelEntry.docs : ModelEntry → List (List String)
  | .record s => s.docs :: s.fields.map (·.docs)
  | .enumeration s => s.docs :: s.members.map (·.docs)
  | .missing _ => []

namespace Context
variable {c : Context}

/-- The documentation of a type that is declared, and of its members. -/
def docsOf (c : Context) (t : SchemaType) : List (List String) :=
  match t.kind with
  | .enumeration values => c.declarationDocs t :: values.map fun v => (c.enumMember v).docs
  | _ => c.declarationDocs t :: t.kind.attributes.map c.memberDocs

/-- Documentation has lines of the schema's texts, formats and annotations. -/
theorem forall_mem_docsOf {P : String → Prop} {t : SchemaType}
    (htext : ∀ doc, ∀ line ∈ trimmedLines doc, P line)
    (hformat : ∀ a ∈ t.kind.attributes, ∀ f ∈ c.shownFormat a, P (formatText f))
    (htag : ∀ tag ∈ c.shownTags, P ("@" ++ Unicode.lowercase tag)) :
    ∀ docs ∈ c.docsOf t, ∀ line ∈ docs, P line := by
  have htexts : ∀ doc : Option String, ∀ line ∈ doc.toList.flatMap trimmedLines, P line := by
    intro doc line hline
    obtain ⟨text, -, hline⟩ := List.mem_flatMap.1 hline
    exact htext text line hline
  have hshown : ∀ {lines : List String}, (∀ line ∈ lines, P line) →
      ∀ line ∈ (if c.docs then lines else []), P line := by
    intro lines h
    split
    · exact h
    · exact List.forall_mem_nil _
  have hmember : ∀ a ∈ t.kind.attributes, ∀ line ∈ c.memberDocs a, P line := by
    refine fun a ha => hshown (List.forall_mem_append.2 ⟨List.forall_mem_append.2 ⟨htexts a.doc, ?_⟩, ?_⟩)
    · exact List.forall_mem_map.2 fun f hf => hformat a ha f (Option.mem_toList.1 hf)
    · exact List.forall_mem_map.2 fun tag hmem => htag tag (List.mem_of_mem_filter hmem)
  unfold docsOf
  split
  · exact List.forall_mem_cons.2
      ⟨hshown (htexts t.doc), List.forall_mem_map.2 fun v _ => hshown (htexts v.doc)⟩
  · exact List.forall_mem_cons.2 ⟨hshown (htexts t.doc), List.forall_mem_map.2 hmember⟩

theorem map_docs_membersOf (source name : String) (as : List Attribute) (fs : Findings) :
    (c.membersOf source name as fs).1.map (·.docs) = as.map c.memberDocs := by
  induction as generalizing fs with
  | nil => rfl
  | cons a as ih => exact congrArg (c.memberDocs a :: ·) (ih _)

theorem docs_entries (ps : List PlanItem) (fs : Findings) :
    (c.entries ps fs).1.flatMap (·.docs) = (ps.filterMap (·.declared?)).flatMap c.docsOf := by
  -- what has been found so far goes from entry to entry, but no documentation depends on it
  induction ps generalizing fs with
  | nil => rfl
  | cons p ps ih =>
      cases p with
      | missing name k => exact ih fs
      | declare t =>
          show _ = c.docsOf t ++ (ps.filterMap (·.declared?)).flatMap c.docsOf
          unfold entries
          split
          · rename_i values hkind
            have hdocs : c.docsOf t = (ModelEntry.enumeration (c.enumDeclaration t values)).docs := by
              rw [docsOf, hkind, ModelEntry.docs, enumDeclaration, List.map_map]
              rfl
            rw [List.flatMap_cons, ih, hdocs]
          · rename_i hkind
            have hdocs : c.docsOf t = (ModelEntry.record (c.recordDeclaration t fs).1).docs := by
              have hfields := (c.map_docs_membersOf t.key (c.nameOf t) t.kind.attributes fs).symm
              unfold docsOf
              split
              · rename_i values hvalues
                exact absurd hvalues (hkind values)
              · exact congrArg (c.declarationDocs t :: ·) hfields
            rw [List.flatMap_cons, ih, hdocs]

end Context

/-- A model documents what its plan declares. -/
theorem docs_build (p : Profile) (r : CodeRequest) (docs : Bool) :
    (SnippetModel.build p r docs).entries.flatMap (·.docs) =
      (planOf r).declarations.flatMap (contextOf p r docs).docsOf :=
  Context.docs_entries _ _

/-! ## Names -/

section Names
variable {p : Profile} {r : CodeRequest} {docs : Bool}

theorem isIdentifier_of_mem_declaredNames {x : String} (h : x ∈ declaredNames p r docs) :
    isIdentifier x := by
  obtain ⟨shorts, n, hgiven⟩ := exists_given_of_mem_declaredNames h
  exact hgiven.isIdentifier

theorem mem_declaredNames_of_mem_entries {e : ModelEntry} {x : String}
    (he : e ∈ (SnippetModel.build p r docs).entries) (hx : e.declared? = some x) :
    x ∈ declaredNames p r docs :=
  List.mem_filterMap.2 ⟨e, he, hx⟩

/-- The types of members are named as they are declared. -/
theorem isIdentifier_of_mem_names {s : RecordDeclaration} {f : RecordMember} {x : String}
    (hs : .record s ∈ (SnippetModel.build p r docs).entries) (hf : f ∈ s.fields)
    (hx : x ∈ f.type.names) : isIdentifier x := by
  obtain ⟨t, ht, -, -, fs, rfl⟩ := exists_declaration_of_record hs
  have hmembers : List.Forall₂ _ _ ((contextOf p r docs).recordDeclaration t fs).1.fields :=
    closed_members ht fs
  obtain ⟨i, hi, rfl⟩ := List.getElem_of_mem hf
  have hi' : i < t.kind.attributes.length := hmembers.length_eq ▸ hi
  obtain ⟨-, hclosed⟩ := hmembers.get hi' hi
  obtain ⟨d, hd, hname⟩ := (hclosed.names x).1 hx
  have hdecl := hclosed.declared d hd
  have hnameIn : nameIn p r docs d = x := Option.some.inj ((get?_namesOf hdecl).symm.trans hname)
  have hmem : x ∈ declaredNames p r docs := by
    rw [declaredNames_eq, ← hnameIn]
    exact List.mem_map_of_mem hdecl
  exact isIdentifier_of_mem_declaredNames hmem

end Names

/-! ## Comments -/

/-- The notes in a type, as comments. -/
def noteComments (t : MemberType) : List Comment :=
  (t.notes.filterMap id).map fun note => .block [note]

/-- The comments of an entry, its documentation being written as `write` says. -/
def ModelEntry.comments (write : List String → List Comment) : ModelEntry → List Comment
  | .record s => write s.docs ++ s.fields.flatMap fun f => write f.docs ++ noteComments f.type
  | .enumeration s => write s.docs ++ s.members.flatMap fun v => write v.docs
  | .missing name => [.line name]

/-- What a model writes in comments that the schema says. -/
def SnippetModel.comments (write : List String → List Comment) (m : SnippetModel) : List Comment :=
  m.entries.flatMap (·.comments write)

/-- Comments are documentation, or stand there without documentation, too. -/
theorem ModelEntry.forall_mem_comments {write : List String → List Comment} {P : Comment → Prop}
    {e : ModelEntry} (hdocs : ∀ docs ∈ e.docs, ∀ c ∈ write docs, P c)
    (h : ∀ c ∈ e.withoutDocs.comments write, P c) : ∀ c ∈ e.comments write, P c := by
  cases e with
  | missing name => exact h
  | enumeration s =>
      obtain ⟨hown, hmembers⟩ := List.forall_mem_cons.1 hdocs
      refine List.forall_mem_append.2 ⟨hown, fun c hc => ?_⟩
      obtain ⟨v, hv, hc⟩ := List.mem_flatMap.1 hc
      exact hmembers _ (List.mem_map_of_mem hv) c hc
  | record s =>
      obtain ⟨hown, hmembers⟩ := List.forall_mem_cons.1 hdocs
      refine List.forall_mem_append.2 ⟨hown, fun c hc => ?_⟩
      obtain ⟨f, hf, hc⟩ := List.mem_flatMap.1 hc
      rcases List.mem_append.1 hc with hc | hc
      · exact hmembers _ (List.mem_map_of_mem hf) c hc
      · refine h c (List.mem_append_right _ (List.mem_flatMap.2 ⟨f.withoutDocs, ?_, ?_⟩))
        · exact List.mem_map_of_mem hf
        · exact List.mem_append_right _ hc

theorem SnippetModel.forall_mem_comments {write : List String → List Comment} {P : Comment → Prop}
    {m : SnippetModel} (hdocs : ∀ docs ∈ m.entries.flatMap (·.docs), ∀ c ∈ write docs, P c)
    (h : ∀ c ∈ m.withoutDocs.comments write, P c) : ∀ c ∈ m.comments write, P c := by
  intro c hc
  obtain ⟨e, he, hc⟩ := List.mem_flatMap.1 hc
  refine e.forall_mem_comments (fun docs hmem => hdocs docs ?_) (fun c hc => h c ?_) c hc
  · exact List.mem_flatMap.2 ⟨e, he, hmem⟩
  · exact List.mem_flatMap.2 ⟨e.withoutDocs, List.mem_map_of_mem he, hc⟩

section Confined
variable {p : Profile} {r : CodeRequest} {docs : Bool} {L : Lexis} {write : List String → List Comment}

theorem typeConfined_of_comments {t : MemberType} (hnames : ∀ x ∈ t.names, isIdentifier x)
    (h : ∀ c ∈ noteComments t, L.Confined c) : TypeConfined L t := by
  refine ⟨hnames, fun note hnote => h _ (List.mem_map_of_mem ?_)⟩
  exact List.mem_filterMap.2 ⟨some note, hnote, rfl⟩

theorem recordConfined_of_comments {s : RecordDeclaration}
    (hs : .record s ∈ (SnippetModel.build p r docs).entries)
    (h : ∀ c ∈ (ModelEntry.record s).comments write, L.Confined c) :
    RecordConfined L (fun docs => ∀ c ∈ write docs, L.Confined c) s := by
  obtain ⟨hdocs, hfields⟩ := List.forall_mem_append.1 h
  refine ⟨isIdentifier_of_mem_declaredNames (mem_declaredNames_of_mem_entries hs rfl), hdocs, ?_⟩
  intro f hf
  have hcomments := fun c hc => hfields c (List.mem_flatMap.2 ⟨f, hf, hc⟩)
  obtain ⟨hdocs, hnotes⟩ := List.forall_mem_append.1 hcomments
  exact ⟨hdocs, typeConfined_of_comments (fun x => isIdentifier_of_mem_names hs hf) hnotes⟩

theorem enumConfined_of_comments {s : EnumDeclaration}
    (hs : .enumeration s ∈ (SnippetModel.build p r docs).entries)
    (h : ∀ c ∈ (ModelEntry.enumeration s).comments write, L.Confined c) :
    EnumConfined (fun docs => ∀ c ∈ write docs, L.Confined c) s := by
  obtain ⟨hdocs, hmembers⟩ := List.forall_mem_append.1 h
  refine ⟨isIdentifier_of_mem_declaredNames (mem_declaredNames_of_mem_entries hs rfl), hdocs, ?_⟩
  exact fun v hv c hc => hmembers c (List.mem_flatMap.2 ⟨v, hv, hc⟩)

end Confined

end SchemaSnippets.Snippet

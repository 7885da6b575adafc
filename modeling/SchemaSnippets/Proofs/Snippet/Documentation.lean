import SchemaSnippets.Proofs.Snippet.WithoutDocs
import SchemaSnippets.Proofs.Target.Rust.Documented

/-!
# Documentation is no code

What a compiler sees of a model snippet is the same with documentation and without, if nothing that stands
in the comments of the model ends them.

* `sameCode_joinSections` : sections that may stand for each other;
* `WritesCode` : what a language has to write for this; `sameCode_sections` : then the sections of a model
  may stand for those without documentation; `modelText?_withoutDocs` : both have the same code;
* `TypeScript.writesCode`, `Kotlin.writesCode`, `Rust.writesCode` : three languages do;
* `commenting?` : how the comments of a language are written and read; `code_model_withoutDocs` : a model
  has the same code with documentation and without;
* `Rust.confined_trimmedLines` : what a documentation says ends no comment of Rust;
  `Rust.code_model_of_confined_patterns` : so only what a model writes without documentation, and the patterns
  of its formats, could be code.
-/

namespace SchemaSnippets.Snippet
open Code Model Request Schema Target

/-! ## Sections -/

section Sections
variable {α : Type} {form : List Char → α} {L : Lexis}

theorem joinSections_singleton (s : String) : joinSections [s] = Text.trimEndFeeds s ++ "\n" := by
  rw [joinSections, List.map_singleton, String.intercalate_singleton]

theorem joinSections_cons_cons (s t : String) (ss : List String) :
    joinSections (s :: t :: ss) =
      Text.trimEndFeeds s ++ "\n" ++ ("\n" ++ joinSections (t :: ss)) := by
  have hfeeds : "\n\n" = "\n" ++ "\n" := rfl
  rw [joinSections, List.map_cons, List.map_cons, String.intercalate_cons_cons, joinSections,
    List.map_cons]
  simp only [String.append_assoc, hfeeds]

/-- Sections are divided by empty lines. -/
theorem sameCode_joinSections (hform : IgnoresLayout form) (hL : L.ReadsLines) {ss ss' : List String}
    (h : List.Forall₂ (SameCode form L) ss ss') :
    SameCode form L (joinSections ss) (joinSections ss') := by
  have htrim : ∀ {s s'}, SameCode form L s s' →
      SameCode form L (Text.trimEndFeeds s ++ "\n") (Text.trimEndFeeds s' ++ "\n") := fun hs =>
    (sameCode_trimEndFeeds hform hL hs.left).trans
      (hs.trans (sameCode_trimEndFeeds hform hL hs.right).symm)
  have hempty : SameCode form L "\n" "\n" := sameCode_line hform hL (rfl : L.Closed "")
  induction h with
  | nil => exact hempty
  | cons hs hrest ih =>
      cases hrest with
      | nil =>
          rw [joinSections_singleton, joinSections_singleton]
          exact htrim hs
      | cons ht hrest =>
          rw [joinSections_cons_cons, joinSections_cons_cons]
          exact sameCode_append (htrim hs) (sameCode_append hempty ih)

end Sections

/-! ## Languages -/

/-- A character that ends a line in some language. -/
def breaksLine (c : Char) : Bool :=
  ['\n', '\r', '\u2028', '\u2029'].contains c

theorem unsupportedNote_no_break (k : Primitive) : (unsupportedNote k).toList.any breaksLine = false := by
  cases k <;> decide

/-- A language whose declarations are the same code with documentation and without, if comments do not
end early. `write` says how documentation is written in comments. -/
structure WritesCode {α : Type} (p : Profile) (L : Lexis) (form : List Char → α)
    (write : List String → List Comment) : Prop where
  layout : IgnoresLayout form
  reads : L.Reads
  record : ∀ {s}, RecordConfined L (fun docs => ∀ c ∈ write docs, L.Confined c) s →
    SameCode form L (p.declarations.record s) (p.declarations.record s.withoutDocs)
  enumeration : ∀ {s}, EnumConfined (fun docs => ∀ c ∈ write docs, L.Confined c) s →
    SameCode form L (p.declarations.enumeration s) (p.declarations.enumeration s.withoutDocs)
  imports : ∀ {i}, ImportsInSyntax i → SameCode form L (p.imports i) (p.imports i)
  needs : ∀ i ∈ p.ownImports, InSyntax i.1 ∧ InSyntax i.2
  /-- The model's own notes are of one line. -/
  lineEnds : L.lineEnds.all breaksLine
  untyped : p.types.untyped.toList.any breaksLine = false

section WritesCode
variable {α : Type} {p : Profile} {L : Lexis} {form : List Char → α} {write : List String → List Comment}
  {r : CodeRequest}

theorem mem_ownImports_of_mem_needs {t : MemberType} {i : Import} (h : i ∈ p.types.needs t) :
    i ∈ p.ownImports := by
  unfold Profile.ownImports
  induction t with
  | primitive k =>
      rw [TypeSyntax.needs] at h
      split at h
      · simp [List.mem_flatMap.2 ⟨k, k.mem_all, h⟩]
      · cases h
  | optional t ih => exact ih h
  | array t ih => exact ih h
  | stream t ih =>
      rcases List.mem_append.1 h with h | h
      · simp [h]
      · exact ih h
  | recursive t ih => exact ih h
  | named name => cases h
  | untyped note => cases h

theorem importsInSyntax_importsOf (hp : WritesCode p L form write) (m : SnippetModel) :
    ImportsInSyntax (importsOf p m) := by
  refine Imports.forall_mem_addAll (fun e he => by cases he) fun i hi => hp.needs i ?_
  rcases List.mem_append.1 hi with hi | hi
  · exact List.mem_append_right _ hi
  · obtain ⟨t, -, ht⟩ := List.mem_flatMap.1 hi
    exact mem_ownImports_of_mem_needs ht

theorem confined_of_no_break (hp : WritesCode p L form write) {s : String}
    (h : s.toList.any breaksLine = false) : L.Confined (.line s) :=
  fun c hc hend => List.any_eq_false.1 h c hc (List.all_eq_true.1 hp.lineEnds c hend)

/-- A text that is nothing but comments. -/
theorem sameCode_of_vanishes (hform : IgnoresLayout form) {s : String} (hs : L.Vanishes s)
    (hlines : WholeLines s) : SameCode form L s s := by
  have hblank : SameCode form L s "" := sameCode_blank hform ⟨hs.1, hlines⟩ hs.2
  exact hblank.trans hblank.symm

theorem sameCode_missingLine (hp : WritesCode p L form write) {name : String}
    (h : L.Confined (.line name)) : SameCode form L (missingLine name) (missingLine name) := by
  have htext : L.Confined (.line ("unknown type '" ++ name ++ "': declaration skipped")) :=
    Lexis.confined_append (Lexis.confined_append (confined_of_no_break hp (by decide)) h)
      (confined_of_no_break hp (by decide))
  exact sameCode_of_vanishes hp.layout (Lexis.vanishes_lineComment hp.reads.lines htext)
    (wholeLines_line _)

theorem sameCode_unsupported (hp : WritesCode p L form write) (kinds : List Primitive) :
    SameCode form L (String.join (kinds.map (unsupportedLine p.types)))
      (String.join (kinds.map (unsupportedLine p.types))) := by
  refine sameCode_join fun k _ => ?_
  have htext : L.Confined (.line (unsupportedNote k ++ ": rendered as " ++ p.types.untyped)) :=
    Lexis.confined_append (Lexis.confined_append
      (confined_of_no_break hp (unsupportedNote_no_break k)) (confined_of_no_break hp (by decide)))
      (confined_of_no_break hp hp.untyped)
  exact sameCode_of_vanishes hp.layout (Lexis.vanishes_lineComment hp.reads.lines htext)
    (wholeLines_line _)

/-- An entry of a model, its comments being confined. -/
theorem sameCode_entryText (hp : WritesCode p L form write) {e : ModelEntry}
    (he : e ∈ (SnippetModel.build p r true).entries) (h : ∀ c ∈ e.comments write, L.Confined c) :
    SameCode form L (entryText p e) (entryText p e.withoutDocs) := by
  cases e with
  | record s => exact hp.record (recordConfined_of_comments he h)
  | enumeration s => exact hp.enumeration (enumConfined_of_comments he h)
  | missing name => exact sameCode_missingLine hp (h _ (List.mem_singleton_self _))

/-- The sections of a model may stand for those of the model without documentation. -/
theorem sameCode_sections (hp : WritesCode p L form write)
    (h : ∀ c ∈ (SnippetModel.build p r true).comments write, L.Confined c) :
    List.Forall₂ (SameCode form L) (sections p (SnippetModel.build p r true))
      (sections p (SnippetModel.build p r false)) := by
  rw [build_withoutDocs]
  generalize hm : SnippetModel.build p r true = m at h
  have himports : importsOf p m.withoutDocs = importsOf p m := by
    rw [importsOf, memberTypes_withoutDocs]
    rfl
  have hunsupported : unsupported p.types m.withoutDocs = unsupported p.types m := by
    rw [unsupported, memberTypes_withoutDocs]
    rfl
  unfold sections
  rw [himports, hunsupported]
  refine List.rel_append (List.rel_append ?_ ?_) ?_
  · show List.Forall₂ _ _ (if m.declares && !(importsOf p m).isEmpty then _ else _)
    split
    · exact .cons (hp.imports (importsInSyntax_importsOf hp m)) .nil
    · exact .nil
  · split
    · exact .nil
    · exact .cons (sameCode_unsupported hp _) .nil
  · show List.Forall₂ _ (m.entries.map _) ((m.entries.map _).map _)
    rw [List.map_map, List.forall₂_map_left_iff, List.forall₂_map_right_iff, List.forall₂_same]
    intro e he
    refine sameCode_entryText hp (r := r) ?_ fun c hc => h c (List.mem_flatMap.2 ⟨e, he, hc⟩)
    rwa [hm]

/-- The texts of both models have the same code. -/
theorem modelText?_withoutDocs (hp : WritesCode p L form write)
    (h : ∀ c ∈ (SnippetModel.build p r true).comments write, L.Confined c) :
    (modelText? p (SnippetModel.build p r true)).map (fun s => form (L.strip s)) =
      (modelText? p (SnippetModel.build p r false)).map fun s => form (L.strip s) := by
  have hsections := sameCode_sections hp h
  unfold modelText?
  generalize sections p (SnippetModel.build p r true) = ss at hsections
  generalize sections p (SnippetModel.build p r false) = ss' at hsections
  cases hsections with
  | nil => rfl
  | cons hs hrest =>
      have hjoin := sameCode_joinSections hp.layout hp.reads.lines (.cons hs hrest)
      exact congrArg some hjoin.strip_eq

end WritesCode

/-! ### Three languages -/

theorem TypeScript.writesCode :
    WritesCode TypeScript.profile TypeScript.lexis joinUnions fun docs => [.block docs] where
  layout := ignoresLayout_joinUnions
  reads := TypeScript.reads_lexis
  record h := TypeScript.sameCode_record ignoresLayout_joinUnions
    (h.imp fun _ hdocs => hdocs _ (List.mem_singleton_self _))
  enumeration h := TypeScript.sameCode_enumeration
    (h.imp fun _ hdocs => hdocs _ (List.mem_singleton_self _))
  imports hi := TypeScript.sameCode_imports ignoresLayout_joinUnions hi
  needs := by decide
  lineEnds := by decide
  untyped := by decide

theorem Kotlin.writesCode :
    WritesCode Kotlin.profile Kotlin.lexis codeLines fun docs => [.block docs] where
  layout := ignoresLayout_codeLines
  reads := Kotlin.reads_lexis
  record h := Kotlin.sameCode_record ignoresLayout_codeLines
    (h.imp fun _ hdocs => hdocs _ (List.mem_singleton_self _))
  enumeration h := Kotlin.sameCode_enumeration ignoresLayout_codeLines
    (h.imp fun _ hdocs => hdocs _ (List.mem_singleton_self _))
  imports hi := Kotlin.sameCode_imports ignoresLayout_codeLines hi
  needs := by decide
  lineEnds := by decide
  untyped := by decide

theorem Rust.writesCode :
    WritesCode Rust.profile Rust.lexis codeLines fun docs => docs.map .line where
  layout := ignoresLayout_codeLines
  reads := Rust.reads_lexis
  record h := Rust.sameCode_record ignoresLayout_codeLines
    (h.imp fun _ hdocs => List.forall_mem_map.1 hdocs)
  enumeration h := Rust.sameCode_enumeration ignoresLayout_codeLines
    (h.imp fun _ hdocs => List.forall_mem_map.1 hdocs)
  imports hi := Rust.sameCode_imports ignoresLayout_codeLines hi
  needs := by decide
  lineEnds := by decide
  untyped := by decide

/-! ## Model snippets -/

/-- How comments are read and written in a language, and what is layout in its declarations beside blank
lines and the white space around lines. -/
structure Commenting where
  lexis : Lexis
  write : List String → List Comment
  layout : List Char → List Char

/-- The lines of a text without comments. -/
def Commenting.code (c : Commenting) (s : String) : List (List Char) :=
  codeLines (c.layout (c.lexis.strip s))

def commenting? : Target → Option Commenting
  | .typescript => some ⟨TypeScript.lexis, fun docs => [.block docs], joinUnions⟩
  | .kotlin => some ⟨Kotlin.lexis, fun docs => [.block docs], id⟩
  | .rust => some ⟨Rust.lexis, fun docs => docs.map .line, id⟩
  | _ => none

/-- The model snippet of a request. -/
def modelOf? (t : Target) (r : CodeRequest) (o : Options) : Option String :=
  ((generate t r o).snippets.find? (·.label == modelLabel)).map (·.content)

theorem modelOf?_eq {t : Target} (ht : t.profile.declaresModel) (r : CodeRequest) (o : Options) :
    modelOf? t r o = modelText? t.profile (SnippetModel.build t.profile r o.docs) := by
  unfold modelOf? generate
  rw [if_pos ht]
  unfold withModel
  dsimp only
  cases modelText? t.profile (SnippetModel.build t.profile r o.docs) with
  | none => rfl
  | some text => rfl

/-- Documentation is no code: without comments, a model is the same with documentation and without, if
nothing that stands in its comments ends them. -/
theorem code_model_withoutDocs {t : Target} {c : Commenting} (ht : commenting? t = some c)
    (r : CodeRequest)
    (h : ∀ comment ∈ (SnippetModel.build t.profile r true).comments c.write, c.lexis.Confined comment)
    (client : String) :
    (modelOf? t r ⟨client, true⟩).map c.code = (modelOf? t r ⟨client, false⟩).map c.code := by
  cases t with
  | typescript =>
      obtain rfl := Option.some.inj ht
      have hmodel := congrArg (Option.map codeLines) (modelText?_withoutDocs TypeScript.writesCode h)
      rw [Option.map_map, Option.map_map] at hmodel
      rw [modelOf?_eq rfl, modelOf?_eq rfl]
      exact hmodel
  | kotlin =>
      obtain rfl := Option.some.inj ht
      rw [modelOf?_eq rfl, modelOf?_eq rfl]
      exact modelText?_withoutDocs Kotlin.writesCode h
  | rust =>
      obtain rfl := Option.some.inj ht
      rw [modelOf?_eq rfl, modelOf?_eq rfl]
      exact modelText?_withoutDocs Rust.writesCode h
  | json => cases ht
  | sheets => cases ht
  | unmapped language => cases ht

/-! ### Documented genres and films -/

/-- Genres, with documentation for all of them and for the first. -/
def documentedGenres (doc firstDoc : String) : CodeRequest :=
  let genres : SchemaType := .ofKind (.ofFull "films.Genre") (.enumeration
    [⟨"DRAMA", .string "drama", [], some firstDoc⟩, ⟨"SCI_FI", .integer 2, [], none⟩])
  ⟨"find { Genre }", .ofFull "films.Genre", .ofTypes [{ genres with doc := some doc }] []⟩

/-- A film with a genre that is not defined, and a documented title. -/
def titledFilm (genre : String) : CodeRequest :=
  let film : SchemaType := .ofKind (.ofFull "Film") (.record
    [⟨"genre", .ofFull genre, false, [], none, none⟩,
      ⟨"title", .ofFull "lang.taxi.String", false, [], none, some "Title"⟩])
  ⟨"find { Film }", .ofFull "Film", .ofTypes [film] []⟩

/-- Marks that begin a comment do no harm in a block of TypeScript. -/
theorem code_genres :
    (∀ comment ∈ (SnippetModel.build TypeScript.profile
        (documentedGenres "Genres /* and // more" "Serious") true).comments
          fun docs => [.block docs], TypeScript.lexis.Confined comment) ∧
    (modelOf? .typescript (documentedGenres "Genres /* and // more" "Serious") ⟨"client", true⟩).map
        (fun s => codeLines (joinUnions (TypeScript.lexis.strip s))) =
      (modelOf? .typescript (documentedGenres "Genres /* and // more" "Serious") ⟨"client", false⟩).map
        fun s => codeLines (joinUnions (TypeScript.lexis.strip s)) := by
  have hconfined : ∀ comment ∈ (SnippetModel.build TypeScript.profile
      (documentedGenres "Genres /* and // more" "Serious") true).comments
        fun docs => [.block docs], TypeScript.lexis.Confined comment := by
    decide +kernel
  exact ⟨hconfined, code_model_withoutDocs (t := .typescript) rfl _ hconfined "client"⟩

/-- The lines of a model without comments are others with documentation than without. -/
abbrev DependsOnDocs (t : Target) (L : Lexis) (r : CodeRequest) : Prop :=
  (modelOf? t r ⟨"client", true⟩).map (fun s => codeLines (L.strip s)) ≠
    (modelOf? t r ⟨"client", false⟩).map fun s => codeLines (L.strip s)

/-- The members of a union are on lines of their own if one is documented. A text that ends its comment, or
that begins another one in Kotlin, leaves documentation in the code, and so does a quote behind a note that
ends its comment. -/
theorem documentation_in_code :
    DependsOnDocs .typescript TypeScript.lexis (documentedGenres "" "Serious") ∧
    DependsOnDocs .typescript TypeScript.lexis (documentedGenres "Genres */" "") ∧
    DependsOnDocs .kotlin Kotlin.lexis (documentedGenres "Genres /*" "") ∧
    DependsOnDocs .typescript TypeScript.lexis (titledFilm "*/") := by
  decide +kernel

/-! ## Lines of documentation -/

/-- A piece has a line feed at its end or none. -/
theorem eq_of_mem_pieces {cs q : List Char} (h : q ∈ Text.pieces cs) :
    ∃ line, '\n' ∉ line ∧ (q = line ∨ q = line ++ ['\n']) := by
  induction cs generalizing q with
  | nil => cases h
  | cons c cs ih =>
      rw [Text.pieces] at h
      split at h
      · rcases List.mem_cons.1 h with rfl | h
        · exact ⟨[], List.not_mem_nil, Or.inr rfl⟩
        · exact ih h
      · rename_i hc
        split at h
        · rw [List.mem_singleton.1 h]
          exact ⟨[c], fun hmem => hc (List.mem_singleton.1 hmem).symm, Or.inl rfl⟩
        · rename_i first rest hpieces
          rw [hpieces] at ih
          rcases List.mem_cons.1 h with rfl | h
          · obtain ⟨line, hline, hfirst⟩ := ih (List.mem_cons_self ..)
            have hfeed : '\n' ∉ c :: line := List.not_mem_cons_of_ne_of_not_mem (Ne.symm hc) hline
            exact ⟨c :: line, hfeed, hfirst.imp (congrArg _) (congrArg _)⟩
          · exact ih (List.mem_cons_of_mem _ h)

theorem feed_notMem_dropLineEnd {cs q : List Char} (h : q ∈ Text.pieces cs) :
    '\n' ∉ Text.dropLineEnd q := by
  obtain ⟨line, hline, rfl | rfl⟩ := eq_of_mem_pieces h
  · unfold Text.dropLineEnd
    split
    · rename_i hreverse
      exact absurd (List.mem_reverse.1 (hreverse ▸ List.mem_cons_self ..)) hline
    · rename_i hreverse
      exact absurd (List.mem_reverse.1 (hreverse ▸ List.mem_cons_self ..)) hline
    · exact hline
  · unfold Text.dropLineEnd
    rw [List.reverse_append, List.reverse_singleton, List.singleton_append]
    split
    · rename_i hreverse
      intro hmem
      refine hline (List.mem_reverse.1 ?_)
      rw [(List.cons.inj hreverse).2]
      exact List.mem_cons_of_mem _ (List.mem_reverse.1 hmem)
    · rename_i hreverse
      rwa [← (List.cons.inj hreverse).2, List.reverse_reverse]
    · rename_i hreverse
      exact absurd rfl (hreverse _)

theorem feed_notMem_trimmedLines {doc line : String} (h : line ∈ trimmedLines doc) :
    '\n' ∉ line.toList := by
  rw [trimmedLines, Text.lines, List.map_map] at h
  obtain ⟨q, hq, rfl⟩ := List.mem_map.1 h
  have hkept : ∀ cs : List Char, ∀ c ∈ Text.trimChars cs, c ∈ cs := by
    intro cs c hc
    have hend := (List.dropWhile_sublist _).subset (List.mem_reverse.1 hc)
    exact (List.dropWhile_sublist _).subset (List.mem_reverse.1 hend)
  rw [Function.comp_apply, Text.trim, String.toList_ofList, String.toList_ofList]
  exact fun hmem => feed_notMem_dropLineEnd hq (hkept _ _ hmem)

/-! ### Rust -/

namespace Rust
open Target.Rust

/-- The lines of a documentation stay in their comments, whatever they say. -/
theorem confined_trimmedLines (doc : String) : ∀ line ∈ trimmedLines doc, lexis.Confined (.line line) := by
  intro line hline c hc hend
  rw [List.mem_singleton.1 hend] at hc
  exact feed_notMem_trimmedLines hline hc

theorem confined_signed (i : Int) : lexis.Confined (.line (signed i)) := by
  have hnumber : lexis.Confined (.line (toString i)) := by
    intro c hc hend
    rw [List.mem_singleton.1 hend] at hc
    exact absurd (List.all_eq_true.1 (Number.isNumber_int i).1 _ hc) (by decide)
  unfold signed
  split
  · exact hnumber
  · exact Lexis.confined_append (by decide) hnumber

/-- A format is shown with its patterns as they are. -/
theorem confined_formatText {f : ValueFormat} (h : ∀ p ∈ f.patterns, lexis.Confined (.line p)) :
    lexis.Confined (.line (formatText f)) := by
  have hquoted : ∀ p ∈ f.patterns, lexis.Confined (.line ("`" ++ p ++ "`")) := fun p hp =>
    Lexis.confined_append (Lexis.confined_append (by decide) (h p hp)) (by decide)
  have hempty : lexis.Confined (.line "") := by decide
  have hshown : lexis.Confined (.line (if f.patterns.isEmpty then "" else
      " " ++ ", ".intercalate (f.patterns.map fun p => "`" ++ p ++ "`"))) := by
    split
    · exact hempty
    · exact Lexis.confined_append (by decide)
        (Lexis.confined_intercalate (by decide) (List.forall_mem_map.2 hquoted))
  refine Lexis.confined_append (Lexis.confined_append (by decide) hshown) ?_
  cases f.offset with
  | none => exact hempty
  | some offset =>
      exact Lexis.confined_append (Lexis.confined_append (by decide) (confined_signed offset)) (by decide)

/-- The patterns of the formats that the members of a model show. -/
def shownPatterns (r : CodeRequest) : List String :=
  (planOf r).declarations.flatMap fun t => t.kind.attributes.flatMap fun a =>
    ((contextOf profile r true).shownFormat a).toList.flatMap (·.patterns)

/-- No documentation ends its comments, if the patterns in it do not. -/
theorem confined_docs {r : CodeRequest} (h : ∀ p ∈ shownPatterns r, lexis.Confined (.line p)) :
    ∀ docs ∈ (SnippetModel.build profile r true).entries.flatMap (·.docs),
      ∀ line ∈ docs, lexis.Confined (.line line) := by
  have htags : ∀ tag ∈ (contextOf profile r true).shownTags,
      lexis.Confined (.line ("@" ++ Unicode.lowercase tag)) := List.forall_mem_nil _
  rw [docs_build]
  intro docs hdocs
  obtain ⟨t, ht, hdocs⟩ := List.mem_flatMap.1 hdocs
  refine Context.forall_mem_docsOf confined_trimmedLines (fun a ha f hf => ?_) htags docs hdocs
  refine confined_formatText fun p hp => h p (List.mem_flatMap.2 ⟨t, ht, List.mem_flatMap.2 ⟨a, ha, ?_⟩⟩)
  exact List.mem_flatMap.2 ⟨f, Option.mem_toList.2 hf, hp⟩

/-- Whatever is documented, a model in Rust has the same code with documentation and without, if nothing that
it writes in comments without documentation ends them, and no pattern of a format does. -/
theorem code_model_of_confined_patterns (r : CodeRequest)
    (hcomments : ∀ comment ∈ (SnippetModel.build profile r false).comments fun docs => docs.map .line,
      lexis.Confined comment)
    (hpatterns : ∀ p ∈ shownPatterns r, lexis.Confined (.line p)) (client : String) :
    (modelOf? .rust r ⟨client, true⟩).map (fun s => codeLines (lexis.strip s)) =
      (modelOf? .rust r ⟨client, false⟩).map fun s => codeLines (lexis.strip s) := by
  have hall : ∀ comment ∈ (SnippetModel.build profile r true).comments fun docs => docs.map .line,
      lexis.Confined comment := by
    refine SnippetModel.forall_mem_comments (fun docs hdocs => ?_) (build_withoutDocs profile r ▸ hcomments)
    exact List.forall_mem_map.2 (confined_docs hpatterns docs hdocs)
  rw [modelOf?_eq rfl, modelOf?_eq rfl]
  exact modelText?_withoutDocs writesCode hall

end Rust

end SchemaSnippets.Snippet

import SchemaSnippets.Proofs.Snippet.Documentation
import SchemaSnippets.Proofs.Snippet.SharedFindings
import SchemaSnippets.Proofs.Target.TypeParts

/-!
# Placeholders for unsupported primitives

A primitive that a language has no type for is written as the most general type with a note. The model
then has a line about its kind, and its kind is reported. Lines and reports are collected from the types
of members and of the result, apart from the texts of these types.

* `isStructural_of_mem_memberTypes`, `isStructural_of_mem_resultType` : no type mentions a collection or a
  stream as a primitive;
* `mem_unsupported` : the collected kinds are those that some text has a note about, each once;
* `unsupportedKinds_withModel`, `mapDiagnostics_withModel` : the reports;
* `placeholders_exact` : a line, a failure and a diagnostic for each of these kinds, and none else.
-/

namespace SchemaSnippets.Target
open Model Schema

/-- In the neutral syntax the note stands in the text, with the most general type. -/
theorem Neutral.noted_infix {t : MemberType} {k : Primitive} (h : types.Shows t (.unsupported k)) :
    (types.noted (unsupportedNote k)).toList <:+: (types.render t).toList := by
  obtain ⟨parts, hwrites, hpart⟩ := h
  have hwrap : ∀ {cs : List Char} {text : String} (before after : String), cs <:+: text.toList →
      cs <:+: (before ++ text ++ after).toList := by
    intro cs text before after hinfix
    rw [String.toList_append, String.toList_append]
    exact hinfix.trans (List.infix_append _ _ _)
  generalize types.render t = text at hwrites
  induction hwrites with
  | primitive hsome => cases hsome
  | unsupported _ =>
      obtain rfl := TypePart.unsupported.inj (List.mem_singleton.1 hpart)
      exact List.infix_refl _
  | @optional t text parts _ ih =>
      have htext : types.optional text = "" ++ text ++ "?" := by rw [String.empty_append]; rfl
      rw [htext]
      exact hwrap _ _ (ih hpart)
  | @array t text parts _ ih =>
      have htext : types.array text = "" ++ text ++ "[]" := by rw [String.empty_append]; rfl
      rw [htext]
      exact hwrap _ _ (ih hpart)
  | stream _ ih => exact hwrap "Stream<" ">" (ih ((List.mem_cons.1 hpart).resolve_left (by simp)))
  | recursive _ ih => exact ih hpart
  | named name => cases hpart
  | untyped => cases hpart
  | noted note => cases hpart

end SchemaSnippets.Target

namespace SchemaSnippets.Snippet
open Code Model Request Schema Target

/-! ## Kinds in the types of a model -/

namespace Context
variable {c : Context} {location : Option String} {t : SchemaType} {fs : Findings} {k : Primitive}

/-- Collections and streams are not mentioned as primitives, whatever a type is or inherits from. -/
theorem isStructural_of_mem_memberType {fuel : Nat} {seen : List String}
    (h : k ∈ (c.memberType fuel seen location t fs).1.primitives) : k.isStructural = false := by
  induction fuel generalizing seen t fs with
  | zero => cases h
  | succ fuel ih =>
      unfold memberType at h
      split at h
      · cases h
      · split at h
        · rename_i kind _
          split at h
          · cases h
          · rename_i hkind
            rw [List.mem_singleton.1 h]
            exact Bool.eq_false_iff.2 hkind
        · cases h
        · cases h
        · split at h
          · split at h
            · cases h
            · rename_i hkind
              rw [List.mem_singleton.1 h]
              exact Bool.eq_false_iff.2 hkind
          · cases h
        · rename_i element _
          cases hresolve : c.graph.resolve element with
          | ok u =>
              rw [hresolve] at h
              exact ih h
          | error e =>
              rw [hresolve] at h
              cases h
        · rename_i element _
          cases hresolve : c.graph.resolve element with
          | ok u =>
              rw [hresolve] at h
              exact ih h
          | error e =>
              rw [hresolve] at h
              cases h

theorem isStructural_of_mem_attributeType {source place : String} {a : Attribute}
    (h : k ∈ (c.attributeType source place a fs).1.primitives) : k.isStructural = false := by
  unfold attributeType at h
  split at h
  · dsimp only at h
    split at h
    · exact isStructural_of_mem_memberType h
    · exact isStructural_of_mem_memberType h
  · cases h

end Context

section Types
variable {p : Profile} {r : CodeRequest} {docs : Bool} {t : MemberType} {k : Primitive}

theorem isStructural_of_mem_memberTypes (ht : t ∈ (SnippetModel.build p r docs).memberTypes)
    (hk : k ∈ t.primitives) : k.isStructural = false := by
  obtain ⟨e, he, ht⟩ := List.mem_flatMap.1 ht
  cases e with
  | enumeration s => cases ht
  | missing name => cases ht
  | record s =>
      obtain ⟨f, hf, rfl⟩ := List.mem_map.1 ht
      obtain ⟨d, -, -, -, fs, rfl⟩ := exists_declaration_of_record he
      obtain ⟨a, -, fs', place, htype⟩ := Context.exists_attribute_of_mem hf
      rw [htype] at hk
      split at hk
      · exact Context.isStructural_of_mem_attributeType hk
      · exact Context.isStructural_of_mem_attributeType hk

theorem isStructural_of_mem_resultType
    (hk : k ∈ (SnippetModel.build p r docs).resultType.primitives) : k.isStructural = false := by
  have hresult : ∀ {c n fs}, k ∈ (SnippetModel.resultTypeOf c n fs).1.primitives →
      k.isStructural = false := by
    intro c n fs h
    unfold SnippetModel.resultTypeOf at h
    split at h
    · exact Context.isStructural_of_mem_memberType h
    · cases h
  exact hresult hk

end Types

/-! ## The collected kinds -/

theorem nodup_eraseDups {α : Type} [DecidableEq α] : ∀ xs : List α, xs.eraseDups.Nodup
  | [] => List.nodup_nil
  | x :: xs => by
      rw [List.eraseDups_cons, List.nodup_cons]
      refine ⟨fun hmem => ?_, nodup_eraseDups _⟩
      simpa using List.mem_eraseDups.1 hmem
  termination_by xs => xs.length
  decreasing_by exact Nat.lt_succ_of_le (List.length_filter_le _ _)

/-- The collected kinds are those that the text of a type has a note about. -/
theorem mem_unsupported {s : TypeSyntax} {m : SnippetModel} {k : Primitive} :
    k ∈ unsupported s m ↔ ∃ t ∈ m.memberTypes ++ [m.resultType], s.Shows t (.unsupported k) := by
  unfold unsupported
  rw [List.mem_eraseDups, List.mem_filter, List.mem_flatMap, Option.isNone_iff_eq_none]
  simp only [TypeSyntax.shows_unsupported_iff]
  constructor
  · rintro ⟨⟨t, ht, hk⟩, hnone⟩
    exact ⟨t, ht, hk, hnone⟩
  · rintro ⟨t, ht, hk, hnone⟩
    exact ⟨⟨t, ht, hk⟩, hnone⟩

/-- A language with a type for every scalar kind has no unsupported ones. -/
theorem unsupported_eq_nil {p : Profile} {r : CodeRequest} {docs : Bool}
    (hp : ∀ k : Primitive, k.isStructural = false → (p.types.primitive k).isSome) :
    unsupported p.types (SnippetModel.build p r docs) = [] := by
  refine List.eq_nil_iff_forall_not_mem.2 fun k hk => ?_
  obtain ⟨t, ht, hshows⟩ := mem_unsupported.1 hk
  obtain ⟨hmentions, hnone⟩ := TypeSyntax.shows_unsupported_iff.1 hshows
  have hscalar : k.isStructural = false := by
    rcases List.mem_append.1 ht with ht | ht
    · exact isStructural_of_mem_memberTypes ht hmentions
    · rw [List.mem_singleton.1 ht] at hmentions
      exact isStructural_of_mem_resultType hmentions
  have hsome := hp k hscalar
  rw [hnone] at hsome
  cases hsome

/-! ## Reports -/

/-- The kind that a language is found to have no type for, with the language. -/
def Failure.unsupported? : Failure → Option (String × Primitive)
  | .schema _ => none
  | .unsupportedPrimitive language k => some (language, k)

theorem Failure.unsupported?_tells (f f' : Failure) (x : String × Primitive)
    (h : f.unsupported? = some x) (h' : f'.unsupported? = some x) : f = f' := by
  cases f with
  | schema e => cases h
  | unsupportedPrimitive language k =>
      cases f' with
      | schema e => cases h'
      | unsupportedPrimitive language' k' =>
          have heq : (language, k) = (language', k') := Option.some.inj (h.trans h'.symm)
          rw [(Prod.mk.inj heq).1, (Prod.mk.inj heq).2]

namespace Findings

/-- The languages with the kinds that they were found to have no type for. -/
def unsupportedKinds (fs : Findings) : List (String × Primitive) :=
  fs.failures.filterMap (·.unsupported?)

/-- The diagnostics of mapping. -/
def mapDiagnostics (fs : Findings) : List Diagnostic :=
  fs.diagnostics.filter (·.phase = .map)

end Findings

section Reports
variable (p : Profile) (r : CodeRequest) (o : Options)

theorem foldl_addNew_of_nodup {α : Type} [DecidableEq α] {xs kept : List α}
    (h : (kept ++ xs).Nodup) : xs.foldl addNew kept = kept ++ xs := by
  induction xs generalizing kept with
  | nil => exact (List.append_nil _).symm
  | cons x xs ih =>
      rw [List.append_cons] at h
      have hx : x ∉ kept := by
        have hkept := (List.nodup_append.1 (List.nodup_append.1 h).1).2.2
        exact fun hmem => hkept x hmem x (List.mem_singleton_self x) rfl
      rw [List.foldl_cons, addNew, if_neg hx, ih h, ← List.append_cons]

/-- The kinds without a type are reported once each. -/
theorem unsupportedKinds_withModel :
    (withModel p r o).findings.unsupportedKinds =
      (unsupported p.types (SnippetModel.build p r o.docs)).map fun k => (p.id, k) := by
  have hschema : ((metErrors r).map Failure.schema).filterMap (·.unsupported?) = [] := by
    simp [Failure.unsupported?]
  have hkinds : ((unsupportedReports p r o.docs).map Prod.fst).filterMap (·.unsupported?) =
      (unsupported p.types (SnippetModel.build p r o.docs)).map fun k => (p.id, k) := by
    rw [unsupportedReports, List.map_map, List.filterMap_map, ← List.filterMap_eq_map]
    rfl
  have hnodup : ([] ++ (unsupported p.types (SnippetModel.build p r o.docs)).map
      fun k => (p.id, k)).Nodup := by
    rw [List.nil_append]
    exact (nodup_eraseDups _).map fun _ _ heq => (Prod.mk.inj heq).2
  rw [Findings.unsupportedKinds, failures_withModel, filterMap_foldl_addNew Failure.unsupported?_tells,
    map_fst_allReports, List.filterMap_append, hschema, hkinds, List.filterMap_nil, List.nil_append,
    foldl_addNew_of_nodup hnodup, List.nil_append]

/-- A diagnostic for each kind without a type, and no other one of mapping. -/
theorem mapDiagnostics_withModel :
    (withModel p r o).findings.mapDiagnostics =
      (unsupported p.types (SnippetModel.build p r o.docs)).map fun k =>
        ⟨.warning, .map, p.id ++ " has no mapping for primitive " ++ k.name, none⟩ := by
  have hschema : ∀ {rs : List Report} {es : List SchemaError},
      rs.map Prod.fst = es.map Failure.schema →
      (rs.map fun q => q.1.diagnostic q.2).filter (·.phase = .map) = [] := by
    intro rs es hrs
    refine List.filter_eq_nil_iff.2 fun d hd => ?_
    obtain ⟨q, hq, rfl⟩ := List.mem_map.1 hd
    obtain ⟨e, -, he⟩ := List.mem_map.1 (hrs ▸ List.mem_map_of_mem hq : q.1 ∈ es.map Failure.schema)
    have hphase : ¬ (Failure.schema e).phase = .map := by
      simp [Failure.phase_eq_map_iff, Failure.schemaError?]
    simpa [← he, Failure.diagnostic] using hphase
  have hplan := hschema (map_fst_planReports (contextOf p r o.docs) (planOf r))
  have hmodel := hschema (map_fst_modelReports p r o.docs)
  have hback : ((planOf r).recursive.map (backNote (contextOf p r o.docs))).filter
      (·.phase = .map) = [] := by
    refine List.filter_eq_nil_iff.2 fun d hd => ?_
    obtain ⟨b, -, rfl⟩ := List.mem_map.1 hd
    simp [backNote]
  have hunsupported : ((unsupportedReports p r o.docs).map fun q => q.1.diagnostic q.2).filter
      (·.phase = .map) = (unsupportedReports p r o.docs).map fun q => q.1.diagnostic q.2 := by
    refine List.filter_eq_self.2 fun d hd => ?_
    simp only [unsupportedReports, List.map_map, List.mem_map, Function.comp_apply] at hd
    obtain ⟨k, -, rfl⟩ := hd
    rfl
  rw [Findings.mapDiagnostics, diagnostics_withModel, List.filter_append, List.filter_append,
    List.filter_append, hplan, hback, hmodel, hunsupported, unsupportedReports, List.map_map]
  rfl

end Reports

/-! ## Lines -/

/-- The line about an unsupported primitive, without its end. -/
def placeholderLine (s : TypeSyntax) (k : Primitive) : String :=
  lineComment (unsupportedNote k ++ ": rendered as " ++ s.untyped)

/-- The section between the imports and the declarations, if there is something to say. -/
def placeholderSections (s : TypeSyntax) (kinds : List Primitive) : List String :=
  if kinds.isEmpty then [] else [linesText (kinds.map (placeholderLine s))]

/-- The section of a model's imports, if it declares and imports something. -/
def importSections (p : Profile) (m : SnippetModel) : List String :=
  if m.declares && !(importsOf p m).isEmpty then [p.imports (importsOf p m)] else []

theorem sections_eq (p : Profile) (m : SnippetModel) :
    sections p m = importSections p m ++ placeholderSections p.types (unsupported p.types m) ++
      m.entries.map (entryText p) := by
  have hlines : String.join ((unsupported p.types m).map (unsupportedLine p.types)) =
      linesText ((unsupported p.types m).map (placeholderLine p.types)) := by
    rw [linesText, List.map_map]
    rfl
  rw [sections, hlines]
  rfl

/-- The lines of the section are those that were put into it. -/
theorem lines_placeholderSections {s : TypeSyntax} (hs : isLine s.untyped) (kinds : List Primitive) :
    (placeholderSections s kinds).flatMap Text.lines = kinds.map (placeholderLine s) := by
  have hlines : (kinds.map (placeholderLine s)).all isLine := by
    rw [List.all_eq_true, List.forall_mem_map]
    intro k _
    have hnote : isLine (unsupportedNote k) := by cases k <;> decide
    exact isLine_append.2 ⟨by decide, isLine_append.2 ⟨isLine_append.2 ⟨hnote, by decide⟩, hs⟩⟩
  cases kinds with
  | nil => rfl
  | cons k ks =>
      show [linesText ((k :: ks).map (placeholderLine s))].flatMap Text.lines = _
      rw [List.flatMap_singleton, lines_linesText hlines]

theorem isLine_untyped (t : Target) : isLine t.profile.types.untyped := by
  cases t with
  | unmapped language =>
      show isLine Neutral.types.untyped
      decide
  | _ => decide

/-- Three languages have a type for every kind but collections and streams. -/
theorem isSome_primitive {t : Target} (ht : t ∈ [.typescript, .kotlin, .rust]) (k : Primitive)
    (hk : k.isStructural = false) : (t.profile.types.primitive k).isSome := by
  simp only [List.mem_cons, List.not_mem_nil, or_false] at ht
  rcases ht with rfl | rfl | rfl <;> cases k <;> first | rfl | cases hk

/-- The placeholders of a model are exact: there are a line, a failure and a diagnostic for each kind that
the text of a member's type or of the result's has a note about, and for no other kind. TypeScript,
Kotlin and Rust have none. -/
theorem placeholders_exact {t : Target} (ht : t.profile.declaresModel) (r : CodeRequest) (o : Options) :
    let p := t.profile
    let m := SnippetModel.build p r o.docs
    ∃ kinds : List Primitive, kinds.Nodup ∧
      (∀ k, k ∈ kinds ↔
        ∃ type ∈ m.memberTypes ++ [m.resultType], p.types.Shows type (.unsupported k)) ∧
      (∀ k ∈ kinds, ∃ type ∈ m.memberTypes ++ [m.resultType],
        (p.types.noted (unsupportedNote k)).toList <:+: (p.types.render type).toList) ∧
      modelOf? t r o = modelText? p m ∧
      sections p m = importSections p m ++ placeholderSections p.types kinds ++
        m.entries.map (entryText p) ∧
      (placeholderSections p.types kinds).flatMap Text.lines = kinds.map (placeholderLine p.types) ∧
      (generate t r o).findings.unsupportedKinds = kinds.map (fun k => (t.id, k)) ∧
      (generate t r o).findings.mapDiagnostics = kinds.map (fun k =>
        ⟨.warning, .map, t.id ++ " has no mapping for primitive " ++ k.name, none⟩) ∧
      (t ∈ [.typescript, .kotlin, .rust] → kinds = []) := by
  intro p m
  have hnone : t ∈ [.typescript, .kotlin, .rust] → unsupported p.types m = [] := fun hmem =>
    unsupported_eq_nil (isSome_primitive hmem)
  have hnotes : ∀ k ∈ unsupported p.types m, ∃ type ∈ m.memberTypes ++ [m.resultType],
      (p.types.noted (unsupportedNote k)).toList <:+: (p.types.render type).toList := by
    intro k hk
    obtain ⟨type, htype, hshows⟩ := mem_unsupported.1 hk
    refine ⟨type, htype, ?_⟩
    cases t with
    | unmapped language => exact Neutral.noted_infix hshows
    | json => cases ht
    | sheets => cases ht
    | _ =>
        rw [hnone (by decide)] at hk
        cases hk
  rw [generate_of_declaresModel ht]
  exact ⟨unsupported p.types m, nodup_eraseDups _, fun k => mem_unsupported, hnotes, modelOf?_eq ht r o,
    sections_eq p m, lines_placeholderSections (isLine_untyped t) _, unsupportedKinds_withModel p r o,
    mapDiagnostics_withModel p r o, hnone⟩

/-! ### A film with a length -/

/-- A film with two titles, one of which may be missing, and the minutes of its parts. -/
def lengthFilm : CodeRequest :=
  let film : SchemaType := .ofKind (.ofFull "films.Film") (.record
    [⟨"title", .ofFull "lang.taxi.String", false, [], none, none⟩,
      ⟨"subtitle", .ofFull "lang.taxi.String", true, [], none, none⟩,
      ⟨"minutes", (QualifiedName.ofFull "lang.taxi.Array").withParameters [.ofFull "lang.taxi.Int"],
        false, [], none, none⟩])
  ⟨"find { Film }", .ofFull "films.Film", .ofTypes [film] []⟩

/-- Cobol has a line for texts and one for integers. -/
theorem length_placeholders :
    (Target.unmapped "cobol").profile.declaresModel ∧
    ∃ kinds : List Primitive, kinds = [.string, .int] ∧
      sections (Neutral.profile "cobol") (SnippetModel.build (Neutral.profile "cobol") lengthFilm true) =
        placeholderSections Neutral.types kinds ++
          (SnippetModel.build (Neutral.profile "cobol") lengthFilm true).entries.map
            (entryText (Neutral.profile "cobol")) ∧
      (placeholderSections Neutral.types kinds).flatMap Text.lines =
        ["// unsupported primitive String: rendered as any",
          "// unsupported primitive Int: rendered as any"] ∧
      (generate (.unmapped "cobol") lengthFilm ⟨"client", true⟩).findings.unsupportedKinds =
        [("cobol", .string), ("cobol", .int)] := by
  have hmodel : (Target.unmapped "cobol").profile.declaresModel := rfl
  obtain ⟨kinds, -, -, -, -, hsections, hlines, hreported, -, -⟩ :=
    placeholders_exact hmodel lengthFilm ⟨"client", true⟩
  have hfound : (generate (.unmapped "cobol") lengthFilm ⟨"client", true⟩).findings.unsupportedKinds =
      [("cobol", .string), ("cobol", .int)] := by
    decide +kernel
  have hkinds : kinds = [.string, .int] := by
    have hmap := congrArg (List.map Prod.snd) (hreported.symm.trans hfound)
    rw [List.map_map] at hmap
    exact (List.map_id kinds).symm.trans hmap
  have himports : importSections (Neutral.profile "cobol")
      (SnippetModel.build (Neutral.profile "cobol") lengthFilm true) = [] := by
    decide +kernel
  refine ⟨hmodel, kinds, hkinds, ?_, ?_, hfound⟩
  · rw [← List.nil_append (placeholderSections Neutral.types kinds), ← himports]
    exact hsections
  · refine hlines.trans ?_
    rw [hkinds]
    decide +kernel

end SchemaSnippets.Snippet

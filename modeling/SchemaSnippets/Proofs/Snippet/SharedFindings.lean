import SchemaSnippets.Proofs.Snippet.Findings

/-!
# Findings that languages share

A language decides how names are spelled and which primitives have a type. What is wrong with a schema
is found by the plan, and by the scalars that members lead to, and neither depends on the language. So
two languages report the same defects in the same order, whatever their diagnostics say about places.

* `failures_reportAll`, `filterMap_foldl_addNew` : a failure is listed when it is first reported, and so
  is each defect among the failures;
* `schemaErrors_withModel`, `kinds_withModel` : defects, severities and phases told by the plan and the
  written names alone;
* `phase_eq_map_iff` : diagnostics of mapping are those of primitives without a type;
* `generate_finds_same` : what is found is the same in every language that declares a model.
-/

namespace SchemaSnippets.Snippet
open Model Request Schema Target

/-! ## Each thing once -/

section Once
variable {α β : Type} [DecidableEq α] [DecidableEq β]

/-- A list with a further element behind it, unless it is there. -/
def addNew (xs : List α) (x : α) : List α :=
  if x ∈ xs then xs else xs ++ [x]

theorem filterMap_addNew {f : α → Option β} (hf : ∀ x y z, f x = some z → f y = some z → x = y)
    (xs : List α) (x : α) :
    (addNew xs x).filterMap f = (f x).toList.foldl addNew (xs.filterMap f) := by
  unfold addNew
  cases hx : f x with
  | none => split <;> simp [hx]
  | some z =>
      have hmem : z ∈ xs.filterMap f ↔ x ∈ xs := by
        rw [List.mem_filterMap]
        constructor
        · rintro ⟨y, hy, hz⟩
          exact hf y x z hz hx ▸ hy
        · exact fun h => ⟨x, h, hx⟩
      by_cases h : x ∈ xs
      · simp [hmem, h]
      · simp [hmem, h, hx]

/-- What is read off a list without repetition is read off the elements, if it tells them apart. -/
theorem filterMap_foldl_addNew {f : α → Option β}
    (hf : ∀ x y z, f x = some z → f y = some z → x = y) (xs kept : List α) :
    (xs.foldl addNew kept).filterMap f = (xs.filterMap f).foldl addNew (kept.filterMap f) := by
  induction xs generalizing kept with
  | nil => rfl
  | cons x xs ih =>
      rw [List.foldl_cons, ih, filterMap_addNew hf]
      cases hx : f x with
      | none => simp [hx]
      | some z => simp [hx]

end Once

/-! ## Defects of a schema -/

/-- The defect of a schema that a failure is. -/
def Failure.schemaError? : Failure → Option SchemaError
  | .schema e => some e
  | .unsupportedPrimitive _ _ => none

theorem Failure.schemaError?_eq_some {f : Failure} {e : SchemaError} :
    f.schemaError? = some e ↔ f = .schema e := by
  cases f <;> simp [schemaError?]

theorem Failure.schemaError?_tells (f f' : Failure) (e : SchemaError) (h : f.schemaError? = some e)
    (h' : f'.schemaError? = some e) : f = f' := by
  rw [schemaError?_eq_some.1 h, schemaError?_eq_some.1 h']

/-- How bad a diagnostic is and what was being done. -/
def Diagnostic.kind (d : Diagnostic) : Severity × Phase :=
  (d.severity, d.phase)

/-- How bad a failure is and what was being done. -/
def Failure.kind (f : Failure) : Severity × Phase :=
  (f.severity, f.phase)

/-- A diagnostic about a primitive that a language has no type for. -/
def Diagnostic.IsUnsupported (d : Diagnostic) : Prop :=
  ∃ language k location, d = (Failure.unsupportedPrimitive language k).diagnostic location

namespace Findings
variable {fs : Findings}

/-- The defects of the schema, in the order in which they were found. -/
def schemaErrors (fs : Findings) : List SchemaError :=
  fs.failures.filterMap (·.schemaError?)

/-- The kinds of the diagnostics, those of mapping left out. -/
def kinds (fs : Findings) : List (Severity × Phase) :=
  (fs.diagnostics.filter (·.phase ≠ .map)).map (·.kind)

theorem failures_reportAll (rs : List Report) :
    (fs.reportAll rs).failures = (rs.map Prod.fst).foldl addNew fs.failures := by
  induction rs generalizing fs with
  | nil => rfl
  | cons q rs ih => exact ih

end Findings

/-! ## Requests -/

section Requests
variable (p : Profile) (r : CodeRequest) (o : Options)

/-- The defects that a request meets, in order and with repetitions: those of the plan, then those of
the types that are written. -/
def metErrors (r : CodeRequest) : List SchemaError :=
  (planOf r).errors ++ (writtenNames r).filterMap r.graph.scalarErrorOf?

theorem map_fst_planReports (c : Context) (plan : Plan) :
    (planReports c plan).map Prod.fst = plan.errors.map Failure.schema := by
  rw [planReports, List.map_map]
  rfl

theorem map_fst_allReports (docs : Bool) :
    (allReports p r docs).map Prod.fst =
      (metErrors r).map Failure.schema ++ (unsupportedReports p r docs).map Prod.fst := by
  rw [allReports, List.map_append, List.map_append, map_fst_planReports, map_fst_modelReports,
    metErrors, List.map_append]

theorem failures_withModel :
    (withModel p r o).findings.failures = ((allReports p r o.docs).map Prod.fst).foldl addNew [] := by
  have hplan : (SnippetModel.planFindings (contextOf p r o.docs) (planOf r)).failures =
      ((planReports (contextOf p r o.docs) (planOf r)).map Prod.fst).foldl addNew [] := by
    rw [planFindings_eq]
    exact Findings.failures_reportAll _
  rw [findings_withModel, Findings.failures_reportAll, hplan, allReports]
  simp only [List.map_append, List.foldl_append]

theorem schemaErrors_withModel :
    (withModel p r o).findings.schemaErrors = (metErrors r).foldl addNew [] := by
  have hschema : ((metErrors r).map Failure.schema).filterMap (·.schemaError?) = metErrors r := by
    rw [List.filterMap_map]
    exact List.filterMap_some
  have hunsupported : ((unsupportedReports p r o.docs).map Prod.fst).filterMap
      (·.schemaError?) = [] := by
    simp [unsupportedReports, Failure.schemaError?]
  rw [Findings.schemaErrors, failures_withModel, filterMap_foldl_addNew Failure.schemaError?_tells,
    map_fst_allReports, List.filterMap_append, hschema, hunsupported, List.append_nil]
  rfl

/-! ### Diagnostics -/

theorem Failure.phase_eq_map_iff {f : Failure} : f.phase = .map ↔ f.schemaError? = none := by
  cases f with
  | schema e => cases e <;> simp [Failure.phase, Failure.schemaError?]
  | unsupportedPrimitive language k => simp [Failure.phase, Failure.schemaError?]

theorem filter_kinds_of_schema {rs : List Report} {es : List SchemaError}
    (h : rs.map Prod.fst = es.map Failure.schema) :
    ((rs.map fun q => q.1.diagnostic q.2).filter (·.phase ≠ .map)).map (·.kind) =
      es.map fun e => (Failure.schema e).kind := by
  have hphase : ∀ d ∈ rs.map fun q => q.1.diagnostic q.2, d.phase ≠ .map := by
    intro d hd
    obtain ⟨q, hq, rfl⟩ := List.mem_map.1 hd
    have hfst : q.1 ∈ es.map Failure.schema := h ▸ List.mem_map_of_mem hq
    obtain ⟨e, -, he⟩ := List.mem_map.1 hfst
    show q.1.phase ≠ .map
    rw [← he, ne_eq, Failure.phase_eq_map_iff]
    simp [Failure.schemaError?]
  have hall : (rs.map fun q => q.1.diagnostic q.2).filter (·.phase ≠ .map) =
      rs.map fun q => q.1.diagnostic q.2 :=
    List.filter_eq_self.2 fun d hd => decide_eq_true (hphase d hd)
  have hkinds : (rs.map fun q => q.1.diagnostic q.2).map (·.kind) =
      (rs.map Prod.fst).map Failure.kind := by
    rw [List.map_map, List.map_map]
    rfl
  rw [hall, hkinds, h, List.map_map]
  rfl

theorem kinds_withModel :
    (withModel p r o).findings.kinds =
      (planOf r).errors.map (fun e => (Failure.schema e).kind)
        ++ (planOf r).recursive.map (fun _ => (.info, .plan))
        ++ ((writtenNames r).filterMap r.graph.scalarErrorOf?).map fun e => (Failure.schema e).kind := by
  have hplan := filter_kinds_of_schema (map_fst_planReports (contextOf p r o.docs) (planOf r))
  have hmodel := filter_kinds_of_schema (map_fst_modelReports p r o.docs)
  have hback : ((planOf r).recursive.map (backNote (contextOf p r o.docs))).filter
      (·.phase ≠ .map) = (planOf r).recursive.map (backNote (contextOf p r o.docs)) := by
    refine List.filter_eq_self.2 fun d hd => ?_
    obtain ⟨b, -, rfl⟩ := List.mem_map.1 hd
    rfl
  have hunsupported : ((unsupportedReports p r o.docs).map fun q => q.1.diagnostic q.2).filter
      (·.phase ≠ .map) = [] := by
    simp [unsupportedReports, Failure.diagnostic, Failure.phase]
  rw [Findings.kinds, diagnostics_withModel, List.filter_append, List.filter_append,
    List.filter_append, hunsupported, hback, List.append_nil, List.map_append, List.map_append, hplan,
    hmodel, List.map_map]
  rfl

/-- Nothing but a primitive without a type is a matter of mapping. -/
theorem phase_eq_map_iff {d : Diagnostic} (hd : d ∈ (withModel p r o).findings.diagnostics) :
    d.phase = .map ↔ d.IsUnsupported := by
  constructor
  · intro hphase
    rcases mem_diagnostics_iff.1 hd with ⟨⟨f, location⟩, -, rfl⟩ | ⟨b, -, rfl⟩
    · cases f with
      | schema e =>
          have hnone := Failure.phase_eq_map_iff.1 hphase
          simp [Failure.schemaError?] at hnone
      | unsupportedPrimitive language k => exact ⟨language, k, location, rfl⟩
    · cases hphase
  · rintro ⟨language, k, location, rfl⟩
    rfl

end Requests

/-- What is wrong with a schema is the same in every language that declares a model, whatever the
options: the same defects in the same order, and as many diagnostics of the same severities and phases
besides those of mapping, which are about primitives that the language has no type for. -/
theorem generate_finds_same {t t' : Target} (ht : t.profile.declaresModel)
    (ht' : t'.profile.declaresModel) (r : CodeRequest) (o o' : Options) :
    (generate t r o).findings.schemaErrors = (generate t' r o').findings.schemaErrors ∧
      (generate t r o).findings.kinds = (generate t' r o').findings.kinds ∧
      ∀ d ∈ (generate t r o).findings.diagnostics, d.phase = .map ↔ d.IsUnsupported := by
  rw [generate_of_declaresModel ht, generate_of_declaresModel ht']
  refine ⟨?_, ?_, fun d hd => phase_eq_map_iff _ r o hd⟩
  · rw [schemaErrors_withModel, schemaErrors_withModel]
  · rw [kinds_withModel, kinds_withModel]

/-! ### A film with a missing studio and a rating that inherits from itself -/

/-- Two films that follow each other, an unknown studio, and two scalars that inherit from each other. -/
def ratedTypes : List SchemaType :=
  [.ofKind (.ofFull "films.Film") (.record
      [⟨"title", .ofFull "lang.taxi.String", false, [], none, none⟩,
        ⟨"rating", .ofFull "films.Rating", false, [], none, none⟩,
        ⟨"studio", .ofFull "films.Studio", false, [], none, none⟩,
        ⟨"sequel", .ofFull "films.Film", true, [], none, none⟩]),
    .ofKind (.ofFull "films.Rating") (.scalar [.ofFull "films.Score"]),
    .ofKind (.ofFull "films.Score") (.scalar [.ofFull "films.Rating"])]

def ratedRequest : CodeRequest :=
  ⟨"find { Film }", .ofFull "films.Film", .ofTypes ratedTypes []⟩

/-- Cobol has no type for texts, and says so besides what Rust says. -/
theorem film_found_same :
    Target.rust.profile.declaresModel ∧ (Target.unmapped "cobol").profile.declaresModel ∧
      (generate (.unmapped "cobol") ratedRequest ⟨"client", true⟩).findings.schemaErrors =
        [.unknownType "films.Studio",
          .cyclicInheritance "films.Rating" ["films.Rating", "films.Score", "films.Rating"]] ∧
      (generate .rust ratedRequest ⟨"client", true⟩).findings.schemaErrors =
        (generate (.unmapped "cobol") ratedRequest ⟨"client", true⟩).findings.schemaErrors ∧
      (generate .rust ratedRequest ⟨"client", true⟩).findings.kinds =
        (generate (.unmapped "cobol") ratedRequest ⟨"client", true⟩).findings.kinds := by
  have hrust : Target.rust.profile.declaresModel := rfl
  have hcobol : (Target.unmapped "cobol").profile.declaresModel := rfl
  have hfound : (generate (.unmapped "cobol") ratedRequest ⟨"client", true⟩).findings.schemaErrors =
      [.unknownType "films.Studio",
        .cyclicInheritance "films.Rating" ["films.Rating", "films.Score", "films.Rating"]] := by
    rw [generate_of_declaresModel hcobol, schemaErrors_withModel]
    decide +kernel
  have hsame := generate_finds_same hrust hcobol ratedRequest ⟨"client", true⟩ ⟨"client", true⟩
  exact ⟨hrust, hcobol, hfound, hsame.1, hsame.2.1⟩

end SchemaSnippets.Snippet

import SchemaSnippets.Proofs.Plan.Coverage
import SchemaSnippets.Proofs.Snippet.MemberTypes
import SchemaSnippets.Proofs.Snippet.Members
import SchemaSnippets.Snippet.Generate

/-!
# All that is found

The findings of a request, report by report. A missing type is reported with the plan. An element of
a collection has a place in the plan, so its error is never new, and what members add are the errors of
the scalars that they lead to.

* `Findings.reportAll` : several reports, one after the other;
* `TypeGraph.scalarErrorOf?` : the error of the scalar that a name leads to;
* `findings_build` : the findings of a model; `diagnostics_withModel` : the diagnostics of the snippets;
* `mem_failures_iff`, `mem_diagnostics_iff` : failures and diagnostics are those of `allReports`;
  `mem_failures_withModel` : what is wrong with the schema.
-/

namespace SchemaSnippets.Schema.TypeGraph
variable {g : TypeGraph} {n : QualifiedName}

/-- Why the scalar that members of the name lead to has no primitive. -/
def scalarErrorOf? (g : TypeGraph) (n : QualifiedName) : Option SchemaError :=
  ((g.resolve? n).map g.innermost).bind fun u => if u.kind.isScalar then g.typeError? u else none

theorem scalarErrorOf?_of_endsAt {e : WayEnd} (h : g.EndsAt n e) :
    g.scalarErrorOf? n = if e.type.kind.isScalar then g.typeError? e.type else none := by
  obtain ⟨t, passed, ht, hway⟩ := h
  rw [scalarErrorOf?, ht, Option.map_some, Option.bind_some,
    innermost_eq (mem_types_of_resolve? ht) hway]

theorem scalarErrorOf?_eq_some {err : SchemaError} :
    g.scalarErrorOf? n = some err ↔
      ∃ t, g.EndsAt n (.last t) ∧ t.kind.isScalar ∧ g.primitiveOf t = .error err := by
  constructor
  · intro h
    obtain ⟨t, ht⟩ : ∃ t, g.resolve? n = some t := by
      cases ht : g.resolve? n with
      | none => simp [scalarErrorOf?, ht] at h
      | some t => exact ⟨t, rfl⟩
    obtain ⟨e, hends⟩ := exists_endsAt ht
    rw [scalarErrorOf?_of_endsAt hends] at h
    split at h
    · rename_i hs
      obtain ⟨u, rfl⟩ := hends.exists_last_of_typeError? h
      exact ⟨u, hends, hs, (typeError?_eq_some_of_isScalar hs).1 h⟩
    · cases h
  · rintro ⟨u, hends, hs, hp⟩
    rw [scalarErrorOf?_of_endsAt hends]
    exact (if_pos hs).trans ((typeError?_eq_some_of_isScalar hs).2 hp)

end SchemaSnippets.Schema.TypeGraph

namespace SchemaSnippets.Snippet
open Model Request Schema Target

/-! ## Several reports -/

/-- A failure and the place where it is met. -/
abbrev Report := Failure × Option String

namespace Findings
variable {fs : Findings}

def reportAll (fs : Findings) (rs : List Report) : Findings :=
  rs.foldl (fun fs r => fs.report r.1 r.2) fs

theorem reportAll_append (rs rs' : List Report) :
    fs.reportAll (rs ++ rs') = (fs.reportAll rs).reportAll rs' :=
  List.foldl_append ..

theorem mem_failures_report {f f' : Failure} {location : Option String} :
    f ∈ (fs.report f' location).failures ↔ f ∈ fs.failures ∨ f = f' := by
  unfold report
  dsimp only
  split
  · rename_i h
    exact ⟨Or.inl, fun hf => hf.elim id fun heq => heq ▸ h⟩
  · simp

theorem diagnostics_reportAll (rs : List Report) :
    (fs.reportAll rs).diagnostics = fs.diagnostics ++ rs.map fun r => r.1.diagnostic r.2 := by
  induction rs generalizing fs with
  | nil => simp [reportAll]
  | cons r rs ih =>
      have hrest := @ih (fs.report r.1 r.2)
      rw [show fs.reportAll (r :: rs) = (fs.report r.1 r.2).reportAll rs from rfl, hrest]
      simp [report]

theorem mem_failures_reportAll {rs : List Report} {f : Failure} :
    f ∈ (fs.reportAll rs).failures ↔ f ∈ fs.failures ∨ ∃ r ∈ rs, r.1 = f := by
  induction rs generalizing fs with
  | nil => simp [reportAll]
  | cons r rs ih =>
      rw [show fs.reportAll (r :: rs) = (fs.report r.1 r.2).reportAll rs from rfl, ih,
        mem_failures_report]
      simp [or_assoc, eq_comm]

theorem reportNew_of_mem {f : Failure} {location : Option String} (h : f ∈ fs.failures) :
    fs.reportNew f location = fs :=
  if_pos h

end Findings

/-! ## Members -/

/-- The names that `root` leads to and that resolve to nothing have been reported. -/
def Context.Planned (c : Context) (root : QualifiedName) (fs : Findings) : Prop :=
  ∀ n, c.graph.Reachable root n → c.graph.resolve? n = none →
    .schema (.unknownType n.key) ∈ fs.failures

namespace Context
variable {c : Context} {root n : QualifiedName} {fs : Findings} {location : Option String}
  {t : SchemaType}

theorem Planned.reportAll (h : c.Planned root fs) (rs : List Report) :
    c.Planned root (fs.reportAll rs) :=
  fun n hn hnone => Findings.mem_failures_reportAll.2 (Or.inl (h n hn hnone))

/-- What a member of the name adds to the findings. -/
def reportOf (c : Context) (location : Option String) (n : QualifiedName) : List Report :=
  (c.graph.scalarErrorOf? n).toList.map fun err => (.schema err, location)

theorem findings_typeOf (h : c.Planned root fs) (hn : c.graph.Reachable root n)
    (ht : c.graph.resolve? n = some t) :
    (c.typeOf location t fs).2 = fs.reportAll (c.reportOf location n) := by
  have htg := TypeGraph.mem_types_of_resolve? ht
  obtain ⟨passed, e, hway⟩ := TypeGraph.exists_elementWay htg
  have hends : c.graph.EndsAt n e := ⟨t, passed, ht, hway⟩
  rw [typeOf_eq htg hway, findings_endType hway, reportOf, TypeGraph.scalarErrorOf?_of_endsAt hends]
  cases herr : c.graph.typeError? e.type with
  | none => simp [Findings.reportAll]
  | some err =>
      by_cases hs : e.type.kind.isScalar
      · simp [hs, Findings.reportAll]
      · -- the element at the end is a name that the root leads to
        obtain ⟨m, hm, hu⟩ := hends.exists_reachable hn
        obtain ⟨m', hm', hnone, rfl⟩ := TypeGraph.exists_element_of_typeError? herr hs
        have hmem := h m' (hm.element hu hm') hnone
        simp [hs, Findings.reportNew_of_mem hmem, Findings.reportAll]

theorem findings_attributeType {source place : String} {a : Attribute} (h : c.Planned root fs)
    (ha : c.graph.Reachable root a.type) :
    (c.attributeType source place a fs).2 = fs.reportAll (c.reportOf (some place) a.type) := by
  unfold attributeType
  cases ht : c.graph.resolve? a.type with
  | none =>
      rw [TypeGraph.resolve?_eq_none.1 ht]
      simp [reportOf, TypeGraph.scalarErrorOf?, ht, Findings.reportAll]
  | some t =>
      rw [TypeGraph.resolve?_eq_some.1 ht]
      exact findings_typeOf h ha ht

theorem findings_resultTypeOf (h : c.Planned root fs) :
    (SnippetModel.resultTypeOf c root fs).2 = fs.reportAll (c.reportOf none root) := by
  unfold SnippetModel.resultTypeOf
  cases ht : c.graph.resolve? root with
  | none =>
      rw [TypeGraph.resolve?_eq_none.1 ht]
      simp [reportOf, TypeGraph.scalarErrorOf?, ht, Findings.reportAll]
  | some t =>
      rw [TypeGraph.resolve?_eq_some.1 ht]
      exact findings_typeOf h .root ht

/-- What the members of a declaration add to the findings. -/
def memberReports (c : Context) (t : SchemaType) : List Report :=
  t.kind.attributes.flatMap fun a => c.reportOf (some (c.nameOf t ++ "." ++ a.name)) a.type

theorem findings_membersOf {source name : String} {as : List Attribute} (h : c.Planned root fs)
    (has : ∀ a ∈ as, c.graph.Reachable root a.type) :
    (c.membersOf source name as fs).2 =
      fs.reportAll (as.flatMap fun a => c.reportOf (some (name ++ "." ++ a.name)) a.type) := by
  induction as generalizing fs with
  | nil => rfl
  | cons a as ih =>
      obtain ⟨ha, has⟩ := List.forall_mem_cons.1 has
      have hstep : (c.membersOf source name (a :: as) fs).2 =
          (c.membersOf source name as
            (c.attributeType source (name ++ "." ++ a.name) a fs).2).2 := rfl
      rw [hstep, findings_attributeType h ha, ih (h.reportAll _) has, List.flatMap_cons,
        Findings.reportAll_append]

theorem findings_entries {ps : List PlanItem} (h : c.Planned root fs)
    (hps : ∀ t, .declare t ∈ ps → ∀ a ∈ t.kind.attributes, c.graph.Reachable root a.type) :
    (c.entries ps fs).2 = fs.reportAll ((ps.filterMap (·.declared?)).flatMap c.memberReports) := by
  induction ps generalizing fs with
  | nil => rfl
  | cons p ps ih =>
      cases p with
      | missing name r => exact ih h fun t ht => hps t (List.mem_cons_of_mem _ ht)
      | declare t =>
          have htail : ∀ u, .declare u ∈ ps → ∀ a ∈ u.kind.attributes,
              c.graph.Reachable root a.type := fun u hu => hps u (List.mem_cons_of_mem _ hu)
          rw [List.filterMap_cons_some (by rfl), List.flatMap_cons, Findings.reportAll_append]
          unfold entries
          split
          · rename_i values hk
            have hnone : c.memberReports t = [] := by simp [memberReports, hk, TypeKind.attributes]
            rw [hnone]
            exact ih h htail
          · have hmembers : (c.recordDeclaration t fs).2 = fs.reportAll (c.memberReports t) :=
              findings_membersOf h (hps t (List.mem_cons_self ..))
            dsimp only
            rw [hmembers]
            exact ih (h.reportAll _) htail

end Context

/-! ## Plans -/

/-- What the errors of a plan add to the findings. -/
def planReports (c : Context) (plan : Plan) : List Report :=
  plan.errors.map fun e =>
    (.schema e, (plan.referrer? e.subject).map fun key => (c.names.get? key).getD key)

/-- What is noted about a reference back. -/
def backNote (c : Context) (r : BackReference) : Diagnostic :=
  ⟨.info, .plan, s!"recursive reference to {(c.names.get? r.target).getD r.target} is rendered by name",
    some ((c.names.get? r.source).getD r.source)⟩

theorem foldl_note {α : Type} (f : α → Diagnostic) (xs : List α) (fs : Findings) :
    xs.foldl (fun fs x => fs.note (f x)) fs = ⟨fs.diagnostics ++ xs.map f, fs.failures⟩ := by
  induction xs generalizing fs with
  | nil => simp
  | cons x xs ih =>
      rw [List.foldl_cons, ih]
      simp [Findings.note]

theorem planFindings_eq (c : Context) (plan : Plan) :
    SnippetModel.planFindings c plan =
      let fs := Findings.none.reportAll (planReports c plan)
      ⟨fs.diagnostics ++ plan.recursive.map (backNote c), fs.failures⟩ := by
  have hmissing : plan.errors.foldl (fun fs e => fs.report (.schema e)
      ((plan.referrer? e.subject).map fun key => (c.names.get? key).getD key)) Findings.none =
      Findings.none.reportAll (planReports c plan) := by
    rw [Findings.reportAll, planReports, List.foldl_map]
  unfold SnippetModel.planFindings
  dsimp only
  rw [hmissing]
  exact foldl_note (backNote c) plan.recursive _

/-! ## Requests -/

section Requests
variable {p : Profile} {r : CodeRequest} {docs : Bool}

/-- The reports of the members of a model and of its result. -/
def modelReports (p : Profile) (r : CodeRequest) (docs : Bool) : List Report :=
  (planOf r).declarations.flatMap (contextOf p r docs).memberReports
    ++ (contextOf p r docs).reportOf none r.returnType

theorem reachable_of_mem_declarations {t : SchemaType} (ht : t ∈ (planOf r).declarations) :
    ∀ a ∈ t.kind.attributes, r.graph.Reachable r.returnType a.type := by
  obtain ⟨-, n, hn, hnt⟩ := mem_declarations_build.1 ht
  exact fun a ha => hn.member hnt ha

theorem mem_planErrors {e : SchemaError} :
    e ∈ (planOf r).errors ↔ ∃ k ∈ (planOf r).missingNames, e = .unknownType k := by
  rw [planOf, (build_covers r.graph r.returnType).2.2.2.2.2.2, List.mem_map]
  simp only [eq_comm]

theorem planned_planFindings (p : Profile) (r : CodeRequest) (docs : Bool) :
    (contextOf p r docs).Planned r.returnType
      (SnippetModel.planFindings (contextOf p r docs) (planOf r)) := by
  intro n hn hnone
  have herr : SchemaError.unknownType n.key ∈ (planOf r).errors :=
    mem_planErrors.2 ⟨_, mem_missingNames_build.2 ⟨n, hn, hnone, rfl⟩, rfl⟩
  rw [planFindings_eq]
  exact Findings.mem_failures_reportAll.2 (Or.inr ⟨_, List.mem_map_of_mem herr, rfl⟩)

/-- The findings of a model: those of the plan, then those of the members and of the result. -/
theorem findings_build (p : Profile) (r : CodeRequest) (docs : Bool) :
    (SnippetModel.build p r docs).findings =
      (SnippetModel.planFindings (contextOf p r docs) (planOf r)).reportAll
        (modelReports p r docs) := by
  have hplanned := planned_planFindings p r docs
  have hreachable : ∀ t, .declare t ∈ (planOf r).entries → ∀ a ∈ t.kind.attributes,
      r.graph.Reachable r.returnType a.type := fun t ht =>
    reachable_of_mem_declarations (List.mem_filterMap.2 ⟨_, ht, rfl⟩)
  have hentries := Context.findings_entries hplanned hreachable
  have hbuild : (SnippetModel.build p r docs).findings =
      (SnippetModel.resultTypeOf (contextOf p r docs) r.returnType
        ((contextOf p r docs).entries (planOf r).entries
          (SnippetModel.planFindings (contextOf p r docs) (planOf r))).2).2 := rfl
  rw [hbuild, hentries, Context.findings_resultTypeOf (hplanned.reportAll _), modelReports,
    Findings.reportAll_append]
  rfl

/-- The reports of primitives that a language has no type for. -/
def unsupportedReports (p : Profile) (r : CodeRequest) (docs : Bool) : List Report :=
  (unsupported p.types (SnippetModel.build p r docs)).map fun k =>
    (.unsupportedPrimitive p.id k, none)

theorem findings_withModel (p : Profile) (r : CodeRequest) (o : Options) :
    (withModel p r o).findings =
      (SnippetModel.planFindings (contextOf p r o.docs) (planOf r)).reportAll
        (modelReports p r o.docs ++ unsupportedReports p r o.docs) := by
  have hfold : (withModel p r o).findings =
      (SnippetModel.build p r o.docs).findings.reportAll (unsupportedReports p r o.docs) := by
    rw [Findings.reportAll, unsupportedReports, List.foldl_map]
    rfl
  rw [hfold, findings_build, Findings.reportAll_append]

/-- The diagnostics of a request: its missing types, its references back, the scalars without a
primitive, and the primitives without a type. -/
theorem diagnostics_withModel (p : Profile) (r : CodeRequest) (o : Options) :
    (withModel p r o).findings.diagnostics =
      (planReports (contextOf p r o.docs) (planOf r)).map (fun r => r.1.diagnostic r.2)
        ++ (planOf r).recursive.map (backNote (contextOf p r o.docs))
        ++ (modelReports p r o.docs).map (fun r => r.1.diagnostic r.2)
        ++ (unsupportedReports p r o.docs).map (fun r => r.1.diagnostic r.2) := by
  rw [findings_withModel, Findings.diagnostics_reportAll, planFindings_eq]
  dsimp only
  rw [Findings.diagnostics_reportAll, List.map_append]
  simp [Findings.none]

/-- The names whose types are written: those of the attributes of declarations, and the result's. -/
def writtenNames (r : CodeRequest) : List QualifiedName :=
  (planOf r).declarations.flatMap (fun t => t.kind.attributes.map (·.type)) ++ [r.returnType]

theorem map_fst_modelReports (p : Profile) (r : CodeRequest) (docs : Bool) :
    (modelReports p r docs).map Prod.fst =
      ((writtenNames r).filterMap r.graph.scalarErrorOf?).map Failure.schema := by
  have hone : ∀ location n, ((contextOf p r docs).reportOf location n).map Prod.fst =
      (r.graph.scalarErrorOf? n).toList.map Failure.schema := by
    intro location n
    rw [Context.reportOf, List.map_map]
    rfl
  rw [modelReports, writtenNames, List.filterMap_eq_flatMap_toList, List.map_append, hone]
  simp only [Context.memberReports, List.map_flatMap, hone, List.flatMap_append, List.flatMap_assoc,
    List.flatMap_map, List.map_append, List.flatMap_cons, List.flatMap_nil, List.append_nil]

/-- All reports about a request, the remarks on references back left out. -/
def allReports (p : Profile) (r : CodeRequest) (docs : Bool) : List Report :=
  planReports (contextOf p r docs) (planOf r) ++ modelReports p r docs ++ unsupportedReports p r docs

theorem mem_failures_iff {o : Options} {f : Failure} :
    f ∈ (withModel p r o).findings.failures ↔ ∃ q ∈ allReports p r o.docs, q.1 = f := by
  rw [findings_withModel, planFindings_eq, Findings.mem_failures_reportAll]
  dsimp only
  rw [Findings.mem_failures_reportAll]
  simp only [Findings.none, List.not_mem_nil, false_or, allReports, List.mem_append, or_and_right,
    exists_or, or_assoc]

theorem mem_diagnostics_iff {o : Options} {d : Diagnostic} :
    d ∈ (withModel p r o).findings.diagnostics ↔
      (∃ q ∈ allReports p r o.docs, q.1.diagnostic q.2 = d) ∨
        ∃ b ∈ (planOf r).recursive, backNote (contextOf p r o.docs) b = d := by
  rw [diagnostics_withModel]
  simp only [List.mem_append, List.mem_map, allReports, or_and_right, exists_or]
  grind

theorem mem_failures_withModel {o : Options} {e : SchemaError} :
    .schema e ∈ (withModel p r o).findings.failures ↔
      e ∈ (planOf r).errors ∨ ∃ n ∈ writtenNames r, r.graph.scalarErrorOf? n = some e := by
  have hplan : (∃ q ∈ planReports (contextOf p r o.docs) (planOf r), q.1 = .schema e) ↔
      e ∈ (planOf r).errors := by
    simp [planReports]
  have hmodel : (∃ q ∈ modelReports p r o.docs, q.1 = .schema e) ↔
      ∃ n ∈ writtenNames r, r.graph.scalarErrorOf? n = some e := by
    have hmem := @List.mem_map _ _ (.schema e) Prod.fst (modelReports p r o.docs)
    rw [← hmem, map_fst_modelReports]
    simp
  have hunsupported : ¬ ∃ q ∈ unsupportedReports p r o.docs, q.1 = .schema e := by
    simp [unsupportedReports]
  rw [mem_failures_iff]
  simp only [allReports, List.mem_append, or_and_right, exists_or, hplan, hmodel, hunsupported,
    or_false]

end Requests

theorem generate_of_declaresModel {t : Target} (h : t.profile.declaresModel) (r : CodeRequest)
    (o : Options) : generate t r o = withModel t.profile r o :=
  if_pos h

theorem generate_of_not_declaresModel {t : Target} (h : ¬ t.profile.declaresModel) (r : CodeRequest)
    (o : Options) : generate t r o = withoutModel t.profile r o :=
  if_neg h

end SchemaSnippets.Snippet

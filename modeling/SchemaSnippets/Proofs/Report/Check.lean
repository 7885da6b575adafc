import SchemaSnippets.Proofs.Snippet.Messages
import SchemaSnippets.Report.Check

/-!
# What a check covers

A check looks at the plan and at all scalars of the graph, while snippets are made from the members of
declarations. Nothing is found there that the check does not find, since each scalar that a member
leads to is one of the graph.

* `exists_mem_firstMessages`, `mem_of_mem_firstMessages` : leaving out messages that came before keeps
  every message, and adds nothing;
* `exists_mem_diagnostics_check` : the check has the message of each failure of the snippets;
* `check_covers` : so what is valid has snippets without errors.
-/

namespace SchemaSnippets.Report
open Model Request Schema Snippet Target

/-! ## First messages -/

/-- One step of leaving out. -/
def keepNew (kept : List Diagnostic) (d : Diagnostic) : List Diagnostic :=
  if kept.any (·.message == d.message) then kept else kept ++ [d]

variable {ds kept : List Diagnostic} {d d' : Diagnostic}

theorem mem_keepNew_of_mem (h : d' ∈ kept) : d' ∈ keepNew kept d := by
  unfold keepNew
  split
  · exact h
  · exact List.mem_append_left _ h

theorem mem_of_mem_keepNew (h : d' ∈ keepNew kept d) : d' ∈ kept ∨ d' = d := by
  unfold keepNew at h
  split at h
  · exact Or.inl h
  · simpa using h

theorem exists_mem_keepNew (kept : List Diagnostic) (d : Diagnostic) :
    ∃ d' ∈ keepNew kept d, d'.message = d.message := by
  unfold keepNew
  split
  · rename_i h
    simpa using h
  · exact ⟨d, by simp, rfl⟩

theorem mem_foldl_keepNew_of_mem (h : d ∈ kept) : d ∈ ds.foldl keepNew kept := by
  induction ds generalizing kept with
  | nil => exact h
  | cons d' ds ih => exact ih (mem_keepNew_of_mem h)

theorem mem_of_mem_foldl_keepNew (h : d ∈ ds.foldl keepNew kept) : d ∈ kept ∨ d ∈ ds := by
  induction ds generalizing kept with
  | nil => exact Or.inl h
  | cons d' ds ih =>
      rcases ih h with h | h
      · exact (mem_of_mem_keepNew h).imp_right fun h => List.mem_cons.2 (Or.inl h)
      · exact Or.inr (List.mem_cons_of_mem _ h)

theorem exists_mem_foldl_keepNew (h : d ∈ ds) :
    ∃ d' ∈ ds.foldl keepNew kept, d'.message = d.message := by
  induction ds generalizing kept with
  | nil => simp at h
  | cons x ds ih =>
      rw [List.foldl_cons]
      rcases List.mem_cons.1 h with rfl | h
      · obtain ⟨d', hd', hmessage⟩ := exists_mem_keepNew kept d
        exact ⟨d', mem_foldl_keepNew_of_mem hd', hmessage⟩
      · exact ih h

theorem exists_mem_firstMessages (h : d ∈ ds) : ∃ d' ∈ firstMessages ds, d'.message = d.message :=
  exists_mem_foldl_keepNew h

theorem mem_of_mem_firstMessages (h : d ∈ firstMessages ds) : d ∈ ds := by
  have hkept : d ∈ [] ∨ d ∈ ds := mem_of_mem_foldl_keepNew h
  exact hkept.resolve_left (List.not_mem_nil)

/-! ## What a check finds -/

section Check
variable {r : CodeRequest} {path : String} {t : Target} {o : Options} {e : SchemaError}

theorem mem_diagnostics_check {d : Diagnostic} (h : d ∈ (check r path).diagnostics) :
    d ∈ missingDiagnostics (planOf r) ++ scalarDiagnostics r.graph
      ++ recursiveDiagnostics (planOf r) :=
  mem_of_mem_firstMessages h

theorem mem_scalarDiagnostics {g : TypeGraph} {d : Diagnostic} :
    d ∈ scalarDiagnostics g ↔ ∃ t ∈ g.types, t.kind.isScalar ∧
      ∃ e, g.primitiveOf t = .error e ∧ d = (Failure.schema e).diagnostic (some t.key) := by
  simp only [scalarDiagnostics, List.mem_filterMap, List.mem_filter, and_assoc]
  refine exists_congr fun t => and_congr_right fun _ => and_congr_right fun _ => ?_
  cases g.primitiveOf t <;> simp [eq_comm]

theorem exists_mem_scalarDiagnostics {n : QualifiedName}
    (h : r.graph.scalarErrorOf? n = some e) :
    ∃ d ∈ scalarDiagnostics r.graph, d.message = e.message := by
  obtain ⟨u, hends, hs, he⟩ := TypeGraph.scalarErrorOf?_eq_some.1 h
  exact ⟨_, mem_scalarDiagnostics.2 ⟨u, hends.mem_types, hs, e, he, rfl⟩, rfl⟩

theorem exists_mem_diagnostics_check (h : .schema e ∈ (generate t r o).findings.failures) :
    ∃ d ∈ (check r path).diagnostics, d.message = e.message := by
  have hfound : ∃ d ∈ missingDiagnostics (planOf r) ++ scalarDiagnostics r.graph
      ++ recursiveDiagnostics (planOf r), d.message = e.message := by
    by_cases ht : t.profile.declaresModel
    · rw [generate_of_declaresModel ht, mem_failures_withModel] at h
      rcases h with h | ⟨n, -, h⟩
      · exact ⟨_, List.mem_append_left _ (List.mem_append_left _ (List.mem_map_of_mem h)), rfl⟩
      · obtain ⟨d, hd, hmessage⟩ := exists_mem_scalarDiagnostics h
        exact ⟨d, List.mem_append_left _ (List.mem_append_right _ hd), hmessage⟩
    · rw [generate_of_not_declaresModel ht] at h
      cases h
  obtain ⟨d, hd, hmessage⟩ := hfound
  obtain ⟨d', hd', hmessage'⟩ := exists_mem_firstMessages hd
  exact ⟨d', hd', hmessage'.trans hmessage⟩

/-! ## Errors -/

theorem isError_diagnostic_iff {f : Failure} {location : Option String} :
    (f.diagnostic location).isError ↔ ∃ k, f = .schema (.unknownType k) := by
  cases f with
  | schema e => cases e <;> simp [Failure.diagnostic, Diagnostic.isError, Failure.severity]
  | unsupportedPrimitive language kind =>
      simp [Failure.diagnostic, Diagnostic.isError, Failure.severity]

/-- What has the message of a missing type in a check is an error. -/
theorem isError_of_message {d : Diagnostic} {k : String} (hd : d ∈ (check r path).diagnostics)
    (h : d.message = (SchemaError.unknownType k).message) : d.isError := by
  have hfailure : ∀ e location, d = (Failure.schema e).diagnostic location → d.isError := by
    rintro e location rfl
    obtain rfl := message_eq_unknownType_iff.1 h
    rfl
  rcases List.mem_append.1 (mem_diagnostics_check hd) with hd | hd
  · rcases List.mem_append.1 hd with hd | hd
    · obtain ⟨e, -, rfl⟩ := List.mem_map.1 hd
      exact hfailure _ _ rfl
    · obtain ⟨u, -, -, e, -, rfl⟩ := mem_scalarDiagnostics.1 hd
      exact hfailure _ _ rfl
  · obtain ⟨b, -, rfl⟩ := List.mem_map.1 hd
    exact absurd h (referencedRecursively_ne _ _)

/-- An error among the diagnostics of snippets is a missing type. -/
theorem exists_unknownType_of_isError {p : Profile} {d : Diagnostic}
    (hd : d ∈ (withModel p r o).findings.diagnostics) (h : d.isError) :
    ∃ k, .schema (.unknownType k) ∈ (withModel p r o).findings.failures := by
  rcases mem_diagnostics_iff.1 hd with ⟨q, hq, rfl⟩ | ⟨b, -, rfl⟩
  · obtain ⟨k, hk⟩ := isError_diagnostic_iff.1 h
    exact ⟨k, mem_failures_iff.2 ⟨q, hq, hk⟩⟩
  · cases h

end Check

/-- A check reports all that is wrong with the schema wherever snippets are made from it, in every
language. A request that it finds valid has snippets without errors. -/
theorem check_covers (r : CodeRequest) (path : String) (t : Target) (o : Options) :
    (∀ e, .schema e ∈ (generate t r o).findings.failures →
      ∃ d ∈ (check r path).diagnostics, d.message = e.message) ∧
    ((check r path).isValid → (generate t r o).hasErrors = false) := by
  refine ⟨fun e => exists_mem_diagnostics_check, fun hvalid => ?_⟩
  by_cases ht : t.profile.declaresModel
  · have hno : ∀ d ∈ (check r path).diagnostics, ¬ d.isError := by
      simpa [CheckReport.isValid] using hvalid
    rw [Output.hasErrors, List.any_eq_false]
    intro d hd herr
    rw [generate_of_declaresModel ht] at hd
    obtain ⟨k, hk⟩ := exists_unknownType_of_isError hd herr
    rw [← generate_of_declaresModel ht] at hk
    have hfound : ∃ d' ∈ (check r path).diagnostics,
        d'.message = (SchemaError.unknownType k).message := exists_mem_diagnostics_check hk
    obtain ⟨d', hd', hmessage⟩ := hfound
    exact hno d' hd' (isError_of_message hd' hmessage)
  · rw [generate_of_not_declaresModel ht]
    rfl

end SchemaSnippets.Report

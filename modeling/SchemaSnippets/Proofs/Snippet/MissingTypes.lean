import Mathlib.Data.List.Count
import Mathlib.Data.List.Nodup
import SchemaSnippets.Proofs.Snippet.Messages

/-!
# Reports of missing types

How often a type that has no declaration is reported. It is reported once with the plan, and again for
each member, and for the result, whose type is a scalar that inherits from it.

* `Output.countMissing` : the number of diagnostics about a missing type; `countMissing_withModel` : they
  are its reports;
* `count_missing_type` : how many there are, and when there is only one.
-/

namespace SchemaSnippets.Snippet
open Model Request Schema Target

section Counts
variable {p : Profile} {r : CodeRequest} {o : Options} {k : String}

/-- The number of diagnostics about the missing type `k`. -/
def Output.countMissing (out : Output) (k : String) : Nat :=
  out.findings.diagnostics.countP (·.message = (SchemaError.unknownType k).message)

theorem countP_map_diagnostic (rs : List Report) (k : String) :
    (rs.map fun r => r.1.diagnostic r.2).countP (·.message = (SchemaError.unknownType k).message) =
      (rs.map Prod.fst).count (.schema (.unknownType k)) := by
  rw [List.countP_map, List.count, List.countP_map]
  refine List.countP_congr fun q _ => ?_
  simpa [Failure.diagnostic] using Failure.message_eq_unknownType_iff

/-- References back have messages of their own. -/
theorem countMissing_withModel (p : Profile) (r : CodeRequest) (o : Options) (k : String) :
    (withModel p r o).countMissing k =
      ((planReports (contextOf p r o.docs) (planOf r)).map Prod.fst).count (.schema (.unknownType k))
        + ((modelReports p r o.docs).map Prod.fst).count (.schema (.unknownType k))
        + ((unsupportedReports p r o.docs).map Prod.fst).count (.schema (.unknownType k)) := by
  have hnotes : ((planOf r).recursive.map (backNote (contextOf p r o.docs))).countP
      (·.message = (SchemaError.unknownType k).message) = 0 := by
    rw [List.countP_eq_zero]
    intro d hd
    obtain ⟨b, -, rfl⟩ := List.mem_map.1 hd
    simpa using message_backNote_ne _ b k
  rw [Output.countMissing, diagnostics_withModel]
  simp only [List.countP_append, countP_map_diagnostic, hnotes]
  omega

theorem schema_injective : Function.Injective Failure.schema :=
  fun _ _ => Failure.schema.inj

/-- The plan reports each missing type once. -/
theorem count_planReports (hk : k ∈ (planOf r).missingNames) (c : Context) :
    ((planReports c (planOf r)).map Prod.fst).count (.schema (.unknownType k)) = 1 := by
  have hcovers := build_covers r.graph r.returnType
  have hnodup : (planOf r).missingNames.Nodup := hcovers.2.2.2.2.2.1
  have herrors : (planOf r).errors = (planOf r).missingNames.map .unknownType :=
    hcovers.2.2.2.2.2.2
  have hfst : (planReports c (planOf r)).map Prod.fst = (planOf r).errors.map .schema := by
    rw [planReports, List.map_map]
    rfl
  rw [hfst, List.count_map_of_injective _ _ schema_injective, herrors,
    List.count_map_of_injective _ _ fun _ _ => SchemaError.unknownType.inj]
  exact List.count_eq_one_of_mem hnodup hk

/-- A model reports it for each type that is written as a scalar inheriting from it. -/
theorem count_modelReports (p : Profile) (r : CodeRequest) (docs : Bool) (k : String) :
    ((modelReports p r docs).map Prod.fst).count (.schema (.unknownType k)) =
      (writtenNames r).countP fun n => r.graph.scalarErrorOf? n = some (.unknownType k) := by
  rw [map_fst_modelReports, List.count_map_of_injective _ _ schema_injective, List.count_filterMap]
  exact List.countP_congr fun n _ => by simp

theorem count_unsupportedReports (p : Profile) (r : CodeRequest) (docs : Bool) (k : String) :
    ((unsupportedReports p r docs).map Prod.fst).count (.schema (.unknownType k)) = 0 := by
  rw [List.count_eq_zero, unsupportedReports, List.map_map]
  simp

end Counts

/-- A missing type is reported once, and once more for each attribute of a declaration, and for the
result, whose type is a scalar that finds its primitive there, in collections or not. So it is
reported exactly once if and only if no such scalar is written. -/
theorem count_missing_type {t : Target} {r : CodeRequest} {k : String}
    (ht : t.profile.declaresModel) (hk : k ∈ (planOf r).missingNames) (o : Options) :
    (generate t r o).countMissing k =
      1 + (writtenNames r).countP (fun n => r.graph.scalarErrorOf? n = some (.unknownType k)) ∧
    ((generate t r o).countMissing k = 1 ↔ ∀ n ∈ writtenNames r, ∀ u,
      r.graph.EndsAt n (.last u) → u.kind.isScalar →
        r.graph.primitiveOf u ≠ .error (.unknownType k)) := by
  have hcount : (generate t r o).countMissing k =
      1 + (writtenNames r).countP fun n => r.graph.scalarErrorOf? n = some (.unknownType k) := by
    rw [generate_of_declaresModel ht, countMissing_withModel, count_planReports hk,
      count_modelReports, count_unsupportedReports, Nat.add_zero]
  have hzero : (generate t r o).countMissing k = 1 ↔
      (writtenNames r).countP (fun n => r.graph.scalarErrorOf? n = some (.unknownType k)) = 0 := by
    omega
  refine ⟨hcount, hzero.trans ?_⟩
  rw [List.countP_eq_zero]
  refine forall₂_congr fun n hn => ?_
  simp only [decide_eq_true_eq, TypeGraph.scalarErrorOf?_eq_some]
  grind

/-! ### A film whose owner is a studio -/

/-- No studio is known, and an owner is a scalar that inherits from studios. -/
def ownerTypes : List SchemaType :=
  [.ofKind (.ofFull "films.Owner") (.scalar [.ofFull "films.Studio"]),
    .ofKind (.ofFull "films.Film") (.record
      [⟨"studio", .ofFull "films.Studio", false, [], none, none⟩,
        ⟨"owner", .ofFull "films.Owner", false, [], none, none⟩])]

def ownerRequest : CodeRequest :=
  ⟨"find { Film }", .ofFull "films.Film", .ofTypes ownerTypes []⟩

/-- The studio is missing and its owner inherits from it, so that it is reported twice. -/
theorem studio_counted :
    Target.rust.profile.declaresModel ∧ "films.Studio" ∈ (planOf ownerRequest).missingNames ∧
      (generate .rust ownerRequest ⟨"client", true⟩).countMissing "films.Studio" = 1 + 1 := by
  have ht : Target.rust.profile.declaresModel := rfl
  have hk : "films.Studio" ∈ (planOf ownerRequest).missingNames := by decide
  have hscalars : (writtenNames ownerRequest).countP (fun n =>
      ownerRequest.graph.scalarErrorOf? n = some (.unknownType "films.Studio")) = 1 := by decide
  exact ⟨ht, hk, hscalars ▸ (count_missing_type ht hk ⟨"client", true⟩).1⟩

theorem studio_reported_twice :
    "films.Studio" ∈ (planOf ownerRequest).missingNames ∧
      (generate .rust ownerRequest ⟨"client", true⟩).countMissing "films.Studio" ≠ 1 := by
  decide

end SchemaSnippets.Snippet

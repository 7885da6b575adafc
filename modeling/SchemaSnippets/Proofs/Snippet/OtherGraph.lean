import SchemaSnippets.Proofs.Snippet.ClosedReferences
import SchemaSnippets.Snippet.Generate

/-!
# Models over another graph

A model looks up what its plan and the members of its declarations mean. Graphs that give the same plan
and write these members in the same way have the same snippets.

* `Context.withGraph` : a context with another graph;
* `Context.WritesSame c g a` : the attribute has the same type and documentation over the graph `g`;
  `modelIn_withGraph` : if all attributes have, the models are the same;
* `generate_eq_of_writesSame` : so are the snippets.
-/

namespace SchemaSnippets.Snippet
open Model Request Schema Target

namespace Context
variable {c : Context} {g : TypeGraph} {root : QualifiedName} {fs : Findings}

/-- The same names and references back, over another graph. -/
def withGraph (c : Context) (g : TypeGraph) : Context :=
  { c with graph := g }

@[simp] theorem graph_withGraph : (c.withGraph g).graph = g := rfl

/-- The attribute is written in the same way over the other graph, wherever it stands. -/
structure WritesSame (c : Context) (g : TypeGraph) (a : Attribute) : Prop where
  type : ∀ source place fs,
    (c.withGraph g).attributeType source place a fs = c.attributeType source place a fs
  docs : (c.withGraph g).memberDocs a = c.memberDocs a

theorem membersOf_withGraph {source name : String} {as : List Attribute}
    (has : ∀ a ∈ as, c.WritesSame g a) :
    (c.withGraph g).membersOf source name as fs = c.membersOf source name as fs := by
  induction as generalizing fs with
  | nil => rfl
  | cons a as ih =>
      obtain ⟨ha, has⟩ := List.forall_mem_cons.1 has
      rw [membersOf, membersOf, ha.type, ha.docs]
      dsimp only
      rw [ih has]

theorem recordDeclaration_withGraph {t : SchemaType} (ht : ∀ a ∈ t.kind.attributes, c.WritesSame g a) :
    (c.withGraph g).recordDeclaration t fs = c.recordDeclaration t fs := by
  have hmembers : ∀ name, (c.withGraph g).membersOf t.key name t.kind.attributes fs =
      c.membersOf t.key name t.kind.attributes fs := fun name => membersOf_withGraph ht
  unfold recordDeclaration
  dsimp only
  rw [hmembers]
  rfl

theorem entries_withGraph {ps : List PlanItem}
    (hps : ∀ t, .declare t ∈ ps → ∀ a ∈ t.kind.attributes, c.WritesSame g a) :
    (c.withGraph g).entries ps fs = c.entries ps fs := by
  induction ps generalizing fs with
  | nil => rfl
  | cons p ps ih =>
      have hrest : ∀ fs', (c.withGraph g).entries ps fs' = c.entries ps fs' :=
        fun fs' => ih fun t ht => hps t (List.mem_cons_of_mem _ ht)
      cases p with
      | missing name k => rw [entries, entries, hrest]
      | declare t =>
          rw [entries, entries, recordDeclaration_withGraph (hps t (List.mem_cons_self ..))]
          split
          · rw [hrest]
            rfl
          · dsimp only
            rw [hrest]

theorem modelIn_withGraph {plan : Plan}
    (hplan : ∀ t ∈ plan.declarations, ∀ a ∈ t.kind.attributes, c.WritesSame g a)
    (hresult : ∀ fs,
      SnippetModel.resultTypeOf (c.withGraph g) root fs = SnippetModel.resultTypeOf c root fs) :
    modelIn (c.withGraph g) plan root = modelIn c plan root := by
  have hentries : ∀ t, .declare t ∈ plan.entries → ∀ a ∈ t.kind.attributes, c.WritesSame g a :=
    fun t ht => hplan t (List.mem_filterMap.2 ⟨_, ht, rfl⟩)
  rw [modelIn, modelIn, entries_withGraph hentries]
  dsimp only
  rw [hresult]
  rfl

end Context

variable {g g' : TypeGraph} {root : QualifiedName}

/-- The snippets of a request depend on the graph by the plan, the attributes of what is declared, and
the type of the result. -/
theorem generate_eq_of_writesSame (hplan : Plan.build g' root = Plan.build g root)
    (hwrites : ∀ c : Context, c.graph = g → ∀ t ∈ (Plan.build g root).declarations,
      ∀ a ∈ t.kind.attributes, c.WritesSame g' a)
    (hresult : ∀ c : Context, c.graph = g → ∀ fs,
      SnippetModel.resultTypeOf (c.withGraph g') root fs = SnippetModel.resultTypeOf c root fs)
    (t : Target) (query : String) (o : Options) :
    generate t ⟨query, root, g'⟩ o = generate t ⟨query, root, g⟩ o := by
  have hbuild : ∀ p docs, SnippetModel.build p ⟨query, root, g'⟩ docs =
      SnippetModel.build p ⟨query, root, g⟩ docs := by
    intro p docs
    have hplanOf : planOf ⟨query, root, g'⟩ = planOf ⟨query, root, g⟩ := hplan
    have hcontext : contextOf p ⟨query, root, g'⟩ docs =
        (contextOf p ⟨query, root, g⟩ docs).withGraph g' := by
      unfold contextOf
      rw [hplanOf]
      rfl
    rw [build_eq_modelIn, build_eq_modelIn, hcontext, hplanOf]
    exact Context.modelIn_withGraph (hwrites _ rfl) (hresult _ rfl)
  unfold generate
  dsimp only
  split
  · unfold withModel
    rw [hbuild]
    rfl
  · rfl

end SchemaSnippets.Snippet

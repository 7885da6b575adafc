import SchemaSnippets.Proofs.Schema.Construction
import SchemaSnippets.Proofs.Schema.Lineage

/-!
# Agreement of graphs

What a name leads to depends on a part of the graph only. Graphs in which the names of this part mean
the same agree on all that is found out about it.

* `Involves g root n` : `root` leads to the name `n`, through members, elements and parents;
* `Mentions g root m` : `root`, or a type that it leads to, mentions `m`; `mentions_of_involves`;
* `Agrees g g' root` : what `root` involves means the same in both graphs;
* `Agrees.primitiveOf_eq`, `Agrees.inheritedFormat_eq` : then its types inherit the same;
* `agrees_ofTypes_append` : a further definition leaves a graph that agrees with the one without it, if
  no name of it is mentioned and the graphs share what is built in (`SharesBuiltins`).
-/

namespace SchemaSnippets.Schema.TypeGraph

/-- The names that `root` leads to: itself, and what the type that such a name means is made of or
inherits from. -/
inductive Involves (g : TypeGraph) (root : QualifiedName) : QualifiedName → Prop where
  | root : Involves g root root
  | next {n m : QualifiedName} {t : SchemaType} (hn : Involves g root n)
      (ht : g.resolve? n = some t) (hm : m ∈ t.kind.references ++ t.kind.parents) :
      Involves g root m

/-- A name that `root` involves means the type. -/
def Meets (g : TypeGraph) (root : QualifiedName) (t : SchemaType) : Prop :=
  ∃ n, g.Involves root n ∧ g.resolve? n = some t

/-- The names that `root` and the types that it meets mention, with the parameters inside them. -/
def Mentions (g : TypeGraph) (root m : QualifiedName) : Prop :=
  m ∈ root.mentioned ∨ ∃ t, g.Meets root t ∧ m ∈ t.mentioned

/-- What `root` involves means the same in both graphs. -/
def Agrees (g g' : TypeGraph) (root : QualifiedName) : Prop :=
  ∀ n, g.Involves root n → g'.resolve? n = g.resolve? n

variable {g g' : TypeGraph} {root n m : QualifiedName} {t u : SchemaType}

/-! ## Names -/

theorem involves_of_reachable (h : g.Reachable root n) : g.Involves root n := by
  induction h with
  | root => exact .root
  | element _ ht he ih =>
      refine ih.next ht (List.mem_append_left _ (List.mem_append_left _ ?_))
      simp [he]
  | member _ ht ha ih =>
      exact ih.next ht (List.mem_append_left _ (List.mem_append_right _ (List.mem_map_of_mem ha)))

theorem mem_mentioned_self (n : QualifiedName) : n ∈ n.mentioned := by
  cases n
  exact List.mem_cons_self ..

theorem mem_mentioned_of_mem (h : m ∈ t.kind.references ++ t.kind.parents) : m ∈ t.mentioned := by
  have hself := mem_mentioned_self m
  simp only [TypeKind.references, List.mem_append, List.mem_map] at h
  simp only [SchemaType.mentioned, List.mem_append, List.mem_flatMap]
  rcases h with (h | ⟨a, ha, rfl⟩) | h
  · exact Or.inr ⟨m, h, hself⟩
  · exact Or.inl (Or.inr ⟨a, ha, hself⟩)
  · exact Or.inl (Or.inl (Or.inr ⟨m, h, hself⟩))

theorem mentions_of_involves (h : g.Involves root n) : g.Mentions root n := by
  cases h with
  | root => exact Or.inl (mem_mentioned_self root)
  | next hn ht hm => exact Or.inr ⟨_, ⟨_, hn, ht⟩, mem_mentioned_of_mem hm⟩

theorem mem_of_mentions (h : g.Mentions root m) : m ∈ root.mentioned ++ g.mentioned := by
  rcases h with h | ⟨t, ⟨n, -, ht⟩, hm⟩
  · exact List.mem_append_left _ h
  · exact List.mem_append_right _ (List.mem_flatMap.2 ⟨t, mem_types_of_resolve? ht, hm⟩)

theorem Meets.involves (h : g.Meets root t) (hm : m ∈ t.kind.references ++ t.kind.parents) :
    g.Involves root m := by
  obtain ⟨n, hn, ht⟩ := h
  exact hn.next ht hm

theorem Meets.mem_types (h : g.Meets root t) : t ∈ g.types := by
  obtain ⟨n, -, ht⟩ := h
  exact mem_types_of_resolve? ht

theorem Meets.of_elementOf? (h : g.Meets root t) (hu : g.elementOf? t = some u) :
    g.Meets root u := by
  obtain ⟨e, he, hu⟩ := elementOf?_eq_some.1 hu
  refine ⟨e, h.involves (List.mem_append_left _ (List.mem_append_left _ ?_)), hu⟩
  simp [he]

theorem Meets.of_parentOf? (h : g.Meets root t) (hu : g.parentOf? t = some u) : g.Meets root u := by
  obtain ⟨p, hp, hu⟩ := List.exists_of_findSome?_eq_some hu
  exact ⟨p, h.involves (List.mem_append_right _ hp), hu⟩

/-! ## What graphs agree on -/

namespace Agrees
variable (h : g.Agrees g' root)
include h

theorem resolve_eq (hn : g.Involves root n) : g'.resolve n = g.resolve n := by
  have hsame := h n hn
  cases ht : g.resolve? n with
  | none => rw [resolve?_eq_none.1 ht, resolve?_eq_none.1 (hsame.trans ht)]
  | some t => rw [resolve?_eq_some.1 ht, resolve?_eq_some.1 (hsame.trans ht)]

theorem mem_types (ht : g.Meets root t) : t ∈ g'.types := by
  obtain ⟨n, hn, ht⟩ := ht
  exact mem_types_of_resolve? ((h n hn).trans ht)

theorem elementOf?_eq (ht : g.Meets root t) : g'.elementOf? t = g.elementOf? t := by
  unfold elementOf?
  cases he : t.kind.element? with
  | none => rfl
  | some e =>
      refine h e (ht.involves (List.mem_append_left _ (List.mem_append_left _ ?_)))
      simp [he]

theorem findSome?_parents_eq (ht : g.Meets root t) :
    t.kind.parents.findSome? g'.resolve? = t.kind.parents.findSome? g.resolve? := by
  rw [← List.head?_filterMap, ← List.head?_filterMap]
  exact congrArg List.head? (List.filterMap_congr fun p hp =>
    h p (ht.involves (List.mem_append_right _ hp)))

theorem elementWay {passed : List SchemaType} {e : WayEnd} (ht : g.Meets root t)
    (hway : Way g.elementOf? [] t passed e) : Way g'.elementOf? [] t passed e :=
  hway.congr (fun _ hu => h.elementOf?_eq hu) (fun _ _ hu => hu.of_elementOf?) ht

theorem parentWay {passed : List SchemaType} {e : WayEnd} (ht : g.Meets root t)
    (hway : Way g.parentOf? [] t passed e) : Way g'.parentOf? [] t passed e :=
  hway.congr (fun _ hu => h.findSome?_parents_eq hu) (fun _ _ hu => hu.of_parentOf?) ht

/-- Where the way along the parents ends, only the parents of the last type are looked up. -/
theorem primitiveFrom_one_eq (ht : g.Meets root t) :
    g'.primitiveFrom 1 [] t = g.primitiveFrom 1 [] t := by
  have hparents := h.findSome?_parents_eq ht
  rw [primitiveFrom, primitiveFrom]
  cases hk : t.kind with
  | scalar parents =>
      rw [hk] at hparents
      simp only [parentOf, show parents.findSome? g'.resolve? = parents.findSome? g.resolve? from
        hparents]
      rfl
  | _ => rfl

theorem primitiveOf_eq (ht : g.Meets root t) : g'.primitiveOf t = g.primitiveOf t := by
  obtain ⟨passed, e, hway⟩ := exists_parentWay ht.mem_types
  rw [TypeGraph.primitiveOf_eq ht.mem_types hway,
    TypeGraph.primitiveOf_eq (h.mem_types ht) (h.parentWay ht hway)]
  -- both graphs have the same way along the parents, and its end decides
  cases e with
  | last u =>
      have hu : g.Meets root u := hway.end_of_step (P := g.Meets root)
        (fun _ _ hu => hu.of_parentOf?) ht
      exact h.primitiveFrom_one_eq hu
  | again u => rfl

theorem inheritedFormat_eq (ht : g.Meets root t) : g'.inheritedFormat t = g.inheritedFormat t := by
  obtain ⟨passed, e, hway⟩ := exists_parentWay ht.mem_types
  rw [TypeGraph.inheritedFormat_eq ht.mem_types hway,
    TypeGraph.inheritedFormat_eq (h.mem_types ht) (h.parentWay ht hway)]

end Agrees

/-! ## A further definition -/

/-- No name that `root` involves means, in one of the graphs, a built-in type that the other lacks. -/
def SharesBuiltins (g g' : TypeGraph) (root : QualifiedName) : Prop :=
  ∀ n, g.Involves root n → ∀ b, b.IsBuiltin →
    (g.resolve? n = some b → b ∈ g'.types) ∧ (g'.resolve? n = some b → b ∈ g.types)

/-- Names with keys of their own mean no other type by a further definition. -/
theorem sharesBuiltins_of_keys {types : List SchemaType} {services : List Service}
    (hfresh : ∀ n, (ofTypes types services).Involves root n → u.key ≠ n.key)
    (hkeys : ∀ n, (ofTypes types services).Involves root n →
      n.key ∈ (ofTypes types services).types.map (·.key)) :
    (ofTypes types services).SharesBuiltins (ofTypes (types ++ [u]) services) root := by
  intro n hn b _
  have hsame : (ofTypes (types ++ [u]) services).resolve? n = (ofTypes types services).resolve? n := by
    rcases ofTypes_append types u services with hsame | ⟨new, hadds⟩
    · rw [hsame]
    · obtain ⟨t, ht, hkey⟩ := List.mem_map.1 (hkeys n hn)
      have hne : t.key ≠ u.key := fun heq => hfresh n hn (heq.symm.trans hkey)
      rw [resolve?_of_key_eq ht hkey, resolve?_of_key_eq (hadds.mem_types ht hne) hkey]
  exact ⟨fun hb => mem_types_of_resolve? (hsame.trans hb),
    fun hb => mem_types_of_resolve? (hsame.symm.trans hb)⟩

theorem agrees_ofTypes_append {types : List SchemaType} {services : List Service}
    (hfresh : ∀ m, (ofTypes types services).Mentions root m → u.key ≠ m.key ∧ u.name.full ≠ m.full)
    (hshares : (ofTypes types services).SharesBuiltins (ofTypes (types ++ [u]) services) root) :
    (ofTypes types services).Agrees (ofTypes (types ++ [u]) services) root := by
  intro n hn
  rcases ofTypes_append types u services with hsame | ⟨new, hadds⟩
  · rw [hsame]
  · obtain ⟨hkey, hfull⟩ := hfresh n (mentions_of_involves hn)
    exact hadds.resolve?_eq hkey hfull (fun b hb => (hshares n hn b hb).1)
      fun b hb => (hshares n hn b hb).2

end SchemaSnippets.Schema.TypeGraph

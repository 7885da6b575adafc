import SchemaSnippets.Proofs.Schema.References

/-!
# Construction of type graphs

What the types of a graph come from, and what a further definition changes.

* `SchemaType.IsBuiltin` : a type that is made for a built-in name, `StandsFor` : and for which one;
* `mem_types_ofTypes` : the types of a graph are definitions or built in;
* `Adds g g' u new` : but for the type `u` and built-in types the graphs `g` and `g'` have the same
  types in the same order; `ofTypes_append` : so it is if `u` is a further definition;
* `Adds.resolve?_eq` : names that are not those of `u` mean the same in both, unless they mean a
  built-in type that only one of them has.
-/

namespace SchemaSnippets.Schema

/-- The type is what a built-in name stands for, and nothing else is known about it. -/
def SchemaType.IsBuiltin (t : SchemaType) : Prop :=
  ∃ n k, n.builtinKind? = some k ∧ t = .ofKind n k

/-- The type is made for this built-in name. -/
def SchemaType.StandsFor (t : SchemaType) (n : QualifiedName) : Prop :=
  ∃ k, n.builtinKind? = some k ∧ t = .ofKind n k

theorem SchemaType.StandsFor.isBuiltin {t : SchemaType} {n : QualifiedName} (h : t.StandsFor n) :
    t.IsBuiltin :=
  ⟨n, h⟩

namespace TypeGraph
variable {g : TypeGraph} {t u : SchemaType}

theorem types_insert (g : TypeGraph) (t : SchemaType) :
    (g.insert t).types = g.types ++ if t.key ∈ g.types.map (·.key) then [] else [t] := by
  unfold insert
  split
  · rename_i u hu
    have hkey : u.key = t.key := by simpa using List.find?_some hu
    rw [if_pos (List.mem_map.2 ⟨u, List.mem_of_find?_eq_some hu, hkey⟩), List.append_nil]
  · rename_i hnone
    have hfree : t.key ∉ g.types.map (·.key) := by simpa [find?] using hnone
    rw [if_neg hfree]

theorem insert_eq_self (h : t.key ∈ g.types.map (·.key)) : g.insert t = g := by
  unfold insert
  split
  · rfl
  · rename_i hnone
    have hfree : t.key ∉ g.types.map (·.key) := by simpa [find?] using hnone
    exact absurd h hfree

theorem mem_types_insert_of_mem (h : u ∈ g.types) : u ∈ (g.insert t).types := by
  rw [types_insert]
  exact List.mem_append_left _ h

theorem mem_types_insert (h : u ∈ (g.insert t).types) : u ∈ g.types ∨ u = t := by
  rw [types_insert] at h
  rcases List.mem_append.1 h with h | h
  · exact Or.inl h
  · split at h
    · simp at h
    · exact Or.inr (List.mem_singleton.1 h)

theorem mem_types_addBuiltin {n : QualifiedName} (h : u ∈ (g.addBuiltin n).types) :
    u ∈ g.types ∨ u.StandsFor n := by
  unfold addBuiltin at h
  split at h
  · rename_i k hk
    exact (mem_types_insert h).imp_right fun hu => ⟨k, hk, hu⟩
  · exact Or.inl h

theorem mem_types_foldl_insert {types : List SchemaType} (h : u ∈ (types.foldl insert g).types) :
    u ∈ g.types ∨ u ∈ types := by
  induction types generalizing g with
  | nil => exact Or.inl h
  | cons t types ih =>
      rcases ih h with h | h
      · exact (mem_types_insert h).imp_right fun hu => List.mem_cons.2 (Or.inl hu)
      · exact Or.inr (List.mem_cons_of_mem _ h)

theorem mem_types_foldl_addBuiltin {ns : List QualifiedName}
    (h : u ∈ (ns.foldl addBuiltin g).types) : u ∈ g.types ∨ ∃ n ∈ ns, u.StandsFor n := by
  induction ns generalizing g with
  | nil => exact Or.inl h
  | cons n ns ih =>
      rcases ih h with h | ⟨m, hm, hu⟩
      · exact (mem_types_addBuiltin h).imp_right fun hu => ⟨n, List.mem_cons_self .., hu⟩
      · exact Or.inr ⟨m, List.mem_cons_of_mem _ hm, hu⟩

/-- The types of a graph are definitions or built in. -/
theorem mem_types_ofTypes {types : List SchemaType} {services : List Service}
    (h : t ∈ (ofTypes types services).types) : t ∈ types ∨ t.IsBuiltin := by
  rcases mem_types_foldl_addBuiltin h with h | ⟨n, -, h⟩
  · exact Or.inl ((mem_types_foldl_insert h).resolve_left (by simp))
  · exact Or.inr h.isBuiltin

/-! ## A further definition -/

theorem find?_filter_of_imp {types : List SchemaType} {p q : SchemaType → Bool}
    (h : ∀ t ∈ types, p t → q t) : (types.filter q).find? p = types.find? p := by
  rw [← List.head?_filter, ← List.head?_filter, List.filter_filter]
  refine congrArg List.head? (List.filter_congr fun t ht => ?_)
  cases hp : p t with
  | false => rfl
  | true => exact h t ht hp

/-- The second graph has the type `u`, behind all common types the built-in types `new`, and it may lack
a built-in type with the key of `u`. -/
structure Adds (g g' : TypeGraph) (u : SchemaType) (new : List SchemaType) : Prop where
  common : g'.types.filter (·.key ≠ u.key) = g.types.filter (·.key ≠ u.key) ++ new
  mem : u ∈ g'.types
  isBuiltin_new : ∀ t ∈ new, t.IsBuiltin
  isBuiltin_old : ∀ t ∈ g.types, t.key = u.key → t.IsBuiltin

namespace Adds
variable {g' : TypeGraph} {new : List SchemaType}

/-- A key that is not the one of `u` is that of a common type or of a new one. -/
theorem mem_keys_iff (h : Adds g g' u new) {k : String} (hk : k ≠ u.key) :
    k ∈ g'.types.map (·.key) ↔ k ∈ g.types.map (·.key) ∨ k ∈ new.map (·.key) := by
  have hfilter : ∀ types : List SchemaType,
      k ∈ types.map (·.key) ↔ k ∈ (types.filter (·.key ≠ u.key)).map (·.key) := by
    intro types
    simp only [List.mem_map, List.mem_filter, decide_eq_true_eq]
    grind
  rw [hfilter g'.types, h.common, List.map_append, List.mem_append, ← hfilter]

theorem insert_left_right (h : Adds g g' u []) (ht : t.IsBuiltin) :
    Adds (g.insert t) (g'.insert t) u [] := by
  refine ⟨?_, ?_, by simp, fun v hv hkey => ?_⟩
  · -- unless the key is that of `u`, it is taken in both graphs or in none
    have hcommon := h.common
    rw [types_insert, types_insert, List.filter_append, List.filter_append, hcommon,
      List.append_nil, List.append_nil, List.append_cancel_left_eq]
    by_cases hk : t.key = u.key
    · -- the key is taken by `u`, and what the first graph gets is not common
      split <;> split <;> simp [hk]
    · have hkeys := h.mem_keys_iff hk
      simp only [List.map_nil, List.not_mem_nil, or_false] at hkeys
      simp only [hkeys]
  · exact mem_types_insert_of_mem h.mem
  · rcases mem_types_insert hv with hv | rfl
    · exact h.isBuiltin_old v hv hkey
    · exact ht

theorem exists_insert_right (h : Adds g g' u new) (ht : t.IsBuiltin) :
    ∃ new', Adds g (g'.insert t) u new' := by
  refine ⟨new ++ (if t.key ∈ g'.types.map (·.key) then [] else [t]), ?_, ?_, fun v hv => ?_,
    h.isBuiltin_old⟩
  · rw [types_insert, List.filter_append, h.common, List.append_assoc]
    split
    · rfl
    · rename_i hk
      have hne : t.key ≠ u.key := fun heq => hk (heq ▸ List.mem_map_of_mem h.mem)
      simp [hne]
  · exact mem_types_insert_of_mem h.mem
  · rcases List.mem_append.1 hv with hv | hv
    · exact h.isBuiltin_new v hv
    · split at hv
      · simp at hv
      · exact List.mem_singleton.1 hv ▸ ht

theorem foldl_left_right (h : Adds g g' u []) (ns : List QualifiedName) :
    Adds (ns.foldl addBuiltin g) (ns.foldl addBuiltin g') u [] := by
  induction ns generalizing g g' with
  | nil => exact h
  | cons n ns ih =>
      refine ih ?_
      unfold addBuiltin
      split
      · rename_i k hk
        exact h.insert_left_right ⟨n, k, hk, rfl⟩
      · exact h

theorem exists_foldl_right (h : Adds g g' u new) (ns : List QualifiedName) :
    ∃ new', Adds g (ns.foldl addBuiltin g') u new' := by
  induction ns generalizing g' new with
  | nil => exact ⟨new, h⟩
  | cons n ns ih =>
      have hstep : ∃ new', Adds g (g'.addBuiltin n) u new' := by
        unfold addBuiltin
        split
        · rename_i k hk
          exact h.exists_insert_right ⟨n, k, hk, rfl⟩
        · exact ⟨new, h⟩
      obtain ⟨new', h'⟩ := hstep
      exact ih h'

theorem mem_types (h : Adds g g' u new) (ht : t ∈ g.types) (hkey : t.key ≠ u.key) : t ∈ g'.types := by
  have hcommon : t ∈ g'.types.filter (·.key ≠ u.key) := by
    rw [h.common]
    exact List.mem_append_left _ (List.mem_filter.2 ⟨ht, decide_eq_true hkey⟩)
  exact List.mem_of_mem_filter hcommon

/-- What is found first is the same if it is not `u`, nor a built-in type that only one graph has. -/
theorem find?_eq (h : Adds g g' u new) {p : SchemaType → Bool} (hu : p u = false)
    (hg : ∀ b, b.IsBuiltin → g.types.find? p = some b → b ∈ g'.types)
    (hg' : ∀ b, b.IsBuiltin → g'.types.find? p = some b → b ∈ g.types) :
    g'.types.find? p = g.types.find? p := by
  have honly : ∀ t ∈ g'.types, p t → t.key ≠ u.key := by
    intro t ht hp hkey
    rw [eq_of_key_eq ht h.mem hkey, hu] at hp
    cases hp
  have hleft : g'.types.find? p =
      ((g.types.filter (·.key ≠ u.key)).find? p).or (new.find? p) := by
    rw [← List.find?_append, ← h.common]
    exact (find?_filter_of_imp fun t ht hp => decide_eq_true (honly t ht hp)).symm
  cases hfound : g.types.find? p with
  | some t =>
      -- only a built-in type could be missing from the second graph, and that is excluded
      have hp := List.find?_some hfound
      have hkey : t.key ≠ u.key := fun hkey =>
        honly t (hg t (h.isBuiltin_old t (List.mem_of_find?_eq_some hfound) hkey) hfound) hp hkey
      have hfilter : (g.types.filter (·.key ≠ u.key)).find? p = some t := by
        obtain ⟨-, before, after, htypes, hbefore⟩ := List.find?_eq_some_iff_append.1 hfound
        rw [List.find?_filter, List.find?_eq_some_iff_append]
        refine ⟨by simp [hp, hkey], before, after, htypes, fun v hv => ?_⟩
        have hv : p v = false := by simpa using hbefore v hv
        simp [hv]
      rw [hleft, hfilter, Option.some_or]
  | none =>
      have hall : ∀ t ∈ g.types, ¬ p t := by simpa using List.find?_eq_none.1 hfound
      have hfilter : (g.types.filter (·.key ≠ u.key)).find? p = none :=
        List.find?_eq_none.2 fun t ht => hall t (List.mem_of_mem_filter ht)
      rw [hleft, hfilter, Option.none_or]
      cases hnew : new.find? p with
      | none => rfl
      | some t =>
          -- a new type is built in, so the first graph would have it, too
          have ht := h.isBuiltin_new t (List.mem_of_find?_eq_some hnew)
          rw [hleft, hfilter, Option.none_or, hnew] at hg'
          exact absurd (List.find?_some hnew) (hall t (hg' t ht rfl))

/-- A name that is not that of `u` means the same in both graphs, unless it means a built-in type that
only one of them has. -/
theorem resolve?_eq (h : Adds g g' u new) {n : QualifiedName} (hkey : u.key ≠ n.key)
    (hfull : u.name.full ≠ n.full)
    (hg : ∀ b, b.IsBuiltin → g.resolve? n = some b → b ∈ g'.types)
    (hg' : ∀ b, b.IsBuiltin → g'.resolve? n = some b → b ∈ g.types) :
    g'.resolve? n = g.resolve? n := by
  rw [resolve?_eq_or] at hg hg' ⊢
  rw [resolve?_eq_or]
  have hkeys : g'.find? n.key = g.find? n.key := by
    refine h.find?_eq (by simpa using hkey) (fun b hb hfound => ?_) fun b hb hfound => ?_
    · exact hg b hb (by rw [find?, hfound, Option.some_or])
    · exact hg' b hb (by rw [find?, hfound, Option.some_or])
  rw [hkeys] at hg' ⊢
  cases hfound : g.find? n.key with
  | some t => rfl
  | none =>
      rw [hfound] at hg hg'
      exact h.find?_eq (by simpa using hfull) hg hg'

end Adds

/-- A further definition changes nothing if its key is taken. Else it is added, with the built-in types
that it mentions. -/
theorem ofTypes_append (types : List SchemaType) (u : SchemaType) (services : List Service) :
    ofTypes (types ++ [u]) services = ofTypes types services ∨
      ∃ new, Adds (ofTypes types services) (ofTypes (types ++ [u]) services) u new := by
  unfold ofTypes
  rw [List.foldl_append, List.foldl_cons, List.foldl_nil]
  generalize types.foldl insert ⟨[], services, List.nodup_nil⟩ = g
  by_cases hu : u.key ∈ g.types.map (·.key)
  · rw [insert_eq_self hu]
    exact Or.inl rfl
  · have htypes : (g.insert u).types = g.types ++ [u] := by rw [types_insert, if_neg hu]
    have hadds : Adds g (g.insert u) u [] := by
      refine ⟨by simp [htypes], by simp [htypes], by simp, fun t ht hkey => ?_⟩
      exact absurd (List.mem_map.2 ⟨t, ht, hkey⟩) hu
    have hmentioned : (g.insert u).mentioned = g.mentioned ++ u.mentioned := by
      simp [mentioned, htypes]
    unfold addBuiltins
    rw [hmentioned, List.foldl_append]
    exact Or.inr ((hadds.foldl_left_right g.mentioned).exists_foldl_right u.mentioned)

end TypeGraph

end SchemaSnippets.Schema

import SchemaSnippets.Proofs.Schema.Construction

/-!
# Graphs hold what they mention

A graph is built in two steps: the definitions come first, and then the built-in types that they
mention. The second step is done once, and yet nothing is left to add, since a built-in type mentions
no other names than the name that it is made for.

* `QualifiedName.IsBuiltin` : a scalar kind without parameters, or a wrapper around one;
  `builtinKind?_eq_some_iff` : the three forms of such a name;
* `mem_mentioned_trans` : what a mentioned name mentions is mentioned;
* `find?_definitions` : of several definitions of a key the first counts;
* `mem_keys_foldl_addBuiltin` : the keys that adding built-in types gives;
* `Saturated g` : every built-in name that `g` mentions has a type; `saturated_ofTypes`;
* `addBuiltins_eq_self`, `types_foldl_insert` : nothing is added to a saturated graph, and types with
  different keys are all kept;
* `ofTypes_normalizes` : first definitions stay, mentioned built-in names mean types of their own keys,
  and building a graph from the types of a graph gives these types.
-/

namespace SchemaSnippets.Schema

/-! ## Built-in names -/

namespace QualifiedName
variable {n m l : QualifiedName}

/-- The name of a built-in type: of a scalar kind without parameters, or of a wrapper with one. -/
def IsBuiltin (n : QualifiedName) : Prop :=
  ∃ k, Primitive.ofFull? n.full = some k ∧ n.parameters.length = if k.isStructural then 1 else 0

theorem builtinKind?_eq_some_iff {kind : TypeKind} :
    n.builtinKind? = some kind ↔
      (∃ k, Primitive.ofFull? n.full = some k ∧ k.isStructural = false ∧ n.parameters = [] ∧
        kind = .primitive k) ∨
      (∃ e, Primitive.ofFull? n.full = some .array ∧ n.parameters = [e] ∧ kind = .collection e) ∨
      ∃ e, Primitive.ofFull? n.full = some .stream ∧ n.parameters = [e] ∧ kind = .stream e := by
  unfold builtinKind?
  constructor
  · intro h
    split at h
    · rename_i e hk hps
      exact Or.inr (Or.inl ⟨e, hk, hps, (Option.some.inj h).symm⟩)
    · rename_i e hk hps
      exact Or.inr (Or.inr ⟨e, hk, hps, (Option.some.inj h).symm⟩)
    · rename_i k hk hps
      cases hs : k.isStructural with
      | true => simp [hs] at h
      | false =>
          rw [hs, if_neg Bool.false_ne_true] at h
          exact Or.inl ⟨k, hk, hs, hps, (Option.some.inj h).symm⟩
    · cases h
  · rintro (⟨k, hk, hs, hps, rfl⟩ | ⟨e, hk, hps, rfl⟩ | ⟨e, hk, hps, rfl⟩)
    · simp [hk, hs, hps]
    · simp [hk, hps]
    · simp [hk, hps]

theorem isBuiltin_iff : n.IsBuiltin ↔ ∃ kind, n.builtinKind? = some kind := by
  simp only [builtinKind?_eq_some_iff]
  constructor
  · rintro ⟨k, hk, hlen⟩
    cases hs : k.isStructural with
    | false =>
        rw [hs, if_neg Bool.false_ne_true, List.length_eq_zero_iff] at hlen
        exact ⟨_, Or.inl ⟨k, hk, hs, hlen, rfl⟩⟩
    | true =>
        rw [hs, if_pos rfl, List.length_eq_one_iff] at hlen
        obtain ⟨e, he⟩ := hlen
        cases k with
        | array => exact ⟨_, Or.inr (Or.inl ⟨e, hk, he, rfl⟩)⟩
        | stream => exact ⟨_, Or.inr (Or.inr ⟨e, hk, he, rfl⟩)⟩
        | _ => cases hs
  · rintro ⟨kind, ⟨k, hk, hs, hps, -⟩ | ⟨e, hk, hps, -⟩ | ⟨e, hk, hps, -⟩⟩
    · exact ⟨k, hk, by rw [hps, hs]; rfl⟩
    · exact ⟨_, hk, by rw [hps]; rfl⟩
    · exact ⟨_, hk, by rw [hps]; rfl⟩

/-- The element of a built-in name is its parameter. -/
theorem mem_parameters_of_builtinKind? {kind : TypeKind} (h : n.builtinKind? = some kind)
    (hm : kind.element? = some m) : m ∈ n.parameters := by
  rcases builtinKind?_eq_some_iff.1 h with ⟨k, -, -, -, rfl⟩ | ⟨e, -, hps, rfl⟩ | ⟨e, -, hps, rfl⟩
  · cases hm
  · rw [hps, List.mem_singleton]
    exact (Option.some.inj hm).symm
  · rw [hps, List.mem_singleton]
    exact (Option.some.inj hm).symm

/-! ## Mentioned names -/

mutual

theorem mem_mentioned_trans : (n : QualifiedName) → m ∈ n.mentioned → l ∈ m.mentioned →
    l ∈ n.mentioned
  | ⟨full, scope, short, ps⟩, hm, hl => by
    rcases List.mem_cons.1 hm with rfl | hm
    · exact hl
    · exact List.mem_cons_of_mem _ (mem_mentionedAll_trans ps hm hl)

theorem mem_mentionedAll_trans : (ns : List QualifiedName) → m ∈ mentionedAll ns →
    l ∈ m.mentioned → l ∈ mentionedAll ns
  | [], hm, _ => by cases hm
  | p :: ps, hm, hl => by
    rw [mentionedAll, List.mem_append] at hm ⊢
    rcases hm with hm | hm
    · exact Or.inl (mem_mentioned_trans p hm hl)
    · exact Or.inr (mem_mentionedAll_trans ps hm hl)

end

theorem mem_mentioned_of_mem_parameters (hm : m ∈ n.parameters) (hl : l ∈ m.mentioned) :
    l ∈ n.mentioned := by
  cases n with
  | mk full scope short ps =>
      refine List.mem_cons_of_mem _ ?_
      rw [mentionedAll_eq_flatMap]
      exact List.mem_flatMap.2 ⟨m, hm, hl⟩

end QualifiedName

namespace SchemaType
variable {t : SchemaType} {n m : QualifiedName}

theorem mem_mentioned_trans (hm : n ∈ t.mentioned) (hl : m ∈ n.mentioned) : m ∈ t.mentioned := by
  have htrans : ∀ l : QualifiedName, n ∈ l.mentioned → m ∈ l.mentioned :=
    fun l hn => QualifiedName.mem_mentioned_trans l hn hl
  simp only [mentioned, List.mem_append, List.mem_flatMap] at hm ⊢
  rcases hm with ((hm | ⟨p, hp, hm⟩) | ⟨a, ha, hm⟩) | ⟨e, he, hm⟩
  · exact Or.inl (Or.inl (Or.inl (htrans _ hm)))
  · exact Or.inl (Or.inl (Or.inr ⟨p, hp, htrans _ hm⟩))
  · exact Or.inl (Or.inr ⟨a, ha, htrans _ hm⟩)
  · exact Or.inr ⟨e, he, htrans _ hm⟩

/-- A built-in type mentions what the name mentions that it is made for. -/
theorem StandsFor.mem_mentioned (h : t.StandsFor n) (hm : m ∈ t.mentioned) : m ∈ n.mentioned := by
  obtain ⟨kind, hk, rfl⟩ := h
  have hkind : kind.parents = [] ∧ kind.attributes = [] := by
    rcases QualifiedName.builtinKind?_eq_some_iff.1 hk with
      ⟨k, -, -, -, rfl⟩ | ⟨e, -, -, rfl⟩ | ⟨e, -, -, rfl⟩ <;> exact ⟨rfl, rfl⟩
  simp only [mentioned, ofKind, hkind.1, hkind.2, List.flatMap_nil, List.append_nil,
    List.mem_append, List.mem_flatMap, Option.mem_toList] at hm
  rcases hm with hm | ⟨e, he, hm⟩
  · exact hm
  · have hparameter := QualifiedName.mem_parameters_of_builtinKind? hk he
    exact QualifiedName.mem_mentioned_of_mem_parameters hparameter hm

end SchemaType

namespace TypeGraph
variable {g : TypeGraph} {t u : SchemaType} {n m : QualifiedName} {types : List SchemaType}
  {services : List Service}

/-! ## Definitions -/

theorem find?_insert (g : TypeGraph) (t : SchemaType) (k : String) :
    (g.insert t).find? k = (g.find? k).or (if t.key = k then some t else none) := by
  unfold find?
  rw [types_insert, List.find?_append]
  by_cases hk : t.key ∈ g.types.map (·.key)
  · rw [if_pos hk, List.find?_nil]
    split
    · -- the key is taken, so the first part finds something
      rename_i heq
      obtain ⟨u, hu, hkey⟩ := List.mem_map.1 hk
      cases hfind : g.types.find? (·.key == k) with
      | none => simpa [hkey, heq] using List.find?_eq_none.1 hfind u hu
      | some v => rfl
    · rfl
  · rw [if_neg hk, List.find?_singleton]
    simp only [beq_iff_eq]

theorem find?_foldl_insert (types : List SchemaType) (g : TypeGraph) (k : String) :
    (types.foldl insert g).find? k = (g.find? k).or (types.find? (·.key == k)) := by
  induction types generalizing g with
  | nil => rw [List.foldl_nil, List.find?_nil, Option.or_none]
  | cons t types ih =>
      rw [List.foldl_cons, ih, find?_insert, Option.or_assoc, List.find?_cons]
      by_cases hk : t.key = k
      · rw [if_pos hk, Option.some_or, hk, BEq.rfl]
      · rw [if_neg hk, Option.none_or, beq_false_of_ne hk]

theorem find?_definitions (types : List SchemaType) (services : List Service) (k : String) :
    (types.foldl insert ⟨[], services, List.nodup_nil⟩).find? k = types.find? (·.key == k) := by
  rw [find?_foldl_insert]
  exact Option.none_or

/-! ## Adding built-in types -/

theorem find?_addBuiltin_of_eq_some {k : String} (h : g.find? k = some t) :
    (g.addBuiltin n).find? k = some t := by
  unfold addBuiltin
  split
  · rw [find?_insert, h, Option.some_or]
  · exact h

theorem find?_foldl_addBuiltin_of_eq_some {ns : List QualifiedName} {k : String}
    (h : g.find? k = some t) : (ns.foldl addBuiltin g).find? k = some t := by
  induction ns generalizing g with
  | nil => exact h
  | cons n ns ih => exact ih (find?_addBuiltin_of_eq_some h)

theorem mem_keys_insert {k : String} :
    k ∈ (g.insert t).types.map (·.key) ↔ k ∈ g.types.map (·.key) ∨ k = t.key := by
  rw [types_insert, List.map_append, List.mem_append]
  by_cases hk : t.key ∈ g.types.map (·.key)
  · rw [if_pos hk, List.map_nil]
    constructor
    · exact fun h => Or.inl (h.resolve_right (List.not_mem_nil))
    · rintro (h | rfl)
      · exact Or.inl h
      · exact Or.inl hk
  · rw [if_neg hk, List.map_singleton, List.mem_singleton]

theorem mem_keys_addBuiltin {k : String} :
    k ∈ (g.addBuiltin n).types.map (·.key) ↔
      k ∈ g.types.map (·.key) ∨ (n.IsBuiltin ∧ k = n.key) := by
  unfold addBuiltin
  split
  · rename_i kind hkind
    have hn : n.IsBuiltin := QualifiedName.isBuiltin_iff.2 ⟨kind, hkind⟩
    rw [mem_keys_insert]
    exact or_congr_right (and_iff_right hn).symm
  · rename_i hnone
    have hn : ¬ n.IsBuiltin := by
      rw [QualifiedName.isBuiltin_iff, hnone]
      simp
    exact (or_iff_left fun h => hn h.1).symm

theorem mem_keys_foldl_addBuiltin {ns : List QualifiedName} {k : String} :
    k ∈ (ns.foldl addBuiltin g).types.map (·.key) ↔
      k ∈ g.types.map (·.key) ∨ ∃ n ∈ ns, n.IsBuiltin ∧ k = n.key := by
  induction ns generalizing g with
  | nil => simp
  | cons n ns ih =>
      rw [List.foldl_cons, ih, mem_keys_addBuiltin, or_assoc]
      simp only [List.mem_cons, exists_eq_or_imp]

theorem addBuiltin_eq_self (h : n.IsBuiltin → n.key ∈ g.types.map (·.key)) :
    g.addBuiltin n = g := by
  unfold addBuiltin
  split
  · rename_i kind hkind
    exact insert_eq_self (h (QualifiedName.isBuiltin_iff.2 ⟨kind, hkind⟩))
  · rfl

theorem foldl_addBuiltin_eq_self {ns : List QualifiedName}
    (h : ∀ n ∈ ns, n.IsBuiltin → n.key ∈ g.types.map (·.key)) : ns.foldl addBuiltin g = g := by
  induction ns with
  | nil => rfl
  | cons n ns ih =>
      obtain ⟨hn, hns⟩ := List.forall_mem_cons.1 h
      rw [List.foldl_cons, addBuiltin_eq_self hn, ih hns]

/-! ## Saturation -/

/-- Every built-in name that the types mention is the key of a type. -/
def Saturated (g : TypeGraph) : Prop :=
  ∀ n ∈ g.mentioned, n.IsBuiltin → n.key ∈ g.types.map (·.key)

theorem mem_mentioned_trans (hm : n ∈ g.mentioned) (hl : m ∈ n.mentioned) : m ∈ g.mentioned := by
  obtain ⟨t, ht, hn⟩ := List.mem_flatMap.1 hm
  exact List.mem_flatMap.2 ⟨t, ht, SchemaType.mem_mentioned_trans hn hl⟩

/-- Adding the built-in types that a graph mentions mentions nothing new. -/
theorem mem_mentioned_of_mem_addBuiltins (h : n ∈ g.addBuiltins.mentioned) : n ∈ g.mentioned := by
  obtain ⟨t, ht, hn⟩ := List.mem_flatMap.1 h
  rcases mem_types_foldl_addBuiltin ht with ht | ⟨m, hm, hstands⟩
  · exact List.mem_flatMap.2 ⟨t, ht, hn⟩
  · exact mem_mentioned_trans hm (hstands.mem_mentioned hn)

theorem saturated_addBuiltins (g : TypeGraph) : g.addBuiltins.Saturated := fun n hn hbuiltin =>
  mem_keys_foldl_addBuiltin.2 (Or.inr ⟨n, mem_mentioned_of_mem_addBuiltins hn, hbuiltin, rfl⟩)

theorem saturated_ofTypes (types : List SchemaType) (services : List Service) :
    (ofTypes types services).Saturated :=
  saturated_addBuiltins _

theorem Saturated.addBuiltins_eq_self (h : g.Saturated) : g.addBuiltins = g :=
  foldl_addBuiltin_eq_self h

/-! ## Building again -/

/-- Types with different keys are all kept, in their order. -/
theorem types_foldl_insert (h : ((g.types ++ types).map (·.key)).Nodup) :
    (types.foldl insert g).types = g.types ++ types := by
  induction types generalizing g with
  | nil => rw [List.foldl_nil, List.append_nil]
  | cons t types ih =>
      have hfree : t.key ∉ g.types.map (·.key) := by
        rw [List.map_append, List.map_cons] at h
        exact fun hmem => List.disjoint_of_nodup_append h hmem (List.mem_cons_self ..)
      have htypes : (g.insert t).types = g.types ++ [t] := by rw [types_insert, if_neg hfree]
      have hnodup : (((g.insert t).types ++ types).map (·.key)).Nodup := by
        rw [htypes, List.append_assoc]
        exact h
      rw [List.foldl_cons, ih hnodup, htypes, List.append_assoc]
      rfl

/-- The graph of definitions with different keys, before built-in types are added. -/
theorem types_definitions (h : (types.map (·.key)).Nodup) (services : List Service) :
    (types.foldl insert ⟨[], services, List.nodup_nil⟩).types = types :=
  types_foldl_insert h

/-- The first definition of each key stays, a mentioned built-in name means a type of its own key, and
nothing is left to add. -/
theorem ofTypes_normalizes (types : List SchemaType) (services : List Service) :
    (∀ k t, types.find? (·.key == k) = some t → (ofTypes types services).find? k = some t) ∧
    (∀ n ∈ (ofTypes types services).mentioned, n.IsBuiltin →
      ∃ t, (ofTypes types services).resolve n = .ok t ∧ t.name.key = n.key) ∧
    (ofTypes (ofTypes types services).types services).types = (ofTypes types services).types := by
  have hsaturated := saturated_ofTypes types services
  refine ⟨fun k t hfirst => ?_, fun n hn hbuiltin => ?_, ?_⟩
  · exact find?_foldl_addBuiltin_of_eq_some ((find?_definitions types services k).trans hfirst)
  · obtain ⟨t, ht, hkey⟩ := List.mem_map.1 (hsaturated n hn hbuiltin)
    exact ⟨t, resolve?_eq_some.1 (resolve?_of_key_eq ht hkey), hkey⟩
  · generalize ofTypes types services = g at hsaturated
    -- the types of a graph have different keys, so the first step gives them back
    have hdefinitions : (g.types.foldl insert ⟨[], services, List.nodup_nil⟩).types = g.types :=
      types_definitions g.keys_nodup services
    have hagain : (g.types.foldl insert ⟨[], services, List.nodup_nil⟩).Saturated := by
      unfold Saturated mentioned
      rw [hdefinitions]
      exact hsaturated
    unfold ofTypes
    rw [hagain.addBuiltins_eq_self, hdefinitions]

/-- An array of arrays of films brings the array of films with it. -/
example :
    let films := QualifiedName.ofFull "films.Film"
    let array (e : QualifiedName) := (QualifiedName.ofFull "lang.taxi.Array").withParameters [e]
    let versions : Attribute := ⟨"versions", array (array films), false, [], none, none⟩
    (ofTypes [.ofKind films (.record [versions])] []).types.map (·.key) =
      ["films.Film", "lang.taxi.Array<lang.taxi.Array<films.Film>>", "lang.taxi.Array<films.Film>"] := by
  decide +kernel

end TypeGraph

end SchemaSnippets.Schema

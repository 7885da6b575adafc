import Mathlib.Data.List.TakeDrop
import Mathlib.Data.List.TakeWhile
import SchemaSnippets.Proofs.Schema.Agreement
import SchemaSnippets.Proofs.Schema.Normal

/-!
# Spellings of built-in names

Names with the same key may differ in their scopes, short names and parameters. A built-in type that a
graph adds has the spelling that is mentioned first, so it depends on the order of the definitions.
Nothing else does.

* `QualifiedName.key_of_builtinKind?` : the key of a built-in name spells out its kind;
* `SchemaType.Alike t u` : the same type, but for the spelling of an element;
  `alike_of_isBuiltin` : built-in types with the same key are alike;
* `TypeGraph.Alike g g'` : the same types in any order and spelling; `alike_ofTypes` : so are the graphs of
  definitions in any order;
* `IsExact g n` : the name means the type with its key, or nothing; `Exact g root` : so do all names that
  a request for `root` may look up; `exact_of_perm` : in any order of the definitions, if names are plain;
* `SameName`, `Alike.resolve?` : exact names with the same key mean alike types;
* `ExactlyAlike.primitiveOf_eq`, `ExactlyAlike.inheritedFormat_eq` : alike types inherit the same.
-/

namespace SchemaSnippets.Schema

/-! ## Keys of built-in names -/

namespace QualifiedName
variable {n m : QualifiedName} {kind kind' : TypeKind}

theorem splitLastPoint?_eq_some {cs before after : List Char}
    (h : splitLastPoint? cs = some (before, after)) : cs = before ++ '.' :: after := by
  unfold splitLastPoint? at h
  rw [List.span_eq_takeWhile_dropWhile] at h
  have hcs : cs.reverse = cs.reverse.takeWhile (· != '.') ++ cs.reverse.dropWhile (· != '.') :=
    (List.takeWhile_append_dropWhile).symm
  split at h
  · cases h
  · rename_i taken point rest heq
    obtain ⟨htaken, hrest⟩ := Prod.mk.inj heq
    obtain ⟨rfl, rfl⟩ := Prod.mk.inj (Option.some.inj h)
    have hpoint : point = '.' := by
      have hhead := List.head?_dropWhile_not (· != '.') cs.reverse
      rw [hrest] at hhead
      simpa using hhead
    rw [htaken, hrest, hpoint] at hcs
    rw [← List.reverse_reverse cs, hcs]
    simp

theorem splitLastPoint?_append {after : List Char} (h : '.' ∉ after) (before : List Char) :
    splitLastPoint? (before ++ '.' :: after) = some (before, after) := by
  have hreverse : (before ++ '.' :: after).reverse = after.reverse ++ '.' :: before.reverse := by simp
  have hplain : ∀ c ∈ after.reverse, (c != '.') = true := fun c hc =>
    bne_iff_ne.2 fun heq => h (heq ▸ List.mem_reverse.1 hc)
  unfold splitLastPoint?
  rw [hreverse, List.span_eq_takeWhile_dropWhile, List.takeWhile_append_of_pos hplain,
    List.dropWhile_append_of_pos hplain]
  simp

end QualifiedName

/-- A built-in kind goes by its bare name, or by its name in the built-in scope. -/
theorem Primitive.full_of_ofFull? {full : String} {k : Primitive} (h : ofFull? full = some k) :
    full = k.name ∨ full = scope ++ "." ++ k.name := by
  have hshort : ∀ {short : String}, ofShort? short = some k → short = k.name := by
    intro short hfind
    have hname := List.find?_some hfind
    exact (beq_iff_eq.1 hname).symm
  unfold ofFull? at h
  split at h
  · rename_i before after hsplit
    split at h
    · rename_i hscope
      refine Or.inr (String.toList_inj.1 ?_)
      rw [QualifiedName.splitLastPoint?_eq_some hsplit, ← hshort h, ← hscope]
      simp
    · cases h
  · exact Or.inl (hshort h)

theorem Primitive.notMem_full_of_ofFull? {full : String} {k : Primitive} (h : ofFull? full = some k) :
    '<' ∉ full.toList := by
  rcases full_of_ofFull? h with rfl | rfl <;> cases k <;> decide

namespace QualifiedName
variable {n m : QualifiedName} {kind kind' : TypeKind}

/-- The parameters are no part of the full name, as it is with all names that are read from texts. -/
def IsPlain (n : QualifiedName) : Prop :=
  '<' ∉ n.full.toList

/-- The full name of a plain name is what stands in its key before the first bracket. -/
theorem takeWhile_key (h : n.IsPlain) : n.key.toList.takeWhile (· != '<') = n.full.toList := by
  cases n with
  | mk full scope short ps =>
      have hfull : ∀ c ∈ full.toList, (c != '<') = true := by
        intro c hc
        rw [bne_iff_ne]
        rintro rfl
        exact h hc
      rw [key]
      split
      · exact List.takeWhile_eq_self_iff.2 hfull
      · simp [List.takeWhile_append_of_pos hfull]

theorem full_eq_of_key_eq (hn : n.IsPlain) (hm : m.IsPlain) (hkey : n.key = m.key) :
    n.full = m.full := by
  rw [← String.toList_inj, ← takeWhile_key hn, ← takeWhile_key hm, hkey]

theorem isPlain_of_builtinKind? (h : n.builtinKind? = some kind) : n.IsPlain := by
  obtain ⟨k, hk, -⟩ := isBuiltin_iff.2 ⟨kind, h⟩
  exact Primitive.notMem_full_of_ofFull? hk

/-- How the element of a kind is spelled in a key. -/
def elementSuffix (kind : TypeKind) : String :=
  match kind.element? with
  | some e => "<" ++ e.key ++ ">"
  | none => ""

theorem key_of_builtinKind? (h : n.builtinKind? = some kind) : n.key = n.full ++ elementSuffix kind := by
  cases n with
  | mk full scope short ps =>
      rcases builtinKind?_eq_some_iff.1 h with
        ⟨k, -, -, hps, rfl⟩ | ⟨e, -, hps, rfl⟩ | ⟨e, -, hps, rfl⟩
      · obtain rfl : ps = [] := hps
        simp [key, elementSuffix, TypeKind.element?]
      · obtain rfl : ps = [e] := hps
        simp [key, keys, elementSuffix, TypeKind.element?, String.append_assoc]
      · obtain rfl : ps = [e] := hps
        simp [key, keys, elementSuffix, TypeKind.element?, String.append_assoc]

theorem full_eq_of_builtinKind?_of_key_eq (hn : n.builtinKind? = some kind)
    (hm : m.builtinKind? = some kind') (hkey : n.key = m.key) : n.full = m.full :=
  full_eq_of_key_eq (isPlain_of_builtinKind? hn) (isPlain_of_builtinKind? hm) hkey

end QualifiedName

/-! ## Alike types -/

/-- Kinds that are the same, but for the spelling of an element. -/
inductive TypeKind.Alike : TypeKind → TypeKind → Prop where
  | refl (k : TypeKind) : Alike k k
  | collection {e e' : QualifiedName} (h : e.key = e'.key) : Alike (.collection e) (.collection e')
  | stream {e e' : QualifiedName} (h : e.key = e'.key) : Alike (.stream e) (.stream e')

namespace TypeKind.Alike
variable {k k' : TypeKind} (h : k.Alike k')
include h

theorem symm : k'.Alike k := by
  cases h with
  | refl => exact .refl _
  | collection he => exact .collection he.symm
  | stream he => exact .stream he.symm

theorem isRecord_eq : k.isRecord = k'.isRecord := by
  cases h <;> rfl

theorem isDeclared_eq : k.isDeclared = k'.isDeclared := by
  cases h <;> rfl

theorem parents_eq : k.parents = k'.parents := by
  cases h <;> rfl

theorem element? : (∃ e e', k.element? = some e ∧ k'.element? = some e' ∧ e.key = e'.key) ∨
    (k.element? = none ∧ k'.element? = none) := by
  cases h with
  | refl =>
      cases k.element? with
      | none => exact Or.inr ⟨rfl, rfl⟩
      | some e => exact Or.inl ⟨e, e, rfl, rfl, rfl⟩
  | @collection e e' he => exact Or.inl ⟨e, e', rfl, rfl, he⟩
  | @stream e e' he => exact Or.inl ⟨e, e', rfl, rfl, he⟩

/-- Alike kinds refer to names with the same keys, one by one. -/
theorem forall₂_references {R : QualifiedName → QualifiedName → Prop}
    (hR : ∀ n ∈ k.references, ∀ m ∈ k'.references, n.key = m.key → R n m) :
    List.Forall₂ R k.references k'.references := by
  cases h with
  | refl => exact List.forall₂_same.2 fun n hn => hR n hn n hn rfl
  | @collection e e' he =>
      exact .cons (hR e (List.mem_singleton_self e) e' (List.mem_singleton_self e') he) .nil
  | @stream e e' he =>
      exact .cons (hR e (List.mem_singleton_self e) e' (List.mem_singleton_self e') he) .nil

theorem exists_mem_references {m : QualifiedName} (hm : m ∈ k'.references) :
    ∃ n ∈ k.references, n.key = m.key := by
  cases h with
  | refl => exact ⟨m, hm, rfl⟩
  | @collection e e' he =>
      obtain rfl := List.mem_singleton.1 hm
      exact ⟨e, List.mem_singleton_self e, he⟩
  | @stream e e' he =>
      obtain rfl := List.mem_singleton.1 hm
      exact ⟨e, List.mem_singleton_self e, he⟩

end TypeKind.Alike

/-- Types that are the same, but for the spelling of an element. What is declared is the same. -/
structure SchemaType.Alike (t u : SchemaType) : Prop where
  key : t.key = u.key
  full : t.name.full = u.name.full
  kind : t.kind.Alike u.kind
  format : t.format = u.format
  eq_of_isDeclared : t.kind.isDeclared → t = u

namespace QualifiedName
variable {n m : QualifiedName} {kind kind' : TypeKind}

/-- The keys of built-in names tell their kinds apart. -/
theorem alike_of_key_eq (hn : n.builtinKind? = some kind) (hm : m.builtinKind? = some kind')
    (hkey : n.key = m.key) : kind.Alike kind' := by
  have hfull : n.full = m.full := full_eq_of_builtinKind?_of_key_eq hn hm hkey
  have hsuffix : elementSuffix kind = elementSuffix kind' := by
    rw [key_of_builtinKind? hn, key_of_builtinKind? hm, hfull] at hkey
    exact (String.append_right_inj _).1 hkey
  rcases builtinKind?_eq_some_iff.1 hn with ⟨k, hk, hs, -, rfl⟩ | ⟨e, hk, -, rfl⟩ | ⟨e, hk, -, rfl⟩ <;>
    rcases builtinKind?_eq_some_iff.1 hm with
      ⟨k', hk', hs', -, rfl⟩ | ⟨e', hk', -, rfl⟩ | ⟨e', hk', -, rfl⟩ <;>
    rw [hfull, hk'] at hk <;> cases hk
  · exact .refl _
  · cases hs
  · cases hs
  · cases hs'
  · refine .collection ?_
    simpa [elementSuffix, TypeKind.element?] using hsuffix
  · cases hs'
  · refine .stream ?_
    simpa [elementSuffix, TypeKind.element?] using hsuffix

end QualifiedName

namespace SchemaType
variable {t u : SchemaType}

theorem Alike.refl (t : SchemaType) : t.Alike t :=
  ⟨rfl, rfl, .refl _, rfl, fun _ => rfl⟩

theorem Alike.symm (h : t.Alike u) : u.Alike t := by
  refine ⟨h.key.symm, h.full.symm, h.kind.symm, h.format.symm, fun hu => ?_⟩
  rw [← h.kind.isDeclared_eq] at hu
  exact (h.eq_of_isDeclared hu).symm

theorem alike_of_isBuiltin (ht : t.IsBuiltin) (hu : u.IsBuiltin) (h : t.key = u.key) : t.Alike u := by
  obtain ⟨n, kind, hn, rfl⟩ := ht
  obtain ⟨m, kind', hm, rfl⟩ := hu
  have hfull := QualifiedName.full_eq_of_builtinKind?_of_key_eq hn hm h
  refine ⟨h, hfull, QualifiedName.alike_of_key_eq hn hm h, rfl, fun hdecl => ?_⟩
  rcases QualifiedName.builtinKind?_eq_some_iff.1 hn with
    ⟨k, -, -, -, rfl⟩ | ⟨e, -, -, rfl⟩ | ⟨e, -, -, rfl⟩ <;> cases hdecl

end SchemaType

/-! ## Alike graphs -/

namespace TypeGraph
variable {g g' : TypeGraph} {t u : SchemaType} {n m root : QualifiedName}
  {types types' : List SchemaType} {services : List Service}

/-- Each type of one graph is alike to one of the other. -/
structure Alike (g g' : TypeGraph) : Prop where
  left : ∀ t ∈ g.types, ∃ u ∈ g'.types, t.Alike u
  right : ∀ u ∈ g'.types, ∃ t ∈ g.types, t.Alike u

namespace Alike
variable (h : g.Alike g')
include h

theorem mem_keys_iff {k : String} : k ∈ g.types.map (·.key) ↔ k ∈ g'.types.map (·.key) := by
  simp only [List.mem_map]
  constructor
  · rintro ⟨t, ht, rfl⟩
    obtain ⟨u, hu, halike⟩ := h.left t ht
    exact ⟨u, hu, halike.key.symm⟩
  · rintro ⟨u, hu, rfl⟩
    obtain ⟨t, ht, halike⟩ := h.right u hu
    exact ⟨t, ht, halike.key⟩

theorem length_eq : g.types.length = g'.types.length := by
  have hkeys : (g.types.map (·.key)).Perm (g'.types.map (·.key)) :=
    (List.perm_ext_iff_of_nodup g.keys_nodup g'.keys_nodup).2 fun _ => h.mem_keys_iff
  simpa using hkeys.length_eq

end Alike

/-! ### Definitions in another order -/

theorem mem_types_ofTypes_of_mem (hnodup : (types.map (·.key)).Nodup) (ht : t ∈ types) :
    t ∈ (ofTypes types services).types := by
  have hfind : (types.foldl insert ⟨[], services, List.nodup_nil⟩).find? t.key = some t := by
    rw [find?, types_definitions hnodup]
    cases hfind : types.find? (·.key == t.key) with
    | none => simpa using List.find?_eq_none.1 hfind t ht
    | some u =>
        have hu : u.key = t.key := by simpa using List.find?_some hfind
        rw [List.inj_on_of_nodup_map hnodup (List.mem_of_find?_eq_some hfind) ht hu]
  exact List.mem_of_find?_eq_some (find?_foldl_addBuiltin_of_eq_some hfind)

/-- The keys of a graph are those of its definitions and those of the built-in names that they mention. -/
theorem mem_keys_ofTypes (hnodup : (types.map (·.key)).Nodup) {k : String} :
    k ∈ (ofTypes types services).types.map (·.key) ↔
      k ∈ types.map (·.key) ∨ ∃ n ∈ types.flatMap (·.mentioned), n.IsBuiltin ∧ k = n.key := by
  unfold ofTypes addBuiltins mentioned
  rw [mem_keys_foldl_addBuiltin, types_definitions hnodup]

theorem exists_alike_of_perm (hperm : types.Perm types') (hnodup : (types.map (·.key)).Nodup)
    (ht : t ∈ (ofTypes types services).types) : ∃ u ∈ (ofTypes types' services).types, t.Alike u := by
  have hnodup' : (types'.map (·.key)).Nodup := (hperm.map _).nodup_iff.1 hnodup
  by_cases hdef : t ∈ types
  · exact ⟨t, mem_types_ofTypes_of_mem hnodup' (hperm.mem_iff.1 hdef), .refl t⟩
  · have hkey : t.key ∈ (ofTypes types' services).types.map (·.key) := by
      have hmem := (mem_keys_ofTypes hnodup).1 (List.mem_map_of_mem ht)
      rw [mem_keys_ofTypes hnodup', ← (hperm.map _).mem_iff]
      exact hmem.imp_right fun ⟨n, hn, hbuiltin⟩ =>
        ⟨n, (hperm.flatMap_right _).mem_iff.1 hn, hbuiltin⟩
    obtain ⟨u, hu, hkey⟩ := List.mem_map.1 hkey
    have hbuiltin := (mem_types_ofTypes ht).resolve_left hdef
    -- the type with this key is no definition, since that would be a type of the first graph, too
    have hbuiltin' : u.IsBuiltin := by
      refine (mem_types_ofTypes hu).resolve_left fun hdef' => hdef ?_
      have hmem := hperm.mem_iff.2 hdef'
      exact eq_of_key_eq (mem_types_ofTypes_of_mem hnodup hmem) ht hkey ▸ hmem
    exact ⟨u, hu, SchemaType.alike_of_isBuiltin hbuiltin hbuiltin' hkey.symm⟩

theorem alike_ofTypes (hperm : types.Perm types') (hnodup : (types.map (·.key)).Nodup)
    (services : List Service) : (ofTypes types services).Alike (ofTypes types' services) := by
  refine ⟨fun t ht => exists_alike_of_perm hperm hnodup ht, fun u hu => ?_⟩
  have hnodup' : (types'.map (·.key)).Nodup := (hperm.map _).nodup_iff.1 hnodup
  obtain ⟨t, ht, halike⟩ := exists_alike_of_perm hperm.symm hnodup' hu
  exact ⟨t, ht, halike.symm⟩

/-! ## Exact names -/

/-- The name means the type with its key, if anything. -/
def IsExact (g : TypeGraph) (n : QualifiedName) : Prop :=
  ∀ t, g.resolve? n = some t → t.key = n.key

/-- The names that a request for `root` may look up: `root`, elements, members' types and parents. -/
def Uses (g : TypeGraph) (root n : QualifiedName) : Prop :=
  n = root ∨ ∃ t ∈ g.types, n ∈ t.kind.references ++ t.kind.parents

/-- All these names are exact. -/
def Exact (g : TypeGraph) (root : QualifiedName) : Prop :=
  ∀ n, g.Uses root n → g.IsExact n

instance (g : TypeGraph) (n : QualifiedName) : Decidable (g.IsExact n) :=
  decidable_of_iff (∀ t ∈ g.resolve? n, t.key = n.key) Iff.rfl

theorem exact_iff :
    g.Exact root ↔ g.IsExact root ∧
      ∀ t ∈ g.types, ∀ n ∈ t.kind.references ++ t.kind.parents, g.IsExact n := by
  constructor
  · exact fun h => ⟨h root (Or.inl rfl), fun t ht n hn => h n (Or.inr ⟨t, ht, hn⟩)⟩
  · rintro ⟨hroot, htypes⟩ n (rfl | ⟨t, ht, hn⟩)
    · exact hroot
    · exact htypes t ht n hn

instance (g : TypeGraph) (root : QualifiedName) : Decidable (g.Exact root) :=
  decidable_of_iff _ exact_iff.symm

theorem notMem_keys_of_resolve?_eq_none (hn : g.resolve? n = none) : n.key ∉ g.types.map (·.key) := by
  intro hmem
  obtain ⟨t, ht, hkey⟩ := List.mem_map.1 hmem
  rw [resolve?_of_key_eq ht hkey] at hn
  cases hn

/-- A name that means a type with another key has the full name of this type. -/
theorem full_eq_of_resolve? (ht : g.resolve? n = some t) (hkey : t.key ≠ n.key) :
    t.name.full = n.full := by
  rw [resolve?_eq_or, Option.or_eq_some_iff] at ht
  rcases ht with ht | ⟨-, ht⟩
  · exact absurd (by simpa using List.find?_some ht) hkey
  · simpa using List.find?_some ht

theorem resolve?_ne_none_of_full_eq (ht : t ∈ g.types) (hfull : t.name.full = n.full) :
    g.resolve? n ≠ none := by
  rw [resolve?_eq_or]
  intro hnone
  obtain ⟨-, hnone⟩ := Option.or_eq_none_iff.1 hnone
  simpa [hfull] using List.find?_eq_none.1 hnone t ht

/-- Names with the same key and full name are exact in both of two alike graphs. -/
theorem Alike.isExact (h : g.Alike g') (hn : g.IsExact n) (hkey : n.key = m.key)
    (hfull : n.full = m.full) : g'.IsExact m := by
  intro u hu
  by_contra hne
  obtain ⟨t, ht, halike⟩ := h.right u (mem_types_of_resolve? hu)
  have htfull : t.name.full = n.full := by
    rw [halike.full, full_eq_of_resolve? hu hne, hfull]
  obtain ⟨v, hv⟩ := Option.ne_none_iff_exists'.1 (resolve?_ne_none_of_full_eq ht htfull)
  -- the first graph has a type with the key, so the second one has, and the name means it
  have hmem : m.key ∈ g'.types.map (·.key) := by
    rw [← h.mem_keys_iff, ← hkey, ← hn v hv]
    exact List.mem_map_of_mem (mem_types_of_resolve? hv)
  obtain ⟨w, hw, hwkey⟩ := List.mem_map.1 hmem
  rw [resolve?_of_key_eq hw hwkey] at hu
  exact hne (Option.some.inj hu ▸ hwkey)

theorem mem_mentioned_of_mem_types (hnodup : (types.map (·.key)).Nodup)
    (ht : t ∈ (ofTypes types services).types) (hn : n ∈ t.mentioned) :
    n ∈ types.flatMap (·.mentioned) := by
  have hmem := mem_mentioned_of_mem_addBuiltins (List.mem_flatMap.2 ⟨t, ht, hn⟩)
  rwa [mentioned, types_definitions hnodup] at hmem

/-- If no name hides its parameters in the full name, the order of the definitions does not matter for
being exact. -/
theorem exact_of_perm (hperm : types.Perm types') (hnodup : (types.map (·.key)).Nodup)
    (hplain : ∀ n ∈ types.flatMap (·.mentioned), n.IsPlain)
    (h : (ofTypes types services).Exact root) : (ofTypes types' services).Exact root := by
  have halike := alike_ofTypes hperm hnodup services
  have hnodup' : (types'.map (·.key)).Nodup := (hperm.map _).nodup_iff.1 hnodup
  rintro m (rfl | ⟨u, hu, hm⟩)
  · exact halike.isExact (h m (Or.inl rfl)) rfl rfl
  obtain ⟨t, ht, htu⟩ := halike.right u hu
  rcases List.mem_append.1 hm with hm | hm
  · -- the first graph may spell an element in another way, but the key and the full name are the same
    obtain ⟨n, hn, hkey⟩ := htu.kind.exists_mem_references hm
    have hplain' : n.IsPlain := hplain n (mem_mentioned_of_mem_types hnodup ht
      (mem_mentioned_of_mem (List.mem_append_left _ hn)))
    have hplain'' : m.IsPlain := hplain m ((hperm.flatMap_right _).mem_iff.2
      (mem_mentioned_of_mem_types hnodup' hu (mem_mentioned_of_mem (List.mem_append_left _ hm))))
    exact halike.isExact (h n (Or.inr ⟨t, ht, List.mem_append_left _ hn⟩)) hkey
      (QualifiedName.full_eq_of_key_eq hplain' hplain'' hkey)
  · rw [← htu.kind.parents_eq] at hm
    exact halike.isExact (h m (Or.inr ⟨t, ht, List.mem_append_right _ hm⟩)) rfl rfl

/-- Alike types of two graphs. -/
structure Matches (g g' : TypeGraph) (t u : SchemaType) : Prop where
  mem_left : t ∈ g.types
  mem_right : u ∈ g'.types
  alike : t.Alike u

/-- Types of two graphs that are alike, or nothing on either side. -/
def MatchesIfAny (g g' : TypeGraph) (x y : Option SchemaType) : Prop :=
  (∃ t u, x = some t ∧ y = some u ∧ g.Matches g' t u) ∨ (x = none ∧ y = none)

/-- Alike graphs in which only exact names are used. -/
structure ExactlyAlike (g g' : TypeGraph) (root : QualifiedName) : Prop extends g.Alike g' where
  exact_left : g.Exact root
  exact_right : g'.Exact root

/-- Exact names with the same key. -/
structure SameName (g g' : TypeGraph) (n m : QualifiedName) : Prop where
  exact_left : g.IsExact n
  exact_right : g'.IsExact m
  key : n.key = m.key

/-- Exact names with the same key mean the same, if anything. -/
theorem Alike.resolve? (h : g.Alike g') (hnm : g.SameName g' n m) :
    g.MatchesIfAny g' (g.resolve? n) (g'.resolve? m) := by
  cases ht : g.resolve? n with
  | some t =>
      have hmem := mem_types_of_resolve? ht
      obtain ⟨u, hu, halike⟩ := h.left t hmem
      have hkey : u.key = m.key := halike.key.symm.trans ((hnm.exact_left t ht).trans hnm.key)
      exact Or.inl ⟨t, u, rfl, resolve?_of_key_eq hu hkey, hmem, hu, halike⟩
  | none =>
      have hfree : m.key ∉ g'.types.map (·.key) := by
        rw [← hnm.key, ← h.mem_keys_iff]
        exact notMem_keys_of_resolve?_eq_none ht
      refine Or.inr ⟨rfl, Option.eq_none_iff_forall_not_mem.2 fun u hu => hfree ?_⟩
      rw [← hnm.exact_right u hu]
      exact List.mem_map_of_mem (mem_types_of_resolve? hu)

/-- Alike types refer to the same names, one by one. -/
theorem ExactlyAlike.references (h : g.ExactlyAlike g' root) (htu : g.Matches g' t u) :
    List.Forall₂ (g.SameName g') t.kind.references u.kind.references := by
  refine htu.alike.kind.forall₂_references fun n hn m hm hkey => ⟨?_, ?_, hkey⟩
  · exact h.exact_left n (Or.inr ⟨t, htu.mem_left, List.mem_append_left _ hn⟩)
  · exact h.exact_right m (Or.inr ⟨u, htu.mem_right, List.mem_append_left _ hm⟩)

theorem ExactlyAlike.result (h : g.ExactlyAlike g' root) : g.SameName g' root root :=
  ⟨h.exact_left root (Or.inl rfl), h.exact_right root (Or.inl rfl), rfl⟩

/-- The types of members have the same names in both graphs. -/
theorem ExactlyAlike.memberType (h : g.ExactlyAlike g' root) (ht : t ∈ g.types) {a : Attribute}
    (ha : a ∈ t.kind.attributes) : g.SameName g' a.type a.type := by
  obtain ⟨u, hu, htu⟩ := h.left t ht
  have hdecl : t.kind.isDeclared :=
    TypeKind.isDeclared_of_isRecord (TypeKind.isRecord_of_mem_attributes ha)
  obtain rfl := htu.eq_of_isDeclared hdecl
  have hrefers : a.type ∈ t.kind.references ++ t.kind.parents :=
    List.mem_append_left _ (List.mem_append_right _ (List.mem_map_of_mem ha))
  exact ⟨h.exact_left _ (Or.inr ⟨t, ht, hrefers⟩), h.exact_right _ (Or.inr ⟨t, hu, hrefers⟩), rfl⟩

theorem ExactlyAlike.elementOf? (h : g.ExactlyAlike g' root) (htu : g.Matches g' t u) :
    g.MatchesIfAny g' (g.elementOf? t) (g'.elementOf? u) := by
  unfold TypeGraph.elementOf?
  rcases htu.alike.kind.element? with ⟨n, m, hn, hm, hkey⟩ | ⟨hn, hm⟩
  · have hleft : n ∈ t.kind.references := by simp [TypeKind.references, hn]
    have hright : m ∈ u.kind.references := by simp [TypeKind.references, hm]
    rw [hn, hm]
    refine h.resolve? ⟨?_, ?_, hkey⟩
    · exact h.exact_left n (Or.inr ⟨t, htu.mem_left, List.mem_append_left _ hleft⟩)
    · exact h.exact_right m (Or.inr ⟨u, htu.mem_right, List.mem_append_left _ hright⟩)
  · rw [hn, hm]
    exact Or.inr ⟨rfl, rfl⟩

/-! ## Inheritance -/

/-- The primitive kind of a type none of whose parents resolves. -/
def lonePrimitive : TypeKind → Except SchemaError Primitive
  | .primitive k => .ok k
  | .collection _ => .ok .array
  | .stream _ => .ok .stream
  | .record _ => .ok .any
  | .enumeration values => .ok (enumerationKind values)
  | .scalar [] => .ok .any
  | .scalar (p :: _) => .error (.unknownType p.key)

theorem primitiveFrom_one (hnone : g.parentOf? t = none) :
    g.primitiveFrom 1 [] t = lonePrimitive t.kind := by
  unfold parentOf? at hnone
  rw [primitiveFrom, if_neg (List.not_mem_nil)]
  cases hk : t.kind with
  | scalar parents =>
      rw [hk] at hnone
      have hparents : parents.findSome? g.resolve? = none := hnone
      simp only [parentOf, hparents]
      cases parents <;> rfl
  | _ => rfl

theorem lonePrimitive_eq {k k' : TypeKind} (h : k.Alike k') : lonePrimitive k = lonePrimitive k' := by
  cases h <;> rfl

namespace ExactlyAlike
variable (h : g.ExactlyAlike g' root)
include h

theorem findSome?_resolve? {ns : List QualifiedName} (hns : ∀ n ∈ ns, g.SameName g' n n) :
    g.MatchesIfAny g' (ns.findSome? g.resolve?) (ns.findSome? g'.resolve?) := by
  induction ns with
  | nil => exact Or.inr ⟨rfl, rfl⟩
  | cons n ns ih =>
      obtain ⟨hn, hns⟩ := List.forall_mem_cons.1 hns
      rw [List.findSome?_cons, List.findSome?_cons]
      rcases h.resolve? hn with ⟨t, u, ht, hu, htu⟩ | ⟨ht, hu⟩
      · rw [ht, hu]
        exact Or.inl ⟨t, u, rfl, rfl, htu⟩
      · rw [ht, hu]
        exact ih hns

theorem parentOf? (htu : g.Matches g' t u) : g.MatchesIfAny g' (g.parentOf? t) (g'.parentOf? u) := by
  have hparents := htu.alike.kind.parents_eq
  unfold TypeGraph.parentOf?
  rw [← hparents]
  refine h.findSome?_resolve? fun n hn => ⟨?_, ?_, rfl⟩
  · exact h.exact_left n (Or.inr ⟨t, htu.mem_left, List.mem_append_right _ hn⟩)
  · exact h.exact_right n (Or.inr ⟨u, htu.mem_right, List.mem_append_right _ (hparents ▸ hn)⟩)

theorem primitiveFrom_eq (htu : g.Matches g' t u) (fuel : Nat) (chain : List String) :
    g'.primitiveFrom fuel chain u = g.primitiveFrom fuel chain t := by
  induction fuel generalizing t u chain with
  | zero => rfl
  | succ fuel ih =>
      have hkey := htu.alike.key
      by_cases hin : t.key ∈ chain
      · rw [primitiveFrom, primitiveFrom, if_pos hin, if_pos (hkey ▸ hin), hkey]
      have hin' : u.key ∉ chain := hkey ▸ hin
      rcases h.parentOf? htu with ⟨v, w, hv, hw, hvw⟩ | ⟨hv, hw⟩
      · rw [primitiveFrom_of_parentOf?_eq_some hv hin, primitiveFrom_of_parentOf?_eq_some hw hin',
          hkey]
        exact ih hvw _
      · rw [primitiveFrom_of_parentOf?_eq_none hv hin, primitiveFrom_of_parentOf?_eq_none hw hin',
          primitiveFrom_one hv, primitiveFrom_one hw, lonePrimitive_eq htu.alike.kind]

theorem primitiveOf_eq (htu : g.Matches g' t u) : g'.primitiveOf u = g.primitiveOf t := by
  unfold primitiveOf wayLength
  rw [h.length_eq]
  exact h.primitiveFrom_eq htu _ []

theorem inheritedFormatFrom_eq (htu : g.Matches g' t u) (fuel : Nat) (seen : List String) :
    g'.inheritedFormatFrom fuel seen u = g.inheritedFormatFrom fuel seen t := by
  induction fuel generalizing t u seen with
  | zero => rfl
  | succ fuel ih =>
      rw [inheritedFormatFrom, inheritedFormatFrom, ← htu.alike.format, ← htu.alike.key]
      cases t.format with
      | some f => rfl
      | none =>
          by_cases hin : t.key ∈ seen
          · simp only [if_pos hin]
          simp only [if_neg hin]
          change Option.bind (g'.parentOf? u) _ = Option.bind (g.parentOf? t) _
          rcases h.parentOf? htu with ⟨v, w, hv, hw, hvw⟩ | ⟨hv, hw⟩
          · rw [hv, hw]
            exact ih hvw _
          · rw [hv, hw]
            rfl

theorem inheritedFormat_eq (htu : g.Matches g' t u) : g'.inheritedFormat u = g.inheritedFormat t := by
  unfold inheritedFormat wayLength
  rw [h.length_eq]
  exact h.inheritedFormatFrom_eq htu _ []

end ExactlyAlike

end TypeGraph

end SchemaSnippets.Schema

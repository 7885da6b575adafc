import Mathlib.Data.List.Nodup
import Mathlib.Logic.Relation
import SchemaSnippets.Schema.Graph

/-!
# References between types

What the types of a graph refer to, told without a walk through the graph.

* `TypeKind.references` : the names that a type mentions itself, its element or its members' types;
* `Unwraps g u d` : going from `u` through collections and streams ends at the record or
  enumeration `d` (`Unwraps.unique`); `LeadsTo g n d` : the same from a name;
* `Wraps g u v` : one step of the way, which never comes back (`Unwraps.not_transGen_wraps_self`);
* `Refers g a d` : a member of `a` leads to `d`;
* `Reachable g root n` : `root` leads to the name `n`, through elements and members;
* `Next g u v` : `u` mentions a name of `v`; `exists_refers_of_next` : steps of this kind that end
  at a declared type are references between declared types, but for the collections in front.
-/

namespace SchemaSnippets.Schema
open Relation

namespace TypeKind

/-- Records and enumerations are declared, all other kinds are written where they are used. -/
def isDeclared : TypeKind → Bool
  | .enumeration _ => true
  | .record _ => true
  | _ => false

/-- The names that types of this kind mention themselves. -/
def references (k : TypeKind) : List QualifiedName :=
  k.element?.toList ++ k.attributes.map (·.type)

theorem isDeclared_of_isRecord {k : TypeKind} (h : k.isRecord) : k.isDeclared := by
  cases k <;> simp_all [isRecord, isDeclared]

theorem isRecord_of_isDeclared {k : TypeKind} (h : k.isDeclared)
    (hk : ∀ values, k ≠ .enumeration values) : k.isRecord := by
  cases k <;> simp_all [isRecord, isDeclared]

theorem isRecord_of_mem_attributes {k : TypeKind} {a : Attribute} (h : a ∈ k.attributes) :
    k.isRecord := by
  cases k <;> simp_all [attributes, isRecord]

theorem element?_eq_none_of_isDeclared {k : TypeKind} (h : k.isDeclared) : k.element? = none := by
  cases k <;> simp_all [element?, isDeclared]

/-- What mentions a name is a record with a member of it, or wraps it. -/
theorem mem_references {k : TypeKind} {n : QualifiedName} (h : n ∈ k.references) :
    (k.isRecord ∧ ∃ a ∈ k.attributes, a.type = n) ∨
      (k.isDeclared = false ∧ k.element? = some n) := by
  cases k <;> simp_all [references, element?, attributes, isRecord, isDeclared]

end TypeKind

namespace TypeGraph
variable {g : TypeGraph}

/-! ## Looking up names -/

theorem resolve?_eq_some {n : QualifiedName} {t : SchemaType} :
    g.resolve? n = some t ↔ g.resolve n = .ok t := by
  unfold resolve?
  cases g.resolve n <;> simp [Except.toOption]

theorem resolve?_eq_none {n : QualifiedName} :
    g.resolve? n = none ↔ g.resolve n = .error (.unknownType n.key) := by
  unfold resolve? resolve
  split <;> simp [Except.toOption]

theorem resolve?_eq_or (g : TypeGraph) (n : QualifiedName) :
    g.resolve? n = (g.find? n.key).or (g.findFull? n.full) := by
  unfold resolve? resolve
  cases (g.find? n.key).or (g.findFull? n.full) <;> rfl

theorem mem_types_of_resolve? {n : QualifiedName} {t : SchemaType} (h : g.resolve? n = some t) :
    t ∈ g.types := by
  rw [resolve?_eq_some, resolve] at h
  split at h
  · rename_i u hu
    obtain rfl : u = t := by simpa using h
    rcases Option.or_eq_some_iff.1 hu with hu | ⟨-, hu⟩
    · exact List.mem_of_find?_eq_some hu
    · exact List.mem_of_find?_eq_some hu
  · simp at h

theorem eq_of_key_eq {t u : SchemaType} (ht : t ∈ g.types) (hu : u ∈ g.types) (h : t.key = u.key) :
    t = u :=
  List.inj_on_of_nodup_map g.keys_nodup ht hu h

/-- A name with the key of a type means this type. -/
theorem resolve?_of_key_eq {n : QualifiedName} {t : SchemaType} (ht : t ∈ g.types)
    (h : t.key = n.key) : g.resolve? n = some t := by
  rw [resolve?_eq_or, find?]
  cases hu : g.types.find? (·.key == n.key) with
  | none =>
      have hfree : ∀ u ∈ g.types, u.key ≠ n.key := by simpa using hu
      exact absurd h (hfree t ht)
  | some u =>
      have hkey : u.key = n.key := by simpa using List.find?_some hu
      rw [eq_of_key_eq (List.mem_of_find?_eq_some hu) ht (hkey.trans h.symm), Option.some_or]

/-! ## What a name leads to -/

variable (g)

/-- Going from the first type through collections and streams, by way of their elements, ends at
the second type, which is declared. -/
inductive Unwraps : SchemaType → SchemaType → Prop where
  | declared {d : SchemaType} (hd : d.kind.isDeclared) : Unwraps d d
  | element {u v d : SchemaType} {e : QualifiedName} (he : u.kind.element? = some e)
      (hv : g.resolve? e = some v) (rest : Unwraps v d) : Unwraps u d

/-- The first type is a collection or a stream of the second. -/
def Wraps (u v : SchemaType) : Prop :=
  ∃ e, u.kind.element? = some e ∧ g.resolve? e = some v

/-- What the name means unwraps to the declared type. -/
def LeadsTo (n : QualifiedName) (d : SchemaType) : Prop :=
  ∃ u, g.resolve? n = some u ∧ g.Unwraps u d

/-- A member of the first type leads to the second. -/
def Refers (a d : SchemaType) : Prop :=
  ∃ m ∈ a.kind.attributes, g.LeadsTo m.type d

/-- The names that `root` leads to: itself, the element of a collection or stream that such a name
means, and the types of the members of a record that such a name means. -/
inductive Reachable (root : QualifiedName) : QualifiedName → Prop where
  | root : Reachable root root
  | element {n e : QualifiedName} {t : SchemaType} (hn : Reachable root n)
      (ht : g.resolve? n = some t) (he : t.kind.element? = some e) : Reachable root e
  | member {n : QualifiedName} {t : SchemaType} {a : Attribute} (hn : Reachable root n)
      (ht : g.resolve? n = some t) (ha : a ∈ t.kind.attributes) : Reachable root a.type

/-- The first type mentions a name of the second. -/
def Next (u v : SchemaType) : Prop :=
  ∃ n ∈ u.kind.references, g.resolve? n = some v

variable {g}

theorem Unwraps.isDeclared {u d : SchemaType} (h : g.Unwraps u d) : d.kind.isDeclared := by
  induction h with
  | declared hd => exact hd
  | element _ _ _ ih => exact ih

theorem Unwraps.mem_types {u d : SchemaType} (h : g.Unwraps u d) (hu : u ∈ g.types) :
    d ∈ g.types := by
  induction h with
  | declared _ => exact hu
  | element _ hv _ ih => exact ih (mem_types_of_resolve? hv)

/-- A type unwraps to one type at most. -/
theorem Unwraps.unique {u d d' : SchemaType} (h : g.Unwraps u d) (h' : g.Unwraps u d') :
    d = d' := by
  induction h with
  | declared hd =>
      cases h' with
      | declared _ => rfl
      | element he _ _ => simp [TypeKind.element?_eq_none_of_isDeclared hd] at he
  | element he hv _ ih =>
      cases h' with
      | declared hd => simp [TypeKind.element?_eq_none_of_isDeclared hd] at he
      | element he' hv' rest' =>
          obtain rfl := Option.some.inj (he.symm.trans he')
          obtain rfl := Option.some.inj (hv.symm.trans hv')
          exact ih rest'

theorem leadsTo_iff {n : QualifiedName} {u d : SchemaType} (h : g.resolve? n = some u) :
    g.LeadsTo n d ↔ g.Unwraps u d := by
  simp [LeadsTo, h]

theorem not_leadsTo {n : QualifiedName} {d : SchemaType} (h : g.resolve? n = none) :
    ¬ g.LeadsTo n d := by
  simp [LeadsTo, h]

theorem LeadsTo.isDeclared {n : QualifiedName} {d : SchemaType} (h : g.LeadsTo n d) :
    d.kind.isDeclared := by
  obtain ⟨u, -, hud⟩ := h
  exact hud.isDeclared

theorem Wraps.unique {u v v' : SchemaType} (h : g.Wraps u v) (h' : g.Wraps u v') : v = v' := by
  obtain ⟨e, he, hv⟩ := h
  obtain ⟨e', he', hv'⟩ := h'
  obtain rfl := Option.some.inj (he.symm.trans he')
  exact Option.some.inj (hv.symm.trans hv')

/-- What unwraps to a declared type is not wrapped in itself. -/
theorem Unwraps.not_transGen_wraps_self {u d : SchemaType} (h : g.Unwraps u d) :
    ¬ TransGen g.Wraps u u := by
  induction h with
  | declared hd =>
      intro hloop
      obtain ⟨v, ⟨e, he, -⟩, -⟩ := TransGen.head'_iff.1 hloop
      simp [TypeKind.element?_eq_none_of_isDeclared hd] at he
  | element he hv _ ih =>
      -- a way back to the start would be one from the element to itself, too
      intro hloop
      have hstep : g.Wraps _ _ := ⟨_, he, hv⟩
      obtain ⟨v', hstep', hback⟩ := TransGen.head'_iff.1 hloop
      obtain rfl := hstep.unique hstep'
      exact ih (TransGen.tail' hback hstep)

/-- So it is not among the types around it, either. -/
theorem Unwraps.key_notMem {u d : SchemaType} {path : List SchemaType} (h : g.Unwraps u d)
    (hu : u ∈ g.types) (hpath : ∀ v ∈ path, v ∈ g.types)
    (haround : ∀ v ∈ path, TransGen g.Wraps v u) : u.key ∉ path.map (·.key) := by
  intro hmem
  obtain ⟨v, hv, hvu⟩ := List.mem_map.1 hmem
  obtain rfl := eq_of_key_eq (hpath v hv) hu hvu
  exact h.not_transGen_wraps_self (haround v hv)

theorem Refers.isRecord {a d : SchemaType} (h : g.Refers a d) : a.kind.isRecord := by
  obtain ⟨m, hm, -⟩ := h
  exact TypeKind.isRecord_of_mem_attributes hm

theorem Refers.mem_types {a d : SchemaType} (h : g.Refers a d) : d ∈ g.types := by
  obtain ⟨m, -, u, hu, hud⟩ := h
  exact hud.mem_types (mem_types_of_resolve? hu)

theorem Refers.isDeclared {a d : SchemaType} (h : g.Refers a d) : d.kind.isDeclared := by
  obtain ⟨m, -, hmd⟩ := h
  exact hmd.isDeclared

theorem Reachable.of_mem_references {root n m : QualifiedName} {t : SchemaType}
    (hn : g.Reachable root n) (ht : g.resolve? n = some t) (hm : m ∈ t.kind.references) :
    g.Reachable root m := by
  rcases TypeKind.mem_references hm with ⟨-, a, ha, rfl⟩ | ⟨-, he⟩
  · exact .member hn ht ha
  · exact .element hn ht he

theorem Reachable.of_unwraps {root n : QualifiedName} {u d : SchemaType} (hn : g.Reachable root n)
    (hu : g.resolve? n = some u) (h : g.Unwraps u d) :
    ∃ m, g.Reachable root m ∧ g.resolve? m = some d := by
  induction h generalizing n with
  | declared _ => exact ⟨n, hn, hu⟩
  | element he hv _ ih => exact ih (.element hn hu he) hv

/-- On the way to a declared type the first declared type refers on, from one to the next. -/
theorem exists_refers_of_next {u a : SchemaType} (h : ReflTransGen g.Next u a)
    (ha : a.kind.isDeclared) : ∃ d, g.Unwraps u d ∧ ReflTransGen g.Refers d a := by
  induction h using ReflTransGen.head_induction_on with
  | refl => exact ⟨a, .declared ha, .refl⟩
  | @head u v huv _ ih =>
      obtain ⟨n, hn, hv⟩ := huv
      obtain ⟨d, hvd, hda⟩ := ih
      rcases TypeKind.mem_references hn with ⟨hu, m, hm, rfl⟩ | ⟨-, he⟩
      · exact ⟨u, .declared (TypeKind.isDeclared_of_isRecord hu), .head ⟨m, hm, v, hv, hvd⟩ hda⟩
      · exact ⟨d, .element he hv hvd, hda⟩

end TypeGraph

end SchemaSnippets.Schema

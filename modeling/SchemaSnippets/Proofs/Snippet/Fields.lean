import SchemaSnippets.Proofs.Snippet.MemberTypes
import SchemaSnippets.Proofs.Snippet.Members
import SchemaSnippets.Proofs.Snippet.Untyped

/-!
# Fields mirror attributes

A declared record has a field for each of its attributes. The type of a field repeats what the type of
the attribute leads to: the collections and streams met on the way are its layers, and what is inside
the last one is its leaf.

* `MemberType.layers`, `MemberType.leaf` : a type taken apart;
* `TypeGraph.Chain` : the collections and streams that a name leads through, and the core inside;
  `Chain.unique`, `exists_chain` : there is one chain for each name;
* `IsLeaf` : what a core is written as;
* `Context.exists_leaf_of_chain` : the type of a member repeats the chain, by induction on it;
* `Mirrors` : a field is that of an attribute; `records_mirror` : so are all fields of a model.
-/

namespace SchemaSnippets.Model

/-! ## Types taken apart -/

namespace MemberType

def isOptional : MemberType → Bool
  | .optional _ => true
  | _ => false

/-- The type of a value that is not missing. -/
def present : MemberType → MemberType
  | .optional t => t
  | t => t

def isRecursive : MemberType → Bool
  | .recursive _ => true
  | _ => false

/-- The type of what is referred to. -/
def direct : MemberType → MemberType
  | .recursive t => t
  | t => t

theorem present_of_not_isOptional {t : MemberType} (h : t.isOptional = false) : t.present = t := by
  cases t <;> simp_all [isOptional, present]

theorem direct_of_not_isRecursive {t : MemberType} (h : t.isRecursive = false) : t.direct = t := by
  cases t <;> simp_all [isRecursive, direct]

/-- A type is taken apart into what it was put together from. -/
theorem parts_eq {inner : MemberType} (hoptional : inner.isOptional = false)
    (hrecursive : inner.isRecursive = false) (nullable back : Bool) :
    let body := if back then .recursive inner else inner
    let t := if nullable then .optional body else body
    t.isOptional = nullable ∧ t.present.isRecursive = back ∧ t.present.direct = inner := by
  have hpresent := present_of_not_isOptional hoptional
  have hdirect := direct_of_not_isRecursive hrecursive
  cases nullable <;> cases back
  · exact ⟨hoptional, (congrArg isRecursive hpresent).trans hrecursive,
      (congrArg direct hpresent).trans hdirect⟩
  · exact ⟨rfl, rfl, rfl⟩
  · exact ⟨rfl, hrecursive, hdirect⟩
  · exact ⟨rfl, rfl, rfl⟩

end MemberType

inductive Layer where
  | array | stream
deriving DecidableEq, Repr

namespace MemberType

/-- The arrays and streams around a type, the outermost first. -/
def layers : MemberType → List Layer
  | .array t => .array :: t.layers
  | .stream t => .stream :: t.layers
  | _ => []

/-- What the layers are around. -/
def leaf : MemberType → MemberType
  | .array t => t.leaf
  | .stream t => t.leaf
  | t => t

/-- Whether a type has no parts. -/
def isBare : MemberType → Bool
  | .primitive _ | .named _ | .untyped _ => true
  | _ => false

end MemberType
end SchemaSnippets.Model

namespace SchemaSnippets.Schema

theorem TypeKind.not_isDeclared_of_isScalar {k : TypeKind} (h : k.isScalar) : ¬ k.isDeclared := by
  cases k <;> simp_all [isScalar, isDeclared]

/-! ## Chains -/

/-- What is inside all collections and streams: a name that does not resolve, a collection or stream
that is around it as well, or a type without an element. -/
inductive Core where
  | missing (n : QualifiedName)
  | again (t : SchemaType)
  | type (t : SchemaType)

namespace TypeGraph

/-- Resolving the name, and then the element of each collection or stream, meets the types `ts` one
after the other and ends at `e`; the types of `met` are around them. -/
inductive Chain (g : TypeGraph) :
    List SchemaType → QualifiedName → List SchemaType → Core → Prop where
  | missing {met n} (hn : g.resolve? n = none) : Chain g met n [] (.missing n)
  | again {met n t} (hn : g.resolve? n = some t) (ht : t ∈ met) : Chain g met n [] (.again t)
  | core {met n t} (hn : g.resolve? n = some t) (ht : t ∉ met) (he : t.kind.element? = none) :
      Chain g met n [] (.type t)
  | layer {met n t m ts e} (hn : g.resolve? n = some t) (ht : t ∉ met)
      (he : t.kind.element? = some m) (rest : Chain g (t :: met) m ts e) : Chain g met n (t :: ts) e

variable {g : TypeGraph} {met ts ts' : List SchemaType} {n : QualifiedName} {t : SchemaType}
  {e e' : Core}

theorem Chain.unique (h : g.Chain met n ts e) (h' : g.Chain met n ts' e') : ts = ts' ∧ e = e' := by
  induction h generalizing ts' with
  | missing hn => cases h' <;> simp_all
  | again hn ht => cases h' <;> simp_all
  | core hn ht he => cases h' <;> simp_all
  | layer hn ht he _ ih =>
      cases h' with
      | missing hn' => simp [hn] at hn'
      | again hn' ht' =>
          obtain rfl := Option.some.inj (hn.symm.trans hn')
          exact absurd ht' ht
      | core hn' _ he' =>
          obtain rfl := Option.some.inj (hn.symm.trans hn')
          simp [he] at he'
      | layer hn' _ he' rest' =>
          obtain rfl := Option.some.inj (hn.symm.trans hn')
          obtain rfl := Option.some.inj (he.symm.trans he')
          obtain ⟨rfl, rfl⟩ := ih rest'
          exact ⟨rfl, rfl⟩

/-- A way ends at a collection whose element is missing. The chain has this collection as well. -/
theorem Chain.exists_of_way {passed : List SchemaType} {w : WayEnd}
    (h : Way g.elementOf? met t passed w) (hn : g.resolve? n = some t) :
    ∃ ts e, g.Chain met n ts e := by
  induction h generalizing n with
  | @last met t ht hnext =>
      cases he : t.kind.element? with
      | none => exact ⟨[], _, .core hn ht he⟩
      | some m =>
          have hm : g.resolve? m = none := by rwa [elementOf?, he] at hnext
          exact ⟨_, _, .layer hn ht he (.missing hm)⟩
  | again ht => exact ⟨_, _, .again hn ht⟩
  | step ht hnext _ ih =>
      obtain ⟨m, hm, hu⟩ := elementOf?_eq_some.1 hnext
      obtain ⟨ts, e, hchain⟩ := ih hu
      exact ⟨_, e, .layer hn ht hm hchain⟩

/-- Every name of every graph has a chain. -/
theorem exists_chain (g : TypeGraph) (n : QualifiedName) : ∃ ts e, g.Chain [] n ts e := by
  cases hn : g.resolve? n with
  | none => exact ⟨_, _, .missing hn⟩
  | some t =>
      obtain ⟨passed, w, hway⟩ := exists_elementWay (mem_types_of_resolve? hn)
      exact Chain.exists_of_way hway hn

/-- No collection or stream is met twice. -/
theorem Chain.length_le (h : g.Chain met n ts e) (hmet : ∀ u ∈ met, u ∈ g.types)
    (hnodup : met.Nodup) : met.length + ts.length ≤ g.types.length := by
  induction h with
  | missing | again | core => simpa using (hnodup.subperm hmet).length_le
  | layer hn ht _ _ ih =>
      have hlen := ih (List.forall_mem_cons.2 ⟨mem_types_of_resolve? hn, hmet⟩)
        (List.nodup_cons.2 ⟨ht, hnodup⟩)
      rw [List.length_cons] at hlen ⊢
      omega

/-- The type is written as this primitive kind: its own, or the one that it inherits from. -/
def IsWrittenAs (g : TypeGraph) (t : SchemaType) (k : Primitive) : Prop :=
  t.kind = .primitive k ∨ t.kind.isScalar ∧ g.primitiveOf t = .ok k ∧ k.isStructural = false

theorem isWrittenAs_of_primitive {k k' : Primitive} (h : t.kind = .primitive k) :
    g.IsWrittenAs t k' ↔ k' = k := by
  simp only [IsWrittenAs, h, TypeKind.primitive.injEq, TypeKind.isScalar, Bool.false_eq_true,
    false_and, or_false, @eq_comm _ k]

theorem isWrittenAs_of_isScalar {k : Primitive} (h : t.kind.isScalar) :
    g.IsWrittenAs t k ↔ g.primitiveOf t = .ok k ∧ k.isStructural = false := by
  cases hk : t.kind <;> simp_all [IsWrittenAs, TypeKind.isScalar]

theorem not_isWrittenAs_of_isDeclared {k : Primitive} (h : t.kind.isDeclared) :
    ¬ g.IsWrittenAs t k := by
  cases hk : t.kind <;> simp_all [IsWrittenAs, TypeKind.isScalar, TypeKind.isDeclared]

end TypeGraph
end SchemaSnippets.Schema

namespace SchemaSnippets.Snippet
open Model Request Schema Target

/-! ## Leaves -/

/-- What a core is written as: a declaration by its name in the table, a primitive kind, or else
without a type. -/
structure IsLeaf (g : TypeGraph) (names : DeclarationNames) (core : Core) (leaf : MemberType) :
    Prop where
  bare : leaf.isBare
  named : ∀ x, leaf = .named x ↔
    ∃ t, core = .type t ∧ t.kind.isDeclared ∧ names.get? t.key = some x
  primitive : ∀ k, leaf = .primitive k ↔ ∃ t, core = .type t ∧ g.IsWrittenAs t k
  untyped : (∃ note, leaf = .untyped note) ↔
    ∀ t, core = .type t → ¬ t.kind.isDeclared ∧ ∀ k, ¬ g.IsWrittenAs t k

section Leaves
variable {g : TypeGraph} {names : DeclarationNames} {t : SchemaType} {k : Primitive}

theorem isLeaf_untyped {core : Core} {note : Option String}
    (h : ∀ t, core = .type t → ¬ t.kind.isDeclared ∧ ∀ k, ¬ g.IsWrittenAs t k) :
    IsLeaf g names core (.untyped note) where
  bare := rfl
  named x := by
    simp only [reduceCtorEq, false_iff]
    rintro ⟨t, ht, hdecl, -⟩
    exact (h t ht).1 hdecl
  primitive k := by
    simp only [reduceCtorEq, false_iff]
    rintro ⟨t, ht, hk⟩
    exact (h t ht).2 k hk
  untyped := iff_of_true ⟨note, rfl⟩ h

theorem isLeaf_named {x : String} (hdecl : t.kind.isDeclared) (hname : names.get? t.key = some x) :
    IsLeaf g names (.type t) (.named x) where
  bare := rfl
  named y := by simp [hdecl, hname]
  primitive k := by simp [TypeGraph.not_isWrittenAs_of_isDeclared hdecl]
  untyped := by simp [hdecl]

theorem isLeaf_primitive (hdecl : ¬ t.kind.isDeclared) (hk : ∀ k', g.IsWrittenAs t k' ↔ k' = k) :
    IsLeaf g names (.type t) (.primitive k) where
  bare := rfl
  named y := by simp [hdecl]
  primitive k' := by simp [hk, eq_comm]
  untyped := by simp [hk]

theorem isLeaf_scalar (ht : t.kind.isScalar) (hk : g.primitiveOf t = .ok k)
    (hs : k.isStructural = false) : IsLeaf g names (.type t) (.primitive k) := by
  refine isLeaf_primitive (TypeKind.not_isDeclared_of_isScalar ht) fun k' => ?_
  rw [TypeGraph.isWrittenAs_of_isScalar ht, hk]
  constructor
  · rintro ⟨⟨⟩, -⟩
    rfl
  · rintro rfl
    exact ⟨rfl, hs⟩

/-- A scalar without a kind, or with that of a collection or stream, has no type. -/
theorem isLeaf_untyped_scalar {note : Option String} (ht : t.kind.isScalar)
    (hk : ∀ k, g.primitiveOf t = .ok k → k.isStructural) :
    IsLeaf g names (.type t) (.untyped note) := by
  refine isLeaf_untyped ?_
  rintro _ ⟨⟩
  refine ⟨TypeKind.not_isDeclared_of_isScalar ht, fun k hwritten => ?_⟩
  obtain ⟨hok, hs⟩ := (TypeGraph.isWrittenAs_of_isScalar ht).1 hwritten
  exact absurd ((hk k hok).symm.trans hs) (by decide)

end Leaves

/-- The layer that a collection or stream is written as. -/
def layerOf (t : SchemaType) : Layer :=
  match t.kind with
  | .stream _ => .stream
  | _ => .array

/-! ## Layers -/

section Layers
variable {leaf : MemberType}

theorem layers_wrapIn (t : SchemaType) (m : MemberType) :
    (wrapIn t m).layers = layerOf t :: m.layers := by
  cases hk : t.kind <;> simp [wrapIn, layerOf, hk, MemberType.layers]

theorem leaf_wrapIn (t : SchemaType) (m : MemberType) : (wrapIn t m).leaf = m.leaf := by
  unfold wrapIn
  split <;> rfl

theorem layers_foldr_wrapIn (h : leaf.isBare) (ts : List SchemaType) :
    (ts.foldr wrapIn leaf).layers = ts.map layerOf := by
  induction ts with
  | nil => cases leaf <;> simp_all [MemberType.layers, MemberType.isBare]
  | cons t ts ih => rw [List.foldr_cons, layers_wrapIn, ih, List.map_cons]

theorem leaf_foldr_wrapIn (h : leaf.isBare) (ts : List SchemaType) :
    (ts.foldr wrapIn leaf).leaf = leaf := by
  induction ts with
  | nil => cases leaf <;> simp_all [MemberType.leaf, MemberType.isBare]
  | cons t ts ih => rw [List.foldr_cons, leaf_wrapIn, ih]

/-- What has layers, or a bare leaf, is neither missing nor a reference back. -/
theorem plain_foldr_wrapIn (h : leaf.isBare) (ts : List SchemaType) :
    (ts.foldr wrapIn leaf).isOptional = false ∧ (ts.foldr wrapIn leaf).isRecursive = false := by
  cases ts with
  | nil =>
      cases leaf <;>
        simp_all [MemberType.isBare, MemberType.isOptional, MemberType.isRecursive]
  | cons t ts =>
      rw [List.foldr_cons, wrapIn]
      split <;> exact ⟨rfl, rfl⟩

end Layers

/-! ## Members -/

namespace Context
variable {c : Context} {names : DeclarationNames} {t : SchemaType} {location : Option String}
  {fs : Findings}

/-- A type without an element is written as the kind that it has or inherits. -/
theorem isLeaf_memberType_one (hg : c.graph.Elementary) (ht : t ∈ c.graph.types)
    (helem : t.kind.element? = none)
    (hname : t.kind.isDeclared → names.get? t.key = some (c.nameOf t)) :
    IsLeaf c.graph names (.type t) (c.memberType 1 [] location t fs).1 := by
  rw [memberType, if_neg (List.not_mem_nil)]
  cases hk : t.kind with
  | primitive k =>
      have hdecl : ¬ t.kind.isDeclared := by simp [hk, TypeKind.isDeclared]
      simp only [hg t ht k hk]
      exact isLeaf_primitive hdecl fun k' => TypeGraph.isWrittenAs_of_primitive hk
  | scalar parents =>
      have hscalar : t.kind.isScalar := by rw [hk]; rfl
      cases hp : c.graph.primitiveOf t with
      | error err => exact isLeaf_untyped_scalar hscalar (by simp [hp])
      | ok k =>
          cases hs : k.isStructural with
          | true =>
              simp only [hs, if_true]
              exact isLeaf_untyped_scalar hscalar (by simpa [hp] using hs)
          | false =>
              simp only [hs]
              exact isLeaf_scalar hscalar hp hs
  | enumeration values =>
      have hdecl : t.kind.isDeclared := by rw [hk]; rfl
      exact isLeaf_named hdecl (hname hdecl)
  | record as =>
      have hdecl : t.kind.isDeclared := by rw [hk]; rfl
      exact isLeaf_named hdecl (hname hdecl)
  | collection n => simp [hk, TypeKind.element?] at helem
  | stream n => simp [hk, TypeKind.element?] at helem

/-- A collection or stream of something that is missing. -/
theorem memberType_of_missing_element {m : QualifiedName} (he : t.kind.element? = some m)
    (hm : c.graph.resolve? m = none) :
    (c.memberType 1 [] location t fs).1 =
      wrapIn t (.untyped (some (SchemaError.unknownType m.key).message)) := by
  rw [memberType, if_neg (List.not_mem_nil)]
  cases hk : t.kind <;>
    simp_all [TypeKind.element?, TypeGraph.resolve?_eq_none, wrapIn]

/-- A type has the layers of its chain around a leaf for the core. -/
theorem exists_leaf_of_chain {root n : QualifiedName} {met ts : List SchemaType} {core : Core}
    {fuel : Nat} (location : Option String) (fs : Findings) (hg : c.graph.Elementary)
    (hnames : ∀ m u, c.graph.Reachable root m → c.graph.resolve? m = some u → u.kind.isDeclared →
      names.get? u.key = some (c.nameOf u))
    (h : c.graph.Chain met n ts core) (hmet : ∀ u ∈ met, u ∈ c.graph.types)
    (hn : c.graph.Reachable root n) (ht : c.graph.resolve? n = some t) (hfuel : ts.length < fuel) :
    ∃ leaf, IsLeaf c.graph names core leaf ∧
      (c.memberType fuel (met.map (·.key)) location t fs).1 = ts.foldr wrapIn leaf := by
  obtain ⟨fuel, rfl⟩ := Nat.exists_eq_succ_of_ne_zero (Nat.ne_zero_of_lt hfuel)
  have htypes := TypeGraph.mem_types_of_resolve? ht
  have hseen := TypeGraph.key_mem_iff htypes hmet
  induction h generalizing t fuel with
  | missing hnone => simp [ht] at hnone
  | again hn' hm =>
      obtain rfl := Option.some.inj (hn'.symm.trans ht)
      rw [memberType, if_pos (hseen.2 hm)]
      exact ⟨_, isLeaf_untyped (by simp), rfl⟩
  | @core met n t hn' hm he =>
      obtain rfl := Option.some.inj (hn'.symm.trans ht)
      have hnone : c.graph.elementOf? t = none := by rw [TypeGraph.elementOf?, he]; rfl
      rw [memberType_of_elementOf?_eq_none hnone fun hin => hm (hseen.1 hin)]
      exact ⟨_, isLeaf_memberType_one hg htypes he (hnames _ _ hn ht), rfl⟩
  | @layer met n t m ts core hn' hm he rest ih =>
      obtain rfl := Option.some.inj (hn'.symm.trans ht)
      cases hu : c.graph.resolve? m with
      | none =>
          have hnone : c.graph.elementOf? t = none := by rw [TypeGraph.elementOf?, he]; exact hu
          obtain ⟨rfl, rfl⟩ := rest.unique (.missing hu)
          rw [memberType_of_elementOf?_eq_none hnone fun hin => hm (hseen.1 hin),
            memberType_of_missing_element he hu]
          exact ⟨_, isLeaf_untyped (by simp), rfl⟩
      | some u =>
          have hmet' : ∀ v ∈ t :: met, v ∈ c.graph.types := List.forall_mem_cons.2 ⟨htypes, hmet⟩
          have hutypes := TypeGraph.mem_types_of_resolve? hu
          obtain ⟨fuel, rfl⟩ :=
            Nat.exists_eq_succ_of_ne_zero (Nat.ne_zero_of_lt (Nat.lt_of_succ_lt_succ hfuel))
          obtain ⟨leaf, hleaf, htype⟩ := ih hmet' (hn.element ht he) hu fuel
            (Nat.lt_of_succ_lt_succ hfuel) hutypes (TypeGraph.key_mem_iff hutypes hmet')
          refine ⟨leaf, hleaf, ?_⟩
          rw [memberType_of_elementOf? (TypeGraph.elementOf?_eq_some.2 ⟨m, he, hu⟩) fun hin =>
            hm (hseen.1 hin)]
          exact congrArg (wrapIn t) htype

/-- More steps than there are types change nothing. -/
theorem memberType_eq_typeOf {fuel : Nat} (ht : t ∈ c.graph.types)
    (hfuel : c.graph.types.length < fuel) :
    c.memberType fuel [] location t fs = c.typeOf location t fs := by
  obtain ⟨passed, e, hway⟩ := TypeGraph.exists_elementWay ht
  have hlen := hway.length_le (fun _ _ _ => TypeGraph.mem_types_of_elementOf?) ht
  rw [typeOf_eq ht hway]
  exact memberType_of_way hway ht (by simp) (by omega)

end Context

/-! ## Fields -/

/-- A member of `source` with this name as type is recorded as a reference back. -/
def BackReferred (r : CodeRequest) (source : String) (n : QualifiedName) : Prop :=
  ∃ t, r.graph.resolve? n = some t ∧ t.kind.isRecord ∧ ⟨source, t.key⟩ ∈ (planOf r).recursive

/-- The field of an attribute of the declaration `source`. Its type is optional if the attribute may
be null, inside that a reference back if it is recorded as one, and the rest repeats the chain of the
attribute's type. -/
structure Mirrors (r : CodeRequest) (names : DeclarationNames) (source : String) (a : Attribute)
    (f : RecordMember) : Prop where
  name : f.name = a.name
  optional : f.type.isOptional = a.nullable
  recursive : f.type.present.isRecursive ↔ BackReferred r source a.type
  inner : ∃ ts core, r.graph.Chain [] a.type ts core ∧
    f.type.present.direct.layers = ts.map layerOf ∧
    IsLeaf r.graph names core f.type.present.direct.leaf

section Fields
variable {p : Profile} {r : CodeRequest} {docs : Bool} {d : SchemaType} {a : Attribute}

/-- Every declaration that something leads to has its name in the table. -/
theorem get?_namesOf_of_reachable {n : QualifiedName} {t : SchemaType}
    (hn : r.graph.Reachable r.returnType n) (ht : r.graph.resolve? n = some t)
    (hdecl : t.kind.isDeclared) :
    (namesOf p r).get? t.key = some ((contextOf p r docs).nameOf t) :=
  get?_namesOf (mem_declarations_build.2 ⟨hdecl, n, hn, ht⟩)

/-- The type of an attribute is a chain of layers around a leaf, and refers back or does not. -/
theorem exists_inner (p : Profile) (docs : Bool) (hg : r.graph.Elementary)
    (hn : r.graph.Reachable r.returnType a.type) (source location : String) (fs : Findings) :
    ∃ ts core leaf, ∃ back : Bool, r.graph.Chain [] a.type ts core ∧
      IsLeaf r.graph (namesOf p r) core leaf ∧ (back ↔ BackReferred r source a.type) ∧
      ((contextOf p r docs).attributeType source location a fs).1 =
        if back then .recursive (ts.foldr wrapIn leaf) else ts.foldr wrapIn leaf := by
  obtain ⟨ts, core, hchain⟩ := r.graph.exists_chain a.type
  unfold Context.attributeType
  cases ht : r.graph.resolve? a.type with
  | none =>
      obtain ⟨rfl, rfl⟩ := hchain.unique (.missing ht)
      have herror : (contextOf p r docs).graph.resolve a.type = .error _ :=
        TypeGraph.resolve?_eq_none.1 ht
      rw [herror]
      exact ⟨[], .missing a.type, _, false, hchain,
        isLeaf_untyped (by simp), by simp [BackReferred, ht], rfl⟩
  | some t =>
      have hok : (contextOf p r docs).graph.resolve a.type = .ok t :=
        TypeGraph.resolve?_eq_some.1 ht
      have hlen : ts.length < r.graph.types.length + 2 := by
        have := hchain.length_le (by simp) List.nodup_nil
        simp only [List.length_nil] at this
        omega
      obtain ⟨leaf, hleaf, htype⟩ := Context.exists_leaf_of_chain (c := contextOf p r docs)
        (some location) fs hg (fun _ _ => get?_namesOf_of_reachable) hchain (by simp) hn ht hlen
      refine ⟨ts, core, leaf, (contextOf p r docs).refersBack source t, hchain, hleaf, ?_, ?_⟩
      · rw [Context.refersBack_iff]
        simp only [BackReferred, ht, Option.some.injEq, exists_eq_left']
        rfl
      · rw [hok, ← htype]
        rfl

theorem mirrors {f : RecordMember} {source location : String} {fs : Findings}
    (hg : r.graph.Elementary) (hn : r.graph.Reachable r.returnType a.type) (hname : f.name = a.name)
    (htype : f.type =
      if a.nullable then .optional ((contextOf p r docs).attributeType source location a fs).1
      else ((contextOf p r docs).attributeType source location a fs).1) :
    Mirrors r (namesOf p r) source a f := by
  obtain ⟨ts, core, leaf, back, hchain, hleaf, hback, hbody⟩ :=
    exists_inner p docs hg hn source location fs
  obtain ⟨hoptional, hrecursive⟩ := plain_foldr_wrapIn hleaf.bare ts
  obtain ⟨htypeOptional, hbodyRecursive, hinner⟩ :=
    MemberType.parts_eq hoptional hrecursive a.nullable back
  rw [hbody] at htype
  rw [← htype] at htypeOptional hbodyRecursive hinner
  refine ⟨hname, htypeOptional, ?_, ts, core, hchain, ?_, ?_⟩
  · rw [hbodyRecursive]
    exact hback
  · rw [hinner]
    exact layers_foldr_wrapIn hleaf.bare ts
  · rw [hinner, leaf_foldr_wrapIn hleaf.bare]
    exact hleaf

/-- The fields of a declared record are those of its attributes. -/
theorem forall₂_mirrors (p : Profile) (docs : Bool) (hg : r.graph.Elementary)
    (hd : d ∈ (planOf r).declarations) (fs : Findings) :
    List.Forall₂ (Mirrors r (namesOf p r) d.key) d.kind.attributes
      ((contextOf p r docs).recordDeclaration d fs).1.fields := by
  obtain ⟨-, n, hn, hresolves⟩ := mem_declarations_build.1 hd
  have hfields := (contextOf p r docs).forall₂_membersOf d.key (nameIn p r docs d)
    d.kind.attributes fs
  have hboth := (List.forall₂_and_left _ _).2 ⟨fun a ha => ha, hfields⟩
  exact hboth.imp fun a f ⟨ha, hname, fs', location, htype⟩ =>
    mirrors hg (hn.member hresolves ha) hname htype

end Fields

/-- The fields of every declared record mirror its attributes, in every language and with all options.
On every graph the chain of every name ends, and the type of a member is found in no more steps than
there are types. -/
theorem records_mirror (l : Target) (e : RequestEntry) (o : Options) :
    let r := CodeRequest.ofEntry e
    let m := SnippetModel.build l.profile r o.docs
    (∀ d ∈ (planOf r).declarations, d.kind.isRecord → ∃ s, .record s ∈ m.entries ∧
        (namesOf l.profile r).get? d.key = some s.name ∧
        List.Forall₂ (Mirrors r (namesOf l.profile r) d.key) d.kind.attributes s.fields) ∧
      (∀ s, .record s ∈ m.entries → ∃ d ∈ (planOf r).declarations, d.kind.isRecord ∧
        (namesOf l.profile r).get? d.key = some s.name ∧
        List.Forall₂ (Mirrors r (namesOf l.profile r) d.key) d.kind.attributes s.fields) ∧
      (∀ (g : TypeGraph) (n : QualifiedName), ∃ ts core, g.Chain [] n ts core) ∧
      ∀ (c : Context), ∀ t ∈ c.graph.types, ∀ fuel location fs, c.graph.types.length < fuel →
        c.memberType fuel [] location t fs = c.typeOf location t fs := by
  intro r m
  have hg : r.graph.Elementary := elementary e
  refine ⟨fun d hd hrec => ?_, fun s hs => ?_, TypeGraph.exists_chain,
    fun c t ht fuel location fs hfuel => Context.memberType_eq_typeOf ht hfuel⟩
  · obtain ⟨s, hs, hname, fs, rfl⟩ := exists_record_of_declaration l.profile o.docs hd hrec
    exact ⟨_, hs, hname ▸ get?_namesOf hd, forall₂_mirrors l.profile o.docs hg hd fs⟩
  · obtain ⟨d, hd, hrec, hname, fs, rfl⟩ := exists_declaration_of_record hs
    exact ⟨d, hd, hrec, hname ▸ get?_namesOf hd, forall₂_mirrors l.profile o.docs hg hd fs⟩

/-! ### A film with sequels -/

/-- A film may have sequels, and it has a title. -/
def sequelsAttributes : List (String × AttributeEntry) :=
  [("sequels", ⟨(QualifiedName.ofFull "lang.taxi.Array").withParameters [.ofFull "films.Film"],
      true, [], none, none, none⟩),
    ("title", ⟨.ofFull "lang.taxi.String", false, [], none, none, none⟩)]

def sequelsFilm : TypeEntry :=
  { nameEntry "films.Film" with attributes := sequelsAttributes }

def filmRequest : RequestEntry :=
  ⟨"find { Film }", sequelsFilm, ⟨[], []⟩, []⟩

theorem sequels_mirrored :
    let r := CodeRequest.ofEntry filmRequest
    let m := SnippetModel.build Target.rust.profile r true
    let c := contextOf Target.rust.profile r true
    m.memberTypes = [.optional (.array (.named "Film")), .primitive .string] ∧
      ∃ d ∈ (planOf r).declarations, d.kind.isRecord ∧
        (∃ s, .record s ∈ m.entries ∧ (namesOf Target.rust.profile r).get? d.key = some s.name ∧
          List.Forall₂ (Mirrors r (namesOf Target.rust.profile r) d.key) d.kind.attributes
            s.fields) ∧
        ∀ location fs, c.memberType (c.graph.types.length + 1) [] location d fs =
          c.typeOf location d fs := by
  intro r m c
  have hgraph := graph_of_no_inner (e := filmRequest) (by decide)
  have hdeclared : (planOf r).declarations.any (·.kind.isRecord) := by
    simp only [r, CodeRequest.ofEntry, hgraph]
    decide +kernel
  have htypes : m.memberTypes = [.optional (.array (.named "Film")), .primitive .string] := by
    simp only [m, r, CodeRequest.ofEntry, hgraph]
    decide +kernel
  obtain ⟨d, hd, hrec⟩ := List.any_eq_true.1 hdeclared
  obtain ⟨hmirrors, -, -, hfuel⟩ := records_mirror .rust filmRequest ⟨"client", true⟩
  exact ⟨htypes, d, hd, hrec, hmirrors d hd hrec, fun location fs =>
    hfuel c d (mem_types_of_mem_declarations hd) _ location fs (Nat.lt_succ_self _)⟩

end SchemaSnippets.Snippet

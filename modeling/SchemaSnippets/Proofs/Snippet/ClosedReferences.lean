import SchemaSnippets.Proofs.Plan.Traversal
import SchemaSnippets.Proofs.Snippet.Members

/-!
# Closed references

What the types of a model name is declared in it. The plan and the types of members come from two
walks through the graph: one passes each type once, the other stops where a collection comes round
to itself. They meet the same declarations, because a way to a declaration never comes round.

* `MemberType.names` : the declarations that a type names; `mem_names_typeOf` : they are what the
  schema type unwraps to;
* `Context.withRules` : a context with other rules for names outside the table; `entries_withRules` :
  its entries are the same;
* `Closed p r n type` : `type` names what `n` leads to in the graph of `r`, by its name in the table;
* `build_closed` : a model is closed under references.
-/

namespace SchemaSnippets.Model

/-- The declarations that a type names, at any depth. -/
def MemberType.names : MemberType → List String
  | .primitive _ => []
  | .optional t => t.names
  | .array t => t.names
  | .stream t => t.names
  | .recursive t => t.names
  | .named name => [name]
  | .untyped _ => []

end SchemaSnippets.Model

namespace SchemaSnippets.Snippet
open Model Request Schema Target Relation

/-! ## The names in a type -/

namespace Context
variable {c : Context} {location : Option String} {t : SchemaType} {fs : Findings}

/-- A declared type is named, a wrapper names what its element does, and nothing else has names. -/
theorem names_memberType_succ {fuel : Nat} {seen : List String} (h : t.key ∉ seen) :
    (c.memberType (fuel + 1) seen location t fs).1.names =
      if t.kind.isDeclared then [c.nameOf t]
      else match t.kind.element?.bind c.graph.resolve? with
        | some v => (c.memberType fuel (t.key :: seen) location v fs).1.names
        | none => [] := by
  rw [memberType, if_neg h]
  cases t.kind with
  | primitive k =>
      dsimp only
      split <;> rfl
  | scalar parents =>
      dsimp only
      split
      · split <;> rfl
      · rfl
  | enumeration values => rfl
  | record attributes => rfl
  | collection e =>
      cases he : c.graph.resolve e <;>
        simp [TypeKind.element?, TypeKind.isDeclared, TypeGraph.resolve?, he, Except.toOption,
          MemberType.names]
  | stream e =>
      cases he : c.graph.resolve e <;>
        simp [TypeKind.element?, TypeKind.isDeclared, TypeGraph.resolve?, he, Except.toOption,
          MemberType.names]

/-- What a type names is what the schema type unwraps to, whatever the bound on the depth. -/
theorem exists_unwraps_of_mem_names {fuel : Nat} {seen : List String} {x : String}
    (h : x ∈ (c.memberType fuel seen location t fs).1.names) :
    ∃ d, c.graph.Unwraps t d ∧ c.nameOf d = x := by
  induction fuel generalizing seen t with
  | zero => simp [memberType, MemberType.names] at h
  | succ fuel ih =>
      by_cases hseen : t.key ∈ seen
      · simp [memberType, hseen, MemberType.names] at h
      rw [names_memberType_succ hseen] at h
      by_cases hdecl : t.kind.isDeclared
      · rw [if_pos hdecl, List.mem_singleton] at h
        exact ⟨t, .declared hdecl, h.symm⟩
      · rw [if_neg hdecl] at h
        cases hv : t.kind.element?.bind c.graph.resolve? with
        | none => simp [hv] at h
        | some v =>
            simp only [hv] at h
            obtain ⟨e, he, hev⟩ := Option.bind_eq_some_iff.1 hv
            obtain ⟨d, hd, hx⟩ := ih h
            exact ⟨d, .element he hev hd, hx⟩

/-- With more fuel than there are types that are not around the type, what it unwraps to is named. -/
theorem nameOf_mem_names {fuel : Nat} {path : List SchemaType} {d : SchemaType}
    (h : c.graph.Unwraps t d) (ht : t ∈ c.graph.types) (hpath : ∀ u ∈ path, u ∈ c.graph.types)
    (haround : ∀ u ∈ path, TransGen c.graph.Wraps u t)
    (hfuel : (unopened c.graph path).length < fuel) :
    c.nameOf d ∈ (c.memberType fuel (path.map (·.key)) location t fs).1.names := by
  induction h generalizing fuel path with
  | @declared d hd =>
      have hkey := (TypeGraph.Unwraps.declared hd).key_notMem ht hpath haround
      obtain ⟨fuel, rfl⟩ := Nat.exists_eq_succ_of_ne_zero (Nat.ne_zero_of_lt hfuel)
      rw [names_memberType_succ hkey, if_pos hd]
      exact List.mem_singleton_self _
  | @element u v d e he hv rest ih =>
      have hkey := (TypeGraph.Unwraps.element he hv rest).key_notMem ht hpath haround
      have hnot : ¬ u.kind.isDeclared := fun hdecl => by
        simp [TypeKind.element?_eq_none_of_isDeclared hdecl] at he
      have hwraps : c.graph.Wraps u v := ⟨_, he, hv⟩
      have hsmaller := length_unopened_cons ht hkey
      obtain ⟨fuel, rfl⟩ := Nat.exists_eq_succ_of_ne_zero (Nat.ne_zero_of_lt hfuel)
      rw [names_memberType_succ hkey, if_neg hnot, he, Option.bind_some, hv]
      -- the type itself is now around its element, too
      show c.nameOf d ∈ (c.memberType fuel ((u :: path).map (·.key)) location v fs).1.names
      refine ih (TypeGraph.mem_types_of_resolve? hv) ?_ ?_ (by omega)
      · intro w hw
        rcases List.mem_cons.1 hw with rfl | hw
        · exact ht
        · exact hpath w hw
      · intro w hw
        rcases List.mem_cons.1 hw with rfl | hw
        · exact .single hwraps
        · exact (haround w hw).tail hwraps

/-- A type names the declaration that it is a wrapper of. -/
theorem mem_names_typeOf (ht : t ∈ c.graph.types) {x : String} :
    x ∈ (c.typeOf location t fs).1.names ↔ ∃ d, c.graph.Unwraps t d ∧ c.nameOf d = x := by
  constructor
  · exact exists_unwraps_of_mem_names
  · rintro ⟨d, hd, rfl⟩
    have hfuel : (unopened c.graph []).length < c.graph.types.length + 2 := by
      have := length_unopened_le c.graph []
      omega
    exact nameOf_mem_names hd ht (by simp) (by simp) hfuel

/-- Neither a reference back nor a value that may be missing changes the names. -/
theorem mem_names_attributeType {source place : String} {a : Attribute} {x : String} :
    x ∈ (c.attributeType source place a fs).1.names ↔
      ∃ d, c.graph.LeadsTo a.type d ∧ c.nameOf d = x := by
  unfold attributeType
  cases ht : c.graph.resolve? a.type with
  | none =>
      rw [TypeGraph.resolve?_eq_none.1 ht]
      simp [TypeGraph.not_leadsTo ht, MemberType.names]
  | some t =>
      have hnames := @mem_names_typeOf c (some place) t fs (TypeGraph.mem_types_of_resolve? ht) x
      simp only [TypeGraph.leadsTo_iff ht]
      rw [TypeGraph.resolve?_eq_some.1 ht, ← hnames]
      dsimp only
      split <;> rfl

theorem mem_names_resultTypeOf {n : QualifiedName} {x : String} :
    x ∈ (SnippetModel.resultTypeOf c n fs).1.names ↔
      ∃ d, c.graph.LeadsTo n d ∧ c.nameOf d = x := by
  unfold SnippetModel.resultTypeOf
  cases ht : c.graph.resolve? n with
  | none =>
      rw [TypeGraph.resolve?_eq_none.1 ht]
      simp [TypeGraph.not_leadsTo ht, MemberType.names]
  | some t =>
      simp only [TypeGraph.leadsTo_iff ht]
      rw [TypeGraph.resolve?_eq_some.1 ht]
      exact mem_names_typeOf (TypeGraph.mem_types_of_resolve? ht)

/-! ## Names outside the table -/

/-- The type has a name in the table. -/
def Knows (c : Context) (t : SchemaType) : Prop :=
  ∃ x, c.names.get? t.key = some x

/-- The same table, with other rules for the names of types that are not in it. -/
def withRules (c : Context) (rules : NameRules) : Context :=
  { c with naming := rules }

variable {rules : NameRules}

@[simp] theorem graph_withRules : (c.withRules rules).graph = c.graph := rfl

theorem nameOf_withRules (h : c.Knows t) : (c.withRules rules).nameOf t = c.nameOf t := by
  obtain ⟨x, hx⟩ := h
  show (c.names.get? t.key).getD _ = (c.names.get? t.key).getD _
  rw [hx, Option.getD_some, Option.getD_some]

theorem memberType_withRules {fuel : Nat} {seen : List String}
    (h : ∀ d, c.graph.Unwraps t d → c.Knows d) :
    (c.withRules rules).memberType fuel seen location t fs =
      c.memberType fuel seen location t fs := by
  induction fuel generalizing seen t with
  | zero => rfl
  | succ fuel ih =>
      have hinner : ∀ e v, t.kind.element? = some e → c.graph.resolve e = .ok v →
          (c.withRules rules).memberType fuel (t.key :: seen) location v fs =
            c.memberType fuel (t.key :: seen) location v fs := by
        intro e v he hv
        refine ih fun d hd => h d (.element he ?_ hd)
        exact TypeGraph.resolve?_eq_some.2 hv
      have hname : t.kind.isDeclared → (c.withRules rules).nameOf t = c.nameOf t :=
        fun hdecl => nameOf_withRules (h t (.declared hdecl))
      rw [memberType, memberType]
      cases hkind : t.kind with
      | primitive k => rfl
      | scalar parents => rfl
      | enumeration values => simp [hname (by rw [hkind]; rfl)]
      | record attributes => simp [hname (by rw [hkind]; rfl)]
      | collection e =>
          cases hv : c.graph.resolve e with
          | error err => simp [hv]
          | ok v => simp [hv, hinner e v (by rw [hkind]; rfl) hv]
      | stream e =>
          cases hv : c.graph.resolve e with
          | error err => simp [hv]
          | ok v => simp [hv, hinner e v (by rw [hkind]; rfl) hv]

theorem attributeType_withRules {source place : String} {a : Attribute}
    (h : ∀ d, c.graph.LeadsTo a.type d → c.Knows d) :
    (c.withRules rules).attributeType source place a fs = c.attributeType source place a fs := by
  unfold attributeType
  rw [graph_withRules]
  cases ht : c.graph.resolve a.type with
  | error e => rfl
  | ok t =>
      have htype : (c.withRules rules).typeOf (some place) t fs = c.typeOf (some place) t fs :=
        memberType_withRules fun d hd => h d ⟨t, TypeGraph.resolve?_eq_some.2 ht, hd⟩
      dsimp only
      rw [htype]
      rfl

theorem membersOf_withRules {source name : String} {as : List Attribute}
    (h : ∀ a ∈ as, ∀ d, c.graph.LeadsTo a.type d → c.Knows d) :
    (c.withRules rules).membersOf source name as fs = c.membersOf source name as fs := by
  induction as generalizing fs with
  | nil => rfl
  | cons a as ih =>
      have hrest : ∀ fs', (c.withRules rules).membersOf source name as fs' =
          c.membersOf source name as fs' := fun fs' => ih fun b hb => h b (List.mem_cons_of_mem _ hb)
      rw [membersOf, membersOf, attributeType_withRules (h a (List.mem_cons_self ..))]
      dsimp only
      rw [hrest]
      rfl

theorem recordDeclaration_withRules (ht : c.Knows t) (h : ∀ d, c.graph.Refers t d → c.Knows d) :
    (c.withRules rules).recordDeclaration t fs = c.recordDeclaration t fs := by
  unfold recordDeclaration
  rw [nameOf_withRules ht]
  dsimp only
  rw [membersOf_withRules fun a ha d hd => h d ⟨a, ha, hd⟩]
  rfl

/-- If all declarations and what they refer to are in the table, no other name is made up. -/
theorem entries_withRules {ps : List PlanItem}
    (h : ∀ t, .declare t ∈ ps → c.Knows t ∧ ∀ d, c.graph.Refers t d → c.Knows d) :
    (c.withRules rules).entries ps fs = c.entries ps fs := by
  induction ps generalizing fs with
  | nil => rfl
  | cons e ps ih =>
      have hrest : ∀ fs', (c.withRules rules).entries ps fs' = c.entries ps fs' :=
        fun fs' => ih fun t ht => h t (List.mem_cons_of_mem _ ht)
      cases e with
      | missing name k => rw [entries, entries, hrest]
      | declare t =>
          obtain ⟨ht, hrefers⟩ := h t (List.mem_cons_self ..)
          rw [entries, entries, recordDeclaration_withRules ht hrefers]
          split
          · rw [hrest, enumDeclaration, nameOf_withRules ht]
            rfl
          · dsimp only
            rw [hrest]

theorem resultTypeOf_withRules {n : QualifiedName}
    (h : ∀ d, c.graph.LeadsTo n d → c.Knows d) :
    SnippetModel.resultTypeOf (c.withRules rules) n fs = SnippetModel.resultTypeOf c n fs := by
  unfold SnippetModel.resultTypeOf
  rw [graph_withRules]
  cases ht : c.graph.resolve n with
  | error e => rfl
  | ok t => exact memberType_withRules fun d hd => h d ⟨t, TypeGraph.resolve?_eq_some.2 ht, hd⟩

end Context

/-! ## Models -/

/-- The name that an entry declares. -/
def ModelEntry.declared? : ModelEntry → Option String
  | .record s => some s.name
  | .enumeration s => some s.name
  | .missing _ => none

theorem filterMap_declared?_entries (c : Context) (ps : List PlanItem) (fs : Findings) :
    (c.entries ps fs).1.filterMap (·.declared?) = (ps.filterMap (·.declared?)).map c.nameOf := by
  induction ps generalizing fs with
  | nil => rfl
  | cons e ps ih =>
      cases e with
      | missing name k => exact ih fs
      | declare t =>
          rw [Context.entries, List.filterMap_cons_some (by rfl), List.map_cons]
          split
          · rw [← ih fs]
            rfl
          · rw [← ih (c.recordDeclaration t fs).2]
            rfl

/-- The type names what the schema's name leads to, which is declared, by its name in the table. -/
structure Closed (p : Profile) (r : CodeRequest) (n : QualifiedName) (type : MemberType) :
    Prop where
  declared : ∀ d, r.graph.LeadsTo n d → d ∈ (planOf r).declarations
  names : ∀ x, x ∈ type.names ↔
    ∃ d, r.graph.LeadsTo n d ∧ (namesOf p r).get? d.key = some x

/-- The model of a plan in a context. -/
def modelIn (c : Context) (plan : Plan) (n : QualifiedName) : SnippetModel :=
  let (entries, fs) := c.entries plan.entries (SnippetModel.planFindings c plan)
  let (resultType, fs) := SnippetModel.resultTypeOf c n fs
  ⟨entries, !plan.declarations.isEmpty, resultType, fs⟩

theorem build_eq_modelIn (p : Profile) (r : CodeRequest) (docs : Bool) :
    SnippetModel.build p r docs = modelIn (contextOf p r docs) (planOf r) r.returnType := rfl

section Model
variable {p : Profile} {r : CodeRequest} {docs : Bool}

theorem mem_declarations_of_leadsTo {n : QualifiedName} {d : SchemaType}
    (hn : r.graph.Reachable r.returnType n) (h : r.graph.LeadsTo n d) :
    d ∈ (planOf r).declarations := by
  obtain ⟨u, hu, hud⟩ := h
  exact mem_declarations_build.2 ⟨hud.isDeclared, hn.of_unwraps hu hud⟩

theorem closed_of_mem_names_iff {n : QualifiedName} {type : MemberType}
    (hn : r.graph.Reachable r.returnType n)
    (h : ∀ x, x ∈ type.names ↔ ∃ d, r.graph.LeadsTo n d ∧ nameIn p r docs d = x) :
    Closed p r n type := by
  refine ⟨fun d => mem_declarations_of_leadsTo hn, fun x => (h x).trans ?_⟩
  constructor
  · rintro ⟨d, hd, rfl⟩
    exact ⟨d, hd, get?_namesOf (mem_declarations_of_leadsTo hn hd)⟩
  · rintro ⟨d, hd, hx⟩
    have hname : (namesOf p r).get? d.key = some (nameIn p r docs d) :=
      get?_namesOf (mem_declarations_of_leadsTo hn hd)
    exact ⟨d, hd, Option.some.inj (hname.symm.trans hx)⟩

/-- A nullable member names what any other member does. -/
theorem names_nullable (nullable : Bool) (t : MemberType) :
    (if nullable then MemberType.optional t else t).names = t.names := by
  split <;> rfl

theorem closed_members {t : SchemaType} (ht : t ∈ (planOf r).declarations) (fs : Findings) :
    List.Forall₂ (fun a f => f.name = a.name ∧ Closed p r a.type f.type) t.kind.attributes
      ((contextOf p r docs).recordDeclaration t fs).1.fields := by
  obtain ⟨-, n, hn, hnt⟩ := mem_declarations_build.1 ht
  have hfields := (contextOf p r docs).forall₂_membersOf t.key (nameIn p r docs t)
    t.kind.attributes fs
  have hboth := (List.forall₂_and_left _ _).2
    ⟨fun a ha => TypeGraph.Reachable.member hn hnt ha, hfields⟩
  refine hboth.imp fun a f ⟨ha, hname, fs', place, htype⟩ => ⟨hname, ?_⟩
  have hnames : ∀ x, x ∈ f.type.names ↔
      ∃ d, r.graph.LeadsTo a.type d ∧ nameIn p r docs d = x := by
    intro x
    rw [htype, names_nullable]
    exact Context.mem_names_attributeType
  exact closed_of_mem_names_iff ha hnames

theorem knows_of_mem_declarations {t : SchemaType} (ht : t ∈ (planOf r).declarations) :
    (contextOf p r docs).Knows t :=
  ⟨nameIn p r docs t, get?_namesOf ht⟩

end Model

/-- A model declares what its plan does, under the names of the table. The members of its records and
the result are closed, and the names that other types would get do not matter. -/
theorem build_closed (p : Profile) (r : CodeRequest) (docs : Bool) :
    ((SnippetModel.build p r docs).entries.filterMap (·.declared?)).map some =
      (planOf r).declarations.map (fun t => (namesOf p r).get? t.key) ∧
    (∀ s, .record s ∈ (SnippetModel.build p r docs).entries →
      ∃ t ∈ (planOf r).declarations, (namesOf p r).get? t.key = some s.name ∧
        List.Forall₂ (fun a f => f.name = a.name ∧ Closed p r a.type f.type)
          t.kind.attributes s.fields) ∧
    Closed p r r.returnType (SnippetModel.build p r docs).resultType ∧
    (∀ rules, modelIn ((contextOf p r docs).withRules rules) (planOf r) r.returnType =
      SnippetModel.build p r docs) := by
  refine ⟨?_, ?_, ?_, ?_⟩
  · have hnames : (SnippetModel.build p r docs).entries.filterMap (·.declared?) =
        (planOf r).declarations.map (nameIn p r docs) := filterMap_declared?_entries _ _ _
    rw [hnames, List.map_map]
    exact List.map_congr_left fun t ht => (get?_namesOf ht).symm
  · intro s hs
    obtain ⟨t, ht, -, hname, fs, rfl⟩ := exists_declaration_of_record hs
    exact ⟨t, ht, hname ▸ get?_namesOf ht, closed_members ht fs⟩
  · exact closed_of_mem_names_iff .root fun x => Context.mem_names_resultTypeOf
  · intro rules
    have hentries : ∀ t, .declare t ∈ (planOf r).entries → (contextOf p r docs).Knows t ∧
        ∀ d, r.graph.Refers t d → (contextOf p r docs).Knows d := by
      intro t ht
      have hdecl : t ∈ (planOf r).declarations := List.mem_filterMap.2 ⟨_, ht, rfl⟩
      exact ⟨knows_of_mem_declarations hdecl, fun d hd =>
        knows_of_mem_declarations (declares_of_refers hdecl hd)⟩
    have hresult : ∀ d, r.graph.LeadsTo r.returnType d → (contextOf p r docs).Knows d :=
      fun d hd => knows_of_mem_declarations (mem_declarations_of_leadsTo .root hd)
    rw [build_eq_modelIn, modelIn, modelIn, Context.entries_withRules hentries]
    dsimp only
    rw [Context.resultTypeOf_withRules hresult]
    rfl

end SchemaSnippets.Snippet

import SchemaSnippets.Proofs.Model.DeclarationNames
import SchemaSnippets.Proofs.Plan.Coverage
import SchemaSnippets.Snippet.Model

/-!
# Declarations of a model and the types behind them

* `exists_declare_of_record`, `exists_record_of_declare` : the records of a model are those of the
  plan;
* `forall₂_membersOf` : their fields are the attributes;
* `MemberType.held?` : the declaration whose values are held in place by values of a type;
  `held?_attributeType` : what an attribute holds;
* `get?_namesOf`, `nameIn_inj` : each declaration has a name in the table, and no other one has it;
* `exists_declaration_of_record` : the records of the model of a request.
-/

namespace SchemaSnippets.Model

/-- The declaration of which a value of the type holds a value in place, and not in a list or behind
a reference back. -/
def MemberType.held? : MemberType → Option String
  | .named name => some name
  | .optional t => t.held?
  | _ => none

end SchemaSnippets.Model

namespace SchemaSnippets.Snippet
open Model Request Schema Target

/-! ## Records and their fields -/

namespace Context
variable {c : Context}

theorem exists_declare_of_record {ps : List PlanItem} {fs : Findings} {s : RecordDeclaration}
    (h : .record s ∈ (c.entries ps fs).1) :
    ∃ t, .declare t ∈ ps ∧ (t.kind.isDeclared → t.kind.isRecord) ∧
      ∃ fs', s = (c.recordDeclaration t fs').1 := by
  induction ps generalizing fs with
  | nil => simp [entries] at h
  | cons p ps ih =>
      have hrest : ∀ {fs'}, .record s ∈ (c.entries ps fs').1 →
          ∃ t, .declare t ∈ p :: ps ∧ (t.kind.isDeclared → t.kind.isRecord) ∧
            ∃ fs', s = (c.recordDeclaration t fs').1 := by
        intro fs' h'
        obtain ⟨t, ht, hs⟩ := ih h'
        exact ⟨t, List.mem_cons_of_mem _ ht, hs⟩
      cases p with
      | missing name r =>
          rcases List.mem_cons.1 h with h | h
          · cases h
          · exact hrest h
      | declare t =>
          unfold entries at h
          split at h
          · rcases List.mem_cons.1 h with h | h
            · cases h
            · exact hrest h
          · rename_i hkind
            rcases List.mem_cons.1 h with h | h
            · refine ⟨t, List.mem_cons_self .., fun hdecl => ?_, fs, ModelEntry.record.inj h⟩
              exact TypeKind.isRecord_of_isDeclared hdecl hkind
            · exact hrest h

theorem exists_record_of_declare {ps : List PlanItem} {t : SchemaType} (h : .declare t ∈ ps)
    (ht : t.kind.isRecord) (fs : Findings) :
    ∃ fs', .record (c.recordDeclaration t fs').1 ∈ (c.entries ps fs).1 := by
  induction ps generalizing fs with
  | nil => simp at h
  | cons p ps ih =>
      cases p with
      | missing name r =>
          have hrest : .declare t ∈ ps := by simpa using h
          obtain ⟨fs', hs⟩ := ih hrest fs
          exact ⟨fs', List.mem_cons_of_mem _ hs⟩
      | declare u =>
          unfold entries
          rcases List.mem_cons.1 h with heq | hrest
          · obtain rfl := PlanItem.declare.inj heq
            split
            · rename_i hkind
              simp [hkind, TypeKind.isRecord] at ht
            · exact ⟨fs, List.mem_cons_self ..⟩
          · split
            · obtain ⟨fs', hs⟩ := ih hrest fs
              exact ⟨fs', List.mem_cons_of_mem _ hs⟩
            · obtain ⟨fs', hs⟩ := ih hrest (c.recordDeclaration u fs).2
              exact ⟨fs', List.mem_cons_of_mem _ hs⟩

/-- The fields are the attributes in their order, each of the type of its attribute. -/
theorem forall₂_membersOf (source name : String) (as : List Attribute) (fs : Findings) :
    List.Forall₂ (fun a f => f.name = a.name ∧ ∃ fs' location,
      f.type = if a.nullable then .optional (c.attributeType source location a fs').1
        else (c.attributeType source location a fs').1) as (c.membersOf source name as fs).1 := by
  induction as generalizing fs with
  | nil => exact .nil
  | cons a as ih => exact .cons ⟨rfl, fs, name ++ "." ++ a.name, rfl⟩ (ih _)

theorem exists_attribute_of_mem {source name : String} {as : List Attribute} {fs : Findings}
    {f : RecordMember} (h : f ∈ (c.membersOf source name as fs).1) :
    ∃ a ∈ as, ∃ fs' location,
      f.type = if a.nullable then .optional (c.attributeType source location a fs').1
        else (c.attributeType source location a fs').1 := by
  have hfields := c.forall₂_membersOf source name as fs
  obtain ⟨i, hi, rfl⟩ := List.getElem_of_mem h
  have hi' : i < as.length := hfields.length_eq ▸ hi
  exact ⟨as[i], List.getElem_mem hi', (hfields.get hi' hi).2⟩

theorem exists_field_of_mem {source name : String} {as : List Attribute} {a : Attribute}
    (h : a ∈ as) (fs : Findings) :
    ∃ f ∈ (c.membersOf source name as fs).1, ∃ fs' location,
      f.type = if a.nullable then .optional (c.attributeType source location a fs').1
        else (c.attributeType source location a fs').1 := by
  have hfields := c.forall₂_membersOf source name as fs
  obtain ⟨i, hi, rfl⟩ := List.getElem_of_mem h
  have hi' : i < (c.membersOf source name as fs).1.length := hfields.length_eq ▸ hi
  exact ⟨_, List.getElem_mem hi', (hfields.get hi hi').2⟩

/-! ## What a member holds -/

theorem refersBack_iff {source : String} {t : SchemaType} :
    c.refersBack source t ↔ t.kind.isRecord ∧ ⟨source, t.key⟩ ∈ c.recursive := by
  unfold refersBack
  rw [Bool.and_eq_true, List.contains_iff_mem]

/-- A value may be missing or not, what it holds is the same. -/
theorem held?_nullable (nullable : Bool) (t : MemberType) :
    (if nullable then MemberType.optional t else t).held? = t.held? := by
  split <;> rfl

theorem held?_typeOf (location : Option String) (t : SchemaType) (fs : Findings) :
    (c.typeOf location t fs).1.held? = if t.kind.isDeclared then some (c.nameOf t) else none := by
  unfold typeOf memberType
  rw [if_neg (List.not_mem_nil)]
  cases t.kind with
  | primitive k =>
      dsimp only
      split <;> rfl
  | scalar parents =>
      dsimp only
      split
      · split <;> rfl
      · rfl
  | enumeration values => rfl
  | record attributes => rfl
  | collection e => rfl
  | stream e => rfl

/-- An attribute holds the declaration that it resolves to, unless it refers back. -/
theorem held?_attributeType {source location : String} {a : Attribute} {fs : Findings}
    {y : String} :
    (c.attributeType source location a fs).1.held? = some y ↔
      ∃ d, c.graph.resolve? a.type = some d ∧ d.kind.isDeclared ∧ c.nameOf d = y ∧
        ¬ c.refersBack source d := by
  unfold attributeType
  cases hd : c.graph.resolve a.type with
  | error e => simp [TypeGraph.resolve?_eq_some, hd, MemberType.held?]
  | ok d =>
      by_cases hback : c.refersBack source d
      · simp [TypeGraph.resolve?_eq_some, hd, hback, MemberType.held?]
      · simp [TypeGraph.resolve?_eq_some, hd, hback, held?_typeOf]

end Context

/-! ## Declarations of a request -/

section Declarations
variable {p : Profile} {r : CodeRequest} {docs : Bool} {t u : SchemaType}

/-- The plan of a request's result. -/
def planOf (r : CodeRequest) : Plan :=
  Plan.build r.graph r.returnType

/-- The names of the declarations of a request. -/
def namesOf (p : Profile) (r : CodeRequest) : DeclarationNames :=
  DeclarationNames.ofNames p.naming ((planOf r).declarations.map (·.name))

/-- What the declarations of a request have in common. -/
def contextOf (p : Profile) (r : CodeRequest) (docs : Bool) : Context :=
  SnippetModel.context p r.graph (planOf r) docs

/-- The name of a declaration in the model of a request. -/
def nameIn (p : Profile) (r : CodeRequest) (docs : Bool) (t : SchemaType) : String :=
  (SnippetModel.context p r.graph (planOf r) docs).nameOf t

theorem mem_types_of_mem_declarations (h : t ∈ (planOf r).declarations) : t ∈ r.graph.types := by
  obtain ⟨-, n, -, hn⟩ := mem_declarations_build.1 h
  exact TypeGraph.mem_types_of_resolve? hn

/-- A declaration has the name that it has in the table. -/
theorem get?_namesOf (h : t ∈ (planOf r).declarations) :
    (namesOf p r).get? t.key = some (nameIn p r docs t) := by
  have hkey : t.key ∈ ((planOf r).declarations.map (·.name)).map (·.key) :=
    List.mem_map_of_mem (List.mem_map_of_mem h)
  obtain ⟨x, hx⟩ := (DeclarationNames.get?_ofNames_eq_some_iff p.naming _ _).2 hkey
  have hname : nameIn p r docs t = ((namesOf p r).get? t.key).getD _ := rfl
  rw [hname, namesOf, hx, Option.getD_some]

/-- Every declaration has a name of its own. -/
theorem nameIn_inj (ht : t ∈ (planOf r).declarations) (hu : u ∈ (planOf r).declarations)
    (h : nameIn p r docs t = nameIn p r docs u) : t = u := by
  have htname : (namesOf p r).get? t.key = some (nameIn p r docs u) := by
    rw [← h]
    exact get?_namesOf ht
  have huname : (namesOf p r).get? u.key = some (nameIn p r docs u) := get?_namesOf hu
  exact TypeGraph.eq_of_key_eq (mem_types_of_mem_declarations ht)
    (mem_types_of_mem_declarations hu) (DeclarationNames.get?_ofNames_inj _ _ htname huname)

/-- The records of the model are the records of the plan, under the names that they have there. -/
theorem exists_declaration_of_record {s : RecordDeclaration}
    (h : .record s ∈ (SnippetModel.build p r docs).entries) :
    ∃ t ∈ (planOf r).declarations, t.kind.isRecord ∧ nameIn p r docs t = s.name ∧
      ∃ fs, s = ((contextOf p r docs).recordDeclaration t fs).1 := by
  obtain ⟨t, ht, hrec, fs, hs⟩ := Context.exists_declare_of_record h
  have hdecl : t ∈ (planOf r).declarations := List.mem_filterMap.2 ⟨_, ht, rfl⟩
  refine ⟨t, hdecl, hrec (mem_declarations_build.1 hdecl).1, ?_, fs, hs⟩
  rw [hs]
  rfl

theorem exists_record_of_declaration (p : Profile) (docs : Bool) (ht : t ∈ (planOf r).declarations)
    (hrec : t.kind.isRecord) :
    ∃ s, .record s ∈ (SnippetModel.build p r docs).entries ∧ s.name = nameIn p r docs t ∧
      ∃ fs, s = ((contextOf p r docs).recordDeclaration t fs).1 := by
  obtain ⟨e, he, het⟩ := List.mem_filterMap.1 ht
  cases e with
  | missing name k => cases het
  | declare u =>
      obtain rfl := Option.some.inj het
      obtain ⟨fs, hs⟩ := Context.exists_record_of_declare he hrec _
      exact ⟨_, hs, rfl, fs, rfl⟩

end Declarations

end SchemaSnippets.Snippet

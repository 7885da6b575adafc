import SchemaSnippets.Proofs.Plan.Traversal
import SchemaSnippets.Proofs.Schema.Spelling
import SchemaSnippets.Proofs.Snippet.MemberTypes
import SchemaSnippets.Proofs.Snippet.OtherGraph

/-!
# The order of definitions

Snippets do not depend on the order in which types are defined. The walk through the graph and the
types of members are followed side by side in two graphs with alike types: what they come to differs at
most in the spelling of an element, and no spelling is written anywhere.

* `build_eq_of_exactlyAlike` : such graphs have the same plans;
* `memberType_of_matches` : members have the same types in them, with the same findings;
* `generate_perm` : definitions in another order change no snippet, error or diagnostic, as long as names
  mean types with their own keys; `generate_perm_of_isPlain` : with plain names this is asked of one
  order only.
-/

namespace SchemaSnippets.Model
open Schema

variable {g g' : TypeGraph} {t u : SchemaType} {n m root : QualifiedName}

/-! ## Plans -/

theorem Walk.meetOpen_of_alike (h : t.Alike u) (w : Walk) (r : Option String) :
    w.meetOpen u r = w.meetOpen t r := by
  unfold meetOpen
  rw [h.key, h.kind.isRecord_eq]

theorem Walk.close_of_alike (h : t.Alike u) (w : Walk) : w.close u = w.close t := by
  unfold close
  rw [h.key, h.kind.isDeclared_eq]
  split
  · rename_i hdecl
    rw [h.eq_of_isDeclared (h.kind.isDeclared_eq.trans hdecl)]
  · rfl

theorem referrerWithin_of_alike (h : t.Alike u) (r : Option String) :
    referrerWithin u r = referrerWithin t r := by
  unfold referrerWithin
  rw [h.key, h.kind.isRecord_eq]

theorem visit_eq_of_exactlyAlike (h : g.ExactlyAlike g' root) (hnm : g.SameName g' n m) (fuel : Nat)
    (path : List String) (r : Option String) (w : Walk) :
    visit g' fuel path r m w = visit g fuel path r n w := by
  induction fuel generalizing n m path r w with
  | zero => rfl
  | succ fuel ih =>
      rcases h.resolve? hnm with ⟨t, u, ht, hu, htu⟩ | ⟨ht, hu⟩
      · have hkey := htu.alike.key
        by_cases hd : t.key ∈ w.done
        · simp only [visit, TypeGraph.resolve?_eq_some.1 ht, TypeGraph.resolve?_eq_some.1 hu, ← hkey,
            if_pos hd]
        by_cases hp : t.key ∈ path
        · simp only [visit, TypeGraph.resolve?_eq_some.1 ht, TypeGraph.resolve?_eq_some.1 hu, ← hkey,
            if_neg hd, if_pos hp, Walk.meetOpen_of_alike htu.alike]
        rw [visit_succ_of_enter ht hd hp, visit_succ_of_enter hu (hkey ▸ hd) (hkey ▸ hp),
          Walk.close_of_alike htu.alike, referrerWithin_of_alike htu.alike, ← hkey]
        have hstep : ∀ w' w, w' = w → ∀ n m, g.SameName g' n m →
            visit g' fuel (t.key :: path) (referrerWithin t r) m w' =
              visit g fuel (t.key :: path) (referrerWithin t r) n w := by
          rintro w - rfl n m hnm
          exact ih hnm _ _ w
        refine congrArg (Walk.close · t) ?_
        exact (List.rel_foldl (fun w w' hw n m hnm => (hstep w' w hw.symm n m hnm).symm) rfl
          (h.references htu)).symm
      · simp only [visit, TypeGraph.resolve?_eq_none.1 ht, TypeGraph.resolve?_eq_none.1 hu, hnm.key]

theorem build_eq_of_exactlyAlike (h : g.ExactlyAlike g' root) :
    Plan.build g' root = Plan.build g root := by
  unfold Plan.build
  rw [h.length_eq, visit_eq_of_exactlyAlike h h.result]

end SchemaSnippets.Model

namespace SchemaSnippets.Snippet
open Model Request Schema Target

/-! ## Members -/

theorem wrapIn_of_alike {t u : SchemaType} (h : t.Alike u) : wrapIn u = wrapIn t := by
  have hkind := h.kind
  funext inner
  unfold wrapIn
  generalize t.kind = k at hkind
  generalize u.kind = k' at hkind
  cases hkind <;> rfl

namespace Context
variable {c : Context} {g : TypeGraph} {t u : SchemaType} {n m root : QualifiedName}
  {location : Option String} {fs : Findings}

section ExactlyAlike
variable (h : c.graph.ExactlyAlike g root)
include h

/-- Without an element to go on to, a type is told by its key and kind. -/
theorem memberType_one_of_matches (htu : c.graph.Matches g t u) (ht : c.graph.elementOf? t = none)
    (hu : g.elementOf? u = none) :
    (c.withGraph g).memberType 1 [] location u fs = c.memberType 1 [] location t fs := by
  have hprimitive := h.primitiveOf_eq htu
  have hkind := htu.alike.kind
  rw [memberType, memberType, if_neg (List.not_mem_nil), if_neg (List.not_mem_nil)]
  generalize hk : t.kind = k at hkind
  generalize hk' : u.kind = k' at hkind
  cases hkind with
  | refl =>
      cases k with
      | primitive kind => rfl
      | scalar parents => simp only [graph_withGraph, hprimitive, htu.alike.key]
      | enumeration values => rw [htu.alike.eq_of_isDeclared (by rw [hk]; rfl)]; rfl
      | record attributes => rw [htu.alike.eq_of_isDeclared (by rw [hk]; rfl)]; rfl
      | collection e =>
          simp only [graph_withGraph, TypeGraph.resolve_of_elementOf?_eq_none ht (by rw [hk]; rfl),
            TypeGraph.resolve_of_elementOf?_eq_none hu (by rw [hk']; rfl)]
      | stream e =>
          simp only [graph_withGraph, TypeGraph.resolve_of_elementOf?_eq_none ht (by rw [hk]; rfl),
            TypeGraph.resolve_of_elementOf?_eq_none hu (by rw [hk']; rfl)]
  | collection he =>
      simp only [graph_withGraph, TypeGraph.resolve_of_elementOf?_eq_none ht (by rw [hk]; rfl),
        TypeGraph.resolve_of_elementOf?_eq_none hu (by rw [hk']; rfl), he]
  | stream he =>
      simp only [graph_withGraph, TypeGraph.resolve_of_elementOf?_eq_none ht (by rw [hk]; rfl),
        TypeGraph.resolve_of_elementOf?_eq_none hu (by rw [hk']; rfl), he]

theorem memberType_of_matches (htu : c.graph.Matches g t u) (fuel : Nat) (seen : List String) :
    (c.withGraph g).memberType fuel seen location u fs = c.memberType fuel seen location t fs := by
  induction fuel generalizing t u seen with
  | zero => rfl
  | succ fuel ih =>
      have hkey := htu.alike.key
      by_cases hseen : t.key ∈ seen
      · rw [memberType, memberType, if_pos hseen, if_pos (hkey ▸ hseen), hkey]
      have hseen' : u.key ∉ seen := hkey ▸ hseen
      rcases h.elementOf? htu with ⟨v, w, hv, hw, hvw⟩ | ⟨hv, hw⟩
      · rw [memberType_of_elementOf? hv hseen, memberType_of_elementOf? (c := c.withGraph g) hw hseen',
          wrapIn_of_alike htu.alike, ← hkey, ih hvw]
      · rw [memberType_of_elementOf?_eq_none hv hseen,
          memberType_of_elementOf?_eq_none (c := c.withGraph g) hw hseen',
          memberType_one_of_matches h htu hv hw]

theorem typeOf_of_matches (htu : c.graph.Matches g t u) :
    (c.withGraph g).typeOf location u fs = c.typeOf location t fs := by
  unfold typeOf
  rw [graph_withGraph, ← h.length_eq]
  exact memberType_of_matches h htu _ _

omit h in
theorem refersBack_of_matches {source : String} (htu : c.graph.Matches g t u) :
    (c.withGraph g).refersBack source u = c.refersBack source t := by
  unfold refersBack
  rw [htu.alike.key, htu.alike.kind.isRecord_eq]
  rfl

theorem writesSame_of_sameName {a : Attribute} (ha : c.graph.SameName g a.type a.type) :
    c.WritesSame g a := by
  have hresolve := h.resolve? ha
  constructor
  · intro source place fs
    unfold attributeType
    rcases hresolve with ⟨t, u, ht, hu, htu⟩ | ⟨ht, hu⟩
    · rw [graph_withGraph, TypeGraph.resolve?_eq_some.1 ht, TypeGraph.resolve?_eq_some.1 hu]
      dsimp only
      rw [typeOf_of_matches h htu, refersBack_of_matches htu]
    · rw [graph_withGraph, TypeGraph.resolve?_eq_none.1 ht, TypeGraph.resolve?_eq_none.1 hu]
  · have hformat : (c.withGraph g).shownFormat a = c.shownFormat a := by
      unfold shownFormat
      rcases hresolve with ⟨t, u, ht, hu, htu⟩ | ⟨ht, hu⟩
      · rw [graph_withGraph, ht, hu, Option.bind_some, Option.bind_some, h.inheritedFormat_eq htu]
      · rw [graph_withGraph, ht, hu]
        rfl
    unfold memberDocs
    rw [hformat]
    rfl

theorem resultTypeOf_of_exactlyAlike :
    SnippetModel.resultTypeOf (c.withGraph g) root fs = SnippetModel.resultTypeOf c root fs := by
  unfold SnippetModel.resultTypeOf
  rcases h.resolve? h.result with ⟨t, u, ht, hu, htu⟩ | ⟨ht, hu⟩
  · rw [graph_withGraph, TypeGraph.resolve?_eq_some.1 ht, TypeGraph.resolve?_eq_some.1 hu]
    exact typeOf_of_matches h htu
  · rw [graph_withGraph, TypeGraph.resolve?_eq_none.1 ht, TypeGraph.resolve?_eq_none.1 hu]

end ExactlyAlike
end Context

/-! ## Snippets -/

theorem generate_eq_of_exactlyAlike {g g' : TypeGraph} {root : QualifiedName}
    (h : g.ExactlyAlike g' root) (t : Target) (query : String) (o : Options) :
    generate t ⟨query, root, g'⟩ o = generate t ⟨query, root, g⟩ o := by
  refine generate_eq_of_writesSame (build_eq_of_exactlyAlike h) ?_ ?_ t query o
  · rintro c rfl d hd a ha
    have hmem : d ∈ c.graph.types := mem_types_of_mem_declarations (r := ⟨query, root, c.graph⟩) hd
    exact Context.writesSame_of_sameName h (h.memberType hmem ha)
  · rintro c rfl fs
    exact Context.resultTypeOf_of_exactlyAlike h

/-- Definitions in another order give the same snippets, errors and diagnostics, if the names in use mean
types with their own keys, or nothing. -/
theorem generate_perm {types types' : List SchemaType} {services : List Service} {root : QualifiedName}
    (hperm : types.Perm types') (hnodup : (types.map (·.key)).Nodup)
    (hexact : (TypeGraph.ofTypes types services).Exact root)
    (hexact' : (TypeGraph.ofTypes types' services).Exact root)
    (t : Target) (query : String) (o : Options) :
    generate t ⟨query, root, .ofTypes types' services⟩ o =
      generate t ⟨query, root, .ofTypes types services⟩ o := by
  have h : (TypeGraph.ofTypes types services).ExactlyAlike (.ofTypes types' services) root :=
    ⟨TypeGraph.alike_ofTypes hperm hnodup services, hexact, hexact'⟩
  exact generate_eq_of_exactlyAlike h t query o

/-! ### Casts and actors -/

def castName : QualifiedName := .ofFull "films.Cast"

def actorName : QualifiedName := .ofFull "films.Actor"

/-- The array of actors, with the short name that it goes by in one place. -/
def actors (short : Option String) : QualifiedName :=
  ((QualifiedName.ofFull "lang.taxi.Array").withParameters [actorName]).withParts none short

/-- A cast and its actors, who mention the array of actors by another short name. -/
def castType : SchemaType :=
  .ofKind castName (.record [⟨"actors", actors none, false, [], none, none⟩])

def actorType : SchemaType :=
  .ofKind actorName (.record [⟨"partners", actors (some "Actors"), true, [], none, none⟩])

/-- Actors may be defined before their cast, although the array is then added by its other name. -/
theorem actors_first :
    [castType, actorType].Perm [actorType, castType] ∧
    ([castType, actorType].map (·.key)).Nodup ∧
    (TypeGraph.ofTypes [castType, actorType] []).Exact castName ∧
    (TypeGraph.ofTypes [actorType, castType] []).Exact castName ∧
    generate .kotlin ⟨"find { Cast }", castName, .ofTypes [actorType, castType] []⟩ ⟨"client", true⟩ =
      generate .kotlin ⟨"find { Cast }", castName, .ofTypes [castType, actorType] []⟩ ⟨"client", true⟩ := by
  have hperm : [castType, actorType].Perm [actorType, castType] := .swap ..
  have hnodup : ([castType, actorType].map (·.key)).Nodup := by decide +kernel
  have hexact : (TypeGraph.ofTypes [castType, actorType] []).Exact castName := by decide +kernel
  have hexact' : (TypeGraph.ofTypes [actorType, castType] []).Exact castName := by decide +kernel
  exact ⟨hperm, hnodup, hexact, hexact',
    generate_perm hperm hnodup hexact hexact' .kotlin "find { Cast }" ⟨"client", true⟩⟩

/-! ### Plain names -/

/-- Where no name in use hides its parameters in the full name, it is enough to look at the names in one
order of the definitions. -/
theorem generate_perm_of_isPlain {types types' : List SchemaType} {services : List Service}
    {root : QualifiedName} (hperm : types.Perm types') (hnodup : (types.map (·.key)).Nodup)
    (hplain : ∀ n ∈ types.flatMap (·.mentioned), n.IsPlain)
    (hexact : (TypeGraph.ofTypes types services).Exact root)
    (t : Target) (query : String) (o : Options) :
    generate t ⟨query, root, .ofTypes types' services⟩ o =
      generate t ⟨query, root, .ofTypes types services⟩ o := by
  have hexact' : (TypeGraph.ofTypes types' services).Exact root :=
    TypeGraph.exact_of_perm hperm hnodup hplain hexact
  have h : (TypeGraph.ofTypes types services).ExactlyAlike (.ofTypes types' services) root :=
    ⟨TypeGraph.alike_ofTypes hperm hnodup services, hexact, hexact'⟩
  exact generate_eq_of_exactlyAlike h t query o

end SchemaSnippets.Snippet

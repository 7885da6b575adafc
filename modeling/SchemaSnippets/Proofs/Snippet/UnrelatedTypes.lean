import SchemaSnippets.Proofs.Plan.Coverage
import SchemaSnippets.Proofs.Schema.Agreement
import SchemaSnippets.Proofs.Schema.Construction
import SchemaSnippets.Proofs.Snippet.MemberTypes
import SchemaSnippets.Proofs.Snippet.OtherGraph

/-!
# Unrelated types

Types that have nothing to do with the result of a query do not change its snippets.

* `build_eq_of_agrees` : graphs that agree on what a name involves have the same plan for it;
* `writesSame_of_agrees` : they write the same for the attributes of its declarations;
  `generate_eq_of_agrees` : so the snippets are the same;
* `generate_unrelated` : a further type of which nothing mentions the name changes no snippet, unless a
  name comes to mean another built-in type by it.
-/

namespace SchemaSnippets.Model
open Schema

variable {g g' : TypeGraph} {root : QualifiedName}

/-! ## Plans -/

/-- A walk looks up no other names than those that its start involves. -/
theorem Visits.congr {path : List SchemaType} {r : Option String} {ns : List QualifiedName}
    {w w' : Walk} {found : List Discovery} (hv : Visits g path r ns w found w')
    (h : g.Agrees g' root) (hns : ∀ n ∈ ns, g.Involves root n) : Visits g' path r ns w found w' := by
  induction hv with
  | nil => exact .nil
  | missing hn _ ih =>
      obtain ⟨hinvolves, hns⟩ := List.forall_mem_cons.1 hns
      exact .missing ((h _ hinvolves).trans hn) (ih hns)
  | done hn hd _ ih =>
      obtain ⟨hinvolves, hns⟩ := List.forall_mem_cons.1 hns
      exact .done ((h _ hinvolves).trans hn) hd (ih hns)
  | again hn hd hp _ ih =>
      obtain ⟨hinvolves, hns⟩ := List.forall_mem_cons.1 hns
      exact .again ((h _ hinvolves).trans hn) hd hp (ih hns)
  | enter hn hd hp _ _ ih₁ ih₂ =>
      obtain ⟨hinvolves, hns⟩ := List.forall_mem_cons.1 hns
      have hreferences := ih₁ fun m hm => hinvolves.next hn (List.mem_append_left _ hm)
      exact .enter ((h _ hinvolves).trans hn) hd hp hreferences (ih₂ hns)

theorem build_eq_of_agrees (h : g.Agrees g' root) : Plan.build g' root = Plan.build g root := by
  obtain ⟨found, w, hvisits, hplan⟩ := visits_build g root
  obtain ⟨found', w', hvisits', hplan'⟩ := visits_build g' root
  have hsame := hvisits.congr h (by simpa using .root)
  rw [← hplan, ← hplan', (hsame.unique hvisits').2]

end SchemaSnippets.Model

namespace SchemaSnippets.Snippet
open Model Request Schema Target

/-! ## Models -/

namespace Context
variable {c : Context} {g : TypeGraph} {root n : QualifiedName} {t : SchemaType}
  {location : Option String} {fs : Findings}

section Agreement
variable (h : c.graph.Agrees g root)
include h

/-- Without an element to go on to, only the kind of a scalar is looked up. -/
theorem memberType_one_withGraph (ht : c.graph.Meets root t) (hnone : c.graph.elementOf? t = none) :
    (c.withGraph g).memberType 1 [] location t fs = c.memberType 1 [] location t fs := by
  have hnone' : g.elementOf? t = none := (h.elementOf?_eq ht).trans hnone
  rw [memberType, memberType, if_neg (List.not_mem_nil), if_neg (List.not_mem_nil)]
  cases hk : t.kind with
  | scalar parents => simp only [graph_withGraph, h.primitiveOf_eq ht]
  | collection e =>
      have he : t.kind.element? = some e := by rw [hk]; rfl
      simp only [graph_withGraph, TypeGraph.resolve_of_elementOf?_eq_none hnone he,
        TypeGraph.resolve_of_elementOf?_eq_none hnone' he]
  | stream e =>
      have he : t.kind.element? = some e := by rw [hk]; rfl
      simp only [graph_withGraph, TypeGraph.resolve_of_elementOf?_eq_none hnone he,
        TypeGraph.resolve_of_elementOf?_eq_none hnone' he]
  | _ => rfl

theorem typeOf_withGraph (ht : c.graph.Meets root t) :
    (c.withGraph g).typeOf location t fs = c.typeOf location t fs := by
  obtain ⟨passed, e, hway⟩ := TypeGraph.exists_elementWay ht.mem_types
  have he : c.graph.Meets root e.type := hway.end_of_step (P := c.graph.Meets root)
    (fun _ _ hu => hu.of_elementOf?) ht
  have hend : (c.withGraph g).endType location fs e = c.endType location fs e := by
    cases e with
    | last u => exact memberType_one_withGraph h he hway.next_last
    | again u => rfl
  rw [typeOf_eq ht.mem_types hway, typeOf_eq (c := c.withGraph g) (h.mem_types ht)
    (h.elementWay ht hway), hend]

theorem attributeType_withGraph {source place : String} {a : Attribute}
    (ha : c.graph.Involves root a.type) :
    (c.withGraph g).attributeType source place a fs = c.attributeType source place a fs := by
  unfold attributeType
  rw [graph_withGraph, h.resolve_eq ha]
  cases ht : c.graph.resolve a.type with
  | error e => rfl
  | ok t =>
      dsimp only
      rw [typeOf_withGraph h ⟨_, ha, TypeGraph.resolve?_eq_some.2 ht⟩]
      rfl

theorem writesSame_of_agrees {a : Attribute} (ha : c.graph.Involves root a.type) :
    c.WritesSame g a := by
  refine ⟨fun source place fs => attributeType_withGraph h ha, ?_⟩
  have hformat : (c.withGraph g).shownFormat a = c.shownFormat a := by
    unfold shownFormat
    rw [graph_withGraph, h _ ha]
    cases ht : c.graph.resolve? a.type with
    | none => rfl
    | some t => rw [Option.bind_some, Option.bind_some, h.inheritedFormat_eq ⟨_, ha, ht⟩]
  unfold memberDocs
  rw [hformat]
  rfl

theorem resultTypeOf_withGraph :
    SnippetModel.resultTypeOf (c.withGraph g) root fs = SnippetModel.resultTypeOf c root fs := by
  unfold SnippetModel.resultTypeOf
  rw [graph_withGraph, h.resolve_eq .root]
  cases ht : c.graph.resolve root with
  | error e => rfl
  | ok t => exact typeOf_withGraph h ⟨root, .root, TypeGraph.resolve?_eq_some.2 ht⟩

end Agreement
end Context

/-! ## Snippets -/

section Snippets
variable {g g' : TypeGraph} {root : QualifiedName}

theorem meets_of_mem_declarations {t : SchemaType} (ht : t ∈ (Plan.build g root).declarations) :
    g.Meets root t := by
  obtain ⟨-, n, hn, hnt⟩ := mem_declarations_build.1 ht
  exact ⟨n, TypeGraph.involves_of_reachable hn, hnt⟩

/-- The snippets of a request depend on no other names than those that its result involves. -/
theorem generate_eq_of_agrees (h : g.Agrees g' root) (t : Target) (query : String) (o : Options) :
    generate t ⟨query, root, g'⟩ o = generate t ⟨query, root, g⟩ o := by
  refine generate_eq_of_writesSame (Model.build_eq_of_agrees h) ?_ ?_ t query o
  · rintro c rfl d hd a ha
    have hrefers : a.type ∈ d.kind.references := List.mem_append_right _ (List.mem_map_of_mem ha)
    have hmeets := meets_of_mem_declarations hd
    exact Context.writesSame_of_agrees h (hmeets.involves (List.mem_append_left _ hrefers))
  · rintro c rfl fs
    exact Context.resultTypeOf_withGraph h

end Snippets

/-- A type whose names are mentioned nowhere around the result of a query changes no snippet, error or
diagnostic, unless a built-in type comes or goes with it that a name around the result means. -/
theorem generate_unrelated {types : List SchemaType} {services : List Service} {u : SchemaType}
    {root : QualifiedName}
    (hfresh : ∀ m, (TypeGraph.ofTypes types services).Mentions root m →
      u.key ≠ m.key ∧ u.name.full ≠ m.full)
    (hshares : (TypeGraph.ofTypes types services).SharesBuiltins
      (.ofTypes (types ++ [u]) services) root)
    (t : Target) (query : String) (o : Options) :
    generate t ⟨query, root, .ofTypes (types ++ [u]) services⟩ o =
      generate t ⟨query, root, .ofTypes types services⟩ o :=
  generate_eq_of_agrees (TypeGraph.agrees_ofTypes_append hfresh hshares) t query o

/-! ### Labels beside films -/

def arrayOf (element : String) : QualifiedName :=
  (QualifiedName.ofFull "lang.taxi.Array").withParameters [.ofFull element]

def filmName : QualifiedName := .ofFull "films.Film"

/-- A film with tags. -/
def taggedFilm (tags : QualifiedName) : SchemaType :=
  .ofKind filmName (.record [⟨"tags", tags, false, [], none, none⟩])

/-- Labels are nothing that a film mentions, and they mention arrays of texts. -/
def labelsType : SchemaType :=
  .ofKind (.ofFull "demo.Labels") (.record [⟨"all", arrayOf "lang.taxi.String", false, [], none, none⟩])

def filmsAlone (tags : QualifiedName) : TypeGraph :=
  .ofTypes [taggedFilm tags] []

def filmsAndLabels (tags : QualifiedName) : TypeGraph :=
  .ofTypes ([taggedFilm tags] ++ [labelsType]) []

/-- Tags that are numbers have nothing to do with labels that are texts. -/
theorem labels_unrelated :
    (∀ m, (filmsAlone (arrayOf "lang.taxi.Int")).Mentions filmName m →
      labelsType.key ≠ m.key ∧ labelsType.name.full ≠ m.full) ∧
    (filmsAlone (arrayOf "lang.taxi.Int")).SharesBuiltins (filmsAndLabels (arrayOf "lang.taxi.Int"))
      filmName ∧
    generate .rust ⟨"find { Film }", filmName, filmsAndLabels (arrayOf "lang.taxi.Int")⟩
        ⟨"client", true⟩ =
      generate .rust ⟨"find { Film }", filmName, filmsAlone (arrayOf "lang.taxi.Int")⟩
        ⟨"client", true⟩ := by
  have hnames : ∀ m ∈ filmName.mentioned ++ (filmsAlone (arrayOf "lang.taxi.Int")).mentioned,
      (labelsType.key ≠ m.key ∧ labelsType.name.full ≠ m.full) ∧
        m.key ∈ (filmsAlone (arrayOf "lang.taxi.Int")).types.map (·.key) := by
    decide +kernel
  have hfresh : ∀ m, (filmsAlone (arrayOf "lang.taxi.Int")).Mentions filmName m →
      labelsType.key ≠ m.key ∧ labelsType.name.full ≠ m.full := fun m hm =>
    (hnames m (TypeGraph.mem_of_mentions hm)).1
  have hshares : (filmsAlone (arrayOf "lang.taxi.Int")).SharesBuiltins
      (filmsAndLabels (arrayOf "lang.taxi.Int")) filmName := by
    refine TypeGraph.sharesBuiltins_of_keys (fun n hn => ?_) fun n hn => ?_
    · exact (hfresh n (TypeGraph.mentions_of_involves hn)).1
    · exact (hnames n (TypeGraph.mem_of_mentions (TypeGraph.mentions_of_involves hn))).2
  exact ⟨hfresh, hshares, generate_unrelated hfresh hshares .rust "find { Film }" ⟨"client", true⟩⟩

/-- Tags that are arrays of nothing said become arrays of texts, since labels mention these. -/
theorem labels_change_tags :
    (∀ m, (filmsAlone (.ofFull "lang.taxi.Array")).Mentions filmName m →
      labelsType.key ≠ m.key ∧ labelsType.name.full ≠ m.full) ∧
    generate .rust ⟨"find { Film }", filmName, filmsAndLabels (.ofFull "lang.taxi.Array")⟩
        ⟨"client", true⟩ ≠
      generate .rust ⟨"find { Film }", filmName, filmsAlone (.ofFull "lang.taxi.Array")⟩
        ⟨"client", true⟩ := by
  have hnames : ∀ m ∈ filmName.mentioned ++ (filmsAlone (.ofFull "lang.taxi.Array")).mentioned,
      labelsType.key ≠ m.key ∧ labelsType.name.full ≠ m.full := by
    decide +kernel
  have hfailures :
      (generate .rust ⟨"find { Film }", filmName, filmsAndLabels (.ofFull "lang.taxi.Array")⟩
        ⟨"client", true⟩).findings.failures ≠
      (generate .rust ⟨"find { Film }", filmName, filmsAlone (.ofFull "lang.taxi.Array")⟩
        ⟨"client", true⟩).findings.failures := by
    decide +kernel
  refine ⟨fun m hm => hnames m (TypeGraph.mem_of_mentions hm), fun heq => hfailures ?_⟩
  rw [heq]

end SchemaSnippets.Snippet

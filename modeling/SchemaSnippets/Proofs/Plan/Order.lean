import SchemaSnippets.Proofs.Plan.Coverage

/-!
# The order of declarations

A declaration stands behind what its members lead to, unless that leads back to it.

* `Plan.DeclaredAt p i t` : `t` is declared at place `i`;
* `Explored.done_or_back` : when a record is about to be closed, what it refers to is done or refers
  back to it. Collections on the way may be done or open themselves: a done one has passed the
  question on to its element, and an open one leads to nothing but its own element;
* `build_orders` : the order of a whole plan.
-/

namespace SchemaSnippets.Model
open Schema Relation

/-! ## Places -/

namespace Plan

/-- The type is declared at this place. -/
def DeclaredAt (p : Plan) (i : Nat) (t : SchemaType) : Prop :=
  p.entries[i]? = some (.declare t)

theorem mem_declarations {p : Plan} {t : SchemaType} :
    t ∈ p.declarations ↔ ∃ i, p.DeclaredAt i t := by
  simp only [declarations, List.mem_filterMap, DeclaredAt, ← List.mem_iff_getElem?]
  constructor
  · rintro ⟨e, he, ht⟩
    cases e <;> simp_all [PlanItem.declared?]
  · exact fun h => ⟨_, h, rfl⟩

theorem DeclaredAt.lt_length {p : Plan} {i : Nat} {t : SchemaType} (h : p.DeclaredAt i t) :
    i < p.entries.length :=
  (List.getElem?_eq_some_iff.1 h).1

/-- One type is declared before the other. -/
def DeclaresBefore (p : Plan) (d a : SchemaType) : Prop :=
  ∃ i j, j < i ∧ p.DeclaredAt j d ∧ p.DeclaredAt i a

section Nodup
variable {p : Plan} (hp : (p.declarations.map (·.key)).Nodup)
include hp

theorem not_declaresBefore_self (t : SchemaType) : ¬ p.DeclaresBefore t t := by
  rintro ⟨i, j, hji, hj, hi⟩
  have hpair := List.pairwise_filterMap.1 (List.Nodup.of_map _ hp)
  obtain ⟨hjlt, hj⟩ := List.getElem?_eq_some_iff.1 hj
  obtain ⟨hilt, hi⟩ := List.getElem?_eq_some_iff.1 hi
  refine List.pairwise_iff_getElem.1 hpair j i hjlt hilt hji t ?_ t ?_ rfl
  · rw [hj]
    rfl
  · rw [hi]
    rfl

theorem DeclaredAt.unique {i j : Nat} {t : SchemaType} (hi : p.DeclaredAt i t)
    (hj : p.DeclaredAt j t) : i = j := by
  have hself := not_declaresBefore_self hp t
  rcases Nat.lt_trichotomy i j with hlt | heq | hlt
  · exact absurd ⟨j, i, hlt, hi, hj⟩ hself
  · exact heq
  · exact absurd ⟨i, j, hlt, hj, hi⟩ hself

theorem DeclaresBefore.trans {a b d : SchemaType} (h : p.DeclaresBefore d b)
    (h' : p.DeclaresBefore b a) : p.DeclaresBefore d a := by
  obtain ⟨i, j, hji, hj, hi⟩ := h
  obtain ⟨i', j', hji', hj', hi'⟩ := h'
  have heq : i = j' := DeclaredAt.unique hp hi hj'
  exact ⟨i', j, by omega, hj, hi'⟩

end Nodup

end Plan

namespace Walk
variable {w : Walk} {i : Nat} {u : SchemaType}

theorem declaredAt_miss (e : SchemaError) (r : Option String) :
    (w.miss e r).plan.DeclaredAt i u ↔ w.plan.DeclaredAt i u := by
  unfold Plan.DeclaredAt
  rw [entries_miss]
  split
  · rw [List.append_nil]
  · rw [List.getElem?_append]
    split
    · rfl
    · rename_i hlt
      have hnone : w.plan.entries[i]? = none := List.getElem?_eq_none (by omega)
      rw [hnone, List.getElem?_singleton]
      split <;> simp

theorem declaredAt_meetOpen (t : SchemaType) (r : Option String) :
    (w.meetOpen t r).plan.DeclaredAt i u ↔ w.plan.DeclaredAt i u := by
  unfold Plan.DeclaredAt
  rw [entries_meetOpen]

theorem declaredAt_close (t : SchemaType) :
    (w.close t).plan.DeclaredAt i u ↔
      w.plan.DeclaredAt i u ∨ (t.kind.isDeclared ∧ u = t ∧ i = w.plan.entries.length) := by
  unfold Plan.DeclaredAt
  rw [entries_close]
  split
  · rename_i ht
    rw [List.getElem?_append]
    split
    · rename_i hlt
      have hne : i ≠ w.plan.entries.length := by omega
      simp [hne]
    · rename_i hlt
      have hnone : w.plan.entries[i]? = none := List.getElem?_eq_none (by omega)
      have hiff : i - w.plan.entries.length = 0 ↔ i = w.plan.entries.length := by omega
      rw [hnone, List.getElem?_singleton]
      simp [hiff, ht, eq_comm, and_comm]
  · rename_i ht
    simp [ht]

end Walk

/-! ## What a closed record refers to -/

section Closing
variable {g : TypeGraph} {root : QualifiedName} {found : List Discovery} {path : List SchemaType}
  {w : Walk}

/-- What a done or open type unwraps to is done, or an open type unwraps to it as well. -/
theorem Explored.done_or_open_of_unwraps (h : Explored g found path w) {u d : SchemaType}
    (hud : g.Unwraps u d) (ht : u ∈ g.types) (hu : u.key ∈ w.done ∨ u ∈ path) :
    d.key ∈ w.done ∨ ∃ v ∈ path, g.Unwraps v d := by
  induction hud with
  | declared hd => exact hu.imp_right fun hp => ⟨_, hp, .declared hd⟩
  | @element u v d e he hv rest ih =>
      rcases hu with hk | hp
      · obtain ⟨r, hr⟩ := h.found_of_done u ht hk
        have hset := h.settled _ hr hk e (by simp [TypeKind.references, he])
        exact ih (TypeGraph.mem_types_of_resolve? hv) ((hset.met v hv).imp_right And.left)
      · exact Or.inr ⟨u, hp, .element he hv rest⟩

/-- What a record refers to is done when the record is closed, or refers back to it. -/
theorem Explored.done_or_back {r : Option String} {n : QualifiedName} {t d : SchemaType}
    (h : Explored g found (t :: path) w) (hs : Standing g root found path r n)
    (hn : g.resolve? n = some t)
    (hset : ∀ m ∈ t.kind.references, Settled g (t :: path) (referrerWithin t r) w m)
    (htd : g.Refers t d) : d.key ∈ w.done ∨ ReflTransGen g.Refers d t := by
  have hdecl := TypeKind.isDeclared_of_isRecord htd.isRecord
  obtain ⟨m, hm, u, hu, hud⟩ := htd
  have hmet := (hset m.type (List.mem_append_right _ (List.mem_map_of_mem hm))).met u hu
  rcases h.done_or_open_of_unwraps hud (TypeGraph.mem_types_of_resolve? hu)
    (hmet.imp_right And.left) with hk | ⟨v, hv, hvd⟩
  · exact Or.inl hk
  · obtain ⟨d', hvd', hback⟩ := TypeGraph.exists_refers_of_next (hs.next hn v hv) hdecl
    obtain rfl := hvd.unique hvd'
    exact Or.inr hback

end Closing

/-! ## Order -/

/-- What a declared type refers to is declared before it, or refers back to it. -/
def Ordered (g : TypeGraph) (w : Walk) : Prop :=
  ∀ i a d, w.plan.DeclaredAt i a → g.Refers a d →
    (∃ j < i, w.plan.DeclaredAt j d) ∨ ReflTransGen g.Refers d a

theorem Ordered.close {g : TypeGraph} {root : QualifiedName} {t : SchemaType} {w : Walk}
    (h : Ordered g w) (hp : Placed g root w)
    (ht : ∀ d, g.Refers t d → d.key ∈ w.done ∨ ReflTransGen g.Refers d t) :
    Ordered g (w.close t) := by
  intro i a d hi had
  have hkeep : ∀ {j}, w.plan.DeclaredAt j d → (w.close t).plan.DeclaredAt j d :=
    fun hj => (Walk.declaredAt_close t).2 (Or.inl hj)
  rcases (Walk.declaredAt_close t).1 hi with hi | ⟨-, rfl, rfl⟩
  · exact (h i a d hi had).imp_left fun ⟨j, hj, hjd⟩ => ⟨j, hj, hkeep hjd⟩
  · rcases ht d had with hk | hback
    · obtain ⟨j, hj⟩ := Plan.mem_declarations.1
        ((hp.declared d).2 ⟨had.mem_types, had.isDeclared, hk⟩)
      exact Or.inl ⟨j, hj.lt_length, hkeep hj⟩
    · exact Or.inr hback

theorem Ordered.kept {g : TypeGraph} {root : QualifiedName} :
    Kept g root fun found path w => Accounted g root found path w ∧ Ordered g w where
  miss hs hn h := by
    refine ⟨Accounted.kept.miss hs hn h.1, fun i a d hi had => ?_⟩
    simp only [Walk.declaredAt_miss] at hi ⊢
    exact h.2 i a d hi had
  meet hs hn hp ha h := by
    refine ⟨Accounted.kept.meet hs hn hp ha h.1, fun i a d hi had => ?_⟩
    simp only [Walk.declaredAt_meetOpen] at hi ⊢
    exact h.2 i a d hi had
  enter hs hn hd hp ha h := ⟨Accounted.kept.enter hs hn hd hp ha h.1, h.2⟩
  close hs hn hf hp ha hset h := by
    refine ⟨Accounted.kept.close hs hn hf hp ha hset h.1, h.2.close h.1.placed fun d htd => ?_⟩
    exact h.1.explored.done_or_back hs hn hset htd

/-- In every plan what a declaration refers to comes before it, or refers back to it. Where nothing
that the root leads to refers back to itself, everything comes before what refers to it. -/
theorem build_orders (g : TypeGraph) (root : QualifiedName) :
    (∀ i a d, (Plan.build g root).DeclaredAt i a → g.Refers a d →
      (∃ j < i, (Plan.build g root).DeclaredAt j d) ∨ ReflTransGen g.Refers d a) ∧
    ((∀ n t, g.Reachable root n → g.resolve? n = some t → ¬ TransGen g.Refers t t) →
      ∀ i a d, (Plan.build g root).DeclaredAt i a → g.Refers a d →
        ∃ j < i, (Plan.build g root).DeclaredAt j d) := by
  obtain ⟨found, w, h, hplan⟩ := visits_build g root
  have hstart : Ordered g Walk.start := by
    intro i a d hi
    simp [Walk.start, Plan.DeclaredAt] at hi
  obtain ⟨⟨hplaced, -⟩, hordered⟩ := h.keeps_whole Ordered.kept ⟨Accounted.start, hstart⟩
  rw [← hplan]
  refine ⟨hordered, fun hacyclic i a d hi had => ?_⟩
  refine (hordered i a d hi had).resolve_right fun hback => ?_
  obtain ⟨ht, -, hk⟩ := (hplaced.declared a).1 (Plan.mem_declarations.2 ⟨i, hi⟩)
  obtain ⟨n, hn, hna⟩ := hplaced.done a ht hk
  exact hacyclic n a hn hna (TransGen.head' had hback)

/-! ### A film and its studio -/

def studioType : SchemaType := .ofKind (.ofFull "films.Studio") (.record [])

def filmType : SchemaType :=
  .ofKind (.ofFull "films.Film") (.record [⟨"studio", studioType.name, false, [], none, none⟩])

def filmGraph : TypeGraph := .ofTypes [filmType, studioType] []

/-- The studio of a film, which refers to nothing, is declared before the film. -/
theorem film_declared_after_studio :
    (Plan.build filmGraph filmType.name).DeclaredAt 1 filmType ∧
      filmGraph.Refers filmType studioType ∧
      (∀ n t, filmGraph.Reachable filmType.name n → filmGraph.resolve? n = some t →
        ¬ TransGen filmGraph.Refers t t) ∧
      ∃ j < 1, (Plan.build filmGraph filmType.name).DeclaredAt j studioType := by
  have hfilm : (Plan.build filmGraph filmType.name).DeclaredAt 1 filmType := rfl
  have hstudio : filmGraph.resolve? studioType.name = some studioType := rfl
  have hrefers : filmGraph.Refers filmType studioType :=
    ⟨_, List.mem_singleton_self _, studioType, hstudio, .declared rfl⟩
  have hleaf : ∀ d, ¬ filmGraph.Refers studioType d := by
    rintro d ⟨m, hm, -⟩
    cases hm
  have honly : ∀ d, filmGraph.Refers filmType d → d = studioType := by
    rintro d ⟨m, hm, u, hu, hud⟩
    obtain rfl := List.mem_singleton.1 hm
    obtain rfl := Option.some.inj (hstudio.symm.trans hu)
    exact hud.unique (.declared rfl)
  have hacyclic : ∀ n t, filmGraph.Reachable filmType.name n → filmGraph.resolve? n = some t →
      ¬ TransGen filmGraph.Refers t t := by
    intro n t _ hn hloop
    obtain ⟨d, htd, hdt⟩ := TransGen.head'_iff.1 hloop
    have ht : t ∈ [filmType, studioType] := TypeGraph.mem_types_of_resolve? hn
    rcases List.mem_pair.1 ht with rfl | rfl
    · obtain rfl := honly d htd
      rcases ReflTransGen.cases_head hdt with heq | ⟨d', hd', -⟩
      · exact absurd (congrArg SchemaType.key heq) (by decide)
      · exact hleaf d' hd'
    · exact hleaf d htd
  refine ⟨hfilm, hrefers, hacyclic, ?_⟩
  exact (build_orders _ _).2 hacyclic 1 filmType studioType hfilm hrefers

end SchemaSnippets.Model

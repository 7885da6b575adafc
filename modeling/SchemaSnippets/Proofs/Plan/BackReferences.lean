import SchemaSnippets.Proofs.Plan.Order

/-!
# Recorded back references

A declaration refers back to a record that is not declared before it. A plan records such a
reference where the walk first comes through the collections on the way, and only there.

* `IsBackReference g p a d` : the declared record `a` refers to the record `d`, which is not
  declared before `a`;
* `Discovers g seen r ns found` : the types that `ns` lead to in depth-first order, each where it is
  met for the first time and with the declaration whose member led there;
* `RefersFirst g found a d` : `a` refers to `d` through collections that were all first met from
  `a`;
* `mem_recursive_iff` : a back reference is recorded if and only if it is one of the latter kind;
* `films_back_reference_unrecorded` : the least plan with a back reference that is not recorded.
-/

namespace SchemaSnippets.Model
open Schema Relation

/-! ## Back references and discoveries -/

/-- A declared record refers to a record that is not declared before it. -/
structure IsBackReference (g : TypeGraph) (p : Plan) (a d : SchemaType) : Prop where
  declared : a ∈ p.declarations
  isRecord : d.kind.isRecord
  refers : g.Refers a d
  notBefore : ¬ p.DeclaresBefore d a

/-- The types that the names lead to and that are not among `seen`, in depth-first order. -/
inductive Discovers (g : TypeGraph) : List SchemaType → Option String → List QualifiedName →
    List Discovery → Prop where
  | nil {seen r} : Discovers g seen r [] []
  | missing {seen r n ns found} (hn : g.resolve? n = none) (rest : Discovers g seen r ns found) :
      Discovers g seen r (n :: ns) found
  | again {seen r n ns t found} (hn : g.resolve? n = some t) (ht : t ∈ seen)
      (rest : Discovers g seen r ns found) : Discovers g seen r (n :: ns) found
  | first {seen r n ns t found₁ found₂} (hn : g.resolve? n = some t) (ht : t ∉ seen)
      (inner : Discovers g (t :: seen) (referrerWithin t r) t.kind.references found₁)
      (rest : Discovers g (found₁.map (·.type) ++ t :: seen) r ns found₂) :
      Discovers g seen r (n :: ns) (⟨r, t⟩ :: found₁ ++ found₂)

/-- As `TypeGraph.Unwraps`, through collections and streams with a property. -/
inductive UnwrapsVia (g : TypeGraph) (P : SchemaType → Prop) : SchemaType → SchemaType → Prop where
  | declared {d} (hd : d.kind.isDeclared) : UnwrapsVia g P d d
  | element {u v d e} (hP : P u) (he : u.kind.element? = some e) (hv : g.resolve? e = some v)
      (rest : UnwrapsVia g P v d) : UnwrapsVia g P u d

/-- A member of `a` leads to `d`, and a member of `a` was the first to lead to each collection on
the way. -/
def RefersFirst (g : TypeGraph) (found : List Discovery) (a d : SchemaType) : Prop :=
  ∃ m ∈ a.kind.attributes, ∃ u, g.resolve? m.type = some u ∧
    UnwrapsVia g (fun c => ⟨some a.key, c⟩ ∈ found) u d

section Discovery
variable {g : TypeGraph} {root : QualifiedName} {found found' : List Discovery}
  {path : List SchemaType} {r : Option String} {w w' : Walk}

theorem UnwrapsVia.unwraps {P : SchemaType → Prop} {u d : SchemaType} (h : UnwrapsVia g P u d) :
    g.Unwraps u d := by
  induction h with
  | declared hd => exact .declared hd
  | element _ he hv _ ih => exact .element he hv ih

theorem UnwrapsVia.mono {P Q : SchemaType → Prop} {u d : SchemaType} (h : UnwrapsVia g P u d)
    (hPQ : ∀ c, P c → Q c) : UnwrapsVia g Q u d := by
  induction h with
  | declared hd => exact .declared hd
  | element hP he hv _ ih => exact .element (hPQ _ hP) he hv ih

theorem RefersFirst.refers {a d : SchemaType} (h : RefersFirst g found a d) : g.Refers a d := by
  obtain ⟨m, hm, u, hu, hud⟩ := h
  exact ⟨m, hm, u, hu, hud.unwraps⟩

theorem RefersFirst.mono {a d : SchemaType} (h : RefersFirst g found a d)
    (hf : ∀ c, ⟨some a.key, c⟩ ∈ found → ⟨some a.key, c⟩ ∈ found') : RefersFirst g found' a d := by
  obtain ⟨m, hm, u, hu, hud⟩ := h
  exact ⟨m, hm, u, hu, hud.mono hf⟩

theorem Discovers.unique {seen : List SchemaType} {ns : List QualifiedName}
    (h : Discovers g seen r ns found) (h' : Discovers g seen r ns found') : found = found' := by
  induction h generalizing found' with
  | nil =>
      cases h'
      rfl
  | missing hn _ ih =>
      cases h' with
      | missing _ rest' => exact ih rest'
      | _ => simp_all
  | again hn ht _ ih =>
      cases h' with
      | again _ _ rest' => exact ih rest'
      | _ => simp_all
  | first hn ht _ _ ih₁ ih₂ =>
      cases h' with
      | first hn' _ inner' rest' =>
          obtain rfl := Option.some.inj (hn.symm.trans hn')
          obtain rfl := ih₁ inner'
          obtain rfl := ih₂ rest'
          rfl
      | _ => simp_all

/-- The walk finds the types in depth-first order: what is seen is what is done or open. -/
theorem Visits.discovers {ns : List QualifiedName} (h : Visits g path r ns w found w')
    {seen : List SchemaType} (hseen : ∀ t ∈ g.types, t ∈ seen ↔ t.key ∈ w.done ∨ t ∈ path) :
    Discovers g seen r ns found ∧
      ∀ t ∈ g.types, t.key ∈ w'.done ↔ t.key ∈ w.done ∨ t ∈ found.map (·.type) := by
  induction h generalizing seen with
  | nil => exact ⟨.nil, by simp⟩
  | missing hn _ ih =>
      obtain ⟨hrest, hdone⟩ := ih (by simpa using hseen)
      exact ⟨.missing hn hrest, by simpa using hdone⟩
  | @done path r n ns t w found w' hn hd _ ih =>
      obtain ⟨hrest, hdone⟩ := ih hseen
      have ht := (hseen t (TypeGraph.mem_types_of_resolve? hn)).2 (Or.inl hd)
      exact ⟨.again hn ht hrest, hdone⟩
  | @again path r n ns t w found w' hn _ hp _ ih =>
      obtain ⟨hrest, hdone⟩ := ih (by simpa using hseen)
      have ht := (hseen t (TypeGraph.mem_types_of_resolve? hn)).2 (Or.inr hp)
      exact ⟨.again hn ht hrest, by simpa using hdone⟩
  | @enter path r n ns t w found₁ w₁ found₂ w' hn hd hp _ _ ih₁ ih₂ =>
      have ht := TypeGraph.mem_types_of_resolve? hn
      have hnot : t ∉ seen := fun hs => ((hseen t ht).1 hs).elim hd hp
      have hkey : ∀ u ∈ g.types, u.key = t.key ↔ u = t :=
        fun u hu => ⟨TypeGraph.eq_of_key_eq hu ht, congrArg _⟩
      have hseen₁ : ∀ u ∈ g.types, u ∈ t :: seen ↔ u.key ∈ w.done ∨ u ∈ t :: path := by
        intro u hu
        rw [List.mem_cons, List.mem_cons, hseen u hu]
        exact or_left_comm
      obtain ⟨hinner, hdone₁⟩ := ih₁ hseen₁
      have hseen₂ : ∀ u ∈ g.types,
          u ∈ found₁.map (·.type) ++ t :: seen ↔ u.key ∈ (w₁.close t).done ∨ u ∈ path := by
        intro u hu
        rw [Walk.done_close, List.mem_cons, hdone₁ u hu, hkey u hu, List.mem_append, List.mem_cons,
          hseen u hu]
        grind
      obtain ⟨hrest, hdone₂⟩ := ih₂ hseen₂
      refine ⟨.first hn hnot hinner hrest, fun u hu => ?_⟩
      rw [hdone₂ u hu, Walk.done_close, List.mem_cons, hdone₁ u hu, hkey u hu, List.cons_append,
        List.map_cons, List.map_append, List.mem_cons, List.mem_append]
      grind

end Discovery

/-! ## On whose behalf a name is visited -/

namespace Standing
variable {g : TypeGraph} {root : QualifiedName} {found : List Discovery} {path : List SchemaType}
  {r : Option String} {n : QualifiedName} {k : String}

/-- The referrer is the last record that was opened. What the name unwraps to, through collections
that were first met on behalf of that record, the record refers to in this way. -/
theorem referrer (h : Standing g root found path r n) (hr : r = some k) :
    ∃ inner a outer, path = inner ++ a :: outer ∧ a.key = k ∧ (∀ c ∈ inner, ¬ c.kind.isRecord) ∧
      ∀ u d, g.resolve? n = some u → UnwrapsVia g (fun c => ⟨some k, c⟩ ∈ found) u d →
        RefersFirst g found a d := by
  induction h with
  | root => simp at hr
  | @within path r n t m h hn hp hf hm ih =>
      unfold referrerWithin at hr
      rcases TypeKind.mem_references hm with ⟨hrec, b, hb, rfl⟩ | ⟨hdecl, he⟩
      · rw [if_pos hrec] at hr
        obtain rfl := Option.some.inj hr
        exact ⟨[], t, path, rfl, rfl, by simp, fun u d hu hud => ⟨b, hb, u, hu, hud⟩⟩
      · have hrec : ¬ t.kind.isRecord := fun hrec => by
          simp [TypeKind.isDeclared_of_isRecord hrec] at hdecl
        rw [if_neg hrec] at hr
        obtain ⟨inner, a, outer, rfl, hk, hinner, hlast⟩ := ih hr
        refine ⟨t :: inner, a, outer, rfl, hk, List.forall_mem_cons.2 ⟨hrec, hinner⟩, ?_⟩
        intro u d hu hud
        exact hlast t d hn (.element (hr ▸ hf) he hu hud)

theorem exists_open (h : Standing g root found path (some k) n) : ∃ v ∈ path, v.key = k := by
  obtain ⟨inner, a, outer, rfl, hk, -, -⟩ := h.referrer rfl
  exact ⟨a, by simp, hk⟩

/-- An open type was found on behalf of a record that is open as well. -/
theorem discovered (h : Standing g root found path r n) :
    ∀ u ∈ path, ∃ r', ⟨r', u⟩ ∈ found ∧ ∀ k, r' = some k → ∃ v ∈ path, v.key = k := by
  induction h with
  | root => simp
  | @within path r n t m h hn hp hf hm ih =>
      refine List.forall_mem_cons.2 ⟨⟨r, hf, ?_⟩, fun u hu => ?_⟩
      · rintro k rfl
        obtain ⟨v, hv, hk⟩ := h.exists_open
        exact ⟨v, List.mem_cons_of_mem _ hv, hk⟩
      · obtain ⟨r', hr', hopen⟩ := ih u hu
        refine ⟨r', hr', fun k hk => ?_⟩
        obtain ⟨v, hv, hvk⟩ := hopen k hk
        exact ⟨v, List.mem_cons_of_mem _ hv, hvk⟩

end Standing

/-! ## What is recorded -/

/-- The first type is done and the second not declared before it, or both are open and the second
was opened before the first, if they differ. -/
def Late (path : List SchemaType) (w : Walk) (a d : SchemaType) : Prop :=
  (a.key ∈ w.done ∧ ¬ w.plan.DeclaresBefore d a) ∨
    ∃ inner outer, path = inner ++ a :: outer ∧ d ∈ a :: outer

structure Recorded (g : TypeGraph) (found : List Discovery) (path : List SchemaType) (w : Walk) :
    Prop where
  sound : ∀ b ∈ w.plan.recursive, ∃ a ∈ g.types, ∃ d, b = ⟨a.key, d.key⟩ ∧ d.kind.isRecord ∧
    RefersFirst g found a d ∧ Late path w a d
  complete : ∀ a ∈ g.types, a.key ∈ w.done → ∀ d, d.kind.isRecord → RefersFirst g found a d →
    ⟨a.key, d.key⟩ ∈ w.plan.recursive ∨ w.plan.DeclaresBefore d a

section Steps
variable {g : TypeGraph} {root : QualifiedName} {found : List Discovery} {path : List SchemaType}
  {r : Option String} {n : QualifiedName} {t : SchemaType} {w : Walk}

theorem declaresBefore_miss {a d : SchemaType} (e : SchemaError) (r : Option String) :
    (w.miss e r).plan.DeclaresBefore d a ↔ w.plan.DeclaresBefore d a := by
  simp only [Plan.DeclaresBefore, Walk.declaredAt_miss]

theorem declaresBefore_meetOpen {a d : SchemaType} (t : SchemaType) (r : Option String) :
    (w.meetOpen t r).plan.DeclaresBefore d a ↔ w.plan.DeclaresBefore d a := by
  simp only [Plan.DeclaresBefore, Walk.declaredAt_meetOpen]

/-- Closing a type declares it behind all that is declared. -/
theorem declaresBefore_close {a d : SchemaType} :
    (w.close t).plan.DeclaresBefore d a ↔
      w.plan.DeclaresBefore d a ∨ (t.kind.isDeclared ∧ a = t ∧ d ∈ w.plan.declarations) := by
  simp only [Plan.DeclaresBefore, Walk.declaredAt_close, Plan.mem_declarations]
  constructor
  · rintro ⟨i, j, hji, hj, hi⟩
    rcases hi with hi | ⟨ht, rfl, rfl⟩
    · have hlt := hi.lt_length
      rcases hj with hj | ⟨-, -, rfl⟩
      · exact Or.inl ⟨i, j, hji, hj, hi⟩
      · omega
    · rcases hj with hj | ⟨-, -, rfl⟩
      · exact Or.inr ⟨ht, rfl, j, hj⟩
      · omega
  · rintro (⟨i, j, hji, hj, hi⟩ | ⟨ht, rfl, j, hj⟩)
    · exact ⟨i, j, hji, Or.inl hj, Or.inl hi⟩
    · exact ⟨_, j, hj.lt_length, Or.inl hj, Or.inr ⟨ht, rfl, rfl⟩⟩

theorem Late.cons {a d : SchemaType} (h : Late path w a d) (t : SchemaType) :
    Late (t :: path) w a d := by
  rcases h with h | ⟨inner, outer, rfl, hd⟩
  · exact Or.inl h
  · exact Or.inr ⟨t :: inner, outer, rfl, hd⟩

theorem Late.close {a d : SchemaType} (h : Late (t :: path) w a d) (hp : Placed g root w)
    (ha : Apart (t :: path) w) : Late path (w.close t) a d := by
  have hdone : ∀ {u : SchemaType}, u.key ∈ w.done → u.key ∈ (w.close t).done := fun hk => by
    rw [Walk.done_close]
    exact List.mem_cons_of_mem _ hk
  have hopen : ∀ u ∈ t :: path, u ∉ w.plan.declarations :=
    fun u hu hdecl => ha u hu ((hp.declared u).1 hdecl).2.2
  rcases h with ⟨hk, hbefore⟩ | ⟨inner, outer, hpath, hd⟩
  · refine Or.inl ⟨hdone hk, fun hb => ?_⟩
    rcases declaresBefore_close.1 hb with hb | ⟨-, rfl, -⟩
    · exact hbefore hb
    · exact ha a (List.mem_cons_self ..) hk
  · cases inner with
    | nil =>
        obtain ⟨rfl, rfl⟩ := List.cons.inj hpath
        refine Or.inl ⟨by simp, fun hb => hopen d hd ?_⟩
        rcases declaresBefore_close.1 hb with ⟨i, j, -, hj, -⟩ | ⟨-, -, hdecl⟩
        · exact Plan.mem_declarations.2 ⟨j, hj⟩
        · exact hdecl
    | cons c inner => exact Or.inr ⟨inner, outer, (List.cons.inj hpath).2, hd⟩

/-- What a record refers to through collections that were first met on its behalf is recorded or
done when the record is closed. -/
theorem Explored.recorded_or_done {d u : SchemaType} (h : Explored g found (t :: path) w)
    (hs : Standing g root found path r n) (hn : g.resolve? n = some t) (ht : t.kind.isRecord)
    (hp : t ∉ path) (hud : UnwrapsVia g (fun c => ⟨some t.key, c⟩ ∈ found) u d)
    (hd : d.kind.isRecord) {m : QualifiedName} (hu : g.resolve? m = some u)
    (hset : Settled g (t :: path) (some t.key) w m) :
    ⟨t.key, d.key⟩ ∈ w.plan.recursive ∨ d.key ∈ w.done := by
  induction hud generalizing m with
  | declared _ =>
      rcases hset.met _ hu with hk | ⟨-, hrec⟩
      · exact Or.inr hk
      · exact Or.inl (hrec hd _ rfl)
  | @element u v d e hf he hv rest ih =>
      have hplain : ¬ u.kind.isRecord := fun hrec => by
        simp [TypeKind.element?_eq_none_of_isDeclared (TypeKind.isDeclared_of_isRecord hrec)] at he
      rcases hset.met u hu with hk | ⟨hopen, -⟩
      · have hset' := h.settled _ hf hk e (by simp [TypeKind.references, he])
        rw [referrerWithin, if_neg hplain] at hset'
        exact ih hd hv hset'
      · -- a collection that was open before the record was not first met on its behalf
        have hpath : u ∈ path := by
          rcases List.mem_cons.1 hopen with rfl | hpath
          · exact absurd ht hplain
          · exact hpath
        obtain ⟨r', hr', hout⟩ := hs.discovered u hpath
        obtain rfl := congrArg Discovery.referrer (h.eq_of_type_eq hr' hf rfl)
        obtain ⟨c, hc, hkey⟩ := hout t.key rfl
        have htg := TypeGraph.mem_types_of_resolve? hn
        obtain rfl := TypeGraph.eq_of_key_eq (hs.mem_types c hc) htg hkey
        exact absurd hc hp

/-- What was found on behalf of a done record was known when it was closed. -/
theorem RefersFirst.of_enter {a d : SchemaType} (hs : Standing g root found path r n)
    (ha : Apart path w) (hk : a.key ∈ w.done)
    (h : RefersFirst g (found ++ [⟨r, t⟩]) a d) : RefersFirst g found a d := by
  refine h.mono fun c hc => ?_
  rcases List.mem_append.1 hc with hc | hc
  · exact hc
  · obtain ⟨rfl, rfl⟩ := Discovery.mk.inj (List.mem_singleton.1 hc)
    obtain ⟨v, hv, hkey⟩ := hs.exists_open
    exact absurd (hkey ▸ hk) (ha v hv)

theorem Recorded.start : Recorded g [] [] Walk.start := by
  constructor <;> simp [Walk.start]

theorem Recorded.miss (h : Recorded g found path w) (e : SchemaError) (r : Option String) :
    Recorded g found path (w.miss e r) := by
  refine ⟨fun b hb => ?_, fun a hag hk d hd had => ?_⟩
  · rw [Walk.recursive_miss] at hb
    obtain ⟨a, hag, d, hbd, hd, had, hlate⟩ := h.sound b hb
    refine ⟨a, hag, d, hbd, hd, had, ?_⟩
    rwa [Late, Walk.done_miss, declaresBefore_miss]
  · rw [Walk.recursive_miss, declaresBefore_miss]
    rw [Walk.done_miss] at hk
    exact h.complete a hag hk d hd had

theorem Recorded.meet (h : Recorded g found path w) (hs : Standing g root found path r n)
    (hn : g.resolve? n = some t) (ht : t ∈ path) : Recorded g found path (w.meetOpen t r) := by
  have hlate : ∀ {a d}, Late path (w.meetOpen t r) a d ↔ Late path w a d := by
    intro a d
    rw [Late, Late, Walk.done_meetOpen, declaresBefore_meetOpen]
  refine ⟨fun b hb => ?_, fun a hag hk d hd had => ?_⟩
  · rcases Walk.mem_recursive_meetOpen.1 hb with hb | ⟨hrec, hr, htarget⟩
    · obtain ⟨a, hag, d, hbd, hd, had, hl⟩ := h.sound b hb
      exact ⟨a, hag, d, hbd, hd, had, hlate.2 hl⟩
    · obtain ⟨inner, a, outer, rfl, hk, hinner, hlast⟩ := hs.referrer hr
      -- nothing opened since is a record, so the record that is met was not opened after `a`
      have hback : t ∈ a :: outer :=
        (List.mem_append.1 ht).resolve_left fun hin => hinner t hin hrec
      refine ⟨a, hs.mem_types a (by simp), t, ?_, hrec, ?_, hlate.2 (Or.inr ⟨_, _, rfl, hback⟩)⟩
      · rw [hk, ← htarget]
      · exact hlast t t hn (.declared (TypeKind.isDeclared_of_isRecord hrec))
  · rw [declaresBefore_meetOpen]
    rw [Walk.done_meetOpen] at hk
    refine (h.complete a hag hk d hd had).imp_left fun hb => ?_
    exact Walk.mem_recursive_meetOpen.2 (Or.inl hb)

theorem Recorded.enter (h : Recorded g found path w) (hs : Standing g root found path r n)
    (ha : Apart path w) : Recorded g (found ++ [⟨r, t⟩]) (t :: path) w := by
  refine ⟨fun b hb => ?_, fun a hag hk d hd had => ?_⟩
  · obtain ⟨a, hag, d, hbd, hd, had, hlate⟩ := h.sound b hb
    exact ⟨a, hag, d, hbd, hd, had.mono fun c hc => List.mem_append_left _ hc, hlate.cons t⟩
  · exact h.complete a hag hk d hd (had.of_enter hs ha hk)

theorem Recorded.close (h : Recorded g found (t :: path) w)
    (hacc : Accounted g root found (t :: path) w) (hs : Standing g root found path r n)
    (hn : g.resolve? n = some t) (hp : t ∉ path) (ha : Apart (t :: path) w)
    (hset : ∀ m ∈ t.kind.references, Settled g (t :: path) (referrerWithin t r) w m) :
    Recorded g found path (w.close t) := by
  refine ⟨fun b hb => ?_, fun a hag hk d hd had => ?_⟩
  · rw [Walk.recursive_close] at hb
    obtain ⟨a, hag, d, hbd, hd, had, hlate⟩ := h.sound b hb
    exact ⟨a, hag, d, hbd, hd, had, hlate.close hacc.placed ha⟩
  · rw [Walk.recursive_close, declaresBefore_close]
    rw [Walk.done_close, List.mem_cons] at hk
    rcases hk with hkey | hk
    · obtain rfl := TypeGraph.eq_of_key_eq hag (TypeGraph.mem_types_of_resolve? hn) hkey
      have hrec := had.refers.isRecord
      rw [referrerWithin, if_pos hrec] at hset
      have hrefers := had.refers
      obtain ⟨m, hm, u, hu, hud⟩ := had
      have hmet := hset m.type (List.mem_append_right _ (List.mem_map_of_mem hm))
      refine (hacc.explored.recorded_or_done hs hn hrec hp hud hd hu hmet).imp_right fun hk => ?_
      have hdecl := (hacc.placed.declared d).2 ⟨hrefers.mem_types, hrefers.isDeclared, hk⟩
      exact Or.inr ⟨TypeKind.isDeclared_of_isRecord hrec, rfl, hdecl⟩
    · exact (h.complete a hag hk d hd had).imp_right Or.inl

theorem Recorded.kept :
    Kept g root fun found path w => Accounted g root found path w ∧ Recorded g found path w where
  miss hs hn h := ⟨Accounted.kept.miss hs hn h.1, h.2.miss _ _⟩
  meet hs hn hp ha h := ⟨Accounted.kept.meet hs hn hp ha h.1, h.2.meet hs hn hp⟩
  enter hs hn hd hp ha h := ⟨Accounted.kept.enter hs hn hd hp ha h.1, h.2.enter hs ha⟩
  close hs hn hf hp ha hset h :=
    ⟨Accounted.kept.close hs hn hf hp ha hset h.1, h.2.close h.1 hs hn hp ha hset⟩

end Steps

/-! ## Plans -/

theorem exists_recorded_build (g : TypeGraph) (root : QualifiedName) :
    ∃ found, ∃ w : Walk, w.plan = Plan.build g root ∧ Discovers g [] none [root] found ∧
      Placed g root w ∧ Recorded g found [] w := by
  obtain ⟨found, w, h, hplan⟩ := visits_build g root
  obtain ⟨⟨hplaced, -⟩, hrecorded⟩ :=
    h.keeps_whole Recorded.kept ⟨Accounted.start, Recorded.start⟩
  exact ⟨found, w, hplan, (h.discovers (by simp [Walk.start])).1, hplaced, hrecorded⟩

/-- A member that is a record itself, without a collection around it, is recorded or declared before
the record it is a member of. -/
theorem recorded_or_declaresBefore {g : TypeGraph} {root : QualifiedName} {a d : SchemaType}
    {m : Attribute} (ha : a ∈ (Plan.build g root).declarations) (hm : m ∈ a.kind.attributes)
    (hd : g.resolve? m.type = some d) (hrec : d.kind.isRecord) :
    ⟨a.key, d.key⟩ ∈ (Plan.build g root).recursive ∨ (Plan.build g root).DeclaresBefore d a := by
  obtain ⟨found, w, hplan, -, hplaced, hrecorded⟩ := exists_recorded_build g root
  rw [← hplan] at ha ⊢
  obtain ⟨hag, -, hk⟩ := (hplaced.declared a).1 ha
  refine hrecorded.complete a hag hk d hrec ⟨m, hm, d, hd, ?_⟩
  exact .declared (TypeKind.isDeclared_of_isRecord hrec)

/-- The types that the root leads to are found in one depth-first order. The recorded references are
the back references that go through collections found from where they start, and no others. -/
theorem mem_recursive_iff (g : TypeGraph) (root : QualifiedName) :
    ∃ found, (∀ found', Discovers g [] none [root] found' ↔ found' = found) ∧
      ∀ b, b ∈ (Plan.build g root).recursive ↔
        ∃ a d, b = ⟨a.key, d.key⟩ ∧ IsBackReference g (Plan.build g root) a d ∧
          RefersFirst g found a d := by
  obtain ⟨found, w, hplan, hfound, hplaced, hrecorded⟩ := exists_recorded_build g root
  refine ⟨found, fun found' => ⟨fun h' => h'.unique hfound, ?_⟩, fun b => ?_⟩
  · rintro rfl
    exact hfound
  rw [← hplan]
  constructor
  · intro hb
    obtain ⟨a, hag, d, hbd, hd, had, hlate⟩ := hrecorded.sound b hb
    obtain ⟨hk, hbefore⟩ : a.key ∈ w.done ∧ ¬ w.plan.DeclaresBefore d a := by
      simpa [Late] using hlate
    have hdecl := TypeKind.isDeclared_of_isRecord had.refers.isRecord
    exact ⟨a, d, hbd, ⟨(hplaced.declared a).2 ⟨hag, hdecl, hk⟩, hd, had.refers, hbefore⟩, had⟩
  · rintro ⟨a, d, rfl, hback, had⟩
    obtain ⟨hag, -, hk⟩ := (hplaced.declared a).1 hback.declared
    exact (hrecorded.complete a hag hk d hback.isRecord had).resolve_right hback.notBefore

/-! ### A film with sequels -/

/-- A list of films. -/
def sequelsName : QualifiedName :=
  .withParameters (.ofFull "lang.taxi.Array") [.ofFull "films.Film"]

def sequelType : SchemaType :=
  .ofKind (.ofFull "films.Film") (.record [⟨"sequels", sequelsName, false, [], none, none⟩])

def sequelGraph : TypeGraph := .ofTypes [sequelType] []

/-- From a list of films, the list is open when the sequels of a film are met, and nothing is
recorded. -/
theorem films_back_reference_unrecorded :
    IsBackReference sequelGraph (Plan.build sequelGraph sequelsName) sequelType sequelType ∧
      (Plan.build sequelGraph sequelsName).recursive = [] := by
  refine ⟨⟨?_, rfl, ?_, ?_⟩, rfl⟩
  · exact List.mem_singleton_self sequelType
  · have hlist : sequelGraph.resolve? sequelsName =
        some (.ofKind sequelsName (.collection sequelType.name)) := rfl
    have hfilm : sequelGraph.resolve? sequelType.name = some sequelType := rfl
    exact ⟨_, List.mem_singleton_self _, _, hlist, .element rfl hfilm (.declared rfl)⟩
  · rintro ⟨i, j, hji, -, hi⟩
    have hlt : i < 1 := hi.lt_length
    omega

end SchemaSnippets.Model

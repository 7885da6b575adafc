import SchemaSnippets.Proofs.Plan.Invariants

/-!
# What a plan declares

A plan declares the records and enumerations that its root leads to, and has a place for each name
among those that resolves to nothing.

* `Placed` : the plan agrees with what is done, and holds nothing that the root does not lead to;
* `Explored` : what was found is done or open, and what a done type mentions is settled;
* `Accounted` : both together, which every step keeps;
* `mem_declarations_build`, `mem_missingNames_build` : what has a place in a plan;
* `declares_of_refers` : a plan is closed under references;
* `build_covers` : the walk ends, and its plan is exact.
-/

namespace SchemaSnippets.Model
open Schema

/-! ## The places of a plan -/

structure Placed (g : TypeGraph) (root : QualifiedName) (w : Walk) : Prop where
  declared : ∀ t, t ∈ w.plan.declarations ↔ t ∈ g.types ∧ t.kind.isDeclared ∧ t.key ∈ w.done
  declared_nodup : (w.plan.declarations.map (·.key)).Nodup
  missing_nodup : w.plan.missingNames.Nodup
  errors : w.plan.errors = w.plan.missingNames.map .unknownType
  missing : ∀ k ∈ w.plan.missingNames,
    ∃ n, g.Reachable root n ∧ g.resolve? n = none ∧ n.key = k
  done : ∀ t ∈ g.types, t.key ∈ w.done → ∃ n, g.Reachable root n ∧ g.resolve? n = some t

namespace Placed
variable {g : TypeGraph} {root : QualifiedName} {w : Walk}

theorem start : Placed g root Walk.start := by
  constructor <;> simp [Walk.start, Plan.declarations, Plan.missingNames]

theorem miss {n : QualifiedName} {r : Option String} (h : Placed g root w)
    (hn : g.resolve? n = none) (hr : g.Reachable root n) :
    Placed g root (w.miss (.unknownType n.key) r) := by
  by_cases hk : n.key ∈ w.plan.missingNames
  · -- a name that has a place already gets no second one
    have heq : w.miss (.unknownType n.key) r = w := if_pos hk
    rwa [heq]
  · have hnames : (w.miss (.unknownType n.key) r).plan.missingNames =
        w.plan.missingNames ++ [n.key] := by
      rw [Walk.missingNames_miss, if_neg (show (SchemaError.unknownType n.key).subject ∉ _ from hk)]
      rfl
    have herrors : (w.miss (.unknownType n.key) r).plan.errors =
        w.plan.errors ++ [.unknownType n.key] := by
      rw [Walk.errors_miss, if_neg (show (SchemaError.unknownType n.key).subject ∉ _ from hk)]
    refine ⟨by simpa using h.declared, by simpa using h.declared_nodup, ?_, ?_, ?_,
      by simpa using h.done⟩
    · rw [hnames, List.nodup_append]
      exact ⟨h.missing_nodup, List.nodup_singleton _, fun k hk' k' hk'' => by
        obtain rfl := List.mem_singleton.1 hk''
        exact fun heq => hk (heq ▸ hk')⟩
    · rw [hnames, herrors, h.errors, List.map_append, List.map_singleton]
    · intro k hk'
      rw [hnames, List.mem_append, List.mem_singleton] at hk'
      rcases hk' with hk' | rfl
      · exact h.missing k hk'
      · exact ⟨n, hr, hn, rfl⟩

theorem meetOpen (h : Placed g root w) (t : SchemaType) (r : Option String) :
    Placed g root (w.meetOpen t r) :=
  ⟨by simpa using h.declared, by simpa using h.declared_nodup, by simpa using h.missing_nodup,
    by simpa using h.errors, by simpa using h.missing, by simpa using h.done⟩

theorem close {n : QualifiedName} {t : SchemaType} (h : Placed g root w)
    (hn : g.resolve? n = some t) (hr : g.Reachable root n) (hd : t.key ∉ w.done) :
    Placed g root (w.close t) := by
  have ht := TypeGraph.mem_types_of_resolve? hn
  refine ⟨fun u => ?_, ?_, by simpa using h.missing_nodup, by simpa using h.errors,
    by simpa using h.missing, fun u hu hk => ?_⟩
  · rw [Walk.declarations_close, List.mem_append, h.declared, Walk.done_close, List.mem_cons]
    constructor
    · rintro (⟨hu, hdecl, hk⟩ | hu)
      · exact ⟨hu, hdecl, Or.inr hk⟩
      · split at hu
        · rename_i hdecl
          obtain rfl := List.mem_singleton.1 hu
          exact ⟨ht, hdecl, Or.inl rfl⟩
        · simp at hu
    · rintro ⟨hu, hdecl, hk | hk⟩
      · obtain rfl := TypeGraph.eq_of_key_eq hu ht hk
        exact Or.inr (by simp [hdecl])
      · exact Or.inl ⟨hu, hdecl, hk⟩
  · rw [Walk.declarations_close]
    split
    · rw [List.map_append, List.nodup_append]
      refine ⟨h.declared_nodup, by simp, fun k hk k' hk' => ?_⟩
      obtain ⟨u, hu, rfl⟩ := List.mem_map.1 hk
      obtain rfl : k' = t.key := by simpa using hk'
      exact fun heq => hd (heq ▸ ((h.declared u).1 hu).2.2)
    · simpa using h.declared_nodup
  · rw [Walk.done_close, List.mem_cons] at hk
    rcases hk with hk | hk
    · obtain rfl := TypeGraph.eq_of_key_eq hu ht hk
      exact ⟨n, hr, hn⟩
    · exact h.done u hu hk

theorem kept : Kept g root fun _ _ w => Placed g root w where
  miss hs hn h := h.miss hn hs.reachable
  meet _ _ _ _ h := h.meetOpen _ _
  enter _ _ _ _ _ h := h
  close hs hn _ _ ha _ h := h.close hn hs.reachable (ha _ (List.mem_cons_self ..))

end Placed

/-! ## The types that were found -/

structure Explored (g : TypeGraph) (found : List Discovery) (path : List SchemaType) (w : Walk) :
    Prop where
  types : ∀ d ∈ found, d.type ∈ g.types
  nodup : (found.map (·.type)).Nodup
  done_or_open : ∀ d ∈ found, d.type.key ∈ w.done ∨ d.type ∈ path
  found_of_done : ∀ t ∈ g.types, t.key ∈ w.done → ∃ r, ⟨r, t⟩ ∈ found
  settled : ∀ d ∈ found, d.type.key ∈ w.done → ∀ m ∈ d.type.kind.references,
    Settled g path (referrerWithin d.type d.referrer) w m

namespace Explored
variable {g : TypeGraph} {root : QualifiedName} {found : List Discovery} {path : List SchemaType}
  {w w' : Walk}

theorem start : Explored g [] [] Walk.start := by
  constructor <;> simp [Walk.start]

/-- A step that finishes nothing changes nothing about what was found. -/
theorem of_done_eq (h : Explored g found path w) (hw : Grows w w') (hd : w'.done = w.done) :
    Explored g found path w' := by
  refine ⟨h.types, h.nodup, by rw [hd]; exact h.done_or_open, by rw [hd]; exact h.found_of_done, ?_⟩
  intro d hdf hk m hm
  rw [hd] at hk
  exact (h.settled d hdf hk m hm).grows hw

theorem eq_of_type_eq (h : Explored g found path w) {d d' : Discovery} (hd : d ∈ found)
    (hd' : d' ∈ found) (heq : d.type = d'.type) : d = d' :=
  List.inj_on_of_nodup_map h.nodup hd hd' heq

theorem enter {t : SchemaType} (h : Explored g found path w) (ht : t ∈ g.types)
    (hd : t.key ∉ w.done) (hp : t ∉ path) (r : Option String) :
    Explored g (found ++ [⟨r, t⟩]) (t :: path) w := by
  have hnew : ∀ d ∈ found, d.type ≠ t := by
    rintro d hdf rfl
    exact (h.done_or_open d hdf).elim hd hp
  refine ⟨?_, ?_, ?_, fun u hu hk => ?_, ?_⟩
  · simpa [or_imp, forall_and, ht] using h.types
  · rw [List.map_append, List.nodup_append]
    refine ⟨h.nodup, by simp, fun u hu u' hu' => ?_⟩
    obtain ⟨d, hdf, rfl⟩ := List.mem_map.1 hu
    obtain rfl : u' = t := by simpa using hu'
    exact hnew d hdf
  · intro d hdf
    rcases List.mem_append.1 hdf with hdf | hdf
    · exact (h.done_or_open d hdf).imp_right (List.mem_cons_of_mem _)
    · obtain rfl := List.mem_singleton.1 hdf
      exact Or.inr (List.mem_cons_self ..)
  · obtain ⟨r', hr'⟩ := h.found_of_done u hu hk
    exact ⟨r', List.mem_append_left _ hr'⟩
  · intro d hdf hk m hm
    rcases List.mem_append.1 hdf with hdf | hdf
    · exact (h.settled d hdf hk m hm).cons t
    · obtain rfl := List.mem_singleton.1 hdf
      exact absurd hk hd

theorem close {r : Option String} {t : SchemaType} (h : Explored g found (t :: path) w)
    (hf : ⟨r, t⟩ ∈ found)
    (hs : ∀ m ∈ t.kind.references, Settled g (t :: path) (referrerWithin t r) w m) :
    Explored g found path (w.close t) := by
  have ht : t ∈ g.types := h.types _ hf
  refine ⟨h.types, h.nodup, fun d hdf => ?_, fun u hu hk => ?_, fun d hdf hk m hm => ?_⟩
  · rw [Walk.done_close, List.mem_cons]
    rcases h.done_or_open d hdf with hk | hp
    · exact Or.inl (Or.inr hk)
    · rcases List.mem_cons.1 hp with heq | hp
      · exact Or.inl (Or.inl (congrArg SchemaType.key heq))
      · exact Or.inr hp
  · rw [Walk.done_close, List.mem_cons] at hk
    rcases hk with hk | hk
    · obtain rfl := TypeGraph.eq_of_key_eq hu ht hk
      exact ⟨r, hf⟩
    · exact h.found_of_done u hu hk
  · rw [Walk.done_close, List.mem_cons] at hk
    rcases hk with hk | hk
    · have htype := TypeGraph.eq_of_key_eq (h.types d hdf) ht hk
      obtain rfl := h.eq_of_type_eq hdf hf htype
      exact (hs m hm).close
    · exact (h.settled d hdf hk m hm).close

theorem kept : Kept g root (Explored g) where
  miss _ _ h := h.of_done_eq (Grows.miss _ _ _) (Walk.done_miss _ _ _)
  meet _ _ _ _ h := h.of_done_eq (Grows.meetOpen _ _ _) (Walk.done_meetOpen _ _ _)
  enter _ hn hd hp _ h := h.enter (TypeGraph.mem_types_of_resolve? hn) hd hp _
  close _ _ hf _ _ hs h := h.close hf hs

/-- When nothing is open any more, what a visited name leads to is done. -/
theorem settled_of_reachable (h : Explored g found [] w) {n : QualifiedName} {r : Option String}
    (hroot : Settled g [] r w root) (hn : g.Reachable root n) : ∃ r, Settled g [] r w n := by
  have hstep : ∀ {m m' t}, (∃ r, Settled g [] r w m) → g.resolve? m = some t →
      m' ∈ t.kind.references → ∃ r, Settled g [] r w m' := by
    rintro m m' t ⟨r, hm⟩ ht hm'
    have hdone : t.key ∈ w.done := by simpa using hm.met t ht
    obtain ⟨r', hr'⟩ := h.found_of_done t (TypeGraph.mem_types_of_resolve? ht) hdone
    exact ⟨_, h.settled _ hr' hdone m' hm'⟩
  induction hn with
  | root => exact ⟨r, hroot⟩
  | element _ ht he ih => exact hstep ih ht (by simp [TypeKind.references, he])
  | member _ ht ha ih =>
      exact hstep ih ht (List.mem_append_right _ (List.mem_map_of_mem ha))

end Explored

/-- What is known between any two steps of a walk. -/
structure Accounted (g : TypeGraph) (root : QualifiedName) (found : List Discovery)
    (path : List SchemaType) (w : Walk) : Prop where
  placed : Placed g root w
  explored : Explored g found path w

namespace Accounted
variable {g : TypeGraph} {root : QualifiedName}

theorem start : Accounted g root [] [] Walk.start :=
  ⟨Placed.start, Explored.start⟩

theorem kept : Kept g root (Accounted g root) where
  miss hs hn h := ⟨Placed.kept.miss hs hn h.placed, Explored.kept.miss hs hn h.explored⟩
  meet hs hn hp ha h :=
    ⟨Placed.kept.meet hs hn hp ha h.placed, Explored.kept.meet hs hn hp ha h.explored⟩
  enter hs hn hd hp ha h :=
    ⟨Placed.kept.enter hs hn hd hp ha h.placed, Explored.kept.enter hs hn hd hp ha h.explored⟩
  close hs hn hf hp ha hset h :=
    ⟨Placed.kept.close hs hn hf hp ha hset h.placed,
      Explored.kept.close hs hn hf hp ha hset h.explored⟩

end Accounted

/-! ## Plans -/

section Plans
variable {g : TypeGraph} {root : QualifiedName}

/-- A plan comes from a walk that has settled all names that the root leads to. -/
theorem exists_settled_build (g : TypeGraph) (root : QualifiedName) :
    ∃ w : Walk, w.plan = Plan.build g root ∧ Placed g root w ∧
      ∀ n, g.Reachable root n → ∃ r, Settled g [] r w n := by
  obtain ⟨found, w, h, hplan⟩ := visits_build g root
  have haccounted := h.keeps_whole Accounted.kept Accounted.start
  have hroot := h.settled root (List.mem_singleton_self _)
  refine ⟨w, hplan, haccounted.placed, fun n hn => ?_⟩
  exact haccounted.explored.settled_of_reachable hroot hn

theorem mem_declarations_build {t : SchemaType} :
    t ∈ (Plan.build g root).declarations ↔
      t.kind.isDeclared ∧ ∃ n, g.Reachable root n ∧ g.resolve? n = some t := by
  obtain ⟨w, hplan, hplaced, hsettled⟩ := exists_settled_build g root
  rw [← hplan, hplaced.declared]
  constructor
  · rintro ⟨ht, hdecl, hk⟩
    exact ⟨hdecl, hplaced.done t ht hk⟩
  · rintro ⟨hdecl, n, hn, ht⟩
    obtain ⟨r, hs⟩ := hsettled n hn
    exact ⟨TypeGraph.mem_types_of_resolve? ht, hdecl, by simpa using hs.met t ht⟩

theorem nodup_declarations_build : ((Plan.build g root).declarations.map (·.key)).Nodup := by
  obtain ⟨w, hplan, hplaced, -⟩ := exists_settled_build g root
  rw [← hplan]
  exact hplaced.declared_nodup

theorem mem_missingNames_build {k : String} :
    k ∈ (Plan.build g root).missingNames ↔
      ∃ n, g.Reachable root n ∧ g.resolve? n = none ∧ n.key = k := by
  obtain ⟨w, hplan, hplaced, hsettled⟩ := exists_settled_build g root
  rw [← hplan]
  constructor
  · exact hplaced.missing k
  · rintro ⟨n, hn, hnone, rfl⟩
    obtain ⟨r, hs⟩ := hsettled n hn
    exact hs.missing hnone

/-- What a declaration refers to is declared. -/
theorem declares_of_refers {a d : SchemaType} (ha : a ∈ (Plan.build g root).declarations)
    (h : g.Refers a d) : d ∈ (Plan.build g root).declarations := by
  obtain ⟨-, n, hn, hna⟩ := mem_declarations_build.1 ha
  have hdecl := h.isDeclared
  obtain ⟨m, hm, u, hu, hud⟩ := h
  exact mem_declarations_build.2 ⟨hdecl, (hn.member hna hm).of_unwraps hu hud⟩

end Plans

/-- The walk ends, with any fuel above the number of types and without a bound on its depth. Its
plan declares the records and enumerations that reachable names resolve to, has a place for the
reachable names that resolve to nothing, each once, and reports these in their order. -/
theorem build_covers (g : TypeGraph) (root : QualifiedName) :
    (∃ found w, Visits g [] none [root] Walk.start found w ∧ w.plan = Plan.build g root) ∧
    (∀ more, (visit g (g.types.length + 1 + more) [] none root Walk.start).plan =
      Plan.build g root) ∧
    (∀ t, t ∈ (Plan.build g root).declarations ↔
      t.kind.isDeclared ∧ ∃ n, g.Reachable root n ∧ g.resolve? n = some t) ∧
    ((Plan.build g root).declarations.map (·.key)).Nodup ∧
    (∀ k, k ∈ (Plan.build g root).missingNames ↔
      ∃ n, g.Reachable root n ∧ g.resolve? n = none ∧ n.key = k) ∧
    (Plan.build g root).missingNames.Nodup ∧
    (Plan.build g root).errors = (Plan.build g root).missingNames.map .unknownType := by
  obtain ⟨w, hplan, hplaced, -⟩ := exists_settled_build g root
  refine ⟨visits_build g root, fun more => ?_, fun _ => mem_declarations_build,
    nodup_declarations_build, fun _ => mem_missingNames_build, ?_⟩
  · obtain ⟨found, w, h, hw⟩ := visits_build g root
    have hfuel : (unopened g []).length < g.types.length + 1 + more := by
      have := length_unopened_le g []
      omega
    obtain ⟨found', h'⟩ := visits_visit [] (by simp) hfuel none root Walk.start
    rw [← hw, (h.unique h').2]
    rfl
  · rw [← hplan]
    exact ⟨hplaced.missing_nodup, hplaced.errors⟩

end SchemaSnippets.Model

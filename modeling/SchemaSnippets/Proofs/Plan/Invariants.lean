import SchemaSnippets.Proofs.Plan.Traversal

/-!
# What a walk keeps

* `Grows w w'` : nothing that the walk has noted is lost;
* `Settled g path r w n` : the name `n`, visited on behalf of `r`, is accounted for in `w`
  (`Visits.settled`);
* `Standing g root found path r n` : the walk from `root` may come to `n` with the types of `path`
  open, on behalf of `r`; then every open type leads to what `n` means (`Standing.next`);
* `Visits.keeps` : what the four kinds of steps keep, the walk keeps. An invariant speaks of the
  types found so far, of the types that are open and of the walk.
-/

namespace SchemaSnippets.Model
open Schema Relation

/-! ## Growth -/

structure Grows (w w' : Walk) : Prop where
  done : ∀ k ∈ w.done, k ∈ w'.done
  missing : ∀ k ∈ w.plan.missingNames, k ∈ w'.plan.missingNames
  recursive : ∀ b ∈ w.plan.recursive, b ∈ w'.plan.recursive

namespace Grows

theorem refl (w : Walk) : Grows w w := ⟨fun _ h => h, fun _ h => h, fun _ h => h⟩

theorem trans {w₁ w₂ w₃ : Walk} (h : Grows w₁ w₂) (h' : Grows w₂ w₃) : Grows w₁ w₃ :=
  ⟨fun k hk => h'.done k (h.done k hk), fun k hk => h'.missing k (h.missing k hk),
    fun b hb => h'.recursive b (h.recursive b hb)⟩

theorem miss (w : Walk) (e : SchemaError) (r : Option String) : Grows w (w.miss e r) := by
  refine ⟨by simp, fun k hk => ?_, by simp⟩
  rw [Walk.missingNames_miss]
  exact List.mem_append_left _ hk

theorem meetOpen (w : Walk) (t : SchemaType) (r : Option String) : Grows w (w.meetOpen t r) :=
  ⟨by simp, by simp, fun _ hb => Walk.mem_recursive_meetOpen.2 (Or.inl hb)⟩

theorem close (w : Walk) (t : SchemaType) : Grows w (w.close t) := by
  refine ⟨fun k hk => ?_, by simp, by simp⟩
  rw [Walk.done_close]
  exact List.mem_cons_of_mem _ hk

end Grows

theorem Visits.grows {g : TypeGraph} {path : List SchemaType} {r : Option String}
    {ns : List QualifiedName} {w w' : Walk} {found : List Discovery}
    (h : Visits g path r ns w found w') : Grows w w' := by
  induction h with
  | nil => exact Grows.refl _
  | missing _ _ ih => exact (Grows.miss _ _ _).trans ih
  | done _ _ _ ih => exact ih
  | again _ _ _ _ ih => exact (Grows.meetOpen _ _ _).trans ih
  | enter _ _ _ _ _ ih₁ ih₂ => exact (ih₁.trans (Grows.close _ _)).trans ih₂

/-! ## Names that were visited -/

/-- The name is accounted for: a missing one has its place, and a type is done or still open, in
which case a record has been recorded for the declaration that refers back to it. -/
structure Settled (g : TypeGraph) (path : List SchemaType) (r : Option String) (w : Walk)
    (n : QualifiedName) : Prop where
  missing : g.resolve? n = none → n.key ∈ w.plan.missingNames
  met : ∀ t, g.resolve? n = some t → t.key ∈ w.done ∨
    (t ∈ path ∧ (t.kind.isRecord → ∀ k, r = some k → ⟨k, t.key⟩ ∈ w.plan.recursive))

namespace Settled
variable {g : TypeGraph} {path : List SchemaType} {r : Option String} {w w' : Walk}
  {n : QualifiedName}

theorem grows (h : Settled g path r w n) (hw : Grows w w') : Settled g path r w' n := by
  refine ⟨fun hn => hw.missing _ (h.missing hn), fun t ht => ?_⟩
  rcases h.met t ht with hd | ⟨hp, hr⟩
  · exact Or.inl (hw.done _ hd)
  · exact Or.inr ⟨hp, fun hrec k hk => hw.recursive _ (hr hrec k hk)⟩

theorem cons (t : SchemaType) (h : Settled g path r w n) : Settled g (t :: path) r w n := by
  refine ⟨h.missing, fun u hu => ?_⟩
  rcases h.met u hu with hd | ⟨hp, hr⟩
  · exact Or.inl hd
  · exact Or.inr ⟨List.mem_cons_of_mem _ hp, hr⟩

/-- An open type that is closed is done from then on. -/
theorem close {t : SchemaType} (h : Settled g (t :: path) r w n) :
    Settled g path r (w.close t) n := by
  have h' := h.grows (Grows.close w t)
  refine ⟨h'.missing, fun u hu => ?_⟩
  rcases h'.met u hu with hd | ⟨hp, hr⟩
  · exact Or.inl hd
  · rcases List.mem_cons.1 hp with rfl | hp
    · exact Or.inl (by simp)
    · exact Or.inr ⟨hp, hr⟩

end Settled

theorem Visits.settled {g : TypeGraph} {path : List SchemaType} {r : Option String}
    {ns : List QualifiedName} {w w' : Walk} {found : List Discovery}
    (h : Visits g path r ns w found w') : ∀ n ∈ ns, Settled g path r w' n := by
  induction h with
  | nil => simp
  | @missing path r n ns w found w' hn rest ih =>
      have hmiss : n.key ∈ (w.miss (.unknownType n.key) r).plan.missingNames := by
        rw [Walk.missingNames_miss]
        by_cases hk : n.key ∈ w.plan.missingNames <;> simp [SchemaError.subject, hk]
      have hhead : Settled g path r (w.miss (.unknownType n.key) r) n :=
        ⟨fun _ => hmiss, fun t ht => by simp [hn] at ht⟩
      exact List.forall_mem_cons.2 ⟨hhead.grows rest.grows, ih⟩
  | @done path r n ns t w found w' hn hd rest ih =>
      have hhead : Settled g path r w n := by
        refine ⟨fun h => by simp [hn] at h, fun u hu => ?_⟩
        obtain rfl := Option.some.inj (hn.symm.trans hu)
        exact Or.inl hd
      exact List.forall_mem_cons.2 ⟨hhead.grows rest.grows, ih⟩
  | @again path r n ns t w found w' hn hd hp rest ih =>
      have hhead : Settled g path r (w.meetOpen t r) n := by
        refine ⟨fun h => by simp [hn] at h, fun u hu => ?_⟩
        obtain rfl := Option.some.inj (hn.symm.trans hu)
        exact Or.inr ⟨hp, fun hrec k hk => Walk.mem_recursive_meetOpen.2 (Or.inr ⟨hrec, hk, rfl⟩)⟩
      exact List.forall_mem_cons.2 ⟨hhead.grows rest.grows, ih⟩
  | @enter path r n ns t w found₁ w₁ found₂ w' hn hd hp inner rest _ ih =>
      have hhead : Settled g path r (w₁.close t) n := by
        refine ⟨fun h => by simp [hn] at h, fun u hu => ?_⟩
        obtain rfl := Option.some.inj (hn.symm.trans hu)
        exact Or.inl (by simp)
      exact List.forall_mem_cons.2 ⟨hhead.grows rest.grows, ih⟩

/-! ## Where a walk may stand -/

/-- The walk from `root` may come to the name with these types open, the last one first, on behalf
of this declaration. All open types have been found. -/
inductive Standing (g : TypeGraph) (root : QualifiedName) (found : List Discovery) :
    List SchemaType → Option String → QualifiedName → Prop where
  | root : Standing g root found [] none root
  | within {path r n t m} (h : Standing g root found path r n) (hn : g.resolve? n = some t)
      (hp : t ∉ path) (hf : ⟨r, t⟩ ∈ found) (hm : m ∈ t.kind.references) :
      Standing g root found (t :: path) (referrerWithin t r) m

namespace Standing
variable {g : TypeGraph} {root : QualifiedName} {found found' : List Discovery}
  {path : List SchemaType} {r : Option String} {n : QualifiedName}

theorem mono (h : Standing g root found path r n) (hf : ∀ d ∈ found, d ∈ found') :
    Standing g root found' path r n := by
  induction h with
  | root => exact .root
  | within _ hn hp hd hm ih => exact .within ih hn hp (hf _ hd) hm

theorem mem_types (h : Standing g root found path r n) : ∀ t ∈ path, t ∈ g.types := by
  induction h with
  | root => simp
  | within _ hn _ _ _ ih =>
      exact List.forall_mem_cons.2 ⟨TypeGraph.mem_types_of_resolve? hn, ih⟩

theorem reachable (h : Standing g root found path r n) : g.Reachable root n := by
  induction h with
  | root => exact .root
  | within _ hn _ _ hm ih => exact ih.of_mem_references hn hm

/-- Every open type goes on to what the name means. -/
theorem next (h : Standing g root found path r n) {t : SchemaType} (ht : g.resolve? n = some t) :
    ∀ u ∈ t :: path, ReflTransGen g.Next u t := by
  induction h generalizing t with
  | root => simpa using ReflTransGen.refl
  | within _ hn _ _ hm ih =>
      refine List.forall_mem_cons.2 ⟨.refl, fun u hu => ?_⟩
      exact (ih hn u hu).tail ⟨_, hm, ht⟩

end Standing

/-! ## Steps and walks -/

/-- No open type is done. -/
def Apart (path : List SchemaType) (w : Walk) : Prop :=
  ∀ t ∈ path, t.key ∉ w.done

/-- What holds of the types found, the types open and the walk is kept by every step. When a type
is closed, all that it mentions is settled. -/
structure Kept (g : TypeGraph) (root : QualifiedName)
    (I : List Discovery → List SchemaType → Walk → Prop) : Prop where
  miss : ∀ {found path r n w}, Standing g root found path r n → g.resolve? n = none →
    I found path w → I found path (w.miss (.unknownType n.key) r)
  meet : ∀ {found path r n t w}, Standing g root found path r n → g.resolve? n = some t →
    t ∈ path → Apart path w → I found path w → I found path (w.meetOpen t r)
  enter : ∀ {found path r n t w}, Standing g root found path r n → g.resolve? n = some t →
    t.key ∉ w.done → t ∉ path → Apart path w → I found path w →
    I (found ++ [⟨r, t⟩]) (t :: path) w
  close : ∀ {found path r n t w}, Standing g root found path r n → g.resolve? n = some t →
    ⟨r, t⟩ ∈ found → t ∉ path → Apart (t :: path) w →
    (∀ m ∈ t.kind.references, Settled g (t :: path) (referrerWithin t r) w m) →
    I found (t :: path) w → I found path (w.close t)

theorem Apart.close {g : TypeGraph} {path : List SchemaType} {t : SchemaType} {w : Walk}
    (h : Apart (t :: path) w) (hpath : ∀ u ∈ t :: path, u ∈ g.types) (hp : t ∉ path) :
    Apart path (w.close t) := by
  intro u hu hk
  rw [Walk.done_close, List.mem_cons] at hk
  rcases hk with hkey | hk
  · have ht := hpath t (List.mem_cons_self ..)
    obtain rfl := TypeGraph.eq_of_key_eq (hpath u (List.mem_cons_of_mem _ hu)) ht hkey
    exact hp hu
  · exact h u (List.mem_cons_of_mem _ hu) hk

/-- The walk keeps what its steps keep. -/
theorem Visits.keeps {g : TypeGraph} {root : QualifiedName}
    {I : List Discovery → List SchemaType → Walk → Prop} (hI : Kept g root I)
    {path : List SchemaType} {r : Option String} {ns : List QualifiedName} {w w' : Walk}
    {found new : List Discovery} (h : Visits g path r ns w new w')
    (hs : ∀ n ∈ ns, Standing g root found path r n) (ha : Apart path w) (hw : I found path w) :
    Apart path w' ∧ I (found ++ new) path w' := by
  induction h generalizing found with
  | nil => exact ⟨ha, by simpa using hw⟩
  | missing hn _ ih =>
      obtain ⟨hhead, htail⟩ := List.forall_mem_cons.1 hs
      exact ih htail (by simpa [Apart] using ha) (hI.miss hhead hn hw)
  | done _ _ _ ih => exact ih (List.forall_mem_cons.1 hs).2 ha hw
  | again hn _ hp _ ih =>
      obtain ⟨hhead, htail⟩ := List.forall_mem_cons.1 hs
      exact ih htail (by simpa [Apart] using ha) (hI.meet hhead hn hp ha hw)
  | @enter path r n ns t w found₁ w₁ found₂ w' hn hd hp inner _ ih₁ ih₂ =>
      obtain ⟨hhead, htail⟩ := List.forall_mem_cons.1 hs
      have hgrow : ∀ d ∈ found, d ∈ found ++ [⟨r, t⟩] := fun d hdm => List.mem_append_left _ hdm
      have hgrow' : ∀ d ∈ found ++ [⟨r, t⟩], d ∈ found ++ [⟨r, t⟩] ++ found₁ :=
        fun d hdm => List.mem_append_left _ hdm
      have hself : ⟨r, t⟩ ∈ found ++ [⟨r, t⟩] := List.mem_append_right _ (List.mem_singleton_self _)
      -- the type is open while its names are visited
      obtain ⟨ha₁, hw₁⟩ := ih₁ (fun m hm => .within (hhead.mono hgrow) hn hp hself hm)
        (List.forall_mem_cons.2 ⟨hd, ha⟩) (hI.enter hhead hn hd hp ha hw)
      have hhead' := (hhead.mono hgrow).mono hgrow'
      have htypes : ∀ u ∈ t :: path, u ∈ g.types :=
        List.forall_mem_cons.2 ⟨TypeGraph.mem_types_of_resolve? hn, hhead.mem_types⟩
      have hclose := hI.close hhead' hn (hgrow' _ hself) hp ha₁ inner.settled hw₁
      obtain ⟨ha', hw'⟩ := ih₂ (fun m hm => ((htail m hm).mono hgrow).mono hgrow')
        (ha₁.close htypes hp) hclose
      exact ⟨ha', by simpa using hw'⟩

/-- What the steps keep holds of the outcome of a whole walk, if it holds at the start. -/
theorem Visits.keeps_whole {g : TypeGraph} {root : QualifiedName}
    {I : List Discovery → List SchemaType → Walk → Prop} (hI : Kept g root I)
    (hstart : I [] [] Walk.start) {found : List Discovery} {w : Walk}
    (h : Visits g [] none [root] Walk.start found w) : I found [] w := by
  have hs : ∀ n ∈ [root], Standing g root [] [] none n := by simpa using Standing.root
  simpa using (h.keeps hI hs (by simp [Apart]) hstart).2

end SchemaSnippets.Model

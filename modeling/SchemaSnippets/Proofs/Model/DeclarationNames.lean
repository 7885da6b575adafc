import SchemaSnippets.Model.DeclarationNames
import SchemaSnippets.Proofs.Data.Fresh

/-!
# Names tell declarations apart

Declarations get their names one after the other, and a name that was given is not given again.

* `Assigned c shorts ns a` : what holds when the declarations `ns` have their names;
  `Assigned.assign` : the next declaration gets a name that no other one has;
* `get?_ofNames_eq_some_iff` : each declaration has a name;
* `get?_ofNames_inj` : no two declarations have the same name.
-/

namespace SchemaSnippets.Model
open Data Schema Target

/-! ## Giving names -/

namespace DeclarationNames
variable {c : NameRules} {shorts : List String} {ns : List QualifiedName} {a : Assignment}
  {n : QualifiedName}

theorem mem_of_isUnshared {s : String} (h : isUnshared shorts s) : s ∈ shorts := by
  unfold isUnshared at h
  rw [beq_iff_eq] at h
  apply List.count_pos_iff.1
  omega

/-- The declarations `ns` have names, all different. Whatever was given is taken, and so are the
short names that nothing shares, which are given to none but their own declarations. -/
structure Assigned (c : NameRules) (shorts : List String) (ns : List QualifiedName)
    (a : Assignment) : Prop where
  unshared : ∀ s ∈ shorts, isUnshared shorts s → s ∈ a.taken
  keys : ∀ k, (∃ x, a.names.lookup k = some x) ↔ k ∈ ns.map (·.key)
  taken : ∀ k x, a.names.lookup k = some x → x ∈ a.taken
  own : ∀ k x, a.names.lookup k = some x → isUnshared shorts x → x ∈ ns.map (shortName c)
  inj : ∀ k k' x, a.names.lookup k = some x → a.names.lookup k' = some x → k = k'

namespace Assigned

theorem start : Assigned c shorts [] ⟨shorts.filter (isUnshared shorts), []⟩ := by
  refine ⟨fun s hs hu => List.mem_filter.2 ⟨hs, hu⟩, ?_, ?_, ?_, ?_⟩ <;> simp

/-- A further declaration gets a name that was not given. -/
theorem set (h : Assigned c shorts ns a) {x : String} {taken : List String}
    (hnew : ∀ k, a.names.lookup k ≠ some x) (htaken : ∀ y ∈ a.taken, y ∈ taken) (hx : x ∈ taken)
    (hown : isUnshared shorts x → x = shortName c n) :
    Assigned c shorts (ns ++ [n]) ⟨taken, setEntry n.key x a.names⟩ := by
  have hlookup : ∀ {k y}, (setEntry n.key x a.names).lookup k = some y →
      (k = n.key ∧ y = x) ∨ a.names.lookup k = some y := by
    intro k y hk
    rw [lookup_setEntry] at hk
    split at hk
    · rename_i heq
      exact Or.inl ⟨heq, (Option.some.inj hk).symm⟩
    · exact Or.inr hk
  refine ⟨fun s hs hu => htaken s (h.unshared s hs hu), fun k => ?_, fun k y hk => ?_,
    fun k y hk hu => ?_, fun k k' y hk hk' => ?_⟩
  · rw [List.map_append, List.mem_append, ← h.keys, List.map_singleton, List.mem_singleton,
      lookup_setEntry]
    split
    · rename_i heq
      simp [heq]
    · rename_i hne
      simp [hne]
  · rcases hlookup hk with ⟨-, rfl⟩ | hk
    · exact hx
    · exact htaken y (h.taken k y hk)
  · rw [List.map_append, List.mem_append]
    rcases hlookup hk with ⟨-, rfl⟩ | hk
    · exact Or.inr (by simp [hown hu])
    · exact Or.inl (h.own k y hk hu)
  · rcases hlookup hk with ⟨rfl, rfl⟩ | hold
    · rcases hlookup hk' with ⟨rfl, -⟩ | hold'
      · rfl
      · exact absurd hold' (hnew k')
    · rcases hlookup hk' with ⟨rfl, rfl⟩ | hold'
      · exact absurd hold (hnew k)
      · exact h.inj k k' y hold hold'

theorem assign (h : Assigned c shorts ns a) {rest : List QualifiedName}
    (hs : shorts = (ns ++ n :: rest).map (shortName c)) :
    Assigned c shorts (ns ++ [n]) (a.assign c shorts n) := by
  have hmem : shortName c n ∈ shorts := by simp [hs]
  unfold Assignment.assign
  by_cases hu : isUnshared shorts (shortName c n)
  · rw [if_pos hu]
    refine h.set (fun k hk => ?_) (fun _ hy => hy) (h.unshared _ hmem hu) fun _ => rfl
    -- the short name would belong to two declarations
    have hcount : 0 < (ns.map (shortName c)).count (shortName c n) :=
      List.count_pos_iff.2 (h.own k _ hk hu)
    have hone : shorts.count (shortName c n) = 1 := by simpa [isUnshared] using hu
    rw [hs, List.map_append, List.map_cons, List.count_append, List.count_cons_self] at hone
    omega
  · rw [if_neg hu]
    have hfree := freshName_notMem (numbered_injective (scopedName c n)) a.taken (scopedName c n)
    refine h.set (fun k hk => hfree (h.taken k _ hk)) (fun _ hy => List.mem_cons_of_mem _ hy)
      (List.mem_cons_self ..) fun hu' => ?_
    exact absurd (h.unshared _ (mem_of_isUnshared hu') hu') hfree

theorem assignAll (h : Assigned c shorts ns a) {rest : List QualifiedName}
    (hs : shorts = (ns ++ rest).map (shortName c)) :
    Assigned c shorts (ns ++ rest) (rest.foldl (Assignment.assign c shorts) a) := by
  induction rest generalizing ns a with
  | nil => simpa using h
  | cons n rest ih =>
      have hs' : shorts = ((ns ++ [n]) ++ rest).map (shortName c) := by simpa using hs
      simpa using ih (h.assign hs) hs'

end Assigned

theorem assigned_ofNames (c : NameRules) (ns : List QualifiedName) :
    ∃ a, Assigned c (ns.map (shortName c)) ns a ∧ (ofNames c ns).names = a.names :=
  ⟨_, Assigned.start.assignAll rfl, rfl⟩

/-- The declarations that have a name are those that were to get one. -/
theorem get?_ofNames_eq_some_iff (c : NameRules) (ns : List QualifiedName) (k : String) :
    (∃ x, (ofNames c ns).get? k = some x) ↔ k ∈ ns.map (·.key) := by
  obtain ⟨a, ha, hnames⟩ := assigned_ofNames c ns
  rw [get?, hnames]
  exact ha.keys k

theorem get?_ofNames_inj (c : NameRules) (ns : List QualifiedName) {k k' x : String}
    (h : (ofNames c ns).get? k = some x) (h' : (ofNames c ns).get? k' = some x) : k = k' := by
  obtain ⟨a, ha, hnames⟩ := assigned_ofNames c ns
  rw [get?, hnames] at h h'
  exact ha.inj k k' x h h'

end DeclarationNames

end SchemaSnippets.Model

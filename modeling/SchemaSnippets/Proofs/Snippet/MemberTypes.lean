import SchemaSnippets.Proofs.Schema.Ways
import SchemaSnippets.Snippet.Model

/-!
# Types of members and the ways behind them

The type of a member repeats the collections and streams on the way through them, and inside these
stands what the end of the way is typed as.

* `MemberType.notes` : the notes of what is untyped;
* `TypeGraph.innermost` : the type at the end of the way; `TypeGraph.typeError?` : what is wrong with it;
* `TypeGraph.Fails`, `TypeGraph.Untypable` : why members of a name have no type, something being wrong or
  nothing;
* `typeOf_eq` : the type and the findings of a member, from the way; `findings_endType` : an error at
  the end is what is reported; `mem_notes_memberType_one` : what is noted there.
-/

namespace SchemaSnippets.Model

/-- The notes of the untyped parts of a type, at any depth. -/
def MemberType.notes : MemberType → List (Option String)
  | .primitive _ => []
  | .optional t => t.notes
  | .array t => t.notes
  | .stream t => t.notes
  | .recursive t => t.notes
  | .named _ => []
  | .untyped note => [note]

end SchemaSnippets.Model

namespace SchemaSnippets.Schema.TypeGraph

/-- The end of the way through collections and streams, the types of `seen` being behind it. -/
def innermostFrom (g : TypeGraph) : Nat → List String → SchemaType → SchemaType
  | 0, _, t => t
  | fuel + 1, seen, t =>
    if t.key ∈ seen then t
    else
      match g.elementOf? t with
      | some u => g.innermostFrom fuel (t.key :: seen) u
      | none => t

/-- The type inside all collections and streams. -/
def innermost (g : TypeGraph) (t : SchemaType) : SchemaType :=
  g.innermostFrom (g.types.length + 2) [] t

/-- What went wrong, if anything did. -/
def errorOf? {α : Type} : Except SchemaError α → Option SchemaError
  | .error e => some e
  | .ok _ => none

/-- Why a type cannot be written: a scalar has no primitive, or an element does not resolve. -/
def typeError? (g : TypeGraph) (t : SchemaType) : Option SchemaError :=
  match t.kind with
  | .scalar _ => errorOf? (g.primitiveOf t)
  | .collection e => errorOf? (g.resolve e)
  | .stream e => errorOf? (g.resolve e)
  | _ => none

variable {g : TypeGraph} {met passed : List SchemaType} {t u : SchemaType} {e : WayEnd} {fuel : Nat}

theorem innermostFrom_of_way (h : Way g.elementOf? met t passed e) (ht : t ∈ g.types)
    (hmet : ∀ u ∈ met, u ∈ g.types) (hfuel : passed.length < fuel) :
    g.innermostFrom fuel (met.map (·.key)) t = e.type := by
  induction h generalizing fuel with
  | last hm hn =>
      obtain ⟨fuel, rfl⟩ := Nat.exists_eq_succ_of_ne_zero (Nat.ne_zero_of_lt hfuel)
      rw [innermostFrom, if_neg fun hin => hm ((key_mem_iff ht hmet).1 hin), hn]
      rfl
  | again hm =>
      obtain ⟨fuel, rfl⟩ := Nat.exists_eq_succ_of_ne_zero (Nat.ne_zero_of_lt hfuel)
      rw [innermostFrom, if_pos ((key_mem_iff ht hmet).2 hm)]
      rfl
  | step hm hn _ ih =>
      obtain ⟨fuel, rfl⟩ := Nat.exists_eq_succ_of_ne_zero (Nat.ne_zero_of_lt hfuel)
      rw [innermostFrom, if_neg fun hin => hm ((key_mem_iff ht hmet).1 hin), hn]
      exact ih (mem_types_of_elementOf? hn) (List.forall_mem_cons.2 ⟨ht, hmet⟩)
        (Nat.lt_of_succ_lt_succ hfuel)

theorem innermost_eq (ht : t ∈ g.types) (h : Way g.elementOf? [] t passed e) :
    g.innermost t = e.type := by
  have hlen := h.length_le (fun _ _ _ => mem_types_of_elementOf?) ht
  exact innermostFrom_of_way h ht (by simp) (by omega)

theorem errorOf?_eq_some {α : Type} {x : Except SchemaError α} {err : SchemaError} :
    errorOf? x = some err ↔ x = .error err := by
  cases x <;> simp [errorOf?]

theorem typeError?_eq_some_of_isScalar {err : SchemaError} (h : t.kind.isScalar) :
    g.typeError? t = some err ↔ g.primitiveOf t = .error err := by
  cases hk : t.kind <;> simp_all [typeError?, TypeKind.isScalar, errorOf?_eq_some]

/-- Nothing is wrong with what wraps a type that resolves. -/
theorem typeError?_of_elementOf? {u : SchemaType} (h : g.elementOf? t = some u) :
    g.typeError? t = none := by
  obtain ⟨n, hn, hu⟩ := elementOf?_eq_some.1 h
  cases hk : t.kind <;>
    simp_all [typeError?, TypeKind.element?, resolve?_eq_some.1 hu, errorOf?]

/-- An error of anything but a scalar is that of its element. -/
theorem exists_element_of_typeError? {err : SchemaError} (h : g.typeError? t = some err)
    (ht : ¬ t.kind.isScalar) :
    ∃ n, t.kind.element? = some n ∧ g.resolve? n = none ∧ err = .unknownType n.key := by
  have helement : ∀ n, errorOf? (g.resolve n) = some err →
      g.resolve? n = none ∧ err = .unknownType n.key := by
    intro n hn
    cases hr : g.resolve? n with
    | none =>
        rw [resolve?_eq_none.1 hr] at hn
        exact ⟨rfl, (Option.some.inj hn).symm⟩
    | some u =>
        rw [resolve?_eq_some.1 hr] at hn
        cases hn
  unfold typeError? at h
  cases hk : t.kind with
  | collection n => exact ⟨n, rfl, helement n (by simpa [hk] using h)⟩
  | stream n => exact ⟨n, rfl, helement n (by simpa [hk] using h)⟩
  | _ => simp_all [TypeKind.isScalar]

/-! ## What a name leads to -/

/-- The way from the type that the name means ends there. -/
def EndsAt (g : TypeGraph) (n : QualifiedName) (e : WayEnd) : Prop :=
  ∃ t passed, g.resolve? n = some t ∧ Way g.elementOf? [] t passed e

/-- What is wrong with the types of members of the name: it does not resolve, or there is an error at
the end of its way. -/
inductive Fails (g : TypeGraph) (n : QualifiedName) : SchemaError → Prop where
  | missing (h : g.resolve? n = none) : Fails g n (.unknownType n.key)
  | type {e : WayEnd} {err : SchemaError} (h : g.EndsAt n e)
      (herr : g.typeError? e.type = some err) : Fails g n err

/-- Members of the name have no type, although nothing is wrong: a collection holds itself, or a scalar
inherits from a collection or stream. The text says which. -/
inductive Untypable (g : TypeGraph) (n : QualifiedName) : String → Prop where
  | comesRound {t : SchemaType} (h : g.EndsAt n (.again t)) :
      Untypable g n s!"self-containing collection {t.key}"
  | inherits {t : SchemaType} {k : Primitive} (h : g.EndsAt n (.last t)) (ht : t.kind.isScalar)
      (hk : g.primitiveOf t = .ok k) (hs : k.isStructural) :
      Untypable g n s!"{t.key} inherits from {k.name}"

/-- No type is a collection or stream by its primitive kind alone, without an element. -/
def Elementary (g : TypeGraph) : Prop :=
  ∀ t ∈ g.types, ∀ k, t.kind = .primitive k → k.isStructural = false

theorem EndsAt.unique {n : QualifiedName} {e e' : WayEnd} (h : g.EndsAt n e) (h' : g.EndsAt n e') :
    e = e' := by
  obtain ⟨t, passed, ht, hway⟩ := h
  obtain ⟨t', passed', ht', hway'⟩ := h'
  obtain rfl := Option.some.inj (ht.symm.trans ht')
  exact (hway.unique hway').2

theorem EndsAt.mem_types {n : QualifiedName} (h : g.EndsAt n e) : e.type ∈ g.types := by
  obtain ⟨t, passed, ht, hway⟩ := h
  exact hway.end_of_step (P := (· ∈ g.types)) (fun _ _ _ => mem_types_of_elementOf?)
    (mem_types_of_resolve? ht)

theorem not_endsAt {n : QualifiedName} (h : g.resolve? n = none) : ¬ g.EndsAt n e := by
  rintro ⟨t, passed, ht, -⟩
  rw [h] at ht
  cases ht

theorem exists_endsAt {n : QualifiedName} (h : g.resolve? n = some t) : ∃ e, g.EndsAt n e := by
  obtain ⟨passed, e, hway⟩ := exists_elementWay (mem_types_of_resolve? h)
  exact ⟨e, t, passed, h, hway⟩

/-- Nothing is wrong where a way comes round. -/
theorem typeError?_of_way (h : Way g.elementOf? [] t passed (.again u)) : g.typeError? u = none := by
  obtain ⟨v, hv⟩ := h.next_passed u (h.mem_of_again.resolve_right (by simp))
  exact typeError?_of_elementOf? hv

theorem EndsAt.exists_last_of_typeError? {n : QualifiedName} {err : SchemaError}
    (h : g.EndsAt n e) (herr : g.typeError? e.type = some err) : ∃ u, e = .last u := by
  cases e with
  | last u => exact ⟨u, rfl⟩
  | again u =>
      obtain ⟨t, passed, -, hway⟩ := h
      rw [show (WayEnd.again u).type = u from rfl, typeError?_of_way hway] at herr
      cases herr

theorem fails_iff {n : QualifiedName} {err : SchemaError} (h : g.EndsAt n e) :
    g.Fails n err ↔ g.typeError? e.type = some err := by
  constructor
  · intro hfails
    cases hfails with
    | missing hnone => exact absurd h (not_endsAt hnone)
    | type h' herr => exact h.unique h' ▸ herr
  · exact .type h

theorem fails_iff_of_missing {n : QualifiedName} {err : SchemaError} (h : g.resolve? n = none) :
    g.Fails n err ↔ err = .unknownType n.key := by
  constructor
  · intro hfails
    cases hfails with
    | missing _ => rfl
    | type h' _ => exact absurd h' (not_endsAt h)
  · rintro rfl
    exact .missing h

theorem untypable_iff_of_again {n : QualifiedName} {text : String} (h : g.EndsAt n (.again t)) :
    g.Untypable n text ↔ text = s!"self-containing collection {t.key}" := by
  constructor
  · intro huntypable
    cases huntypable with
    | comesRound h' => rw [WayEnd.again.inj (h.unique h')]
    | inherits h' _ _ _ => cases h.unique h'
  · rintro rfl
    exact .comesRound h

theorem untypable_iff_of_last {n : QualifiedName} {text : String} (h : g.EndsAt n (.last t)) :
    g.Untypable n text ↔ t.kind.isScalar ∧
      ∃ k, g.primitiveOf t = .ok k ∧ k.isStructural ∧ text = s!"{t.key} inherits from {k.name}" := by
  constructor
  · intro huntypable
    cases huntypable with
    | comesRound h' => cases h.unique h'
    | inherits h' ht hk hs =>
        obtain rfl := WayEnd.last.inj (h.unique h')
        exact ⟨ht, _, hk, hs, rfl⟩
  · rintro ⟨ht, k, hk, hs, rfl⟩
    exact .inherits h ht hk hs

theorem not_untypable {n : QualifiedName} {text : String} (h : g.resolve? n = none) :
    ¬ g.Untypable n text := by
  intro huntypable
  cases huntypable with
  | comesRound h' => exact not_endsAt h h'
  | inherits h' _ _ _ => exact not_endsAt h h'

/-- What stands at the end of a way is what a name means that the start leads to. -/
theorem EndsAt.exists_reachable {root n : QualifiedName} (h : g.EndsAt n e)
    (hn : g.Reachable root n) : ∃ m, g.Reachable root m ∧ g.resolve? m = some e.type := by
  obtain ⟨t, passed, ht, hway⟩ := h
  refine hway.end_of_step (P := fun u => ∃ m, g.Reachable root m ∧ g.resolve? m = some u) ?_
    ⟨n, hn, ht⟩
  rintro u v ⟨m, hm, hu⟩ huv
  obtain ⟨m', hm', hv⟩ := elementOf?_eq_some.1 huv
  exact ⟨m', hm.element hu hm', hv⟩

end SchemaSnippets.Schema.TypeGraph

namespace SchemaSnippets.Snippet
open Model Schema

/-- The type of what has elements of type `m`, in a collection or stream. -/
def wrapIn (t : SchemaType) (m : MemberType) : MemberType :=
  match t.kind with
  | .stream _ => .stream m
  | _ => .array m

theorem notes_wrapIn (t : SchemaType) (m : MemberType) : (wrapIn t m).notes = m.notes := by
  unfold wrapIn
  split <;> rfl

theorem notes_foldr_wrapIn (ts : List SchemaType) (m : MemberType) :
    (ts.foldr wrapIn m).notes = m.notes := by
  induction ts with
  | nil => rfl
  | cons t ts ih => rw [List.foldr_cons, notes_wrapIn, ih]

namespace Context
variable {c : Context} {met passed : List SchemaType} {t u : SchemaType} {e : WayEnd} {fuel : Nat}
  {location : Option String} {fs : Findings}

/-- What stands where a way through collections ends, with what is found there. -/
def endType (c : Context) (location : Option String) (fs : Findings) :
    WayEnd → MemberType × Findings
  | .last t => c.memberType 1 [] location t fs
  | .again t => (.untyped (some s!"self-containing collection {t.key}"), fs)

/-! ## Along a way -/

/-- What wraps a type that resolves has its type, wrapped. -/
theorem memberType_of_elementOf? {seen : List String} (h : c.graph.elementOf? t = some u)
    (ht : t.key ∉ seen) :
    c.memberType (fuel + 1) seen location t fs =
      (wrapIn t (c.memberType fuel (t.key :: seen) location u fs).1,
        (c.memberType fuel (t.key :: seen) location u fs).2) := by
  obtain ⟨n, hn, hu⟩ := TypeGraph.elementOf?_eq_some.1 h
  have hok := TypeGraph.resolve?_eq_some.1 hu
  rw [memberType, if_neg ht]
  cases hk : t.kind with
  | collection n' =>
      obtain rfl : n' = n := by simpa [hk, TypeKind.element?] using hn
      simp [hok, wrapIn, hk]
  | stream n' =>
      obtain rfl : n' = n := by simpa [hk, TypeKind.element?] using hn
      simp [hok, wrapIn, hk]
  | _ => simp [hk, TypeKind.element?] at hn

/-- Without an element to go on to, one step is enough. -/
theorem memberType_of_elementOf?_eq_none {seen : List String} (h : c.graph.elementOf? t = none)
    (ht : t.key ∉ seen) :
    c.memberType (fuel + 1) seen location t fs = c.memberType 1 [] location t fs := by
  rw [memberType, memberType, if_neg ht, if_neg (List.not_mem_nil)]
  cases hk : t.kind with
  | collection n => simp only [TypeGraph.resolve_of_elementOf?_eq_none h (by rw [hk]; rfl)]
  | stream n => simp only [TypeGraph.resolve_of_elementOf?_eq_none h (by rw [hk]; rfl)]
  | _ => rfl

theorem memberType_of_way (h : Way c.graph.elementOf? met t passed e) (ht : t ∈ c.graph.types)
    (hmet : ∀ u ∈ met, u ∈ c.graph.types) (hfuel : passed.length < fuel) :
    c.memberType fuel (met.map (·.key)) location t fs =
      (passed.foldr wrapIn (c.endType location fs e).1, (c.endType location fs e).2) := by
  induction h generalizing fuel with
  | last hm hn =>
      obtain ⟨fuel, rfl⟩ := Nat.exists_eq_succ_of_ne_zero (Nat.ne_zero_of_lt hfuel)
      exact memberType_of_elementOf?_eq_none hn fun hin => hm ((TypeGraph.key_mem_iff ht hmet).1 hin)
  | again hm =>
      obtain ⟨fuel, rfl⟩ := Nat.exists_eq_succ_of_ne_zero (Nat.ne_zero_of_lt hfuel)
      rw [memberType, if_pos ((TypeGraph.key_mem_iff ht hmet).2 hm)]
      rfl
  | step hm hn _ ih =>
      obtain ⟨fuel, rfl⟩ := Nat.exists_eq_succ_of_ne_zero (Nat.ne_zero_of_lt hfuel)
      have hrest := ih (TypeGraph.mem_types_of_elementOf? hn) (List.forall_mem_cons.2 ⟨ht, hmet⟩)
        (Nat.lt_of_succ_lt_succ hfuel)
      rw [List.map_cons] at hrest
      rw [memberType_of_elementOf? hn fun hin => hm ((TypeGraph.key_mem_iff ht hmet).1 hin), hrest]
      rfl

/-- The type of a member has the layers that the way passes, and what is at its end inside. -/
theorem typeOf_eq (ht : t ∈ c.graph.types) (h : Way c.graph.elementOf? [] t passed e) :
    c.typeOf location t fs =
      (passed.foldr wrapIn (c.endType location fs e).1, (c.endType location fs e).2) := by
  have hlen := h.length_le (fun _ _ _ => TypeGraph.mem_types_of_elementOf?) ht
  exact memberType_of_way h ht (by simp) (by omega)

/-! ## At its end -/

/-- An error of a scalar is always reported, one of an element if it is new. -/
theorem findings_memberType_one :
    (c.memberType 1 [] location t fs).2 =
      match c.graph.typeError? t with
      | some err =>
        if t.kind.isScalar then fs.report (.schema err) location
        else fs.reportNew (.schema err) location
      | none => fs := by
  rw [memberType, if_neg (List.not_mem_nil)]
  unfold TypeGraph.typeError?
  cases hk : t.kind with
  | primitive k =>
      dsimp only
      split <;> rfl
  | scalar parents =>
      dsimp only
      cases c.graph.primitiveOf t with
      | ok k =>
          dsimp only
          split <;> rfl
      | error err => rfl
  | enumeration values => rfl
  | record as => rfl
  | collection n =>
      cases hn : c.graph.resolve n <;>
        simp [hn, memberType, TypeGraph.errorOf?, TypeKind.isScalar]
  | stream n =>
      cases hn : c.graph.resolve n <;>
        simp [hn, memberType, TypeGraph.errorOf?, TypeKind.isScalar]

theorem findings_endType (h : Way c.graph.elementOf? [] t passed e) :
    (c.endType location fs e).2 =
      match c.graph.typeError? e.type with
      | some err =>
        if e.type.kind.isScalar then fs.report (.schema err) location
        else fs.reportNew (.schema err) location
      | none => fs := by
  cases e with
  | last u => exact findings_memberType_one
  | again u => simp [WayEnd.type, TypeGraph.typeError?_of_way h, endType]

/-- The notes at the end of a way: its error, or what stands for a type that has none. -/
theorem mem_notes_memberType_one (helem : c.graph.elementOf? t = none)
    (hbare : ∀ k, t.kind = .primitive k → k.isStructural = false) {note : Option String} :
    note ∈ (c.memberType 1 [] location t fs).1.notes ↔
      (∃ err, c.graph.typeError? t = some err ∧ note = some err.message) ∨
      (t.kind.isScalar ∧ ∃ k, c.graph.primitiveOf t = .ok k ∧ k.isStructural ∧
        note = some s!"{t.key} inherits from {k.name}") := by
  rw [memberType, if_neg (List.not_mem_nil)]
  unfold TypeGraph.typeError?
  cases hk : t.kind with
  | primitive k => simp [hbare k hk, MemberType.notes, TypeKind.isScalar]
  | scalar parents =>
      cases hp : c.graph.primitiveOf t with
      | ok k =>
          by_cases hs : k.isStructural <;>
            simp [hs, MemberType.notes, TypeGraph.errorOf?, TypeKind.isScalar]
      | error err => simp [MemberType.notes, TypeGraph.errorOf?]
  | enumeration values => simp [MemberType.notes, TypeKind.isScalar]
  | record as => simp [MemberType.notes, TypeKind.isScalar]
  | collection n =>
      simp [TypeGraph.resolve_of_elementOf?_eq_none helem (by rw [hk]; rfl), MemberType.notes,
        TypeGraph.errorOf?, TypeKind.isScalar]
  | stream n =>
      simp [TypeGraph.resolve_of_elementOf?_eq_none helem (by rw [hk]; rfl), MemberType.notes,
        TypeGraph.errorOf?, TypeKind.isScalar]

end Context
end SchemaSnippets.Snippet

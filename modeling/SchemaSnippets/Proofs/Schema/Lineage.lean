import SchemaSnippets.Proofs.Schema.Ways

/-!
# Inheritance along a way

The primitive kind and the format of a type are found on the way along its parents, without a bound
on the length of the way.

* `primitiveOf_eq` : the kind is decided at the end of the way, and a way that comes round is the chain
  of the error;
* `inheritedFormat_eq` : the format is the first one on the way.
-/

namespace SchemaSnippets.Schema.TypeGraph
variable {g : TypeGraph} {met passed : List SchemaType} {t : SchemaType} {e : WayEnd} {fuel : Nat}

/-- The kind that is found where a way ends, `chain` being the keys of the types that it passed. -/
def endPrimitive (g : TypeGraph) (chain : List String) : WayEnd → Except SchemaError Primitive
  | .last t => g.primitiveFrom 1 [] t
  | .again t => .error (.cyclicInheritance t.key (chain ++ [t.key]))

/-- With a parent to follow, the kind is that of the parent. -/
theorem primitiveFrom_of_parentOf?_eq_some {chain : List String} {u : SchemaType}
    (h : g.parentOf? t = some u) (ht : t.key ∉ chain) :
    g.primitiveFrom (fuel + 1) chain t = g.primitiveFrom fuel (chain ++ [t.key]) u := by
  unfold parentOf? at h
  rw [primitiveFrom, if_neg ht]
  cases hk : t.kind with
  | scalar parents =>
      have hu : parents.findSome? g.resolve? = some u := by simpa [hk, TypeKind.parents] using h
      simp only [parentOf, hu]
      rfl
  | _ => simp [hk, TypeKind.parents] at h

/-- Without a parent to follow, one step is enough to find the kind. -/
theorem primitiveFrom_of_parentOf?_eq_none {chain : List String} (h : g.parentOf? t = none)
    (ht : t.key ∉ chain) : g.primitiveFrom (fuel + 1) chain t = g.primitiveFrom 1 [] t := by
  unfold parentOf? at h
  rw [primitiveFrom, primitiveFrom, if_neg ht, if_neg (List.not_mem_nil)]
  cases hk : t.kind with
  | scalar parents =>
      have hnone : parents.findSome? g.resolve? = none := by simpa [hk, TypeKind.parents] using h
      simp only [parentOf, hnone]
      cases parents <;> rfl
  | _ => rfl

theorem primitiveFrom_of_way (h : Way g.parentOf? met t passed e) (ht : t ∈ g.types)
    (hmet : ∀ u ∈ met, u ∈ g.types) (hfuel : passed.length < fuel) :
    g.primitiveFrom fuel (met.reverse.map (·.key)) t =
      g.endPrimitive ((met.reverse ++ passed).map (·.key)) e := by
  have hkey : ∀ {t : SchemaType} {met : List SchemaType}, t ∈ g.types →
      (∀ u ∈ met, u ∈ g.types) → (t.key ∈ met.reverse.map (·.key) ↔ t ∈ met) := fun ht hmet =>
    (key_mem_iff ht (by simpa using hmet)).trans List.mem_reverse
  induction h generalizing fuel with
  | last hm hn =>
      obtain ⟨fuel, rfl⟩ := Nat.exists_eq_succ_of_ne_zero (Nat.ne_zero_of_lt hfuel)
      exact primitiveFrom_of_parentOf?_eq_none hn fun hin => hm ((hkey ht hmet).1 hin)
  | again hm =>
      obtain ⟨fuel, rfl⟩ := Nat.exists_eq_succ_of_ne_zero (Nat.ne_zero_of_lt hfuel)
      rw [primitiveFrom, if_pos ((hkey ht hmet).2 hm), List.append_nil]
      rfl
  | @step met t u passed e hm hn rest ih =>
      obtain ⟨fuel, rfl⟩ := Nat.exists_eq_succ_of_ne_zero (Nat.ne_zero_of_lt hfuel)
      have hrest := ih (mem_types_of_parentOf? hn) (List.forall_mem_cons.2 ⟨ht, hmet⟩)
        (Nat.lt_of_succ_lt_succ hfuel)
      rw [primitiveFrom_of_parentOf?_eq_some hn fun hin => hm ((hkey ht hmet).1 hin)]
      simpa using hrest

/-- The kind of a type, decided where the way along its parents ends. -/
theorem primitiveOf_eq (ht : t ∈ g.types) (h : Way g.parentOf? [] t passed e) :
    g.primitiveOf t = g.endPrimitive (passed.map (·.key)) e := by
  have hlen := h.length_le (fun _ _ _ => mem_types_of_parentOf?) ht
  exact primitiveFrom_of_way h ht (by simp) (by rw [wayLength]; omega)

theorem inheritedFormatFrom_of_way (h : Way g.parentOf? met t passed e) (ht : t ∈ g.types)
    (hmet : ∀ u ∈ met, u ∈ g.types) (hnone : ∀ u ∈ met, u.format = none)
    (hfuel : passed.length < fuel) :
    g.inheritedFormatFrom fuel (met.map (·.key)) t =
      (passed ++ [e.type]).findSome? (·.format) := by
  induction h generalizing fuel with
  | @last met t hm hn =>
      obtain ⟨fuel, rfl⟩ := Nat.exists_eq_succ_of_ne_zero (Nat.ne_zero_of_lt hfuel)
      unfold parentOf? at hn
      cases hf : t.format <;> simp [inheritedFormatFrom, WayEnd.type, hf, hn]
  | @again met t hm =>
      obtain ⟨fuel, rfl⟩ := Nat.exists_eq_succ_of_ne_zero (Nat.ne_zero_of_lt hfuel)
      have hin : t.key ∈ met.map (·.key) := List.mem_map_of_mem hm
      simp only [inheritedFormatFrom, hnone t hm, if_pos hin]
      simp [WayEnd.type, hnone t hm]
  | @step met t u passed e hm hn rest ih =>
      obtain ⟨fuel, rfl⟩ := Nat.exists_eq_succ_of_ne_zero (Nat.ne_zero_of_lt hfuel)
      have hout : t.key ∉ met.map (·.key) := fun hin => hm ((key_mem_iff ht hmet).1 hin)
      cases hf : t.format with
      | some f => simp [inheritedFormatFrom, hf]
      | none =>
          have hrest := ih (mem_types_of_parentOf? hn) (List.forall_mem_cons.2 ⟨ht, hmet⟩)
            (List.forall_mem_cons.2 ⟨hf, hnone⟩) (Nat.lt_of_succ_lt_succ hfuel)
          unfold parentOf? at hn
          simp only [inheritedFormatFrom, hf, if_neg hout, hn, Option.bind_some]
          simpa [hf] using hrest

/-- The format of a type is the first one on the way along its parents. -/
theorem inheritedFormat_eq (ht : t ∈ g.types) (h : Way g.parentOf? [] t passed e) :
    g.inheritedFormat t = (passed ++ [e.type]).findSome? (·.format) := by
  have hlen := h.length_le (fun _ _ _ => mem_types_of_parentOf?) ht
  exact inheritedFormatFrom_of_way h ht (by simp) (by simp) (by rw [wayLength]; omega)

end SchemaSnippets.Schema.TypeGraph

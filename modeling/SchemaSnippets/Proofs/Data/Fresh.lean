import Mathlib.Data.List.Nodup
import Mathlib.Data.List.Perm.Subperm
import SchemaSnippets.Data.Entries

/-!
# Fresh names are found

The search for a free name is bounded by the number of taken names. It finds what a search without
a bound would find.

* `FirstFree taken base numbered x` : `x` is the first name of `base`, `numbered 2`, `numbered 3`, …
  that is not taken;
* `firstFree_freshName` : the name that is found is that one; `freshName_notMem` : so it is free;
* `numbered_injective` : numbers behind a text give different names.
-/

namespace SchemaSnippets.Data

/-- The first name that is free, wherever it stands. -/
inductive FirstFree (taken : List String) (base : String) (numbered : Nat → String) :
    String → Prop where
  | own (hbase : base ∉ taken) : FirstFree taken base numbered base
  | suffixed {i : Nat} (hbase : base ∈ taken) (hfree : numbered (i + 2) ∉ taken)
      (hfirst : ∀ j < i, numbered (j + 2) ∈ taken) : FirstFree taken base numbered (numbered (i + 2))

theorem FirstFree.notMem {taken : List String} {base x : String} {numbered : Nat → String}
    (h : FirstFree taken base numbered x) : x ∉ taken := by
  cases h with
  | own hbase => exact hbase
  | suffixed _ hfree _ => exact hfree

/-- Of more names than there are taken ones, one is free. -/
theorem exists_numbered_notMem {numbered : Nat → String} (h : Function.Injective numbered)
    (taken : List String) : ∃ i < taken.length + 1, numbered (i + 2) ∉ taken := by
  by_contra hall
  have htaken : ∀ i < taken.length + 1, numbered (i + 2) ∈ taken := by
    intro i hi
    by_contra hfree
    exact hall ⟨i, hi, hfree⟩
  let names := (List.range (taken.length + 1)).map fun i => numbered (i + 2)
  have hnodup : names.Nodup := by
    refine List.Nodup.map (fun i j hij => ?_) List.nodup_range
    have hshift : i + 2 = j + 2 := h hij
    omega
  have hsub : names ⊆ taken := by
    intro x hx
    obtain ⟨i, hi, rfl⟩ := List.mem_map.1 hx
    exact htaken i (List.mem_range.1 hi)
  have hle : names.length ≤ taken.length := (hnodup.subperm hsub).length_le
  have hlen : names.length = taken.length + 1 := by simp [names]
  omega

theorem firstFree_freshName {numbered : Nat → String} (h : Function.Injective numbered)
    (taken : List String) (base : String) :
    FirstFree taken base numbered (freshName taken base numbered) := by
  by_cases hbase : base ∈ taken
  · unfold freshName
    rw [if_pos hbase, List.find?_map]
    cases hfind : (List.range (taken.length + 1)).find? fun i => numbered (i + 2) ∉ taken with
    | none =>
        -- then more names are taken than there are
        obtain ⟨i, hi, hfree⟩ := exists_numbered_notMem h taken
        have hnone := List.find?_eq_none.1 hfind i (List.mem_range.2 hi)
        simp [hfree] at hnone
    | some i =>
        obtain ⟨hfree, -, hfirst⟩ := List.find?_range_eq_some.1 hfind
        have hfound : ((List.range (taken.length + 1)).find?
            ((fun x => decide (x ∉ taken)) ∘ fun i => numbered (i + 2))) = some i := hfind
        rw [hfound]
        exact .suffixed hbase (by simpa using hfree) (by simpa using hfirst)
  · rw [freshName_of_notMem numbered hbase]
    exact .own hbase

theorem freshName_notMem {numbered : Nat → String} (h : Function.Injective numbered)
    (taken : List String) (base : String) : freshName taken base numbered ∉ taken :=
  (firstFree_freshName h taken base).notMem

theorem freshName_eq_or (taken : List String) (base : String) (numbered : Nat → String) :
    freshName taken base numbered = base ∨ ∃ i, freshName taken base numbered = numbered i := by
  unfold freshName
  split
  · cases hfind : ((List.range (taken.length + 1)).map fun i => numbered (i + 2)).find?
        (· ∉ taken) with
    | none => exact Or.inl rfl
    | some x =>
        obtain ⟨i, -, rfl⟩ := List.mem_map.1 (List.mem_of_find?_eq_some hfind)
        exact Or.inr ⟨i + 2, rfl⟩
  · exact Or.inl rfl

/-! ## Numbers -/

theorem toString_injective : Function.Injective fun i : Nat => toString i := by
  intro i j hij
  have hdigits : Nat.toDigits 10 i = Nat.toDigits 10 j := by
    simpa only [Nat.toString_eq_repr, Nat.toList_repr] using congrArg String.toList hij
  simpa using congrArg (fun ds => Nat.ofDigitChars 10 ds 0) hdigits

theorem numbered_injective (base : String) : Function.Injective fun i : Nat => base ++ toString i :=
  fun _ _ h => toString_injective ((String.append_right_inj base).1 h)

end SchemaSnippets.Data

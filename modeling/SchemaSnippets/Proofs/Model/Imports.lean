import Mathlib.Data.List.Nodup
import SchemaSnippets.Model.Imports

/-!
# Imports come from what is asked for

* `mem_setEntry`, `mem_insertEntry` : the entries with one of them set;
* `Imports.forall_mem_addAll` : what is true of all modules and symbols that are asked for is true of the
  imported ones;
* `Imports.IsOrdered` : each module stands there once with its symbols, and these are in increasing order;
  `IsOrdered.add`, `IsOrdered.addAll` : this stays so;
* `Imports.pairs` : the imported symbols with their modules; `mem_symbols_addAll` : they are those that were
  asked for.
-/

namespace SchemaSnippets.Data

theorem mem_setEntry {κ α : Type} [DecidableEq κ] {key : κ} {value : α} {es : List (κ × α)} {e : κ × α}
    (h : e ∈ setEntry key value es) : e = (key, value) ∨ e ∈ es := by
  induction es with
  | nil => exact Or.inl (List.mem_singleton.1 h)
  | cons d es ih =>
      rw [setEntry] at h
      split at h
      · exact (List.mem_cons.1 h).imp_right (List.mem_cons_of_mem d)
      · rcases List.mem_cons.1 h with rfl | h
        · exact Or.inr (List.mem_cons_self ..)
        · exact (ih h).imp_right (List.mem_cons_of_mem d)

theorem mem_insertEntry {α : Type} {key : String} {value : α} {es : List (String × α)}
    {e : String × α} (h : e ∈ insertEntry key value es) : e = (key, value) ∨ e ∈ es := by
  induction es with
  | nil => exact Or.inl (List.mem_singleton.1 h)
  | cons d es ih =>
      rw [insertEntry] at h
      split at h
      · exact List.mem_cons.1 h
      · split at h
        · exact (List.mem_cons.1 h).imp_right (List.mem_cons_of_mem d)
        · rcases List.mem_cons.1 h with rfl | h
          · exact Or.inr (List.mem_cons_self ..)
          · exact (ih h).imp_right (List.mem_cons_of_mem d)

/-- A known key keeps its place, and a new one goes to the end. -/
theorem map_fst_setEntry {κ α : Type} [DecidableEq κ] (key : κ) (value : α) (es : List (κ × α)) :
    (setEntry key value es).map Prod.fst =
      if key ∈ es.map Prod.fst then es.map Prod.fst else es.map Prod.fst ++ [key] := by
  induction es with
  | nil => rfl
  | cons e es ih =>
      rw [setEntry]
      by_cases hkey : key = e.1
      · simp [hkey]
      · rw [if_neg hkey, List.map_cons, ih, List.map_cons]
        simp only [List.mem_cons, hkey, false_or]
        split <;> rfl

theorem perm_insertEntry {α : Type} {key : String} (value : α) {es : List (String × α)}
    (h : key ∉ es.map Prod.fst) : (insertEntry key value es).Perm ((key, value) :: es) := by
  induction es with
  | nil => exact .refl _
  | cons e es ih =>
      obtain ⟨hne, hrest⟩ := not_or.1 fun hor => h (List.mem_cons.2 hor)
      rw [insertEntry]
      split
      · exact .refl _
      · exact ((ih hrest).cons e).trans (.swap ..)

theorem pairwise_insertSorted (s : String) {ts : List String} (h : ts.Pairwise (· < ·)) :
    (insertSorted s ts).Pairwise (· < ·) := by
  induction ts with
  | nil => exact List.pairwise_singleton _ s
  | cons t ts ih =>
      obtain ⟨hfirst, hrest⟩ := List.pairwise_cons.1 h
      rw [insertSorted]
      split
      · rename_i hlt
        refine List.pairwise_cons.2 ⟨fun u hu => ?_, h⟩
        rcases List.mem_cons.1 hu with rfl | hu
        · exact hlt
        · exact String.lt_trans hlt (hfirst u hu)
      · rename_i hnot
        split
        · exact h
        · rename_i hne
          refine List.pairwise_cons.2 ⟨fun u hu => ?_, ih hrest⟩
          rcases (mem_insertSorted s u ts).1 hu with rfl | hu
          · exact Std.lt_of_le_of_ne (Std.not_lt.1 hnot) (Ne.symm hne)
          · exact hfirst u hu

end SchemaSnippets.Data

namespace SchemaSnippets.Model.Imports
open Data

variable {P : String → Prop} {i : Imports}

theorem exists_of_mem_symbols {module symbol : String} (h : symbol ∈ i.symbols module) :
    ∃ ss, (module, ss) ∈ i.modules ∧ symbol ∈ ss := by
  unfold symbols at h
  cases hlookup : i.modules.lookup module with
  | none => simp [hlookup] at h
  | some ss =>
      rw [hlookup, Option.getD_some] at h
      obtain ⟨before, after, hmem, -⟩ := List.lookup_eq_some_iff.1 hlookup
      exact ⟨ss, by simp [hmem], h⟩

theorem forall_mem_add (hi : ∀ e ∈ i.modules, P e.1 ∧ ∀ s ∈ e.2, P s) {module symbol : String}
    (hmodule : P module) (hsymbol : P symbol) :
    ∀ e ∈ (i.add module symbol).modules, P e.1 ∧ ∀ s ∈ e.2, P s := by
  intro e he
  rcases mem_setEntry he with rfl | he
  · refine ⟨hmodule, fun s hs => ?_⟩
    rcases (mem_insertSorted _ _ _).1 hs with rfl | hs
    · exact hsymbol
    · obtain ⟨ss, hss, hs⟩ := exists_of_mem_symbols hs
      exact (hi _ hss).2 s hs
  · exact hi e he

theorem forall_mem_addAll (hi : ∀ e ∈ i.modules, P e.1 ∧ ∀ s ∈ e.2, P s)
    {pairs : List (String × String)} (hpairs : ∀ q ∈ pairs, P q.1 ∧ P q.2) :
    ∀ e ∈ (i.addAll pairs).modules, P e.1 ∧ ∀ s ∈ e.2, P s := by
  induction pairs generalizing i with
  | nil => exact hi
  | cons q pairs ih =>
      obtain ⟨hq, hpairs⟩ := List.forall_mem_cons.1 hpairs
      exact ih (forall_mem_add hi hq.1 hq.2) hpairs

/-! ## Each module and each symbol once -/

/-- Each module stands there once with some symbols, and each of these once, in increasing order. -/
structure IsOrdered (i : Imports) : Prop where
  modules : (i.modules.map Prod.fst).Nodup
  symbols : ∀ e ∈ i.modules, e.2.Pairwise (· < ·)
  filled : ∀ e ∈ i.modules, e.2 ≠ []

theorem isOrdered_empty : empty.IsOrdered :=
  ⟨List.nodup_nil, List.forall_mem_nil _, List.forall_mem_nil _⟩

theorem IsOrdered.symbols_of_mem (h : i.IsOrdered) {e : String × List String} (he : e ∈ i.modules) :
    i.symbols e.1 = e.2 := by
  obtain ⟨before, after, hmodules⟩ := List.append_of_mem he
  have hfirst : ∀ d ∈ before, e.1 ≠ d.1 := by
    have hnodup := h.modules
    rw [hmodules, List.map_append, List.map_cons, List.nodup_append] at hnodup
    exact fun d hd heq => hnodup.2.2 d.1 (List.mem_map_of_mem hd) e.1 (List.mem_cons_self ..) heq.symm
  have hlookup : i.modules.lookup e.1 = some e.2 :=
    List.lookup_eq_some_iff.2 ⟨before, after, hmodules, fun d hd => bne_iff_ne.2 (hfirst d hd)⟩
  rw [Imports.symbols, hlookup, Option.getD_some]

/-- The symbols of a module with one more. -/
theorem symbols_add (module symbol module' : String) :
    (i.add module symbol).symbols module' =
      if module' = module then insertSorted symbol (i.symbols module) else i.symbols module' := by
  unfold symbols add
  dsimp only
  rw [lookup_setEntry]
  split <;> rfl

theorem IsOrdered.pairwise_symbols (h : i.IsOrdered) (module : String) :
    (i.symbols module).Pairwise (· < ·) := by
  unfold Imports.symbols
  cases hlookup : i.modules.lookup module with
  | none => exact List.Pairwise.nil
  | some ss =>
      obtain ⟨before, after, hmem, -⟩ := List.lookup_eq_some_iff.1 hlookup
      exact h.symbols (module, ss) (by simp [hmem])

theorem IsOrdered.add (h : i.IsOrdered) (module symbol : String) : (i.add module symbol).IsOrdered := by
  refine ⟨?_, fun e he => ?_, fun e he => ?_⟩
  · show ((setEntry _ _ i.modules).map Prod.fst).Nodup
    rw [map_fst_setEntry]
    split
    · exact h.modules
    · rename_i hnew
      refine List.nodup_append.2 ⟨h.modules, List.pairwise_singleton _ _, fun m hm m' hm' heq => ?_⟩
      rw [heq, List.mem_singleton.1 hm'] at hm
      exact hnew hm
  · rcases mem_setEntry he with rfl | he
    · exact pairwise_insertSorted symbol (h.pairwise_symbols module)
    · exact h.symbols e he
  · rcases mem_setEntry he with rfl | he
    · exact List.ne_nil_of_mem ((mem_insertSorted symbol symbol _).2 (Or.inl rfl))
    · exact h.filled e he

theorem IsOrdered.addAll (h : i.IsOrdered) (pairs : List (String × String)) :
    (i.addAll pairs).IsOrdered := by
  induction pairs generalizing i with
  | nil => exact h
  | cons q pairs ih => exact ih (h.add q.1 q.2)

/-- A symbol is imported from a module if it was, or if it is asked for. -/
theorem mem_symbols_addAll {pairs : List (String × String)} {module symbol : String} :
    symbol ∈ (i.addAll pairs).symbols module ↔
      symbol ∈ i.symbols module ∨ (module, symbol) ∈ pairs := by
  induction pairs generalizing i with
  | nil => simp [addAll]
  | cons q pairs ih =>
      have hstep : i.addAll (q :: pairs) = (i.add q.1 q.2).addAll pairs := rfl
      rw [hstep, ih, symbols_add, List.mem_cons, Prod.ext_iff]
      by_cases hmodule : module = q.1
      · rw [if_pos hmodule, mem_insertSorted, hmodule, or_comm (a := symbol = q.2), or_assoc]
        simp only [true_and]
      · rw [if_neg hmodule]
        simp only [hmodule, false_and, false_or]

/-- The imported symbols with their modules. -/
def pairs (i : Imports) : List (String × String) :=
  i.modules.flatMap fun e => e.2.map (e.1, ·)

theorem IsOrdered.mem_pairs (h : i.IsOrdered) {q : String × String} :
    q ∈ i.pairs ↔ q.2 ∈ i.symbols q.1 := by
  unfold pairs
  rw [List.mem_flatMap]
  constructor
  · rintro ⟨e, he, hq⟩
    obtain ⟨symbol, hsymbol, rfl⟩ := List.mem_map.1 hq
    rwa [h.symbols_of_mem he]
  · intro hq
    obtain ⟨ss, hss, hmem⟩ := exists_of_mem_symbols hq
    exact ⟨(q.1, ss), hss, List.mem_map.2 ⟨q.2, hmem, rfl⟩⟩

/-- Pairs of different modules differ, and so do those of different symbols. -/
theorem IsOrdered.nodup_pairs (h : i.IsOrdered) : i.pairs.Nodup := by
  refine List.nodup_flatMap.2 ⟨fun e he => ?_, ?_⟩
  · have hsymbols : e.2.Nodup := (h.symbols e he).imp String.ne_of_lt
    exact hsymbols.map fun _ _ heq => (Prod.mk.inj heq).2
  · have hmodules : i.modules.Pairwise fun d e => d.1 ≠ e.1 := List.pairwise_map.1 h.modules
    refine hmodules.imp fun hne q hq hq' => hne ?_
    obtain ⟨symbol, -, rfl⟩ := List.mem_map.1 hq
    obtain ⟨symbol', -, heq⟩ := List.mem_map.1 hq'
    exact (Prod.mk.inj heq).1.symm

end SchemaSnippets.Model.Imports

import Mathlib.Data.List.Sort
import SchemaSnippets.Proofs.Target.ImportStatements

/-!
# The import block

Imports are collected in steps, in whatever order the types of members ask for them. The statements do not
show that order: modules are sorted when they are written, and symbols when they are collected.

* `ImportStep`, `Imports.collect` : imports collected step by step;
* `Lists` : entries list what the steps ask for; `lists_collect` : each step keeps this;
* `eq_of_lists` : the steps leave no choice but the order of the modules;
* `Rust.imports_of_same_steps` : so the statements depend on what is asked for, and on nothing else.
-/

namespace SchemaSnippets.Data

/-- With distinct keys, the entries of the other keys stay. -/
theorem mem_setEntry_iff {κ α : Type} [DecidableEq κ] {key : κ} {value : α} {es : List (κ × α)}
    (h : (es.map Prod.fst).Nodup) {e : κ × α} :
    e ∈ setEntry key value es ↔ e = (key, value) ∨ e ∈ es ∧ e.1 ≠ key := by
  induction es with
  | nil => simp [setEntry]
  | cons d es ih =>
      rw [List.map_cons, List.nodup_cons] at h
      have hother : e ∈ es → e.1 ≠ d.1 := fun he heq => h.1 (heq ▸ List.mem_map_of_mem he)
      rw [setEntry]
      split
      · rename_i hkey
        rw [List.mem_cons, List.mem_cons, hkey]
        grind
      · rename_i hkey
        rw [List.mem_cons, ih h.2, List.mem_cons]
        grind

/-- The keys of sorted entries are a sorted list of texts. -/
theorem map_fst_insertEntry {α : Type} (key : String) (value : α) (es : List (String × α)) :
    (insertEntry key value es).map Prod.fst = insertSorted key (es.map Prod.fst) := by
  induction es with
  | nil => rfl
  | cons e es ih =>
      rw [insertEntry, List.map_cons, insertSorted]
      split
      · rfl
      · split
        · rename_i heq
          rw [← heq]
          rfl
        · rw [List.map_cons, ih]

end SchemaSnippets.Data

namespace SchemaSnippets.Model
open Data

/-- A step of collecting imports: a symbol of a module, or a module for itself. -/
inductive ImportStep where
  | add (module symbol : String)
  | addModule (module : String)
deriving DecidableEq, Repr

namespace ImportStep

def target : ImportStep → String
  | .add module _ => module
  | .addModule module => module

/-- What a step brings into the text. -/
def names : ImportStep → List String
  | .add module symbol => [module, symbol]
  | .addModule module => [module]

theorem target_mem_names (s : ImportStep) : s.target ∈ s.names := by
  cases s <;> exact List.mem_cons_self ..

end ImportStep

namespace Imports

def step (i : Imports) : ImportStep → Imports
  | .add module symbol => i.add module symbol
  | .addModule module => i.addModule module

/-- The imports that some steps ask for, one after the other. -/
def collect (steps : List ImportStep) : Imports :=
  steps.foldl step empty

/-- The entries list the modules of the steps, each with its symbols in increasing order. -/
structure Lists (steps : List ImportStep) (entries : List (String × List String)) : Prop where
  modules : ∀ module, module ∈ entries.map Prod.fst ↔ ∃ s ∈ steps, s.target = module
  sorted : ∀ e ∈ entries, e.2.Pairwise (· < ·)
  symbols : ∀ e ∈ entries, ∀ symbol, symbol ∈ e.2 ↔ .add e.1 symbol ∈ steps

variable {steps : List ImportStep} {entries entries' : List (String × List String)} {i : Imports}

theorem Lists.perm (h : Lists steps entries) (hperm : entries'.Perm entries) :
    Lists steps entries' where
  modules module := by rw [(hperm.map Prod.fst).mem_iff, h.modules]
  sorted e he := h.sorted e (hperm.mem_iff.1 he)
  symbols e he := h.symbols e (hperm.mem_iff.1 he)

/-- The symbols collected for a module, which may be none or not be there. -/
theorem Lists.symbols_of_module (h : Lists steps i.modules) (module : String) :
    (i.symbols module).Pairwise (· < ·) ∧
      ∀ symbol, symbol ∈ i.symbols module ↔ .add module symbol ∈ steps := by
  unfold Imports.symbols
  cases hlookup : i.modules.lookup module with
  | none =>
      refine ⟨List.Pairwise.nil, fun symbol => ?_⟩
      have hmissing : module ∉ i.modules.map Prod.fst := by
        intro hmem
        obtain ⟨e, he, rfl⟩ := List.mem_map.1 hmem
        exact bne_iff_ne.1 (List.lookup_eq_none_iff.1 hlookup e he) rfl
      rw [h.modules] at hmissing
      rw [Option.getD_none]
      exact iff_of_false List.not_mem_nil fun hstep => hmissing ⟨_, hstep, rfl⟩
  | some ss =>
      obtain ⟨before, after, hmodules, -⟩ := List.lookup_eq_some_iff.1 hlookup
      have hmem : (module, ss) ∈ i.modules := by
        rw [hmodules]
        exact List.mem_append_right _ (List.mem_cons_self ..)
      exact ⟨h.sorted _ hmem, h.symbols _ hmem⟩

/-- One more step sets one entry: the symbols that its module has now. -/
theorem Lists.setEntry (h : Lists steps i.modules) (hnodup : (i.modules.map Prod.fst).Nodup)
    {s : ImportStep} {ss : List String} (hsorted : ss.Pairwise (· < ·))
    (hsymbols : ∀ symbol, symbol ∈ ss ↔ .add s.target symbol ∈ steps ++ [s]) :
    Lists (steps ++ [s]) (Data.setEntry s.target ss i.modules) := by
  have hmem (e : String × List String) : e ∈ Data.setEntry s.target ss i.modules ↔
      e = (s.target, ss) ∨ e ∈ i.modules ∧ e.1 ≠ s.target := mem_setEntry_iff hnodup
  refine ⟨fun module => ?_, fun e he => ?_, fun e he symbol => ?_⟩
  · have hkeys : module ∈ (Data.setEntry s.target ss i.modules).map Prod.fst ↔
        module ∈ i.modules.map Prod.fst ∨ module = s.target := by
      rw [map_fst_setEntry]
      split
      · rename_i hknown
        exact ⟨Or.inl, fun hor => hor.elim id fun heq => heq ▸ hknown⟩
      · rw [List.mem_append, List.mem_singleton]
    rw [hkeys, h.modules]
    simp [or_and_right, exists_or, eq_comm]
  · rcases (hmem e).1 he with rfl | ⟨he, -⟩
    · exact hsorted
    · exact h.sorted e he
  · rcases (hmem e).1 he with rfl | ⟨he, hother⟩
    · exact hsymbols symbol
    · have hnew : ImportStep.add e.1 symbol ≠ s := fun heq => hother (heq ▸ rfl)
      rw [h.symbols e he, List.mem_append, List.mem_singleton, or_iff_left hnew]

theorem Lists.step (h : Lists steps i.modules) (hnodup : (i.modules.map Prod.fst).Nodup)
    (s : ImportStep) : Lists (steps ++ [s]) (i.step s).modules := by
  cases s with
  | add module symbol =>
      obtain ⟨hsorted, hsymbols⟩ := h.symbols_of_module module
      refine h.setEntry (s := .add module symbol) hnodup (pairwise_insertSorted symbol hsorted)
        fun symbol' => ?_
      show symbol' ∈ insertSorted symbol (i.symbols module) ↔ .add module symbol' ∈ steps ++ _
      rw [mem_insertSorted, hsymbols, List.mem_append, List.mem_singleton, or_comm]
      exact or_congr_right ⟨fun heq => heq ▸ rfl, fun heq => (ImportStep.add.inj heq).2⟩
  | addModule module =>
      obtain ⟨hsorted, hsymbols⟩ := h.symbols_of_module module
      refine h.setEntry (s := .addModule module) hnodup hsorted fun symbol => ?_
      show symbol ∈ i.symbols module ↔ .add module symbol ∈ steps ++ _
      rw [hsymbols, List.mem_append, List.mem_singleton, or_iff_left ImportStep.noConfusion]

theorem nodup_step (h : (i.modules.map Prod.fst).Nodup) (s : ImportStep) :
    ((i.step s).modules.map Prod.fst).Nodup := by
  have hset : ∀ module (ss : List String), ((Data.setEntry module ss i.modules).map Prod.fst).Nodup := by
    intro module ss
    rw [map_fst_setEntry]
    split
    · exact h
    · rename_i hnew
      exact List.nodup_append.2 ⟨h, List.pairwise_singleton _ _, fun m hm m' hm' heq =>
        hnew (List.mem_singleton.1 hm' ▸ heq ▸ hm)⟩
  cases s <;> exact hset _ _

/-- The collected modules list the steps, each module once. -/
theorem lists_collect (steps : List ImportStep) :
    ((collect steps).modules.map Prod.fst).Nodup ∧ Lists steps (collect steps).modules := by
  induction steps using List.reverseRecOn with
  | nil => exact ⟨List.nodup_nil, by simp [collect, empty], List.forall_mem_nil _, List.forall_mem_nil _⟩
  | append_singleton steps s ih =>
      have hcollect : collect (steps ++ [s]) = (collect steps).step s := List.foldl_concat ..
      rw [hcollect]
      exact ⟨nodup_step ih.1 s, ih.2.step ih.1 s⟩

/-- In increasing order of the modules, only one list of entries lists some steps. -/
theorem eq_of_lists (h : Lists steps entries) (h' : Lists steps entries')
    (hsorted : (entries.map Prod.fst).Pairwise (· < ·))
    (hsorted' : (entries'.map Prod.fst).Pairwise (· < ·)) : entries = entries' := by
  have hsub : ∀ {es es'}, Lists steps es → Lists steps es' → ∀ e ∈ es, e ∈ es' := by
    intro es es' hes hes' e he
    have hmodule : e.1 ∈ es'.map Prod.fst :=
      (hes'.modules e.1).2 ((hes.modules e.1).1 (List.mem_map_of_mem he))
    obtain ⟨e', he', hfst⟩ := List.mem_map.1 hmodule
    have hsnd : e'.2 = e.2 := (hes'.sorted e' he').eq_of_mem_iff (hes.sorted e he) fun symbol => by
      rw [hes'.symbols e' he', hes.symbols e he, hfst]
    rwa [← Prod.ext hfst hsnd]
  let below (d e : String × List String) : Prop := d.1 < e.1
  have : Std.Antisymm below := ⟨fun _ _ hlt hgt => absurd hgt (String.lt_asymm hlt)⟩
  have : Std.Irrefl below := ⟨fun d => String.lt_irrefl d.1⟩
  exact List.Pairwise.eq_of_mem_iff (r := below) (List.pairwise_map.1 hsorted)
    (List.pairwise_map.1 hsorted') fun e => ⟨hsub h h' e, hsub h' h e⟩

end Imports

end SchemaSnippets.Model

namespace SchemaSnippets.Target.Rust
open Code Model

/-- Modules that are inserted one after the other are in increasing order. -/
theorem pairwise_sortedModules (i : Imports) :
    ((sortedModules i).map Prod.fst).Pairwise (· < ·) := by
  have hfold : ∀ es acc : List (String × List String), (acc.map Prod.fst).Pairwise (· < ·) →
      ((es.foldl (fun ms e => Data.insertEntry e.1 e.2 ms) acc).map Prod.fst).Pairwise (· < ·) := by
    intro es
    induction es with
    | nil => exact fun acc h => h
    | cons e es ih =>
        intro acc h
        refine ih _ ?_
        rw [Data.map_fst_insertEntry]
        exact Data.pairwise_insertSorted e.1 h
  exact hfold i.modules [] List.Pairwise.nil

/-- The collected modules in increasing order. -/
theorem lists_sortedModules (steps : List ImportStep) :
    Imports.Lists steps (sortedModules (.collect steps)) := by
  obtain ⟨hnodup, hlists⟩ := Imports.lists_collect steps
  exact hlists.perm (perm_sortedModules hnodup)

/-- The import block depends only on what is imported: steps in another order, or repeated, give the same
text. It has one line for each module, in increasing order, and each names the module's symbols in
increasing order. -/
theorem imports_of_same_steps {steps steps' : List ImportStep} (h : ∀ s, s ∈ steps ↔ s ∈ steps') :
    imports (.collect steps) = imports (.collect steps') ∧
    ∃ entries : List (String × List String),
      Imports.Lists steps entries ∧ (entries.map Prod.fst).Pairwise (· < ·) ∧
      imports (.collect steps) = linesText (entries.map fun e => importLine e.1 e.2) ∧
      ((∀ s ∈ steps, ∀ name ∈ s.names, isLine name) →
        Text.lines (imports (.collect steps)) = entries.map fun e => importLine e.1 e.2) := by
  have hlists := lists_sortedModules steps
  have hsorted := pairwise_sortedModules (.collect steps)
  have hsame : Imports.Lists steps (sortedModules (.collect steps')) := by
    have hlists' := lists_sortedModules steps'
    refine ⟨fun module => ?_, hlists'.sorted, fun e he symbol => ?_⟩
    · simp only [hlists'.modules, h]
    · rw [hlists'.symbols e he, h]
  have hentries : sortedModules (.collect steps) = sortedModules (.collect steps') :=
    Imports.eq_of_lists hlists hsame hsorted (pairwise_sortedModules _)
  refine ⟨by rw [imports_eq, hentries, ← imports_eq], _, hlists, hsorted, imports_eq _, fun hnames => ?_⟩
  rw [imports_eq]
  refine lines_linesText (List.all_eq_true.2 (List.forall_mem_map.2 fun e he => ?_))
  refine isLine_importLine ?_ fun symbol hsymbol => ?_
  · obtain ⟨s, hs, htarget⟩ := (hlists.modules e.1).1 (List.mem_map_of_mem he)
    exact htarget ▸ hnames s hs s.target s.target_mem_names
  · exact hnames _ ((hlists.symbols e he symbol).1 hsymbol) symbol (by simp [ImportStep.names])

/-- Steps of a model with a date and a time, in two orders. -/
def releaseSteps : List ImportStep :=
  [.add "serde" "Serialize", .add "rust_decimal" "Decimal", .addModule "chrono", .add "chrono" "Utc",
    .add "chrono" "DateTime", .addModule "std"]

/-- The same steps in another order, some of them twice. -/
def releaseSteps' : List ImportStep :=
  [.addModule "std", .add "chrono" "DateTime", .addModule "std", .add "chrono" "Utc",
    .add "serde" "Serialize", .addModule "chrono", .add "chrono" "DateTime", .add "rust_decimal" "Decimal"]

theorem releases_of_same_steps : (∀ s, s ∈ releaseSteps ↔ s ∈ releaseSteps') ∧
    imports (.collect releaseSteps') = "use chrono::\x7bDateTime, Utc\x7d;\nuse rust_decimal::Decimal;\n" ++
      "use serde::Serialize;\nuse std;\n" := by
  have hsame : ∀ s, s ∈ releaseSteps ↔ s ∈ releaseSteps' := by
    intro s
    simp only [releaseSteps, releaseSteps', List.mem_cons, List.not_mem_nil, or_false]
    tauto
  refine ⟨hsame, ?_⟩
  rw [← (imports_of_same_steps hsame).1]
  decide +kernel

end SchemaSnippets.Target.Rust

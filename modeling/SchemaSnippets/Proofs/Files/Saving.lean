import SchemaSnippets.Proofs.Files.Lookup

/-!
# Saving files

A file is saved in three steps: a look at whether something is there, the directories, and the file itself.
Each step leaves a tree that extends the one before, and only the last one touches a file.

* `Grows` : a tree with more directories; `grows_ensureDirectory`;
* `Writes` : a tree with a file where a path leads; `writes_of_write?`;
* `Outcome` : all that can come of a save; `outcome_save`.
-/

namespace SchemaSnippets.Files.FileTree
open Data

variable {t t' t'' : FileTree} {names : List String} {path : String}

/-! ## Putting -/

theorem node?_put (hnames : names ≠ []) (n : FileNode) (others : List String) :
    (t.put names n).node? others = if others = names then some n else t.node? others := by
  by_cases hroot : others = []
  · rw [if_neg (hroot ▸ hnames.symm), hroot]
    rfl
  · have hempty : ¬ others.isEmpty = true := by rwa [List.isEmpty_iff]
    rw [node?, node?, if_neg hempty, if_neg hempty]
    have hlookup := lookup_setEntry names others n t.nodes
    rwa [lawful_beq_subsingleton instBEqOfDecidableEq List.instBEq] at hlookup

theorem ne_nil_of_node? (h : t.node? names ≠ some .directory) : names ≠ [] := by
  rintro rfl
  exact h rfl

theorem IsTree.put (ht : t.IsTree) (hparent : t.node? names.dropLast = some .directory)
    (hnode : t.node? names ≠ some .directory) (n : FileNode) : (t.put names n).IsTree := by
  have hnames := ne_nil_of_node? hnode
  -- a directory is not where something can be put
  have hdirectory {others : List String} (h : t.node? others = some .directory) :
      (t.put names n).node? others = some .directory := by
    rw [node?_put hnames, if_neg, h]
    rintro rfl
    exact hnode h
  refine ⟨hdirectory ht.workingDirectory, fun {others m} h => hdirectory ?_⟩
  rw [node?_put hnames] at h
  split at h
  · rename_i heq
    rwa [heq]
  · exact ht.parent h

/-- Where nothing is, anything can be put, and a file where a file is. -/
theorem extends_put (ht : t.IsTree) {n : FileNode}
    (hparent : t.node? names.dropLast = some .directory) (hnode : t.node? names ≠ some .directory)
    (hfile : t.file? names ≠ none → ∃ c, n = .file c) : t.Extends (t.put names n) where
  isTree := ht.put hparent hnode n
  workingDirectory := rfl
  directory {others} h := by
    rw [node?_put (ne_nil_of_node? hnode), if_neg, h]
    rintro rfl
    exact hnode h
  file {others c} h := by
    rw [node?_put (ne_nil_of_node? hnode)]
    split
    · rename_i heq
      obtain ⟨c', rfl⟩ := hfile (by rw [← heq, file?_eq_some.2 h]; exact Option.some_ne_none c)
      exact ⟨c', rfl⟩
    · exact ⟨c, h⟩

theorem file?_put_of_ne (hnames : names ≠ []) (n : FileNode) {others : List String}
    (hne : others ≠ names) : (t.put names n).file? others = t.file? others := by
  rw [file?, file?, node?_put hnames, if_neg hne]

/-! ## Directories -/

/-- A tree with more directories. -/
structure Grows (t t' : FileTree) : Prop extends t.Extends t' where
  files (names : List String) : t'.file? names = t.file? names

protected theorem Grows.refl (ht : t.IsTree) : t.Grows t :=
  ⟨.refl ht, fun _ => rfl⟩

protected theorem Grows.trans (h : t.Grows t') (h' : t'.Grows t'') : t.Grows t'' :=
  ⟨h.toExtends.trans h'.toExtends, fun names => (h'.files names).trans (h.files names)⟩

theorem grows_put_directory (ht : t.IsTree) (h : t.locate path = .free names) :
    t.Grows (t.put names .directory) := by
  obtain ⟨-, hnone, hparent⟩ := locate_eq_free ht h
  have hnode : t.node? names ≠ some .directory := by simp [hnone]
  have hfile : t.file? names = none := by simp [file?, hnone]
  refine ⟨extends_put ht hparent hnode fun h => absurd hfile h, fun others => ?_⟩
  by_cases heq : others = names
  · rw [heq, hfile, file?, node?_put (ne_nil_of_node? hnode), if_pos rfl]
  · exact file?_put_of_ne (ne_nil_of_node? hnode) _ heq

theorem grows_ensureDirectory (ht : t.IsTree) (fuel : Nat) (path : String) :
    t.Grows (ensureDirectory fuel t path).1 := by
  fun_induction ensureDirectory fuel t path with
  | case1 t path => exact .refl ht
  | case2 fuel t path => exact .refl ht
  | case3 fuel t path => exact .refl ht
  | case4 fuel t path => exact .refl ht
  | case5 fuel t path => exact .refl ht
  | case6 fuel t path hpath names hplace => exact grows_put_directory ht hplace
  | case7 fuel t path => exact .refl ht
  | case8 fuel t path hpath hplace parent hparent t' hmade ih =>
      have hgrows := ih ht
      rwa [hmade] at hgrows
  | case9 fuel t path hpath hplace parent hparent t' hmade names hplace' ih =>
      have hgrows := ih ht
      rwa [hmade] at hgrows
  | case10 fuel t path hpath hplace parent hparent t' hmade names hplace' ih =>
      have hgrows := ih ht
      rw [hmade] at hgrows
      exact hgrows.trans (grows_put_directory hgrows.isTree hplace')
  | case11 fuel t path hpath hplace parent hparent t' hmade hdirectory hfree ih =>
      have hgrows := ih ht
      rwa [hmade] at hgrows

/-! ## Files -/

/-- A tree with a file where a path leads, and the other files as they were. -/
structure Writes (t : FileTree) (path : String) (c : FileContent) (t' : FileTree) : Prop
    extends t.Extends t' where
  hasPlace : t.locate path ≠ .astray ∧ t.locate path ≠ .blocked
  located : t'.locate path = .taken (t.destination path) (.file c)
  others {names : List String} (h : names ≠ t.destination path) : t'.file? names = t.file? names

theorem writes_of_write? (ht : t.IsTree) {c : FileContent} (h : t.write? path c = some t') :
    t.Writes path c t' := by
  unfold write? at h
  split at h
  · rename_i d c' hplace
    obtain rfl := Option.some.inj h
    obtain ⟨rfl, hnode⟩ := locate_eq_taken ht hplace
    have hfile : t.node? (t.destination path) ≠ some .directory := by simp [hnode]
    have hnames := ne_nil_of_node? hfile
    have hextends := extends_put (n := .file c) ht (ht.parent hnode) hfile fun _ => ⟨c, rfl⟩
    refine ⟨hextends, by simp [hplace], ?_, fun hne => file?_put_of_ne hnames _ hne⟩
    have hstays := hextends.stays_locate path
    rw [hplace] at hstays
    obtain ⟨c'', hplace'⟩ := hstays
    obtain ⟨-, hnode'⟩ := locate_eq_taken hextends.isTree hplace'
    rw [node?_put hnames, if_pos rfl] at hnode'
    rw [hplace', ← Option.some.inj hnode']
  · rename_i d hplace
    obtain ⟨rfl, hnone, hparent⟩ := locate_eq_free ht hplace
    split at h
    · cases h
    · rename_i hslash
      obtain rfl := Option.some.inj h
      have hnode : t.node? (t.destination path) ≠ some .directory := by simp [hnone]
      have hnames := ne_nil_of_node? hnode
      have hextends := extends_put (n := .file c) ht hparent hnode fun _ => ⟨c, rfl⟩
      refine ⟨hextends, by simp [hplace], ?_, fun hne => file?_put_of_ne hnames _ hne⟩
      refine hextends.locate_of_free hplace ?_ (Bool.not_eq_true _ ▸ hslash)
      rw [node?_put hnames, if_pos rfl]
  · cases h

/-! ## Saves -/

/-- What can come of a save: nothing is done, or only directories are made, or then the file is written. -/
inductive Outcome (keep : Bool) (t : FileTree) (path content : String) :
    FileTree × Except SaveError Bool → Prop where
  | kept (hkeep : keep = true) (hthere : t.exists? path = true) : Outcome keep t path content (t, .ok false)
  | failed {t' : FileTree} {e : SaveError} (hgrows : t.Grows t') :
      Outcome keep t path content (t', .error e)
  | written {grown t' : FileTree} (hfree : keep = true → t.exists? path = false) (hgrows : t.Grows grown)
      (hwrites : grown.Writes path (.text content) t') : Outcome keep t path content (t', .ok true)

/-- What a save tells of a written file. -/
def saved : FileTree × Except SaveError Unit → FileTree × Except SaveError Bool
  | (t, .ok ()) => (t, .ok true)
  | (t, .error e) => (t, .error e)

theorem outcome_write? {grown : FileTree} {keep : Bool} {content : String}
    (hfree : keep = true → t.exists? path = false) (hgrows : t.Grows grown) :
    Outcome keep t path content
      (saved ((grown.write? path (.text content)).elim (grown, .error (.file path)) fun t => (t, .ok ()))) := by
  cases hwrite : grown.write? path (.text content) with
  | none => exact .failed hgrows
  | some t' => exact .written hfree hgrows (writes_of_write? hgrows.isTree hwrite)

theorem outcome_writeFile (ht : t.IsTree) {keep : Bool} {content : String}
    (hfree : keep = true → t.exists? path = false) :
    Outcome keep t path content (saved (t.writeFile path (.text content))) := by
  rw [writeFile]
  split
  · exact outcome_write? hfree (.refl ht)
  · rename_i parent hparent
    have hgrows := grows_ensureDirectory ht (path.length + 1) parent
    split
    · rename_i grown hmade
      rw [hmade] at hgrows
      exact .failed hgrows
    · rename_i grown hmade
      rw [hmade] at hgrows
      exact outcome_write? hfree hgrows

theorem outcome_save (ht : t.IsTree) (keep : Bool) (path content : String) :
    Outcome keep t path content (t.save keep path content) := by
  rw [save]
  split
  · rename_i hkept
    obtain ⟨hkeep, hthere⟩ := Bool.and_eq_true_iff.1 hkept
    exact .kept hkeep hthere
  · rename_i hkept
    have hfree : keep = true → t.exists? path = false := by
      rintro rfl
      simpa using hkept
    exact outcome_writeFile ht hfree

end SchemaSnippets.Files.FileTree

import SchemaSnippets.Proofs.Report.SavedFiles

/-!
# Below the output directory

The path of a snippet is made of the output directory, the id of the language and a file name, and none of
them is looked at. The file name does not move, so the id alone decides whether the file is below the
directory.

* `parts_join` : the parts of a path inside a directory; `destination_snippetPath` : where a snippet goes;
* `Below` : names that lead on from those of a directory;
* `produce_below` : all files are below the directory if and only if no id leads out of it;
  `produce_escapes` : an id that does.
-/

namespace SchemaSnippets.Files

/-! ## Paths inside a directory -/

theorem splitSlash_ne_nil (cs : List Char) : splitSlash cs ≠ [] := by
  cases cs with
  | nil => exact List.cons_ne_nil _ _
  | cons c cs =>
      rw [splitSlash]
      split
      · exact List.cons_ne_nil _ _
      · split <;> exact List.cons_ne_nil _ _

theorem splitSlash_append (as bs : List Char) :
    splitSlash (as ++ '/' :: bs) = splitSlash as ++ splitSlash bs := by
  induction as with
  | nil => rfl
  | cons c as ih =>
      rw [List.cons_append, splitSlash, splitSlash, ih]
      split
      · rfl
      · cases hsplit : splitSlash as with
        | nil => exact absurd hsplit (splitSlash_ne_nil as)
        | cons p ps => rfl

theorem parts_eq_append {path : String} {cs cs' : List Char} (hpath : path.toList = cs ++ '/' :: cs') :
    parts path = parts (String.ofList cs) ++ parts (String.ofList cs') := by
  rw [parts, hpath, splitSlash_append, List.filter_append, List.map_append, parts, parts,
    String.toList_ofList, String.toList_ofList]

/-- The parts of a path inside a directory are those of the directory and those of the path. -/
theorem parts_join {path : String} (dir : String) (hpath : isAbsolute path = false) :
    parts (join dir path) = parts dir ++ parts path := by
  rw [join, hpath, if_neg Bool.false_ne_true]
  split
  · rename_i hdir
    rcases hdir with rfl | hslash
    · rw [String.empty_append]
      rfl
    · obtain ⟨cs, hcs⟩ := List.getLast?_eq_some_iff.1 (beq_iff_eq.1 hslash)
      have hjoin : (dir ++ path).toList = cs ++ '/' :: path.toList := by
        rw [String.toList_append, hcs, List.append_assoc]
        rfl
      rw [parts_eq_append hjoin, parts_eq_append hcs, String.ofList_toList, List.append_assoc]
      rfl
  · have hjoin : (dir ++ "/" ++ path).toList = dir.toList ++ '/' :: path.toList := by
      rw [String.toList_append, String.toList_append, List.append_assoc]
      rfl
    rw [parts_eq_append hjoin, String.ofList_toList, String.ofList_toList]

theorem isAbsolute_append {dir : String} (hdir : dir ≠ "") (path : String) :
    isAbsolute (dir ++ path) = isAbsolute dir := by
  have hchars : dir.toList ≠ [] := fun h => hdir (String.toList_eq_nil_iff.1 h)
  rw [isAbsolute, isAbsolute, String.toList_append, List.head?_append_of_ne_nil _ hchars]

theorem isAbsolute_join {path : String} (dir : String) (hpath : isAbsolute path = false) :
    isAbsolute (join dir path) = isAbsolute dir := by
  rw [join, hpath, if_neg Bool.false_ne_true]
  by_cases hdir : dir = ""
  · rw [hdir, if_pos (Or.inl rfl), String.empty_append, hpath]
    rfl
  · split
    · exact isAbsolute_append hdir path
    · rw [String.append_assoc, isAbsolute_append hdir]

theorem FileTree.destination_join (t : FileTree) {path : String} (dir : String)
    (hpath : isAbsolute path = false) :
    t.destination (join dir path) = destinationFrom (t.destination dir) (parts path) := by
  rw [destination, start, isAbsolute_join dir hpath, parts_join dir hpath, destinationFrom_append]
  rfl

/-- A path that never goes up leads on from where it starts. -/
theorem prefix_destinationFrom {ps : List String} (names : List String) (hps : ".." ∉ ps) :
    names <+: destinationFrom names ps := by
  induction ps generalizing names with
  | nil => exact List.prefix_rfl
  | cons part ps ih =>
      rw [List.mem_cons, not_or] at hps
      refine List.IsPrefix.trans ?_ (ih (move names part) hps.2)
      by_cases hdot : part = "."
      · subst hdot
        exact List.prefix_rfl
      · rw [move_name names hdot (Ne.symm hps.1)]
        exact List.prefix_append names [part]

/-- The names lead on from those of a directory. -/
def Below (base names : List String) : Prop :=
  base <+: names ∧ base ≠ names

theorem below_concat_iff {base names : List String} {name : String} :
    Below base (names ++ [name]) ↔ base <+: names := by
  rw [Below, List.prefix_concat_iff]
  constructor
  · rintro ⟨heq | h, hne⟩
    · exact absurd heq hne
    · exact h
  · refine fun h => ⟨Or.inr h, ?_⟩
    rintro rfl
    exact absurd h.length_le (by simp)

end SchemaSnippets.Files

namespace SchemaSnippets.Report
open Files Request Snippet

variable {target : Target} {r : CodeRequest} {o : Options} {s : CodeSnippet}

/-! ## The files of a request -/

theorem label_of_mem_generate (h : s ∈ (generate target r o).snippets) :
    s.label = modelLabel ∨ s.label = queryLabel := by
  unfold generate withModel withoutModel at h
  dsimp only at h
  split at h
  · rcases List.mem_append.1 h with h | h
    · obtain ⟨content, -, rfl⟩ := List.mem_map.1 h
      exact Or.inl rfl
    · exact Or.inr (List.mem_singleton.1 h ▸ rfl)
  · exact Or.inr (List.mem_singleton.1 h ▸ rfl)

theorem snippets_generate_ne_nil (target : Target) (r : CodeRequest) (o : Options) :
    (generate target r o).snippets ≠ [] := by
  unfold generate withModel withoutModel
  dsimp only
  split
  · exact List.append_ne_nil_of_right_ne_nil _ (List.cons_ne_nil _ _)
  · exact List.cons_ne_nil _ _

theorem extension_mem (target : Target) : target.profile.extension ∈ ["ts", "kt", "rs", "json", "txt"] := by
  cases target with
  | unmapped language => exact (by decide : "txt" ∈ ["ts", "kt", "rs", "json", "txt"])
  | _ => decide

/-- The name of a snippet's file. -/
def snippetFile (target : Target) (s : CodeSnippet) : String :=
  s.label ++ "." ++ target.profile.extension

/-- The name of a file is a part of its own that does not move. -/
theorem snippetFile_spec (h : s ∈ (generate target r o).snippets) :
    isAbsolute (snippetFile target s) = false ∧
      ∀ names, destinationFrom names (parts (snippetFile target s)) = names ++ [snippetFile target s] := by
  have hall : ∀ label ∈ [modelLabel, queryLabel], ∀ extension ∈ ["ts", "kt", "rs", "json", "txt"],
      isAbsolute (label ++ "." ++ extension) = false ∧
      parts (label ++ "." ++ extension) = [label ++ "." ++ extension] ∧
      label ++ "." ++ extension ≠ "." ∧ label ++ "." ++ extension ≠ ".." := by
    decide +kernel
  have hlabel : s.label ∈ [modelLabel, queryLabel] := by simpa using label_of_mem_generate h
  obtain ⟨habsolute, hparts, hdot, hup⟩ := hall _ hlabel _ (extension_mem target)
  refine ⟨habsolute, fun names => ?_⟩
  rw [snippetFile, hparts]
  exact move_name names hdot hup

/-- A snippet goes to a file in the directory of its language. -/
theorem destination_snippetPath (t : FileTree) (d : Destination) (h : s ∈ (generate target r o).snippets) :
    t.destination (snippetPath d target s) =
      t.destination (join d.directory target.id) ++ [snippetFile target s] := by
  obtain ⟨habsolute, hname⟩ := snippetFile_spec h
  change t.destination (join (join d.directory target.id) (snippetFile target s)) = _
  rw [t.destination_join _ habsolute, hname]

theorem below_plannedFor_iff (t : FileTree) (d : Destination) (target : Target) (r : CodeRequest)
    (o : Options) (base : List String) :
    (∀ e ∈ plannedFor d target (generate target r o).snippets, Below base (t.destination e.path)) ↔
      base <+: t.destination (join d.directory target.id) := by
  have hfile : ∀ s ∈ (generate target r o).snippets,
      (Below base (t.destination (snippetPath d target s)) ↔
        base <+: t.destination (join d.directory target.id)) := by
    intro s hs
    rw [destination_snippetPath t d hs, below_concat_iff]
  rw [plannedFor, List.forall_mem_map]
  refine ⟨fun h => ?_, fun h s hs => (hfile s hs).2 h⟩
  obtain ⟨s, hs⟩ := List.exists_mem_of_ne_nil _ (snippets_generate_ne_nil target r o)
  exact (hfile s hs).1 (h s hs)

/-- Files are written at the places of the snippets and nowhere else. They are all below the output directory if
and only if the directory of each language is the output directory or below it, as it is for each id that is not
absolute and never goes up. -/
theorem produce_below {t : FileTree} (ht : t.IsTree) (r : CodeRequest) (languages : List String)
    (o : Options) (d : Destination) :
    let base := t.destination d.directory
    let plan := plannedFiles r languages o d
    let run := produceIn t r languages o d
    (∀ report, run.1 = .ok report → report.files.map (·.path) = plan.map (·.path)) ∧
    (∀ names, run.2.file? names ≠ t.file? names → ∃ e ∈ plan, t.destination e.path = names) ∧
    ((∀ e ∈ plan, Below base (t.destination e.path)) ↔
      ∀ id ∈ languages, base <+: t.destination (join d.directory (Target.ofId id).id)) ∧
    ∀ id ∈ languages, isAbsolute (Target.ofId id).id = false → ".." ∉ parts (Target.ofId id).id →
      base <+: t.destination (join d.directory (Target.ofId id).id) := by
  intro base plan run
  obtain ⟨hrun, -⟩ := run_produce ht r languages o d
  refine ⟨fun report hreport => ?_, fun names hchanged => ?_, ?_, fun id _ habsolute hup => ?_⟩
  · have hreported := hrun.reported (congrArg (Except.map (·.files)) hreport)
    have hpaths : List.Forall₂ (· = ·) (report.files.map (·.path)) (plan.map (·.path)) := by
      rw [List.forall₂_map_left_iff, List.forall₂_map_right_iff]
      exact hreported.flip.imp fun f e hf => hf.1
    rwa [List.forall₂_eq_eq_eq] at hpaths
  · obtain ⟨e, he, hnames, -⟩ := (hrun.files names).resolve_left hchanged
    exact ⟨e, he, hnames⟩
  · simp only [plan, plannedFiles, List.forall_mem_flatMap]
    exact forall₂_congr fun id _ => below_plannedFor_iff t d (Target.ofId id) r o base
  · rw [t.destination_join _ habsolute]
    exact prefix_destinationFrom base hup

/-- The registered ids stay below the directory. -/
theorem produce_below_out :
    FileTree.fresh.IsTree ∧ ∀ e ∈ plannedFiles filmRequest ["rust", "sheets"] ⟨"client", true⟩ ⟨"out", false⟩,
      Below ["work", "session", "out"] (FileTree.fresh.destination e.path) := by
  have hids : ∀ id ∈ ["rust", "sheets"],
      isAbsolute (Target.ofId id).id = false ∧ ".." ∉ parts (Target.ofId id).id := by decide +kernel
  have hbelow := produce_below FileTree.isTree_fresh filmRequest ["rust", "sheets"] ⟨"client", true⟩
    ⟨"out", false⟩
  refine ⟨FileTree.isTree_fresh, hbelow.2.2.1.2 fun id hid => ?_⟩
  exact hbelow.2.2.2 id hid (hids id hid).1 (hids id hid).2

/-- An id that leads out of the directory. -/
theorem produce_escapes :
    (produceIn FileTree.fresh filmRequest [".."] ⟨"client", true⟩ ⟨"out", false⟩).1.map (·.files) =
      .ok [⟨"out/../model.txt", true⟩, ⟨"out/../query.txt", true⟩] ∧
    FileTree.fresh.destination "out/../model.txt" = ["work", "session", "model.txt"] ∧
    ¬ Below (FileTree.fresh.destination "out") (FileTree.fresh.destination "out/../model.txt") := by
  refine ⟨by decide +kernel, by decide +kernel, ?_⟩
  unfold Below
  decide +kernel

end SchemaSnippets.Report

import Mathlib.Data.List.Forall2
import SchemaSnippets.Proofs.Files.Saving
import SchemaSnippets.Report.Produce

/-!
# What becomes of files

Snippets are saved one after the other, until one cannot be. Unless they are forced, no file is written where
something is, but that is looked at before directories are made: a path that goes back up from a missing
directory leads nowhere at first, and then to a file that has been there all along.

* `plannedFiles` : the files that a request asks for;
* `Run` : what saving some files does to a tree and what is told of it; `Run.append`, `Run.stop`, `run_save` :
  runs in a row, to their end or up to a file that cannot be saved;
* `run_produce` : producing snippets is such a run;
* `produce_keeps_files` : files that were there before stay, and those that are written are the snippets;
  `produce_replaces_sheet` : not so for a path that goes back up from a missing directory.
-/

namespace SchemaSnippets.Report
open Files Request Snippet

/-- A file that a snippet goes to. -/
structure PlannedFile where
  path : String
  snippet : CodeSnippet

/-- The files for the snippets of one language. -/
def plannedFor (d : Destination) (t : Target) (ss : List CodeSnippet) : List PlannedFile :=
  ss.map fun s => ⟨snippetPath d t s, s⟩

theorem map_snippet_plannedFor (d : Destination) (t : Target) (ss : List CodeSnippet) :
    (plannedFor d t ss).map (·.snippet) = ss := by
  rw [plannedFor, List.map_map]
  exact List.map_id ss

/-- The files for the snippets of a request, in the order in which they are written. -/
def plannedFiles (r : CodeRequest) (languages : List String) (o : Options) (d : Destination) :
    List PlannedFile :=
  languages.flatMap fun id => plannedFor d (Target.ofId id) (generate (Target.ofId id) r o).snippets

theorem map_snippet_plannedFiles (r : CodeRequest) (languages : List String) (o : Options)
    (d : Destination) : (plannedFiles r languages o d).map (·.snippet) =
      languages.flatMap fun id => (generate (Target.ofId id) r o).snippets := by
  rw [plannedFiles, List.map_flatMap]
  exact congrArg (List.flatMap · languages) (funext fun id => map_snippet_plannedFor _ _ _)

/-! ## Runs -/

section Runs
variable {keep : Bool} {plan plan' : List PlannedFile} {t t' t'' : FileTree} {e : PlannedFile}
  {names : List String}

/-- Under some names stands the snippet of a file that is planned there. If files are kept, the path of that
file goes back up from a missing directory. -/
def Replaced (keep : Bool) (plan : List PlannedFile) (t t' : FileTree) (names : List String) : Prop :=
  ∃ e ∈ plan, t.destination e.path = names ∧ t'.file? names = some (.text e.snippet.content) ∧
    (keep = true → t.ReturnsFromMissing e.path)

/-- Under some names stands the snippet of a file that is planned there, where no file was or one was
replaced. -/
def Filled (keep : Bool) (plan : List PlannedFile) (t t' : FileTree) (names : List String) : Prop :=
  ∃ e ∈ plan, t.destination e.path = names ∧ t'.file? names = some (.text e.snippet.content) ∧
    (keep = true → t.file? names ≠ none → t.ReturnsFromMissing e.path)

theorem Filled.replaced (h : Filled keep plan t t' names) (hfile : t.file? names ≠ none) :
    Replaced keep plan t t' names := by
  obtain ⟨e, he, hnames, hcontent, hreturns⟩ := h
  exact ⟨e, he, hnames, hcontent, fun hkeep => hreturns hkeep hfile⟩

theorem Replaced.mono (h : Replaced keep plan t t' names) (hsub : plan ⊆ plan') :
    Replaced keep plan' t t' names := by
  obtain ⟨e, he, hrest⟩ := h
  exact ⟨e, hsub he, hrest⟩

theorem Replaced.earlier (h : Replaced keep plan t' t'' names) (hextends : t.Extends t') :
    Replaced keep plan t t'' names := by
  obtain ⟨e, he, hnames, hcontent, hreturns⟩ := h
  exact ⟨e, he, (hextends.destination e.path).symm.trans hnames, hcontent,
    fun hkeep => hextends.returnsFromMissing (hreturns hkeep)⟩

/-- A planned file that was written: nothing was there if files are kept, and now the snippet is there, or one
that came later. -/
structure Written (keep : Bool) (plan : List PlannedFile) (t t' : FileTree) (e : PlannedFile) : Prop where
  wasFree (h : keep = true) : t.exists? e.path = false
  located : ∃ c, t'.locate e.path = .taken (t.destination e.path) (.file c)
  content : t'.file? (t.destination e.path) = some (.text e.snippet.content) ∨
    Replaced keep plan t t' (t.destination e.path)

/-- What saving planned files does to a tree, and what is told of it. -/
structure Run (keep : Bool) (plan : List PlannedFile) (t : FileTree)
    (saved : Except SaveError (List SavedFile)) (t' : FileTree) : Prop extends t.Extends t' where
  files (names : List String) : t'.file? names = t.file? names ∨ Filled keep plan t t' names
  reported {fs : List SavedFile} (h : saved = .ok fs) :
    List.Forall₂ (fun e f => f.path = e.path ∧ t'.exists? e.path = true ∧
      (f.written = true → Written keep plan t t' e)) plan fs

variable {saved saved' : Except SaveError (List SavedFile)}

/-- What is written later leaves a written file, or replaces it. -/
theorem Written.later (h : Written keep plan t t' e) (hextends : t.Extends t')
    (hrun : Run keep plan' t' saved t'') : Written keep (plan ++ plan') t t'' e := by
  obtain ⟨c, hlocated⟩ := h.located
  have hfile := (FileTree.locate_eq_taken hextends.isTree hlocated).2
  refine ⟨h.wasFree, ?_, ?_⟩
  · have hstays := hrun.stays_locate e.path
    rwa [hlocated] at hstays
  · rcases hrun.files (t.destination e.path) with hsame | hfilled
    · rw [hsame]
      refine h.content.imp_right fun ⟨e', he', hnames, hcontent, hreturns⟩ => ?_
      exact ⟨e', List.mem_append_left _ he', hnames, hsame.trans hcontent, hreturns⟩
    · have hreplaced := hfilled.replaced (by rw [FileTree.file?_eq_some.2 hfile]; exact Option.some_ne_none c)
      exact Or.inr ((hreplaced.earlier hextends).mono (List.subset_append_right _ _))

/-- What was written later was free before. -/
theorem Written.earlier (h : Written keep plan' t' t'' e) (hextends : t.Extends t') :
    Written keep (plan ++ plan') t t'' e where
  wasFree hkeep := by
    refine Bool.eq_false_iff.2 fun hthere => ?_
    have hlater := hextends.exists? hthere
    rw [h.wasFree hkeep] at hlater
    cases hlater
  located := hextends.destination e.path ▸ h.located
  content := by
    rw [← hextends.destination e.path]
    exact h.content.imp_right fun hreplaced =>
      (hreplaced.earlier hextends).mono (List.subset_append_right _ _)

theorem Run.files_append (h : Run keep plan t saved t') (h' : Run keep plan' t' saved' t'')
    (names : List String) : t''.file? names = t.file? names ∨ Filled keep (plan ++ plan') t t'' names := by
  rcases h'.files names with hsame | ⟨e, he, hnames, hcontent, hreturns⟩
  · rw [hsame]
    refine (h.files names).imp_right fun ⟨e, he, hnames, hcontent, hreturns⟩ => ?_
    exact ⟨e, List.mem_append_left _ he, hnames, hsame.trans hcontent, hreturns⟩
  · refine Or.inr ⟨e, List.mem_append_right _ he, (h.destination e.path).symm.trans hnames, hcontent, ?_⟩
    exact fun hkeep hfile => h.returnsFromMissing (hreturns hkeep (h.file?_ne_none hfile))

/-- Two runs in a row. -/
theorem Run.append {fs : List SavedFile} (h : Run keep plan t (.ok fs) t')
    (h' : Run keep plan' t' saved t'') :
    Run keep (plan ++ plan') t (saved.map (fs ++ ·)) t'' where
  toExtends := h.toExtends.trans h'.toExtends
  files := h.files_append h'
  reported {fs'} hsaved := by
    cases saved with
    | error e => cases hsaved
    | ok gs =>
        obtain rfl : fs ++ gs = fs' := Except.ok.inj hsaved
        refine List.rel_append ?_ ?_
        · exact (h.reported rfl).imp fun e f ⟨hpath, hthere, hwritten⟩ =>
            ⟨hpath, h'.exists? hthere, fun hf => (hwritten hf).later h.toExtends h'⟩
        · exact (h'.reported rfl).imp fun e f ⟨hpath, hthere, hwritten⟩ =>
            ⟨hpath, hthere, fun hf => (hwritten hf).earlier h.toExtends⟩

/-- A run that stops before some of the files. -/
theorem Run.stop {error : SaveError} (h : Run keep plan t (.error error) t') :
    Run keep (plan ++ plan') t (.error error) t' where
  toExtends := h.toExtends
  files names := (h.files names).imp_right fun ⟨e, he, hrest⟩ => ⟨e, List.mem_append_left _ he, hrest⟩
  reported hsaved := by cases hsaved

theorem run_nil (ht : t.IsTree) : Run keep [] t (.ok []) t where
  toExtends := .refl ht
  files _ := Or.inl rfl
  reported h := by
    obtain rfl := Except.ok.inj h
    exact .nil

/-- One file that is saved. -/
theorem run_save (ht : t.IsTree) (keep : Bool) (e : PlannedFile) {result : Except SaveError Bool}
    (h : t.save keep e.path e.snippet.content = (t', result)) :
    Run keep [e] t (result.map fun written => [⟨e.path, written⟩]) t' := by
  have houtcome := FileTree.outcome_save ht keep e.path e.snippet.content
  rw [h] at houtcome
  cases houtcome with
  | kept hkeep hthere =>
      refine ⟨.refl ht, fun names => Or.inl rfl, fun hsaved => ?_⟩
      obtain rfl := Except.ok.inj hsaved
      exact .cons ⟨rfl, hthere, fun hwritten => nomatch hwritten⟩ .nil
  | failed hgrows => exact ⟨hgrows.toExtends, fun names => Or.inl (hgrows.files names), nofun⟩
  | @written grown _ hfree hgrows hwrites =>
      have hextends := hgrows.toExtends.trans hwrites.toExtends
      have hlocated : t'.locate e.path = .taken (t.destination e.path) (.file (.text e.snippet.content)) :=
        hgrows.destination e.path ▸ hwrites.located
      have hcontent := FileTree.file?_eq_some.2 (FileTree.locate_eq_taken hextends.isTree hlocated).2
      refine ⟨hextends, fun names => ?_, fun hsaved => ?_⟩
      · by_cases hnames : names = t.destination e.path
        · refine Or.inr ⟨e, List.mem_singleton_self e, hnames.symm, hnames ▸ hcontent, fun hkeep hfile => ?_⟩
          exact FileTree.returnsFromMissing_of_file ht hgrows.toExtends (hfree hkeep) (hnames ▸ hfile)
            hwrites.hasPlace.1 hwrites.hasPlace.2
        · rw [← hgrows.destination e.path] at hnames
          exact Or.inl ((hwrites.others hnames).trans (hgrows.files names))
      · obtain rfl := Except.ok.inj hsaved
        refine .cons ⟨rfl, ?_, fun _ => ⟨hfree, ⟨_, hlocated⟩, Or.inl hcontent⟩⟩ .nil
        rw [FileTree.exists?, hlocated]

end Runs

/-! ## Producing -/

section Produce
variable {t : FileTree} {r : CodeRequest} {o : Options} {d : Destination}

theorem bind_of_eq {σ α β : Type} {x : StateM σ α} {f : α → StateM σ β} {s s' : σ} {a : α}
    (h : x s = (a, s')) : (x >>= f) s = f a s' := by
  change f (x s).1 (x s).2 = f a s'
  rw [h]

theorem save_of_eq {keep : Bool} {path content : String} {t' : FileTree} {result : Except SaveError Bool}
    (h : t.save keep path content = (t', result)) :
    (FileAccess.save keep path content : StateM FileTree _) t = (result, t') := by
  change ((t.save keep path content).2, (t.save keep path content).1) = _
  rw [h]

/-- Saving the snippets of a language is a run over their files. -/
theorem run_saveSnippets (ht : t.IsTree) (d : Destination) (target : Target) (ss : List CodeSnippet) :
    ∃ saved t', (saveSnippets d target ss : StateM FileTree _) t = (saved, t') ∧
      Run (!d.force) (plannedFor d target ss) t saved t' := by
  induction ss generalizing t with
  | nil => exact ⟨.ok [], t, rfl, run_nil ht⟩
  | cons s ss ih =>
      let e : PlannedFile := ⟨snippetPath d target s, s⟩
      rcases hsave : t.save (!d.force) e.path e.snippet.content with ⟨t', error | written⟩
      · refine ⟨.error error, t', ?_, (run_save ht _ e hsave).stop⟩
        rw [saveSnippets, bind_of_eq (save_of_eq hsave)]
        rfl
      · have hrun := run_save ht _ e hsave
        obtain ⟨saved, t'', hsaved, hrun'⟩ := ih hrun.isTree
        refine ⟨_, t'', ?_, hrun.append hrun'⟩
        rw [saveSnippets, bind_of_eq (save_of_eq hsave)]
        refine (bind_of_eq hsaved).trans ?_
        cases saved <;> rfl

/-- So is producing snippets for some languages, and the snippets that it tells of are those of the files. -/
theorem run_produceFrom (ht : t.IsTree) (r : CodeRequest) (o : Options) (d : Destination)
    (languages : List String) :
    ∃ reports t', (produceFrom r o (some d) languages : StateM FileTree _) t = (reports, t') ∧
      Run (!d.force) (plannedFiles r languages o d) t
        (reports.map fun ls => ls.flatMap (·.files)) t' ∧
      ∀ ls, reports = .ok ls →
        ls.flatMap (·.output.snippets) =
          languages.flatMap fun id => (generate (Target.ofId id) r o).snippets := by
  induction languages generalizing t with
  | nil => exact ⟨.ok [], t, rfl, run_nil ht, fun ls hls => Except.ok.inj hls ▸ rfl⟩
  | cons id ids ih =>
      let target := Target.ofId id
      have hplan : plannedFiles r (id :: ids) o d =
          plannedFor d target (generate target r o).snippets ++ plannedFiles r ids o d := List.flatMap_cons
      rw [hplan]
      obtain ⟨saved, t', hsaved, hrun⟩ := run_saveSnippets ht d target (generate target r o).snippets
      cases saved with
      | error error =>
          refine ⟨.error error, t', ?_, hrun.stop, nofun⟩
          rw [produceFrom]
          exact bind_of_eq hsaved
      | ok files =>
          obtain ⟨reports, t'', hreports, hrun', hsnippets⟩ := ih hrun.isTree
          refine ⟨reports.map (⟨target.id, generate target r o, files⟩ :: ·), t'', ?_, ?_, ?_⟩
          · rw [produceFrom]
            refine (bind_of_eq hsaved).trans ((bind_of_eq hreports).trans ?_)
            cases reports <;> rfl
          · cases reports with
            | error error => exact hrun.append hrun'
            | ok ls => exact hrun.append hrun'
          · cases reports with
            | error error => nofun
            | ok ls =>
                intro ls' hls
                obtain rfl := Except.ok.inj hls
                rw [List.flatMap_cons, List.flatMap_cons, hsnippets ls rfl]

/-- What producing snippets does to a tree, after what it tells. -/
def produceIn (t : FileTree) (r : CodeRequest) (languages : List String) (o : Options) (d : Destination) :
    Except SaveError SnippetReport × FileTree :=
  (produce r languages o (some d) : StateM FileTree _) t

theorem run_produce (ht : t.IsTree) (r : CodeRequest) (languages : List String) (o : Options)
    (d : Destination) :
    Run (!d.force) (plannedFiles r languages o d) t ((produceIn t r languages o d).1.map (·.files))
        (produceIn t r languages o d).2 ∧
      ∀ report, (produceIn t r languages o d).1 = .ok report →
        report.snippets = (plannedFiles r languages o d).map (·.snippet) := by
  obtain ⟨reports, t', hreports, hrun, hsnippets⟩ := run_produceFrom ht r o d languages
  have hproduce : produceIn t r languages o d = (reports.map SnippetReport.mk, t') := by
    rw [produceIn, produce]
    refine (bind_of_eq hreports).trans ?_
    cases reports <;> rfl
  rw [hproduce]
  cases reports with
  | error error => exact ⟨hrun, nofun⟩
  | ok ls =>
      refine ⟨hrun, fun report hreport => ?_⟩
      obtain rfl := Except.ok.inj hreport
      rw [map_snippet_plannedFiles]
      exact hsnippets ls rfl

end Produce

/-- Unless they are forced, snippets leave each file as it is, whether all are saved or not. If all are saved,
something is at the path of each, and each that is told to be written stands where nothing was. Only a path that
goes back up from a missing directory can replace a file, by its own snippet. -/
theorem produce_keeps_files {t : FileTree} (ht : t.IsTree) (r : CodeRequest) (languages : List String)
    (o : Options) (directory : String) :
    let plan := plannedFiles r languages o ⟨directory, false⟩
    let run := produceIn t r languages o ⟨directory, false⟩
    (∀ names c, t.file? names = some c →
      run.2.file? names = some c ∨ Replaced true plan t run.2 names) ∧
    ∀ report, run.1 = .ok report →
      List.Forall₂ (fun s f => run.2.exists? f.path = true ∧
        (f.written = true → t.exists? f.path = false ∧
          (run.2.readText? f.path = some s.content ∨ Replaced true plan t run.2 (t.destination f.path))))
        report.snippets report.files := by
  intro plan run
  obtain ⟨hrun, hsnippets⟩ := run_produce ht r languages o ⟨directory, false⟩
  refine ⟨fun names c hfile => ?_, fun report hreport => ?_⟩
  · have hsome : t.file? names ≠ none := by simp [hfile]
    exact (hrun.files names).imp (·.trans hfile) (·.replaced hsome)
  · have hreported := hrun.reported (congrArg (Except.map (·.files)) hreport)
    rw [hsnippets report hreport, List.forall₂_map_left_iff]
    refine hreported.imp fun e f ⟨hpath, hthere, hwritten⟩ => ?_
    rw [hpath]
    refine ⟨hthere, fun hf => ?_⟩
    obtain ⟨hfree, ⟨c, hlocated⟩, hcontent⟩ := hwritten hf
    refine ⟨hfree rfl, hcontent.imp_left fun hcontent => ?_⟩
    exact FileTree.readText?_of_locate hrun.isTree hlocated hcontent

/-! ### A sheet that was edited by hand -/

def sheetNames : List String := ["work", "session", "sheets", "query.txt"]

def editedTree : FileTree :=
  ⟨["work", "session"], [(["work"], .directory), (["work", "session"], .directory),
    (["work", "session", "sheets"], .directory), (sheetNames, .file (.text "=edited\n"))]⟩

theorem isTree_editedTree : editedTree.IsTree :=
  FileTree.isTree_of_nodes (by decide) (by decide)

def filmRequest : CodeRequest :=
  ⟨"find { Film }", .ofFull "Film", .ofTypes [.ofKind (.ofFull "Film") (.record [])] []⟩

/-- The sheet stays, and a body is written beside it. -/
theorem produce_keeps_sheet :
    editedTree.IsTree ∧ editedTree.file? sheetNames = some (.text "=edited\n") ∧
    (produceIn editedTree filmRequest ["sheets", "json"] ⟨"client", true⟩ ⟨".", false⟩).1.map (·.files) =
      .ok [⟨"./sheets/query.txt", false⟩, ⟨"./json/query.json", true⟩] ∧
    (produceIn editedTree filmRequest ["sheets", "json"] ⟨"client", true⟩ ⟨".", false⟩).2.file? sheetNames =
      some (.text "=edited\n") := by
  have hedited : editedTree.file? sheetNames = some (.text "=edited\n") := by decide
  have hpaths : ∀ e ∈ plannedFiles filmRequest ["sheets", "json"] ⟨"client", true⟩ ⟨".", false⟩,
      ".." ∉ parts e.path := by decide +kernel
  have hkeeps := produce_keeps_files isTree_editedTree filmRequest ["sheets", "json"] ⟨"client", true⟩ "."
  refine ⟨isTree_editedTree, hedited, by decide +kernel, (hkeeps.1 sheetNames _ hedited).resolve_right ?_⟩
  rintro ⟨e, he, -, -, hreturns⟩
  exact FileTree.not_returnsFromMissing (hpaths e he) (hreturns rfl)

/-- Behind a directory that is missing the sheet is not seen, and when that directory is made it is replaced. -/
theorem produce_replaces_sheet :
    editedTree.IsTree ∧ editedTree.file? sheetNames = some (.text "=edited\n") ∧
    (produceIn editedTree filmRequest ["sheets"] ⟨"client", true⟩ ⟨"new/..", false⟩).2.file? sheetNames =
      some (.text "=discover(\"Film\")\n") :=
  ⟨isTree_editedTree, by decide, by decide +kernel⟩

end SchemaSnippets.Report

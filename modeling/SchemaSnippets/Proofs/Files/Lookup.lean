import Mathlib.Data.List.Induction
import SchemaSnippets.Files.Tree

/-!
# Where paths lead

Without links the names of a path decide where it leads, if it leads anywhere: a lookup fails where a
directory is missing, even if the path goes back up from there.

* `destination` : where a path leads by its names alone;
* `IsTree` : each node stands in a directory; `Tells` : what a place says of the parts that were looked up,
  `tells_locateFrom`;
* `Extends` : a later state of a tree; `Extends.stays_locate` : what was found is found again there;
* `ReturnsFromMissing` : paths that lead on only after a missing directory is made.
-/

namespace SchemaSnippets.Files

/-! ## By names alone -/

/-- Where one part leads from a directory. -/
def move (names : List String) (part : String) : List String :=
  if part = "." then names else if part = ".." then names.dropLast else names ++ [part]

/-- Where parts lead from a directory if all on the way is there. -/
def destinationFrom (names ps : List String) : List String :=
  ps.foldl move names

theorem destinationFrom_append (names ps qs : List String) :
    destinationFrom names (ps ++ qs) = destinationFrom (destinationFrom names ps) qs :=
  List.foldl_append

theorem move_dot (names : List String) : move names "." = names := rfl

theorem move_name {part : String} (names : List String) (hdot : part ≠ ".") (hup : part ≠ "..") :
    move names part = names ++ [part] := by
  rw [move, if_neg hdot, if_neg hup]

namespace FileTree
variable {t t' t'' : FileTree} {names ps : List String} {path : String}

/-- The directory that a path starts from. -/
def start (t : FileTree) (path : String) : List String :=
  if isAbsolute path then [] else t.workingDirectory

/-- Where a path leads if all on the way is there. -/
def destination (t : FileTree) (path : String) : List String :=
  destinationFrom (t.start path) (parts path)

/-- The content of the file under the given names. -/
def file? (t : FileTree) (names : List String) : Option FileContent :=
  match t.node? names with
  | some (.file c) => some c
  | _ => none

theorem file?_eq_some {c : FileContent} : t.file? names = some c ↔ t.node? names = some (.file c) := by
  unfold file?
  split <;> simp_all

/-! ## Trees -/

/-- What stands somewhere stands in a directory, and the working directory is one. -/
structure IsTree (t : FileTree) : Prop where
  workingDirectory : t.node? t.workingDirectory = some .directory
  parent {names : List String} {n : FileNode} (h : t.node? names = some n) :
    t.node? names.dropLast = some .directory

theorem isTree_of_nodes (hworking : t.node? t.workingDirectory = some .directory)
    (hnodes : ∀ e ∈ t.nodes, t.node? e.1.dropLast = some .directory) : t.IsTree := by
  refine ⟨hworking, fun {names n} h => ?_⟩
  rw [node?] at h
  split at h
  · rename_i hroot
    rw [List.isEmpty_iff.1 hroot]
    rfl
  · obtain ⟨before, after, hsplit, -⟩ := List.lookup_eq_some_iff.1 h
    exact hnodes (names, n) (hsplit ▸ List.mem_append_right _ List.mem_cons_self)

theorem isTree_fresh : fresh.IsTree :=
  isTree_of_nodes (by decide) (by decide)

theorem IsTree.start (ht : t.IsTree) (path : String) : t.node? (t.start path) = some .directory := by
  unfold FileTree.start
  split
  · rfl
  · exact ht.workingDirectory

/-- Nothing stands below what is missing. -/
theorem IsTree.node?_append (ht : t.IsTree) (h : t.node? names = none) (more : List String) :
    t.node? (names ++ more) = none := by
  induction more using List.reverseRecOn with
  | nil => rwa [List.append_nil]
  | append_singleton more part ih =>
      refine Option.eq_none_iff_forall_ne_some.2 fun n hn => ?_
      have hparent := ht.parent hn
      rw [← List.append_assoc, List.dropLast_concat, ih] at hparent
      cases hparent

/-- Only a way back up leads from a missing directory to something. -/
theorem IsTree.node?_destinationFrom (ht : t.IsTree) (h : t.node? names = none) (hps : ".." ∉ ps) :
    t.node? (destinationFrom names ps) = none := by
  induction ps generalizing names with
  | nil => exact h
  | cons part ps ih =>
      rw [List.mem_cons, not_or] at hps
      refine ih ?_ hps.2
      by_cases hdot : part = "."
      · rwa [hdot, move_dot]
      · rw [move_name names hdot (Ne.symm hps.1)]
        exact ht.node?_append h [part]

/-! ## Lookups -/

/-- What a place tells of the parts that led there from a directory. -/
def Tells (t : FileTree) (names ps : List String) : Place → Prop
  | .taken d n => d = destinationFrom names ps ∧ t.node? d = some n
  | .free d => d = destinationFrom names ps ∧ t.node? d = none ∧ t.node? d.dropLast = some .directory
  | .astray => ∃ front behind, ps = front ++ behind ∧ t.node? (destinationFrom names front) = none
  | .blocked => True

theorem Tells.cons {part : String} {place : Place} (h : t.Tells (move names part) ps place) :
    t.Tells names (part :: ps) place := by
  cases place with
  | taken d n => exact h
  | free d => exact h
  | astray =>
      obtain ⟨front, behind, rfl, hmissing⟩ := h
      exact ⟨part :: front, behind, rfl, hmissing⟩
  | blocked => trivial

theorem tells_locateFrom (ht : t.IsTree) (h : t.node? names = some .directory) :
    t.Tells names ps (t.locateFrom names ps) := by
  fun_induction FileTree.locateFrom t names ps with
  | case1 names => exact ⟨rfl, h⟩
  | case2 names ps ih => exact (ih h).cons
  | case3 names ps hne ih => exact (ih (ht.parent h)).cons
  | case4 => trivial
  | case5 names part ps hdot hup hname hnode ih =>
      have htells := ih hnode
      rw [← move_name names hdot hup] at htells ⊢
      exact htells.cons
  | case6 names part ps hdot hup hname c hnode hlast =>
      obtain rfl := List.isEmpty_iff.1 hlast
      exact ⟨(move_name names hdot hup).symm, hnode⟩
  | case7 => trivial
  | case8 names part ps hdot hup hname hnode hlast =>
      obtain rfl := List.isEmpty_iff.1 hlast
      exact ⟨(move_name names hdot hup).symm, hnode, by rwa [List.dropLast_concat]⟩
  | case9 names part ps hdot hup hname hnode hlast =>
      exact ⟨[part], ps, rfl, (congrArg t.node? (move_name names hdot hup)).trans hnode⟩

/-! ## Later states -/

/-- A later state of a tree: directories are still there, and where a file was is a file. -/
structure Extends (t t' : FileTree) : Prop where
  isTree : t'.IsTree
  workingDirectory : t'.workingDirectory = t.workingDirectory
  directory {names : List String} (h : t.node? names = some .directory) :
    t'.node? names = some .directory
  file {names : List String} {c : FileContent} (h : t.node? names = some (.file c)) :
    ∃ c', t'.node? names = some (.file c')

namespace Extends

protected theorem refl (ht : t.IsTree) : t.Extends t :=
  ⟨ht, rfl, id, fun h => ⟨_, h⟩⟩

protected theorem trans (h : t.Extends t') (h' : t'.Extends t'') : t.Extends t'' where
  isTree := h'.isTree
  workingDirectory := h'.workingDirectory.trans h.workingDirectory
  directory hd := h'.directory (h.directory hd)
  file hf := let ⟨_, hf'⟩ := h.file hf; h'.file hf'

theorem node?_eq_none (h : t.Extends t') (hnone : t'.node? names = none) : t.node? names = none := by
  refine Option.eq_none_iff_forall_ne_some.2 fun n hn => ?_
  cases n with
  | directory =>
      rw [h.directory hn] at hnone
      cases hnone
  | file c =>
      obtain ⟨c', hc'⟩ := h.file hn
      rw [hc'] at hnone
      cases hnone

theorem file?_ne_none (h : t.Extends t') (hfile : t.file? names ≠ none) : t'.file? names ≠ none := by
  obtain ⟨c, hc⟩ := Option.isSome_iff_exists.1 (Option.isSome_iff_ne_none.2 hfile)
  obtain ⟨c', hc'⟩ := h.file (file?_eq_some.1 hc)
  rw [file?_eq_some.2 hc']
  exact Option.some_ne_none c'

theorem start (h : t.Extends t') (path : String) : t'.start path = t.start path := by
  rw [FileTree.start, FileTree.start, h.workingDirectory]

theorem destination (h : t.Extends t') (path : String) : t'.destination path = t.destination path :=
  congrArg (destinationFrom · (parts path)) (h.start path)

end Extends

/-- What a place becomes in a later state: what was found is found again, and what was in the way is still
there. -/
def Stays : Place → Place → Prop
  | .taken d .directory, place => place = .taken d .directory
  | .taken d (.file _), place => ∃ c, place = .taken d (.file c)
  | .blocked, place => place = .blocked
  | .free _, _ => True
  | .astray, _ => True

theorem Extends.stays_locateFrom (h : t.Extends t') :
    Stays (t.locateFrom names ps) (t'.locateFrom names ps) := by
  fun_induction FileTree.locateFrom t names ps with
  | case1 names => rfl
  | case2 names ps ih => exact ih
  | case3 names ps hne ih => exact ih
  | case4 names part ps hdot hup hname => simp [locateFrom, hdot, hup, hname, Stays]
  | case5 names part ps hdot hup hname hnode ih =>
      simpa [locateFrom, hdot, hup, hname, h.directory hnode] using ih
  | case6 names part ps hdot hup hname c hnode hlast =>
      obtain ⟨c', hc'⟩ := h.file hnode
      simp [locateFrom, hdot, hup, hname, hc', hlast, Stays]
  | case7 names part ps hdot hup hname c hnode hlast =>
      obtain ⟨c', hc'⟩ := h.file hnode
      simp [locateFrom, hdot, hup, hname, hc', hlast, Stays]
  | case8 => trivial
  | case9 => trivial

/-- A lookup that ends at a free place ends at the file that stands there later. -/
theorem Extends.locateFrom_of_free (h : t.Extends t') {d : List String} {c : FileContent}
    (hplace : t.locateFrom names ps = .free d) (hfile : t'.node? d = some (.file c)) :
    t'.locateFrom names ps = .taken d (.file c) := by
  fun_induction FileTree.locateFrom t names ps with
  | case1 => cases hplace
  | case2 names ps ih => exact ih hplace
  | case3 names ps hne ih => exact ih hplace
  | case4 => cases hplace
  | case5 names part ps hdot hup hname hnode ih =>
      simpa [locateFrom, hdot, hup, hname, h.directory hnode] using ih hplace
  | case6 => cases hplace
  | case7 => cases hplace
  | case8 names part ps hdot hup hname hnode hlast =>
      obtain rfl := Place.free.inj hplace
      simp [locateFrom, hdot, hup, hname, hfile, hlast]
  | case9 => cases hplace

/-! ## Paths -/

/-- The place where a path leads whose parts lead to the given one: no file is behind a slash at the end. -/
def placeOf (path : String) : Place → Place
  | .taken d (.file c) => if endsWithSlash path then .blocked else .taken d (.file c)
  | place => place

theorem locate_eq (t : FileTree) (hpath : path ≠ "") (hnull : path.toList.contains '\x00' = false) :
    t.locate path = placeOf path (t.locateFrom (t.start path) (parts path)) := by
  rw [locate, if_neg hpath, hnull]
  rfl

theorem locate_of_null (t : FileTree) (hpath : path ≠ "") (hnull : path.toList.contains '\x00' = true) :
    t.locate path = .blocked := by
  rw [locate, if_neg hpath, if_pos hnull]

theorem Tells.placeOf {place : Place} (h : t.Tells names ps place) :
    t.Tells names ps (placeOf path place) := by
  unfold FileTree.placeOf
  split
  · split
    · trivial
    · exact h
  · exact h

theorem Stays.placeOf {place place' : Place} (h : Stays place place') :
    Stays (placeOf path place) (placeOf path place') := by
  cases place with
  | taken d n =>
      cases n with
      | directory =>
          obtain rfl : place' = _ := h
          rfl
      | file c =>
          obtain ⟨c', rfl⟩ := h
          simp only [FileTree.placeOf]
          split
          · rfl
          · exact ⟨c', rfl⟩
  | free d => trivial
  | astray => trivial
  | blocked =>
      obtain rfl : place' = _ := h
      rfl

theorem tells_locate (ht : t.IsTree) (hpath : path ≠ "") :
    t.Tells (t.start path) (parts path) (t.locate path) := by
  cases hnull : path.toList.contains '\x00' with
  | true => exact t.locate_of_null hpath hnull ▸ trivial
  | false => exact t.locate_eq hpath hnull ▸ (tells_locateFrom ht (ht.start path)).placeOf

theorem Extends.stays_locate (h : t.Extends t') (path : String) :
    Stays (t.locate path) (t'.locate path) := by
  by_cases hpath : path = ""
  · rw [hpath]
    trivial
  cases hnull : path.toList.contains '\x00' with
  | true =>
      rw [t.locate_of_null hpath hnull, t'.locate_of_null hpath hnull]
      rfl
  | false =>
      rw [t.locate_eq hpath hnull, t'.locate_eq hpath hnull, h.start path]
      exact h.stays_locateFrom.placeOf

theorem locate_eq_taken (ht : t.IsTree) {d : List String} {n : FileNode}
    (h : t.locate path = .taken d n) : d = t.destination path ∧ t.node? d = some n := by
  have hpath : path ≠ "" := by
    rintro rfl
    cases h
  have htells := tells_locate ht hpath
  rwa [h] at htells

theorem readText?_of_locate (ht : t.IsTree) {d : List String} {c : FileContent} {content : String}
    (h : t.locate path = .taken d (.file c)) (hfile : t.file? d = some (.text content)) :
    t.readText? path = some content := by
  rw [file?_eq_some, (locate_eq_taken ht h).2] at hfile
  rw [readText?, h, FileNode.file.inj (Option.some.inj hfile)]
  rfl

theorem locate_eq_free (ht : t.IsTree) {d : List String} (h : t.locate path = .free d) :
    d = t.destination path ∧ t.node? d = none ∧ t.node? d.dropLast = some .directory := by
  have hpath : path ≠ "" := by
    rintro rfl
    cases h
  have htells := tells_locate ht hpath
  rwa [h] at htells

theorem placeOf_eq_free {place : Place} {d : List String} (h : placeOf path place = .free d) :
    place = .free d := by
  unfold FileTree.placeOf at h
  split at h
  · split at h <;> cases h
  · exact h

theorem Extends.locate_of_free (h : t.Extends t') {d : List String} {c : FileContent}
    (hplace : t.locate path = .free d) (hfile : t'.node? d = some (.file c))
    (hslash : endsWithSlash path = false) : t'.locate path = .taken d (.file c) := by
  have hpath : path ≠ "" := by
    rintro rfl
    cases hplace
  cases hnull : path.toList.contains '\x00' with
  | true =>
      rw [t.locate_of_null hpath hnull] at hplace
      cases hplace
  | false =>
      rw [t.locate_eq hpath hnull] at hplace
      have hlater := h.locateFrom_of_free (placeOf_eq_free hplace) hfile
      rw [t'.locate_eq hpath hnull, h.start path, hlater, FileTree.placeOf, hslash]
      rfl

/-- What a path leads to stays there. -/
theorem Extends.exists? (h : t.Extends t') (hthere : t.exists? path) : t'.exists? path := by
  have hstays := h.stays_locate path
  unfold FileTree.exists? at hthere ⊢
  split at hthere
  · rename_i d n hplace
    rw [hplace] at hstays
    cases n with
    | directory =>
        rw [show t'.locate path = _ from hstays]
    | file c =>
        obtain ⟨c', hplace'⟩ := hstays
        rw [hplace']
  · cases hthere

/-! ## Ways through missing directories -/

/-- The path goes back up from where nothing is. -/
def ReturnsFromMissing (t : FileTree) (path : String) : Prop :=
  ∃ front behind, parts path = front ++ behind ∧
    t.node? (destinationFrom (t.start path) front) = none ∧ ".." ∈ behind

theorem not_returnsFromMissing (hpath : ".." ∉ parts path) : ¬ t.ReturnsFromMissing path := by
  rintro ⟨front, behind, hparts, -, hup⟩
  exact hpath (hparts ▸ List.mem_append_right front hup)

theorem Extends.returnsFromMissing (h : t.Extends t') (hreturns : t'.ReturnsFromMissing path) :
    t.ReturnsFromMissing path := by
  obtain ⟨front, behind, hparts, hmissing, hup⟩ := hreturns
  rw [h.start path] at hmissing
  exact ⟨front, behind, hparts, h.node?_eq_none hmissing, hup⟩

/-- A path that leads nowhere, and later to a place where a file has been all along, goes back up from a
directory that was missing. -/
theorem returnsFromMissing_of_file (ht : t.IsTree) (h : t.Extends t') (hthere : t.exists? path = false)
    (hfile : t.file? (t.destination path) ≠ none) (hastray : t'.locate path ≠ .astray)
    (hblocked : t'.locate path ≠ .blocked) : t.ReturnsFromMissing path := by
  have hmissing : t.node? (t.destination path) ≠ none := by
    intro hnone
    rw [FileTree.file?, hnone] at hfile
    exact hfile rfl
  have hstays := h.stays_locate path
  cases hplace : t.locate path with
  | taken d n =>
      rw [FileTree.exists?, hplace] at hthere
      cases hthere
  | free d =>
      obtain ⟨rfl, hnone, -⟩ := locate_eq_free ht hplace
      exact absurd hnone hmissing
  | astray =>
      have hpath : path ≠ "" := by
        rintro rfl
        exact hastray rfl
      have htells := tells_locate ht hpath
      rw [hplace] at htells
      obtain ⟨front, behind, hparts, hnone⟩ := htells
      refine ⟨front, behind, hparts, hnone, ?_⟩
      by_contra hup
      refine hmissing ?_
      rw [FileTree.destination, hparts, destinationFrom_append]
      exact ht.node?_destinationFrom hnone hup
  | blocked =>
      rw [hplace] at hstays
      exact absurd hstays hblocked

end FileTree

end SchemaSnippets.Files

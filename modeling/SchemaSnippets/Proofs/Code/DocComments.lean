import SchemaSnippets.Proofs.Code.Layout
import SchemaSnippets.Proofs.Code.Lines

/-!
# Comments that are written

Documentation is written as a block, or line by line, and a note behind `//`. Of such a text nothing is
left but white space if what stands in the comments is confined to them.

* `docText`, `docLinesText` : documentation as a block, and line by line; `Writer.docComment_eq_raw` : the
  block is what is written;
* `Writer.text_docComment_line`, `Writer.text_block_raw` : a line below its documentation, and a block of
  items;
* `Lexis.Vanishes` : a text of which white space is left; `vanishes_docComment`, `vanishes_docLines`,
  `vanishes_lineComment` : the three ways to write comments on lines of their own;
* `skips_inlineBlock` : a comment inside a line.
-/

namespace SchemaSnippets.Code
open Unicode

/-- So many blanks. -/
def blanks (n : Nat) : String :=
  String.ofList (List.replicate n ' ')

/-! ## Writing -/

/-- The lines of a doc comment. -/
def commentLines : List String → List String
  | [] => []
  | [s] => ["/** " ++ s ++ " */"]
  | ss => "/**" :: ss.map (" * " ++ ·) ++ [" */"]

/-- A doc comment behind `n` blanks. -/
def docText (n : Nat) (docs : List String) : String :=
  linesText ((commentLines docs).map (blanks n ++ ·))

/-- The text of a comment with several lines. -/
theorem docText_cons_cons (n : Nat) (s s' : String) (ss : List String) :
    docText n (s :: s' :: ss) = blanks n ++ ("/**" ++ "\n" ++
      linesText (((s :: s' :: ss).map (" * " ++ ·)).map (blanks n ++ ·)) ++ blanks n ++ " */") ++ "\n" := by
  show linesText (((("/**" :: (s :: s' :: ss).map (" * " ++ ·)) ++ [" */"])).map _) = _
  rw [List.map_append, List.map_cons, linesText_append, linesText_cons, List.map_singleton,
    linesText_singleton]
  simp only [String.append_assoc]

/-- Documentation line by line, behind `n` blanks. -/
def docLinesText (n : Nat) (docs : List String) : String :=
  linesText ((docs.map ("/// " ++ ·)).map (blanks n ++ ·))

namespace Writer
variable {α : Type} (w : Writer)

theorem docComment_eq_put (ss : List String) : w.docComment ss = w.put (commentLines ss) := by
  match ss with
  | [] => rfl
  | [s] => rfl
  | s :: s' :: ss =>
      have hlines : ∀ w : Writer, (s :: s' :: ss).foldl (fun w s => w.line (" * " ++ s)) w =
          w.put ((s :: s' :: ss).map (" * " ++ ·)) := fun w => w.each_line (s :: s' :: ss) _
      show ((s :: s' :: ss).foldl (fun w s => w.line (" * " ++ s)) (w.line "/**")).line " */" = _
      rw [hlines, line_eq_put, line_eq_put, put_put, put_put]
      rfl

theorem each_raw (items : List α) (f : α → String) :
    (w.each items fun w x => w.raw (f x)) = w.raw (String.join (items.map f)) := by
  induction items generalizing w with
  | nil =>
      show w = { w with text := w.text ++ "" }
      rw [String.append_empty]
  | cons x xs ih =>
      show (w.raw (f x)).each xs _ = _
      rw [ih, raw_raw, List.map_cons, String.join_cons]

theorem line_outermost (width : Nat) (text s : String) :
    (Writer.mk width 0 text).line s = ⟨width, 0, text ++ (s ++ "\n")⟩ := by
  rw [line_eq_put, put_outermost, linesText_singleton]

/-- What a writer at the outermost level holds after a block of items. -/
theorem text_block_raw (width : Nat) (text header close : String) (items : List α) (f : α → String) :
    ((Writer.mk width 0 text).block header close fun w => w.each items fun w x => w.raw (f x)).text =
      text ++ (header ++ "\n" ++ String.join (items.map f) ++ (close ++ "\n")) := by
  show ((((Writer.mk width 0 text).line header).indent.each items
    fun w x => w.raw (f x)).dedent.line close).text = _
  rw [each_raw, line_outermost]
  show ((Writer.mk width 0 _).line close).text = _
  rw [line_outermost]
  show text ++ (header ++ "\n") ++ String.join (items.map f) ++ (close ++ "\n") = _
  rw [String.append_assoc, String.append_assoc, String.append_assoc, String.append_assoc,
    String.append_assoc]

theorem docComment_eq_raw (ss : List String) :
    w.docComment ss = w.raw (docText (w.width * w.level) ss) := by
  rw [docComment_eq_put, put_eq_raw]
  rfl

theorem docComment_outermost (width : Nat) (ss : List String) :
    (empty width).docComment ss = ⟨width, 0, docText 0 ss⟩ := by
  rw [docComment_eq_raw]
  show Writer.mk width 0 ("" ++ docText (width * 0) ss) = _
  rw [String.empty_append, Nat.mul_zero]

/-- A doc comment and a line below it, one level deep. -/
theorem text_docComment_line (width : Nat) (ss : List String) (s : String) :
    (((empty width).indent.docComment ss).line s).text =
      docText width ss ++ (blanks width ++ s ++ "\n") := by
  have hindentation : ((empty width).indent.docComment ss).indentation = blanks width := by
    rw [docComment_eq_raw]
    show blanks (width * 1) = _
    rw [Nat.mul_one]
  rw [text_line, hindentation, docComment_eq_raw]
  show "" ++ docText (width * 1) ss ++ _ = _
  rw [String.empty_append, Nat.mul_one]

end Writer

/-! ## Reading -/

namespace Lexis
variable {α : Type} {form : List Char → α} {L : Lexis} {s t : String}

/-- Nothing but white space is left of the text. -/
def Vanishes (L : Lexis) (s : String) : Prop :=
  L.Closed s ∧ (L.kept s).all isWhitespace

theorem vanishes_append (hs : L.Vanishes s) (ht : L.Vanishes t) : L.Vanishes (s ++ t) := by
  refine ⟨closed_append hs.1 ht.1, ?_⟩
  rw [kept_append hs.1, List.all_append, hs.2, ht.2]
  rfl

theorem vanishes_join {ss : List String} (h : ∀ s ∈ ss, L.Vanishes s) :
    L.Vanishes (String.join ss) := by
  induction ss with
  | nil => exact ⟨rfl, rfl⟩
  | cons s ss ih =>
      rw [String.join_cons]
      exact vanishes_append (h s (List.mem_cons_self ..))
        (ih fun t ht => h t (List.mem_cons_of_mem _ ht))

theorem vanishes_of_skips (h : L.Skips .code s.toList .code) : L.Vanishes s := by
  unfold Skips at h
  refine ⟨congrArg Prod.fst h, ?_⟩
  rw [kept, h]
  rfl

variable (hL : L.ReadsLines)
include hL

theorem vanishes_blanks (n : Nat) : L.Vanishes (blanks n) := by
  have h : L.scan .code (blanks n).toList = (.code, List.replicate n ' ') := by
    rw [blanks, String.toList_ofList, scan_replicate hL.blank]
  refine ⟨congrArg Prod.fst h, ?_⟩
  rw [kept, h, List.all_eq_true]
  intro c hc
  rw [List.eq_of_mem_replicate hc]
  decide

omit hL in
theorem confined_append (hs : L.Confined (.line s)) (ht : L.Confined (.line t)) :
    L.Confined (.line (s ++ t)) := by
  intro c hc
  rw [String.toList_append, List.mem_append] at hc
  exact hc.elim (hs c) (ht c)

omit hL in
theorem confined_intercalate {separator : String} {ss : List String}
    (hsep : L.Confined (.line separator)) (h : ∀ s ∈ ss, L.Confined (.line s)) :
    L.Confined (.line (separator.intercalate ss)) := by
  induction ss with
  | nil => nofun
  | cons s ss ih =>
      obtain ⟨hs, hss⟩ := List.forall_mem_cons.1 h
      cases ss with
      | nil => rwa [String.intercalate_singleton]
      | cons t ss =>
          rw [String.intercalate_cons_cons]
          exact confined_append (confined_append hs hsep) (ih hss)

/-- A comment up to the end of the line. -/
theorem vanishes_line (h : L.Confined (.line s)) : L.Vanishes ("//" ++ (s ++ "\n")) := by
  have hopen : L.Skips .code "//".toList .line := skips_cons rfl (skips_cons rfl rfl)
  have hend : L.scan .line "\n".toList = (.code, ['\n']) := by
    show L.scan .line ['\n'] = _
    rw [scan_cons, step, if_pos hL.ends]
    rfl
  have hscan : L.scan .code ("//" ++ (s ++ "\n")).toList = (.code, ['\n']) := by
    rw [String.toList_append, String.toList_append, scan_append, hopen, scan_append, skips_line h, hend]
    rfl
  refine ⟨congrArg Prod.fst hscan, ?_⟩
  rw [kept, hscan]
  decide

/-- A note behind `//`. -/
theorem vanishes_lineComment (h : L.Confined (.line s)) : L.Vanishes ("// " ++ s ++ "\n") := by
  have hblank : L.Confined (.line " ") := by
    intro c hc
    rw [List.mem_singleton.1 hc]
    exact hL.goesOn.1
  have hopen : "// " ++ s ++ "\n" = "//" ++ (" " ++ s ++ "\n") := by
    rw [show "// " = "//" ++ " " from rfl, String.append_assoc, String.append_assoc,
      String.append_assoc]
  rw [hopen]
  exact vanishes_line hL (confined_append hblank h)

/-- Documentation line by line. -/
theorem vanishes_docLines {docs : List String} (h : ∀ s ∈ docs, L.Confined (.line s)) (n : Nat) :
    L.Vanishes (docLinesText n docs) := by
  have hmark : L.Confined (.line "/ ") := by
    intro c hc
    rcases List.mem_cons.1 hc with rfl | hc
    · exact hL.goesOn.2
    · rw [List.mem_singleton.1 hc]
      exact hL.goesOn.1
  refine vanishes_join fun s hs => ?_
  rw [List.map_map, List.map_map] at hs
  obtain ⟨doc, hdoc, rfl⟩ := List.mem_map.1 hs
  have hopen : blanks n ++ ("/// " ++ doc) ++ "\n" = blanks n ++ ("//" ++ ("/ " ++ doc ++ "\n")) := by
    rw [show "/// " = "//" ++ "/ " from rfl, String.append_assoc, String.append_assoc,
      String.append_assoc, String.append_assoc]
  show L.Vanishes (blanks n ++ ("/// " ++ doc) ++ "\n")
  rw [hopen]
  exact vanishes_append (vanishes_blanks hL n)
    (vanishes_line hL (confined_append hmark (h doc hdoc)))

/-! ### Blocks -/

omit hL in
theorem skips_blanks (n depth : Nat) : L.Skips (.block depth) (blanks n).toList (.block depth) := by
  rw [blanks, String.toList_ofList]
  induction n with
  | zero => rfl
  | succ n ih =>
      have hstep : L.step (.block depth) ' ' = (.block depth, []) := by
        rw [step, inBlock_of_ne (by decide) (by decide)]
      exact skips_cons hstep ih

omit hL in
/-- The lines of a block behind its first line. -/
theorem skips_lines {depth depth' : Nat} (n : Nat) {ss : List String}
    (h : ss.foldlM (fun depth s => depthAfter L.nests depth s.toList) depth = some depth') :
    L.Skips (.block depth) (linesText ((ss.map (" * " ++ ·)).map (blanks n ++ ·))).toList
      (.block depth') := by
  induction ss generalizing depth with
  | nil =>
      obtain rfl := Option.some.inj h
      rfl
  | cons s ss ih =>
      rw [List.foldlM_cons] at h
      obtain ⟨middle, hs, hss⟩ := Option.bind_eq_some_iff.1 h
      have hstar : depthAfter L.nests depth [' ', '*'] = some depth := by
        simp [depthAfter]
      have hskips := (skips_blanks n depth).append <|
        (skips_block hstar (c := ' ') (by decide) (by decide)).append <|
          (skips_block hs (c := '\n') (by decide) (by decide)).append (ih hss)
      rw [List.map_cons, List.map_cons, linesText_cons]
      simpa using hskips

omit hL in
theorem skips_openBlock : L.Skips .code "/*".toList (.block 0) :=
  skips_cons rfl (skips_cons rfl rfl)

omit hL in
theorem skips_closeBlock : L.Skips (.block 0) "*/".toList .code :=
  skips_cons rfl (skips_cons rfl rfl)

omit hL in
theorem confined_singleton (h : L.Confined (.block [s])) : depthAfter L.nests 0 s.toList = some 0 := by
  obtain ⟨depth, hs, hdepth⟩ := Option.bind_eq_some_iff.1 h
  obtain rfl := Option.some.inj hdepth
  exact hs

omit hL in
/-- A block inside a line. -/
theorem skips_inlineBlock (h : L.Confined (.block [s])) :
    L.Skips .code ("/* " ++ s ++ " */").toList .code := by
  have hblank : L.Skips (.block 0) [' '] (.block 0) := skips_blanks 1 0
  have hskips := skips_openBlock.append <| hblank.append <|
    (skips_block (confined_singleton h) (c := ' ') (by decide) (by decide)).append skips_closeBlock
  simpa using hskips

/-- A doc comment. -/
theorem vanishes_docComment {docs : List String} (h : L.Confined (.block docs)) (n : Nat) :
    L.Vanishes (docText n docs) := by
  have hfeed : L.Vanishes "\n" := by
    have hscan : L.scan .code "\n".toList = (.code, ['\n']) := scan_replicate hL.feed 1
    refine ⟨congrArg Prod.fst hscan, ?_⟩
    rw [kept, hscan]
    decide
  have hline : ∀ {s}, L.Skips .code s.toList .code → L.Vanishes (blanks n ++ s ++ "\n") :=
    fun hs => vanishes_append (vanishes_append (vanishes_blanks hL n) (vanishes_of_skips hs)) hfeed
  have hstar : ∀ c, c ≠ '*' → c ≠ '/' → L.Skips (.block 0) (['*'] ++ [c]) (.block 0) :=
    fun _ => skips_block rfl
  cases docs with
  | nil => exact ⟨rfl, rfl⟩
  | cons s ss =>
      cases ss with
      | nil =>
          have hskips := skips_openBlock.append <| (hstar ' ' (by decide) (by decide)).append <|
            (skips_block (confined_singleton h) (c := ' ') (by decide) (by decide)).append skips_closeBlock
          rw [docText, commentLines, List.map_singleton, linesText_singleton]
          refine hline ?_
          simpa using hskips
      | cons s' ss =>
          have hblank : L.Skips (.block 0) [' '] (.block 0) := skips_blanks 1 0
          have hskips := skips_openBlock.append <| (hstar '\n' (by decide) (by decide)).append <|
            (skips_lines n h).append <| (skips_blanks n 0).append <| hblank.append skips_closeBlock
          rw [docText_cons_cons]
          refine hline ?_
          simpa using hskips

end Lexis

/-! ## The same code without the comments -/

theorem wholeLines_linesText (ls : List String) : WholeLines (linesText ls) := by
  induction ls with
  | nil => exact fun c hc => by cases hc
  | cons s ls ih =>
      rw [linesText_cons]
      exact wholeLines_append (wholeLines_line s) ih

section SameCode
variable {α : Type} {form : List Char → α} {L : Lexis} (hform : IgnoresLayout form) (hL : L.ReadsLines)
include hform hL

theorem sameCode_docText {docs : List String} (h : L.Confined (.block docs)) (n : Nat) :
    SameCode form L (docText n docs) (docText n []) := by
  have hvanishes := Lexis.vanishes_docComment hL h n
  exact sameCode_blank hform ⟨hvanishes.1, wholeLines_linesText _⟩ hvanishes.2

theorem sameCode_docLinesText {docs : List String} (h : ∀ s ∈ docs, L.Confined (.line s)) (n : Nat) :
    SameCode form L (docLinesText n docs) (docLinesText n []) := by
  have hvanishes := Lexis.vanishes_docLines hL h n
  exact sameCode_blank hform ⟨hvanishes.1, wholeLines_linesText _⟩ hvanishes.2

/-- Lines of code. -/
theorem sameCode_linesText {ls : List String} (h : ∀ s ∈ ls, L.Closed s) :
    SameCode form L (linesText ls) (linesText ls) :=
  sameCode_join fun s hs => sameCode_line hform hL (h s hs)

theorem sameCode_indented {s : String} (hs : L.Closed s) (n : Nat) :
    SameCode form L (blanks n ++ s ++ "\n") (blanks n ++ s ++ "\n") :=
  sameCode_line hform hL (Lexis.closed_append (Lexis.vanishes_blanks hL n).1 hs)

end SameCode

end SchemaSnippets.Code

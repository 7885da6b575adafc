import SchemaSnippets.Code.Writer

/-!
# Code as lines

A declaration is written as a list of lines. Steps that write lines one after the other write one
list, and its text does not depend on how the steps were divided.

* `Writer.put` : a list of lines at the current level; `put_put`, `each_put` : one list from several;
* `linesText` : the text of a list of lines; `lines_linesText` : its lines are read back;
* `text_put`, `text_block_put` : what a fresh writer holds in the end.
-/

namespace SchemaSnippets.Code

/-- Lines, each with its end. -/
def linesText (ls : List String) : String :=
  String.join (ls.map (· ++ "\n"))

theorem linesText_cons (s : String) (ls : List String) :
    linesText (s :: ls) = s ++ "\n" ++ linesText ls := by
  unfold linesText
  rw [List.map_cons, String.join_cons]

theorem linesText_singleton (s : String) : linesText [s] = s ++ "\n" := by
  rw [linesText_cons]
  exact String.append_empty

theorem linesText_append (ls ls' : List String) :
    linesText (ls ++ ls') = linesText ls ++ linesText ls' := by
  unfold linesText
  rw [List.map_append, String.join_append]

theorem linesText_flatten (lss : List (List String)) :
    linesText lss.flatten = String.join (lss.map linesText) := by
  induction lss with
  | nil => rfl
  | cons ls lss ih => rw [List.flatten_cons, linesText_append, List.map_cons, String.join_cons, ih]

/-- A text of one line, without its end. -/
def isLine (s : String) : Bool :=
  s.toList.all fun c => c != '\n' && c != '\r'

theorem isLine_append {s t : String} : isLine (s ++ t) ↔ isLine s ∧ isLine t := by
  unfold isLine
  rw [String.toList_append, List.all_append, Bool.and_eq_true]

/-- A text is cut behind its first line. -/
theorem pieces_cons_line {cs : List Char} (h : '\n' ∉ cs) (xs : List Char) :
    Text.pieces (cs ++ '\n' :: xs) = (cs ++ ['\n']) :: Text.pieces xs := by
  induction cs with
  | nil => rfl
  | cons c cs ih =>
      obtain ⟨hc, hcs⟩ := not_or.1 fun hor => h (List.mem_cons.2 hor)
      rw [List.cons_append, Text.pieces, if_neg (Ne.symm hc), ih hcs]
      rfl

theorem dropLineEnd_feed {cs : List Char} (h : '\r' ∉ cs) : Text.dropLineEnd (cs ++ ['\n']) = cs := by
  have hreverse : (cs ++ ['\n']).reverse = '\n' :: cs.reverse := by simp
  unfold Text.dropLineEnd
  rw [hreverse]
  split
  · rename_i r heq
    have hmem : '\r' ∈ cs.reverse := (List.cons.inj heq).2 ▸ List.mem_cons_self ..
    exact absurd (List.mem_reverse.1 hmem) h
  · rename_i heq
    rw [← (List.cons.inj heq).2, List.reverse_reverse]
  · rename_i hother
    exact absurd rfl (hother _)

theorem lines_linesText {ls : List String} (h : ls.all isLine) : Text.lines (linesText ls) = ls := by
  induction ls with
  | nil => rfl
  | cons s ls ih =>
      rw [List.all_cons, Bool.and_eq_true] at h
      have hfeed : '\n' ∉ s.toList := fun hmem => by simpa using List.all_eq_true.1 h.1 _ hmem
      have hreturn : '\r' ∉ s.toList := fun hmem => by simpa using List.all_eq_true.1 h.1 _ hmem
      have htext : (linesText (s :: ls)).toList = s.toList ++ '\n' :: (linesText ls).toList := by
        rw [linesText_cons, String.toList_append, String.toList_append, List.append_assoc]
        rfl
      have hrest : Text.lines (linesText ls) = ls := ih h.2
      unfold Text.lines at hrest ⊢
      rw [htext, pieces_cons_line hfeed, List.map_cons, dropLineEnd_feed hreturn,
        String.ofList_toList, hrest]

namespace Writer
variable {α : Type} (w : Writer)

/-- Lines at the current level. -/
def put (ls : List String) : Writer :=
  w.each ls line

theorem line_eq_put (s : String) : w.line s = w.put [s] := rfl

theorem put_put (ls ls' : List String) : (w.put ls).put ls' = w.put (ls ++ ls') := by
  unfold put each
  rw [List.foldl_append]

/-- A line for each item. -/
theorem each_line (items : List α) (f : α → String) :
    (w.each items fun w x => w.line (f x)) = w.put (items.map f) := by
  unfold put each
  rw [List.foldl_map]

/-- Some lines for each item. -/
theorem each_put (items : List α) (f : α → List String) :
    (w.each items fun w x => w.put (f x)) = w.put (items.flatMap f) := by
  induction items generalizing w with
  | nil => rfl
  | cons x xs ih =>
      show (w.put (f x)).each xs _ = _
      rw [ih, put_put, List.flatMap_cons]

theorem raw_raw (s t : String) : (w.raw s).raw t = w.raw (s ++ t) := by
  unfold raw
  rw [String.append_assoc]

theorem put_eq_raw (ls : List String) :
    w.put ls = w.raw (linesText (ls.map (w.indentation ++ ·))) := by
  induction ls generalizing w with
  | nil =>
      show w = { w with text := w.text ++ "" }
      rw [String.append_empty]
  | cons s ls ih =>
      show (w.line s).put ls = _
      rw [ih, line, raw_raw, List.map_cons, linesText_cons]
      rfl

/-- Lines at the outermost level have no blanks before them. -/
theorem put_outermost (width : Nat) (text : String) (ls : List String) :
    (Writer.mk width 0 text).put ls = ⟨width, 0, text ++ linesText ls⟩ := by
  have hblank : (Writer.mk width 0 text).indentation = "" := by
    unfold indentation
    rw [Nat.mul_zero]
    rfl
  rw [put_eq_raw, hblank]
  simp [raw]

/-- What a fresh writer holds after some lines. -/
theorem text_put (width : Nat) (ls : List String) : ((empty width).put ls).text = linesText ls := by
  rw [empty, put_outermost, String.empty_append]

/-- What a fresh writer holds after some lines and a block of lines. -/
theorem text_block_put (width : Nat) (ls inner : List String) (header close : String) :
    (((empty width).put ls).block header close fun w => w.put inner).text =
      linesText (ls ++ header :: inner.map (String.ofList (List.replicate width ' ') ++ ·)
        ++ [close]) := by
  have hopen : ((empty width).put ls).line header = ⟨width, 0, linesText (ls ++ [header])⟩ := by
    rw [line_eq_put, put_put, empty, put_outermost, String.empty_append]
  have hinner : (Writer.mk width 1 (linesText (ls ++ [header]))).put inner =
      ⟨width, 1, linesText (ls ++ header :: inner.map
        (String.ofList (List.replicate width ' ') ++ ·))⟩ := by
    rw [put_eq_raw, indentation, Nat.mul_one, raw, ← linesText_append, List.append_assoc,
      List.singleton_append]
  show ((((((empty width).put ls).line header).indent.put inner).dedent).line close).text = _
  rw [hopen]
  show (((Writer.mk width 1 (linesText (ls ++ [header]))).put inner).dedent.line close).text = _
  rw [hinner]
  show ((Writer.mk width 0 _).put [close]).text = _
  rw [put_outermost, ← linesText_append]

end Writer

end SchemaSnippets.Code

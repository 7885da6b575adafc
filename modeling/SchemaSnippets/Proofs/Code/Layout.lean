import Mathlib.Data.List.DropRight
import SchemaSnippets.Proofs.Code.Comments
import SchemaSnippets.Text.Lines

/-!
# Layout

Two texts have the same code if they differ in comments and layout only. What counts as layout is said by
a function that forgets it.

* `codeLines` : the lines of a text without the white space around them, and without blank ones;
* `joinUnions` : the text with lines that begin with a bar put behind the lines before them;
* `IgnoresLayout` : what both have in common;
* `SameCode` : two texts that may stand for each other in a larger text; `sameCode_append`,
  `sameCode_join` : larger texts; `sameCode_line` : a line of code; `sameCode_trimEndFeeds` : a text
  with one line end behind it;
* `head?_kept`, `getLast?_kept` : the ends of a text that are kept without its comments;
* `SameCode.strip_eq` : then they are the same without comments.
-/

namespace SchemaSnippets.Code
open Text Unicode

/-! ## Forms without layout -/

/-- The lines of a text that are not blank, without white space around them. -/
def codeLines (cs : List Char) : List (List Char) :=
  ((pieces cs).map trimChars).filter fun l => !l.isEmpty

/-- A form of texts in which white space at the start is forgotten, and behind a line depends on the form
of what follows. -/
structure IgnoresLayout {α : Type} (form : List Char → α) : Prop where
  blank : ∀ {c cs}, isWhitespace c → form (c :: cs) = form cs
  line : ∀ {xs ys} cs, form xs = form ys → form (cs ++ '\n' :: xs) = form (cs ++ '\n' :: ys)

theorem pieces_line (cs xs : List Char) :
    pieces (cs ++ '\n' :: xs) = pieces (cs ++ ['\n']) ++ pieces xs := by
  induction cs with
  | nil => rfl
  | cons c cs ih =>
      rw [List.cons_append, List.cons_append, pieces, pieces]
      split
      · rw [ih, List.cons_append]
      · have hne : pieces (cs ++ ['\n']) ≠ [] := by
          intro hnil
          have hflat := flatten_pieces (cs ++ ['\n'])
          rw [hnil] at hflat
          simp at hflat
        obtain ⟨p, ps, hp⟩ := List.exists_cons_of_ne_nil hne
        rw [ih, hp]
        rfl

theorem trimChars_cons_of_isWhitespace {c : Char} (h : isWhitespace c) (cs : List Char) :
    trimChars (c :: cs) = trimChars cs := by
  rw [trimChars, List.dropWhile_cons_of_pos h, trimChars]

theorem ignoresLayout_codeLines : IgnoresLayout codeLines := by
  refine ⟨fun {c cs} h => ?_, fun {xs ys} cs h => ?_⟩
  · have hone : trimChars [c] = [] := trimChars_cons_of_isWhitespace h []
    unfold codeLines
    rw [pieces]
    split
    · rename_i hc
      rw [← hc, List.map_cons, hone]
      rfl
    · cases pieces cs with
      | nil =>
          show (List.map trimChars [[c]]).filter _ = _
          rw [List.map_cons, hone]
          rfl
      | cons p ps =>
          show (List.map trimChars ((c :: p) :: ps)).filter _ = _
          rw [List.map_cons, trimChars_cons_of_isWhitespace h, List.map_cons]
  · unfold codeLines at *
    rw [pieces_line, pieces_line cs ys, List.map_append, List.map_append, List.filter_append,
      List.filter_append, h]

/-! ### Unions on one line -/

/-- A character in front of a text. A line that begins with a bar continues the line before it, behind an
equals sign without the bar. -/
def continueLine (c : Char) : List Char → List Char
  | '\n' :: '|' :: cs => if c = '=' then c :: cs else c :: ' ' :: '|' :: cs
  | cs => c :: cs

/-- A character in front of a text, without white space at the start and at the end of lines, and without
blank lines. -/
def place (c : Char) (cs : List Char) : List Char :=
  if c = '\n' then c :: cs.dropWhile isWhitespace
  else if isWhitespace c then
    if cs.head? == some '\n' then cs else c :: cs
  else continueLine c cs

/-- A text in which a union is on the line of its declaration, without a bar in front of its first member.
Lines are without white space around them, and none is blank. -/
def joinUnions (cs : List Char) : List Char :=
  (cs.foldr place []).dropWhile isWhitespace

example : joinUnions "type Genre =\n\n  | 'A |B' \n  | 'C';\n".toList =
    "type Genre = 'A |B' | 'C';\n".toList := by
  decide

theorem ignoresLayout_joinUnions : IgnoresLayout joinUnions := by
  refine ⟨fun {c cs} h => ?_, fun {xs ys} cs h => ?_⟩
  · unfold joinUnions
    rw [List.foldr_cons, place]
    split
    · rw [List.dropWhile_cons_of_pos h, List.dropWhile_idempotent]
    · split
      · rfl
      · rw [List.dropWhile_cons_of_pos h]
  · unfold joinUnions at *
    rw [List.foldr_append, List.foldr_append, List.foldr_cons, List.foldr_cons, place, if_pos rfl,
      place, if_pos rfl, h]

theorem ne_feed_of_isWhitespace_eq_false {c : Char} (h : isWhitespace c = false) : c ≠ '\n' := by
  rintro rfl
  revert h
  decide

theorem place_eq_continueLine {c : Char} (h : isWhitespace c = false) (cs : List Char) :
    place c cs = continueLine c cs := by
  rw [place, if_neg (ne_feed_of_isWhitespace_eq_false h), h, if_neg Bool.false_ne_true]

/-- A character that is no white space stays. -/
theorem exists_place_eq {c : Char} (h : isWhitespace c = false) (cs : List Char) :
    ∃ ds, place c cs = c :: ds := by
  rw [place_eq_continueLine h]
  unfold continueLine
  split
  · split
    · exact ⟨_, rfl⟩
    · exact ⟨_, rfl⟩
  · exact ⟨_, rfl⟩

theorem place_blank {c : Char} (h : isWhitespace c = false) (cs : List Char) :
    place ' ' (c :: cs) = ' ' :: c :: cs := by
  have hhead : ((c :: cs).head? == some '\n') = false := by
    simpa using ne_feed_of_isWhitespace_eq_false h
  rw [place, if_neg (by decide), if_pos (by decide), hhead, if_neg Bool.false_ne_true]

/-- A bar on the next line is as good as a bar on the same line. -/
theorem joinUnions_feed_bar {c : Char} (hc : isWhitespace c = false) (hequals : c ≠ '=')
    (cs xs : List Char) :
    joinUnions (cs ++ c :: '\n' :: '|' :: xs) = joinUnions (cs ++ c :: ' ' :: '|' :: xs) := by
  obtain ⟨ds, hds⟩ := exists_place_eq (c := '|') (by decide) (xs.foldr place [])
  have hfeed : place '\n' ('|' :: ds) = '\n' :: '|' :: ds := rfl
  have hcontinue : place c ('\n' :: '|' :: ds) = c :: ' ' :: '|' :: ds := by
    rw [place_eq_continueLine hc]
    exact if_neg hequals
  have hblank : place c (' ' :: '|' :: ds) = c :: ' ' :: '|' :: ds := by
    rw [place_eq_continueLine hc]
    rfl
  unfold joinUnions
  simp only [List.foldr_append, List.foldr_cons, hds, place_blank (by decide : isWhitespace '|' = false),
    hfeed, hcontinue, hblank]

/-- A bar in front of the first member is dropped. -/
theorem joinUnions_equals_bar {c : Char} (hc : isWhitespace c = false) (cs xs : List Char) :
    joinUnions (cs ++ '=' :: '\n' :: '|' :: ' ' :: c :: xs) = joinUnions (cs ++ '=' :: ' ' :: c :: xs) := by
  obtain ⟨ds, hds⟩ := exists_place_eq hc (xs.foldr place [])
  unfold joinUnions
  simp only [List.foldr_append, List.foldr_cons, hds, place_blank hc]
  rfl

/-! ## The same code -/

section SameCode
variable {α : Type} {form : List Char → α} {L : Lexis} {s s' s'' t t' : String}

/-- A text of whole lines: it is empty or ends with a line feed. -/
def WholeLines (s : String) : Prop :=
  ∀ c, s.toList.getLast? = some c → c = '\n'

theorem wholeLines_append (hs : WholeLines s) (ht : WholeLines t) : WholeLines (s ++ t) := by
  intro c hc
  rw [String.toList_append, List.getLast?_append, Option.or_eq_some_iff] at hc
  exact hc.elim (ht c) fun hc => hs c hc.2

theorem wholeLines_line (s : String) : WholeLines (s ++ "\n") := by
  intro c hc
  rw [String.toList_append] at hc
  simpa using hc.symm

/-- What is kept of a text. -/
abbrev Lexis.kept (L : Lexis) (s : String) : List Char :=
  (L.scan .code s.toList).2

/-- A text of whole lines that begins and ends in the code. -/
structure Lexis.IsCode (L : Lexis) (s : String) : Prop where
  closed : L.Closed s
  lines : WholeLines s

/-- Both texts are code, and in front of texts of the same form they are of the same form themselves. -/
structure SameCode (form : List Char → α) (L : Lexis) (s s' : String) : Prop where
  left : L.IsCode s
  right : L.IsCode s'
  same : ∀ xs ys, form xs = form ys → form (L.kept s ++ xs) = form (L.kept s' ++ ys)

theorem SameCode.symm (h : SameCode form L s s') : SameCode form L s' s :=
  ⟨h.right, h.left, fun xs ys hform => (h.same ys xs hform.symm).symm⟩

theorem SameCode.trans (h : SameCode form L s s') (h' : SameCode form L s' s'') :
    SameCode form L s s'' :=
  ⟨h.left, h'.right, fun xs ys hform => (h.same xs ys hform).trans (h'.same ys ys rfl)⟩

theorem isCode_empty : L.IsCode "" :=
  ⟨rfl, fun c hc => by cases hc⟩

theorem sameCode_empty : SameCode form L "" "" :=
  ⟨isCode_empty, isCode_empty, fun _ _ h => h⟩

theorem kept_append (hs : L.Closed s) (t : String) : L.kept (s ++ t) = L.kept s ++ L.kept t := by
  unfold Lexis.Closed at hs
  rw [Lexis.kept, String.toList_append, Lexis.scan_append, hs]

/-- The first character of a text is kept if it begins no comment. -/
theorem head?_kept {c : Char} (h : s.toList.head? = some c) (hc : c ≠ '/') :
    (L.kept s).head? = some c := by
  obtain ⟨cs, hcs⟩ := List.head?_eq_some_iff.1 h
  have hstep : (L.step .code c).2 = [c] := Lexis.kept_inCode hc
  rw [Lexis.kept, hcs, Lexis.scan_cons, hstep]
  rfl

/-- The last character of a text is kept if it ends no comment. -/
theorem getLast?_kept (hs : L.Closed s) {c : Char} (h : s.toList.getLast? = some c) (hc : c ≠ '/') :
    (L.kept s).getLast? = some c := by
  obtain ⟨cs, hcs⟩ := List.getLast?_eq_some_iff.1 h
  unfold Lexis.Closed at hs
  rw [hcs, Lexis.scan_append] at hs
  have hstep := Lexis.getLast?_step hc hs
  rw [Lexis.kept, hcs, Lexis.scan_append, Lexis.scan_cons, Lexis.scan_nil, List.append_nil,
    List.getLast?_append, hstep]
  rfl

theorem isCode_append (hs : L.IsCode s) (ht : L.IsCode t) : L.IsCode (s ++ t) :=
  ⟨Lexis.closed_append hs.closed ht.closed, wholeLines_append hs.lines ht.lines⟩

theorem sameCode_append (h : SameCode form L s s') (h' : SameCode form L t t') :
    SameCode form L (s ++ t) (s' ++ t') := by
  refine ⟨isCode_append h.left h'.left, isCode_append h.right h'.right, fun xs ys hform => ?_⟩
  rw [kept_append h.left.closed, kept_append h.right.closed, List.append_assoc, List.append_assoc]
  exact h.same _ _ (h'.same xs ys hform)

/-- Texts of items one after the other. -/
theorem sameCode_join {β : Type} {items : List β} {text text' : β → String}
    (h : ∀ x ∈ items, SameCode form L (text x) (text' x)) :
    SameCode form L (String.join (items.map text)) (String.join (items.map text')) := by
  induction items with
  | nil => exact sameCode_empty
  | cons x xs ih =>
      obtain ⟨hx, hxs⟩ := List.forall_mem_cons.1 h
      rw [List.map_cons, List.map_cons, String.join_cons, String.join_cons]
      exact sameCode_append hx (ih hxs)

/-- A text that ends in the code ends behind no `/` of it. -/
theorem strip_eq_kept (hs : L.Closed s) : L.strip s = L.kept s := by
  unfold Lexis.Closed at hs
  show (if (L.scan .code s.toList).1 = .slash then _ else _) = _
  rw [hs]
  rfl

/-- Without their comments the texts are of the same form. -/
theorem SameCode.strip_eq (h : SameCode form L s s') : form (L.strip s) = form (L.strip s') := by
  have hsame := h.same [] [] rfl
  rw [List.append_nil, List.append_nil] at hsame
  rw [strip_eq_kept h.left.closed, strip_eq_kept h.right.closed, hsame]

/-! ### Lines -/

variable (hform : IgnoresLayout form)
include hform

theorem IgnoresLayout.blanks {cs : List Char} (h : cs.all isWhitespace) (xs : List Char) :
    form (cs ++ xs) = form xs := by
  induction cs with
  | nil => rfl
  | cons c cs ih =>
      rw [List.all_cons, Bool.and_eq_true] at h
      rw [List.cons_append, hform.blank h.1, ih h.2]

/-- A text of which nothing but white space is left. -/
theorem sameCode_blank (hs : L.IsCode s) (h : (L.kept s).all isWhitespace) :
    SameCode form L s "" := by
  refine ⟨hs, isCode_empty, fun xs ys hxs => ?_⟩
  rw [hform.blanks h]
  exact hxs

/-- An empty line. -/
theorem sameCode_feed (hL : L.ReadsLines) : SameCode form L "\n" "" := by
  have hfeed : L.scan .code "\n".toList = (.code, ['\n']) := Lexis.scan_replicate hL.feed 1
  refine sameCode_blank hform ⟨congrArg Prod.fst hfeed, wholeLines_line ""⟩ ?_
  rw [Lexis.kept, hfeed]
  decide

/-- A line of code. -/
theorem sameCode_line (hL : L.ReadsLines) (hs : L.Closed s) :
    SameCode form L (s ++ "\n") (s ++ "\n") := by
  have hfeed : L.scan .code "\n".toList = (.code, ['\n']) := Lexis.scan_replicate hL.feed 1
  have hcode : L.IsCode (s ++ "\n") :=
    ⟨Lexis.closed_append hs (congrArg Prod.fst hfeed), wholeLines_line s⟩
  refine ⟨hcode, hcode, fun xs ys hxs => ?_⟩
  rw [kept_append hs, Lexis.kept, Lexis.kept, hfeed, List.append_assoc, List.append_assoc]
  exact hform.line _ hxs

omit hform in
/-- What stands before the line feeds at the end of a text. -/
theorem exists_trimEndFeeds (hs : WholeLines s) (hne : s ≠ "") :
    ∃ cs n, s.toList = cs ++ List.replicate (n + 1) '\n' ∧ trimEndFeeds s = String.ofList cs := by
  have hsplit := List.takeWhile_append_dropWhile (p := (· == '\n')) (l := s.toList.reverse)
  obtain ⟨feeds, hfeeds⟩ : ∃ feeds, s.toList.reverse.takeWhile (· == '\n') = '\n' :: feeds := by
    have hlist : s.toList.reverse ≠ [] := by simpa using hne
    obtain ⟨c, cs, hcs⟩ := List.exists_cons_of_ne_nil hlist
    obtain rfl : c = '\n' := by
      refine hs c ?_
      rw [List.getLast?_eq_head?_reverse, hcs]
      rfl
    rw [hcs, List.takeWhile_cons_of_pos rfl]
    exact ⟨_, rfl⟩
  have hall : feeds = List.replicate feeds.length '\n' := by
    refine List.eq_replicate_of_mem fun c hc => ?_
    have hmem : c ∈ s.toList.reverse.takeWhile (· == '\n') := by
      rw [hfeeds]
      exact List.mem_cons_of_mem _ hc
    simpa using List.mem_takeWhile_imp hmem
  refine ⟨_, feeds.length, ?_, rfl⟩
  rw [hfeeds, hall] at hsplit
  rw [← List.reverse_inj, List.reverse_append, List.reverse_replicate, List.reverse_reverse,
    List.replicate_succ, hsplit]

/-- Code with one line feed at its end for all that it has there. -/
theorem sameCode_trimEndFeeds (hL : L.ReadsLines) (hs : L.IsCode s) :
    SameCode form L (trimEndFeeds s ++ "\n") s := by
  by_cases hne : s = ""
  · subst hne
    exact sameCode_feed hform hL
  obtain ⟨cs, n, hcs, htrim⟩ := exists_trimEndFeeds hs.lines hne
  obtain ⟨os, hfirst⟩ : ∃ os, L.scan .code (cs ++ ['\n']) = (.code, os ++ ['\n']) := by
    have hquoted : L.Quoted (L.scan .code cs).1 := Lexis.quoted_scan (m := .code) trivial cs
    have hback : (L.scan (L.scan .code cs).1 (List.replicate (n + 1) '\n')).1 = .code := by
      have hclosed := hs.closed
      unfold Lexis.Closed at hclosed
      rw [hcs, Lexis.scan_append] at hclosed
      exact hclosed
    obtain ⟨os, hos⟩ := Lexis.scan_feeds hL hquoted hback
    refine ⟨(L.scan .code cs).2 ++ os, ?_⟩
    rw [Lexis.scan_append, hos, List.append_assoc]
  have htext : L.scan .code (trimEndFeeds s ++ "\n").toList = (.code, os ++ ['\n']) := by
    rw [htrim, String.toList_append, String.toList_ofList]
    exact hfirst
  have hkept : L.kept s = os ++ '\n' :: List.replicate n '\n' := by
    rw [Lexis.kept, hcs, List.replicate_succ, List.append_cons, Lexis.scan_append, hfirst,
      Lexis.scan_replicate hL.feed, List.append_assoc]
    rfl
  have hblank : (List.replicate n '\n').all isWhitespace := by
    rw [List.all_eq_true]
    intro c hc
    rw [List.eq_of_mem_replicate hc]
    decide
  refine ⟨⟨congrArg Prod.fst htext, wholeLines_line _⟩, hs, fun xs ys hxs => ?_⟩
  rw [hkept, Lexis.kept, htext, List.append_assoc, List.append_assoc]
  refine hform.line os ?_
  show form xs = form (List.replicate n '\n' ++ ys)
  rw [hform.blanks hblank, hxs]

end SameCode

end SchemaSnippets.Code

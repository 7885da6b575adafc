import SchemaSnippets.Code.Writer

/-!
# Comments

What a compiler does not see. A text is read character by character: a comment begins in the code and
not in a literal, in a block it ends at `*/`, and behind `//` with the line.

* `Lexis` : how a language tells comments and literals from code; `Lexis.scan` : reading a text;
* `strip` : a text without its comments;
* `Lexis.Closed` : texts that begin and end in the code; `closed_append`, `closed_literal` : how they are
  made;
* `Lexis.ReadsLines` : line ends and blanks are code; `scan_feeds` : several line ends are as good as one;
* `Comment`, `Lexis.Confined` : what is written in a comment does not end it; `skips_block`,
  `skips_line` : then nothing of it is left.
-/

namespace SchemaSnippets.Code

/-- How a language tells comments and literals from code. -/
structure Lexis where
  /-- Whether a block can stand inside a block. -/
  nests : Bool
  /-- What ends a line, and a comment behind `//` with it. -/
  lineEnds : List Char
  /-- What begins and ends a literal, each with whether a backslash takes the meaning of the character
  behind it. -/
  quotes : List (Char × Bool)

/-- Where a reader stands. A block has a depth: the number of blocks around it. -/
inductive Mode where
  | code
  /-- Behind a `/` of the code. -/
  | slash
  | line
  | block (depth : Nat)
  /-- Behind a `*` in a block. -/
  | star (depth : Nat)
  /-- Behind a `/` in a block. -/
  | opening (depth : Nat)
  | literal (quote : Char) (escapes : Bool)
  /-- Behind a backslash in a literal. -/
  | escaped (quote : Char)
deriving DecidableEq, Repr

/-- Where a reader stands when a block of the given depth has ended. -/
def Mode.outside : Nat → Mode
  | 0 => .code
  | depth + 1 => .block depth

namespace Lexis
variable (L : Lexis)

/-- A character of the code: where it leads, and what is kept. A `/` is kept when it is known to begin
no comment. -/
def inCode (c : Char) : Mode × List Char :=
  if c = '/' then (.slash, [])
  else
    match L.quotes.lookup c with
    | some escapes => (.literal c escapes, [c])
    | none => (.code, [c])

/-- Where a character in a block leads, if it does not end it. -/
def inBlock (depth : Nat) (c : Char) : Mode :=
  if c = '*' then .star depth else if L.nests ∧ c = '/' then .opening depth else .block depth

/-- One character: where it leads, and what is kept. The end of a line does not belong to the comment
before it. -/
def step : Mode → Char → Mode × List Char
  | .code, c => L.inCode c
  | .slash, c =>
    if c = '/' then (.line, [])
    else if c = '*' then (.block 0, [])
    else ((L.inCode c).1, '/' :: (L.inCode c).2)
  | .line, c => if c ∈ L.lineEnds then (.code, [c]) else (.line, [])
  | .block depth, c => (L.inBlock depth c, [])
  | .star depth, c => (if c = '/' then .outside depth else L.inBlock depth c, [])
  | .opening depth, c => (if c = '*' then .block (depth + 1) else L.inBlock depth c, [])
  | .literal quote escapes, c =>
    (if c = quote then .code else if escapes ∧ c = '\\' then .escaped quote
      else .literal quote escapes, [c])
  | .escaped quote, c => (.literal quote true, [c])

/-- Where a text leads, and what is kept of it. -/
def scan : Mode → List Char → Mode × List Char
  | m, [] => (m, [])
  | m, c :: cs => ((scan (L.step m c).1 cs).1, (L.step m c).2 ++ (scan (L.step m c).1 cs).2)

/-- A text without its comments. -/
def strip (s : String) : List Char :=
  let (mode, kept) := L.scan .code s.toList
  if mode = .slash then kept ++ ['/'] else kept

example : strip ⟨false, ['\n'], [('"', true)]⟩ "a /* b */ = \"/*\"; // c" = "a  = \"/*\"; ".toList := by
  decide

/-! ## Reading on -/

variable {L} {m m' m'' : Mode} {cs ds : List Char}

theorem scan_nil (m : Mode) : L.scan m [] = (m, []) := rfl

theorem scan_cons (m : Mode) (c : Char) (cs : List Char) :
    L.scan m (c :: cs) =
      ((L.scan (L.step m c).1 cs).1, (L.step m c).2 ++ (L.scan (L.step m c).1 cs).2) := rfl

theorem scan_append (m : Mode) (cs ds : List Char) :
    L.scan m (cs ++ ds) =
      ((L.scan (L.scan m cs).1 ds).1, (L.scan m cs).2 ++ (L.scan (L.scan m cs).1 ds).2) := by
  induction cs generalizing m with
  | nil => rfl
  | cons c cs ih =>
      rw [List.cons_append, scan_cons, ih, scan_cons, List.append_assoc]

/-- A text that leads from one mode to another and leaves nothing. -/
def Skips (L : Lexis) (m : Mode) (cs : List Char) (m' : Mode) : Prop :=
  L.scan m cs = (m', [])

theorem Skips.append (h : L.Skips m cs m') (h' : L.Skips m' ds m'') :
    L.Skips m (cs ++ ds) m'' := by
  unfold Skips at *
  rw [scan_append, h, h']
  rfl

theorem skips_cons {c : Char} (h : L.step m c = (m', [])) (h' : L.Skips m' cs m'') :
    L.Skips m (c :: cs) m'' := by
  unfold Skips at *
  rw [scan_cons, h, h']
  rfl

/-! ## Code and literals -/

theorem kept_inCode {c : Char} (h : c ≠ '/') : (L.inCode c).2 = [c] := by
  rw [inCode, if_neg h]
  split <;> rfl

theorem inBlock_ne_code (depth : Nat) (c : Char) : L.inBlock depth c ≠ .code := by
  unfold inBlock
  split
  · exact Mode.noConfusion
  · split <;> exact Mode.noConfusion

/-- A character that leads into the code is kept if it ends no block. -/
theorem getLast?_step {c : Char} (hc : c ≠ '/') (h : (L.step m c).1 = .code) :
    (L.step m c).2.getLast? = some c := by
  cases m with
  | code =>
      show (L.inCode c).2.getLast? = _
      rw [kept_inCode hc]
      rfl
  | slash =>
      rw [step, if_neg hc] at h ⊢
      split at h
      · cases h
      · rename_i hstar
        rw [if_neg hstar, kept_inCode hc]
        rfl
  | line =>
      rw [step] at h ⊢
      split at h
      · rename_i hend
        rw [if_pos hend]
        rfl
      · cases h
  | block depth => exact absurd h (inBlock_ne_code depth c)
  | star depth =>
      rw [step, if_neg hc] at h
      exact absurd h (inBlock_ne_code depth c)
  | opening depth =>
      rw [step] at h
      split at h
      · cases h
      · exact absurd h (inBlock_ne_code depth c)
  | literal quote escapes => rfl
  | escaped quote => rfl

/-- A character that begins neither a comment nor a literal. -/
def isPlain (L : Lexis) (c : Char) : Bool :=
  c != '/' && (L.quotes.lookup c).isNone

/-- A text that begins and ends in the code. -/
def Closed (L : Lexis) (s : String) : Prop :=
  (L.scan .code s.toList).1 = .code

instance (L : Lexis) (s : String) : Decidable (L.Closed s) :=
  inferInstanceAs (Decidable (_ = _))

theorem step_code_of_isPlain {c : Char} (h : L.isPlain c) : L.step .code c = (.code, [c]) := by
  rw [isPlain, Bool.and_eq_true, bne_iff_ne, Option.isNone_iff_eq_none] at h
  show L.inCode c = _
  rw [inCode, if_neg h.1, h.2]

theorem closed_of_isPlain {s : String} (h : s.toList.all L.isPlain) : L.Closed s := by
  unfold Closed
  generalize s.toList = cs at h
  induction cs with
  | nil => rfl
  | cons c cs ih =>
      rw [List.all_cons, Bool.and_eq_true] at h
      rw [scan_cons, step_code_of_isPlain h.1]
      exact ih h.2

theorem closed_append {s t : String} (hs : L.Closed s) (ht : L.Closed t) : L.Closed (s ++ t) := by
  unfold Closed at *
  rw [String.toList_append, scan_append, hs]
  exact ht

theorem closed_intercalate {separator : String} {ss : List String} (hsep : L.Closed separator)
    (h : ∀ s ∈ ss, L.Closed s) : L.Closed (separator.intercalate ss) := by
  induction ss with
  | nil => rfl
  | cons s ss ih =>
      obtain ⟨hs, hss⟩ := List.forall_mem_cons.1 h
      cases ss with
      | nil => rwa [String.intercalate_singleton]
      | cons t ss =>
          rw [String.intercalate_cons_cons]
          exact closed_append (closed_append hs hsep) (ih hss)

/-- A character in a literal that is no quote and no backslash. -/
theorem scan_literal_cons {quote c : Char} {escapes : Bool} (h : c ≠ quote)
    (h' : ¬ (escapes ∧ c = '\\')) (cs : List Char) :
    (L.scan (.literal quote escapes) (c :: cs)).1 = (L.scan (.literal quote escapes) cs).1 := by
  rw [scan_cons, step, if_neg h, if_neg h']

theorem scan_literal_all {quote : Char} {escapes : Bool}
    (h : ∀ c ∈ cs, c ≠ quote ∧ ¬ (escapes ∧ c = '\\')) :
    (L.scan (.literal quote escapes) cs).1 = .literal quote escapes := by
  induction cs with
  | nil => rfl
  | cons c cs ih =>
      obtain ⟨hc, hcs⟩ := List.forall_mem_cons.1 h
      rw [scan_literal_cons hc.1 hc.2, ih hcs]

/-- A character behind a backslash. -/
theorem scan_literal_escaped {quote : Char} (h : quote ≠ '\\') (c : Char) (cs : List Char) :
    (L.scan (.literal quote true) ('\\' :: c :: cs)).1 = (L.scan (.literal quote true) cs).1 := by
  rw [scan_cons, step, if_neg h.symm, if_pos ⟨rfl, rfl⟩]
  rfl

theorem scan_literal_flatMap {quote : Char} {escapes : Bool} {write : Char → List Char}
    (h : ∀ c, (L.scan (.literal quote escapes) (write c)).1 = .literal quote escapes)
    (cs : List Char) :
    (L.scan (.literal quote escapes) (cs.flatMap write)).1 = .literal quote escapes := by
  induction cs with
  | nil => rfl
  | cons c cs ih =>
      rw [List.flatMap_cons, scan_append, h]
      exact ih

/-- A text between two quotes. -/
theorem closed_literal {quote : Char} {escapes : Bool} {cs : List Char}
    (hquote : L.step .code quote = (.literal quote escapes, [quote]))
    (h : (L.scan (.literal quote escapes) cs).1 = .literal quote escapes) :
    L.Closed (String.ofList (quote :: cs ++ [quote])) := by
  unfold Closed
  rw [String.toList_ofList, List.cons_append, scan_cons, hquote, scan_append, h, scan_cons, step,
    if_pos rfl]
  rfl

/-! ### Lines -/

/-- Texts are indented with blanks, and their lines end at line feeds. -/
structure ReadsLines (L : Lexis) : Prop where
  feed : L.isPlain '\n'
  ends : '\n' ∈ L.lineEnds
  blank : L.isPlain ' '
  goesOn : ' ' ∉ L.lineEnds ∧ '/' ∉ L.lineEnds

theorem scan_replicate {c : Char} (h : L.isPlain c) (n : Nat) :
    L.scan .code (List.replicate n c) = (.code, List.replicate n c) := by
  induction n with
  | zero => rfl
  | succ n ih =>
      rw [List.replicate_succ, scan_cons, step_code_of_isPlain h, ih]
      rfl

/-- A literal stands between two quotes of the language. -/
def Quoted (L : Lexis) : Mode → Prop
  | .literal quote _ => (L.quotes.lookup quote).isSome
  | .escaped quote => (L.quotes.lookup quote).isSome
  | _ => True

theorem quoted_inBlock (depth : Nat) (c : Char) : L.Quoted (L.inBlock depth c) := by
  unfold inBlock
  split
  · exact trivial
  · split <;> exact trivial

theorem quoted_inCode (c : Char) : L.Quoted (L.inCode c).1 := by
  unfold inCode
  split
  · exact trivial
  · split
    · rename_i h
      exact Option.isSome_iff_exists.2 ⟨_, h⟩
    · exact trivial

theorem quoted_step (h : L.Quoted m) (c : Char) : L.Quoted (L.step m c).1 := by
  cases m with
  | code => exact quoted_inCode c
  | slash =>
      rw [step]
      split
      · exact trivial
      · split
        · exact trivial
        · exact quoted_inCode c
  | line =>
      rw [step]
      split <;> exact trivial
  | block depth => exact quoted_inBlock depth c
  | star depth =>
      rw [step]
      split
      · cases depth <;> exact trivial
      · exact quoted_inBlock depth c
  | opening depth =>
      rw [step]
      split
      · exact trivial
      · exact quoted_inBlock depth c
  | literal quote escapes =>
      rw [step]
      dsimp only
      split
      · exact trivial
      · split <;> exact h
  | escaped quote => exact h

theorem quoted_scan (h : L.Quoted m) (cs : List Char) : L.Quoted (L.scan m cs).1 := by
  induction cs generalizing m with
  | nil => exact h
  | cons c cs ih => exact ih (quoted_step h c)

/-- Line feeds lead back to the code at once or not at all. -/
theorem scan_feeds (hL : L.ReadsLines) (hm : L.Quoted m) {n : Nat}
    (h : (L.scan m (List.replicate (n + 1) '\n')).1 = .code) :
    ∃ cs, L.scan m ['\n'] = (.code, cs ++ ['\n']) := by
  have hfeed : L.inCode '\n' = (.code, ['\n']) := step_code_of_isPlain hL.feed
  -- in a block or a literal the second line feed changes nothing
  have hstays : ∀ {m'}, m' ≠ .code → (L.step m '\n').1 = m' → (L.step m' '\n').1 = m' → False := by
    intro m' hcode hfirst hnext
    have hall : ∀ n, (L.scan m' (List.replicate n '\n')).1 = m' := by
      intro n
      induction n with
      | zero => rfl
      | succ n ih => rwa [List.replicate_succ, scan_cons, hnext]
    rw [List.replicate_succ, scan_cons, hfirst, hall] at h
    exact hcode h
  have hblock : ∀ depth, L.inBlock depth '\n' = .block depth := by
    intro depth
    rw [inBlock, if_neg (by decide), if_neg fun hc => absurd hc.2 (by decide)]
  have hquote : ∀ {quote}, (L.quotes.lookup quote).isSome → '\n' ≠ quote := by
    rintro _ hquote rfl
    have hplain := hL.feed
    rw [isPlain, Option.isNone_eq_false_iff.2 hquote] at hplain
    simp at hplain
  cases m with
  | code =>
      refine ⟨[], ?_⟩
      rw [scan_cons, step, hfeed]
      rfl
  | slash =>
      refine ⟨['/'], ?_⟩
      rw [scan_cons, step, if_neg (by decide), if_neg (by decide), hfeed]
      rfl
  | line =>
      refine ⟨[], ?_⟩
      rw [scan_cons, step, if_pos hL.ends]
      rfl
  | block depth => exact (hstays Mode.noConfusion (hblock depth) (hblock depth)).elim
  | star depth => exact (hstays Mode.noConfusion (hblock depth) (hblock depth)).elim
  | opening depth => exact (hstays Mode.noConfusion (hblock depth) (hblock depth)).elim
  | literal quote escapes =>
      have hstep : (L.step (.literal quote escapes) '\n').1 = .literal quote escapes := by
        rw [step, if_neg (hquote hm), if_neg fun hc => absurd hc.2 (by decide)]
      exact (hstays Mode.noConfusion hstep hstep).elim
  | escaped quote =>
      have hstep : (L.step (.literal quote true) '\n').1 = .literal quote true := by
        rw [step, if_neg (hquote hm), if_neg fun hc => absurd hc.2 (by decide)]
      exact (hstays Mode.noConfusion rfl hstep).elim

end Lexis

/-! ## Comments -/

/-- The depth of blocks that a text in a block leads to, unless it ends them all. -/
def depthAfter (nests : Bool) : Nat → List Char → Option Nat
  | depth, [] => some depth
  | depth, [_] => some depth
  | depth, c :: d :: cs =>
    if c = '*' ∧ d = '/' then
      if depth = 0 then none else depthAfter nests (depth - 1) cs
    else if nests ∧ c = '/' ∧ d = '*' then depthAfter nests (depth + 1) cs
    else depthAfter nests depth (d :: cs)

/-- What is written as a comment: lines in a block, or a text up to the end of a line. -/
inductive Comment where
  | block (lines : List String)
  | line (text : String)

namespace Lexis
variable {L : Lexis}

/-- What is written in the comment does not end it, and ends with it. -/
def Confined (L : Lexis) : Comment → Prop
  | .block lines => lines.foldlM (fun depth s => depthAfter L.nests depth s.toList) 0 = some 0
  | .line text => ∀ c ∈ text.toList, c ∉ L.lineEnds

instance (L : Lexis) (c : Comment) : Decidable (L.Confined c) :=
  match c with
  | .block _ => inferInstanceAs (Decidable (_ = _))
  | .line text => List.decidableBAll (· ∉ L.lineEnds) text.toList

/-- Without a slash no block begins or ends. -/
theorem depthAfter_of_notMem {nests : Bool} {cs : List Char} (h : '/' ∉ cs) (depth : Nat) :
    depthAfter nests depth cs = some depth := by
  match cs, h with
  | [], _ => rfl
  | [_], _ => rfl
  | c :: d :: cs, h =>
      simp only [List.mem_cons, not_or] at h
      rw [depthAfter, if_neg fun hend => h.2.1 hend.2.symm, if_neg fun hopen => h.1 hopen.2.1.symm]
      exact depthAfter_of_notMem (by simp [h]) depth

theorem confined_of_notMem {s : String} (h : '/' ∉ s.toList) : L.Confined (.block [s]) := by
  show (depthAfter L.nests 0 s.toList).bind _ = _
  rw [depthAfter_of_notMem h]
  rfl

theorem inBlock_of_ne {c : Char} (h : c ≠ '*') (h' : c ≠ '/') (depth : Nat) :
    L.inBlock depth c = .block depth := by
  rw [inBlock, if_neg h, if_neg fun hc => h' hc.2]

/-- What follows a character of a block is read as if the block began with it, unless both together end
the block or begin another one. -/
theorem scan_inBlock {c d : Char} {cs : List Char} {depth : Nat} (hend : ¬ (c = '*' ∧ d = '/'))
    (hopen : ¬ (L.nests ∧ c = '/' ∧ d = '*')) :
    L.scan (L.inBlock depth c) (d :: cs) = L.scan (.block depth) (d :: cs) := by
  have hstep : L.step (L.inBlock depth c) d = L.step (.block depth) d := by
    unfold inBlock
    split
    · rename_i hc
      rw [step, step, if_neg fun hd => hend ⟨hc, hd⟩]
    · split
      · rename_i hc
        rw [step, step, if_neg fun hd => hopen ⟨hc.1, hc.2, hd⟩]
      · rfl
  rw [scan_cons, scan_cons, hstep]

/-- A line in a block and what ends it. -/
theorem skips_block {depth depth' : Nat} {cs : List Char} {c : Char}
    (h : depthAfter L.nests depth cs = some depth') (hc : c ≠ '*') (hc' : c ≠ '/') :
    L.Skips (.block depth) (cs ++ [c]) (.block depth') := by
  have hlast : ∀ depth, L.Skips (.block depth) [c] (.block depth) := by
    intro depth
    have hstep : L.step (.block depth) c = (.block depth, []) := by
      rw [step, inBlock_of_ne hc hc']
    exact skips_cons hstep rfl
  induction depth, cs using depthAfter.induct L.nests with
  | case1 depth =>
      obtain rfl := Option.some.inj h
      exact hlast depth
  | case2 depth d =>
      obtain rfl := Option.some.inj h
      show L.scan (.block depth) (d :: [c]) = _
      rw [scan_cons, step, scan_inBlock (fun hd => hc' hd.2) fun hd => hc hd.2.2, hlast]
      rfl
  | case3 d e cs hend =>
      rw [depthAfter, if_pos hend, if_pos rfl] at h
      cases h
  | case4 depth d e cs hend hdepth ih =>
      rw [depthAfter, if_pos hend, if_neg hdepth] at h
      obtain ⟨rfl, rfl⟩ := hend
      obtain ⟨depth, rfl⟩ := Nat.exists_eq_succ_of_ne_zero hdepth
      exact skips_cons rfl (skips_cons rfl (ih h))
  | case5 depth d e cs hend hopen ih =>
      rw [depthAfter, if_neg hend, if_pos hopen] at h
      obtain ⟨hnests, rfl, rfl⟩ := hopen
      have hstep : L.step (.block depth) '/' = (.opening depth, []) := by
        rw [step, inBlock, if_neg (by decide), if_pos ⟨hnests, rfl⟩]
      exact skips_cons hstep (skips_cons rfl (ih h))
  | case6 depth d e cs hend hopen ih =>
      rw [depthAfter, if_neg hend, if_neg hopen] at h
      show L.scan (.block depth) (d :: (e :: cs ++ [c])) = _
      have hrest := ih h
      rw [scan_cons, step, List.cons_append, scan_inBlock hend hopen]
      rw [Skips, List.cons_append] at hrest
      rw [hrest]
      rfl

/-- A comment up to the end of the line. -/
theorem skips_line {text : String} (h : L.Confined (.line text)) :
    L.Skips .line text.toList .line := by
  replace h : ∀ c ∈ text.toList, c ∉ L.lineEnds := h
  generalize text.toList = cs at h
  induction cs with
  | nil => rfl
  | cons c cs ih =>
      have hstep : L.step .line c = (.line, []) := by
        rw [step, if_neg (h c (List.mem_cons_self ..))]
      exact skips_cons hstep (ih fun d hd => h d (List.mem_cons_of_mem _ hd))

end Lexis

end SchemaSnippets.Code

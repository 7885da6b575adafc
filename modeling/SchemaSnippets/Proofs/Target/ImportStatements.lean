import Mathlib.Data.List.Nodup
import SchemaSnippets.Proofs.Schema.Spelling
import SchemaSnippets.Proofs.Target.Rust.Documented

/-!
# Import statements read back

What the statements of a language import is read off their words. Braces, commas and quotes divide words,
and so do colons; a point does not.

* `wordsIn` : the words of a line; `wordsIn_between` : everything about them follows from this equation;
* `readImports?` : what the statements of a text import, one statement on each line;
* `TypeScript.readImports?_imports`, `Kotlin.readImports?_imports`, `Rust.readImports?_imports` : it is what
  they are written for, with a statement for each module or, in Kotlin, for each symbol;
* `Rust.perm_sortedModules` : in increasing order, the modules are the same.
-/

namespace SchemaSnippets.Target
open Code Model Schema

/-! ## Words -/

/-- A character of an identifier, or a point. -/
def inWord (c : Char) : Bool :=
  inIdentifier c || c == '.'

/-- The words among the characters: the longest runs of such characters. -/
def words (cs : List Char) : List String :=
  ((cs.splitOnP fun c => !inWord c).filter (· ≠ [])).map String.ofList

/-- The words of a line. -/
def wordsIn (line : String) : List String :=
  words line.toList

/-- A word on its own. -/
def isWord (s : String) : Bool :=
  s.toList ≠ [] && s.toList.all inWord

/-- A text between words: no word reaches into it from either side. -/
def divides (s : String) : Bool :=
  s.toList.head?.any (!inWord ·) && s.toList.getLast?.any (!inWord ·)

/-- A character that is in no word divides the words before it from those behind it. -/
theorem words_divided {c : Char} (hc : inWord c = false) (cs ds : List Char) :
    words (cs ++ c :: ds) = words cs ++ words ds := by
  unfold words
  rw [List.splitOnP_append_cons cs ds (by rw [hc]; rfl), List.filter_append, List.map_append]

theorem wordsIn_of_isWord {s : String} (h : isWord s) : wordsIn s = [s] := by
  unfold isWord at h
  rw [Bool.and_eq_true, decide_eq_true_eq, List.all_eq_true] at h
  have hsplit : s.toList.splitOnP (fun c => !inWord c) = [s.toList] :=
    List.splitOnP_eq_singleton fun c hc => by rw [h.2 c hc]; rfl
  unfold wordsIn words
  rw [hsplit]
  simp [h.1]

theorem wordsIn_between {between : String} (h : divides between) (s t : String) :
    wordsIn (s ++ between ++ t) = wordsIn s ++ wordsIn between ++ wordsIn t := by
  unfold divides at h
  rw [Bool.and_eq_true, Option.any_eq_true, Option.any_eq_true] at h
  obtain ⟨⟨c, hfirst, hc⟩, d, hlast, hd⟩ := h
  rw [Bool.not_eq_true'] at hc hd
  obtain ⟨cs, hcs⟩ := List.head?_eq_some_iff.1 hfirst
  obtain ⟨ds, hds⟩ := List.getLast?_eq_some_iff.1 hlast
  have hempty : words [] = [] := rfl
  have hbefore : ∀ xs, words (s.toList ++ c :: xs) = words s.toList ++ words (c :: xs) := by
    intro xs
    have hone := words_divided hc [] xs
    rw [hempty, List.nil_append, List.nil_append] at hone
    rw [words_divided hc, hone]
  have hbehind : words (ds ++ d :: t.toList) = words (ds ++ [d]) ++ words t.toList := by
    rw [words_divided hd, words_divided hd, hempty, List.append_nil]
  unfold wordsIn
  rw [String.toList_append, String.toList_append, List.append_assoc]
  calc words (s.toList ++ (between.toList ++ t.toList))
      = words s.toList ++ words (between.toList ++ t.toList) := by
        rw [hcs, List.cons_append, hbefore]
    _ = words s.toList ++ (words between.toList ++ words t.toList) := by
        rw [hds, List.append_assoc, List.singleton_append, hbehind]
    _ = words s.toList ++ words between.toList ++ words t.toList := (List.append_assoc ..).symm

theorem wordsIn_commaList {ss : List String} (h : ss.all isWord) : wordsIn (commaList ss) = ss := by
  unfold commaList
  induction ss with
  | nil => rfl
  | cons s ss ih =>
      rw [List.all_cons, Bool.and_eq_true] at h
      cases ss with
      | nil => rw [String.intercalate_singleton, wordsIn_of_isWord h.1]
      | cons t ss =>
          rw [String.intercalate_cons_cons, wordsIn_between (by decide), wordsIn_of_isWord h.1, ih h.2]
          rfl

theorem isLine_of_isWord {s : String} (h : isWord s) : isLine s := by
  unfold isWord at h
  rw [Bool.and_eq_true] at h
  unfold isLine
  rw [List.all_eq_true]
  intro c hc
  have hword := List.all_eq_true.1 h.2 c hc
  have hfeed : inWord '\n' = false := by decide
  have hreturn : inWord '\r' = false := by decide
  rw [Bool.and_eq_true, bne_iff_ne, bne_iff_ne]
  refine ⟨fun heq => ?_, fun heq => ?_⟩
  · rw [heq, hfeed] at hword
    cases hword
  · rw [heq, hreturn] at hword
    cases hword

theorem forall_isLine_of_all_isWord {ss : List String} (h : ss.all isWord) : ∀ s ∈ ss, isLine s :=
  fun s hs => isLine_of_isWord (List.all_eq_true.1 h s hs)

theorem isLine_commaList {ss : List String} (h : ∀ s ∈ ss, isLine s) : isLine (commaList ss) := by
  unfold commaList
  induction ss with
  | nil => rfl
  | cons s ss ih =>
      obtain ⟨hs, hss⟩ := List.forall_mem_cons.1 h
      cases ss with
      | nil =>
          rw [String.intercalate_singleton]
          exact hs
      | cons t ss =>
          rw [String.intercalate_cons_cons]
          exact isLine_append.2 ⟨isLine_append.2 ⟨hs, by decide⟩, ih hss⟩

/-! ## Statements -/

/-- The modules and symbols are words, and there are some symbols of each module. -/
def OfWords (i : Imports) : Prop :=
  ∀ e ∈ i.modules, e.2 ≠ [] ∧ isWord e.1 ∧ e.2.all isWord

/-- The symbols of a module, each with the module. -/
def ofModule (e : String × List String) : List Import :=
  e.2.map (e.1, ·)

/-- What the lines of a text import, if each of them is an import statement. -/
def readImports? (readImport? : String → Option (List Import)) (text : String) :
    Option (List (List Import)) :=
  (Text.lines text).mapM readImport?

/-- Each line is read for itself. -/
theorem readImports?_linesText {α : Type} {readImport? : String → Option (List Import)} {xs : List α}
    {line : α → String} {imported : α → List Import} (hline : ∀ x ∈ xs, isLine (line x))
    (hread : ∀ x ∈ xs, readImport? (line x) = some (imported x)) :
    readImports? readImport? (linesText (xs.map line)) = some (xs.map imported) := by
  have hlines : (xs.map line).all isLine := List.all_eq_true.2 (List.forall_mem_map.2 hline)
  rw [readImports?, lines_linesText hlines]
  clear hlines hline
  induction xs with
  | nil => rfl
  | cons x xs ih =>
      obtain ⟨hx, hxs⟩ := List.forall_mem_cons.1 hread
      rw [List.map_cons, List.mapM_cons, hx, ih hxs]
      rfl

namespace TypeScript

/-- What a statement imports: symbols in front of `from`, and the module behind it. -/
def readImport? (line : String) : Option (List Import) :=
  match wordsIn line with
  | "import" :: words =>
    match words.reverse with
    | module :: "from" :: symbols => some (ofModule (module, symbols.reverse))
    | _ => none
  | _ => none

theorem readImport?_importLine {module : String} {symbols : List String} (hne : symbols ≠ [])
    (hmodule : isWord module) (hsymbols : symbols.all isWord) :
    readImport? (importLine module symbols) = some (ofModule (module, symbols)) := by
  have hfixed : wordsIn "import" = ["import"] ∧ wordsIn " \x7b " = [] ∧ wordsIn " \x7d " = [] ∧
      wordsIn "from" = ["from"] ∧ wordsIn " '" = [] ∧ wordsIn "';" = [] ∧ wordsIn "" = [] := by
    decide
  have hwords : wordsIn (importLine module symbols) = "import" :: (symbols ++ ["from", module]) := by
    have hline : importLine module symbols = "import" ++ " \x7b " ++ (commaList symbols ++ " \x7d " ++
        ("from" ++ " '" ++ (module ++ "';" ++ ""))) := by
      rw [importLine, if_neg (by rwa [List.isEmpty_iff])]
      simp only [← String.toList_inj, String.toList_append, List.append_assoc]
      rfl
    rw [hline, wordsIn_between (by decide), wordsIn_between (by decide), wordsIn_between (by decide),
      wordsIn_between (by decide), wordsIn_commaList hsymbols, wordsIn_of_isWord hmodule]
    simp [hfixed]
  unfold readImport?
  rw [hwords]
  simp

theorem isLine_importLine {module : String} {symbols : List String} (hne : symbols ≠ [])
    (hmodule : isLine module) (hsymbols : ∀ s ∈ symbols, isLine s) :
    isLine (importLine module symbols) := by
  rw [importLine, if_neg (by rwa [List.isEmpty_iff])]
  simp only [isLine_append]
  exact ⟨⟨⟨⟨by decide, isLine_commaList hsymbols⟩, by decide⟩, hmodule⟩, by decide⟩

theorem readImports?_imports {i : Imports} (h : OfWords i) :
    readImports? readImport? (imports i) = some (i.modules.map ofModule) := by
  rw [imports_eq]
  refine readImports?_linesText (fun e he => ?_) fun e he =>
    readImport?_importLine (h e he).1 (h e he).2.1 (h e he).2.2
  exact isLine_importLine (h e he).1 (isLine_of_isWord (h e he).2.1)
    (forall_isLine_of_all_isWord (h e he).2.2)

end TypeScript

namespace Kotlin

/-- What a statement imports: the symbol stands behind the last point. -/
def readImport? (line : String) : Option (List Import) :=
  match wordsIn line with
  | ["import", name] =>
    (QualifiedName.splitLastPoint? name.toList).map fun (before, after) =>
      [(String.ofList before, String.ofList after)]
  | _ => none

theorem readImport?_importLine {module symbol : String} (hmodule : isWord module)
    (hsymbol : isWord symbol) (hpoint : '.' ∉ symbol.toList) :
    readImport? ("import " ++ module ++ "." ++ symbol) = some [(module, symbol)] := by
  have hname : isWord (module ++ "." ++ symbol) := by
    unfold isWord at hmodule hsymbol ⊢
    rw [Bool.and_eq_true] at hmodule hsymbol
    have hpoint : inWord '.' := by decide
    simp [String.toList_append, List.all_append, hmodule.2, hsymbol.2, hpoint]
  have hsplit : QualifiedName.splitLastPoint? (module ++ "." ++ symbol).toList =
      some (module.toList, symbol.toList) := by
    rw [String.toList_append, String.toList_append, List.append_assoc]
    exact QualifiedName.splitLastPoint?_append hpoint module.toList
  have hwords : wordsIn ("import " ++ module ++ "." ++ symbol) = ["import", module ++ "." ++ symbol] := by
    have hline : "import " ++ module ++ "." ++ symbol = "import" ++ " " ++ (module ++ "." ++ symbol) := by
      have hspace : "import " = "import" ++ " " := rfl
      simp only [hspace, String.append_assoc]
    have hfixed : wordsIn "import" = ["import"] ∧ wordsIn " " = [] := by decide
    rw [hline, wordsIn_between (by decide), wordsIn_of_isWord hname, hfixed.1, hfixed.2]
    rfl
  unfold readImport?
  rw [hwords]
  show (QualifiedName.splitLastPoint? (module ++ "." ++ symbol).toList).map _ = _
  rw [hsplit]
  simp

/-- Each symbol has a statement of its own. -/
theorem readImports?_imports {i : Imports} (h : OfWords i)
    (hpoint : ∀ q ∈ i.pairs, '.' ∉ q.2.toList) :
    readImports? readImport? (imports i) = some (i.pairs.map fun q => [q]) := by
  have htext : imports i = linesText (i.pairs.map fun q => "import " ++ q.1 ++ "." ++ q.2) := by
    have hlines : ∀ e ∈ i.modules, importLines e.1 e.2 =
        (ofModule e).map fun q => "import " ++ q.1 ++ "." ++ q.2 := by
      intro e he
      rw [importLines, if_neg (by rw [List.isEmpty_iff]; exact (h e he).1), ofModule, List.map_map]
      rfl
    rw [imports_eq, Imports.pairs, List.map_flatMap]
    exact congrArg linesText (List.flatMap_congr hlines)
  have hwords : ∀ q ∈ i.pairs, isWord q.1 ∧ isWord q.2 := by
    intro q hq
    obtain ⟨e, he, hq⟩ := List.mem_flatMap.1 hq
    obtain ⟨symbol, hsymbol, rfl⟩ := List.mem_map.1 hq
    exact ⟨(h e he).2.1, List.all_eq_true.1 (h e he).2.2 symbol hsymbol⟩
  rw [htext]
  refine readImports?_linesText (fun q hq => ?_) fun q hq =>
    readImport?_importLine (hwords q hq).1 (hwords q hq).2 (hpoint q hq)
  simp only [isLine_append]
  exact ⟨⟨⟨by decide, isLine_of_isWord (hwords q hq).1⟩, by decide⟩, isLine_of_isWord (hwords q hq).2⟩

end Kotlin

namespace Rust

/-- What a statement imports: the module is the first word behind `use`. -/
def readImport? (line : String) : Option (List Import) :=
  match wordsIn line with
  | "use" :: module :: symbols => some (ofModule (module, symbols))
  | _ => none

theorem readImport?_importLine {module : String} {symbols : List String} (hmodule : isWord module)
    (hsymbols : symbols.all isWord) :
    readImport? (importLine module symbols) = some (ofModule (module, symbols)) := by
  have hfixed : wordsIn "use" = ["use"] ∧ wordsIn " " = [] ∧ wordsIn "::" = [] ∧ wordsIn "::\x7b" = [] ∧
      wordsIn ";" = [] ∧ wordsIn "\x7d;" = [] ∧ wordsIn "" = [] := by
    decide
  have hspace : "use " = "use" ++ " " := rfl
  have hwords : wordsIn (importLine module symbols) = "use" :: module :: symbols := by
    unfold importLine
    split
    · have hline : "use " ++ module ++ ";" = "use" ++ " " ++ (module ++ ";" ++ "") := by
        simp only [hspace, String.append_assoc, String.append_empty]
      rw [hline, wordsIn_between (by decide), wordsIn_between (by decide), wordsIn_of_isWord hmodule]
      simp [hfixed]
    · rename_i symbol
      have hsymbol : isWord symbol := by simpa using hsymbols
      have hline : "use " ++ module ++ "::" ++ symbol ++ ";" =
          "use" ++ " " ++ (module ++ "::" ++ (symbol ++ ";" ++ "")) := by
        simp only [hspace, String.append_assoc, String.append_empty]
      rw [hline, wordsIn_between (by decide), wordsIn_between (by decide), wordsIn_between (by decide),
        wordsIn_of_isWord hmodule, wordsIn_of_isWord hsymbol]
      simp [hfixed]
    · have hline : "use " ++ module ++ "::\x7b" ++ commaList symbols ++ "\x7d;" =
          "use" ++ " " ++ (module ++ "::\x7b" ++ (commaList symbols ++ "\x7d;" ++ "")) := by
        simp only [hspace, String.append_assoc, String.append_empty]
      rw [hline, wordsIn_between (by decide), wordsIn_between (by decide), wordsIn_between (by decide),
        wordsIn_of_isWord hmodule, wordsIn_commaList hsymbols]
      simp [hfixed]
  unfold readImport?
  rw [hwords]
  rfl

theorem perm_sortedModules {i : Imports} (h : (i.modules.map Prod.fst).Nodup) :
    (sortedModules i).Perm i.modules := by
  have hfold : ∀ es acc : List (String × List String), ((acc ++ es).map Prod.fst).Nodup →
      (es.foldl (fun ms e => Data.insertEntry e.1 e.2 ms) acc).Perm (acc ++ es) := by
    intro es
    induction es with
    | nil => intro acc _; simp
    | cons e es ih =>
        intro acc hnodup
        have hnew : e.1 ∉ acc.map Prod.fst := by
          rw [List.map_append, List.map_cons, List.nodup_append] at hnodup
          exact fun hmem => hnodup.2.2 e.1 hmem e.1 (List.mem_cons_self ..) rfl
        have hinsert : (Data.insertEntry e.1 e.2 acc).Perm (e :: acc) := Data.perm_insertEntry e.2 hnew
        have hmove : (Data.insertEntry e.1 e.2 acc ++ es).Perm (acc ++ e :: es) :=
          (hinsert.append_right es).trans List.perm_middle.symm
        exact (ih _ ((hmove.map Prod.fst).nodup_iff.2 hnodup)).trans hmove
  exact hfold i.modules [] h

theorem isLine_importLine {module : String} {symbols : List String} (hmodule : isLine module)
    (hsymbols : ∀ s ∈ symbols, isLine s) : isLine (importLine module symbols) := by
  have hstart : isLine ("use " ++ module) := isLine_append.2 ⟨by decide, hmodule⟩
  unfold importLine
  split
  · exact isLine_append.2 ⟨hstart, by decide⟩
  · rename_i symbol
    have hsymbol : isLine symbol := hsymbols symbol (List.mem_singleton_self symbol)
    simp only [isLine_append] at hstart ⊢
    exact ⟨⟨⟨hstart, by decide⟩, hsymbol⟩, by decide⟩
  · simp only [isLine_append] at hstart ⊢
    exact ⟨⟨⟨hstart, by decide⟩, isLine_commaList hsymbols⟩, by decide⟩

theorem readImports?_imports {i : Imports} (h : OfWords i) :
    readImports? readImport? (imports i) = some ((sortedModules i).map ofModule) := by
  have hsorted : ∀ e ∈ sortedModules i, isWord e.1 ∧ e.2.all isWord := fun e he =>
    (h e (mem_of_mem_sortedModules he)).2
  rw [imports_eq]
  refine readImports?_linesText (fun e he => ?_) fun e he =>
    readImport?_importLine (hsorted e he).1 (hsorted e he).2
  exact isLine_importLine (isLine_of_isWord (hsorted e he).1)
    (forall_isLine_of_all_isWord (hsorted e he).2)

end Rust

end SchemaSnippets.Target

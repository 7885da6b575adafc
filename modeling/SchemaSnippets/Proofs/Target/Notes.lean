import SchemaSnippets.Proofs.Target.Lexis

/-!
# Notes in types

A type that could not be found out is written with a note behind it. Without comments, of the note nothing
is left but the blank in front of it.

* `Undelimited s` : neither end of a block stands in the text; `confined_of_undelimited` : then the text
  stays in its comment, whether blocks nest or not;
* `TypeUndelimited t` : a type that is named with identifiers, without such ends in its notes;
* `kept_of_inSyntax`, `kept_comment` : what is left of a type without a note, and behind one with a note.
-/

namespace SchemaSnippets.Code.Lexis
variable {L : Lexis} {s : String}

/-- Neither end of a block stands in the text. -/
structure Undelimited (s : String) : Prop where
  opening : ¬ ['/', '*'] <:+: s.toList
  closing : ¬ ['*', '/'] <:+: s.toList

theorem depthAfter_of_undelimited {nests : Bool} {depth : Nat} {cs : List Char}
    (hopening : ¬ ['/', '*'] <:+: cs) (hclosing : ¬ ['*', '/'] <:+: cs) :
    depthAfter nests depth cs = some depth := by
  have htail : ∀ {ds : List Char} {c : Char} {cs : List Char}, ¬ ds <:+: c :: cs → ¬ ds <:+: cs :=
    fun h hpart => h (hpart.trans (List.suffix_cons _ _).isInfix)
  induction depth, cs using depthAfter.induct nests with
  | case1 depth => rfl
  | case2 depth c => rfl
  | case3 d e cs hend =>
      obtain ⟨rfl, rfl⟩ := hend
      exact absurd (List.prefix_append ['*', '/'] cs).isInfix hclosing
  | case4 depth d e cs hend _ _ =>
      obtain ⟨rfl, rfl⟩ := hend
      exact absurd (List.prefix_append ['*', '/'] cs).isInfix hclosing
  | case5 depth d e cs _ hopen _ =>
      obtain ⟨-, rfl, rfl⟩ := hopen
      exact absurd (List.prefix_append ['/', '*'] cs).isInfix hopening
  | case6 depth d e cs hend hopen ih =>
      rw [depthAfter, if_neg hend, if_neg hopen]
      exact ih (htail hopening) (htail hclosing)

theorem confined_of_undelimited (h : Undelimited s) : L.Confined (.block [s]) := by
  show (depthAfter L.nests 0 s.toList).bind _ = _
  rw [depthAfter_of_undelimited h.opening h.closing]
  rfl

theorem scan_of_isPlain {cs : List Char} (h : cs.all L.isPlain) : L.scan .code cs = (.code, cs) := by
  induction cs with
  | nil => rfl
  | cons c cs ih =>
      rw [List.all_cons, Bool.and_eq_true] at h
      rw [scan_cons, step_code_of_isPlain h.1, ih h.2]
      rfl

/-- The syntax of a language is kept as it is. -/
theorem kept_of_inSyntax (hL : L.ReadsSyntax) (h : s.toList.all inSyntax) : L.kept s = s.toList := by
  have hplain : s.toList.all L.isPlain :=
    List.all_eq_true.2 fun c hc => hL.plain c (List.all_eq_true.1 h c hc)
  rw [kept, scan_of_isPlain hplain]

end SchemaSnippets.Code.Lexis

namespace SchemaSnippets.Target
open Code Model Schema

/-- A type is named with identifiers, and no ends of blocks stand in its notes. -/
structure TypeUndelimited (t : MemberType) : Prop where
  names : ∀ x ∈ t.names, isIdentifier x
  notes : ∀ note, some note ∈ t.notes → Lexis.Undelimited note

theorem TypeUndelimited.confined {t : MemberType} (h : TypeUndelimited t) (L : Lexis) :
    TypeConfined L t :=
  ⟨h.names, fun note hnote => Lexis.confined_of_undelimited (h.notes note hnote)⟩

/-- Behind a type with a note a blank is left. -/
theorem kept_comment {L : Lexis} (hL : L.Reads) {note : String} (h : L.Confined (.block [note])) :
    L.kept (" " ++ inlineComment note) = [' '] := by
  have hblank : L.kept " " = [' '] := Lexis.kept_of_inSyntax hL.symbols (by decide)
  have hclosed : L.Closed " " := Lexis.closed_of_inSyntax hL.symbols (by decide)
  have hcomment : L.kept (inlineComment note) = [] := congrArg Prod.snd (Lexis.skips_inlineBlock h)
  rw [kept_append hclosed, hblank, hcomment]
  rfl

end SchemaSnippets.Target

import SchemaSnippets.Proofs.Code.DocComments
import SchemaSnippets.Proofs.Json.Texts
import SchemaSnippets.Proofs.Snippet.ClosedReferences
import SchemaSnippets.Proofs.Snippet.MemberTypes
import SchemaSnippets.Proofs.Text.Case
import SchemaSnippets.Target.Basic

/-!
# Names, literals and types as code

How the languages tell comments and literals from code, and the pieces that models are made of: each of
them begins and ends in the code, whatever texts the schema has.

* `TypeScript.lexis`, `Kotlin.lexis`, `Rust.lexis` : the rules of the languages; `Lexis.Reads` : what
  they have in common;
* `TypeScript.closed_quote`, `Kotlin.closed_quote`, `Kotlin.closed_backticked`, `Lexis.closed_quoted` :
  literals and names in quotes;
* `TypeSyntax.render_of` : what is true of all types of a language; `closed_render` : types, their notes
  being confined to comments.
-/

namespace SchemaSnippets.Code.Lexis
open Target

/-- Lines and the characters of the syntax are code. -/
structure Reads (L : Lexis) : Prop where
  lines : L.ReadsLines
  symbols : L.ReadsSyntax

theorem toNat_lt_of_mem {c : Char} {marks : List Char} (h : marks.all fun c => c.toNat < 0x80)
    (hc : marks.contains c) : c.toNat < 0x80 :=
  of_decide_eq_true (List.all_eq_true.1 h c (List.contains_iff_mem.1 hc))

theorem toNat_lt_of_inSyntax {c : Char} (h : inSyntax c) : c.toNat < 0x80 := by
  rw [inSyntax, Bool.or_eq_true] at h
  exact h.elim Number.toNat_lt_of_inNumber (toNat_lt_of_mem (by decide))

theorem toNat_lt_of_inEnds {c : Char} (h : inEnds c) : c.toNat < 0x80 := by
  rw [inEnds, Bool.or_eq_true] at h
  exact h.elim Number.toNat_lt_of_inNumber (toNat_lt_of_mem (by decide))

/-- The syntax is in ASCII. -/
theorem plain_of_ascii {L : Lexis}
    (h : ∀ n < 0x80, inSyntax (Char.ofNat n) → L.isPlain (Char.ofNat n)) (c : Char) (hc : inSyntax c) :
    L.isPlain c :=
  Unicode.forall_ascii (P := fun c => inSyntax c → L.isPlain c) h (toNat_lt_of_inSyntax hc) hc

end SchemaSnippets.Code.Lexis

namespace SchemaSnippets.Target
open Code Json Model Number Schema

/-! ## The rules of the languages -/

/-- A template literal is read like a string, no substitution being written in a model. -/
def TypeScript.lexis : Lexis where
  nests := false
  lineEnds := ['\n', '\r', '\u2028', '\u2029']
  quotes := [('\'', true), ('"', true), ('\x60', true)]

def Kotlin.lexis : Lexis where
  nests := true
  lineEnds := ['\n', '\r']
  quotes := [('"', true), ('\'', true), ('\x60', false)]

/-- A single quote may begin a lifetime, too; neither is written in a model. -/
def Rust.lexis : Lexis where
  nests := true
  lineEnds := ['\n']
  quotes := [('"', true)]

theorem TypeScript.reads_lexis : TypeScript.lexis.Reads :=
  ⟨⟨by decide, by decide, by decide, by decide⟩, Lexis.plain_of_ascii (by decide), by decide⟩

theorem Kotlin.reads_lexis : Kotlin.lexis.Reads :=
  ⟨⟨by decide, by decide, by decide, by decide⟩, Lexis.plain_of_ascii (by decide), by decide⟩

theorem Rust.reads_lexis : Rust.lexis.Reads :=
  ⟨⟨by decide, by decide, by decide, by decide⟩, Lexis.plain_of_ascii (by decide), by decide⟩

/-! ## Literals and names in quotes -/

theorem TypeScript.closed_quote (s : String) : TypeScript.lexis.Closed (TypeScript.quote s) := by
  have hquote : TypeScript.lexis.step .code '\'' = (.literal '\'' true, ['\'']) := by decide
  refine Lexis.closed_literal hquote (Lexis.scan_literal_flatMap (fun c => ?_) _)
  unfold TypeScript.quoteChar
  split
  · exact Lexis.scan_literal_escaped (by decide) _ []
  split
  · exact Lexis.scan_literal_escaped (by decide) _ []
  · rename_i hslash hquote
    exact Lexis.scan_literal_cons hquote (fun h => hslash h.2) []

theorem Kotlin.closed_quote (s : String) : Kotlin.lexis.Closed (Kotlin.quote s) := by
  refine Lexis.closed_literal Kotlin.reads_lexis.symbols.quote
    (Lexis.scan_literal_flatMap (fun c => ?_) _)
  unfold Kotlin.quoteChar
  split
  · exact Lexis.scan_literal_escaped (by decide) _ []
  split
  · exact Lexis.scan_literal_escaped (by decide) _ []
  split
  · exact Lexis.scan_literal_escaped (by decide) _ []
  · rename_i hslash hquote _
    exact Lexis.scan_literal_cons hquote (fun h => hslash h.2) []

/-- There are no backticks in a name between backticks. -/
theorem Kotlin.closed_backticked (name : String) : Kotlin.lexis.Closed (Kotlin.backticked name) := by
  have hquote : Kotlin.lexis.step .code '\x60' = (.literal '\x60' false, ['\x60']) := by decide
  refine Lexis.closed_literal hquote (Lexis.scan_literal_all fun c hc => ⟨?_, ?_⟩)
  · simpa using (List.mem_filter.1 hc).2
  · exact fun h => absurd h.1 (by decide)

theorem scan_quoteChar (L : Lexis) (c : Char) :
    (L.scan (.literal '"' true) (Text.quoteChar c)).1 = .literal '"' true := by
  have hescaped : ∀ d, (L.scan (.literal '"' true) ['\\', d]).1 = .literal '"' true :=
    fun d => Lexis.scan_literal_escaped (by decide) d []
  unfold Text.quoteChar
  split
  · exact hescaped _
  split
  · exact hescaped _
  split
  · exact hescaped _
  split
  · exact hescaped _
  split
  · exact hescaped _
  split
  · exact hescaped _
  split
  · rename_i hquote hslash _ _ _ _ _
    exact Lexis.scan_literal_cons hquote (fun h => hslash h.2) []
  · rw [List.cons_append, List.cons_append, List.cons_append, List.cons_append,
      Lexis.scan_literal_escaped (by decide)]
    refine Lexis.scan_literal_all fun d hd => ?_
    have hne : d ≠ '"' ∧ d ≠ '\\' := by
      simp only [List.mem_cons, List.mem_append, List.not_mem_nil, or_false] at hd
      rcases hd with (rfl | hd) | rfl
      · decide
      · exact Lexis.ne_of_mem_toDigits hd
      · decide
    exact ⟨hne.1, fun h => hne.2 h.2⟩

/-- A text in double quotes. -/
theorem closed_quoted {L : Lexis} (hL : L.ReadsSyntax) (s : String) : L.Closed (Text.quoted s) :=
  Lexis.closed_literal hL.quote (Lexis.scan_literal_flatMap (scan_quoteChar L) _)

/-! ## Types -/

/-- What is true of the parts of a type, and kept by all wrappers around them, is true of the type. -/
theorem TypeSyntax.render_of {s : TypeSyntax} {P : String → Prop} {t : MemberType}
    (hprimitive : ∀ k name, s.primitive k = some name → P name) (huntyped : P s.untyped)
    (hunsupported : ∀ k, P (s.noted (unsupportedNote k)))
    (hwrap : ∀ u, P u → P (s.optional u) ∧ P (s.array u) ∧ P (s.stream u) ∧ P (s.recursive u))
    (hnames : ∀ x ∈ t.names, P x) (hnotes : ∀ note, some note ∈ t.notes → P (s.noted note)) :
    P (s.render t) := by
  induction t with
  | primitive k =>
      rw [render]
      split
      · rename_i name hname
        exact hprimitive k name hname
      · exact hunsupported k
  | optional t ih => exact (hwrap _ (ih hnames hnotes)).1
  | array t ih => exact (hwrap _ (ih hnames hnotes)).2.1
  | stream t ih => exact (hwrap _ (ih hnames hnotes)).2.2.1
  | recursive t ih => exact (hwrap _ (ih hnames hnotes)).2.2.2
  | named name => exact hnames name (List.mem_singleton_self name)
  | untyped note =>
      cases note with
      | none => exact huntyped
      | some note => exact hnotes note (List.mem_singleton_self _)

/-- A type is named with identifiers, and its notes are confined to their comments. -/
structure TypeConfined (L : Lexis) (t : MemberType) : Prop where
  names : ∀ x ∈ t.names, isIdentifier x
  notes : ∀ note, some note ∈ t.notes → L.Confined (.block [note])

theorem confined_unsupportedNote (L : Lexis) (k : Primitive) :
    L.Confined (.block [unsupportedNote k]) := by
  refine Lexis.confined_of_notMem ?_
  cases k <;> decide

theorem closed_inlineComment {L : Lexis} {note : String} (h : L.Confined (.block [note])) :
    L.Closed (inlineComment note) :=
  congrArg Prod.fst (Lexis.skips_inlineBlock h)

theorem noted_eq (s : TypeSyntax) (note : String) :
    s.noted note = s.untyped ++ (" " ++ inlineComment note) := by
  rw [TypeSyntax.noted, String.append_assoc]

theorem closed_noted {L : Lexis} {s : TypeSyntax} {note : String} (hs : L.Closed (s.untyped ++ " "))
    (h : L.Confined (.block [note])) : L.Closed (s.noted note) :=
  Lexis.closed_append hs (closed_inlineComment h)

theorem TypeScript.closed_render {t : MemberType} (h : TypeConfined TypeScript.lexis t) :
    TypeScript.lexis.Closed (TypeScript.types.render t) := by
  have hL := TypeScript.reads_lexis.symbols
  have hany : TypeScript.lexis.Closed (TypeScript.types.untyped ++ " ") := by decide
  refine TypeSyntax.render_of ?_ (by decide) (fun k => closed_noted hany (confined_unsupportedNote _ k))
    (fun u hu => ?_) (fun x hx => Lexis.closed_of_isIdentifier hL (h.names x hx))
    fun note hnote => closed_noted hany (h.notes note hnote)
  · intro k name hname
    cases k <;> cases hname <;> decide
  · refine ⟨Lexis.closed_append hu (by decide), ?_, ?_, hu⟩
    · show TypeScript.lexis.Closed (TypeScript.array u)
      unfold TypeScript.array
      split
      · exact Lexis.closed_append (Lexis.closed_append (by decide) hu) (by decide)
      · exact Lexis.closed_append hu (by decide)
    · exact Lexis.closed_append (Lexis.closed_append (by decide) hu) (by decide)

theorem Rust.closed_render {t : MemberType} (h : TypeConfined Rust.lexis t) :
    Rust.lexis.Closed (Rust.types.render t) := by
  have hL := Rust.reads_lexis.symbols
  have hany : Rust.lexis.Closed (Rust.types.untyped ++ " ") := by decide
  refine TypeSyntax.render_of ?_ (by decide) (fun k => closed_noted hany (confined_unsupportedNote _ k))
    (fun u hu => ?_) (fun x hx => Lexis.closed_of_isIdentifier hL (h.names x hx))
    fun note hnote => closed_noted hany (h.notes note hnote)
  · intro k name hname
    cases k <;> cases hname <;> decide
  · have hwrap : ∀ s, Rust.lexis.Closed s → Rust.lexis.Closed (s ++ u ++ ">") :=
      fun s hs => Lexis.closed_append (Lexis.closed_append hs hu) (by decide)
    exact ⟨hwrap _ (by decide), hwrap _ (by decide), hwrap _ (by decide), hwrap _ (by decide)⟩

/-! ### Nullable types of Kotlin -/

namespace Kotlin

/-- A type, with a comment behind its first part or without one. -/
inductive IsTypeText : String → Prop where
  | plain {s : String} (h : s.toList.all Lexis.inSyntax) : IsTypeText s
  | noted {s comment : String} (h : s.toList.all Lexis.inSyntax)
      (hcomment : lexis.Closed (" /* " ++ comment)) : IsTypeText (s ++ (" /* " ++ comment))

theorem IsTypeText.closed {s : String} (h : IsTypeText s) : lexis.Closed s := by
  cases h with
  | plain h => exact Lexis.closed_of_inSyntax reads_lexis.symbols h
  | noted h hcomment =>
      exact Lexis.closed_append (Lexis.closed_of_inSyntax reads_lexis.symbols h) hcomment

theorem splitComment?_eq_none {cs : List Char} (h : '/' ∉ cs) : splitComment? cs = none := by
  induction cs with
  | nil => rfl
  | cons c cs ih =>
      rw [splitComment?, ih fun hcs => h (List.mem_cons_of_mem _ hcs)]
      · rfl
      · rintro ds - rfl
        exact h (by simp)

/-- The comment is found where the type ends. -/
theorem splitComment?_append {cs ds : List Char} (h : '/' ∉ cs) :
    splitComment? (cs ++ ' ' :: '/' :: '*' :: ' ' :: ds) = some (cs, ds) := by
  induction cs with
  | nil => rfl
  | cons c cs ih =>
      rw [List.cons_append, splitComment?, ih fun hcs => h (List.mem_cons_of_mem _ hcs)]
      · rfl
      · rintro es - hcs
        cases cs with
        | nil => cases hcs
        | cons d cs => exact h (by simp [(List.cons.inj hcs).1])

/-- The characters of the syntax begin no comment. -/
theorem slash_notMem {s : String} (h : s.toList.all Lexis.inSyntax) : '/' ∉ s.toList :=
  fun hmem => absurd (List.all_eq_true.1 h _ hmem) (by decide)

theorem nullable_of_inSyntax {s : String} (h : s.toList.all Lexis.inSyntax) : nullable s = s ++ "?" := by
  rw [nullable, splitComment?_eq_none (slash_notMem h)]

theorem nullable_append_comment {s : String} (h : s.toList.all Lexis.inSyntax) (comment : String) :
    nullable (s ++ (" /* " ++ comment)) = s ++ "?" ++ (" /* " ++ comment) := by
  have hsplit : splitComment? (s ++ (" /* " ++ comment)).toList = some (s.toList, comment.toList) := by
    rw [String.toList_append, String.toList_append]
    exact splitComment?_append (slash_notMem h)
  rw [nullable, hsplit]
  simp [← String.toList_inj]

theorem IsTypeText.nullable {s : String} (h : IsTypeText s) : IsTypeText (nullable s) := by
  cases h with
  | plain h =>
      rw [nullable_of_inSyntax h]
      exact .plain (all_append h (by decide))
  | @noted s comment h hcomment =>
      rw [nullable_append_comment h]
      exact .noted (all_append h (by decide)) hcomment

theorem IsTypeText.wrap {s before after : String} (h : IsTypeText s)
    (hbefore : before.toList.all Lexis.inSyntax) (hafter : after.toList.all Lexis.inSyntax) :
    IsTypeText (before ++ s ++ after) := by
  cases h with
  | plain h => exact .plain (all_append (all_append hbefore h) hafter)
  | @noted s comment h hcomment =>
      have htext : before ++ (s ++ (" /* " ++ comment)) ++ after =
          before ++ s ++ (" /* " ++ (comment ++ after)) := by
        simp only [String.append_assoc]
      rw [htext]
      refine .noted (all_append hbefore h) ?_
      rw [← String.append_assoc]
      exact Lexis.closed_append hcomment (Lexis.closed_of_inSyntax reads_lexis.symbols hafter)

/-- The comment of a note begins as a mark looks for it. -/
theorem space_inlineComment (note : String) : " " ++ inlineComment note = " /* " ++ (note ++ " */") := by
  simp [inlineComment, ← String.toList_inj]

theorem isTypeText_noted {note : String} (h : lexis.Confined (.block [note])) :
    IsTypeText (types.noted note) := by
  have hcomment : lexis.Closed (" " ++ inlineComment note) :=
    Lexis.closed_append (by decide) (closed_inlineComment h)
  rw [noted_eq, space_inlineComment]
  exact .noted (by decide) (space_inlineComment note ▸ hcomment)

theorem closed_render {t : MemberType} (h : TypeConfined lexis t) : lexis.Closed (types.render t) := by
  refine IsTypeText.closed (TypeSyntax.render_of ?_ (.plain (by decide)) (fun k => ?_)
    (fun u hu => ?_) (fun x hx => ?_) fun note hnote => isTypeText_noted (h.notes note hnote))
  · intro k name hname
    cases k <;> cases hname <;> exact .plain (by decide)
  · exact isTypeText_noted (confined_unsupportedNote lexis k)
  · exact ⟨hu.nullable, hu.wrap (by decide) (by decide), hu.wrap (by decide) (by decide), hu⟩
  · exact .plain (Lexis.all_inSyntax_of_inIdentifier
      (all_inIdentifier_of_isIdentifier (h.names x hx)))

end Kotlin

end SchemaSnippets.Target

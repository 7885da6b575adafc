import SchemaSnippets.Proofs.Target.Documented
import SchemaSnippets.Proofs.Target.Literals
import SchemaSnippets.Proofs.Target.Rust.LegalNames

/-!
# What members are called

The declaration of a record has a line for each of its fields, and the line says what the member is called:
by an identifier, or by a name that is quoted or marked in the way of the language.

* `memberLines` : the lines of the members, in three languages; `holdsLines_record` : they stand in the text
  of the record;
* `denoted?` : the name that a line stands for, with quotes and escapes, backticks or the mark of raw
  identifiers taken away;
* `denoted?_fieldLine`, `denoted?_memberLine` : it is the name of the field in TypeScript, and that name
  without its backticks in Kotlin;
* `members_denoted` : so different fields have different members in TypeScript and in Rust;
  `backticks_lost` : in Kotlin they may not.
-/

namespace SchemaSnippets.Target
open Code Model

/-! ## Lines of members -/

/-- The lines stand in the text, in this order. -/
def HoldsLines (text : String) (lines : List String) : Prop :=
  ∃ ls, text = linesText ls ∧ lines.Sublist ls

theorem HoldsLines.tail {text line : String} {lines : List String}
    (h : HoldsLines text (line :: lines)) : HoldsLines text lines := by
  obtain ⟨ls, htext, hlines⟩ := h
  exact ⟨ls, htext, (List.sublist_cons_self line lines).trans hlines⟩

/-- A line for each item, below what documents it. -/
theorem sublist_flatMap_concat {α : Type} (before : α → List String) (line : α → String) (xs : List α) :
    (xs.map line).Sublist (xs.flatMap fun x => before x ++ [line x]) := by
  induction xs with
  | nil => exact List.Sublist.refl _
  | cons x xs ih =>
      rw [List.map_cons, List.flatMap_cons, ← List.singleton_append]
      exact (List.sublist_append_right _ _).append ih

/-- A header, documented lines, and a closing line. -/
theorem holdsLines_block {α : Type} (width : Nat) (docs : α → List String) (line : α → String)
    (before : List String) (header close : String) (xs : List α) :
    HoldsLines (linesText before ++ (header ++ "\n" ++
      String.join (xs.map fun x => docText width (docs x) ++ (blanks width ++ line x ++ "\n")) ++
        (close ++ "\n"))) (header :: xs.map fun x => blanks width ++ line x) := by
  let item (x : α) : List String :=
    (commentLines (docs x)).map (blanks width ++ ·) ++ [blanks width ++ line x]
  have hitems : String.join (xs.map fun x => docText width (docs x) ++ (blanks width ++ line x ++ "\n")) =
      linesText (xs.flatMap item) := by
    rw [List.flatMap_def, linesText_flatten, List.map_map]
    refine congrArg String.join (List.map_congr_left fun x _ => ?_)
    show _ = linesText (_ ++ [blanks width ++ line x])
    rw [linesText_append, linesText_singleton]
    rfl
  refine ⟨before ++ header :: xs.flatMap item ++ [close], ?_, ?_⟩
  · rw [hitems, linesText_append, linesText_append, linesText_cons, linesText_singleton]
    simp only [String.append_assoc]
  · have hlines := sublist_flatMap_concat (fun x => (commentLines (docs x)).map (blanks width ++ ·))
      (fun x => blanks width ++ line x) xs
    exact ((hlines.cons_cons header).trans (List.sublist_append_right before _)).trans
      (List.sublist_append_left _ _)

theorem holdsLines_singleton (before : List String) (line : String) :
    HoldsLines (linesText before ++ (line ++ "\n")) [line] := by
  refine ⟨before ++ [line], ?_, List.sublist_append_right _ _⟩
  rw [linesText_append, linesText_singleton]

/-- The lines of an item of Rust, of which the last one of each member is its own. -/
theorem Rust.sublist_bodyLines {α : Type} (header : String) (before : α → List String)
    (line : α → String) (xs : List α) :
    ((header ++ if xs.isEmpty then " \x7b\x7d" else " \x7b") :: xs.map fun x => blanks 4 ++ line x).Sublist
      (bodyLines header (xs.map fun x => before x ++ [line x])) := by
  rw [bodyLines, List.isEmpty_map]
  by_cases hempty : xs.isEmpty
  · rw [List.isEmpty_iff.1 hempty]
    exact List.Sublist.refl _
  · rw [if_neg hempty, if_neg hempty, ← List.flatMap_def]
    have hlines := (sublist_flatMap_concat before line xs).map (blanks 4 ++ ·)
    rw [List.map_map] at hlines
    exact (hlines.cons_cons _).trans (List.sublist_append_left _ _)

/-- The line of a member. -/
def Rust.memberLine (name : String) (type : MemberType) : String :=
  "pub " ++ name ++ ": " ++ types.render type ++ ","

/-- The lines of the members of a record. -/
def memberLines : Target → RecordDeclaration → List String
  | .typescript, s => s.fields.map TypeScript.fieldLine
  | .kotlin, s => s.fields.map Kotlin.fieldLine
  | .rust, s => (Rust.namedFields s).map fun (f, name) => Rust.memberLine name f.type
  | _, _ => []

/-- How far members are indented. -/
def memberWidth : Target → Nat
  | .typescript => 2
  | _ => 4

theorem TypeScript.holdsLines_record (s : RecordDeclaration) :
    HoldsLines (record s) (("export interface " ++ s.name ++
      if s.fields.isEmpty then " \x7b\x7d" else " \x7b") :: s.fields.map (blanks 2 ++ fieldLine ·)) := by
  have hfield : field = fun f => docText 2 f.docs ++ (blanks 2 ++ fieldLine f ++ "\n") := funext field_eq
  rw [record_eq, docText, hfield]
  split
  · rename_i hempty
    rw [List.isEmpty_iff.1 hempty]
    exact holdsLines_singleton _ _
  · exact holdsLines_block 2 (·.docs) fieldLine _ ("export interface " ++ s.name ++ " \x7b") "\x7d" s.fields

theorem Kotlin.holdsLines_record (s : RecordDeclaration) :
    HoldsLines (record s) (((if s.fields.isEmpty then "class " else "data class ") ++ s.name ++
      if s.fields.isEmpty then "" else "(") :: s.fields.map (blanks 4 ++ fieldLine ·)) := by
  have hfield : field = fun f => docText 4 f.docs ++ (blanks 4 ++ fieldLine f ++ "\n") := funext field_eq
  rw [record_eq, docText, hfield]
  by_cases hempty : s.fields.isEmpty
  · rw [if_pos hempty, if_pos hempty, if_pos hempty, List.isEmpty_iff.1 hempty, String.append_empty]
    exact holdsLines_singleton _ _
  · rw [if_neg hempty, if_neg hempty, if_neg hempty]
    exact holdsLines_block 4 (·.docs) fieldLine _ ("data class " ++ s.name ++ "(") ")" s.fields

theorem Rust.isEmpty_namedFields (s : RecordDeclaration) :
    (namedFields s).isEmpty = s.fields.isEmpty :=
  isEmpty_zip_of_length_eq (length_fieldNames s).symm

theorem Rust.holdsLines_record (s : RecordDeclaration) :
    HoldsLines (record s) (("pub struct " ++ s.name ++
      if s.fields.isEmpty then " \x7b\x7d" else " \x7b") ::
        (namedFields s).map fun m => blanks 4 ++ memberLine m.2 m.1.type) := by
  let item (m : RecordMember × String) : FieldItem := fieldItem (bindsByCamelCase (namedFields s)) m.1 m.2
  have hmembers : (structItem s).members.map (·.lines) = (namedFields s).map fun m => (item m).lines := by
    rw [structItem, List.map_map]
    rfl
  have hlines := sublist_bodyLines ("pub struct " ++ s.name)
    (fun m => docLines m.1.docs ++ renameLines (item m).rename)
    (fun m : RecordMember × String => memberLine m.2 m.1.type) (namedFields s)
  rw [isEmpty_namedFields] at hlines
  refine ⟨_, record_eq_text s, List.Sublist.trans ?_ (List.sublist_append_right _ _)⟩
  rw [hmembers]
  exact hlines

theorem holdsLines_record {t : Target} (ht : t ∈ [.typescript, .kotlin, .rust])
    (s : RecordDeclaration) :
    HoldsLines (t.profile.declarations.record s) ((memberLines t s).map (blanks (memberWidth t) ++ ·)) := by
  simp only [List.mem_cons, List.not_mem_nil, or_false] at ht
  rcases ht with rfl | rfl | rfl
  · rw [memberLines, List.map_map]
    exact (TypeScript.holdsLines_record s).tail
  · rw [memberLines, List.map_map]
    exact (Kotlin.holdsLines_record s).tail
  · rw [memberLines, List.map_map]
    exact (Rust.holdsLines_record s).tail

theorem length_memberLines {t : Target} (ht : t ∈ [.typescript, .kotlin, .rust])
    (s : RecordDeclaration) : (memberLines t s).length = s.fields.length := by
  simp only [List.mem_cons, List.not_mem_nil, or_false] at ht
  rcases ht with rfl | rfl | rfl
  · exact List.length_map _
  · exact List.length_map _
  · rw [memberLines, List.length_map, Rust.namedFields, List.length_zip, Rust.length_fieldNames,
      Nat.min_self]

/-! ## Names in lines -/

/-- An identifier at the front of a text is its longest run of such characters. -/
theorem takeWhile_identifier {name rest : List Char} (h : name.all inIdentifier)
    (hrest : rest.head?.all (!inIdentifier ·)) : (name ++ rest).takeWhile inIdentifier = name := by
  rw [List.takeWhile_append_of_pos (List.all_eq_true.1 h)]
  cases rest with
  | nil => rw [List.takeWhile_nil, List.append_nil]
  | cons c cs =>
      have hc : ¬ inIdentifier c := by simpa using hrest
      rw [List.takeWhile_cons_of_neg hc, List.append_nil]

theorem drop_toList (s t : String) : (s ++ t).toList.drop s.length = t.toList := by
  rw [String.toList_append, ← String.length_toList, List.drop_left]

/-- The name of a property is written as a string, here with any characters between the quotes. -/
def TypeScript.nameSyntax : EscapedSyntax :=
  { stringSyntax false with lineEnds := [], not_escapable := rfl }

/-- What a property is called: a text in quotes, or an identifier. -/
def TypeScript.denoted? (line : String) : Option String :=
  if line.toList.head? = some '\'' then
    (nameSyntax.read? line.toList).map fun (content, _) => String.ofList content
  else some (String.ofList (line.toList.takeWhile inIdentifier))

/-- What a property is called: what stands between backticks, or an identifier. -/
def Kotlin.denoted? (line : String) : Option String :=
  let cs := line.toList.drop "val ".length
  if cs.head? = some '\x60' then some (String.ofList (cs.tail.takeWhile (· != '\x60')))
  else some (String.ofList (cs.takeWhile inIdentifier))

/-- What a member is called: the identifier behind the mark of a raw one, if there is one. -/
def Rust.denoted? (line : String) : Option String :=
  let name := withoutMark (String.ofList (line.toList.drop "pub ".length))
  some (String.ofList (name.toList.takeWhile inIdentifier))

/-- The name that the line of a member stands for. -/
def denoted? : Target → String → Option String
  | .typescript => TypeScript.denoted?
  | .kotlin => Kotlin.denoted?
  | .rust => Rust.denoted?
  | _ => fun _ => none

/-- A name without its backticks. -/
def Kotlin.withoutBackticks (name : String) : String :=
  String.ofList (name.toList.filter (· != '\x60'))

theorem TypeScript.spells_nameSyntax (c : Char) : nameSyntax.Spells c (quoteChar c) := by
  have h := spells_quoteChar false c
  generalize quoteChar c = piece at h ⊢
  cases h with
  | escaped h => exact .escaped h
  | plain hslash hmark htemplates => exact .plain hslash hmark htemplates

/-- Identifiers and texts in quotes are read as the names that they are made from. -/
theorem TypeScript.denoted?_fieldLine (f : RecordMember) : denoted? (fieldLine f) = some f.name := by
  let mark := (Neutral.splitOptional f.type).1
  let rest := mark ++ ": " ++ types.render (Neutral.splitOptional f.type).2 ++ ";"
  have hline : (fieldLine f).toList = (naming.memberName f.name).toList ++ rest.toList := by
    rw [← String.toList_append]
    simp only [fieldLine, rest, mark, String.append_assoc]
  have hrest : rest.toList.head?.all (!inIdentifier ·) := by
    have hmark : mark = "" ∨ mark = "?" := by
      cases hoptional : f.type <;> simp [mark, hoptional, Neutral.splitOptional]
    rcases hmark with h | h <;> simp only [rest, h, String.toList_append] <;> rfl
  unfold denoted?
  by_cases hid : isIdentifier f.name
  · have hname : naming.memberName f.name = f.name := by
      show (if (false && _) || !isIdentifier f.name then _ else f.name) = _
      rw [hid]
      rfl
    have hchars := all_inIdentifier_of_isIdentifier hid
    have hfirst : (fieldLine f).toList.head? ≠ some '\'' := by
      obtain ⟨c, cs, hcs⟩ := List.exists_cons_of_ne_nil (toList_ne_nil_of_isIdentifier hid)
      rw [hcs, List.all_cons, Bool.and_eq_true] at hchars
      rw [hline, hname, hcs, List.cons_append, List.head?_cons]
      intro hquote
      rw [Option.some.inj hquote] at hchars
      exact absurd hchars.1 (by decide)
    rw [if_neg hfirst, hline, hname, takeWhile_identifier hchars hrest, String.ofList_toList]
  · have hname : naming.memberName f.name = quote f.name := by
      show (if (false && _) || !isIdentifier f.name then quote f.name else _) = _
      rw [Bool.eq_false_iff.2 hid]
      rfl
    have hread := EscapedSyntax.read?_between spells_nameSyntax f.name rest.toList
    have hends : f.name.toList.any nameSyntax.lineEnds.contains = false :=
      List.any_eq_false.2 fun c _ => by simp [nameSyntax]
    have hfirst : (fieldLine f).toList.head? = some '\'' := by
      rw [hline, hname, quote, String.toList_ofList]
      rfl
    rw [hends, if_neg Bool.false_ne_true] at hread
    rw [if_pos hfirst, hline, hname]
    exact (congrArg _ hread).trans (by simp)

/-- A name between backticks has lost its own. -/
theorem Kotlin.denoted?_fieldLine (f : RecordMember) :
    denoted? (fieldLine f) = some (withoutBackticks f.name) := by
  let rest := ": " ++ types.render f.type ++ ","
  have hline : (fieldLine f).toList.drop "val ".length =
      (naming.memberName f.name).toList ++ rest.toList := by
    have hwhole : fieldLine f = "val " ++ (naming.memberName f.name ++ rest) := by
      simp only [fieldLine, rest, String.append_assoc]
    rw [hwhole, drop_toList, String.toList_append]
  unfold denoted?
  dsimp only
  rw [hline, memberName_eq]
  split
  · rename_i hname
    have hchars := all_inIdentifier_of_isIdentifier hname.1
    have hplain : ∀ c ∈ f.name.toList, c ≠ '\x60' := by
      rintro c hc rfl
      exact absurd (List.all_eq_true.1 hchars _ hc) (by decide)
    have hfirst : (f.name.toList ++ rest.toList).head? ≠ some '\x60' := by
      obtain ⟨c, cs, hcs⟩ := List.exists_cons_of_ne_nil (toList_ne_nil_of_isIdentifier hname.1)
      rw [hcs, List.cons_append, List.head?_cons]
      exact fun hquote => hplain c (by simp [hcs]) (Option.some.inj hquote)
    have htaken : (f.name.toList ++ rest.toList).takeWhile inIdentifier = f.name.toList :=
      takeWhile_identifier hchars (by simp only [rest, String.toList_append]; rfl)
    have hkept : f.name.toList.filter (· != '\x60') = f.name.toList :=
      List.filter_eq_self.2 fun c hc => bne_iff_ne.2 (hplain c hc)
    rw [if_neg hfirst, htaken, withoutBackticks, hkept]
  · have hticked : (backticked f.name).toList ++ rest.toList =
        '\x60' :: ((withoutBackticks f.name).toList ++ '\x60' :: rest.toList) := by
      rw [backticked, withoutBackticks, String.toList_ofList, String.toList_ofList]
      simp
    have hinside : ∀ c ∈ (withoutBackticks f.name).toList, (c != '\x60') = true := by
      rw [withoutBackticks, String.toList_ofList]
      exact fun c hc => (List.mem_filter.1 hc).2
    rw [hticked, List.head?_cons, if_pos rfl, List.tail_cons,
      List.takeWhile_append_of_pos hinside, List.takeWhile_cons_of_neg (by decide), List.append_nil,
      String.ofList_toList]

/-- What follows an identifier does not give it a mark. -/
theorem Rust.withoutMark_append {name rest : String} (h : isIdentifier name)
    (hrest : rest.toList.head? ≠ some '#') : withoutMark (name ++ rest) = name ++ rest := by
  have hchars := all_inIdentifier_of_isIdentifier h
  obtain ⟨c, cs, hname⟩ := List.exists_cons_of_ne_nil (toList_ne_nil_of_isIdentifier h)
  unfold withoutMark
  split
  · rename_i ds hmarked
    rw [String.toList_append, hname, List.cons_append] at hmarked
    have hsecond : (cs ++ rest.toList).head? = some '#' := by rw [(List.cons.inj hmarked).2]; rfl
    cases cs with
    | nil => exact absurd hsecond hrest
    | cons d cs =>
        rw [hname, List.all_cons, List.all_cons, Option.some.inj hsecond] at hchars
        exact absurd hchars (by simp [show inIdentifier '#' = false by decide])
  · rfl

theorem Rust.denoted?_memberLine {name : String} (h : IsLegal name) (type : MemberType) :
    denoted? (memberLine name type) = some (withoutMark name) := by
  let rest := ": " ++ types.render type ++ ","
  have hline : String.ofList ((memberLine name type).toList.drop "pub ".length) = name ++ rest := by
    have hwhole : memberLine name type = "pub " ++ (name ++ rest) := by
      simp only [memberLine, rest, String.append_assoc]
    rw [hwhole, drop_toList, String.ofList_toList]
  have hcolon : rest.toList.head? = some ':' := by
    simp only [rest, String.toList_append]
    rfl
  have hrest : rest.toList.head?.all (!inIdentifier ·) := by
    rw [hcolon]
    rfl
  have hmark : withoutMark (name ++ rest) = withoutMark name ++ rest := by
    cases h with
    | raw _ _ _ => rw [String.append_assoc, withoutMark_mark, withoutMark_mark]
    | plain hid _ =>
        rw [withoutMark_of_plain (all_inIdentifier_of_isIdentifier hid), withoutMark_append hid]
        rw [hcolon]
        decide
  unfold denoted?
  dsimp only
  rw [hline, hmark, String.toList_append,
    takeWhile_identifier (all_inIdentifier_of_isIdentifier h.isIdentifier_withoutMark) hrest,
    String.ofList_toList]

/-! ## Members of a record -/

/-- What the members of a record are called: in TypeScript the names of its fields, in Kotlin these without
backticks, and in Rust different names. So different fields have different members in TypeScript and in
Rust, and in Kotlin exactly if they still differ without backticks. -/
theorem members_denoted (s : RecordDeclaration) :
    (∀ t ∈ [.typescript, .kotlin, .rust],
      HoldsLines (t.profile.declarations.record s)
        ((memberLines t s).map (blanks (memberWidth t) ++ ·)) ∧
      (memberLines t s).length = s.fields.length) ∧
    (memberLines .typescript s).map (denoted? .typescript) = s.fields.map (some ·.name) ∧
    (memberLines .kotlin s).map (denoted? .kotlin) =
      s.fields.map (fun f => some (Kotlin.withoutBackticks f.name)) ∧
    (((memberLines .typescript s).map (denoted? .typescript)).Nodup ↔ (s.fields.map (·.name)).Nodup) ∧
    (((memberLines .kotlin s).map (denoted? .kotlin)).Nodup ↔
      (s.fields.map fun f => Kotlin.withoutBackticks f.name).Nodup) ∧
    ((memberLines .rust s).map (denoted? .rust)).Nodup := by
  have htypescript : (memberLines .typescript s).map (denoted? .typescript) = s.fields.map (some ·.name) := by
    rw [memberLines, List.map_map]
    exact List.map_congr_left fun f _ => TypeScript.denoted?_fieldLine f
  have hkotlin : (memberLines .kotlin s).map (denoted? .kotlin) =
      s.fields.map (fun f => some (Kotlin.withoutBackticks f.name)) := by
    rw [memberLines, List.map_map]
    exact List.map_congr_left fun f _ => Kotlin.denoted?_fieldLine f
  have hrust : (memberLines .rust s).map (denoted? .rust) =
      ((Rust.fieldNames s).map Rust.withoutMark).map some := by
    rw [memberLines, ← Rust.map_snd_namedFields, List.map_map, List.map_map, List.map_map]
    refine List.map_congr_left fun m hm => ?_
    have hlegal : Rust.IsLegal m.2 := Rust.isLegal_of_mem_fieldNames m.2 (List.of_mem_zip hm).2
    exact Rust.denoted?_memberLine hlegal m.1.type
  have hsome : ∀ names : List String, (names.map some).Nodup ↔ names.Nodup :=
    fun names => List.nodup_map_iff fun _ _ => Option.some.inj
  refine ⟨fun t ht => ⟨holdsLines_record ht s, length_memberLines ht s⟩, htypescript, hkotlin, ?_, ?_, ?_⟩
  · rw [htypescript, ← hsome, List.map_map]
    rfl
  · rw [hkotlin, ← hsome, List.map_map]
    rfl
  · rw [hrust, hsome]
    exact Rust.nodup_fieldNames s

/-- A film with two titles, whose names differ in a backtick. -/
def tickedFilm : RecordDeclaration :=
  ⟨"Film", [], [⟨"or\x60iginal", .primitive .string, []⟩, ⟨"original", .primitive .string, []⟩]⟩

/-- In Kotlin both titles have the same name. -/
theorem backticks_lost :
    (tickedFilm.fields.map (·.name)).Nodup ∧
    Kotlin.record tickedFilm =
      "data class Film(\n    val \x60original\x60: String,\n    val original: String,\n)\n" ∧
    (memberLines .kotlin tickedFilm).map (denoted? .kotlin) = [some "original", some "original"] := by
  decide +kernel

end SchemaSnippets.Target

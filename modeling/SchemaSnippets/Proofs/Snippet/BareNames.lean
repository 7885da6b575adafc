import SchemaSnippets.Proofs.Snippet.OwnNames
import SchemaSnippets.Proofs.Target.BlankNames
import SchemaSnippets.Proofs.Target.MemberLines

/-!
# Names without quotes

A declaration of Rust or Kotlin names itself in its header, and each of its members in a line. What stands
there without quotes is an identifier that the language accepts, except that it may be one that is kept for
what has no name.

* `headerPlaces`, `memberPlaces` : where an entry of a model holds names; `holdsLines_places` : they stand in
  its text;
* `bareNames` : the names without quotes; `accepts_of_mem_bareNames` : they are legal;
* `exists_isBlank_declaredNames_iff`, `exists_isBlank_memberPlaces_iff` : the names that leave no other
  identifier;
* `names_accepted` : all names of a model; `film_without_names` : a film whose names are blank.
-/

namespace SchemaSnippets.Target
open Code Model Text

/-! ## Lines of enumerations -/

theorem Kotlin.holdsLines_enumeration (s : EnumDeclaration) :
    HoldsLines (enumeration s) (("enum class " ++ s.name ++
      if s.members.isEmpty then "" else (carrier s.members).property ++ " \x7b") ::
        s.members.map fun v =>
          blanks 4 ++ (naming.memberName v.name ++ argument (carrier s.members) v ++ ",")) := by
  let line (v : EnumMember) : String := naming.memberName v.name ++ argument (carrier s.members) v ++ ","
  have hconstant : constant (carrier s.members) = fun v => docText 4 v.docs ++ (blanks 4 ++ line v ++ "\n") :=
    funext (constant_eq _)
  rw [enumeration_eq, docText, hconstant]
  by_cases hempty : s.members.isEmpty
  · rw [if_pos hempty, if_pos hempty, List.isEmpty_iff.1 hempty, String.append_empty]
    exact holdsLines_singleton _ _
  · have hblock := holdsLines_block 4 (·.docs) line ((commentLines s.docs).map (blanks 0 ++ ·))
      ("enum class " ++ s.name ++ (carrier s.members).property ++ " \x7b") "\x7d" s.members
    rw [if_neg hempty, if_neg hempty]
    show HoldsLines _ (_ :: s.members.map fun v => blanks 4 ++ line v)
    simp only [String.append_assoc] at hblock ⊢
    exact hblock

theorem Rust.holdsLines_enumeration (s : EnumDeclaration) :
    HoldsLines (enumeration s) (("pub enum " ++ s.name ++
      if s.members.isEmpty then " \x7b\x7d" else " \x7b") ::
        (namedConstants s).map fun m =>
          blanks 4 ++ (m.2 ++ discriminantText m.1.value.int64? ++ ",")) := by
  have hmembers : (enumItem s).members.map (·.lines) =
      (namedConstants s).map fun m => (constantItem m.1 m.2).lines := by
    rw [enumItem, List.map_map]
    rfl
  have hlines := sublist_bodyLines ("pub enum " ++ s.name)
    (fun m => docLines m.1.docs ++ renameLines (constantItem m.1 m.2).rename)
    (fun m : EnumMember × String => m.2 ++ discriminantText m.1.value.int64? ++ ",") (namedConstants s)
  have hempty : (namedConstants s).isEmpty = s.members.isEmpty :=
    isEmpty_zip_of_length_eq (length_constantNames s).symm
  rw [hempty] at hlines
  refine ⟨_, enumeration_eq_text s, List.Sublist.trans ?_ (List.sublist_append_right _ _)⟩
  rw [hmembers]
  exact hlines

/-! ## Names that a language accepts -/

/-- An identifier that is not reserved, or in Rust a reserved word with the mark of a raw identifier. -/
def Accepts : Target → String → Prop
  | .rust, name => Rust.IsLegal name
  | t, name => isIdentifier name ∧ name ∉ t.profile.naming.reserved

/-- A name between backticks. -/
def isQuoted (name : String) : Bool :=
  name.toList.head? == some '\x60'

/-- Whether a language makes a blank name of this one for a member. -/
def leavesBlankMember : Target → String → Bool
  | .rust, name => name.toList.all isSeparator
  | .kotlin, name => isBlank .kotlin name
  | _, _ => false

end SchemaSnippets.Target

namespace SchemaSnippets.Snippet
open Code Model Request Schema Target

/-! ## Places of names -/

/-- A name in a line, with what stands before and after it. -/
structure NamePlace where
  before : String
  name : String
  after : String

def NamePlace.line (p : NamePlace) : String :=
  p.before ++ p.name ++ p.after

/-- Where an entry names its declaration. -/
def headerPlaces : Target → ModelEntry → List NamePlace
  | .rust, .record s => [⟨"pub struct ", s.name, if s.fields.isEmpty then " \x7b\x7d" else " \x7b"⟩]
  | .rust, .enumeration s => [⟨"pub enum ", s.name, if s.members.isEmpty then " \x7b\x7d" else " \x7b"⟩]
  | .kotlin, .record s =>
      [⟨if s.fields.isEmpty then "class " else "data class ", s.name,
        if s.fields.isEmpty then "" else "("⟩]
  | .kotlin, .enumeration s =>
      [⟨"enum class ", s.name,
        if s.members.isEmpty then "" else (Kotlin.carrier s.members).property ++ " \x7b"⟩]
  | _, _ => []

/-- Where an entry names the members of its declaration. -/
def memberPlaces : Target → ModelEntry → List NamePlace
  | .rust, .record s => (Rust.namedFields s).map fun m =>
      ⟨blanks 4 ++ "pub ", m.2, ": " ++ Rust.types.render m.1.type ++ ","⟩
  | .rust, .enumeration s => (Rust.namedConstants s).map fun m =>
      ⟨blanks 4, m.2, Rust.discriminantText m.1.value.int64? ++ ","⟩
  | .kotlin, .record s => s.fields.map fun f =>
      ⟨blanks 4 ++ "val ", Kotlin.naming.memberName f.name, ": " ++ Kotlin.types.render f.type ++ ","⟩
  | .kotlin, .enumeration s => s.members.map fun v =>
      ⟨blanks 4, Kotlin.naming.memberName v.name, Kotlin.argument (Kotlin.carrier s.members) v ++ ","⟩
  | _, _ => []

variable {t : Target} {e : ModelEntry}

theorem holdsLines_missing (t : Target) (name : String) :
    HoldsLines (entryText t.profile (.missing name)) [] :=
  ⟨[lineComment s!"unknown type '{name}': declaration skipped"], (linesText_singleton _).symm,
    List.nil_sublist _⟩

theorem map_line_cons {α : Type} (header : NamePlace) (place : α → NamePlace) (xs : List α) :
    ([header] ++ xs.map place).map (·.line) = header.line :: xs.map fun x => (place x).line := by
  rw [List.singleton_append, List.map_cons, List.map_map]
  rfl

/-- The names stand in the text of the entry, each in a line of its own. -/
theorem holdsLines_places (ht : t = .rust ∨ t = .kotlin) (e : ModelEntry) :
    HoldsLines (entryText t.profile e) ((headerPlaces t e ++ memberPlaces t e).map (·.line)) := by
  rcases ht with rfl | rfl
  · cases e with
    | record s =>
        have h := Rust.holdsLines_record s
        rw [headerPlaces, memberPlaces, map_line_cons]
        simp only [NamePlace.line, Rust.memberLine, String.append_assoc] at h ⊢
        exact h
    | enumeration s =>
        have h := Rust.holdsLines_enumeration s
        rw [headerPlaces, memberPlaces, map_line_cons]
        simp only [NamePlace.line, String.append_assoc] at h ⊢
        exact h
    | missing name => exact holdsLines_missing _ name
  · cases e with
    | record s =>
        have h := Kotlin.holdsLines_record s
        rw [headerPlaces, memberPlaces, map_line_cons]
        simp only [NamePlace.line, Kotlin.fieldLine, String.append_assoc] at h ⊢
        exact h
    | enumeration s =>
        have h := Kotlin.holdsLines_enumeration s
        rw [headerPlaces, memberPlaces, map_line_cons]
        simp only [NamePlace.line, String.append_assoc] at h ⊢
        exact h
    | missing name => exact holdsLines_missing _ name

/-- What stands behind a name does not belong to it. -/
theorem head?_after (ht : t = .rust ∨ t = .kotlin) :
    ∀ p ∈ headerPlaces t e ++ memberPlaces t e, p.after.toList.head?.all (!inIdentifier ·) := by
  intro p hp
  rcases ht with rfl | rfl <;> cases e <;>
    simp only [headerPlaces, memberPlaces, List.cons_append, List.nil_append, List.mem_cons,
      List.mem_map, List.not_mem_nil] at hp
  case inl.record s =>
    rcases hp with rfl | ⟨m, -, rfl⟩
    · dsimp only
      split <;> decide
    · simp only [String.toList_append]
      rfl
  case inl.enumeration s =>
    rcases hp with rfl | ⟨m, -, rfl⟩
    · dsimp only
      split <;> decide
    · dsimp only
      cases m.1.value.int64? <;> simp only [Rust.discriminantText, String.toList_append] <;> rfl
  case inr.record s =>
    rcases hp with rfl | ⟨f, -, rfl⟩
    · dsimp only
      split <;> decide
    · simp only [String.toList_append]
      rfl
  case inr.enumeration s =>
    rcases hp with rfl | ⟨v, -, rfl⟩
    · dsimp only
      split
      · decide
      · cases Kotlin.carrier s.members <;> decide
    · dsimp only
      cases Kotlin.carrier s.members <;> simp only [Kotlin.argument, String.toList_append] <;> rfl

/-! ## Names without quotes -/

/-- The names that stand in these places without quotes. -/
def bareNames (places : List NamePlace) : List String :=
  (places.map (·.name)).filter (!isQuoted ·)

/-- The names that the members of an entry are made from. -/
def memberSources : ModelEntry → List String
  | .record s => s.fields.map (·.name)
  | .enumeration s => s.members.map (·.name)
  | .missing _ => []

theorem declared?_of_mem_headerPlaces {p : NamePlace} (hp : p ∈ headerPlaces t e) :
    e.declared? = some p.name := by
  unfold headerPlaces at hp
  split at hp
  case h_5 => cases hp
  all_goals
    rw [List.mem_singleton.1 hp]
    rfl

/-- The names of the members of an entry, with quotes or without. -/
def memberNames : Target → ModelEntry → List String
  | .rust, .record s => Rust.fieldNames s
  | .rust, .enumeration s => Rust.constantNames s
  | .kotlin, e => (memberSources e).map Kotlin.naming.memberName
  | _, _ => []

theorem map_name_memberPlaces (ht : t = .rust ∨ t = .kotlin) (e : ModelEntry) :
    (memberPlaces t e).map (·.name) = memberNames t e := by
  rcases ht with rfl | rfl
  · cases e with
    | record s =>
        rw [memberPlaces, List.map_map, memberNames, ← Rust.map_snd_namedFields]
        rfl
    | enumeration s =>
        rw [memberPlaces, List.map_map, memberNames, ← Rust.map_snd_namedConstants]
        rfl
    | missing name => rfl
  · cases e with
    | record s =>
        rw [memberPlaces, List.map_map, memberNames, memberSources, List.map_map]
        rfl
    | enumeration s =>
        rw [memberPlaces, List.map_map, memberNames, memberSources, List.map_map]
        rfl
    | missing name => rfl

theorem isQuoted_backticked (name : String) : isQuoted (Kotlin.backticked name) := by
  rw [isQuoted, Kotlin.backticked, String.toList_ofList]
  rfl

theorem isQuoted_of_isIdentifier {name : String} (h : isIdentifier name) : isQuoted name = false := by
  rw [← Bool.not_eq_true, isQuoted, beq_iff_eq]
  intro hfirst
  have hin := List.all_eq_true.1 (all_inIdentifier_of_isIdentifier h) '\x60' (List.mem_of_mem_head? hfirst)
  exact absurd hin (by decide)

/-- The name of a member is legal if it has no quotes. -/
theorem accepts_of_mem_memberNames {x : String} (hx : x ∈ memberNames t e) (hbare : isQuoted x = false) :
    Accepts t x := by
  unfold memberNames at hx
  split at hx
  · exact Rust.isLegal_of_mem_fieldNames x hx
  · exact Rust.isLegal_of_mem_constantNames x hx
  · obtain ⟨name, -, rfl⟩ := List.mem_map.1 hx
    rw [Kotlin.memberName_eq] at hbare ⊢
    split
    · rename_i h
      refine ⟨h.1, fun hreserved => ?_⟩
      have hfree := h.2
      rw [NameRules.isReserved, ← Bool.not_eq_true, List.contains_iff_mem] at hfree
      exact hfree hreserved
    · rename_i h
      rw [if_neg h, isQuoted_backticked] at hbare
      cases hbare
  · cases hx

/-- A member has a blank name if one of the names leaves nothing else. -/
theorem exists_isBlank_memberNames_iff (ht : t = .rust ∨ t = .kotlin) (e : ModelEntry) :
    (∃ x ∈ memberNames t e, isBlank t x) ↔ ∃ name ∈ memberSources e, leavesBlankMember t name := by
  have hrust : ∀ names : List String, (∃ x ∈ names, isBlank .rust x) ↔ "_" ∈ names := by
    intro names
    constructor
    · rintro ⟨x, hx, hblank⟩
      rwa [← beq_iff_eq.1 hblank]
    · exact fun h => ⟨"_", h, rfl⟩
  rcases ht with rfl | rfl
  · rw [hrust]
    cases e with
    | record s =>
        rw [memberNames, Rust.underscore_mem_fieldNames_iff]
        simp only [memberSources, List.mem_map, exists_exists_and_eq_and, leavesBlankMember]
    | enumeration s =>
        rw [memberNames, Rust.underscore_mem_constantNames_iff]
        simp only [memberSources, List.mem_map, exists_exists_and_eq_and, leavesBlankMember]
    | missing name => simp [memberNames, memberSources]
  · simp only [memberNames, List.mem_map, exists_exists_and_eq_and, Kotlin.isBlank_memberName,
      leavesBlankMember]

/-! ## Names of declarations -/

variable {p : Profile} {r : CodeRequest} {docs : Bool}

/-- A declared name is legal. -/
theorem accepts_of_mem_declaredNames (ht : t = .rust ∨ t = .kotlin) {x : String}
    (hx : x ∈ declaredNames t.profile r docs) : Accepts t x := by
  obtain ⟨shorts, n, hgiven⟩ := exists_given_of_mem_declaredNames hx
  have hfree := hgiven.notMem_reserved (wordsEndInLetters t)
  rcases ht with rfl | rfl
  · refine .plain hgiven.isIdentifier ?_
    rw [NameRules.isReserved, ← Bool.not_eq_true, List.contains_iff_mem]
    exact hfree
  · exact ⟨hgiven.isIdentifier, hfree⟩

/-- What the name of a declaration is made from: its short name, or its scoped name if that is shared. -/
def nameSourceIn (p : Profile) (r : CodeRequest) (d : SchemaType) : String :=
  DeclarationNames.nameSource p.naming (shortNamesOf p r) d.name

/-- A declaration has a blank name if one of the names leaves nothing else. -/
theorem exists_isBlank_declaredNames_iff (ht : t = .rust ∨ t = .kotlin) (r : CodeRequest) (docs : Bool) :
    (∃ x ∈ declaredNames t.profile r docs, isBlank t x) ↔
      ∃ d ∈ (planOf r).declarations, leavesBlank t (nameSourceIn t.profile r d) := by
  simp only [declaredNames_eq, List.mem_map, exists_exists_and_eq_and]
  constructor
  · rintro ⟨d, hd, hblank⟩
    refine ⟨d, hd, ?_⟩
    rcases (given_nameIn hd).eq_or_numbered with heq | ⟨i, heq⟩
    · rwa [heq, isBlank_declarationName ht] at hblank
    · rw [heq, isBlank_append_toString] at hblank
      cases hblank
  · rintro ⟨d, hd, hleaves⟩
    -- the name that is made for this declaration may be given to another one
    obtain ⟨n, hn, hname⟩ := DeclarationNames.exists_get?_nameSource t.profile.naming
      (nodup_keys_declarations r) (List.mem_map_of_mem hd)
    obtain ⟨d', hd', rfl⟩ := List.mem_map.1 hn
    have hnameIn : nameIn t.profile r docs d' =
        t.profile.naming.declarationName (nameSourceIn t.profile r d) :=
      Option.some.inj ((get?_namesOf hd').symm.trans hname)
    refine ⟨d', hd', ?_⟩
    rwa [hnameIn, isBlank_declarationName ht]

/-! ## All names of a model -/

/-- What is true of the names that a model of a language holds. -/
structure NamesAccepted (t : Target) (r : CodeRequest) (docs : Bool) : Prop where
  /-- The names stand in the text, and nothing behind them belongs to them. -/
  written : ∀ e ∈ (SnippetModel.build t.profile r docs).entries,
    HoldsLines (entryText t.profile e) ((headerPlaces t e ++ memberPlaces t e).map (·.line)) ∧
    ∀ p ∈ headerPlaces t e ++ memberPlaces t e, p.after.toList.head?.all (!inIdentifier ·)
  /-- A name without quotes is an identifier, and reserved only with the mark of a raw identifier. -/
  legal : ∀ e ∈ (SnippetModel.build t.profile r docs).entries,
    ∀ x ∈ bareNames (headerPlaces t e ++ memberPlaces t e), Accepts t x
  /-- The name of a declaration is blank if it is made from one that leaves nothing else. -/
  declarations : (∃ x ∈ declaredNames t.profile r docs, isBlank t x) ↔
    ∃ d ∈ (planOf r).declarations, leavesBlank t (nameSourceIn t.profile r d)
  /-- So is the name of a member. -/
  members : ∀ e ∈ (SnippetModel.build t.profile r docs).entries,
    (∃ x ∈ bareNames (memberPlaces t e), isBlank t x) ↔ ∃ name ∈ memberSources e, leavesBlankMember t name

theorem namesAccepted_of_eq (ht : t = .rust ∨ t = .kotlin) (r : CodeRequest) (docs : Bool) :
    NamesAccepted t r docs := by
  refine ⟨fun e he => ⟨holdsLines_places ht e, head?_after ht⟩, fun e he x hx => ?_,
    exists_isBlank_declaredNames_iff ht r docs, fun e he => ?_⟩
  · obtain ⟨hname, hbare⟩ := List.mem_filter.1 hx
    rw [Bool.not_eq_true'] at hbare
    rw [List.map_append, map_name_memberPlaces ht, List.mem_append] at hname
    rcases hname with hname | hname
    · obtain ⟨p, hp, rfl⟩ := List.mem_map.1 hname
      exact accepts_of_mem_declaredNames ht
        (List.mem_filterMap.2 ⟨e, he, declared?_of_mem_headerPlaces hp⟩)
    · exact accepts_of_mem_memberNames hname hbare
  · rw [← exists_isBlank_memberNames_iff ht, bareNames, map_name_memberPlaces ht]
    refine exists_congr fun x => and_congr_left fun hblank => ?_
    rw [List.mem_filter, Bool.not_eq_true', and_iff_left]
    exact isQuoted_of_isIdentifier (isIdentifier_of_isBlank hblank).1

/-- The names without quotes in a model of Rust or Kotlin are legal. They are blank if they are made from names
that leave nothing else, and only then. -/
theorem names_accepted (r : CodeRequest) (docs : Bool) :
    NamesAccepted .rust r docs ∧ NamesAccepted .kotlin r docs :=
  ⟨namesAccepted_of_eq (Or.inl rfl) r docs, namesAccepted_of_eq (Or.inr rfl) r docs⟩

/-- The characters of a film's name are beyond ASCII, and its only attribute is named by a mark. -/
def markedFilm : CodeRequest :=
  ⟨"find { Film }", .ofFull "films.映画", .ofTypes [.ofKind (.ofFull "films.映画") (.record
      [⟨"_", .ofFull "lang.taxi.String", false, [], none, none⟩])] []⟩

/-- The attribute has a blank name in both languages, and in Kotlin the film, too. -/
theorem film_without_names :
    (generate .rust markedFilm ⟨"client", true⟩).snippets.head?.map (·.content) = some
      ("use serde::\x7bDeserialize, Serialize\x7d;\n\n#[derive(Debug, Clone, Serialize, Deserialize)]\n" ++
        "pub struct ___ \x7b\n    pub _: String,\n\x7d\n") ∧
    (generate .kotlin markedFilm ⟨"client", true⟩).snippets.head?.map (·.content) = some
      "data class ___(\n    val _: String,\n)\n" ∧
    (¬ ∀ e ∈ (SnippetModel.build (profile .rust) markedFilm true).entries,
      ∀ x ∈ bareNames (headerPlaces .rust e ++ memberPlaces .rust e),
        Accepts .rust x ∧ isBlank .rust x = false) ∧
    ¬ ∀ e ∈ (SnippetModel.build (profile .kotlin) markedFilm true).entries,
      ∀ x ∈ bareNames (headerPlaces .kotlin e ++ memberPlaces .kotlin e),
        Accepts .kotlin x ∧ isBlank .kotlin x = false := by
  have hrust : "_" ∈ (SnippetModel.build (profile .rust) markedFilm true).entries.flatMap fun e =>
      bareNames (headerPlaces .rust e ++ memberPlaces .rust e) := by decide +kernel
  have hkotlin : "_" ∈ (SnippetModel.build (profile .kotlin) markedFilm true).entries.flatMap fun e =>
      bareNames (headerPlaces .kotlin e ++ memberPlaces .kotlin e) := by decide +kernel
  refine ⟨by decide +kernel, by decide +kernel, fun h => ?_, fun h => ?_⟩
  · obtain ⟨e, he, hx⟩ := List.mem_flatMap.1 hrust
    exact absurd (h e he _ hx).2 (by decide)
  · obtain ⟨e, he, hx⟩ := List.mem_flatMap.1 hkotlin
    exact absurd (h e he _ hx).2 (by decide)

end SchemaSnippets.Snippet

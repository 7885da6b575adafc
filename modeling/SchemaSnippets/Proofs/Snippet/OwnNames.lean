import SchemaSnippets.Proofs.Model.LegalNames
import SchemaSnippets.Proofs.Snippet.ClosedReferences
import SchemaSnippets.Proofs.Text.Case
import SchemaSnippets.Snippet.Generate

/-!
# Names that a language writes itself

A model mentions types that it does not declare: those that stand for primitives, wrappers around other
types, and what it imports for them. A declaration with such a name would be meant instead.

* `Profile.ownNames`, `Kotlin.ownNames` : the names that a language writes itself;
* `startsSmall_declarationName` : the name of a declaration does not begin with a small letter;
* `declaredNames` : the names that a model declares; `exists_given_of_mem_declaredNames` : how they came
  about;
* `captured_names` : none of them is a name that the language writes itself, unless one of six is declared
  in Kotlin.
-/

namespace SchemaSnippets.Unicode

/-! ## Small letters -/

/-- The characters begin with a small letter of ASCII. -/
def startsSmall (cs : List Char) : Bool :=
  cs.head?.any Char.isLower

theorem startsSmall_append {cs ds : List Char} (h : cs ≠ []) :
    startsSmall (cs ++ ds) = startsSmall cs := by
  cases cs with
  | nil => exact absurd rfl h
  | cons c cs => rfl

theorem isLower_iff_toNat {c : Char} : c.isLower ↔ 97 ≤ c.toNat ∧ c.toNat ≤ 122 := by
  show (decide ('a'.val ≤ c.val) && decide (c.val ≤ 'z'.val)) = true ↔ _
  rw [Bool.and_eq_true]
  exact and_congr decide_eq_true_iff decide_eq_true_iff

/-- The upper case of a character begins with no small letter of ASCII. -/
theorem startsSmall_upperOf (c : Char) : startsSmall (upperOf c) = false := by
  unfold upperOf
  split
  · rename_i h
    exact forall_ascii (P := fun c => startsSmall [c.toUpper] = false) (by decide) h
  · rename_i h
    rw [← Bool.not_eq_true, startsSmall, Option.any_eq_true]
    rintro ⟨d, hd, hlower⟩
    -- no entry of the tables leads to such a letter, so it would be the character itself
    have htable : ∀ n < 123, 97 ≤ n → leadsTo upperExpansions upperShifts n = false := by decide +kernel
    have hcode := isLower_iff_toNat.1 hlower
    have hself : d = c := eq_of_mem_mapCase (htable d.toNat (by omega) hcode.1) (by omega)
      (List.mem_of_mem_head? hd)
    rw [hself] at hcode
    omega

end SchemaSnippets.Unicode

namespace SchemaSnippets.Target
open Text Unicode

theorem startsSmall_pascal (name : String) : startsSmall (pascal name).toList = false := by
  have hchars : ∀ cs, startsSmall (pascalChars true cs) = false := by
    intro cs
    induction cs with
    | nil => rfl
    | cons c cs ih =>
        rw [pascalChars]
        split
        · exact ih
        · rw [if_pos rfl, startsSmall_append (upperOf_ne_nil c), startsSmall_upperOf]
  unfold pascal
  rw [String.toList_ofList]
  exact hchars name.toList

theorem startsSmall_sanitize (name : String) : startsSmall (sanitize name).toList = false := by
  unfold sanitize
  rw [String.toList_ofList]
  rfl

/-- The name of a declaration begins with no small letter of ASCII. -/
theorem startsSmall_declarationName {c : NameRules} (hc : c.caseOfDeclarations = pascal)
    (name : String) : startsSmall (c.declarationName name).toList = false := by
  have hlegal : ∃ x, isIdentifier x ∧ startsSmall x.toList = false ∧
      c.declarationName name = if c.isReserved x then x ++ "_" else x := by
    unfold NameRules.declarationName
    rw [hc]
    by_cases hname : isIdentifier (pascal name)
    · exact ⟨pascal name, hname, startsSmall_pascal name, by rw [NameRules.legalize, if_pos hname]⟩
    · refine ⟨sanitize (pascal name), isIdentifier_sanitize _, startsSmall_sanitize _, ?_⟩
      rw [NameRules.legalize, if_neg hname]
  obtain ⟨x, hx, hsmall, heq⟩ := hlegal
  rw [heq]
  split
  · rw [String.toList_append, startsSmall_append (toList_ne_nil_of_isIdentifier hx), hsmall]
  · exact hsmall

end SchemaSnippets.Target

namespace SchemaSnippets.Model.DeclarationNames
open Schema Target Unicode

theorem Given.startsSmall_eq {c : NameRules} {shorts : List String} {n : QualifiedName} {x : String}
    (hc : c.caseOfDeclarations = Text.pascal) (h : Given c shorts n x) :
    startsSmall x.toList = false := by
  obtain ⟨name, rfl | ⟨i, rfl⟩⟩ := h.exists_declarationName
  · exact startsSmall_declarationName hc name
  · have hne : (c.declarationName name).toList ≠ [] :=
      toList_ne_nil_of_isIdentifier (NameRules.isIdentifier_legalize c _)
    rw [String.toList_append, startsSmall_append hne]
    exact startsSmall_declarationName hc name

end SchemaSnippets.Model.DeclarationNames

namespace SchemaSnippets.Target
open Model Schema

/-! ## Names that a language writes itself -/

/-- The identifiers in a text: its longest runs of characters of identifiers. -/
def identifiersIn (text : String) : List String :=
  ((text.toList.splitOnP fun c => !inIdentifier c).filter (!·.isEmpty)).map String.ofList

/-- What the language writes for primitives, around other types, and for what has no type. -/
def TypeSyntax.ownTexts (s : TypeSyntax) : List String :=
  Primitive.all.filterMap s.primitive ++
    [s.optional "", s.array "", s.stream "", s.recursive "", s.untyped]

/-- What the types of a language may need, and what every model imports. -/
def Profile.ownImports (p : Profile) : List Import :=
  Primitive.all.flatMap p.types.primitiveNeeds ++ p.types.streamNeeds ++ p.alwaysImported

/-- The names in the texts of a language, and the symbols that it imports. -/
def Profile.ownNames (p : Profile) : List String :=
  p.types.ownTexts.flatMap identifiersIn ++ p.ownImports.map Prod.snd

/-- In Kotlin the values of enumerations have types, too. -/
def Kotlin.ownNames : List String :=
  profile.ownNames ++ [Carrier.int, .long, .string].flatMap fun c => identifiersIn c.property

/-- The names that Kotlin does not reserve, although it writes them itself. -/
def Kotlin.unreserved : List String :=
  ["BigDecimal", "LocalDate", "LocalTime", "LocalDateTime", "Instant", "Long"]

example : TypeScript.profile.ownNames.eraseDups =
    ["string", "number", "boolean", "any", "void", "undefined", "Observable"] := by
  decide +kernel

end SchemaSnippets.Target

namespace SchemaSnippets.Snippet
open Model Request Schema Target Unicode

/-- The names that the model of a request declares, in order. -/
def declaredNames (p : Profile) (r : CodeRequest) (docs : Bool) : List String :=
  (SnippetModel.build p r docs).entries.filterMap (·.declared?)

variable {p : Profile} {r : CodeRequest} {docs : Bool} {x : String}

theorem declaredNames_eq (p : Profile) (r : CodeRequest) (docs : Bool) :
    declaredNames p r docs = (planOf r).declarations.map (nameIn p r docs) :=
  filterMap_declared?_entries _ _ _

/-- The short names of the declarations of a request. -/
def shortNamesOf (p : Profile) (r : CodeRequest) : List String :=
  ((planOf r).declarations.map (·.name)).map (DeclarationNames.shortName p.naming)

theorem nodup_keys_declarations (r : CodeRequest) :
    (((planOf r).declarations.map (·.name)).map (·.key)).Nodup := by
  rw [List.map_map]
  exact nodup_declarations_build

/-- The name of a declaration was given to its type. -/
theorem given_nameIn {t : SchemaType} (ht : t ∈ (planOf r).declarations) :
    DeclarationNames.Given p.naming (shortNamesOf p r) t.name (nameIn p r docs t) := by
  obtain ⟨x, hx, hgiven⟩ := (DeclarationNames.gives_foldl p.naming _ _ _).given (nodup_keys_declarations r)
    (List.mem_map_of_mem ht)
  have hname : some (nameIn p r docs t) = some x := (get?_namesOf ht).symm.trans hx
  rw [Option.some.inj hname]
  exact hgiven

/-- A declared name was given to a type of the plan. -/
theorem exists_given_of_mem_declaredNames (h : x ∈ declaredNames p r docs) :
    ∃ shorts n, DeclarationNames.Given p.naming shorts n x := by
  rw [declaredNames_eq, List.mem_map] at h
  obtain ⟨t, ht, rfl⟩ := h
  exact ⟨_, _, given_nameIn ht⟩

/-- Names that are reserved, or begin with a small letter, are declared by no model. -/
theorem disjoint_declaredNames {names : List String} (hcase : p.naming.caseOfDeclarations = Text.pascal)
    (hends : p.naming.WordsEndInLetters)
    (hnames : ∀ x ∈ names, x ∈ p.naming.reserved ∨ startsSmall x.toList) :
    (declaredNames p r docs).Disjoint names := by
  intro x hx hown
  obtain ⟨shorts, n, hgiven⟩ := exists_given_of_mem_declaredNames hx
  rcases hnames x hown with hreserved | hsmall
  · exact hgiven.notMem_reserved hends hreserved
  · rw [hgiven.startsSmall_eq hcase] at hsmall
    cases hsmall

/-- A request for a record without attributes. -/
def loneRecord (name : String) : CodeRequest :=
  ⟨"find { Record }", .ofFull name, .ofTypes [.ofKind (.ofFull name) (.record [])] []⟩

/-- In TypeScript and Rust no declaration has a name that the language writes itself. In Kotlin none has
unless it has one of six such names, and each of these may be declared. -/
theorem captured_names (r : CodeRequest) (docs : Bool) :
    (declaredNames TypeScript.profile r docs).Disjoint TypeScript.profile.ownNames ∧
    (declaredNames Rust.profile r docs).Disjoint Rust.profile.ownNames ∧
    ((declaredNames Kotlin.profile r docs).Disjoint Kotlin.ownNames ↔
      (declaredNames Kotlin.profile r docs).Disjoint Kotlin.unreserved) ∧
    ∀ x ∈ Kotlin.unreserved, x ∈ declaredNames Kotlin.profile (loneRecord x) docs := by
  have hunreserved : ∀ x ∈ Kotlin.unreserved, x ∈ Kotlin.ownNames := by decide +kernel
  refine ⟨?_, ?_, ⟨fun h => ?_, fun h x hx hown => ?_⟩, ?_⟩
  · exact disjoint_declaredNames rfl (wordsEndInLetters .typescript) (by decide +kernel)
  · exact disjoint_declaredNames rfl (wordsEndInLetters .rust) (by decide +kernel)
  · exact fun x hx hfree => h hx (hunreserved x hfree)
  · have hnames : ∀ x ∈ Kotlin.ownNames.filter (· ∉ Kotlin.unreserved),
        x ∈ Kotlin.profile.naming.reserved ∨ startsSmall x.toList := by decide +kernel
    have hmem : x ∈ Kotlin.ownNames.filter (· ∉ Kotlin.unreserved) :=
      List.mem_filter.2 ⟨hown, decide_eq_true fun hfree => h hx hfree⟩
    exact disjoint_declaredNames rfl (wordsEndInLetters .kotlin) hnames hx hmem
  · cases docs <;> decide +kernel

/-! ### A calendar of films -/

/-- A film with a date and the local date of a calendar. -/
def calendarTypes : List SchemaType :=
  [.ofKind (.ofFull "films.Film") (.record
      [⟨"released", .ofFull "lang.taxi.Date", false, [], none, none⟩,
        ⟨"shown", .ofFull "calendar.LocalDate", false, [], none, none⟩]),
    .ofKind (.ofFull "calendar.LocalDate") (.record
      [⟨"zone", .ofFull "lang.taxi.String", false, [], none, none⟩])]

def calendarRequest : CodeRequest :=
  ⟨"find { Film }", .ofFull "films.Film", .ofTypes calendarTypes []⟩

/-- The date of the film is taken for a local date of the calendar. -/
theorem localDate_captured :
    "LocalDate" ∈ declaredNames Kotlin.profile calendarRequest true ∧ "LocalDate" ∈ Kotlin.ownNames ∧
    (generate .kotlin calendarRequest ⟨"client", true⟩).snippets.head? = some ⟨"model", "kotlin",
      "import java.time.LocalDate\n\ndata class LocalDate(\n    val zone: String,\n)\n\n" ++
      "data class Film(\n    val released: LocalDate,\n    val shown: LocalDate,\n)\n"⟩ := by
  decide +kernel

end SchemaSnippets.Snippet

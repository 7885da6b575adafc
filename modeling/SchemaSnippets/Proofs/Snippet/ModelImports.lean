import SchemaSnippets.Proofs.Snippet.Placeholders
import SchemaSnippets.Proofs.Target.ImportStatements

/-!
# Imports of a model

What a model imports is collected from the types of its members, a module once with each of its symbols
once, and written as statements: one for each module, but in Kotlin one for each symbol. Read back, the
statements import what the texts of these types need, and nothing else: neither for the type of the
result nor twice.

* `mem_pairs_importsOf` : what is collected;
* `readImport?` : what an import statement imports, in three languages; `exists_statements` : it is what has
  been collected;
* `model_imports_exact` : the statements of a model.
-/

namespace SchemaSnippets.Target
open Model Schema

/-- What an import statement of the language imports. -/
def readImport? : Target → String → Option (List Import)
  | .typescript => TypeScript.readImport?
  | .kotlin => Kotlin.readImport?
  | .rust => Rust.readImport?
  | _ => fun _ => none

/-- Different statements import from different modules. -/
def Apart (statements : List (List Import)) : Prop :=
  statements.Pairwise fun is js => ∀ i ∈ is, ∀ j ∈ js, i.1 ≠ j.1

theorem apart_map_ofModule {es : List (String × List String)} (h : (es.map Prod.fst).Nodup) :
    Apart (es.map ofModule) := by
  refine List.pairwise_map.2 ((List.pairwise_map.1 h).imp fun hne i hi j hj => ?_)
  obtain ⟨symbol, -, rfl⟩ := List.mem_map.1 hi
  obtain ⟨symbol', -, rfl⟩ := List.mem_map.1 hj
  exact hne

/-- The statements import what they are written for. Only in Kotlin may several of them be of one module,
one for each symbol. -/
theorem exists_statements {t : Target} (ht : t ∈ [.typescript, .kotlin, .rust]) {i : Imports}
    (hi : i.IsOrdered) (hwords : ∀ q ∈ i.pairs, isWord q.1 ∧ isWord q.2 ∧ '.' ∉ q.2.toList) :
    ∃ statements, readImports? t.readImport? (t.profile.imports i) = some statements ∧
      statements.flatten.Perm i.pairs ∧ (t ≠ .kotlin → Apart statements) := by
  have hpair : ∀ e ∈ i.modules, ∀ symbol ∈ e.2, (e.1, symbol) ∈ i.pairs := fun e he symbol hsymbol =>
    List.mem_flatMap.2 ⟨e, he, List.mem_map_of_mem hsymbol⟩
  have hmodules : OfWords i := by
    intro e he
    have hsymbols : e.2.all isWord := List.all_eq_true.2 fun symbol hsymbol =>
      (hwords _ (hpair e he symbol hsymbol)).2.1
    obtain ⟨symbol, hsymbol⟩ := List.exists_mem_of_ne_nil e.2 (hi.filled e he)
    exact ⟨hi.filled e he, (hwords _ (hpair e he symbol hsymbol)).1, hsymbols⟩
  simp only [List.mem_cons, List.not_mem_nil, or_false] at ht
  rcases ht with rfl | rfl | rfl
  · refine ⟨_, TypeScript.readImports?_imports hmodules, ?_, fun _ => apart_map_ofModule hi.modules⟩
    exact List.Perm.refl _
  · refine ⟨_, Kotlin.readImports?_imports hmodules fun q hq => (hwords q hq).2.2, ?_, fun h => absurd rfl h⟩
    have hflat : (i.pairs.map fun q => [q]).flatten = i.pairs := by
      rw [← List.flatMap_def]
      exact List.flatMap_singleton' i.pairs
    rw [hflat]
  · have hperm := Rust.perm_sortedModules hi.modules
    refine ⟨_, Rust.readImports?_imports hmodules, ?_, fun _ => apart_map_ofModule ?_⟩
    · rw [← List.flatMap_def]
      exact hperm.flatMap_right ofModule
    · exact (hperm.map Prod.fst).nodup_iff.2 hi.modules

end SchemaSnippets.Target

namespace SchemaSnippets.Snippet
open Code Model Request Schema Target

/-! ## What is collected -/

section Collected
variable {p : Profile} {m : SnippetModel}

theorem isOrdered_importsOf (p : Profile) (m : SnippetModel) : (importsOf p m).IsOrdered :=
  Imports.isOrdered_empty.addAll _

/-- What every model imports, and what members need. -/
theorem mem_pairs_importsOf {i : Import} :
    i ∈ (importsOf p m).pairs ↔ i ∈ p.alwaysImported ∨ ∃ type ∈ m.memberTypes, i ∈ p.types.needs type := by
  have hempty : i.2 ∉ Imports.empty.symbols i.1 := List.not_mem_nil
  rw [(isOrdered_importsOf p m).mem_pairs, importsOf, Imports.mem_symbols_addAll, or_iff_right hempty,
    List.mem_append, List.mem_flatMap]

theorem mem_ownImports_of_mem_pairs {i : Import} (h : i ∈ (importsOf p m).pairs) : i ∈ p.ownImports := by
  rcases mem_pairs_importsOf.1 h with h | ⟨type, -, h⟩
  · exact List.mem_append_right _ h
  · exact mem_ownImports_of_mem_needs h

theorem pairs_eq_nil_of_isEmpty {i : Imports} (h : i.isEmpty) : i.pairs = [] := by
  unfold Imports.isEmpty at h
  rw [List.isEmpty_iff] at h
  rw [Imports.pairs, h, List.flatMap_nil]

end Collected

/-! ## The statements of a model -/

theorem isWord_ownImports {t : Target} (ht : t ∈ [.typescript, .kotlin, .rust]) :
    ∀ i ∈ t.profile.ownImports, isWord i.1 ∧ isWord i.2 ∧ '.' ∉ i.2.toList := by
  simp only [List.mem_cons, List.not_mem_nil, or_false] at ht
  rcases ht with rfl | rfl | rfl <;> decide

/-- The imports of a model are sufficient and minimal: its statements import what every model of the
language does, what stands for the primitives in the types of its members, and streams if there is one in
these types. No import stands in two statements, or twice in one.

A module is single among what is collected, with its symbols once each (`IsOrdered`), and the statements
have exactly these imports. In TypeScript and Rust a module has one statement. In Kotlin, where a
statement names one symbol, it has as many as it has symbols. -/
theorem model_imports_exact {t : Target} (ht : t ∈ [.typescript, .kotlin, .rust]) (r : CodeRequest)
    (o : Options) (hr : (planOf r).declarations ≠ []) :
    let p := t.profile
    let m := SnippetModel.build p r o.docs
    modelOf? t r o = modelText? p m ∧
    sections p m = importSections p m ++ m.entries.map (entryText p) ∧
    ∃ statements : List (List Import),
      ((importSections p m).flatMap Text.lines).mapM t.readImport? = some statements ∧
      statements.flatten.Nodup ∧
      (∀ i, i ∈ statements.flatten ↔ i ∈ p.alwaysImported ∨ ∃ type ∈ m.memberTypes,
        (∃ k, p.types.Shows type (.primitive k) ∧ i ∈ p.types.primitiveNeeds k) ∨
          p.types.Shows type .stream ∧ i ∈ p.types.streamNeeds) ∧
      (t ≠ .kotlin → Apart statements) ∧
      (importsOf p m).IsOrdered ∧ statements.flatten.Perm (importsOf p m).pairs := by
  intro p m
  have hmodel : t.profile.declaresModel := by
    simp only [List.mem_cons, List.not_mem_nil, or_false] at ht
    rcases ht with rfl | rfl | rfl <;> rfl
  have hsections : sections p m = importSections p m ++ m.entries.map (entryText p) := by
    rw [sections_eq, unsupported_eq_nil (isSome_primitive ht)]
    exact congrArg (· ++ _) (List.append_nil _)
  have hordered := isOrdered_importsOf p m
  have hdeclares : m.declares = true := by
    show (!(planOf r).declarations.isEmpty) = true
    rwa [Bool.not_eq_true', List.isEmpty_eq_false_iff]
  obtain ⟨statements, hread, hperm, hapart⟩ : ∃ statements : List (List Import),
      ((importSections p m).flatMap Text.lines).mapM t.readImport? = some statements ∧
      statements.flatten.Perm (importsOf p m).pairs ∧ (t ≠ .kotlin → Apart statements) := by
    unfold importSections
    rw [hdeclares, Bool.true_and]
    cases hempty : (importsOf p m).isEmpty with
    | true =>
        refine ⟨[], rfl, ?_, fun _ => List.Pairwise.nil⟩
        rw [pairs_eq_nil_of_isEmpty hempty]
        exact List.Perm.refl _
    | false =>
        have hwords : ∀ i ∈ (importsOf p m).pairs, isWord i.1 ∧ isWord i.2 ∧ '.' ∉ i.2.toList :=
          fun i hi => isWord_ownImports ht i (mem_ownImports_of_mem_pairs hi)
        obtain ⟨statements, hread, hrest⟩ := exists_statements ht hordered hwords
        refine ⟨statements, ?_, hrest⟩
        rw [← hread]
        exact congrArg (List.mapM t.readImport?) (List.flatMap_singleton Text.lines _)
  refine ⟨modelOf?_eq hmodel r o, hsections, statements, hread, hperm.nodup_iff.2 hordered.nodup_pairs,
    fun i => ?_, hapart, hordered, hperm⟩
  rw [hperm.mem_iff, mem_pairs_importsOf]
  simp only [TypeSyntax.mem_needs_iff]

/-! ### A stream of films -/

/-- A stream of films. A film has been shown on some dates and has prices. -/
def filmStream : CodeRequest :=
  let wrapped (wrapper element : String) : QualifiedName :=
    (QualifiedName.ofFull wrapper).withParameters [.ofFull element]
  let film : SchemaType := .ofKind (.ofFull "films.Film") (.record
    [⟨"released", .ofFull "lang.taxi.Date", false, [], none, none⟩,
      ⟨"shown", wrapped "lang.taxi.Array" "lang.taxi.Date", true, [], none, none⟩,
      ⟨"prices", wrapped "lang.taxi.Array" "lang.taxi.Decimal", false, [], none, none⟩])
  let films := wrapped "lang.taxi.Stream" "films.Film"
  ⟨"stream { Film }", films, .ofTypes [film, .ofKind films (.stream (.ofFull "films.Film"))] []⟩

/-- The model of the stream in Kotlin. -/
def filmStreamModel : SnippetModel :=
  SnippetModel.build Target.kotlin.profile filmStream true

/-- The result is a flow, but no member is one. -/
theorem filmStream_imports :
    Target.kotlin ∈ [.typescript, .kotlin, .rust] ∧ (planOf filmStream).declarations ≠ [] ∧
    filmStreamModel.resultType = .stream (.named "Film") ∧
    importSections Target.kotlin.profile filmStreamModel =
      ["import java.time.LocalDate\nimport java.math.BigDecimal\n"] ∧
    ∃ statements : List (List Import),
      ((importSections Target.kotlin.profile filmStreamModel).flatMap Text.lines).mapM
        Target.kotlin.readImport? = some statements ∧
      statements.flatten.Perm [("java.time", "LocalDate"), ("java.math", "BigDecimal")] := by
  have ht : Target.kotlin ∈ [.typescript, .kotlin, .rust] := by decide
  have hdeclared : (planOf filmStream).declarations ≠ [] := by decide +kernel
  have hresult : filmStreamModel.resultType = .stream (.named "Film") := by decide +kernel
  have hsections : importSections Target.kotlin.profile filmStreamModel =
      ["import java.time.LocalDate\nimport java.math.BigDecimal\n"] := by
    decide +kernel
  have hpairs : (importsOf Target.kotlin.profile filmStreamModel).pairs =
      [("java.time", "LocalDate"), ("java.math", "BigDecimal")] := by
    decide +kernel
  obtain ⟨-, -, statements, hread, -, -, -, -, hperm⟩ :=
    model_imports_exact ht filmStream ⟨"client", true⟩ hdeclared
  refine ⟨ht, hdeclared, hresult, hsections, statements, hread, ?_⟩
  rw [← hpairs]
  exact hperm

end SchemaSnippets.Snippet

import SchemaSnippets.Proofs.Target.Rust.LegalNames
import SchemaSnippets.Proofs.Text.Case

/-!
# Blank names

A language keeps some identifiers for what has no name: Rust the underscore, and Kotlin every identifier of
underscores alone. A name becomes one of them if it has no characters that the language takes over.

* `isBlank` : the identifiers that a language keeps so;
* `legalize_eq_underscore_iff`, `all_underscore_legalize` : the names of declarations that are blank;
* `Rust.memberName_eq_underscore_iff`, `Rust.constantName_eq_underscore_iff` : the names of members;
* `mem_tellApartFrom_iff` : numbers give no such names; `Rust.underscore_mem_fieldNames_iff`,
  `Rust.underscore_mem_constantNames_iff` : the members of a declaration.
-/

namespace SchemaSnippets.Target
open Data Model Text Unicode

/-- An identifier that the language keeps for what has no name. -/
def isBlank : Target → String → Bool
  | .rust, name => name == "_"
  | .kotlin, name => !name.toList.isEmpty && name.toList.all (· == '_')
  | _, _ => false

/-! ## Names of declarations -/

/-- A character of no identifier becomes an underscore, and letters and digits do not. -/
theorem all_underscore_sanitize (name : String) :
    (sanitize name).toList.all (· == '_') = name.toList.all (!·.isAlphanum) := by
  rw [sanitize, String.toList_ofList, List.all_cons, beq_self_eq_true, Bool.true_and, List.all_map]
  refine congrArg name.toList.all (funext fun c => ?_)
  rw [Function.comp_apply, inIdentifier]
  by_cases hc : c = '_'
  · rw [hc]
    rfl
  · cases halnum : c.isAlphanum <;> simp [hc]

theorem all_underscore_of_isIdentifier {name : String} (h : isIdentifier name) :
    name.toList.all (· == '_') = name.toList.all (!·.isAlphanum) := by
  rw [Bool.eq_iff_iff, List.all_eq_true, List.all_eq_true]
  refine forall₂_congr fun c hc => ?_
  have hin : inIdentifier c := List.all_eq_true.1 (all_inIdentifier_of_isIdentifier h) c hc
  rw [inIdentifier, Bool.or_eq_true] at hin
  by_cases hunder : c = '_'
  · rw [hunder]
    decide
  · rw [beq_iff_eq] at hin
    simp [hunder, hin.resolve_right hunder]

theorem sanitize_eq_underscore_iff (name : String) : sanitize name = "_" ↔ name = "" := by
  rw [← String.toList_inj, ← String.toList_inj, sanitize, String.toList_ofList]
  show _ :: _ = ['_'] ↔ _ = []
  rw [List.cons_eq_cons, and_iff_right rfl, List.map_eq_nil_iff]

namespace NameRules
variable {c : NameRules}

/-- A reserved word is not made of underscores. -/
theorem all_underscore_of_isReserved (hc : c.WordsEndInLetters) {name : String} (h : c.isReserved name) :
    name.toList.all (· == '_') = false := by
  have hlast := hc name (List.contains_iff_mem.1 h)
  rw [Option.any_eq_true] at hlast
  obtain ⟨d, hd, halpha⟩ := hlast
  refine List.all_eq_false.2 ⟨d, List.mem_of_getLast? hd, ?_⟩
  rw [beq_iff_eq]
  rintro rfl
  exact absurd halpha (by decide)

/-- A declaration is named by underscores if the name has no letters and digits of ASCII. -/
theorem all_underscore_legalize (hc : c.WordsEndInLetters) (name : String) :
    (c.legalize name).toList.all (· == '_') = name.toList.all (!·.isAlphanum) := by
  have hfit : (if isIdentifier name then name else sanitize name).toList.all (· == '_') =
      name.toList.all (!·.isAlphanum) := by
    split
    · rename_i h
      exact all_underscore_of_isIdentifier h
    · exact all_underscore_sanitize name
  unfold legalize
  dsimp only
  generalize (if isIdentifier name then name else sanitize name) = fit at hfit ⊢
  split
  · rename_i h
    have hword := all_underscore_of_isReserved hc h
    rw [String.toList_append, List.all_append, hword, Bool.false_and, ← hfit, hword]
  · exact hfit

/-- A declaration is named by one underscore if nothing is left of the name, or just that. -/
theorem legalize_eq_underscore_iff (hc : c.WordsEndInLetters) (name : String) :
    c.legalize name = "_" ↔ name = "" ∨ name = "_" := by
  have hfit : (if isIdentifier name then name else sanitize name) = "_" ↔ name = "" ∨ name = "_" := by
    split
    · rename_i h
      have hne : name ≠ "" := fun hempty => toList_ne_nil_of_isIdentifier h (by rw [hempty]; rfl)
      rw [or_iff_right hne]
    · rename_i h
      have hne : name ≠ "_" := fun hunder => h (by rw [hunder]; decide)
      rw [sanitize_eq_underscore_iff, or_iff_left hne]
  unfold legalize
  dsimp only
  generalize (if isIdentifier name then name else sanitize name) = fit at hfit ⊢
  split
  · rename_i h
    have hword := all_underscore_of_isReserved hc h
    have hlonger : fit ++ "_" ≠ "_" := by
      intro heq
      have hnil : fit.toList = [] := by simpa using congrArg String.toList heq
      rw [hnil] at hword
      cases hword
    have hother : fit ≠ "_" := by
      rintro rfl
      cases hword
    rw [← hfit]
    exact iff_of_false hlonger hother
  · exact hfit

end NameRules

/-- Whether a language makes a blank name of this one for a declaration. -/
def leavesBlank : Target → String → Bool
  | .rust, name => name.toList.all isSeparator
  | .kotlin, name => (pascal name).toList.all (!·.isAlphanum)
  | _, _ => false

theorem pascal_ne_underscore (name : String) : pascal name ≠ "_" := by
  intro h
  have hmem : '_' ∈ (pascal name).toList := by
    rw [h]
    decide
  exact absurd (isSeparator_of_mem_pascal hmem) (by decide)

theorem Rust.declarationName_eq_underscore_iff (name : String) :
    naming.declarationName name = "_" ↔ name.toList.all isSeparator := by
  rw [NameRules.declarationName, NameRules.legalize_eq_underscore_iff naming_wordsEndInLetters,
    ← pascal_eq_empty_iff]
  exact or_iff_left (pascal_ne_underscore name)

/-- A declaration gets a blank name if its name leaves nothing else. -/
theorem isBlank_declarationName {t : Target} (ht : t = .rust ∨ t = .kotlin) (name : String) :
    isBlank t (t.profile.naming.declarationName name) = leavesBlank t name := by
  rcases ht with rfl | rfl
  · rw [Bool.eq_iff_iff]
    exact beq_iff_eq.trans (Rust.declarationName_eq_underscore_iff name)
  · have hid := NameRules.isIdentifier_legalize (profile .kotlin).naming (pascal name)
    have hne := List.isEmpty_eq_false_iff.2 (toList_ne_nil_of_isIdentifier hid)
    have hall := NameRules.all_underscore_legalize (wordsEndInLetters .kotlin) (pascal name)
    have hname : (profile .kotlin).naming.declarationName name =
        (profile .kotlin).naming.legalize (pascal name) := rfl
    rw [isBlank, leavesBlank, hname, hne, hall]
    rfl

/-- A number ends no blank name. -/
theorem isBlank_append_toString (t : Target) (name : String) (i : Nat) :
    isBlank t (name ++ toString i) = false := by
  have hdigits : (toString i).toList = Nat.toDigits 10 i := by
    rw [Nat.toString_eq_ofList_toDigits, String.toList_ofList]
  obtain ⟨d, ds, hds⟩ := List.exists_cons_of_ne_nil (Nat.toDigits_ne_nil (b := 10) (n := i))
  have hdigit : d.isDigit := Nat.isDigit_of_mem_toDigits (by decide) (by decide) (hds ▸ List.mem_cons_self)
  have hne : d ≠ '_' := by
    rintro rfl
    exact absurd hdigit (by decide)
  have hother : (name ++ toString i).toList.all (· == '_') = false := by
    refine List.all_eq_false.2 ⟨d, ?_, by simpa using hne⟩
    rw [String.toList_append, hdigits, hds]
    exact List.mem_append_right _ List.mem_cons_self
  unfold isBlank
  split
  · rw [beq_eq_false_iff_ne]
    intro h
    rw [h] at hother
    cases hother
  · rw [hother, Bool.and_false]
  · rfl

/-! ## Names of members -/

namespace Rust

theorem snake_ne_underscore (name : String) : snake name ≠ "_" := by
  intro h
  have hhead := head?_snake name
  rw [h] at hhead
  cases hhead

/-- A member is named by one underscore if its name consists of separators. -/
theorem memberName_eq_underscore_iff (name : String) :
    naming.memberName name = "_" ↔ name.toList.all isSeparator := by
  have hescape : ∀ words : String, words ≠ "_" → (escape words = "_" ↔ words = "") := by
    intro words hne
    unfold escape
    split
    · rename_i h
      have hall : ∀ w ∈ neverRaw, w ++ "_" ≠ "_" ∧ w ≠ "" := by decide
      obtain ⟨hlonger, hword⟩ := hall words (List.contains_iff_mem.1 h)
      exact iff_of_false hlonger hword
    · split
      · rename_i h
        refine iff_of_false (fun heq => ?_) fun hempty => ?_
        · exact absurd (congrArg String.toList heq) (by rw [String.toList_append]; simp)
        · exact toList_ne_nil_of_isIdentifier h (by rw [hempty]; rfl)
      · exact sanitize_eq_underscore_iff words
  rw [← snake_eq_empty_iff]
  unfold NameRules.memberName
  dsimp only
  split
  · exact hescape _ (snake_ne_underscore name)
  · rename_i h
    rw [Bool.or_eq_true, not_or, Bool.not_eq_true', Bool.not_eq_false] at h
    refine iff_of_false (snake_ne_underscore name) fun hempty => ?_
    exact toList_ne_nil_of_isIdentifier h.2 (by rw [show naming.caseOfMembers name = "" from hempty]; rfl)

theorem constantName_eq_underscore_iff (name : String) :
    constantName name = "_" ↔ name.toList.all isSeparator := by
  unfold constantName
  dsimp only
  rw [declarationName_eq_underscore_iff, all_isSeparator_pascal]
  split
  · rw [all_isSeparator_lowercase]
  · rfl

/-- A name without a number is among names told apart if it was among the names and not taken. -/
theorem mem_tellApartFrom_iff {taken names : List String} {separator name : String}
    (hplain : ∀ n ∈ names, ∀ i : Nat, name ≠ withoutMark n ++ separator ++ toString i) :
    name ∈ tellApartFrom taken separator names ↔ name ∈ names ∧ name ∉ taken := by
  induction names generalizing taken with
  | nil => simp [tellApartFrom]
  | cons n ns ih =>
      have hrest : ∀ taken, name ∈ tellApartFrom taken separator ns ↔ name ∈ ns ∧ name ∉ taken :=
        fun taken => ih fun m hm => hplain m (List.mem_cons_of_mem _ hm)
      have hfresh := firstFree_freshName (numbered_injective (withoutMark n ++ separator)) taken n
      rw [tellApartFrom, List.mem_cons, hrest, List.mem_cons, List.mem_cons, not_or]
      generalize freshName taken n (fun i => withoutMark n ++ separator ++ toString i) = first at hfresh ⊢
      cases hfresh with
      | own hbase =>
          by_cases hname : name = n
          · rw [hname]
            simp [hbase]
          · simp [hname]
      | @suffixed i hbase _ _ =>
          have hne := hplain n (List.mem_cons_self ..) (i + 2)
          rw [or_iff_right hne, and_iff_right hne, or_and_right, or_iff_right]
          rintro ⟨rfl, hfree⟩
          exact hfree hbase

theorem underscore_mem_tellApart_iff (names : List String) (separator : String) :
    "_" ∈ tellApart names separator ↔ "_" ∈ names := by
  have hplain : ∀ n ∈ names, ∀ i : Nat, "_" ≠ withoutMark n ++ separator ++ toString i := by
    intro n _ i h
    have hblank : isBlank .rust (withoutMark n ++ separator ++ toString i) := by
      rw [← h]
      decide
    rw [isBlank_append_toString] at hblank
    cases hblank
  rw [tellApart, mem_tellApartFrom_iff hplain, and_iff_left (List.not_mem_nil)]

/-- A member of a structure is named by one underscore if a field is named by separators. -/
theorem underscore_mem_fieldNames_iff (s : RecordDeclaration) :
    "_" ∈ fieldNames s ↔ ∃ f ∈ s.fields, f.name.toList.all isSeparator := by
  rw [fieldNames, underscore_mem_tellApart_iff, List.mem_map]
  exact exists_congr fun f => and_congr_right fun _ => memberName_eq_underscore_iff f.name

theorem underscore_mem_constantNames_iff (s : EnumDeclaration) :
    "_" ∈ constantNames s ↔ ∃ v ∈ s.members, v.name.toList.all isSeparator := by
  rw [constantNames, underscore_mem_tellApart_iff, List.mem_map]
  exact exists_congr fun v => and_congr_right fun _ => constantName_eq_underscore_iff v.name

end Rust

/-- A blank name is an identifier of underscores alone. -/
theorem isIdentifier_of_isBlank {t : Target} {name : String} (h : isBlank t name) :
    isIdentifier name ∧ name.toList.all (· == '_') := by
  unfold isBlank at h
  split at h
  · rw [beq_iff_eq.1 h]
    decide
  · rw [Bool.and_eq_true, Bool.not_eq_true'] at h
    refine ⟨?_, h.2⟩
    obtain ⟨c, cs, hcs⟩ := List.exists_cons_of_ne_nil (List.isEmpty_eq_false_iff.1 h.1)
    have hall := h.2
    rw [hcs, List.all_cons, Bool.and_eq_true, List.all_eq_true] at hall
    rw [isIdentifier, hcs, isIdentifierChars, beq_iff_eq.1 hall.1, Bool.and_eq_true, List.all_eq_true]
    refine ⟨by decide, fun d hd => ?_⟩
    rw [beq_iff_eq.1 (hall.2 d hd)]
    decide
  · cases h

namespace Kotlin

theorem isBlank_backticked (name : String) : isBlank .kotlin (backticked name) = false := by
  rw [isBlank, backticked, String.toList_ofList, List.cons_append, List.all_cons]
  exact Bool.and_false _

/-- A member is named by underscores if its attribute is. -/
theorem isBlank_memberName (name : String) :
    isBlank .kotlin (naming.memberName name) = isBlank .kotlin name := by
  rw [memberName_eq]
  split
  · rfl
  · rename_i h
    rw [isBlank_backticked, eq_comm, ← Bool.not_eq_true]
    intro hblank
    obtain ⟨hid, hall⟩ := isIdentifier_of_isBlank hblank
    refine h ⟨hid, ?_⟩
    rw [← Bool.not_eq_true]
    intro hreserved
    rw [NameRules.all_underscore_of_isReserved (wordsEndInLetters .kotlin) hreserved] at hall
    cases hall

end Kotlin

end SchemaSnippets.Target

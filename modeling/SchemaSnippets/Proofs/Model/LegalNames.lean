import SchemaSnippets.Proofs.Model.DeclarationNames
import SchemaSnippets.Proofs.Target.Identifiers

/-!
# Names that a language accepts

The names of declarations as they are given, with searches that have no bound, and what is true of
every name that is given so.

* `Given c shorts n x` : `x` is the name of the declaration `n`, one of those with the short names
  `shorts`;
* `Gives c shorts a ns b` : naming the declarations `ns` one after the other leads from `a` to `b`;
  `gives_foldl` : naming always ends;
* `Given.isIdentifier`, `Given.notMem_reserved` : a name is an identifier and not reserved;
* `nameSource` : the text that a name is made from; `Given.eq_or_numbered`, `exists_get?_nameSource` : the
  name made from it is given, to this declaration unless it was taken before;
* `ofNames_tells_apart` : the names of a target's declarations.
-/

namespace SchemaSnippets.Model.DeclarationNames
open Data Schema Target

/-! ## One name -/

/-- A short name that nothing shares stays. Any other declaration has the first free name among its
scoped name and the numbered ones behind it. -/
inductive Given (c : NameRules) (shorts : List String) (n : QualifiedName) : String → Prop where
  | unshared (hu : isUnshared shorts (shortName c n)) : Given c shorts n (shortName c n)
  | shared {x : String} {taken : List String} (hu : ¬ isUnshared shorts (shortName c n))
      (hx : FirstFree taken (scopedName c n) (fun i => scopedName c n ++ toString i) x) :
      Given c shorts n x

section Given
variable {c : NameRules} {shorts : List String} {n : QualifiedName} {x : String}

theorem exists_scopedName_eq (c : NameRules) (n : QualifiedName) :
    ∃ name, scopedName c n = c.declarationName name := by
  unfold scopedName shortName
  split
  · exact ⟨_, rfl⟩
  · exact ⟨_, rfl⟩

/-- A name is one that was made fit for a declaration, or such a name with a number behind it. -/
theorem Given.exists_declarationName (h : Given c shorts n x) :
    ∃ name, x = c.declarationName name ∨ ∃ i : Nat, x = c.declarationName name ++ toString i := by
  cases h with
  | unshared _ => exact ⟨_, Or.inl rfl⟩
  | shared _ hx =>
      obtain ⟨name, hname⟩ := exists_scopedName_eq c n
      refine ⟨name, ?_⟩
      rw [← hname]
      cases hx with
      | own _ => exact Or.inl rfl
      | suffixed _ _ _ => exact Or.inr ⟨_, rfl⟩

theorem Given.isIdentifier (h : Given c shorts n x) : isIdentifier x := by
  obtain ⟨name, rfl | ⟨i, rfl⟩⟩ := h.exists_declarationName
  · exact NameRules.isIdentifier_legalize c _
  · exact isIdentifier_append (NameRules.isIdentifier_legalize c _) (all_inIdentifier_toString i)

theorem Given.notMem_reserved (hc : c.WordsEndInLetters) (h : Given c shorts n x) :
    x ∉ c.reserved := by
  have hfree : c.isReserved x = false := by
    obtain ⟨name, rfl | ⟨i, rfl⟩⟩ := h.exists_declarationName
    · exact NameRules.isReserved_legalize hc _
    · exact NameRules.isReserved_append_toString hc _ i
  intro hmem
  rw [NameRules.isReserved, List.contains_iff_mem.2 hmem] at hfree
  exact Bool.noConfusion hfree

/-- What the name of a declaration is made from: its short name, with the scope in front if another one shares
it. -/
def nameSource (c : NameRules) (shorts : List String) (n : QualifiedName) : String :=
  if isUnshared shorts (shortName c n) ∨ n.scope = "" then n.short else n.scope ++ "." ++ n.short

theorem declarationName_nameSource_of_unshared (h : isUnshared shorts (shortName c n)) :
    c.declarationName (nameSource c shorts n) = shortName c n := by
  rw [nameSource, if_pos (Or.inl h), shortName]

theorem declarationName_nameSource_of_shared (h : ¬ isUnshared shorts (shortName c n)) :
    c.declarationName (nameSource c shorts n) = scopedName c n := by
  unfold nameSource scopedName
  by_cases hscope : n.scope = ""
  · rw [if_pos (Or.inr hscope), if_pos hscope, shortName]
  · rw [if_neg (not_or.2 ⟨h, hscope⟩), if_neg hscope]

/-- A declaration has the name that is made for it, or that name with a number. -/
theorem Given.eq_or_numbered (h : Given c shorts n x) :
    x = c.declarationName (nameSource c shorts n) ∨
      ∃ i : Nat, x = c.declarationName (nameSource c shorts n) ++ toString i := by
  cases h with
  | unshared hu => exact Or.inl (declarationName_nameSource_of_unshared hu).symm
  | shared hu hx =>
      rw [declarationName_nameSource_of_shared hu]
      cases hx with
      | own _ => exact Or.inl rfl
      | suffixed _ _ _ => exact Or.inr ⟨_, rfl⟩

end Given

/-! ## All names -/

/-- Before the first name is given, the short names that nothing shares are taken. -/
def Assignment.start (shorts : List String) : Assignment :=
  ⟨shorts.filter (isUnshared shorts), []⟩

/-- Declarations get their names in order, each name being taken from then on. -/
inductive Gives (c : NameRules) (shorts : List String) :
    Assignment → List QualifiedName → Assignment → Prop where
  | nil {a : Assignment} : Gives c shorts a [] a
  | unshared {a b : Assignment} {n : QualifiedName} {ns : List QualifiedName}
      (hu : isUnshared shorts (shortName c n))
      (rest : Gives c shorts ⟨a.taken, setEntry n.key (shortName c n) a.names⟩ ns b) :
      Gives c shorts a (n :: ns) b
  | shared {a b : Assignment} {n : QualifiedName} {ns : List QualifiedName} {x : String}
      (hu : ¬ isUnshared shorts (shortName c n))
      (hx : FirstFree a.taken (scopedName c n) (fun i => scopedName c n ++ toString i) x)
      (rest : Gives c shorts ⟨x :: a.taken, setEntry n.key x a.names⟩ ns b) :
      Gives c shorts a (n :: ns) b

section Gives
variable {c : NameRules} {shorts : List String} {a b : Assignment} {ns : List QualifiedName}

/-- Naming ends, and with the names that the bounded searches find. -/
theorem gives_foldl (c : NameRules) (shorts : List String) (a : Assignment)
    (ns : List QualifiedName) : Gives c shorts a ns (ns.foldl (Assignment.assign c shorts) a) := by
  induction ns generalizing a with
  | nil => exact .nil
  | cons n ns ih =>
      rw [List.foldl_cons]
      by_cases hu : isUnshared shorts (shortName c n)
      · refine .unshared hu ?_
        have hassign : a.assign c shorts n =
            ⟨a.taken, setEntry n.key (shortName c n) a.names⟩ := if_pos hu
        rw [hassign]
        exact ih _
      · refine .shared hu (firstFree_freshName (numbered_injective _) a.taken _) ?_
        have hassign : a.assign c shorts n = ⟨_ :: a.taken, setEntry n.key _ a.names⟩ := if_neg hu
        rw [hassign]
        exact ih _

/-- A declaration that is not named keeps the name that it has. -/
theorem Gives.lookup_eq (h : Gives c shorts a ns b) {k : String} (hk : k ∉ ns.map (·.key)) :
    b.names.lookup k = a.names.lookup k := by
  induction h with
  | nil => rfl
  | unshared _ _ ih | shared _ _ _ ih =>
      rw [List.map_cons, List.mem_cons, not_or] at hk
      rw [ih hk.2, lookup_setEntry, if_neg hk.1]

/-- Each of the declarations gets the name that is its own. -/
theorem Gives.given (h : Gives c shorts a ns b) (hns : (ns.map (·.key)).Nodup) {n : QualifiedName}
    (hn : n ∈ ns) : ∃ x, b.names.lookup n.key = some x ∧ Given c shorts n x := by
  induction h with
  | nil => cases hn
  | @unshared a b m ns hu rest ih =>
      rw [List.map_cons, List.nodup_cons] at hns
      rcases List.mem_cons.1 hn with rfl | hn
      · refine ⟨shortName c n, ?_, .unshared hu⟩
        rw [rest.lookup_eq hns.1, lookup_setEntry, if_pos rfl]
      · exact ih hns.2 hn
  | @shared a b m ns x hu hx rest ih =>
      rw [List.map_cons, List.nodup_cons] at hns
      rcases List.mem_cons.1 hn with rfl | hn
      · refine ⟨x, ?_, .shared hu hx⟩
        rw [rest.lookup_eq hns.1, lookup_setEntry, if_pos rfl]
      · exact ih hns.2 hn

/-- The name that is made for a declaration is taken, or given to one of them. -/
theorem Gives.nameSource_mem_taken_or (h : Gives c shorts a ns b) (hns : (ns.map (·.key)).Nodup)
    {n : QualifiedName} (hn : n ∈ ns) :
    c.declarationName (nameSource c shorts n) ∈ a.taken ∨
      ∃ m ∈ ns, b.names.lookup m.key = some (c.declarationName (nameSource c shorts n)) := by
  induction h with
  | nil => cases hn
  | @unshared a b m ns hu rest ih =>
      rw [List.map_cons, List.nodup_cons] at hns
      rcases List.mem_cons.1 hn with rfl | hn
      · refine Or.inr ⟨n, List.mem_cons_self, ?_⟩
        rw [rest.lookup_eq hns.1, lookup_setEntry, if_pos rfl, declarationName_nameSource_of_unshared hu]
      · refine (ih hns.2 hn).imp_right ?_
        rintro ⟨k, hk, hlookup⟩
        exact ⟨k, List.mem_cons_of_mem _ hk, hlookup⟩
  | @shared a b m ns x hu hx rest ih =>
      rw [List.map_cons, List.nodup_cons] at hns
      have hgiven : b.names.lookup m.key = some x := by
        rw [rest.lookup_eq hns.1, lookup_setEntry, if_pos rfl]
      rcases List.mem_cons.1 hn with rfl | hn
      · rw [declarationName_nameSource_of_shared hu]
        cases hx with
        | own _ => exact Or.inr ⟨n, List.mem_cons_self, hgiven⟩
        | suffixed hbase _ _ => exact Or.inl hbase
      · rcases ih hns.2 hn with htaken | ⟨k, hk, hlookup⟩
        · rcases List.mem_cons.1 htaken with heq | htaken
          · exact Or.inr ⟨m, List.mem_cons_self, heq ▸ hgiven⟩
          · exact Or.inl htaken
        · exact Or.inr ⟨k, List.mem_cons_of_mem _ hk, hlookup⟩

end Gives

/-- The name that is made for a declaration is the name of some declaration. -/
theorem exists_get?_nameSource (c : NameRules) {ns : List QualifiedName} (hns : (ns.map (·.key)).Nodup)
    {n : QualifiedName} (hn : n ∈ ns) :
    ∃ m ∈ ns, (ofNames c ns).get? m.key =
      some (c.declarationName (nameSource c (ns.map (shortName c)) n)) := by
  have hgives := gives_foldl c (ns.map (shortName c)) (.start (ns.map (shortName c))) ns
  rcases hgives.nameSource_mem_taken_or hns hn with htaken | hlookup
  · -- only short names that nothing shares are taken from the start
    obtain ⟨hshort, hu⟩ := List.mem_filter.1 htaken
    obtain ⟨m, hm, heq⟩ := List.mem_map.1 hshort
    obtain ⟨x, hx, hgiven⟩ := hgives.given hns hm
    rw [← heq] at hu ⊢
    cases hgiven with
    | unshared _ => exact ⟨m, hm, hx⟩
    | shared hshared _ => exact absurd hu hshared
  · exact hlookup

/-- A short name is unshared if it belongs to one declaration. -/
theorem isUnshared_of_unique {c : NameRules} {ns : List QualifiedName} {n : QualifiedName}
    (hns : ns.Nodup) (hn : n ∈ ns) (h : ∀ m ∈ ns, shortName c m = shortName c n → m = n) :
    isUnshared (ns.map (shortName c)) (shortName c n) := by
  rw [isUnshared, beq_iff_eq, List.count_eq_countP, List.countP_map]
  have hsame : ∀ m ∈ ns, ((· == shortName c n) ∘ shortName c) m ↔ (m == n) := by
    intro m hm
    rw [Function.comp_apply, beq_iff_eq, beq_iff_eq]
    constructor
    · exact h m hm
    · rintro rfl
      rfl
  rw [List.countP_congr hsame, ← List.count_eq_countP]
  exact List.count_eq_one_of_mem hns hn

/-- What is true of the names of the declarations `ns`. -/
structure ToldApart (c : NameRules) (ns : List QualifiedName) : Prop where
  /-- Naming ends, without a bound on its searches. -/
  ends : ∃ b, Gives c (ns.map (shortName c)) (.start (ns.map (shortName c))) ns b ∧
    b.names = (ofNames c ns).names
  /-- Every declaration has a name that the language accepts. -/
  legal : ∀ n ∈ ns, ∃ x, (ofNames c ns).get? n.key = some x ∧ isIdentifier x ∧ x ∉ c.reserved
  /-- A short name that no other declaration has stays. -/
  short : ∀ n ∈ ns, (∀ m ∈ ns, shortName c m = shortName c n → m = n) →
    (ofNames c ns).get? n.key = some (shortName c n)
  /-- No name belongs to two declarations. -/
  distinct : ∀ n ∈ ns, ∀ m ∈ ns, (ofNames c ns).get? n.key = (ofNames c ns).get? m.key → n = m

/-- Every target tells declarations with different keys apart. -/
theorem ofNames_tells_apart (t : Target) (ns : List QualifiedName)
    (hns : (ns.map (·.key)).Nodup) : ToldApart t.profile.naming ns := by
  have hgives : ∀ c, Gives c (ns.map (shortName c)) (.start (ns.map (shortName c))) ns _ :=
    fun c => gives_foldl c _ _ ns
  refine ⟨⟨_, hgives _, rfl⟩, fun n hn => ?_, fun n hn hown => ?_, fun n hn m hm heq => ?_⟩
  · obtain ⟨x, hx, hgiven⟩ := (hgives _).given hns hn
    exact ⟨x, hx, hgiven.isIdentifier, hgiven.notMem_reserved (wordsEndInLetters t)⟩
  · obtain ⟨x, hx, hgiven⟩ := (hgives _).given hns hn
    cases hgiven with
    | unshared _ => exact hx
    | shared hu _ => exact absurd (isUnshared_of_unique (List.Nodup.of_map _ hns) hn hown) hu
  · obtain ⟨x, hx, -⟩ := (hgives _).given hns hn
    have hkeys : n.key = m.key := get?_ofNames_inj t.profile.naming ns hx (heq ▸ hx)
    exact List.inj_on_of_nodup_map hns hn hm hkeys

def filmNames : List QualifiedName :=
  [.ofFull "films.Film", .ofFull "archive.Film", .ofFull "FilmsFilm"]

/-- The scoped name of the first film is the short name of the last one, which keeps it. -/
theorem filmNames_told_apart :
    (filmNames.map (·.key)).Nodup ∧
    (ofNames Kotlin.naming filmNames).names = [("films.Film", "FilmsFilm2"),
      ("archive.Film", "ArchiveFilm"), ("FilmsFilm", "FilmsFilm")] ∧
    ToldApart Kotlin.naming filmNames :=
  ⟨by decide +kernel, by decide +kernel, ofNames_tells_apart .kotlin filmNames (by decide +kernel)⟩

end SchemaSnippets.Model.DeclarationNames

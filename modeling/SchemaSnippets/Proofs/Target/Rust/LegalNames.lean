import SchemaSnippets.Proofs.Target.Rust.Items
import SchemaSnippets.Proofs.Target.Rust.MemberNames

/-!
# Legal names in Rust

The name of a member is an identifier: one that is no reserved word, or a reserved word with the mark of
a raw identifier. So the mark tells nothing that the rest of the name does not tell, and names that differ
still differ without it.

* `IsLegal` : such names; `isLegal_memberName`, `IsLegal.numbered` : members have them, numbers or not;
* `isLegal_of_mem_fieldNames`, `isLegal_of_mem_constantNames` : so do the members of declarations;
* `IsLegal.eq_of_withoutMark_eq` : legal names are known by what is behind the mark;
* `nodup_fieldNames` : the members of a structure have different names.
-/

namespace SchemaSnippets.Target.Rust
open Data Model

/-- An identifier that is no reserved word, or one that is and has the mark. -/
inductive IsLegal : String → Prop where
  | plain {name : String} (h : isIdentifier name) (hreserved : naming.isReserved name = false) :
      IsLegal name
  | raw {name : String} (h : isIdentifier name) (hreserved : naming.isReserved name)
      (hraw : name ∉ neverRaw) : IsLegal ("r#" ++ name)

variable {name other separator : String}

/-! ## Names of members -/

/-- No reserved word is one that has been made from a name that is no identifier. -/
theorem isReserved_sanitize (name : String) : naming.isReserved (sanitize name) = false := by
  have hfirst : ∀ w ∈ reserved, w.toList.head? ≠ some '_' := by decide
  rw [← Bool.not_eq_true, NameRules.isReserved, List.contains_iff_mem]
  intro hmem
  refine hfirst _ hmem ?_
  rw [sanitize, String.toList_ofList]
  rfl

theorem isLegal_escape (h : naming.isReserved name ∨ isIdentifier name = false) :
    IsLegal (escape name) := by
  unfold escape
  by_cases hnever : neverRaw.contains name
  · rw [if_pos hnever]
    have hall : ∀ w ∈ neverRaw, isIdentifier (w ++ "_") ∧ naming.isReserved (w ++ "_") = false := by
      decide +kernel
    obtain ⟨hid, hreserved⟩ := hall name (List.contains_iff_mem.1 hnever)
    exact .plain hid hreserved
  · rw [if_neg hnever]
    by_cases hid : isIdentifier name
    · rw [if_pos hid]
      have hreserved : naming.isReserved name := h.resolve_right (by rw [hid]; decide)
      exact .raw hid hreserved fun hmem => hnever (List.contains_iff_mem.2 hmem)
    · rw [if_neg hid]
      exact .plain (isIdentifier_sanitize name) (isReserved_sanitize name)

theorem isLegal_memberName (name : String) : IsLegal (naming.memberName name) := by
  unfold NameRules.memberName
  dsimp only
  split
  · rename_i h
    refine isLegal_escape ?_
    rwa [Bool.or_eq_true, Bool.and_eq_true, Bool.not_eq_true', Bool.not_eq_true',
      and_iff_right (by rfl)] at h
  · rename_i h
    rw [Bool.or_eq_true, not_or, Bool.not_eq_true', Bool.not_eq_false, Bool.and_eq_true, not_and,
      Bool.not_eq_true] at h
    exact .plain h.2 (h.1 rfl)

theorem naming_wordsEndInLetters : naming.WordsEndInLetters :=
  wordsEndInLetters .rust

theorem isLegal_legalize (name : String) : IsLegal (naming.legalize name) :=
  .plain (NameRules.isIdentifier_legalize naming name)
    (NameRules.isReserved_legalize naming_wordsEndInLetters name)

theorem isLegal_constantName (name : String) : IsLegal (constantName name) := by
  unfold constantName NameRules.declarationName
  exact isLegal_legalize _

theorem IsLegal.isIdentifier_withoutMark (h : IsLegal name) : isIdentifier (withoutMark name) := by
  cases h with
  | plain h _ => rwa [withoutMark_of_plain (all_inIdentifier_of_isIdentifier h)]
  | raw h _ _ => rwa [withoutMark_mark]

/-- A number behind a name makes it no reserved word. -/
theorem IsLegal.numbered (h : IsLegal name) (hseparator : separator.toList.all inIdentifier) (i : Nat) :
    IsLegal (withoutMark name ++ separator ++ toString i) :=
  .plain (isIdentifier_append (isIdentifier_append h.isIdentifier_withoutMark hseparator)
    (all_inIdentifier_toString i)) (NameRules.isReserved_append_toString naming_wordsEndInLetters _ i)

theorem isLegal_of_mem_tellApartFrom {taken names : List String} (h : ∀ n ∈ names, IsLegal n)
    (hseparator : separator.toList.all inIdentifier) :
    ∀ m ∈ tellApartFrom taken separator names, IsLegal m :=
  forall_mem_tellApartFrom h fun n hn i => (h n hn).numbered hseparator i

theorem isLegal_of_mem_fieldNames {s : RecordDeclaration} : ∀ name ∈ fieldNames s, IsLegal name := by
  refine isLegal_of_mem_tellApartFrom ?_ (by decide)
  rw [List.forall_mem_map]
  exact fun f _ => isLegal_memberName f.name

theorem isLegal_of_mem_constantNames {s : EnumDeclaration} : ∀ name ∈ constantNames s, IsLegal name := by
  refine isLegal_of_mem_tellApartFrom ?_ (by decide)
  rw [List.forall_mem_map]
  exact fun v _ => isLegal_constantName v.name

/-! ## Different names -/

/-- A reserved word is not legal without the mark, and other names do not have it. -/
theorem IsLegal.eq_of_withoutMark_eq (h : IsLegal name) (h' : IsLegal other)
    (heq : withoutMark name = withoutMark other) : name = other := by
  cases h with
  | plain hid hreserved =>
      rw [withoutMark_of_plain (all_inIdentifier_of_isIdentifier hid)] at heq
      cases h' with
      | plain hid' _ => rwa [withoutMark_of_plain (all_inIdentifier_of_isIdentifier hid')] at heq
      | raw _ hreserved' _ =>
          rw [withoutMark_mark] at heq
          rw [heq, hreserved'] at hreserved
          cases hreserved
  | raw hid hreserved _ =>
      rw [withoutMark_mark] at heq
      cases h' with
      | plain hid' hreserved' =>
          rw [withoutMark_of_plain (all_inIdentifier_of_isIdentifier hid')] at heq
          rw [← heq, hreserved] at hreserved'
          cases hreserved'
      | raw _ _ _ =>
          rw [withoutMark_mark] at heq
          rw [heq]

/-- Names told apart differ from each other and from what is taken. -/
theorem nodup_tellApartFrom (separator : String) (taken names : List String) :
    (tellApartFrom taken separator names).Nodup ∧
      ∀ m ∈ tellApartFrom taken separator names, m ∉ taken := by
  induction names generalizing taken with
  | nil => exact ⟨List.nodup_nil, List.forall_mem_nil _⟩
  | cons n ns ih =>
      let first := freshName taken n fun i => withoutMark n ++ separator ++ toString i
      have hfirst : first ∉ taken := freshName_notMem (numbered_injective _) taken n
      obtain ⟨hrest, hapart⟩ := ih (first :: taken)
      refine ⟨List.nodup_cons.2 ⟨fun hmem => ?_, hrest⟩, fun m hm => ?_⟩
      · exact hapart first hmem (List.mem_cons_self ..)
      · rcases List.mem_cons.1 hm with rfl | hm
        · exact hfirst
        · exact fun htaken => hapart m hm (List.mem_cons_of_mem _ htaken)

theorem nodup_fieldNames (s : RecordDeclaration) : ((fieldNames s).map withoutMark).Nodup :=
  (nodup_tellApartFrom "_" [] _).1.map_on fun m hm n hn =>
    (isLegal_of_mem_fieldNames m hm).eq_of_withoutMark_eq (isLegal_of_mem_fieldNames n hn)

end SchemaSnippets.Target.Rust

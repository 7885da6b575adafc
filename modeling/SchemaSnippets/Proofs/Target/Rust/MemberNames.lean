import SchemaSnippets.Proofs.Data.Fresh
import SchemaSnippets.Proofs.Target.Identifiers
import SchemaSnippets.Proofs.Text.Case
import SchemaSnippets.Target.Naming.Rust

/-!
# Names of members in Rust

A member of a structure is named by an identifier in ASCII, perhaps with the mark of a raw one. On
such names the camel case of a name is what the attribute for camel case makes of it, although the
one knows the cases of all letters and the other those of ASCII.

* `Plain name` : all characters belong to an identifier in ASCII; `plain_withoutMark_memberName` :
  the name of a member is plain behind its mark;
* `forall_mem_tellApartFrom` : telling names apart does nothing but put numbers behind them;
* `attributeCamel` : what the attribute makes of a name; `camel_eq_attributeCamel` : on plain names
  that is their camel case.
-/

namespace SchemaSnippets.Target.Rust
open Data Text Unicode

/-! ## Plain names -/

/-- All characters belong to an identifier. -/
def Plain (name : String) : Prop :=
  name.toList.all inIdentifier

theorem plain_append {name tail : String} (h : Plain name) (ht : Plain tail) : Plain (name ++ tail) :=
  all_append h ht

/-- A plain name has no mark. -/
theorem withoutMark_of_plain {name : String} (h : Plain name) : withoutMark name = name := by
  unfold withoutMark
  split
  · rename_i cs hcs
    rw [Plain, hcs, List.all_cons, List.all_cons] at h
    exact absurd h (by simp [show inIdentifier '#' = false by decide])
  · rfl

theorem withoutMark_mark (name : String) : withoutMark ("r#" ++ name) = name := by
  unfold withoutMark
  rw [String.toList_append]
  exact String.ofList_toList

theorem plain_withoutMark_of_plain {name : String} (h : Plain name) : Plain (withoutMark name) := by
  rwa [withoutMark_of_plain h]

theorem plain_withoutMark_escape (name : String) : Plain (withoutMark (escape name)) := by
  unfold escape
  split
  · rename_i h
    have hplain : ∀ w ∈ neverRaw, (w ++ "_").toList.all inIdentifier := by decide
    exact plain_withoutMark_of_plain (hplain name (List.contains_iff_mem.1 h))
  · split
    · rename_i h
      rw [withoutMark_mark]
      exact all_inIdentifier_of_isIdentifier h
    · exact plain_withoutMark_of_plain (all_inIdentifier_of_isIdentifier (isIdentifier_sanitize name))

/-- A name of a member is plain behind its mark. -/
theorem plain_withoutMark_memberName (name : String) :
    Plain (withoutMark (naming.memberName name)) := by
  unfold NameRules.memberName
  dsimp only
  split
  · exact plain_withoutMark_escape _
  · rename_i h
    have hid : isIdentifier (naming.caseOfMembers name) := by
      rw [Bool.or_eq_true, not_or, Bool.not_eq_true', Bool.not_eq_false] at h
      exact h.2
    exact plain_withoutMark_of_plain (all_inIdentifier_of_isIdentifier hid)

/-- What holds of names and of all numbered ones holds of the names told apart. -/
theorem forall_mem_tellApartFrom {P : String → Prop} {separator : String} {taken names : List String}
    (hnames : ∀ n ∈ names, P n)
    (hnumbered : ∀ n ∈ names, ∀ i : Nat, P (withoutMark n ++ separator ++ toString i)) :
    ∀ m ∈ tellApartFrom taken separator names, P m := by
  induction names generalizing taken with
  | nil =>
      intro m hm
      cases hm
  | cons n ns ih =>
      have hfresh : P (freshName taken n fun i => withoutMark n ++ separator ++ toString i) := by
        rcases freshName_eq_or taken n fun i => withoutMark n ++ separator ++ toString i with h | h
        · rw [h]
          exact hnames n (List.mem_cons_self ..)
        · obtain ⟨i, h⟩ := h
          rw [h]
          exact hnumbered n (List.mem_cons_self ..) i
      intro m hm
      rcases List.mem_cons.1 hm with rfl | hm
      · exact hfresh
      · exact ih (fun k hk => hnames k (List.mem_cons_of_mem _ hk))
          (fun k hk => hnumbered k (List.mem_cons_of_mem _ hk)) m hm

/-! ## Camel case -/

/-- The characters with the first one as a capital, in ASCII. -/
def capitalized : List Char → List Char
  | [] => []
  | c :: cs => c.toUpper :: cs

/-- The characters with the first one as a small letter, in ASCII. -/
def uncapitalized : List Char → List Char
  | [] => []
  | c :: cs => c.toLower :: cs

/-- What the attribute for camel case makes of an identifier: the pieces between underscores, each
with a capital first, joined and with a small letter first. Only letters of ASCII change. -/
def attributeCamel (name : String) : String :=
  String.ofList (uncapitalized ((name.toList.splitOn '_').flatMap capitalized))

theorem isSeparator_of_inIdentifier {c : Char} (h : inIdentifier c) :
    isSeparator c = (c == '_') := by
  have hneq : ∀ d, inIdentifier d = false → (c == d) = false := by
    intro d hd
    rw [beq_eq_false_iff_ne]
    rintro rfl
    rw [h] at hd
    cases hd
  unfold isSeparator
  rw [hneq '-' (by decide), hneq ' ' (by decide), hneq '.' (by decide)]
  simp

theorem upperOf_of_inIdentifier {c : Char} (h : inIdentifier c) : upperOf c = [c.toUpper] :=
  if_pos (toNat_lt_of_inIdentifier h)

/-- Joined segments are joined pieces; within a piece its rest comes first. -/
theorem pascalChars_eq {cs : List Char} (h : cs.all inIdentifier) :
    pascalChars true cs = (cs.splitOn '_').flatMap capitalized ∧
      ∃ p ps, cs.splitOn '_' = p :: ps ∧ pascalChars false cs = p ++ ps.flatMap capitalized := by
  induction cs with
  | nil => exact ⟨rfl, [], [], rfl, rfl⟩
  | cons c cs ih =>
      rw [List.all_cons, Bool.and_eq_true] at h
      obtain ⟨hstart, p, ps, hsplit, hwithin⟩ := ih h.2
      rw [List.splitOn_cons_eq_if_modifyHead, pascalChars, pascalChars,
        isSeparator_of_inIdentifier h.1]
      by_cases hc : c == '_'
      · rw [if_pos hc, if_pos hc, if_pos hc]
        refine ⟨?_, [], cs.splitOn '_', rfl, ?_⟩
        · rw [hstart]
          rfl
        · rw [hstart]
          rfl
      · rw [if_neg hc, if_neg hc, if_neg hc, hsplit, hwithin, if_pos rfl, if_neg Bool.false_ne_true,
          upperOf_of_inIdentifier h.1]
        exact ⟨rfl, c :: p, ps, rfl, rfl⟩

theorem toNat_toUpper_lt {c : Char} (h : c.toNat < 0x80) : c.toUpper.toNat < 0x80 :=
  Unicode.forall_ascii (P := fun c => c.toUpper.toNat < 0x80) (by decide) h

theorem toNat_lt_of_mem_pascalChars {cs : List Char} (h : cs.all inIdentifier) (start : Bool) :
    ∀ c ∈ pascalChars start cs, c.toNat < 0x80 := by
  induction cs generalizing start with
  | nil =>
      intro c hc
      cases hc
  | cons d cs ih =>
      rw [List.all_cons, Bool.and_eq_true] at h
      have hd := toNat_lt_of_inIdentifier h.1
      intro c hc
      rw [pascalChars] at hc
      split at hc
      · exact ih h.2 true c hc
      · rcases List.mem_append.1 hc with hc | hc
        · split at hc
          · rw [upperOf_of_inIdentifier h.1, List.mem_singleton] at hc
            rw [hc]
            exact toNat_toUpper_lt hd
          · rw [List.mem_singleton] at hc
            rwa [hc]
        · exact ih h.2 false c hc

theorem lowerFirst_eq {cs : List Char} (h : ∀ c ∈ cs, c.toNat < 0x80) :
    lowerFirst cs = uncapitalized cs := by
  cases cs with
  | nil => rfl
  | cons c cs =>
      rw [lowerFirst, lowerOf, if_pos (h c (List.mem_cons_self ..))]
      rfl

/-- On plain names camel case is what the attribute makes of a name. -/
theorem camel_eq_attributeCamel {name : String} (h : Plain name) :
    camel name = attributeCamel name := by
  unfold camel attributeCamel
  rw [lowerFirst_eq (toNat_lt_of_mem_pascalChars h true), (pascalChars_eq h).1]

end SchemaSnippets.Target.Rust

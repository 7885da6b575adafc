import SchemaSnippets.Target.Basic

/-!
# Identifiers

A name that is made fit for a declaration is an identifier in ASCII and no reserved word, whatever
it was made from.

* `isIdentifier_sanitize`, `isIdentifier_append` : identifiers from any name, and longer ones;
* `isIdentifier_legalize`, `isReserved_legalize` : names of declarations;
* `NameRules.WordsEndInLetters` : what keeps a name with `_` or a number behind it from being
  reserved; `wordsEndInLetters` : it holds for every target;
* `Kotlin.memberName_eq` : which names of members stand between backticks.
-/

namespace SchemaSnippets.Target

/-! ## Characters -/

/-- What is true of the characters of two texts is true of those of the text they make. -/
theorem all_append {p : Char → Bool} {s t : String} (hs : s.toList.all p) (ht : t.toList.all p) :
    (s ++ t).toList.all p := by
  rw [String.toList_append, List.all_append, hs, ht]
  rfl

theorem inIdentifier_of_startsIdentifier {c : Char} (h : startsIdentifier c) : inIdentifier c := by
  unfold startsIdentifier at h
  unfold inIdentifier
  rw [Bool.or_eq_true] at h ⊢
  rcases h with h | h
  · left
    rw [Char.isAlphanum, h, Bool.true_or]
  · exact Or.inr h

theorem inIdentifier_of_isDigit {c : Char} (h : c.isDigit) : inIdentifier c := by
  rw [inIdentifier, Char.isAlphanum, h, Bool.or_true, Bool.true_or]

theorem isAlpha_iff_toNat {c : Char} :
    c.isAlpha ↔ (65 ≤ c.toNat ∧ c.toNat ≤ 90) ∨ (97 ≤ c.toNat ∧ c.toNat ≤ 122) := by
  show (c.isUpper || c.isLower) = true ↔ _
  rw [Bool.or_eq_true]
  refine or_congr decide_eq_true_iff ?_
  show (decide ('a'.val ≤ c.val) && decide (c.val ≤ 'z'.val)) = true ↔ _
  rw [Bool.and_eq_true]
  exact and_congr decide_eq_true_iff decide_eq_true_iff

theorem toNat_lt_of_inIdentifier {c : Char} (h : inIdentifier c) : c.toNat < 0x80 := by
  rw [inIdentifier, Char.isAlphanum, Bool.or_eq_true, Bool.or_eq_true, isAlpha_iff_toNat,
    Char.isDigit_iff_toNat, beq_iff_eq] at h
  rcases h with (h | h) | rfl
  · omega
  · have hnine : '9'.toNat = 57 := rfl
    omega
  · decide

theorem isAlpha_of_isDigit {c : Char} (h : c.isDigit) : c.isAlpha = false := by
  rw [← Bool.not_eq_true, isAlpha_iff_toNat]
  have hdigit : 48 ≤ c.toNat ∧ c.toNat ≤ 57 := Char.isDigit_iff_toNat.1 h
  omega

/-! ## Identifiers -/

theorem all_inIdentifier_of_isIdentifier {name : String} (h : isIdentifier name) :
    name.toList.all inIdentifier := by
  unfold isIdentifier at h
  cases hcs : name.toList with
  | nil => rfl
  | cons c cs =>
      rw [hcs, isIdentifierChars, Bool.and_eq_true] at h
      rw [List.all_cons, inIdentifier_of_startsIdentifier h.1, h.2]
      rfl

theorem toList_ne_nil_of_isIdentifier {name : String} (h : isIdentifier name) :
    name.toList ≠ [] := by
  unfold isIdentifier at h
  cases hcs : name.toList with
  | nil => simp [hcs, isIdentifierChars] at h
  | cons c cs => exact List.cons_ne_nil c cs

theorem isIdentifier_append {name tail : String} (h : isIdentifier name)
    (ht : tail.toList.all inIdentifier) : isIdentifier (name ++ tail) := by
  unfold isIdentifier at h ⊢
  rw [String.toList_append]
  cases hcs : name.toList with
  | nil => simp [hcs, isIdentifierChars] at h
  | cons c cs =>
      rw [hcs, isIdentifierChars, Bool.and_eq_true] at h
      rw [List.cons_append, isIdentifierChars, List.all_append, h.1, h.2, ht]
      rfl

theorem isIdentifier_sanitize (name : String) : isIdentifier (sanitize name) := by
  unfold isIdentifier sanitize
  rw [String.toList_ofList, isIdentifierChars, Bool.and_eq_true]
  refine ⟨by decide, List.all_eq_true.2 fun c hc => ?_⟩
  obtain ⟨d, -, rfl⟩ := List.mem_map.1 hc
  by_cases hd : inIdentifier d
  · rwa [if_pos hd]
  · rw [if_neg hd]
    decide

/-- A number is made of characters of an identifier. -/
theorem all_inIdentifier_toString (i : Nat) : (toString i).toList.all inIdentifier := by
  rw [Nat.toString_eq_ofList_toDigits, String.toList_ofList, List.all_eq_true]
  intro c hc
  exact inIdentifier_of_isDigit (Nat.isDigit_of_mem_toDigits (by decide) (by decide) hc)

/-! ## Reserved words -/

namespace NameRules
variable {c : NameRules}

/-- All reserved words end in a letter. -/
def WordsEndInLetters (c : NameRules) : Prop :=
  ∀ w ∈ c.reserved, w.toList.getLast?.any Char.isAlpha

instance (c : NameRules) : Decidable c.WordsEndInLetters :=
  inferInstanceAs (Decidable (∀ w ∈ c.reserved, _))

theorem isReserved_append_of_last (hc : c.WordsEndInLetters) {name tail : String} {last : Char}
    (hlast : tail.toList.getLast? = some last) (h : last.isAlpha = false) :
    c.isReserved (name ++ tail) = false := by
  rw [isReserved, ← Bool.not_eq_true, List.contains_iff_mem]
  intro hmem
  have hend := hc _ hmem
  rw [String.toList_append, List.getLast?_append, hlast, Option.some_or, Option.any_some, h] at hend
  exact Bool.noConfusion hend

theorem isReserved_append_toString (hc : c.WordsEndInLetters) (name : String) (i : Nat) :
    c.isReserved (name ++ toString i) = false := by
  have hdigits : (toString i).toList = Nat.toDigits 10 i := by
    rw [Nat.toString_eq_ofList_toDigits, String.toList_ofList]
  have hne : Nat.toDigits 10 i ≠ [] := Nat.toDigits_ne_nil
  have hdigit : ((Nat.toDigits 10 i).getLast hne).isDigit :=
    Nat.isDigit_of_mem_toDigits (by decide) (by decide) (List.getLast_mem hne)
  have hlast : (toString i).toList.getLast? = some ((Nat.toDigits 10 i).getLast hne) := by
    rw [hdigits, List.getLast?_eq_some_getLast hne]
  exact isReserved_append_of_last hc hlast (isAlpha_of_isDigit hdigit)

/-! ## Names of declarations -/

/-- A name made fit for a declaration is an identifier, with `_` behind it if that is reserved. -/
theorem exists_legalize_eq (c : NameRules) (name : String) :
    ∃ x, isIdentifier x ∧ c.legalize name = if c.isReserved x then x ++ "_" else x := by
  refine ⟨if isIdentifier name then name else sanitize name, ?_, rfl⟩
  by_cases hname : isIdentifier name
  · rwa [if_pos hname]
  · rw [if_neg hname]
    exact isIdentifier_sanitize name

theorem isIdentifier_legalize (c : NameRules) (name : String) : isIdentifier (c.legalize name) := by
  obtain ⟨x, hx, heq⟩ := exists_legalize_eq c name
  rw [heq]
  split
  · exact isIdentifier_append hx (by decide)
  · exact hx

theorem isReserved_legalize (hc : c.WordsEndInLetters) (name : String) :
    c.isReserved (c.legalize name) = false := by
  obtain ⟨x, -, heq⟩ := exists_legalize_eq c name
  rw [heq]
  split
  · have hlast : "_".toList.getLast? = some '_' := by decide
    exact isReserved_append_of_last hc hlast (by decide)
  · rename_i h
    rwa [Bool.not_eq_true] at h

end NameRules

theorem wordsEndInLetters (t : Target) : t.profile.naming.WordsEndInLetters := by
  cases t with
  | typescript => exact (by decide +kernel : TypeScript.naming.WordsEndInLetters)
  | kotlin => exact (by decide +kernel : Kotlin.naming.WordsEndInLetters)
  | rust => exact (by decide +kernel : Rust.naming.WordsEndInLetters)
  | json => exact (by decide : Neutral.naming.WordsEndInLetters)
  | sheets => exact (by decide : Neutral.naming.WordsEndInLetters)
  | unmapped language => exact (by decide : Neutral.naming.WordsEndInLetters)

/-! ## Names of members -/

/-- An identifier that is not reserved stays, and any other name stands between backticks. -/
theorem Kotlin.memberName_eq (name : String) :
    naming.memberName name =
      if isIdentifier name ∧ naming.isReserved name = false then name else backticked name := by
  unfold NameRules.memberName
  show (if (true && naming.isReserved name || !isIdentifier name) then backticked name else name) = _
  cases naming.isReserved name <;> cases isIdentifier name <;> rfl

end SchemaSnippets.Target

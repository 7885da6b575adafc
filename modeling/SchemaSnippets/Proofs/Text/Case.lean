import SchemaSnippets.Text.Case

/-!
# What the case of words leaves of a name

The separators of a name are dropped, or become single underscores between words. Nothing else is lost, since
the cases of a character are texts without separators.

* `leadsTo` : whether a pair of tables maps some character to nothing, or to a given one;
* `caseOf_ne_nil`, `eq_of_mem_caseOf` : the case of a character is a text, and without separators;
* `pascal_eq_empty_iff`, `snake_eq_empty_iff` : nothing is left if all was separators;
* `isSeparator_of_mem_pascal`, `head?_snake` : where no separator is left;
* `all_isSeparator_pascal`, `all_isSeparator_lowercase` : of a name with other characters some are left.
-/

namespace SchemaSnippets.Unicode
open Text

/-- What holds of the characters with the first numbers holds of all in ASCII. -/
theorem forall_ascii {P : Char → Prop} (h : ∀ n < 0x80, P (Char.ofNat n)) {c : Char}
    (hc : c.toNat < 0x80) : P c := by
  have hchar := h c.toNat hc
  rwa [Char.ofNat_toNat] at hchar

/-! ## Cases of characters -/

/-- Whether an entry of the tables maps a character to nothing, or to a text with the code point `n`. -/
def leadsTo (expansions : List (Nat × List Nat)) (shifts : List CaseShift) (n : Nat) : Bool :=
  expansions.any (fun e => e.2.isEmpty || (e.2.map Char.ofNat).contains (Char.ofNat n)) ||
    shifts.any fun s => s.range.first + s.offset ≤ n && n ≤ s.range.last + s.offset

section Tables
variable {expansions : List (Nat × List Nat)} {shifts : List CaseShift} {n : Nat} {c d : Char}

theorem mapCase_ne_nil (h : leadsTo expansions shifts n = false) : mapCase expansions shifts c ≠ [] := by
  rw [leadsTo, Bool.or_eq_false_iff] at h
  unfold mapCase
  split
  · rename_i ns hns
    obtain ⟨before, after, hsplit, -⟩ := List.lookup_eq_some_iff.1 hns
    have hentry := List.any_eq_false.1 h.1 (c.toNat, ns) (by simp [hsplit])
    rw [Bool.or_eq_true, not_or, List.isEmpty_iff] at hentry
    exact fun hnil => hentry.1 (List.map_eq_nil_iff.1 hnil)
  · split <;> exact List.cons_ne_nil _ _

/-- A character that no entry leads to comes from itself only. -/
theorem eq_of_mem_mapCase (h : leadsTo expansions shifts d.toNat = false) (hd : 0 < d.toNat)
    (hmem : d ∈ mapCase expansions shifts c) : d = c := by
  rw [leadsTo, Bool.or_eq_false_iff] at h
  unfold mapCase at hmem
  split at hmem
  · rename_i ns hns
    obtain ⟨before, after, hsplit, -⟩ := List.lookup_eq_some_iff.1 hns
    have hentry := List.any_eq_false.1 h.1 (c.toNat, ns) (by simp [hsplit])
    rw [Bool.or_eq_true, not_or, Char.ofNat_toNat, List.contains_iff_mem] at hentry
    exact absurd hmem hentry.2
  · split at hmem
    · rename_i s hs
      have hrange : s.range.contains c.toNat := by simpa using List.find?_some hs
      have hentry := List.any_eq_false.1 h.2 s (List.mem_of_find?_eq_some hs)
      simp only [CodeRange.contains, Bool.and_eq_true, decide_eq_true_eq] at hrange
      simp only [Bool.and_eq_true, decide_eq_true_eq, not_and] at hentry
      rw [List.mem_singleton] at hmem
      by_cases hvalid : (c.toNat + s.offset).toNat.isValidChar
      · have hcode : d.toNat = (c.toNat + s.offset).toNat := by
          rw [hmem, Char.ofNat, dif_pos hvalid]
          rfl
        omega
      · rw [Char.ofNat, dif_neg hvalid] at hmem
        rw [hmem] at hd
        exact absurd hd (by decide)
    · exact List.mem_singleton.1 hmem

/-- The case of a character: `ascii` tells it for ASCII, and the tables for the other characters. -/
def caseOf (ascii : Char → Char) (expansions : List (Nat × List Nat)) (shifts : List CaseShift)
    (c : Char) : List Char :=
  if c.toNat < 0x80 then [ascii c] else mapCase expansions shifts c

/-- The code points of the separators. -/
def separatorCodes : List Nat :=
  [0x5F, 0x2D, 0x20, 0x2E]

theorem toNat_of_isSeparator (h : isSeparator c) : c.toNat ∈ separatorCodes := by
  unfold isSeparator at h
  rw [Bool.or_eq_true, Bool.or_eq_true, Bool.or_eq_true, beq_iff_eq, beq_iff_eq, beq_iff_eq, beq_iff_eq] at h
  rcases h with ((rfl | rfl) | rfl) | rfl <;> decide

variable {ascii : Char → Char} (htable : ∀ n ∈ separatorCodes, leadsTo expansions shifts n = false)
include htable

theorem caseOf_ne_nil : caseOf ascii expansions shifts c ≠ [] := by
  unfold caseOf
  split
  · exact List.cons_ne_nil _ _
  · exact mapCase_ne_nil (htable 0x5F (by decide))

/-- A separator is the case of itself only, if it is so in ASCII and in the tables. -/
theorem eq_of_mem_caseOf (hascii : ∀ n < 0x80, isSeparator (ascii (Char.ofNat n)) →
      ascii (Char.ofNat n) = Char.ofNat n) (hd : isSeparator d)
    (h : d ∈ caseOf ascii expansions shifts c) : d = c := by
  have hcode := toNat_of_isSeparator hd
  unfold caseOf at h
  split at h
  · rename_i hc
    have hkept := forall_ascii (P := fun c => isSeparator (ascii c) → ascii c = c) hascii hc
    rw [← List.mem_singleton.1 h] at hkept
    exact hkept hd
  · have hpos : ∀ n ∈ separatorCodes, 0 < n := by decide
    exact eq_of_mem_mapCase (htable d.toNat hcode) (hpos d.toNat hcode) h

end Tables

theorem leadsTo_upper : ∀ n ∈ separatorCodes, leadsTo upperExpansions upperShifts n = false := by
  decide +kernel

theorem leadsTo_lower : ∀ n ∈ separatorCodes, leadsTo lowerExpansions lowerShifts n = false := by
  decide +kernel

theorem upperOf_ne_nil (c : Char) : upperOf c ≠ [] :=
  caseOf_ne_nil leadsTo_upper

theorem lowerOf_ne_nil (c : Char) : lowerOf c ≠ [] :=
  caseOf_ne_nil leadsTo_lower

/-- A separator is the upper case of itself only. -/
theorem eq_of_mem_upperOf {c d : Char} (hd : isSeparator d) (h : d ∈ upperOf c) : d = c :=
  eq_of_mem_caseOf leadsTo_upper (by decide) hd h

/-- A separator is the lower case of itself only. -/
theorem eq_of_mem_lowerOf {c d : Char} (hd : isSeparator d) (h : d ∈ lowerOf c) : d = c :=
  eq_of_mem_caseOf leadsTo_lower (by decide) hd h

theorem lowerOf_of_isSeparator {c : Char} (h : isSeparator c) : lowerOf c = [c] := by
  have hall : ∀ n ∈ separatorCodes, lowerOf (Char.ofNat n) = [Char.ofNat n] := by decide
  have hc := hall c.toNat (toNat_of_isSeparator h)
  rwa [Char.ofNat_toNat] at hc

/-- The lower case of a text has other characters than separators if the text has. -/
theorem all_isSeparator_lowercase (s : String) :
    (lowercase s).toList.all isSeparator = s.toList.all isSeparator := by
  have hchar : ∀ c, (lowerOf c).all isSeparator = isSeparator c := by
    intro c
    by_cases hc : isSeparator c
    · rw [lowerOf_of_isSeparator hc, List.all_cons, List.all_nil, Bool.and_true]
    · obtain ⟨d, ds, hds⟩ := List.exists_cons_of_ne_nil (lowerOf_ne_nil c)
      have hmem : d ∈ lowerOf c := hds ▸ List.mem_cons_self
      have hd : ¬ isSeparator d := fun hd => hc (eq_of_mem_lowerOf hd hmem ▸ hd)
      rw [hds, List.all_cons, Bool.eq_false_iff.2 hd, Bool.eq_false_iff.2 hc, Bool.false_and]
  rw [lowercase, String.toList_ofList, List.all_flatMap]
  exact congrArg s.toList.all (funext hchar)

end SchemaSnippets.Unicode

namespace SchemaSnippets.Text
open Unicode

/-! ## Pascal case -/

theorem isSeparator_of_mem_pascalChars {start : Bool} {cs : List Char} {d : Char}
    (h : d ∈ pascalChars start cs) : isSeparator d = false := by
  induction cs generalizing start with
  | nil => cases h
  | cons c cs ih =>
      rw [pascalChars] at h
      split at h
      · exact ih h
      · rename_i hc
        rcases List.mem_append.1 h with h | h
        · rw [← Bool.not_eq_true]
          intro hd
          split at h
          · exact hc (eq_of_mem_upperOf hd h ▸ hd)
          · exact hc (List.mem_singleton.1 h ▸ hd)
        · exact ih h

theorem pascalChars_eq_nil_iff (start : Bool) (cs : List Char) :
    pascalChars start cs = [] ↔ cs.all isSeparator := by
  induction cs generalizing start with
  | nil => simp [pascalChars]
  | cons c cs ih =>
      rw [pascalChars, List.all_cons, Bool.and_eq_true]
      split
      · rename_i hc
        rw [ih, and_iff_right hc]
      · rename_i hc
        have hfirst : (if start then upperOf c else [c]) ≠ [] := by
          split
          · exact upperOf_ne_nil c
          · exact List.cons_ne_nil c []
        simp [hfirst, hc]

/-- The segments of a name have no separators. -/
theorem isSeparator_of_mem_pascal {name : String} {d : Char} (h : d ∈ (pascal name).toList) :
    isSeparator d = false := by
  rw [pascal, String.toList_ofList] at h
  exact isSeparator_of_mem_pascalChars h

/-- Nothing is left of separators. -/
theorem pascal_eq_empty_iff (name : String) : pascal name = "" ↔ name.toList.all isSeparator := by
  rw [← String.toList_inj, pascal, String.toList_ofList]
  exact pascalChars_eq_nil_iff true name.toList

theorem all_isSeparator_pascal (name : String) :
    (pascal name).toList.all isSeparator = name.toList.all isSeparator := by
  rw [Bool.eq_iff_iff, ← pascal_eq_empty_iff name]
  constructor
  · intro h
    rw [← String.toList_inj]
    refine List.eq_nil_iff_forall_not_mem.2 fun d hd => ?_
    have hsep := List.all_eq_true.1 h d hd
    rw [isSeparator_of_mem_pascal hd] at hsep
    cases hsep
  · intro h
    rw [h]
    rfl

/-! ## Snake case -/

/-- Until something is written separators write nothing, and another character writes no separator first. -/
theorem head?_snakeChars (prev : Option Char) (cs : List Char) :
    (cs.all isSeparator ∧ snakeChars none prev cs = []) ∨
      ¬ cs.all isSeparator ∧ ∃ d ds, snakeChars none prev cs = d :: ds ∧ isSeparator d = false := by
  induction cs generalizing prev with
  | nil => exact Or.inl ⟨rfl, rfl⟩
  | cons c cs ih =>
      rw [List.all_cons, snakeChars]
      by_cases hc : isSeparator c
      · have hpiece : snakePiece none prev c cs.head? = [] := by
          rw [snakePiece, if_pos hc]
          rfl
        rw [hpiece, hc, Bool.true_and]
        exact ih (some c)
      · have hpiece : ∃ d ds, snakePiece none prev c cs.head? = d :: ds ∧ isSeparator d = false := by
          rw [snakePiece, if_neg hc]
          split
          · obtain ⟨d, ds, hds⟩ := List.exists_cons_of_ne_nil (lowerOf_ne_nil c)
            have hmem : d ∈ lowerOf c := hds ▸ List.mem_cons_self
            exact ⟨d, ds, hds, Bool.eq_false_iff.2 fun hd => hc (eq_of_mem_lowerOf hd hmem ▸ hd)⟩
          · exact ⟨c, [], rfl, Bool.eq_false_iff.2 hc⟩
        obtain ⟨d, ds, hds, hd⟩ := hpiece
        rw [hds, Bool.eq_false_iff.2 hc, Bool.false_and]
        exact Or.inr ⟨Bool.false_ne_true, d, _, rfl, hd⟩

theorem snake_eq_empty_iff (name : String) : snake name = "" ↔ name.toList.all isSeparator := by
  rw [← String.toList_inj, snake, String.toList_ofList]
  rcases head?_snakeChars none name.toList with ⟨hall, hnil⟩ | ⟨hsome, d, ds, hds, -⟩
  · exact iff_of_true hnil hall
  · refine iff_of_false ?_ hsome
    rw [hds]
    exact List.cons_ne_nil d ds

/-- The words of a name begin with no separator. -/
theorem head?_snake (name : String) : (snake name).toList.head?.all (!isSeparator ·) := by
  rw [snake, String.toList_ofList]
  rcases head?_snakeChars none name.toList with ⟨-, hnil⟩ | ⟨-, d, ds, hds, hd⟩
  · rw [hnil]
    rfl
  · rw [hds, List.head?_cons, Option.all_some, hd]
    rfl

end SchemaSnippets.Text

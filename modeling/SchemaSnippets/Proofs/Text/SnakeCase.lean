import Mathlib.Data.List.Chain
import SchemaSnippets.Proofs.Text.Case

/-!
# Snake case

Converting a name to snake case only puts underscores between its characters and its capitals in lower
case. What is written so far decides about each underscore, so no two meet.

* `lowered` : what is written of a character; `filter_snakeChars` : without underscores a name in snake
  case is what is written of its characters, separators left out;
* `Joins last w` : behind `last`, the text `w` begins with no second underscore and has no two together;
  `joins_snakeChars` : so it is in snake case;
* `snakeChars_of_joins` : a text like this with no capitals and no other separators is in snake case
  already;
* `snake_joins_words` : all of this for names; in ASCII there are no capitals left.
-/

namespace SchemaSnippets.Text
open Unicode

/-! ## Characters -/

/-- What is written of a character: of a capital its lower case, and any other character as it is. -/
def lowered (c : Char) : List Char :=
  if isUppercase c then lowerOf c else [c]

variable {last prev next : Option Char} {c d : Char}

/-- A separator is written for itself only. -/
theorem eq_of_mem_lowered (hd : isSeparator d) (h : d ∈ lowered c) : d = c := by
  unfold lowered at h
  split at h
  · exact eq_of_mem_lowerOf hd h
  · exact List.mem_singleton.1 h

theorem isSeparator_of_mem_lowered (hc : isSeparator c = false) (h : d ∈ lowered c) :
    isSeparator d = false := by
  rw [← Bool.not_eq_true] at hc ⊢
  exact fun hd => hc (eq_of_mem_lowered hd h ▸ hd)

theorem underscore_notMem_lowered (hc : isSeparator c = false) : '_' ∉ lowered c := by
  intro h
  have hsep := isSeparator_of_mem_lowered hc h
  exact absurd hsep (by decide)

/-- Behind an underscore, and where nothing is written, no underscore may follow. -/
def joinable (last : Option Char) : Bool :=
  last.any (· != '_')

theorem joinable_iff : joinable last ↔ last.getD '_' ≠ '_' := by
  cases last <;> simp [joinable]

theorem snakePiece_of_isSeparator (hc : isSeparator c) :
    snakePiece last prev c next = if joinable last then ['_'] else [] := by
  rw [snakePiece, if_pos hc]
  rfl

/-- Of any other character its letters are written, perhaps behind an underscore. -/
theorem snakePiece_of_not_isSeparator (last prev next : Option Char) (hc : isSeparator c = false) :
    snakePiece last prev c next = lowered c ∨
      joinable last ∧ snakePiece last prev c next = '_' :: lowered c := by
  rw [snakePiece, if_neg (Bool.eq_false_iff.1 hc), lowered]
  by_cases hupper : isUppercase c
  · rw [if_pos hupper, if_pos hupper]
    by_cases hword : last.any (· != '_') && beginsWord prev next
    · rw [if_pos hword]
      exact Or.inr ⟨(Bool.and_eq_true _ _ ▸ hword).1, rfl⟩
    · rw [if_neg hword]
      exact Or.inl rfl
  · rw [if_neg hupper, if_neg hupper]
    exact Or.inl rfl

/-! ## Nothing is lost -/

theorem filter_snakePiece :
    (snakePiece last prev c next).filter (· != '_') = if isSeparator c then [] else lowered c := by
  by_cases hc : isSeparator c
  · rw [snakePiece_of_isSeparator hc, if_pos hc]
    split <;> rfl
  · rw [if_neg hc]
    rw [Bool.not_eq_true] at hc
    have hkept : (lowered c).filter (· != '_') = lowered c := by
      refine List.filter_eq_self.2 fun d hd => bne_iff_ne.2 ?_
      rintro rfl
      exact underscore_notMem_lowered hc hd
    rcases snakePiece_of_not_isSeparator last prev next hc with h | ⟨-, h⟩
    · rw [h, hkept]
    · rw [h, List.filter_cons_of_neg (by decide), hkept]

theorem filter_snakeChars (last prev : Option Char) (cs : List Char) :
    (snakeChars last prev cs).filter (· != '_') =
      (cs.filter (!isSeparator ·)).flatMap lowered := by
  induction cs generalizing last prev with
  | nil => rfl
  | cons c cs ih =>
      rw [snakeChars, List.filter_append, filter_snakePiece, ih]
      by_cases hc : isSeparator c
      · rw [if_pos hc, List.filter_cons_of_neg (by simp [hc])]
        rfl
      · rw [if_neg hc, List.filter_cons_of_pos (by simp [hc]), List.flatMap_cons]

/-- All that is written are underscores and what is written of characters. -/
theorem mem_snakeChars {cs : List Char} (h : d ∈ snakeChars last prev cs) :
    d = '_' ∨ ∃ c ∈ cs, isSeparator c = false ∧ d ∈ lowered c := by
  by_cases hd : d = '_'
  · exact Or.inl hd
  · have hmem : d ∈ (snakeChars last prev cs).filter (· != '_') :=
      List.mem_filter.2 ⟨h, bne_iff_ne.2 hd⟩
    rw [filter_snakeChars, List.mem_flatMap] at hmem
    obtain ⟨c, hc, hmem⟩ := hmem
    rw [List.mem_filter, Bool.not_eq_true'] at hc
    exact Or.inr ⟨c, hc.1, hc.2, hmem⟩

/-! ## Single underscores -/

/-- No two underscores are together in the text behind `last`. Nothing written yet counts as an
underscore, for the text begins with none then. -/
def Joins (last : Option Char) (w : List Char) : Prop :=
  (last.getD '_' :: w).IsChain fun c d => c = '_' → d ≠ '_'

theorem joins_cons {w : List Char} :
    Joins last (d :: w) ↔ (last.getD '_' = '_' → d ≠ '_') ∧ Joins (some d) w :=
  List.isChain_cons_cons

/-- Text without underscores changes nothing but what is last. -/
theorem joins_append_of_notMem {u w : List Char} (hu : '_' ∉ u) (h : Joins (u.getLast?.or last) w) :
    Joins last (u ++ w) := by
  induction u generalizing last with
  | nil => exact h
  | cons d u ih =>
      rw [List.mem_cons, not_or] at hu
      refine joins_cons.2 ⟨fun _ => Ne.symm hu.1, ih hu.2 ?_⟩
      cases u with
      | nil => exact h
      | cons e u =>
          rw [List.getLast?_cons_cons] at h
          rw [List.getLast?_eq_some_getLast (List.cons_ne_nil e u)] at h ⊢
          exact h

theorem joins_snakeChars (last prev : Option Char) (cs : List Char) :
    Joins last (snakeChars last prev cs) := by
  induction cs generalizing last prev with
  | nil => exact .singleton _
  | cons c cs ih =>
      rw [snakeChars]
      by_cases hc : isSeparator c
      · rw [snakePiece_of_isSeparator hc]
        split
        · rename_i hlast
          exact joins_cons.2 ⟨fun h => absurd h (joinable_iff.1 hlast), ih (some '_') (some c)⟩
        · exact ih last (some c)
      · rw [Bool.not_eq_true] at hc
        have hletters := underscore_notMem_lowered hc
        rcases snakePiece_of_not_isSeparator last prev cs.head? hc with h | ⟨hlast, h⟩
        · rw [h]
          exact joins_append_of_notMem hletters (ih _ _)
        · rw [h, List.cons_append]
          have hbehind : (lowered c).getLast?.or (some '_') = ('_' :: lowered c).getLast?.or last := by
            rw [List.getLast?_cons, Option.or_some, Option.some_or]
          refine joins_cons.2 ⟨fun h => absurd h (joinable_iff.1 hlast),
            joins_append_of_notMem hletters ?_⟩
          rw [hbehind]
          exact ih _ _

/-- Without capitals and other separators, text with single underscores is kept. -/
theorem snakeChars_of_joins {cs : List Char} (h : Joins last cs)
    (hcs : ∀ c ∈ cs, isUppercase c = false ∧ (isSeparator c → c = '_')) :
    snakeChars last prev cs = cs := by
  induction cs generalizing last prev with
  | nil => rfl
  | cons c cs ih =>
      obtain ⟨hlast, hrest⟩ := joins_cons.1 h
      obtain ⟨hc, hcs⟩ := List.forall_mem_cons.1 hcs
      have hpiece : snakePiece last prev c cs.head? = [c] := by
        by_cases hsep : isSeparator c
        · have hjoinable : joinable last := joinable_iff.2 fun h => hlast h (hc.2 hsep)
          rw [snakePiece_of_isSeparator hsep, if_pos hjoinable, hc.2 hsep]
        · rw [snakePiece, if_neg hsep, if_neg (Bool.eq_false_iff.1 hc.1)]
      rw [snakeChars, hpiece]
      exact congrArg (c :: ·) (ih hrest hcs)

/-! ## Names -/

/-- In ASCII nothing that is written is a capital. -/
theorem isUppercase_of_mem_lowered (hc : c.toNat < 0x80) (h : d ∈ lowered c) :
    isUppercase d = false := by
  have hall : (lowered c).all (!isUppercase ·) :=
    forall_ascii (P := fun c => (lowered c).all (!isUppercase ·)) (by decide) hc
  simpa using List.all_eq_true.1 hall d h

/-- Snake case keeps the characters of a name but its separators, in order and with capitals in lower
case, and puts single underscores between them. A name in ASCII has no capitals then, and a second
conversion keeps it as it is. -/
theorem snake_joins_words (s : String) :
    (snake s).toList.filter (· != '_') = (s.toList.filter (!isSeparator ·)).flatMap lowered ∧
    (snake s).toList.head? ≠ some '_' ∧
    (snake s).toList.IsChain (fun c d => c = '_' → d ≠ '_') ∧
    ((∀ c ∈ s.toList, c.toNat < 0x80) →
      (∀ c ∈ (snake s).toList, isUppercase c = false) ∧ snake (snake s) = snake s) := by
  have hchars : (snake s).toList = snakeChars none none s.toList := String.toList_ofList
  have hjoins : Joins none (snake s).toList := hchars ▸ joins_snakeChars none none s.toList
  refine ⟨hchars ▸ filter_snakeChars none none s.toList, ?_, hjoins.tail, fun hascii => ?_⟩
  · intro hhead
    obtain ⟨w, hw⟩ := List.head?_eq_some_iff.1 hhead
    rw [hw] at hjoins
    exact (joins_cons.1 hjoins).1 rfl rfl
  · have hsmall : ∀ c ∈ (snake s).toList, isUppercase c = false ∧ (isSeparator c → c = '_') := by
      intro d hd
      rw [hchars] at hd
      rcases mem_snakeChars hd with rfl | ⟨c, hc, hsep, hmem⟩
      · exact ⟨by decide, fun _ => rfl⟩
      · refine ⟨isUppercase_of_mem_lowered (hascii c hc) hmem, fun hd => ?_⟩
        rw [isSeparator_of_mem_lowered hsep hmem] at hd
        cases hd
    refine ⟨fun c hc => (hsmall c hc).1, ?_⟩
    rw [snake, snakeChars_of_joins hjoins hsmall, String.ofList_toList]

/-- Capitals, a digit, separators at the ends and a run of them. -/
theorem snake_httpServer :
    (∀ c ∈ "--HTTPServer2_.Name ".toList, c.toNat < 0x80) ∧
    snake "--HTTPServer2_.Name " = "http_server2_name_" ∧
    snake "http_server2_name_" = "http_server2_name_" := by
  have hascii : ∀ c ∈ "--HTTPServer2_.Name ".toList, c.toNat < 0x80 :=
    List.forall_iff_forall_mem.1 (by decide)
  have hsnake : snake "--HTTPServer2_.Name " = "http_server2_name_" := by decide +kernel
  have hagain := ((snake_joins_words "--HTTPServer2_.Name ").2.2.2 hascii).2
  rw [hsnake] at hagain
  exact ⟨hascii, hsnake, hagain⟩

end SchemaSnippets.Text

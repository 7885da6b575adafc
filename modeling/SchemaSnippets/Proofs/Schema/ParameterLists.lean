import Mathlib.Data.List.TakeWhile
import SchemaSnippets.Schema.NameParser

/-!
# Parameter lists

A list of parameters is cut at the commas that stand outside of inner brackets. Which commas these are is
said by the number of brackets that are open: pieces that leave as many open as they found, and never
fewer on the way, are found again in the list that is made of them.

* `IsPadded core cs` : a text with white space around `core`; `trimChars_of_isPadded` : trimming removes it,
  and `isPadded_trimChars` : nothing else;
* `depthAfter? d cs` : the number of open brackets after a text; `IsWhole` : the text is no place for a cut;
* `cutParameters_intercalate`, `intercalate_of_cutParameters` : cutting undoes joining whole pieces, and is
  undone by it.
-/

namespace SchemaSnippets.Text
open Unicode

/-! ## White space around a text -/

variable {cs core before after : List Char}

def IsBlank (cs : List Char) : Prop :=
  ∀ c ∈ cs, isWhitespace c

/-- A text with something in it that neither begins nor ends with white space. -/
structure IsTrimmed (cs : List Char) : Prop where
  ne_nil : cs ≠ []
  head : ∀ c ∈ cs.head?, ¬ isWhitespace c
  last : ∀ c ∈ cs.getLast?, ¬ isWhitespace c

/-- The text `core` with white space around it. -/
def IsPadded (core cs : List Char) : Prop :=
  ∃ before after, IsBlank before ∧ IsBlank after ∧ cs = before ++ core ++ after

theorem isBlank_nil : IsBlank [] :=
  List.forall_mem_nil _

theorem IsPadded.refl (cs : List Char) : IsPadded cs cs :=
  ⟨[], [], isBlank_nil, isBlank_nil, by simp⟩

theorem IsBlank.append (hbefore : IsBlank before) (hafter : IsBlank after) :
    IsBlank (before ++ after) :=
  List.forall_mem_append.2 ⟨hbefore, hafter⟩

theorem trimEndChars_append (hlast : ∀ c ∈ core.getLast?, ¬ isWhitespace c) (hafter : IsBlank after) :
    trimEndChars (core ++ after) = core := by
  have hblank : ∀ c ∈ after.reverse, isWhitespace c := fun c hc => hafter c (List.mem_reverse.1 hc)
  rw [trimEndChars, List.reverse_append, List.dropWhile_append_of_pos hblank]
  cases hcore : core.reverse with
  | nil => simp [List.reverse_eq_nil_iff.1 hcore]
  | cons c rest =>
      have hc : ¬ isWhitespace c := hlast c (by rw [List.getLast?_eq_head?_reverse, hcore]; rfl)
      rw [List.dropWhile_cons_of_neg hc, ← hcore, List.reverse_reverse]

theorem trimChars_of_isPadded (hcore : IsTrimmed core) (h : IsPadded core cs) : trimChars cs = core := by
  obtain ⟨before, after, hbefore, hafter, rfl⟩ := h
  obtain ⟨c, rest, rfl⟩ := List.exists_cons_of_ne_nil hcore.ne_nil
  have hc : ¬ isWhitespace c := hcore.head c rfl
  rw [trimChars, List.append_assoc, List.dropWhile_append_of_pos hbefore, List.cons_append,
    List.dropWhile_cons_of_neg hc]
  exact trimEndChars_append hcore.last hafter

theorem exists_trimEndChars (cs : List Char) :
    ∃ after, IsBlank after ∧ cs = trimEndChars cs ++ after ∧
      ∀ c ∈ (trimEndChars cs).getLast?, ¬ isWhitespace c := by
  refine ⟨(cs.reverse.takeWhile isWhitespace).reverse, ?_, ?_, ?_⟩
  · intro c hc
    exact List.mem_takeWhile_imp (List.mem_reverse.1 hc)
  · rw [trimEndChars, ← List.reverse_append, List.takeWhile_append_dropWhile, List.reverse_reverse]
  · intro c hc
    rw [trimEndChars, List.getLast?_reverse] at hc
    have hhead := List.head?_dropWhile_not isWhitespace cs.reverse
    rw [Option.mem_def.1 hc] at hhead
    simpa using hhead

theorem isPadded_trimChars (cs : List Char) : IsPadded (trimChars cs) cs := by
  obtain ⟨after, hafter, hcs, -⟩ := exists_trimEndChars (cs.dropWhile isWhitespace)
  refine ⟨cs.takeWhile isWhitespace, after, fun c => List.mem_takeWhile_imp, hafter, ?_⟩
  rw [trimChars, List.append_assoc, ← hcs, List.takeWhile_append_dropWhile]

theorem isTrimmed_trimChars (h : trimChars cs ≠ []) : IsTrimmed (trimChars cs) := by
  obtain ⟨after, -, hcs, hlast⟩ := exists_trimEndChars (cs.dropWhile isWhitespace)
  refine ⟨h, fun c hc => ?_, hlast⟩
  -- what is left begins as it did before its end was trimmed
  have hkept : (trimEndChars (cs.dropWhile isWhitespace)).head? = some c := hc
  have hfirst : (cs.dropWhile isWhitespace).head? = some c := by
    rw [hcs, List.head?_append, hkept, Option.some_or]
  have hhead := List.head?_dropWhile_not isWhitespace cs
  rw [hfirst] at hhead
  simpa using hhead

end SchemaSnippets.Text

namespace SchemaSnippets.Schema
open Text Unicode

/-! ## Open brackets -/

/-- The number of open brackets after a character, unless the character divides a list or closes a
bracket that is not open. -/
def bracketStep? (depth : Nat) (c : Char) : Option Nat :=
  if c = '<' then some (depth + 1)
  else if depth = 0 then (if c = '>' ∨ c = ',' then none else some 0)
  else some (if c = '>' then depth - 1 else depth)

/-- The number of open brackets after a text. -/
def depthAfter? (depth : Nat) (cs : List Char) : Option Nat :=
  cs.foldlM bracketStep? depth

/-- No comma in the text divides a list, and all brackets in it are closed. -/
def IsWhole (cs : List Char) : Prop :=
  depthAfter? 0 cs = some 0

variable {c : Char} {cs piece rest u v : List Char} {d d' : Nat}

theorem depthAfter?_append :
    depthAfter? d (u ++ v) = (depthAfter? d u).bind fun d' => depthAfter? d' v :=
  List.foldlM_append

theorem depthAfter?_cons :
    depthAfter? d (c :: cs) = (bracketStep? d c).bind fun d' => depthAfter? d' cs :=
  List.foldlM_cons

theorem depthAfter?_concat (h : depthAfter? d piece = some d') :
    depthAfter? d (piece ++ [c]) = bracketStep? d' c := by
  rw [depthAfter?_append, h, Option.bind_some, depthAfter?_cons]
  exact Option.bind_fun_some _

theorem bracketStep?_add (h : bracketStep? d c = some d') (k : Nat) :
    bracketStep? (d + k) c = some (d' + k) := by
  unfold bracketStep? at *
  grind

/-- Brackets around a text change nothing about those in it. -/
theorem depthAfter?_add (h : depthAfter? d cs = some d') (k : Nat) :
    depthAfter? (d + k) cs = some (d' + k) := by
  induction cs generalizing d with
  | nil =>
      obtain rfl := Option.some.inj h
      rfl
  | cons c cs ih =>
      rw [depthAfter?_cons, Option.bind_eq_some_iff] at h
      obtain ⟨d₁, hstep, hrest⟩ := h
      rw [depthAfter?_cons, bracketStep?_add hstep, Option.bind_some]
      exact ih hrest

theorem IsWhole.depthAfter? (h : IsWhole cs) (d : Nat) : depthAfter? d cs = some d := by
  simpa using depthAfter?_add h d

theorem IsWhole.append (hu : IsWhole u) (hv : IsWhole v) : IsWhole (u ++ v) := by
  unfold IsWhole
  rw [depthAfter?_append, hu.depthAfter?, Option.bind_some, hv.depthAfter?]

theorem isWhole_of_plain (h : ∀ c ∈ cs, c ≠ '<' ∧ c ≠ '>' ∧ c ≠ ',') : IsWhole cs := by
  induction cs with
  | nil => rfl
  | cons c cs ih =>
      obtain ⟨⟨hopen, hclose, hcomma⟩, hcs⟩ := List.forall_mem_cons.1 h
      have hstep : bracketStep? 0 c = some 0 := by simp [bracketStep?, hopen, hclose, hcomma]
      unfold IsWhole
      rw [depthAfter?_cons, hstep, Option.bind_some]
      exact ih hcs

theorem isWhole_of_isBlank (h : IsBlank cs) : IsWhole cs := by
  refine isWhole_of_plain fun c hc => ?_
  have hwhite := h c hc
  refine ⟨?_, ?_, ?_⟩ <;> rintro rfl <;> exact absurd hwhite (by decide)

theorem isWhole_of_isPadded {core : List Char} (hcore : IsWhole core) (h : IsPadded core cs) :
    IsWhole cs := by
  obtain ⟨before, after, hbefore, hafter, rfl⟩ := h
  exact ((isWhole_of_isBlank hbefore).append hcore).append (isWhole_of_isBlank hafter)

/-- Commas between brackets divide nothing. -/
theorem depthAfter?_intercalate {qs : List (List Char)} (h : ∀ q ∈ qs, IsWhole q) :
    depthAfter? 1 ([','].intercalate qs) = some 1 := by
  induction qs with
  | nil => rfl
  | cons q qs ih =>
      obtain ⟨hq, hqs⟩ := List.forall_mem_cons.1 h
      cases qs with
      | nil =>
          rw [List.intercalate_singleton]
          exact hq.depthAfter? 1
      | cons q' qs =>
          have hcomma : depthAfter? 1 [','] = some 1 := rfl
          rw [List.intercalate_cons_cons, depthAfter?_append, depthAfter?_append, hq.depthAfter? 1,
            Option.bind_some, hcomma, Option.bind_some]
          exact ih hqs

theorem isWhole_brackets {qs : List (List Char)} (h : ∀ q ∈ qs, IsWhole q) :
    IsWhole ('<' :: [','].intercalate qs ++ ['>']) := by
  have hopen : bracketStep? 0 '<' = some 1 := rfl
  unfold IsWhole
  rw [List.cons_append, depthAfter?_cons, hopen, Option.bind_some, depthAfter?_append,
    depthAfter?_intercalate h]
  rfl

/-- A closing bracket or a comma before all opening brackets is a place for a cut or a fault. -/
theorem not_isWhole_of_stray (hopen : '<' ∉ u) (hstray : '>' ∈ u ∨ ',' ∈ u) : ¬ IsWhole (u ++ v) := by
  have hnone : depthAfter? 0 u = none := by
    induction u with
    | nil => simp at hstray
    | cons c u ih =>
        obtain ⟨hc, hu⟩ : '<' ≠ c ∧ '<' ∉ u := by simpa using hopen
        rw [depthAfter?_cons]
        by_cases hdelim : c = '>' ∨ c = ','
        · simp [bracketStep?, hc.symm, hdelim]
        · have hstep : bracketStep? 0 c = some 0 := by simp [bracketStep?, Ne.symm hc, hdelim]
          rw [hstep, Option.bind_some]
          refine ih hu ?_
          simp only [List.mem_cons] at hstray
          grind
  unfold IsWhole
  rw [depthAfter?_append, hnone]
  simp

/-! ## Cutting -/

theorem cutParameters_cons_of_step (h : bracketStep? d c = some d') :
    cutParameters d piece (c :: cs) = cutParameters d' (piece ++ [c]) cs := by
  unfold bracketStep? at h
  simp only [cutParameters]
  cases d <;> grind

theorem cutParameters_append (h : depthAfter? d cs = some d') :
    cutParameters d piece (cs ++ rest) = cutParameters d' (piece ++ cs) rest := by
  induction cs generalizing d piece with
  | nil =>
      obtain rfl := Option.some.inj h
      simp
  | cons c cs ih =>
      rw [depthAfter?_cons, Option.bind_eq_some_iff] at h
      obtain ⟨d₁, hstep, hrest⟩ := h
      rw [List.cons_append, cutParameters_cons_of_step hstep, ih hrest]
      simp

/-- Whole pieces are found in the list that is made of them. -/
theorem cutParameters_intercalate {closed : List (List Char)} {last : List Char}
    (h : ∀ q ∈ closed ++ [last], IsWhole q) :
    cutParameters 0 [] ([','].intercalate (closed ++ [last])) = ⟨closed, .ok last⟩ := by
  induction closed with
  | nil =>
      have hlast : IsWhole last := h last (List.mem_singleton_self last)
      have hcut : cutParameters 0 [] (last ++ []) = cutParameters 0 ([] ++ last) [] :=
        cutParameters_append (hlast.depthAfter? 0)
      rw [List.append_nil] at hcut
      rw [List.nil_append, List.intercalate_singleton, hcut]
      rfl
  | cons q closed ih =>
      obtain ⟨hq, hrest⟩ := List.forall_mem_cons.1 h
      have hne : closed ++ [last] ≠ [] := by simp
      have hcomma : ∀ piece rest, cutParameters 0 piece (',' :: rest) =
          ⟨piece :: (cutParameters 0 [] rest).closed, (cutParameters 0 [] rest).last⟩ :=
        fun piece rest => rfl
      rw [List.cons_append, List.intercalate_cons_of_ne_nil hne, List.append_assoc,
        cutParameters_append (hq.depthAfter? 0), List.nil_append, List.singleton_append, hcomma,
        ih hrest]

/-- A list without faults is made of the pieces that are cut from it, and these are whole. -/
theorem intercalate_of_cutParameters {last : List Char} (hpiece : depthAfter? 0 piece = some d)
    (hlast : (cutParameters d piece cs).last = .ok last) :
    piece ++ cs = [','].intercalate ((cutParameters d piece cs).closed ++ [last]) ∧
      ∀ q ∈ (cutParameters d piece cs).closed ++ [last], IsWhole q := by
  induction cs generalizing d piece with
  | nil =>
      rw [cutParameters] at hlast ⊢
      split at hlast
      · rename_i hd
        subst hd
        obtain rfl := Except.ok.inj hlast
        refine ⟨by simp, fun q hq => ?_⟩
        obtain rfl := List.mem_singleton.1 hq
        exact hpiece
      · cases hlast
  | cons c cs ih =>
      cases hstep : bracketStep? d c with
      | some d' =>
          have hpiece' : depthAfter? 0 (piece ++ [c]) = some d' :=
            (depthAfter?_concat hpiece).trans hstep
          rw [cutParameters_cons_of_step hstep] at hlast ⊢
          have hrest := ih hpiece' hlast
          rwa [List.append_assoc, List.singleton_append] at hrest
      | none =>
          have hd : d = 0 ∧ (c = '>' ∨ c = ',') := by
            unfold bracketStep? at hstep
            grind
          obtain ⟨rfl, rfl | rfl⟩ := hd
          · cases hlast
          · have hlast' : (cutParameters 0 [] cs).last = .ok last := hlast
            obtain ⟨hcs, hwhole⟩ := ih rfl hlast'
            refine ⟨?_, List.forall_mem_cons.2 ⟨hpiece, hwhole⟩⟩
            show piece ++ ',' :: cs =
              [','].intercalate (piece :: ((cutParameters 0 [] cs).closed ++ [last]))
            rw [List.intercalate_cons_of_ne_nil (by simp), ← hcs]
            simp

end SchemaSnippets.Schema

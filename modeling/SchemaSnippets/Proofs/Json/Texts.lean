import SchemaSnippets.Json.Value
import SchemaSnippets.Proofs.Code.Comments
import SchemaSnippets.Proofs.Target.Identifiers

/-!
# Texts of values

* `inNumber` : the characters of numbers; `all_inNumber_text` : a number has no others;
* `Lexis.ReadsSyntax` : a language reads names, numbers, brackets and strings as JSON does; `closed_text` :
  a value is then a piece of code;
* `exists_hasEnds_text` : how a value begins and ends.
-/

namespace SchemaSnippets.Number
open Target

/-- A character of a number, digits and a letter being characters of identifiers. -/
def inNumber (c : Char) : Bool :=
  inIdentifier c || c == '+' || c == '-' || c == '.'

theorem inNumber_of_inIdentifier {c : Char} (h : inIdentifier c) : inNumber c := by
  rw [inNumber, h]
  rfl

theorem toNat_lt_of_inNumber {c : Char} (h : inNumber c) : c.toNat < 0x80 := by
  simp only [inNumber, Bool.or_eq_true, beq_iff_eq] at h
  rcases h with ((h | rfl) | rfl) | rfl
  · exact toNat_lt_of_inIdentifier h
  · decide
  · decide
  · decide

/-- A text of some characters, all of them in numbers. -/
def IsNumber (s : String) : Prop :=
  s.toList.all inNumber ∧ s.toList ≠ []

theorem isNumber_of_inIdentifier {s : String} (h : s.toList.all inIdentifier) (hne : s.toList ≠ []) :
    IsNumber s :=
  ⟨List.all_eq_true.2 fun c hc => inNumber_of_inIdentifier (List.all_eq_true.1 h c hc), hne⟩

theorem isNumber_toString (n : Nat) : IsNumber (toString n) := by
  refine isNumber_of_inIdentifier (all_inIdentifier_toString n) ?_
  rw [Nat.toString_eq_ofList_toDigits, String.toList_ofList]
  exact Nat.toDigits_ne_nil

theorem isNumber_append_left {s t : String} (hs : IsNumber s) (ht : t.toList.all inNumber) :
    IsNumber (s ++ t) := by
  refine ⟨all_append hs.1 ht, ?_⟩
  rw [String.toList_append]
  exact List.append_ne_nil_of_left_ne_nil hs.2 _

theorem isNumber_append_right {s t : String} (hs : s.toList.all inNumber) (ht : IsNumber t) :
    IsNumber (s ++ t) := by
  refine ⟨all_append hs ht.1, ?_⟩
  rw [String.toList_append]
  exact List.append_ne_nil_of_right_ne_nil _ ht.2

theorem isNumber_int (i : Int) : IsNumber (toString i) := by
  cases i with
  | ofNat n => exact isNumber_toString n
  | negSucc n => exact isNumber_append_right (s := "-") (by decide) (isNumber_toString (n + 1))

theorem isNumber_magnitude (x : Magnitude) : IsNumber x.text := by
  have hzeros : ∀ n : Nat, (String.ofList (List.replicate n '0')).toList.all inNumber := by
    intro n
    rw [String.toList_ofList, List.all_eq_true]
    intro c hc
    rw [List.eq_of_mem_replicate hc]
    decide
  have htake : ∀ n k : Nat, (String.ofList ((toString n).toList.take k)).toList.all inNumber := by
    intro n k
    rw [String.toList_ofList, List.all_eq_true]
    exact fun c hc => List.all_eq_true.1 (isNumber_toString n).1 c (List.mem_of_mem_take hc)
  have hdrop : ∀ n k : Nat, (String.ofList ((toString n).toList.drop k)).toList.all inNumber := by
    intro n k
    rw [String.toList_ofList, List.all_eq_true]
    exact fun c hc => List.all_eq_true.1 (isNumber_toString n).1 c (List.mem_of_mem_drop hc)
  have hpoint : IsNumber "." := ⟨by decide, by decide⟩
  unfold Magnitude.text
  split
  · exact ⟨by decide, by decide⟩
  · dsimp only
    split
    · refine isNumber_append_right (all_append (all_append (htake _ _) ?_) ?_) (isNumber_toString _)
      · split
        · rfl
        · exact all_append hpoint.1 (hdrop _ _)
      · split <;> decide
    · split
      · exact isNumber_append_right (all_append (by decide) (hzeros _)) (isNumber_toString _)
      · split
        · have hend : IsNumber ".0" := ⟨by decide, by decide⟩
          exact isNumber_append_right (all_append (isNumber_toString _).1 (hzeros _)) hend
        · exact isNumber_append_left (isNumber_append_right (htake _ _) hpoint) (hdrop _ _)

theorem isNumber_text (x : Binary64) : IsNumber x.text := by
  unfold Binary64.text
  refine isNumber_append_right ?_ (isNumber_magnitude _)
  split <;> decide

end SchemaSnippets.Number

namespace SchemaSnippets.Code.Lexis
open Json Number Target
variable {L : Lexis}

/-! ## Values as code -/

/-- A character of names, numbers, brackets and operators. -/
def inSyntax (c : Char) : Bool :=
  inNumber c || "[]\x7b\x7d()<>,:;=?|# ".toList.contains c

/-- The characters of the syntax are code, and double quotes stand around literals. -/
structure ReadsSyntax (L : Lexis) : Prop where
  plain : ∀ c, inSyntax c → L.isPlain c
  quote : L.step .code '"' = (.literal '"' true, ['"'])

theorem closed_of_inSyntax (hL : L.ReadsSyntax) {s : String} (h : s.toList.all inSyntax) :
    L.Closed s :=
  closed_of_isPlain <| List.all_eq_true.2 fun c hc => hL.plain c (List.all_eq_true.1 h c hc)

theorem closed_of_isNumber (hL : L.ReadsSyntax) {s : String} (h : IsNumber s) : L.Closed s := by
  refine closed_of_inSyntax hL (List.all_eq_true.2 fun c hc => ?_)
  rw [inSyntax, List.all_eq_true.1 h.1 c hc]
  rfl

theorem all_inSyntax_of_inIdentifier {s : String} (h : s.toList.all inIdentifier) :
    s.toList.all inSyntax := by
  refine List.all_eq_true.2 fun c hc => ?_
  rw [inSyntax, inNumber_of_inIdentifier (List.all_eq_true.1 h c hc)]
  rfl

theorem closed_of_isIdentifier (hL : L.ReadsSyntax) {s : String} (h : isIdentifier s) : L.Closed s :=
  closed_of_inSyntax hL (all_inSyntax_of_inIdentifier (all_inIdentifier_of_isIdentifier h))

/-- A hexadecimal digit is no quote and no backslash. -/
theorem digitChar_ne (n : Nat) : n.digitChar ≠ '"' ∧ n.digitChar ≠ '\\' := by
  by_cases hn : n < 16
  · have hall : ∀ n < 16, n.digitChar ≠ '"' ∧ n.digitChar ≠ '\\' := by decide
    exact hall n hn
  · have hstar : n.digitChar = '*' := by
      have hbig : ∀ k < 16, n ≠ k := by omega
      simp [Nat.digitChar, hbig]
    rw [hstar]
    decide

theorem ne_of_mem_toDigits {base n : Nat} {c : Char} (h : c ∈ Nat.toDigits base n) :
    c ≠ '"' ∧ c ≠ '\\' := by
  have hcore : ∀ fuel n cs, (∀ c ∈ cs, c ≠ '"' ∧ c ≠ '\\') →
      ∀ c ∈ Nat.toDigitsCore base fuel n cs, c ≠ '"' ∧ c ≠ '\\' := by
    intro fuel
    induction fuel with
    | zero => exact fun n cs hcs => hcs
    | succ fuel ih =>
        intro n cs hcs
        have hcons : ∀ c ∈ (n % base).digitChar :: cs, c ≠ '"' ∧ c ≠ '\\' :=
          List.forall_mem_cons.2 ⟨digitChar_ne _, hcs⟩
        rw [Nat.toDigitsCore]
        split
        · exact hcons
        · exact ih _ _ hcons
  exact hcore _ _ _ (fun c hc => by cases hc) c h

theorem scan_escapeChar (c : Char) :
    (L.scan (.literal '"' true) (Value.escapeChar c)).1 = .literal '"' true := by
  have hescaped : ∀ d, (L.scan (.literal '"' true) ['\\', d]).1 = .literal '"' true :=
    fun d => scan_literal_escaped (by decide) d []
  unfold Value.escapeChar
  split
  · exact hescaped _
  split
  · exact hescaped _
  split
  · exact hescaped _
  split
  · exact hescaped _
  split
  · exact hescaped _
  split
  · exact hescaped _
  split
  · exact hescaped _
  split
  · rw [scan_literal_escaped (by decide)]
    refine scan_literal_all fun d hd => ?_
    have hne : d ≠ '"' ∧ d ≠ '\\' := by
      simp only [List.mem_cons, List.not_mem_nil, or_false] at hd
      rcases hd with rfl | rfl | rfl | rfl
      · decide
      · decide
      · exact digitChar_ne _
      · exact digitChar_ne _
    exact ⟨hne.1, fun h => hne.2 h.2⟩
  · rename_i hquote hslash _ _ _ _ _ _
    exact scan_literal_cons hquote (fun h => hslash h.2) []

theorem closed_quote (hL : L.ReadsSyntax) (s : String) : L.Closed (Value.quote s) :=
  closed_literal hL.quote (scan_literal_flatMap scan_escapeChar _)

mutual

/-- A value is a piece of code. -/
theorem closed_text (hL : L.ReadsSyntax) : ∀ v : Value, L.Closed v.text
  | .null => closed_of_isNumber hL (s := "null") ⟨by decide, by decide⟩
  | .bool true => closed_of_isNumber hL (s := "true") ⟨by decide, by decide⟩
  | .bool false => closed_of_isNumber hL (s := "false") ⟨by decide, by decide⟩
  | .integer i => closed_of_isNumber hL (isNumber_int i)
  | .float x => closed_of_isNumber hL (isNumber_text x)
  | .string s => closed_quote hL s
  | .array items => by
      have hleft : L.Closed "[" := closed_of_inSyntax hL (by decide)
      have hright : L.Closed "]" := closed_of_inSyntax hL (by decide)
      have hcomma : L.Closed "," := closed_of_inSyntax hL (by decide)
      rw [Value.text]
      exact closed_append (closed_append hleft
        (closed_intercalate hcomma (closed_texts hL items))) hright
  | .object members => by
      have hleft : L.Closed "\x7b" := closed_of_inSyntax hL (by decide)
      have hright : L.Closed "\x7d" := closed_of_inSyntax hL (by decide)
      have hcomma : L.Closed "," := closed_of_inSyntax hL (by decide)
      rw [Value.text]
      exact closed_append (closed_append hleft
        (closed_intercalate hcomma (closed_memberTexts hL members))) hright

theorem closed_texts (hL : L.ReadsSyntax) : ∀ vs : List Value, ∀ s ∈ Value.texts vs, L.Closed s
  | [], _, h => by cases h
  | v :: vs, s, h => by
      rcases List.mem_cons.1 h with rfl | h
      · exact closed_text hL v
      · exact closed_texts hL vs s h

theorem closed_memberTexts (hL : L.ReadsSyntax) :
    ∀ ms : List (String × Value), ∀ s ∈ Value.memberTexts ms, L.Closed s
  | [], _, h => by cases h
  | (k, v) :: ms, s, h => by
      have hcolon : L.Closed ":" := closed_of_inSyntax hL (by decide)
      rcases List.mem_cons.1 h with rfl | h
      · exact closed_append (closed_append (closed_quote hL k) hcolon) (closed_text hL v)
      · exact closed_memberTexts hL ms s h

end

/-- A character at the ends of literals, which are numbers or stand in quotes or brackets. -/
def inEnds (c : Char) : Bool :=
  inNumber c || "'\"[]\x7b\x7d".toList.contains c

/-- How a literal begins and ends. -/
structure HasEnds (s : String) (c d : Char) : Prop where
  first : s.toList.head? = some c
  last : s.toList.getLast? = some d
  inEnds : inEnds c ∧ inEnds d

theorem hasEnds_of_isNumber {s : String} (h : IsNumber s) : ∃ c d, HasEnds s c d := by
  have hmem : ∀ c ∈ s.toList, inEnds c := by
    intro c hc
    rw [inEnds, List.all_eq_true.1 h.1 c hc]
    rfl
  refine ⟨s.toList.head h.2, s.toList.getLast h.2, List.head?_eq_some_head h.2,
    List.getLast?_eq_some_getLast h.2, ?_, ?_⟩
  · exact hmem _ (List.head_mem h.2)
  · exact hmem _ (List.getLast_mem h.2)

theorem hasEnds_ofList {c d : Char} (hc : inEnds c) (hd : inEnds d) (cs : List Char) :
    HasEnds (String.ofList (c :: cs ++ [d])) c d := by
  refine ⟨?_, ?_, hc, hd⟩
  · rw [String.toList_ofList]
    rfl
  · rw [String.toList_ofList, List.getLast?_concat]

theorem exists_hasEnds_text (v : Value) : ∃ c d, HasEnds v.text c d := by
  have hbrackets : ∀ {before after s : String} {c d : Char}, before.toList = [c] → after.toList = [d] →
      inEnds c → inEnds d → HasEnds (before ++ s ++ after) c d := by
    intro before after s c d hbefore hafter hc hd
    have htext : before ++ s ++ after = String.ofList (c :: s.toList ++ [d]) := by
      rw [← String.toList_inj, String.toList_append, String.toList_append, hbefore, hafter,
        String.toList_ofList]
      rfl
    rw [htext]
    exact hasEnds_ofList hc hd _
  cases v with
  | null => exact hasEnds_of_isNumber ⟨by decide, by decide⟩
  | bool b => cases b <;> exact hasEnds_of_isNumber ⟨by decide, by decide⟩
  | integer i => exact hasEnds_of_isNumber (isNumber_int i)
  | float x => exact hasEnds_of_isNumber (isNumber_text x)
  | string s => exact ⟨'"', '"', hasEnds_ofList (by decide) (by decide) _⟩
  | array items => exact ⟨'[', ']', hbrackets rfl rfl (by decide) (by decide)⟩
  | object members => exact ⟨'\x7b', '\x7d', hbrackets rfl rfl (by decide) (by decide)⟩

end SchemaSnippets.Code.Lexis

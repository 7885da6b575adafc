import Mathlib.Data.List.TakeWhile
import SchemaSnippets.Text.Lines

/-!
# Places in a text

The byte at a line and column is found again from the line and column of a byte, wherever the byte
stands: in a line, at its end, inside a character of several bytes.

* `bytes` : the bytes of a text in UTF-8; `feed_notMem_encode` : those of a character are no line feeds
  unless it is one;
* `startAfter` : where the line behind some bytes starts; `lineAt`, `columnAt` : line and column of a byte;
* `lengthOfLines` : how long the first lines are; `lengthOfLines_count` : the lines before a byte end
  where the line of the byte starts;
* `offsetAt_lineAt_columnAt` : byte to line and column and back, and never beyond the last byte;
* `before?_of_prefix`, `before?_append` : a search ends where a text begins with what is searched for, and
  goes on through a text that has it nowhere.
-/

namespace SchemaSnippets.Text

/-! ## Bytes -/

/-- The bytes of a text. -/
def bytes (src : String) : List UInt8 :=
  src.toUTF8.data.toList

/-- The byte that ends a line. -/
def feed : UInt8 :=
  0x0A

theorem bytes_eq (src : String) : bytes src = src.toList.flatMap String.utf8EncodeChar := by
  have hencoded : src.toUTF8 = src.toList.utf8Encode := String.utf8Encode_toList.symm
  rw [bytes, hencoded, List.utf8Encode, List.data_toByteArray]

theorem byteLength_eq (cs : List Char) :
    byteLength cs = (cs.flatMap String.utf8EncodeChar).length := by
  induction cs with
  | nil => rfl
  | cons c cs ih =>
      rw [byteLength, ih, List.flatMap_cons, List.length_append, String.length_utf8EncodeChar]

theorem byteLength_toList (src : String) : byteLength src.toList = src.utf8ByteSize := by
  rw [byteLength_eq, ← bytes_eq]
  rfl

theorem feed_notMem_encode {c : Char} (h : c ≠ '\n') : feed ∉ String.utf8EncodeChar c := by
  have hsmall : ∀ n, n % 256 ≠ 0x0A → feed ≠ UInt8.ofNat n := by
    intro n hn heq
    have hcode := congrArg UInt8.toNat heq
    rw [UInt8.toNat_ofNat'] at hcode
    exact hn hcode.symm
  have hcode : c.val.toNat ≠ 0x0A := fun heq => h (Char.toNat_inj.1 heq)
  unfold String.utf8EncodeChar
  dsimp only
  split
  · simp only [List.mem_singleton]
    exact hsmall _ (by omega)
  · split
    · simp only [List.mem_cons, List.not_mem_nil, or_false, not_or]
      exact ⟨hsmall _ (by omega), hsmall _ (by omega)⟩
    · split
      · simp only [List.mem_cons, List.not_mem_nil, or_false, not_or]
        exact ⟨hsmall _ (by omega), hsmall _ (by omega), hsmall _ (by omega)⟩
      · simp only [List.mem_cons, List.not_mem_nil, or_false, not_or]
        exact ⟨hsmall _ (by omega), hsmall _ (by omega), hsmall _ (by omega), hsmall _ (by omega)⟩

/-! ## Where lines start -/

/-- Where the line behind some bytes starts: behind the last line feed among them. -/
def startAfter (before : List UInt8) : Nat :=
  (before.reverse.dropWhile (· != feed)).length

/-- The line of a byte, from one. -/
def lineAt (src : String) (p : Nat) : Nat :=
  1 + ((bytes src).take p).count feed

/-- The column of a byte in its line, from one. -/
def columnAt (src : String) (p : Nat) : Nat :=
  p - startAfter ((bytes src).take p) + 1

theorem dropWhile_of_feed_notMem {bs : List UInt8} (h : feed ∉ bs) :
    bs.reverse.dropWhile (· != feed) = [] := by
  rw [List.dropWhile_eq_nil_iff]
  intro b hb
  rw [bne_iff_ne]
  rintro rfl
  exact h (List.mem_reverse.1 hb)

theorem startAfter_le (before : List UInt8) : startAfter before ≤ before.length := by
  have hle := (List.dropWhile_suffix (· != feed) (l := before.reverse)).length_le
  rwa [List.length_reverse] at hle

theorem startAfter_of_feed_notMem {before : List UInt8} (h : feed ∉ before) :
    startAfter before = 0 := by
  rw [startAfter, dropWhile_of_feed_notMem h]
  rfl

theorem startAfter_append {u bs : List UInt8} (h : feed ∈ bs) :
    startAfter (u ++ bs) = u.length + startAfter bs := by
  have hsome : bs.reverse.dropWhile (· != feed) ≠ [] := by
    intro hnil
    rw [List.dropWhile_eq_nil_iff] at hnil
    exact absurd (hnil feed (List.mem_reverse.2 h)) (by decide)
  rw [startAfter, startAfter, List.reverse_append, List.dropWhile_append,
    if_neg (by rwa [List.isEmpty_iff]), List.length_append, List.length_reverse, Nat.add_comm]

theorem startAfter_feed (bs : List UInt8) : startAfter (feed :: bs) = 1 + startAfter bs := by
  by_cases h : feed ∈ bs
  · exact startAfter_append (u := [feed]) h
  · rw [startAfter, startAfter, List.reverse_cons, List.dropWhile_append,
      dropWhile_of_feed_notMem h]
    rfl

/-! ## Lines as pieces -/

/-- How many bytes the first `n` lines have. -/
def lengthOfLines (cs : List Char) (n : Nat) : Nat :=
  byteLength ((pieces cs).take n).flatten

theorem lengthOfLines_zero (cs : List Char) : lengthOfLines cs 0 = 0 := by
  rw [lengthOfLines, List.take_zero]
  rfl

theorem lengthOfLines_feed (cs : List Char) (n : Nat) :
    lengthOfLines ('\n' :: cs) (n + 1) = 1 + lengthOfLines cs n := by
  rw [lengthOfLines, pieces, if_pos rfl, List.take_succ_cons]
  rfl

theorem lengthOfLines_cons {c : Char} (hc : c ≠ '\n') (cs : List Char) (n : Nat) :
    lengthOfLines (c :: cs) (n + 1) = c.utf8Size + lengthOfLines cs (n + 1) := by
  rw [lengthOfLines, lengthOfLines, pieces, if_neg hc]
  cases pieces cs with
  | nil =>
      rw [List.take_succ_cons, List.take_nil, List.take_nil]
      rfl
  | cons q qs => rfl

/-- The lines that end before a byte are as long as what is before the line of the byte. -/
theorem lengthOfLines_count (cs : List Char) (p : Nat) :
    lengthOfLines cs (((cs.flatMap String.utf8EncodeChar).take p).count feed) =
      startAfter ((cs.flatMap String.utf8EncodeChar).take p) := by
  induction cs generalizing p with
  | nil =>
      rw [List.flatMap_nil, List.take_nil]
      rfl
  | cons c cs ih =>
      rw [List.flatMap_cons]
      by_cases hc : c = '\n'
      · subst hc
        cases p with
        | zero => rfl
        | succ p =>
            have hencode : String.utf8EncodeChar '\n' = [feed] := by decide
            rw [hencode, List.singleton_append, List.take_succ_cons, List.count_cons_self,
              lengthOfLines_feed, ih, startAfter_feed]
      · -- the bytes of `c` before the byte, and those of the other characters
        rw [List.take_append]
        have hfeed : feed ∉ (String.utf8EncodeChar c).take p :=
          fun h => feed_notMem_encode hc (List.mem_of_mem_take h)
        rw [List.count_append, List.count_eq_zero.2 hfeed, Nat.zero_add]
        have hrest := ih (p - (String.utf8EncodeChar c).length)
        by_cases hmem : feed ∈ (cs.flatMap String.utf8EncodeChar).take
            (p - (String.utf8EncodeChar c).length)
        · obtain ⟨n, hn⟩ := Nat.exists_eq_add_one.2 (List.count_pos_iff.2 hmem)
          have hlt : (String.utf8EncodeChar c).length ≤ p := by
            by_contra hlt
            rw [Nat.sub_eq_zero_of_le (Nat.le_of_not_le hlt), List.take_zero] at hmem
            cases hmem
          rw [hn] at hrest ⊢
          rw [lengthOfLines_cons hc, hrest, startAfter_append hmem, List.take_of_length_le hlt,
            String.length_utf8EncodeChar]
        · have hnone : feed ∉ (String.utf8EncodeChar c).take p ++
              (cs.flatMap String.utf8EncodeChar).take (p - (String.utf8EncodeChar c).length) := by
            rw [List.mem_append, not_or]
            exact ⟨hfeed, hmem⟩
          rw [List.count_eq_zero.2 hmem, lengthOfLines_zero, startAfter_of_feed_notMem hnone]

/-! ## There and back -/

/-- Every byte is found at its line and column, and no line and column leads beyond the last byte. -/
theorem offsetAt_lineAt_columnAt (src : String) :
    (∀ p < src.utf8ByteSize, offsetAt src (lineAt src p) (columnAt src p) = p) ∧
      ∀ line column, offsetAt src line column ≤ src.utf8ByteSize - 1 := by
  have hoffset : ∀ line column, offsetAt src line column =
      min (lengthOfLines src.toList (line - 1) + (column - 1)) (src.utf8ByteSize - 1) := by
    intro line column
    rw [← byteLength_toList]
    rfl
  refine ⟨fun p hp => ?_, fun line column => ?_⟩
  · have hstart : lengthOfLines src.toList (lineAt src p - 1) = startAfter ((bytes src).take p) := by
      rw [lineAt, Nat.add_sub_cancel_left, bytes_eq]
      exact lengthOfLines_count src.toList p
    have hle : startAfter ((bytes src).take p) ≤ p :=
      Nat.le_trans (startAfter_le _) (List.length_take_le p _)
    rw [hoffset, hstart, columnAt, Nat.add_sub_cancel, Nat.add_sub_cancel' hle]
    exact Nat.min_eq_left (Nat.le_sub_one_of_lt hp)
  · rw [hoffset]
    exact Nat.min_le_right _ _

/-- A byte behind an empty line, the first line having a character of two bytes. -/
theorem offsetAt_behind_empty_line :
    5 < "é\n\nab".utf8ByteSize ∧ lineAt "é\n\nab" 5 = 3 ∧ columnAt "é\n\nab" 5 = 2 ∧
      offsetAt "é\n\nab" 3 2 = 5 := by
  have hsize : 5 < "é\n\nab".utf8ByteSize := by decide
  have hline : lineAt "é\n\nab" 5 = 3 := by decide
  have hcolumn : columnAt "é\n\nab" 5 = 2 := by decide
  have hoffset := (offsetAt_lineAt_columnAt "é\n\nab").1 5 hsize
  rw [hline, hcolumn] at hoffset
  exact ⟨hsize, hline, hcolumn, hoffset⟩

/-! ## Searching -/

variable {needle : List Char}

theorem before?_of_prefix {cs : List Char} (h : needle <+: cs) : before? needle cs = some [] := by
  cases cs with
  | nil =>
      rw [List.prefix_nil.1 h]
      rfl
  | cons c cs => rw [before?, if_pos (List.isPrefixOf_iff_prefix.2 h)]

/-- A text is passed if nowhere in it what is searched for begins. -/
theorem before?_append {p cs : List Char}
    (h : ∀ p₁ p₂, p = p₁ ++ p₂ → p₂ ≠ [] → ¬ needle <+: p₂ ++ cs) :
    before? needle (p ++ cs) = (before? needle cs).map (p ++ ·) := by
  induction p with
  | nil => exact Option.map_id'.symm
  | cons c p ih =>
      have hhere : ¬ needle.isPrefixOf (c :: (p ++ cs)) := by
        rw [List.isPrefixOf_iff_prefix]
        exact h [] (c :: p) rfl (List.cons_ne_nil c p)
      have hrest := ih fun p₁ p₂ hp => h (c :: p₁) p₂ (congrArg (c :: ·) hp)
      rw [List.cons_append, before?, if_neg hhere, hrest, Option.map_map]
      rfl

end SchemaSnippets.Text

import SchemaSnippets.Proofs.Target.Literals

/-!
# Raw strings read back

Raw strings have no escapes. In Rust a longer delimiter keeps a text apart from its end, in Kotlin templates
of a character stand for what would end the string or begin a template.

* `Rust.readRaw?` : the characters up to the first quote with as many hashes behind it as stand in front;
  `upToClose?_append` : no quote of a text has them, if they are more than behind any of its quotes;
* `Kotlin.readRaw?` : a run of three quotes or more ends the string and has the quotes before its last three
  as content; `readRawBody?_rawChars` : the quotes at the end of a text are such content;
* `Rust.holds_raw_query`, `Kotlin.holds_triple_quoted_query` : the query of a snippet is read as it is.
-/

namespace SchemaSnippets.Target

/-! ## Rust -/

namespace Rust

/-- Reads up to the first quote with `n` hashes behind it. -/
def upToClose? (n : Nat) : LiteralReader
  | [] => none
  | c :: cs =>
    if c = '"' ∧ List.replicate n '#' <+: cs then some ([], cs.drop n)
    else prepend c (upToClose? n cs)

/-- Reads `r`, a run of hashes and a quote, and then up to the first quote with as many hashes. A compiler
may bound their number, which is not bounded here. -/
def readRaw? : LiteralReader
  | 'r' :: cs =>
    match cs.dropWhile (· == '#') with
    | '"' :: ds => upToClose? (cs.takeWhile (· == '#')).length ds
    | _ => none
  | _ => none

/-- A quote ends a run of hashes. -/
theorem takeWhile_append_quote (cs ds : List Char) :
    (cs ++ '"' :: ds).takeWhile (· == '#') = cs.takeWhile (· == '#') := by
  induction cs with
  | nil => rfl
  | cons c cs ih => rw [List.cons_append, List.takeWhile_cons, List.takeWhile_cons, ih]

theorem le_length_takeWhile_of_prefix {n : Nat} {cs : List Char} (h : List.replicate n '#' <+: cs) :
    n ≤ (cs.takeWhile (· == '#')).length := by
  obtain ⟨ds, rfl⟩ := h
  rw [List.takeWhile_append_of_pos (by simp), List.length_append, List.length_replicate]
  exact Nat.le_add_right n _

/-- More hashes than behind any quote of the text are found only behind the text. -/
theorem upToClose?_append {n : Nat} {cs : List Char} (h : longestHashes cs < n) (rest : List Char) :
    upToClose? n (cs ++ '"' :: (List.replicate n '#' ++ rest)) = some (cs, rest) := by
  induction cs with
  | nil =>
      rw [List.nil_append, upToClose?, if_pos ⟨rfl, List.prefix_append ..⟩,
        List.drop_left' List.length_replicate]
  | cons c cs ih =>
      have hopen : ¬ (c = '"' ∧
          List.replicate n '#' <+: cs ++ '"' :: (List.replicate n '#' ++ rest)) := by
        rintro ⟨rfl, hprefix⟩
        have hle := le_length_takeWhile_of_prefix hprefix
        rw [takeWhile_append_quote] at hle
        rw [longestHashes, if_pos rfl] at h
        omega
      have hrest : longestHashes cs < n := by
        rw [longestHashes] at h
        split at h <;> omega
      rw [List.cons_append, upToClose?, if_neg hopen, ih hrest, prepend_some]

theorem readRaw?_rawString (s : String) (rest : List Char) :
    readRaw? ((rawString s).toList ++ rest) = some (s.toList, rest) := by
  let body := s.toList ++ '"' :: (hashes s.toList ++ rest)
  have htext : (rawString s).toList ++ rest = 'r' :: (hashes s.toList ++ '"' :: body) := by
    simp [rawString, body]
  have hrun : (hashes s.toList ++ '"' :: body).takeWhile (· == '#') = hashes s.toList := by
    rw [takeWhile_append_quote, hashes, List.takeWhile_replicate]
    rfl
  have hbehind : (hashes s.toList ++ '"' :: body).dropWhile (· == '#') = '"' :: body :=
    List.dropWhile_append_of_pos (by simp [hashes])
  rw [htext, readRaw?, hbehind, hrun]
  show upToClose? (hashes s.toList).length body = _
  rw [hashes, List.length_replicate]
  exact upToClose?_append (Nat.lt_succ_self _) rest

/-- With as many hashes as stand behind a quote of the text, the string ends there. -/
example : readRaw? "r#\"a\"#b\"#".toList = some ("a".toList, "b\"#".toList) := by decide

/-- The query of a snippet is a raw string that is read as it is. -/
theorem holds_raw_query (q : QueryCall) :
    ∃ after, HoldsLiteral readRaw? (query q) "const QUERY: &str = " (rawString q.query) after
      q.query := by
  let call := "let result = " ++ q.client ++ ".query::<" ++ q.resultType ++ ">(QUERY).await?;"
  refine ⟨";" ++ ("\n\n" ++ call ++ "\n"), ?_, readRaw?_rawString q.query _, ?_⟩
  · rw [query, Code.Writer.text_line_blank_line, String.append_assoc]
  · simpa using readRaw?_rawString q.query []

end Rust

/-! ## Kotlin -/

namespace Kotlin

/-- Whether a character stands for itself between single quotes. -/
def isPlainChar (c : Char) : Bool :=
  c != '\'' && c != '\\' && !lexis.lineEnds.contains c

/-- Reads up to a run of at least three quotes, all of which but the last three belong to the text. A
template of a character stands for it; there is no other template. -/
def readRawBody? : LiteralReader
  | [] => none
  | '$' :: '\x7b' :: '\'' :: c :: '\'' :: '\x7d' :: cs =>
    if isPlainChar c then prepend c (readRawBody? cs) else none
  | c :: cs =>
    if c = '$' then none
    else if c = '"' ∧ ['"', '"'] <+: cs then
      some (List.replicate ((cs.takeWhile (· == '"')).length - 2) '"', cs.dropWhile (· == '"'))
    else prepend c (readRawBody? cs)

/-- Reads a raw string from its first three quotes to its last. -/
def readRaw? : LiteralReader
  | '"' :: '"' :: '"' :: cs => readRawBody? cs
  | _ => none

theorem readRawBody?_charTemplate {c : Char} (h : isPlainChar c) (cs : List Char) :
    readRawBody? (charTemplate c ++ cs) = prepend c (readRawBody? cs) := by
  show readRawBody? ('$' :: '\x7b' :: '\'' :: c :: '\'' :: '\x7d' :: cs) = _
  rw [readRawBody?, if_pos h]

theorem readRawBody?_cons {c : Char} {cs : List Char} (hdollar : c ≠ '$')
    (h : ¬ (c = '"' ∧ ['"', '"'] <+: cs)) : readRawBody? (c :: cs) = prepend c (readRawBody? cs) := by
  rw [readRawBody?, if_neg hdollar, if_neg h]
  exact fun _ _ hc => absurd hc hdollar

/-- A run of quotes that ends the string. -/
theorem readRawBody?_quotes (k : Nat) {rest : List Char} (h : rest.head? ≠ some '"') :
    readRawBody? (List.replicate k '"' ++ (tripleQuote ++ rest)) = some (List.replicate k '"', rest) := by
  have hquotes : List.replicate k '"' ++ (tripleQuote ++ rest) =
      '"' :: (List.replicate (k + 2) '"' ++ rest) := by
    rw [show tripleQuote = List.replicate 3 '"' from rfl, ← List.append_assoc,
      List.replicate_append_replicate]
    rfl
  have hstop : rest.takeWhile (· == '"') = [] ∧ rest.dropWhile (· == '"') = rest := by
    cases rest with
    | nil => exact ⟨rfl, rfl⟩
    | cons c cs =>
        have hc : ¬ (c == '"') := by simpa using h
        exact ⟨List.takeWhile_cons_of_neg hc, List.dropWhile_cons_of_neg hc⟩
  have hall : ∀ c ∈ List.replicate (k + 2) '"', (c == '"') = true := by simp
  have hclose : ['"', '"'] <+: List.replicate (k + 2) '"' ++ rest := by
    simp [List.replicate_succ]
  rw [hquotes, readRawBody?, if_neg (by decide), if_pos ⟨rfl, hclose⟩,
    List.takeWhile_append_of_pos hall, List.dropWhile_append_of_pos hall, hstop.1, hstop.2,
    List.append_nil, List.length_replicate, Nat.add_sub_cancel]
  exact fun _ _ hdollar => absurd hdollar (by decide)

/-- What is written for a text that begins with no quote begins with none. -/
theorem not_prefix_rawChars {c : Char} (h : c ≠ '"') (quotes cs ds : List Char) :
    ¬ '"' :: quotes <+: rawChars (c :: cs) ++ ds := by
  rw [rawChars]
  · split
    · simp [charTemplate]
    · simp [h.symm]
  · exact fun _ hc => absurd hc h

/-- Quotes in front of the end of the string are the last characters of the text. -/
theorem quotes_of_prefix {cs ds : List Char} (hc : ∀ es, cs = '"' :: '"' :: es → False)
    (h : ['"', '"'] <+: rawChars cs ++ ds) : cs = [] ∨ cs = ['"'] := by
  cases cs with
  | nil => exact .inl rfl
  | cons c cs =>
      obtain rfl : c = '"' := by
        by_contra hne
        exact not_prefix_rawChars hne _ _ _ h
      cases cs with
      | nil => exact .inr rfl
      | cons d cs =>
          have hne : d ≠ '"' := fun hd => hc cs (by rw [hd])
          have hquote : rawChars ('"' :: d :: cs) = '"' :: rawChars (d :: cs) := by
            rw [rawChars]
            · rfl
            · exact fun _ _ hes => hne (List.cons.inj hes).1
          rw [hquote, List.cons_append, List.cons_prefix_cons] at h
          exact absurd h.2 (not_prefix_rawChars hne _ _ _)

/-- The characters between triple quotes are read as the text. -/
theorem readRawBody?_rawChars (cs : List Char) {rest : List Char} (h : rest.head? ≠ some '"') :
    readRawBody? (rawChars cs ++ (tripleQuote ++ rest)) = some (cs, rest) := by
  fun_induction rawChars cs with
  | case1 => exact readRawBody?_quotes 0 h
  | case2 cs ih =>
      -- two quotes, and a template for the third
      have htwo : ∀ ds, ¬ ['"', '"'] <+: '"' :: (charTemplate '"' ++ ds) := fun ds => by
        simp [charTemplate]
      have hone : ∀ ds, ¬ ['"', '"'] <+: charTemplate '"' ++ ds := fun ds => by
        simp [charTemplate]
      rw [List.cons_append, List.cons_append, List.append_assoc,
        readRawBody?_cons (by decide) fun hopen => htwo _ hopen.2,
        readRawBody?_cons (by decide) fun hopen => hone _ hopen.2,
        readRawBody?_charTemplate (by decide), ih, prepend_some, prepend_some, prepend_some]
  | case3 c cs hc ih =>
      -- a quote is one of fewer than three: it is followed by another character or joins the end
      rw [List.append_assoc]
      split
      · rename_i hdollar
        rw [readRawBody?_charTemplate (by decide), ih, prepend_some, hdollar]
      · rename_i hdollar
        by_cases hopen : c = '"' ∧ ['"', '"'] <+: rawChars cs ++ (tripleQuote ++ rest)
        · obtain ⟨rfl, hprefix⟩ := hopen
          rcases quotes_of_prefix (fun es => hc es rfl) hprefix with rfl | rfl
          · exact readRawBody?_quotes 1 h
          · exact readRawBody?_quotes 2 h
        · rw [List.singleton_append, readRawBody?_cons hdollar hopen, ih, prepend_some]

theorem readRaw?_rawString (s : String) {rest : List Char} (h : rest.head? ≠ some '"') :
    readRaw? ((rawString s).toList ++ rest) = some (s.toList, rest) := by
  have htext : (rawString s).toList ++ rest =
      '"' :: '"' :: '"' :: (rawChars s.toList ++ (tripleQuote ++ rest)) := by
    simp [rawString, tripleQuote]
  rw [htext]
  exact readRawBody?_rawChars s.toList h

/-- Five quotes end a string with two quotes at its end, and a dollar sign cannot stand alone. -/
example : readRaw? "\"\"\"a\"\"\"\"\"".toList = some ("a\"\"".toList, []) ∧
    readRaw? "\"\"\"a$b\"\"\"".toList = none := by decide

/-- The query of a snippet is a raw string that is read as it is. -/
theorem holds_triple_quoted_query (q : QueryCall) :
    ∃ after, HoldsLiteral readRaw? (query q) "val query = " (rawString q.query) after q.query := by
  let call := "val result = " ++ q.client ++ ".query<" ++ q.resultType ++ ">(query)"
  refine ⟨"\n\n" ++ call ++ "\n", ?_, readRaw?_rawString q.query ?_, ?_⟩
  · rw [query, Code.Writer.text_line_blank_line]
  · simp
  · simpa using @readRaw?_rawString q.query [] (by decide)

end Kotlin

end SchemaSnippets.Target

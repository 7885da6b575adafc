import SchemaSnippets.Proofs.Json.Keys
import SchemaSnippets.Proofs.Json.Lexemes
import SchemaSnippets.Proofs.Request.Given
import SchemaSnippets.Proofs.Request.Structures

/-!
# Where a blank query is reported

A blank query is reported at the key `query`, which is searched for by its characters.

* `KeysAsWritten key ls i` : up to the token `i`, what is found is the keys of the name and nothing else;
  `spanOfKey?_eq_spanAt?` : then the first of them is found;
* `CodeRequest.load_eq_invalid` : what is reported, and of which documents;
* `blankQuery_span` : the report is at the first key `query`, which is not the one of the request if an
  object before it has such a key.
-/

namespace SchemaSnippets.Request
open Json Schema Text

/-! ## Searching for keys -/

/-- Up to the token `i` the strings that are the key are written without escapes, and those written with
the key in quotes at their end are keys of this name. -/
structure KeysAsWritten (key : String) (ls : List Lexeme) (i : Nat) : Prop where
  written : ∀ j ≤ i, ∀ l ∈ ls[j]?, l.token = .string (some key) → l.chars = inQuotes key.toList
  keys : ∀ j ≤ i, ∀ l ∈ ls[j]?, inQuotes key.toList <:+ l.chars → KeyAt key (ls.map (·.token)) j

/-- The first key of the name is found. -/
theorem spanOfKey?_eq_spanAt? {src key : String} {ls : List Lexeme} {i : Nat}
    (hw : IsPlainWord key.toList) (hls : lexemes? src = some ls) (h : KeysAsWritten key ls i)
    (hkey : KeyAt key (ls.map (·.token)) i) :
    ∃ j, FirstKeyAt key (ls.map (·.token)) j ∧ spanOfKey? src key = spanAt? ls j ∧
      (spanAt? ls j).isSome := by
  obtain ⟨j, hle, hfirst, hmin⟩ := hkey.exists_first
  obtain ⟨l, hl, htoken⟩ := Option.map_eq_some_iff.1 (List.getElem?_map.symm.trans hfirst.1)
  have hchars := h.written j hle l hl htoken
  have hplace : spanAt? ls j = some
      ⟨byteLength ((ls.take j).flatMap Lexeme.text ++ (l.blanks ++ [])),
        byteLength (inQuotes key.toList)⟩ := by
    rw [spanAt?, hl, Option.map_some, hchars, List.append_nil]
  have hnone : ∀ m ∈ ls.take j, ¬ inQuotes key.toList <:+ m.chars := by
    intro m hm hends
    obtain ⟨k, hk, rfl⟩ := List.mem_take_iff_getElem.1 hm
    have hlt : k < j := Nat.lt_of_lt_of_le hk (Nat.min_le_left _ _)
    exact hmin k hlt (h.keys k (hlt.le.trans hle) _ (List.getElem?_eq_getElem _) hends)
  obtain ⟨hlt, hget⟩ := List.getElem?_eq_some_iff.1 hl
  have hsplit : ls = ls.take j ++ l :: ls.drop (j + 1) := by
    rw [← hget, List.getElem_cons_drop, List.take_append_drop]
  refine ⟨j, ⟨hfirst, hmin⟩, ?_, ?_⟩
  · rw [hplace, spanOfKey?_eq_some_iff hw hls]
    exact .mk hsplit hnone hchars
  · rw [hplace]
    rfl

theorem isPlainWord_query : IsPlainWord "query".toList where
  plain := List.forall_iff_forall_mem.1 (by decide)
  head := ⟨'q', "uery".toList, rfl, rfl, fun _ => rfl⟩

/-! ## Reports of blank queries -/

theorem CodeRequest.load_eq_invalid {src message : String} {span : Option Span} :
    CodeRequest.load src = .error (.invalid message span) ↔
      ∃ e, RequestEntry.ofText? src = some e ∧ Text.trim e.query = "" ∧
        message = "query must not be empty" ∧ span = spanOfKey? src "query" := by
  unfold CodeRequest.load RequestEntry.ofText?
  generalize (Document.ofText? src).bind (RequestEntry.read? Document.maxDepth) = entry
  cases entry with
  | none => simp only [reduceCtorEq, false_and, exists_false, Except.error.injEq]
  | some e =>
      simp only [Option.some.injEq, exists_eq_left']
      by_cases hquery : Text.trim e.query = ""
      · simp only [hquery, if_true, LoadError.atKey, Except.error.injEq, LoadError.invalid.injEq,
          true_and, eq_comm]
      · simp only [hquery, if_false, reduceCtorEq, false_and]

/-- A request in an object has one member for its query. -/
theorem RequestEntry.exists_query {e : RequestEntry} {members : List (Option String × Document)}
    {depth : Nat} (h : RequestEntry.read? depth (.object members) = some e) :
    ∃ before value after, members = before ++ (some "query", value) :: after ∧
      (∀ m ∈ before ++ after, m.1 ≠ some "query") ∧ value.text? = some e.query := by
  obtain ⟨n, xs, hslots, htold⟩ := RequestEntry.read?_eq_some.1 h
  obtain ⟨rfl, -⟩ := shape_of_slots? hslots
  rw [Document.slots?] at hslots
  split at hslots
  · rename_i hkeys
    obtain ⟨hkeys, hsingle⟩ := Bool.and_eq_true_iff.1 hkeys
    cases hslots
    obtain ⟨slot, slots, hquery, -, hslots⟩ := List.forall₂_cons_left_iff.1 htold
    obtain rfl : Document.lookup "query" members = slot := (List.cons.inj hslots).1
    cases hlookup : Document.lookup "query" members with
    | none =>
        rw [hlookup] at hquery
        cases hquery
    | some value =>
        rw [hlookup] at hquery
        obtain ⟨before, after, rfl, hother⟩ := Document.exists_split_of_lookup
          (List.all_eq_true.1 hsingle "query" (by decide)) hlookup
        exact ⟨before, value, after, rfl, hother, hquery⟩
  · cases hslots

/-- A blank query is reported at the first key `query` of the document. -/
theorem blankQuery_span {src : String} {members : List (Option String × Document)}
    {span : Option Span} (hdocument : Document.ofText? src = some (.object members))
    (hload : CodeRequest.load src = .error (.invalid "query must not be empty" span)) :
    ∃ ls before value after, lexemes? src = some ls ∧
      members = before ++ (some "query", value) :: after ∧
      (∀ m ∈ before ++ after, m.1 ≠ some "query") ∧
      ls.map (·.token) = Document.tokensBefore before ++ .string (some "query") :: .colon ::
        (value.tokens ++ Document.tokensOfMembers after) ∧
      (KeysAsWritten "query" ls (Document.tokensBefore before).length →
        ∃ i, FirstKeyAt "query" (ls.map (·.token)) i ∧ span = spanAt? ls i ∧ span.isSome ∧
          (i = (Document.tokensBefore before).length ↔ ∀ m ∈ before, ¬ m.2.HasKey "query")) := by
  obtain ⟨e, hentry, -, -, rfl⟩ := CodeRequest.load_eq_invalid.1 hload
  rw [RequestEntry.ofText?, hdocument, Option.bind_some] at hentry
  obtain ⟨before, value, after, rfl, hother, -⟩ := RequestEntry.exists_query hentry
  obtain ⟨ls, hls, htokens⟩ := Document.exists_lexemes_of_ofText? hdocument
  rw [Document.tokens_object_append] at htokens
  refine ⟨ls, before, value, after, hls, rfl, hother, htokens, fun hwritten => ?_⟩
  have hkey : KeyAt "query" (ls.map (·.token)) (Document.tokensBefore before).length := by
    rw [htokens]
    exact keyAt_length_append _ _ _
  obtain ⟨i, hfirst, hspan, hsome⟩ := spanOfKey?_eq_spanAt? isPlainWord_query hls hwritten hkey
  refine ⟨i, hfirst, hspan, hspan ▸ hsome, ?_⟩
  rw [htokens] at hfirst
  exact Document.eq_length_tokensBefore_iff (List.forall_mem_append.1 hother).1 hfirst

/-- A request whose query is behind the type that it returns. -/
def blankText : String :=
  "\x7b\"returnType\": \x7b\"name\": \"Film\"\x7d, \"query\": \" \"\x7d"

def blankMembers : List (Option String × Document) :=
  [(some "returnType", .object [(some "name", .string (some "Film"))]),
    (some "query", .string (some " "))]

theorem blankQuery_reported_at_key :
    Document.ofText? blankText = some (.object blankMembers) ∧
      CodeRequest.load blankText = .error (.invalid "query must not be empty" (some ⟨33, 7⟩)) ∧
      (∃ ls, lexemes? blankText = some ls ∧ KeysAsWritten "query" ls 9) ∧
      ∃ ls before value after, lexemes? blankText = some ls ∧
        blankMembers = before ++ (some "query", value) :: after ∧
        (∀ m ∈ before ++ after, m.1 ≠ some "query") ∧
        ls.map (·.token) = Document.tokensBefore before ++ .string (some "query") :: .colon ::
          (value.tokens ++ Document.tokensOfMembers after) ∧
        (KeysAsWritten "query" ls (Document.tokensBefore before).length →
          ∃ i, FirstKeyAt "query" (ls.map (·.token)) i ∧ some ⟨33, 7⟩ = spanAt? ls i ∧
            (some (⟨33, 7⟩ : Span)).isSome ∧
            (i = (Document.tokensBefore before).length ↔ ∀ m ∈ before, ¬ m.2.HasKey "query")) := by
  have hdocument : Document.ofText? blankText = some (.object blankMembers) :=
    Document.ofText?_of_tokens (by decide +kernel)
  have hentry : RequestEntry.ofText? blankText =
      some ⟨" ", TypeEntry.ofName (.ofFull "Film"), ⟨[], []⟩, []⟩ := by
    rw [RequestEntry.ofText?, hdocument]
    rfl
  have hload : CodeRequest.load blankText =
      .error (.invalid "query must not be empty" (some ⟨33, 7⟩)) :=
    CodeRequest.load_eq_invalid.2 ⟨_, hentry, by decide, rfl, by decide +kernel⟩
  obtain ⟨ls, hls⟩ := Option.isSome_iff_exists.1 (by decide +kernel : (lexemes? blankText).isSome)
  have hwritten : ∀ ls ∈ lexemes? blankText, ∀ j ≤ 9, ∀ l ∈ ls[j]?,
      l.token = .string (some "query") → l.chars = inQuotes "query".toList := by
    decide +kernel
  have hkeys : ∀ ls ∈ lexemes? blankText, ∀ j ≤ 9, ∀ l ∈ ls[j]?,
      inQuotes "query".toList <:+ l.chars → KeyAt "query" (ls.map (·.token)) j := by
    decide +kernel
  exact ⟨hdocument, hload, ⟨ls, hls, hwritten ls hls, hkeys ls hls⟩,
    blankQuery_span hdocument hload⟩

/-- A request for a type with an attribute `query`, its own query being behind the type. -/
def queryAttributeText : String :=
  "\x7b\"returnType\": \x7b\"name\": \"films.Film\", \"attributes\": " ++
    "\x7b\"query\": \x7b\"type\": \"lang.taxi.String\"\x7d\x7d\x7d, \"query\": \"\"\x7d"

def queryAttributeBefore : List (Option String × Document) :=
  [(some "returnType", .object [(some "name", .string (some "films.Film")),
    (some "attributes", .object [(some "query",
      .object [(some "type", .string (some "lang.taxi.String"))])])])]

/-- The attribute is reported, and the key of the query is behind it. -/
theorem queryAttribute_reported :
    Document.ofText? queryAttributeText =
        some (.object (queryAttributeBefore ++ [(some "query", .string (some ""))])) ∧
      CodeRequest.load queryAttributeText =
        .error (.invalid "query must not be empty" (some ⟨53, 7⟩)) ∧
      ∃ ls, lexemes? queryAttributeText = some ls ∧
        ls.map (·.token) = Document.tokensBefore queryAttributeBefore ++
          [.string (some "query"), .colon, .string (some ""), .closeBrace] ∧
        spanAt? ls (Document.tokensBefore queryAttributeBefore).length = some ⟨94, 7⟩ := by
  have hdocument : Document.ofText? queryAttributeText =
      some (.object (queryAttributeBefore ++ [(some "query", .string (some ""))])) :=
    Document.ofText?_of_tokens (by decide +kernel)
  have hentry : RequestEntry.ofText? queryAttributeText =
      some ⟨"", { TypeEntry.ofName (.ofFull "films.Film") with
        attributes := [("query", ⟨.ofFull "lang.taxi.String", false, [], none, none, none⟩)] },
        ⟨[], []⟩, []⟩ := by
    rw [RequestEntry.ofText?, hdocument]
    rfl
  obtain ⟨ls, hls, htokens⟩ := Document.exists_lexemes_of_ofText? hdocument
  have hspan : ∀ ls ∈ lexemes? queryAttributeText,
      spanAt? ls (Document.tokensBefore queryAttributeBefore).length = some ⟨94, 7⟩ := by
    decide +kernel
  exact ⟨hdocument,
    CodeRequest.load_eq_invalid.2 ⟨_, hentry, by decide, rfl, by decide +kernel⟩,
    ls, hls, htokens.trans (Document.tokens_object_append _ _ _ _), hspan ls hls⟩

end SchemaSnippets.Request

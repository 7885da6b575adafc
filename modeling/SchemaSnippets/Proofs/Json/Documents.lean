import SchemaSnippets.Json.Document

/-!
# Documents and their tokens

* `Document.tokens` : the tokens that spell a document; `ofTokens?_tokens` : they are read back as this
  document;
* `ReadsTokens` : no other tokens are read as it; `eq_tokens_of_ofTokens?` : so tokens are spelled by
  what is read;
* `ofText?_of_tokens` : a text that has these tokens spells the document.
-/

namespace SchemaSnippets.Json.Document

mutual

/-- The tokens that spell a document. -/
def tokens : Document → List Token
  | .null => [.null]
  | .bool b => [.bool b]
  | .number n => [.number n]
  | .string s => [.string s]
  | .array [] => [.openBracket, .closeBracket]
  | .array (d :: ds) => .openBracket :: d.tokens ++ tokensOfItems ds
  | .object [] => [.openBrace, .closeBrace]
  | .object ((k, d) :: ms) => .openBrace :: .string k :: .colon :: d.tokens ++ tokensOfMembers ms

/-- The tokens behind the first item of an array. -/
def tokensOfItems : List Document → List Token
  | [] => [.closeBracket]
  | d :: ds => .comma :: d.tokens ++ tokensOfItems ds

/-- The tokens behind the first member of an object. -/
def tokensOfMembers : List (Option String × Document) → List Token
  | [] => [.closeBrace]
  | (k, d) :: ms => .comma :: .string k :: .colon :: d.tokens ++ tokensOfMembers ms

end

/-- The first token of a document closes nothing. -/
theorem exists_tokens_eq_cons (d : Document) :
    ∃ t ts, d.tokens = t :: ts ∧ t ≠ .closeBracket := by
  cases d with
  | array items => cases items <;> simp [tokens]
  | object members => cases members <;> simp [tokens]
  | _ => simp [tokens]

theorem read?_openBracket {fuel : Nat} {t : Token} {ts : List Token} (h : t ≠ .closeBracket) :
    read? (fuel + 1) (.openBracket :: t :: ts) =
      (readItems? fuel (t :: ts)).map fun (items, rest) => (.array items, rest) := by
  rw [read?]
  exact fun _ heq => h (List.cons.inj heq).1

theorem length_tokens_pos (d : Document) : 0 < d.tokens.length := by
  obtain ⟨t, ts, htokens, -⟩ := d.exists_tokens_eq_cons
  simp [htokens]

mutual

/-- A document is read from its tokens, whatever is behind them. -/
theorem read?_tokens (d : Document) (rest : List Token) : (fuel : Nat) →
    2 * d.tokens.length ≤ fuel → read? fuel (d.tokens ++ rest) = some (d, rest)
  | 0, h => by
      have := d.length_tokens_pos
      omega
  | fuel + 1, h => by
      match d with
      | .null => rfl
      | .bool b => rfl
      | .number n => rfl
      | .string s => rfl
      | .array [] => rfl
      | .array (e :: ds) =>
          obtain ⟨t, ts, htokens, hclosing⟩ := e.exists_tokens_eq_cons
          have hitems := readItems?_tokens e ds rest fuel (by simp [tokens] at h; omega)
          rw [htokens, List.cons_append] at hitems
          simp only [tokens, List.cons_append, List.append_assoc, htokens]
          rw [read?_openBracket hclosing, hitems]
          rfl
      | .object [] => rfl
      | .object ((k, e) :: ms) =>
          have hmembers := readMembers?_tokens k e ms rest fuel (by simp [tokens] at h; omega)
          simp only [tokens, List.cons_append, List.append_assoc]
          rw [read?, hmembers]
          · rfl
          · exact fun _ heq => nomatch heq

theorem readItems?_tokens (d : Document) (ds : List Document) (rest : List Token) : (fuel : Nat) →
    2 * (d.tokens.length + (tokensOfItems ds).length) + 1 ≤ fuel →
    readItems? fuel (d.tokens ++ (tokensOfItems ds ++ rest)) = some (d :: ds, rest)
  | fuel + 1, h => by
      rw [readItems?, read?_tokens d _ fuel (by omega)]
      match ds with
      | [] => rfl
      | e :: ds =>
          have hitems := readItems?_tokens e ds rest fuel (by simp [tokensOfItems] at h; omega)
          simp [tokensOfItems, hitems]

theorem readMembers?_tokens (k : Option String) (d : Document) (ms : List (Option String × Document))
    (rest : List Token) : (fuel : Nat) →
    2 * (d.tokens.length + (tokensOfMembers ms).length) + 1 ≤ fuel →
    readMembers? fuel (.string k :: .colon :: (d.tokens ++ (tokensOfMembers ms ++ rest))) =
      some ((k, d) :: ms, rest)
  | fuel + 1, h => by
      rw [readMembers?, read?_tokens d _ fuel (by omega)]
      match ms with
      | [] => rfl
      | (k', e) :: ms =>
          have hmembers := readMembers?_tokens k' e ms rest fuel
            (by simp [tokensOfMembers] at h; omega)
          simp [tokensOfMembers, hmembers]

end

theorem ofTokens?_tokens (d : Document) : ofTokens? d.tokens = some d := by
  have h := d.read?_tokens [] (2 * d.tokens.length + 1) (by omega)
  rw [List.append_nil] at h
  rw [ofTokens?, h]

/-! ## Nothing else is read -/

/-- What is read with some fuel is spelled by the tokens that it takes. -/
structure ReadsTokens (fuel : Nat) : Prop where
  document : ∀ {ts d rest}, read? fuel ts = some (d, rest) → ts = d.tokens ++ rest
  items : ∀ {ts items rest}, readItems? fuel ts = some (items, rest) →
    ∃ d ds, items = d :: ds ∧ ts = d.tokens ++ (tokensOfItems ds ++ rest)
  members : ∀ {ts members rest}, readMembers? fuel ts = some (members, rest) →
    ∃ k d ms, members = (k, d) :: ms ∧
      ts = .string k :: .colon :: (d.tokens ++ (tokensOfMembers ms ++ rest))

theorem ReadsTokens.zero : ReadsTokens 0 where
  document h := by cases h
  items h := by cases h
  members h := by cases h

theorem ReadsTokens.succ {fuel : Nat} (h : ReadsTokens fuel) : ReadsTokens (fuel + 1) where
  document := by
    intro ts d rest hread
    cases ts with
    | nil => cases hread
    | cons t ts =>
        unfold read? at hread
        dsimp only at hread
        split at hread
        · cases hread
          rfl
        · cases hread
          rfl
        · cases hread
          rfl
        · cases hread
          rfl
        · split at hread
          · cases hread
            rfl
          · obtain ⟨⟨items, behind⟩, hitems, hread⟩ := Option.map_eq_some_iff.1 hread
            obtain ⟨d, ds, rfl, hts⟩ := h.items hitems
            cases hread
            rw [hts, tokens, List.cons_append, List.cons_append, List.append_assoc]
        · split at hread
          · cases hread
            rfl
          · obtain ⟨⟨members, behind⟩, hmembers, hread⟩ := Option.map_eq_some_iff.1 hread
            obtain ⟨k, d, ms, rfl, hts⟩ := h.members hmembers
            cases hread
            rw [hts, tokens, List.append_assoc]
            rfl
        · cases hread
  items := by
    intro ts items rest hread
    unfold readItems? at hread
    obtain ⟨⟨d, behind⟩, hd, hread⟩ := Option.bind_eq_some_iff.1 hread
    have hts := h.document hd
    dsimp only at hread
    split at hread
    · cases hread
      exact ⟨d, [], rfl, hts⟩
    · obtain ⟨⟨items, behind⟩, hitems, hread⟩ := Option.bind_eq_some_iff.1 hread
      obtain ⟨e, es, rfl, hbehind⟩ := h.items hitems
      cases hread
      refine ⟨d, e :: es, rfl, ?_⟩
      rw [hts, hbehind, tokensOfItems, List.append_assoc]
      rfl
    · cases hread
  members := by
    intro ts members rest hread
    unfold readMembers? at hread
    dsimp only at hread
    split at hread
    · obtain ⟨⟨d, behind⟩, hd, hread⟩ := Option.bind_eq_some_iff.1 hread
      have hts := h.document hd
      dsimp only at hread
      split at hread
      · cases hread
        exact ⟨_, d, [], rfl, congrArg (fun ts => _ :: _ :: ts) hts⟩
      · obtain ⟨⟨members, behind⟩, hmembers, hread⟩ := Option.bind_eq_some_iff.1 hread
        obtain ⟨k, e, ms, rfl, hbehind⟩ := h.members hmembers
        cases hread
        refine ⟨_, d, (k, e) :: ms, rfl, ?_⟩
        rw [hts, hbehind, tokensOfMembers, List.append_assoc]
        rfl
      · cases hread
    · cases hread

theorem readsTokens (fuel : Nat) : ReadsTokens fuel := by
  induction fuel with
  | zero => exact .zero
  | succ fuel ih => exact ih.succ

theorem eq_tokens_of_ofTokens? {ts : List Token} {d : Document} (h : ofTokens? ts = some d) :
    ts = d.tokens := by
  unfold ofTokens? at h
  split at h
  · rename_i hread
    obtain rfl := Option.some.inj h
    rw [(readsTokens _).document hread, List.append_nil]
  · cases h

theorem exists_lexemes_of_ofText? {src : String} {d : Document} (h : ofText? src = some d) :
    ∃ ls, lexemes? src = some ls ∧ ls.map (·.token) = d.tokens := by
  obtain ⟨ls, hls, hread⟩ := Option.bind_eq_some_iff.1 h
  exact ⟨ls, hls, eq_tokens_of_ofTokens? hread⟩

/-- A text with the tokens of a document spells the document. -/
theorem ofText?_of_tokens {src : String} {d : Document}
    (h : (lexemes? src).map (·.map (·.token)) = some d.tokens) : ofText? src = some d := by
  obtain ⟨ls, hls, htokens⟩ := Option.map_eq_some_iff.1 h
  rw [ofText?, hls, Option.bind_some, htokens, ofTokens?_tokens]

end SchemaSnippets.Json.Document

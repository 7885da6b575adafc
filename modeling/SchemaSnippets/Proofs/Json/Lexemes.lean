import Mathlib.Data.List.Chain
import Mathlib.Data.List.TakeDrop
import SchemaSnippets.Json.Token
import SchemaSnippets.Proofs.Text.Position

/-!
# Words in the lexemes of a text

A word in double quotes is searched for in a text by its characters alone. In the text of a document it
is found nowhere but at the ends of strings, for each quote inside a string has a backslash before it.

* `IsLexed cs ls` : the characters consist of the lexemes, with blanks behind; `isLexed_of_lexemes?` : so
  it is where the lexemes are read from;
* `IsWritten chars` : the characters of a token, each quote of a string but the outer ones escaped;
* `spanAt? ls i` : the place of a token;
* `IsPlainWord w` : a word that no token begins with and that needs no escapes;
  `eq_inQuotes_of_begins` : in quotes it is the end of a token or begins at none of its characters;
* `FirstEnding w ls` : the last characters of the first token that ends in the word in quotes;
  `spanOfKey?_eq_some_iff` : this is what is found.
-/

namespace SchemaSnippets.Json
open Text

/-! ## Characters of tokens -/

/-- A quote needs a backslash before it. -/
def Escapes (c d : Char) : Prop :=
  d = '"' → c = '\\'

/-- The characters of a token. Between the quotes of a string every quote is escaped. -/
inductive IsWritten : List Char → Prop
  | string {body : List Char} (h : ('"' :: body).IsChain Escapes) :
      IsWritten ('"' :: (body ++ ['"']))
  | other {chars : List Char} (hne : chars ≠ []) (h : '"' ∉ chars) : IsWritten chars

theorem ne_quote_of_hexUnit? {a b c d : Char} (h : (hexUnit? a b c d).isSome) :
    a ≠ '"' ∧ b ≠ '"' ∧ c ≠ '"' ∧ d ≠ '"' := by
  have hquote : hexValue? '"' = none := by decide
  refine ⟨?_, ?_, ?_, ?_⟩
  all_goals
    rintro rfl
    simp [hexUnit?, hquote] at h

theorem isChain_of_stringBody? {cs body rest : List Char} (h : stringBody? cs = some (body, rest))
    (last : Char) : cs = body ++ '"' :: rest ∧ (last :: body).IsChain Escapes := by
  have hescapes : ∀ {c d : Char}, d ≠ '"' → Escapes c d := fun hd heq => absurd heq hd
  fun_induction stringBody? cs generalizing body last with
  | case1 => cases h
  | case2 cs =>
      cases h
      exact ⟨rfl, .singleton last⟩
  | case3 a b c d cs hhex ih =>
      obtain ⟨⟨body, rest⟩, hbody, hwhole⟩ := Option.map_eq_some_iff.1 h
      cases hwhole
      obtain ⟨rfl, hchain⟩ := ih hbody d
      obtain ⟨ha, hb, hc, hd⟩ := ne_quote_of_hexUnit? hhex
      exact ⟨rfl, .cons_cons (hescapes (by decide)) <| .cons_cons (hescapes (by decide)) <|
        .cons_cons (hescapes ha) <| .cons_cons (hescapes hb) <| .cons_cons (hescapes hc) <|
        .cons_cons (hescapes hd) hchain⟩
  | case5 e cs _ hletter ih =>
      obtain ⟨⟨body, rest⟩, hbody, hwhole⟩ := Option.map_eq_some_iff.1 h
      cases hwhole
      obtain ⟨rfl, hchain⟩ := ih hbody e
      exact ⟨rfl, .cons_cons (hescapes (by decide)) (.cons_cons (fun _ => rfl) hchain)⟩
  | case8 c cs hquote _ _ _ ih =>
      obtain ⟨⟨body, rest⟩, hbody, hwhole⟩ := Option.map_eq_some_iff.1 h
      cases hwhole
      obtain ⟨rfl, hchain⟩ := ih hbody c
      exact ⟨rfl, .cons_cons (hescapes hquote) hchain⟩
  | case4 | case6 | case7 => cases h

theorem readToken?_eq_some {cs chars rest : List Char} {t : Token}
    (h : readToken? cs = some (t, chars, rest)) : cs = chars ++ rest ∧ IsWritten chars := by
  unfold readToken? at h
  split at h
  case h_10 =>
    obtain ⟨⟨body, rest⟩, hbody, hwhole⟩ := Option.map_eq_some_iff.1 h
    cases hwhole
    obtain ⟨rfl, hchain⟩ := isChain_of_stringBody? hbody '"'
    refine ⟨?_, .string hchain⟩
    rw [List.append_assoc]
    rfl
  case h_11 =>
    rw [List.span_eq_takeWhile_dropWhile] at h
    dsimp only at h
    split at h
    · rename_i n hnumeral
      cases h
      refine ⟨List.takeWhile_append_dropWhile.symm, .other (fun hnil => ?_) fun hquote => ?_⟩
      · rw [hnil] at hnumeral
        cases hnumeral
      · exact absurd (List.mem_takeWhile_imp hquote) (by decide)
    · cases h
  all_goals
    cases h
    exact ⟨rfl, .other (List.cons_ne_nil _ _) (by decide)⟩

/-! ## Lexemes of a text -/

/-- The characters of a lexeme. -/
def Lexeme.text (l : Lexeme) : List Char :=
  l.blanks ++ l.chars

/-- The place of the token `i`. -/
def spanAt? (ls : List Lexeme) (i : Nat) : Option Span :=
  ls[i]?.map fun l =>
    ⟨byteLength ((ls.take i).flatMap Lexeme.text ++ l.blanks), byteLength l.chars⟩

/-- The characters are those of the lexemes and blanks behind them. -/
inductive IsLexed : List Char → List Lexeme → Prop
  | blanks {cs : List Char} (h : ∀ c ∈ cs, isBlank c) : IsLexed cs []
  | lexeme {l : Lexeme} {ls : List Lexeme} {rest : List Char} (hblanks : ∀ c ∈ l.blanks, isBlank c)
      (htoken : readToken? (l.chars ++ rest) = some (l.token, l.chars, rest)) (h : IsLexed rest ls) :
      IsLexed (l.text ++ rest) (l :: ls)

theorem isLexed_of_lexemesFrom? {fuel : Nat} {cs tail : List Char} {ls : List Lexeme}
    (h : lexemesFrom? fuel cs = some (ls, tail)) : IsLexed cs ls := by
  induction fuel generalizing cs ls with
  | zero => cases h
  | succ fuel ih =>
      have hcut : cs = cs.takeWhile isBlank ++ cs.dropWhile isBlank :=
        List.takeWhile_append_dropWhile.symm
      have hblanks : ∀ c ∈ cs.takeWhile isBlank, isBlank c := fun c hc => List.mem_takeWhile_imp hc
      rw [lexemesFrom?, List.span_eq_takeWhile_dropWhile] at h
      dsimp only at h
      generalize cs.takeWhile isBlank = blanks at h hcut hblanks
      split at h
      · rename_i hempty
        cases h
        rw [List.isEmpty_iff.1 hempty, List.append_nil] at hcut
        rw [hcut]
        exact .blanks hblanks
      · obtain ⟨⟨t, chars, rest⟩, htoken, h⟩ := Option.bind_eq_some_iff.1 h
        obtain ⟨⟨later, tail⟩, hlater, h⟩ := Option.bind_eq_some_iff.1 h
        cases h
        have hrest := (readToken?_eq_some htoken).1
        rw [hrest] at htoken hcut
        rw [hcut, ← List.append_assoc]
        exact .lexeme (l := ⟨blanks, chars, t⟩) hblanks htoken (ih hlater)

theorem isLexed_of_lexemes? {src : String} {ls : List Lexeme} (h : lexemes? src = some ls) :
    IsLexed src.toList ls := by
  obtain ⟨⟨ls, tail⟩, hread, rfl⟩ := Option.map_eq_some_iff.1 h
  exact isLexed_of_lexemesFrom? hread

/-! ## Words in quotes -/

/-- A word in double quotes. -/
def inQuotes (w : List Char) : List Char :=
  '"' :: (w ++ ['"'])

/-- A word that is the same in a string, whose first letter begins no token. -/
structure IsPlainWord (w : List Char) : Prop where
  plain : ∀ c ∈ w, c ≠ '"' ∧ c ≠ '\\'
  head : ∃ c v, w = c :: v ∧ isBlank c = false ∧ ∀ cs, readToken? (c :: cs) = none

section Words
variable {w : List Char} (hw : IsPlainWord w)
include hw

/-- Between lexemes no word begins. -/
theorem IsLexed.head?_ne {cs : List Char} {ls : List Lexeme} (h : IsLexed cs ls) :
    cs.head? ≠ w.head? := by
  obtain ⟨c, v, rfl, hblank, htoken⟩ := hw.head
  have hne : ∀ {d : Char}, isBlank d → some d ≠ some c := by
    intro d hd heq
    rw [Option.some.inj heq, hblank] at hd
    cases hd
  cases h with
  | blanks h =>
      cases cs with
      | nil => nofun
      | cons d cs => exact hne (h d List.mem_cons_self)
  | @lexeme l ls rest hblanks hread _ =>
      rw [Lexeme.text]
      cases hl : l.blanks with
      | nil =>
          intro hhead
          rw [List.nil_append] at hhead
          obtain ⟨ds, hds⟩ := List.head?_eq_some_iff.1 hhead
          rw [hds, htoken] at hread
          cases hread
      | cons d ds => exact hne (hblanks d (hl ▸ List.mem_cons_self))

/-- With every quote escaped, a word that ends before a quote is all there is before the last one. -/
theorem eq_of_escaped {r ds rest : List Char} (hr : ('"' :: r).IsChain Escapes)
    (h : w ++ '"' :: ds = r ++ '"' :: rest) : r = w := by
  have hbefore : ∀ {x ds : List Char}, '"' ∉ x → (x ++ '"' :: ds).takeWhile (· != '"') = x := by
    intro x ds hx
    rw [List.takeWhile_append_of_pos fun c hc => bne_iff_ne.2 (by rintro rfl; exact hx hc)]
    exact List.append_nil x
  have hword : '"' ∉ w := fun hmem => (hw.plain _ hmem).1 rfl
  by_cases hquote : '"' ∈ r
  · -- the first quote of `r` would end the word, but the word has no backslash to escape it
    obtain ⟨x, y, rfl, hx⟩ := List.eq_append_cons_of_mem hquote
    rw [List.append_assoc] at h
    have hx := (hbefore hword).symm.trans ((congrArg _ h).trans (hbefore hx))
    obtain ⟨c, v, hcv, -, -⟩ := hw.head
    rw [← hx, ← List.cons_append] at hr
    have hlast : w.getLast (hcv ▸ List.cons_ne_nil c v) ∈ ('"' :: w).getLast? := by
      rw [List.getLast?_cons, List.getLast?_eq_some_getLast (hcv ▸ List.cons_ne_nil c v)]
      rfl
    have hslash := (List.isChain_append.1 hr).2.2 _ hlast '"' rfl rfl
    exact absurd hslash (hw.plain _ (List.getLast_mem _)).2
  · exact (hbefore hquote).symm.trans ((congrArg _ h.symm).trans (hbefore hword))

/-- A word in quotes that begins inside a token is the rest of the token: behind the opening quote or behind
an escaped one, there is no quote for it to end in but the closing one. -/
theorem eq_inQuotes_of_begins {p q rest : List Char} (hchars : IsWritten (p ++ q)) (hq : q ≠ [])
    (hrest : rest.head? ≠ w.head?) (h : inQuotes w <+: q ++ rest) : q = inQuotes w := by
  obtain ⟨d, q, rfl⟩ := List.exists_cons_of_ne_nil hq
  obtain ⟨rfl, ds, hword⟩ := List.cons_prefix_cons.1 h
  change w ++ ['"'] ++ ds = q ++ rest at hword
  generalize hpq : p ++ '"' :: q = chars at hchars
  cases hchars with
  | other _ hnone => exact absurd (hpq ▸ List.mem_append_right p List.mem_cons_self) hnone
  | @string body hescaped =>
      rcases List.eq_nil_or_concat' q with rfl | ⟨r, e, rfl⟩
      · -- behind the closing quote
        obtain ⟨c, v, rfl, -, -⟩ := hw.head
        rw [List.nil_append] at hword
        rw [← hword] at hrest
        exact absurd rfl hrest
      · rw [← List.cons_append, ← List.append_assoc, ← List.cons_append] at hpq
        obtain ⟨hbody, hlast⟩ := List.append_inj' hpq rfl
        obtain rfl : e = '"' := (List.cons.inj hlast).1
        rw [List.append_assoc, List.append_assoc] at hword
        rw [eq_of_escaped hw (hbody ▸ hescaped).right_of_append hword, inQuotes]

/-! ## Searching lexemes -/

/-- In a lexeme a word in quotes begins only where it ends the token. -/
theorem eq_inQuotes_of_begins_text {l : Lexeme} {p q rest : List Char}
    (hblanks : ∀ c ∈ l.blanks, isBlank c) (hchars : IsWritten l.chars) (hq : q ≠ [])
    (hrest : rest.head? ≠ w.head?) (hl : l.text = p ++ q) (h : inQuotes w <+: q ++ rest) :
    q = inQuotes w ∧ q <:+ l.chars := by
  rcases List.append_eq_append_iff.1 hl with ⟨before, -, hwhole⟩ | ⟨before, hsome, hwhole⟩
  · rw [hwhole] at hchars ⊢
    exact ⟨eq_inQuotes_of_begins hw hchars hq hrest h, List.suffix_append before q⟩
  · cases before with
    | nil =>
        rw [List.nil_append] at hwhole
        rw [hwhole] at h hq ⊢
        exact ⟨eq_inQuotes_of_begins (p := []) hw hchars hq hrest h, List.suffix_refl _⟩
    | cons c cs =>
        rw [hwhole] at h
        have hquote : '"' = c := (List.cons_prefix_cons.1 h).1
        have hblank := hblanks c (hsome ▸ List.mem_append_right p List.mem_cons_self)
        rw [← hquote] at hblank
        cases hblank

/-- The search passes lexemes that do not end in the word. -/
theorem IsLexed.before?_append {cs : List Char} {front back : List Lexeme}
    (h : IsLexed cs (front ++ back)) (hnone : ∀ l ∈ front, ¬ inQuotes w <:+ l.chars) :
    ∃ rest, cs = front.flatMap Lexeme.text ++ rest ∧ IsLexed rest back ∧
      before? (inQuotes w) cs =
        (before? (inQuotes w) rest).map (front.flatMap Lexeme.text ++ ·) := by
  induction front generalizing cs with
  | nil => exact ⟨cs, rfl, h, Option.map_id'.symm⟩
  | cons l front ih =>
      obtain ⟨hl, hfront⟩ := List.forall_mem_cons.1 hnone
      cases h with
      | @lexeme _ _ behind hblanks htoken h =>
          obtain ⟨rest, rfl, hback, hsearch⟩ := ih h hfront
          have hpass : ∀ p q, l.text = p ++ q → q ≠ [] →
              ¬ inQuotes w <+: q ++ (front.flatMap Lexeme.text ++ rest) := by
            intro p q hpq hq hprefix
            obtain ⟨rfl, hends⟩ := eq_inQuotes_of_begins_text hw hblanks
              (readToken?_eq_some htoken).2 hq (h.head?_ne hw) hpq hprefix
            exact hl hends
          refine ⟨rest, ?_, hback, ?_⟩
          · rw [List.flatMap_cons, List.append_assoc]
          · rw [Text.before?_append hpass, hsearch, Option.map_map]
            refine congrArg (Option.map · _) (funext fun before => ?_)
            rw [Function.comp_apply, List.flatMap_cons, List.append_assoc]

/-- It ends at the end of a token that ends in the word. -/
theorem IsLexed.before?_eq_some {cs before : List Char} {l : Lexeme} {back : List Lexeme}
    (h : IsLexed cs (l :: back)) (hl : l.chars = before ++ inQuotes w) :
    before? (inQuotes w) cs = some (l.blanks ++ before) := by
  cases h with
  | @lexeme _ _ rest hblanks htoken h =>
      have htext : l.text = l.blanks ++ before ++ inQuotes w := by
        rw [Lexeme.text, hl, List.append_assoc]
      have hpass : ∀ p q, l.blanks ++ before = p ++ q → q ≠ [] →
          ¬ inQuotes w <+: q ++ (inQuotes w ++ rest) := by
        intro p q hpq hq hprefix
        rw [hpq, List.append_assoc] at htext
        rw [← List.append_assoc] at hprefix
        have hwhole := (eq_inQuotes_of_begins_text hw hblanks (readToken?_eq_some htoken).2
          (List.append_ne_nil_of_left_ne_nil hq _) (h.head?_ne hw) htext hprefix).1
        exact hq (List.append_left_eq_self.1 hwhole)
      rw [htext, List.append_assoc, Text.before?_append hpass,
        before?_of_prefix (List.prefix_append _ _), Option.map_some, List.append_nil]

end Words

/-- It finds nothing in blanks. -/
theorem IsLexed.before?_eq_none {cs w : List Char} (h : IsLexed cs []) :
    before? (inQuotes w) cs = none := by
  cases h with
  | blanks h =>
      have hpass : ∀ p q, cs = p ++ q → q ≠ [] → ¬ inQuotes w <+: q ++ [] := by
        intro p q hpq hq hprefix
        obtain ⟨c, q, rfl⟩ := List.exists_cons_of_ne_nil hq
        have hquote : '"' = c := (List.cons_prefix_cons.1 hprefix).1
        have hblank := h c (hpq ▸ List.mem_append_right p List.mem_cons_self)
        rw [← hquote] at hblank
        cases hblank
      have hsearch := Text.before?_append hpass
      rwa [List.append_nil] at hsearch

/-- The place of a word in quotes at the end of a token, the first token that ends like this. -/
inductive FirstEnding (w : List Char) (ls : List Lexeme) : Span → Prop
  | mk {front back : List Lexeme} {l : Lexeme} {before : List Char} (hls : ls = front ++ l :: back)
      (hnone : ∀ m ∈ front, ¬ inQuotes w <:+ m.chars) (hl : l.chars = before ++ inQuotes w) :
      FirstEnding w ls
        ⟨byteLength (front.flatMap Lexeme.text ++ (l.blanks ++ before)), byteLength (inQuotes w)⟩

/-- A key is found at the end of the first token that ends in the key in quotes. -/
theorem spanOfKey?_eq_some_iff {src key : String} {ls : List Lexeme} {span : Span}
    (hw : IsPlainWord key.toList) (hls : lexemes? src = some ls) :
    spanOfKey? src key = some span ↔ FirstEnding key.toList ls span := by
  have hlexed := isLexed_of_lexemes? hls
  have hfound : ∀ {span}, FirstEnding key.toList ls span → spanOfKey? src key = some span := by
    rintro _ ⟨rfl, hnone, hl⟩
    obtain ⟨rest, -, hrest, hsearch⟩ := hlexed.before?_append hw hnone
    rw [hrest.before?_eq_some hw hl, Option.map_some] at hsearch
    change (before? (inQuotes key.toList) src.toList).map _ = _
    rw [hsearch]
    rfl
  refine ⟨fun h => ?_, hfound⟩
  cases hfind : ls.find? fun l => (inQuotes key.toList).isSuffixOf l.chars with
  | none =>
      rw [List.find?_eq_none] at hfind
      have hnone : ∀ l ∈ ls, ¬ inQuotes key.toList <:+ l.chars :=
        fun l hl hends => hfind l hl (List.isSuffixOf_iff_suffix.2 hends)
      rw [← List.append_nil ls] at hlexed
      obtain ⟨rest, -, hrest, hsearch⟩ := hlexed.before?_append hw hnone
      rw [hrest.before?_eq_none, Option.map_none] at hsearch
      change (before? (inQuotes key.toList) src.toList).map _ = _ at h
      rw [hsearch] at h
      cases h
  | some l =>
      obtain ⟨hl, front, back, hsplit, hnone⟩ := List.find?_eq_some_iff_append.1 hfind
      obtain ⟨before, hl⟩ := List.isSuffixOf_iff_suffix.1 hl
      have hends : FirstEnding key.toList ls _ := .mk hsplit (fun m hm hends => by
        have hnot := hnone m hm
        rw [List.isSuffixOf_iff_suffix.2 hends] at hnot
        cases hnot) hl.symm
      obtain rfl := Option.some.inj ((hfound hends).symm.trans h)
      exact hends

end SchemaSnippets.Json

import Mathlib.Data.List.Basic
import Mathlib.Data.Nat.Find
import SchemaSnippets.Proofs.Json.Documents
import SchemaSnippets.Proofs.Json.Nesting

/-!
# Keys of documents

* `KeyAt key ts i`, `FirstKeyAt key ts i` : a key among tokens, which is a string with a colon behind it;
* `HasKey key d` : a key of an object, at any depth in the document; `exists_keyAt_tokens_iff` : the keys
  of a document are those among its tokens;
* `tokensBefore before` : the tokens of an object up to the members `before`, so as many as there are before
  the key of the next member; `exists_keyAt_tokensBefore_iff` : the keys among them;
* `exists_split_of_lookup` : the member whose value is looked up.
-/

namespace SchemaSnippets.Json

/-- The key is the token `i`: a string with a colon behind it. -/
def KeyAt (key : String) (ts : List Token) (i : Nat) : Prop :=
  ts[i]? = some (.string (some key)) ∧ ts[i + 1]? = some .colon

instance (key : String) (ts : List Token) (i : Nat) : Decidable (KeyAt key ts i) :=
  inferInstanceAs (Decidable (_ ∧ _))

/-- The first key of the name among tokens. -/
def FirstKeyAt (key : String) (ts : List Token) (i : Nat) : Prop :=
  KeyAt key ts i ∧ ∀ j < i, ¬ KeyAt key ts j

section Tokens
variable {key : String} {t : Token} {ts us : List Token} {i : Nat}

theorem KeyAt.lt (h : KeyAt key ts i) : i + 1 < ts.length :=
  (List.getElem?_eq_some_iff.1 h.2).1

theorem keyAt_length_append (ts us : List Token) (key : String) :
    KeyAt key (ts ++ .string (some key) :: .colon :: us) ts.length := by
  simp [KeyAt]

theorem KeyAt.exists_first (h : KeyAt key ts i) : ∃ j ≤ i, FirstKeyAt key ts j :=
  have hexists : ∃ j, KeyAt key ts j := ⟨i, h⟩
  ⟨Nat.find hexists, Nat.find_min' hexists h, Nat.find_spec hexists, fun _ => Nat.find_min hexists⟩

theorem KeyAt.append (h : KeyAt key ts i) (us : List Token) : KeyAt key (ts ++ us) i := by
  have hlt := h.lt
  unfold KeyAt at h ⊢
  rwa [List.getElem?_append_left (by omega), List.getElem?_append_left hlt]

/-- A string at the end is no key if there is no colon behind it. -/
theorem keyAt_of_append (hcolon : us.head? ≠ some .colon) (h : KeyAt key (ts ++ us) i)
    (hi : i < ts.length) : KeyAt key ts i := by
  obtain ⟨hstring, hbehind⟩ := h
  rw [List.getElem?_append_left hi] at hstring
  rcases Nat.lt_or_ge (i + 1) ts.length with hlt | hge
  · rw [List.getElem?_append_left hlt] at hbehind
    exact ⟨hstring, hbehind⟩
  · rw [List.getElem?_append_right hge, show i + 1 - ts.length = 0 by omega,
      ← List.head?_eq_getElem?] at hbehind
    exact absurd hbehind hcolon

/-- The key behind some tokens is the first one if these have none. -/
theorem FirstKeyAt.eq_length_iff (h : FirstKeyAt key (ts ++ us) i)
    (hkey : KeyAt key (ts ++ us) ts.length) : i = ts.length ↔ ¬ ∃ j, KeyAt key ts j := by
  have hcolon : us.head? ≠ some .colon := by
    have hstring := hkey.1
    rw [List.getElem?_append_right le_rfl, Nat.sub_self, ← List.head?_eq_getElem?] at hstring
    rw [hstring]
    nofun
  constructor
  · rintro rfl ⟨j, hj⟩
    exact h.2 j (Nat.lt_of_succ_lt hj.lt) (hj.append us)
  · intro hnone
    rcases lt_trichotomy i ts.length with hlt | heq | hgt
    · exact absurd ⟨i, keyAt_of_append hcolon h.1 hlt⟩ hnone
    · exact heq
    · exact absurd hkey (h.2 _ hgt)

theorem exists_keyAt_append_iff (hcolon : us.head? ≠ some .colon) :
    (∃ i, KeyAt key (ts ++ us) i) ↔ (∃ i, KeyAt key ts i) ∨ ∃ i, KeyAt key us i := by
  constructor
  · rintro ⟨i, h⟩
    rcases Nat.lt_or_ge i ts.length with hlt | hge
    · exact .inl ⟨i, keyAt_of_append hcolon h hlt⟩
    · refine .inr ⟨i - ts.length, ?_⟩
      unfold KeyAt at h ⊢
      rwa [List.getElem?_append_right hge, List.getElem?_append_right (Nat.le_succ_of_le hge),
        Nat.succ_sub hge] at h
  · rintro (⟨i, h⟩ | ⟨i, h⟩)
    · exact ⟨i, h.append us⟩
    · refine ⟨ts.length + i, ?_⟩
      unfold KeyAt at h ⊢
      rwa [List.getElem?_append_right (by omega), List.getElem?_append_right (by omega),
        show ts.length + i - ts.length = i by omega,
        show ts.length + i + 1 - ts.length = i + 1 by omega]

theorem exists_keyAt_cons_iff (ht : ∀ k, t ≠ .string k) :
    (∃ i, KeyAt key (t :: ts) i) ↔ ∃ i, KeyAt key ts i := by
  constructor
  · rintro ⟨_ | i, hstring, hcolon⟩
    · exact absurd (Option.some.inj hstring) (ht _)
    · exact ⟨i, hstring, hcolon⟩
  · rintro ⟨i, h⟩
    exact ⟨i + 1, h⟩

theorem exists_keyAt_member_iff {k : Option String} :
    (∃ i, KeyAt key (.string k :: .colon :: ts) i) ↔ k = some key ∨ ∃ i, KeyAt key ts i := by
  constructor
  · rintro ⟨_ | _ | i, hstring, hcolon⟩
    · exact .inl (Token.string.inj (Option.some.inj hstring))
    · cases hstring
    · exact .inr ⟨i, hstring, hcolon⟩
  · rintro (rfl | ⟨i, h⟩)
    · exact ⟨0, rfl, rfl⟩
    · exact ⟨i + 2, h⟩

theorem not_keyAt_singleton (t : Token) : ¬ ∃ i, KeyAt key [t] i := by
  rintro ⟨i, h⟩
  have hlt := h.lt
  rw [List.length_singleton] at hlt
  omega

end Tokens

namespace Document
variable {key : String}

/-! ## Keys at any depth -/

/-- An object in the document has the key. -/
inductive HasKey (key : String) : Document → Prop
  | key {members : List (Option String × Document)} {d : Document} (h : (some key, d) ∈ members) :
      HasKey key (.object members)
  | member {members : List (Option String × Document)} {m : Option String × Document}
      (hm : m ∈ members) (h : HasKey key m.2) : HasKey key (.object members)
  | item {items : List Document} {d : Document} (hd : d ∈ items) (h : HasKey key d) :
      HasKey key (.array items)

theorem hasKey_array_iff {items : List Document} :
    HasKey key (.array items) ↔ ∃ d ∈ items, HasKey key d := by
  constructor
  · rintro (_ | _ | ⟨hd, h⟩)
    exact ⟨_, hd, h⟩
  · rintro ⟨d, hd, h⟩
    exact .item hd h

theorem hasKey_object_iff {members : List (Option String × Document)} :
    HasKey key (.object members) ↔ ∃ m ∈ members, m.1 = some key ∨ HasKey key m.2 := by
  constructor
  · rintro (h | ⟨hm, h⟩ | _)
    · exact ⟨_, h, .inl rfl⟩
    · exact ⟨_, hm, .inr h⟩
  · rintro ⟨⟨k, d⟩, hm, rfl | h⟩
    · exact .key hm
    · exact .member hm h

theorem head?_tokensOfItems_ne_colon (ds : List Document) :
    (tokensOfItems ds).head? ≠ some .colon := by
  cases ds <;> nofun

theorem head?_tokensOfMembers_ne_colon (ms : List (Option String × Document)) :
    (tokensOfMembers ms).head? ≠ some .colon := by
  cases ms <;> nofun

mutual

/-- The keys of a document are the keys among its tokens. -/
theorem exists_keyAt_tokens_iff (d : Document) :
    (∃ i, KeyAt key d.tokens i) ↔ d.HasKey key := by
  match d with
  | .null | .bool _ | .number _ | .string _ =>
      exact iff_of_false (not_keyAt_singleton _) nofun
  | .array [] =>
      rw [tokens, exists_keyAt_cons_iff (t := .openBracket) nofun, hasKey_array_iff]
      exact iff_of_false (not_keyAt_singleton _) nofun
  | .array (d :: ds) =>
      rw [tokens, List.cons_append, exists_keyAt_cons_iff (t := .openBracket) nofun,
        exists_keyAt_append_iff (head?_tokensOfItems_ne_colon ds), exists_keyAt_tokens_iff d,
        exists_keyAt_tokensOfItems_iff ds, hasKey_array_iff, List.exists_mem_cons_iff]
  | .object [] =>
      rw [tokens, exists_keyAt_cons_iff (t := .openBrace) nofun, hasKey_object_iff]
      exact iff_of_false (not_keyAt_singleton _) nofun
  | .object ((k, d) :: ms) =>
      rw [tokens, List.cons_append, List.cons_append, List.cons_append, exists_keyAt_cons_iff (t := .openBrace) nofun,
        exists_keyAt_member_iff, exists_keyAt_append_iff (head?_tokensOfMembers_ne_colon ms),
        exists_keyAt_tokens_iff d, exists_keyAt_tokensOfMembers_iff ms, hasKey_object_iff,
        List.exists_mem_cons_iff, or_assoc]

theorem exists_keyAt_tokensOfItems_iff (ds : List Document) :
    (∃ i, KeyAt key (tokensOfItems ds) i) ↔ ∃ d ∈ ds, d.HasKey key := by
  match ds with
  | [] => exact iff_of_false (not_keyAt_singleton _) nofun
  | d :: ds =>
      rw [tokensOfItems, List.cons_append, exists_keyAt_cons_iff (t := .comma) nofun,
        exists_keyAt_append_iff (head?_tokensOfItems_ne_colon ds), exists_keyAt_tokens_iff d,
        exists_keyAt_tokensOfItems_iff ds, List.exists_mem_cons_iff]

theorem exists_keyAt_tokensOfMembers_iff (ms : List (Option String × Document)) :
    (∃ i, KeyAt key (tokensOfMembers ms) i) ↔ ∃ m ∈ ms, m.1 = some key ∨ m.2.HasKey key := by
  match ms with
  | [] => exact iff_of_false (not_keyAt_singleton _) nofun
  | (k, d) :: ms =>
      rw [tokensOfMembers, List.cons_append, List.cons_append, List.cons_append,
        exists_keyAt_cons_iff (t := .comma) nofun, exists_keyAt_member_iff,
        exists_keyAt_append_iff (head?_tokensOfMembers_ne_colon ms), exists_keyAt_tokens_iff d,
        exists_keyAt_tokensOfMembers_iff ms, List.exists_mem_cons_iff, or_assoc]

end

/-! ## Keys of an object -/

/-- The tokens before the key of a member, by the members before it. -/
def tokensBefore (before : List (Option String × Document)) : List Token :=
  .openBrace :: before.flatMap fun m => .string m.1 :: .colon :: (m.2.tokens ++ [.comma])

theorem tokensOfMembers_append (before after : List (Option String × Document)) (k : Option String)
    (d : Document) :
    tokensOfMembers (before ++ (k, d) :: after) =
      .comma :: ((tokensBefore before).tail ++
        .string k :: .colon :: (d.tokens ++ tokensOfMembers after)) := by
  induction before with
  | nil => rw [List.nil_append, tokensOfMembers]; rfl
  | cons m before ih =>
      rw [List.cons_append, tokensOfMembers, ih]
      simp [tokensBefore]

/-- An object is spelled by what is before a member and by the member and what is behind it. -/
theorem tokens_object_append (before after : List (Option String × Document)) (k : Option String)
    (d : Document) :
    (object (before ++ (k, d) :: after)).tokens =
      tokensBefore before ++ .string k :: .colon :: (d.tokens ++ tokensOfMembers after) := by
  cases before with
  | nil => rw [List.nil_append, tokens]; rfl
  | cons m before =>
      rw [List.cons_append, tokens, tokensOfMembers_append]
      simp [tokensBefore]

theorem exists_keyAt_tokensBefore_iff (before : List (Option String × Document)) :
    (∃ i, KeyAt key (tokensBefore before) i) ↔ ∃ m ∈ before, m.1 = some key ∨ m.2.HasKey key := by
  rw [tokensBefore, exists_keyAt_cons_iff (t := .openBrace) nofun]
  induction before with
  | nil => exact iff_of_false (by rintro ⟨i, h, -⟩; cases h) nofun
  | cons m before ih =>
      have hbehind : (before.flatMap fun m =>
          Token.string m.1 :: .colon :: (m.2.tokens ++ [.comma])).head? ≠ some .colon := by
        cases before <;> nofun
      have hcomma : [Token.comma].head? ≠ some .colon := nofun
      rw [List.flatMap_cons, List.cons_append, List.cons_append, exists_keyAt_member_iff,
        exists_keyAt_append_iff hbehind, exists_keyAt_append_iff hcomma, exists_keyAt_tokens_iff, ih,
        or_iff_left (not_keyAt_singleton _), List.exists_mem_cons_iff, or_assoc]

/-- The first key of the name is the one behind some members if it is in none of them. -/
theorem eq_length_tokensBefore_iff {before : List (Option String × Document)} {ts : List Token}
    {i : Nat} (hbefore : ∀ m ∈ before, m.1 ≠ some key)
    (h : FirstKeyAt key (tokensBefore before ++ .string (some key) :: .colon :: ts) i) :
    i = (tokensBefore before).length ↔ ∀ m ∈ before, ¬ m.2.HasKey key := by
  rw [h.eq_length_iff (keyAt_length_append _ ts key), exists_keyAt_tokensBefore_iff]
  push Not
  exact forall₂_congr fun m hm => and_iff_right (hbefore m hm)

/-- What is looked up is the value of the only member with the key. -/
theorem exists_split_of_lookup {members : List (Option String × Document)} {d : Document}
    (hsingle : isSingle members key) (h : lookup key members = some d) :
    ∃ before after, members = before ++ (some key, d) :: after ∧
      ∀ m ∈ before ++ after, m.1 ≠ some key := by
  obtain ⟨before, after, rfl⟩ := List.append_of_mem (mem_of_lookup h)
  exact ⟨before, after, rfl, isSingle_split_iff.1 hsingle⟩

end Document

end SchemaSnippets.Json

import SchemaSnippets.Proofs.Target.Notes

/-!
# The grammar of TypeScript types

The text of a type can be read in one way only, as the type that is meant. Brackets bind to what is in front
of them, and bars bind less.

* `tokens cs` : the words and marks of a text without comments;
* `Derives l ts t` : the tokens are the type `t`, where brackets or bars may be put behind them (`l`);
* `derives_unique` : there is no other such type;
* `treeOf t` : the type that is meant; `derives_render` : its text is this type;
* `derives_render_iff` : and no other one.
-/

namespace SchemaSnippets.Target.TypeScript
open Code Model Schema Unicode

/-! ## Words and marks -/

inductive Token where
  | word (w : String)
  | mark (c : Char)
deriving DecidableEq, Repr

/-- The word of some characters. -/
def wordOf : List Char → List Token
  | [] => []
  | cs => [.word (String.ofList cs)]

/-- The tokens of a text, `word` being read already. -/
def tokensFrom (word : List Char) : List Char → List Token
  | [] => wordOf word
  | c :: cs =>
    if inIdentifier c then tokensFrom (word ++ [c]) cs
    else wordOf word ++ ((if isWhitespace c then [] else [.mark c]) ++ tokensFrom [] cs)

/-- The tokens of a text without comments. -/
def tokens (cs : List Char) : List Token :=
  tokensFrom [] cs

variable {word cs ds : List Char} {c : Char}

theorem tokens_cons_of_not_inIdentifier (h : ¬ inIdentifier c) :
    tokens (c :: cs) = (if isWhitespace c then [] else [.mark c]) ++ tokens cs := by
  rw [tokens, tokensFrom, if_neg h]
  rfl

theorem tokens_mark (h : ¬ inIdentifier c) (hspace : ¬ isWhitespace c) :
    tokens (c :: cs) = .mark c :: tokens cs := by
  rw [tokens_cons_of_not_inIdentifier h, if_neg hspace]
  rfl

/-- No word goes on where a text begins with a mark. -/
theorem tokensFrom_append (hds : ds.head? = some c) (hc : ¬ inIdentifier c) :
    tokensFrom word (cs ++ ds) = tokensFrom word cs ++ tokens ds := by
  induction cs generalizing word with
  | nil =>
      obtain ⟨rest, rfl⟩ := List.head?_eq_some_iff.1 hds
      rw [List.nil_append, tokens_cons_of_not_inIdentifier hc, tokensFrom.eq_2, if_neg hc]
      rfl
  | cons c cs ih =>
      rw [List.cons_append, tokensFrom, tokensFrom]
      split
      · exact ih
      · rw [ih, List.append_assoc, List.append_assoc]

theorem tokens_append (hds : ds.head? = some c) (hc : ¬ inIdentifier c) :
    tokens (cs ++ ds) = tokens cs ++ tokens ds :=
  tokensFrom_append hds hc

theorem tokensFrom_of_inIdentifier (h : cs.all inIdentifier) : tokensFrom word cs = wordOf (word ++ cs) := by
  induction cs generalizing word with
  | nil => rw [List.append_nil, tokensFrom]
  | cons c cs ih =>
      obtain ⟨hc, hcs⟩ := List.all_cons.symm.trans h |> Bool.and_eq_true_iff.1
      rw [tokensFrom, if_pos hc, ih hcs, List.append_assoc]
      rfl

theorem tokens_identifier {name : String} (h : isIdentifier name) : tokens name.toList = [.word name] := by
  rw [tokens, tokensFrom_of_inIdentifier (all_inIdentifier_of_isIdentifier h), List.nil_append]
  obtain ⟨c, cs, hcs⟩ := List.exists_cons_of_ne_nil (toList_ne_nil_of_isIdentifier h)
  rw [hcs, wordOf, ← hcs, String.ofList_toList]
  simp

/-! ## The grammar -/

/-- A type as it is read. -/
inductive TypeTree where
  | name (w : String)
  | array (element : TypeTree)
  | apply (w : String) (argument : TypeTree)
  | union (left right : TypeTree)
deriving DecidableEq, Repr

/-- How tightly a type holds together: brackets can be put behind it, it can be part of a union, or neither. -/
inductive Level where
  | primary | operand | union

/-- Brackets bind to what is in front of them, bars bind less, and parentheses group. -/
inductive Derives : Level → List Token → TypeTree → Prop where
  | name (w : String) : Derives .primary [.word w] (.name w)
  | apply (w : String) {ts t} (h : Derives .union ts t) :
      Derives .primary (.word w :: .mark '<' :: ts ++ [.mark '>']) (.apply w t)
  | group {ts t} (h : Derives .union ts t) : Derives .primary (.mark '(' :: ts ++ [.mark ')']) t
  | primary {ts t} (h : Derives .primary ts t) : Derives .operand ts t
  | array {ts t} (h : Derives .operand ts t) : Derives .operand (ts ++ [.mark '[', .mark ']']) (.array t)
  | operand {ts t} (h : Derives .operand ts t) : Derives .union ts t
  | union {ts us t u} (h : Derives .union ts t) (h' : Derives .operand us u) :
      Derives .union (ts ++ .mark '|' :: us) (.union t u)

/-! ### Reading from left to right -/

/-- What is open: parentheses, angle brackets behind a word, square brackets behind a type. -/
inductive Opening where
  | group
  | apply (w : String)
  | index (t : TypeTree)

/-- A place in a text: what is open, with what stands left of it, what stands before the last bar, and what is
read since then. -/
structure Reading where
  openings : List (Opening × Option TypeTree)
  left : Option TypeTree
  operand : Option TypeTree

/-- The union of what stands before the last bar and what stands behind it. -/
def join : Option TypeTree → TypeTree → TypeTree
  | none, t => t
  | some l, t => .union l t

/-- A token is read, if it can follow. -/
def Reading.next (r : Reading) : Token → Option Reading
  | .word w =>
    match r.operand with
    | none => some ⟨r.openings, r.left, some (.name w)⟩
    | some _ => none
  | .mark '(' =>
    match r.operand with
    | none => some ⟨(.group, r.left) :: r.openings, none, none⟩
    | some _ => none
  | .mark '<' =>
    match r.operand with
    | some (.name w) => some ⟨(.apply w, r.left) :: r.openings, none, none⟩
    | _ => none
  | .mark '[' => r.operand.map fun t => ⟨(.index t, r.left) :: r.openings, none, none⟩
  | .mark '|' => r.operand.map fun t => ⟨r.openings, some (join r.left t), none⟩
  | .mark ')' =>
    match r.openings, r.operand with
    | (.group, before) :: os, some t => some ⟨os, before, some (join r.left t)⟩
    | _, _ => none
  | .mark '>' =>
    match r.openings, r.operand with
    | (.apply w, before) :: os, some t => some ⟨os, before, some (.apply w (join r.left t))⟩
    | _, _ => none
  | .mark ']' =>
    match r.openings, r.left, r.operand with
    | (.index t, before) :: os, none, none => some ⟨os, before, some (.array t)⟩
    | _, _, _ => none
  | _ => none

def Reading.read (r : Reading) (ts : List Token) : Option Reading :=
  ts.foldlM Reading.next r

/-- Reading the tokens finds the type, wherever they stand. -/
def Finds (ts : List Token) (t : TypeTree) : Level → Prop
  | .union =>
    ∀ os, ∃ left u, Reading.read ⟨os, none, none⟩ ts = some ⟨os, left, some u⟩ ∧ join left u = t
  | _ => ∀ os left, Reading.read ⟨os, left, none⟩ ts = some ⟨os, left, some t⟩

theorem Reading.read_append (r : Reading) (ts us : List Token) :
    r.read (ts ++ us) = (r.read ts).bind fun r' => r'.read us :=
  List.foldlM_append

theorem Derives.finds {l : Level} {ts : List Token} {t : TypeTree} (h : Derives l ts t) : Finds ts t l := by
  induction h with
  | name w => exact fun os left => rfl
  | @apply w ts t _ ih =>
      intro os left
      obtain ⟨inner, u, hread, rfl⟩ := ih ((.apply w, left) :: os)
      show (Reading.read ⟨(.apply w, left) :: os, none, none⟩ (ts ++ [.mark '>'])) = _
      rw [Reading.read_append, hread]
      rfl
  | @group ts t _ ih =>
      intro os left
      obtain ⟨inner, u, hread, rfl⟩ := ih ((.group, left) :: os)
      show (Reading.read ⟨(.group, left) :: os, none, none⟩ (ts ++ [.mark ')'])) = _
      rw [Reading.read_append, hread]
      rfl
  | primary _ ih => exact ih
  | array _ ih =>
      intro os left
      rw [Reading.read_append, ih os left]
      rfl
  | @operand ts t _ ih => exact fun os => ⟨none, t, ih os none, rfl⟩
  | @union ts us t u _ _ ih ih' =>
      intro os
      obtain ⟨left, v, hread, rfl⟩ := ih os
      refine ⟨some (join left v), u, ?_, rfl⟩
      rw [Reading.read_append, hread]
      exact ih' os (some (join left v))

/-- A text is one type only. -/
theorem derives_unique {ts : List Token} {t u : TypeTree} (ht : Derives .union ts t)
    (hu : Derives .union ts u) : t = u := by
  obtain ⟨left, v, hread, rfl⟩ := ht.finds []
  obtain ⟨left', v', hread', rfl⟩ := hu.finds []
  obtain ⟨-, rfl, hv⟩ := Reading.mk.inj (Option.some.inj (hread.symm.trans hread'))
  rw [Option.some.inj hv]

/-! ## Types as they are meant -/

/-- The type that is meant: what may be missing is a union with `undefined`, and a reference back is what it
refers to. -/
def treeOf : MemberType → TypeTree
  | .primitive k => .name ((primitive k).getD "any")
  | .optional t => .union (treeOf t) (.name "undefined")
  | .array t => .array (treeOf t)
  | .stream t => .apply "Observable" (treeOf t)
  | .recursive t => treeOf t
  | .named name => .name name
  | .untyped _ => .name "any"

/-- The tokens of the code in a text. -/
def codeTokens (s : String) : List Token :=
  tokens (lexis.kept s)

/-- A text without blanks is at least an operand. -/
def levelOf (s : String) : Level :=
  if s.toList.contains ' ' then .union else .operand

variable {s : String} {ts : List Token} {t : TypeTree}

theorem derives_levelOf (h : Derives .operand ts t) : Derives (levelOf s) ts t := by
  unfold levelOf
  split
  · exact h.operand
  · exact h

theorem derives_union_of_levelOf (h : Derives (levelOf s) ts t) : Derives .union ts t := by
  unfold levelOf at h
  split at h
  · exact h
  · exact h.operand

theorem codeTokens_of_inSyntax (h : s.toList.all Lexis.inSyntax) : codeTokens s = tokens s.toList := by
  rw [codeTokens, Lexis.kept_of_inSyntax reads_lexis.symbols h]

/-- The tokens of two texts, the second of which begins with a mark. -/
theorem codeTokens_append (hs : lexis.Closed s) {u : String} {c : Char}
    (hu : (lexis.kept u).head? = some c) (hc : ¬ inIdentifier c) :
    codeTokens (s ++ u) = codeTokens s ++ codeTokens u := by
  rw [codeTokens, kept_append hs, tokens_append hu hc]
  rfl

/-- What stands behind a type begins with a mark. -/
theorem codeTokens_behind (hs : lexis.Closed s) {u : String} (hu : u.toList.all Lexis.inSyntax) {c : Char}
    (hhead : u.toList.head? = some c) (hc : ¬ inIdentifier c) :
    codeTokens (s ++ u) = codeTokens s ++ tokens u.toList := by
  have hkept := Lexis.kept_of_inSyntax reads_lexis.symbols hu
  rw [codeTokens_append hs (hkept ▸ hhead) hc, codeTokens_of_inSyntax hu]

theorem codeTokens_identifier {name : String} (h : isIdentifier name) : codeTokens name = [.word name] := by
  rw [codeTokens_of_inSyntax (Lexis.all_inSyntax_of_inIdentifier (all_inIdentifier_of_isIdentifier h)),
    tokens_identifier h]

theorem codeTokens_noted {note : String} (h : lexis.Confined (.block [note])) :
    codeTokens (types.noted note) = [.word "any"] := by
  have hclosed : lexis.Closed "any" := by decide
  have hany : types.untyped = "any" := rfl
  rw [codeTokens, noted_eq, hany, kept_append hclosed, kept_comment reads_lexis h]
  decide

/-- A mark in front of a text. -/
theorem codeTokens_mark {c : Char} (hc : Lexis.inSyntax c) (hword : ¬ inIdentifier c)
    (hspace : ¬ isWhitespace c) (s : String) : codeTokens (String.ofList [c] ++ s) = .mark c :: codeTokens s := by
  have hsyntax : (String.ofList [c]).toList.all Lexis.inSyntax := by
    rw [String.toList_ofList, List.all_cons, hc]
    rfl
  have hclosed := Lexis.closed_of_inSyntax reads_lexis.symbols hsyntax
  rw [codeTokens, kept_append hclosed, Lexis.kept_of_inSyntax reads_lexis.symbols hsyntax, String.toList_ofList,
    List.singleton_append, tokens_mark hword hspace]
  rfl

/-! ## Texts of types -/

theorem derives_name {name : String} (h : isIdentifier name) :
    Derives .primary (codeTokens name) (.name name) := by
  rw [codeTokens_identifier h]
  exact .name name

theorem derives_noted {note : String} (h : lexis.Confined (.block [note])) :
    Derives .primary (codeTokens (types.noted note)) (.name "any") := by
  rw [codeTokens_noted h]
  exact .name "any"

/-- What may be missing is one more member of a union. -/
theorem derives_optional (hs : lexis.Closed s) (h : Derives (levelOf s) (codeTokens s) t) :
    Derives (levelOf (s ++ " | undefined")) (codeTokens (s ++ " | undefined"))
      (.union t (.name "undefined")) := by
  have hlevel : levelOf (s ++ " | undefined") = .union := if_pos (by simp)
  have htokens : codeTokens (s ++ " | undefined") = codeTokens s ++ .mark '|' :: [.word "undefined"] :=
    codeTokens_behind hs (by decide) rfl (by decide)
  rw [hlevel, htokens]
  exact (derives_union_of_levelOf h).union (.primary (.name "undefined"))

/-- The brackets of an array bind to its whole element. -/
theorem derives_array (hs : lexis.Closed s) (h : Derives (levelOf s) (codeTokens s) t) :
    Derives .operand (codeTokens (array s)) (.array t) := by
  unfold array
  split
  · have hgroup : codeTokens ("(" ++ s ++ ")[]") =
        .mark '(' :: codeTokens s ++ [.mark ')'] ++ [.mark '[', .mark ']'] := by
      rw [codeTokens_behind (Lexis.closed_append (by decide) hs) (by decide) rfl (by decide),
        show "(" = String.ofList ['('] from rfl, codeTokens_mark (by decide) (by decide) (by decide),
        List.append_assoc]
      rfl
    rw [hgroup]
    exact .array (.primary (.group (derives_union_of_levelOf h)))
  · rename_i hblank
    have hbrackets : codeTokens (s ++ "[]") = codeTokens s ++ [.mark '[', .mark ']'] :=
      codeTokens_behind hs (by decide) rfl (by decide)
    rw [levelOf, if_neg hblank] at h
    rw [hbrackets]
    exact h.array

theorem derives_stream (hs : lexis.Closed s) (h : Derives (levelOf s) (codeTokens s) t) :
    Derives .primary (codeTokens ("Observable<" ++ s ++ ">")) (.apply "Observable" t) := by
  have hopen : codeTokens ("Observable" ++ ("<" ++ s)) = .word "Observable" :: .mark '<' :: codeTokens s := by
    have hhead : ("<" ++ s).toList.head? = some '<' := by
      rw [String.toList_append]
      rfl
    have hkept := head?_kept (L := lexis) hhead (by decide)
    rw [codeTokens_append (by decide) hkept (by decide), codeTokens_identifier (by decide),
      show "<" = String.ofList ['<'] from rfl, codeTokens_mark (by decide) (by decide) (by decide)]
    rfl
  have htokens : codeTokens ("Observable<" ++ s ++ ">") =
      .word "Observable" :: .mark '<' :: codeTokens s ++ [.mark '>'] := by
    rw [codeTokens_behind (Lexis.closed_append (by decide) hs) (by decide) rfl (by decide), ← hopen,
      ← String.append_assoc]
    rfl
  rw [htokens]
  exact .apply "Observable" (derives_union_of_levelOf h)

theorem derives_render {t : MemberType} (h : TypeConfined lexis t) :
    Derives (levelOf (types.render t)) (codeTokens (types.render t)) (treeOf t) := by
  induction t with
  | primitive k =>
      cases hk : primitive k with
      | none =>
          have htype : types.primitive k = none := hk
          rw [TypeSyntax.render, htype, treeOf, hk]
          exact derives_levelOf (.primary (derives_noted (confined_unsupportedNote lexis k)))
      | some name =>
          have htype : types.primitive k = some name := hk
          have hname : isIdentifier name := by cases k <;> cases hk <;> decide
          rw [TypeSyntax.render, htype, treeOf, hk]
          exact derives_levelOf (.primary (derives_name hname))
  | optional t ih =>
      have ht : TypeConfined lexis t := ⟨h.names, h.notes⟩
      exact derives_optional (closed_render ht) (ih ht)
  | array t ih =>
      have ht : TypeConfined lexis t := ⟨h.names, h.notes⟩
      exact derives_levelOf (derives_array (closed_render ht) (ih ht))
  | stream t ih =>
      have ht : TypeConfined lexis t := ⟨h.names, h.notes⟩
      exact derives_levelOf (.primary (derives_stream (closed_render ht) (ih ht)))
  | recursive t ih => exact ih ⟨h.names, h.notes⟩
  | named name => exact derives_levelOf (.primary (derives_name (h.names name (List.mem_singleton_self name))))
  | untyped note =>
      cases note with
      | none =>
          have hany : isIdentifier "any" := by decide
          exact derives_levelOf (.primary (derives_name hany))
      | some note => exact derives_levelOf (.primary (derives_noted (h.notes note (List.mem_singleton_self _))))

/-- The text of a type, without comments, is the type that is meant and no other one. -/
theorem derives_render_iff {t : MemberType} (h : TypeUndelimited t) (u : TypeTree) :
    Derives .union (tokens (lexis.strip (types.render t))) u ↔ u = treeOf t := by
  have hconfined := h.confined lexis
  have hmeant := derives_union_of_levelOf (derives_render hconfined)
  rw [strip_eq_kept (closed_render hconfined)]
  constructor
  · exact fun hread => derives_unique hread hmeant
  · rintro rfl
    exact hmeant

/-- A list of streams of lists of tags, whose type is unknown; a stream may be missing. -/
def tagStreams : MemberType :=
  .array (.optional (.stream (.array (.untyped (some "unknown type 'films.Tag'")))))

/-- Each pair of brackets stands behind its element, with parentheses where a note is left out too. -/
theorem derives_tagStreams_iff :
    TypeUndelimited tagStreams ∧
      lexis.strip (types.render tagStreams) = "(Observable<(any )[]> | undefined)[]".toList ∧
      ∀ u, Derives .union (tokens (lexis.strip (types.render tagStreams))) u ↔
        u = .array (.union (.apply "Observable" (.array (.name "any"))) (.name "undefined")) := by
  have hnote : Lexis.Undelimited "unknown type 'films.Tag'" := ⟨by decide +kernel, by decide +kernel⟩
  have htags : TypeUndelimited tagStreams := by
    refine ⟨by decide, fun note hmem => ?_⟩
    obtain rfl := Option.some.inj (List.mem_singleton.1 hmem)
    exact hnote
  exact ⟨htags, by decide +kernel, fun u => derives_render_iff htags u⟩

end SchemaSnippets.Target.TypeScript

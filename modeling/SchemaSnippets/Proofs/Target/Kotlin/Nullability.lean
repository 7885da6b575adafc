import SchemaSnippets.Proofs.Target.Notes

/-!
# Nullable types of Kotlin

The mark of a nullable type is written in front of the first comment in the text of the type. That is its
place if the comment stands behind the type, and not if it stands inside of a list or a flow: then the mark
goes to the innermost type.

* `plain t` : the type as it is meant, without notes;
* `opening t`, `closing t` : what the code of a type with a note has before the note and behind it;
* `bare_render`, `bare_render_of_isNoted` : the code of a type without a note, and of one with a note;
* `bare_render_eq_plain_iff` : the code is the type that is meant, unless there is a note and a mark outside
  of a list or flow.
-/

namespace SchemaSnippets.Target.Kotlin
open Code Model Schema

/-- The text without comments and spaces. -/
def bare (s : String) : String :=
  String.ofList ((lexis.strip s).filter (· != ' '))

/-! ## Types as they are meant -/

/-- The type without notes, each mark behind the type that it belongs to. -/
def plain : MemberType → String
  | .primitive k => (primitive k).getD "Any"
  | .optional t => plain t ++ "?"
  | .array t => "List<" ++ plain t ++ ">"
  | .stream t => "Flow<" ++ plain t ++ ">"
  | .recursive t => plain t
  | .named name => name
  | .untyped _ => "Any"

/-- Whether a note stands behind the innermost type. -/
def isNoted : MemberType → Bool
  | .primitive k => (primitive k).isNone
  | .optional t => isNoted t
  | .array t => isNoted t
  | .stream t => isNoted t
  | .recursive t => isNoted t
  | .named _ => false
  | .untyped note => note.isSome

/-- Whether the type is a list or a flow, perhaps with marks. -/
def isWrapper : MemberType → Bool
  | .optional t => isWrapper t
  | .array _ => true
  | .stream _ => true
  | .recursive t => isWrapper t
  | _ => false

/-- Whether the mark of a list or flow is among the marks of the type. -/
def marksWrapper : MemberType → Bool
  | .optional t => isWrapper t || marksWrapper t
  | .array t => marksWrapper t
  | .stream t => marksWrapper t
  | .recursive t => marksWrapper t
  | _ => false

/-- What stands in front of the note: the lists and flows begin, and all marks are at the innermost type. -/
def opening : MemberType → String
  | .optional t => opening t ++ "?"
  | .array t => "List<" ++ opening t
  | .stream t => "Flow<" ++ opening t
  | .recursive t => opening t
  | _ => "Any"

/-- What stands behind the note: the lists and flows end. -/
def closing : MemberType → String
  | .optional t => closing t
  | .array t => closing t ++ ">"
  | .stream t => closing t ++ ">"
  | .recursive t => closing t
  | _ => ""

/-! ## The code of a type -/

/-- A character of a type without notes. -/
def inType (c : Char) : Bool :=
  Lexis.inSyntax c && c != ' '

variable {t : MemberType} {s u v : String}

theorem all_inSyntax_of_inType (h : s.toList.all inType) : s.toList.all Lexis.inSyntax :=
  List.all_eq_true.2 fun c hc => (Bool.and_eq_true_iff.1 (List.all_eq_true.1 h c hc)).1

theorem bare_of_inType (h : s.toList.all inType) : bare s = s := by
  have hsyntax := all_inSyntax_of_inType h
  have hclosed := Lexis.closed_of_inSyntax reads_lexis.symbols hsyntax
  have hspaces : s.toList.filter (· != ' ') = s.toList :=
    List.filter_eq_self.2 fun c hc => (Bool.and_eq_true_iff.1 (List.all_eq_true.1 h c hc)).2
  rw [bare, strip_eq_kept hclosed, Lexis.kept_of_inSyntax reads_lexis.symbols hsyntax, hspaces,
    String.ofList_toList]

theorem inType_of_inIdentifier {c : Char} (h : inIdentifier c) : inType c := by
  have hsyntax : Lexis.inSyntax c := by
    rw [Lexis.inSyntax, Number.inNumber_of_inIdentifier h]
    rfl
  have hspace : c ≠ ' ' := by
    rintro rfl
    exact absurd h (by decide)
  rw [inType, hsyntax, Bool.true_and, bne_iff_ne]
  exact hspace

theorem all_inType_plain (h : ∀ x ∈ t.names, isIdentifier x) : (plain t).toList.all inType := by
  induction t with
  | primitive k => cases k <;> decide
  | optional t ih => exact all_append (ih h) (by decide)
  | array t ih => exact all_append (all_append (by decide) (ih h)) (by decide)
  | stream t ih => exact all_append (all_append (by decide) (ih h)) (by decide)
  | recursive t ih => exact ih h
  | named name =>
      have hname := all_inIdentifier_of_isIdentifier (h name (List.mem_singleton_self name))
      exact List.all_eq_true.2 fun c hc => inType_of_inIdentifier (List.all_eq_true.1 hname c hc)
  | untyped note => exact (by decide : "Any".toList.all inType)

/-- Without a note the type is written as it is meant. -/
theorem render_of_not_isNoted (h : ∀ x ∈ t.names, isIdentifier x) (hnote : ¬ isNoted t) :
    types.render t = plain t := by
  induction t with
  | primitive k =>
      obtain ⟨name, hname⟩ := Option.ne_none_iff_exists'.1 (mt Option.isNone_iff_eq_none.2 hnote)
      have htype : types.primitive k = some name := hname
      rw [TypeSyntax.render, htype, plain, hname]
      rfl
  | optional t ih =>
      have htype := all_inSyntax_of_inType (all_inType_plain (t := t) h)
      show nullable (types.render t) = _
      rw [ih h hnote, nullable_of_inSyntax htype]
      rfl
  | array t ih =>
      show "List<" ++ types.render t ++ ">" = _
      rw [ih h hnote]
      rfl
  | stream t ih =>
      show "Flow<" ++ types.render t ++ ">" = _
      rw [ih h hnote]
      rfl
  | recursive t ih => exact ih h hnote
  | named name => rfl
  | untyped note =>
      cases note with
      | none => rfl
      | some note => exact absurd rfl hnote

theorem bare_render (h : ∀ x ∈ t.names, isIdentifier x) (hnote : ¬ isNoted t) :
    bare (types.render t) = plain t := by
  rw [render_of_not_isNoted h hnote, bare_of_inType (all_inType_plain h)]

/-! ### Types with a note -/

/-- A text with a note in it: the code before the note, and the code behind it. -/
inductive IsNotedText : String → String → String → Prop where
  | intro {s comment : String} (h : s.toList.all inType) (hcomment : lexis.Closed (" /* " ++ comment)) :
      IsNotedText s (bare (" /* " ++ comment)) (s ++ (" /* " ++ comment))

theorem bare_append (hu : lexis.Closed u) (hv : lexis.Closed v) : bare (u ++ v) = bare u ++ bare v := by
  rw [bare, bare, bare, strip_eq_kept (Lexis.closed_append hu hv), strip_eq_kept hu, strip_eq_kept hv,
    kept_append hu, List.filter_append, String.ofList_append]

theorem IsNotedText.bare_eq (h : IsNotedText u v s) : bare s = u ++ v := by
  obtain ⟨h, hcomment⟩ := h
  have hclosed := Lexis.closed_of_inSyntax reads_lexis.symbols (all_inSyntax_of_inType h)
  rw [bare_append hclosed hcomment, bare_of_inType h]

/-- The mark is written in front of the note. -/
theorem IsNotedText.nullable (h : IsNotedText u v s) : IsNotedText (u ++ "?") v (nullable s) := by
  obtain ⟨h, hcomment⟩ := h
  rw [nullable_append_comment (all_inSyntax_of_inType h)]
  exact .intro (all_append h (by decide)) hcomment

theorem IsNotedText.wrap (h : IsNotedText u v s) {before after : String}
    (hbefore : before.toList.all inType) (hafter : after.toList.all inType) :
    IsNotedText (before ++ u) (v ++ after) (before ++ s ++ after) := by
  obtain @⟨comment, h, hcomment⟩ := h
  have hclosed := Lexis.closed_of_inSyntax reads_lexis.symbols (all_inSyntax_of_inType hafter)
  have hbehind : bare (" /* " ++ comment) ++ after = bare (" /* " ++ (comment ++ after)) := by
    rw [← String.append_assoc, bare_append hcomment hclosed, bare_of_inType hafter]
  have htext : before ++ (u ++ (" /* " ++ comment)) ++ after =
      before ++ u ++ (" /* " ++ (comment ++ after)) := by
    simp only [String.append_assoc]
  rw [hbehind, htext]
  refine .intro (all_append hbefore h) ?_
  rw [← String.append_assoc]
  exact Lexis.closed_append hcomment hclosed

theorem isNotedText_noted {note : String} (h : lexis.Confined (.block [note])) :
    IsNotedText "Any" "" (types.noted note) := by
  have hcomment : lexis.Closed (" " ++ inlineComment note) :=
    Lexis.closed_append (by decide) (closed_inlineComment h)
  have hbare : bare (" " ++ inlineComment note) = "" := by
    rw [bare, strip_eq_kept hcomment, kept_comment reads_lexis h]
    rfl
  rw [noted_eq, ← hbare]
  rw [space_inlineComment] at hcomment ⊢
  exact .intro (by decide) hcomment

theorem isNotedText_render (h : TypeConfined lexis t) (hnote : isNoted t) :
    IsNotedText (opening t) (closing t) (types.render t) := by
  induction t with
  | primitive k =>
      have hnone : types.primitive k = none := Option.isNone_iff_eq_none.1 hnote
      rw [TypeSyntax.render, hnone]
      exact isNotedText_noted (confined_unsupportedNote lexis k)
  | optional t ih => exact (ih ⟨h.names, h.notes⟩ hnote).nullable
  | array t ih =>
      have hbefore : "List<".toList.all inType := by decide
      have hafter : ">".toList.all inType := by decide
      exact (ih ⟨h.names, h.notes⟩ hnote).wrap hbefore hafter
  | stream t ih =>
      have hbefore : "Flow<".toList.all inType := by decide
      have hafter : ">".toList.all inType := by decide
      exact (ih ⟨h.names, h.notes⟩ hnote).wrap hbefore hafter
  | recursive t ih => exact ih ⟨h.names, h.notes⟩ hnote
  | named name => cases hnote
  | untyped note =>
      cases note with
      | none => cases hnote
      | some note => exact isNotedText_noted (h.notes note (List.mem_singleton_self _))

theorem bare_render_of_isNoted (h : TypeConfined lexis t) (hnote : isNoted t) :
    bare (types.render t) = opening t ++ closing t :=
  (isNotedText_render h hnote).bare_eq

/-! ## The place of the marks -/

/-- A mark stands behind the end of a list or flow. -/
def HasOuterMark (s : String) : Prop :=
  ∃ us vs, s.toList = us ++ '>' :: vs ∧ '?' ∈ vs

theorem HasOuterMark.wrap (h : HasOuterMark s) (before after : String) :
    HasOuterMark (before ++ s ++ after) := by
  obtain ⟨us, vs, hsplit, hmark⟩ := h
  exact ⟨before.toList ++ us, vs ++ after.toList, by simp [hsplit], List.mem_append_left _ hmark⟩

theorem close_mem_plain (h : isWrapper t) : '>' ∈ (plain t).toList := by
  induction t with
  | optional t ih => simp [plain, ih h]
  | array t | stream t => simp [plain]
  | recursive t ih => exact ih h
  | _ => cases h

theorem hasOuterMark_plain (h : marksWrapper t) : HasOuterMark (plain t) := by
  induction t with
  | optional t ih =>
      rcases Bool.or_eq_true_iff.1 h with h | h
      · obtain ⟨us, vs, hsplit⟩ := List.append_of_mem (close_mem_plain h)
        exact ⟨us, vs ++ ['?'], by simp [plain, hsplit], by simp⟩
      · have hmark := (ih h).wrap "" "?"
        rwa [String.empty_append] at hmark
  | array t ih => exact (ih h).wrap _ _
  | stream t ih => exact (ih h).wrap _ _
  | recursive t ih => exact ih h
  | _ => cases h

theorem close_notMem_opening (t : MemberType) : '>' ∉ (opening t).toList := by
  induction t with
  | optional t ih => simp [opening, ih]
  | array t ih => simp [opening, ih]
  | stream t ih => simp [opening, ih]
  | recursive t ih => exact ih
  | _ => exact (by decide : '>' ∉ "Any".toList)

theorem mark_notMem_closing (t : MemberType) : '?' ∉ (closing t).toList := by
  induction t with
  | optional t ih => exact ih
  | array t ih => simp [closing, ih]
  | stream t ih => simp [closing, ih]
  | recursive t ih => exact ih
  | _ => exact List.not_mem_nil

/-- All marks stand in front of the note, where no list or flow ends. -/
theorem not_hasOuterMark (t : MemberType) : ¬ HasOuterMark (opening t ++ closing t) := by
  rintro ⟨us, vs, hsplit, hmark⟩
  rw [String.toList_append] at hsplit
  rcases List.append_eq_append_iff.1 hsplit with ⟨ws, -, hclosing⟩ | ⟨ws, hopening, hbehind⟩
  · exact mark_notMem_closing t (by simp [hclosing, hmark])
  · cases ws with
    | nil =>
        rw [List.nil_append] at hbehind
        exact mark_notMem_closing t (hbehind ▸ List.mem_cons_of_mem _ hmark)
    | cons c ws =>
        obtain rfl := (List.cons.inj hbehind).1
        exact close_notMem_opening t (by simp [hopening])

theorem closing_of_not_isWrapper (h : ¬ isWrapper t) : closing t = "" := by
  induction t with
  | optional t ih => exact ih h
  | recursive t ih => exact ih h
  | array t | stream t => exact absurd rfl h
  | _ => rfl

theorem plain_of_not_marksWrapper (hnote : isNoted t) (h : ¬ marksWrapper t) :
    plain t = opening t ++ closing t := by
  induction t with
  | primitive k => simp [plain, opening, closing, Option.isNone_iff_eq_none.1 hnote]
  | optional t ih =>
      obtain ⟨hwrapper, hmarks⟩ := not_or.1 (mt Bool.or_eq_true_iff.2 h)
      simp [plain, opening, closing, ih hnote hmarks, closing_of_not_isWrapper hwrapper]
  | array t ih => simp [plain, opening, closing, ih hnote h, String.append_assoc]
  | stream t ih => simp [plain, opening, closing, ih hnote h, String.append_assoc]
  | recursive t ih => exact ih hnote h
  | named name => cases hnote
  | untyped note => simp [plain, opening, closing]

/-- Where a note stands, all marks go to the innermost type. So the code is the type that is meant, unless
there is a note and a mark of a list or flow. -/
theorem bare_render_eq_plain_iff (h : TypeUndelimited t) :
    (bare (types.render t) = plain t ↔ ¬ (isNoted t ∧ marksWrapper t)) ∧
      (isNoted t → bare (types.render t) = opening t ++ closing t) := by
  refine ⟨?_, bare_render_of_isNoted (h.confined lexis)⟩
  by_cases hnote : isNoted t
  · rw [bare_render_of_isNoted (h.confined lexis) hnote]
    constructor
    · rintro heq ⟨-, hmarks⟩
      exact not_hasOuterMark t (heq ▸ hasOuterMark_plain hmarks)
    · intro hmarks
      exact (plain_of_not_marksWrapper hnote fun hwrapper => hmarks ⟨hnote, hwrapper⟩).symm
  · exact iff_of_true (bare_render h.names hnote) fun hnoted => hnote hnoted.1

/-! ### Tags of an unknown type -/

/-- A nullable list of tags, whose type is unknown. -/
def nullableTags : MemberType :=
  .optional (.array (.untyped (some "unknown type 'films.Tag'")))

/-- A list of nullable tags, in a flow. -/
def tagsOrNull : MemberType :=
  .stream (.array (.optional (.untyped (some "unknown type 'films.Tag'"))))

theorem typeUndelimited_tags : TypeUndelimited nullableTags ∧ TypeUndelimited tagsOrNull := by
  have hnote : Lexis.Undelimited "unknown type 'films.Tag'" := ⟨by decide +kernel, by decide +kernel⟩
  have hnotes : ∀ note, some note ∈ [some "unknown type 'films.Tag'"] → Lexis.Undelimited note := by
    intro note hmem
    obtain rfl := Option.some.inj (List.mem_singleton.1 hmem)
    exact hnote
  exact ⟨⟨by decide, hnotes⟩, ⟨by decide, hnotes⟩⟩

/-- The marks are where they are meant to be if only the innermost type has some. -/
theorem tagsOrNull_in_place :
    TypeUndelimited tagsOrNull ∧ bare (types.render tagsOrNull) = "Flow<List<Any?>>" := by
  have hplain : plain tagsOrNull = "Flow<List<Any?>>" := by decide
  have hmarks : ¬ (isNoted tagsOrNull ∧ marksWrapper tagsOrNull) := by decide
  have htags := typeUndelimited_tags.2
  exact ⟨htags, hplain ▸ (bare_render_eq_plain_iff htags).1.2 hmarks⟩

/-- A nullable list is written as a list of what is nullable. -/
theorem nullableTags_displaced :
    TypeUndelimited nullableTags ∧
      types.render nullableTags = "List<Any? /* unknown type 'films.Tag' */>" ∧
      bare (types.render nullableTags) = "List<Any?>" ∧ plain nullableTags = "List<Any>?" :=
  ⟨typeUndelimited_tags.1, by decide +kernel, by decide +kernel, by decide⟩

end SchemaSnippets.Target.Kotlin

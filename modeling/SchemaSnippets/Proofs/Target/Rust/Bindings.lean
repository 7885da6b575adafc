import SchemaSnippets.Proofs.Target.Rust.Items
import SchemaSnippets.Proofs.Target.Rust.MemberNames

/-!
# What members in Rust are bound to

Attributes bind the members of an item to names in the data: the name of an attribute on the member
itself, else what the attribute of the whole item makes of the identifier, else the identifier.

* `StructItem.boundName`, `ConstantItem.boundName` : the name that a member is bound to;
* `record_binds` : members of a structure are bound to the names of their fields, in order;
* `EnumItem.StandsFor` : whether a member of an enumeration stands for a value;
* `enumeration_binds_iff` : which members stand for their values; `mixed_integer_unbound` : an
  integer among texts is not one of them.
-/

namespace SchemaSnippets.Target.Rust
open Json Model Text

/-! ## Records -/

/-- The name in the data that a member of a structure is bound to. -/
def StructItem.boundName (i : StructItem) (m : FieldItem) : String :=
  match m.rename with
  | some name => name
  | none => if i.camelCase then attributeCamel (withoutMark m.name) else withoutMark m.name

theorem plain_withoutMark_of_mem_fieldNames {s : RecordDeclaration} {name : String}
    (h : name ∈ fieldNames s) : Plain (withoutMark name) := by
  refine forall_mem_tellApartFrom (P := fun m => Plain (withoutMark m)) ?_ ?_ name h
  · intro n hn
    obtain ⟨f, -, rfl⟩ := List.mem_map.1 hn
    exact plain_withoutMark_memberName f.name
  · intro n hn i
    obtain ⟨f, -, rfl⟩ := List.mem_map.1 hn
    apply plain_withoutMark_of_plain
    refine plain_append (plain_append (plain_withoutMark_memberName f.name) ?_)
      (all_inIdentifier_toString i)
    show "_".toList.all inIdentifier
    decide

/-- Each member is bound to the name of its field. -/
theorem boundName_fieldItem {s : RecordDeclaration} {f : RecordMember} {name : String}
    (h : (f, name) ∈ namedFields s) :
    (structItem s).boundName (fieldItem (structItem s).camelCase f name) = f.name := by
  unfold StructItem.boundName fieldItem
  by_cases hbound : (structItem s).camelCase
  · -- the attribute was chosen because it gives all names of the fields
    have hall : (namedFields s).all fun m => camel (withoutMark m.2) == m.1.name := by
      have hboth := hbound
      rw [structItem, bindsByCamelCase, Bool.and_eq_true] at hboth
      exact hboth.1
    have hcamel : camel (withoutMark name) = f.name := by
      simpa using List.all_eq_true.1 hall _ h
    have hplain := plain_withoutMark_of_mem_fieldNames (List.of_mem_zip h).2
    rw [hbound, ← camel_eq_attributeCamel hplain]
    simpa using hcamel
  · rw [Bool.not_eq_true] at hbound
    rw [hbound]
    by_cases hname : withoutMark name = f.name
    · simp [hname]
    · simp [hname]

/-- A record is written as an item whose members are those of the fields, each bound to the name of
its field. -/
theorem record_binds (s : RecordDeclaration) :
    record s = (structItem s).text ∧
    (structItem s).members.map (·.type) = s.fields.map (types.render ·.type) ∧
    (structItem s).members.map (structItem s).boundName = s.fields.map (·.name) := by
  have hfields : (namedFields s).map Prod.fst = s.fields :=
    List.map_fst_zip (Nat.le_of_eq (length_fieldNames s).symm)
  refine ⟨record_eq_text s, ?_, ?_⟩
  · rw [← hfields, structItem, List.map_map, List.map_map]
    rfl
  · have hmembers : (structItem s).members =
        (namedFields s).map fun m => fieldItem (structItem s).camelCase m.1 m.2 := rfl
    rw [hmembers, List.map_map]
    have hnames : (namedFields s).map (fun m => m.1.name) = s.fields.map (·.name) := by
      conv_rhs => rw [← hfields, List.map_map]
      rfl
    rw [← hnames]
    exact List.map_congr_left fun m hm => boundName_fieldItem hm

/-! ## Enumerations -/

/-- The name in the data that a member of an enumeration is bound to. -/
def ConstantItem.boundName (m : ConstantItem) : String :=
  m.rename.getD m.name

/-- The text of a value in the data: a string itself, and any other value as it is written. -/
def wireText (v : Value) : String :=
  v.text?.getD v.text

/-- Members of a numbered enumeration stand for their discriminants, all others for the names that
they are bound to. -/
def EnumItem.StandsFor (i : EnumItem) (m : ConstantItem) (v : Value) : Prop :=
  if i.numbered then ∃ n, v = .integer n ∧ m.discriminant = some n else m.boundName = wireText v

theorem eq_integer_of_int64? {v : Value} {n : Int} (h : v.int64? = some n) : v = .integer n := by
  cases v with
  | integer i =>
      rw [Value.int64?] at h
      by_cases hrange : -9223372036854775808 ≤ i ∧ i ≤ 9223372036854775807
      · rw [if_pos hrange] at h
        rw [Option.some.inj h]
      · rw [if_neg hrange] at h
        cases h
  | _ => cases h

theorem isIdentifier_constantName (name : String) : isIdentifier (constantName name) := by
  unfold constantName NameRules.declarationName
  exact NameRules.isIdentifier_legalize naming _

theorem isIdentifier_of_mem_constantNames {s : EnumDeclaration} {name : String}
    (h : name ∈ constantNames s) : isIdentifier name := by
  refine forall_mem_tellApartFrom (P := fun m => isIdentifier m) ?_ ?_ name h
  · intro n hn
    obtain ⟨v, -, rfl⟩ := List.mem_map.1 hn
    exact isIdentifier_constantName v.name
  · intro n hn i
    obtain ⟨v, -, rfl⟩ := List.mem_map.1 hn
    have hid := isIdentifier_constantName v.name
    rw [withoutMark_of_plain (all_inIdentifier_of_isIdentifier hid), String.append_empty]
    exact isIdentifier_append hid (all_inIdentifier_toString i)

/-- No identifier is the text of a number. -/
theorem isIdentifier_toString (i : Int) : isIdentifier (toString i) = false := by
  cases i with
  | ofNat n =>
      show isIdentifierChars (toString n).toList = false
      rw [Nat.toString_eq_ofList_toDigits, String.toList_ofList]
      cases hcs : Nat.toDigits 10 n with
      | nil => rfl
      | cons c cs =>
          have hmem : c ∈ Nat.toDigits 10 n := hcs ▸ List.mem_cons_self ..
          have hdigit : c.isDigit := Nat.isDigit_of_mem_toDigits (by decide) (by decide) hmem
          have hne : (c == '_') = false := by
            rw [beq_eq_false_iff_ne]
            rintro rfl
            exact absurd hdigit (by decide)
          rw [isIdentifierChars, startsIdentifier, isAlpha_of_isDigit hdigit, hne]
          rfl
  | negSucc n =>
      show isIdentifierChars ("-" ++ toString (n + 1)).toList = false
      rw [String.toList_append]
      rfl

theorem boundName_constantItem {v : EnumMember} {name wire : String} (h : wireName? v = some wire) :
    (constantItem v name).boundName = wire := by
  unfold ConstantItem.boundName constantItem
  rw [h, Option.filter_some]
  by_cases hname : wire = name
  · simp [hname]
  · simp [hname]

/-- Whether a member stands for its value is decided by the value and the whole enumeration. -/
theorem standsFor_iff {s : EnumDeclaration} {v : EnumMember} {name : String}
    (h : (v, name) ∈ namedConstants s) :
    (enumItem s).StandsFor (constantItem v name) v.value ↔
      (enumItem s).numbered ∨ v.value.int64? = none := by
  unfold EnumItem.StandsFor
  by_cases hnumbered : (enumItem s).numbered
  · rw [if_pos hnumbered]
    have hall : s.members.all (·.value.int64?.isSome) := by
      have hboth := hnumbered
      rw [enumItem, isNumbered, Bool.and_eq_true] at hboth
      exact hboth.2
    obtain ⟨n, hn⟩ := Option.isSome_iff_exists.1 (List.all_eq_true.1 hall v (List.of_mem_zip h).1)
    exact ⟨fun _ => Or.inl hnumbered, fun _ => ⟨n, eq_integer_of_int64? hn, hn⟩⟩
  · rw [if_neg hnumbered]
    cases hint : v.value.int64? with
    | none =>
        -- the text of the value is the name in the data
        refine ⟨fun _ => Or.inr rfl, fun _ => boundName_constantItem ?_⟩
        unfold wireName? wireText
        cases v.value.text? with
        | some text => rfl
        | none => rw [hint]; rfl
    | some n =>
        -- the identifier is what is left, and it is no number
        have hid := isIdentifier_of_mem_constantNames (List.of_mem_zip h).2
        have hvalue := eq_integer_of_int64? hint
        have hwire : wireName? v = none := by
          unfold wireName?
          rw [hint, hvalue]
          rfl
        have hbound : (constantItem v name).boundName = name := by
          unfold ConstantItem.boundName constantItem
          rw [hwire]
          rfl
        rw [hbound, hvalue]
        constructor
        · intro hname
          rw [hname] at hid
          have hno := isIdentifier_toString n
          rw [show isIdentifier (toString n) = true from hid] at hno
          cases hno
        · rintro (hyes | hno)
          · exact absurd hyes hnumbered
          · cases hno

/-- What holds of values and members in order holds of each value with its member. -/
theorem forall₂_members_iff {s : EnumDeclaration} {R : EnumMember → ConstantItem → Prop} :
    List.Forall₂ R s.members (enumItem s).members ↔
      ∀ m ∈ namedConstants s, R m.1 (constantItem m.1 m.2) := by
  have hvalues : (namedConstants s).map Prod.fst = s.members :=
    List.map_fst_zip (Nat.le_of_eq (length_constantNames s).symm)
  have hmembers : (enumItem s).members =
      (namedConstants s).map fun m => constantItem m.1 m.2 := rfl
  conv_lhs => arg 2; rw [← hvalues]
  rw [hmembers, List.forall₂_map_left_iff, List.forall₂_map_right_iff, List.forall₂_same]

/-- An enumeration is written as an item. It is numbered if its values are 64-bit integers, and a
member stands for its value if and only if the enumeration is numbered or the value is no such
integer. -/
theorem enumeration_binds_iff (s : EnumDeclaration) :
    enumeration s = (enumItem s).text ∧
    ((enumItem s).numbered ↔ s.members ≠ [] ∧ ∀ v ∈ s.members, v.value.int64?.isSome) ∧
    List.Forall₂ (fun v m => (enumItem s).StandsFor m v.value ↔
      (enumItem s).numbered ∨ v.value.int64? = none) s.members (enumItem s).members := by
  refine ⟨enumeration_eq_text s, ?_, ?_⟩
  · rw [enumItem, isNumbered, Bool.and_eq_true, List.all_eq_true, Bool.not_eq_true',
      List.isEmpty_eq_false_iff]
  · rw [forall₂_members_iff]
    exact fun m hm => standsFor_iff hm

/-- One value is an integer and the other a text. -/
def mixedScore : EnumDeclaration :=
  ⟨"Score", [], [⟨"NONE", .integer 0, []⟩, ⟨"BEST", .string "best", []⟩]⟩

/-- The integer has no attribute, so its member is bound to the identifier and not to the integer. -/
theorem mixed_integer_unbound :
    (mixedScore.members.map (·.value)).Nodup ∧
    mixedScore.members.map (fun v => wireText v.value) = ["0", "best"] ∧
    (enumItem mixedScore).members.map (·.boundName) = ["None", "best"] ∧
    ¬ List.Forall₂ (fun v m => (enumItem mixedScore).StandsFor m v.value) mixedScore.members
      (enumItem mixedScore).members := by
  refine ⟨by simp [mixedScore], by decide +kernel, by decide +kernel, fun h => ?_⟩
  have hnames : constantNames mixedScore = ["None", "Best"] := by decide +kernel
  have hfirst : (⟨"NONE", .integer 0, []⟩, "None") ∈ namedConstants mixedScore := by
    rw [namedConstants, hnames]
    exact List.mem_cons_self ..
  rcases (standsFor_iff hfirst).1 (forall₂_members_iff.1 h _ hfirst) with hnumbered | hint
  · exact absurd hnumbered (by decide +kernel)
  · exact absurd hint (by decide)

end SchemaSnippets.Target.Rust

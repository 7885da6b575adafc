import SchemaSnippets.Proofs.Plan.BackReferences
import SchemaSnippets.Proofs.Snippet.Members
import SchemaSnippets.Target.Syntax.Rust

/-!
# Records of finite size

A record that holds another one in place is declared behind it, so that no record contains itself.
The references that would go the other way are recorded with the plan, and their members refer back.

* `SnippetModel.Holds m x y` : a member of the record `x` holds a value of the record `y` in place;
* `holds_iff` : which records that are, in terms of the graph and the plan;
* `namedBefore_of_holds` : then `y` is declared before `x`;
* `rust_not_holds_self` : in Rust, where a reference back is a box, all records have a finite size.
-/

namespace SchemaSnippets.Snippet
open Model Request Schema Target Relation

/-- A member of the record named `x` holds a value of the record named `y`. -/
def SnippetModel.Holds (m : SnippetModel) (x y : String) : Prop :=
  ∃ a b, .record a ∈ m.entries ∧ .record b ∈ m.entries ∧ a.name = x ∧ b.name = y ∧
    ∃ f ∈ a.fields, f.type.held? = some y

section Model
variable {p : Profile} {r : CodeRequest} {docs : Bool}

/-- A record holds the records that are the types of its members, unless a member refers back. -/
theorem holds_iff {x y : String} :
    (SnippetModel.build p r docs).Holds x y ↔
      ∃ a ∈ (planOf r).declarations, ∃ d ∈ (planOf r).declarations,
        nameIn p r docs a = x ∧ nameIn p r docs d = y ∧ d.kind.isRecord ∧
          ⟨a.key, d.key⟩ ∉ (planOf r).recursive ∧
          ∃ m ∈ a.kind.attributes, r.graph.resolve? m.type = some d := by
  constructor
  · rintro ⟨s, s', hs, hs', rfl, rfl, f, hf, hheld⟩
    obtain ⟨a, ha, -, hax, fs, rfl⟩ := exists_declaration_of_record hs
    obtain ⟨b, hb, hbrec, hby, -⟩ := exists_declaration_of_record hs'
    obtain ⟨m, hm, fs', location, htype⟩ := Context.exists_attribute_of_mem hf
    rw [htype, Context.held?_nullable, Context.held?_attributeType] at hheld
    obtain ⟨d, hd, hdecl, hname, hback⟩ := hheld
    -- the member's type is the record of that name, no other declaration has it
    have hdplan : d ∈ (planOf r).declarations :=
      declares_of_refers ha ⟨m, hm, d, hd, .declared hdecl⟩
    obtain rfl : d = b := nameIn_inj hdplan hb (hname.trans hby.symm)
    refine ⟨a, ha, d, hb, hax, hby, hbrec, fun hrecorded => hback ?_, m, hm, hd⟩
    exact Context.refersBack_iff.2 ⟨hbrec, hrecorded⟩
  · rintro ⟨a, ha, d, hd, rfl, rfl, hrec, hrecorded, m, hm, hmd⟩
    have harec := TypeKind.isRecord_of_mem_attributes hm
    obtain ⟨s, hs, hsx, fs, rfl⟩ := exists_record_of_declaration p docs ha harec
    obtain ⟨s', hs', hsy, -⟩ := exists_record_of_declaration p docs hd hrec
    obtain ⟨f, hf, fs', location, htype⟩ := Context.exists_field_of_mem hm fs
    refine ⟨_, s', hs, hs', hsx, hsy, f, hf, ?_⟩
    rw [htype, Context.held?_nullable, Context.held?_attributeType]
    refine ⟨d, hmd, TypeKind.isDeclared_of_isRecord hrec, rfl, fun hback => hrecorded ?_⟩
    exact (Context.refersBack_iff.1 hback).2

/-! ## Order -/

/-- A declaration named `y` stands before one named `x`. -/
def NamedBefore (p : Profile) (r : CodeRequest) (docs : Bool) (y x : String) : Prop :=
  ∃ b ∈ (planOf r).declarations, ∃ a ∈ (planOf r).declarations,
    nameIn p r docs b = y ∧ nameIn p r docs a = x ∧ (planOf r).DeclaresBefore b a

theorem NamedBefore.trans {x y z : String} (h : NamedBefore p r docs z y)
    (h' : NamedBefore p r docs y x) : NamedBefore p r docs z x := by
  obtain ⟨d, hd, b, hb, hdz, hby, hdb⟩ := h
  obtain ⟨b', hb', a, ha, hby', hax, hba⟩ := h'
  obtain rfl : b = b' := nameIn_inj hb hb' (hby.trans hby'.symm)
  exact ⟨d, hd, a, ha, hdz, hax, hdb.trans nodup_declarations_build hba⟩

theorem not_namedBefore_self (x : String) : ¬ NamedBefore p r docs x x := by
  rintro ⟨b, hb, a, ha, hbx, hax, hba⟩
  obtain rfl : b = a := nameIn_inj hb ha (hbx.trans hax.symm)
  exact Plan.not_declaresBefore_self nodup_declarations_build b hba

/-- What a record holds in place is declared before it. -/
theorem namedBefore_of_holds {x y : String} (h : (SnippetModel.build p r docs).Holds x y) :
    NamedBefore p r docs y x := by
  obtain ⟨a, ha, d, hd, hax, hdy, hrec, hrecorded, m, hm, hmd⟩ := holds_iff.1 h
  refine ⟨d, hd, a, ha, hdy, hax, ?_⟩
  exact (recorded_or_declaresBefore ha hm hmd hrec).resolve_left hrecorded

end Model

/-- No record of a model in Rust holds itself, directly or through other records. -/
theorem rust_not_holds_self (r : CodeRequest) (docs : Bool) (x : String) :
    ¬ TransGen (SnippetModel.build Rust.profile r docs).Holds x x := by
  have hbefore : ∀ y, TransGen (SnippetModel.build Rust.profile r docs).Holds x y →
      NamedBefore Rust.profile r docs y x := by
    intro y h
    induction h with
    | single h => exact namedBefore_of_holds h
    | tail _ h ih => exact (namedBefore_of_holds h).trans ih
  exact fun h => not_namedBefore_self x (hbefore x h)

end SchemaSnippets.Snippet

import SchemaSnippets.Target.TypeSyntax

/-!
# What the text of a type is made of

Primitives without a type and imports are collected from a type, and its text is written from the same
type. Both go through all layers, but each on its own. Here the writing is told with what was chosen on
the way, so that what is collected can be compared with it.

* `TypePart` : what is chosen where a syntax can choose;
* `TypeSyntax.Writes` : how a text comes about; `Writes.text_eq`, `exists_writes` : this is how types are
  rendered; `Writes.parts_unique` : in one way;
* `TypeSyntax.Shows` : what the text of a type shows;
* `shows_unsupported_iff` : notes about unsupported primitives are those of mentioned primitives;
  `mem_needs_iff` : a text needs what the types in it need.
-/

namespace SchemaSnippets.Target
open Model Schema

/-- A part of a written type: the type of a primitive kind, the most general type with a note that the
kind is unsupported, or the type of a stream. -/
inductive TypePart where
  | primitive (kind : Primitive)
  | unsupported (kind : Primitive)
  | stream
deriving DecidableEq, Repr

namespace TypeSyntax
variable {s : TypeSyntax} {t : MemberType} {text : String} {parts : List TypePart} {k : Primitive}

/-- The text of a type, with its parts from the outside to the inside. -/
inductive Writes (s : TypeSyntax) : MemberType → String → List TypePart → Prop where
  | primitive {k : Primitive} {name : String} (h : s.primitive k = some name) :
      Writes s (.primitive k) name [.primitive k]
  | unsupported {k : Primitive} (h : s.primitive k = none) :
      Writes s (.primitive k) (s.noted (unsupportedNote k)) [.unsupported k]
  | optional {t : MemberType} {text : String} {parts : List TypePart} (h : Writes s t text parts) :
      Writes s (.optional t) (s.optional text) parts
  | array {t : MemberType} {text : String} {parts : List TypePart} (h : Writes s t text parts) :
      Writes s (.array t) (s.array text) parts
  | stream {t : MemberType} {text : String} {parts : List TypePart} (h : Writes s t text parts) :
      Writes s (.stream t) (s.stream text) (.stream :: parts)
  | recursive {t : MemberType} {text : String} {parts : List TypePart} (h : Writes s t text parts) :
      Writes s (.recursive t) (s.recursive text) parts
  | named (name : String) : Writes s (.named name) name []
  | untyped : Writes s (.untyped none) s.untyped []
  | noted (note : String) : Writes s (.untyped (some note)) (s.noted note) []

/-- The text is the rendered one. -/
theorem Writes.text_eq (h : s.Writes t text parts) : text = s.render t := by
  induction h with
  | primitive h => rw [render, h]
  | unsupported h => rw [render, h]
  | optional _ ih => rw [render, ← ih]
  | array _ ih => rw [render, ← ih]
  | stream _ ih => rw [render, ← ih]
  | recursive _ ih => rw [render, ← ih]
  | named name => rfl
  | untyped => rfl
  | noted note => rfl

/-- What is chosen depends on the type alone. -/
theorem Writes.parts_unique {text' : String} {parts' : List TypePart} (h : s.Writes t text parts)
    (h' : s.Writes t text' parts') : parts = parts' := by
  induction h generalizing text' parts' with
  | primitive h =>
      cases h' with
      | primitive _ => rfl
      | unsupported hnone => simp [h] at hnone
  | unsupported h =>
      cases h' with
      | primitive hsome => simp [h] at hsome
      | unsupported _ => rfl
  | optional _ ih => cases h' with | optional h' => exact ih h'
  | array _ ih => cases h' with | array h' => exact ih h'
  | stream _ ih => cases h' with | stream h' => exact congrArg _ (ih h')
  | recursive _ ih => cases h' with | recursive h' => exact ih h'
  | named name => cases h' with | named _ => rfl
  | untyped => cases h' with | untyped => rfl
  | noted note => cases h' with | noted _ => rfl

theorem exists_writes (s : TypeSyntax) (t : MemberType) : ∃ parts, s.Writes t (s.render t) parts := by
  induction t with
  | primitive k =>
      unfold render
      cases hk : s.primitive k with
      | some name => exact ⟨_, .primitive hk⟩
      | none => exact ⟨_, .unsupported hk⟩
  | optional t ih => exact ih.imp fun _ h => h.optional
  | array t ih => exact ih.imp fun _ h => h.array
  | stream t ih =>
      obtain ⟨parts, h⟩ := ih
      exact ⟨_, h.stream⟩
  | recursive t ih => exact ih.imp fun _ h => h.recursive
  | named name => exact ⟨_, .named name⟩
  | untyped note =>
      cases note with
      | none => exact ⟨_, .untyped⟩
      | some note => exact ⟨_, .noted note⟩

/-- The text of a type shows a part: it has been chosen in writing it. -/
def Shows (s : TypeSyntax) (t : MemberType) (part : TypePart) : Prop :=
  ∃ parts, s.Writes t (s.render t) parts ∧ part ∈ parts

theorem shows_iff {part : TypePart} (h : s.Writes t text parts) : s.Shows t part ↔ part ∈ parts := by
  constructor
  · rintro ⟨parts', h', hpart⟩
    rwa [h.parts_unique h']
  · intro hpart
    exact ⟨parts, h.text_eq ▸ h, hpart⟩

/-! ## What is collected from a type -/

/-- Notes about unsupported primitives are about the mentioned kinds without a type. -/
theorem Writes.unsupported_mem_iff (h : s.Writes t text parts) :
    .unsupported k ∈ parts ↔ k ∈ t.primitives ∧ s.primitive k = none := by
  induction h with
  | @primitive k' name h =>
      rw [MemberType.primitives, List.mem_singleton, List.mem_singleton]
      constructor
      · intro hpart
        cases hpart
      · rintro ⟨rfl, hnone⟩
        rw [h] at hnone
        cases hnone
  | @unsupported k' h =>
      rw [MemberType.primitives, List.mem_singleton, List.mem_singleton, TypePart.unsupported.injEq]
      exact ⟨fun heq => ⟨heq, heq ▸ h⟩, And.left⟩
  | optional _ ih => exact ih
  | array _ ih => exact ih
  | stream _ ih => rw [List.mem_cons, or_iff_right (by simp), ih, MemberType.primitives]
  | recursive _ ih => exact ih
  | named name => simp [MemberType.primitives]
  | untyped => simp [MemberType.primitives]
  | noted note => simp [MemberType.primitives]

/-- What a text needs is what its parts need. -/
theorem Writes.mem_needs_iff (h : s.Writes t text parts) {i : Import} :
    i ∈ s.needs t ↔ (∃ k, .primitive k ∈ parts ∧ i ∈ s.primitiveNeeds k) ∨
      .stream ∈ parts ∧ i ∈ s.streamNeeds := by
  induction h with
  | @primitive k name h => simp [needs, h]
  | @unsupported k h => simp [needs, h]
  | optional _ ih => exact ih
  | array _ ih => exact ih
  | @stream t text parts _ ih =>
      rw [needs, List.mem_append, ih]
      simp only [List.mem_cons, reduceCtorEq, false_or, true_or, true_and]
      grind
  | recursive _ ih => exact ih
  | named name => simp [needs]
  | untyped => simp [needs]
  | noted note => simp [needs]

theorem shows_unsupported_iff :
    s.Shows t (.unsupported k) ↔ k ∈ t.primitives ∧ s.primitive k = none := by
  obtain ⟨parts, h⟩ := s.exists_writes t
  rw [shows_iff h, h.unsupported_mem_iff]

theorem mem_needs_iff {i : Import} :
    i ∈ s.needs t ↔ (∃ k, s.Shows t (.primitive k) ∧ i ∈ s.primitiveNeeds k) ∨
      s.Shows t .stream ∧ i ∈ s.streamNeeds := by
  obtain ⟨parts, h⟩ := s.exists_writes t
  simp only [shows_iff h, h.mem_needs_iff]

end TypeSyntax

end SchemaSnippets.Target

import SchemaSnippets.Proofs.Snippet.Findings

/-!
# Telling messages apart

The message of an unknown type is no other message, whatever names the messages hold: it begins with
`u` and ends with a quote.

* `message_eq_unknownType_iff` : among the errors of a schema;
* `message_backNote_ne`, `message_unsupportedPrimitive_ne`, `referencedRecursively_ne` : among all that
  is found.
-/

namespace SchemaSnippets.Snippet
open Model Schema

theorem head?_append {s t : String} {c : Char} (h : s.toList.head? = some c) :
    (s ++ t).toList.head? = some c := by
  rw [String.toList_append, List.head?_append, h, Option.some_or]

theorem getLast?_append {s t : String} {c : Char} (h : t.toList.getLast? = some c) :
    (s ++ t).toList.getLast? = some c := by
  rw [String.toList_append, List.getLast?_append, h, Option.some_or]

theorem head?_unknownType (k : String) :
    (SchemaError.unknownType k).message.toList.head? = some 'u' :=
  head?_append (head?_append (by decide))

theorem getLast?_unknownType (k : String) :
    (SchemaError.unknownType k).message.toList.getLast? = some '\'' :=
  getLast?_append (by decide)

theorem message_eq_unknownType_iff {e : SchemaError} {k : String} :
    e.message = (SchemaError.unknownType k).message ↔ e = .unknownType k := by
  constructor
  · intro h
    cases e with
    | unknownType k' =>
        have hk : "unknown type '" ++ k' ++ "'" = "unknown type '" ++ k ++ "'" := h
        rw [show k' = k by simpa using hk]
    | cyclicInheritance n chain =>
        have hfirst : (SchemaError.cyclicInheritance n chain).message.toList.head? = some 'c' :=
          head?_append (head?_append (head?_append (by decide)))
        rw [h, head?_unknownType] at hfirst
        exact absurd hfirst (by decide)
  · rintro rfl
    rfl

theorem message_backNote_ne (c : Context) (r : BackReference) (k : String) :
    (backNote c r).message ≠ (SchemaError.unknownType k).message := by
  intro h
  have hfirst : (backNote c r).message.toList.head? = some 'r' :=
    head?_append (head?_append (by decide))
  rw [h, head?_unknownType] at hfirst
  exact absurd hfirst (by decide)

theorem message_unsupportedPrimitive_ne (language : String) (kind : Primitive) (k : String) :
    (Failure.unsupportedPrimitive language kind).message ≠ (SchemaError.unknownType k).message := by
  intro h
  have hlast : (Failure.unsupportedPrimitive language kind).message.toList.getLast? =
      kind.name.toList.getLast? := by
    cases kind <;> exact getLast?_append (by decide)
  rw [h, getLast?_unknownType] at hlast
  exact absurd hlast (by cases kind <;> decide)

theorem Failure.message_eq_unknownType_iff {f : Failure} {k : String} :
    f.message = (SchemaError.unknownType k).message ↔ f = .schema (.unknownType k) := by
  cases f with
  | schema e => exact SchemaSnippets.Snippet.message_eq_unknownType_iff.trans (by simp)
  | unsupportedPrimitive language kind => simp [message_unsupportedPrimitive_ne]

theorem referencedRecursively_ne (target k : String) :
    s!"{target} is referenced recursively" ≠ (SchemaError.unknownType k).message := by
  intro h
  have hlast : (s!"{target} is referenced recursively").toList.getLast? = some 'y' :=
    getLast?_append (by decide)
  rw [h, getLast?_unknownType] at hlast
  exact absurd hlast (by decide)

end SchemaSnippets.Snippet

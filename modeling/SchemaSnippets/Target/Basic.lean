import SchemaSnippets.Target.Syntax.Kotlin
import SchemaSnippets.Target.QueryOnly
import SchemaSnippets.Target.Syntax.Rust
import SchemaSnippets.Target.Syntax.TypeScript

/-!
# Targets

What snippets are made for: one of five known targets, or a language by its name, which is written in
the neutral syntax. Known targets go by their id or by a short form, upper and lower case alike.
-/

namespace SchemaSnippets

inductive Target where
  | typescript | kotlin | rust | json | sheets
  | unmapped (language : String)
deriving DecidableEq, Repr

namespace Target

/-- The known targets, in the order in which they are listed. -/
def known : List Target :=
  [.typescript, .kotlin, .rust, .json, .sheets]

/-- What the target decides. -/
def profile : Target → Profile
  | .typescript => TypeScript.profile
  | .kotlin => Kotlin.profile
  | .rust => Rust.profile
  | .json => QueryOnly.json
  | .sheets => QueryOnly.sheets
  | .unmapped language => Neutral.profile language

def id (t : Target) : String :=
  t.profile.id

/-- The other ids of a known target. -/
def aliases : Target → List String
  | .typescript => ["ts"]
  | .kotlin => ["kt"]
  | .rust => ["rs"]
  | .json => []
  | .sheets => ["google-sheets"]
  | .unmapped _ => []

/-- The known target with the given id. Only the case of ASCII letters is ignored. -/
def known? (id : String) : Option Target :=
  let id := String.ofList (id.toList.map Char.toLower)
  known.find? fun t => t.id == id || t.aliases.contains id

/-- The target with the given id. -/
def ofId (id : String) : Target :=
  (known? id).getD (.unmapped id)

theorem ofId_id_of_known {t : Target} (h : t ∈ known) : ofId t.id = t := by
  simp only [known, List.mem_cons, List.not_mem_nil, or_false] at h
  rcases h with rfl | rfl | rfl | rfl | rfl <;> decide

end Target

end SchemaSnippets

import SchemaSnippets.Proofs.Request.Given
import SchemaSnippets.Proofs.Snippet.Members

/-!
# Results given by name only

What a query returns may be given by its name alone. It is a definition all the same, of a type without
members, and it stands between the catalog and the types made for the query.

* `TypeEntry.ofName` : a type of which only the name is given; `read?_name_only` : how it is written;
* `resultEntry` : the definition that the name of the result means; `resolve_returnType`;
* `fields_of_isRecord` : if it is a record, the model declares the members that it has;
* `load_bare_result` : a name alone hides no definition of the catalog, and every other one;
* `film_hidden` : so does the name of a type that was made for the query.
-/

namespace SchemaSnippets.Request
open Json Schema

namespace TypeEntry

/-- A type of which only the name is given is written as an object without any other key. -/
theorem read?_name_only (depth : Nat) (d : Document) :
    read? (depth + 1) (.object [(some "name", d)]) = (name? depth d).map ofName := by
  have hslots : (Document.object [(some "name", d)]).slots? keys (depth + 1) =
      some (depth, some d :: List.replicate 17 none) := rfl
  rw [read?, hslots, Option.map_eq_bind]
  rfl

/-- A record has the attributes that are written. -/
theorem attributes_of_isRecord {t : TypeEntry} (h : t.kind.isRecord) :
    t.kind.attributes = t.attributes.map fun (name, a) => a.toAttribute name := by
  have hempty : ¬ !t.attributes.isEmpty → t.attributes = [] := by simp
  unfold kind at h ⊢
  split at h
  · cases h
  split at h
  · cases h
  split at h
  · cases h
  rename_i henum hstream harray
  rw [if_neg henum, if_neg hstream, if_neg harray]
  cases hbuiltin : t.builtin? with
  | some k => simp [hbuiltin, TypeKind.isRecord] at h
  | none =>
      dsimp only
      split
      · rfl
      · rename_i hattributes
        split <;> simp [hempty hattributes, TypeKind.attributes]

end TypeEntry

namespace RequestEntry
variable {e : RequestEntry}

/-- The definition that the name of the result means: the first one of the catalog, else what the document
gives as the result. -/
def resultEntry (e : RequestEntry) : TypeEntry :=
  (e.schema.types.find? (·.name.key == e.returnType.name.key)).getD e.returnType

theorem find?_resultEntry :
    e.allTypes.find? (·.name.key == e.returnType.name.key) = some e.resultEntry := by
  unfold allTypes outerTypes resultEntry
  rw [List.append_assoc, List.append_assoc, List.append_assoc, List.find?_append,
    List.singleton_append, List.find?_cons, BEq.rfl]
  cases e.schema.types.find? (·.name.key == e.returnType.name.key) <;> rfl

theorem resolve_returnType : e.graph.resolve e.returnType.name = .ok e.resultEntry.toType := by
  unfold TypeGraph.resolve
  rw [find?_graph find?_resultEntry]
  rfl

end RequestEntry

end SchemaSnippets.Request

namespace SchemaSnippets.Snippet
open Json Model Request Schema Target

/-- The members that the model declares for a record are its attributes. -/
theorem names_fields_recordDeclaration (c : Context) (t : SchemaType) (fs : Findings) :
    (c.recordDeclaration t fs).1.fields.map (·.name) = t.kind.attributes.map (·.name) := by
  have hfields := c.forall₂_membersOf t.key (c.nameOf t) t.kind.attributes fs
  have hnames : List.Forall₂ (fun f a => f.name = a.name)
      (c.recordDeclaration t fs).1.fields t.kind.attributes := (hfields.imp fun a f h => h.1).flip
  rwa [← List.forall₂_eq_eq_eq, List.forall₂_map_left_iff, List.forall₂_map_right_iff]

/-- The result of the request is of the type: its name means this type, and if it is a record then models
declare it with the members that it is given. -/
structure ResultIs (r : CodeRequest) (t : TypeEntry) : Prop where
  resolves : r.graph.resolve r.returnType = .ok t.toType
  declared : t.kind.isRecord → ∀ p docs, ∃ s, .record s ∈ (SnippetModel.build p r docs).entries ∧
    (namesOf p r).get? t.name.key = some s.name ∧ s.fields.map (·.name) = t.attributes.map (·.1)

theorem resultIs_resultEntry (e : RequestEntry) : ResultIs (.ofEntry e) e.resultEntry := by
  have hresolves : (CodeRequest.ofEntry e).graph.resolve (CodeRequest.ofEntry e).returnType =
      .ok e.resultEntry.toType := e.resolve_returnType
  refine ⟨hresolves, fun hrecord p docs => ?_⟩
  have hdecl : e.resultEntry.toType ∈ (planOf (.ofEntry e)).declarations :=
    mem_declarations_build.2 ⟨TypeKind.isDeclared_of_isRecord hrecord, _, .root,
      TypeGraph.resolve?_eq_some.2 hresolves⟩
  obtain ⟨s, hs, hname, fs, rfl⟩ := exists_record_of_declaration p docs hdecl hrecord
  refine ⟨_, hs, hname ▸ get?_namesOf hdecl, ?_⟩
  have hattributes := TypeEntry.attributes_of_isRecord hrecord
  rw [names_fields_recordDeclaration]
  show e.resultEntry.kind.attributes.map _ = _
  rw [hattributes, List.map_map]
  rfl

/-- A result of which only the name is given is of the type that the catalog defines first under this name.
If the catalog has no such type the name alone counts, whatever other types have it. -/
theorem load_bare_result {src : String} {r : CodeRequest} {e : RequestEntry}
    (h : CodeRequest.load src = .ok r) (he : RequestEntry.ofText? src = some e)
    (hbare : e.returnType = .ofName r.returnType) :
    (∀ t, e.schema.types.find? (·.name.key == r.returnType.key) = some t → ResultIs r t) ∧
      ((∀ t ∈ e.schema.types, t.name.key ≠ r.returnType.key) →
        ResultIs r (.ofName r.returnType)) := by
  obtain ⟨e', he', -, rfl⟩ := CodeRequest.load_eq_ok.1 h
  obtain rfl : e = e' := Option.some.inj (he.symm.trans he')
  have hresult := resultIs_resultEntry e
  refine ⟨fun t ht => ?_, fun hnone => ?_⟩
  · have hfind : e.schema.types.find? (·.name.key == e.returnType.name.key) = some t := ht
    rwa [RequestEntry.resultEntry, hfind, Option.getD_some] at hresult
  · have hother : ∀ t ∈ e.schema.types, t.name.key ≠ e.returnType.name.key := hnone
    have hfind : e.schema.types.find? (·.name.key == e.returnType.name.key) = none := by
      simpa using hother
    rwa [RequestEntry.resultEntry, hfind, Option.getD_none, hbare] at hresult

/-! ### Films of the catalog and films made for a query -/

/-- A film has a title. -/
def filmEntry : TypeEntry :=
  { TypeEntry.ofName (.ofFull "Film") with
    attributes := [("title", ⟨.ofFull "String", false, [], none, none, none⟩)] }

/-- How films are written. -/
def filmDocument : Document :=
  .object [(some "name", .string (some "Film")), (some "attributes", .object [
    (some "title", .object [(some "type", .string (some "String"))])])]

/-- A query of films that the catalog defines. -/
def catalogText : String :=
  "\x7b\"query\": \"find\", \"returnType\": \x7b\"name\": \"Film\"\x7d, \"schema\": \x7b\"types\": [" ++
    "\x7b\"name\": \"Film\", \"attributes\": \x7b\"title\": \x7b\"type\": \"String\"\x7d\x7d\x7d]\x7d\x7d"

def catalogEntry : RequestEntry :=
  ⟨"find", .ofName (.ofFull "Film"), ⟨[filmEntry], []⟩, []⟩

theorem ofText?_catalogText : RequestEntry.ofText? catalogText = some catalogEntry := by
  have hdocument : Document.ofText? catalogText = some (.object [
      (some "query", .string (some "find")),
      (some "returnType", .object [(some "name", .string (some "Film"))]),
      (some "schema", .object [(some "types", .array [filmDocument])])]) :=
    Document.ofText?_of_tokens (by decide +kernel)
  rw [RequestEntry.ofText?, hdocument]
  rfl

theorem film_of_catalog :
    let r := CodeRequest.ofEntry catalogEntry
    CodeRequest.load catalogText = .ok r ∧ RequestEntry.ofText? catalogText = some catalogEntry ∧
      catalogEntry.returnType = .ofName r.returnType ∧
      (∀ t, catalogEntry.schema.types.find? (·.name.key == r.returnType.key) = some t →
        ResultIs r t) ∧
      ((∀ t ∈ catalogEntry.schema.types, t.name.key ≠ r.returnType.key) →
        ResultIs r (.ofName r.returnType)) := by
  have hload : CodeRequest.load catalogText = .ok (.ofEntry catalogEntry) :=
    CodeRequest.load_eq_ok.2 ⟨_, ofText?_catalogText, by decide, rfl⟩
  exact ⟨hload, ofText?_catalogText, rfl, load_bare_result hload ofText?_catalogText rfl⟩

/-- The same query with films that are made for it. -/
def madeText : String :=
  "\x7b\"query\": \"find\", \"returnType\": \x7b\"name\": \"Film\"\x7d, \"anonymousTypes\": [" ++
    "\x7b\"name\": \"Film\", \"attributes\": \x7b\"title\": \x7b\"type\": \"String\"\x7d\x7d\x7d]\x7d"

def madeEntry : RequestEntry :=
  ⟨"find", .ofName (.ofFull "Film"), ⟨[], []⟩, [filmEntry]⟩

theorem ofText?_madeText : RequestEntry.ofText? madeText = some madeEntry := by
  have hdocument : Document.ofText? madeText = some (.object [
      (some "query", .string (some "find")),
      (some "returnType", .object [(some "name", .string (some "Film"))]),
      (some "anonymousTypes", .array [filmDocument])]) :=
    Document.ofText?_of_tokens (by decide +kernel)
  rw [RequestEntry.ofText?, hdocument]
  rfl

/-- The name alone hides these films: the result has no members. -/
theorem film_hidden :
    let r := CodeRequest.ofEntry madeEntry
    CodeRequest.load madeText = .ok r ∧ RequestEntry.ofText? madeText = some madeEntry ∧
      madeEntry.returnType = .ofName r.returnType ∧ madeEntry.schema.types = [] ∧
      madeEntry.anonymousTypes.find? (·.name.key == r.returnType.key) = some filmEntry ∧
      ¬ ResultIs r filmEntry ∧
      (r.graph.resolve r.returnType).map (·.kind.attributes.length) = .ok 0 := by
  have hresolves := madeEntry.resolve_returnType
  refine ⟨CodeRequest.load_eq_ok.2 ⟨_, ofText?_madeText, by decide, rfl⟩, ofText?_madeText, rfl, rfl,
    by rfl, fun h => ?_, ?_⟩
  · have hsame : madeEntry.resultEntry.toType = filmEntry.toType :=
      Except.ok.inj (hresolves.symm.trans h.resolves)
    have hlength := congrArg (·.kind.attributes.length) hsame
    exact absurd hlength (by decide)
  · exact congrArg (Except.map (·.kind.attributes.length)) hresolves

end SchemaSnippets.Snippet

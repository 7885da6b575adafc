import Mathlib.Data.List.Induction
import SchemaSnippets.Proofs.Json.Documents
import SchemaSnippets.Proofs.Schema.Normal
import SchemaSnippets.Request.Load

/-!
# The types that a document gives

A document gives types in its catalog, as what the query returns, as types made for the query, and inside
all of these as types of elements. The last are put on a stack and looked at when all others are.

* `CodeRequest.load_eq_ok` : what a document has to say to be loaded;
* `RequestEntry.Gives e t` : the document of `e` gives the type `t`, at any depth;
* `Drains stack order` : the types of `order` are taken from the end of `stack`, the type of the elements
  of each being put there in its place; `drains_iff` : there is one such order;
* `mem_definitions` : the definitions of a request are the types given;
* `load_keeps_types` : none of them is lost, the first one of each name counts, and all other types of the
  graph are built in.
-/

namespace SchemaSnippets.Request
open Json Schema

/-! ## Loading -/

/-- The entry that a JSON text describes. -/
def RequestEntry.ofText? (src : String) : Option RequestEntry :=
  (Document.ofText? src).bind (RequestEntry.read? Document.maxDepth)

theorem CodeRequest.load_eq_ok {src : String} {r : CodeRequest} :
    CodeRequest.load src = .ok r ↔
      ∃ e, RequestEntry.ofText? src = some e ∧ Text.trim e.query ≠ "" ∧ r = .ofEntry e := by
  unfold CodeRequest.load RequestEntry.ofText?
  generalize (Document.ofText? src).bind (RequestEntry.read? Document.maxDepth) = entry
  cases entry with
  | none => simp only [reduceCtorEq, false_and, exists_false]
  | some e =>
      simp only [Option.some.injEq, exists_eq_left', ne_eq]
      by_cases hquery : Text.trim e.query = ""
      · simp only [hquery, if_true, reduceCtorEq, not_true_eq_false, false_and]
      · simp only [hquery, if_false, Except.ok.injEq, not_false_eq_true, true_and, eq_comm]

/-! ## Types inside types -/

namespace TypeEntry

theorem inner_eq (t : TypeEntry) :
    t.inner = t.collectionType.toList.flatMap fun c => c :: c.inner := by
  rw [inner]
  split
  · rename_i c hc
    simp [hc]
  · rename_i hnone
    simp [hnone]

/-- Types are taken from the end of a stack. In the place of each comes the type of its elements. -/
inductive Drains : List TypeEntry → List TypeEntry → Prop where
  | done : Drains [] []
  | take {stack order : List TypeEntry} {t : TypeEntry}
      (rest : Drains (stack ++ t.collectionType.toList) order) : Drains (stack ++ [t]) (t :: order)

/-- A type on top of a stack is taken first, then all that is inside it. -/
theorem Drains.push {stack order : List TypeEntry} (h : Drains stack order) (t : TypeEntry) :
    Drains (stack ++ [t]) (t :: t.inner ++ order) := by
  induction t using TypeEntry.inner.induct with
  | case1 t c hc ih =>
      rw [inner_eq, hc, Option.toList_some, List.flatMap_singleton]
      refine .take ?_
      rw [hc]
      exact ih
  | case2 t hnone =>
      rw [inner_eq, hnone]
      refine .take ?_
      rw [hnone, Option.toList_none, List.append_nil]
      exact h

/-- Each stack is emptied in one order. -/
theorem drains_iff {stack order : List TypeEntry} :
    Drains stack order ↔ order = stack.reverse.flatMap fun t => t :: t.inner := by
  constructor
  · intro h
    induction h with
    | done => rfl
    | @take stack order t _ ih =>
        have hinner : t.collectionType.toList.reverse.flatMap (fun c => c :: c.inner) = t.inner := by
          rw [inner_eq]
          cases t.collectionType <;> rfl
        rw [List.reverse_append, List.flatMap_append, hinner] at ih
        simp [ih]
  · rintro rfl
    induction stack using List.reverseRecOn with
    | nil => exact .done
    | append_singleton stack t ih =>
        simpa using ih.push t

end TypeEntry

/-! ## Types of a request -/

namespace RequestEntry
variable {e : RequestEntry} {order : List TypeEntry} {t : TypeEntry}

/-- The document gives a type: directly, or as the type of the elements of a type that it gives. -/
inductive Gives (e : RequestEntry) : TypeEntry → Prop where
  | catalog {t : TypeEntry} (h : t ∈ e.schema.types) : Gives e t
  | result : Gives e e.returnType
  | anonymous {t : TypeEntry} (h : t ∈ e.anonymousTypes) : Gives e t
  | element {t c : TypeEntry} (h : Gives e t) (hc : t.collectionType = some c) : Gives e c

/-- What is on the stack when all types that are given directly have been looked at. -/
def pending (e : RequestEntry) : List TypeEntry :=
  (e.schema.types ++ [e.returnType] ++ e.anonymousTypes).filterMap (·.collectionType)

theorem drains_pending_iff :
    TypeEntry.Drains e.pending order ↔ order = e.outerTypes.reverse.flatMap (·.inner) := by
  have hinner : ∀ ts : List TypeEntry,
      (ts.filterMap (·.collectionType)).reverse.flatMap (fun t => t :: t.inner) =
        ts.reverse.flatMap (·.inner) := by
    intro ts
    rw [← List.filterMap_reverse, List.filterMap_eq_flatMap_toList, List.flatMap_assoc]
    exact congrArg (List.flatMap · _) (funext fun t => t.inner_eq.symm)
  rw [TypeEntry.drains_iff, pending, hinner]
  rfl

theorem allTypes_eq (h : TypeEntry.Drains e.pending order) :
    e.allTypes = e.schema.types ++ [e.returnType] ++ e.anonymousTypes ++ order := by
  rw [drains_pending_iff.1 h]
  rfl

theorem gives_of_mem_inner {c : TypeEntry} (ht : e.Gives t) (hc : c ∈ t.inner) : e.Gives c := by
  induction t using TypeEntry.inner.induct with
  | case1 t d hd ih =>
      rw [TypeEntry.inner_eq, hd, Option.toList_some, List.flatMap_singleton] at hc
      rcases List.mem_cons.1 hc with rfl | hc
      · exact .element ht hd
      · exact ih (.element ht hd) hc
  | case2 t hnone =>
      rw [TypeEntry.inner_eq, hnone] at hc
      cases hc

theorem mem_inner_of_mem_inner {s c : TypeEntry} (ht : t = s ∨ t ∈ s.inner)
    (hc : t.collectionType = some c) : c ∈ s.inner := by
  induction s using TypeEntry.inner.induct with
  | case1 s d hd ih =>
      rw [TypeEntry.inner_eq, hd, Option.toList_some, List.flatMap_singleton] at ht ⊢
      rcases ht with rfl | ht
      · rw [hc] at hd
        exact Option.some.inj hd ▸ List.mem_cons_self ..
      · exact List.mem_cons_of_mem _ (ih (List.mem_cons.1 ht))
  | case2 s hnone =>
      rw [TypeEntry.inner_eq, hnone] at ht
      rcases ht with rfl | ht
      · rw [hc] at hnone
        cases hnone
      · cases ht

/-- The types of a request are those that its document gives. -/
theorem mem_allTypes_iff : t ∈ e.allTypes ↔ e.Gives t := by
  have houter : ∀ s, s ∈ e.outerTypes → e.Gives s := by
    intro s hs
    simp only [outerTypes, List.mem_append, List.mem_singleton] at hs
    rcases hs with (hs | rfl) | hs
    · exact .catalog hs
    · exact .result
    · exact .anonymous hs
  have hall : ∀ s, s ∈ e.allTypes ↔ ∃ o ∈ e.outerTypes, s = o ∨ s ∈ o.inner := by
    intro s
    simp only [allTypes, List.mem_append, List.mem_flatMap, List.mem_reverse]
    grind
  constructor
  · intro h
    obtain ⟨o, ho, rfl | ht⟩ := (hall t).1 h
    · exact houter t ho
    · exact gives_of_mem_inner (houter o ho) ht
  · intro h
    induction h with
    | catalog h => exact (hall _).2 ⟨_, by simp [outerTypes, h], Or.inl rfl⟩
    | result => exact (hall _).2 ⟨_, by simp [outerTypes], Or.inl rfl⟩
    | anonymous h => exact (hall _).2 ⟨_, by simp [outerTypes, h], Or.inl rfl⟩
    | element _ hc ih =>
        obtain ⟨o, ho, ht⟩ := (hall _).1 ih
        exact (hall _).2 ⟨o, ho, Or.inr (mem_inner_of_mem_inner ht hc)⟩

/-- What a name is mentioned by before built-in types are added is a type that the document gives. -/
theorem gives_of_mem_definitions {u : SchemaType}
    (h : u ∈ ((e.allTypes.map (·.toType)).foldl TypeGraph.insert
      ⟨[], e.schema.services.map (·.toService), List.nodup_nil⟩).types) :
    ∃ t, e.Gives t ∧ t.toType = u := by
  rcases TypeGraph.mem_types_foldl_insert h with h | h
  · cases h
  · obtain ⟨t, ht, rfl⟩ := List.mem_map.1 h
    exact ⟨t, mem_allTypes_iff.1 ht, rfl⟩

/-- The first type with a name is what the graph has under its key. -/
theorem find?_graph {k : String} (h : e.allTypes.find? (·.name.key == k) = some t) :
    e.graph.find? k = some t.toType := by
  refine TypeGraph.find?_foldl_addBuiltin_of_eq_some ?_
  rw [TypeGraph.find?_definitions, List.find?_map]
  exact congrArg (Option.map (·.toType)) h

/-- A type of the graph is given or made for a built-in name that a given type mentions. -/
theorem gives_or_standsFor {u : SchemaType} (h : u ∈ e.graph.types) :
    (∃ t, e.Gives t ∧ t.toType = u) ∨
      ∃ t n, e.Gives t ∧ n ∈ t.toType.mentioned ∧ u.StandsFor n := by
  rcases TypeGraph.mem_types_foldl_addBuiltin h with h | ⟨n, hn, hu⟩
  · exact Or.inl (gives_of_mem_definitions h)
  · obtain ⟨v, hv, hnv⟩ := List.mem_flatMap.1 hn
    obtain ⟨t, ht, rfl⟩ := gives_of_mem_definitions hv
    exact Or.inr ⟨t, n, ht, hnv, hu⟩

end RequestEntry

/-- No type that a document gives is lost. Of several types with one name the first one counts, the
types inside others being the last, and all other types of the graph are built in. -/
theorem load_keeps_types {src : String} {r : CodeRequest} (h : CodeRequest.load src = .ok r) :
    ∃ e order, RequestEntry.ofText? src = some e ∧ TypeEntry.Drains e.pending order ∧
      (∀ t, e.Gives t → t.name.key ∈ r.graph.types.map (·.key)) ∧
      (∀ k t, (e.schema.types ++ [e.returnType] ++ e.anonymousTypes ++ order).find?
        (·.name.key == k) = some t → r.graph.find? k = some t.toType) ∧
      (∀ u ∈ r.graph.types, (∃ t, e.Gives t ∧ t.toType = u) ∨
        ∃ t n, e.Gives t ∧ n ∈ t.toType.mentioned ∧ u.StandsFor n) := by
  obtain ⟨e, he, -, rfl⟩ := CodeRequest.load_eq_ok.1 h
  obtain ⟨order, hdrains⟩ : ∃ order, TypeEntry.Drains e.pending order :=
    ⟨_, RequestEntry.drains_pending_iff.2 rfl⟩
  refine ⟨e, order, he, hdrains, fun t ht => ?_, fun k t hfirst => ?_, fun u hu => ?_⟩
  · -- the first type with the name of `t` is in the graph, and has its key
    obtain ⟨u, hu⟩ : ∃ u, e.allTypes.find? (·.name.key == t.name.key) = some u := by
      rw [← Option.isSome_iff_exists, List.find?_isSome]
      exact ⟨t, RequestEntry.mem_allTypes_iff.2 ht, BEq.rfl⟩
    have hfound := RequestEntry.find?_graph hu
    have hkey : u.toType.key = t.name.key := by simpa using List.find?_some hfound
    exact hkey ▸ List.mem_map_of_mem (List.mem_of_find?_eq_some hfound)
  · rw [← RequestEntry.allTypes_eq hdrains] at hfirst
    exact RequestEntry.find?_graph hfirst
  · exact RequestEntry.gives_or_standsFor hu

/-! ### Films with a type of their own and films of the catalog -/

/-- A type of which only the name is given. -/
def TypeEntry.ofName (n : QualifiedName) : TypeEntry :=
  ⟨n, [], [], none, none, false, false, false, false, none, [], [], [], none, none, [], [], none⟩

/-- A query of films, written inside their array as well as in the catalog. -/
def filmsText : String :=
  "\x7b\"query\": \"find\", \"returnType\": \x7b\"name\": \"Array<Film>\", " ++
    "\"collectionType\": \x7b\"name\": \"Film\"\x7d\x7d, " ++
    "\"schema\": \x7b\"types\": [\x7b\"name\": \"Film\", \"typeDoc\": \"kept\"\x7d]\x7d\x7d"

def filmsEntry : RequestEntry :=
  let film := TypeEntry.ofName (.ofFull "Film")
  let films := (QualifiedName.ofFull "Array").withParameters [.ofFull "Film"]
  ⟨"find", { TypeEntry.ofName films with collectionType := some film },
    ⟨[{ film with typeDoc := some "kept" }], []⟩, []⟩

theorem ofText?_filmsText : RequestEntry.ofText? filmsText = some filmsEntry := by
  have hdocument : Document.ofText? filmsText = some (.object [
      (some "query", .string (some "find")),
      (some "returnType", .object [(some "name", .string (some "Array<Film>")),
        (some "collectionType", .object [(some "name", .string (some "Film"))])]),
      (some "schema", .object [(some "types", .array [
        .object [(some "name", .string (some "Film")), (some "typeDoc", .string (some "kept"))]])])]) :=
    Document.ofText?_of_tokens (by decide +kernel)
  rw [RequestEntry.ofText?, hdocument]
  rfl

theorem films_kept :
    let r := CodeRequest.ofEntry filmsEntry
    CodeRequest.load filmsText = .ok r ∧
      ∃ e order, RequestEntry.ofText? filmsText = some e ∧ TypeEntry.Drains e.pending order ∧
        (∀ t, e.Gives t → t.name.key ∈ r.graph.types.map (·.key)) ∧
        (∀ k t, (e.schema.types ++ [e.returnType] ++ e.anonymousTypes ++ order).find?
          (·.name.key == k) = some t → r.graph.find? k = some t.toType) ∧
        (∀ u ∈ r.graph.types, (∃ t, e.Gives t ∧ t.toType = u) ∨
          ∃ t n, e.Gives t ∧ n ∈ t.toType.mentioned ∧ u.StandsFor n) := by
  have hload : CodeRequest.load filmsText = .ok (.ofEntry filmsEntry) :=
    CodeRequest.load_eq_ok.2 ⟨_, ofText?_filmsText, by decide, rfl⟩
  exact ⟨hload, load_keeps_types hload⟩

end SchemaSnippets.Request

import SchemaSnippets.Proofs.Schema.Construction
import SchemaSnippets.Proofs.Snippet.Findings

/-!
# Untyped members

What stands in a model for types that could not be found out, and which of it is reported.

* `Output.Reports` : a message is that of an error or a warning; `reports_of_fails` : what is wrong with
  the name of a member, or of the result, is reported;
* `elementary` : a loaded request has no collection or stream without an element;
* `Accounted` : the notes of a type say what is wrong with its name, or why the name has no type
  although nothing is wrong with it, and what is wrong is reported;
* `untyped_accounted` : so it is for all members of a model and for its result.
-/

namespace SchemaSnippets.Snippet
open Model Request Schema Target

/-! ## Notes -/

/-- What is noted of members of the name: what is wrong with it, or why it has no type although nothing
is. -/
def Noted (g : TypeGraph) (n : QualifiedName) (note : Option String) : Prop :=
  ∃ text, note = some text ∧ ((∃ err, g.Fails n err ∧ err.message = text) ∨ g.Untypable n text)

namespace Context
variable {c : Context} {n : QualifiedName} {t : SchemaType} {location note : Option String}
  {fs : Findings}

theorem noted_of_missing (h : c.graph.resolve? n = none) :
    note ∈ (MemberType.untyped (some (SchemaError.unknownType n.key).message)).notes ↔
      Noted c.graph n note := by
  simp [MemberType.notes, Noted, TypeGraph.fails_iff_of_missing h, TypeGraph.not_untypable h]

theorem mem_notes_typeOf (hg : c.graph.Elementary) (ht : c.graph.resolve? n = some t) :
    note ∈ (c.typeOf location t fs).1.notes ↔ Noted c.graph n note := by
  have htg := TypeGraph.mem_types_of_resolve? ht
  obtain ⟨passed, e, hway⟩ := TypeGraph.exists_elementWay htg
  have hends : c.graph.EndsAt n e := ⟨t, passed, ht, hway⟩
  rw [typeOf_eq htg hway, notes_foldr_wrapIn]
  cases e with
  | last u =>
      refine (mem_notes_memberType_one hway.next_last (hg u hends.mem_types)).trans ?_
      simp only [Noted, TypeGraph.fails_iff hends, TypeGraph.untypable_iff_of_last hends, WayEnd.type]
      grind
  | again u =>
      have hnone : c.graph.typeError? u = none := TypeGraph.typeError?_of_way hway
      simp [endType, MemberType.notes, Noted, TypeGraph.fails_iff hends,
        TypeGraph.untypable_iff_of_again hends, WayEnd.type, hnone]

theorem notes_nullable (nullable : Bool) (t : MemberType) :
    (if nullable then MemberType.optional t else t).notes = t.notes := by
  split <;> rfl

theorem mem_notes_attributeType (hg : c.graph.Elementary) {source place : String} {a : Attribute} :
    note ∈ (c.attributeType source place a fs).1.notes ↔ Noted c.graph a.type note := by
  unfold attributeType
  cases ht : c.graph.resolve? a.type with
  | none =>
      rw [TypeGraph.resolve?_eq_none.1 ht]
      exact noted_of_missing ht
  | some t =>
      rw [TypeGraph.resolve?_eq_some.1 ht, ← mem_notes_typeOf hg ht]
      dsimp only
      split <;> rfl

theorem mem_notes_resultTypeOf (hg : c.graph.Elementary) :
    note ∈ (SnippetModel.resultTypeOf c n fs).1.notes ↔ Noted c.graph n note := by
  unfold SnippetModel.resultTypeOf
  cases ht : c.graph.resolve? n with
  | none =>
      rw [TypeGraph.resolve?_eq_none.1 ht]
      exact noted_of_missing ht
  | some t =>
      rw [TypeGraph.resolve?_eq_some.1 ht]
      exact mem_notes_typeOf hg ht

end Context

/-! ## Reports -/

/-- The message is that of an error or of a warning. -/
def Output.Reports (out : Output) (message : String) : Prop :=
  ∃ d ∈ out.findings.diagnostics, d.message = message ∧ (d.severity = .error ∨ d.severity = .warning)

section Reports
variable {p : Profile} {r : CodeRequest} {o : Options} {n : QualifiedName} {err : SchemaError}

/-- No failure is a mere remark. -/
theorem Failure.severity_eq (f : Failure) : f.severity = .error ∨ f.severity = .warning := by
  unfold severity
  split <;> simp

theorem reports_of_mem_failures {f : Failure} (h : f ∈ (withModel p r o).findings.failures) :
    (withModel p r o).Reports f.message := by
  obtain ⟨q, hq, rfl⟩ := mem_failures_iff.1 h
  exact ⟨_, mem_diagnostics_iff.2 (Or.inl ⟨q, hq, rfl⟩), rfl, q.1.severity_eq⟩

theorem reachable_of_mem_writtenNames (h : n ∈ writtenNames r) :
    r.graph.Reachable r.returnType n := by
  rcases List.mem_append.1 h with h | h
  · obtain ⟨t, ht, hn⟩ := List.mem_flatMap.1 h
    obtain ⟨a, ha, rfl⟩ := List.mem_map.1 hn
    exact reachable_of_mem_declarations ht a ha
  · exact List.mem_singleton.1 h ▸ .root

/-- What is wrong with a written name is a failure of the snippets: a missing name has a place in the
plan, be it that of an element or not, and the error of a scalar is reported where it is written. -/
theorem mem_failures_of_fails (hn : n ∈ writtenNames r) (h : r.graph.Fails n err) :
    .schema err ∈ (withModel p r o).findings.failures := by
  have hreach := reachable_of_mem_writtenNames hn
  have hmissing : ∀ m, r.graph.Reachable r.returnType m → r.graph.resolve? m = none →
      .unknownType m.key ∈ (planOf r).errors := fun m hm hnone =>
    mem_planErrors.2 ⟨_, mem_missingNames_build.2 ⟨m, hm, hnone, rfl⟩, rfl⟩
  refine mem_failures_withModel.2 ?_
  cases h with
  | missing hnone => exact Or.inl (hmissing n hreach hnone)
  | @type e err hends herr =>
      by_cases hs : e.type.kind.isScalar
      · refine Or.inr ⟨n, hn, ?_⟩
        rw [TypeGraph.scalarErrorOf?_of_endsAt hends, if_pos hs, herr]
      · obtain ⟨m, hm, hu⟩ := hends.exists_reachable hreach
        obtain ⟨m', hm', hnone, rfl⟩ := TypeGraph.exists_element_of_typeError? herr hs
        exact Or.inl (hmissing m' (hm.element hu hm') hnone)

theorem reports_of_fails (hn : n ∈ writtenNames r) (h : r.graph.Fails n err) :
    (withModel p r o).Reports err.message :=
  reports_of_mem_failures (mem_failures_of_fails hn h)

end Reports

/-! ## Loaded requests -/

theorem isStructural_of_builtinKind? {n : QualifiedName} {k : Primitive}
    (h : n.builtinKind? = some (.primitive k)) : k.isStructural = false := by
  unfold QualifiedName.builtinKind? at h
  split at h
  · simp at h
  · simp at h
  · rename_i k' _ _
    cases hk : k'.isStructural with
    | true => simp [hk] at h
    | false =>
        simp only [hk, Bool.false_eq_true, if_false, Option.some.injEq, TypeKind.primitive.injEq] at h
        exact h ▸ hk
  · simp at h

/-- A type with the name of a collection or stream has an element. -/
theorem isStructural_of_kind {e : TypeEntry} {k : Primitive} (h : e.kind = .primitive k) :
    k.isStructural = false := by
  unfold TypeEntry.kind at h
  split at h
  · cases h
  split at h
  · cases h
  rename_i hstream
  split at h
  · cases h
  rename_i harray
  split at h
  · rename_i k' hk'
    obtain rfl := TypeKind.primitive.inj h
    cases k' <;> simp_all [Primitive.isStructural]
  · split at h
    · cases h
    · split at h <;> cases h

theorem elementary (e : RequestEntry) : e.graph.Elementary := by
  intro t ht k hk
  rcases TypeGraph.mem_types_ofTypes ht with h | ⟨n, k', hn, rfl⟩
  · obtain ⟨e', -, rfl⟩ := List.mem_map.1 h
    exact isStructural_of_kind hk
  · obtain rfl : k' = .primitive k := hk
    exact isStructural_of_builtinKind? hn

/-- Without types inside others the outer types are all that there is. -/
theorem graph_of_no_inner {e : RequestEntry} (h : ∀ t ∈ e.outerTypes, t.collectionType.isNone) :
    e.graph = .ofTypes (e.outerTypes.map (·.toType)) (e.schema.services.map (·.toService)) := by
  have hinner : e.outerTypes.reverse.flatMap (·.inner) = [] := by
    refine List.flatMap_eq_nil_iff.2 fun t ht => ?_
    have hnone := Option.isNone_iff_eq_none.1 (h t (List.mem_reverse.1 ht))
    rw [TypeEntry.inner]
    split
    · rename_i c hc
      rw [hnone] at hc
      cases hc
    · rfl
  rw [RequestEntry.graph, RequestEntry.allTypes, hinner, List.append_nil]

/-! ## Models -/

/-- The notes of a type say what is wrong with its name, or why the name has no type although nothing
is wrong. What is wrong is reported. -/
structure Accounted (out : Output) (g : TypeGraph) (n : QualifiedName) (type : MemberType) :
    Prop where
  noted : ∀ note, note ∈ type.notes ↔ Noted g n note
  reported : ∀ err, g.Fails n err → out.Reports err.message

/-- Nothing is replaced in silence in a model but collections that hold themselves and scalars that
inherit from a collection or stream. -/
theorem untyped_accounted {t : Target} (ht : t.profile.declaresModel) (e : RequestEntry)
    (o : Options) :
    let r := CodeRequest.ofEntry e
    let m := SnippetModel.build t.profile r o.docs
    (∀ s, .record s ∈ m.entries → ∃ d ∈ (planOf r).declarations,
      (namesOf t.profile r).get? d.key = some s.name ∧
      List.Forall₂ (fun a f => f.name = a.name ∧ Accounted (generate t r o) r.graph a.type f.type)
        d.kind.attributes s.fields) ∧
    Accounted (generate t r o) r.graph r.returnType m.resultType := by
  intro r m
  have hg : r.graph.Elementary := elementary e
  rw [generate_of_declaresModel ht]
  refine ⟨fun s hs => ?_, fun note => Context.mem_notes_resultTypeOf hg, fun err herr => ?_⟩
  · obtain ⟨d, hd, -, hname, fs, rfl⟩ := exists_declaration_of_record hs
    refine ⟨d, hd, hname ▸ get?_namesOf hd, ?_⟩
    have hfields := (contextOf t.profile r o.docs).forall₂_membersOf d.key
      (nameIn t.profile r o.docs d) d.kind.attributes fs
    have hboth := (List.forall₂_and_left _ _).2 ⟨fun a ha => ha, hfields⟩
    refine hboth.imp fun a f ⟨ha, hfield, fs', place, htype⟩ => ⟨hfield, fun note => ?_, fun err => ?_⟩
    · rw [htype, Context.notes_nullable]
      exact Context.mem_notes_attributeType hg
    · have hwritten : a.type ∈ writtenNames r := List.mem_append_left _
        (List.mem_flatMap.2 ⟨d, hd, List.mem_map_of_mem ha⟩)
      exact reports_of_fails hwritten
  · exact reports_of_fails (List.mem_append_right _ (List.mem_singleton_self _)) herr

/-! ### A list of films by another name -/

/-- A type of which only the name is written. -/
def nameEntry (full : String) : TypeEntry :=
  ⟨.ofFull full, [], [], none, none, false, false, false, false, none, [], [], [], none, none, [], [],
    none⟩

/-- A film has sequels, and a list of films is an array of films by another name. -/
def sequelsEntry : RequestEntry :=
  let film := { nameEntry "films.Film" with
    attributes := [("sequels", ⟨.ofFull "films.FilmList", false, [], none, none, none⟩)] }
  let list := { nameEntry "films.FilmList" with
    aliasForType := some ((QualifiedName.ofFull "lang.taxi.Array").withParameters
      [.ofFull "films.Film"]) }
  ⟨"find { Film }", film, ⟨[list], []⟩, []⟩

theorem sequels_accounted :
    let r := CodeRequest.ofEntry sequelsEntry
    let m := SnippetModel.build Target.rust.profile r true
    let out := generate .rust r ⟨"client", true⟩
    Target.rust.profile.declaresModel ∧
      (∀ s, .record s ∈ m.entries → ∃ d ∈ (planOf r).declarations,
        (namesOf Target.rust.profile r).get? d.key = some s.name ∧
        List.Forall₂ (fun a f => f.name = a.name ∧ Accounted out r.graph a.type f.type)
          d.kind.attributes s.fields) ∧
      Accounted out r.graph r.returnType m.resultType := by
  have ht : Target.rust.profile.declaresModel := rfl
  exact ⟨ht, untyped_accounted ht sequelsEntry ⟨"client", true⟩⟩

theorem sequels_unreported :
    some "films.FilmList inherits from Array" ∈
      (SnippetModel.build Target.rust.profile (.ofEntry sequelsEntry) true).memberTypes.flatMap
        (·.notes) ∧
    ¬ (generate .rust (.ofEntry sequelsEntry) ⟨"client", true⟩).Reports
      "films.FilmList inherits from Array" := by
  rw [CodeRequest.ofEntry, graph_of_no_inner (by decide)]
  unfold Output.Reports
  decide

end SchemaSnippets.Snippet

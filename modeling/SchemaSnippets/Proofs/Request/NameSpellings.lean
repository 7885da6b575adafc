import SchemaSnippets.Proofs.Json.Nesting
import SchemaSnippets.Proofs.Request.Structures
import SchemaSnippets.Proofs.Schema.NameGrammar

/-!
# Spellings of names

A name is written as a text with its parameters in brackets, or as an object that gives the parameters in
one of three places. All of these are read as the same name, also where the parameters themselves are
written in different ways.

* `QualifiedName.IsBuilt n` : a name that is built from plain full names; `IsBuilt.parse?_key` : its key
  spells it;
* `NameEntry.Agrees e n` : what is written says nothing else than the name; `Agrees.name?_eq` : then it is
  read as this name;
* `Spells d n` : the document is one of the ways to write the name, at each depth one of its own;
* `name?_of_spells` : it is read as the name if the reader goes as deep as the document, and else refused.
-/

namespace SchemaSnippets.Schema.QualifiedName
open Unicode

/-! ## Names that are built -/

/-- A name that is built from plain full names: without parameters, or with parameters that are built so. -/
inductive IsBuilt : QualifiedName → Prop where
  | plain {full : String} (h : IsBase full.toList) : IsBuilt (ofFull full)
  | applied {n : QualifiedName} {ps : List QualifiedName} (hn : IsBuilt n)
      (hps : ∀ p ∈ ps, IsBuilt p) : IsBuilt (n.withParameters ps)

variable {n : QualifiedName}

/-- A text without white space and delimiters is a base. -/
theorem isBase_of_all {cs : List Char} (hne : cs ≠ [])
    (h : cs.all fun c => !isWhitespace c && c != '<' && c != '>' && c != ',') : IsBase cs := by
  have hplain : ∀ c ∈ cs, ¬ isWhitespace c ∧ c ≠ '<' ∧ c ≠ '>' ∧ c ≠ ',' := by
    simpa [and_assoc] using h
  refine ⟨⟨hne, fun c hc => ?_, fun c hc => ?_⟩, fun c hc => (hplain c hc).2⟩
  · exact (hplain c (List.mem_of_mem_head? hc)).1
  · exact (hplain c (List.mem_of_mem_getLast? hc)).1

theorem withParameters_self (n : QualifiedName) : n.withParameters n.parameters = n := by
  cases n
  rfl

theorem parameters_ofFull (full : String) : (ofFull full).parameters = [] := by
  unfold ofFull
  split <;> rfl

/-- A name is told by its full name and its parameters. -/
theorem IsBuilt.eq_withParameters (h : IsBuilt n) :
    IsBase n.full.toList ∧ n = (ofFull n.full).withParameters n.parameters := by
  induction h with
  | @plain full h =>
      rw [full_ofFull]
      exact ⟨h, (withParameters_self _).symm⟩
  | @applied n ps _ _ ih _ =>
      have hn : n.withParameters ps = ((ofFull n.full).withParameters n.parameters).withParameters ps :=
        congrArg (withParameters · ps) ih.2
      exact ⟨ih.1, hn⟩

theorem IsBuilt.of_mem (h : IsBuilt n) : ∀ p ∈ n.parameters, IsBuilt p := by
  cases h with
  | @plain full h =>
      rw [parameters_ofFull]
      exact List.forall_mem_nil _
  | applied _ hps => exact hps

theorem key_of_parameters (h : n.parameters = []) : n.key = n.full := by
  obtain ⟨full, scope, short, ps⟩ := n
  obtain rfl : ps = [] := h
  rfl

theorem open_mem_key (h : IsBuilt n) (hps : n.parameters ≠ []) : '<' ∈ n.key.toList := by
  rw [h.eq_withParameters.2, toList_key_withParameters _ hps]
  simp

theorem denotes_bare {full : String} (h : IsBase full.toList) : Denotes full.toList (ofFull full) := by
  have hbare := Denotes.bare h (.refl _)
  rwa [String.ofList_toList] at hbare

theorem denotes_applied {full : String} {ps : List QualifiedName} (h : IsBase full.toList)
    (hps : ∀ p ∈ ps, Denotes p.key.toList p) :
    Denotes ((ofFull full).withParameters ps).key.toList ((ofFull full).withParameters ps) := by
  by_cases hne : ps = []
  · subst hne
    rw [← parameters_ofFull full, withParameters_self, key_ofFull]
    exact denotes_bare h
  · have happlied := Denotes.applied h (isApplied_key hne) (List.forall_mem_map.2 hps)
    rwa [String.ofList_toList, map_snd_spelled] at happlied

/-- The key of a name that is built is a text of the grammar. -/
theorem IsBuilt.denotes_key (h : IsBuilt n) : Denotes n.key.toList n := by
  induction h with
  | @plain full h =>
      rw [key_ofFull]
      exact denotes_bare h
  | @applied n ps hn hps _ ih =>
      obtain ⟨hbase, heq⟩ := (IsBuilt.applied hn hps).eq_withParameters
      rw [heq]
      exact denotes_applied hbase ih

theorem IsBuilt.parse?_key (h : IsBuilt n) : parse? n.key = some n := by
  rw [parse?, parse_eq_ok_iff.2 (.inl h.denotes_key)]

theorem IsBuilt.parse?_full (h : IsBuilt n) : parse? n.full = some (QualifiedName.ofFull n.full) := by
  rw [parse?, parse_eq_ok_iff.2 (.inl (denotes_bare h.eq_withParameters.1))]

/-- Parts that say what the name says already change nothing. -/
theorem withParts_own {scope short : Option String} (hscope : ∀ s ∈ scope, s = n.scope)
    (hshort : ∀ s ∈ short, s = n.short) : n.withParts scope short = n := by
  have hscope' : scope.getD n.scope = n.scope := by
    cases scope with
    | none => rfl
    | some s => exact hscope s rfl
  have hshort' : (short.filter (· != "")).getD n.short = n.short := by
    cases hfilter : short.filter (· != "") with
    | none => rfl
    | some s => exact hshort s (Option.filter_eq_some_iff.1 hfilter).1
  rw [withParts, hscope', hshort']
  exact withParameters_self n

end SchemaSnippets.Schema.QualifiedName

namespace SchemaSnippets.Request
open Json Schema

/-! ## What is written of a name -/

/-- What is written says nothing else than the name, and its parameters are in one of three places. -/
structure NameEntry.Agrees (e : NameEntry) (n : QualifiedName) : Prop where
  full : e.full = n.full ∨ e.full = n.key
  short : ∀ s ∈ e.short, s = n.short
  scope : ∀ s ∈ e.scope, s = n.scope
  parameters : e.parameters = [] ∨ e.parameters = n.parameters
  parameterized : ∀ s ∈ e.parameterized, s = n.key
  complete : e.full = n.key ∨ e.parameters = n.parameters ∨ e.parameterized = some n.key

variable {n : QualifiedName} {e : NameEntry}

namespace NameEntry.Agrees

/-- A name without parameters goes by its full name, and its key is the same. -/
theorem full_of_bare (h : e.Agrees n) (hps : n.parameters = []) : e.full = n.key := by
  rw [QualifiedName.key_of_parameters hps]
  exact h.full.elim id fun hfull => hfull.trans (QualifiedName.key_of_parameters hps)

/-- Where neither `parameters` nor `parameterizedName` has any, the full name is the whole key. -/
theorem full_of_empty (h : e.Agrees n) (hn : n.IsBuilt) (hps : e.parameters = [])
    (hplain : ∀ p ∈ e.parameterized, '<' ∉ p.toList) : e.full = n.key := by
  rcases h.complete with hfull | hparameters | hparameterized
  · exact hfull
  · exact h.full_of_bare (hparameters.symm.trans hps)
  · refine h.full_of_bare (by_contra fun hne => ?_)
    exact hplain n.key hparameterized (QualifiedName.open_mem_key hn hne)

/-- The full name, with the parameters that are written or with its own ones. -/
theorem exists_base (h : e.Agrees n) (hn : n.IsBuilt)
    (hplain : e.parameters = [] → ∀ p ∈ e.parameterized, '<' ∉ p.toList) :
    ∃ base, QualifiedName.parse? e.full = some base ∧
      base.withParameters (if e.parameters.isEmpty then base.parameters else e.parameters) = n := by
  by_cases hps : e.parameters = []
  · refine ⟨n, h.full_of_empty hn hps (hplain hps) ▸ hn.parse?_key, ?_⟩
    rw [hps]
    exact QualifiedName.withParameters_self n
  · have hfilled : ¬ e.parameters.isEmpty := by simpa using hps
    have hparameters := h.parameters.resolve_left hps
    rcases h.full with hfull | hfull
    · refine ⟨QualifiedName.ofFull n.full, hfull ▸ hn.parse?_full, ?_⟩
      rw [if_neg hfilled, hparameters]
      exact hn.eq_withParameters.2.symm
    · refine ⟨n, hfull ▸ hn.parse?_key, ?_⟩
      rw [if_neg hfilled, hparameters]
      exact QualifiedName.withParameters_self n

theorem name?_eq (h : e.Agrees n) (hn : n.IsBuilt) : e.name? = some n := by
  unfold NameEntry.name?
  split
  · rename_i p _ hp
    obtain rfl := h.parameterized p (Option.filter_eq_some_iff.1 hp).1
    exact hn.parse?_key
  · rename_i hnot
    obtain ⟨base, hparse, heq⟩ := h.exists_base hn fun hps p hp hopen =>
      hnot p hps (Option.filter_eq_some_iff.2 ⟨hp, List.contains_iff_mem.2 hopen⟩)
    rw [hparse]
    show some ((base.withParameters _).withParts e.scope e.short) = _
    rw [heq, QualifiedName.withParts_own h.scope h.short]

end NameEntry.Agrees

/-! ## Ways to write a name -/

def fullMember (full : String) : Option String × Document :=
  (some "fullyQualifiedName", .string (some full))

def parametersMember (ds : List Document) : Option String × Document :=
  (some "parameters", .array ds)

def parameterizedMember (n : QualifiedName) : Option String × Document :=
  (some "parameterizedName", .string (some n.key))

/-- What a member can say of a name, where documents stand for its parameters. The full name may be the
whole key. -/
def tellable (n : QualifiedName) (ds : List Document) : List (Option String × Document) :=
  [fullMember n.full, fullMember n.key, (some "name", .string (some n.short)),
    (some "namespace", .string (some n.scope)), parametersMember ds, parameterizedMember n]

/-- The members of an object that is the name, where documents stand for its parameters. The members may
have any order, and those that are not needed may be left out. -/
structure Structured (n : QualifiedName) (ds : List Document) (members : List (Option String × Document)) :
    Prop where
  nodup : (members.map (·.1)).Nodup
  told : ∀ m ∈ members, m ∈ tellable n ds
  complete : fullMember n.key ∈ members ∨
    fullMember n.full ∈ members ∧ (parametersMember ds ∈ members ∨ parameterizedMember n ∈ members)

/-- The document is the name: its key, or an object that may have parameters in any of these ways. -/
inductive Spells : Document → QualifiedName → Prop where
  | text (n : QualifiedName) : Spells (.string (some n.key)) n
  | object {n : QualifiedName} {ps : List (Document × QualifiedName)}
      {members : List (Option String × Document)} (hps : ∀ p ∈ ps, Spells p.1 p.2)
      (hparameters : ps.map (·.2) = n.parameters) (hmembers : Structured n (ps.map (·.1)) members) :
      Spells (.object members) n

variable {ds : List Document} {members : List (Option String × Document)} {d : Document} {depth : Nat}

/-- A key that can only stand for one text is absent, or stands for this text. -/
theorem exists_optional_text (key s : String) (hnodup : (members.map (·.1)).Nodup)
    (honly : ∀ d, (some key, d) ∈ members → d = .string (some s)) :
    ∃ o, Slot.optional Document.text? (Document.lookup key members) = some o ∧ (∀ t ∈ o, t = s) ∧
      ((some key, .string (some s)) ∈ members → o = some s) := by
  cases hlookup : Document.lookup key members with
  | none =>
      refine ⟨none, rfl, fun t ht => (nomatch ht), fun hmem => ?_⟩
      rw [(Document.lookup_eq_some_iff hnodup).2 hmem] at hlookup
      cases hlookup
  | some d =>
      obtain rfl := honly d (Document.mem_of_lookup hlookup)
      exact ⟨some s, rfl, fun t ht => (Option.some.inj ht).symm, fun _ => rfl⟩

namespace Structured

theorem of_mem (h : Structured n ds members) {m : Option String × Document} (hm : m ∈ members) :
    m.1.isSome ∧ (m.2 = .array ds ∨ ∃ s, m.2 = .string (some s)) := by
  have hall : ∀ m ∈ tellable n ds, m.1.isSome ∧ (m.2 = .array ds ∨ ∃ s, m.2 = .string (some s)) := by
    simp [tellable, fullMember, parametersMember, parameterizedMember]
  exact hall m (h.told m hm)

theorem slots?_eq (h : Structured n ds members) :
    (Document.object members).slots? Structure.name.keyNames (depth + 1) =
      some (depth, Structure.name.keyNames.map (Document.lookup · members)) := by
  have hkeys : members.all (·.1.isSome) := List.all_eq_true.2 fun m hm => (h.of_mem hm).1
  have hsingle : Structure.name.keyNames.all (Document.isSingle members) :=
    List.all_eq_true.2 fun key _ => Document.isSingle_of_nodup h.nodup
  rw [Document.slots?, hkeys, hsingle]
  rfl

theorem exists_full (h : Structured n ds members) :
    ∃ full, Slot.required Document.text? (Document.lookup "fullyQualifiedName" members) = some full ∧
      (full = n.full ∨ full = n.key) ∧
      (full = n.key ∨ parametersMember ds ∈ members ∨ parameterizedMember n ∈ members) := by
  rcases h.complete with hmem | ⟨hmem, hparameters⟩
  · rw [(Document.lookup_eq_some_iff h.nodup).2 hmem]
    exact ⟨n.key, rfl, .inr rfl, .inl rfl⟩
  · rw [(Document.lookup_eq_some_iff h.nodup).2 hmem]
    exact ⟨n.full, rfl, .inl rfl, .inr hparameters⟩

theorem exists_parameters (h : Structured n ds members)
    (hds : parametersMember ds ∈ members →
      Document.list? (fun _ => readName? depth) depth (.array ds) = some n.parameters) :
    ∃ ps, Slot.ifPresent [] (Document.list? (fun _ => readName? depth) depth)
        (Document.lookup "parameters" members) = some ps ∧
      (ps = [] ∨ ps = n.parameters) ∧ (parametersMember ds ∈ members → ps = n.parameters) := by
  by_cases hmem : parametersMember ds ∈ members
  · rw [(Document.lookup_eq_some_iff h.nodup).2 hmem]
    exact ⟨n.parameters, hds hmem, .inr rfl, fun _ => rfl⟩
  · have hnone : Document.lookup "parameters" members = none := by
      refine Option.eq_none_iff_forall_ne_some.2 fun d hd => hmem ?_
      have htold := Document.mem_of_lookup hd
      obtain rfl : d = .array ds := by
        simpa [tellable, fullMember, parametersMember, parameterizedMember] using h.told _ htold
      exact htold
    rw [hnone]
    exact ⟨[], rfl, .inl rfl, fun hmem' => absurd hmem' hmem⟩

/-- The slots of an object that is the name, where its parameters are read. -/
theorem exists_agrees (h : Structured n ds members)
    (hds : parametersMember ds ∈ members →
      Document.list? (fun _ => readName? depth) depth (.array ds) = some n.parameters) :
    ∃ e : NameEntry, e.Agrees n ∧ Structure.name.Tells e.tells (depth + 1) (.object members) := by
  obtain ⟨full, hfull, hfullOwn, hcomplete⟩ := h.exists_full
  obtain ⟨short, hshort, hshortOwn, -⟩ :=
    exists_optional_text "name" n.short h.nodup fun d hmem => by
      simpa [tellable, fullMember, parametersMember, parameterizedMember] using h.told _ hmem
  obtain ⟨scope, hscope, hscopeOwn, -⟩ :=
    exists_optional_text "namespace" n.scope h.nodup fun d hmem => by
      simpa [tellable, fullMember, parametersMember, parameterizedMember] using h.told _ hmem
  obtain ⟨ps, hps, hpsOwn, hpsGiven⟩ := h.exists_parameters hds
  obtain ⟨whole, hwhole, hwholeOwn, hwholeGiven⟩ :=
    exists_optional_text "parameterizedName" n.key h.nodup fun d hmem => by
      simpa [tellable, fullMember, parametersMember, parameterizedMember] using h.told _ hmem
  refine ⟨⟨full, short, scope, ps, whole⟩,
    ⟨hfullOwn, hshortOwn, hscopeOwn, hpsOwn, hwholeOwn,
      hcomplete.imp_right (.imp hpsGiven hwholeGiven)⟩,
    depth, _, h.slots?_eq, ?_⟩
  exact .cons hfull (.cons hshort (.cons hscope (.cons hps (.cons hwhole .nil))))

end Structured

/-! ## Reading -/

theorem mapM_eq_some {α β : Type} {f : α → Option β} {ps : List (α × β)}
    (h : ∀ p ∈ ps, f p.1 = some p.2) : (ps.map (·.1)).mapM f = some (ps.map (·.2)) := by
  induction ps with
  | nil => rfl
  | cons p ps ih =>
      obtain ⟨hp, hps⟩ := List.forall_mem_cons.1 h
      rw [List.map_cons, List.mapM_cons, hp, ih hps]
      rfl

/-- Each way to write a name is read as the name. -/
theorem readName?_of_spells (h : Spells d n) (hn : n.IsBuilt) (hdepth : d.nesting ≤ depth) :
    readName? depth d = some n := by
  induction h generalizing depth with
  | text n =>
      rw [readName?]
      exact hn.parse?_key
  | @object n ps members _ hparameters hmembers ih =>
      cases depth with
      | zero => exact absurd hdepth (Nat.not_succ_le_zero _)
      | succ depth =>
          have hinner := Document.nestingOfMembers_le_iff.1 (Nat.le_of_succ_le_succ hdepth)
          have hread : parametersMember (ps.map (·.1)) ∈ members →
              Document.list? (fun _ => readName? depth) depth (.array (ps.map (·.1))) =
                some n.parameters := by
            intro hmem
            have hitems : (Document.array (ps.map (·.1))).nesting ≤ depth := hinner _ hmem
            cases depth with
            | zero => exact absurd hitems (Nat.not_succ_le_zero _)
            | succ depth =>
                have hle := Document.nestingOfItems_le_iff.1 (Nat.le_of_succ_le_succ hitems)
                rw [Document.list?, ← hparameters]
                refine mapM_eq_some fun p hp => ?_
                have hbuilt : p.2.IsBuilt := hn.of_mem _ (hparameters ▸ List.mem_map_of_mem hp)
                -- the parameters are read to the depth of the object, not of the array
                exact ih p hp hbuilt ((hle _ (List.mem_map_of_mem hp)).trans (Nat.le_succ depth))
          obtain ⟨e, hagrees, htells⟩ := hmembers.exists_agrees hread
          have hobject : ∀ s, Document.object members ≠ .string s := by
            rintro s ⟨⟩
          exact (readName?_eq_some hobject).2 ⟨e, hagrees.name?_eq hn, htells⟩

theorem isReadableByNesting_of_spells (h : Spells d n) : d.IsReadableByNesting := by
  induction h with
  | text n => exact Document.isReadableByNesting_text n.key
  | @object n ps members _ _ hmembers ih =>
      refine Document.isReadableByNesting_object fun m hm => ?_
      have hitems : (Document.array (ps.map (·.1))).IsReadableByNesting :=
        Document.isReadableByNesting_array (List.forall_mem_map.2 ih)
      obtain ⟨hkey, hvalue⟩ := hmembers.of_mem hm
      rcases hvalue with hvalue | ⟨s, hvalue⟩
      · exact ⟨hkey, hvalue ▸ hitems⟩
      · exact ⟨hkey, hvalue ▸ Document.isReadableByNesting_text s⟩

/-- Whatever way a name is written, with names written in any of these ways as its parameters, it is read as
this name, unless the document has more levels than the reader goes down. -/
theorem name?_of_spells (h : Spells d n) (hn : n.IsBuilt) (depth : Nat) :
    name? depth d = if d.nesting ≤ depth then some n else none := by
  have hreadable := isReadableByNesting_of_spells h depth
  unfold name?
  split
  · rename_i hread
    rw [if_pos (hreadable.1 hread)]
    exact readName?_of_spells h hn (hreadable.1 hread)
  · rename_i hread
    rw [if_neg fun hdepth => hread (hreadable.2 hdepth)]

/-! ### Films by their key -/

def films : QualifiedName :=
  (QualifiedName.ofFull "lang.taxi.Array").withParameters [.ofFull "films.Film"]

def keyedFilms : QualifiedName :=
  (QualifiedName.ofFull "lang.taxi.Map").withParameters [.ofFull "films.Key", films]

theorem isBuilt_films : films.IsBuilt := by
  have harray : QualifiedName.IsBase "lang.taxi.Array".toList :=
    QualifiedName.isBase_of_all (by decide) (by decide)
  have hfilm : QualifiedName.IsBase "films.Film".toList := QualifiedName.isBase_of_all (by decide) (by decide)
  exact .applied (.plain harray) (List.forall_mem_singleton.2 (.plain hfilm))

theorem isBuilt_keyedFilms : keyedFilms.IsBuilt := by
  have hmap : QualifiedName.IsBase "lang.taxi.Map".toList :=
    QualifiedName.isBase_of_all (by decide) (by decide)
  have hkey : QualifiedName.IsBase "films.Key".toList := QualifiedName.isBase_of_all (by decide) (by decide)
  have hparameters : ∀ p ∈ [.ofFull "films.Key", films], QualifiedName.IsBuilt p :=
    List.forall_mem_cons.2 ⟨.plain hkey, List.forall_mem_singleton.2 isBuilt_films⟩
  exact .applied (.plain hmap) hparameters

/-- Films with their own parameter in `parameterizedName` only. -/
def filmsDocument : Document :=
  .object [(some "name", .string (some "Array")), fullMember "lang.taxi.Array",
    (some "parameterizedName", .string (some "lang.taxi.Array<films.Film>"))]

/-- The parameters are a text and an object, and stand before the full name. -/
def keyedFilmsDocument : Document :=
  .object [parametersMember [.string (some "films.Key"), filmsDocument], fullMember "lang.taxi.Map",
    (some "namespace", .string (some "lang.taxi"))]

theorem spells_filmsDocument : Spells filmsDocument films := by
  have hfilm : Spells (.string (some "films.Film")) (.ofFull "films.Film") := .text (.ofFull "films.Film")
  have hps : ∀ p ∈ [(Document.string (some "films.Film"), QualifiedName.ofFull "films.Film")],
      Spells p.1 p.2 :=
    List.forall_mem_singleton.2 hfilm
  have hshort : films.short = "Array" := by rfl
  have hkey : films.key = "lang.taxi.Array<films.Film>" := by rfl
  have hfull : films.full = "lang.taxi.Array" := by rfl
  refine .object hps rfl ⟨by decide, ?_, .inr ⟨?_, .inr ?_⟩⟩
  · simp [tellable, parameterizedMember, hshort, hkey, hfull]
  · simp [hfull]
  · simp [parameterizedMember, hkey]

theorem spells_keyedFilmsDocument : Spells keyedFilmsDocument keyedFilms := by
  have hkey : Spells (.string (some "films.Key")) (.ofFull "films.Key") := .text (.ofFull "films.Key")
  have hps : ∀ p ∈ [(Document.string (some "films.Key"), QualifiedName.ofFull "films.Key"),
      (filmsDocument, films)], Spells p.1 p.2 :=
    List.forall_mem_cons.2 ⟨hkey, List.forall_mem_singleton.2 spells_filmsDocument⟩
  have hscope : keyedFilms.scope = "lang.taxi" := by rfl
  have hfull : keyedFilms.full = "lang.taxi.Map" := by rfl
  refine .object hps rfl ⟨by decide, ?_, .inr ⟨?_, .inl ?_⟩⟩
  · simp [tellable, hscope, hfull]
  · simp [hfull]
  · simp

/-- The document has three levels. -/
theorem name?_keyedFilmsDocument :
    keyedFilms.IsBuilt ∧ Spells keyedFilmsDocument keyedFilms ∧
      ∀ depth, name? depth keyedFilmsDocument = if 3 ≤ depth then some keyedFilms else none := by
  have hnesting : keyedFilmsDocument.nesting = 3 := by rfl
  refine ⟨isBuilt_keyedFilms, spells_keyedFilmsDocument, fun depth => ?_⟩
  rw [name?_of_spells spells_keyedFilmsDocument isBuilt_keyedFilms depth, hnesting]

end SchemaSnippets.Request

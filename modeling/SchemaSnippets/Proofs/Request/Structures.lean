import Mathlib.Data.List.Forall2
import SchemaSnippets.Request.Entry

/-!
# Structures of a request document

A request is read through structures inside each other. Each has its keys, and what is read is told
by what its slots hold.

* `Structure.keys` : the keys of a structure and what stands for them;
* `Telling` : a condition on a slot, at the depth that is left for what it holds;
* `MetadataEntry.tells` and its like : what an entry tells of each slot;
* `MetadataEntry.read?_eq_some` and its like : an entry is read from a document if and only if the
  slots of the document are as the entry tells.
-/

namespace SchemaSnippets.Request
open Json Schema

/-! ## Keys -/

/-- The structures that a request document is made of. -/
inductive Structure where
  | request | schema | type | attr | enumValue | metadata | source | service | operation
  | parameter | name
deriving DecidableEq, Repr

/-- What stands for a key: no structure, one, or several in an array or under keys of their own. -/
inductive Content where
  | plain
  | one (s : Structure)
  | listOf (s : Structure)
  | mapOf (s : Structure)
deriving DecidableEq, Repr

structure Key where
  name : String
  content : Content
deriving DecidableEq, Repr

/-- The keys of a structure, in the order in which an array may hold what stands for them. -/
def Structure.keys : Structure → List Key
  | .request =>
    [⟨"query", .plain⟩, ⟨"returnType", .one .type⟩, ⟨"schema", .one .schema⟩,
      ⟨"anonymousTypes", .listOf .type⟩]
  | .schema => [⟨"types", .listOf .type⟩, ⟨"services", .listOf .service⟩]
  | .type =>
    [⟨"name", .one .name⟩, ⟨"attributes", .mapOf .attr⟩, ⟨"inheritsFrom", .listOf .name⟩,
      ⟨"aliasForType", .one .name⟩, ⟨"basePrimitiveTypeName", .one .name⟩, ⟨"isPrimitive", .plain⟩,
      ⟨"isScalar", .plain⟩, ⟨"isCollection", .plain⟩, ⟨"isStream", .plain⟩,
      ⟨"collectionType", .one .type⟩, ⟨"typeParameters", .listOf .name⟩,
      ⟨"enumValues", .listOf .enumValue⟩, ⟨"modifiers", .plain⟩, ⟨"format", .plain⟩,
      ⟨"offset", .plain⟩, ⟨"metadata", .listOf .metadata⟩, ⟨"sources", .listOf .source⟩,
      ⟨"typeDoc", .plain⟩]
  | .attr =>
    [⟨"type", .one .name⟩, ⟨"nullable", .plain⟩, ⟨"metadata", .listOf .metadata⟩,
      ⟨"format", .plain⟩, ⟨"offset", .plain⟩, ⟨"typeDoc", .plain⟩]
  | .enumValue => [⟨"name", .plain⟩, ⟨"value", .plain⟩, ⟨"synonyms", .plain⟩, ⟨"typeDoc", .plain⟩]
  | .metadata => [⟨"name", .one .name⟩, ⟨"params", .plain⟩]
  | .source => [⟨"name", .plain⟩, ⟨"version", .plain⟩]
  | .service => [⟨"name", .one .name⟩, ⟨"operations", .listOf .operation⟩, ⟨"typeDoc", .plain⟩]
  | .operation =>
    [⟨"name", .plain⟩, ⟨"parameters", .listOf .parameter⟩, ⟨"returnTypeName", .one .name⟩]
  | .parameter => [⟨"name", .plain⟩, ⟨"typeName", .one .name⟩]
  | .name =>
    [⟨"fullyQualifiedName", .plain⟩, ⟨"name", .plain⟩, ⟨"namespace", .plain⟩,
      ⟨"parameters", .listOf .name⟩, ⟨"parameterizedName", .plain⟩]

/-- The names of the keys of a structure. -/
def Structure.keyNames (s : Structure) : List String :=
  s.keys.map (·.name)

/-! ## Slots -/

/-- A condition on a slot, by the depth that is left for what it holds. -/
abbrev Telling := Nat → Slot → Prop

/-- The slots are as told. -/
def Told (tells : List Telling) (depth : Nat) (xs : List Slot) : Prop :=
  List.Forall₂ (fun tell x => tell depth x) tells xs

/-- The document has slots for the keys of the structure, and they are as told. -/
def Structure.Tells (s : Structure) (tells : List Telling) (depth : Nat) (d : Document) : Prop :=
  ∃ n xs, d.slots? s.keyNames depth = some (n, xs) ∧ Told tells n xs

theorem Structure.nodup_keyNames (s : Structure) : s.keyNames.Nodup := by
  cases s <;> decide

/-- One level is left behind with the structure, and there is a slot for each key. -/
theorem shape_of_slots? {keys : List String} {depth n : Nat} {d : Document} {xs : List Slot}
    (h : d.slots? keys depth = some (n, xs)) : depth = n + 1 ∧ xs.length = keys.length := by
  unfold Document.slots? at h
  split at h
  · split at h
    · obtain ⟨rfl, rfl⟩ := Prod.mk.inj (Option.some.inj h)
      exact ⟨rfl, List.length_map _⟩
    · cases h
  · split at h
    · obtain ⟨rfl, rfl⟩ := Prod.mk.inj (Option.some.inj h)
      refine ⟨rfl, ?_⟩
      rw [List.length_append, List.length_map, List.length_replicate]
      omega
    · cases h
  · cases h

/-- What is read from slots is told by them if this is so for slots of the right number. -/
theorem bind_slots?_eq_some {α : Type} {s : Structure} {tells : List Telling} {depth : Nat}
    {d : Document} {read : Nat × List Slot → Option α} {a : α}
    (h : ∀ n xs, depth = n + 1 → xs.length = s.keyNames.length →
      (read (n, xs) = some a ↔ Told tells n xs)) :
    (d.slots? s.keyNames depth).bind read = some a ↔ s.Tells tells depth d := by
  rw [Option.bind_eq_some_iff]
  constructor
  · rintro ⟨⟨n, xs⟩, hslots, hread⟩
    obtain ⟨hdepth, hlength⟩ := shape_of_slots? hslots
    exact ⟨n, xs, hslots, (h n xs hdepth hlength).1 hread⟩
  · rintro ⟨n, xs, hslots, htold⟩
    obtain ⟨hdepth, hlength⟩ := shape_of_slots? hslots
    exact ⟨(n, xs), hslots, (h n xs hdepth hlength).2 htold⟩

/-- The form of `Option.bind_eq_some_iff` that rewrites a long `do` from its first line on. -/
theorem do_eq_some_iff {α β : Type} {x : Option α} {f : α → Option β} {b : β} :
    (x >>= f) = some b ↔ ∃ a, x = some a ∧ f a = some b :=
  Option.bind_eq_some_iff

/-! ## Entries -/

section Entries
variable {depth : Nat} {d : Document}

def MetadataEntry.tells (e : MetadataEntry) : List Telling :=
  [fun n x => x.required (name? n) = some e.name,
    fun n x => x.orDefault [] (Document.entries? Document.value? n) = some e.params]

theorem MetadataEntry.read?_eq_some {e : MetadataEntry} :
    MetadataEntry.read? depth d = some e ↔ Structure.metadata.Tells e.tells depth d := by
  cases e
  refine bind_slots?_eq_some (s := .metadata) fun n xs _ hlen => ?_
  match xs, hlen with
  | [x₁, x₂], _ => simp [Told, tells, ↓do_eq_some_iff]

def SourceEntry.tells (e : SourceEntry) : List Telling :=
  [fun _ x => x.required Document.text? = some e.name,
    fun _ x => x.optional Document.text? = some e.version]

theorem SourceEntry.read?_eq_some {e : SourceEntry} :
    SourceEntry.read? depth d = some e ↔ Structure.source.Tells e.tells depth d := by
  cases e
  refine bind_slots?_eq_some (s := .source) fun n xs _ hlen => ?_
  match xs, hlen with
  | [x₁, x₂], _ => simp [Told, tells, ↓do_eq_some_iff]

def AttributeEntry.tells (e : AttributeEntry) : List Telling :=
  [fun n x => x.required (name? n) = some e.type,
    fun _ x => x.orDefault false Document.bool? = some e.nullable,
    fun n x => x.orDefault [] (Document.list? MetadataEntry.read? n) = some e.metadata,
    fun n x => x.optional (patterns? n) = some e.format,
    fun _ x => x.optional Document.int32? = some e.offset,
    fun _ x => x.optional Document.text? = some e.typeDoc]

theorem AttributeEntry.read?_eq_some {e : AttributeEntry} :
    AttributeEntry.read? depth d = some e ↔ Structure.attr.Tells e.tells depth d := by
  cases e
  refine bind_slots?_eq_some (s := .attr) fun n xs _ hlen => ?_
  match xs, hlen with
  | [x₁, x₂, x₃, x₄, x₅, x₆], _ => simp [Told, tells, ↓do_eq_some_iff, -Bool.exists_bool]

def EnumValueEntry.tells (e : EnumValueEntry) : List Telling :=
  [fun _ x => x.required Document.text? = some e.name,
    fun n x => x.optional (Document.value? n) = some e.value,
    fun n x => x.orDefault [] (texts? n) = some e.synonyms,
    fun _ x => x.optional Document.text? = some e.typeDoc]

theorem EnumValueEntry.read?_eq_some {e : EnumValueEntry} :
    EnumValueEntry.read? depth d = some e ↔ Structure.enumValue.Tells e.tells depth d := by
  cases e
  refine bind_slots?_eq_some (s := .enumValue) fun n xs _ hlen => ?_
  match xs, hlen with
  | [x₁, x₂, x₃, x₄], _ => simp [Told, tells, ↓do_eq_some_iff]

def TypeEntry.tells (e : TypeEntry) : List Telling :=
  [fun n x => x.required (name? n) = some e.name,
    fun n x => x.orDefault [] (Document.entries? AttributeEntry.read? n) = some e.attributes,
    fun n x => x.orDefault [] (Document.list? name? n) = some e.inheritsFrom,
    fun n x => x.optional (name? n) = some e.aliasForType,
    fun n x => x.optional (name? n) = some e.basePrimitiveTypeName,
    fun _ x => x.orDefault false Document.bool? = some e.isPrimitive,
    fun _ x => x.orDefault false Document.bool? = some e.isScalar,
    fun _ x => x.orDefault false Document.bool? = some e.isCollection,
    fun _ x => x.orDefault false Document.bool? = some e.isStream,
    fun n x => x.optional (TypeEntry.read? n) = some e.collectionType,
    fun n x => x.orDefault [] (Document.list? name? n) = some e.typeParameters,
    fun n x => x.orDefault [] (Document.list? EnumValueEntry.read? n) = some e.enumValues,
    fun n x => x.orDefault [] (texts? n) = some e.modifiers,
    fun n x => x.optional (patterns? n) = some e.format,
    fun _ x => x.optional Document.int32? = some e.offset,
    fun n x => x.orDefault [] (Document.list? MetadataEntry.read? n) = some e.metadata,
    fun n x => x.orDefault [] (Document.list? SourceEntry.read? n) = some e.sources,
    fun _ x => x.optional Document.text? = some e.typeDoc]

theorem TypeEntry.read?_eq_some {e : TypeEntry} :
    TypeEntry.read? depth d = some e ↔ Structure.type.Tells e.tells depth d := by
  cases depth with
  | zero =>
      rw [TypeEntry.read?]
      simp [Structure.Tells, Document.slots?]
  | succ depth =>
      rw [TypeEntry.read?]
      refine bind_slots?_eq_some (s := .type) fun n xs hn hlen => ?_
      obtain rfl : depth = n := Nat.succ.inj hn
      cases e
      match xs, hlen with
      | [x₁, x₂, x₃, x₄, x₅, x₆, x₇, x₈, x₉, x₁₀, x₁₁, x₁₂, x₁₃, x₁₄, x₁₅, x₁₆, x₁₇, x₁₈], _ =>
        simp only [Told, tells, List.forall₂_cons, List.Forall₂.nil, and_true, ↓do_eq_some_iff]
        constructor
        · rintro ⟨_, h₁, _, h₂, _, h₃, _, h₄, _, h₅, _, h₆, _, h₇, _, h₈, _, h₉, _, h₁₀, _, h₁₁,
            _, h₁₂, _, h₁₃, _, h₁₄, _, h₁₅, _, h₁₆, _, h₁₇, _, h₁₈, ⟨⟩⟩
          exact ⟨h₁, h₂, h₃, h₄, h₅, h₆, h₇, h₈, h₉, h₁₀, h₁₁, h₁₂, h₁₃, h₁₄, h₁₅, h₁₆, h₁₇, h₁₈⟩
        · rintro ⟨h₁, h₂, h₃, h₄, h₅, h₆, h₇, h₈, h₉, h₁₀, h₁₁, h₁₂, h₁₃, h₁₄, h₁₅, h₁₆, h₁₇, h₁₈⟩
          exact ⟨_, h₁, _, h₂, _, h₃, _, h₄, _, h₅, _, h₆, _, h₇, _, h₈, _, h₉, _, h₁₀, _, h₁₁,
            _, h₁₂, _, h₁₃, _, h₁₄, _, h₁₅, _, h₁₆, _, h₁₇, _, h₁₈, rfl⟩

def ParameterEntry.tells (e : ParameterEntry) : List Telling :=
  [fun _ x => x.optional Document.text? = some e.name,
    fun n x => x.required (name? n) = some e.typeName]

theorem ParameterEntry.read?_eq_some {e : ParameterEntry} :
    ParameterEntry.read? depth d = some e ↔ Structure.parameter.Tells e.tells depth d := by
  cases e
  refine bind_slots?_eq_some (s := .parameter) fun n xs _ hlen => ?_
  match xs, hlen with
  | [x₁, x₂], _ => simp [Told, tells, ↓do_eq_some_iff]

def OperationEntry.tells (e : OperationEntry) : List Telling :=
  [fun _ x => x.required Document.text? = some e.name,
    fun n x => x.orDefault [] (Document.list? ParameterEntry.read? n) = some e.parameters,
    fun n x => x.required (name? n) = some e.returnTypeName]

theorem OperationEntry.read?_eq_some {e : OperationEntry} :
    OperationEntry.read? depth d = some e ↔ Structure.operation.Tells e.tells depth d := by
  cases e
  refine bind_slots?_eq_some (s := .operation) fun n xs _ hlen => ?_
  match xs, hlen with
  | [x₁, x₂, x₃], _ => simp [Told, tells, ↓do_eq_some_iff]

def ServiceEntry.tells (e : ServiceEntry) : List Telling :=
  [fun n x => x.required (name? n) = some e.name,
    fun n x => x.orDefault [] (Document.list? OperationEntry.read? n) = some e.operations,
    fun _ x => x.optional Document.text? = some e.typeDoc]

theorem ServiceEntry.read?_eq_some {e : ServiceEntry} :
    ServiceEntry.read? depth d = some e ↔ Structure.service.Tells e.tells depth d := by
  cases e
  refine bind_slots?_eq_some (s := .service) fun n xs _ hlen => ?_
  match xs, hlen with
  | [x₁, x₂, x₃], _ => simp [Told, tells, ↓do_eq_some_iff]

def SchemaEntry.tells (e : SchemaEntry) : List Telling :=
  [fun n x => x.orDefault [] (Document.list? TypeEntry.read? n) = some e.types,
    fun n x => x.orDefault [] (Document.list? ServiceEntry.read? n) = some e.services]

theorem SchemaEntry.read?_eq_some {e : SchemaEntry} :
    SchemaEntry.read? depth d = some e ↔ Structure.schema.Tells e.tells depth d := by
  cases e
  refine bind_slots?_eq_some (s := .schema) fun n xs _ hlen => ?_
  match xs, hlen with
  | [x₁, x₂], _ => simp [Told, tells, ↓do_eq_some_iff]

def RequestEntry.tells (e : RequestEntry) : List Telling :=
  [fun _ x => x.required Document.text? = some e.query,
    fun n x => x.required (TypeEntry.read? n) = some e.returnType,
    fun n x => x.orDefault ⟨[], []⟩ (SchemaEntry.read? n) = some e.schema,
    fun n x => x.orDefault [] (Document.list? TypeEntry.read? n) = some e.anonymousTypes]

theorem RequestEntry.read?_eq_some {e : RequestEntry} :
    RequestEntry.read? depth d = some e ↔ Structure.request.Tells e.tells depth d := by
  cases e
  refine bind_slots?_eq_some (s := .request) fun n xs _ hlen => ?_
  match xs, hlen with
  | [x₁, x₂, x₃, x₄], _ => simp [Told, tells, ↓do_eq_some_iff]

/-! ## Names -/

/-- What a name is made of where it is written as a structure. -/
structure NameEntry where
  full : String
  short : Option String
  scope : Option String
  parameters : List QualifiedName
  parameterized : Option String

/-- The name that is made of the parts. -/
def NameEntry.name? (e : NameEntry) : Option QualifiedName :=
  match e.parameters, e.parameterized.filter (·.toList.contains '<') with
  | [], some p => QualifiedName.parse? p
  | _, _ => do
    let base ← QualifiedName.parse? e.full
    let ps := if e.parameters.isEmpty then base.parameters else e.parameters
    return (base.withParameters ps).withParts e.scope e.short

def NameEntry.tells (e : NameEntry) : List Telling :=
  [fun _ x => x.required Document.text? = some e.full,
    fun _ x => x.optional Document.text? = some e.short,
    fun _ x => x.optional Document.text? = some e.scope,
    fun n x => x.ifPresent [] (Document.list? (fun _ => readName? n) n) = some e.parameters,
    fun _ x => x.optional Document.text? = some e.parameterized]

theorem readName?_eq_some {q : QualifiedName} (hd : ∀ s, d ≠ .string s) :
    readName? depth d = some q ↔
      ∃ e : NameEntry, e.name? = some q ∧ Structure.name.Tells e.tells depth d := by
  cases depth with
  | zero => cases d <;> simp_all [readName?, Structure.Tells, Document.slots?]
  | succ depth =>
      rw [readName?.eq_3 _ _ hd, Option.bind_eq_bind, Option.bind_eq_some_iff]
      constructor
      · rintro ⟨⟨n, xs⟩, hslots, hread⟩
        obtain rfl : depth = n := Nat.succ.inj (shape_of_slots? hslots).1
        match xs, (shape_of_slots? hslots).2 with
        | [x₁, x₂, x₃, x₄, x₅], _ =>
          simp only [Option.bind_eq_bind, Option.bind_eq_some_iff] at hread
          obtain ⟨full, h₁, short, h₂, scope, h₃, parameters, h₄, parameterized, h₅, hname⟩ := hread
          exact ⟨⟨full, short, scope, parameters, parameterized⟩, hname, depth, _, hslots,
            .cons h₁ (.cons h₂ (.cons h₃ (.cons h₄ (.cons h₅ .nil))))⟩
      · rintro ⟨⟨full, short, scope, parameters, parameterized⟩, hname, n, xs, hslots, htold⟩
        obtain rfl : depth = n := Nat.succ.inj (shape_of_slots? hslots).1
        match xs, htold with
        | [x₁, x₂, x₃, x₄, x₅], .cons h₁ (.cons h₂ (.cons h₃ (.cons h₄ (.cons h₅ .nil)))) =>
          refine ⟨_, hslots, ?_⟩
          simp only [Option.bind_eq_bind, Option.bind_eq_some_iff]
          exact ⟨_, h₁, _, h₂, _, h₃, _, h₄, _, h₅, hname⟩

end Entries

end SchemaSnippets.Request

import SchemaSnippets.Proofs.Json.Nesting
import SchemaSnippets.Proofs.Request.Given
import SchemaSnippets.Proofs.Request.Structures

/-!
# Keys set to null

A key of a structure may be left out or set to `null`. Wherever the structure stands in a request,
the two documents load to the same request. One key is an exception: the `parameters` of a name may
be left out and may not be `null`.

* `SetsNull s k` : two documents that differ in the key `k` of one structure `s`, absent in the
  first and `null` in the second;
* `SlotsChange` : what this changes in the slots of the structures around it;
* `Governs` : what is told of a slot before such a change is told of it after;
* `SetsNull.changes` : the two documents are read alike, by induction on where the structure stands.
-/

namespace SchemaSnippets.Request
open Json Schema

/-- Whether a key counts as absent where it is `null`. -/
def Structure.TakesNull (s : Structure) (key : Key) : Prop :=
  ¬ (s = .name ∧ key.name = "parameters")

/-- The documents differ in one structure `s` inside them: the first leaves its key `k` out and the
second sets it to `null`. -/
inductive SetsNull (s : Structure) (k : Key) : Content → Document → Document → Prop
  | key {before after : List (Option String × Document)} (hk : k ∈ s.keys)
      (habsent : ∀ m ∈ before ++ after, m.1 ≠ some k.name) :
      SetsNull s k (.one s) (.object (before ++ after))
        (.object (before ++ (some k.name, .null) :: after))
  | member {t : Structure} {key : Key} {before after : List (Option String × Document)}
      {d d' : Document} (hkey : key ∈ t.keys) (h : SetsNull s k key.content d d') :
      SetsNull s k (.one t) (.object (before ++ (some key.name, d) :: after))
        (.object (before ++ (some key.name, d') :: after))
  | slot {t : Structure} {key : Key} {before after : List Document} {d d' : Document}
      (hkey : t.keys[before.length]? = some key) (h : SetsNull s k key.content d d') :
      SetsNull s k (.one t) (.array (before ++ d :: after)) (.array (before ++ d' :: after))
  | item {t : Structure} {before after : List Document} {d d' : Document}
      (h : SetsNull s k (.one t) d d') :
      SetsNull s k (.listOf t) (.array (before ++ d :: after)) (.array (before ++ d' :: after))
  | entry {t : Structure} {name : Option String} {before after : List (Option String × Document)}
      {d d' : Document} (h : SetsNull s k (.one t) d d') :
      SetsNull s k (.mapOf t) (.object (before ++ (name, d) :: after))
        (.object (before ++ (name, d') :: after))

/-- Arrays and objects. -/
def IsNested : Document → Prop
  | .array _ | .object _ => True
  | _ => False

namespace SetsNull
variable {s : Structure} {k : Key} {c : Content} {d d' : Document}

theorem isNested (h : SetsNull s k c d d') : IsNested d ∧ IsNested d' := by
  cases h <;> exact ⟨trivial, trivial⟩

/-- A `null` can be read at every depth. -/
theorem isReadable (h : SetsNull s k c d d') (n : Nat) : d'.isReadable n = d.isReadable n := by
  induction h generalizing n with
  | key => cases n <;> simp [Document.isReadable]
  | member _ _ ih => cases n <;> simp [Document.isReadable, ih]
  | slot _ _ ih => cases n <;> simp [Document.isReadable, ih]
  | item _ ih => cases n <;> simp [Document.isReadable, ih]
  | entry _ ih => cases n <;> simp [Document.isReadable, ih]

end SetsNull

/-! ## What is read -/

section Reading
variable {kept : Prop} {α β : Type} {f : Nat → Document → Option α}

/-- The second document is read as the first one is if this is `kept`, and is not read else. -/
def Reads (kept : Prop) (f : Nat → Document → Option α) (d d' : Document) : Prop :=
  ∀ n a, f n d' = some a ↔ kept ∧ f n d = some a

/-- What is made of one part among others is made of all of them or of none. -/
theorem mapM_eq_some_iff_of_middle {g : β → Option α} {b b' : β} (before after : List β)
    (h : ∀ a, g b' = some a ↔ kept ∧ g b = some a) (as : List α) :
    (before ++ b' :: after).mapM g = some as ↔ kept ∧ (before ++ b :: after).mapM g = some as := by
  by_cases hkept : kept
  · have hsame : g b' = g b := Option.ext fun a => by simp [h, hkept]
    simp [List.mapM_append, List.mapM_cons, hsame, hkept]
  · have hnone : g b' = none := Option.eq_none_iff_forall_ne_some.2 fun a => by simp [h, hkept]
    simp [List.mapM_append, List.mapM_cons, hnone, hkept]

theorem Reads.list? {before after : List Document} {d d' : Document} (h : Reads kept f d d') :
    Reads kept (Document.list? f) (.array (before ++ d :: after))
      (.array (before ++ d' :: after)) := by
  intro n as
  cases n with
  | zero => simp [Document.list?]
  | succ n => exact mapM_eq_some_iff_of_middle before after (h n) as

/-- What is read of a member of an object. -/
def readMember? (f : Nat → Document → Option α) (n : Nat) (m : Option String × Document) :
    Option (String × α) :=
  m.1.bind fun name => (f n m.2).bind fun a => some (name, a)

theorem entries?_object {n : Nat} {members : List (Option String × Document)} :
    Document.entries? f (n + 1) (.object members) =
      (members.mapM (readMember? f n)).map
        fun es => es.foldl (fun es e => Data.setEntry e.1 e.2 es) [] := by
  rw [Option.map_eq_bind]
  rfl

theorem Reads.member {name : Option String} {d d' : Document} (h : Reads kept f d d') (n : Nat)
    (e : String × α) :
    readMember? f n (name, d') = some e ↔ kept ∧ readMember? f n (name, d) = some e := by
  simp only [readMember?, Option.bind_eq_some_iff, h n]
  tauto

theorem Reads.entries? {before after : List (Option String × Document)} {name : Option String}
    {d d' : Document} (h : Reads kept f d d') :
    Reads kept (Document.entries? f) (.object (before ++ (name, d) :: after))
      (.object (before ++ (name, d') :: after)) := by
  intro n as
  cases n with
  | zero => simp [Document.entries?]
  | succ n =>
      simp only [entries?_object, Option.map_eq_some_iff,
        mapM_eq_some_iff_of_middle before after (h.member n), and_assoc, exists_and_left]

end Reading

/-- The readers of a structure read a document as they read another one, if this is `kept`. -/
def Structure.Changes (kept : Prop) (d d' : Document) : Structure → Prop
  | .request => Reads kept RequestEntry.read? d d'
  | .schema => Reads kept SchemaEntry.read? d d'
  | .type => Reads kept TypeEntry.read? d d'
  | .attr => Reads kept AttributeEntry.read? d d'
  | .enumValue => Reads kept EnumValueEntry.read? d d'
  | .metadata => Reads kept MetadataEntry.read? d d'
  | .source => Reads kept SourceEntry.read? d d'
  | .service => Reads kept ServiceEntry.read? d d'
  | .operation => Reads kept OperationEntry.read? d d'
  | .parameter => Reads kept ParameterEntry.read? d d'
  | .name => Reads kept readName? d d' ∧ ∀ n, d'.isReadable n = d.isReadable n

/-- One structure inside a content is changed. -/
inductive Content.Changes (kept : Prop) : Content → Document → Document → Prop
  | one {s : Structure} {d d' : Document} (hd : IsNested d) (hd' : IsNested d')
      (h : s.Changes kept d d') : Content.Changes kept (.one s) d d'
  | item {s : Structure} {before after : List Document} {d d' : Document}
      (h : Structure.Changes kept d d' s) :
      Content.Changes kept (.listOf s) (.array (before ++ d :: after))
        (.array (before ++ d' :: after))
  | entry {s : Structure} {name : Option String} {before after : List (Option String × Document)}
      {d d' : Document} (h : s.Changes kept d d') :
      Content.Changes kept (.mapOf s) (.object (before ++ (name, d) :: after))
        (.object (before ++ (name, d') :: after))

theorem Content.Changes.isNested {kept : Prop} {c : Content} {d d' : Document}
    (h : c.Changes kept d d') : IsNested d ∧ IsNested d' := by
  cases h with
  | one hd hd' => exact ⟨hd, hd'⟩
  | item | entry => exact ⟨trivial, trivial⟩

section Readers
variable {α : Type} {s : Structure} {c : Content} {f : Nat → Document → Option α}

/-- The reader is one of those that a structure is read by. -/
def Structure.IsReadBy (s : Structure) (f : Nat → Document → Option α) : Prop :=
  ∀ kept d d', s.Changes kept d d' → Reads kept f d d'

/-- The reader looks at nothing of a content but what is read of its structures. -/
def Content.IsReadBy (c : Content) (f : Nat → Document → Option α) : Prop :=
  ∀ kept d d', c.Changes kept d d' → Reads kept f d d'

@[simp] theorem Content.IsReadBy.plain : Content.plain.IsReadBy f := by
  rintro _ _ _ ⟨⟩

@[simp] theorem Content.IsReadBy.one (h : s.IsReadBy f) : (Content.one s).IsReadBy f := by
  intro kept d d' hchange
  cases hchange with
  | one _ _ hd => exact h kept d d' hd

@[simp] theorem Content.IsReadBy.listOf (h : s.IsReadBy f) :
    (Content.listOf s).IsReadBy (Document.list? f) := by
  intro kept d d' hchange
  cases hchange with
  | item hd => exact Reads.list? (h kept _ _ hd)

@[simp] theorem Content.IsReadBy.mapOf (h : s.IsReadBy f) :
    (Content.mapOf s).IsReadBy (Document.entries? f) := by
  intro kept d d' hchange
  cases hchange with
  | entry hd => exact Reads.entries? (h kept _ _ hd)

@[simp] theorem Structure.IsReadBy.name? : Structure.name.IsReadBy Request.name? := by
  rintro kept d d' ⟨hread, hreadable⟩ n a
  unfold Request.name?
  rw [hreadable n]
  split
  · exact hread n a
  · simp

@[simp] theorem MetadataEntry.isReadBy : Structure.metadata.IsReadBy MetadataEntry.read? :=
  fun _ _ _ => id

@[simp] theorem SourceEntry.isReadBy : Structure.source.IsReadBy SourceEntry.read? :=
  fun _ _ _ => id

@[simp] theorem AttributeEntry.isReadBy : Structure.attr.IsReadBy AttributeEntry.read? :=
  fun _ _ _ => id

@[simp] theorem EnumValueEntry.isReadBy : Structure.enumValue.IsReadBy EnumValueEntry.read? :=
  fun _ _ _ => id

@[simp] theorem TypeEntry.isReadBy : Structure.type.IsReadBy TypeEntry.read? :=
  fun _ _ _ => id

@[simp] theorem ParameterEntry.isReadBy : Structure.parameter.IsReadBy ParameterEntry.read? :=
  fun _ _ _ => id

@[simp] theorem OperationEntry.isReadBy : Structure.operation.IsReadBy OperationEntry.read? :=
  fun _ _ _ => id

@[simp] theorem ServiceEntry.isReadBy : Structure.service.IsReadBy ServiceEntry.read? :=
  fun _ _ _ => id

@[simp] theorem SchemaEntry.isReadBy : Structure.schema.IsReadBy SchemaEntry.read? :=
  fun _ _ _ => id

@[simp] theorem RequestEntry.isReadBy : Structure.request.IsReadBy RequestEntry.read? :=
  fun _ _ _ => id

/-- The parameters of a name are read as the name is, whatever depth is left for them. -/
theorem Content.IsReadBy.parameters :
    (Content.listOf .name).IsReadBy fun n => Document.list? (fun _ => readName? n) n := by
  intro kept d d' hchange n a
  cases hchange with
  | item hd => exact Reads.list? (f := fun _ => readName? n) (fun _ => hd.1 n) n a

end Readers

/-! ## Slots -/

/-- The slot is filled with a `null`, or what fills it is changed. -/
inductive SlotChange (kept takesNull : Prop) (c : Content) : Slot → Slot → Prop
  | null (h : kept ↔ takesNull) : SlotChange kept takesNull c none (some .null)
  | inside {d d' : Document} (h : c.Changes kept d d') :
      SlotChange kept takesNull c (some d) (some d')

/-- One of the slots is changed. -/
inductive SlotsChange (s : Structure) (kept : Prop) : List Key → List Slot → List Slot → Prop
  | here {key : Key} {keys : List Key} {x y : Slot} {xs : List Slot}
      (h : SlotChange kept (s.TakesNull key) key.content x y) :
      SlotsChange s kept (key :: keys) (x :: xs) (y :: xs)
  | there {key : Key} {keys : List Key} {x : Slot} {xs ys : List Slot}
      (h : SlotsChange s kept keys xs ys) : SlotsChange s kept (key :: keys) (x :: xs) (x :: ys)

/-- What is told of a slot is told of it after a change, if this is kept. -/
def Governs (takesNull : Prop) (c : Content) (tell : Telling) : Prop :=
  ∀ kept x y, SlotChange kept takesNull c x y → ∀ n, tell n y ↔ kept ∧ tell n x

theorem SlotsChange.told {s : Structure} {kept : Prop} {keys : List Key} {xs ys : List Slot}
    {tells : List Telling} {n : Nat} (h : SlotsChange s kept keys xs ys) (hgoverns : List.Forall₂
      (fun key tell => Governs (s.TakesNull key) key.content tell) keys tells) :
    Told tells n ys ↔ kept ∧ Told tells n xs := by
  induction h generalizing tells with
  | here hslot =>
      obtain _ | ⟨hkey, -⟩ := hgoverns
      simp only [Told, List.forall₂_cons, hkey _ _ _ hslot n, and_assoc]
  | there _ ih =>
      obtain _ | ⟨-, hkeys⟩ := hgoverns
      have hrest := ih hkeys
      simp only [Told] at hrest
      simp only [Told, List.forall₂_cons, hrest, and_left_comm]

section Governs
variable {α : Type} {c : Content} {f : Nat → Document → Option α} {a : α}

@[simp] theorem governs_required (hnull : ∀ n, f n .null = none) (hc : c.IsReadBy f) :
    Governs True c fun n x => x.required (f n) = some a := by
  rintro kept _ _ (_ | hchange) n
  · simp [Slot.required, hnull]
  · exact hc _ _ _ hchange n a

theorem governs_ifPresent {default : α} (hnull : ∀ n, f n .null = none) (hc : c.IsReadBy f) :
    Governs False c fun n x => x.ifPresent default (f n) = some a := by
  rintro kept _ _ (hkept | hchange) n
  · simp [Slot.ifPresent, hnull, hkept]
  · exact hc _ _ _ hchange n a

theorem Slot.orDefault_of_isNested {default : α} {d : Document} {g : Document → Option α}
    (h : IsNested d) : Slot.orDefault default g (some d) = g d := by
  cases d <;> trivial

theorem Slot.optional_of_isNested {d : Document} {g : Document → Option α} (h : IsNested d) :
    Slot.optional g (some d) = (g d).map some := by
  cases d <;> trivial

@[simp] theorem governs_orDefault {default : α} (hc : c.IsReadBy f) :
    Governs True c fun n x => x.orDefault default (f n) = some a := by
  rintro kept _ _ (hkept | hchange) n
  · simp [Slot.orDefault, hkept]
  · simp only [Slot.orDefault_of_isNested hchange.isNested.1,
      Slot.orDefault_of_isNested hchange.isNested.2]
    exact hc _ _ _ hchange n a

@[simp] theorem governs_optional {a : Option α} (hc : c.IsReadBy f) :
    Governs True c fun n x => x.optional (f n) = some a := by
  rintro kept _ _ (hkept | hchange) n
  · simp [Slot.optional, hkept]
  · simp only [Slot.optional_of_isNested hchange.isNested.1,
      Slot.optional_of_isNested hchange.isNested.2]
    simp only [Option.map_eq_some_iff, hc _ _ _ hchange n, and_assoc, exists_and_left]

@[simp] theorem governs_required_text {a : String} :
    Governs True .plain fun _ x => x.required Document.text? = some a :=
  governs_required (f := fun _ => Document.text?) (fun _ => rfl) .plain

@[simp] theorem name?_null (n : Nat) : name? n .null = none := by
  cases n <;> rfl

@[simp] theorem type?_null (n : Nat) : TypeEntry.read? n .null = none := by
  cases n <;> rfl

end Governs

/-! ## Structures -/

/-- The slots of the documents are the same but for one that is changed. -/
def Structure.Varies (s : Structure) (kept : Prop) (d d' : Document) : Prop :=
  ∀ depth, (d.slots? s.keyNames depth = none ∧ d'.slots? s.keyNames depth = none) ∨
    ∃ n xs ys, d.slots? s.keyNames depth = some (n, xs) ∧
      d'.slots? s.keyNames depth = some (n, ys) ∧ SlotsChange s kept s.keys xs ys

/-- Every telling governs its slot. -/
def Structure.Governed (s : Structure) (tells : List Telling) : Prop :=
  List.Forall₂ (fun key tell => Governs (s.TakesNull key) key.content tell) s.keys tells

theorem Structure.Varies.tells {s : Structure} {kept : Prop} {d d' : Document}
    {tells : List Telling} (h : s.Varies kept d d') (hgoverned : s.Governed tells) (depth : Nat) :
    s.Tells tells depth d' ↔ kept ∧ s.Tells tells depth d := by
  obtain ⟨hd, hd'⟩ | ⟨n, xs, ys, hd, hd', hslots⟩ := h depth
  · simp [Structure.Tells, hd, hd']
  · simp [Structure.Tells, hd, hd', hslots.told hgoverned]

theorem Structure.Varies.reads {α : Type} {s : Structure} {kept : Prop} {d d' : Document}
    {f : Nat → Document → Option α} {tells : α → List Telling} (h : s.Varies kept d d')
    (hread : ∀ n d e, f n d = some e ↔ s.Tells (tells e) n d)
    (hgoverned : ∀ e, s.Governed (tells e)) : Reads kept f d d' := by
  intro n e
  rw [hread, hread]
  exact h.tells (hgoverned e) n

theorem Structure.takesNull_of_ne {s : Structure} (h : s ≠ .name) (key : Key) :
    s.TakesNull key ↔ True := by
  simp [Structure.TakesNull, h]

theorem MetadataEntry.governed (e : MetadataEntry) : Structure.metadata.Governed e.tells := by
  simp [Structure.Governed, Structure.takesNull_of_ne, Structure.keys, tells]

theorem SourceEntry.governed (e : SourceEntry) : Structure.source.Governed e.tells := by
  simp [Structure.Governed, Structure.takesNull_of_ne, Structure.keys, tells]

theorem AttributeEntry.governed (e : AttributeEntry) : Structure.attr.Governed e.tells := by
  simp [Structure.Governed, Structure.takesNull_of_ne, Structure.keys, tells]

theorem EnumValueEntry.governed (e : EnumValueEntry) : Structure.enumValue.Governed e.tells := by
  simp [Structure.Governed, Structure.takesNull_of_ne, Structure.keys, tells]

theorem TypeEntry.governed (e : TypeEntry) : Structure.type.Governed e.tells := by
  simp [Structure.Governed, Structure.takesNull_of_ne, Structure.keys, tells]

theorem ParameterEntry.governed (e : ParameterEntry) : Structure.parameter.Governed e.tells := by
  simp [Structure.Governed, Structure.takesNull_of_ne, Structure.keys, tells]

theorem OperationEntry.governed (e : OperationEntry) : Structure.operation.Governed e.tells := by
  simp [Structure.Governed, Structure.takesNull_of_ne, Structure.keys, tells]

theorem ServiceEntry.governed (e : ServiceEntry) : Structure.service.Governed e.tells := by
  simp [Structure.Governed, Structure.takesNull_of_ne, Structure.keys, tells]

theorem SchemaEntry.governed (e : SchemaEntry) : Structure.schema.Governed e.tells := by
  simp [Structure.Governed, Structure.takesNull_of_ne, Structure.keys, tells]

theorem RequestEntry.governed (e : RequestEntry) : Structure.request.Governed e.tells := by
  simp [Structure.Governed, Structure.takesNull_of_ne, Structure.keys, tells]

theorem Structure.takesNull_name (key : Key) :
    Structure.name.TakesNull key ↔ key.name ≠ "parameters" := by
  simp [Structure.TakesNull]

theorem NameEntry.governed (e : NameEntry) : Structure.name.Governed e.tells := by
  simp only [Structure.Governed, Structure.keys, NameEntry.tells, List.forall₂_cons,
    List.Forall₂.nil, Structure.takesNull_name, ne_eq, String.reduceEq, not_false_eq_true,
    not_true_eq_false, and_true]
  exact ⟨governs_required_text, governs_optional .plain, governs_optional .plain,
    governs_ifPresent (fun n => by cases n <;> rfl) .parameters, governs_optional .plain⟩

theorem Structure.Varies.changes {s : Structure} {kept : Prop} {d d' : Document}
    (h : s.Varies kept d d') (hd : IsNested d) (hd' : IsNested d')
    (hreadable : ∀ n, d'.isReadable n = d.isReadable n) : s.Changes kept d d' := by
  cases s with
  | request => exact h.reads (fun _ _ _ => RequestEntry.read?_eq_some) RequestEntry.governed
  | schema => exact h.reads (fun _ _ _ => SchemaEntry.read?_eq_some) SchemaEntry.governed
  | type => exact h.reads (fun _ _ _ => TypeEntry.read?_eq_some) TypeEntry.governed
  | attr => exact h.reads (fun _ _ _ => AttributeEntry.read?_eq_some) AttributeEntry.governed
  | enumValue => exact h.reads (fun _ _ _ => EnumValueEntry.read?_eq_some) EnumValueEntry.governed
  | metadata => exact h.reads (fun _ _ _ => MetadataEntry.read?_eq_some) MetadataEntry.governed
  | source => exact h.reads (fun _ _ _ => SourceEntry.read?_eq_some) SourceEntry.governed
  | service => exact h.reads (fun _ _ _ => ServiceEntry.read?_eq_some) ServiceEntry.governed
  | operation => exact h.reads (fun _ _ _ => OperationEntry.read?_eq_some) OperationEntry.governed
  | parameter => exact h.reads (fun _ _ _ => ParameterEntry.read?_eq_some) ParameterEntry.governed
  | name =>
      refine ⟨fun n q => ?_, hreadable⟩
      have hread : ∀ {d : Document}, IsNested d → (readName? n d = some q ↔
          ∃ e : NameEntry, e.name? = some q ∧ Structure.name.Tells e.tells n d) := fun hd =>
        readName?_eq_some fun s hs => by rw [hs] at hd; exact hd
      simp only [hread hd, hread hd', h.tells (NameEntry.governed _), and_left_comm,
        exists_and_left]

/-! ## Slots of a document -/

section Slots
variable {s : Structure} {kept : Prop} {key : Key}

theorem SlotsChange.of_slot {keys : List Key} {before : List Document} {x y : Slot}
    (hkey : keys[before.length]? = some key)
    (h : SlotChange kept (s.TakesNull key) key.content x y) (rest : List Slot) :
    SlotsChange s kept keys (before.map some ++ x :: rest) (before.map some ++ y :: rest) := by
  induction before generalizing keys with
  | nil =>
      obtain _ | ⟨key', keys⟩ := keys
      · cases hkey
      · obtain rfl : key' = key := by simpa using hkey
        exact .here h
  | cons _ before ih =>
      obtain _ | ⟨key', keys⟩ := keys
      · cases hkey
      · exact .there (ih (by simpa using hkey))

theorem SlotsChange.of_key {keys : List Key} {look look' : String → Slot}
    (hnodup : (keys.map (·.name)).Nodup) (hkey : key ∈ keys)
    (hother : ∀ name, name ≠ key.name → look' name = look name)
    (h : SlotChange kept (s.TakesNull key) key.content (look key.name) (look' key.name)) :
    SlotsChange s kept keys (keys.map (look ·.name)) (keys.map (look' ·.name)) := by
  induction keys with
  | nil => cases hkey
  | cons key' keys ih =>
      obtain ⟨hhead, htail⟩ := List.nodup_cons.1 hnodup
      simp only [List.map_cons]
      obtain rfl | hmem := List.mem_cons.1 hkey
      · have hrest : keys.map (look' ·.name) = keys.map (look ·.name) :=
          List.map_congr_left fun k hk =>
            hother _ fun heq => hhead (List.mem_map.2 ⟨k, hk, heq⟩)
        rw [hrest]
        exact .here h
      · have hne : key'.name ≠ key.name := fun heq => hhead (List.mem_map.2 ⟨key, hmem, heq.symm⟩)
        rw [hother _ hne]
        exact .there (ih htail hmem)

theorem varies_array {before after : List Document} {d d' : Document}
    (hkey : s.keys[before.length]? = some key) (h : key.content.Changes kept d d') :
    s.Varies kept (.array (before ++ d :: after)) (.array (before ++ d' :: after)) := by
  intro depth
  cases depth with
  | zero => exact .inl ⟨rfl, rfl⟩
  | succ n =>
      simp only [Document.slots?, List.length_append, List.length_cons]
      split
      · refine .inr ⟨n, _, _, rfl, rfl, ?_⟩
        simp only [List.map_append, List.map_cons, List.append_assoc, List.cons_append]
        exact .of_slot hkey (.inside h) _
      · exact .inl ⟨rfl, rfl⟩

theorem varies_object {members members' : List (Option String × Document)} (hkey : key ∈ s.keys)
    (hall : members'.all (·.1.isSome) = members.all (·.1.isSome))
    (hsingle : ∀ name, Document.isSingle members' name = Document.isSingle members name)
    (hother : ∀ name, name ≠ key.name →
      Document.lookup name members' = Document.lookup name members)
    (h : Document.isSingle members key.name = true → SlotChange kept (s.TakesNull key) key.content
      (Document.lookup key.name members) (Document.lookup key.name members')) :
    s.Varies kept (.object members) (.object members') := by
  intro depth
  cases depth with
  | zero => exact .inl ⟨rfl, rfl⟩
  | succ n =>
      simp only [Document.slots?, hall, funext hsingle]
      split
      · rename_i hvalid
        simp only [Bool.and_eq_true, List.all_eq_true, Structure.keyNames, List.mem_map] at hvalid
        refine .inr ⟨n, _, _, rfl, rfl, ?_⟩
        simp only [Structure.keyNames, List.map_map]
        exact .of_key s.nodup_keyNames hkey hother (h (hvalid.2 _ ⟨key, hkey, rfl⟩))
      · exact .inl ⟨rfl, rfl⟩

theorem filter_eq_nil_of_absent {members : List (Option String × Document)} {name : String}
    (h : ∀ m ∈ members, m.1 ≠ some name) : members.filter (·.1 == some name) = [] := by
  simpa [List.filter_eq_nil_iff] using h

theorem lookup_append_of_absent {before rest : List (Option String × Document)} {name : String}
    (h : ∀ m ∈ before, m.1 ≠ some name) :
    Document.lookup name (before ++ rest) = Document.lookup name rest := by
  have hnone : before.find? (·.1 == some name) = none := by simpa using h
  rw [Document.lookup, Document.lookup, List.find?_append, hnone, Option.none_or]

theorem lookup_of_absent {before after : List (Option String × Document)} {name : String}
    {d : Document} (h : ∀ m ∈ before, m.1 ≠ some name) :
    Document.lookup name (before ++ (some name, d) :: after) = some d := by
  rw [lookup_append_of_absent h, Document.lookup, List.find?_cons_of_pos (by simp)]
  rfl

theorem varies_key {before after : List (Option String × Document)} (hkey : key ∈ s.keys)
    (habsent : ∀ m ∈ before ++ after, m.1 ≠ some key.name) :
    s.Varies (s.TakesNull key) (.object (before ++ after))
      (.object (before ++ (some key.name, .null) :: after)) := by
  obtain ⟨hbefore, hafter⟩ := List.forall_mem_append.1 habsent
  refine varies_object hkey (by simp) (fun name => ?_) (fun name hname => ?_) fun _ => ?_
  · by_cases hname : name = key.name
    · subst hname
      simp [Document.isSingle, filter_eq_nil_of_absent hbefore, filter_eq_nil_of_absent hafter]
    · simp [Document.isSingle, Ne.symm hname]
  · simp [Document.lookup, Ne.symm hname]
  · have hnone : Document.lookup key.name (before ++ after) = none := by
      rw [lookup_append_of_absent hbefore, ← List.append_nil after, lookup_append_of_absent hafter]
      rfl
    rw [hnone, lookup_of_absent hbefore]
    exact .null Iff.rfl

theorem varies_member {kept : Prop} {before after : List (Option String × Document)}
    {d d' : Document} (hkey : key ∈ s.keys) (h : key.content.Changes kept d d') :
    s.Varies kept (.object (before ++ (some key.name, d) :: after))
      (.object (before ++ (some key.name, d') :: after)) := by
  refine varies_object hkey (by simp) (fun name => ?_) (fun name hname => ?_) fun hsingle => ?_
  · by_cases hname : name = key.name
    · simp [Document.isSingle, hname]
    · simp [Document.isSingle, Ne.symm hname]
  · simp [Document.lookup, Ne.symm hname]
  · -- Of a key that stands twice nothing is read, so this is its only member.
    have hbefore := (List.forall_mem_append.1 (Document.isSingle_split_iff.1 hsingle)).1
    rw [lookup_of_absent hbefore, lookup_of_absent hbefore]
    exact .inside h

end Slots

/-- The two documents are read alike if the key may be `null`, and else the second is not read. -/
theorem SetsNull.changes {s : Structure} {k : Key} {c : Content} {d d' : Document}
    (h : SetsNull s k c d d') : c.Changes (s.TakesNull k) d d' := by
  -- A structure around the place of the `null` sees no more of it than one changed slot.
  induction h with
  | key hk habsent =>
      exact .one trivial trivial ((varies_key hk habsent).changes trivial trivial
        (SetsNull.key hk habsent).isReadable)
  | member hkey h ih =>
      exact .one trivial trivial ((varies_member hkey ih).changes trivial trivial
        (SetsNull.member hkey h).isReadable)
  | slot hkey h ih =>
      exact .one trivial trivial ((varies_array hkey ih).changes trivial trivial
        (SetsNull.slot hkey h).isReadable)
  | item _ ih =>
      obtain ⟨-, -, ih⟩ := ih
      exact .item ih
  | entry _ ih =>
      obtain ⟨-, -, ih⟩ := ih
      exact .entry ih

/-! ## Requests -/

theorem SetsNull.read?_eq_some {s : Structure} {k : Key} {d d' : Document}
    (h : SetsNull s k (.one .request) d d') (n : Nat) (e : RequestEntry) :
    RequestEntry.read? n d' = some e ↔ s.TakesNull k ∧ RequestEntry.read? n d = some e := by
  obtain ⟨-, -, hreads⟩ := h.changes
  exact hreads n e

/-- Where a key is `null` a request loads as it does without the key, whatever structure the key
belongs to. Only a name whose `parameters` are `null` is refused, and the request with it. -/
theorem load_null {s : Structure} {k : Key} {d d' : Document} {src src' : String}
    (h : SetsNull s k (.one .request) d d') (hsrc : Document.ofText? src = some d)
    (hsrc' : Document.ofText? src' = some d') :
    (¬ (s = .name ∧ k.name = "parameters") →
        ∀ r, CodeRequest.load src' = .ok r ↔ CodeRequest.load src = .ok r) ∧
      (s = .name ∧ k.name = "parameters" → CodeRequest.load src' = .error .malformed) := by
  constructor
  · intro htakes r
    have hread : ∀ e, RequestEntry.ofText? src' = some e ↔ RequestEntry.ofText? src = some e := by
      intro e
      rw [RequestEntry.ofText?, RequestEntry.ofText?, hsrc, hsrc']
      exact (h.read?_eq_some _ e).trans (and_iff_right htakes)
    simp only [CodeRequest.load_eq_ok, hread]
  · intro hrefuses
    have hread : RequestEntry.read? Document.maxDepth d' = none :=
      Option.eq_none_iff_forall_ne_some.2 fun e he => ((h.read?_eq_some _ e).1 he).1 hrefuses
    rw [CodeRequest.load, hsrc', Option.bind_some, hread]

/-! ### An attribute and a name with a null -/

/-- A query of films with a title; `rest` follows the type of the title. -/
def titleText (rest : String) : String :=
  "\x7b\"query\": \"find\", \"returnType\": \x7b\"name\": \"Film\", \"attributes\": \x7b" ++
    "\"title\": \x7b\"type\": \"String\"" ++ rest ++ "\x7d\x7d\x7d\x7d"

def titleDocument (rest : List (Option String × Document)) : Document :=
  .object [(some "query", .string (some "find")), (some "returnType", .object [
    (some "name", .string (some "Film")), (some "attributes", .object [
      (some "title", .object ((some "type", .string (some "String")) :: rest))])])]

def titleEntry : RequestEntry :=
  ⟨"find", { TypeEntry.ofName (.ofFull "Film") with
    attributes := [("title", ⟨.ofFull "String", false, [], none, none, none⟩)] }, ⟨[], []⟩, []⟩

theorem load_title_null :
    CodeRequest.load (titleText "") = .ok (.ofEntry titleEntry) ∧
      (∀ r, CodeRequest.load (titleText ", \"nullable\": null") = .ok r ↔
        CodeRequest.load (titleText "") = .ok r) := by
  have habsent : Document.ofText? (titleText "") = some (titleDocument []) :=
    Document.ofText?_of_tokens (by decide +kernel)
  have hnull : Document.ofText? (titleText ", \"nullable\": null") =
      some (titleDocument [(some "nullable", .null)]) :=
    Document.ofText?_of_tokens (by decide +kernel)
  have hsets : SetsNull .attr ⟨"nullable", .plain⟩ (.one .request) (titleDocument [])
      (titleDocument [(some "nullable", .null)]) :=
    @SetsNull.member _ _ .request ⟨"returnType", .one .type⟩ [_] [] _ _ (by decide) <|
      @SetsNull.member _ _ .type ⟨"attributes", .mapOf .attr⟩ [_] [] _ _ (by decide) <|
        @SetsNull.entry _ _ .attr _ [] [] _ _ <| @SetsNull.key _ _ [_] [] (by decide) (by decide)
  have hentry : RequestEntry.ofText? (titleText "") = some titleEntry := by
    rw [RequestEntry.ofText?, habsent]
    rfl
  exact ⟨CodeRequest.load_eq_ok.2 ⟨_, hentry, by decide, rfl⟩,
    (load_null hsets habsent hnull).1 (by decide)⟩

/-- A query of films; `rest` follows their full name. -/
def filmText (rest : String) : String :=
  "\x7b\"query\": \"find\", \"returnType\": \x7b\"name\": \x7b\"fullyQualifiedName\": \"Film\"" ++
    rest ++ "\x7d\x7d\x7d"

def filmDocument (rest : List (Option String × Document)) : Document :=
  .object [(some "query", .string (some "find")), (some "returnType", .object [
    (some "name", .object ((some "fullyQualifiedName", .string (some "Film")) :: rest))])]

/-- The name of a film loads without `parameters` and not with `null` for them. -/
theorem parameters_null_refused :
    let bare := filmDocument []
    let filled := filmDocument [(some "parameters", .null)]
    Document.ofText? (filmText "") = some bare ∧
      Document.ofText? (filmText ", \"parameters\": null") = some filled ∧
      SetsNull .name ⟨"parameters", .listOf .name⟩ (.one .request) bare filled ∧
      CodeRequest.load (filmText "") =
        .ok (.ofEntry ⟨"find", .ofName (.ofFull "Film"), ⟨[], []⟩, []⟩) ∧
      CodeRequest.load (filmText ", \"parameters\": null") = .error .malformed := by
  intro bare filled
  have habsent : Document.ofText? (filmText "") = some bare :=
    Document.ofText?_of_tokens (by decide +kernel)
  have hnull : Document.ofText? (filmText ", \"parameters\": null") = some filled :=
    Document.ofText?_of_tokens (by decide +kernel)
  have hsets : SetsNull .name ⟨"parameters", .listOf .name⟩ (.one .request) bare filled :=
    @SetsNull.member _ _ .request ⟨"returnType", .one .type⟩ [_] [] _ _ (by decide) <|
      @SetsNull.member _ _ .type ⟨"name", .one .name⟩ [] [] _ _ (by decide) <|
        @SetsNull.key _ _ [_] [] (by decide) (by decide)
  refine ⟨habsent, hnull, hsets, CodeRequest.load_eq_ok.2 ⟨_, ?_, by decide, rfl⟩, ?_⟩
  · rw [RequestEntry.ofText?, habsent]
    rfl
  · rw [CodeRequest.load, hnull]
    rfl

end SchemaSnippets.Request

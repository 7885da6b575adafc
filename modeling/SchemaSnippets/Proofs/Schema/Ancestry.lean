import SchemaSnippets.Proofs.Schema.Spelling

/-!
# What a type inherits

From a scalar one goes to its first parent that resolves, from there to that one's, and so on. From each
type of a graph there is one such walk. It ends at a type without a parent to follow, or at a name that
it met before, and the end says what the type is.

* `KindAt g k r` : a type of kind `k` without a parent to follow has the primitive kind `r`;
* `Decides g passed e r` : a walk that passes `passed` and ends at `e` finds the primitive kind `r`;
* `primitiveOf_decided` : the primitive kind of a type is what its walk finds;
* `FindsFormat g seen t r` : looking for a format from `t`, step by step, ends with `r`;
  `inheritedFormat_of_walk` : it ends, on the same walk, with the first format that a type on it declares.
-/

namespace SchemaSnippets.Schema.TypeGraph
variable {g : TypeGraph} {t u : SchemaType} {passed : List SchemaType} {e : WayEnd}

/-- The primitive kind of a type, by its own kind. A scalar has one of its own if it has no parents, and
an error if none of them resolves. -/
inductive KindAt (g : TypeGraph) : TypeKind → Except SchemaError Primitive → Prop where
  | primitive (k : Primitive) : KindAt g (.primitive k) (.ok k)
  | collection (n : QualifiedName) : KindAt g (.collection n) (.ok .array)
  | stream (n : QualifiedName) : KindAt g (.stream n) (.ok .stream)
  | record (as : List Attribute) : KindAt g (.record as) (.ok .any)
  | integers {values : List EnumValue} (hne : values ≠ [])
      (hall : ∀ v ∈ values, v.value.isInteger) : KindAt g (.enumeration values) (.ok .int)
  | texts {values : List EnumValue} (h : values = [] ∨ ∃ v ∈ values, ¬ v.value.isInteger) :
      KindAt g (.enumeration values) (.ok .string)
  | noParents : KindAt g (.scalar []) (.ok .any)
  | noneResolves {p : QualifiedName} {ps : List QualifiedName}
      (h : ∀ n ∈ p :: ps, g.resolve? n = none) :
      KindAt g (.scalar (p :: ps)) (.error (.unknownType p.key))

/-- What a walk finds. One that comes round to a name is an error, which lists the names of the walk with
the repeated one at the end. -/
inductive Decides (g : TypeGraph) (passed : List SchemaType) :
    WayEnd → Except SchemaError Primitive → Prop where
  | again {u : SchemaType} (hu : u.key ∈ passed.map (·.key)) :
      Decides g passed (.again u)
        (.error (.cyclicInheritance u.key (passed.map (·.key) ++ [u.key])))
  | last {u : SchemaType} {r : Except SchemaError Primitive} (hu : u.key ∉ passed.map (·.key))
      (hr : g.KindAt u.kind r) : Decides g passed (.last u) r

/-! ## The end of a walk -/

theorem kindAt_enumerationKind (values : List EnumValue) :
    g.KindAt (.enumeration values) (.ok (enumerationKind values)) := by
  by_cases hints : values ≠ [] ∧ ∀ v ∈ values, v.value.isInteger
  · have hkind : enumerationKind values = .int := by
      simpa [enumerationKind] using hints
    rw [hkind]
    exact .integers hints.1 hints.2
  · have hkind : enumerationKind values = .string := by
      simpa [enumerationKind] using hints
    rw [hkind]
    refine .texts ?_
    by_contra! hno
    exact hints hno

theorem kindAt_lonePrimitive (h : g.parentOf? u = none) : g.KindAt u.kind (lonePrimitive u.kind) := by
  cases hk : u.kind with
  | primitive k => exact .primitive k
  | collection n => exact .collection n
  | stream n => exact .stream n
  | record as => exact .record as
  | enumeration values => exact kindAt_enumerationKind values
  | scalar parents =>
      cases parents with
      | nil => exact .noParents
      | cons p ps =>
          refine .noneResolves ?_
          unfold parentOf? at h
          rw [hk] at h
          exact List.findSome?_eq_none_iff.1 h

theorem notMem_of_last (h : Way g.parentOf? [] t passed (.last u)) : u ∉ passed := by
  intro hu
  obtain ⟨v, hv⟩ := h.next_passed u hu
  rw [h.next_last] at hv
  cases hv

theorem decides_of_way (ht : t ∈ g.types) (h : Way g.parentOf? [] t passed e) :
    g.Decides passed e (g.primitiveOf t) := by
  have hpassed : ∀ v ∈ passed, v ∈ g.types :=
    h.mem_types (fun _ _ _ hv => mem_types_of_parentOf? hv) ht
  have hend : e.type ∈ g.types :=
    h.end_of_step (fun _ _ _ hv => mem_types_of_parentOf? hv) ht
  rw [primitiveOf_eq ht h]
  cases e with
  | again u =>
      have hu : u ∈ passed := h.mem_of_again.resolve_right (List.not_mem_nil)
      exact .again (List.mem_map_of_mem hu)
  | last u =>
      refine .last (fun hu => notMem_of_last h ((key_mem_iff hend hpassed).1 hu)) ?_
      show g.KindAt u.kind (g.primitiveFrom 1 [] u)
      rw [primitiveFrom_one h.next_last]
      exact kindAt_lonePrimitive h.next_last

/-- No name occurs twice among the types that a walk passes. -/
theorem nodup_keys_of_way (ht : t ∈ g.types) (h : Way g.parentOf? [] t passed e) :
    (passed.map (·.key)).Nodup := by
  have hpassed : ∀ v ∈ passed, v ∈ g.types :=
    h.mem_types (fun _ _ _ hv => mem_types_of_parentOf? hv) ht
  refine h.nodup.map_on fun v hv w hw hkey => ?_
  exact eq_of_key_eq (hpassed v hv) (hpassed w hw) hkey

/-- The primitive kind of a type is decided by the one walk along its parents: by the type where it ends,
or, if it comes to a name for the second time, by all the names on it. -/
theorem primitiveOf_decided (ht : t ∈ g.types) :
    ∃ passed e, Way g.parentOf? [] t passed e ∧
      (∀ passed' e', Way g.parentOf? [] t passed' e' → passed' = passed ∧ e' = e) ∧
      (passed.map (·.key)).Nodup ∧ g.Decides passed e (g.primitiveOf t) := by
  obtain ⟨passed, e, h⟩ := exists_parentWay ht
  refine ⟨passed, e, h, ?_, nodup_keys_of_way ht h, decides_of_way ht h⟩
  intro passed' e' h'
  exact h'.unique h

/-! ### A rating that inherits from a cycle -/

/-- The first parent of a rating is unknown, and its second one goes back and forth. -/
def ratingGraph : TypeGraph :=
  .ofTypes [.ofKind (.ofFull "films.Rating") (.scalar [.ofFull "films.Mark", .ofFull "films.Score"]),
    .ofKind (.ofFull "films.Score") (.scalar [.ofFull "films.Points"]),
    .ofKind (.ofFull "films.Points") (.scalar [.ofFull "films.Score"])] []

def ratingType : SchemaType :=
  .ofKind (.ofFull "films.Rating") (.scalar [.ofFull "films.Mark", .ofFull "films.Score"])

/-- The chain begins at the rating, although the cycle does not. -/
theorem rating_decided :
    ratingType ∈ ratingGraph.types ∧
      (∃ passed e, Way ratingGraph.parentOf? [] ratingType passed e ∧
        (∀ passed' e', Way ratingGraph.parentOf? [] ratingType passed' e' →
          passed' = passed ∧ e' = e) ∧
        (passed.map (·.key)).Nodup ∧
        ratingGraph.Decides passed e (ratingGraph.primitiveOf ratingType)) ∧
      ratingGraph.primitiveOf ratingType = .error (.cyclicInheritance "films.Score"
        ["films.Rating", "films.Score", "films.Points", "films.Score"]) := by
  have ht : ratingType ∈ ratingGraph.types := by
    have hfind : ratingGraph.find? "films.Rating" = some ratingType := rfl
    exact List.mem_of_find?_eq_some hfind
  exact ⟨ht, primitiveOf_decided ht, rfl⟩

/-! ## Formats -/

/-- Looking for a format from a type, `seen` being the names that were met without one: the type's own
format is taken, and else that of its parent, unless the type was seen. -/
inductive FindsFormat (g : TypeGraph) : List String → SchemaType → Option ValueFormat → Prop where
  | declared {seen t f} (hf : t.format = some f) : FindsFormat g seen t (some f)
  | repeated {seen t} (hf : t.format = none) (ht : t.key ∈ seen) : FindsFormat g seen t none
  | ended {seen t} (hf : t.format = none) (ht : t.key ∉ seen) (hn : g.parentOf? t = none) :
      FindsFormat g seen t none
  | parent {seen t u r} (hf : t.format = none) (ht : t.key ∉ seen) (hn : g.parentOf? t = some u)
      (rest : FindsFormat g (t.key :: seen) u r) : FindsFormat g seen t r

theorem FindsFormat.unique {seen : List String} {r r' : Option ValueFormat}
    (h : g.FindsFormat seen t r) (h' : g.FindsFormat seen t r') : r = r' := by
  induction h with
  | declared hf => cases h' <;> simp_all
  | repeated hf ht => cases h' <;> simp_all
  | ended hf ht hn => cases h' <;> simp_all
  | parent hf ht hn rest ih =>
      cases h' with
      | declared hf' => simp [hf] at hf'
      | repeated _ ht' => exact absurd ht' ht
      | ended _ _ hn' => simp [hn] at hn'
      | parent _ _ hn' rest' =>
          obtain rfl := Option.some.inj (hn.symm.trans hn')
          exact ih rest'

/-- The types behind have no format, or it would have been found. -/
theorem findsFormat_of_way {met : List SchemaType} (h : Way g.parentOf? met t passed e)
    (ht : t ∈ g.types) (hmet : ∀ u ∈ met, u ∈ g.types) (hnone : ∀ u ∈ met, u.format = none) :
    g.FindsFormat (met.map (·.key)) t ((passed ++ [e.type]).findSome? (·.format)) := by
  induction h with
  | @last met t hm hn =>
      have hout : t.key ∉ met.map (·.key) := fun hin => hm ((key_mem_iff ht hmet).1 hin)
      cases hf : t.format with
      | some f => simpa [WayEnd.type, hf] using FindsFormat.declared hf
      | none => simpa [WayEnd.type, hf] using FindsFormat.ended hf hout hn
  | @again met t hm =>
      have hin : t.key ∈ met.map (·.key) := List.mem_map_of_mem hm
      have hf := hnone t hm
      simpa [WayEnd.type, hf] using FindsFormat.repeated hf hin
  | @step met t u passed e hm hn rest ih =>
      have hout : t.key ∉ met.map (·.key) := fun hin => hm ((key_mem_iff ht hmet).1 hin)
      cases hf : t.format with
      | some f => simpa [hf] using FindsFormat.declared hf
      | none =>
          have hrest := ih (mem_types_of_parentOf? hn) (List.forall_mem_cons.2 ⟨ht, hmet⟩)
            (List.forall_mem_cons.2 ⟨hf, hnone⟩)
          simpa [hf] using FindsFormat.parent hf hout hn hrest

theorem findsFormat_iff (ht : t ∈ g.types) {r : Option ValueFormat} :
    g.FindsFormat [] t r ↔ r = g.inheritedFormat t := by
  obtain ⟨passed, e, h⟩ := exists_parentWay ht
  have hfinds := findsFormat_of_way h ht (by simp) (by simp)
  rw [List.map_nil, ← inheritedFormat_eq ht h] at hfinds
  constructor
  · exact fun hr => hr.unique hfinds
  · rintro rfl
    exact hfinds

/-- Deciding the primitive kind comes to each type of the walk, with the names before it behind. -/
theorem primitiveFrom_of_walk {met before after : List SchemaType} {fuel : Nat}
    (h : Way g.parentOf? met t passed e) (ht : t ∈ g.types) (hmet : ∀ v ∈ met, v ∈ g.types)
    (hu : passed ++ [e.type] = before ++ u :: after) :
    g.primitiveFrom (fuel + before.length) (met.reverse.map (·.key)) t =
      g.primitiveFrom fuel ((met.reverse ++ before).map (·.key)) u := by
  induction h generalizing before with
  | last _ _ | again _ =>
      cases before with
      | nil =>
          obtain rfl := (List.cons.inj hu).1
          simp [WayEnd.type]
      | cons w before => simp at hu
  | @step met t v passed e hm hn rest ih =>
      cases before with
      | nil =>
          obtain rfl := (List.cons.inj hu).1
          simp
      | cons w before =>
          obtain ⟨rfl, hbehind⟩ : t = w ∧ passed ++ [e.type] = before ++ u :: after := by
            simpa using hu
          have hout : t.key ∉ met.reverse.map (·.key) := fun hin =>
            hm (List.mem_reverse.1 ((key_mem_iff ht (by simpa using hmet)).1 hin))
          have hrest := ih (mem_types_of_parentOf? hn) (List.forall_mem_cons.2 ⟨ht, hmet⟩) hbehind
          rw [List.length_cons, ← Nat.add_assoc, primitiveFrom_of_parentOf?_eq_some hn hout]
          simpa using hrest

/-- The format of a type is the first one that is declared on the walk that decides its primitive kind.
There is none if no type on the walk declares one, and looking for it ends in each case. -/
theorem inheritedFormat_of_walk (ht : t ∈ g.types) :
    (∀ r, g.FindsFormat [] t r ↔ r = g.inheritedFormat t) ∧
      ∃ passed e, Way g.parentOf? [] t passed e ∧
        (∀ passed' e', Way g.parentOf? [] t passed' e' → passed' = passed ∧ e' = e) ∧
        (passed.map (·.key)).Nodup ∧ g.Decides passed e (g.primitiveOf t) ∧
        (∀ before u after, passed ++ [e.type] = before ++ u :: after →
          ∃ fuel, g.primitiveOf t = g.primitiveFrom (fuel + 1) (before.map (·.key)) u) ∧
        (∀ f, g.inheritedFormat t = some f ↔ ∃ before u after, passed ++ [e.type] = before ++ u :: after ∧
          u.format = some f ∧ ∀ v ∈ before, v.format = none) ∧
        (g.inheritedFormat t = none ↔ ∀ u ∈ passed ++ [e.type], u.format = none) := by
  obtain ⟨passed, e, h⟩ := exists_parentWay ht
  refine ⟨fun r => findsFormat_iff ht, passed, e, h, fun _ _ h' => h'.unique h,
    nodup_keys_of_way ht h, decides_of_way ht h, fun before u after hu => ?_, fun f => ?_, ?_⟩
  · have hlen := h.length_le (fun _ _ _ => mem_types_of_parentOf?) ht
    have hbefore : before.length ≤ passed.length := by
      have hlength := congrArg List.length hu
      simp at hlength
      omega
    refine ⟨g.types.length + 1 - before.length, ?_⟩
    have hfuel : g.wayLength = g.types.length + 1 - before.length + 1 + before.length := by
      rw [wayLength]
      omega
    rw [primitiveOf, hfuel]
    exact primitiveFrom_of_walk h ht (by simp) hu
  · rw [inheritedFormat_eq ht h, List.findSome?_eq_some_iff]
  · rw [inheritedFormat_eq ht h, List.findSome?_eq_none_iff]

/-! ### A day that is written like a moment -/

/-- A release is a day, a day is a moment, and a moment is a day again. -/
def releaseGraph : TypeGraph :=
  .ofTypes [.ofKind (.ofFull "films.Release") (.scalar [.ofFull "films.Premiere", .ofFull "films.Day"]),
    .ofKind (.ofFull "films.Day") (.scalar [.ofFull "films.Moment"]),
    { SchemaType.ofKind (.ofFull "films.Moment") (.scalar [.ofFull "films.Day"]) with
      format := some ⟨["dd/MM/yyyy"], some 60⟩ }] []

def releaseType : SchemaType :=
  .ofKind (.ofFull "films.Release") (.scalar [.ofFull "films.Premiere", .ofFull "films.Day"])

/-- The walk that finds no primitive kind finds a format. -/
theorem release_format :
    releaseType ∈ releaseGraph.types ∧
      (∀ r, releaseGraph.FindsFormat [] releaseType r ↔ r = some ⟨["dd/MM/yyyy"], some 60⟩) ∧
      ∃ passed e, Way releaseGraph.parentOf? [] releaseType passed e ∧
        releaseGraph.Decides passed e (.error (.cyclicInheritance "films.Day"
          ["films.Release", "films.Day", "films.Moment", "films.Day"])) ∧
        ∃ before u after, passed ++ [e.type] = before ++ u :: after ∧
          u.format = some ⟨["dd/MM/yyyy"], some 60⟩ ∧ ∀ v ∈ before, v.format = none := by
  have ht : releaseType ∈ releaseGraph.types := by
    have hfind : releaseGraph.find? "films.Release" = some releaseType := rfl
    exact List.mem_of_find?_eq_some hfind
  have hformat : releaseGraph.inheritedFormat releaseType = some ⟨["dd/MM/yyyy"], some 60⟩ := rfl
  obtain ⟨hfinds, passed, e, hway, -, -, hdecides, -, hfirst, -⟩ := inheritedFormat_of_walk ht
  rw [hformat] at hfinds
  exact ⟨ht, hfinds, passed, e, hway, hdecides, (hfirst _).1 hformat⟩

end SchemaSnippets.Schema.TypeGraph

import Mathlib.Data.List.Basic
import Mathlib.Data.List.TakeDrop
import SchemaSnippets.Proofs.Schema.ParameterLists

/-!
# The grammar of names

A name is a base, or a base with names in brackets, divided by commas; white space may stand around each
of them. Reading finds exactly the names of the grammar, with one exception: what stands before the first
bracket of the whole text is taken as it is, closing brackets and commas in it too.

* `Denotes cs n` : the text `cs` is the name `n` with white space around it;
* `HasStray cs n` : so it would be, but for a closing bracket or a comma in the base;
* `Denotes.isWhole`, `HasStray.not_isWhole` : only a text of the second kind falls apart inside of brackets,
  so that it is no parameter of a name;
* `parse_eq_ok_iff` : the texts that spell a name;
* `parse_round_trip` : the key of a name that was read spells this name, and no other.
-/

namespace SchemaSnippets.Schema

/-! ## Reading several texts -/

section Several
variable {α β ε : Type} {f : α → Except ε β} {xs : List α} {ys : List β}

theorem bind_eq_ok_iff {x : Except ε α} {y : β} :
    (x >>= f) = .ok y ↔ ∃ a, x = .ok a ∧ f a = .ok y := by
  cases x <;> simp [bind, Except.bind]

theorem mapM_eq_ok_iff :
    xs.mapM f = .ok ys ↔
      ∃ ps : List (α × β), xs = ps.map (·.1) ∧ ys = ps.map (·.2) ∧ ∀ p ∈ ps, f p.1 = .ok p.2 := by
  constructor
  · intro h
    induction xs generalizing ys with
    | nil =>
        obtain rfl := Except.ok.inj h
        exact ⟨[], rfl, rfl, List.forall_mem_nil _⟩
    | cons x xs ih =>
        rw [List.mapM_cons] at h
        obtain ⟨y, hx, h⟩ := bind_eq_ok_iff.1 h
        obtain ⟨zs, hxs, h⟩ := bind_eq_ok_iff.1 h
        obtain rfl := Except.ok.inj h
        obtain ⟨ps, rfl, rfl, hps⟩ := ih hxs
        exact ⟨(x, y) :: ps, rfl, rfl, List.forall_mem_cons.2 ⟨hx, hps⟩⟩
  · rintro ⟨ps, rfl, rfl, hps⟩
    induction ps with
    | nil => rfl
    | cons p ps ih =>
        obtain ⟨hp, hps⟩ := List.forall_mem_cons.1 hps
        rw [List.map_cons, List.mapM_cons, hp, ih hps]
        rfl

end Several

namespace QualifiedName
open Text Unicode

/-! ## The grammar -/

/-- A text without delimiters, and without white space around it. -/
structure IsBase (cs : List Char) : Prop extends IsTrimmed cs where
  plain : ∀ c ∈ cs, c ≠ '<' ∧ c ≠ '>' ∧ c ≠ ','

/-- A base with parameters in brackets. -/
def IsApplied (base : List Char) (ps : List (List Char)) (cs : List Char) : Prop :=
  ps ≠ [] ∧ ∃ between, IsBlank between ∧
    IsPadded (base ++ between ++ ('<' :: [','].intercalate ps ++ ['>'])) cs

/-- The text is the name, with white space around it. -/
inductive Denotes : List Char → QualifiedName → Prop where
  | bare {base cs : List Char} (hbase : IsBase base) (hcs : IsPadded base cs) :
      Denotes cs (ofFull (String.ofList base))
  | applied {base cs : List Char} {ps : List (List Char × QualifiedName)} (hbase : IsBase base)
      (hcs : IsApplied base (ps.map (·.1)) cs) (hps : ∀ p ∈ ps, Denotes p.1 p.2) :
      Denotes cs ((ofFull (String.ofList base)).withParameters (ps.map (·.2)))

/-- A text with parameters like those of a name, whose base has a closing bracket or a comma. -/
inductive HasStray : List Char → QualifiedName → Prop where
  | applied {base cs : List Char} {ps : List (List Char × QualifiedName)} (hbase : IsTrimmed base)
      (hopen : '<' ∉ base) (hstray : '>' ∈ base ∨ ',' ∈ base)
      (hcs : IsApplied base (ps.map (·.1)) cs) (hps : ∀ p ∈ ps, Denotes p.1 p.2) :
      HasStray cs ((ofFull (String.ofList base)).withParameters (ps.map (·.2)))

variable {cs base : List Char} {ps : List (List Char × QualifiedName)} {n : QualifiedName} {fuel : Nat}

theorem IsBase.notMem_open (h : IsBase base) : '<' ∉ base :=
  fun hopen => (h.plain _ hopen).1 rfl

theorem isBase_of_isTrimmed (h : IsTrimmed base) (hopen : '<' ∉ base)
    (hstray : ¬ ('>' ∈ base ∨ ',' ∈ base)) : IsBase base := by
  obtain ⟨hclose, hcomma⟩ := not_or.1 hstray
  refine ⟨h, fun c hc => ⟨?_, ?_, ?_⟩⟩
  · rintro rfl
    exact hopen hc
  · rintro rfl
    exact hclose hc
  · rintro rfl
    exact hcomma hc

/-! ## Names in brackets -/

theorem Denotes.isWhole (h : Denotes cs n) : IsWhole cs := by
  induction h with
  | bare hbase hcs => exact isWhole_of_isPadded (isWhole_of_plain hbase.plain) hcs
  | applied hbase hcs _ ih =>
      obtain ⟨-, between, hbetween, hcs⟩ := hcs
      have hfront := (isWhole_of_plain hbase.plain).append (isWhole_of_isBlank hbetween)
      refine isWhole_of_isPadded (hfront.append (isWhole_brackets ?_)) hcs
      intro q hq
      obtain ⟨p, hp, rfl⟩ := List.mem_map.1 hq
      exact ih p hp

theorem open_notMem_of_isBlank (h : IsBlank cs) : '<' ∉ cs :=
  fun hopen => absurd (h _ hopen) (by decide)

theorem HasStray.not_isWhole (h : HasStray cs n) : ¬ IsWhole cs := by
  cases h with
  | @applied base _ ps hbase hopen hstray hcs hps =>
      obtain ⟨-, between, hbetween, before, after, hbefore, -, rfl⟩ := hcs
      have hopen' : '<' ∉ before ++ base := by
        simp [open_notMem_of_isBlank hbefore, hopen]
      have hstray' : '>' ∈ before ++ base ∨ ',' ∈ before ++ base :=
        hstray.imp (List.mem_append_right _) (List.mem_append_right _)
      have hsplit : ∀ u v, before ++ (base ++ u ++ v) ++ after = before ++ base ++ (u ++ v ++ after) := by
        simp
      rw [hsplit]
      exact not_isWhole_of_stray hopen' hstray'

/-! ## Reading -/

/-- The names of a parameter list. -/
def readList (fuel : Nat) (inner : List Char) : Except NameFault (List QualifiedName) := do
  let closed ← (cutParameters 0 [] inner).closed.mapM (readChars fuel)
  let last ← (cutParameters 0 [] inner).last
  let last ← readChars fuel last
  return closed ++ [last]

/-- A parameter list is read if it is made of whole pieces that are. -/
theorem readList_eq_ok_iff {inner : List Char} {ns : List QualifiedName} :
    readList fuel inner = .ok ns ↔ ∃ ps : List (List Char × QualifiedName), ps ≠ [] ∧
      inner = [','].intercalate (ps.map (·.1)) ∧ ns = ps.map (·.2) ∧
      ∀ p ∈ ps, IsWhole p.1 ∧ readChars fuel p.1 = .ok p.2 := by
  constructor
  · intro h
    obtain ⟨closed, hclosed, h⟩ := bind_eq_ok_iff.1 h
    obtain ⟨last, hlast, h⟩ := bind_eq_ok_iff.1 h
    obtain ⟨n, hn, h⟩ := bind_eq_ok_iff.1 h
    obtain rfl := Except.ok.inj h
    obtain ⟨ps, hps, rfl, hread⟩ := mapM_eq_ok_iff.1 hclosed
    obtain ⟨hinner, hwhole⟩ := intercalate_of_cutParameters rfl hlast
    rw [hps] at hinner hwhole
    obtain ⟨hinit, hlast⟩ := List.forall_mem_append.1 hwhole
    refine ⟨ps ++ [(last, n)], by simp, by simpa using hinner, by simp, ?_⟩
    refine List.forall_mem_append.2 ⟨fun p hp => ⟨?_, hread p hp⟩, List.forall_mem_singleton.2 ⟨?_, hn⟩⟩
    · exact hinit p.1 (List.mem_map_of_mem hp)
    · exact hlast last (List.mem_singleton_self last)
  · rintro ⟨ps, hne, rfl, rfl, hps⟩
    -- the last parameter is the piece that no comma ends
    obtain ⟨init, last, rfl⟩ := (List.eq_nil_or_concat' ps).resolve_left hne
    obtain ⟨hinit, hlast⟩ := List.forall_mem_append.1 hps
    obtain ⟨-, hlast⟩ := List.forall_mem_singleton.1 hlast
    have hcut : cutParameters 0 [] ([','].intercalate ((init ++ [last]).map (·.1))) =
        ⟨init.map (·.1), .ok last.1⟩ := by
      rw [List.map_append]
      refine cutParameters_intercalate fun q hq => ?_
      rw [← List.map_singleton, ← List.map_append] at hq
      obtain ⟨p, hp, rfl⟩ := List.mem_map.1 hq
      exact (hps p hp).1
    have hread : (init.map (·.1)).mapM (readChars fuel) = .ok (init.map (·.2)) :=
      mapM_eq_ok_iff.2 ⟨init, rfl, rfl, fun p hp => (hinit p hp).2⟩
    unfold readList
    rw [hcut]
    refine bind_eq_ok_iff.2 ⟨_, hread, bind_eq_ok_iff.2 ⟨_, rfl, bind_eq_ok_iff.2 ⟨_, hlast, ?_⟩⟩⟩
    rw [List.map_append]
    rfl

theorem readChars_of_notMem (hopen : '<' ∉ trimChars cs) :
    readChars (fuel + 1) cs =
      if (trimChars cs).any fun c => c == '>' || c == ',' then .error .strayDelimiter
      else if (trimChars cs).isEmpty then .error .empty
      else .ok (ofFull (String.ofList (trimChars cs))) := by
  have hspan : (trimChars cs).span (· != '<') = (trimChars cs, []) := by
    have hplain : ∀ c ∈ trimChars cs, (c != '<') = true :=
      fun c hc => bne_iff_ne.2 (ne_of_mem_of_not_mem hc hopen)
    rw [List.span_eq_takeWhile_dropWhile, List.takeWhile_eq_self_iff.2 hplain,
      List.dropWhile_eq_nil_iff.2 hplain]
  simp only [readChars, hspan]
  rfl

theorem readChars_of_open {front tail : List Char} (hopen : '<' ∉ front)
    (htrim : trimChars cs = front ++ '<' :: tail) :
    readChars (fuel + 1) cs =
      if tail.getLast? ≠ some '>' then .error .unclosed
      else if (trimChars front).isEmpty then .error .empty
      else do
        let ns ← readList fuel tail.dropLast
        return (ofFull (String.ofList (trimChars front))).withParameters ns := by
  have hspan : (front ++ '<' :: tail).span (· != '<') = (front, '<' :: tail) := by
    have hfront : ∀ c ∈ front, (c != '<') = true :=
      fun c hc => bne_iff_ne.2 (ne_of_mem_of_not_mem hc hopen)
    rw [List.span_eq_takeWhile_dropWhile, List.takeWhile_append_of_pos hfront,
      List.dropWhile_append_of_pos hfront]
    simp
  simp only [readChars, htrim, hspan, readList, bind_assoc, pure_bind]
  split
  · rfl
  · split
    · rfl
    · rfl

theorem isTrimmed_brackets {between inner : List Char} (hbase : IsTrimmed base) :
    IsTrimmed (base ++ between ++ ('<' :: inner ++ ['>'])) := by
  obtain ⟨c, rest, rfl⟩ := List.exists_cons_of_ne_nil hbase.ne_nil
  refine ⟨by simp, ?_, ?_⟩
  · intro d hd
    exact hbase.head d hd
  · intro d hd
    rw [← List.append_assoc, List.getLast?_concat] at hd
    obtain rfl := Option.some.inj hd
    decide

theorem readChars_of_isPadded (hbase : IsBase base) (hcs : IsPadded base cs) :
    readChars (fuel + 1) cs = .ok (ofFull (String.ofList base)) := by
  have htrim := trimChars_of_isPadded hbase.toIsTrimmed hcs
  have hplain : (base.any fun c => c == '>' || c == ',') = false := by
    rw [List.any_eq_false]
    intro c hc
    simp [(hbase.plain c hc).2]
  have hne : base.isEmpty = false := List.isEmpty_eq_false_iff.2 hbase.ne_nil
  rw [readChars_of_notMem (htrim ▸ hbase.notMem_open), htrim, hplain, hne]
  rfl

theorem readChars_of_isApplied (hbase : IsTrimmed base) (hopen : '<' ∉ base)
    (hcs : IsApplied base (ps.map (·.1)) cs)
    (hps : ∀ p ∈ ps, IsWhole p.1 ∧ readChars fuel p.1 = .ok p.2) :
    readChars (fuel + 1) cs = .ok ((ofFull (String.ofList base)).withParameters (ps.map (·.2))) := by
  obtain ⟨hne, between, hbetween, hcs⟩ := hcs
  have hfront : trimChars (base ++ between) = base :=
    trimChars_of_isPadded hbase ⟨[], between, isBlank_nil, hbetween, rfl⟩
  have hopen' : '<' ∉ base ++ between := by
    simp [open_notMem_of_isBlank hbetween, hopen]
  have htrim := trimChars_of_isPadded (isTrimmed_brackets hbase) hcs
  have hread := readList_eq_ok_iff.2 ⟨ps, by simpa using hne, rfl, rfl, hps⟩
  rw [readChars_of_open hopen' htrim, hfront]
  simp [hread, hbase.ne_nil]

theorem isBase_of_readChars (hopen : '<' ∉ trimChars cs) (h : readChars (fuel + 1) cs = .ok n) :
    IsBase (trimChars cs) ∧ n = ofFull (String.ofList (trimChars cs)) := by
  rw [readChars_of_notMem hopen] at h
  split at h
  · cases h
  · rename_i hplain
    split at h
    · cases h
    · rename_i hne
      have htrimmed := isTrimmed_trimChars fun hnil => hne (List.isEmpty_iff.2 hnil)
      refine ⟨isBase_of_isTrimmed htrimmed hopen ?_, (Except.ok.inj h).symm⟩
      rintro (hclose | hcomma)
      · exact hplain (List.any_eq_true.2 ⟨_, hclose, rfl⟩)
      · exact hplain (List.any_eq_true.2 ⟨_, hcomma, rfl⟩)

theorem isApplied_of_readChars (hopen : '<' ∈ trimChars cs) (h : readChars (fuel + 1) cs = .ok n) :
    ∃ base, ∃ ps : List (List Char × QualifiedName), IsTrimmed base ∧ '<' ∉ base ∧
      IsApplied base (ps.map (·.1)) cs ∧ (∀ p ∈ ps, IsWhole p.1 ∧ readChars fuel p.1 = .ok p.2) ∧
      n = (ofFull (String.ofList base)).withParameters (ps.map (·.2)) := by
  obtain ⟨front, tail, htrim, hfront⟩ := List.eq_append_cons_of_mem hopen
  rw [readChars_of_open hfront htrim] at h
  split at h
  · cases h
  · rename_i hlast
    split at h
    · cases h
    · rename_i hbase
      obtain ⟨ns, hns, h⟩ := bind_eq_ok_iff.1 h
      obtain rfl := Except.ok.inj h
      obtain ⟨ps, hne, hinner, rfl, hps⟩ := readList_eq_ok_iff.1 hns
      have htrimmed := isTrimmed_trimChars fun hnil => hbase (List.isEmpty_iff.2 hnil)
      have htail : tail = [','].intercalate (ps.map (·.1)) ++ ['>'] := by
        rw [← hinner]
        exact (List.dropLast_append_getLast? _ (not_not.1 hlast)).symm
      -- white space before the base stands before the text, and what is behind it before the bracket
      obtain ⟨before, between, hbefore, hbetween, hsplit⟩ := isPadded_trimChars front
      obtain ⟨before', after, hbefore', hafter, hcs⟩ := isPadded_trimChars cs
      refine ⟨trimChars front, ps, htrimmed, fun hmem => hfront ?_, ⟨by simpa using hne, between, hbetween, ?_⟩,
        hps, rfl⟩
      · rw [hsplit]
        simp [hmem]
      · refine ⟨before' ++ before, after, hbefore'.append hbefore, hafter, ?_⟩
        calc cs = before' ++ trimChars cs ++ after := hcs
          _ = before' ++ (front ++ '<' :: tail) ++ after := by rw [htrim]
          _ = before' ++ (before ++ trimChars front ++ between ++
                '<' :: ([','].intercalate (ps.map (·.1)) ++ ['>'])) ++ after := by rw [← hsplit, htail]
          _ = _ := by simp

theorem length_le_intercalate {qs : List (List Char)} {q : List Char} (h : q ∈ qs) :
    q.length ≤ ([','].intercalate qs).length := by
  induction qs with
  | nil => cases h
  | cons q' qs ih =>
      obtain rfl | ⟨hne, hq⟩ : q = q' ∨ qs ≠ [] ∧ q ∈ qs :=
        (List.mem_cons.1 h).imp_right fun hq => ⟨List.ne_nil_of_mem hq, hq⟩
      · cases qs with
        | nil => simp
        | cons => simp [List.intercalate_cons_cons]
      · have hle := ih hq
        rw [List.intercalate_cons_of_ne_nil hne]
        simp
        omega

theorem denotes_or_hasStray (h : readChars fuel cs = .ok n) : Denotes cs n ∨ HasStray cs n := by
  induction fuel generalizing cs n with
  | zero => cases h
  | succ fuel ih =>
      by_cases hopen : '<' ∈ trimChars cs
      · obtain ⟨base, ps, hbase, hnotMem, hcs, hps, rfl⟩ := isApplied_of_readChars hopen h
        -- what is cut from a parameter list is whole
        have hdenotes : ∀ p ∈ ps, Denotes p.1 p.2 := fun p hp =>
          (ih (hps p hp).2).resolve_right fun hstray => hstray.not_isWhole (hps p hp).1
        by_cases hstray : '>' ∈ base ∨ ',' ∈ base
        · exact .inr (.applied hbase hnotMem hstray hcs hdenotes)
        · exact .inl (.applied (isBase_of_isTrimmed hbase hnotMem hstray) hcs hdenotes)
      · obtain ⟨hbase, rfl⟩ := isBase_of_readChars hopen h
        exact .inl (.bare hbase (isPadded_trimChars cs))

theorem length_lt_of_isApplied {qs : List (List Char)} {q : List Char} (h : IsApplied base qs cs)
    (hq : q ∈ qs) : q.length < cs.length := by
  obtain ⟨-, between, -, before, after, -, -, rfl⟩ := h
  have hle := length_le_intercalate hq
  simp
  omega

theorem Denotes.readChars_eq (h : Denotes cs n) (hfuel : cs.length < fuel) :
    readChars fuel cs = .ok n := by
  induction h generalizing fuel with
  | bare hbase hcs =>
      obtain ⟨k, rfl⟩ := Nat.exists_eq_add_of_lt hfuel
      exact readChars_of_isPadded hbase hcs
  | applied hbase hcs hps ih =>
      obtain ⟨k, rfl⟩ := Nat.exists_eq_add_of_lt hfuel
      -- the fuel that is left is enough for a parameter, which is shorter than the text
      refine readChars_of_isApplied hbase.toIsTrimmed hbase.notMem_open hcs fun p hp => ?_
      have hlt := length_lt_of_isApplied hcs (List.mem_map_of_mem hp)
      exact ⟨(hps p hp).isWhole, ih p hp (by omega)⟩

theorem HasStray.readChars_eq (h : HasStray cs n) (hfuel : cs.length < fuel) :
    readChars fuel cs = .ok n := by
  obtain ⟨hbase, hopen, -, hcs, hps⟩ := h
  obtain ⟨k, rfl⟩ := Nat.exists_eq_add_of_lt hfuel
  refine readChars_of_isApplied hbase hopen hcs fun p hp => ?_
  have hlt := length_lt_of_isApplied hcs (List.mem_map_of_mem hp)
  exact ⟨(hps p hp).isWhole, (hps p hp).readChars_eq (by omega)⟩

theorem readChars_eq_ok_iff (hfuel : cs.length < fuel) :
    readChars fuel cs = .ok n ↔ Denotes cs n ∨ HasStray cs n :=
  ⟨denotes_or_hasStray, fun h => h.elim (·.readChars_eq hfuel) (·.readChars_eq hfuel)⟩

/-! ## Texts that spell a name -/

variable {s : String}

theorem parse_eq_ok : parse s = .ok n ↔ readChars (s.toList.length + 1) s.toList = .ok n := by
  unfold parse
  split <;> simp [*]

/-- A text is read if it is a name of the grammar, or would be but for its outermost base. -/
theorem parse_eq_ok_iff :
    parse s = .ok n ↔ Denotes s.toList n ∨ HasStray s.toList n := by
  rw [parse_eq_ok, readChars_eq_ok_iff (Nat.lt_succ_self _)]

/-- A base that stands alone is refused for a closing bracket. -/
example : parse "a>b" = .error ⟨"a>b", .strayDelimiter⟩ := by rfl

/-- The same base is read in front of parameters, though no name of the grammar has it. -/
theorem stray_close_read :
    parse "a>b<c>" = .ok ⟨"a>b", "", "a>b", [⟨"c", "", "c", []⟩]⟩ ∧
      ¬ ∃ n, Denotes "a>b<c>".toList n := by
  refine ⟨by rfl, fun ⟨n, h⟩ => ?_⟩
  have hnone : depthAfter? 0 "a>b<c>".toList = none := by rfl
  exact absurd (hnone.symm.trans h.isWhole) (by simp)

/-! ## Keys -/

theorem full_ofFull (full : String) : (ofFull full).full = full := by
  unfold ofFull
  split <;> rfl

theorem key_ofFull (full : String) : (ofFull full).key = full := by
  unfold ofFull
  split <;> rfl

theorem toList_key_withParameters (full : String) {ns : List QualifiedName} (hne : ns ≠ []) :
    ((ofFull full).withParameters ns).key.toList =
      full.toList ++ ('<' :: [','].intercalate (ns.map (·.key.toList)) ++ ['>']) := by
  have hkey : ((ofFull full).withParameters ns).key =
      full ++ "<" ++ ",".intercalate (ns.map key) ++ ">" := by
    simp [withParameters, key, hne, full_ofFull, keys_eq_map]
  have hcomma : ",".toList = [','] := rfl
  rw [hkey, String.toList_append, String.toList_append, String.toList_append, String.toList_intercalate,
    hcomma, List.map_map]
  simp
  rfl

/-- A name, spelled by its key. -/
def spelled (n : QualifiedName) : List Char × QualifiedName := (n.key.toList, n)

theorem map_snd_spelled (ns : List QualifiedName) : (ns.map spelled).map (·.2) = ns := by
  rw [List.map_map]
  exact List.map_id ns

theorem isApplied_key {ns : List QualifiedName} (hne : ns ≠ []) :
    IsApplied base ((ns.map spelled).map (·.1))
      ((ofFull (String.ofList base)).withParameters ns).key.toList := by
  refine ⟨by simpa using hne, [], isBlank_nil, ?_⟩
  rw [toList_key_withParameters _ hne, String.toList_ofList, List.map_map, List.append_nil]
  exact IsPadded.refl _

theorem denotes_spelled (h : ∀ p ∈ ps, Denotes p.2.key.toList p.2) :
    ∀ p ∈ (ps.map (·.2)).map spelled, Denotes p.1 p.2 := by
  rw [List.map_map]
  exact List.forall_mem_map.2 h

theorem Denotes.key (h : Denotes cs n) : Denotes n.key.toList n := by
  induction h with
  | bare hbase _ =>
      rw [key_ofFull, String.toList_ofList]
      exact .bare hbase (.refl _)
  | @applied base cs ps hbase hcs _ ih =>
      have hne : ps.map (·.2) ≠ [] := by simpa using hcs.1
      have happlied := Denotes.applied hbase (isApplied_key hne) (denotes_spelled ih)
      rwa [map_snd_spelled] at happlied

theorem HasStray.key (h : HasStray cs n) : HasStray n.key.toList n := by
  obtain @⟨base, _, ps, hbase, hopen, hstray, hcs, hps⟩ := h
  have hne : ps.map (·.2) ≠ [] := by simpa using hcs.1
  have hkeys := denotes_spelled fun p hp => (hps p hp).key
  have happlied := HasStray.applied hbase hopen hstray (isApplied_key hne) hkeys
  rwa [map_snd_spelled] at happlied

theorem parse_key (h : parse s = .ok n) : parse n.key = .ok n := by
  rw [parse_eq_ok, readChars_eq_ok_iff (Nat.lt_succ_self _)] at h ⊢
  exact h.imp Denotes.key HasStray.key

/-- A name that was read is told by its key. -/
theorem parse_round_trip (h : parse s = .ok n) :
    parse n.key = .ok n ∧ ∀ s' n', parse s' = .ok n' → n'.key = n.key → n' = n := by
  refine ⟨parse_key h, fun s' n' h' hkey => ?_⟩
  have hkey' := parse_key h'
  rw [hkey, parse_key h] at hkey'
  exact (Except.ok.inj hkey').symm

def filmsByKey : QualifiedName :=
  ⟨"lang.taxi.Map", "lang.taxi", "Map",
    [⟨"films.Key", "films", "Key", []⟩,
      ⟨"lang.taxi.Array", "lang.taxi", "Array", [⟨"films.Film", "films", "Film", []⟩]⟩]⟩

theorem filmsByKey_round_trip :
    parse " lang.taxi.Map <films.Key\t,\n lang.taxi.Array< films.Film > > " = .ok filmsByKey ∧
      parse "lang.taxi.Map<films.Key,lang.taxi.Array<films.Film>>" = .ok filmsByKey := by
  have hread : parse " lang.taxi.Map <films.Key\t,\n lang.taxi.Array< films.Film > > " =
      .ok filmsByKey := by rfl
  exact ⟨hread, (parse_round_trip hread).1⟩

end QualifiedName
end SchemaSnippets.Schema

import SchemaSnippets.Proofs.Target.Rust.Items
import SchemaSnippets.Proofs.Target.Rust.LegalNames

/-!
# Names told apart

Each name becomes an entry of a list without repetition. A name that comes first keeps its text unless a
number made this text before, and all others get the first number that is free.

* `firstFree_of_zip` : an entry is the first free one behind the entries before it;
* `eq_iff_notMem_entries` : a name is kept if no entry before it has its text;
* `Unclaimed name before` : no name before is the same, and none was given its text with a number;
  `notMem_entries_iff` : this is all that keeps a text free;
* `tellApart_distinct` : what becomes of each name.
-/

namespace SchemaSnippets.Target.Rust
open Data

variable {taken names : List String} {separator name entry : String}
  {before after : List (String × String)}

/-- What is taken for an entry are the entries before it. -/
theorem firstFree_of_zip
    (h : names.zip (tellApartFrom taken separator names) = before ++ (name, entry) :: after) :
    FirstFree ((before.map Prod.snd).reverse ++ taken) name
      (fun i => withoutMark name ++ separator ++ toString i) entry := by
  induction names generalizing taken before with
  | nil => exact absurd h.symm (List.append_ne_nil_of_right_ne_nil before (List.cons_ne_nil _ _))
  | cons n ns ih =>
      rw [tellApartFrom, List.zip_cons_cons] at h
      cases before with
      | nil =>
          obtain ⟨rfl, rfl⟩ := Prod.mk.inj (List.cons.inj h).1
          exact firstFree_freshName (numbered_injective _) taken n
      | cons b bs =>
          obtain ⟨rfl, hrest⟩ := List.cons.inj h
          have hentry := ih hrest
          rwa [List.append_cons, ← List.reverse_cons] at hentry

section Entries
variable (h : names.zip (tellApart names separator) = before ++ (name, entry) :: after)
include h

theorem firstFree_entries : FirstFree (before.map Prod.snd).reverse name
    (fun i => withoutMark name ++ separator ++ toString i) entry := by
  have hfree := firstFree_of_zip h
  rwa [List.append_nil] at hfree

/-- A name is kept exactly if its text is free. -/
theorem eq_iff_notMem_entries : entry = name ↔ name ∉ before.map Prod.snd := by
  rw [← List.mem_reverse]
  cases firstFree_entries h with
  | own hbase => exact iff_of_true rfl hbase
  | suffixed hbase hfree _ =>
      refine iff_of_false (fun heq => ?_) (not_not_intro hbase)
      rw [heq] at hfree
      exact hfree hbase

/-- Otherwise it gets the first number that makes it free. -/
theorem exists_number_of_ne (hne : entry ≠ name) :
    ∃ n ≥ 2, entry = withoutMark name ++ separator ++ toString n ∧
      ∀ k, 2 ≤ k → k < n → withoutMark name ++ separator ++ toString k ∈ before.map Prod.snd := by
  cases firstFree_entries h with
  | own _ => exact absurd rfl hne
  | @suffixed i _ _ hfirst =>
      refine ⟨i + 2, Nat.le_add_left 2 i, rfl, fun k hk hlt => ?_⟩
      obtain ⟨j, rfl⟩ := Nat.exists_eq_add_of_le' hk
      exact List.mem_reverse.1 (hfirst j (Nat.lt_of_add_lt_add_right hlt))

/-- No name before is the same, and no name before was given the text of this one with a number. -/
def Unclaimed (name : String) (before : List (String × String)) : Prop :=
  name ∉ before.map Prod.fst ∧ ¬ ∃ other, other ≠ name ∧ (other, name) ∈ before

omit h in
/-- The text of a name is taken from the first time on that the name comes up, by the name itself or by an
entry before it. -/
theorem mem_entries_of_mem_names
    (hzip : names.zip (tellApart names separator) = before ++ after)
    (hmem : name ∈ before.map Prod.fst) : name ∈ before.map Prod.snd := by
  obtain ⟨⟨n, e⟩, he, rfl⟩ := List.mem_map.1 hmem
  obtain ⟨earlier, later, rfl⟩ := List.append_of_mem he
  rw [List.append_assoc, List.cons_append] at hzip
  by_cases heq : e = n
  · exact List.mem_map.2 ⟨(n, e), he, heq⟩
  · have htaken := mt (eq_iff_notMem_entries hzip).2 heq
    rw [not_not] at htaken
    rw [List.map_append]
    exact List.mem_append_left _ htaken

theorem notMem_entries_iff : name ∉ before.map Prod.snd ↔ Unclaimed name before := by
  constructor
  · intro hfree
    refine ⟨fun hmem => hfree (mem_entries_of_mem_names h hmem), ?_⟩
    rintro ⟨other, -, hmem⟩
    exact hfree (List.mem_map.2 ⟨_, hmem, rfl⟩)
  · rintro ⟨hnew, hclaimed⟩ hmem
    obtain ⟨⟨other, e⟩, he, rfl⟩ := List.mem_map.1 hmem
    refine hclaimed ⟨other, ?_, he⟩
    rintro rfl
    exact hnew (List.mem_map.2 ⟨_, he, rfl⟩)

end Entries

/-- The names told apart are as many as the names, and all different. Of each name with its entry: it is kept
unless it came before or a number gave its text to another name before; then it gets, without its mark, the
first number from two on that makes it free, so the search for a number ends. -/
theorem tellApart_distinct (names : List String) (separator : String) :
    (tellApart names separator).length = names.length ∧ (tellApart names separator).Nodup ∧
    ∀ before name entry after,
      names.zip (tellApart names separator) = before ++ (name, entry) :: after →
      (entry = name ↔ Unclaimed name before) ∧
      (entry ≠ name → ∃ n ≥ 2, entry = withoutMark name ++ separator ++ toString n ∧
        ∀ k, 2 ≤ k → k < n →
          withoutMark name ++ separator ++ toString k ∈ before.map Prod.snd) := by
  refine ⟨length_tellApartFrom [] separator names, (nodup_tellApartFrom separator [] names).1, ?_⟩
  intro before name entry after h
  exact ⟨(eq_iff_notMem_entries h).trans (notMem_entries_iff h), exists_number_of_ne h⟩

/-- A number gave the text of the last name to the one before, although that name is not repeated. -/
theorem filmId_renamed :
    ["film_id", "film_id", "film_id_2"].zip (tellApart ["film_id", "film_id", "film_id_2"] "_") =
      [("film_id", "film_id"), ("film_id", "film_id_2")] ++ ("film_id_2", "film_id_2_2") :: [] ∧
    ¬ Unclaimed "film_id_2" [("film_id", "film_id"), ("film_id", "film_id_2")] ∧
    ∃ n ≥ 2, "film_id_2_2" = withoutMark "film_id_2" ++ "_" ++ toString n := by
  have hzip : ["film_id", "film_id", "film_id_2"].zip
      (tellApart ["film_id", "film_id", "film_id_2"] "_") =
      [("film_id", "film_id"), ("film_id", "film_id_2")] ++ ("film_id_2", "film_id_2_2") :: [] := by
    decide +kernel
  obtain ⟨hkept, hnumber⟩ :=
    (tellApart_distinct ["film_id", "film_id", "film_id_2"] "_").2.2 _ _ _ _ hzip
  have hne : "film_id_2_2" ≠ "film_id_2" := by decide
  obtain ⟨n, hn, hentry, -⟩ := hnumber hne
  exact ⟨hzip, mt hkept.2 hne, n, hn, hentry⟩

end SchemaSnippets.Target.Rust

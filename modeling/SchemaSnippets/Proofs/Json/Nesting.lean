import Mathlib.Data.List.Nodup
import SchemaSnippets.Json.Slots

/-!
# Nesting and members of documents

* `nesting` : how many arrays and objects stand inside each other;
* `IsReadableByNesting d` : the nesting of the document is all that its reading depends on; so it is for
  texts, and for what is made of such documents;
* `lookup_eq_some_iff` : what stands for a key, where no key stands twice; `isSingle_split_iff` : when a
  member is the only one with its key.
-/

namespace SchemaSnippets.Json.Document

/-! ## Nesting -/

mutual

/-- How many arrays and objects stand inside each other. -/
def nesting : Document → Nat
  | .array items => nestingOfItems items + 1
  | .object members => nestingOfMembers members + 1
  | _ => 0

def nestingOfItems : List Document → Nat
  | [] => 0
  | d :: ds => max d.nesting (nestingOfItems ds)

def nestingOfMembers : List (Option String × Document) → Nat
  | [] => 0
  | (_, d) :: ms => max d.nesting (nestingOfMembers ms)

end

variable {items : List Document} {members : List (Option String × Document)} {depth : Nat} {key : String}
  {d : Document}

theorem nestingOfItems_le_iff : nestingOfItems items ≤ depth ↔ ∀ d ∈ items, d.nesting ≤ depth := by
  induction items with
  | nil => exact iff_of_true (Nat.zero_le depth) (List.forall_mem_nil _)
  | cons d ds ih => rw [nestingOfItems, Nat.max_le, ih, List.forall_mem_cons]

theorem nestingOfMembers_le_iff :
    nestingOfMembers members ≤ depth ↔ ∀ m ∈ members, m.2.nesting ≤ depth := by
  induction members with
  | nil => exact iff_of_true (Nat.zero_le depth) (List.forall_mem_nil _)
  | cons m ms ih => rw [nestingOfMembers, Nat.max_le, ih, List.forall_mem_cons]

/-- The nesting of a document is all that its reading depends on. -/
def IsReadableByNesting (d : Document) : Prop :=
  ∀ depth, d.isReadable depth ↔ d.nesting ≤ depth

theorem isReadableByNesting_text (s : String) : IsReadableByNesting (.string (some s)) :=
  fun depth => iff_of_true (by cases depth <;> rfl) (Nat.zero_le depth)

theorem isReadableByNesting_array (h : ∀ d ∈ items, IsReadableByNesting d) :
    IsReadableByNesting (.array items) := by
  intro depth
  cases depth with
  | zero => exact iff_of_false Bool.false_ne_true (Nat.not_succ_le_zero _)
  | succ depth =>
      rw [isReadable, List.all_eq_true, nesting, Nat.succ_le_succ_iff, nestingOfItems_le_iff]
      exact forall₂_congr fun d hd => h d hd depth

theorem isReadableByNesting_object (h : ∀ m ∈ members, m.1.isSome ∧ IsReadableByNesting m.2) :
    IsReadableByNesting (.object members) := by
  intro depth
  cases depth with
  | zero => exact iff_of_false Bool.false_ne_true (Nat.not_succ_le_zero _)
  | succ depth =>
      rw [isReadable, List.all_eq_true, nesting, Nat.succ_le_succ_iff, nestingOfMembers_le_iff]
      refine forall₂_congr fun m hm => ?_
      rw [Bool.and_eq_true, (h m hm).2 depth]
      exact and_iff_right (h m hm).1

/-! ## Members with different keys -/

theorem mem_of_lookup (h : lookup key members = some d) : (some key, d) ∈ members := by
  obtain ⟨⟨key', d'⟩, hfind, rfl⟩ := Option.map_eq_some_iff.1 h
  obtain rfl : key' = some key := by simpa using List.find?_some hfind
  exact List.mem_of_find?_eq_some hfind

theorem lookup_eq_some_iff (hnodup : (members.map (·.1)).Nodup) :
    lookup key members = some d ↔ (some key, d) ∈ members := by
  refine ⟨mem_of_lookup, fun hmem => ?_⟩
  have hfind : (members.find? (·.1 == some key)).isSome :=
    List.find?_isSome.2 ⟨_, hmem, beq_self_eq_true (some key)⟩
  obtain ⟨m, hm⟩ := Option.isSome_iff_exists.1 hfind
  have hlookup : lookup key members = some m.2 := by rw [lookup, hm, Option.map_some]
  have hsame := List.inj_on_of_nodup_map hnodup (mem_of_lookup hlookup) hmem rfl
  rw [hlookup, (Prod.mk.inj hsame).2]

theorem isSingle_of_nodup (hnodup : (members.map (·.1)).Nodup) : isSingle members key := by
  have hcount := List.nodup_iff_count_le_one.1 hnodup (some key)
  rw [List.count_eq_countP, List.countP_map, List.countP_eq_length_filter] at hcount
  exact decide_eq_true hcount

/-- A key with a member stands once if no other member has it. -/
theorem isSingle_split_iff {before after : List (Option String × Document)} :
    isSingle (before ++ (some key, d) :: after) key ↔ ∀ m ∈ before ++ after, m.1 ≠ some key := by
  have hnone : ∀ ms : List (Option String × Document),
      (ms.filter (·.1 == some key)).length = 0 ↔ ∀ m ∈ ms, m.1 ≠ some key := by
    intro ms
    rw [List.length_eq_zero_iff, List.filter_eq_nil_iff]
    simp only [beq_iff_eq, ne_eq]
  rw [isSingle, decide_eq_true_iff, List.filter_append, List.length_append,
    List.filter_cons_of_pos (by simp), List.length_cons, List.forall_mem_append, ← hnone, ← hnone]
  omega

end SchemaSnippets.Json.Document

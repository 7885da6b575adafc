/-!
# Entries, ordered sets and fresh names

Finite maps as lists of entries with distinct keys, kept in the order of first use or of the keys,
and finite sets of texts as sorted lists.

* `setEntry`: a known key keeps its place, a new key goes to the end.
* `insertEntry`: the keys stay sorted.
* `insertSorted`: a sorted list of texts without repetition.
* `freshName`: a name that is taken gets a number, counting from two, that makes it free. Among one
  number more than there are taken names some numbered name is free, so the search ends.
-/

namespace SchemaSnippets.Data
variable {κ α : Type} [DecidableEq κ]

/-- The entries with the value of `key` set: in place if it is there, at the end otherwise. -/
def setEntry (key : κ) (value : α) : List (κ × α) → List (κ × α)
  | [] => [(key, value)]
  | (k, v) :: rest => if key = k then (key, value) :: rest else (k, v) :: setEntry key value rest

/-- The entries with the value of `key` set, in the order of the keys. -/
def insertEntry (key : String) (value : α) : List (String × α) → List (String × α)
  | [] => [(key, value)]
  | (k, v) :: rest =>
    if key < k then (key, value) :: (k, v) :: rest
    else if key = k then (key, value) :: rest
    else (k, v) :: insertEntry key value rest

/-- The sorted texts with `s` among them. -/
def insertSorted (s : String) : List String → List String
  | [] => [s]
  | t :: rest => if s < t then s :: t :: rest else if s = t then t :: rest else t :: insertSorted s rest

theorem lookup_cons_eq_ite (k key : κ) (value : α) (es : List (κ × α)) :
    ((key, value) :: es).lookup k = if k = key then some value else es.lookup k := by
  by_cases h : k = key
  · simp [h]
  · simp [List.lookup_cons, beq_eq_false_iff_ne.2 h, h]

theorem lookup_setEntry (key k : κ) (value : α) (es : List (κ × α)) :
    (setEntry key value es).lookup k = if k = key then some value else es.lookup k := by
  induction es with
  | nil => simp [setEntry, lookup_cons_eq_ite]
  | cons e es ih => grind [setEntry, lookup_cons_eq_ite]

theorem mem_insertSorted (s t : String) (ts : List String) :
    t ∈ insertSorted s ts ↔ t = s ∨ t ∈ ts := by
  induction ts with
  | nil => simp [insertSorted]
  | cons u us ih => grind [insertSorted]

/-! ## Fresh names -/

/-- `base` if it is free, else the first of `numbered 2`, `numbered 3`, … that is free. -/
def freshName (taken : List String) (base : String) (numbered : Nat → String) : String :=
  if base ∈ taken then
    (((List.range (taken.length + 1)).map fun i => numbered (i + 2)).find? (· ∉ taken)).getD base
  else base

theorem freshName_of_notMem {taken : List String} {base : String} (numbered : Nat → String)
    (h : base ∉ taken) : freshName taken base numbered = base := by
  simp [freshName, h]

end SchemaSnippets.Data

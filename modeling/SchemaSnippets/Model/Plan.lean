import SchemaSnippets.Schema.Graph

/-!
# Plans

A plan lists what a snippet declares for a type: every record and enumeration that can be reached
from it, each after those that its members lead to, and a place for every name that resolves to
nothing. It is built by walking the graph depth first.

* `Plan.build`: the plan of a type.
* `visit`: one step of the walk. `path` holds the keys of the types being visited, so a type on it is
  met while it is still open; meeting an open record is a recursive reference.
-/

namespace SchemaSnippets.Model
open Schema

/-- One place in a plan. -/
inductive PlanItem where
  | declare (type : SchemaType)
  | missing (name : String) (referrer : Option String)

/-- A reference from one declaration to another that encloses it, both given by key. -/
structure BackReference where
  source : String
  target : String
deriving DecidableEq, Repr

/-- Declarations in the order of their dependencies. -/
structure Plan where
  entries : List PlanItem
  recursive : List BackReference
  /-- What is wrong with the schema: the names that resolve to nothing. -/
  errors : List SchemaError

namespace PlanItem

/-- The type that is declared here. -/
def declared? : PlanItem → Option SchemaType
  | .declare t => some t
  | .missing _ _ => none

/-- The name that is missing here. -/
def missing? : PlanItem → Option String
  | .declare _ => none
  | .missing name _ => some name

end PlanItem

namespace Plan

/-- The declared types, in order. -/
def declarations (p : Plan) : List SchemaType :=
  p.entries.filterMap (·.declared?)

/-- The names that resolve to nothing, in order. -/
def missingNames (p : Plan) : List String :=
  p.entries.filterMap (·.missing?)

/-- The key of the declaration in which a missing name was first met. -/
def referrer? (p : Plan) (name : String) : Option String :=
  (p.entries.findSome? fun
    | .missing n r => if n = name then some r else none
    | .declare _ => none).join

end Plan

/-- A walk in progress: the plan so far and the keys of the types that are done with. -/
structure Walk where
  plan : Plan
  done : List String

namespace Walk

def start : Walk := ⟨⟨[], [], []⟩, []⟩

def add (w : Walk) (e : PlanItem) : Walk :=
  { w with plan := { w.plan with entries := w.plan.entries ++ [e] } }

def addRecursive (w : Walk) (r : BackReference) : Walk :=
  { w with plan := { w.plan with recursive := w.plan.recursive ++ [r] } }

def addError (w : Walk) (e : SchemaError) : Walk :=
  { w with plan := { w.plan with errors := w.plan.errors ++ [e] } }

def finish (w : Walk) (key : String) : Walk :=
  { w with done := key :: w.done }

/-- A name that resolves to nothing gets a place the first time it is met. -/
def miss (w : Walk) (e : SchemaError) (referrer : Option String) : Walk :=
  if e.subject ∈ w.plan.missingNames then w
  else (w.add (.missing e.subject referrer)).addError e

/-- A type is met while it is open. Only a record can enclose what refers to it. -/
def meetOpen (w : Walk) (t : SchemaType) (referrer : Option String) : Walk :=
  match referrer with
  | some source => if t.kind.isRecord then w.addRecursive ⟨source, t.key⟩ else w
  | none => w

/-! ### What each operation changes -/

@[simp] theorem entries_add (w : Walk) (e : PlanItem) :
    (w.add e).plan.entries = w.plan.entries ++ [e] := rfl

@[simp] theorem errors_add (w : Walk) (e : PlanItem) : (w.add e).plan.errors = w.plan.errors := rfl

@[simp] theorem plan_finish (w : Walk) (key : String) : (w.finish key).plan = w.plan := rfl

@[simp] theorem done_miss (w : Walk) (e : SchemaError) (r : Option String) :
    (w.miss e r).done = w.done := by
  unfold miss
  split <;> rfl

@[simp] theorem recursive_miss (w : Walk) (e : SchemaError) (r : Option String) :
    (w.miss e r).plan.recursive = w.plan.recursive := by
  unfold miss
  split <;> rfl

theorem entries_miss (w : Walk) (e : SchemaError) (r : Option String) :
    (w.miss e r).plan.entries =
      w.plan.entries ++ if e.subject ∈ w.plan.missingNames then [] else [.missing e.subject r] := by
  unfold miss
  split <;> simp [addError]

theorem errors_miss (w : Walk) (e : SchemaError) (r : Option String) :
    (w.miss e r).plan.errors =
      w.plan.errors ++ if e.subject ∈ w.plan.missingNames then [] else [e] := by
  unfold miss
  split <;> simp [addError]

@[simp] theorem declarations_miss (w : Walk) (e : SchemaError) (r : Option String) :
    (w.miss e r).plan.declarations = w.plan.declarations := by
  unfold Plan.declarations
  rw [entries_miss]
  split <;> simp [PlanItem.declared?]

theorem missingNames_miss (w : Walk) (e : SchemaError) (r : Option String) :
    (w.miss e r).plan.missingNames =
      w.plan.missingNames ++ if e.subject ∈ w.plan.missingNames then [] else [e.subject] := by
  rw [Plan.missingNames, entries_miss, List.filterMap_append]
  split <;> rfl

@[simp] theorem done_meetOpen (w : Walk) (t : SchemaType) (r : Option String) :
    (w.meetOpen t r).done = w.done := by
  unfold meetOpen
  split
  · split <;> rfl
  · rfl

@[simp] theorem entries_meetOpen (w : Walk) (t : SchemaType) (r : Option String) :
    (w.meetOpen t r).plan.entries = w.plan.entries := by
  unfold meetOpen
  split
  · split <;> rfl
  · rfl

@[simp] theorem errors_meetOpen (w : Walk) (t : SchemaType) (r : Option String) :
    (w.meetOpen t r).plan.errors = w.plan.errors := by
  unfold meetOpen
  split
  · split <;> rfl
  · rfl

@[simp] theorem declarations_meetOpen (w : Walk) (t : SchemaType) (r : Option String) :
    (w.meetOpen t r).plan.declarations = w.plan.declarations := by
  simp only [Plan.declarations, entries_meetOpen]

@[simp] theorem missingNames_meetOpen (w : Walk) (t : SchemaType) (r : Option String) :
    (w.meetOpen t r).plan.missingNames = w.plan.missingNames := by
  simp only [Plan.missingNames, entries_meetOpen]

/-- One reference is added if there is a referrer and the open type is a record. -/
theorem mem_recursive_meetOpen {w : Walk} {t : SchemaType} {r : Option String} {b : BackReference} :
    b ∈ (w.meetOpen t r).plan.recursive ↔
      b ∈ w.plan.recursive ∨ (t.kind.isRecord ∧ r = some b.source ∧ b.target = t.key) := by
  cases b with
  | mk source target =>
      cases r with
      | none => simp [meetOpen]
      | some k =>
          by_cases ht : t.kind.isRecord
          · simp [meetOpen, ht, addRecursive, eq_comm]
          · simp [meetOpen, ht]

end Walk

/-- Visits what a name means. `referrer` is the declaration whose member leads here. -/
def visit (g : TypeGraph) :
    Nat → List String → Option String → QualifiedName → Walk → Walk
  | 0, _, _, _, w => w
  | fuel + 1, path, referrer, n, w =>
    match g.resolve n with
    | .error e => w.miss e referrer
    | .ok t =>
      if t.key ∈ w.done then w
      else if t.key ∈ path then w.meetOpen t referrer
      else
        let path := t.key :: path
        match t.kind with
        | .collection e => (visit g fuel path referrer e w).finish t.key
        | .stream e => (visit g fuel path referrer e w).finish t.key
        | .record attributes =>
          let w := attributes.foldl (fun w a => visit g fuel path (some t.key) a.type w) w
          (w.add (.declare t)).finish t.key
        | .enumeration _ => (w.add (.declare t)).finish t.key
        | .primitive _ => w.finish t.key
        | .scalar _ => w.finish t.key

/-- The plan of what a name leads to. The types on a path have different keys, which bounds the depth
of the walk. -/
def Plan.build (g : TypeGraph) (root : QualifiedName) : Plan :=
  (visit g (g.types.length + 2) [] none root Walk.start).plan

end SchemaSnippets.Model

/-!
# Qualified names

A name such as `lang.taxi.Array<films.Film>`: the full name `lang.taxi.Array` with its scope
`lang.taxi` and short name `Array`, and the names of its parameters.

* `QualifiedName.key`: the spelling with parameters. Types are told apart by it.
* `QualifiedName.mentioned`: the name and the names in its parameters, outermost first.
-/

namespace SchemaSnippets.Schema

/-- A name with a scope and parameters. Scope and short name may differ from what `full` says. -/
structure QualifiedName where
  full : String
  scope : String
  short : String
  parameters : List QualifiedName
deriving Repr, Inhabited

namespace QualifiedName

/-! ## Equality -/

mutual

def decEq : (a b : QualifiedName) → Decidable (a = b)
  | ⟨f, s, n, ps⟩, ⟨f', s', n', ps'⟩ =>
    match decEqAll ps ps' with
    | isTrue h =>
      if h' : f = f' ∧ s = s' ∧ n = n' then isTrue (by simp [h, h'])
      else isFalse (by simp_all)
    | isFalse h => isFalse (by simp [h])

def decEqAll : (as bs : List QualifiedName) → Decidable (as = bs)
  | [], [] => isTrue rfl
  | [], _ :: _ => isFalse (by simp)
  | _ :: _, [] => isFalse (by simp)
  | a :: as, b :: bs =>
    match decEq a b with
    | isFalse h => isFalse (by simp [h])
    | isTrue h =>
      match decEqAll as bs with
      | isTrue h' => isTrue (by simp [h, h'])
      | isFalse h' => isFalse (by simp [h'])

end

instance : DecidableEq QualifiedName := decEq

/-! ## Building -/

/-- What stands before and after the last point. -/
def splitLastPoint? (cs : List Char) : Option (List Char × List Char) :=
  match cs.reverse.span (· != '.') with
  | (_, []) => none
  | (after, _ :: before) => some (before.reverse, after.reverse)

/-- The name without parameters whose scope is everything before the last point. -/
def ofFull (full : String) : QualifiedName :=
  match splitLastPoint? full.toList with
  | some (before, after) => ⟨full, String.ofList before, String.ofList after, []⟩
  | none => ⟨full, "", full, []⟩

/-- The name with other parameters. -/
def withParameters (n : QualifiedName) (ps : List QualifiedName) : QualifiedName :=
  { n with parameters := ps }

/-- The name with its scope and short name replaced where given; a short name is never empty by
choice. -/
def withParts (n : QualifiedName) (scope short : Option String) : QualifiedName :=
  { n with
    scope := scope.getD n.scope
    short := (short.filter (· != "")).getD n.short }

/-! ## Spelling -/

mutual

/-- The spelling with parameters, `Full<P,Q>`. -/
def key : QualifiedName → String
  | ⟨full, _, _, ps⟩ => if ps.isEmpty then full else full ++ "<" ++ ",".intercalate (keys ps) ++ ">"

/-- The spellings of several names. -/
def keys : List QualifiedName → List String
  | [] => []
  | p :: ps => key p :: keys ps

end

mutual

/-- The name, then the names mentioned by each parameter. -/
def mentioned : QualifiedName → List QualifiedName
  | ⟨full, scope, short, ps⟩ => ⟨full, scope, short, ps⟩ :: mentionedAll ps

/-- The names mentioned by several names. -/
def mentionedAll : List QualifiedName → List QualifiedName
  | [] => []
  | p :: ps => mentioned p ++ mentionedAll ps

end

theorem keys_eq_map (ps : List QualifiedName) : keys ps = ps.map key := by
  induction ps with
  | nil => rfl
  | cons p ps ih => simp [keys, ih]

theorem mentionedAll_eq_flatMap (ps : List QualifiedName) :
    mentionedAll ps = ps.flatMap mentioned := by
  induction ps with
  | nil => rfl
  | cons p ps ih => simp [mentionedAll, ih]

end QualifiedName

end SchemaSnippets.Schema

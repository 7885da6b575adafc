import SchemaSnippets.Proofs.Snippet.BareResult
import SchemaSnippets.Proofs.Target.Literals
import SchemaSnippets.Snippet.Generate

/-!
# Formulas for cells

A cell shows what its formula discovers, but no stream. Whether the result is one is told by the name of its
type alone: the types behind the name are not looked at.

* `QualifiedName.Layers` : a name as layers of arrays around another name; `cellName?_layers` : what a cell
  can show is decided by that name;
* `formulaName?` : the name in a formula, where two quotes stand for one; `formulaName?_sheetFormula` : it is
  the name that a cell can show;
* `TypeGraph.WayToStream` : the way from a name through collections to a stream, in a graph;
* `sheet_snippet` : when there is a notice, and what the formula says otherwise; `filmStream_formula` : a
  stream with a name of its own has a formula.
-/

namespace SchemaSnippets.Schema

namespace QualifiedName

/-- The element of an array with one parameter. -/
def arrayElement? (n : QualifiedName) : Option QualifiedName :=
  match Primitive.ofFull? n.full, n.parameters with
  | some .array, [e] => some e
  | _, _ => none

def namesStream (n : QualifiedName) : Bool :=
  Primitive.ofFull? n.full == some .stream

/-- The name is `base` in some layers of arrays with one parameter, and `base` is no such array. -/
inductive Layers : QualifiedName → Nat → QualifiedName → Prop where
  | base {n : QualifiedName} (h : n.arrayElement? = none) : Layers n 0 n
  | array {n e base : QualifiedName} {layers : Nat} (h : n.arrayElement? = some e)
      (rest : Layers e layers base) : Layers n (layers + 1) base

theorem Layers.unique {n base base' : QualifiedName} {layers layers' : Nat} (h : n.Layers layers base)
    (h' : n.Layers layers' base') : layers = layers' ∧ base = base' := by
  induction h generalizing layers' with
  | base hn =>
      cases h' with
      | base _ => exact ⟨rfl, rfl⟩
      | array hn' _ => exact absurd (hn.symm.trans hn') (Option.some_ne_none _).symm
  | array hn _ ih =>
      cases h' with
      | base hn' => exact absurd (hn'.symm.trans hn) (Option.some_ne_none _).symm
      | array hn' rest' =>
          obtain rfl := Option.some.inj (hn.symm.trans hn')
          exact ⟨congrArg (· + 1) (ih rest').1, (ih rest').2⟩

end QualifiedName

namespace TypeGraph
variable (g : TypeGraph)

/-- The way from the first of some names through collections, by way of their elements, to a stream. -/
inductive WayToStream : List QualifiedName → Prop where
  | stream {n e : QualifiedName} {t : SchemaType} (ht : g.resolve? n = some t)
      (hk : t.kind = .stream e) : WayToStream [n]
  | collection {n e : QualifiedName} {t : SchemaType} {way : List QualifiedName}
      (ht : g.resolve? n = some t) (hk : t.kind = .collection e) (rest : WayToStream (e :: way)) :
      WayToStream (n :: e :: way)

/-- Whether a name tells what it means: a stream, or a collection of a certain element. -/
def NameTells (n : QualifiedName) : Prop :=
  ∀ t, g.resolve? n = some t →
    match t.kind with
    | .stream _ => n.namesStream
    | .collection e => n.arrayElement? = some e
    | _ => True

variable {g}

/-- Names that tell what they mean are layers of arrays around a stream. -/
theorem WayToStream.exists_layers {n : QualifiedName} {way : List QualifiedName}
    (h : g.WayToStream (n :: way)) (htells : ∀ m ∈ n :: way, g.NameTells m) :
    ∃ layers base, n.Layers layers base ∧ base.namesStream := by
  induction way generalizing n with
  | nil =>
      cases h with
      | stream ht hk =>
          have hn := htells n (List.mem_singleton_self n) _ ht
          rw [hk] at hn
          have hstream : Primitive.ofFull? n.full = some .stream := beq_iff_eq.1 hn
          refine ⟨0, n, .base ?_, hn⟩
          rw [QualifiedName.arrayElement?, hstream]
  | cons e way ih =>
      cases h with
      | collection ht hk rest =>
          obtain ⟨hn, hway⟩ := List.forall_mem_cons.1 htells
          have helement := hn _ ht
          rw [hk] at helement
          obtain ⟨layers, base, hlayers, hstream⟩ := ih rest hway
          exact ⟨layers + 1, base, .array helement hlayers, hstream⟩

end TypeGraph

end SchemaSnippets.Schema

namespace SchemaSnippets.Target.QueryOnly
open Schema

/-- What a cell can show is decided by the name within the arrays. -/
theorem cellName?_layers (n : QualifiedName) : ∃ layers base, n.Layers layers base ∧
    cellName? n =
      if base.namesStream then none
      else some (base.key ++ String.join (List.replicate layers "[]")) := by
  induction n using cellName?.induct with
  | case1 full scope short ps hstream =>
      refine ⟨0, ⟨full, scope, short, ps⟩, .base ?_, ?_⟩
      · rw [QualifiedName.arrayElement?, hstream]
      · rw [cellName?.eq_1 _ _ _ _ hstream, QualifiedName.namesStream, hstream]
        rfl
  | case2 full scope short e harray ih =>
      obtain ⟨layers, base, hlayers, hname⟩ := ih
      refine ⟨layers + 1, base, .array ?_ hlayers, ?_⟩
      · rw [QualifiedName.arrayElement?, harray]
      · rw [cellName?.eq_2 _ _ _ _ harray, hname]
        split
        · rfl
        · rw [List.replicate_succ', String.join_append, ← String.append_assoc]
          rfl
  | case3 full scope short ps hstream harray =>
      have hbase : (⟨full, scope, short, ps⟩ : QualifiedName).arrayElement? = none := by
        unfold QualifiedName.arrayElement?
        split
        · rename_i e hfull hps
          exact (harray e hfull hps).elim
        · rfl
      have hnames : (⟨full, scope, short, ps⟩ : QualifiedName).namesStream ≠ true :=
        fun h => hstream (beq_iff_eq.1 h)
      refine ⟨0, ⟨full, scope, short, ps⟩, .base hbase, ?_⟩
      rw [cellName?.eq_3 _ _ _ _ hstream harray, if_neg hnames]
      exact congrArg some String.append_empty.symm

/-! ## Texts with doubled quotes -/

/-- Reads up to the first quote that stands alone. Two quotes stand for one. -/
def readDoubledBody? : LiteralReader
  | [] => none
  | '"' :: '"' :: cs => prepend '"' (readDoubledBody? cs)
  | c :: cs => if c = '"' then some ([], cs) else prepend c (readDoubledBody? cs)

/-- Reads a text in quotes. -/
def readDoubled? : LiteralReader
  | [] => none
  | c :: cs => if c = '"' then readDoubledBody? cs else none

theorem readDoubledBody?_doubled (cs : List Char) {rest : List Char} (hrest : rest.head? ≠ some '"') :
    readDoubledBody? (cs.flatMap (fun c => if c = '"' then ['"', '"'] else [c]) ++ '"' :: rest) =
      some (cs, rest) := by
  induction cs with
  | nil =>
      cases rest with
      | nil => rfl
      | cons d rest =>
          have hd : d ≠ '"' := fun heq => hrest (heq ▸ rfl)
          simp [readDoubledBody?, hd]
  | cons c cs ih =>
      rw [List.flatMap_cons, List.append_assoc]
      by_cases hc : c = '"'
      · rw [if_pos hc, hc]
        show prepend '"' (readDoubledBody? (cs.flatMap _ ++ '"' :: rest)) = _
        rw [ih, prepend_some]
      · rw [if_neg hc, List.singleton_append, readDoubledBody?, if_neg hc, ih, prepend_some]
        exact fun _ hquote => absurd hquote hc

/-- The name that a formula discovers, if the text is a formula. -/
def formulaName? (text : String) : Option String :=
  match (text.toList.dropPrefix? "=discover(".toList).bind readDoubled? with
  | some (name, [')', '\n']) => some (String.ofList name)
  | _ => none

theorem formulaName?_discover (name : String) :
    formulaName? ("=discover(\"" ++ doubleQuotes name ++ "\")\n") = some name := by
  have htext : ("=discover(\"" ++ doubleQuotes name ++ "\")\n").toList.dropPrefix? "=discover(".toList =
      some ('"' :: (doubleQuotes name).toList ++ '"' :: [')', '\n']) := by
    refine List.dropPrefix?_eq_some_iff.2 ⟨"=discover(".toList, ?_, beq_self_eq_true _⟩
    simp [String.toList_append]
  have hread : readDoubled? ('"' :: (doubleQuotes name).toList ++ '"' :: [')', '\n']) =
      some (name.toList, [')', '\n']) := by
    rw [List.cons_append, readDoubled?, if_pos rfl, doubleQuotes, String.toList_ofList]
    exact readDoubledBody?_doubled name.toList (by decide)
  unfold formulaName?
  rw [htext, Option.bind_some, hread]
  exact congrArg some String.ofList_toList

/-- A formula gives the name that a cell can show, and the notice gives none. -/
theorem formulaName?_sheetFormula (q : QueryCall) :
    formulaName? (sheetFormula q) = cellName? q.returnType := by
  unfold sheetFormula
  split
  · rename_i name hname
    rw [formulaName?_discover, hname]
  · rename_i hname
    rw [hname]
    decide

theorem sheetFormula_eq_notice_iff (q : QueryCall) :
    sheetFormula q = streamNotice ↔ cellName? q.returnType = none := by
  rw [← formulaName?_sheetFormula]
  refine ⟨fun h => by rw [h]; decide, fun h => ?_⟩
  rw [formulaName?_sheetFormula] at h
  rw [sheetFormula, h]

end SchemaSnippets.Target.QueryOnly

namespace SchemaSnippets.Snippet
open Json Request Schema Target QueryOnly

theorem snippets_sheets (r : CodeRequest) (o : Options) : (generate .sheets r o).snippets =
    [⟨queryLabel, "sheets", sheetFormula (callOf r o r.returnType.key)⟩] := rfl

/-- The only snippet for a cell is a notice if the name within the arrays of the result is that of a stream,
and so it is for each stream of the graph that has this name, within collections that are named as arrays of
their elements. Otherwise it is a formula, which names the result with a pair of brackets for each array. -/
theorem sheet_snippet (r : CodeRequest) (o : Options) : ∃ content layers base,
    (generate .sheets r o).snippets = [⟨queryLabel, "sheets", content⟩] ∧
    r.returnType.Layers layers base ∧
    (content = streamNotice ↔ base.namesStream) ∧
    formulaName? content =
      (if base.namesStream then none
        else some (base.key ++ String.join (List.replicate layers "[]"))) ∧
    ∀ way, r.graph.WayToStream (r.returnType :: way) →
      (∀ n ∈ r.returnType :: way, r.graph.NameTells n) →
        content = streamNotice ∧ formulaName? content = none := by
  obtain ⟨layers, base, hlayers, hname⟩ := cellName?_layers r.returnType
  let q := callOf r o r.returnType.key
  have hnotice : sheetFormula q = streamNotice ↔ base.namesStream := by
    rw [sheetFormula_eq_notice_iff]
    show cellName? r.returnType = none ↔ _
    rw [hname]
    split <;> simp_all
  have hformula : formulaName? (sheetFormula q) = _ := (formulaName?_sheetFormula q).trans hname
  refine ⟨sheetFormula q, layers, base, snippets_sheets r o, hlayers, hnotice, hformula,
    fun way hway htells => ?_⟩
  obtain ⟨layers', base', hlayers', hstream⟩ := hway.exists_layers htells
  obtain ⟨-, rfl⟩ := hlayers.unique hlayers'
  exact ⟨hnotice.2 hstream, by rw [hformula, if_pos hstream]⟩

/-! ### A list of streams -/

def streamOfFilms : QualifiedName := (QualifiedName.ofFull "Stream").withParameters [.ofFull "Film"]

def streamsName : QualifiedName := (QualifiedName.ofFull "Array").withParameters [streamOfFilms]

def streamsRequest : CodeRequest :=
  ⟨"stream { Film }", streamsName, .ofTypes
    [.ofKind streamsName (.collection streamOfFilms), .ofKind streamOfFilms (.stream (.ofFull "Film"))] []⟩

/-- Both names tell what they mean, and no cell shows the list. -/
theorem streams_notice :
    streamsRequest.graph.WayToStream [streamsName, streamOfFilms] ∧
    (∀ n ∈ [streamsName, streamOfFilms], streamsRequest.graph.NameTells n) ∧
    (generate .sheets streamsRequest ⟨"client", true⟩).snippets =
      [⟨queryLabel, "sheets", streamNotice⟩] := by
  have hlist : streamsRequest.graph.resolve? streamsName =
      some (.ofKind streamsName (.collection streamOfFilms)) := rfl
  have hstream : streamsRequest.graph.resolve? streamOfFilms =
      some (.ofKind streamOfFilms (.stream (.ofFull "Film"))) := rfl
  have hway : streamsRequest.graph.WayToStream [streamsName, streamOfFilms] :=
    .collection hlist rfl (.stream hstream rfl)
  have htells : ∀ n ∈ [streamsName, streamOfFilms], streamsRequest.graph.NameTells n := by
    refine List.forall_mem_cons.2 ⟨fun t ht => ?_, List.forall_mem_singleton.2 fun t ht => ?_⟩
    · obtain rfl := Option.some.inj (hlist.symm.trans ht)
      show streamsName.arrayElement? = some streamOfFilms
      decide +kernel
    · obtain rfl := Option.some.inj (hstream.symm.trans ht)
      show streamOfFilms.namesStream
      decide +kernel
  obtain ⟨content, layers, base, hsnippets, -, -, -, hstreams⟩ :=
    sheet_snippet streamsRequest ⟨"client", true⟩
  rw [(hstreams [streamOfFilms] hway htells).1] at hsnippets
  exact ⟨hway, htells, hsnippets⟩

/-! ### A stream with a name of its own -/

def filmStreamText : String :=
  "\x7b\"query\": \"stream\", \"returnType\": \x7b\"name\": \"FilmStream\", \"isStream\": true, " ++
    "\"typeParameters\": [\"Film\"]\x7d\x7d"

def filmStreamEntry : RequestEntry :=
  ⟨"stream", { TypeEntry.ofName (.ofFull "FilmStream") with
    isStream := true
    typeParameters := [.ofFull "Film"] }, ⟨[], []⟩, []⟩

theorem ofText?_filmStreamText : RequestEntry.ofText? filmStreamText = some filmStreamEntry := by
  have hdocument : Document.ofText? filmStreamText = some (.object [
      (some "query", .string (some "stream")),
      (some "returnType", .object [(some "name", .string (some "FilmStream")),
        (some "isStream", .bool true), (some "typeParameters", .array [.string (some "Film")])])]) :=
    Document.ofText?_of_tokens (by decide +kernel)
  rw [RequestEntry.ofText?, hdocument]
  rfl

/-- The result is a stream in the graph of the request, but its name does not tell, and a cell is to discover
it. -/
theorem filmStream_formula : ∃ r content, CodeRequest.load filmStreamText = .ok r ∧
    r.graph.WayToStream [r.returnType] ∧
    (generate .sheets r ⟨"client", true⟩).snippets = [⟨queryLabel, "sheets", content⟩] ∧
    content ≠ streamNotice ∧ formulaName? content = some "FilmStream" := by
  have hload : CodeRequest.load filmStreamText = .ok (.ofEntry filmStreamEntry) :=
    CodeRequest.load_eq_ok.2 ⟨_, ofText?_filmStreamText, by decide, rfl⟩
  have hresolves := TypeGraph.resolve?_eq_some.2 filmStreamEntry.resolve_returnType
  have hname : cellName? filmStreamEntry.returnType.name = some "FilmStream" := by decide +kernel
  refine ⟨.ofEntry filmStreamEntry, _, hload, .stream hresolves rfl, snippets_sheets _ _,
    fun hnotice => ?_, ?_⟩
  · rw [sheetFormula_eq_notice_iff] at hnotice
    exact absurd (hname.symm.trans hnotice) (Option.some_ne_none _)
  · rw [formulaName?_sheetFormula]
    exact hname

end SchemaSnippets.Snippet

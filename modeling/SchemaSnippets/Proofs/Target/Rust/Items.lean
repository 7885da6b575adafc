import SchemaSnippets.Proofs.Code.Lines
import SchemaSnippets.Target.Syntax.Rust

/-!
# Items of Rust

A declaration as an item of the language: its documentation, its attributes and its members, each
with the attribute that renames it. An item has one text, in which the attributes are spelled out as the
derived serialization reads them.

* `StructItem`, `FieldItem` : structures and their members; `EnumItem`, `ConstantItem` : enumerations
  and theirs;
* `structItem`, `enumItem` : the items of a record and of an enumeration;
* `record_eq_text`, `enumeration_eq_text` : what is written for them is the text of these items.
-/

namespace SchemaSnippets.Target.Rust
open Code Json Model

/-! ## Items and their texts -/

/-- A member of a structure. -/
structure FieldItem where
  docs : List String
  /-- The name that an attribute of the member binds it to. -/
  rename : Option String
  name : String
  type : String

structure StructItem where
  docs : List String
  /-- Whether an attribute binds all members to their camel case. -/
  camelCase : Bool
  name : String
  members : List FieldItem

/-- A member of an enumeration. -/
structure ConstantItem where
  docs : List String
  /-- The name that an attribute of the member binds it to. -/
  rename : Option String
  name : String
  discriminant : Option Int

structure EnumItem where
  docs : List String
  /-- Whether the members are 64-bit integers in the data. -/
  numbered : Bool
  name : String
  members : List ConstantItem

def docLines (docs : List String) : List String :=
  docs.map ("/// " ++ ·)

def renameLines (rename : Option String) : List String :=
  rename.toList.map fun name => "#[serde(rename = " ++ Text.quoted name ++ ")]"

def FieldItem.lines (m : FieldItem) : List String :=
  docLines m.docs ++ renameLines m.rename ++ ["pub " ++ m.name ++ ": " ++ m.type ++ ","]

def discriminantText : Option Int → String
  | some i => " = " ++ toString i
  | none => ""

def ConstantItem.lines (m : ConstantItem) : List String :=
  docLines m.docs ++ renameLines m.rename ++ [m.name ++ discriminantText m.discriminant ++ ","]

/-- A header and the lines of the members, each in one level. -/
def bodyLines (header : String) (members : List (List String)) : List String :=
  if members.isEmpty then [header ++ " \x7b\x7d"]
  else (header ++ " \x7b") :: members.flatten.map ("    " ++ ·) ++ ["\x7d"]

def StructItem.attributes (i : StructItem) : List String :=
  "#[derive(Debug, Clone, Serialize, Deserialize)]" ::
    if i.camelCase then ["#[serde(rename_all = \"camelCase\")]"] else []

def StructItem.text (i : StructItem) : String :=
  linesText (docLines i.docs ++ i.attributes
    ++ bodyLines ("pub struct " ++ i.name) (i.members.map (·.lines)))

def EnumItem.attributes (i : EnumItem) : List String :=
  if i.numbered then
    ["#[derive(Debug, Clone, Copy, PartialEq, Eq, serde_repr::Serialize_repr, serde_repr::Deserialize_repr)]",
      "#[repr(i64)]"]
  else ["#[derive(Debug, Clone, Copy, PartialEq, Eq, Serialize, Deserialize)]"]

def EnumItem.text (i : EnumItem) : String :=
  linesText (docLines i.docs ++ i.attributes
    ++ bodyLines ("pub enum " ++ i.name) (i.members.map (·.lines)))

/-! ## The items of declarations -/

def fieldItem (bound : Bool) (f : RecordMember) (name : String) : FieldItem where
  docs := f.docs
  rename := if !bound && withoutMark name != f.name then some f.name else none
  name := name
  type := types.render f.type

/-- The fields of a record with the names of their members. -/
def namedFields (s : RecordDeclaration) : List (RecordMember × String) :=
  s.fields.zip (fieldNames s)

def structItem (s : RecordDeclaration) : StructItem where
  docs := s.docs
  camelCase := bindsByCamelCase (namedFields s)
  name := s.name
  members := (namedFields s).map fun (f, name) => fieldItem (bindsByCamelCase (namedFields s)) f name

def constantItem (v : EnumMember) (name : String) : ConstantItem where
  docs := v.docs
  rename := (wireName? v).filter (· != name)
  name := name
  discriminant := v.value.int64?

/-- The values of an enumeration with the names of their members. -/
def namedConstants (s : EnumDeclaration) : List (EnumMember × String) :=
  s.members.zip (constantNames s)

def enumItem (s : EnumDeclaration) : EnumItem where
  docs := s.docs
  numbered := isNumbered s
  name := s.name
  members := (namedConstants s).map fun (v, name) => constantItem v name

/-! ## What is written -/

theorem docs_eq_put (w : Writer) (ls : List String) : docs w ls = w.put (docLines ls) :=
  w.each_line ls _

/-- The attribute that is written for a name is the one that binds it. -/
theorem ite_rename_eq_put (w : Writer) (b : Bool) (name : String) :
    (if b then w.line (renameAttribute name) else w) =
      w.put (renameLines (if b then some name else none)) := by
  cases b with
  | false => rfl
  | true => rfl

theorem member_eq_put (bound : Bool) (w : Writer) (f : RecordMember) (name : String) :
    member bound w f name = w.put (fieldItem bound f name).lines := by
  show Writer.line (if !bound && withoutMark name != f.name
    then Writer.line (docs w f.docs) (renameAttribute f.name) else docs w f.docs) _ = _
  rw [docs_eq_put, ite_rename_eq_put, Writer.line_eq_put, Writer.put_put, Writer.put_put,
    ← List.append_assoc]
  rfl

theorem constant_eq_put (w : Writer) (v : EnumMember) (name : String) :
    constant w v name = w.put (constantItem v name).lines := by
  have hrename : ∀ w' : Writer, ((wireName? v).elim w' fun wire =>
      if wire != name then w'.line (renameAttribute wire) else w') =
        w'.put (renameLines (constantItem v name).rename) := by
    intro w'
    unfold constantItem
    cases wireName? v with
    | none => rfl
    | some wire =>
        rw [Option.filter_some]
        exact ite_rename_eq_put w' (wire != name) wire
  have hline : ∀ w' : Writer, (v.value.int64?.elim (w'.line (name ++ ",")) fun i =>
      w'.line (name ++ " = " ++ toString i ++ ",")) =
        w'.put [name ++ discriminantText (constantItem v name).discriminant ++ ","] := by
    intro w'
    unfold constantItem
    cases v.value.int64? with
    | none =>
        rw [discriminantText, String.append_empty]
        rfl
    | some i =>
        rw [discriminantText, ← String.append_assoc]
        rfl
  have h : constant w v name = ((w.put (docLines v.docs)).put
      (renameLines (constantItem v name).rename)).put
        [name ++ discriminantText (constantItem v name).discriminant ++ ","] := by
    rw [← hline, ← hrename, ← docs_eq_put, constant]
    cases wireName? v <;> cases v.value.int64? <;> rfl
  rw [h, Writer.put_put, Writer.put_put, ← List.append_assoc]
  rfl

/-- What is written for each member of a declaration. -/
theorem each_eq_put {α : Type} (w : Writer) (members : List (α × String))
    {write : Writer → α → String → Writer} {lines : α → String → List String}
    (h : ∀ w x name, write w x name = w.put (lines x name)) :
    (w.each members fun w (x, name) => write w x name) =
      w.put (members.map fun (x, name) => lines x name).flatten := by
  rw [← List.flatMap_def, ← Writer.each_put]
  congr 1
  funext w m
  exact h w m.1 m.2

/-- What is written behind the lines `ls`: a header and its members, in a block or on one line. -/
theorem text_body {α : Type} (ls : List String) (header : String) (members : List (α × String))
    {write : Writer → α → String → Writer} {lines : α → String → List String}
    (h : ∀ w x name, write w x name = w.put (lines x name)) :
    (if members.isEmpty then (((Writer.empty 4).put ls).line (header ++ " \x7b\x7d")).text
      else (((Writer.empty 4).put ls).block (header ++ " \x7b") "\x7d" fun w =>
        w.each members fun w (x, name) => write w x name).text) =
      linesText (ls ++ bodyLines header (members.map fun (x, name) => lines x name)) := by
  unfold bodyLines
  rw [List.isEmpty_map]
  by_cases hempty : members.isEmpty
  · rw [if_pos hempty, if_pos hempty, Writer.line_eq_put, Writer.put_put, Writer.text_put]
  · have hblock : (fun w : Writer => w.each members fun w (x, name) => write w x name) =
        fun w => w.put (members.map fun (x, name) => lines x name).flatten :=
      funext fun w => each_eq_put w members h
    rw [if_neg hempty, if_neg hempty, hblock, Writer.text_block_put, List.append_assoc]
    rfl

theorem isEmpty_zip_of_length_eq {α β : Type} {xs : List α} {ys : List β}
    (h : xs.length = ys.length) : (xs.zip ys).isEmpty = xs.isEmpty := by
  cases xs with
  | nil => rfl
  | cons x xs =>
      cases ys with
      | nil => cases h
      | cons y ys => rfl

theorem length_tellApartFrom (taken : List String) (separator : String) (names : List String) :
    (tellApartFrom taken separator names).length = names.length := by
  induction names generalizing taken with
  | nil => rfl
  | cons name names ih => exact congrArg (· + 1) (ih _)

theorem length_fieldNames (s : RecordDeclaration) : (fieldNames s).length = s.fields.length := by
  rw [fieldNames, tellApart, length_tellApartFrom, List.length_map]

theorem length_constantNames (s : EnumDeclaration) :
    (constantNames s).length = s.members.length := by
  rw [constantNames, tellApart, length_tellApartFrom, List.length_map]

theorem map_snd_namedFields (s : RecordDeclaration) : (namedFields s).map Prod.snd = fieldNames s :=
  List.map_snd_zip (Nat.le_of_eq (length_fieldNames s))

theorem map_snd_namedConstants (s : EnumDeclaration) :
    (namedConstants s).map Prod.snd = constantNames s :=
  List.map_snd_zip (Nat.le_of_eq (length_constantNames s))

theorem attributes_structItem (s : RecordDeclaration) : (structItem s).attributes =
    [recordDerives] ++ if bindsByCamelCase (namedFields s) then [camelCaseAttribute] else [] :=
  rfl

theorem attributes_enumItem (s : EnumDeclaration) : (enumItem s).attributes =
    if isNumbered s then [numberedEnumDerives, "#[repr(i64)]"] else [enumDerives] :=
  rfl

/-- A record is written as its item. -/
theorem record_eq_text (s : RecordDeclaration) : record s = (structItem s).text := by
  have hstart : (if bindsByCamelCase (namedFields s)
      then ((docs (Writer.empty 4) s.docs).line recordDerives).line camelCaseAttribute
      else (docs (Writer.empty 4) s.docs).line recordDerives) =
      (Writer.empty 4).put (docLines s.docs ++ (structItem s).attributes) := by
    rw [attributes_structItem, ← List.append_assoc, docs_eq_put, Writer.line_eq_put _ recordDerives,
      Writer.put_put]
    split
    · rw [Writer.line_eq_put, Writer.put_put]
    · rw [List.append_nil]
  have hempty : s.fields.isEmpty = (namedFields s).isEmpty :=
    (isEmpty_zip_of_length_eq (length_fieldNames s).symm).symm
  have hlines : (structItem s).members.map (·.lines) = (namedFields s).map fun (f, name) =>
      (fieldItem (bindsByCamelCase (namedFields s)) f name).lines := by
    rw [structItem, List.map_map]
    rfl
  have hbody := text_body (docLines s.docs ++ (structItem s).attributes) ("pub struct " ++ s.name)
    (namedFields s) (member_eq_put (bindsByCamelCase (namedFields s)))
  rw [← hstart, ← hempty] at hbody
  rw [StructItem.text, hlines]
  exact hbody

theorem enumeration_eq_text (s : EnumDeclaration) : enumeration s = (enumItem s).text := by
  have hstart : (if isNumbered s
      then ((docs (Writer.empty 4) s.docs).line numberedEnumDerives).line "#[repr(i64)]"
      else (docs (Writer.empty 4) s.docs).line enumDerives) =
      (Writer.empty 4).put (docLines s.docs ++ (enumItem s).attributes) := by
    rw [attributes_enumItem, docs_eq_put]
    split
    · rw [Writer.line_eq_put _ "#[repr(i64)]", Writer.line_eq_put, Writer.put_put, Writer.put_put]
      rfl
    · rw [Writer.line_eq_put, Writer.put_put]
  have hempty : s.members.isEmpty = (namedConstants s).isEmpty :=
    (isEmpty_zip_of_length_eq (length_constantNames s).symm).symm
  have hlines : (enumItem s).members.map (·.lines) = (namedConstants s).map fun (v, name) =>
      (constantItem v name).lines := by
    rw [enumItem, List.map_map]
    rfl
  have hbody := text_body (docLines s.docs ++ (enumItem s).attributes) ("pub enum " ++ s.name)
    (namedConstants s) constant_eq_put
  rw [← hstart, ← hempty] at hbody
  rw [EnumItem.text, hlines]
  exact hbody

end SchemaSnippets.Target.Rust

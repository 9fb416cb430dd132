import RecordQuery.Declaration.Basic
import RecordQuery.Schema
import RecordQuery.Text.Quoted

/-!
# Record attributes

What the record attribute of a type or a field says: that the field is left out, that it is queried
by another name, or what the schema is called. Of several record attributes the first one counts.
-/

namespace RecordQuery.Declaration

/-- Why a declaration declares no record type. -/
inductive Fault where
  /-- The type has parameters. -/
  | generic
  /-- The type is neither a structure nor a tuple. -/
  | notStructure
  /-- The type has no named fields. -/
  | withoutNames
  /-- A record attribute holds no list. -/
  | withoutItems
  /-- A record attribute holds a value. -/
  | valueForItems
  /-- The value of a key is no text. -/
  | notText (key : String)
  /-- The new name of a field is no segment of a path. -/
  | renamedToNoSegment
  /-- An item has no meaning. -/
  | unknownItem
  /-- A type is left out or renamed like a field. -/
  | fieldItemOnType
  /-- A field is given a schema name like a type. -/
  | typeItemOnField
  /-- The name of a field is no segment of a path. -/
  | unusableName (name : String)
  /-- Two fields have one name. -/
  | duplicateName (name : String)
deriving DecidableEq

def Fault.message : Fault → String
  | generic => "Record cannot be derived for generic structs"
  | notStructure => "Record can only be derived for structs"
  | withoutNames => "Record can only be derived for structs with named fields"
  | withoutItems => "expected attribute arguments in parentheses: #[record(...)]"
  | valueForItems => "expected parentheses: #[record(...)]"
  | notText key => key ++ " must be a string literal"
  | renamedToNoSegment =>
    "rename must be non-empty and contain only ASCII letters, digits or '_'"
  | unknownItem =>
    "unknown record attribute. Expected: skip, rename = \"...\", or name = \"...\""
  | fieldItemOnType => "only name = \"...\" is allowed on the struct"
  | typeItemOnField => "name = \"...\" belongs on the struct; use rename on fields"
  | unusableName name => "field name " ++ Text.quoted name ++ " cannot be used in a field path"
  | duplicateName name => "duplicate record field name " ++ Text.quoted name

/-- What a record attribute says. -/
structure RecordAttribute where
  skip : Bool
  rename? : Option String
  name? : Option String
deriving DecidableEq

/-- The text given to a key. -/
def GivenValue.text? (key : String) : GivenValue → Except Fault String
  | text s => .ok s
  | other => .error (.notText key)

namespace RecordAttribute

def empty : RecordAttribute := ⟨false, none, none⟩

/-- The attribute with one more item; of several values of one key the last one counts. -/
def add (a : RecordAttribute) : AttributeItem → Except Fault RecordAttribute
  | .word path => if path = "skip" then .ok { a with skip := true } else .error .unknownItem
  | .assignment key value =>
    if key = "rename" then do
      let name ← value.text? key
      if isSegment name then .ok { a with rename? := some name } else .error .renamedToNoSegment
    else if key = "name" then do
      let name ← value.text? key
      .ok { a with name? := some name }
    else .error .unknownItem
  | .call _ => .error .unknownItem

/-- What the first record attribute in a list says. -/
def ofAttributes : List Attribute → Except Fault RecordAttribute
  | [] => .ok empty
  | .record items :: _ => items.foldlM add empty
  | .bare :: _ => .error .withoutItems
  | .valued :: _ => .error .valueForItems
  | .other :: attributes => ofAttributes attributes

/-- What the attributes of a type say. -/
def ofType (attributes : List Attribute) : Except Fault RecordAttribute := do
  let a ← ofAttributes attributes
  if a.skip || a.rename?.isSome then .error .fieldItemOnType else .ok a

/-- What the attributes of a field say. -/
def ofField (attributes : List Attribute) : Except Fault RecordAttribute := do
  let a ← ofAttributes attributes
  if a.name?.isSome then .error .typeItemOnField else .ok a

end RecordAttribute

end RecordQuery.Declaration

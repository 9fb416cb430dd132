import RecordQuery.Declaration.Attribute

/-!
# Deriving record types

A record type is derived from a declaration with named fields: its schema name, the types of the
fields under their query names, and the fields that are read and written under each name. A query
name is the name given by an attribute or else the identifier of the field; it has to be a path
segment that no earlier field has.
-/

namespace RecordQuery.Declaration

/-- What is derived from a declaration. The tables go from query names to types of fields, and to
the identifiers of the fields that are read and written. -/
structure DerivedRecord where
  schemaName : String
  types : List (String × String)
  readers : List (String × String)
  writers : List (String × String)
deriving DecidableEq

namespace DerivedRecord

def empty (schemaName : String) : DerivedRecord := ⟨schemaName, [], [], []⟩

def addField (name : String) (field : FieldDeclaration) (d : DerivedRecord) : DerivedRecord :=
  { d with
    types := (name, field.type) :: d.types
    readers := (name, field.identifier) :: d.readers
    writers := (name, field.identifier) :: d.writers }

/-- The type of the field with a query name. -/
def type? (d : DerivedRecord) (name : String) : Option String :=
  d.types.lookup name

/-- The identifier of the field that is read under a query name. -/
def reader? (d : DerivedRecord) (name : String) : Option String :=
  d.readers.lookup name

/-- The identifier of the field that is written under a query name. -/
def writer? (d : DerivedRecord) (name : String) : Option String :=
  d.writers.lookup name

end DerivedRecord

/-- The name that a field is queried by, unless it is left out. -/
def FieldDeclaration.queryName? (field : FieldDeclaration) : Except Fault (Option String) := do
  let a ← RecordAttribute.ofField field.attributes
  return if a.skip then none else some (a.rename?.getD (plainName field.identifier))

/-- The record type with the given fields; `seen` holds the names of earlier fields. -/
def deriveFields (schemaName : String) (seen : List String) :
    List FieldDeclaration → Except Fault DerivedRecord
  | [] => .ok (.empty schemaName)
  | field :: fields => do
    match ← field.queryName? with
    | none => deriveFields schemaName seen fields
    | some name =>
      if !isSegment name then .error (.unusableName name)
      else if name ∈ seen then .error (.duplicateName name)
      else return (← deriveFields schemaName (name :: seen) fields).addField name field

/-- Derives a record type. Parameters are looked for first, then the fields, the attributes of the
type, and the fields one after the other. -/
def derive (d : Declaration) : Except Fault DerivedRecord :=
  if d.isGeneric then .error .generic
  else
    match d.body with
    | .fields fields => do
      let a ← RecordAttribute.ofType d.attributes
      deriveFields (a.name?.getD d.identifier) [] fields
    | .tuple | .unit => .error .withoutNames
    | .enumeration | .union => .error .notStructure

end RecordQuery.Declaration

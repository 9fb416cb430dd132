import RecordQuery.Document.JsonPrinter
import RecordQuery.Document.Yaml
import RecordQuery.Sql.Table

/-!
# Column tables as documents

A column table is loaded from a document with a list of columns, each of which has a path, a name
and a mark whether it may be sorted by, which may be missing.
-/

namespace RecordQuery.Sql

def Column.ofDocument? (dialect : Dialect) (d : Document) : Option Column := do
  match ← d.fields? dialect ["field_path", "database_name", "sortable"] with
  | [some path, some name, sortable?] =>
    let path ← (FieldPath.parse (← path.text? dialect)).toOption
    let name ← name.text? dialect
    let sortable ←
      match sortable? with
      | some sortable => sortable.bool? dialect
      | none => some false
    return ⟨path, name, sortable⟩
  | _ => none

def Column.toDocument (column : Column) : Document :=
  .ofPairs
    [("field_path", .ofString column.path.text), ("database_name", .ofString column.name),
      ("sortable", .ofBool column.sortable)]

namespace Table

def ofDocument? (dialect : Dialect) (d : Document) : Option Table := do
  match ← d.fields? dialect ["columns"] with
  | [some columns] => return ⟨← (← columns.items? dialect).mapM (Column.ofDocument? dialect)⟩
  | _ => none

/-- The table read from a document, or the error that there is none. -/
def load (dialect : Dialect) (d? : Option Document) : Except Error Table :=
  match d?.bind (ofDocument? dialect) with
  | some table => .ok table
  | none => .error (.config .columnTable)

def ofJson (s : String) : Except Error Table :=
  load .json (Json.parse? s)

def ofYaml (s : String) : Except Error Table :=
  load .yaml (Yaml.parse? s)

def toJson (table : Table) : String :=
  Json.compact (.ofPairs [("columns", .list (table.columns.map Column.toDocument))])

end Table

end RecordQuery.Sql

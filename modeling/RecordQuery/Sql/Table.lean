import RecordQuery.Order.Basic

/-!
# ORDER BY clauses

A column table says which column of a database holds which field, and which columns may be sorted
by. An order is rendered with the names of the table only. Rows may repeat a path or a column name;
the first row that fits counts.
-/

namespace RecordQuery.Sql

/-- A field path with the database column that holds it. -/
structure Column where
  path : FieldPath
  name : String
  sortable : Bool
deriving DecidableEq

/-- The columns of a database table, in order. -/
structure Table where
  columns : List Column
deriving DecidableEq

namespace Table

def column? (table : Table) (path : FieldPath) : Option Column :=
  table.columns.find? fun column ↦ column.path = path

def sortable (table : Table) : List Column :=
  table.columns.filter Column.sortable

/-- The column of a path that may be sorted by. -/
def columnToSort (table : Table) (path : FieldPath) : Except Error Column :=
  match table.sortable.find? fun column ↦ column.path = path with
  | some column => .ok column
  | none => .error (.unsortableField path.text (table.sortable.map fun column ↦ column.path.text))

/-- The terms of a clause for sort keys, where `used` are the column names that have been used. -/
def terms (table : Table) (used : List String) : List OrderKey → Except Error (List String)
  | [] => .ok []
  | key :: keys =>
    match table.columnToSort key.path with
    | .error e => .error e
    | .ok column =>
      if column.name ∈ used then .error (.duplicateOrderField key.path.text)
      else
        let term := if key.direction = .desc then column.name ++ " DESC" else column.name
        (terms table (column.name :: used) keys).map (term :: ·)

/-- The clause for an order, which ends in a line feed; the empty order has none. -/
def clause (table : Table) (order : Order) : Except Error String :=
  if order.keys.isEmpty then .ok ""
  else (table.terms [] order.keys).map fun terms ↦ "ORDER BY " ++ ", ".intercalate terms ++ "\n"

end Table

end RecordQuery.Sql

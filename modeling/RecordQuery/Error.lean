import RecordQuery.FieldPath
import RecordQuery.Filter.Token
import RecordQuery.Value

/-!
# Errors

Everything that can go wrong when a filter or an order is compiled, an SQL clause is rendered, a
field is assigned, or a page token is made or read. An error holds its cause; the wording is in
`Error.message`.
-/

namespace RecordQuery

/-- What is wrong with an order text. -/
inductive OrderFault where
  /-- Nothing stands between two commas. -/
  | emptyItem
  /-- The second word of an item is no direction. -/
  | unknownDirection (word path : String)
  /-- An item has more than two words. -/
  | malformedItem (item : String)
  /-- The first word of an item is no path. -/
  | invalidPath (path : String) (fault : PathFault)
  /-- A path occurs twice. -/
  | duplicateField (path : String)
deriving DecidableEq

/-- What is wrong with a column table or a key. -/
inductive ConfigFault where
  /-- The text of a column table cannot be read as one. -/
  | columnTable
  /-- A key does not have 32 bytes. -/
  | keyLength (length : Nat)
  /-- The text of a key is not base64. -/
  | keyText
deriving DecidableEq

/-- What a field expects to be assigned. -/
inductive Expected where
  | scalar (s : Scalar)
  | record
  | list
  | map
deriving DecidableEq

inductive Error where
  /-- The filter text does not follow the grammar; the position counts bytes. -/
  | invalidFilter (position : Nat) (fault : Filter.Fault)
  /-- The order text is malformed. -/
  | invalidOrderBy (fault : OrderFault)
  /-- A path is malformed or does not resolve. -/
  | invalidFieldPath (path : String) (fault : PathFault)
  /-- An ordering was asked of two values that have none. -/
  | unsupportedComparison (op : Operator) (lhs rhs : Shape)
  /-- A sort key ends at a record. -/
  | recordSortKey
  /-- A value does not fit the field it is assigned to. -/
  | typeMismatch (expected : Expected) (actual : Shape)
  /-- A page token cannot be decoded, opened or read. -/
  | invalidPageToken
  /-- A sort key has no sortable column. -/
  | unsortableField (field : String) (valid : List String)
  /-- Two sort keys have the same column. -/
  | duplicateOrderField (field : String)
  /-- The cipher refused to seal a token. -/
  | encryption
  /-- A column table or a key cannot be loaded. -/
  | config (fault : ConfigFault)
deriving DecidableEq

def PathFault.message : PathFault → String
  | emptyPath => "empty path"
  | emptySegment => "empty segment"
  | invalidCharacter c => "invalid character " ++ Text.quotedChar c
  | unknownHead name => "unknown top-level field " ++ Text.quoted name
  | unknownField name schema => "no field " ++ Text.quoted name ++ " on " ++ schema
  | belowMap name => "cannot descend into map field " ++ Text.quoted name
  | belowRepeatedScalar name => "cannot descend into repeated scalar field " ++ Text.quoted name
  | belowScalar name => "cannot descend into scalar field " ++ Text.quoted name
  | repeatedSortKey name => "repeated field " ++ Text.quoted name ++ " cannot be a sort key"
  | mapSortKey name => "map field " ++ Text.quoted name ++ " cannot be a sort key"

/-- The message for a path with a fault. -/
def PathFault.messageFor (path : String) (fault : PathFault) : String :=
  "invalid field path " ++ Text.quoted path ++ ": " ++ fault.message

def OrderFault.message : OrderFault → String
  | emptyItem => "empty order_by item"
  | unknownDirection word path => "unknown direction " ++ Text.quoted word ++ " for " ++ path
  | malformedItem item => "expected \"field [asc|desc]\", got " ++ Text.quoted item
  | invalidPath path fault => fault.messageFor path
  | duplicateField path => "field appears in order_by multiple times: " ++ Text.quoted path

def ConfigFault.message : ConfigFault → String
  | columnTable => "column table"
  | keyLength length => "page token key must be 32 bytes, got " ++ toString length
  | keyText => "page token key is not base64"

def Expected.name : Expected → String
  | scalar s => s.name
  | record => "record"
  | list => "list"
  | map => "map"

def Error.message : Error → String
  | invalidFilter position fault =>
    "invalid filter at offset " ++ toString position ++ ": " ++ fault.message
  | invalidOrderBy fault => "invalid order_by: " ++ fault.message
  | invalidFieldPath path fault => fault.messageFor path
  | unsupportedComparison op lhs rhs =>
    "unsupported comparison: " ++ lhs.name ++ " " ++ op.text ++ " " ++ rhs.name
  | recordSortKey => "unsupported comparison: record order_by record"
  | typeMismatch expected actual =>
    "type mismatch: field expects " ++ expected.name ++ ", got " ++ actual.name
  | invalidPageToken => "invalid page token"
  | unsortableField field valid =>
    "no sortable field named " ++ Text.quoted field ++ ", valid fields are " ++
      ", ".intercalate valid
  | duplicateOrderField field =>
    "field appears in order_by multiple times: " ++ Text.quoted field
  | encryption => "encrypting page token failed"
  | config fault => "invalid configuration: " ++ fault.message

end RecordQuery

/-!
# Documents

A document is the common form of configuration and data files: scalars, lists, and maps with texts
as keys. A scalar without quotes is held as written; what it means depends on the dialect and on
what is asked for. A key that is no text is held without one: it can be passed over, not read.
-/

namespace RecordQuery

/-- A document. A quoted scalar without a text has an escape that stands for no character. -/
inductive Document where
  | plain (written : String)
  | quoted (text? : Option String)
  | list (items : List Document)
  | map (pairs : List (Option String × Document))

/-- The dialects documents are written in. -/
inductive Dialect where
  | json
  | yaml
deriving DecidableEq

namespace Document

def ofString (s : String) : Document :=
  quoted (some s)

def ofBool (b : Bool) : Document :=
  plain (if b then "true" else "false")

def ofInt (n : Int) : Document :=
  plain (toString n)

/-- The document of a map with texts as keys. -/
def ofPairs (pairs : List (String × Document)) : Document :=
  map (pairs.map fun (key, d) ↦ (some key, d))

/-- The text that a document is. In YAML quotes may be missing. -/
def text? (dialect : Dialect) : Document → Option String
  | quoted s? => s?
  | plain s => if dialect = .yaml then some s else none
  | _ => none

/-- The truth value that a document is. YAML also writes it with capital letters. -/
def bool? (dialect : Dialect) : Document → Option Bool
  | plain s =>
    let yaml := dialect = .yaml
    if s == "true" || (yaml && (s == "True" || s == "TRUE")) then some true
    else if s == "false" || (yaml && (s == "False" || s == "FALSE")) then some false
    else none
  | _ => none

/-- The items of a list. In YAML an empty scalar is the empty list. -/
def items? (dialect : Dialect) : Document → Option (List Document)
  | list items => some items
  | plain s | quoted (some s) => if dialect = .yaml && s == "" then some [] else none
  | _ => none

/-- The values of the given fields of a structure, which may be missing. A structure is a map with
texts as keys, in which no given field may occur twice and others are ignored. In JSON it may also
be a list of the values in order. -/
def fields? (dialect : Dialect) (labels : List String) : Document → Option (List (Option Document))
  | map pairs =>
    if pairs.all (·.1.isSome) then
      labels.mapM fun label ↦
        match pairs.filter fun pair ↦ pair.1 == some label with
        | [] => some none
        | [pair] => some (some pair.2)
        | _ => none
    else none
  | list items =>
    if dialect = .json && items.length ≤ labels.length then
      some (items.map some ++ List.replicate (labels.length - items.length) none)
    else none
  | _ => none

end Document

end RecordQuery

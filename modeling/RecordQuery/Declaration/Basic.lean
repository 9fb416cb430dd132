/-!
# Declarations

The declaration of a type in a program: its name, its parameters, its fields with their types, and
the attributes on it and on its fields. Only the attribute named `record` says something about
records; it holds a list of items.
-/

namespace RecordQuery

namespace Declaration

/-- The value that is given to a key. -/
inductive GivenValue where
  /-- A text. -/
  | text (s : String)
  /-- Anything else. -/
  | other
deriving DecidableEq

/-- One item of a record attribute. -/
inductive AttributeItem where
  /-- A word alone. -/
  | word (path : String)
  /-- A key with a value. -/
  | assignment (key : String) (value : GivenValue)
  /-- A word with arguments in parentheses. -/
  | call (path : String)
deriving DecidableEq

inductive Attribute where
  /-- A record attribute with its items. -/
  | record (items : List AttributeItem)
  /-- A record attribute that is a word alone. -/
  | bare
  /-- A record attribute with a value in place of its items. -/
  | valued
  /-- An attribute with another name. -/
  | other
deriving DecidableEq

/-- The attribute that is written without a list of items. -/
def Attribute.ofText (s : String) : Attribute :=
  let written := s.toList.dropWhile Char.isWhitespace
  let name := written.takeWhile fun c ↦ c.isAlphanum || c == '_'
  if name == "record".toList then
    match (written.drop name.length).dropWhile Char.isWhitespace with
    | [] => bare
    | '=' :: _ => valued
    | _ => other
  else other

/-- A named field. The identifier is held as written. -/
structure FieldDeclaration where
  identifier : String
  type : String
  attributes : List Attribute
deriving DecidableEq

/-- What a declared type is made of. -/
inductive Body where
  /-- Named fields. -/
  | fields (fields : List FieldDeclaration)
  /-- Fields without names. -/
  | tuple
  /-- Nothing. -/
  | unit
  /-- Alternatives. -/
  | enumeration
  /-- Fields that share their place. -/
  | union
deriving DecidableEq

end Declaration

/-- The declaration of a type; `generics` is what follows its name. -/
structure Declaration where
  identifier : String
  generics : String
  attributes : List Declaration.Attribute
  body : Declaration.Body
deriving DecidableEq

namespace Declaration

/-- Whether the type has parameters: something stands between angle brackets after its name. -/
def isGeneric (d : Declaration) : Bool :=
  match d.generics.toList.dropWhile Char.isWhitespace with
  | '<' :: cs => (cs.dropWhile Char.isWhitespace).head? != some '>'
  | _ => false

/-- The identifier without the mark that lets it be a reserved word. -/
def plainName (identifier : String) : String :=
  match identifier.toList with
  | 'r' :: '#' :: cs => String.ofList cs
  | _ => identifier

end Declaration

end RecordQuery

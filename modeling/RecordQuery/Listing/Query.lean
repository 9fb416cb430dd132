import RecordQuery.Cursor.Position
import RecordQuery.Cursor.Token
import RecordQuery.Filter.Predicate
import RecordQuery.Order.Parser

/-!
# Queries

What a caller asks of a list of records: which records, in which order, and how many at a time. A
request is compiled to a query, which finds the records that come after a position.
-/

namespace RecordQuery

/-- A request for one page of a list. -/
structure PageRequest where
  filter : String
  orderBy : String
  pageSize : Nat
  pageToken? : Option String

def pageSizeLimit : Nat := 1000

/-- Why a page cannot be made. -/
inductive PageError where
  /-- The page size is out of range. -/
  | pageSize
  /-- The filter text does not parse or does not compile. -/
  | filter (cause : Error)
  /-- The order text does not parse or does not compile. -/
  | order (cause : Error)
  /-- The page token is refused. -/
  | pageToken (cause : Error)
  /-- The next page token cannot be made. -/
  | paging (cause : Error)
deriving DecidableEq

namespace PageError

/-- The error of the library behind a failure, if there is one. -/
def cause? : PageError → Option Error
  | pageSize => none
  | filter e | order e | pageToken e | paging e => some e

/-- The messages of a failure, the outermost first. -/
def messages : PageError → List String
  | pageSize => ["page size must be between 1 and " ++ toString pageSizeLimit]
  | filter e => ["invalid filter", e.message]
  | order e => ["invalid order_by", e.message]
  | pageToken e => ["invalid page token", e.message]
  | paging e => [e.message]

def message (e : PageError) : String :=
  e.messages.headD ""

end PageError

/-- A filter and an order that have been checked against a record type. -/
structure Query {ι : Type} [DecidableEq ι] (R : Registry ι) (t : ι) where
  predicate : Predicate R t
  comparator : Comparator R t

namespace Query

variable {ι : Type} [DecidableEq ι] {R : Registry ι} {t : ι}

/-- Compiles a filter text and an order text, where a default order breaks ties. -/
def compile (R : Registry ι) (t : ι) (default : Order) (filter orderBy : String) :
    Except PageError (Query R t) := do
  let predicate ← (Predicate.parse R t filter).mapError .filter
  let order ← (Order.parse orderBy).mapError .order
  let comparator ← ((order.thenBy default).compile R t).mapError .order
  return ⟨predicate, comparator⟩

/-- The order that the records of the list are in. -/
def order (q : Query R t) : Order :=
  q.comparator.order

/-- What page tokens of the query are bound to besides the order: the text of its filter. -/
def context (q : Query R t) : List UInt8 :=
  Text.utf8 q.predicate.filter.text

/-- The matching records that come after a position, in order. -/
def remaining (q : Query R t) (after? : Option (Position R t)) (records : List (Record R t)) :
    List (Record R t) :=
  q.comparator.sort
    ((q.predicate.select records).filter fun r ↦ after?.all fun after ↦ after.precedes r)

/-- The position that a page token carries. -/
def readToken (q : Query R t) (cipher : Cipher) (token : String) :
    Except PageError (Position R t) := do
  let cursor ← (Cursor.decode R t cipher token q.order q.context).mapError .pageToken
  (Position.compile cursor q.order).mapError .paging

/-- The page token that resumes after a record. -/
def writeToken (q : Query R t) (cipher : Cipher) (nonce : List UInt8) (last : Record R t) :
    Except PageError String :=
  (Cursor.encode cipher nonce last q.order q.context).mapError .paging

end Query

end RecordQuery

import RecordQuery.Listing.Query

/-!
# Pages

A page holds the first of the matching records that come after the position of its request. It
carries a token for the next page unless no record is left.
-/

namespace RecordQuery

structure Page {ι : Type} [DecidableEq ι] (R : Registry ι) (t : ι) where
  records : List (Record R t)
  nextPageToken? : Option String

variable {ι : Type} [DecidableEq ι] {R : Registry ι} {t : ι}

namespace Query

/-- The page of a given size that comes after a position. -/
def page (q : Query R t) (cipher : Cipher) (nonce : List UInt8) (size : Nat)
    (after? : Option (Position R t)) (records : List (Record R t)) :
    Except PageError (Page R t) :=
  let remaining := q.remaining after? records
  let shown := remaining.take size
  match shown.getLast? with
  | some last =>
    if size < remaining.length then
      (q.writeToken cipher nonce last).map fun token ↦ ⟨shown, some token⟩
    else .ok ⟨shown, none⟩
  | none => .ok ⟨shown, none⟩

end Query

/-- The page that a request asks for. The page size is checked first, then the filter, the order and
the page token. -/
def PageRequest.answer (request : PageRequest) (default : Order) (cipher : Cipher)
    (nonce : List UInt8) (records : List (Record R t)) : Except PageError (Page R t) :=
  if request.pageSize = 0 ∨ pageSizeLimit < request.pageSize then .error .pageSize
  else do
    let q ← Query.compile R t default request.filter request.orderBy
    let after? ← request.pageToken?.mapM (q.readToken cipher)
    q.page cipher nonce request.pageSize after? records

end RecordQuery

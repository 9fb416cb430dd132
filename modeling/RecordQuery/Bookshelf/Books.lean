import RecordQuery.Document.JsonPrinter
import RecordQuery.Document.Records
import RecordQuery.Listing.Page

/-!
# The bookshelf

A catalogue of books that is read from JSON and listed page by page. Books are ordered by name where
the order of the caller leaves them tied.
-/

namespace RecordQuery.Bookshelf

/-- The record types of the catalogue. -/
inductive BookshelfType where
  | author
  | book
deriving DecidableEq

namespace BookshelfType

def describe : BookshelfType → RecordType BookshelfType
  | author =>
    { name := "Author"
      fields :=
        [.plain "given_name" (.scalar .string), .plain "family_name" (.scalar .string)] }
  | book =>
    { name := "Book"
      fields :=
        [.plain "name" (.scalar .string), .plain "title" (.scalar .string),
          .plain "authors" (.repeated (.record author)),
          .plain "reviews" (.map .string (.scalar .string)),
          .plain "tags" (.repeated (.scalar .string)),
          .plain "page_count" (.scalar (.integer .int64)),
          .plain "published" (.scalar (.integer .int32))] }

end BookshelfType

/-- The registry of the catalogue, with zero default records. -/
def bookshelf : Registry BookshelfType where
  describe := BookshelfType.describe
  default := zeroRecords BookshelfType.describe 1
  default_conforms t := by cases t <;> decide

theorem bookshelf_defaultsAreZero : bookshelf.DefaultsAreZero := by
  intro t
  cases t <;> rfl

abbrev Book := Record bookshelf .book

/-- The order that breaks ties: by name. -/
def byName : Order :=
  ⟨[⟨⟨["name"], by simp, by decide⟩, .asc⟩], by simp⟩

def readBooks? (s : String) : Option (List Book) :=
  (Json.parse? s).bind (Json.readRecords? bookshelf .book)

/-- Lists the books that a request asks for. -/
def bookPage (cipher : Cipher) (nonce : List UInt8) (books : List Book) (request : PageRequest) :
    Except PageError (Page bookshelf .book) :=
  request.answer byName cipher nonce books

/-- The JSON text of a page; the next page token is left out where there is none. -/
def pageText (page : Page bookshelf .book) : String :=
  Json.pretty (.ofPairs
    (("books", .list (page.records.map Json.ofRecord)) ::
      page.nextPageToken?.toList.map fun token ↦ ("next_page_token", .ofString token)))

end RecordQuery.Bookshelf

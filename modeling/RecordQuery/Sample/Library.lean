import RecordQuery.Record.Basic

/-!
# A library catalogue

A family of record types that uses every kind of field: books with their authors, publisher and
several maps, and a tree of labelled nodes.
-/

namespace RecordQuery.Sample

/-- The record types of the catalogue. -/
inductive LibraryType where
  | date
  | author
  | geo
  | address
  | publisher
  | book
  | details
  | node
deriving DecidableEq

namespace LibraryType

private abbrev text : FieldType LibraryType := .scalar .string
private abbrev flag : FieldType LibraryType := .scalar .bool
private abbrev int (t : IntegerType) : FieldType LibraryType := .scalar (.integer t)
private abbrev real (t : FloatType) : FieldType LibraryType := .scalar (.float t)

def describe : LibraryType → RecordType LibraryType
  | date =>
    { name := "Date"
      fields := [.plain "year" (int .int32), .plain "month" (int .uint32)] }
  | author =>
    { name := "Author"
      fields :=
        [.plain "given_name" text, .plain "family_name" text, .plain "birth" (.optional date),
          .plain "awards" (.repeated (.scalar .string))] }
  | geo =>
    { name := "Geo"
      fields := [.plain "lat" (real .double), .plain "lon" (real .double)] }
  | address =>
    { name := "Address"
      fields := [.plain "city" text, .plain "zip" text, .plain "geo" (.embedded geo)] }
  | publisher =>
    { name := "Publisher"
      fields :=
        [.plain "display_name" text, .plain "founded" (int .uint32),
          .plain "hq" (.optional address)] }
  | book =>
    { name := "library.Book"
      fields :=
        [.plain "name" text, .plain "title" text, .plain "author" (.optional author),
          .plain "authors" (.repeated (.record author)), .plain "publisher" (.embedded publisher),
          .plain "reviews" (.map .string (.scalar .string)),
          .plain "items" (.map (.integer .int32) (.scalar .string)),
          .plain "tags" (.repeated (.scalar .string)), .plain "page_count" (int .int64),
          .plain "rating" (real .double), ⟨"in_print", some "available", flag⟩,
          .plain "shelf" (int .int32), .plain "copies" (int .uint32), .plain "stock" (int .uint64),
          .plain "weight" (real .single), .plain "scores" (.repeated (.scalar (.float .double))),
          .plain "years" (.repeated (.scalar (.integer .int32))),
          .plain "flags" (.repeated (.scalar .bool)),
          .plain "credits" (.map .string (.record author)),
          .plain "prices" (.map .string (.scalar (.float .double))),
          .plain "counts" (.map (.integer .uint64) (.scalar (.integer .int64))),
          .plain "by_flag" (.map .bool (.scalar .bool)), .plain "type" text,
          ⟨"cache_key", none, int .uint64⟩] }
  | details =>
    { name := "Meta"
      fields := [.plain "key" text, .plain "ok" flag, .plain "depth" (int .int32)] }
  | node =>
    { name := "Node"
      fields :=
        [.plain "id" (int .uint64), .plain "label" text, .plain "weight" (real .single),
          .plain "children" (.repeated (.record node)),
          .plain "links" (.map .string (.record node)),
          .plain "meta" (.embedded details), ⟨"cache_key", none, int .uint64⟩] }

end LibraryType

/-- The registry of the catalogue, with zero default records. -/
def library : Registry LibraryType where
  describe := LibraryType.describe
  default := zeroRecords LibraryType.describe 3
  default_conforms t := by cases t <;> decide

theorem library_defaultsAreZero : library.DefaultsAreZero := by
  intro t
  cases t <;> rfl

end RecordQuery.Sample

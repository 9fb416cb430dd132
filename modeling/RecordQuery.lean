import RecordQuery.Bookshelf.Books
import RecordQuery.Bookshelf.Command
import RecordQuery.Cipher.Basic
import RecordQuery.Cipher.ChaCha20
import RecordQuery.Cipher.ChaChaPoly
import RecordQuery.Cipher.Poly1305
import RecordQuery.Codec.Base64
import RecordQuery.Codec.Endian
import RecordQuery.Codec.MessagePack
import RecordQuery.Codec.Records
import RecordQuery.CommandLine.Arguments
import RecordQuery.Cursor.Position
import RecordQuery.Cursor.Projection
import RecordQuery.Cursor.Token
import RecordQuery.Declaration.Attribute
import RecordQuery.Declaration.Basic
import RecordQuery.Declaration.Derive
import RecordQuery.Document.Basic
import RecordQuery.Document.Json
import RecordQuery.Document.JsonPrinter
import RecordQuery.Document.Records
import RecordQuery.Document.Yaml
import RecordQuery.Document.Yaml.BlockText
import RecordQuery.Document.Yaml.Character
import RecordQuery.Document.Yaml.Folded
import RecordQuery.Document.Yaml.Lexer
import RecordQuery.Document.Yaml.Parser
import RecordQuery.Document.Yaml.Token
import RecordQuery.Error
import RecordQuery.FieldPath
import RecordQuery.Filter.Compare
import RecordQuery.Filter.Evaluate
import RecordQuery.Filter.Lexer
import RecordQuery.Filter.Parser
import RecordQuery.Filter.Predicate
import RecordQuery.Filter.Printer
import RecordQuery.Filter.Search
import RecordQuery.Filter.Syntax
import RecordQuery.Filter.Token
import RecordQuery.Floating.Basic
import RecordQuery.Floating.Decimal
import RecordQuery.Floating.Exact
import RecordQuery.Floating.Numeral
import RecordQuery.Floating.Rounding
import RecordQuery.Floating.Shortest
import RecordQuery.Listing.Page
import RecordQuery.Listing.Query
import RecordQuery.Number
import RecordQuery.Operator
import RecordQuery.Order.Basic
import RecordQuery.Order.Comparator
import RecordQuery.Order.Parser
import RecordQuery.Proofs.Resolve.SortKey
import RecordQuery.Record.Assemble
import RecordQuery.Record.Assign
import RecordQuery.Record.Basic
import RecordQuery.Record.Debug
import RecordQuery.Record.Edit
import RecordQuery.Record.Equality
import RecordQuery.Registry
import RecordQuery.Resolve
import RecordQuery.Sample.Library
import RecordQuery.Schema
import RecordQuery.Sql.Config
import RecordQuery.Sql.Like
import RecordQuery.Sql.Table
import RecordQuery.Text.Blank
import RecordQuery.Text.CaseTable
import RecordQuery.Text.EscapeTable
import RecordQuery.Text.Lowercase
import RecordQuery.Text.Quoted
import RecordQuery.Text.Split
import RecordQuery.Text.Utf8
import RecordQuery.Value
import RecordQuery.Main
import RecordQuery.Proofs.Order.Preorder
import RecordQuery.Proofs.Order.Compile
import RecordQuery.Proofs.Order.Sort
import RecordQuery.Proofs.Order.ThenBy
import RecordQuery.Proofs.Cursor.Projection
import RecordQuery.Proofs.Cursor.Disclosure
import RecordQuery.Proofs.Codec.Base64
import RecordQuery.Proofs.Listing.Resume
import RecordQuery.Proofs.Listing.Chain
import RecordQuery.Proofs.Bookshelf.Paging
import RecordQuery.Proofs.Filter.Validation
import RecordQuery.Proofs.Filter.Grammar
import RecordQuery.Proofs.Filter.Parser
import RecordQuery.Proofs.Filter.Lexer
import RecordQuery.Proofs.Filter.RoundTrip
import RecordQuery.Proofs.Filter.Seams
import RecordQuery.Proofs.Filter.Composition
import RecordQuery.Proofs.Floating.Rounding
import RecordQuery.Proofs.Floating.Shortest
import RecordQuery.Proofs.Filter.Equality
import RecordQuery.Proofs.Text.Split
import RecordQuery.Proofs.Filter.Operands
import RecordQuery.Proofs.Filter.Acceptance
import RecordQuery.Proofs.Order.Signature
import RecordQuery.Proofs.Text.Utf8
import RecordQuery.Proofs.Cursor.Binding
import RecordQuery.Proofs.Cursor.Position
import RecordQuery.Proofs.Record.Agreement
import RecordQuery.Proofs.Record.Equality
import RecordQuery.Proofs.Resolve.Walk
import RecordQuery.Proofs.Resolve.Agreement
import RecordQuery.Proofs.Filter.Agreement
import RecordQuery.Proofs.Resolve.Leaves
import RecordQuery.Proofs.Filter.Scatter
import RecordQuery.Proofs.Filter.Written
import RecordQuery.Proofs.Bookshelf.Binding
import RecordQuery.Proofs.Declaration.Attributes
import RecordQuery.Proofs.FieldPath
import RecordQuery.Proofs.Declaration.Derive
import RecordQuery.Proofs.Filter.Single
import RecordQuery.Proofs.Declaration.Names
import RecordQuery.Proofs.Text.Lowercase
import RecordQuery.Proofs.Filter.Search
import RecordQuery.Proofs.Floating.Monotone
import RecordQuery.Proofs.Floating.Value
import RecordQuery.Proofs.Number.Order
import RecordQuery.Proofs.Filter.Searched
import RecordQuery.Proofs.Filter.Integers
import RecordQuery.Proofs.Record.Edit
import RecordQuery.Proofs.Record.Assignment
import RecordQuery.Proofs.Resolve.Unset
import RecordQuery.Proofs.Record.Write
import RecordQuery.Proofs.Order.Keys
import RecordQuery.Proofs.Record.Reset
import RecordQuery.Proofs.Filter.Ordered
import RecordQuery.Proofs.Order.Operators
import RecordQuery.Proofs.Record.Symmetry
import RecordQuery.Proofs.Filter.Coherence
import RecordQuery.Proofs.Filter.Lexemes
import RecordQuery.Proofs.Filter.Spacing
import RecordQuery.Proofs.Filter.Prefixes
import RecordQuery.Proofs.Filter.Quotation
import RecordQuery.Proofs.Order.Merge
import RecordQuery.Proofs.Order.Parser
import RecordQuery.Proofs.Text.Words
import RecordQuery.Proofs.Sql.Clause
import RecordQuery.Proofs.Sql.Like

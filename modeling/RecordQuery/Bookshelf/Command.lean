import RecordQuery.Bookshelf.Books
import RecordQuery.Cipher.ChaChaPoly
import RecordQuery.CommandLine.Arguments

/-!
# The bookshelf command

Lists the books of a JSON file, one page at a time. The key of the page tokens comes from an option
or else from the environment; without either it is random, so that the tokens cannot be used again.
-/

namespace RecordQuery.Bookshelf

open CommandLine

/-- The page size of a text: digits, perhaps after a plus sign, that fit into a machine word. -/
def readPageSize? (s : String) : Option Nat :=
  let digits :=
    match s.toList with
    | '+' :: cs => cs
    | cs => cs
  if !digits.isEmpty && digits.all Char.isDigit then
    let n := Decimal.value digits
    if n < 0x10000000000000000 then some n else none
  else none

/-- The options of the command. -/
def interface : Interface where
  valued :=
    [("filter", fun _ ↦ true), ("order-by", fun _ ↦ true),
      ("page-size", fun s ↦ (readPageSize? s).isSome), ("page-token", fun _ ↦ true),
      ("key", fun _ ↦ true)]
  flags := ["generate-key"]

/-- What the command is told to do. -/
inductive Task where
  /-- Explain the options. -/
  | showHelp
  /-- Name the version. -/
  | showVersion
  /-- Show a new key. -/
  | generateKey
  /-- List the books of a file. -/
  | list (path : String) (request : PageRequest) (key? : Option String)

namespace Task

/-- The task that arguments describe. -/
def ofArguments (a : Arguments) : Except UsageFault Task :=
  if a.flags.contains "generate-key" then .ok generateKey
  else
    match a.argument? with
    | none => .error (.missingArgument "DATA")
    | some path =>
      let request : PageRequest :=
        { filter := (a.value? "filter").getD ""
          orderBy := (a.value? "order-by").getD ""
          pageSize := ((a.value? "page-size").bind readPageSize?).getD 10
          pageToken? := a.value? "page-token" }
      .ok (list path request (a.value? "key"))

def read (arguments : List String) : Except UsageFault Task := do
  match ← CommandLine.read interface arguments with
  | .help => return showHelp
  | .version => return showVersion
  | .run a => ofArguments a

def path? : Task → Option String
  | list path .. => some path
  | _ => none

end Task

/-- What the command finds around it: the text of each file, unless it cannot be read, the key of
the environment, and random bytes. -/
structure Surroundings where
  file? : String → Option String
  key? : Option String
  randomKey : Cipher.Key
  nonce : List UInt8

inductive Failure where
  /-- The file cannot be read. -/
  | reading (path : String)
  /-- The file holds no list of books. -/
  | parsing (path : String)
  /-- The key is none. -/
  | key (cause : Error)
  /-- The books cannot be listed as asked. -/
  | listing (cause : PageError)

def Failure.message : Failure → String
  | reading path => "reading " ++ path
  | parsing path => "parsing " ++ path
  | key _ => "invalid page token key"
  | listing e => e.message

/-- The text that explains the command. -/
def helpText : String :=
  "\n".intercalate
    ["List books with AIP-style queries",
      "",
      "Usage: bookshelf [OPTIONS] [DATA]",
      "",
      "Arguments:",
      "  [DATA]  JSON file holding an array of books",
      "",
      "Options:",
      "      --filter <FILTER>          AIP-160 filter expression [default: ]",
      "      --order-by <ORDER_BY>      Comma-separated sort keys, each optionally followed by " ++
        "`desc` [default: ]",
      "      --page-size <PAGE_SIZE>    [default: 10]",
      "      --page-token <PAGE_TOKEN>  Token from a previous response",
      "      --key <KEY>                Base64 page token key [env: BOOKSHELF_KEY]",
      "      --generate-key             Print a new random key and exit",
      "  -h, --help                     Print help",
      "  -V, --version                  Print version"]

/-- The text that names the version of the command. -/
def versionText : String := "bookshelf 0.1.0"

def Task.perform (s : Surroundings) : Task → Except Failure String
  | .showHelp => .ok helpText
  | .showVersion => .ok versionText
  | .generateKey => .ok s.randomKey.toBase64
  | .list path request key? => do
    let some text := s.file? path | .error (.reading path)
    let some books := readBooks? text | .error (.parsing path)
    let key ←
      match key? <|> s.key? with
      | some text => (Cipher.Key.ofBase64 text).mapError .key
      | none => .ok s.randomKey
    let page ← (bookPage (Cipher.chaChaPoly key) s.nonce books request).mapError .listing
    return pageText page

/-- What the command leaves behind: its exit code, what it writes, and what it complains of. -/
structure Outcome where
  exitCode : Nat
  output : String
  complaint : String

/-- Runs the command: a fault of the arguments gives exit code 2, the failure of a task 1. -/
def run (s : Surroundings) (arguments : List String) : Outcome :=
  match Task.read arguments with
  | .error fault => ⟨2, "", "error: " ++ fault.message ++ "\n"⟩
  | .ok task =>
    match task.perform s with
    | .ok text => ⟨0, text ++ "\n", ""⟩
    | .error e => ⟨1, "", "Error: " ++ e.message ++ "\n"⟩

end RecordQuery.Bookshelf

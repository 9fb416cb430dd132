import RecordQuery.Document.Yaml.Lexer
import RecordQuery.Document.Yaml.Parser

/-!
# Reading YAML

YAML text is read into tokens, and the tokens into a document. It is one document: block and flow
collections, scalars of all styles, anchors and comments. Tags are passed over, and of directives
only the version is read. A text without content is no document.
-/

namespace RecordQuery.Yaml

/-- Reads YAML text. -/
def parse? (s : String) : Option Document :=
  (tokens? s).bind ofTokens?

end RecordQuery.Yaml

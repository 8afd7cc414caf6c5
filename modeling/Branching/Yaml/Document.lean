import Branching.Yaml.Token.Lexer
import Branching.Yaml.Compose
import Branching.Yaml.Construct

/-!
# Loading YAML documents

A `Yaml.Loader` reads texts one after another, each as a stream of at most
one document, and gives the value of its root node, or none when the stream
holds no document. The text is scanned into tokens, the tokens composed into
nodes, and the root node constructed into a value (`Yaml.Token.Lexer`,
`Yaml.Compose`, `Yaml.Construct`). Composing resolves the tags of plain
scalars as it goes; when the text cannot be cut into tokens, a failure of
composing is still found first if the tokens before the flaw lead to it, since
the composer meets the lexer's failure only when it reads past them.

The version that decides how plain scalars are resolved and how numbers are
read is the loader's: none (version 1.2) at first, then whatever the last
explicit document start of any text it read set, the version a `%YAML`
directive names or none. A document without `---` keeps the version the
texts before it left, so one loader reads the same text differently after a
text of version 1.1. Likewise a construction that fails while it builds
something in full (a key, say) leaves the loader building the next document
in full from its root, until a construction succeeds.

Configuration and variable files must hold a mapping (`Loader.readMapping`);
a void document (none, null, false, a zero, an empty text or collection)
stands for the empty one. Ordered mappings are mappings too.
-/

namespace Branching.Yaml

/-- What a reader of a text is told of a fault: an engine error as it is,
anything else worded with the snippets of the text at its marks. -/
def Fault.failure (text : Array Char) : Fault → Failure
  | .failed e => .failed e
  | f => .malformed (f.text text)

/-- What reads YAML texts one after another: the version the last explicit
document start set, none for version 1.2; and whether the next document is
built in full from its root, as it is after a construction that failed while
building something in full, until a construction succeeds. -/
structure Loader where
  version : Option (Nat × Nat) := none
  inFull : Bool := false

namespace Loader

/-- The value of the document a text holds, if it holds one, and the loader
after reading it. -/
def load (l : Loader) (source : String) : Except Failure (Option Value) × Loader :=
  let text := source.toList.toArray
  let (tokens, stop) := scan l.version source
  match compose tokens stop l.version with
  | (.error f, v) => (.error (f.failure text), { l with version := v })
  | (.ok none, v) => (.ok none, { l with version := v })
  | (.ok (some doc), v) =>
    match doc.value (v.getD (1, 2)) l.inFull with
    | (.ok value, inFull) => (.ok (some value), ⟨v, inFull⟩)
    | (.error f, inFull) => (.error (f.failure text), ⟨v, inFull⟩)

end Loader

/-- Whether a document's value stands for no value at all: null, false, a
zero, or an empty text, byte string or collection. -/
def isVoid : Value → Bool
  | .nil => true
  | .bool b => !b
  | .int n => n = 0
  | .float x => x.toDyadic?.any fun d => d.compare (.ofInt 0) == .eq
  | .str s => s.isEmpty
  | .list xs | .tuple xs | .set xs => xs.isEmpty
  | .dict es | .ordered es => es.isEmpty
  | .bytes bs => bs.isEmpty
  | _ => false

/-- What a document holds where a mapping is wanted. -/
inductive MappingRead where
  /-- The entries of the mapping; none for a void document. -/
  | entries (es : List (Value × Value))
  /-- A value that is not a mapping. -/
  | notMapping
  /-- A text that gives no value. -/
  | failed (f : Failure)

/-- Reads a document as a mapping: a void document is the empty one. Gives
also the loader after reading it. -/
def Loader.readMapping (l : Loader) (source : String) : MappingRead × Loader :=
  let (result, l) := l.load source
  let read := match result with
    | .error f => .failed f
    | .ok none => .entries []
    | .ok (some v) =>
      if isVoid v then .entries []
      else match v with
        | .dict entries | .ordered entries => .entries entries
        | _ => .notMapping
  (read, l)

end Branching.Yaml

import Branching.Yaml.Mark

/-!
# Nodes of a YAML document

Reading a document goes in three steps: the lexer cuts the text into tokens,
the composer builds the graph of nodes those tokens describe, and the
constructor turns nodes into values. A node is a scalar (its text), a
sequence or a mapping, each with the tag that says what value it stands for.
Tags are known when a node is built: written ones are expanded through the
document's tag handles, and the others are resolved from the node's kind and,
for plain scalars, from the text itself (`Yaml.Resolve`).

Every node has a number of its own, in the order the nodes start, and the
mark where it starts. An alias stands for the node its anchor names, which may
be a node the alias is inside of: it is kept as the number of that node, and a
document keeps every node by its number, so that the constructor builds a
node once however many aliases name it.
-/

namespace Branching.Yaml

/-- The full name of a tag of the core schema. -/
def coreTag (name : String) : String := "tag:yaml.org,2002:" ++ name

/-- Where a node comes from: its number and the mark where it starts. -/
structure Origin where
  id : Nat
  start : Mark
  deriving Inhabited

/-- A node with its tag, or an alias. -/
inductive Node where
  | scalar (tag : String) (text : String) (origin : Origin)
  | sequence (tag : String) (items : List Node) (origin : Origin)
  | mapping (tag : String) (entries : List (Node × Node)) (origin : Origin)
  /-- An alias of the node with this number, with the mark of the alias. -/
  | aliasOf (id : Nat) (start : Mark)
  deriving Inhabited

namespace Node

/-- The tag of a node; an alias has none of its own. -/
def tag : Node → String
  | scalar t _ _ | sequence t _ _ | mapping t _ _ => t
  | aliasOf _ _ => ""

/-- The mark where a node starts. -/
def start : Node → Mark
  | scalar _ _ o | sequence _ _ o | mapping _ _ o => o.start
  | aliasOf _ m => m

/-- The name of a node's kind, as messages give it. -/
def kindName : Node → String
  | scalar _ _ _ => "scalar"
  | sequence _ _ _ => "sequence"
  | mapping _ _ _ => "mapping"
  | aliasOf _ _ => "alias"

end Node

/-- A composed document: its root node, and every node by its number. -/
structure Document where
  root : Node
  nodes : Array Node

/-- Why a document gives no value. -/
inductive Failure where
  /-- The text is not a well-formed document, or it asks for a value that
  cannot be built from what it holds. -/
  | malformed (reason : String)
  /-- Building a value failed the way the engine's own operations fail. -/
  | failed (e : Error)

end Branching.Yaml

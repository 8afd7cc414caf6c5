import Branching.Yaml.Resolve
import Branching.Yaml.Token

/-!
# Composing the nodes of a document

The composer reads tokens by the grammar of YAML streams:

- a stream is an optional implicit document followed by explicit documents,
  each of those being directives, `---` and an optional block node, and each
  document maybe closed by `...` (with nothing but a comment after it on its
  line);
- a block node is an alias, or properties (an anchor and a tag, in either
  order, each optional) followed by a block or flow collection or a scalar; a
  node with properties and no content is the empty scalar;
- block sequences, block mappings (whose keys and values may also be
  sequences written at the key's own indentation), flow sequences (whose
  entries may be single-pair mappings) and flow mappings.

From version 1.2 on, a mapping entry may leave out its key and start at the
value indicator. A stream holds at most one document; a second one is an error,
found once its directives and its `---` have been read.

The directives of a document name at most one version, of major version 1 and
minor version 1 or 2, and each tag handle at most once. The version that
decides how the text is read is set from outside before the text; an explicit
document start (the first document's or the refused second one's) sets it to
the version its directives name, or to none (version 1.2) when none does, and
an implicit document leaves it as it is.

A written tag is expanded through the document's tag handles (`!` and `!!` by
default); a node without a tag, or with the non-specific tag `!`, gets its tag
from `Resolve.plainTag` when it is a plain scalar (or a scalar tagged `!`), and
is a string, sequence or mapping otherwise.

Nodes are numbered as they start. An anchor names its node from where the node
starts, so that an alias inside the node stands for the node itself; a later
anchor of the same name takes the name over.

When the tokens stop short of the end of the stream, reading past them meets
the fault that stopped the lexer.

Every step consumes a token or ends a node, and each nested call and each
entry of a collection uses up one unit of the fuel, which starts above twice
the number of tokens.
-/

namespace Branching.Yaml

/-- The state of composition: the tokens, the fault met past them (none when
they run to the end of the stream), the place of the next one, the version
set (by the reader before the text, then by each document start; none means
1.2), the tag handles of the current document, the anchors seen so far
(latest first), and the nodes by number. -/
structure Composer where
  tokens : Array (Positioned Token)
  stop : Option Fault
  position : Nat
  version : Option (Nat × Nat)
  handles : List (String × String)
  anchors : List (String × Nat)
  nodes : Array Node

/-- A composition step; a failure keeps the state it was met in. -/
abbrev Compose := ExceptT Fault (StateM Composer)

namespace Compose

/-- The handles every document knows. -/
def defaultHandles : List (String × String) := [("!", "!"), ("!!", coreTag "")]

/-- The version a setting stands for: 1.2 when none is set. -/
def effective (v : Option (Nat × Nat)) : Nat × Nat := v.getD (1, 2)

/-- Whether the version set is later than 1.1. -/
def laterThan11 (v : Option (Nat × Nat)) : Bool :=
  let (major, minor) := effective v
  1 < major || (major = 1 && 1 < minor)

/-- Fails with a problem at a mark. -/
def complain {α : Type} (problem : String) (place : Mark) : Compose α :=
  throw (.complaint (.at problem place))

/-- Fails with a problem at a mark, found while reading what started at
`start`. -/
def complainWhile {α : Type} (context : String) (start : Mark) (problem : String) (place : Mark) :
    Compose α :=
  throw (.complaint (.within context start problem place))

/-- The next token, or the lexer's fault past the last one. -/
def peekToken : Compose (Positioned Token) := do
  let s ← get
  match s.tokens[s.position]?, s.stop with
  | some t, _ => return t
  | none, some f => throw f
  | none, none => return s.tokens.back?.getD ⟨.streamEnd, default, default⟩

/-- The kind of the next token. -/
def peek : Compose Token := return (← peekToken).value

/-- Takes the next token. -/
def next : Compose (Positioned Token) := do
  let t ← peekToken
  modify fun s => { s with position := s.position + 1 }
  return t

/-- Whether the next token is one of the given ones. -/
def nextIsOneOf (ts : List Token) : Compose Bool := return ts.contains (← peek)

/-- A message's quotation of a token's kind. -/
def named (t : Positioned Token) : String := Text.quoteString t.value.name

/-- A number for a node that starts. -/
def newId : Compose Nat := do
  let s ← get
  set { s with nodes := s.nodes.push default }
  return s.nodes.size

/-- Keeps a node under its number. -/
def keep (id : Nat) (n : Node) : Compose Node := do
  modify fun s => { s with nodes := s.nodes.setIfInBounds id n }
  return n

/-- Names a node by an anchor. -/
def nameAnchor (name : Option String) (id : Nat) : Compose Unit :=
  match name with
  | some a => modify fun s => { s with anchors := (a, id) :: s.anchors }
  | none => pure ()

/-- The node an alias names. -/
def aliased (name : String) (start : Mark) : Compose Node := do
  match (← get).anchors.lookup name with
  | some id => return .aliasOf id start
  | none => complain ("found undefined alias " ++ Text.quoteString name) start

/-- The properties of a node: its anchor, its written tag (handle and
suffix), the mark of the tag, and the mark of the first property. -/
structure Properties where
  anchor : Option String := none
  tag : Option (Option String × String) := none
  tagMark : Option Mark := none
  start : Option Mark := none

/-- Reads the properties of a node: an anchor and a tag, in either order. -/
def properties : Compose Properties := do
  let t ← peekToken
  match t.value with
  | .anchor a =>
    let _ ← next
    let u ← peekToken
    match u.value with
    | .tag h s => let _ ← next; return { anchor := some a, tag := some (h, s), tagMark := some u.start, start := some t.start }
    | _ => return { anchor := some a, start := some t.start }
  | .tag h s =>
    let _ ← next
    let u ← peekToken
    match u.value with
    | .anchor a => let _ ← next; return { anchor := some a, tag := some (h, s), tagMark := some t.start, start := some t.start }
    | _ => return { tag := some (h, s), tagMark := some t.start, start := some t.start }
  | _ => return {}

/-- The full tag of a written tag of a node that starts at `start`. -/
def fullTag (start : Mark) (tagMark : Mark) : Option String × String → Compose String
  | (none, suffix) => return suffix
  | (some h, suffix) => do
    match (← get).handles.lookup h with
    | some p => return p ++ suffix
    | none => complainWhile "while parsing a node" start ("found undefined tag handle " ++ Text.quoteString h) tagMark

/-- The tag of a scalar: a written specific tag as it is, otherwise resolved
from the text when `resolvable`, otherwise a string. -/
def scalarTag (tag : Option String) (resolvable : Bool) (text : String) : Compose String := do
  match tag with
  | some t => if t != "!" then return t else pure ()
  | none => pure ()
  if resolvable then
    match Resolve.plainTag (effective (← get).version) text with
    | .ok t => return t
    | .error e => throw (.failed e)
  else return coreTag "str"

/-- The tag of a collection: a written specific tag as it is, otherwise the
default for its kind. -/
def collectionTag (tag : Option String) (kind : String) : String :=
  match tag with
  | some t => if t = "!" then coreTag kind else t
  | none => coreTag kind

/-- A scalar node, numbered and named by its anchor. -/
def scalarNode (anchor : Option String) (tag : String) (text : String) (start : Mark) : Compose Node := do
  let id ← newId
  nameAnchor anchor id
  keep id (.scalar tag text ⟨id, start⟩)

/-- The empty scalar that stands for a missing node at a mark. -/
def emptyScalar (place : Mark) : Compose Node := do
  scalarNode none (← scalarTag none true "") "" place

/-- The empty scalar at the start of the next token. -/
def emptyHere : Compose Node := do emptyScalar (← peekToken).start

mutual

/-- Reads a node. `block` allows block collections; `indentless` allows a
block sequence without indentation (as a mapping value). -/
def node (block indentless : Bool) : Nat → Compose Node
  | 0 => do complain "the document is nested too deeply" (← peekToken).start
  | fuel + 1 => do
    let t ← peekToken
    match t.value with
    | .aliasOf name => let _ ← next; aliased name t.start
    | _ =>
      let p ← properties
      let tag ← match p.tag, p.start with
        | some w, some start => some <$> fullTag start (p.tagMark.getD start) w
        | _, _ => pure none
      let start ← match p.start with
        | some m => pure m
        | none => (·.start) <$> peekToken
      let implicit := tag.isNone || tag = some "!"
      if indentless && (← peek) = .blockEntry then
        let id ← newId
        nameAnchor p.anchor id
        let items ← indentlessEntries fuel []
        keep id (.sequence (collectionTag tag "seq") items ⟨id, start⟩)
      else content block p.anchor tag implicit start fuel

/-- Reads the content of a node after its properties; `start` is where the
node starts. -/
def content (block : Bool) (anchor tag : Option String) (implicit : Bool) (start : Mark) :
    Nat → Compose Node
  | 0 => do complain "the document is nested too deeply" (← peekToken).start
  | fuel + 1 => do
    let t ← peekToken
    match t.value with
    | .scalar text style =>
      let _ ← next
      let resolvable := (style = .plain && tag.isNone) || tag = some "!"
      scalarNode anchor (← scalarTag tag resolvable text) text start
    | .flowSequenceStart =>
      let _ ← next
      let id ← newId
      nameAnchor anchor id
      let items ← flowItems t.start true fuel []
      keep id (.sequence (collectionTag tag "seq") items ⟨id, start⟩)
    | .flowMappingStart =>
      let _ ← next
      let id ← newId
      nameAnchor anchor id
      let entries ← flowEntries t.start true fuel []
      keep id (.mapping (collectionTag tag "map") entries ⟨id, start⟩)
    | .blockSequenceStart =>
      if block then
        let _ ← next
        let id ← newId
        nameAnchor anchor id
        let items ← blockEntries t.start fuel []
        keep id (.sequence (collectionTag tag "seq") items ⟨id, start⟩)
      else emptyOrFail anchor tag implicit block start
    | .blockMappingStart =>
      if block then
        let _ ← next
        let id ← newId
        nameAnchor anchor id
        let entries ← blockPairs t.start fuel []
        keep id (.mapping (collectionTag tag "map") entries ⟨id, start⟩)
      else emptyOrFail anchor tag implicit block start
    | _ => emptyOrFail anchor tag implicit block start

/-- The empty scalar of a node that has properties but no content; an error
for a node with neither. -/
def emptyOrFail (anchor tag : Option String) (implicit block : Bool) (start : Mark) : Compose Node := do
  if anchor.isSome || tag.isSome then
    scalarNode anchor (← scalarTag tag implicit "") "" start
  else
    let t ← peekToken
    complainWhile ("while parsing a " ++ (if block then "block" else "flow") ++ " node") start
      ("expected the node content, but found " ++ named t) t.start

/-- Reads the entries of a block sequence, which started at `opened`, up to
its end. -/
def blockEntries (opened : Mark) : Nat → List Node → Compose (List Node)
  | 0, _ => do complain "the document is nested too deeply" (← peekToken).start
  | fuel + 1, acc => do
    let t ← peekToken
    match t.value with
    | .blockEntry =>
      let _ ← next
      let item ← if (← nextIsOneOf [.blockEntry, .blockEnd]) then emptyScalar t.stop else node true false fuel
      blockEntries opened fuel (item :: acc)
    | .blockEnd => let _ ← next; return acc.reverse
    | _ =>
      complainWhile "while parsing a block collection" opened ("expected <block end>, but found " ++ named t)
        t.start

/-- Reads the entries of a sequence written without indentation, up to the
first token that is not an entry. -/
def indentlessEntries : Nat → List Node → Compose (List Node)
  | 0, _ => do complain "the document is nested too deeply" (← peekToken).start
  | fuel + 1, acc => do
    let t ← peekToken
    match t.value with
    | .blockEntry =>
      let _ ← next
      let item ← if (← nextIsOneOf [.blockEntry, .key, .value, .blockEnd]) then emptyScalar t.stop
        else node true false fuel
      indentlessEntries fuel (item :: acc)
    | _ => return acc.reverse

/-- Reads the value of a block mapping entry: after a value indicator, a node
(an empty one when the entry ends there); without one, the empty scalar. -/
def blockValue : Nat → Compose Node
  | 0 => do complain "the document is nested too deeply" (← peekToken).start
  | fuel + 1 => do
    let t ← peekToken
    if t.value = .value then
      let _ ← next
      if (← nextIsOneOf [.key, .value, .blockEnd]) then emptyScalar t.stop else node true true fuel
    else emptyScalar t.start

/-- Reads the entries of a block mapping, which started at `opened`, up to its
end. -/
def blockPairs (opened : Mark) : Nat → List (Node × Node) → Compose (List (Node × Node))
  | 0, _ => do complain "the document is nested too deeply" (← peekToken).start
  | fuel + 1, acc => do
    let t ← peekToken
    let refuse : Compose (List (Node × Node)) :=
      complainWhile "while parsing a block mapping" opened ("expected <block end>, but found " ++ named t)
        t.start
    match t.value with
    | .key =>
      let _ ← next
      let key ← if (← nextIsOneOf [.key, .value, .blockEnd]) then emptyScalar t.stop else node true true fuel
      let value ← blockValue fuel
      blockPairs opened fuel ((key, value) :: acc)
    | .value =>
      if laterThan11 (← get).version then
        let key ← emptyScalar t.start
        let value ← blockValue fuel
        blockPairs opened fuel ((key, value) :: acc)
      else refuse
    | .blockEnd => let _ ← next; return acc.reverse
    | _ => refuse

/-- Reads the value of a flow entry after its key: after a value indicator, a
node unless the entry ends there; the empty scalar otherwise. -/
def flowValue (closer : Token) : Nat → Compose Node
  | 0 => do complain "the document is nested too deeply" (← peekToken).start
  | fuel + 1 => do
    let t ← peekToken
    if t.value = .value then
      let _ ← next
      if (← nextIsOneOf [.flowEntry, closer]) then emptyScalar t.stop else node false false fuel
    else emptyScalar t.start

/-- Reads a single-pair mapping inside a flow sequence, from its key
indicator. -/
def flowPair : Nat → Compose Node
  | 0 => do complain "the document is nested too deeply" (← peekToken).start
  | fuel + 1 => do
    let t ← next
    let id ← newId
    let key ← if (← nextIsOneOf [.value, .flowEntry, .flowSequenceEnd]) then emptyScalar t.stop
      else node false false fuel
    let value ← flowValue .flowSequenceEnd fuel
    keep id (.mapping (coreTag "map") [(key, value)] ⟨id, t.start⟩)

/-- Reads the entries of a flow sequence, which started at `opened`, up to its
end; `first` tells that no entry has been read. -/
def flowItems (opened : Mark) (first : Bool) : Nat → List Node → Compose (List Node)
  | 0, _ => do complain "the document is nested too deeply" (← peekToken).start
  | fuel + 1, acc => do
    if (← peek) = .flowSequenceEnd then
      let _ ← next
      return acc.reverse
    if !first then
      let t ← peekToken
      if t.value = .flowEntry then let _ ← next
      else
        complainWhile "while parsing a flow sequence" opened ("expected ',' or ']', but got " ++ named t)
          t.start
    match ← peek with
    | .key =>
      let pair ← flowPair fuel
      flowItems opened false fuel (pair :: acc)
    | .flowSequenceEnd => let _ ← next; return acc.reverse
    | _ =>
      let item ← node false false fuel
      flowItems opened false fuel (item :: acc)

/-- Reads the entries of a flow mapping, which started at `opened`, up to its
end; `first` tells that no entry has been read. -/
def flowEntries (opened : Mark) (first : Bool) : Nat → List (Node × Node) → Compose (List (Node × Node))
  | 0, _ => do complain "the document is nested too deeply" (← peekToken).start
  | fuel + 1, acc => do
    if (← peek) = .flowMappingEnd then
      let _ ← next
      return acc.reverse
    if !first then
      let t ← peekToken
      if t.value = .flowEntry then let _ ← next
      else
        complainWhile "while parsing a flow mapping" opened ("expected ',' or '\x7d', but got " ++ named t)
          t.start
    let t ← peekToken
    match t.value with
    | .key =>
      let _ ← next
      let key ← if (← nextIsOneOf [.value, .flowEntry, .flowMappingEnd]) then emptyScalar t.stop
        else node false false fuel
      let value ← flowValue .flowMappingEnd fuel
      flowEntries opened false fuel ((key, value) :: acc)
    | .value =>
      if laterThan11 (← get).version then
        let key ← emptyScalar t.stop
        let value ← flowValue .flowMappingEnd fuel
        flowEntries opened false fuel ((key, value) :: acc)
      else
        let key ← node false false fuel
        flowEntries opened false fuel ((key, ← emptyHere) :: acc)
    | .flowMappingEnd => let _ ← next; return acc.reverse
    | _ =>
      let key ← node false false fuel
      flowEntries opened false fuel ((key, ← emptyHere) :: acc)

end

/-- Reads the directives before an explicit document, checking that the
version is named at most once and is of major version 1, and that no handle
is named twice; then that the version's minor version is 1 or 2. Sets the
version the directives name (none when none does) and the document's tag
handles. -/
def directives : Nat → Option (Nat × Nat) → List (String × String) → Compose Unit
  | 0, _, _ => do complain "too many directives" (← peekToken).start
  | fuel + 1, version, handles => do
    let t ← peekToken
    match t.value with
    | .versionDirective major minor =>
      let _ ← next
      if version.isSome then complain "found duplicate YAML directive" t.start
      if major != 1 then complain "found incompatible YAML document (version 1.* is required)" t.start
      directives fuel (some (major, minor)) handles
    | .tagDirective h p =>
      let _ ← next
      if (handles.lookup h).isSome then complain ("duplicate tag handle " ++ Text.quoteString h) t.start
      directives fuel version (handles ++ [(h, p)])
    | .otherDirective => let _ ← next; directives fuel version handles
    | _ =>
      match version with
      | some (major, minor) =>
        if minor != 1 && minor != 2 then throw (.failed (.unknownMinorVersion major minor))
      | none => pure ()
      let missing := defaultHandles.filter fun d => (handles.lookup d.1).isNone
      modify fun s => { s with version := version, handles := handles ++ missing }

/-- Moves past any number of document end markers. -/
def skipDocumentEnds : Nat → Compose Unit
  | 0 => pure ()
  | fuel + 1 => do
    if (← peek) = .documentEnd then
      let _ ← next
      skipDocumentEnds fuel

/-- Reads the start of an explicit document: its directives and `---`; gives
the mark of the `---`. -/
def explicitStart (fuel : Nat) : Compose Mark := do
  directives fuel none []
  let t ← peekToken
  if t.value != .documentStart then
    complain ("expected '<document start>', but found (" ++ named t ++ ",)") t.start
  let _ ← next
  return t.start

/-- Reads a document, explicit or (when `implicitAllowed`) implicit; `none`
at the end of the stream. Tells also whether the document ended with `...`. -/
def document (implicitAllowed : Bool) (fuel : Nat) : Compose (Option (Node × Bool)) := do
  let t ← peek
  let body : Compose (Option Node) :=
    if implicitAllowed && !t.isDirective && t != .documentStart && t != .streamEnd then do
      modify fun s => { s with handles := defaultHandles }
      some <$> node true false fuel
    else do
      skipDocumentEnds fuel
      if (← peek) = .streamEnd then return none
      let _ ← explicitStart fuel
      if (← nextIsOneOf [.documentStart, .documentEnd, .streamEnd]) || (← peek).isDirective then
        some <$> emptyHere
      else some <$> node true false fuel
  match ← body with
  | none => return none
  | some n =>
    let t ← peekToken
    if t.value = .documentEnd then
      let _ ← next
      let u ← peekToken
      if u.value != .streamEnd && u.start.line = t.stop.line then
        complain ("found non-comment content after document end marker, (" ++ named u ++ ",)") u.start
      return some (n, true)
    else return some (n, false)

/-- The start of the document that follows one, for the refusal of a second
document: the mark of its `---` when it is explicit, of its first token when
it is not. -/
def nextDocumentStart (implicitAllowed : Bool) (fuel : Nat) : Compose Mark := do
  let t ← peekToken
  if implicitAllowed && !t.value.isDirective && t.value != .documentStart then return t.start
  else explicitStart fuel

/-- Reads a stream that holds at most one document. -/
def stream (fuel : Nat) : Compose (Option Node) := do
  if (← peek) = .streamStart then let _ ← next
  match ← document true fuel with
  | none => return none
  | some (n, explicitEnd) =>
    let implicitNext := explicitEnd && effective (← get).version != (1, 1)
    if !implicitNext then skipDocumentEnds fuel
    if (← peek) = .streamEnd then return some n
    let second ← nextDocumentStart implicitNext fuel
    throw (.complaint (.within "expected a single document in the stream" n.start "but found another document" second))

end Compose

/-- The document the tokens hold, if they hold one, with the version set
after reading them: the given one, unless a document start sets another.
Reading past the tokens meets `stop` when that is given. -/
def compose (tokens : Array (Positioned Token)) (stop : Option Fault) (version : Option (Nat × Nat)) :
    Except Fault (Option Document) × Option (Nat × Nat) :=
  let start : Composer :=
    { tokens, stop, position := 0, version, handles := Compose.defaultHandles, anchors := [], nodes := #[] }
  match (Compose.stream (2 * tokens.size + 4)).run.run start with
  | (.ok (some root), s) => (.ok (some { root, nodes := s.nodes }), s.version)
  | (.ok none, s) => (.ok none, s.version)
  | (.error f, s) => (.error f, s.version)

end Branching.Yaml

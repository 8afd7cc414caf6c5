import Branching.Yaml.Timestamp
import Branching.Number.FloatText
import Branching.Number.IntegerText
import Branching.Text.Base64

/-!
# Constructing values from nodes

Each tag of the core schema has its constructor:

- `null`, `bool`, `int`, `float`, `str`, `binary` and `timestamp` read a
  scalar's text (where a mapping with a value key `=` stands for that key's
  value);
- `seq` gives a list, `map` a mapping, `set` the set of a mapping's keys,
  `omap` an ordered mapping and `pairs` a list of pairs, the last two from
  sequences of single-pair mappings.

Any other tag has no constructor and makes the document malformed, as does a
node of the wrong kind for its tag.

Integers drop their underscores and sign, then read `0b`, `0o` and `0x`
digits in their bases, `0` alone as zero, and in version 1.1 a leading `0` as
octal and `:`-separated parts as sexagesimal; the rest is a decimal integer
text. Floats drop their underscores, fold to lower case and drop their sign,
then read `.inf`, `.nan` (always the same NaN word), sexagesimal parts outside
version 1.2, or a float text. The words of truth are those of version 1.1 in
any case.

A mapping first gathers its merge keys `<<`: a mapping merged in, or the
mappings of a sequence with the earlier ones winning, give entries that come
first and that the mapping's own entries override; a mapping with merges
takes repeated keys in silence, one without refuses them. A list key becomes
the tuple of its items; a mapping or set key is refused.

Construction goes in the loader's order, which decides what an alias finds
and which refusal comes first. A node is built once, and every alias of it
finds what it was built into. A scalar is built when first met. A collection
is made empty when first met and filled later, after the collections met
before it, in the order they were met. A key is built in full at once, with
all it holds; a collection met again inside itself while it is built that way
is not there yet and stands for nil, and a collection made before but not yet
filled is still empty. A document may also be built in full from its root.
The value of the root is read off at the end; where a collection lies inside
itself, a reference back to it (`Value.cycle`) stands.

A NaN word read from a node's text is numbered by the node, so that two nodes
never give the same datum, while the aliases of one node do.
-/

namespace Branching.Yaml

/-- What a node was built into: a scalar's value, or the place of a
collection among the collections built. -/
inductive Built where
  | value (v : Value)
  | place (p : Nat)
  deriving Inhabited

/-- What a built collection holds so far. -/
inductive Contents where
  | list (items : List Built)
  | dict (entries : List (Value × Built))
  | set (items : List Value)
  | ordered (entries : List (Value × Built))
  /-- A list of pairs, each a tuple of two. -/
  | pairs (items : List (Built × Built))
  deriving Inhabited

/-- The state of construction: the document's nodes by number and its
version, what each node was built into, the nodes being built in full, the
contents of the collections by place, the collections waiting to be filled,
first to fill first, and how many builds in full are under way. -/
structure Builder where
  nodes : Array Node
  version : Nat × Nat
  built : Array (Option Built)
  inFull : List Nat
  contents : Array Contents
  waiting : List (Nat × Node)
  fullBuilds : Nat := 0

/-- A construction step; a failure keeps the state it was met in. -/
abbrev Build := ExceptT Fault (StateM Builder)

/-- The name of a collection's kind, as a refusal to hash it gives it. -/
def Contents.kindName : Contents → String
  | .list _ | .pairs _ => "list"
  | .dict _ => "dict"
  | .set _ => "set"
  | .ordered _ => "ordereddict"

/-- The value of what was built, as it stands; `around` holds the places of
the collections it lies in, innermost first (none for the tuple of a pair).
A collection met again inside itself is a reference back to it. -/
def valueOf (contents : Array Contents) : Nat → List (Option Nat) → Built → Value
  | _, _, .value v => v
  | 0, _, .place _ => .nil
  | fuel + 1, around, .place p =>
    match around.findIdx? (· == some p) with
    | some up => .cycle up p
    | none =>
      let inner := some p :: around
      match contents.getD p default with
      | .list items => .list (items.map (valueOf contents fuel inner))
      | .dict es => .dict (es.map fun e => (e.1, valueOf contents fuel inner e.2))
      | .set xs => .set xs
      | .ordered es => .ordered (es.map fun e => (e.1, valueOf contents fuel inner e.2))
      | .pairs ps =>
        .list (ps.map fun e => .tuple [valueOf contents fuel (none :: inner) e.1,
          valueOf contents fuel (none :: inner) e.2])

namespace Build

/-- Fails with a complaint. -/
def fail {α : Type} (c : Complaint) : Build α := throw (.complaint c)

/-- Fails with an engine error. -/
def raise {α : Type} (e : Error) : Build α := throw (.failed e)

/-- The node an alias stands for; any other node itself. -/
def target : Node → Build Node
  | .aliasOf id _ => do return (← get).nodes.getD id default
  | n => return n

/-- The number of a node that is no alias. -/
def Node.number : Node → Nat
  | .scalar _ _ o | .sequence _ _ o | .mapping _ _ o => o.id
  | .aliasOf id _ => id

/-- The value of what was built, as it stands now. -/
def current (b : Built) : Build Value := do
  let s ← get
  return valueOf s.contents (2 * s.contents.size + 2) [] b

/-- The same node with another tag. -/
def retag (t : String) : Node → Node
  | .scalar _ s o => .scalar t s o
  | .sequence _ xs o => .sequence t xs o
  | .mapping _ es o => .mapping t es o
  | n => n

/-- The form a node has in the text of a refusal to read it as a timestamp. -/
def nodeText : Nat → Node → String
  | 0, _ => "..."
  | _ + 1, .scalar t s _ => "ScalarNode(tag=" ++ Text.quoteString t ++ ", value=" ++ Text.quoteString s ++ ")"
  | fuel + 1, .sequence t xs _ =>
    "SequenceNode(tag=" ++ Text.quoteString t ++ ", value=[" ++ ", ".intercalate (xs.map (nodeText fuel)) ++ "])"
  | fuel + 1, .mapping t es _ =>
    "MappingNode(tag=" ++ Text.quoteString t ++ ", value=[" ++
      ", ".intercalate (es.map fun e => "(" ++ nodeText fuel e.1 ++ ", " ++ nodeText fuel e.2 ++ ")") ++ "])"
  | _ + 1, .aliasOf _ _ => "..."

/-- The text of a node where a scalar is wanted: a scalar's text, or for a
mapping the text of the value of its value key `=`. -/
def scalarText : Nat → Node → Build String
  | 0, n => fail (.at "the document is nested too deeply" n.start)
  | fuel + 1, n => do
    match ← target n with
    | .scalar _ t _ => return t
    | .mapping _ es o =>
      match ← es.findM? (fun e => do return (← target e.1).tag = coreTag "value") with
      | some (_, v) => scalarText fuel v
      | none => fail (.at "expected a scalar node, but found mapping" o.start)
    | m => fail (.at ("expected a scalar node, but found " ++ m.kindName) m.start)

/-- A text with its first character dropped when that is a sign; whether the
sign was a minus. -/
def unsign : List Char → Bool × List Char
  | '-' :: rest => (true, rest)
  | '+' :: rest => (false, rest)
  | cs => (false, cs)

/-- An integer read in a base, or the error of a text that is none. -/
def integerIn (base : Nat) (cs : List Char) : Build Int :=
  match Number.readIntegerIn? base cs with
  | some n => return n
  | none => raise (.notIntegerText base (String.ofList cs))

/-- A decimal integer text, with the limit on its digits. -/
def decimal (cs : List Char) : Build Int := do
  let count := Number.leadingDigitCount cs
  if integerDigitLimit < count then raise (.tooManyDigits count)
  match Number.readInteger? cs with
  | some n => return n
  | none => raise (.notIntegerText 10 (String.ofList cs))

/-- Sexagesimal parts, most significant first, as one number. -/
def sexagesimal (parts : List Int) : Int :=
  parts.foldl (fun acc p => acc * 60 + p) 0

/-- The integer of a text. -/
def integer (version : Nat × Nat) (text : String) : Build Value := do
  let cs := text.toList.filter (· != '_')
  if cs.isEmpty then raise .emptyText
  let (negative, body) := unsign cs
  let signed (n : Int) : Value := .int (if negative then -n else n)
  if body = ['0'] then return .int 0
  match body with
  | '0' :: 'b' :: rest => return signed (← integerIn 2 rest)
  | '0' :: 'x' :: rest => return signed (← integerIn 16 rest)
  | '0' :: 'o' :: rest => return signed (← integerIn 8 rest)
  | _ =>
    if version = (1, 1) && body.head? = some '0' then return signed (← integerIn 8 body)
    else if version = (1, 1) && body.contains ':' then
      let parts ← (body.splitOn ':').mapM decimal
      return signed (sexagesimal parts)
    else return signed (← decimal body)

/-- A word with its sign flipped. -/
def negated (x : Binary64) : Binary64 := Binary64.ofFields (!x.negative) x.biasedExponent x.fraction

/-- The word nearest to `m * 2 ^ e`. -/
def nearestDyadic (m e : Int) : Binary64 :=
  if 0 ≤ e then Binary64.ofDecimal (m < 0) (m.natAbs * Nat.pow 2 e.toNat) 0
  else Binary64.ofDecimal (m < 0) (m.natAbs * Nat.pow 5 e.natAbs) e

/-- Adds `x * 60 ^ k` to a running sum of words, rounding the product and the
sum as binary64 does. -/
def sexagesimalStep (sum : Binary64) (x : Binary64) (k : Nat) : Binary64 :=
  match sum.toDyadic?, x.toDyadic? with
  | some (.scaled a e), some (.scaled b f) =>
    let product := nearestDyadic (b * Nat.pow 60 k) f
    match product.toDyadic? with
    | some (.scaled c g) =>
      let low := min e g
      let total := a * Nat.pow 2 (e - low).toNat + c * Nat.pow 2 (g - low).toNat
      if total = 0 then Binary64.zero false else nearestDyadic total low
    | _ => product
  | _, _ => if x.isNaN || sum.isNaN then Binary64.nan
    else if x.toDyadic?.isSome && sum.toDyadic?.isSome then
      (match sum.meaning, x.meaning with
        | .infinity n, .infinity m => if n = m then sum else Binary64.nan
        | .infinity _, _ => sum
        | _, _ => x)
    else Binary64.nan

/-- The sum of sexagesimal parts, least significant first, from the place
value `60 ^ k` on. -/
def sexagesimalSum : List Binary64 → Nat → Binary64 → Binary64
  | [], _, sum => sum
  | x :: rest, k, sum => sexagesimalSum rest (k + 1) (sexagesimalStep sum x k)

/-- A float text read, a NaN carrying `nanTag`, or the error of a text that
is none. -/
def floatText (nanTag : Nat) (cs : List Char) : Build Binary64 := do
  match Number.readFloat? nanTag cs with
  | some x => return x
  | none => raise (.notFloatText (String.ofList cs))

/-- The float of a text; a NaN it makes carries `nanTag`. -/
def float (version : Nat × Nat) (nanTag : Nat) (text : String) : Build Value := do
  let cs := (text.toList.filter (· != '_')).map Char.toLower
  if cs.isEmpty then raise .emptyText
  let (negative, body) := unsign cs
  let signed (x : Binary64) : Value := .float (if negative then negated x else x)
  if body = ".inf".toList then return signed (Binary64.infinity false)
  if body = ".nan".toList then return .float (Binary64.taggedNaN true 0)
  if version != (1, 2) && body.contains ':' then
    let parts ← (body.splitOn ':').mapM (floatText nanTag)
    let sum := sexagesimalSum parts.reverse 0 (Binary64.zero false)
    if sum.isNaN then return .float (Binary64.taggedNaN false nanTag)
    return signed sum
  let x ← floatText nanTag body
  if x.isNaN then return .float x
  return signed x

/-- The truth value a word names. -/
def truth (text : String) : Build Value :=
  let word := String.ofList (text.toList.map Char.toLower)
  if word ∈ ["yes", "y", "true", "on"] then return .bool true
  else if word ∈ ["no", "n", "false", "off"] then return .bool false
  else raise (.missingKey (Text.quoteString word))

/-- Lower-case hexadecimal digits of a number, at least `width` of them. -/
def hexWidth (width n : Nat) : String :=
  let ds := Nat.toDigits 16 n
  String.ofList (List.replicate (width - ds.length) '0' ++ ds)

/-- The first run of characters past ASCII in a text: where it starts and
where it stops. -/
def nonAsciiRun? (cs : List Char) : Option (Nat × Nat) :=
  let before := (cs.takeWhile fun c => c.toNat < 128).length
  if before = cs.length then none
  else some (before, before + ((cs.drop before).takeWhile fun c => 128 ≤ c.toNat).length)

/-- The words of a refusal to encode a text as ASCII, for the run of
characters from `first` to `stop`. -/
def asciiRefusal (cs : List Char) (first stop : Nat) : String :=
  if stop = first + 1 then
    let n := Text.codeOf (cs.getD first ' ')
    let shown :=
      if n ≤ 0xff then "\\x" ++ hexWidth 2 n
      else if n ≤ 0xffff then "\\u" ++ hexWidth 4 n
      else "\\U" ++ hexWidth 8 n
    "'ascii' codec can't encode character '" ++ shown ++ "' in position " ++ toString first ++
      ": ordinal not in range(128)"
  else
    "'ascii' codec can't encode characters in position " ++ toString first ++ "-" ++ toString (stop - 1) ++
      ": ordinal not in range(128)"

/-- The words of a refusal to decode base64 text. -/
def base64Refusal : Text.Base64Fault → String
  | .strayCharacter n =>
    "Invalid base64-encoded string: number of data characters (" ++ toString n ++
      ") cannot be 1 more than a multiple of 4"
  | .incorrectPadding => "Incorrect padding"

/-- The bytes base64 text gives; `start` is where its node starts. -/
def binary (start : Mark) (text : String) : Build Value :=
  let cs := text.toList
  match nonAsciiRun? cs with
  | some (first, stop) =>
    fail (.at ("failed to convert base64 data into ascii: " ++ asciiRefusal cs first stop) start)
  | none =>
    match Text.decodeBase64 cs with
    | .ok bs => return .bytes bs
    | .error f => fail (.at ("failed to decode base64 data: " ++ base64Refusal f) start)

/-- A timestamp. -/
def timestamp (n : Node) : Build Value :=
  let refuse (shown : String) : Build Value :=
    fail (.at ("failed to construct timestamp from \"" ++ shown ++ "\"") n.start)
  match n with
  | .scalar _ text _ =>
    match Timestamp.read? text.toList with
    | some f =>
      match Timestamp.value f with
      | .ok v => return v
      | .error e => raise e
    | none => refuse text
  | .sequence _ xs _ => refuse ("[" ++ ", ".intercalate (xs.map (nodeText 64)) ++ "]")
  | .mapping _ es _ =>
    refuse ("[" ++ ", ".intercalate (es.map fun e => "(" ++ nodeText 64 e.1 ++ ", " ++ nodeText 64 e.2 ++ ")") ++
      "]")
  | .aliasOf _ _ => refuse "..."

/-- Fails unless a mapping key can be hashed. -/
def checkHashable (key : Value) : Build Unit :=
  match key.unhashableKind? with
  | some k => raise (.unhashable k)
  | none => pure ()

/-- The value of a scalar node by its tag; a refusal for a tag with no
constructor. -/
def scalar (fuel : Nat) (n : Node) : Build Value := do
  let tag := n.tag
  let version := (← get).version
  if tag = coreTag "null" then
    let _ ← scalarText fuel n
    return .nil
  else if tag = coreTag "bool" then truth (← scalarText fuel n)
  else if tag = coreTag "int" then integer version (← scalarText fuel n)
  else if tag = coreTag "float" then float version (Node.number n + 1) (← scalarText fuel n)
  else if tag = coreTag "str" then return .str (← scalarText fuel n)
  else if tag = coreTag "binary" then binary n.start (← scalarText fuel n)
  else if tag = coreTag "timestamp" then timestamp n
  else fail (.at ("could not determine a constructor for the tag " ++ Text.quoteString tag) n.start)

/-- What a collection of a tag holds when it is made, if the tag is one of a
collection. -/
def emptyOf? (tag : String) : Option Contents :=
  if tag = coreTag "seq" then some (.list [])
  else if tag = coreTag "map" then some (.dict [])
  else if tag = coreTag "set" then some (.set [])
  else if tag = coreTag "omap" then some (.ordered [])
  else if tag = coreTag "pairs" then some (.pairs [])
  else none

/-- Sets what the collection at place `p` holds. -/
def store (p : Nat) (c : Contents) : Build Unit :=
  modify fun s => { s with contents := s.contents.setIfInBounds p c }

/-- Records what a node was built into. -/
def record (id : Nat) (b : Built) : Build Unit :=
  modify fun s => { s with built := s.built.setIfInBounds id (some b) }

/-- Sets `key` to `b` in entries: an entry with an equal key keeps its place
and takes the new value; otherwise the entry goes last. -/
def setEntry (entries : List (Value × Built)) (key : Value) (b : Built) : List (Value × Built) :=
  if entries.any fun e => Value.agrees e.1 key then
    entries.map fun e => if Value.agrees e.1 key then (e.1, b) else e
  else entries ++ [(key, b)]

/-- The note of a refusal of a repeated key. -/
def repeatNote (indent : Nat) : String :=
  "\nTo suppress this check see:\n" ++ String.ofList (List.replicate indent ' ') ++
    "http://yaml.readthedocs.io/en/latest/api.html#duplicate-keys\n"

/-- The refusal of a mapping entry: while constructing the mapping that
starts at `start`, a problem at `place`. -/
def refuseEntry {α : Type} (start : Mark) (problem : String) (place : Mark) : Build α :=
  fail (.within "while constructing a mapping" start problem place)

/-- The merge entries and the own entries of a mapping node, merges gathered:
the entries of each mapping merged in (its own merges first), those of a
sequence of mappings with the later mappings first so that earlier ones
override them. A value key `=` becomes a string key. `open` holds the
mappings being gathered, whose merges are not gathered again. -/
def gather (open_ : List Nat) : Nat → Node → Build (List (Node × Node) × List (Node × Node))
  | 0, n => fail (.at "the document is nested too deeply" n.start)
  | fuel + 1, n => do
    match n with
    | .mapping _ es o =>
      let inner := o.id :: open_
      let step (acc : List (Node × Node) × List (Node × Node)) (e : Node × Node) :
          Build (List (Node × Node) × List (Node × Node)) := do
        let (merged, own) := acc
        let k ← target e.1
        if k.tag = coreTag "merge" then
          if !merged.isEmpty then
            match k with
            | .scalar _ text _ =>
              throw (.complaint { context := some "while constructing a mapping", contextMark := some o.start,
                                  problem := "found duplicate key \"" ++ text ++ "\"", problemMark := some k.start,
                                  note := some (repeatNote 3) })
            | _ => refuseEntry o.start "found duplicate key" k.start
          let v ← target e.2
          match v with
          | .mapping _ _ vo =>
            if open_.contains vo.id || vo.id = o.id then return (merged ++ own, own)
            let (m, o') ← gather inner fuel v
            return (merged ++ m ++ o', own)
          | .sequence _ items _ =>
            let groups ← items.mapM fun item => do
              let sub ← target item
              match sub with
              | .mapping _ _ so =>
                if open_.contains so.id || so.id = o.id then return own
                let (m, o') ← gather inner fuel sub
                return m ++ o'
              | _ =>
                refuseEntry o.start ("expected a mapping for merging, but found " ++ sub.kindName) sub.start
            return (merged ++ groups.reverse.flatten, own)
          | _ =>
            refuseEntry o.start
              ("expected a mapping or list of mappings for merging, but found " ++ v.kindName) v.start
        else if k.tag = coreTag "value" then return (merged, own ++ [(retag (coreTag "str") k, e.2)])
        else return (merged, own ++ [e])
      es.foldlM step ([], [])
    | _ => return ([], [])

mutual

/-- Builds a node, in full when `inFull`: what it was built into before, nil
for a node met again while it is built in full, a scalar's value, or a
collection, waiting to be filled unless built in full. -/
def build (inFull : Bool) : Nat → Node → Build Built
  | 0, n => fail (.at "the document is nested too deeply" n.start)
  | fuel + 1, n =>
    if inFull then do
      modify fun s => { s with fullBuilds := s.fullBuilds + 1 }
      let b ← buildNode true fuel n
      modify fun s => { s with fullBuilds := s.fullBuilds - 1 }
      return b
    else buildNode false fuel n

/-- `build` without the count of builds in full. -/
def buildNode (inFull : Bool) : Nat → Node → Build Built
  | 0, n => fail (.at "the document is nested too deeply" n.start)
  | fuel + 1, n => do
    let node ← target n
    let id := Node.number node
    let s ← get
    match s.built.getD id none with
    | some b => return b
    | none =>
      if s.inFull.contains id then return .value .nil
      match emptyOf? node.tag with
      | some empty =>
        let p := s.contents.size
        set { s with contents := s.contents.push empty }
        if inFull then
          modify fun s => { s with inFull := id :: s.inFull }
          fill true fuel p node
          modify fun s => { s with inFull := s.inFull.erase id }
          record id (.place p)
        else
          record id (.place p)
          modify fun s => { s with waiting := s.waiting ++ [(p, node)] }
        return .place p
      | none =>
        let v ← scalar fuel node
        record id (.value v)
        return .value v

/-- Fills the collection at place `p` from its node. -/
def fill (inFull : Bool) : Nat → Nat → Node → Build Unit
  | 0, _, n => fail (.at "the document is nested too deeply" n.start)
  | fuel + 1, p, n => do
    let tag := n.tag
    if tag = coreTag "seq" then
      match n with
      | .sequence _ items _ => store p (.list (← items.mapM (build inFull fuel)))
      | _ => fail (.at ("expected a sequence node, but found " ++ n.kindName) n.start)
    else if tag = coreTag "map" then store p (.dict (← mapping inFull fuel n))
    else if tag = coreTag "set" then
      store p (.set (Value.tableOrder Layout.presetOrder ((← mapping inFull fuel n).map Prod.fst)))
    else if tag = coreTag "omap" then singlePairs inFull fuel p true n
    else singlePairs inFull fuel p false n

/-- The entries of a mapping node, keys built in full: a list key becomes a
tuple, and keys are hashed and, without merges, must not repeat. -/
def mapping (inFull : Bool) : Nat → Node → Build (List (Value × Built))
  | 0, n => fail (.at "the document is nested too deeply" n.start)
  | fuel + 1, n => do
    match n with
    | .mapping _ _ o =>
      let (merged, own) ← gather [] fuel n
      let checked := merged.isEmpty
      (merged ++ own).foldlM (fun acc e => do
        let keyNode ← target e.1
        let key ← match ← build true fuel e.1 with
          | .value v => pure v
          | .place q =>
            match (← get).contents.getD q default with
            | .list items => do
              let vs ← items.mapM current
              pure (Value.tuple vs)
            | .pairs items => do
              let vs ← items.mapM fun i => do return Value.tuple [← current i.1, ← current i.2]
              pure (Value.tuple vs)
            | _ => refuseEntry o.start "found unhashable key" keyNode.start
        let b ← build inFull fuel e.2
        checkHashable key
        if checked then
          match acc.find? fun a => Value.agrees a.1 key with
          | some (_, earlier) =>
            let shown := "found duplicate key \"" ++ key.display ++ "\" with value \"" ++ (← current b).display ++
              "\" (original value: \"" ++ (← current earlier).display ++ "\")"
            throw (.complaint { context := some "while constructing a mapping", contextMark := some o.start,
                                problem := shown, problemMark := some keyNode.start, note := some (repeatNote 4) })
          | none => pure ()
        return setEntry acc key b) []
    | _ => fail (.at ("expected a mapping node, but found " ++ n.kindName) n.start)

/-- Fills an ordered mapping (`ordered`) or a list of pairs at place `p` from
a sequence of single-pair mappings, one entry at a time; keys of an ordered
mapping are hashed and must not repeat. -/
def singlePairs (inFull : Bool) (fuel p : Nat) (ordered : Bool) (n : Node) : Build Unit := do
  let what := if ordered then "an ordered map" else "pairs"
  let refuse {α : Type} (problem : String) (place : Mark) : Build α :=
    fail (.within ("while constructing " ++ what) n.start problem place)
  match n with
  | .sequence _ items _ =>
    items.forM fun item => do
      let sub ← target item
      match sub with
      | .mapping _ [(k, v)] _ =>
        let kb ← build inFull fuel k
        if ordered then
          let key ← match kb with
            | .value x => pure x
            | .place q => raise (.unhashable ((← get).contents.getD q default).kindName)
          checkHashable key
          let entries := match (← get).contents.getD p default with
            | .ordered es => es
            | _ => []
          if entries.any fun e => Value.agrees e.1 key then raise .repeatedKey
          let vb ← build inFull fuel v
          let entries := match (← get).contents.getD p default with
            | .ordered es => es
            | _ => []
          store p (.ordered (setEntry entries key vb))
        else
          let vb ← build inFull fuel v
          let items := match (← get).contents.getD p default with
            | .pairs ps => ps
            | _ => []
          store p (.pairs (items ++ [(kb, vb)]))
      | .mapping _ es _ =>
        refuse ("expected a single mapping item, but found " ++ toString es.length ++ " items") sub.start
      | _ => refuse ("expected a mapping of length 1, but found " ++ sub.kindName) sub.start
  | _ => refuse ("expected a sequence, but found " ++ n.kindName) n.start

end

/-- Fills the waiting collections, first to wait first; filling one may make
others wait. -/
def drain (fuel : Nat) : Nat → Build Unit
  | 0 => pure ()
  | steps + 1 => do
    match (← get).waiting with
    | [] => pure ()
    | (p, n) :: rest =>
      modify fun s => { s with waiting := rest }
      fill false fuel p n
      drain fuel steps

end Build

/-- The value of a composed document of a version, built in full from the
root when `inFull`; and whether a build in full was under way when building
failed (none is after a success). -/
def Document.value (doc : Document) (version : Nat × Nat) (inFull : Bool) : Except Fault Value × Bool :=
  let fuel := 2 * doc.nodes.size + 4
  let start : Builder :=
    { nodes := doc.nodes, version, built := Array.replicate doc.nodes.size none, inFull := [],
      contents := #[], waiting := [] }
  let run : Build Value := do
    let b ← Build.build inFull fuel doc.root
    Build.drain fuel (doc.nodes.size + 1)
    Build.current b
  match run.run.run start with
  | (.ok v, _) => (.ok v, false)
  | (.error f, s) => (.error f, inFull || 0 < s.fullBuilds)

end Branching.Yaml

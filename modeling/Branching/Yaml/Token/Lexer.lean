import Branching.Yaml.Token.Scalar

/-!
# Scanning a YAML text into tokens

`Yaml.scan` cuts a whole text into tokens. Each step skips white space and
comments (a line break outside flow collections lets a simple key start
again), closes the block collections that the next token's column leaves, and
reads one token by its first character: a directive or document marker at
the start of a line, a flow indicator, a block entry `- `, a key `?`, a value
`:`, an alias, anchor or tag, a block scalar, a quoted scalar, or else a plain
scalar. A value indicator turns the pending simple key of its level into a key
by putting a key token (and in block context possibly the start of a mapping)
in front of it.

Version 1.2 (the default) and 1.1 differ in a few places: in 1.2 a `?` never
ends a plain word, a `:` followed by a character other than a space may start
a plain scalar inside flow collections, a `:` in a flow sequence or right
after a value indicator must be followed by a space to be a value indicator,
and `#` may stand in tags. A text is read by the version set before it until
a document starts (at `---`, or at the first token after directives); from
there on by the version the document's directives name, or 1.2 when none
does.

Every step reads at least one character, so the text's length bounds the
number of steps.
-/

namespace Branching.Yaml

namespace Scan

/-- Skips spaces (and inside flow collections tabs), comments and line breaks
up to the next token. -/
def toNextToken : Scan Unit := do
  let s ← get
  if s.cur.index = 0 && s.cur.peek = '\uFEFF' then forward 1
  go (← fuelLeft)
where
  go : Nat → Scan Unit
    | 0 => pure ()
    | fuel + 1 => do
      if (← flowLevel) = 0 then skipSpaces
      else forward (← run fun c => c = ' ' || c = '\t')
      if (← peek) = '#' then skipToLineEnd
      if (← lineBreak) != "" then
        if (← flowLevel) = 0 then allowKey true
        go fuel

/-- Reads a tag handle, `!`, `!!`, or `!` word `!`, of the tag or
directive (`what`) that started at `start`. -/
def tagHandle (what : String) (start : Mark) : Scan String := do
  let c ← peek
  if c != '!' then complainWhile ("while scanning a " ++ what) start ("expected '!', but found " ++ found c)
  if (← peekAt 1) = ' ' then take 1
  else
    let n := (← get).cur.runFrom isWordChar 1
    let c ← peekAt (n + 1)
    if c != '!' then
      forward (n + 1)
      complainWhile ("while scanning a " ++ what) start ("expected '!', but found " ++ found c)
    take (n + 2)

/-- Whether a character may stand in a tag. -/
def isTagChar (version11 : Bool) (c : Char) : Bool :=
  ('0' ≤ c && c ≤ '9') || ('A' ≤ c && c ≤ 'Z') || ('a' ≤ c && c ≤ 'z') ||
    "-;/?:@&=+$,_.!~*'()[]%".contains c || (!version11 && c = '#')

/-- The first place where bytes are no UTF-8 text: where the bad sequence
starts, where it stops, and why. -/
def utf8Flaw : Nat → List UInt8 → Option (Nat × Nat × String)
  | _, [] => none
  | at_, b :: rest =>
    let n := b.toNat
    let isCont (x : UInt8) : Bool := 0x80 ≤ x.toNat && x.toNat < 0xc0
    if n < 0x80 then utf8Flaw (at_ + 1) rest
    else if n < 0xc2 || 0xf5 ≤ n then some (at_, at_ + 1, "invalid start byte")
    else
      let need := if n < 0xe0 then 1 else if n < 0xf0 then 2 else 3
      let secondOk (x : UInt8) : Bool :=
        isCont x && (if n = 0xe0 then 0xa0 ≤ x.toNat else if n = 0xed then x.toNat < 0xa0
          else if n = 0xf0 then 0x90 ≤ x.toNat else if n = 0xf4 then x.toNat < 0x90 else true)
      let tail := rest.take need
      let good := match tail with
        | [] => 0
        | x :: more => if secondOk x then 1 + (more.takeWhile isCont).length else 0
      if good = need then utf8Flaw (at_ + need + 1) (rest.drop need)
      else if good < tail.length then some (at_, at_ + good + 1, "invalid continuation byte")
      else some (at_, at_ + 1 + tail.length, "unexpected end of data")
termination_by _ bs => bs.length
decreasing_by all_goals simp only [List.length_cons, List.length_drop]; omega

/-- The words of a failure to read bytes as UTF-8. -/
def utf8FlawText (bytes : List UInt8) : Nat × Nat × String → String
  | (first, stop, why) =>
    if stop = first + 1 then
      "'utf-8' codec can't decode byte 0x" ++ String.ofList (hexDigits2 (bytes.getD first 0).toNat) ++
        " in position " ++ toString first ++ ": " ++ why
    else
      "'utf-8' codec can't decode bytes in position " ++ toString first ++ "-" ++ toString (stop - 1) ++
        ": " ++ why
where
  hexDigits2 (n : Nat) : List Char :=
    let ds := Nat.toDigits 16 n
    if ds.length < 2 then '0' :: ds else ds

/-- The bytes of `%` escapes in a tag or directive (`what`) that started at
`start`, decoded as UTF-8. -/
def uriEscapes (what : String) (start : Mark) : Scan String := do
  let first ← mark
  let bytes ← go (← fuelLeft) []
  match utf8Flaw 0 bytes with
  | some flaw =>
    throw (.complaint (.within ("while scanning a " ++ what) start (utf8FlawText bytes flaw) first))
  | none =>
    match String.fromUTF8? (ByteArray.mk bytes.toArray) with
    | some s => return s
    | none => return ""
where
  go : Nat → List UInt8 → Scan (List UInt8)
    | 0, acc => return acc
    | fuel + 1, acc => do
      if (← peek) = '%' then
        forward 1
        let digits ← ahead 2
        let good := (digits.toList.takeWhile fun c => (hexValue? c).isSome).length
        if good < 2 then
          complainWhile ("while scanning a " ++ what) start
            ("expected URI escape sequence of 2 hexdecimal numbers, but found " ++ found (← peekAt good))
        forward 2
        go fuel (acc ++ [((hexNumber? digits).getD 0).toUInt8])
      else return acc

/-- Reads the characters of a tag or directive (`what`) that started at
`start`, `%` escapes decoded. -/
def tagText (what : String) (start : Mark) : Scan String := do
  let v11 ← isVersion11
  let text ← go v11 (← fuelLeft) ""
  if text.isEmpty then
    complainWhile ("while parsing a " ++ what) start ("expected URI, but found " ++ found (← peek))
  return text
where
  go (v11 : Bool) : Nat → String → Scan String
    | 0, acc => return acc
    | fuel + 1, acc => do
      let n ← run fun c => isTagChar v11 c && c != '%'
      let piece ← take n
      if (← peek) = '%' then
        let decoded ← uriEscapes what start
        go v11 fuel (acc ++ piece ++ decoded)
      else return acc ++ piece

/-- Reads a tag: `!<uri>`, a lone `!` or `!!`, `!!suffix`, `!suffix`, or
`!handle!suffix`. -/
def tag : Scan Token := do
  let start ← mark
  let (short, ch) ←
    if (← peekAt 1) = '!' then do
      forward 1
      pure ("!!", ← peekAt 1)
    else pure ("!", ← peekAt 1)
  let token ←
    if ch = '<' then do
      forward 2
      let suffix ← tagText "tag" start
      let c ← peek
      if c != '>' then complainWhile "while parsing a tag" start ("expected '>', but found " ++ found c)
      forward 1
      pure (Token.tag none suffix)
    else if isBlankEnd ch then do
      forward 1
      pure (Token.tag none short)
    else do
      let c ← get
      let n := c.cur.runFrom (fun x => !isSpaceEnd x && x != '!') 1
      let handle ←
        if c.cur.peekAt (n + 1) = '!' then tagHandle "tag" start
        else do
          forward 1
          pure short
      pure (Token.tag (some handle) (← tagText "tag" start))
  let c ← peek
  if !isSpaceEnd c then complainWhile "while scanning a tag" start ("expected ' ', but found " ++ found c)
  return token

/-- Whether a character may stand in an anchor or alias name: a printable
character other than white space and the flow indicators. -/
def isAnchorChar (c : Char) : Bool :=
  let n := c.toNat
  !",[]\x7b\x7d".contains c &&
    ((0x21 ≤ n && n ≤ 0x7e) || (0xa0 ≤ n && n ≤ 0xd7ff) ||
      (0xe000 ≤ n && n ≤ 0xfffd && n != 0xfeff) || 0x10000 ≤ n)

/-- Reads an anchor or alias (`what`) name after its indicator. -/
def anchorName (what : String) : Scan String := do
  let start ← mark
  forward 1
  let n ← run isAnchorChar
  if n = 0 then
    complainWhile ("while scanning an " ++ what) start
      ("expected alphabetic or numeric character, but found " ++ found (← peek))
  let name ← take n
  let ch ← peek
  if !(isBlankEnd ch || "?:,[]\x7b\x7d%@`".contains ch) then
    complainWhile ("while scanning an " ++ what) start
      ("expected alphabetic or numeric character, but found " ++ found ch)
  return name

/-- Reads a directive line; the token stops before the rest of the line. -/
def directive : Scan Unit := do
  let start ← mark
  let fail (problem : String) : Scan Unit := complainWhile "while scanning a directive" start problem
  forward 1
  let n ← run isDirectiveChar
  if n = 0 then fail ("expected alphabetic or numeric character, but found " ++ found (← peek))
  let name ← take n
  let c ← peek
  if !isSpaceEnd c then fail ("expected alphabetic or numeric character, but found " ++ found c)
  let token ← if name = "YAML" then do
    skipSpaces
    let major ← number start
    let c ← peek
    if c != '.' then fail ("expected a digit or '.', but found " ++ found c)
    forward 1
    let minor ← number start
    let c ← peek
    if !isSpaceEnd c then fail ("expected a digit or ' ', but found " ++ found c)
    pure (Token.versionDirective major minor)
  else if name = "TAG" then do
    skipSpaces
    let handle ← tagHandle "directive" start
    let c ← peek
    if c != ' ' then fail ("expected ' ', but found " ++ found c)
    skipSpaces
    let pfx ← tagText "directive" start
    let c ← peek
    if !isSpaceEnd c then fail ("expected ' ', but found " ++ found c)
    pure (Token.tagDirective handle pfx)
  else pure Token.otherDirective
  let stop ← mark
  if token == .otherDirective then skipToLineEnd
  skipSpaces
  if (← peek) = '#' then skipToLineEnd
  let c ← peek
  if !isLineEnd c then fail ("expected a comment or a line break, but found " ++ found c)
  let _ ← lineBreak
  let named := fun (s : Lexer) => match token with
    | .versionDirective major minor => some (major, minor)
    | _ => s.named.getD none
  modify fun s => { s with tokens := s.tokens.push ⟨token, start, stop⟩, named := some (named s) }
where
  number (start : Mark) : Scan Nat := do
    let c ← peek
    if !('0' ≤ c && c ≤ '9') then
      complainWhile "while scanning a directive" start ("expected a digit, but found " ++ found c)
    let n ← run fun c => '0' ≤ c && c ≤ '9'
    if integerDigitLimit < n then raise (.tooManyDigits n)
    return (← take n).toNat!

/-- Whether a `:` here is a value indicator. -/
def isValueIndicator : Scan Bool := do
  let s ← get
  let spaced := isBlankEnd (s.cur.peekAt 1)
  if s.version == some (1, 1) then
    return !s.flows.isEmpty || spaced
  match s.flows with
  | '[' :: _ => return spaced
  | _ :: _ => return spaced || !(s.queued && (s.tokens.back?.map (·.value)) == some .value)
  | [] => return spaced

/-- Whether a plain scalar may start here. -/
def startsPlain : Scan Bool := do
  let s ← get
  let ch := s.cur.peek
  let next := s.cur.peekAt 1
  let flow := !s.flows.isEmpty
  let indicator := isBlankEnd ch || "-?:,[]\x7b\x7d#&*!|>'\"%@`".contains ch
  let dashed := !isBlankEnd next && (ch = '-' || (!flow && (ch = '?' || ch = ':')))
  if s.version == some (1, 1) then return !indicator || dashed
  return !indicator || (ch = '-' && !isBlankEnd next) ||
    (ch = ':' && flow && !(next = ' ' || next = '\t')) || dashed

/-- Closes every block collection and forbids a simple key, before a
directive or document marker. -/
def resetBlock : Scan Unit := do
  unwindIndent (-1)
  removeKey
  allowKey false

/-- Reads the stream's end. -/
def streamEnd : Scan Unit := do
  resetBlock
  modify fun s => { s with keys := [], done := true }
  emitHere .streamEnd

/-- Reads a one-character token. -/
def single (t : Token) : Scan Unit := do
  let start ← mark
  forward 1
  emit t start

/-- Reads a `[` or `{`. -/
def flowStart (opener : Char) (t : Token) : Scan Unit := do
  saveKey
  modify fun s => { s with flows := opener :: s.flows }
  allowKey true
  single t

/-- Reads a `]` or `}`. -/
def flowEnd (t : Token) : Scan Unit := do
  removeKey
  modify fun s => { s with flows := s.flows.drop 1 }
  allowKey false
  single t

/-- Reads a `?` or `-` indicator: in block context it may open a block
collection at its column. -/
def blockIndicator (opener indicator : Token) (what : String) : Scan Unit := do
  if (← flowLevel) = 0 then
    if !(← get).allowSimpleKey then complain (what ++ " are not allowed here")
    if ← addIndent (← column) then emitHere opener
  allowKey ((← flowLevel) = 0 || indicator == .blockEntry)
  removeKey
  single indicator

/-- Reads a `:`, turning the pending simple key of this level into a key. -/
def valueIndicator : Scan Unit := do
  let s ← get
  let level := s.flows.length
  match s.keys.find? (·.1 = level) with
  | some (_, key) =>
    set { s with keys := s.keys.filter (·.1 != level) }
    insertAt key.tokenNumber ⟨.key, key.mark, key.mark⟩
    if level = 0 then
      if ← addIndent key.mark.column then insertAt key.tokenNumber ⟨.blockMappingStart, key.mark, key.mark⟩
    allowKey false
  | none =>
    if level = 0 then
      if !s.allowSimpleKey then complain "mapping values are not allowed here"
      if ← addIndent (← column) then emitHere .blockMappingStart
    allowKey (level = 0)
    removeKey
  single .value

/-- Reads a token that may start a simple key: an alias, anchor, tag or
quoted or plain scalar. -/
def keyable (read : Scan Token) : Scan Unit := do
  saveKey
  allowKey false
  let start ← mark
  let t ← read
  emit t start

/-- Starts reading a document by the version its directives name: none
without a `%YAML` directive. A minor version other than 1 or 2 stops the
reading of the tokens, so the version stays. -/
def startDocument : Scan Unit := modify fun s =>
  let v := s.named.getD none
  let known := match v with
    | some (_, minor) => minor = 1 || minor = 2
    | none => true
  { s with version := if known then v else s.version, named := none }

/-- Reads the next token. -/
def fetchToken : Scan Unit := do
  dropStaleKeys
  modify fun s => { s with queued := !s.keys.isEmpty }
  toNextToken
  dropStaleKeys
  unwindIndent (← column)
  let ch ← peek
  let col ← column
  let marker ← atDocumentMarker
  if ch = '\x00' then streamEnd
  else if ch = '%' && col = 0 then
    resetBlock
    directive
  else if (ch = '-' || ch = '.') && col = 0 && marker then
    resetBlock
    let start ← mark
    forward 3
    emit (if ch = '-' then .documentStart else .documentEnd) start
  else if ch = '[' then flowStart '[' .flowSequenceStart
  else if ch = '{' then flowStart '{' .flowMappingStart
  else if ch = ']' then flowEnd .flowSequenceEnd
  else if ch = '}' then flowEnd .flowMappingEnd
  else if ch = ',' then
    allowKey true
    removeKey
    single .flowEntry
  else if ch = '-' && isBlankEnd (← peekAt 1) then
    blockIndicator .blockSequenceStart .blockEntry "sequence entries"
  else if ch = '?' && ((← flowLevel) != 0 || isBlankEnd (← peekAt 1)) then
    blockIndicator .blockMappingStart .key "mapping keys"
  else if ch = ':' && (← isValueIndicator) then valueIndicator
  else if ch = '*' then keyable (Token.aliasOf <$> anchorName "alias")
  else if ch = '&' then keyable (Token.anchor <$> anchorName "anchor")
  else if ch = '!' then keyable tag
  else if (ch = '|' || ch = '>') && (← flowLevel) = 0 then
    allowKey true
    removeKey
    let start ← mark
    let t ← blockScalar (ch = '>')
    emit t start
  else if ch = '\'' || ch = '"' then keyable (quotedScalar (ch = '"'))
  else if ← startsPlain then keyable plainScalar
  else
    let c := Complaint.at ("found character " ++ found ch ++ " that cannot start any token") (← mark)
    throw (.complaint { c with context := some "while scanning for the next token" })

/-- Reads the next token; a document start, or the first token after
directives, starts a document. -/
def fetch : Scan Unit := do
  fetchToken
  let s ← get
  match s.tokens.back? with
  | some t =>
    if t.value == .documentStart || (s.named.isSome && !t.value.isDirective) then startDocument
  | none => pure ()

/-- Fetches tokens until the stream ends. -/
def all : Nat → Scan Unit
  | 0 => complain "the text is too long to scan"
  | fuel + 1 => do
    if (← get).done then return
    fetch
    all fuel

end Scan

/-- The first character of a text that no YAML text may hold, with its
index. -/
def firstUnacceptable? (source : String) : Option (Char × Nat) :=
  go source.toList 0
where
  go : List Char → Nat → Option (Char × Nat)
    | [], _ => none
    | c :: rest, i => if isAllowed c then go rest (i + 1) else some (c, i)

/-- The tokens of a text read by the given version until a document start
sets another, and why the text cannot be cut into tokens, if it cannot. Then
the tokens are those a reader of the tokens could have taken before the
failure: those read before it, up to the first that might still have become a
key. -/
def scan (version : Option (Nat × Nat)) (source : String) : Array (Positioned Token) × Option Fault :=
  match firstUnacceptable? source with
  | none =>
    let (result, s) := StateT.run (ExceptT.run (Scan.all (source.length + 2))) (Lexer.start version source)
    match result with
    | .ok _ => (s.tokens, none)
    | .error e =>
      let taken := s.keys.foldl (fun n k => min n k.2.tokenNumber) s.tokens.size
      (s.tokens.extract 0 taken, some e)
  | some (c, i) => (#[], some (.unacceptable c.toNat i))

end Branching.Yaml

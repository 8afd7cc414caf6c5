import Branching.Yaml.Node

/-!
# Resolving the tags of plain scalars

A plain scalar without a tag (or with the non-specific tag `!`) gets the tag
of the first pattern its text fits, among those registered for its first
character, in the order booleans, floats, integers, merge keys, nulls,
timestamps, value keys, and the indicator characters; a text that fits none
is a string. Version 1.2 of the language (the default) and version 1.1 have
different patterns for booleans, numbers and integers; a document of any other
version has no patterns at all, and asking for one fails the way a missing
key does.

Every pattern is anchored at both ends, where the end may also stand right
before a final line feed (`fitsAtEnd`).
-/

namespace Branching.Yaml.Resolve

/-- Whether a character is an ASCII digit. -/
def isDigit (c : Char) : Bool := '0' ≤ c && c ≤ '9'

/-- Whether a character is a digit or an underscore. -/
def isDigitOrMark (c : Char) : Bool := isDigit c || c = '_'

/-- Whether a character is a hexadecimal digit or an underscore. -/
def isHexOrMark (c : Char) : Bool :=
  isDigitOrMark c || ('a' ≤ c && c ≤ 'f') || ('A' ≤ c && c ≤ 'F')

/-- Whether a pattern fits the whole text, or the text up to a final line feed. -/
def fitsAtEnd (p : List Char → Bool) (cs : List Char) : Bool :=
  p cs || (cs.getLast? = some '\n' && p cs.dropLast)

/-- The text after an optional sign. -/
def unsigned : List Char → List Char
  | '-' :: rest | '+' :: rest => rest
  | cs => cs

/-- An exponent `e` or `E`, an optional sign (a required one when
`signRequired`), and at least one digit, making up the whole text. -/
def isExponent (signRequired : Bool) : List Char → Bool
  | c :: rest =>
    (c = 'e' || c = 'E') &&
      match rest with
      | s :: ds => if s = '-' || s = '+' then !ds.isEmpty && ds.all isDigit
        else !signRequired && !rest.isEmpty && rest.all isDigit
      | [] => false
  | [] => false

/-- A digit followed by digits and underscores, then `.`, digits and
underscores, and an optional exponent. -/
def isPointFloat (cs : List Char) : Bool :=
  match cs with
  | d :: rest =>
    isDigit d &&
      match rest.dropWhile isDigitOrMark with
      | '.' :: frac =>
        let tail := frac.dropWhile isDigitOrMark
        tail.isEmpty || isExponent false tail
      | _ => false
  | [] => false

/-- A digit followed by digits and underscores, then a required exponent. -/
def isExponentFloat (cs : List Char) : Bool :=
  match cs with
  | d :: rest => isDigit d && isExponent false (rest.dropWhile isDigitOrMark)
  | [] => false

/-- A `.`, at least one digit or underscore, and an exponent with a sign, if
any. -/
def isFractionFloat (cs : List Char) : Bool :=
  match cs with
  | '.' :: rest =>
    let digits := rest.takeWhile isDigitOrMark
    let tail := rest.dropWhile isDigitOrMark
    !digits.isEmpty && (tail.isEmpty || isExponent true tail)
  | _ => false

/-- `.inf` in one of its three spellings. -/
def isInfinity (cs : List Char) : Bool :=
  cs = ".inf".toList || cs = ".Inf".toList || cs = ".INF".toList

/-- `.nan` in one of its three spellings. -/
def isNotANumber (cs : List Char) : Bool :=
  cs = ".nan".toList || cs = ".NaN".toList || cs = ".NAN".toList

/-- Groups `:` and one or two sexagesimal digits (`[0-5]?[0-9]`), at least
one, followed by what `rest` accepts. -/
def sexagesimalGroups (rest : List Char → Bool) : Nat → List Char → Bool
  | 0, _ => false
  | fuel + 1, ':' :: a :: b :: more =>
    if '0' ≤ a && a ≤ '5' && isDigit b then
      (match more with
        | ':' :: _ => sexagesimalGroups rest fuel more
        | _ => rest more)
    else if isDigit a then
      (match b :: more with
        | ':' :: _ => sexagesimalGroups rest fuel (b :: more)
        | cs => rest cs)
    else false
  | _ + 1, [':', a] => isDigit a && rest []
  | _ + 1, _ => false

/-- A sexagesimal number: a leading part, then `:`-groups followed by what
`rest` accepts. -/
def isSexagesimal (lead : Char → Bool) (rest : List Char → Bool) (cs : List Char) : Bool :=
  match cs with
  | d :: more =>
    lead d &&
      let tail := more.dropWhile isDigitOrMark
      (tail.head? = some ':') && sexagesimalGroups rest tail.length tail
  | [] => false

/-- The float pattern of version 1.2. -/
def isFloat12 (cs : List Char) : Bool :=
  let u := unsigned cs
  isPointFloat u || isExponentFloat u || isFractionFloat u || isInfinity u || isNotANumber cs

/-- The float pattern of version 1.1: the fraction form takes no sign, and
sexagesimal floats (`190:20:30.15`) are added. -/
def isFloat11 (cs : List Char) : Bool :=
  let u := unsigned cs
  isPointFloat u || isExponentFloat u || isFractionFloat cs ||
    isSexagesimal isDigit (fun t => t.head? = some '.' && t.tail.all isDigitOrMark) u ||
    isInfinity u || isNotANumber cs

/-- A prefix followed by at least one character of a class. -/
def isPrefixed (pfx : List Char) (p : Char → Bool) (cs : List Char) : Bool :=
  cs.take pfx.length = pfx && cs.length > pfx.length && (cs.drop pfx.length).all p

/-- The integer pattern of version 1.2: binary, octal (`0o` or a leading
`0`), decimal and hexadecimal, all with underscores. -/
def isInt12 (cs : List Char) : Bool :=
  let u := unsigned cs
  isPrefixed "0b".toList (fun c => c = '0' || c = '1' || c = '_') u ||
    isPrefixed "0o".toList (fun c => '0' ≤ c && c ≤ '7' || c = '_') u ||
    isPrefixed "0".toList (fun c => '0' ≤ c && c ≤ '7' || c = '_') u ||
    (!u.isEmpty && u.all isDigitOrMark) ||
    isPrefixed "0x".toList isHexOrMark u

/-- The integer pattern of version 1.1: octal with a leading `0`, decimal
without one, and sexagesimal integers (`190:20:30`). -/
def isInt11 (cs : List Char) : Bool :=
  let u := unsigned cs
  isPrefixed "0b".toList (fun c => c = '0' || c = '1' || c = '_') u ||
    (!u.isEmpty && u.all fun c => '0' ≤ c && c ≤ '7' || c = '_') ||
    u = ['0'] ||
    (match u with
      | d :: rest => '1' ≤ d && d ≤ '9' && rest.all isDigitOrMark
      | [] => false) ||
    isPrefixed "0x".toList isHexOrMark u ||
    isSexagesimal (fun d => '1' ≤ d && d ≤ '9') List.isEmpty u

/-- The boolean words of version 1.2. -/
def isBool12 (cs : List Char) : Bool :=
  ["true", "True", "TRUE", "false", "False", "FALSE"].any fun w => cs = w.toList

/-- The boolean words of version 1.1. -/
def isBool11 (cs : List Char) : Bool :=
  ["y", "Y", "yes", "Yes", "YES", "n", "N", "no", "No", "NO", "true", "True", "TRUE",
    "false", "False", "FALSE", "on", "On", "ON", "off", "Off", "OFF"].any fun w => cs = w.toList

/-- The null words, and the empty text. -/
def isNull (cs : List Char) : Bool :=
  ["~", "null", "Null", "NULL", ""].any fun w => cs = w.toList

/-- Exactly `n` digits at the front; the rest. -/
def digitsExactly (n : Nat) (cs : List Char) : Option (List Char) :=
  if (cs.take n).length = n && (cs.take n).all isDigit then some (cs.drop n) else none

/-- One digit and an optional second one at the front; the rest. -/
def oneOrTwoDigits : List Char → Option (List Char)
  | a :: b :: rest => if isDigit a then some (if isDigit b then rest else b :: rest) else none
  | [a] => if isDigit a then some [] else none
  | [] => none

/-- A character at the front; the rest. -/
def literal (c : Char) : List Char → Option (List Char)
  | d :: rest => if c = d then some rest else none
  | [] => none

/-- The zone of a timestamp: blanks, then `Z` or a signed offset of one or two
digits of hours and optionally `:` and two digits of minutes; or nothing. -/
def isZone (cs : List Char) : Bool :=
  cs.isEmpty ||
    match cs.dropWhile (fun c => c = ' ' || c = '\t') with
    | ['Z'] => true
    | s :: rest =>
      (s = '-' || s = '+') &&
        match oneOrTwoDigits rest with
        | some [] => true
        | some more => (literal ':' more >>= digitsExactly 2) = some []
        | none => false
    | [] => false

/-- The time of a timestamp after the date: a `T` or blanks, hours of one or
two digits, minutes and seconds of two, an optional fraction, and a zone. -/
def isTimeOfDay (cs : List Char) : Bool :=
  let afterSeparator : Option (List Char) :=
    match cs with
    | c :: rest =>
      if c = 'T' || c = 't' then some rest
      else if c = ' ' || c = '\t' then some (rest.dropWhile fun c => c = ' ' || c = '\t')
      else none
    | [] => none
  match afterSeparator >>= oneOrTwoDigits >>= literal ':' >>= digitsExactly 2 >>= literal ':' >>=
      digitsExactly 2 with
  | some ('.' :: rest) => isZone (rest.dropWhile isDigit)
  | some rest => isZone rest
  | none => false

/-- The timestamp pattern: a date `YYYY-MM-DD`, or a date with months and days
of one or two digits followed by a time of day. -/
def isTimestamp (cs : List Char) : Bool :=
  (digitsExactly 4 cs >>= literal '-' >>= digitsExactly 2 >>= literal '-' >>= digitsExactly 2) = some [] ||
    match digitsExactly 4 cs >>= literal '-' >>= oneOrTwoDigits >>= literal '-' >>= oneOrTwoDigits with
    | some rest => isTimeOfDay rest
    | none => false

/-- The patterns tried for a text of version 1.2, by its first character. -/
def patterns12 (first : Option Char) : List (String × (List Char → Bool)) :=
  let bool := ("bool", isBool12)
  let float := ("float", isFloat12)
  let int := ("int", isInt12)
  let merge : String × (List Char → Bool) := ("merge", fun cs => cs == ['<', '<'])
  let null := ("null", isNull)
  let timestamp := ("timestamp", isTimestamp)
  let value : String × (List Char → Bool) := ("value", fun cs => cs == ['='])
  let indicator := ("yaml", fun cs => cs = ['!'] || cs = ['&'] || cs = ['*'])
  match first with
  | none => [null]
  | some c =>
    if c = 't' || c = 'T' || c = 'f' || c = 'F' then [bool]
    else if isDigit c then [float, int, timestamp]
    else if c = '-' || c = '+' then [float, int]
    else if c = '.' then [float]
    else if c = '<' then [merge]
    else if c = '~' || c = 'n' || c = 'N' then [null]
    else if c = '=' then [value]
    else if c = '!' || c = '&' || c = '*' then [indicator]
    else []

/-- The patterns tried for a text of version 1.1, by its first character. -/
def patterns11 (first : Option Char) : List (String × (List Char → Bool)) :=
  let bool := ("bool", isBool11)
  let float := ("float", isFloat11)
  let int := ("int", isInt11)
  let merge : String × (List Char → Bool) := ("merge", fun cs => cs == ['<', '<'])
  let null := ("null", isNull)
  let timestamp := ("timestamp", isTimestamp)
  let value : String × (List Char → Bool) := ("value", fun cs => cs == ['='])
  let indicator := ("yaml", fun cs => cs = ['!'] || cs = ['&'] || cs = ['*'])
  match first with
  | none => [null]
  | some c =>
    if c = 'y' || c = 'Y' || c = 'o' || c = 'O' || c = 't' || c = 'T' || c = 'f' || c = 'F' then [bool]
    else if c = 'n' || c = 'N' then [bool, null]
    else if isDigit c then [float, int, timestamp]
    else if c = '-' || c = '+' then [float, int]
    else if c = '.' then [float]
    else if c = '<' then [merge]
    else if c = '~' then [null]
    else if c = '=' then [value]
    else if c = '!' || c = '&' || c = '*' then [indicator]
    else []

/-- The tag of a plain scalar's text in a document of the given version; a
version without patterns fails with that version as the missing key. -/
def plainTag (version : Nat × Nat) (text : String) : Except Error String :=
  let cs := text.toList
  let candidates :=
    if version = (1, 2) then some (patterns12 cs.head?)
    else if version = (1, 1) then some (patterns11 cs.head?)
    else none
  match candidates with
  | none => .error (.missingKey ("(" ++ toString version.1 ++ ", " ++ toString version.2 ++ ")"))
  | some ps =>
    match ps.find? fun p => fitsAtEnd p.2 cs with
    | some p => .ok (coreTag p.1)
    | none => .ok (coreTag "str")

end Branching.Yaml.Resolve

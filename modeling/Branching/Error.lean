import Branching.Value.Text

/-!
# Errors

Every way a step of the library can fail, as data, and the one function that
words it (`Error.message`). Syntax errors carry the markup they were found in
and, once a template knows it, the line; a syntax error's text is its fault,
then ` in '<markup>'` when the markup is known, then ` (line N)` when the line
is known.
-/

namespace Branching

/-- What is wrong with the text of an operand, a header or a template. -/
inductive SyntaxFault where
  | missingOperand
  | invalidExpression (text : String)
  | unterminatedBracket (text : String)
  | unexpectedCharacter (c : Char) (position : Nat)
  | emptyCondition
  | chainTooLong (limit : Int)
  | trailingInput (token : String) (position : Nat)
  | keywordAsOperand (word : String)
  | endOfExpression
  | notAnExpression (token : String)
  | expectedToken (kind : String) (found : String)
  | missingOperandBefore (word : String)
  | missingOperandAfter (word : String)
  | unterminatedDelimiter (opener closer : String)
  | malformedTag
  | unknownTag (name : String)
  | outsideIf (name : String)
  | nestingTooDeep (limit : Int)
  | neverClosed
  | elsifAfterElse
  | duplicateElse
  | elseWithArguments
  | afterClose (tag : String)
  /-- An integer literal with more decimal digits than `integerDigitLimit`;
  this refusal names no place and is not read again leniently. -/
  | integerTooLong (digits : Nat)
  deriving DecidableEq

/-- The refusal of an integer text with `n` decimal digits, more than
`integerDigitLimit`. -/
def digitLimitText (n : Nat) : String :=
  "Exceeds the limit (" ++ toString integerDigitLimit ++ " digits) for integer string conversion: value has " ++
    toString n ++ " digits; use sys.set_int_max_str_digits() to increase the limit"

/-- The wording of a syntax fault. -/
def SyntaxFault.text : SyntaxFault → String
  | missingOperand => "Missing operand"
  | invalidExpression t => "Invalid expression '" ++ t ++ "'"
  | unterminatedBracket t => "Unterminated '[' in expression '" ++ t ++ "'"
  | unexpectedCharacter c p => "Unexpected character '" ++ String.singleton c ++ "' at position " ++ toString p
  | emptyCondition => "Empty condition"
  | chainTooLong n => "Condition chain longer than " ++ Value.intText n ++ " comparisons"
  | trailingInput t p => "Unexpected trailing input '" ++ t ++ "' at position " ++ toString p
  | keywordAsOperand w => "Expected an operand but found '" ++ w ++ "'"
  | endOfExpression => "Unexpected end of expression, expected an operand"
  | notAnExpression t => "'" ++ t ++ "' is not a valid expression"
  | expectedToken k f => "Expected " ++ k ++ " but found '" ++ f ++ "'"
  | missingOperandBefore w => "Missing operand before '" ++ w ++ "'"
  | missingOperandAfter w => "Missing operand after '" ++ w ++ "'"
  | unterminatedDelimiter o c => "'" ++ o ++ "' was not properly terminated with '" ++ c ++ "'"
  | malformedTag => "Malformed tag"
  | unknownTag n => "Unknown tag '" ++ n ++ "'"
  | outsideIf n => "Unexpected '" ++ n ++ "' outside of 'if'"
  | nestingTooDeep n => "Nesting too deep (more than " ++ Value.intText n ++ " levels)"
  | neverClosed => "'if' tag was never closed"
  | elsifAfterElse => "'elsif' after 'else'"
  | duplicateElse => "Duplicate 'else'"
  | elseWithArguments => "'else' does not take arguments"
  | afterClose t => "'" ++ t ++ "' after the construct was closed"
  | integerTooLong n => digitLimitText n

/-- Whether a fault is a limit of integer texts rather than a fault of the
markup's grammar: such a fault is reported without markup or line, and the
lenient reader is not tried after it. -/
def SyntaxFault.isLimit : SyntaxFault → Bool
  | integerTooLong _ => true
  | _ => false

/-- A syntax fault with the markup it was found in and the template line. -/
structure SyntaxError where
  fault : SyntaxFault
  markup : Option String := none
  line : Option Nat := none
  deriving DecidableEq

namespace SyntaxError

/-- The error's text. -/
def message (e : SyntaxError) : String :=
  if e.fault.isLimit then e.fault.text else
  let withMarkup := match e.markup with
    | some m => e.fault.text ++ " in '" ++ m ++ "'"
    | none => e.fault.text
  match e.line with
  | some n => withMarkup ++ " (line " ++ toString n ++ ")"
  | none => withMarkup

/-- Fills in the line unless the error already has one. -/
def withLine (e : SyntaxError) (n : Nat) : SyntaxError :=
  match e.line with
  | some _ => e
  | none => { e with line := some n }

end SyntaxError

/-- What is wrong with a configuration. -/
inductive ConfigFault where
  | unknownMode (given : String)
  | unknownKeys (keys : List String)
  | expectedBool (given : Value)
  | expectedInt (field : String) (given : Value)
  | notPositive (field : String)
  | fileNotFound (path : String)
  | notMapping (path : String)
  | unreadable (path : String) (reason : String)

/-- The wording of a configuration fault. -/
def ConfigFault.message : ConfigFault → String
  | unknownMode g => "Unknown error mode '" ++ g ++ "' (expected one of: lax, warn, strict)"
  | unknownKeys ks => "Unknown config keys: " ++ ", ".intercalate ks
  | expectedBool v => "strict_variables: expected bool, got " ++ v.written
  | expectedInt f v => f ++ ": expected int, got " ++ v.written
  | notPositive f => f ++ " must be positive"
  | fileNotFound p => "Config file not found: " ++ p
  | notMapping p => "Config " ++ p ++ " must be a mapping"
  | unreadable p r => "Failed to parse " ++ p ++ ": " ++ r

/-- Every failure of parsing, resolving, comparing or configuring. -/
inductive Error where
  /-- Malformed markup. -/
  | malformed (e : SyntaxError)
  /-- A comparison symbol outside the known set. -/
  | unknownOperator (symbol : String)
  /-- An ordering asked of values that have no common order. -/
  | incomparable (left : Value) (symbol : String) (right : Value)
  /-- A variable or key not found while strict variables are on. -/
  | undefined (path : String)
  /-- A bad configuration. -/
  | config (fault : ConfigFault)
  /-- A range bound that is no integer. -/
  | notAnInteger (v : Value)
  /-- A NaN range bound. -/
  | nanBound
  /-- An infinite range bound. -/
  | infiniteBound
  /-- A range too long to measure. -/
  | sizeOverflow
  /-- A collection that cannot be a key used as one. -/
  | unhashable (kind : String)
  /-- Popping the last scope. -/
  | rootScope
  /-- A text that is no integer in the given base. -/
  | notIntegerText (base : Nat) (text : String)
  /-- A decimal integer text with more digits than `integerDigitLimit`. -/
  | tooManyDigits (digits : Nat)
  /-- A text that is no floating-point number. -/
  | notFloatText (text : String)
  /-- The first character of an empty text asked for. -/
  | emptyText
  /-- A key missing from a table; the key as written. -/
  | missingKey (key : String)
  /-- Fields that make no date, time of day or zone. -/
  | badCalendar (reason : String)
  /-- A moment past the last day of the calendar. -/
  | pastLastDate
  /-- A key given twice where that is not allowed. -/
  | repeatedKey
  /-- Two keys that cannot be put in order. -/
  | unordered (reason : String)
  /-- An integer whose decimal form would have more than `integerDigitLimit`
  digits, asked to be written. -/
  | intTooLong
  /-- A YAML version of major version 1 whose minor version is neither 1 nor 2. -/
  | unknownMinorVersion (major minor : Nat)
  /-- A character code past the last code point. -/
  | codeOutOfRange
  /-- A comparison or a printing that would go on forever, through a
  collection that holds itself; the words say what was going on. -/
  | endless (during : String)

/-- The wording of an error. -/
def Error.message : Error → String
  | malformed e => e.message
  | unknownOperator s => "Unknown operator " ++ s
  | incomparable l s r =>
    "Comparison of " ++ l.typeName ++ " with " ++ r.typeName ++ " failed (" ++
      l.written ++ " " ++ s ++ " " ++ r.written ++ ")"
  | undefined p => "Undefined variable '" ++ p ++ "'"
  | config f => f.message
  | notAnInteger v => "invalid integer " ++ v.written
  | nanBound => "cannot convert float NaN to integer"
  | infiniteBound => "cannot convert float infinity to integer"
  | sizeOverflow => "Python int too large to convert to C ssize_t"
  | unhashable k => "unhashable type: '" ++ k ++ "'"
  | rootScope => "Cannot pop the root scope"
  | notIntegerText b t =>
    "invalid literal for int() with base " ++ toString b ++ ": " ++ String.ofList ((Text.quote t.toList).take 200)
  | tooManyDigits n => digitLimitText n
  | notFloatText t => "could not convert string to float: " ++ Text.quoteString t
  | emptyText => "string index out of range"
  | missingKey k => k
  | badCalendar r => r
  | pastLastDate => "date value out of range"
  | repeatedKey => ""
  | unordered r => r
  | intTooLong =>
    "Exceeds the limit (" ++ toString integerDigitLimit ++
      " digits) for integer string conversion; use sys.set_int_max_str_digits() to increase the limit"
  | unknownMinorVersion major minor =>
    "version minor part can only be 2 or 1, got (" ++ toString major ++ ", " ++ toString minor ++ ")"
  | codeOutOfRange => "chr() arg not in range(0x110000)"
  | endless during => "maximum recursion depth exceeded" ++ during

/-- An error whose message writes the given values, or the refusal to write
them when one would write an integer that does not fit. -/
def Error.writing (vs : List Value) (e : Error) : Error :=
  if vs.all Value.reprFits then e else .intTooLong

namespace Value

/-- The written form of a value, or the refusal to write an integer that does
not fit. -/
def tryWritten (v : Value) : Except Error String :=
  if v.reprFits then .ok v.written else .error .intTooLong

/-- The display form of a value, or the refusal to write an integer that does
not fit. -/
def tryDisplay (v : Value) : Except Error String :=
  if v.displayFits then .ok v.display else .error .intTooLong

/-- What a template prints for a value, or the refusal to write an integer
that does not fit or to print a list that holds itself forever. -/
def tryRender (v : Value) : Except Error String :=
  match v.printStop? with
  | none => .ok v.render
  | some .tooLong => .error .intTooLong
  | some .endless => .error (.endless "")

end Value

end Branching

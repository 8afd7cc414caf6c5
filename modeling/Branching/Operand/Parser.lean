import Branching.Operand.Basic
import Branching.Operand.Scan
import Branching.Number.Decimal
import Branching.Text.Digit
import Branching.Error

/-!
# Reading operands

`Operand.parse` reads the text of one operand. White space around it is
ignored. In order, the text is taken as:
1. `nil`, `null`, `true`, `false` (literals) or `empty`, `blank` (method literals);
2. a text between two equal quotes that does not contain that quote;
3. an integer: an optional `-` and decimal digits of any script, at most
   `integerDigitLimit` of them;
4. a number: an optional `-`, digits, `.`, digits; read to the nearest binary64;
5. a range `(first..last)`, split as `rangeSplit` says, each end read again;
6. a variable path: a root name or a bracketed operand, then lookups `.key`
   or `[operand]`.
Anything else is an invalid expression.
-/

namespace Branching.Operand

open Text

/-- The literal or method literal spelled by a reserved word. -/
def reservedWord? (s : String) : Option Operand :=
  if s = "nil" ∨ s = "null" then some (.literal .nil s)
  else if s = "true" then some (.literal (.bool true) s)
  else if s = "false" then some (.literal (.bool false) s)
  else if s = "empty" then some (.method .empty)
  else if s = "blank" then some (.method .blank)
  else none

/-- The inside of a text between two equal quotes with no such quote inside. -/
def quoted? : List Char → Option (List Char)
  | q :: rest =>
    if (q = '"' ∨ q = '\'') ∧ rest.getLast? = some q ∧ !rest.dropLast.contains q then
      some rest.dropLast
    else none
  | [] => none

/-- Whether a text is a non-empty run of decimal digits. -/
def isDigits (cs : List Char) : Bool := !cs.isEmpty && cs.all isDigit

/-- The sign and digits of an integer text `-?digits`. -/
def signedDigits? (cs : List Char) : Option (Bool × List Char) :=
  match cs with
  | '-' :: rest => if isDigits rest then some (true, rest) else none
  | _ => if isDigits cs then some (false, cs) else none

/-- The integer an integer text stands for. -/
def integer? (cs : List Char) : Option Int := do
  let (negative, ds) ← signedDigits? cs
  let n ← digitsValue? ds
  pure (if negative then -(n : Int) else n)

/-- The binary64 number nearest to a decimal text `-?digits.digits`. -/
def decimal? (cs : List Char) : Option Binary64 := do
  let (negative, body) ← match cs with
    | '-' :: rest => some (true, rest)
    | _ => some (false, cs)
  let whole := body.takeWhile (· != '.')
  let fraction := body.drop (whole.length + 1)
  if isDigits whole && body.drop whole.length != [] && isDigits fraction then
    let w ← digitsValue? whole
    let f ← digitsValue? fraction
    pure (Binary64.ofDecimal negative (w * Nat.pow 10 fraction.length + f) (-(fraction.length : Int)))
  else none

mutual

/-- Reads an operand from its text. -/
def parseChars (cs : List Char) : Except SyntaxFault Operand :=
  let t := strip cs
  let s := String.ofList t
  if t.isEmpty then .error .missingOperand
  else match reservedWord? s with
  | some o => .ok o
  | none =>
  match quoted? t with
  | some inside => .ok (.literal (.str (String.ofList inside)) s)
  | none =>
  match integer? t with
  | some n =>
    let digits := t.length - (if t.head? = some '-' then 1 else 0)
    if integerDigitLimit < digits then .error (.integerTooLong digits) else .ok (.literal (.int n) s)
  | none =>
  match decimal? t with
  | some x => .ok (.literal (.float x) s)
  | none =>
  match h : rangeSplit t with
  | some (a, b) =>
    have := length_rangeSplit h
    have : t.length ≤ cs.length := length_strip_le cs
    match parseChars a with
    | .error e => .error e
    | .ok first =>
      match parseChars b with
      | .error e => .error e
      | .ok last => .ok (.range first last)
  | none =>
    have : (strip cs).length ≤ cs.length := length_strip_le cs
    parsePath t
termination_by 2 * cs.length + 1

/-- Reads a variable path: its root, then its lookups. -/
def parsePath (t : List Char) : Except SyntaxFault Operand :=
  match h : spanBracket t with
  | some (inside, rest) =>
    have := length_spanBracket h
    match parseChars inside with
    | .error e => .error e
    | .ok root => parseLookups t (.index root) [] rest
  | none =>
    if t.head? = some '[' then .error (.unterminatedBracket (String.ofList t))
    else
      match h : spanName t with
      | some (name, rest) =>
        have := length_spanName h
        parseLookups t (.name (String.ofList name)) [] rest
      | none => .error (.invalidExpression (String.ofList t))
termination_by 2 * t.length

/-- Reads the lookups of the path `whole` after its root; `done` holds the
lookups read so far, `cs` the text left. -/
def parseLookups (whole : List Char) (root : Key) (done : List Key) (cs : List Char) :
    Except SyntaxFault Operand :=
  match cs with
  | [] => .ok (.path root done.reverse)
  | '.' :: rest =>
    match h : spanKey rest with
    | some (key, after) =>
      have := length_spanKey h
      parseLookups whole root (.name (String.ofList key) :: done) after
    | none => .error (.invalidExpression (String.ofList whole))
  | '[' :: rest =>
    match h : spanBracket ('[' :: rest) with
    | some (inside, after) =>
      have : inside.length < rest.length + 1 ∧ after.length < rest.length + 1 := by
        simpa using length_spanBracket h
      match parseChars inside with
      | .error e => .error e
      | .ok key => parseLookups whole root (.index key :: done) after
    | none => .error (.unterminatedBracket (String.ofList whole))
  | _ :: _ => .error (.invalidExpression (String.ofList whole))
termination_by 2 * cs.length

end

/-- Reads an operand from its text. -/
def parse (s : String) : Except SyntaxFault Operand := parseChars s.toList

end Branching.Operand

import Branching.Condition.Strict
import Branching.Condition.Lenient

/-!
# Header modes

A header is read in one of three modes: lenient, strict, or warn. Warn mode
reads strictly and, when that fails, records the strict error and reads
leniently; the lenient outcome (chain or error) is then the outcome.

A mode is named by a text, compared after trimming white space and folding
ASCII letters to lower case.
-/

namespace Branching

/-- How branch headers are read. -/
inductive Mode where
  | lax
  | warn
  | strict
  deriving DecidableEq

namespace Mode

/-- The name of a mode. -/
def name : Mode → String
  | lax => "lax"
  | warn => "warn"
  | strict => "strict"

/-- The mode a text names, after trimming and folding to lower case. -/
def ofText? (s : String) : Option Mode :=
  let t := String.ofList ((Text.strip s.toList).map Char.toLower)
  if t = "lax" then some lax else if t = "warn" then some warn
  else if t = "strict" then some strict else none

/-- The mode named by a value's display text. -/
def ofValue (v : Value) : Except Error Mode :=
  match v.tryDisplay with
  | .error e => .error e
  | .ok t =>
    match ofText? t with
    | some m => .ok m
    | none => .error (.config (.unknownMode t))

end Mode

/-- Something reading a template reports without failing. -/
inductive Notice where
  /-- A header strict reading refused; it was read leniently. -/
  | fallback (e : SyntaxError)
  /-- Arguments after `else`, ignored. -/
  | elseIgnored (arguments : String)

/-- The text of a notice. -/
def Notice.text : Notice → String
  | .fallback e => e.message ++ "; falling back to lax parsing"
  | .elseIgnored a => "Ignoring arguments of 'else': " ++ Text.quoteString a

/-- The strict errors recorded among notices. -/
def Notice.fallbacks (ns : List Notice) : List SyntaxError :=
  ns.filterMap fun
    | .fallback e => some e
    | .elseIgnored _ => none

/-- Reads a header in a mode with at most `limit` comparisons; gives the
notices raised and the chain or the error. -/
def Mode.read (mode : Mode) (limit : Int) (markup : String) :
    List Notice × Except SyntaxError Chain :=
  match mode with
  | .lax => ([], Lenient.parse limit markup)
  | .strict => ([], Strict.parse limit markup)
  | .warn =>
    match Strict.parse limit markup with
    | .ok c => ([], .ok c)
    | .error e => if e.fault.isLimit then ([], .error e) else ([.fallback e], Lenient.parse limit markup)

/-- Reads a header in a mode and evaluates it in a context; gives the notices
raised while reading and the truth of the header or the error. -/
def Mode.evaluate (mode : Mode) (limit : Int) (ctx : Context) (markup : String) :
    List Notice × Except Error Bool :=
  match mode.read limit markup with
  | (notices, .error e) => (notices, .error (.malformed e))
  | (notices, .ok c) => (notices, c.evaluate ctx)

end Branching

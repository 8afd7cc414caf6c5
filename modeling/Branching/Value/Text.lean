import Branching.Value.Layout
import Branching.Number.Decimal
import Branching.Text.Quoted

/-!
# Text forms of values

Three spellings of a value:
- `written`, the form a value has inside collections and in messages: texts
  quoted, nil as `None`, truth values as `True`/`False`, collections with their
  brackets, a range as `range(first, stop)`;
- `display`, the plain text of a value: a text is itself, a method literal its
  name, a date or time its ISO form, everything else its written form;
- `render`, what a template prints: nothing for nil, `true`/`false`, the items
  of a list or tuple one after another, a range as `first..last`, and the
  display form otherwise.

Where a collection recurs inside itself, its written form is cut short: `[...]`
for a list, `\x7b...\x7d` for a mapping, `...` for an ordered mapping. A
template cannot print a list that holds itself through lists and tuples only:
that printing would never end.

An integer is written only while its decimal form has at most
`integerDigitLimit` digits, the sign not counted; `reprFits`, `displayFits`
and `printStop?` tell whether a spelling writes only such integers.
-/

namespace Branching

/-- Numbers are written positionally when the exponent of their leading digit
is from -4 up to 15, and in scientific form with a signed exponent of at least
two digits otherwise; a whole number keeps ".0"; NaN and the infinities are
spelled `nan`, `inf` and `-inf`. -/
def valueFloatStyle : FloatStyle := ⟨-4, 16, "e", 2, true, "nan", "inf"⟩

/-- The most decimal digits an integer text may have, and the most digits the
decimal form of an integer written out may have. -/
def integerDigitLimit : Nat := 4300

namespace Value

/-- Whether an integer's decimal form, sign left out, is within
`integerDigitLimit` digits. -/
def intFits (n : Int) : Bool := n.natAbs < Nat.pow 10 integerDigitLimit

/-- The written form of an integer. -/
def intText (n : Int) : String :=
  if n < 0 then "-" ++ String.ofList (Nat.toDigits 10 n.natAbs) else String.ofList (Nat.toDigits 10 n.natAbs)

mutual

/-- The written form of a value inside the collections `outer` (innermost
first), given by what each is cut short to where it recurs. -/
def writtenIn (outer : List String) : Value → String
  | nil => "None"
  | bool b => if b then "True" else "False"
  | int n => intText n
  | float x => valueFloatStyle.spell x
  | str s => Text.quoteString s
  | list xs => "[" ++ writtenItems ("[...]" :: outer) xs ++ "]"
  | tuple [x] => "(" ++ writtenIn ("(...)" :: outer) x ++ ",)"
  | tuple xs => "(" ++ writtenItems ("(...)" :: outer) xs ++ ")"
  | range first last => "range(" ++ intText first ++ ", " ++ intText (last + 1) ++ ")"
  | set xs =>
    if xs.isEmpty then "set()" else "\x7b" ++ writtenItems ("\x7b...\x7d" :: outer) xs ++ "\x7d"
  | dict es => "\x7b" ++ writtenEntries ("\x7b...\x7d" :: outer) es ++ "\x7d"
  | method m => "MethodLiteral(name='" ++ m.name ++ "')"
  | date d => d.written
  | dateTime t => t.written
  | bytes bs => Text.quoteBytes bs
  | ordered es =>
    if es.isEmpty then "ordereddict()" else "ordereddict([" ++ writtenPairs ("..." :: outer) es ++ "])"
  | cycle up _ => outer.getD up "..."

/-- Written forms of items, separated by a comma and a space. -/
def writtenItems (outer : List String) : List Value → String
  | [] => ""
  | [x] => writtenIn outer x
  | x :: xs => writtenIn outer x ++ ", " ++ writtenItems outer xs

/-- Written forms of mapping entries, `key: value`, separated by commas. -/
def writtenEntries (outer : List String) : List (Value × Value) → String
  | [] => ""
  | [(k, v)] => writtenIn outer k ++ ": " ++ writtenIn outer v
  | (k, v) :: es => writtenIn outer k ++ ": " ++ writtenIn outer v ++ ", " ++ writtenEntries outer es

/-- Written forms of mapping entries as pairs, `(key, value)`, separated by
commas; the pair itself is a tuple around them. -/
def writtenPairs (outer : List String) : List (Value × Value) → String
  | [] => ""
  | [(k, v)] => "(" ++ writtenIn ("(...)" :: outer) k ++ ", " ++ writtenIn ("(...)" :: outer) v ++ ")"
  | (k, v) :: es =>
    "(" ++ writtenIn ("(...)" :: outer) k ++ ", " ++ writtenIn ("(...)" :: outer) v ++ "), " ++
      writtenPairs outer es

end

/-- The written form of a value. -/
def written (v : Value) : String := writtenIn [] v

mutual

/-- Whether the written form of a value writes only integers that fit. -/
def reprFits : Value → Bool
  | int n => intFits n
  | list xs | tuple xs | set xs => itemsFit xs
  | range first last => intFits first && intFits (last + 1)
  | dict es | ordered es => entriesFit es
  | _ => true

/-- Whether every item's written form fits. -/
def itemsFit : List Value → Bool
  | [] => true
  | x :: xs => reprFits x && itemsFit xs

/-- Whether every key's and value's written form fits. -/
def entriesFit : List (Value × Value) → Bool
  | [] => true
  | (k, v) :: es => reprFits k && reprFits v && entriesFit es

end

/-- The plain text of a value: a text is itself, a method literal its name,
a date or time its ISO form. -/
def display : Value → String
  | str s => s
  | method m => m.name
  | date d => d.isoText
  | dateTime t => t.isoText
  | v => v.written

/-- Whether the display form of a value writes only integers that fit. -/
def displayFits : Value → Bool
  | str _ | method _ | date _ | dateTime _ => true
  | v => v.reprFits

mutual

/-- What a template prints for a value. -/
def render : Value → String
  | nil => ""
  | bool b => if b then "true" else "false"
  | list xs => renderEach xs
  | tuple xs => renderEach xs
  | range first last => intText first ++ ".." ++ intText last
  | v => v.display

/-- The printed forms of items, one after another. -/
def renderEach : List Value → String
  | [] => ""
  | x :: xs => render x ++ renderEach xs

end

/-- What stops a template from printing a value. -/
inductive PrintStop where
  /-- An integer whose decimal form would not fit. -/
  | tooLong
  /-- A list that holds itself through lists and tuples only. -/
  | endless

mutual

/-- The first thing, in the order of printing, that stops a template from
printing a value, if any does. -/
def printStop? : Value → Option PrintStop
  | nil | bool _ => none
  | list xs | tuple xs => printStopEach? xs
  | range first last => if intFits first && intFits last then none else some .tooLong
  | cycle _ _ => some .endless
  | v => if v.displayFits then none else some .tooLong

/-- The first thing that stops printing items one after another. -/
def printStopEach? : List Value → Option PrintStop
  | [] => none
  | x :: xs => (printStop? x).or (printStopEach? xs)

end

end Value

end Branching

import Branching.Operand.Basic
import Branching.Scope
import Branching.Number.IntegerText

/-!
# Resolving operands

An operand resolves in a render context to a value:
- a literal to its value, a method literal to itself;
- a range to the range of its two ends, each turned into an integer: an integer
  as it is, a binary64 number cut toward zero, a text read as an integer text;
  anything else (truth values included) is an error;
- a path to the value found by looking its root up in the scopes (a bracketed
  root is resolved and its display text is the name) and then following each
  lookup in turn.

A lookup on nil gives nil. A mapping gives the entry of the key; a list or tuple
gives the item at an integer index (from the end when negative) or nil when
there is none. What a lookup takes out of a collection is closed over it
(`Value.item`), so that a collection holding itself gives itself back. The plain keys `size`, `first` and `last` then measure a text,
collection or range, or give the first or last item of a list, tuple or range.
A lookup that finds nothing ends the path with the context's answer for a
missing variable, naming the whole path.
-/

namespace Branching

/-- The size that a length can have at most. -/
def sizeLimit : Nat := Nat.pow 2 63 - 1

/-- A range bound as an integer. -/
def Value.toBound : Value → Except Error Int
  | .int n => .ok n
  | .float x =>
    match x.meaning, x.truncate? with
    | .nan, _ => .error .nanBound
    | .infinity _, _ => .error .infiniteBound
    | _, some n => .ok n
    | _, none => .error .nanBound
  | .str s =>
    match Number.readInteger? (Text.strip s.toList) with
    | some n => .ok n
    | none => .error (.notAnInteger (.str s))
  | v => .error (Error.writing [v] (.notAnInteger v))

/-- The item of a sequence at an index counted from the start, or from the end
when negative; nil past either end. -/
def itemAt (xs : List Value) (i : Int) : Value :=
  if 0 ≤ i then xs.getD i.toNat .nil
  else if (xs.length : Int) + i < 0 then .nil
  else xs.getD (((xs.length : Int) + i).toNat) .nil

/-- What the plain keys `size`, `first` and `last` give for a value, if anything. -/
def measure (obj : Value) (key : String) : Except Error (Option Value) :=
  if key = "size" then
    match obj with
    | .range first last =>
      if sizeLimit < Value.rangeSize first last then .error .sizeOverflow
      else .ok (some (.int (Value.rangeSize first last)))
    | _ => .ok ((obj.size?).map fun n => .int n)
  else if key = "first" ∨ key = "last" then
    match obj with
    | .list xs | .tuple xs =>
      .ok (some (obj.item (if key = "first" then xs.headD .nil else xs.getLastD .nil)))
    | .range first last =>
      if sizeLimit < Value.rangeSize first last then .error .sizeOverflow
      else if Value.rangeSize first last = 0 then .ok (some .nil)
      else .ok (some (.int (if key = "first" then first else last)))
    | _ => .ok none
  else .ok none

/-- One lookup step: the value under `key` in `obj`, if found; `command` says
whether the key was written as a plain `size`, `first` or `last`. -/
def lookupStep (obj key : Value) (command : Bool) : Except Error (Option Value) :=
  let byCommand : Except Error (Option Value) :=
    match command, key with
    | true, .str k => measure obj k
    | _, _ => .ok none
  let inMapping (es : List (Value × Value)) : Except Error (Option Value) :=
    match key.unhashableKind? with
    | some kind => .error (.unhashable kind)
    | none =>
      match Value.lookup? es key with
      | some v => .ok (some (obj.item v))
      | none => byCommand
  match obj, key with
  | .dict es, _ => inMapping es
  | .ordered es, _ => inMapping es
  | .list xs, .int i => .ok (some (obj.item (itemAt xs i)))
  | .tuple xs, .int i => .ok (some (obj.item (itemAt xs i)))
  | _, _ => byCommand

/-- Whether a plain key is one of the measuring keys. -/
def isCommand (s : String) : Bool := s = "size" ∨ s = "first" ∨ s = "last"

mutual

/-- The value of an operand in a context. -/
def Operand.resolve (ctx : Context) : Operand → Except Error Value
  | .literal l _ => .ok l.toValue
  | .method m => .ok (.method m)
  | .range a b =>
    match a.resolve ctx with
    | .error e => .error e
    | .ok x =>
      match x.toBound with
      | .error e => .error e
      | .ok first =>
        match b.resolve ctx with
        | .error e => .error e
        | .ok y =>
          match y.toBound with
          | .error e => .error e
          | .ok last => .ok (.range first last)
  | .path root lookups =>
    let path := root.rootMarkup ++ Key.lookupsMarkup lookups
    match Key.rootName ctx root with
    | .error e => .error e
    | .ok name =>
      match ctx.findVariable name path with
      | .error e => .error e
      | .ok obj => Key.follow ctx path obj lookups

/-- The variable name a root stands for. -/
def Key.rootName (ctx : Context) : Key → Except Error String
  | .name s => .ok s
  | .index o =>
    match o.resolve ctx with
    | .error e => .error e
    | .ok v => v.tryDisplay

/-- Follows lookups from `obj`; `path` is the markup of the whole path. -/
def Key.follow (ctx : Context) (path : String) (obj : Value) : List Key → Except Error Value
  | [] => .ok obj
  | .name s :: rest =>
    match obj with
    | .nil => .ok .nil
    | _ =>
      match lookupStep obj (.str s) (isCommand s) with
      | .error e => .error e
      | .ok (some v) => Key.follow ctx path v rest
      | .ok none => ctx.missing path
  | .index o :: rest =>
    match obj with
    | .nil => .ok .nil
    | _ =>
      match o.resolve ctx with
      | .error e => .error e
      | .ok key =>
        match lookupStep obj key false with
        | .error e => .error e
        | .ok (some v) => Key.follow ctx path v rest
        | .ok none => ctx.missing path

end

end Branching

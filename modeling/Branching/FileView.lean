/-!
# Files as a command sees them

Commands read files through a view: a function from a path to the file's
contents, `none` when no regular file is there. A file is read as text with
each line end made a line feed: a carriage return and line feed, or a carriage
return alone, becomes one line feed (`FileView.text`). Paths given on the
command line are written back in their normal form: empty parts and `.` parts
dropped, a root of one slash kept (two leading slashes stay two), and `.` for an
empty path.
-/

namespace Branching

/-- The texts of the regular files a command may read, by normal path. -/
abbrev FileView := String → Option String

/-- The normal form of a path: the parts between slashes without empty and `.`
parts, after the root it starts with. -/
def normalPath (p : String) : String :=
  let cs := p.toList
  let root :=
    match cs with
    | '/' :: '/' :: '/' :: _ => "/"
    | '/' :: '/' :: _ => "//"
    | '/' :: _ => "/"
    | _ => ""
  let parts := (p.splitOn "/").filter fun s => s != "" && s != "."
  let text := root ++ "/".intercalate parts
  if text.isEmpty then "." else text

/-- A text with each carriage return and line feed, and each carriage return
alone, made one line feed. -/
def unifyLineEnds : List Char → List Char
  | [] => []
  | '\r' :: '\n' :: rest => '\n' :: unifyLineEnds rest
  | '\r' :: rest => '\n' :: unifyLineEnds rest
  | c :: rest => c :: unifyLineEnds rest

/-- The text of the file at a normal path, with its line ends made line feeds. -/
def FileView.text (files : FileView) (p : String) : Option String :=
  (files p).map fun t => String.ofList (unifyLineEnds t.toList)

/-- The view of a list of files given by their paths. -/
def FileView.ofList (files : List (String × String)) : FileView :=
  fun p => (files.find? fun (q, _) => normalPath q == p).map Prod.snd

end Branching

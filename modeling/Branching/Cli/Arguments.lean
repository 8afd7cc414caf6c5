import Branching.Cli.Usage
import Branching.Text.Digit
import Branching.Text.Quoted

/-!
# Reading a command line

A command line is read in two rounds, the program's and then the command's.
Each round first sorts its arguments into words (`Word`): `--`, after which
everything is an operand; an option the round knows, written out, abbreviated
to a unique prefix, or with its value attached by `=`; an option it does not
know; or an operand. A negative number and a text holding a space are operands.
An abbreviation that fits several options refuses the whole line.

The program's round knows `-h`, `-V` and `-v`; its first operand names the
command, and every argument after it goes to the command's round. The command's
round takes its options in order, the first operand as the command's operand,
and keeps every other argument aside; those refuse the line once the command's
own reading succeeded. Short switches may be run together (`-vV`).

## Main definitions

- `Word` — one argument as a round sees it.
- `classify` — sorts one argument.
- `Request.ofArgs` — reads a whole command line.
-/

namespace Branching.Cli

open Text

/-- One argument as a round of reading sees it. -/
inductive Word where
  /-- `--`: every later argument is an operand. -/
  | separator
  /-- An operand. -/
  | operand (text : String)
  /-- A known option, written out, with the text attached to it: after `=`
  (`byEquals`) or right after a short switch. -/
  | option (spelling : String) (attached : Option String) (byEquals : Bool)
  /-- An option no spelling fits. -/
  | unknown (text : String)
  deriving Repr

/-- Whether a text reads as a negative number: `-` and digits, or `-`, digits,
a point and digits; one line feed may follow. -/
def looksNegative (s : String) : Bool :=
  let cs := s.toList
  match if cs.getLast? = some '\n' then cs.dropLast else cs with
  | '-' :: rest =>
    let whole := rest.takeWhile isDigit
    match rest.drop whole.length with
    | [] => !whole.isEmpty
    | '.' :: frac => !frac.isEmpty && frac.all isDigit
    | _ => false
  | _ => false

/-- The spellings that an option text may abbreviate, each with the text it
carries and whether that text came after `=`: for `--x` every spelling it
starts, with what follows its `=`; for `-x…` the short spelling of its first two
characters with the rest, and every spelling it starts. -/
def candidates (spellings : List String) (arg : String) :
    List (String × Option String × Bool) :=
  if arg.startsWith "--" then
    let (pre, attached) := match arg.splitOn "=" with
      | pre :: rest@(_ :: _) => (pre, some ("=".intercalate rest))
      | _ => (arg, none)
    (spellings.filter (·.startsWith pre)).map fun s => (s, attached, attached.isSome)
  else
    let short := String.ofList (arg.toList.take 2)
    let rest := String.ofList (arg.toList.drop 2)
    spellings.filterMap fun s =>
      if s == short then some (s, some rest, false)
      else if s.startsWith arg then some (s, none, false)
      else none

/-- Sorts one argument; an abbreviation fitting several options is refused
with the reason. -/
def classify (spellings : List String) (arg : String) : Except String Word :=
  if arg == "--" then .ok .separator
  else if !arg.startsWith "-" then .ok (.operand arg)
  else if spellings.contains arg then .ok (.option arg none false)
  else if arg.length = 1 then .ok (.operand arg)
  else
    let exact := match arg.splitOn "=" with
      | pre :: rest@(_ :: _) =>
        if spellings.contains pre then some (pre, "=".intercalate rest) else none
      | _ => none
    match exact with
    | some (pre, v) => .ok (.option pre (some v) true)
    | none =>
      match candidates spellings arg with
      | [(s, a, e)] => .ok (.option s a e)
      | [] =>
        if looksNegative arg || arg.contains ' ' then .ok (.operand arg)
        else .ok (.unknown arg)
      | many =>
        .error ("ambiguous option: " ++ arg ++ " could match " ++
          ", ".intercalate (many.map Prod.fst))

/-- Sorts the arguments of a round: up to `--` each by `classify`, after it
all as operands. -/
def classifyAll (spellings : List String) : List String → Except String (List Word)
  | [] => .ok []
  | a :: rest =>
    match classify spellings a with
    | .error m => .error m
    | .ok .separator => .ok (.separator :: rest.map Word.operand)
    | .ok w => (classifyAll spellings rest).map (w :: ·)

/-- The reason given for an attached text a switch does not take. -/
def ignoredText (name : String) (text : String) : String :=
  "argument " ++ name ++ ": ignored explicit argument " ++ quoteString text

/-- The switches a short switch `c` with attached text runs together with, in
order, and the text set aside: each attached character that names a known
switch adds it, and at the first that does not, the rest, with a dash before
it, is set aside. Text after `=`, or starting with a dash, is refused. -/
def runTogether (isSwitch : Char → Bool) (nameOf : Char → String) :
    Char → Bool → List Char → Except String (List Char × Option String)
  | c, true, text => .error (ignoredText (nameOf c) (String.ofList text))
  | c, false, [] => .ok ([c], none)
  | c, false, d :: rest =>
    if d == '-' then .error (ignoredText (nameOf c) (String.ofList (d :: rest)))
    else if isSwitch d then
      match rest with
      | '=' :: more => (runTogether isSwitch nameOf d true more).map fun (cs, x) => (c :: cs, x)
      | other => (runTogether isSwitch nameOf d false other).map fun (cs, x) => (c :: cs, x)
    else .ok ([c], some (String.ofList ('-' :: d :: rest)))

/-- The switches of the program's round. -/
inductive Switch where
  | help
  | version
  | verbose
  deriving DecidableEq, Repr

/-- The switch a spelling of the program's round names. -/
def Switch.ofSpelling (s : String) : Switch :=
  if s == "-h" || s == "--help" then .help
  else if s == "-V" || s == "--version" then .version
  else .verbose

/-- The switch a short letter names. -/
def Switch.ofLetter? : Char → Option Switch
  | 'h' => some .help
  | 'V' => some .version
  | 'v' => some .verbose
  | _ => none

/-- How errors name a switch. -/
def Switch.name : Switch → String
  | .help => "-h/--help"
  | .version => "-V/--version"
  | .verbose => "-v/--verbose"

/-- The spellings the program's round knows. -/
def programSpellings : List String := ["-h", "--help", "-V", "--version", "-v", "--verbose"]

/-- The switches one option word of the program's round runs, in order, and
the text it sets aside. -/
def Switch.ofWord (spelling : String) (attached : Option String) (byEquals : Bool) :
    Except String (List Switch × Option String) :=
  let sw := Switch.ofSpelling spelling
  match attached with
  | none => .ok ([sw], none)
  | some text =>
    if spelling.startsWith "--" then .error (ignoredText sw.name text)
    else
      let letter := match sw with
        | .help => 'h'
        | .version => 'V'
        | .verbose => 'v'
      (runTogether (fun c => (Switch.ofLetter? c).isSome)
        (fun c => ((Switch.ofLetter? c).getD .verbose).name) letter byEquals text.toList).map
        fun (cs, x) => (cs.filterMap Switch.ofLetter?, x)

/-- The request the first of some switches makes, if one makes one: help and
the version end the reading; `-v` does not. -/
def Switch.request? : List Switch → Option Request
  | [] => none
  | .help :: _ => some (.help none)
  | .version :: _ => some .version
  | .verbose :: rest => Switch.request? rest

/-- The spellings a command's round knows. -/
def Command.spellings (c : Command) : List String := "-h" :: c.flags.map Flag.spelling

/-- The option a spelling of a command's round names. -/
def Command.flagOf (c : Command) (s : String) : Flag :=
  if s == "-h" then .help else (c.flags.find? (·.spelling == s)).getD .help

/-- How errors name an option. -/
def Flag.name : Flag → String
  | .help => "-h/--help"
  | f => f.spelling

/-- The reason for an option value outside its choices. -/
def invalidChoice (name : String) (given : String) (choices : List String) : String :=
  "argument " ++ name ++ ": invalid choice: " ++ quoteString given ++ " (choose from " ++
    ", ".intercalate (choices.map quoteString) ++ ")"

/-- The modes `--mode` accepts, by name. -/
def modeChoices : List (String × Mode) := [("lax", .lax), ("warn", .warn), ("strict", .strict)]

/-- The options given so far with one more option and its value. -/
def Options.give (o : Options) : Flag → String → Except String Options
  | .mode, v =>
    match modeChoices.lookup v with
    | some m => .ok { o with mode := some m }
    | none => .error (invalidChoice "--mode" v (modeChoices.map Prod.fst))
  | .config, v => .ok { o with config := some v }
  | .vars, v => .ok { o with vars := some v }
  | .strictVariables, _ => .ok { o with strictVariables := some true }
  | .help, _ => .ok o

/-- The reason for arguments nothing took. -/
def unrecognized (extras : List String) : String :=
  "unrecognized arguments: " ++ " ".intercalate extras

/-- Reads the words of a command's round: the options in order, the operand,
and the arguments nothing took (`aside`, latest first), which refuse the line at
the end. `before` are those the program's round set aside. A `--` before the
operand or right after it belongs to it; a later one is set aside too. -/
def Command.read (c : Command) (before : List String) :
    List Word → Options → Option String → List String → Request
  | [], opts, operand, aside =>
    match operand with
    | none => .refused (some c) ("the following arguments are required: " ++ c.operandName)
    | some x =>
      let extras := before ++ aside.reverse
      if extras.isEmpty then .run c x opts else .refused none (unrecognized extras)
  | .separator :: rest, opts, operand, aside =>
    match operand with
    | none => c.read before rest opts operand aside
    | some _ => c.read before rest opts operand ("--" :: aside)
  | .operand t :: rest, opts, operand, aside =>
    match operand with
    | none =>
      match rest with
      | .separator :: more => c.read before more opts (some t) aside
      | other => c.read before other opts (some t) aside
    | some _ => c.read before rest opts operand (t :: aside)
  | .unknown t :: rest, opts, operand, aside => c.read before rest opts operand (t :: aside)
  | .option s attached byEquals :: rest, opts, operand, aside =>
    let flag := c.flagOf s
    if flag.takesValue then
      match attached with
      | some v =>
        match opts.give flag v with
        | .error m => .refused (some c) m
        | .ok opts => c.read before rest opts operand aside
      | none =>
        match rest with
        | .operand v :: more =>
          match opts.give flag v with
          | .error m => .refused (some c) m
          | .ok opts => c.read before more opts operand aside
        | _ => .refused (some c) ("argument " ++ flag.name ++ ": expected one argument")
    else
      match flag, attached with
      | .help, none => .help (some c)
      | .help, some text =>
        if s == "-h" then
          match runTogether (· == 'h') (fun _ => Flag.help.name) 'h' byEquals text.toList with
          | .ok _ => .help (some c)
          | .error m => .refused (some c) m
        else .refused (some c) (ignoredText flag.name text)
      | _, some text => .refused (some c) (ignoredText flag.name text)
      | _, none =>
        match opts.give flag "" with
        | .ok opts => c.read before rest opts operand aside
        | .error m => .refused (some c) m

/-- Reads the words of the program's round; `args` are the arguments the words
came from, one for one, and `aside` the unknown options met, latest first. -/
def readProgram : List Word → List String → List String → Request
  | [], _, _ => .refused none "the following arguments are required: cmd"
  | [.separator], _, _ => .refused none "the following arguments are required: cmd"
  | .separator :: _, _, _ =>
    .refused none (invalidChoice "cmd" "--" (Command.all.map Command.name))
  | .operand t :: _, args, aside =>
    match Command.ofName? t with
    | none => .refused none (invalidChoice "cmd" t (Command.all.map Command.name))
    | some c =>
      match classifyAll c.spellings (args.drop 1) with
      | .error m => .refused (some c) m
      | .ok words => c.read aside.reverse words {} none []
  | .unknown t :: rest, args, aside => readProgram rest (args.drop 1) (t :: aside)
  | .option s attached byEquals :: rest, args, aside =>
    match Switch.ofWord s attached byEquals with
    | .error m => .refused none m
    | .ok (switches, setAside) =>
      match Switch.request? switches with
      | some r => r
      | none => readProgram rest (args.drop 1) (setAside.toList ++ aside)

/-- Reads a command line. -/
def Request.ofArgs (args : List String) : Request :=
  match classifyAll programSpellings args with
  | .error m => .refused none m
  | .ok words => readProgram words args []

end Branching.Cli

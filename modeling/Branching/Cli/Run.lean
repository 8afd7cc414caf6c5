import Branching.Cli.Arguments
import Branching.Config.Load
import Branching.Template
import Branching.Text.Space

/-!
# Running a command line

`run` carries out a command line in given surroundings (the files, standard
input and environment a command sees) and gives its outcome: the exit status
and the texts written to standard output and standard error.

Every command first loads the configuration (`--config`, the mode variable,
then `--mode` and `--strict-variables` over them). `render` reads the template
(`-` for standard input), parses it, reads the variables and writes the
rendering. `check` parses the template and writes each recovered warning, then
`OK`. `eval` reads the variables, then reads and evaluates the header and writes
`true` or `false`.

Notices raised while reading headers go to standard error as `[WARNING]` lines
as they arise. A failure a template author can mend writes its message,
without trailing white space, to standard error and ends with status 2. Any
other error of the engine (a value no range or key can be made of, a number
too long to read, a document that builds no value) is not handled by the
command at all: it escapes the command line. A command line that cannot be
read ends with status 2 after the usage synopsis.

Configuration files and variables files are read by two YAML loaders, which
keep from one command line to the next the YAML version the last explicit
document start set (`Loaders`).

## Main definitions

- `Surroundings` — the files, standard input and environment.
- `Loaders` — the YAML loaders of configuration and variables files.
- `Outcome` — the exit status and the texts written.
- `Failure` — what a command can fail with.
- `run` — carries out a command line, or gives the error that escapes it.
-/

namespace Branching.Cli

open Text

/-- What a command sees of the world. -/
structure Surroundings where
  /-- The regular files, by normal path. -/
  files : FileView
  /-- The text of standard input. -/
  stdin : String := ""
  /-- The environment variables. -/
  env : String → Option String := fun _ => none

/-- The YAML loaders a command line reads files with: one for configuration
files, one for variables files. -/
structure Loaders where
  config : Yaml.Loader := {}
  vars : Yaml.Loader := {}

/-- What a command leaves behind. -/
structure Outcome where
  exit : Nat
  stdout : String := ""
  stderr : String := ""

/-- What a command can fail with. -/
inductive Failure where
  /-- An error of the engine or its configuration. -/
  | engine (e : Error)
  /-- No template file at the path. -/
  | templateNotFound (path : String)
  /-- No variables file at the path. -/
  | varsNotFound (path : String)
  /-- A variables file holding something other than a mapping. -/
  | varsNotMapping (path : String)
  /-- A variables file that is not a well-formed document, and why. -/
  | varsUnreadable (path : String) (reason : String)

/-- Whether an error is one a template author can mend, as opposed to a value
no range or key can be made of. -/
def Error.isForAuthor : Error → Bool
  | .malformed _ | .unknownOperator _ | .incomparable _ _ _ | .undefined _ | .config _
  | .notAnInteger _ => true
  | _ => false

namespace Failure

/-- The message of a failure. -/
def message : Failure → String
  | .engine e => e.message
  | .templateNotFound p => "Template file not found: " ++ p
  | .varsNotFound p => "Variables file not found: " ++ p
  | .varsNotMapping p => "Variables file " ++ p ++ " must be a mapping"
  | .varsUnreadable p r => "Failed to parse " ++ p ++ ": " ++ r

/-- The error a failure lets escape the command line: an engine error that a
template author cannot mend. -/
def escaping? : Failure → Option Error
  | .engine e => if Error.isForAuthor e then none else some e
  | _ => none

end Failure

/-- The outcome of a failure after `log` was written to standard error: status
2 and the message, or the error that escapes. -/
def Outcome.failed (log : String) (f : Failure) : Except Error Outcome :=
  match f.escaping? with
  | some e => .error e
  | none => .ok { exit := 2, stderr := log ++ stripEnd f.message ++ "\n" }

/-- The lines notices write to standard error. -/
def logLines (notices : List Notice) : String :=
  String.join (notices.map fun n => "[WARNING] " ++ n.text ++ "\n")

/-- The configuration of a command: the file and the environment, then the
options given on the command line; and the configuration loader after
reading the file. -/
def configOf (s : Surroundings) (loader : Yaml.Loader) (opts : Options) : Except Error Config × Yaml.Loader :=
  match Config.load loader s.files opts.config (s.env modeVariable) with
  | (.error e, l) => (.error e, l)
  | (.ok c, l) =>
    (c.withOverrides { errorMode := opts.mode.map fun m => .str m.name,
                       strictVariables := opts.strictVariables }, l)

/-- The text of the template an operand names: standard input for `-`. -/
def readTemplate (s : Surroundings) (operand : String) : Except Failure String :=
  if operand == "-" then .ok s.stdin
  else
    let p := normalPath operand
    match s.files.text p with
    | some t => .ok t
    | none => .error (.templateNotFound p)

/-- The variables a variables file binds, none without a file; and the
variables loader after reading the file. -/
def loadVars (s : Surroundings) (loader : Yaml.Loader) : Option String → Except Failure Bindings × Yaml.Loader
  | none => (.ok [], loader)
  | some arg =>
    let p := normalPath arg
    match s.files.text p with
    | none => (.error (.varsNotFound p), loader)
    | some source =>
      let (read, loader) := loader.readMapping source
      let result := match read with
        | .entries es => .ok es
        | .notMapping => .error (.varsNotMapping p)
        | .failed (.malformed reason) => .error (.varsUnreadable p reason)
        | .failed (.failed e) => .error (.engine e)
      (result, loader)

/-- Parses a template; gives what the parse logged and the template or the failure. -/
def parseTemplate (source : String) (cfg : Config) : String × Except Failure Template :=
  let (notices, r) := Template.parse source cfg
  (logLines notices, r.mapError fun e => .engine (.malformed e))

/-- Carries out `render`, reading the variables with `loader`; gives also the
loader after that. -/
def render (s : Surroundings) (loader : Yaml.Loader) (cfg : Config) (operand : String) (opts : Options) :
    Except Error Outcome × Yaml.Loader :=
  match readTemplate s operand with
  | .error f => (Outcome.failed "" f, loader)
  | .ok source =>
    match parseTemplate source cfg with
    | (log, .error f) => (Outcome.failed log f, loader)
    | (log, .ok t) =>
      match loadVars s loader opts.vars with
      | (.error f, l) => (Outcome.failed log f, l)
      | (.ok vars, l) =>
        match t.render vars with
        | .error e => (Outcome.failed log (.engine e), l)
        | .ok out => (.ok { exit := 0, stdout := out, stderr := log }, l)

/-- Carries out `check`. -/
def check (s : Surroundings) (cfg : Config) (operand : String) : Except Error Outcome :=
  match readTemplate s operand with
  | .error f => Outcome.failed "" f
  | .ok source =>
    match parseTemplate source cfg with
    | (log, .error f) => Outcome.failed log f
    | (log, .ok t) =>
      let warnings := String.join (t.warnings.map fun w => "warning: " ++ w.message ++ "\n")
      .ok { exit := 0, stdout := "OK\n", stderr := log ++ warnings }

/-- Carries out `eval`, reading the variables with `loader`; gives also the
loader after that. -/
def eval (s : Surroundings) (loader : Yaml.Loader) (cfg : Config) (operand : String) (opts : Options) :
    Except Error Outcome × Yaml.Loader :=
  match loadVars s loader opts.vars with
  | (.error f, l) => (Outcome.failed "" f, l)
  | (.ok vars, l) =>
    let ctx : Context := { root := vars, strictVariables := cfg.strictVariables }
    match cfg.errorMode.evaluate cfg.maxChainLength ctx operand with
    | (notices, .error e) => (Outcome.failed (logLines notices) (.engine e), l)
    | (notices, .ok b) =>
      (.ok { exit := 0, stdout := if b then "true\n" else "false\n", stderr := logLines notices }, l)

/-- The version line. -/
def versionLine : String := "lcond 0.1.0\n"

/-- The width help and usage texts are laid out for in given surroundings. -/
def Surroundings.width (s : Surroundings) : Int := layoutWidth (s.env "COLUMNS")

/-- Carries out a request with the given loaders: its outcome, or the error
that escapes it; and the loaders after it. -/
def Request.perform (s : Surroundings) (ls : Loaders) : Request → Except Error Outcome × Loaders
  | .version => (.ok { exit := 0, stdout := versionLine }, ls)
  | .help none => (.ok { exit := 0, stdout := programHelp s.width }, ls)
  | .help (some c) => (.ok { exit := 0, stdout := c.help s.width }, ls)
  | .refused none reason =>
    (.ok { exit := 2, stderr := programUsage s.width ++ "lcond: error: " ++ reason ++ "\n" }, ls)
  | .refused (some c) reason =>
    (.ok { exit := 2, stderr := c.usage s.width ++ c.program ++ ": error: " ++ reason ++ "\n" }, ls)
  | .run c operand opts =>
    match configOf s ls.config opts with
    | (.error e, config) => (Outcome.failed "" (.engine e), { ls with config })
    | (.ok cfg, config) =>
      let ls := { ls with config }
      match c with
      | .render => let (r, vars) := render s ls.vars cfg operand opts; (r, { ls with vars })
      | .check => (check s cfg operand, ls)
      | .eval => let (r, vars) := eval s ls.vars cfg operand opts; (r, { ls with vars })

/-- The files a request may read, by normal path. -/
def Request.reads : Request → List String
  | .run c operand opts =>
    let template := if c != .eval && operand != "-" then [normalPath operand] else []
    (opts.config.map normalPath).toList ++ template ++ (opts.vars.map normalPath).toList
  | _ => []

/-- Whether a request reads standard input: a template named `-`. -/
def Request.readsInput : Request → Bool
  | .run c operand _ => c != .eval && operand == "-"
  | _ => false

/-- Carries out a command line with the given loaders: its outcome, or the
error that escapes it; and the loaders after it. -/
def run (s : Surroundings) (ls : Loaders) (args : List String) : Except Error Outcome × Loaders :=
  (Request.ofArgs args).perform s ls

end Branching.Cli

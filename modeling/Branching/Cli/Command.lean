import Branching.Condition.Mode

/-!
# Commands and their options

The command line has three commands: `render` a template, `check` a template,
and `eval` one header. Each takes one operand (a template path, `-` for
standard input, or the header) and some of these long options:

- `--mode M` — the header mode, one of `lax`, `warn`, `strict`;
- `--config FILE` — the engine configuration file;
- `--vars FILE` — the variables file (`render` and `eval` only);
- `--strict-variables` — undefined variables are errors (`render` and `eval` only).

Above the commands stand the switches `-h`, `-V` (the version) and `-v`.

## Main definitions

- `Command` — the three commands, with `Command.flags` listing their options.
- `Flag` — the options a command takes.
- `Options` — the options given, each `none` when absent.
- `Request` — what a command line asks for, once read.
-/

namespace Branching.Cli

/-- The three commands. -/
inductive Command where
  | render
  | check
  | eval
  deriving DecidableEq, Repr

namespace Command

/-- All commands, in the order help lists them. -/
def all : List Command := [.render, .check, .eval]

/-- The name a command is called by. -/
def name : Command → String
  | .render => "render"
  | .check => "check"
  | .eval => "eval"

/-- The command a name calls, if any. -/
def ofName? (s : String) : Option Command := all.find? (·.name == s)

/-- The name of a command's operand, as help and errors write it. -/
def operandName : Command → String
  | .eval => "expression"
  | _ => "template"

end Command

/-- The options of a command. -/
inductive Flag where
  | help
  | mode
  | config
  | vars
  | strictVariables
  deriving DecidableEq, Repr

namespace Flag

/-- How an option is written. -/
def spelling : Flag → String
  | .help => "--help"
  | .mode => "--mode"
  | .config => "--config"
  | .vars => "--vars"
  | .strictVariables => "--strict-variables"

/-- Whether an option takes a value. -/
def takesValue : Flag → Bool
  | .mode | .config | .vars => true
  | .help | .strictVariables => false

end Flag

/-- The options each command takes, in the order help lists them. -/
def Command.flags : Command → List Flag
  | .check => [.help, .mode, .config]
  | _ => [.help, .mode, .config, .vars, .strictVariables]

/-- The options given to a command; `none` for an option not given. -/
structure Options where
  mode : Option Mode := none
  config : Option String := none
  vars : Option String := none
  strictVariables : Option Bool := none

/-- What a command line asks for. -/
inductive Request where
  /-- Print the version. -/
  | version
  /-- Print the help of the program or of a command. -/
  | help (command : Option Command)
  /-- A command line that cannot be read, with the reason. -/
  | refused (command : Option Command) (reason : String)
  /-- Run a command on its operand with the options given. -/
  | run (command : Command) (operand : String) (options : Options)

end Branching.Cli

import Branching.Cli.Command
import Branching.Cli.Help
import Branching.Number.IntegerText

/-!
# Usage and help texts

The texts the command line prints for `-h` and above the reason of a refused
command line: a usage synopsis, the program's description, the operand and the
options each with its help, laid out (`Cli.Help`) for the terminal width.

The width is two less than the number of columns the `COLUMNS` variable
names, or than 80 when it names no positive integer.
-/

namespace Branching.Cli

/-- The width help is laid out for, from the value of `COLUMNS`. -/
def layoutWidth (columns : Option String) : Int :=
  let n := match columns.bind fun t => Number.readInteger? t.toList with
    | some n => if 0 < n then n else 80
    | none => 80
  n - 2

/-- The choices of the mode option, as help writes them. -/
def modeChoiceList : String := "\x7blax,warn,strict\x7d"

/-- The commands, as help writes the command operand. -/
def commandChoices : String := "\x7b" ++ ",".intercalate (Command.all.map Command.name) ++ "\x7d"

/-- The synopsis of the program. -/
def programSynopsis : Synopsis :=
  ⟨"lcond", ["[-h]", "[-V]", "[-v]"], [commandChoices, "..."]⟩

/-- The synopsis part of an option. -/
def Flag.part : Flag → String
  | .help => "[-h]"
  | .mode => "[--mode " ++ modeChoiceList ++ "]"
  | .config => "[--config FILE]"
  | .vars => "[--vars FILE]"
  | .strictVariables => "[--strict-variables]"

/-- How help lists an option. -/
def Flag.invocation : Flag → String
  | .help => "-h, --help"
  | .mode => "--mode " ++ modeChoiceList
  | .config => "--config FILE"
  | .vars => "--vars FILE"
  | .strictVariables => "--strict-variables"

/-- The help of an option. -/
def Flag.helpText : Flag → String
  | .help => "show this help message and exit"
  | .mode => "header grammar (overrides config and LCOND_ERROR_MODE)"
  | .config => "YAML engine config"
  | .vars => "YAML mapping of template variables"
  | .strictVariables => "fail on undefined variables"

/-- The name a command's messages start with. -/
def Command.program (c : Command) : String := "lcond " ++ c.name

/-- The synopsis of a command. -/
def Command.synopsis (c : Command) : Synopsis :=
  ⟨c.program, c.flags.map Flag.part, [c.operandName]⟩

/-- What help says a command does. -/
def Command.summary : Command → String
  | .render => "render a template to stdout"
  | .check => "parse a template and report syntax errors"
  | .eval => "evaluate one condition header"

/-- What help says of a command's operand. -/
def Command.operandHelp : Command → String
  | .eval => "e.g. \"user.admin and count > 0\""
  | _ => "template file, or - for stdin"

/-- The help page of the program. -/
def programPage : Page where
  synopsis := programSynopsis
  description := some "Conditional templates (if / elsif / else)"
  sections := [
    ⟨"positional arguments", [⟨commandChoices, none, Command.all.map fun c => (c.name, c.summary)⟩]⟩,
    ⟨"options", [
      ⟨"-h, --help", some (Flag.helpText .help), []⟩,
      ⟨"-V, --version", some "show program's version number and exit", []⟩,
      ⟨"-v, --verbose", some "debug logging to stderr", []⟩]⟩]

/-- The help page of a command. -/
def Command.page (c : Command) : Page where
  synopsis := c.synopsis
  description := none
  sections := [
    ⟨"positional arguments", [⟨c.operandName, some c.operandHelp, []⟩]⟩,
    ⟨"options", c.flags.map fun f => ⟨f.invocation, some f.helpText, []⟩⟩]

/-- The synopsis of the program, as printed above a refusal. -/
def programUsage (width : Int) : String := programSynopsis.usage width

/-- The synopsis of a command, as printed above a refusal. -/
def Command.usage (c : Command) (width : Int) : String := c.synopsis.usage width

/-- The help of the program. -/
def programHelp (width : Int) : String := programPage.text width

/-- The help of a command. -/
def Command.help (c : Command) (width : Int) : String := c.page.text width

end Branching.Cli

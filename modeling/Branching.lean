import Branching.Calendar
import Branching.Cli.Arguments
import Branching.Cli.Command
import Branching.Cli.Help
import Branching.Cli.Run
import Branching.Cli.Usage
import Branching.Comparison
import Branching.Condition.Basic
import Branching.Condition.Lenient
import Branching.Condition.Mode
import Branching.Condition.Strict
import Branching.Condition.Token
import Branching.Config
import Branching.Config.Load
import Branching.Error
import Branching.FileView
import Branching.Main
import Branching.Number.Binary64
import Branching.Number.Decimal
import Branching.Number.FloatText
import Branching.Number.IntegerText
import Branching.Operand.Basic
import Branching.Operand.Parser
import Branching.Operand.Resolve
import Branching.Operand.Scan
import Branching.Scope
import Branching.Template
import Branching.Template.Conditional
import Branching.Template.Node
import Branching.Template.Parser
import Branching.Template.Token
import Branching.Text.Base64
import Branching.Text.Class
import Branching.Text.CodePoint
import Branching.Text.Digit
import Branching.Text.Printable
import Branching.Text.Quoted
import Branching.Text.Space
import Branching.Text.Word
import Branching.Value.Basic
import Branching.Value.Hash
import Branching.Value.Layout
import Branching.Value.Order
import Branching.Value.Sorting
import Branching.Value.Text
import Branching.Yaml.Compose
import Branching.Yaml.Construct
import Branching.Yaml.Cursor
import Branching.Yaml.Document
import Branching.Yaml.Mark
import Branching.Yaml.Node
import Branching.Yaml.Resolve
import Branching.Yaml.Timestamp
import Branching.Yaml.Token
import Branching.Yaml.Token.Lexer
import Branching.Yaml.Token.Scalar
import Branching.Yaml.Token.State
import Branching.Proofs.Evaluation
import Branching.Proofs.Lexing
import Branching.Proofs.Grammar
import Branching.Proofs.OperandText
import Branching.Proofs.OperandTree
import Branching.Proofs.StrictParser
import Branching.Proofs.OperandMarkup
import Branching.Proofs.StrictText
import Branching.Proofs.LenientText
import Branching.Proofs.StrictVariables
import Branching.Proofs.ScopeStack
import Branching.Proofs.ChainBuilding
import Branching.Proofs.TemplateGrammar
import Branching.Proofs.ModeAgreement
import Branching.Proofs.BranchSelection
import Branching.Proofs.LenientSplit
import Branching.Proofs.BlankConditionals
import Branching.Proofs.HeaderTiling
import Branching.Proofs.TemplateTiling
import Branching.Proofs.ChainBound
import Branching.Proofs.ResolveFaults
import Branching.Proofs.DataEquality
import Branching.Proofs.Comparator
import Branching.Proofs.TemplateErrors
import Branching.Proofs.TemplateWarnings
import Branching.Proofs.HeaderFaults
import Branching.Proofs.RemainingKeys
import Branching.Proofs.ConfigOverrides
